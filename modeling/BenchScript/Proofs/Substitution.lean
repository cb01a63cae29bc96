import BenchScript.Display
import BenchScript.Script.Variables

set_option autoImplicit false

namespace BenchScript

namespace Text

def spacedWords (text : Text) : List Text := text.splitOn ' '

/-- What stands before the first dollar sign of a word, and the name behind it. A dollar sign at the
end of a word has no name. -/
def reference? (word : Text) : Option (Text × Text) :=
  (splitOnce ['$'] word).filter fun cut => cut.2 ≠ []

def names (text : Text) : List Text :=
  (spacedWords text).filterMap fun word => (reference? word).map Prod.snd

def fillWord (value : Text → Text) (word : Text) : Text :=
  match reference? word with
  | some (before, name) => before ++ value name
  | none => word

def fillWords (value : Text → Text) (text : Text) : Text :=
  [' '].intercalate ((spacedWords text).map (fillWord value))

theorem splitOnce_dollar (name : Text) : splitOnce ['$'] ('$' :: name) = some ([], name) := by
  simp [splitOnce]

theorem splitOnce_dollar_of_ne {c : Char} (h : c ≠ '$') (rest : Text) :
    splitOnce ['$'] (c :: rest)
      = (splitOnce ['$'] rest).map fun cut => (c :: cut.1, cut.2) := by
  have hne : ('$' == c) = false := beq_false_of_ne (Ne.symm h)
  rw [splitOnce, List.isPrefixOf, hne]
  rfl

theorem reference?_cons_of_ne {c : Char} (h : c ≠ '$') (rest : Text) :
    reference? (c :: rest) = (reference? rest).map fun cut => (c :: cut.1, cut.2) := by
  unfold reference?
  rw [splitOnce_dollar_of_ne h]
  cases splitOnce ['$'] rest with
  | none => rfl
  | some cut =>
    simp only [Option.map_some, Option.filter_some]
    split <;> rfl

theorem reference?_dollar (name : Text) :
    reference? ('$' :: name) = if name = [] then none else some ([], name) := by
  unfold reference?
  rw [splitOnce_dollar, Option.filter_some]
  by_cases h : name = [] <;> simp [h]

theorem reference?_of_not_mem {word : Text} (h : '$' ∉ word) : reference? word = none := by
  induction word with
  | nil => rfl
  | cons c rest ih =>
    rw [reference?_cons_of_ne fun heq => h (heq ▸ List.mem_cons_self),
      ih fun hmem => h (List.mem_cons_of_mem _ hmem)]
    rfl

/-- It is the first dollar sign that counts. Any others belong to the name. -/
theorem reference?_append {before : Text} (h : '$' ∉ before) (name : Text) :
    reference? (before ++ '$' :: name) = if name = [] then none else some (before, name) := by
  induction before with
  | nil => exact reference?_dollar name
  | cons c rest ih =>
    rw [List.cons_append, reference?_cons_of_ne fun heq => h (heq ▸ List.mem_cons_self),
      ih fun hmem => h (List.mem_cons_of_mem _ hmem)]
    split <;> rfl

/-- A text is one word or has a first word, and a space behind it. -/
theorem spacedWords_induction {motive : Text → Prop} (word : ∀ word, ' ' ∉ word → motive word)
    (append : ∀ word rest, ' ' ∉ word → motive rest → motive (word ++ ' ' :: rest))
    (text : Text) : motive text := by
  by_cases h : ' ' ∈ text
  · obtain ⟨first, rest, hcut, hfirst⟩ := List.eq_append_cons_of_mem h
    rw [hcut]
    exact append first rest hfirst (spacedWords_induction word append rest)
  · exact word text h
termination_by text.length
decreasing_by
  rw [hcut, List.length_append, List.length_cons]
  omega

theorem spacedWords_word {word : Text} (h : ' ' ∉ word) : spacedWords word = [word] :=
  List.splitOn_eq_singleton h

theorem spacedWords_append {word : Text} (h : ' ' ∉ word) (rest : Text) :
    spacedWords (word ++ ' ' :: rest) = word :: spacedWords rest :=
  List.splitOn_append_cons_self_of_not_mem h rest

def wordNames (word : Text) : List Text := ((reference? word).map Prod.snd).toList

theorem names_word {word : Text} (h : ' ' ∉ word) : names word = wordNames word := by
  rw [names, spacedWords_word h, wordNames]
  cases hword : reference? word <;> simp [hword]

theorem names_append {word : Text} (h : ' ' ∉ word) (rest : Text) :
    names (word ++ ' ' :: rest) = wordNames word ++ names rest := by
  rw [names, spacedWords_append h, wordNames]
  cases hword : reference? word <;> simp [hword, names]

theorem fillWords_word {word : Text} (h : ' ' ∉ word) (value : Text → Text) :
    fillWords value word = fillWord value word := by
  rw [fillWords, spacedWords_word h, List.map_singleton, List.intercalate_singleton]

theorem fillWords_append {word : Text} (h : ' ' ∉ word) (value : Text → Text) (rest : Text) :
    fillWords value (word ++ ' ' :: rest) = fillWord value word ++ ' ' :: fillWords value rest := by
  have hne : (spacedWords rest).map (fillWord value) ≠ [] :=
    mt List.map_eq_nil_iff.1 (List.splitOn_ne_nil ' ' rest)
  unfold fillWords
  rw [spacedWords_append h, List.map_cons, List.intercalate_cons_of_ne_nil hne, List.append_assoc]
  rfl

end Text

namespace Piece

def references (pieces : List Piece) : List Text :=
  pieces.filterMap fun
    | .plain _ => none
    | .reference name => some name

theorem references_append (pieces pieces' : List Piece) :
    references (pieces ++ pieces') = references pieces ++ references pieces' :=
  List.filterMap_append

theorem render_append (value : Text → Text) (pieces pieces' : List Piece) :
    render value (pieces ++ pieces') = render value pieces ++ render value pieces' := by
  induction pieces with
  | nil => rfl
  | cons piece rest ih => cases piece <;> simp [render, ih]

theorem expand_append {ε : Type} (value : Text → Except ε Text) (pieces pieces' : List Piece) :
    expand value (pieces ++ pieces')
      = (expand value pieces).bind fun text => (expand value pieces').map (text ++ ·) := by
  induction pieces with
  | nil =>
    cases h : expand value pieces' <;> simp [expand, h, Except.bind, Except.map]
  | cons piece rest ih =>
    rw [List.cons_append]
    cases piece with
    | plain c =>
      simp only [expand, ih]
      cases expand value rest with
      | error e => rfl
      | ok text => cases expand value pieces' <;> rfl
    | reference name =>
      simp only [expand, ih]
      cases value name with
      | error e => rfl
      | ok replacement =>
        cases expand value rest with
        | error e => rfl
        | ok text =>
          cases expand value pieces' with
          | error e => rfl
          | ok text' => simp [Except.bind, Except.map]

theorem takeWhile_inName_append (name rest : Text) :
    (name ++ ' ' :: rest).takeWhile inName = name.takeWhile inName := by
  induction name with
  | nil => rfl
  | cons c name ih =>
    rw [List.cons_append, List.takeWhile_cons, List.takeWhile_cons, ih]

/-- Nothing in front of a space changes what comes behind it, and the other way round. -/
theorem ofText_append_space (text rest : Text) :
    ofText (text ++ ' ' :: rest) = ofText text ++ .plain ' ' :: ofText rest := by
  fun_induction ofText text with
  | case1 =>
    rw [List.nil_append, ofText, if_neg fun h => absurd h.1 (by decide)]
    rfl
  | case2 c after hreference ih =>
    have htake := takeWhile_inName_append after rest
    -- A name ends before a space, so what is left behind it begins there at the latest.
    have hdrop : (after ++ ' ' :: rest).dropWhile inName
        = after.dropWhile inName ++ ' ' :: rest := by
      rw [List.dropWhile_append]
      split
      · next hnone => simp [List.isEmpty_iff.1 hnone, inName]
      · rfl
    rw [List.cons_append, ofText, htake, hdrop, if_pos hreference, ih]
    rfl
  | case3 c after hplain ih =>
    have htake := takeWhile_inName_append after rest
    rw [List.cons_append, ofText, htake, if_neg hplain, ih]
    rfl

theorem takeWhile_inName {word : Text} (h : ' ' ∉ word) : word.takeWhile inName = word := by
  induction word with
  | nil => rfl
  | cons c rest ih =>
    have hc : c ≠ ' ' := fun heq => h (heq ▸ List.mem_cons_self)
    rw [List.takeWhile_cons_of_pos (by simpa [inName] using hc),
      ih fun hmem => h (List.mem_cons_of_mem _ hmem)]

theorem dropWhile_inName {word : Text} (h : ' ' ∉ word) : word.dropWhile inName = [] := by
  have hcut : word.takeWhile inName ++ word.dropWhile inName = word :=
    List.takeWhile_append_dropWhile
  rw [takeWhile_inName h] at hcut
  exact List.append_right_eq_self.1 hcut

/-- A word is its characters up to the reference, and the reference. -/
theorem ofText_word {word : Text} (h : ' ' ∉ word) :
    ofText word = match Text.reference? word with
      | some (before, name) => before.map .plain ++ [.reference name]
      | none => word.map .plain := by
  induction word with
  | nil =>
    rw [ofText]
    rfl
  | cons c rest ih =>
    have hrest : ' ' ∉ rest := fun hmem => h (List.mem_cons_of_mem _ hmem)
    rw [ofText, takeWhile_inName hrest, dropWhile_inName hrest, ih hrest]
    by_cases hc : c = '$'
    · subst hc
      rw [Text.reference?_dollar]
      by_cases hname : rest = []
      · subst hname
        rfl
      · rw [if_pos ⟨rfl, hname⟩, if_neg hname, ofText]
        rfl
    · rw [if_neg fun hmatch => hc hmatch.1, Text.reference?_cons_of_ne hc]
      cases Text.reference? rest <;> rfl

theorem render_plain (value : Text → Text) (text : Text) :
    render value (text.map .plain) = text := by
  induction text with
  | nil => rfl
  | cons c rest ih => rw [List.map_cons, render, ih]

theorem references_plain (text : Text) : references (text.map .plain) = [] := by
  simp [references]

theorem render_word {word : Text} (h : ' ' ∉ word) (value : Text → Text) :
    render value (ofText word) = Text.fillWord value word := by
  rw [ofText_word h, Text.fillWord]
  cases Text.reference? word with
  | none => exact render_plain value word
  | some cut => simp only [render_append, render_plain, render, List.append_nil]

theorem render_ofText (value : Text → Text) (text : Text) :
    render value (ofText text) = Text.fillWords value text := by
  induction text using Text.spacedWords_induction with
  | word word h => rw [render_word h, Text.fillWords_word h]
  | append word rest h ih =>
    rw [ofText_append_space, render_append, render_word h, render, ih, Text.fillWords_append h]

theorem references_word {word : Text} (h : ' ' ∉ word) :
    references (ofText word) = Text.wordNames word := by
  rw [ofText_word h, Text.wordNames]
  cases Text.reference? word with
  | none => exact references_plain word
  | some cut =>
    rw [references_append, references_plain]
    rfl

theorem references_ofText (text : Text) : references (ofText text) = Text.names text := by
  induction text using Text.spacedWords_induction with
  | word word h => rw [references_word h, Text.names_word h]
  | append word rest h ih =>
    have hspace : references (.plain ' ' :: ofText rest) = references (ofText rest) := rfl
    rw [ofText_append_space, references_append, references_word h, hspace, ih,
      Text.names_append h]

end Piece

namespace Variables

/-- Pieces are replaced if all their names are defined. Otherwise the first that is not decides. -/
theorem expand_pieces (bindings : Variables) (other : Text) (pieces : List Piece) :
    Piece.expand bindings.valueOf pieces
      = match (Piece.references pieces).find? fun name => (bindings.get? name).isNone with
        | some name => .error (.undefinedVariable name)
        | none => .ok (Piece.render (fun name => (bindings.get? name).getD other) pieces) := by
  induction pieces with
  | nil => rfl
  | cons piece rest ih =>
    cases piece with
    | plain c =>
      have hnames : Piece.references (.plain c :: rest) = Piece.references rest := rfl
      rw [Piece.expand, ih, hnames]
      cases (Piece.references rest).find? fun name => (bindings.get? name).isNone <;> rfl
    | reference name =>
      have hnames : Piece.references (.reference name :: rest) = name :: Piece.references rest :=
        rfl
      rw [Piece.expand, valueOf, hnames]
      cases hvalue : bindings.get? name with
      | none => simp [hvalue]
      | some value =>
        rw [List.find?_cons_of_neg (by simp [hvalue])]
        simp only [ih]
        cases (Piece.references rest).find? fun name => (bindings.get? name).isNone with
        | none => simp [Piece.render, hvalue]
        | some name => rfl

theorem expand_eq (bindings : Variables) (other text : Text) :
    bindings.expand text
      = match (Text.names text).find? fun name => (bindings.get? name).isNone with
        | some name => .error (.undefinedVariable name)
        | none => .ok (Text.fillWords (fun name => (bindings.get? name).getD other) text) := by
  rw [expand, bindings.expand_pieces other, Piece.references_ofText, Piece.render_ofText]

theorem expand_append_space (bindings : Variables) (text rest : Text) :
    bindings.expand (text ++ ' ' :: rest)
      = (bindings.expand text).bind fun out =>
          (bindings.expand rest).map fun out' => out ++ ' ' :: out' := by
  unfold expand
  rw [Piece.ofText_append_space, Piece.expand_append, Piece.expand]
  cases Piece.expand bindings.valueOf (Piece.ofText rest) <;> rfl

end Variables

namespace Display

theorem expand_eq (lookup : Text → Option Text) (text : Text) :
    expand lookup text
      = Text.fillWords (fun name => (lookup name).getD unknownPlaceholder) text :=
  Piece.render_ofText _ text

theorem expand_append_space (lookup : Text → Option Text) (text rest : Text) :
    expand lookup (text ++ ' ' :: rest) = expand lookup text ++ ' ' :: expand lookup rest := by
  unfold expand
  rw [Piece.ofText_append_space, Piece.render_append, Piece.render]

end Display

/-- What is sent and what is shown go by one rule for words. A word without a dollar sign and one
that ends in its first dollar sign stay as they are; any other has a name behind its first dollar
sign, which gives way to its value. Where a name is not defined nothing is sent and the first such
name is to blame, but it is shown as unknown. Texts that a space joins are replaced one by one. -/
theorem Variables.expand_by_words (bindings : Variables) (lookup : Text → Option Text) :
    (∀ word, '$' ∉ word → Text.reference? word = none) ∧
    (∀ before name, '$' ∉ before →
      Text.reference? (before ++ '$' :: name) = if name = [] then none else some (before, name)) ∧
    (∀ text, bindings.expand text
      = match (Text.names text).find? fun name => (bindings.get? name).isNone with
        | some name => .error (.undefinedVariable name)
        | none => .ok (Text.fillWords
            (fun name => (bindings.get? name).getD Display.unknownPlaceholder) text)) ∧
    (∀ text, Display.expand lookup text
      = Text.fillWords (fun name => (lookup name).getD Display.unknownPlaceholder) text) ∧
    (∀ text out, bindings.expand text = .ok out → Display.expand bindings.get? text = out) ∧
    (∀ text rest, bindings.expand (text ++ ' ' :: rest)
      = (bindings.expand text).bind fun out =>
          (bindings.expand rest).map fun out' => out ++ ' ' :: out') ∧
    ∀ text rest, Display.expand lookup (text ++ ' ' :: rest)
      = Display.expand lookup text ++ ' ' :: Display.expand lookup rest := by
  refine ⟨fun _ => Text.reference?_of_not_mem, fun _ name h => Text.reference?_append h name,
    bindings.expand_eq Display.unknownPlaceholder, Display.expand_eq lookup, ?_,
    bindings.expand_append_space, Display.expand_append_space lookup⟩
  intro text out h
  rw [bindings.expand_eq Display.unknownPlaceholder] at h
  split at h
  · cases h
  · rw [Display.expand_eq]
    exact Except.ok.inj h

def priced : Variables := (Table.empty.insert ['a'] "$b c".toList).insert "$b".toList ['2']

/-- Neither the dollar sign that comes with a value nor one at the end of a word is a reference. -/
theorem Variables.expand_by_words_priced :
    priced.expand "p$a  x$ q$$b".toList = .ok "p$b c  x$ q2".toList ∧
      Display.expand priced.get? "p$a  x$ q$$b".toList = "p$b c  x$ q2".toList := by
  obtain ⟨-, -, hstrict, -, hshown, -, -⟩ := expand_by_words priced priced.get?
  have hsent : priced.expand "p$a  x$ q$$b".toList = .ok "p$b c  x$ q2".toList :=
    (hstrict _).trans rfl
  exact ⟨hsent, hshown _ _ hsent⟩

end BenchScript
