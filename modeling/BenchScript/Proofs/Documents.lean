import BenchScript.Proofs.Scanning
import BenchScript.Yaml.Node

set_option autoImplicit false

/-!
# Mappings that are written down

A mapping of words to scalars is written with one line for each entry. It is read back as it was:
the letters are cut into the tokens of a block mapping, and the tokens make up that mapping.
-/
namespace BenchScript.Yaml

def isPlainChar (c : Char) : Bool := c.isAlphanum || c == '_'

def IsWord (text : Text) : Prop := text ≠ [] ∧ ∀ c ∈ text, isPlainChar c = true

variable {c : Char}

theorem ne_of_isPlainChar (h : isPlainChar c = true) {d : Char} (hd : isPlainChar d = false) :
    c ≠ d := by
  rintro rfl
  rw [h] at hd
  cases hd

theorem toNat_bounds {low high : UInt32} (h : low ≤ c.val ∧ c.val ≤ high) :
    low.toNat ≤ c.toNat ∧ c.toNat ≤ high.toNat :=
  ⟨UInt32.le_iff_toNat_le.1 h.1, UInt32.le_iff_toNat_le.1 h.2⟩

theorem toNat_of_isPlainChar (h : isPlainChar c = true) : 0x20 ≤ c.toNat ∧ c.toNat ≤ 0x7E := by
  simp only [isPlainChar, Char.isAlphanum, Bool.or_eq_true, beq_iff_eq] at h
  rcases h with (halpha | hdigit) | rfl
  · rcases Bool.or_eq_true_iff.1 halpha with hupper | hlower
    · have hbounds : 65 ≤ c.toNat ∧ c.toNat ≤ 90 := toNat_bounds (of_decide_eq_true hupper)
      omega
    · obtain ⟨hlow, hhigh⟩ := Bool.and_eq_true_iff.1 hlower
      have hbounds : 97 ≤ c.toNat ∧ c.toNat ≤ 122 :=
        toNat_bounds ⟨of_decide_eq_true hlow, of_decide_eq_true hhigh⟩
      omega
  · simp only [Char.isDigit, Bool.and_eq_true, decide_eq_true_eq] at hdigit
    have hbounds : 48 ≤ c.toNat ∧ c.toNat ≤ 57 := toNat_bounds hdigit
    omega
  · decide

theorem utf8Size_of_isPlainChar (h : isPlainChar c = true) : c.utf8Size = 1 := by
  rw [Char.utf8Size_eq_one_iff, UInt32.le_iff_toNat_le]
  exact Nat.le_succ_of_le (toNat_of_isPlainChar h).2

theorem isBlank_of_isPlainChar (h : isPlainChar c = true) : isBlank c = false := by
  simp [isBlank, ne_of_isPlainChar h (d := ' ') (by decide),
    ne_of_isPlainChar h (d := '\t') (by decide)]

theorem isBreak_of_isPlainChar (h : isPlainChar c = true) : isBreak c = false := by
  simp [isBreak, Text.newline, ne_of_isPlainChar h (d := '\n') (by decide),
    ne_of_isPlainChar h (d := '\u2028') (by decide),
    ne_of_isPlainChar h (d := '\u2029') (by decide)]

theorem isFlowSign_of_isPlainChar (h : isPlainChar c = true) : isFlowSign c = false := by
  have hne := fun d hd => beq_eq_false_iff_ne.2 (ne_of_isPlainChar h (d := d) hd)
  simp only [isFlowSign, hne ',' (by decide), hne '[' (by decide), hne ']' (by decide),
    hne '\x7b' (by decide), hne '\x7d' (by decide), Bool.or_self]

theorem isIndicator_of_isPlainChar (h : isPlainChar c = true) : Cut.isIndicator c = false := by
  have hplain : ("-?:#&*!|>'\"%@".toList.all fun d => !isPlainChar d) = true := by decide
  have hsigns : "-?:#&*!|>'\"%@".toList.contains c = false := by
    rw [Bool.eq_false_iff]
    intro hmem
    have hc := List.all_eq_true.1 hplain c (List.contains_iff_mem.1 hmem)
    rw [h] at hc
    cases hc
  have hquote := beq_eq_false_iff_ne.2 (ne_of_isPlainChar h (d := '\x60') (by decide))
  rw [Cut.isIndicator, isFlowSign_of_isPlainChar h, hsigns, hquote]
  rfl

theorem startsPlain_of_isPlainChar {letter : Letter} (h : isPlainChar letter.char = true)
    (inFlow : Bool) (rest : List Letter) : Cut.startsPlain inFlow letter rest = true := by
  simp only [Cut.startsPlain, isIndicator_of_isPlainChar h, isBlank_of_isPlainChar h,
    isBreak_of_isPlainChar h, Bool.or_self, Bool.not_false, Bool.true_or]

theorem plainFrom_word {floor : Nat} {word : List Letter} (rest : List Letter)
    (h : ∀ letter ∈ word, isPlainChar letter.char = true) :
    plainFrom floor false .empty (word ++ rest)
      = (plainFrom floor false .empty rest).map (Reading.after (word.map Letter.char)) := by
  induction word with
  | nil =>
    rw [List.nil_append, List.map_nil]
    exact Option.map_id'.symm
  | cons letter word ih =>
    have hplain := h letter (List.mem_cons_self ..)
    have hstarts := startsPlain_of_isPlainChar hplain false (word ++ rest)
    rw [List.cons_append, Cut.plainFrom_of_startsPlain hstarts,
      ih fun other hmem => h other (List.mem_cons_of_mem _ hmem), Option.map_map]
    rfl

/-- A word ends at a colon that a blank follows. -/
theorem plainFrom_colon {floor : Nat} {colon : Letter} {rest : List Letter}
    (hcolon : colon.char = ':') (hends : endsWord rest = true) :
    plainFrom floor false .empty (colon :: rest) = some ⟨[], colon :: rest, false⟩ := by
  rw [plainFrom]
  simp [hcolon, hends, isBlank, isBreak, Text.newline]
  decide

def StartsLine (letters : List Letter) : Prop :=
  ∀ letter ∈ letters.head?, letter.column = 0 ∧ isPlainChar letter.char = true

theorem plainFrom_newline {newline : Letter} {rest : List Letter}
    (hnewline : newline.char = Text.newline) (hrest : StartsLine rest) :
    plainFrom 1 false .empty (newline :: rest) = some ⟨[], rest, true⟩ := by
  rw [plainFrom]
  simp only [hnewline]
  rw [if_neg (by decide), if_pos (by decide)]
  cases rest with
  | nil => rfl
  | cons letter rest =>
    obtain ⟨hcolumn, hplain⟩ := hrest letter rfl
    rw [plainFrom]
    simp [isBlank_of_isPlainChar hplain, isBreak_of_isPlainChar hplain, hcolumn, Gap.empty,
      Gap.addBreak, Gap.hasLineEnd]

theorem startsMark_of_column {sign : Char} {letter : Letter} (h : letter.column ≠ 0)
    (rest : List Letter) : startsMark sign (letter :: rest) = false := by
  simp [startsMark, h]

theorem startsMark_of_ne {sign : Char} {letter : Letter} (h : letter.char ≠ sign)
    (rest : List Letter) : startsMark sign (letter :: rest) = false := by
  have hfirst : (((letter :: rest).take 3).map Letter.char == [sign, sign, sign]) = false := by
    rw [List.take_succ_cons, List.map_cons, List.cons_beq_cons, beq_eq_false_iff_ne.2 h,
      Bool.false_and]
  rw [startsMark, hfirst, Bool.and_false, Bool.false_and]

def doubled (text : Text) : Text := text.flatMap fun c => if c = '\'' then ['\'', '\''] else [c]

section Quoted

variable {letter : Letter} {rest : List Letter} {gap : Gap}

theorem quotedFrom_blank (hcolumn : letter.column ≠ 0) (h : isBlank letter.char = true) :
    quotedFrom '\'' gap (letter :: rest) = quotedFrom '\'' (gap.addBlank letter.char) rest := by
  rw [quotedFrom.eq_def]
  simp only [startsMark_of_column hcolumn, h, Bool.or_self, Bool.false_eq_true, if_false, if_true]

theorem quotedFrom_char (hcolumn : letter.column ≠ 0) (hblank : isBlank letter.char = false)
    (hbreak : isBreak letter.char = false) (hquote : letter.char ≠ '\'') :
    quotedFrom '\'' gap (letter :: rest)
      = (quotedFrom '\'' .empty rest).map (Reading.after (gap.text ++ [letter.char])) := by
  have hescape : ¬ ('\'' = '"' ∧ letter.char = '\\') := fun h => absurd h.1 (by decide)
  rw [quotedFrom.eq_def]
  simp only [startsMark_of_column hcolumn, hblank, hbreak, Bool.or_self, Bool.false_eq_true,
    if_false, hquote, hescape]

theorem quotedFrom_quotes {second : Letter} (hcolumn : letter.column ≠ 0)
    (hfirst : letter.char = '\'') (hsecond : second.char = '\'') :
    quotedFrom '\'' gap (letter :: second :: rest)
      = (quotedFrom '\'' .empty rest).map (Reading.after (gap.text ++ ['\''])) := by
  have hblank : isBlank '\'' = false := by decide
  have hbreak : isBreak '\'' = false := by decide
  have hstarts : startsWith '\'' (second :: rest) = true := by simp [startsWith, hsecond]
  rw [quotedFrom.eq_def]
  simp only [startsMark_of_column hcolumn, hfirst, hblank, hbreak, hstarts, Bool.or_self,
    Bool.false_eq_true, if_false, if_true, and_self, List.drop_succ_cons, List.drop_zero]

theorem quotedFrom_close (hcolumn : letter.column ≠ 0) (hclose : letter.char = '\'')
    (hrest : startsWith '\'' rest = false) :
    quotedFrom '\'' gap (letter :: rest) = some ⟨gap.text, rest, false⟩ := by
  have hblank : isBlank '\'' = false := by decide
  have hbreak : isBreak '\'' = false := by decide
  rw [quotedFrom.eq_def]
  simp only [startsMark_of_column hcolumn, hclose, hblank, hbreak, hrest, Bool.or_self,
    Bool.false_eq_true, if_false, if_true, and_false]

end Quoted

theorem quotedFrom_doubled {text held : Text} {letters rest : List Letter} {close : Letter}
    (hletters : letters.map Letter.char = doubled text)
    (hcolumns : ∀ letter ∈ letters, letter.column ≠ 0)
    (hbreaks : ∀ c ∈ text, isBreak c = false) (hclose : close.char = '\'')
    (hcolumn : close.column ≠ 0) (hrest : startsWith '\'' rest = false) :
    quotedFrom '\'' (.blanks held) (letters ++ close :: rest)
      = some ⟨held ++ text, rest, false⟩ := by
  -- Blanks are held back in the gap until a character follows, hence the general `held`.
  induction text generalizing held letters with
  | nil =>
    obtain rfl := List.map_eq_nil_iff.1 hletters
    rw [List.nil_append, quotedFrom_close hcolumn hclose hrest, List.append_nil]
    rfl
  | cons c text ih =>
    have hbreak := hbreaks c (List.mem_cons_self ..)
    have hlater := fun d hmem => hbreaks d (List.mem_cons_of_mem _ hmem)
    rw [doubled, List.flatMap_cons] at hletters
    change _ = _ ++ doubled text at hletters
    split at hletters
    · next hc =>
      obtain ⟨first, behind, rfl, hfirst, hbehind⟩ := List.map_eq_cons_iff.1 hletters
      obtain ⟨second, behind, rfl, hsecond, hbehind⟩ := List.map_eq_cons_iff.1 hbehind
      simp only [List.mem_cons, forall_eq_or_imp] at hcolumns
      rw [List.cons_append, List.cons_append, quotedFrom_quotes hcolumns.1 hfirst hsecond,
        Gap.empty, ih hbehind hcolumns.2.2 hlater, hc]
      simp [Reading.after, Gap.text]
    · next hc =>
      obtain ⟨letter, behind, rfl, rfl, hbehind⟩ := List.map_eq_cons_iff.1 hletters
      simp only [List.mem_cons, forall_eq_or_imp] at hcolumns
      cases hblank : isBlank letter.char with
      | true =>
        rw [List.cons_append, quotedFrom_blank hcolumns.1 hblank, Gap.addBlank,
          ih hbehind hcolumns.2 hlater, List.append_assoc]
        rfl
      | false =>
        rw [List.cons_append, quotedFrom_char hcolumns.1 hblank hbreak hc, Gap.empty,
          ih hbehind hcolumns.2 hlater]
        simp [Reading.after, Gap.text]

namespace Cut

variable {letter : Letter} {rest : List Letter} {cut : Cut}

/-- What is left when the letter is none of the signs that are asked for before the colon. -/
theorem takeToken_of_ne_front
    (hne : ∀ d ∈ ['%', '-', '.', '[', '\x7b', ']', '\x7d', ',', '?'], letter.char ≠ d) :
    cut.takeToken letter rest =
      if letter.char = ':' ∧ (cut.inFlow ∨ endsWord rest) then cut.takeColon letter rest
      else if letter.char = '*' then cut.takeReference .alias letter rest
      else if letter.char = '&' then cut.takeReference .anchor letter rest
      else if letter.char = '!' then
        (tagBefore cut.inFlow rest).bind fun (name, rest) =>
          (cut.offerKey letter).map (goOn (.tag name) false rest)
      else if letter.char = '|' ∧ !cut.inFlow then cut.takeBlock .literal rest
      else if letter.char = '>' ∧ !cut.inFlow then cut.takeBlock .folded rest
      else if letter.char = '\'' ∨ letter.char = '"' then
        cut.takeScalar .quoted letter (quotedFrom letter.char .empty rest)
      else if startsPlain cut.inFlow letter rest then
        cut.takeScalar .plain letter (plainFrom cut.floor cut.inFlow .empty (letter :: rest))
      else none := by
  simp only [List.mem_cons, List.not_mem_nil, or_false, forall_eq_or_imp, forall_eq] at hne
  obtain ⟨hpercent, hdash, hdot, hlist, hmap, hlist', hmap', hcomma, hmark⟩ := hne
  refine (if_neg fun h => hpercent h.2).trans ?_
  refine (if_neg (ne_true_of_eq_false (startsMark_of_ne hdash rest))).trans ?_
  refine (if_neg (ne_true_of_eq_false (startsMark_of_ne hdot rest))).trans ?_
  refine (if_neg hlist).trans ?_
  refine (if_neg hmap).trans ?_
  refine (if_neg hlist').trans ?_
  refine (if_neg hmap').trans ?_
  refine (if_neg hcomma).trans ?_
  refine (if_neg fun h => hdash h.1).trans ?_
  exact if_neg fun h => hmark h.1

theorem takeToken_of_ne (hdot : letter.char ≠ '.')
    (hne : ∀ d, isIndicator d = true → d ≠ '\'' → letter.char ≠ d) :
    cut.takeToken letter rest =
      if letter.char = '\'' ∨ letter.char = '"' then
        cut.takeScalar .quoted letter (quotedFrom letter.char .empty rest)
      else if startsPlain cut.inFlow letter rest then
        cut.takeScalar .plain letter (plainFrom cut.floor cut.inFlow .empty (letter :: rest))
      else none := by
  have hfront : ∀ d ∈ ['%', '-', '.', '[', '\x7b', ']', '\x7d', ',', '?'], letter.char ≠ d := by
    simp only [List.mem_cons, List.not_mem_nil, or_false, forall_eq_or_imp, forall_eq]
    exact ⟨hne _ rfl (by decide), hne _ rfl (by decide), hdot, hne _ rfl (by decide),
      hne _ rfl (by decide), hne _ rfl (by decide), hne _ rfl (by decide), hne _ rfl (by decide),
      hne _ rfl (by decide)⟩
  refine (takeToken_of_ne_front hfront).trans ?_
  refine (if_neg fun h => hne ':' rfl (by decide) h.1).trans ?_
  refine (if_neg (hne '*' rfl (by decide))).trans ?_
  refine (if_neg (hne '&' rfl (by decide))).trans ?_
  refine (if_neg (hne '!' rfl (by decide))).trans ?_
  refine (if_neg fun h => hne '|' rfl (by decide) h.1).trans ?_
  exact if_neg fun h => hne '>' rfl (by decide) h.1

theorem takeToken_plain (h : isPlainChar letter.char = true) :
    cut.takeToken letter rest
      = cut.takeScalar .plain letter (plainFrom cut.floor cut.inFlow .empty (letter :: rest)) := by
  have hne := fun d hd => ne_of_isPlainChar h (d := d) hd
  rw [takeToken_of_ne (hne '.' (by decide))]
  · rw [if_neg fun hquote => hquote.elim (hne '\'' (by decide)) (hne '"' (by decide)),
      if_pos (startsPlain_of_isPlainChar h _ _)]
  · intro d hd _ hc
    rw [hc] at h
    rw [isIndicator_of_isPlainChar h] at hd
    cases hd

theorem takeToken_quote (h : letter.char = '\'') :
    cut.takeToken letter rest
      = cut.takeScalar .quoted letter (quotedFrom '\'' .empty rest) := by
  rw [takeToken_of_ne (by rw [h]; decide), if_pos (Or.inl h), h]
  intro d _ hquote hc
  exact hquote (hc.symm.trans h)

theorem takeToken_colon (h : letter.char = ':') (hends : endsWord rest = true) :
    cut.takeToken letter rest = cut.takeColon letter rest := by
  refine (takeToken_of_ne_front ?_).trans (if_pos ⟨h, Or.inr hends⟩)
  simp [h]

theorem run_of_dropGap (cut : Cut) {n : Nat} {keyAllowed : Bool}
    (h : dropGap cut.inFlow cut.keyAllowed false cut.rest = (keyAllowed, letter :: rest)) :
    run (n + 1) cut = (dropStaleKeys letter { cut with keyAllowed := keyAllowed }).bind fun cut =>
      ((cut.closeBlocks (letter.column + 1)).takeToken letter rest).bind (run n) := by
  rw [run, h]
  rfl

theorem dropGap_of_ne {inFlow keyAllowed : Bool} (hbreak : isBreak letter.char = false)
    (hne : ∀ d ∈ [' ', byteOrderMark, '\t', '#'], letter.char ≠ d) :
    dropGap inFlow keyAllowed false (letter :: rest) = (keyAllowed, letter :: rest) := by
  simp only [List.mem_cons, List.not_mem_nil, or_false, forall_eq_or_imp, forall_eq] at hne
  obtain ⟨hspace, hmark, htab, hsign⟩ := hne
  simp [dropGap, hbreak, hspace, hmark, htab, hsign]

theorem dropGap_plain {inFlow keyAllowed : Bool} (h : isPlainChar letter.char = true) :
    dropGap inFlow keyAllowed false (letter :: rest) = (keyAllowed, letter :: rest) := by
  refine dropGap_of_ne (isBreak_of_isPlainChar h) ?_
  simp only [List.mem_cons, List.not_mem_nil, or_false, forall_eq_or_imp, forall_eq]
  exact ⟨ne_of_isPlainChar h (by decide), ne_of_isPlainChar h (by decide),
    ne_of_isPlainChar h (by decide), ne_of_isPlainChar h (by decide)⟩

theorem dropGap_space {inFlow keyAllowed : Bool} (h : letter.char = ' ') :
    dropGap inFlow keyAllowed false (letter :: rest) = dropGap inFlow keyAllowed false rest := by
  have hbreak : isBreak ' ' = false := by decide
  simp [dropGap, h, hbreak]

theorem dropGap_newline {keyAllowed : Bool} (h : letter.char = Text.newline) :
    dropGap false keyAllowed false (letter :: rest) = dropGap false true false rest := by
  have hbreak : isBreak Text.newline = true := by decide
  simp [dropGap, h, hbreak]

/-- A block mapping at the left border, its beginning still to come or taken already. -/
def Borders (columns : List Nat) (begins : List Token) : Prop :=
  columns = [] ∧ begins = [.entriesBegin] ∨ columns = [0] ∧ begins = []

theorem closeBlocks_of_borders {begins : List Token} (h : Borders cut.columns begins)
    (hflow : cut.outerKeys = []) {column : Nat} (hcolumn : 0 < column) :
    cut.closeBlocks column = cut := by
  obtain ⟨rest, tokens, columns, keyAllowed, key?, outerKeys⟩ := cut
  have hopen : columns.takeWhile (column ≤ ·) = [] := by
    rcases h with ⟨rfl, -⟩ | ⟨rfl, -⟩
    · rfl
    · exact List.takeWhile_cons_of_neg (by simpa using Nat.ne_of_gt hcolumn)
  cases hflow
  simp [closeBlocks, inFlow, hopen]

theorem pushAt_append {before later : List Token} (token : Token)
    (h : cut.tokens = later ++ before) :
    cut.pushAt before.length token = { cut with tokens := later ++ token :: before } := by
  simp [pushAt, h]

theorem openBlock_of_borders {begins before later : List Token}
    (hcolumns : Borders cut.columns begins) (hflow : cut.outerKeys = [])
    (h : cut.tokens = later ++ before) :
    cut.openBlock .entriesBegin 0 before.length
      = { cut with tokens := later ++ (begins ++ before), columns := [0] } := by
  obtain ⟨rest, tokens, columns, keyAllowed, key?, outerKeys⟩ := cut
  cases hflow
  rcases hcolumns with ⟨rfl, rfl⟩ | ⟨rfl, rfl⟩
  · simp only [openBlock, inFlow, pushAt_append _ h]
    rfl
  · cases h
    rfl

theorem stillPossible_of_fresh {place : KeyPlace} (h : place.isStale letter = false) :
    stillPossible letter (some place) = some (some place) := by
  simp [stillPossible, Option.filter, h]

section Entry

variable {n : Nat} {tokens begins : List Token} {columns : List Nat} {keyAllowed : Bool}
  {first space colon newline : Letter} {gap word behind more : List Letter}

theorem run_key
    (hgap : dropGap false keyAllowed false gap = (true, first :: (word ++ colon :: behind)))
    (hword : ∀ letter ∈ first :: word, isPlainChar letter.char = true)
    (hcolumns : Borders columns begins) (hcolon : colon.char = ':')
    (hends : endsWord behind = true) :
    run (n + 1) ⟨gap, tokens, columns, keyAllowed, none, []⟩
      = run n ⟨colon :: behind, .scalar .plain ((first :: word).map Letter.char) :: tokens, columns,
          false, some ⟨first, tokens.length, columns.head? == some first.column⟩, []⟩ := by
  have hstill : dropStaleKeys first ⟨gap, tokens, columns, true, none, []⟩
      = some ⟨gap, tokens, columns, true, none, []⟩ := rfl
  have hclose : closeBlocks (first.column + 1) ⟨gap, tokens, columns, true, none, []⟩
      = ⟨gap, tokens, columns, true, none, []⟩ :=
    closeBlocks_of_borders hcolumns rfl (Nat.succ_pos _)
  have hread : ∀ floor, plainFrom floor false .empty (first :: (word ++ colon :: behind))
      = some ⟨(first :: word).map Letter.char, colon :: behind, false⟩ := by
    intro floor
    rw [← List.cons_append, plainFrom_word _ hword, plainFrom_colon hcolon hends, Option.map_some,
      Reading.after, List.append_nil]
  rw [run_of_dropGap ⟨gap, tokens, columns, keyAllowed, none, []⟩ hgap, hstill, Option.bind_some,
    hclose, takeToken_plain (hword first (List.mem_cons_self ..)), takeScalar]
  simp only [inFlow, List.isEmpty_nil, Bool.not_true, hread]
  rfl

theorem run_colon {text : Text} {isRequired : Bool} (hcolumns : Borders columns begins)
    (hcolumn : first.column = 0) (hline : colon.line = first.line)
    (hnear : colon.offset ≤ first.offset + 1024) (hcolon : colon.char = ':')
    (hends : endsWord behind = true) :
    run (n + 1) ⟨colon :: behind, .scalar .plain text :: tokens, columns, false,
        some ⟨first, tokens.length, isRequired⟩, []⟩
      = run n ⟨behind, .value :: .scalar .plain text :: .key :: (begins ++ tokens), [0], false,
          none, []⟩ := by
  let place : KeyPlace := ⟨first, tokens.length, isRequired⟩
  let before : Cut :=
    ⟨colon :: behind, .scalar .plain text :: tokens, columns, false, some place, []⟩
  have hgap : dropGap false false false (colon :: behind) = (false, colon :: behind) :=
    dropGap_of_ne (by rw [hcolon]; decide) (by simp [hcolon, byteOrderMark])
  -- The colon is in the line of the key and near enough for it to be one.
  have hfresh : place.isStale colon = false := by
    simp only [KeyPlace.isStale, place, hline, Bool.or_eq_false_iff, decide_eq_false_iff_not]
    omega
  have hstill : dropStaleKeys colon before = some before := by
    rw [dropStaleKeys, stillPossible_of_fresh hfresh]
    rfl
  have hclose : closeBlocks (colon.column + 1) before = before :=
    closeBlocks_of_borders hcolumns rfl (Nat.succ_pos _)
  rw [run_of_dropGap before hgap]
  change (dropStaleKeys colon before).bind _ = _
  rw [hstill, Option.bind_some, hclose, takeToken_colon hcolon hends]
  have hkey : before.pushAt tokens.length .key
      = { before with tokens := [.scalar .plain text] ++ .key :: tokens } :=
    pushAt_append _ rfl
  have htake : before.takeColon colon behind = some (goOn .value false behind
      { (before.pushAt tokens.length .key).openBlock .entriesBegin first.column tokens.length with
        key? := none }) :=
    rfl
  -- Only the first key of a mapping begins it; the others find it begun.
  have hborder : openBlock .entriesBegin 0 tokens.length
        { before with tokens := [.scalar .plain text] ++ .key :: tokens }
      = { before with
          tokens := [.scalar .plain text, .key] ++ (begins ++ tokens)
          columns := [0] } :=
    openBlock_of_borders hcolumns rfl rfl
  rw [htake, hkey, hcolumn, hborder]
  rfl

theorem run_word (hspace : space.char = ' ') (hnewline : newline.char = Text.newline)
    (hword : ∀ letter ∈ first :: word, isPlainChar letter.char = true) (hmore : StartsLine more) :
    run (n + 1) ⟨space :: first :: (word ++ newline :: more), tokens, [0], false, none, []⟩
      = run n ⟨more, .scalar .plain ((first :: word).map Letter.char) :: tokens, [0], true, none,
          []⟩ := by
  let before : Cut :=
    ⟨space :: first :: (word ++ newline :: more), tokens, [0], false, none, []⟩
  have hfirst := hword first (List.mem_cons_self ..)
  have hgap : dropGap false false false before.rest
      = (false, first :: (word ++ newline :: more)) := by
    rw [dropGap_space hspace]
    exact dropGap_plain hfirst
  have hclose : closeBlocks (first.column + 1) before = before :=
    closeBlocks_of_borders (Or.inr ⟨rfl, rfl⟩) rfl (Nat.succ_pos _)
  have hread : plainFrom 1 false .empty (first :: (word ++ newline :: more))
      = some ⟨(first :: word).map Letter.char, more, true⟩ := by
    rw [← List.cons_append, plainFrom_word _ hword, plainFrom_newline hnewline hmore,
      Option.map_some, Reading.after, List.append_nil]
  rw [run_of_dropGap before hgap]
  change (some before).bind _ = _
  rw [Option.bind_some, hclose, takeToken_plain hfirst, takeScalar]
  change ((plainFrom 1 false .empty (first :: (word ++ newline :: more))).bind _).bind _ = _
  rw [hread]
  rfl

theorem run_quoted {opening close : Letter} {letters : List Letter} {text : Text}
    (hspace : space.char = ' ') (hopening : opening.char = '\'')
    (hletters : letters.map Letter.char = doubled text)
    (hcolumns : ∀ letter ∈ letters, letter.column ≠ 0)
    (hbreaks : ∀ c ∈ text, isBreak c = false) (hclose : close.char = '\'')
    (hcolumn : close.column ≠ 0) (hnewline : newline.char = Text.newline) :
    run (n + 1) ⟨space :: opening :: (letters ++ close :: newline :: more), tokens, [0], false,
        none, []⟩
      = run n ⟨newline :: more, .scalar .quoted text :: tokens, [0], false, none, []⟩ := by
  let before : Cut :=
    ⟨space :: opening :: (letters ++ close :: newline :: more), tokens, [0], false, none, []⟩
  have hgap : dropGap false false false before.rest
      = (false, opening :: (letters ++ close :: newline :: more)) := by
    rw [dropGap_space hspace]
    exact dropGap_of_ne (by rw [hopening]; decide) (by simp [hopening, byteOrderMark])
  have hends : closeBlocks (opening.column + 1) before = before :=
    closeBlocks_of_borders (Or.inr ⟨rfl, rfl⟩) rfl (Nat.succ_pos _)
  have hbehind : startsWith '\'' (newline :: more) = false := by
    simp [startsWith, hnewline, Text.newline]
  rw [run_of_dropGap before hgap]
  change (some before).bind _ = _
  rw [Option.bind_some, hends, takeToken_quote hopening, takeScalar, Gap.empty,
    quotedFrom_doubled hletters hcolumns hbreaks hclose hcolumn hbehind]
  rfl

end Entry

end Cut

section Letters

variable {line column offset : Nat}

def placed (line : Nat) : (column offset : Nat) → Text → List Letter
  | _, _, [] => []
  | column, offset, c :: rest =>
    ⟨c, line, column, offset⟩ :: placed line (column + 1) (offset + c.utf8Size) rest

def offsetBehind (offset : Nat) (text : Text) : Nat :=
  text.foldl (fun offset c => offset + c.utf8Size) offset

def StaysInLine (c : Char) : Prop := c ≠ '\r' ∧ c ≠ nextLine ∧ isBreak c = false

instance (c : Char) : Decidable (StaysInLine c) := inferInstanceAs (Decidable (_ ∧ _))

theorem staysInLine_of_isPlainChar (h : isPlainChar c = true) : StaysInLine c :=
  ⟨ne_of_isPlainChar h (by decide), ne_of_isPlainChar h (by decide), isBreak_of_isPlainChar h⟩

theorem lettersFrom_cons (h : StaysInLine c) (rest : Text) :
    lettersFrom line column offset (c :: rest)
      = ⟨c, line, column, offset⟩ :: lettersFrom line (column + 1) (offset + c.utf8Size) rest := by
  rw [lettersFrom]
  · simp [h.1, h.2.1, h.2.2]
  · intro _ hreturn
    exact absurd hreturn h.1

theorem lettersFrom_newline (rest : Text) :
    lettersFrom line column offset (Text.newline :: rest)
      = ⟨Text.newline, line, column, offset⟩ :: lettersFrom (line + 1) 0 (offset + 1) rest := by
  rw [lettersFrom]
  · rfl
  · intro _ hreturn
    exact absurd hreturn (by decide)

theorem lettersFrom_append {text : Text} (h : ∀ c ∈ text, StaysInLine c) (rest : Text) :
    lettersFrom line column offset (text ++ rest) = placed line column offset text
      ++ lettersFrom line (column + text.length) (offsetBehind offset text) rest := by
  induction text generalizing column offset with
  | nil => rfl
  | cons c text ih =>
    rw [List.cons_append, lettersFrom_cons (h c (List.mem_cons_self ..)),
      ih fun d hmem => h d (List.mem_cons_of_mem _ hmem), List.length_cons, placed,
      Nat.add_assoc, Nat.add_comm 1]
    rfl

theorem map_char_placed (text : Text) :
    (placed line column offset text).map Letter.char = text := by
  induction text generalizing column offset with
  | nil => rfl
  | cons c text ih => rw [placed, List.map_cons, ih]

theorem le_column_of_mem_placed {text : Text} {letter : Letter}
    (h : letter ∈ placed line column offset text) : column ≤ letter.column := by
  induction text generalizing column offset with
  | nil => cases h
  | cons c text ih =>
    rcases List.mem_cons.1 h with rfl | hmem
    · exact Nat.le_refl _
    · exact Nat.le_of_succ_le (ih hmem)

theorem isPlainChar_of_mem_placed {text : Text} (htext : ∀ c ∈ text, isPlainChar c = true)
    {letter : Letter} (h : letter ∈ placed line column offset text) :
    isPlainChar letter.char = true := by
  have hchar : letter.char ∈ (placed line column offset text).map Letter.char :=
    List.mem_map_of_mem h
  rw [map_char_placed] at hchar
  exact htext _ hchar

theorem offsetBehind_word {text : Text} (h : ∀ c ∈ text, isPlainChar c = true) :
    offsetBehind offset text = offset + text.length := by
  induction text generalizing offset with
  | nil => rfl
  | cons c text ih =>
    have hsize : c.utf8Size = 1 := utf8Size_of_isPlainChar (h c (List.mem_cons_self ..))
    change offsetBehind (offset + c.utf8Size) text = _
    rw [ih fun d hmem => h d (List.mem_cons_of_mem _ hmem), hsize, List.length_cons]
    omega

end Letters

inductive Value where
  | word (text : Text)
  | quoted (text : Text)
deriving DecidableEq, Repr

namespace Value

def written : Value → Text
  | .word text => text
  | .quoted text => '\'' :: (doubled text ++ ['\''])

def scalar : Value → Scalar
  | .word text => ⟨.plain, none, text⟩
  | .quoted text => ⟨.quoted, none, text⟩

def IsWritable : Value → Prop
  | .word text => IsWord text
  | .quoted text => ∀ c ∈ text, isAllowed c = true ∧ StaysInLine c

end Value

def lineOf (entry : Text × Value) : Text :=
  entry.1 ++ ':' :: ' ' :: (entry.2.written ++ [Text.newline])

/-- An entry of a mapping; the reader gives a key up that is longer than 1024 bytes. -/
structure IsEntry (entry : Text × Value) : Prop where
  key : IsWord entry.1
  short : entry.1.length ≤ 1024
  value : entry.2.IsWritable

def tokensFor (entry : Text × Value) : List Token :=
  [.key, .scalar .plain entry.1, .value, .scalar entry.2.scalar.style entry.2.scalar.text]

theorem staysInLine_of_mem_doubled {text : Text} (h : ∀ c ∈ text, StaysInLine c) {c : Char}
    (hc : c ∈ doubled text) : StaysInLine c := by
  obtain ⟨d, hd, hmem⟩ := List.mem_flatMap.1 hc
  split at hmem
  · next hquote =>
    simp only [List.mem_cons, List.not_mem_nil, or_false, or_self] at hmem
    rw [hmem, ← hquote]
    exact h d hd
  · rw [List.mem_singleton.1 hmem]
    exact h d hd

theorem exists_letters_quoted {text : Text} (h : ∀ c ∈ text, StaysInLine c)
    (line column offset : Nat) (more : Text) :
    ∃ opening letters close newline offset',
      lettersFrom line column offset ((Value.quoted text).written ++ Text.newline :: more)
        = opening :: (letters ++ close :: newline :: lettersFrom (line + 1) 0 offset' more) ∧
      opening.char = '\'' ∧ letters.map Letter.char = doubled text ∧
      (∀ letter ∈ letters, letter.column ≠ 0) ∧ close.char = '\'' ∧ close.column ≠ 0 ∧
      newline.char = Text.newline := by
  rw [Value.written, List.cons_append, List.append_assoc, lettersFrom_cons (by decide),
    lettersFrom_append fun _ => staysInLine_of_mem_doubled h, List.singleton_append,
    lettersFrom_cons (by decide), lettersFrom_newline]
  refine ⟨_, _, _, _, _, rfl, rfl, map_char_placed _, ?_, rfl, ?_, rfl⟩
  · intro letter hmem
    have := le_column_of_mem_placed hmem
    omega
  · simp only
    omega

theorem exists_letters_word {text : Text} (h : IsWord text) (line column offset : Nat)
    (more : Text) :
    ∃ first word newline offset',
      lettersFrom line column offset (text ++ Text.newline :: more)
        = first :: (word ++ newline :: lettersFrom (line + 1) 0 offset' more) ∧
      (first :: word).map Letter.char = text ∧
      (∀ letter ∈ first :: word, isPlainChar letter.char = true) ∧
      newline.char = Text.newline := by
  obtain ⟨hne, hplain⟩ := h
  obtain ⟨c, text, rfl⟩ := List.exists_cons_of_ne_nil hne
  rw [lettersFrom_append fun d hd => staysInLine_of_isPlainChar (hplain d hd), lettersFrom_newline]
  exact ⟨_, _, _, _, rfl, @map_char_placed line column offset (c :: text),
    fun _ => isPlainChar_of_mem_placed hplain, rfl⟩

namespace Cut

variable {n line offset : Nat} {tokens begins : List Token} {columns : List Nat} {keyAllowed : Bool}
  {gap : List Letter}

/-- What is read of a line before the value: the key, which becomes one at its colon. -/
theorem run_front {key rest : Text} (hkey : IsWord key) (hshort : key.length ≤ 1024)
    (hcolumns : Borders columns begins)
    (hgap : dropGap false keyAllowed false gap
      = (true, lettersFrom line 0 offset (key ++ ':' :: ' ' :: rest))) :
    ∃ space column offset', space.char = ' ' ∧
      run (n + 2) ⟨gap, tokens, columns, keyAllowed, none, []⟩
        = run n ⟨space :: lettersFrom line column offset' rest,
            .value :: .scalar .plain key :: .key :: (begins ++ tokens), [0], false, none, []⟩ := by
  obtain ⟨hne, hplain⟩ := hkey
  obtain ⟨c, word, rfl⟩ := List.exists_cons_of_ne_nil hne
  rw [lettersFrom_append fun d hd => staysInLine_of_isPlainChar (hplain d hd),
    offsetBehind_word hplain, lettersFrom_cons (by decide), lettersFrom_cons (by decide)] at hgap
  have hletters : ∀ letter ∈ placed line 0 offset (c :: word), isPlainChar letter.char = true :=
    fun _ => isPlainChar_of_mem_placed hplain
  refine ⟨⟨' ', line, 0 + (c :: word).length + 1, offset + (c :: word).length + ':'.utf8Size⟩,
    0 + (c :: word).length + 1 + 1, offset + (c :: word).length + ':'.utf8Size + ' '.utf8Size, rfl,
    ?_⟩
  refine (run_key hgap hletters hcolumns rfl rfl).trans ?_
  rw [← placed, map_char_placed]
  exact run_colon hcolumns rfl rfl (Nat.add_le_add_left hshort _) rfl rfl

theorem run_value {value : Value} (hvalue : value.IsWritable) {column : Nat} {space : Letter}
    (hspace : space.char = ' ') {more : Text}
    (hmore : ∀ offset, StartsLine (lettersFrom (line + 1) 0 offset more)) :
    ∃ keyAllowed gap offset',
      run (n + 1) ⟨space :: lettersFrom line column offset (value.written ++ Text.newline :: more),
          tokens, [0], false, none, []⟩
        = run n ⟨gap, .scalar value.scalar.style value.scalar.text :: tokens, [0], keyAllowed, none,
            []⟩ ∧
      dropGap false keyAllowed false gap
        = dropGap false true false (lettersFrom (line + 1) 0 offset' more) := by
  cases value with
  | word text =>
    obtain ⟨first, word, newline, offset', hread, htext, hplain, hnewline⟩ :=
      exists_letters_word hvalue line column offset more
    rw [Value.written, hread]
    refine ⟨true, _, offset', (run_word hspace hnewline hplain (hmore offset')).trans ?_, rfl⟩
    rw [htext]
    rfl
  | quoted text =>
    have hstays : ∀ c ∈ text, StaysInLine c := fun c hc => (hvalue c hc).2
    obtain ⟨opening, letters, close, newline, offset', hread, hopening, hletters, hcolumns, hclose,
      hend, hnewline⟩ := exists_letters_quoted hstays line column offset more
    rw [hread]
    exact ⟨false, _, offset', run_quoted hspace hopening hletters hcolumns
      (fun c hc => (hstays c hc).2.2) hclose hend hnewline, dropGap_newline hnewline⟩

/-- One line is read into the tokens of its entry, and the next line begins. -/
theorem run_entry (tokens : List Token) {entry : Text × Value} (hentry : IsEntry entry)
    (hcolumns : Borders columns begins)
    {more : Text} (hmore : ∀ offset, StartsLine (lettersFrom (line + 1) 0 offset more))
    (hgap : dropGap false keyAllowed false gap
      = (true, lettersFrom line 0 offset (lineOf entry ++ more))) :
    ∃ keyAllowed' gap' offset',
      run (n + 3) ⟨gap, tokens, columns, keyAllowed, none, []⟩
        = run n ⟨gap', (tokensFor entry).reverse ++ (begins ++ tokens), [0], keyAllowed', none,
            []⟩ ∧
      dropGap false keyAllowed' false gap'
        = dropGap false true false (lettersFrom (line + 1) 0 offset' more) := by
  obtain ⟨key, value⟩ := entry
  have htext : lineOf (key, value) ++ more
      = key ++ ':' :: ' ' :: (value.written ++ Text.newline :: more) := by
    simp [lineOf]
  rw [htext] at hgap
  obtain ⟨space, column, offset', hspace, hfront⟩ :=
    run_front hentry.key hentry.short hcolumns hgap
  obtain ⟨keyAllowed', gap', offset'', hvalue, hgap'⟩ :=
    run_value hentry.value hspace hmore
  exact ⟨keyAllowed', gap', offset'', hfront.trans hvalue, hgap'⟩

end Cut

def linesOf (entries : List (Text × Value)) : Text := entries.flatMap lineOf

theorem startsLine_linesOf {entries : List (Text × Value)} (h : ∀ entry ∈ entries, IsEntry entry)
    (line offset : Nat) : StartsLine (lettersFrom line 0 offset (linesOf entries)) := by
  cases entries with
  | nil =>
    intro _ hletter
    cases hletter
  | cons entry entries =>
    obtain ⟨key, value⟩ := entry
    obtain ⟨hne, hplain⟩ := (h (key, value) (List.mem_cons_self ..)).key
    obtain ⟨c, word, rfl⟩ := List.exists_cons_of_ne_nil hne
    have hc := hplain c (List.mem_cons_self ..)
    rw [linesOf, List.flatMap_cons, lineOf, List.cons_append, List.cons_append,
      lettersFrom_cons (staysInLine_of_isPlainChar hc)]
    intro letter hletter
    cases hletter
    exact ⟨rfl, hc⟩

namespace Cut

variable {n line offset : Nat} {tokens : List Token} {keyAllowed : Bool} {gap : List Letter}

theorem dropGap_of_startsLine {letters : List Letter} (h : StartsLine letters)
    {inFlow keyAllowed : Bool} :
    dropGap inFlow keyAllowed false letters = (keyAllowed, letters) := by
  cases letters with
  | nil => rfl
  | cons letter letters => exact dropGap_plain (h letter rfl).2

/-- The lines of a mapping that has begun are read to its end, however many turns are left then. -/
theorem run_linesOf {entries : List (Text × Value)} (h : ∀ entry ∈ entries, IsEntry entry)
    (hgap : dropGap false keyAllowed false gap
      = dropGap false true false (lettersFrom line 0 offset (linesOf entries))) :
    ∃ cut, run (n + 3 * entries.length + 1) ⟨gap, tokens, [0], keyAllowed, none, []⟩ = some cut ∧
      cut.tokens = .blockEnd :: ((entries.flatMap tokensFor).reverse ++ tokens) := by
  -- Where a value stopped does not matter, only what the next turn finds behind the gap.
  induction entries generalizing gap tokens keyAllowed line offset with
  | nil =>
    refine ⟨⟨gap, .blockEnd :: tokens, [], keyAllowed, none, []⟩, ?_, rfl⟩
    have hnone : dropGap false keyAllowed false gap = (true, []) := hgap
    rw [run]
    simp only [inFlow, List.isEmpty_nil, Bool.not_true, hnone]
    rfl
  | cons entry entries ih =>
    have hrest := fun other hmem => h other (List.mem_cons_of_mem _ hmem)
    rw [dropGap_of_startsLine (startsLine_linesOf h line offset)] at hgap
    obtain ⟨keyAllowed', gap', offset', hrun, hgap'⟩ :=
      run_entry (n := n + 3 * entries.length + 1) tokens (h entry (List.mem_cons_self ..))
        (Or.inr ⟨rfl, rfl⟩) (startsLine_linesOf hrest (line + 1)) hgap
    obtain ⟨cut, hcut, htokens⟩ := ih hrest hgap'
    refine ⟨cut, hrun.trans hcut, ?_⟩
    rw [htokens, List.flatMap_cons, List.reverse_append, List.append_assoc]
    rfl

end Cut

theorem isAllowed_of_isPlainChar (h : isPlainChar c = true) : isAllowed c = true := by
  obtain ⟨hlow, hhigh⟩ := toNat_of_isPlainChar h
  simp [isAllowed, hlow, hhigh]

theorem Value.isAllowed_of_mem_written {value : Value} (h : value.IsWritable)
    (hc : c ∈ value.written) : isAllowed c = true := by
  cases value with
  | word text => exact isAllowed_of_isPlainChar (h.2 c hc)
  | quoted text =>
    have hquote : isAllowed '\'' = true := by decide
    simp only [written, List.mem_cons, List.mem_append, List.not_mem_nil, or_false] at hc
    rcases hc with rfl | hc | rfl
    · exact hquote
    · obtain ⟨d, hd, hmem⟩ := List.mem_flatMap.1 hc
      split at hmem
      · simp only [List.mem_cons, List.not_mem_nil, or_false, or_self] at hmem
        rw [hmem]
        exact hquote
      · rw [List.mem_singleton.1 hmem]
        exact (h d hd).1
    · exact hquote

theorem isAllowed_of_mem_lineOf {entry : Text × Value} (h : IsEntry entry) (hc : c ∈ lineOf entry) :
    isAllowed c = true := by
  simp only [lineOf, List.mem_append, List.mem_cons, List.not_mem_nil, or_false] at hc
  rcases hc with hc | rfl | rfl | hc | rfl
  · exact isAllowed_of_isPlainChar (h.key.2 c hc)
  · decide
  · decide
  · exact Value.isAllowed_of_mem_written h.value hc
  · decide

theorem lettersOf_linesOf {entries : List (Text × Value)} (h : ∀ entry ∈ entries, IsEntry entry) :
    lettersOf (linesOf entries) = some (lettersFrom 0 0 0 (linesOf entries)) := by
  refine if_pos (List.all_eq_true.2 fun c hc => ?_)
  obtain ⟨entry, hentry, hmem⟩ := List.mem_flatMap.1 hc
  exact isAllowed_of_mem_lineOf (h entry hentry) hmem

theorem tokensOf_linesOf {entries : List (Text × Value)} (h : ∀ entry ∈ entries, IsEntry entry)
    (hsome : entries ≠ []) :
    tokensOf (linesOf entries)
      = some (.entriesBegin :: (entries.flatMap tokensFor ++ [.blockEnd])) := by
  obtain ⟨entry, entries, rfl⟩ := List.exists_cons_of_ne_nil hsome
  have hrest := fun other hmem => h other (List.mem_cons_of_mem _ hmem)
  -- More turns than there are letters change nothing, so there may be three for each entry.
  have hfuel : (linesOf (entry :: entries)).length
      < (linesOf (entry :: entries)).length + 3 * entries.length + 1 + 3 := by omega
  have hgap : Cut.dropGap false true false (lettersFrom 0 0 0 (linesOf (entry :: entries)))
      = (true, lettersFrom 0 0 0 (lineOf entry ++ linesOf entries)) :=
    Cut.dropGap_of_startsLine (startsLine_linesOf h 0 0)
  obtain ⟨keyAllowed, gap, offset, hrun, hgap'⟩ :=
    Cut.run_entry (n := (linesOf (entry :: entries)).length + 3 * entries.length + 1) []
      (h entry (List.mem_cons_self ..)) (Or.inl ⟨rfl, rfl⟩) (startsLine_linesOf hrest 1) hgap
  obtain ⟨cut, hcut, htokens⟩ := Cut.run_linesOf hrest hgap'
  rw [tokensOf_eq _ hfuel, lettersOf_linesOf h, Option.bind_some, hrun, hcut, Option.map_some,
    htokens]
  simp

namespace Reader

variable {n : Nat} {rest : List Token} {anchors : Anchors} {handles : Table Text Tag}

theorem blockEntries_entry (key : Text) (style : Style) (text : Text) :
    blockEntries (n + 3)
        ⟨.key :: .scalar .plain key :: .value :: .scalar style text :: rest, anchors, handles⟩
      = (blockEntries (n + 2) ⟨rest, anchors, handles⟩).bind fun read =>
          some ((.scalar ⟨.plain, none, key⟩, .scalar ⟨style, none, text⟩) :: read.1, read.2) := by
  rw [blockEntries]
  rfl

theorem blockEntries_tokensFor (entries : List (Text × Value)) :
    blockEntries (n + entries.length + 2)
        ⟨entries.flatMap tokensFor ++ .blockEnd :: rest, anchors, handles⟩
      = some (entries.map fun entry => (.scalar ⟨.plain, none, entry.1⟩, .scalar entry.2.scalar),
          ⟨rest, anchors, handles⟩) := by
  induction entries with
  | nil =>
    rw [List.length_nil, blockEntries]
    rfl
  | cons entry entries ih =>
    obtain ⟨key, value⟩ := entry
    have hscalar : value.scalar = ⟨value.scalar.style, none, value.scalar.text⟩ := by
      cases value <;> rfl
    have hentry := @blockEntries_entry (n + entries.length)
      (entries.flatMap tokensFor ++ .blockEnd :: rest) anchors handles key value.scalar.style
      value.scalar.text
    rw [ih, ← hscalar] at hentry
    exact hentry

theorem node_entriesBegin (afterKey : Bool) (tokens : List Token) :
    node (n + 1) true afterKey ⟨.entriesBegin :: tokens, anchors, handles⟩
      = (blockEntries n ⟨tokens, anchors, handles⟩).bind fun read =>
          some (.mapping read.1, read.2) := by
  rw [node]
  rfl

end Reader

theorem length_flatMap_tokensFor (entries : List (Text × Value)) :
    (entries.flatMap tokensFor).length = 4 * entries.length := by
  induction entries with
  | nil => rfl
  | cons entry entries ih =>
    rw [List.flatMap_cons, List.length_append, ih, List.length_cons, tokensFor]
    simp only [List.length_cons, List.length_nil]
    omega

theorem documentOf_tokensFor (entries : List (Text × Value)) :
    documentOf (.entriesBegin :: (entries.flatMap tokensFor ++ [.blockEnd])) = some
      ⟨.mapping (entries.map fun entry =>
        (.scalar ⟨.plain, none, entry.1⟩, .scalar entry.2.scalar)), {}⟩ := by
  let body := entries.flatMap tokensFor ++ [Token.blockEnd]
  let handles := withStandardHandles Table.empty
  have hbody : documentBody (.entriesBegin :: body)
      = some (handles, false, .entriesBegin :: body) := rfl
  -- An entry is made of four tokens and takes one turn, so there are turns enough.
  obtain ⟨n, hn⟩ : ∃ n, 4 * (Token.entriesBegin :: body).length + 3 = n + entries.length + 2 := by
    refine ⟨4 * (Token.entriesBegin :: body).length + 1 - entries.length, ?_⟩
    simp only [body, List.length_cons, List.length_append, length_flatMap_tokensFor]
    omega
  have hentries := @Reader.blockEntries_tokensFor n [] {} handles entries
  have hread := @Reader.node_entriesBegin (4 * (Token.entriesBegin :: body).length + 3) {} handles
    false body
  rw [hn, hentries, ← hn] at hread
  rw [documentOf, hbody]
  exact Option.bind_eq_some_iff.2 ⟨_, rfl, Option.bind_eq_some_iff.2 ⟨_, hread, rfl⟩⟩

/-- Entries that are written down are read back. -/
theorem ofText_linesOf {entries : List (Text × Value)} (h : ∀ entry ∈ entries, IsEntry entry)
    (hsome : entries ≠ []) :
    Content.ofText (linesOf entries) = .document
      ⟨.mapping (entries.map fun entry =>
        (.scalar ⟨.plain, none, entry.1⟩, .scalar entry.2.scalar)), {}⟩ := by
  rw [Content.ofText, tokensOf_linesOf h hsome]
  simp only [documentOf_tokensFor]

end BenchScript.Yaml
