import BenchScript.Engine.Perform
import BenchScript.Proofs.Record
import BenchScript.Proofs.Substitution

set_option autoImplicit false

namespace BenchScript

/-- An assignment, with the last row at the time when it is carried out. -/
structure Definition where
  assignment : Text
  lastRow : Text
deriving DecidableEq, Repr

namespace Definition

def front (d : Definition) : Text := d.assignment.takeWhile (· != '=')

def name (d : Definition) : Text := d.front.filter (· != ' ')

def given? (d : Definition) : Option Text :=
  match d.assignment.dropWhile (· != '=') with
  | [] => none
  | _ :: value => some (Text.trim value)

/-- What the name is to have: the last row, the text that is given, or the value that another name
has now, if it has one. -/
def value? (bindings : Variables) (d : Definition) : Option Text :=
  match d.given? with
  | none => some d.lastRow
  | some ('$' :: source) => bindings.get? source
  | some literal => some literal

def binding? (bindings : Variables) (d : Definition) : Option (Text × Text) :=
  if d.name = [] then none else (d.value? bindings).map (d.name, ·)

theorem name_eq_nil_iff {d : Definition} : d.name = [] ↔ ∀ c ∈ d.front, c = ' ' := by
  simp [name, List.filter_eq_nil_iff]

theorem space_not_mem_name (d : Definition) : ' ' ∉ d.name := by
  simp [name]

theorem binding?_eq_some_iff {bindings : Variables} {d : Definition} {name value : Text} :
    d.binding? bindings = some (name, value)
      ↔ d.name ≠ [] ∧ name = d.name ∧ d.value? bindings = some value := by
  unfold binding?
  by_cases h : d.name = []
  · simp [h]
  · rw [if_neg h, Option.map_eq_some_iff]
    constructor
    · rintro ⟨given, hvalue, hpair⟩
      obtain ⟨rfl, rfl⟩ := Prod.mk.inj hpair
      exact ⟨h, rfl, hvalue⟩
    · rintro ⟨-, rfl, hvalue⟩
      exact ⟨value, hvalue, rfl⟩

end Definition

namespace Text

theorem splitOnce_char (separator : Char) (text : Text) :
    splitOnce [separator] text = match text.dropWhile (· != separator) with
      | [] => none
      | _ :: after => some (text.takeWhile (· != separator), after) := by
  induction text with
  | nil => rfl
  | cons c rest ih =>
    by_cases h : c = separator
    · subst h
      simp [splitOnce]
    · have hprefix : ¬ [separator].isPrefixOf (c :: rest) = true := by simp [Ne.symm h]
      rw [splitOnce, if_neg hprefix, ih, List.dropWhile_cons_of_pos (by simpa using h),
        List.takeWhile_cons_of_pos (by simpa using h)]
      cases rest.dropWhile (· != separator) <;> rfl

end Text

namespace Variables

theorem assignmentSides_eq (d : Definition) :
    assignmentSides d.assignment = (d.name, d.given?) := by
  unfold assignmentSides Definition.name Definition.front Definition.given?
  rw [Text.splitOnce_char]
  cases h : d.assignment.dropWhile (· != '=') with
  | nil =>
    have hcut : d.assignment.takeWhile (· != '=') = d.assignment := by
      have happend : d.assignment.takeWhile (· != '=') ++ d.assignment.dropWhile (· != '=')
          = d.assignment := List.takeWhile_append_dropWhile
      rwa [h, List.append_nil] at happend
    rw [hcut]
  | cons c value => rfl

def define (bindings : Variables) (d : Definition) : Except ScriptError Text × Variables :=
  match bindings.assign d.assignment d.lastRow with
  | .ok (name, after) => (.ok name, after)
  | .error e => (.error e, bindings)

def defineAll (bindings : Variables) : List Definition → Variables
  | [] => bindings
  | d :: rest => defineAll (bindings.define d).2 rest

def made (bindings : Variables) : List Definition → List (Text × Text)
  | [] => []
  | d :: rest => (d.binding? bindings).toList ++ made (bindings.define d).2 rest

variable {bindings : Variables} {d : Definition} {name value : Text}

theorem operand_of_literal {text : Text} (h : ∀ name, text = '$' :: name → False) :
    bindings.operand text = .ok text := by
  unfold operand
  split
  · next name => exact (h name rfl).elim
  · rfl

theorem define_of_binding (h : d.binding? bindings = some (name, value)) :
    bindings.define d = (.ok name, bindings.insert name value) := by
  obtain ⟨hname, rfl, hvalue⟩ := Definition.binding?_eq_some_iff.1 h
  unfold define assign
  rw [assignmentSides_eq]
  simp only [hname, if_false]
  unfold Definition.value? at hvalue
  split at hvalue
  · next hgiven =>
    cases hvalue
    simp only [hgiven]
  · next source hgiven =>
    simp only [hgiven, operand, valueOf, hvalue]
  · next literal hliteral hgiven =>
    cases hvalue
    simp only [hgiven, operand_of_literal hliteral]

theorem define_of_nameless (h : d.name = []) :
    bindings.define d = (.error (.format (.namelessVariable d.assignment)), bindings) := by
  unfold define assign
  rw [assignmentSides_eq]
  simp only [h, if_true]

theorem define_of_undefined {source : Text} (h : d.name ≠ [])
    (hgiven : d.given? = some ('$' :: source)) (hsource : bindings.get? source = none) :
    bindings.define d = (.error (.undefinedVariable source), bindings) := by
  unfold define assign
  rw [assignmentSides_eq]
  simp only [h, if_false, hgiven, operand, valueOf, hsource]

/-- A value is wanting only where another name was to give it. -/
theorem exists_source (h : d.value? bindings = none) :
    ∃ source, d.given? = some ('$' :: source) ∧ bindings.get? source = none := by
  unfold Definition.value? at h
  split at h
  · cases h
  · next source hgiven => exact ⟨source, hgiven, h⟩
  · cases h

inductive Settles (bindings : Variables) (d : Definition) :
    Except ScriptError Text × Variables → Prop
  | nameless (h : d.name = []) :
      Settles bindings d (.error (.format (.namelessVariable d.assignment)), bindings)
  | undefined {source : Text} (h : d.name ≠ []) (hgiven : d.given? = some ('$' :: source))
      (hsource : bindings.get? source = none) :
      Settles bindings d (.error (.undefinedVariable source), bindings)
  | bound {value : Text} (h : d.name ≠ []) (hvalue : d.value? bindings = some value) :
      Settles bindings d (.ok d.name, bindings.insert d.name value)

theorem settles_define (bindings : Variables) (d : Definition) :
    Settles bindings d (bindings.define d) := by
  by_cases hname : d.name = []
  · rw [define_of_nameless hname]
    exact .nameless hname
  · cases hvalue : d.value? bindings with
    | none =>
      obtain ⟨source, hgiven, hsource⟩ := exists_source hvalue
      rw [define_of_undefined hname hgiven hsource]
      exact .undefined hname hgiven hsource
    | some value =>
      rw [define_of_binding (Definition.binding?_eq_some_iff.2 ⟨hname, rfl, hvalue⟩)]
      exact .bound hname hvalue

theorem define_of_binding?_eq_none (h : d.binding? bindings = none) :
    (bindings.define d).2 = bindings := by
  have hsettles := settles_define bindings d
  generalize bindings.define d = outcome at hsettles ⊢
  cases hsettles with
  | nameless => rfl
  | undefined => rfl
  | bound hname hvalue =>
    rw [Definition.binding?_eq_some_iff.2 ⟨hname, rfl, hvalue⟩] at h
    cases h

theorem define_format_iff (bindings : Variables) (d : Definition) :
    (∃ e, (bindings.define d).1 = .error (.format e)) ↔ ∀ c ∈ d.front, c = ' ' := by
  rw [← Definition.name_eq_nil_iff]
  have hsettles := settles_define bindings d
  generalize bindings.define d = outcome at hsettles ⊢
  cases hsettles with
  | nameless hname => exact iff_of_true ⟨_, rfl⟩ hname
  | undefined hname => exact iff_of_false (by simp) hname
  | bound hname => exact iff_of_false (by simp) hname

theorem define_undefined_iff (bindings : Variables) (d : Definition) (source : Text) :
    (bindings.define d).1 = .error (.undefinedVariable source)
      ↔ (∃ c ∈ d.front, c ≠ ' ') ∧ d.given? = some ('$' :: source) ∧
        bindings.get? source = none := by
  have hfront : (∃ c ∈ d.front, c ≠ ' ') ↔ d.name ≠ [] := by
    rw [ne_eq, Definition.name_eq_nil_iff]
    simp
  rw [hfront]
  have hsettles := settles_define bindings d
  generalize bindings.define d = outcome at hsettles ⊢
  cases hsettles with
  | nameless hname => exact iff_of_false (by simp) fun h => h.1 hname
  | undefined hname hgiven hsource =>
    constructor
    · intro h
      simp only [Except.error.injEq, ScriptError.undefinedVariable.injEq] at h
      exact ⟨hname, h ▸ hgiven, h ▸ hsource⟩
    · rintro ⟨-, hgiven', -⟩
      rw [hgiven] at hgiven'
      simp only [Option.some.injEq, List.cons.injEq, true_and] at hgiven'
      rw [hgiven']
  | bound hname hvalue =>
    refine iff_of_false (by simp) ?_
    rintro ⟨-, hgiven, hsource⟩
    rw [Definition.value?, hgiven] at hvalue
    exact absurd (hvalue.symm.trans hsource) (by simp)

/-- A definition that is refused changes nothing. -/
theorem define_refused {e : ScriptError} (h : (bindings.define d).1 = .error e) :
    (e = .format (.namelessVariable d.assignment) ∨ ∃ source, e = .undefinedVariable source) ∧
      (bindings.define d).2 = bindings := by
  have hsettles := settles_define bindings d
  generalize bindings.define d = outcome at hsettles h ⊢
  cases hsettles with
  | nameless =>
    cases h
    exact ⟨Or.inl rfl, rfl⟩
  | undefined =>
    cases h
    exact ⟨Or.inr ⟨_, rfl⟩, rfl⟩
  | bound => cases h

theorem define_ok_iff :
    (bindings.define d).1 = .ok name ↔ ∃ value, d.binding? bindings = some (name, value) := by
  constructor
  · intro h
    have hsettles := settles_define bindings d
    generalize bindings.define d = outcome at hsettles h
    cases hsettles with
    | nameless => cases h
    | undefined => cases h
    | bound hname hvalue =>
      cases h
      exact ⟨_, Definition.binding?_eq_some_iff.2 ⟨hname, rfl, hvalue⟩⟩
  · rintro ⟨value, h⟩
    rw [define_of_binding h]

/-- A definition that copies gives its name what the other name has now. -/
theorem get?_source {source : Text} (h : d.binding? bindings = some (name, value))
    (hgiven : d.given? = some ('$' :: source)) : bindings.get? source = some value := by
  obtain ⟨-, -, hvalue⟩ := Definition.binding?_eq_some_iff.1 h
  rwa [Definition.value?, hgiven] at hvalue

theorem get?_define (bindings : Variables) (d : Definition) (other : Text) :
    (bindings.define d).2.get? other
      = (((d.binding? bindings).toList.lookup other)).or (bindings.get? other) := by
  cases h : d.binding? bindings with
  | none =>
    rw [define_of_binding?_eq_none h]
    rfl
  | some made =>
    obtain ⟨name, value⟩ := made
    rw [define_of_binding h, Table.get?_insert]
    by_cases heq : name = other
    · simp [heq]
    · have hne : (other == name) = false := beq_false_of_ne (Ne.symm heq)
      simp [heq, hne]

/-- A name has the value that it was given last, and the one that it had before if it was given
none. -/
theorem get?_defineAll (bindings : Variables) (ds : List Definition) (other : Text) :
    (bindings.defineAll ds).get? other
      = ((bindings.made ds).reverse.lookup other).or (bindings.get? other) := by
  induction ds generalizing bindings with
  | nil => rfl
  | cons d rest ih =>
    -- One definition makes one binding at most, which is its own mirror image.
    have hreverse : (d.binding? bindings).toList.reverse = (d.binding? bindings).toList := by
      cases d.binding? bindings <;> rfl
    rw [defineAll, ih, get?_define, made, List.reverse_append, List.lookup_append, hreverse,
      Option.or_assoc]

theorem lookup_eq_none_of_forall_ne {pairs : List (Text × Text)} {other : Text}
    (h : ∀ pair ∈ pairs, pair.1 ≠ other) : pairs.reverse.lookup other = none := by
  rw [List.lookup_eq_none_iff]
  intro pair hpair
  exact bne_iff_ne.2 (h pair (List.mem_reverse.1 hpair)).symm

/-- Whatever is defined later, a name that is not given a value again keeps the one it has. -/
theorem get?_defineAll_of_forall_ne {ds : List Definition} {other : Text}
    (h : ∀ pair ∈ bindings.made ds, pair.1 ≠ other) :
    (bindings.defineAll ds).get? other = bindings.get? other := by
  rw [get?_defineAll, lookup_eq_none_of_forall_ne h]
  rfl

/-- A name that definitions give a value is one that a reference can spell. -/
theorem spellable_of_mem_made {bindings : Variables} {ds : List Definition} {pair : Text × Text}
    (h : pair ∈ bindings.made ds) : pair.1 ≠ [] ∧ ' ' ∉ pair.1 := by
  induction ds generalizing bindings with
  | nil => cases h
  | cons d rest ih =>
    rcases List.mem_append.1 h with hfirst | hrest
    · obtain ⟨name, value⟩ := pair
      obtain ⟨hname, rfl, -⟩ :=
        Definition.binding?_eq_some_iff.1 (Option.mem_toList.1 hfirst)
      exact ⟨hname, d.space_not_mem_name⟩
    · exact ih hrest

theorem expand_reference (hne : name ≠ []) (hspace : ' ' ∉ name)
    (h : bindings.get? name = some value) : bindings.expand ('$' :: name) = .ok value := by
  have hword : ' ' ∉ '$' :: name := by
    simpa using hspace
  unfold expand
  rw [Piece.ofText_word hword, Text.reference?_dollar, if_neg hne]
  simp [Piece.expand, valueOf, h]

theorem spellable_of_get?_defineAll {ds : List Definition}
    (hold : bindings.get? name = none ∨ name ≠ [] ∧ ' ' ∉ name)
    (h : (bindings.defineAll ds).get? name = some value) : name ≠ [] ∧ ' ' ∉ name := by
  rcases hold with hnone | hspelled
  · rw [get?_defineAll, hnone, Option.or_none] at h
    obtain ⟨later, earlier, hmade, -⟩ := List.lookup_eq_some_iff.1 h
    have hmem : (name, value) ∈ bindings.made ds := List.mem_reverse.1 (by simp [hmade])
    exact spellable_of_mem_made hmem
  · exact hspelled

end Variables

theorem Workspace.bindings_perform_define {ε : Type} [Environment ε] (settings : Settings)
    (text : Text) (w : Workspace ε) :
    (w.perform settings (.textual '$' text)).2.bindings
      = (w.bindings.define ⟨Text.trim text, w.lastRow⟩).2 := by
  have haction : (Command.textual '$' text).action = .define := rfl
  have hraw : (Command.textual '$' text).raw = text := rfl
  unfold Variables.define perform
  rw [haction, hraw]
  dsimp only
  cases w.bindings.assign (Text.trim text) w.lastRow with
  | error e => rfl
  | ok assigned => rfl

/-- A definition is refused for want of a name exactly if there are at most spaces in front of the
first equals sign, otherwise for want of a value exactly if it is to copy the value of a name that
has none, and then nothing changes. One that is not refused gives its name the last row, the text
behind the equals sign or the copy, and changes no other. After any definitions each name has the
value that it was given last. A copy is not touched by what becomes of its source, whatever the
value begins with, and a reference to a name reads its value back as it is. What a run does with a
definition is the same. -/
theorem Variables.definitions_by_value (bindings : Variables) :
    (∀ d : Definition,
      ((∃ e, (bindings.define d).1 = .error (.format e)) ↔ ∀ c ∈ d.front, c = ' ') ∧
      (∀ source, (bindings.define d).1 = .error (.undefinedVariable source) ↔
        (∃ c ∈ d.front, c ≠ ' ') ∧ d.given? = some ('$' :: source) ∧
          bindings.get? source = none) ∧
      (∀ e, (bindings.define d).1 = .error e →
        (e = .format (.namelessVariable d.assignment) ∨ ∃ source, e = .undefinedVariable source) ∧
          (bindings.define d).2 = bindings) ∧
      (∀ name, (bindings.define d).1 = .ok name ↔
        ∃ value, d.binding? bindings = some (name, value)) ∧
      (∀ name value, d.binding? bindings = some (name, value) →
        name = d.front.filter (· != ' ') ∧ d.value? bindings = some value ∧
          ∀ other, (bindings.define d).2.get? other
            = if name = other then some value else bindings.get? other)) ∧
    (∀ ds other, (bindings.defineAll ds).get? other
      = ((bindings.made ds).reverse.lookup other).or (bindings.get? other)) ∧
    (∀ d name value source ds, d.binding? bindings = some (name, value) →
      d.given? = some ('$' :: source) →
      (∀ later ∈ (bindings.define d).2.made ds, later.1 ≠ name) →
        bindings.get? source = some value ∧
          ((bindings.define d).2.defineAll ds).get? name = some value) ∧
    (∀ ds name value, (bindings.get? name = none ∨ name ≠ [] ∧ ' ' ∉ name) →
      (bindings.defineAll ds).get? name = some value →
        (bindings.defineAll ds).expand ('$' :: name) = .ok value) ∧
    ∀ {ε : Type} [Environment ε] (w : Workspace ε) settings text,
      (w.perform settings (.textual '$' text)).2.bindings
        = (w.bindings.define ⟨Text.trim text, w.lastRow⟩).2 := by
  refine ⟨fun d => ⟨define_format_iff bindings d, define_undefined_iff bindings d,
    fun e => define_refused, fun name => define_ok_iff, ?_⟩, get?_defineAll bindings, ?_, ?_,
    fun w settings text => Workspace.bindings_perform_define settings text w⟩
  · intro name value h
    obtain ⟨-, hname, hvalue⟩ := Definition.binding?_eq_some_iff.1 h
    refine ⟨hname, hvalue, fun other => ?_⟩
    rw [define_of_binding h, Table.get?_insert]
  · intro d name value source ds h hgiven hlater
    refine ⟨get?_source h hgiven, ?_⟩
    rw [get?_defineAll_of_forall_ne hlater, define_of_binding h, Table.get?_insert, if_pos rfl]
  · intro ds name value hold h
    obtain ⟨hne, hspace⟩ := spellable_of_get?_defineAll hold h
    exact expand_reference hne hspace h

def borrowed : Variables := (Variables.define Table.empty ⟨['a'], "$deep".toList⟩).2

/-- The copy of such a value is that value, also when the name that it came from is defined anew. -/
theorem Variables.definitions_by_value_borrowed :
    let d : Definition := ⟨"b c = $a".toList, []⟩
    let later : List Definition := [⟨"a=2".toList, []⟩, ⟨"  =3".toList, []⟩, ⟨"bc=$b".toList, []⟩]
    d.binding? borrowed = some ("bc".toList, "$deep".toList) ∧
      (borrowed.defineAll (d :: later)).get? ['a'] = some ['2'] ∧
      (borrowed.defineAll (d :: later)).get? "bc".toList = some "$deep".toList ∧
      (borrowed.defineAll (d :: later)).expand "$bc".toList = .ok "$deep".toList := by
  intro d later
  obtain ⟨hone, hlast, hcopy, hread, -⟩ := definitions_by_value borrowed
  have hbinding : d.binding? borrowed = some ("bc".toList, "$deep".toList) := by decide
  have hgiven : d.given? = some "$a".toList := by decide
  have hmade : ∀ pair ∈ (borrowed.define d).2.made later, pair.1 ≠ "bc".toList := by decide
  obtain ⟨-, hvalue⟩ := hcopy d _ _ ['a'] later hbinding hgiven hmade
  exact ⟨hbinding, (hlast _ _).trans (by decide), hvalue,
    hread (d :: later) _ _ (Or.inl (by decide)) hvalue⟩

end BenchScript
