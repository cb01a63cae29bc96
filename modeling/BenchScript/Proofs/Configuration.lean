import BenchScript.Proofs.Documents
import BenchScript.Proofs.Numerals

set_option autoImplicit false

namespace BenchScript.Settings

open Yaml (Anchors Scalar Value)

section Assignments

variable {anchors : Anchors} {entries : List (Yaml.Node × Yaml.Node)} {seen : List Text}
  {settings left : Settings}

theorem assign_of_not_names {key : Text} (h : names.contains key = false) (value : Option Scalar) :
    settings.assign key value = some settings := by
  simp only [names, List.contains_cons, List.contains_nil, Bool.or_eq_false_iff,
    beq_eq_false_iff_ne] at h
  obtain ⟨hbudget, hlimit, htimeout, houtput, -⟩ := h
  rw [assign, if_neg hbudget, if_neg hlimit, if_neg htimeout, if_neg houtput]

theorem assignAll_cons {key value : Yaml.Node} {scalar : Scalar}
    (hkey : anchors.scalar? key = some scalar) :
    assignAll anchors settings seen ((key, value) :: entries) =
      if seen.contains scalar.text then none
      else (settings.assign scalar.text (anchors.scalar? value)).bind fun settings =>
        assignAll anchors settings
          (if names.contains scalar.text then scalar.text :: seen else seen) entries := by
  rw [assignAll, hkey]

def named? (anchors : Anchors) (entry : Yaml.Node × Yaml.Node) : Option Text :=
  ((anchors.scalar? entry.1).map Scalar.text).filter names.contains

theorem named?_of_scalar {entry : Yaml.Node × Yaml.Node} {scalar : Scalar}
    (h : anchors.scalar? entry.1 = some scalar) :
    named? anchors entry = if names.contains scalar.text then some scalar.text else none := by
  rw [named?, h]
  rfl

/-- Entries that name no setting might as well not be there, if only their keys are scalars. -/
theorem assignAll_filter (hkeys : ∀ entry ∈ entries, (anchors.scalar? entry.1).isSome)
    (hseen : ∀ key ∈ seen, names.contains key) :
    assignAll anchors settings seen (entries.filter fun entry => (named? anchors entry).isSome)
      = assignAll anchors settings seen entries := by
  induction entries generalizing settings seen with
  | nil => rfl
  | cons entry entries ih =>
    obtain ⟨key, value⟩ := entry
    obtain ⟨scalar, hkey⟩ := Option.isSome_iff_exists.1 (hkeys (key, value) (List.mem_cons_self ..))
    have hrest := fun other hmem => hkeys other (List.mem_cons_of_mem _ hmem)
    rw [assignAll_cons hkey, List.filter_cons, named?_of_scalar hkey]
    cases hname : names.contains scalar.text with
    | true =>
      have hnext := fun next => @ih (scalar.text :: seen) next hrest
        (List.forall_mem_cons.2 ⟨hname, hseen⟩)
      simp only [if_true, Option.isSome_some, assignAll_cons hkey, hname, hnext]
    | false =>
      -- Only names of settings are remembered, so this key cannot have been given before.
      have hnew : seen.contains scalar.text = false := by
        rw [Bool.eq_false_iff]
        intro hmem
        have hknown := hseen _ (List.contains_iff_mem.1 hmem)
        rw [hname] at hknown
        cases hknown
      simp only [Bool.false_eq_true, if_false, Option.isSome_none, hnew, assign_of_not_names hname,
        Option.bind_some]
      exact ih hrest hseen

/-- No setting is given twice. -/
theorem nodup_of_assignAll (h : assignAll anchors settings seen entries = some left) :
    (entries.filterMap (named? anchors)).Nodup ∧
      ∀ key ∈ entries.filterMap (named? anchors), key ∉ seen := by
  induction entries generalizing settings seen with
  | nil => exact ⟨List.nodup_nil, List.forall_mem_nil _⟩
  | cons entry entries ih =>
    obtain ⟨key, value⟩ := entry
    cases hkey : anchors.scalar? key with
    | none =>
      rw [assignAll, hkey] at h
      cases h
    | some scalar =>
      rw [assignAll_cons hkey] at h
      split at h
      · cases h
      · next hnew =>
        obtain ⟨next, -, h⟩ := Option.bind_eq_some_iff.1 h
        obtain ⟨hnodup, hapart⟩ := ih h
        rw [List.filterMap_cons, named?_of_scalar hkey]
        cases hname : names.contains scalar.text with
        | true =>
          rw [hname, if_pos rfl] at hapart
          have hseen : scalar.text ∉ seen := fun hmem => hnew (List.contains_iff_mem.2 hmem)
          exact ⟨List.nodup_cons.2 ⟨fun hmem => hapart _ hmem (List.mem_cons_self ..), hnodup⟩,
            List.forall_mem_cons.2
              ⟨hseen, fun name hmem hold => hapart name hmem (List.mem_cons_of_mem _ hold)⟩⟩
        | false =>
          rw [hname] at hapart
          exact ⟨hnodup, hapart⟩

end Assignments

theorem valid_of_ofText {text : Text} {settings : Settings} (h : ofText text = .ok settings) :
    settings.Valid := by
  unfold ofText at h
  split at h
  · cases h
  · split at h
    · next hcheck =>
      cases h
      exact (check_eq_ok_iff _).1 hcheck
    · cases h

section Written

variable {settings : Settings}

def entries (settings : Settings) : List (Text × Value) :=
  [("call_depth_budget".toList, .word (Text.decimal settings.callDepthBudget)),
    ("hex_inline_limit".toList, .word (Text.decimal settings.hexInlineLimit)),
    ("read_timeout_ms".toList, .word (settings.readTimeout.elim "null".toList Text.decimal)),
    ("default_output".toList, settings.defaultOutput.elim (.word "null".toList) .quoted)]

/-- Valid settings of which the numbers have their widths, and the path stays in one line. -/
structure IsWritable (settings : Settings) : Prop where
  valid : settings.Valid
  budget : settings.callDepthBudget < UInt32.size
  timeout : ∀ n ∈ settings.readTimeout, n < UInt64.size
  output : ∀ path ∈ settings.defaultOutput, ∀ c ∈ path, Yaml.isAllowed c = true ∧ Yaml.StaysInLine c

theorem numberBelow_decimal {bound n : Nat} (h : n < bound) :
    numberBelow bound ⟨.plain, none, Text.decimal n⟩ = some n := by
  simp [numberBelow, isNumeric, number_decimal, Option.filter, h]

theorem isNull_decimal (n : Nat) : isNull (Text.decimal n) = false := by
  have hdigit : ∀ text, text = Text.decimal n → ∀ c ∈ text, c.isDigit = true := by
    rintro text rfl c hc
    exact Text.isDigit_of_mem_decimal hc
  rw [Bool.eq_false_iff]
  intro hnull
  simp only [isNull, Bool.or_eq_true, beq_iff_eq] at hnull
  rcases hnull with ((hnull | hnull) | hnull) | hnull
  · exact absurd (hdigit _ hnull.symm '~' (by decide)) (by decide)
  · exact absurd (hdigit _ hnull.symm 'n' (by decide)) (by decide)
  · exact absurd (hdigit _ hnull.symm 'N' (by decide)) (by decide)
  · exact absurd (hdigit _ hnull.symm 'N' (by decide)) (by decide)

theorem isWord_decimal (n : Nat) : Yaml.IsWord (Text.decimal n) := by
  refine ⟨Text.decimal_ne_nil n, fun c hc => ?_⟩
  simp [Yaml.isPlainChar, Char.isAlphanum, Text.isDigit_of_mem_decimal hc]

theorem isWord_null : Yaml.IsWord "null".toList :=
  ⟨by decide, List.all_eq_true.1 (by decide)⟩

theorem isEntry_of_mem_names {key : Text} (hkey : names.contains key = true) {value : Value}
    (hvalue : value.IsWritable) : Yaml.IsEntry (key, value) := by
  have hall : (names.all fun key =>
      !key.isEmpty && key.all Yaml.isPlainChar && decide (key.length ≤ 1024)) = true := by decide
  have hname := List.all_eq_true.1 hall key (List.contains_iff_mem.1 hkey)
  simp only [Bool.and_eq_true, Bool.not_eq_true', List.isEmpty_eq_false_iff,
    decide_eq_true_eq] at hname
  exact ⟨⟨hname.1.1, List.all_eq_true.1 hname.1.2⟩, hname.2, hvalue⟩

theorem isEntry_of_mem_entries (h : settings.IsWritable) :
    ∀ entry ∈ settings.entries, Yaml.IsEntry entry := by
  obtain ⟨budget, limit, timeout, output⟩ := settings
  have htimeout : Yaml.IsWord (timeout.elim "null".toList Text.decimal) := by
    cases timeout with
    | none => exact isWord_null
    | some n => exact isWord_decimal n
  have houtput : (output.elim (Value.word "null".toList) Value.quoted).IsWritable := by
    cases output with
    | none => exact isWord_null
    | some path => exact h.output path rfl
  simp only [entries, List.forall_mem_cons]
  exact ⟨isEntry_of_mem_names rfl (isWord_decimal _), isEntry_of_mem_names rfl (isWord_decimal _),
    isEntry_of_mem_names rfl htimeout, isEntry_of_mem_names rfl houtput, List.forall_mem_nil _⟩

theorem optional_decimal {n : Nat} (h : n < UInt64.size) :
    optional (numberBelow UInt64.size) ⟨.plain, none, Text.decimal n⟩ = some (some n) := by
  simp [optional, numberBelow_decimal h, Text.decimal_ne_nil, isNull_decimal]

theorem optional_null {α : Type} (read : Scalar → Option α) :
    optional read ⟨.plain, none, "null".toList⟩ = some none := by
  simp [optional, isNull]

theorem assign_timeout (settings : Settings) {timeout : Option Nat}
    (h : ∀ n ∈ timeout, n < UInt64.size) :
    settings.assign "read_timeout_ms".toList
        (some ⟨.plain, none, timeout.elim "null".toList Text.decimal⟩)
      = some { settings with readTimeout := timeout } := by
  rw [assign, if_neg (by decide), if_neg (by decide), if_pos rfl, Option.bind_some]
  cases timeout with
  | none => rw [Option.elim_none, optional_null, Option.map_some]
  | some n => rw [Option.elim_some, optional_decimal (h n rfl), Option.map_some]

theorem assign_output (settings : Settings) (output : Option Text) :
    settings.assign "default_output".toList
        (some (output.elim (Value.word "null".toList) Value.quoted).scalar)
      = some { settings with defaultOutput := output } := by
  rw [assign, if_neg (by decide), if_neg (by decide), if_neg (by decide), if_pos rfl,
    Option.bind_some]
  cases output with
  | none => rw [Option.elim_none, Value.scalar, optional_null, Option.map_some]
  | some path => rfl

theorem assignAll_setting {seen : List Text} {key : Text} {scalar : Scalar}
    {rest : List (Yaml.Node × Yaml.Node)} {next : Settings} (hnew : seen.contains key = false)
    (hname : names.contains key = true) (h : settings.assign key (some scalar) = some next) :
    assignAll {} settings seen ((.scalar ⟨.plain, none, key⟩, .scalar scalar) :: rest)
      = assignAll {} next (key :: seen) rest := by
  have hvalue : Anchors.scalar? {} (.scalar scalar) = some scalar := rfl
  rw [assignAll_cons rfl, hvalue, h, hname, hnew]
  rfl

theorem assignAll_entries (h : settings.IsWritable) :
    assignAll {} {} [] (settings.entries.map fun entry =>
      (.scalar ⟨.plain, none, entry.1⟩, .scalar entry.2.scalar)) = some settings := by
  obtain ⟨budget, limit, timeout, output⟩ := settings
  have hlimit : limit < UInt64.size := Nat.lt_of_le_of_lt h.valid.2 (by decide)
  have hbudget : assign {} "call_depth_budget".toList (some ⟨.plain, none, Text.decimal budget⟩)
      = some { callDepthBudget := budget } := by
    rw [assign, if_pos rfl, Option.bind_some, numberBelow_decimal h.budget, Option.map_some]
  have hinline : assign { callDepthBudget := budget } "hex_inline_limit".toList
      (some ⟨.plain, none, Text.decimal limit⟩)
      = some { callDepthBudget := budget, hexInlineLimit := limit } := by
    rw [assign, if_neg (by decide), if_pos rfl, Option.bind_some, numberBelow_decimal hlimit,
      Option.map_some]
  have htimeout := assign_timeout { callDepthBudget := budget, hexInlineLimit := limit } h.timeout
  have houtput := assign_output
    { callDepthBudget := budget, hexInlineLimit := limit, readTimeout := timeout } output
  refine (assignAll_setting rfl rfl hbudget).trans ?_
  refine (assignAll_setting rfl rfl hinline).trans ?_
  refine (assignAll_setting rfl rfl htimeout).trans ?_
  exact assignAll_setting rfl rfl houtput

/-- Settings that are written down are read back. -/
theorem ofText_linesOf_entries (h : settings.IsWritable) :
    ofText (Yaml.linesOf settings.entries) = .ok settings := by
  have hread := Yaml.ofText_linesOf (isEntry_of_mem_entries h) (List.cons_ne_nil _ _)
  have hcheck := (check_eq_ok_iff settings).2 h.valid
  rw [ofText, hread]
  simp only [ofContent, assignAll_entries h, hcheck]

end Written

end BenchScript.Settings
