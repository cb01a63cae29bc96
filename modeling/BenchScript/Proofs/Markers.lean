import BenchScript.Proofs.Trimming
import BenchScript.Script.Routine

set_option autoImplicit false

namespace BenchScript

def IsMarker (line : Text) : Prop := (Text.trim line).head? = some markerTag

instance (line : Text) : Decidable (IsMarker line) :=
  inferInstanceAs (Decidable ((Text.trim line).head? = some markerTag))

/-- The line of this index is a marker that does not show the fingerprint of the lines above it. -/
def BreaksSeal (lines : List Text) (i : Nat) : Prop :=
  ∃ line, lines[i]? = some line ∧ IsMarker line ∧ ¬ fingerprint (lines.take i) <:+: line

def Holds (above : List Text) (line : Text) : Prop := IsMarker line → fingerprint above <:+: line

def Unbroken (above : List Text) : List Text → Prop
  | [] => True
  | line :: below => Holds above line ∧ Unbroken (above ++ [line]) below

theorem breaksSeal_iff {lines : List Text} {i : Nat} :
    BreaksSeal lines i ↔ ∃ line, lines[i]? = some line ∧ ¬ Holds (lines.take i) line := by
  unfold BreaksSeal Holds
  simp only [Classical.not_imp]

theorem unbroken_iff (above below : List Text) :
    Unbroken above below
      ↔ ∀ i line, below[i]? = some line → Holds (above ++ below.take i) line := by
  induction below generalizing above with
  | nil => simp [Unbroken]
  | cons first below ih =>
    rw [Unbroken, ih]
    constructor
    · rintro ⟨hfirst, hbelow⟩ i line hline
      cases i with
      | zero =>
        cases hline
        simpa using hfirst
      | succ i => simpa using hbelow i line hline
    · intro h
      refine ⟨by simpa using h 0 first rfl, ?_⟩
      intro i line hline
      simpa using h (i + 1) line hline

theorem unbroken_append (above first second : List Text) :
    Unbroken above (first ++ second)
      ↔ Unbroken above first ∧ Unbroken (above ++ first) second := by
  induction first generalizing above with
  | nil => simp [Unbroken]
  | cons line first ih => simp [Unbroken, ih, and_assoc]

theorem unbroken_of_not_isMarker (above : List Text) {below : List Text}
    (h : ∀ line ∈ below, ¬ IsMarker line) : Unbroken above below := by
  induction below generalizing above with
  | nil => trivial
  | cons line below ih =>
    refine ⟨fun hmarker => absurd hmarker (h line List.mem_cons_self), ?_⟩
    exact ih _ fun line hmem => h line (List.mem_cons_of_mem _ hmem)

/-- If not all markers hold, there is a first one that does not. -/
theorem exists_of_not_unbroken {above below : List Text} (h : ¬ Unbroken above below) :
    ∃ before line after, below = before ++ line :: after ∧ Unbroken above before ∧
      ¬ Holds (above ++ before) line := by
  induction below generalizing above with
  | nil => exact absurd trivial h
  | cons line below ih =>
    by_cases hline : Holds above line
    · have hbelow : ¬ Unbroken (above ++ [line]) below := fun hbelow => h ⟨hline, hbelow⟩
      obtain ⟨before, broken, after, rfl, hbefore, hbroken⟩ := ih hbelow
      refine ⟨line :: before, broken, after, rfl, ⟨hline, hbefore⟩, ?_⟩
      simpa using hbroken
    · exact ⟨[], line, below, rfl, trivial, by simpa using hline⟩

theorem length_fingerprint (lines : List Text) : (fingerprint lines).length = 32 := by
  simp [fingerprint, Hex.length_encode, Md5.digest, Md5.littleEndian]

theorem fingerprint_ne_nil (lines : List Text) : fingerprint lines ≠ [] := by
  intro hnil
  have hlength := length_fingerprint lines
  rw [hnil] at hlength
  cases hlength

theorem showsFingerprint_iff (line : Text) (lines : List Text) :
    showsFingerprint line (fingerprint lines) = true ↔ fingerprint lines <:+: line := by
  simp [showsFingerprint, Text.occursIn_iff, fingerprint_ne_nil lines]

theorem isMarker_cons (rest : Text) : IsMarker (markerTag :: rest) := by
  unfold IsMarker Text.trim
  have hstart : Text.trimStart (markerTag :: rest) = markerTag :: rest :=
    List.dropWhile_cons_of_neg (by decide)
  rw [hstart]
  exact Text.head?_trimEnd (by decide) rest

theorem isMarker_markerLine (lines : List Text) : IsMarker (markerLine lines) :=
  isMarker_cons _

theorem holds_markerLine (lines : List Text) : Holds lines (markerLine lines) := by
  intro _
  exact ⟨[markerTag, ' '], [], by simp [markerLine]⟩

def LineClass.command? : LineClass → Option Command
  | .command c => some c
  | .ignored | .marker => none

theorem LineClass.ofLine_eq_marker_iff {line : Text} :
    LineClass.ofLine line = .marker ↔ IsMarker line := by
  unfold LineClass.ofLine IsMarker
  cases Text.trim line with
  | nil => simp
  | cons tag raw =>
    simp only [List.head?_cons, Option.some.injEq]
    by_cases hcomment : tag = '#'
    · subst hcomment
      simp [markerTag]
    · by_cases hmarker : tag = markerTag
      · subst hmarker
        simp [hcomment]
      · simp only [hcomment, hmarker, if_false, iff_false]
        split <;> simp

def numbered (number : Nat) : List Text → List (Nat × Command)
  | [] => []
  | line :: below =>
    ((LineClass.ofLine line).command?.map (number, ·)).toList ++ numbered (number + 1) below

theorem numbered_append (number : Nat) (first second : List Text) :
    numbered number (first ++ second)
      = numbered number first ++ numbered (number + first.length) second := by
  induction first generalizing number with
  | nil => rfl
  | cons line first ih =>
    rw [List.cons_append, numbered, ih, numbered, List.append_assoc, List.length_cons,
      Nat.add_assoc, Nat.add_comm 1]

theorem map_snd_numbered (number : Nat) (lines : List Text) :
    (numbered number lines).map Prod.snd
      = lines.filterMap fun line => (LineClass.ofLine line).command? := by
  induction lines generalizing number with
  | nil => rfl
  | cons line below ih =>
    rw [numbered, List.map_append, ih, List.filterMap_cons]
    cases (LineClass.ofLine line).command? <;> rfl

theorem readCommands_cons_of_holds {above : List Text} {line : Text} (h : Holds above line)
    (below : List Text) :
    readCommands above (line :: below)
      = (readCommands (above ++ [line]) below).map
          (((LineClass.ofLine line).command?.map (above.length + 1, ·)).toList ++ ·) := by
  rw [readCommands]
  cases hclass : LineClass.ofLine line with
  | ignored => cases readCommands (above ++ [line]) below <;> rfl
  | marker =>
    have hshows := (showsFingerprint_iff line above).2 (h (LineClass.ofLine_eq_marker_iff.1 hclass))
    simp only [hshows, if_true]
    cases readCommands (above ++ [line]) below <;> rfl
  | command command =>
    simp only
    cases readCommands (above ++ [line]) below <;> rfl

theorem readCommands_cons_of_not_holds {above : List Text} {line : Text} (h : ¬ Holds above line)
    (below : List Text) :
    readCommands above (line :: below)
      = .error (.integrity (above.length + 1) (fingerprint above) line) := by
  obtain ⟨hmarker, hmissing⟩ := Classical.not_imp.1 h
  have hshows : showsFingerprint line (fingerprint above) = false := by
    rw [← Bool.not_eq_true, showsFingerprint_iff]
    exact hmissing
  rw [readCommands, LineClass.ofLine_eq_marker_iff.2 hmarker]
  simp [hshows]

theorem readCommands_of_unbroken {above below : List Text} (h : Unbroken above below) :
    readCommands above below = .ok (numbered (above.length + 1) below) := by
  induction below generalizing above with
  | nil => rfl
  | cons line below ih =>
    obtain ⟨hline, hbelow⟩ := h
    rw [readCommands_cons_of_holds hline, ih hbelow, List.length_append]
    rfl

theorem readCommands_of_not_holds {above before : List Text} {line : Text}
    (h : Unbroken above before) (hline : ¬ Holds (above ++ before) line) (after : List Text) :
    readCommands above (before ++ line :: after)
      = .error
          (.integrity ((above ++ before).length + 1) (fingerprint (above ++ before)) line) := by
  -- Reading goes downwards, so `above` grows by each line that is passed.
  induction before generalizing above with
  | nil =>
    rw [List.append_nil] at hline ⊢
    exact readCommands_cons_of_not_holds hline after
  | cons first before ih =>
    obtain ⟨hfirst, hbefore⟩ := h
    have hrest : ¬ Holds (above ++ [first] ++ before) line := by simpa using hline
    rw [List.cons_append, readCommands_cons_of_holds hfirst, ih hbefore hrest]
    simp [Except.map]

theorem not_unbroken_iff {lines : List Text} :
    ¬ Unbroken [] lines ↔ ∃ i, BreaksSeal lines i := by
  simp only [unbroken_iff, breaksSeal_iff, List.nil_append, Classical.not_forall, exists_prop]

def Section.content (part : Section) : Text × List Command := (part.name, part.commands)

theorem cutSections_of_map_snd {first second : List (Nat × Command)}
    (h : first.map Prod.snd = second.map Prod.snd) :
    (cutSections first).1 = (cutSections second).1 ∧
      (cutSections first).2.map Section.content = (cutSections second).2.map Section.content := by
  induction first generalizing second with
  | nil =>
    have hnil : second = [] := by simpa using h.symm
    subst hnil
    exact ⟨rfl, rfl⟩
  | cons head first ih =>
    cases second with
    | nil => cases h
    | cons head' second =>
      obtain ⟨number, command⟩ := head
      obtain ⟨number', command'⟩ := head'
      simp only [List.map_cons, List.cons.injEq] at h
      obtain ⟨rfl, hrest⟩ := h
      obtain ⟨hleading, hsections⟩ := ih hrest
      simp only [cutSections]
      by_cases hroutine : command.action = .routine
      · simp [hroutine, hsections, hleading, Section.content]
      · simp [hroutine, hsections, hleading]

namespace Routines

def ofCommands (commands : List (Nat × Command)) : Except ScriptError Routines :=
  addSections (Table.empty.insert entryRoutine (cutSections commands).1) (cutSections commands).2

theorem addSections_ne_integrity (table : Routines) (sections : List Section) (line : Nat)
    (computed marker : Text) :
    addSections table sections ≠ .error (.integrity line computed marker) := by
  induction sections generalizing table with
  | nil => nofun
  | cons part rest ih =>
    rw [addSections]
    split
    · nofun
    · split
      · nofun
      · exact ih _

theorem addSections_of_content (table : Routines) {first second : List Section}
    (h : first.map Section.content = second.map Section.content) :
    (addSections table first).toOption = (addSections table second).toOption := by
  -- Names and commands decide what is added; the marker numbers only show in errors.
  induction first generalizing table second with
  | nil =>
    have hnil : second = [] := by simpa using h.symm
    subst hnil
    rfl
  | cons part first ih =>
    cases second with
    | nil => cases h
    | cons part' second =>
      simp only [List.map_cons, List.cons.injEq, Section.content, Prod.mk.injEq] at h
      obtain ⟨⟨hname, hcommands⟩, hrest⟩ := h
      rw [addSections, addSections, ← hname, ← hcommands]
      split
      · rfl
      · split
        · rfl
        · exact ih _ hrest

/-- The numbers of lines have no part in what the routines are. -/
theorem ofCommands_of_map_snd {first second : List (Nat × Command)}
    (h : first.map Prod.snd = second.map Prod.snd) :
    (ofCommands first).toOption = (ofCommands second).toOption := by
  obtain ⟨hleading, hsections⟩ := cutSections_of_map_snd h
  unfold ofCommands
  rw [hleading]
  exact addSections_of_content _ hsections

theorem ofLines_of_unbroken {lines : List Text} (h : Unbroken [] lines) :
    ofLines lines = ofCommands (numbered 1 lines) := by
  unfold ofLines
  rw [readCommands_of_unbroken h]
  rfl

theorem ofLines_of_not_holds {before : List Text} {line : Text} (h : Unbroken [] before)
    (hline : ¬ Holds before line) (after : List Text) :
    ofLines (before ++ line :: after)
      = .error (.integrity (before.length + 1) (fingerprint before) line) := by
  unfold ofLines
  rw [readCommands_of_not_holds h hline after]
  rfl

theorem ofLines_of_not_unbroken {lines : List Text} (h : ¬ Unbroken [] lines) :
    ∃ line computed marker, ofLines lines = .error (.integrity line computed marker) := by
  obtain ⟨before, line, after, rfl, hbefore, hline⟩ := exists_of_not_unbroken h
  exact ⟨_, _, _, ofLines_of_not_holds hbefore hline after⟩

theorem ofLines_integrity_iff (lines : List Text) :
    (∃ line computed marker, ofLines lines = .error (.integrity line computed marker))
      ↔ ∃ i, BreaksSeal lines i := by
  rw [← not_unbroken_iff]
  constructor
  · rintro ⟨line, computed, marker, herror⟩ hunbroken
    rw [ofLines_of_unbroken hunbroken] at herror
    exact addSections_ne_integrity _ _ _ _ _ herror
  · exact ofLines_of_not_unbroken

theorem ofLines_of_first {lines : List Text} {i : Nat} {line : Text} (hline : lines[i]? = some line)
    (hbreak : BreaksSeal lines i) (hfirst : ∀ j < i, ¬ BreaksSeal lines j) :
    ofLines lines = .error (.integrity (i + 1) (fingerprint (lines.take i)) line) := by
  obtain ⟨hlt, hget⟩ := List.getElem?_eq_some_iff.1 hline
  have hcut : lines = lines.take i ++ line :: lines.drop (i + 1) := by
    rw [← hget, List.getElem_cons_drop, List.take_append_drop]
  have hbefore : Unbroken [] (lines.take i) := by
    rw [unbroken_iff]
    intro j above habove
    obtain ⟨hj, _⟩ := List.getElem?_eq_some_iff.1 habove
    rw [List.length_take] at hj
    rw [List.getElem?_take_of_lt (by omega)] at habove
    rw [List.nil_append, List.take_take, Nat.min_eq_left (by omega)]
    have hholds := hfirst j (by omega)
    rw [breaksSeal_iff] at hholds
    exact Classical.not_not.1 fun hnot => hholds ⟨above, habove, hnot⟩
  have hlast : ¬ Holds (lines.take i) line := by
    obtain ⟨line', hline', hnot⟩ := breaksSeal_iff.1 hbreak
    rw [hline] at hline'
    cases hline'
    exact hnot
  have herror := ofLines_of_not_holds hbefore hlast (lines.drop (i + 1))
  rwa [← hcut, List.length_take, Nat.min_eq_left (by omega)] at herror

theorem ofLines_eq_ok_iff (lines : List Text) (table : Routines) :
    ofLines lines = .ok table
      ↔ Unbroken [] lines ∧ (ofCommands (numbered 1 lines)).toOption = some table := by
  constructor
  · intro hok
    have hunbroken : Unbroken [] lines := by
      refine Classical.not_not.1 fun hnot => ?_
      obtain ⟨_, _, _, herror⟩ := ofLines_of_not_unbroken hnot
      rw [hok] at herror
      cases herror
    rw [ofLines_of_unbroken hunbroken] at hok
    exact ⟨hunbroken, by rw [hok]; rfl⟩
  · rintro ⟨hunbroken, hok⟩
    rw [ofLines_of_unbroken hunbroken]
    cases hresult : ofCommands (numbered 1 lines) with
    | error e => rw [hresult] at hok; cases hok
    | ok table' => rw [hresult] at hok; cases hok; rfl

/-- A marker line at the end changes nothing, not even an error. -/
theorem ofLines_marked (lines : List Text) :
    ofLines (lines ++ [markerLine lines]) = ofLines lines := by
  by_cases h : Unbroken [] lines
  · have hmarked : Unbroken [] (lines ++ [markerLine lines]) :=
      (unbroken_append [] lines _).2 ⟨h, holds_markerLine lines, trivial⟩
    have hclass := LineClass.ofLine_eq_marker_iff.2 (isMarker_markerLine lines)
    have hnone (number : Nat) : numbered number [markerLine lines] = [] := by
      rw [numbered, hclass]
      rfl
    rw [ofLines_of_unbroken hmarked, ofLines_of_unbroken h, numbered_append, hnone,
      List.append_nil]
  · obtain ⟨before, line, after, hlines, hbefore, hline⟩ := exists_of_not_unbroken h
    rw [hlines, List.append_assoc, List.cons_append, ofLines_of_not_holds hbefore hline,
      ofLines_of_not_holds hbefore hline]

/-- A marker line for the lines above it changes nothing, if no other marker comes below. -/
theorem ofLines_sealed (above : List Text) {below : List Text}
    (h : ∀ line ∈ below, ¬ IsMarker line) (table : Routines) :
    ofLines (above ++ markerLine above :: below) = .ok table
      ↔ ofLines (above ++ below) = .ok table := by
  have hunbroken : Unbroken [] (above ++ markerLine above :: below)
      ↔ Unbroken [] (above ++ below) := by
    rw [unbroken_append, unbroken_append, Unbroken]
    have hmarker : Holds ([] ++ above) (markerLine above) := holds_markerLine above
    have hsealed := unbroken_of_not_isMarker ([] ++ above ++ [markerLine above]) h
    have hplain := unbroken_of_not_isMarker ([] ++ above) h
    simp only [hmarker, hsealed, hplain, and_true]
  have hclass := LineClass.ofLine_eq_marker_iff.2 (isMarker_markerLine above)
  have hcommands : (numbered 1 (above ++ markerLine above :: below)).map Prod.snd
      = (numbered 1 (above ++ below)).map Prod.snd := by
    rw [map_snd_numbered, map_snd_numbered, List.filterMap_append, List.filterMap_append,
      List.filterMap_cons, hclass]
    rfl
  rw [ofLines_eq_ok_iff, ofLines_eq_ok_iff, hunbroken, ofCommands_of_map_snd hcommands]

end Routines
end BenchScript
