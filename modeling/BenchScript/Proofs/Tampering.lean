import BenchScript.Proofs.Cutting
import BenchScript.Proofs.Encoding
import BenchScript.Proofs.Hexadecimal
import BenchScript.Proofs.Markers

set_option autoImplicit false

namespace BenchScript

namespace Text

def unlines (lines : List Text) : Text := lines.flatMap fun line => line ++ [newline]

theorem unlines_cons (line : Text) (rest : List Text) :
    unlines (line :: rest) = line ++ newline :: unlines rest := by
  rw [unlines, List.flatMap_cons, List.append_assoc]
  rfl

theorem unlines_eq_nil_iff {lines : List Text} : unlines lines = [] ↔ lines = [] := by
  cases lines with
  | nil => exact iff_of_true rfl rfl
  | cons line rest => simp [unlines_cons]

def NewlineFree (lines : List Text) : Prop := ∀ line ∈ lines, newline ∉ line

instance (lines : List Text) : Decidable (NewlineFree lines) :=
  inferInstanceAs (Decidable (∀ line ∈ lines, newline ∉ line))

theorem NewlineFree.consFirst {lines : List Text} (h : NewlineFree lines) {c : Char}
    (hc : c ≠ newline) : NewlineFree (consFirst c lines) := by
  cases lines with
  | nil => exact List.forall_mem_singleton.2 fun hmem => hc (List.mem_singleton.1 hmem).symm
  | cons line rest =>
    obtain ⟨hline, hrest⟩ := List.forall_mem_cons.1 h
    exact List.forall_mem_cons.2 ⟨List.not_mem_cons_of_ne_of_not_mem hc.symm hline, hrest⟩

theorem newlineFree_lines (text : Text) : NewlineFree (lines text) := by
  induction text with
  | nil => exact List.forall_mem_nil _
  | cons c rest ih =>
    rw [lines]
    split
    · exact List.forall_mem_cons.2 ⟨List.not_mem_nil, ih⟩
    · next hc =>
      split
      · exact ih
      · exact ih.consFirst hc

theorem eq_of_unlines_eq {first second : List Text} (h : NewlineFree first)
    (h' : NewlineFree second) (heq : unlines first = unlines second) : first = second := by
  induction first generalizing second with
  | nil => exact (unlines_eq_nil_iff.1 heq.symm).symm
  | cons line first ih =>
    cases second with
    | nil => exact unlines_eq_nil_iff.1 heq
    | cons line' second =>
      obtain ⟨hline, hfirst⟩ := List.forall_mem_cons.1 h
      obtain ⟨hline', hsecond⟩ := List.forall_mem_cons.1 h'
      -- A cut at the first newline gives the first line and the text of the others.
      have hcut := congrArg (splitOnce [newline]) heq
      rw [unlines_cons, unlines_cons, splitOnce_singleton hline, splitOnce_singleton hline',
        Option.some.injEq, Prod.mk.injEq] at hcut
      obtain ⟨rfl, hrest⟩ := hcut
      rw [ih hfirst hsecond hrest]

theorem infix_cons_iff_of_not_mem {part : Text} (hne : part ≠ []) {c : Char} (hc : c ∉ part)
    (text : Text) : part <:+: c :: text ↔ part <:+: text := by
  rw [List.infix_cons_iff]
  refine or_iff_right fun hprefix => ?_
  cases part with
  | nil => exact hne rfl
  | cons d part =>
    obtain ⟨rfl, -⟩ := List.cons_prefix_cons.1 hprefix
    exact hc List.mem_cons_self

end Text

open Text (NewlineFree unlines)

def Md5.Collide (a b : Bytes) : Prop := a ≠ b ∧ Md5.digest a = Md5.digest b

/-- Reading lets this marker line pass below these lines. -/
def MarkerAccepts (marker : Text) (above : List Text) : Prop :=
  IsMarker marker ∧ readCommands above [marker] = .ok []

theorem sealedBytes_eq_encode (lines : List Text) :
    sealedBytes lines = Utf8.encode (unlines lines) := by
  induction lines with
  | nil => rfl
  | cons line rest ih =>
    have hnewline : Utf8.encode (Text.newline :: unlines rest)
        = 0x0A :: Utf8.encode (unlines rest) := rfl
    rw [Text.unlines_cons, Utf8.encode_append, hnewline, ← ih, sealedBytes, List.flatMap_cons,
      List.append_assoc]
    rfl

section Fingerprints

variable {first second above written edited : List Text} {marker : Text}

theorem eq_of_sealedBytes_eq (h : NewlineFree first) (h' : NewlineFree second)
    (heq : sealedBytes first = sealedBytes second) : first = second := by
  rw [sealedBytes_eq_encode, sealedBytes_eq_encode] at heq
  exact Text.eq_of_unlines_eq h h' (Utf8.encode_injective heq)

/-- A newline inside of a line cannot be told from the one behind it. -/
example : sealedBytes [['M', '\n', 'Q']] = sealedBytes [['M'], ['Q']] := by decide

theorem fingerprint_eq_iff (h : NewlineFree first) (h' : NewlineFree second) :
    fingerprint first = fingerprint second
      ↔ first = second ∨ Md5.Collide (sealedBytes first) (sealedBytes second) := by
  unfold fingerprint Md5.Collide
  rw [Hex.encode_injective.eq_iff]
  constructor
  · intro hdigest
    by_cases hsame : first = second
    · exact Or.inl hsame
    · exact Or.inr ⟨fun hbytes => hsame (eq_of_sealedBytes_eq h h' hbytes), hdigest⟩
  · rintro (rfl | ⟨-, hdigest⟩)
    · rfl
    · exact hdigest

theorem markerAccepts_iff :
    MarkerAccepts marker above ↔ IsMarker marker ∧ fingerprint above <:+: marker := by
  refine and_congr_right fun hmarker => ⟨fun hread => ?_, fun hshown => ?_⟩
  · refine Classical.not_not.1 fun hmissing => ?_
    have hrefused := readCommands_cons_of_not_holds (fun h => hmissing (h hmarker)) []
    rw [hread] at hrefused
    cases hrefused
  · rw [readCommands_cons_of_holds fun _ => hshown, LineClass.ofLine_eq_marker_iff.2 hmarker]
    rfl

theorem markerAccepts_of_ofLines {below : List Text} {table : Routines} (hmarker : IsMarker marker)
    (h : Routines.ofLines (above ++ marker :: below) = .ok table) : MarkerAccepts marker above := by
  obtain ⟨hunbroken, -⟩ := (Routines.ofLines_eq_ok_iff _ _).1 h
  obtain ⟨-, hholds, -⟩ := (unbroken_append _ _ _).1 hunbroken
  exact markerAccepts_iff.2 ⟨hmarker, hholds hmarker⟩

/-- The tag and the space are no digits, so a fingerprint can only stand behind them. -/
theorem markerAccepts_markerLine_iff :
    MarkerAccepts (markerLine written) above ↔ fingerprint above = fingerprint written := by
  have hdigits {c : Char} (hc : ¬ IsHexDigit c) : c ∉ fingerprint above :=
    fun hmem => hc (Hex.isHexDigit_of_mem_encode hmem)
  have hne := fingerprint_ne_nil above
  rw [markerAccepts_iff, markerLine, Text.infix_cons_iff_of_not_mem hne (hdigits (by decide)),
    Text.infix_cons_iff_of_not_mem hne (hdigits (by decide))]
  constructor
  · rintro ⟨-, hshown⟩
    exact hshown.eq_of_length ((length_fingerprint above).trans (length_fingerprint written).symm)
  · intro heq
    exact ⟨isMarker_cons _, heq ▸ List.infix_rfl⟩

theorem eq_or_collide_of_ofLines (h : NewlineFree edited) (h' : NewlineFree written)
    {below : List Text} {table : Routines}
    (hloads : Routines.ofLines (edited ++ markerLine written :: below) = .ok table) :
    edited = written ∨ Md5.Collide (sealedBytes edited) (sealedBytes written) :=
  (fingerprint_eq_iff h h').1
    (markerAccepts_markerLine_iff.1 (markerAccepts_of_ofLines (isMarker_markerLine written) hloads))

/-- If a file loads with the marker line that another was sealed with, it has the lines of the other
above it, unless the digests collide. -/
theorem eq_or_collide_of_sealed {old text : Text} {below : List Text} {table : Routines}
    (hlines : Text.lines text = edited ++ markerLine (Text.lines old) :: below)
    (hloads : Routines.ofLines (Text.lines text) = .ok table) :
    edited = Text.lines old ∨ Md5.Collide (sealedBytes edited) (sealedBytes (Text.lines old)) := by
  have hedited : NewlineFree edited := by
    intro line hline
    refine Text.newlineFree_lines text line ?_
    rw [hlines]
    exact List.mem_append_left _ hline
  rw [hlines] at hloads
  exact eq_or_collide_of_ofLines hedited (Text.newlineFree_lines old) hloads

theorem ofLines_edited_iff (h : NewlineFree edited) (h' : NewlineFree written) {below : List Text}
    (hbelow : ∀ line ∈ below, ¬ IsMarker line) (table : Routines) :
    Routines.ofLines (edited ++ markerLine written :: below) = .ok table
      ↔ (edited = written ∨ Md5.Collide (sealedBytes edited) (sealedBytes written)) ∧
        Routines.ofLines (edited ++ below) = .ok table := by
  rw [← Routines.ofLines_sealed edited hbelow]
  -- With one fingerprint the two marker lines are the same.
  have hmarker (heq : fingerprint edited = fingerprint written) :
      markerLine written = markerLine edited := by rw [markerLine, markerLine, heq]
  constructor
  · intro hloads
    have hsame := eq_or_collide_of_ofLines h h' hloads
    rw [hmarker ((fingerprint_eq_iff h h').2 hsame)] at hloads
    exact ⟨hsame, hloads⟩
  · rintro ⟨hsame, hloads⟩
    rwa [hmarker ((fingerprint_eq_iff h h').2 hsame)]

end Fingerprints

/-- The bytes that are digested for lines without newlines are those of no other such lines. So a
marker line lets other lines pass only if their digests collide, or if it shows the two different
fingerprints. The marker line that sealing writes does not show a second one: below edited lines it
keeps a script from loading, unless the digests collide. -/
theorem fingerprint_binds_lines :
    (∀ first second : List Text, NewlineFree first → NewlineFree second →
      sealedBytes first = sealedBytes second → first = second) ∧
    (∀ (marker : Text) (first second : List Text), NewlineFree first → NewlineFree second →
      first ≠ second → MarkerAccepts marker first → MarkerAccepts marker second →
      Md5.Collide (sealedBytes first) (sealedBytes second) ∨
        fingerprint first ≠ fingerprint second ∧
          fingerprint first <:+: marker ∧ fingerprint second <:+: marker) ∧
    ∀ written edited : List Text, NewlineFree written → NewlineFree edited →
      ∀ below : List Text, (∀ line ∈ below, ¬ IsMarker line) → ∀ table,
      (Routines.ofLines (edited ++ markerLine written :: below) = .ok table
        ↔ (edited = written ∨ Md5.Collide (sealedBytes edited) (sealedBytes written)) ∧
          Routines.ofLines (edited ++ below) = .ok table) := by
  refine ⟨fun first second => eq_of_sealedBytes_eq, ?_, ?_⟩
  · intro marker first second h h' hne hfirst hsecond
    by_cases heq : fingerprint first = fingerprint second
    · exact Or.inl (((fingerprint_eq_iff h h').1 heq).resolve_left hne)
    · exact Or.inr ⟨heq, (markerAccepts_iff.1 hfirst).2, (markerAccepts_iff.1 hsecond).2⟩
  · intro written edited h h' below hbelow
    exact ofLines_edited_iff h' h hbelow

/-- No lines and one empty line. A marker line may show the fingerprints of both, side by side. -/
theorem fingerprint_binds_lines_annotated :
    let marker : Text := 'O' :: ' ' :: (fingerprint [] ++ ' ' :: fingerprint [[]])
    MarkerAccepts marker [] ∧ MarkerAccepts marker [[]] ∧ sealedBytes [] ≠ sealedBytes [[]] ∧
      fingerprint [] ≠ fingerprint [[]] ∧
      fingerprint [] <:+: marker ∧ fingerprint [[]] <:+: marker ∧
      ∃ table, Routines.ofLines [[], markerLine [[]], ['Q']] = .ok table := by
  intro marker
  obtain ⟨hbytes, haccepted, hsealed⟩ := fingerprint_binds_lines
  have hnone : NewlineFree [] := by decide
  have hempty : NewlineFree [[]] := by decide
  have hne : ([] : List Text) ≠ [[]] := by decide
  have hfirst : MarkerAccepts marker [] :=
    markerAccepts_iff.2 ⟨isMarker_cons _, ['O', ' '], ' ' :: fingerprint [[]], by simp [marker]⟩
  have hsecond : MarkerAccepts marker [[]] :=
    markerAccepts_iff.2
      ⟨isMarker_cons _, 'O' :: ' ' :: fingerprint [] ++ [' '], [], by simp [marker]⟩
  have hdigests : Md5.digest (sealedBytes []) ≠ Md5.digest (sealedBytes [[]]) := by decide +kernel
  obtain ⟨hdiffer, hshown, hshown'⟩ := (haccepted marker [] [[]] hnone hempty hne hfirst
    hsecond).resolve_left fun hcollide => hdigests hcollide.2
  obtain ⟨table, htable⟩ : ∃ table, Routines.ofLines [[], ['Q']] = .ok table := ⟨_, rfl⟩
  have hloads := (hsealed [[]] [[]] hempty hempty [['Q']] (by decide) table).2
    ⟨Or.inl rfl, htable⟩
  exact ⟨hfirst, hsecond, fun h => hne (hbytes [] [[]] hnone hempty h), hdiffer, hshown, hshown',
    table, hloads⟩

end BenchScript
