import BenchScript.Engine.Run
import BenchScript.Host.Transcript
import BenchScript.Launch.Seal
import BenchScript.Proofs.Course
import BenchScript.Proofs.Files
import BenchScript.Proofs.Markers
import BenchScript.Wire.Canned

set_option autoImplicit false

/-!
# Sealed files

What sealing adds to a file is read back as one more line, the marker, and a load goes as before.
There is one exception: behind a carriage return at the end of the file, the newline that is put in
front of the marker makes a line end of two characters with it, and the marker was made for lines
with the carriage return.
-/
namespace BenchScript

namespace Hex

theorem digitChar_ne_break {n : Nat} (h : n < 16) :
    Nat.digitChar n ≠ Text.newline ∧ Nat.digitChar n ≠ '\r' := by
  have hall : ∀ n < 16, Nat.digitChar n ≠ Text.newline ∧ Nat.digitChar n ≠ '\r' := by decide
  exact hall n h

theorem ne_break_of_mem_encode {bytes : Bytes} {c : Char} (h : c ∈ encode bytes) :
    c ≠ Text.newline ∧ c ≠ '\r' := by
  obtain ⟨b, -, hc⟩ := List.mem_flatMap.1 h
  have hb := b.toNat_lt
  rw [encodeByte, List.mem_cons, List.mem_singleton] at hc
  rcases hc with rfl | rfl
  · exact digitChar_ne_break (by omega)
  · exact digitChar_ne_break (by omega)

end Hex

theorem ne_break_of_mem_markerLine {lines : List Text} {c : Char} (h : c ∈ markerLine lines) :
    c ≠ Text.newline ∧ c ≠ '\r' := by
  unfold markerLine at h
  rw [List.mem_cons, List.mem_cons] at h
  rcases h with rfl | rfl | h
  · decide
  · decide
  · exact Hex.ne_break_of_mem_encode h

theorem lines_markerLine (lines : List Text) :
    Text.lines (markerLine lines ++ [Text.newline]) = [markerLine lines] := by
  refine Text.lines_line (fun h => (ne_break_of_mem_markerLine h).1 rfl) fun h => ?_
  exact (ne_break_of_mem_markerLine (List.mem_of_getLast? h)).2 rfl

/-- Behind a newline, a marker line with a newline of its own is one more line. -/
theorem lines_append_markerLine (text : Text) (lines : List Text) :
    Text.lines (text ++ Text.newline :: (markerLine lines ++ [Text.newline]))
      = Text.lines (text ++ [Text.newline]) ++ [markerLine lines] := by
  rw [Text.lines_append_newline, lines_markerLine]

namespace Seal

theorem lines_addition (text : Text) (lines : List Text) :
    Text.lines (text ++ addition text (markerLine lines)) = Text.lines text ++ [markerLine lines]
      ↔ text.getLast? ≠ some '\r' := by
  rcases List.eq_nil_or_concat text with rfl | ⟨before, c, htext⟩
  · simp [addition, lines_markerLine, Text.lines]
  · rw [List.concat_eq_append] at htext
    have hlast : text.getLast? = some c := by rw [htext, List.getLast?_concat]
    have hne : text ≠ [] := by simp [htext]
    by_cases hn : c = Text.newline
    · subst hn
      have hadded : text ++ addition text (markerLine lines)
          = before ++ Text.newline :: (markerLine lines ++ [Text.newline]) := by
        simp [addition, htext]
      rw [hadded, lines_append_markerLine, ← htext, hlast]
      simp [Text.newline]
    · have hadded : text ++ addition text (markerLine lines)
          = text ++ Text.newline :: (markerLine lines ++ [Text.newline]) := by
        simp [addition, hlast, hne, hn]
      rw [hadded, lines_append_markerLine, List.append_cancel_right_eq, hlast]
      by_cases hr : c = '\r'
      · -- Both sides end with the marker, but the line above it differs by the carriage return.
        subst hr
        obtain ⟨above, last, hlines, hnewline⟩ := Text.lines_return before
        rw [htext, hlines, hnewline]
        simp
      · rw [Text.lines_newline_of_last hlast hn hr]
        simp [hr]

end Seal

namespace Engine

variable {δ φ η : Type}

def withFiles (files : φ) (e : Engine (Surroundings δ φ η)) : Engine (Surroundings δ φ η) :=
  e.mapWorkspace fun w => { w with around := { w.around with files } }

theorem isWaiting_withFiles (files : φ) (e : Engine (Surroundings δ φ η)) :
    (e.withFiles files).isWaiting = e.isWaiting := rfl

variable [Device δ] [FileStore φ] [Host η]

theorem adopt_withFiles (files : φ) (e : Engine (Surroundings δ φ η))
    (loaded : Except ScriptError Routines) :
    (e.withFiles files).adopt loaded = (e.adopt loaded).map id (withFiles files) := by
  cases loaded <;> rfl

/-- Of a file, a load takes the routines that its lines make up, and nothing else. -/
theorem loadFrom_withFiles {e : Engine (Surroundings δ Directory η)} (hw : e.isWaiting = false)
    {d : Directory} {path text : Text} (h : d.readText path = .ok text) :
    (e.withFiles d).loadFrom path
      = (e.forget.adopt (Routines.ofLines (Text.lines text))).map id (withFiles d) := by
  have hread : Directory.readLines path d = (.ok (Text.lines text), d) := by
    simp only [Directory.readLines, h]
  have haround : FileStore.readLines path (e.withFiles d).forget.workspace.around
      = (.ok (Text.lines text), (e.withFiles d).workspace.around) := by
    change (Directory.readLines path d).map id _ = _
    rw [hread]
    rfl
  unfold loadFrom
  rw [isWaiting_withFiles, hw]
  simp only [Bool.false_eq_true, if_false, haround]
  exact adopt_withFiles d e.forget _

end Engine

namespace Seal

theorem sign_of_error {d d' : Directory} {path : Text} {add : Bool} {e : LaunchError}
    (h : sign path add d = (.error e, d')) : d' = d := by
  rw [sign_eq] at h
  split at h
  · cases h
    rfl
  · simp only at h
    split at h
    · split at h
      · cases h
      · next happend =>
        cases h
        exact Directory.appendBytes_of_error happend
    · cases h

theorem sign_false {d : Directory} {path text : Text} (h : d.readText path = .ok text) :
    sign path false d = (.ok (markerLine (Text.lines text)), d) := by
  rw [sign_eq, h]
  rfl

/-- A file that can be read can be sealed. -/
theorem exists_sign {d : Directory} {path text : Text} (h : d.readText path = .ok text) :
    ∃ old added sealed, sign path true d = (.ok (markerLine (Text.lines text)), sealed) ∧
      d.readBytes path = .ok old ∧ sealed.readBytes path = .ok (old ++ added) ∧
      sealed.readText path = .ok (text ++ addition text (markerLine (Text.lines text))) := by
  obtain ⟨old, hold, hdecode⟩ := Directory.readText_eq_ok h
  let marker := markerLine (Text.lines text)
  let added := Utf8.encode (addition text marker)
  obtain ⟨sealed, happend, hnew⟩ := Directory.appendBytes_of_readBytes hold added
  refine ⟨old, added, sealed, ?_, hold, hnew, ?_⟩
  · simp only [sign_eq, h, if_true, marker, added] at happend ⊢
    rw [happend]
  · exact Directory.readText_of_readBytes hnew (Utf8.decode?_append_encode hdecode _)

variable {δ η : Type} [Device δ] [Host η]

/-- Sealing keeps what a file holds at the file's beginning. It adds the marker line to the lines
that are read, and leaves what a load comes to as it was, unless the file ends with a carriage
return. -/
theorem sign_seals {d : Directory} {path text : Text} (h : d.readText path = .ok text) :
    let marker := markerLine (Text.lines text)
    ∃ old added sealed, sign path true d = (.ok marker, sealed) ∧
      d.readBytes path = .ok old ∧ sealed.readBytes path = .ok (old ++ added) ∧
      ((sealed.readLines path).1 = (d.readLines path).1.map (· ++ [marker])
        ↔ text.getLast? ≠ some '\r') ∧
      (text.getLast? ≠ some '\r' → ∀ e : Engine (Surroundings δ Directory η),
        (e.withFiles sealed).loadFrom path
          = ((e.withFiles d).loadFrom path).map id (Engine.withFiles sealed)) := by
  intro marker
  obtain ⟨old, added, sealed, hsign, hold, hnew, htext⟩ := exists_sign h
  have hlines := lines_addition text (Text.lines text)
  refine ⟨old, added, sealed, hsign, hold, hnew, ?_, ?_⟩
  · simp only [Directory.readLines, htext, h, Except.map, Except.ok.injEq]
    exact hlines
  · intro hlast e
    cases hw : e.isWaiting with
    | true =>
      rw [Engine.loadFrom_of_waiting (e := e.withFiles sealed) hw,
        Engine.loadFrom_of_waiting (e := e.withFiles d) hw]
      rfl
    | false =>
      rw [Engine.loadFrom_withFiles hw htext, Engine.loadFrom_withFiles hw h, hlines.2 hlast,
        Routines.ofLines_marked]
      rfl

theorem sign_seals_unfinished :
    let d : Directory := ⟨⟨[([['s']], .file [0x51])]⟩⟩
    let e : Engine (Surroundings CannedDevice Directory Transcript) := .idle {} ⟨{}, {}, {}⟩
    ∃ sealed, sign ['s'] true d = (.ok (markerLine [['Q']]), sealed) ∧
      (sealed.readLines ['s']).1 = .ok [['Q'], markerLine [['Q']]] ∧
      ((e.withFiles sealed).loadFrom ['s']).1 = .ok () := by
  intro d e
  have hread : d.readText ['s'] = .ok ['Q'] := rfl
  obtain ⟨old, added, sealed, hsign, hold, hnew, hlines, hload⟩ :=
    sign_seals (δ := CannedDevice) (η := Transcript) hread
  have hlast : ['Q'].getLast? ≠ some '\r' := by decide
  refine ⟨sealed, hsign, hlines.2 hlast, ?_⟩
  rw [hload hlast e]
  rfl

/-- A file of one command with a carriage return at its end loads before it is sealed, and not
after. -/
theorem sign_breaks_return :
    let d : Directory := ⟨⟨[([['s']], .file [0x51, 0x0D])]⟩⟩
    let e : Engine (Surroundings CannedDevice Directory Transcript) := .idle {} ⟨{}, {}, {}⟩
    let marker := markerLine [['Q', '\r']]
    ∃ sealed, sign ['s'] true d = (.ok marker, sealed) ∧
      (d.readLines ['s']).1 = .ok [['Q', '\r']] ∧
      (sealed.readLines ['s']).1 = .ok [['Q'], marker] ∧
      ((e.withFiles d).loadFrom ['s']).1 = .ok () ∧
      ((e.withFiles sealed).loadFrom ['s']).1
        = .error (.integrity 2 (fingerprint [['Q']]) marker) := by
  intro d e marker
  have hread : d.readText ['s'] = .ok ['Q', '\r'] := rfl
  obtain ⟨old, added, sealed, hsign, hold, hnew, htext⟩ := exists_sign hread
  have hlines : Text.lines (['Q', '\r'] ++ addition ['Q', '\r'] marker) = [['Q'], marker] :=
    lines_append_markerLine ['Q', '\r'] [['Q', '\r']]
  have hmissing : ¬ fingerprint [['Q']] <:+: marker := by
    rw [← Text.occursIn_iff]
    decide +kernel
  have hbreak : ¬ Holds [['Q']] marker := fun h => hmissing (h (isMarker_markerLine _))
  have herror := Routines.ofLines_of_not_holds (unbroken_of_not_isMarker [] (by decide)) hbreak []
  refine ⟨sealed, hsign, rfl, ?_, rfl, ?_⟩
  · simp only [Directory.readLines, htext]
    exact congrArg Except.ok hlines
  · rw [Engine.loadFrom_withFiles rfl htext]
    change (e.forget.adopt (Routines.ofLines
      (Text.lines (['Q', '\r'] ++ addition ['Q', '\r'] marker)))).1 = _
    rw [hlines]
    exact congrArg (fun loaded => (e.forget.adopt loaded).1) herror

end Seal
end BenchScript
