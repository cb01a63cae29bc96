import BenchScript.Proofs.Course
import BenchScript.Proofs.Markers
import BenchScript.Proofs.Record

set_option autoImplicit false

namespace BenchScript

def Call.isLoad : Call → Bool
  | .load _ | .loadFrom _ => true
  | _ => false

namespace Engine

variable {ε : Type}

/-- No script is there to be run, and no run is under way. -/
structure Bare (e : Engine ε) : Prop where
  routines : e.routines = Table.empty
  pending : e.pending = none

theorem Bare.isWaiting {e : Engine ε} (h : e.Bare) : e.isWaiting = false := by
  unfold Engine.isWaiting
  rw [h.pending]
  rfl

theorem Bare.contains {e : Engine ε} (h : e.Bare) (routine : Text) :
    e.routines.contains routine = false := by
  rw [h.routines]
  rfl

theorem Bare.withWorkspace {e : Engine ε} (h : e.Bare) (workspace : Workspace ε) :
    Bare { e with workspace } :=
  ⟨h.routines, h.pending⟩

theorem bare_forget (e : Engine ε) : e.forget.Bare := ⟨rfl, rfl⟩

variable [Environment ε]

theorem Bare.adopt {e : Engine ε} (h : e.Bare) {loaded : Except ScriptError Routines}
    (hne : Reply.ofUnit (e.adopt loaded).1 ≠ .done) : (e.adopt loaded).2.Bare := by
  cases loaded with
  | ok routines => exact absurd rfl hne
  | error error => exact ⟨h.routines, h.pending⟩

/-- Unless it is put off because of a prompt, a load that fails leaves no script. -/
theorem bare_of_load {e : Engine ε} (hw : e.isWaiting = false) {call : Call}
    (hload : call.isLoad = true) (hne : (e.call call).1 ≠ .done) : (e.call call).2.Bare := by
  cases call with
  | load lines =>
    simp only [Engine.call, load_of_not_waiting hw] at hne ⊢
    exact e.bare_forget.adopt hne
  | loadFrom path =>
    simp only [Engine.call, loadFrom_of_not_waiting hw] at hne ⊢
    exact (e.bare_forget.withWorkspace _).adopt hne
  | run | resume | runAnswered | cancel | sendDigits | sendChecksum | close => cases hload

/-- A run ends before it has begun, and the user is told. -/
theorem Bare.run {e : Engine ε} (h : e.Bare) (routine : Text) :
    e.run routine = (.ok (.ended (.routineNotFound routine)),
      (e.begun.finish (.routineNotFound routine)).2) := by
  have hbegun : e.begun.routines.contains routine = false := h.contains routine
  simp only [Engine.run, h.isWaiting, Bool.false_eq_true, if_false, hbegun, finish_fst]

theorem Bare.call_run {e : Engine ε} (h : e.Bare) (routine : Text) :
    e.call (.run routine) = (.standing (.ended (.routineNotFound routine)),
      (e.begun.finish (.routineNotFound routine)).2) := by
  simp only [Engine.call, h.run, Reply.ofStanding]

theorem Bare.call_runAnswered {e : Engine ε} (h : e.Bare) (routine : Text)
    (answers : List (Option Text)) :
    e.call (.runAnswered routine answers) = (.ended (.routineNotFound routine) [],
      (e.begun.finish (.routineNotFound routine)).2) := by
  simp only [Engine.call, Engine.runAnswered, h.run, answerPrompts_ended]

theorem Bare.begun_finish {e : Engine ε} (h : e.Bare) (ending : Ending) :
    (e.begun.finish ending).2.Bare := by
  refine ⟨?_, ?_⟩
  · rw [routines_finish]
    exact h.routines
  · rw [pending_finish]
    exact h.pending

theorem Bare.call {e : Engine ε} (h : e.Bare) {call : Call}
    (hne : call.isLoad = true → (e.call call).1 ≠ .done) : (e.call call).2.Bare := by
  cases call with
  | load | loadFrom => exact bare_of_load h.isWaiting rfl (hne rfl)
  | run routine =>
    rw [h.call_run]
    exact h.begun_finish _
  | runAnswered routine answers =>
    rw [h.call_runAnswered]
    exact h.begun_finish _
  | resume input =>
    simp only [Engine.call, resume, h.pending]
    exact h
  | cancel | sendDigits | sendChecksum | close => exact h.withWorkspace _

def LoadsNothing (e : Engine ε) : List Call → Prop
  | [] => True
  | call :: rest =>
    (call.isLoad = true → (e.call call).1 ≠ .done) ∧ (e.call call).2.LoadsNothing rest

theorem Bare.callAll {e : Engine ε} (h : e.Bare) {calls : List Call}
    (hnone : e.LoadsNothing calls) : (e.callAll calls).2.Bare := by
  induction calls generalizing e with
  | nil => exact h
  | cons call rest ih =>
    obtain ⟨hcall, hrest⟩ := hnone
    rw [callAll_cons]
    exact ih (h.call hcall) hrest

theorem not_isWaiting_of_refused {e : Engine ε} {load : Call} (hload : load.isLoad = true)
    {error : ScriptError} (h : (e.call load).1 = .refused error) (hne : error ≠ .busy) :
    e.isWaiting = false := by
  rw [← Bool.not_eq_true]
  intro hw
  cases load with
  | load lines =>
    simp only [Engine.call, load_of_waiting hw, Reply.ofUnit, Reply.refused.injEq] at h
    exact hne h.symm
  | loadFrom path =>
    simp only [Engine.call, loadFrom_of_waiting hw, Reply.ofUnit, Reply.refused.injEq] at h
    exact hne h.symm
  | run | resume | runAnswered | cancel | sendDigits | sendChecksum | close => cases hload

/-- A load fails for its markers exactly if one of them does not show the fingerprint of the lines
above it, and names the first. Until a load succeeds, no run reaches the device then, or is heard of
by the host but for the notification that there is no such routine. On the other hand, the marker
line for the lines above it does no harm. -/
theorem markers_decide_loading :
    (∀ lines : List Text,
      ((∃ line computed marker,
          Routines.ofLines lines = .error (.integrity line computed marker))
        ↔ ∃ i, BreaksSeal lines i) ∧
      ∀ i line, lines[i]? = some line → BreaksSeal lines i → (∀ j < i, ¬ BreaksSeal lines j) →
        Routines.ofLines lines
          = .error (.integrity (i + 1) (fingerprint (lines.take i)) line)) ∧
    (∀ (e : Engine (Recorded ε)) (load : Call) line computed marker, load.isLoad = true →
      (e.call load).1 = .refused (.integrity line computed marker) →
      ∀ calls, (e.call load).2.LoadsNothing calls → ∀ routine,
        let bare := ((e.call load).2.callAll calls).2
        (bare.call (.run routine)).1 = .standing (.ended (.routineNotFound routine)) ∧
          ∃ cancels, (bare.call (.run routine)).2.workspace.around.record
            = bare.workspace.around.record
              ++ [.notified ⟨.error, (Ending.routineNotFound routine).text, false⟩ cancels]) ∧
    ∀ above below : List Text, (∀ line ∈ below, ¬ IsMarker line) → ∀ table,
      (Routines.ofLines (above ++ markerLine above :: below) = .ok table
        ↔ Routines.ofLines (above ++ below) = .ok table) := by
  refine ⟨?_, ?_, fun above below => Routines.ofLines_sealed above⟩
  · intro lines
    exact ⟨Routines.ofLines_integrity_iff lines, fun i line => Routines.ofLines_of_first⟩
  · intro e load line computed marker hload hrefused calls hnone routine bare
    have hw := not_isWaiting_of_refused hload hrefused nofun
    have hfailed : (e.call load).1 ≠ .done := by
      rw [hrefused]
      nofun
    have hbare : bare.Bare := (bare_of_load hw hload hfailed).callAll hnone
    rw [hbare.call_run]
    exact ⟨rfl, _, rfl⟩

theorem markers_decide_loading_edited :
    let lines : List Text := [['M', 'x'], ['O', 'y'], [':']]
    let e := ((idle {} Bench.fresh).call (.load lines)).2
    Routines.ofLines lines = .error (.integrity 2 (fingerprint [['M', 'x']]) ['O', 'y']) ∧
      ((e.callAll [.load [[':']], .cancel]).2.call (.run [])).1
        = .standing (.ended (.routineNotFound [])) ∧
      ∃ table, Routines.ofLines [['M', 'x'], ['Q']] = .ok table ∧
        Routines.ofLines [['M', 'x'], markerLine [['M', 'x']], ['Q']] = .ok table := by
  intro lines e
  obtain ⟨hmarkers, hbare, hsealed⟩ :=
    markers_decide_loading (ε := Surroundings CannedDevice MemoryFiles Transcript)
  have hbreak : BreaksSeal lines 1 := by
    refine ⟨['O', 'y'], rfl, rfl, fun hshown => ?_⟩
    have hlength := hshown.length_le
    rw [length_fingerprint] at hlength
    exact absurd hlength (by decide)
  have hfirst : ∀ j < 1, ¬ BreaksSeal lines j := by
    intro j hj
    have hzero : j = 0 := by omega
    subst hzero
    rintro ⟨line, hline, hmarker, -⟩
    cases hline
    exact absurd hmarker (by decide)
  have herror := (hmarkers lines).2 1 ['O', 'y'] rfl hbreak hfirst
  have hrefused : ((idle {} Bench.fresh).call (.load lines)).1
      = .refused (.integrity 2 (fingerprint [['M', 'x']]) ['O', 'y']) := by
    change Reply.ofUnit (((idle {} Bench.fresh).forget.adopt (Routines.ofLines lines)).1) = _
    rw [herror]
    rfl
  refine ⟨herror, ?_, ?_⟩
  · have hnone : e.LoadsNothing [.load [[':']], .cancel] :=
      ⟨fun _ => by decide +kernel, nofun, trivial⟩
    exact (hbare _ (.load lines) _ _ _ rfl hrefused _ hnone []).1
  · obtain ⟨table, htable⟩ : ∃ table, Routines.ofLines [['M', 'x'], ['Q']] = .ok table := ⟨_, rfl⟩
    exact ⟨table, htable, (hsealed [['M', 'x']] [['Q']] (by decide) table).2 htable⟩

end Engine
end BenchScript
