import BenchScript.Proofs.Loading

set_option autoImplicit false

/-!
# Loading over a used engine

A load keeps two things of what an engine went through before: the jumps left over from its last
run, and an earlier wish to cancel. Until a run begins nothing reads them, and a run begins by
writing both. So an engine that loads a script cannot be told from a new one that loads it.
-/
namespace BenchScript

namespace Workspace

variable {ε : Type}

def uncancelled (w : Workspace ε) : Workspace ε := { w with cancelled := false }

variable [Environment ε]

theorem send_uncancelled (frame : Frame) (w : Workspace ε) :
    w.uncancelled.send frame = ((w.send frame).1, (w.send frame).2.uncancelled) := by
  have haround : w.uncancelled.around = w.around := rfl
  unfold send
  rw [haround]
  generalize exchange frame w.around = outcome
  obtain ⟨result, around⟩ := outcome
  cases result <;> rfl

theorem sendAny_uncancelled (frame : Except LinkError Frame) (w : Workspace ε) :
    w.uncancelled.sendAny frame = ((w.sendAny frame).1, (w.sendAny frame).2.uncancelled) := by
  cases frame with
  | error e => rfl
  | ok frame => exact send_uncancelled frame w

end Workspace

namespace Engine

variable {ε : Type}

/-- An engine with two of its fields erased: the jumps left (`budget`) and the cancel flag
(`workspace.cancelled`). The caller can read the first but not the second, which shows only in a
run, and every run begins by writing both. -/
def core (e : Engine ε) : Engine ε :=
  { e with budget := 0, workspace := e.workspace.uncancelled }

theorem isWaiting_core (e : Engine ε) : e.core.isWaiting = e.isWaiting := rfl

/-- Two engines are the same, or no prompt waits in them and they have the same core. -/
def Alike (e f : Engine ε) : Prop := e = f ∨ e.isWaiting = false ∧ e.core = f.core

theorem Alike.core_eq {e f : Engine ε} (h : e.Alike f) : e.core = f.core := by
  rcases h with rfl | ⟨-, h⟩
  · rfl
  · exact h

theorem Alike.isWaiting {e f : Engine ε} (h : e.Alike f) : e.isWaiting = f.isWaiting := by
  rw [← isWaiting_core e, h.core_eq, isWaiting_core]

variable [Environment ε]

/-- A run begins with all its jumps and no wish to cancel, so only the core has a part in it. -/
theorem run_core (routine : Text) {e : Engine ε} (h : e.isWaiting = false) :
    e.core.run routine = e.run routine := by
  have hbegun : e.core.begun = e.begun := rfl
  simp only [run, isWaiting_core, h, Bool.false_eq_true, if_false, hbegun]

theorem call_core_of_startsRun {e : Engine ε} (h : e.isWaiting = false) {call : Call}
    (hr : call.startsRun = true) : e.core.call call = e.call call := by
  cases call with
  | run routine => simp only [Engine.call, run_core routine h]
  | runAnswered routine answers => simp only [Engine.call, runAnswered, run_core routine h]
  | load | loadFrom | resume | cancel | sendDigits | sendChecksum | close => cases hr

theorem adopt_core (loaded : Except ScriptError Routines) (e : Engine ε) :
    (e.core.adopt loaded).1 = (e.adopt loaded).1 ∧
      (e.core.adopt loaded).2.core = (e.adopt loaded).2.core := by
  cases loaded <;> exact ⟨rfl, rfl⟩

theorem sendAny_core (frame : Except LinkError Frame) (e : Engine ε) :
    (e.core.workspace.sendAny frame).1 = (e.workspace.sendAny frame).1 ∧
      core { e.core with workspace := (e.core.workspace.sendAny frame).2 }
        = core { e with workspace := (e.workspace.sendAny frame).2 } := by
  have hworkspace : e.core.workspace = e.workspace.uncancelled := rfl
  rw [hworkspace, Workspace.sendAny_uncancelled]
  exact ⟨rfl, rfl⟩

/-- While no prompt waits, no call can tell an engine from its core. -/
theorem call_core {e : Engine ε} (h : e.isWaiting = false) (call : Call) :
    (e.core.call call).1 = (e.call call).1 ∧ (e.core.call call).2.core = (e.call call).2.core := by
  have hcore : e.core.isWaiting = false := h
  cases call with
  | load lines =>
    simp only [Engine.call, load_of_not_waiting h, load_of_not_waiting hcore]
    obtain ⟨hreply, hleft⟩ := adopt_core (Routines.ofLines lines) e.forget
    exact ⟨congrArg Reply.ofUnit hreply, hleft⟩
  | loadFrom path =>
    simp only [Engine.call, loadFrom_of_not_waiting h, loadFrom_of_not_waiting hcore]
    obtain ⟨hreply, hleft⟩ := adopt_core
      (ofRead path (FileStore.readLines path e.workspace.around).1)
      (e.forget.mapWorkspace fun w =>
        { w with around := (FileStore.readLines path e.workspace.around).2 })
    exact ⟨congrArg Reply.ofUnit hreply, hleft⟩
  | run | runAnswered =>
    rw [call_core_of_startsRun h rfl]
    exact ⟨rfl, rfl⟩
  | resume input =>
    have hp := pending_eq_none h
    have hpcore : e.core.pending = none := hp
    simp only [Engine.call, resume, hp, hpcore]
    exact ⟨trivial, rfl⟩
  | cancel | close => exact ⟨rfl, rfl⟩
  | sendDigits text =>
    obtain ⟨hreply, hleft⟩ := sendAny_core (hexFrame e.settings.hexInlineLimit text) e
    exact ⟨congrArg Reply.ofUnit hreply, hleft⟩
  | sendChecksum text =>
    obtain ⟨hreply, hleft⟩ := sendAny_core
      (checksumFrame e.settings.hexInlineLimit e.workspace.lastRow e.workspace.lastData text) e
    exact ⟨congrArg Reply.ofUnit hreply, hleft⟩

theorem Alike.call_eq {e f : Engine ε} (h : e.Alike f) {call : Call}
    (hstarts : call.startsRun = true) : e.call call = f.call call := by
  have hwaiting := h.isWaiting
  rcases h with rfl | ⟨hw, hcore⟩
  · rfl
  · rw [← call_core_of_startsRun hw hstarts, hcore,
      call_core_of_startsRun (hwaiting.symm.trans hw) hstarts]

theorem Alike.call {e f : Engine ε} (h : e.Alike f) (call : Call) :
    (e.call call).1 = (f.call call).1 ∧ (e.call call).2.Alike (f.call call).2 := by
  cases hstarts : call.startsRun with
  | true =>
    rw [h.call_eq hstarts]
    exact ⟨rfl, Or.inl rfl⟩
  | false =>
    -- Nothing but a run reads what the cores leave out, so both replies are those of the cores.
    have hwaiting := h.isWaiting
    rcases h with rfl | ⟨hw, hcore⟩
    · exact ⟨rfl, Or.inl rfl⟩
    · obtain ⟨hreply, hleft⟩ := call_core hw call
      obtain ⟨hreply', hleft'⟩ := call_core (hwaiting.symm.trans hw) call
      refine ⟨?_, Or.inr ⟨?_, ?_⟩⟩
      · rw [← hreply, hcore, hreply']
      · exact isWaiting_call_of_not_startsRun hw hstarts
      · rw [← hleft, hcore, hleft']

theorem Alike.callAll {e f : Engine ε} (h : e.Alike f) (calls : List Call) :
    (e.callAll calls).1 = (f.callAll calls).1 ∧ (e.callAll calls).2.Alike (f.callAll calls).2 := by
  induction calls generalizing e f with
  | nil => exact ⟨rfl, h⟩
  | cons call rest ih =>
    obtain ⟨hreply, hnext⟩ := h.call call
    obtain ⟨hreplies, hlast⟩ := ih hnext
    rw [callAll_cons, callAll_cons, hreply, hreplies]
    exact ⟨rfl, hlast⟩

theorem Alike.callAll_eq {e f : Engine ε} (h : e.Alike f) {calls : List Call}
    (hruns : calls.any Call.startsRun = true) : e.callAll calls = f.callAll calls := by
  induction calls generalizing e f with
  | nil => cases hruns
  | cons call rest ih =>
    obtain ⟨hreply, hnext⟩ := h.call call
    rw [callAll_cons, callAll_cons, hreply]
    cases hstarts : call.startsRun with
    | true =>
      rw [h.call_eq hstarts]
    | false =>
      rw [List.any_cons, hstarts, Bool.false_or] at hruns
      rw [ih hnext hruns]

theorem call_forget {e : Engine ε} (h : e.isWaiting = false) {load : Call}
    (hload : load.isLoad = true) : e.forget.call load = e.call load := by
  have hforget : e.forget.isWaiting = false := rfl
  cases load with
  | load lines =>
    simp only [Engine.call, load_of_not_waiting h, load_of_not_waiting hforget]
    rfl
  | loadFrom path =>
    simp only [Engine.call, loadFrom_of_not_waiting h, loadFrom_of_not_waiting hforget]
    rfl
  | run | resume | runAnswered | cancel | sendDigits | sendChecksum | close => cases hload

structure Blank (e : Engine ε) : Prop where
  bindings : e.workspace.bindings = Table.empty
  row : e.workspace.lastRow = []
  data : e.workspace.lastData = []

theorem Blank.adopt {e : Engine ε} (h : e.Blank) (loaded : Except ScriptError Routines) :
    (e.adopt loaded).2.Blank := by
  cases loaded <;> exact ⟨h.bindings, h.row, h.data⟩

theorem blank_of_load {e : Engine ε} (h : e.isWaiting = false) {load : Call}
    (hload : load.isLoad = true) : (e.call load).2.Blank := by
  cases load with
  | load lines =>
    simp only [Engine.call, load_of_not_waiting h]
    exact Blank.adopt ⟨rfl, rfl, rfl⟩ _
  | loadFrom path =>
    simp only [Engine.call, loadFrom_of_not_waiting h]
    exact Blank.adopt ⟨rfl, rfl, rfl⟩ _
  | run | resume | runAnswered | cancel | sendDigits | sendChecksum | close => cases hload

/-- Loading erases history. An engine without a prompt that loads a script, or fails to, is from
then on like a new engine in the same surroundings that does: to any calls the replies are the
same, and so is what is left of the engine and its surroundings, with the exception of two fields
that `core` erases, the jumps left and the cancel flag. Neither has a part in any reply, and once a
run has begun both are the same too. If the load fails, there is nothing in either engine. -/
theorem load_erases {e : Engine ε} (hw : e.isWaiting = false) {load : Call}
    (hload : load.isLoad = true) :
    let new := idle e.settings e.workspace.around
    (e.call load).1 = (new.call load).1 ∧
      (∀ calls,
        let used := (e.call load).2.callAll calls
        let unused := (new.call load).2.callAll calls
        used.1 = unused.1 ∧ used.2.core = unused.2.core ∧
          (calls.any Call.startsRun = true → used.2 = unused.2)) ∧
      ((e.call load).1 ≠ .done → ∀ left ∈ [(e.call load).2, (new.call load).2],
        left.Bare ∧ left.Blank) := by
  intro new
  have halike : e.forget.Alike new := Or.inr ⟨rfl, rfl⟩
  obtain ⟨hreply, hleft⟩ := halike.call load
  rw [call_forget hw hload] at hreply hleft
  refine ⟨hreply, ?_, ?_⟩
  · intro calls used unused
    obtain ⟨hreplies, hlast⟩ := hleft.callAll calls
    exact ⟨hreplies, hlast.core_eq, fun hruns => congrArg Prod.snd (hleft.callAll_eq hruns)⟩
  · intro hne left hmem
    have hne' : (new.call load).1 ≠ .done := hreply ▸ hne
    simp only [List.mem_cons, List.not_mem_nil, or_false] at hmem
    rcases hmem with rfl | rfl
    · exact ⟨bare_of_load hw hload hne, blank_of_load hw hload⟩
    · exact ⟨bare_of_load rfl hload hne', blank_of_load rfl hload⟩

def leaving : Engine Bench :=
  ((idle { callDepthBudget := 2 } Bench.fresh).load [['J', 'a'], ['Q'], [':', 'a']]).2

theorem load_erases_leaving :
    let used := (leaving.callAll [.run [], .cancel]).2
    let new := idle used.settings used.workspace.around
    let failing := Call.load [[':']]
    used.budget = 1 ∧ new.budget = 2 ∧ used.quit = true ∧ used.workspace.cancelled = true ∧
      (used.call failing).1 = .refused (.format (.namelessRoutine 1)) ∧
      (used.call failing).2.Bare ∧ (used.call failing).2.Blank ∧
      (used.call failing).2.callAll [.load [['U', 'q']], .run [], .cancel, .resume ['r']]
        = (new.call failing).2.callAll [.load [['U', 'q']], .run [], .cancel, .resume ['r']] := by
  intro used new failing
  obtain ⟨last, hlast, hbudget, hquit, hpending, hdepth⟩ : ∃ last,
      loop 4 { leaving.begun with stack := [{ routine := [] }] } = some (.ended .quit, last) ∧
      last.budget = 1 ∧ last.quit = true ∧ last.pending = none ∧
      last.settings.callDepthBudget = 2 :=
    ⟨_, rfl, rfl, rfl, rfl, rfl⟩
  have hused : used = last.cancel := by
    change ((leaving.call (.run [])).2.callAll [.cancel]).2 = last.cancel
    rw [call_run_of_contains rfl (by decide), carryOn_eq_of_loop hlast]
    rfl
  have hw : used.isWaiting = false := by
    rw [hused]
    exact congrArg Option.isSome hpending
  have hrefused : (used.call failing).1 = .refused (.format (.namelessRoutine 1)) := by
    simp only [failing, Engine.call, load_of_not_waiting hw]
    rfl
  have hload : failing.isLoad = true := rfl
  obtain ⟨-, hcalls, hfailed⟩ := load_erases hw hload
  obtain ⟨hreplies, -, hsame⟩ := hcalls [.load [['U', 'q']], .run [], .cancel, .resume ['r']]
  obtain ⟨hbare, hblank⟩ := hfailed (by simp [hrefused]) _ (List.mem_cons_self ..)
  refine ⟨?_, ?_, ?_, ?_, hrefused, hbare, hblank, Prod.ext hreplies (hsame rfl)⟩
  · rw [hused]
    exact hbudget
  · change (used.settings.callDepthBudget : Int) = 2
    rw [hused]
    exact congrArg Nat.cast hdepth
  · rw [hused]
    exact hquit
  · rw [hused]
    rfl

end Engine
end BenchScript
