import BenchScript.Engine.Evaluator
import BenchScript.Proofs.Course
import BenchScript.Proofs.Record

set_option autoImplicit false

/-!
# The engine and the evaluator

An engine keeps what is still to be done on a stack and can be interrupted at any depth; the
evaluator recurs into routines and asks for answers on the spot.
-/
namespace BenchScript

namespace Evaluator

variable {ε α : Type} [Environment ε]

section Equations

variable {v : Evaluator α} {isOpen : Bool} {commands rest : List Command} {command : Command}
  {jumps : Nat} {c : Carried ε α} {w : Workspace ε}

theorem carryOut_cancelled (h : c.workspace.cancelled = true) :
    v.carryOut isOpen commands jumps c = ⟨some .cancelled, c, jumps, Nat.le_refl _⟩ := by
  rw [carryOut.eq_def, if_pos h]

theorem carryOut_nil (h : c.workspace.cancelled = false) :
    v.carryOut isOpen [] jumps c = ⟨none, c, jumps, Nat.le_refl _⟩ := by
  rw [carryOut, if_neg (Bool.eq_false_iff.1 h)]

theorem carryOut_passedOver (h : c.workspace.cancelled = false)
    (hg : (isOpen || command.action == .condition) = false) :
    v.carryOut isOpen (command :: rest) jumps c
      = v.carryOut isOpen rest jumps (c.observe command) := by
  rw [carryOut, if_neg (Bool.eq_false_iff.1 h), if_neg (Bool.eq_false_iff.1 hg)]

theorem carryOut_next (h : c.workspace.cancelled = false)
    (hg : (isOpen || command.action == .condition) = true)
    (hp : c.workspace.perform v.settings command = (.next, w)) :
    v.carryOut isOpen (command :: rest) jumps c
      = v.carryOut isOpen rest jumps (Carried.observe command { c with workspace := w }) := by
  rw [carryOut, if_neg (Bool.eq_false_iff.1 h), if_pos hg]
  simp only [hp]

theorem carryOut_gate {opens : Bool} (h : c.workspace.cancelled = false)
    (hg : (isOpen || command.action == .condition) = true)
    (hp : c.workspace.perform v.settings command = (.gate opens, w)) :
    v.carryOut isOpen (command :: rest) jumps c
      = v.carryOut opens rest jumps (Carried.observe command { c with workspace := w }) := by
  rw [carryOut, if_neg (Bool.eq_false_iff.1 h), if_pos hg]
  simp only [hp]

theorem carryOut_stop {ending : Ending} (h : c.workspace.cancelled = false)
    (hg : (isOpen || command.action == .condition) = true)
    (hp : c.workspace.perform v.settings command = (.stop ending, w)) :
    v.carryOut isOpen (command :: rest) jumps c
      = ⟨some ending, Carried.observe command { c with workspace := w }, jumps,
          Nat.le_refl _⟩ := by
  rw [carryOut, if_neg (Bool.eq_false_iff.1 h), if_pos hg]
  simp only [hp]

theorem carryOut_unanswered {prompt : Text} {answers : α} (h : c.workspace.cancelled = false)
    (hg : (isOpen || command.action == .condition) = true)
    (hp : c.workspace.perform v.settings command = (.suspend prompt, w))
    (hs : v.source w.cancelled prompt c.answers = (none, answers)) :
    v.carryOut isOpen (command :: rest) jumps c
      = ⟨some .cancelled, ⟨w, answers⟩, jumps, Nat.le_refl _⟩ := by
  rw [carryOut, if_neg (Bool.eq_false_iff.1 h), if_pos hg]
  simp only [hp, hs]

theorem carryOut_answered {prompt input : Text} {answers : α}
    (h : c.workspace.cancelled = false)
    (hg : (isOpen || command.action == .condition) = true)
    (hp : c.workspace.perform v.settings command = (.suspend prompt, w))
    (hs : v.source w.cancelled prompt c.answers = (some input, answers)) :
    v.carryOut isOpen (command :: rest) jumps c
      = v.carryOut isOpen rest jumps
          (Carried.observe command (Carried.answer input ⟨w, answers⟩)) := by
  rw [carryOut, if_neg (Bool.eq_false_iff.1 h), if_pos hg]
  simp only [hp, hs]

theorem carryOut_exhausted {name : Text} (h : c.workspace.cancelled = false)
    (hg : (isOpen || command.action == .condition) = true)
    (hp : c.workspace.perform v.settings command = (.enter name, w)) :
    v.carryOut isOpen (command :: rest) 0 c
      = ⟨some .callDepthExceeded, Carried.observe command { c with workspace := w }, 0,
          Nat.le_refl _⟩ := by
  rw [carryOut, if_neg (Bool.eq_false_iff.1 h), if_pos hg]
  simp only [hp]

theorem carryOut_missing {name : Text} (h : c.workspace.cancelled = false)
    (hg : (isOpen || command.action == .condition) = true)
    (hp : c.workspace.perform v.settings command = (.enter name, w))
    (hn : v.routines.get? name = none) :
    v.carryOut isOpen (command :: rest) (jumps + 1) c
      = ⟨some (.routineNotFound name), Carried.observe command { c with workspace := w }, jumps,
          Nat.le_succ _⟩ := by
  rw [carryOut, if_neg (Bool.eq_false_iff.1 h), if_pos hg]
  simp only [hp, hn]

theorem uncancelled_of_none (v : Evaluator α) (isOpen : Bool) (commands : List Command)
    (jumps : Nat) (c : Carried ε α) (h : (v.carryOut isOpen commands jumps c).ending? = none) :
    (v.carryOut isOpen commands jumps c).after.workspace.cancelled = false := by
  fun_induction carryOut v isOpen commands jumps c
  case case2 hc => simpa using hc
  case case3 ih => exact ih h
  case case4 ih => exact ih h
  case case7 ih => exact ih h
  case case11 ih => exact ih h
  case case12 ih => exact ih h
  all_goals cases h

end Equations

theorem handOn_enter {v : Evaluator α} {isOpen : Bool} {rest body : List Command}
    {command : Command} {jumps : Nat} {c : Carried ε α} {w : Workspace ε} {name : Text}
    (h : c.workspace.cancelled = false)
    (hg : (isOpen || command.action == .condition) = true)
    (hp : c.workspace.perform v.settings command = (.enter name, w))
    (hn : v.routines.get? name = some body) (go : Nat → Carried ε α → Conclusion ε α) :
    (v.carryOut isOpen (command :: rest) (jumps + 1) c).handOn go
      = (v.carryOut true body jumps { c with workspace := w }).handOn fun left after =>
          (v.carryOut isOpen rest left (after.observe command)).handOn go := by
  rw [carryOut, if_neg (Bool.eq_false_iff.1 h), if_pos hg]
  simp only [hp, hn]
  generalize v.carryOut true body jumps { c with workspace := w } = outcome
  obtain ⟨ending?, after, left, le⟩ := outcome
  cases ending? with
  | none => rfl
  | some ending => rfl

def ahead (v : Evaluator α) (top : Invocation) : List Command :=
  ((v.routines.get? top.routine).getD []).drop top.position

def Carried.observeCaller (caller : Option Command) (c : Carried ε α) : Carried ε α :=
  match caller with
  | some command => c.observe command
  | none => c

/-- Carries out what a stack of routines has still to do, routine by routine. -/
def unwind (v : Evaluator α) : List Invocation → Nat → Carried ε α → Conclusion ε α
  | [], jumps, c => ⟨if c.workspace.cancelled then .cancelled else .completed, c, jumps⟩
  | top :: below, jumps, c =>
    (v.carryOut top.gateOpen (v.ahead top) jumps c).handOn fun left after =>
      v.unwind below left (after.observeCaller top.caller)

theorem ahead_eq_nil {v : Evaluator α} {top : Invocation}
    (h : v.routines.command? top.routine top.position = none) : v.ahead top = [] := by
  unfold Routines.command? at h
  unfold ahead
  cases hr : v.routines.get? top.routine with
  | none => simp
  | some commands =>
    rw [hr, Option.bind_some] at h
    simpa using h

theorem ahead_eq_cons {v : Evaluator α} {top : Invocation} {command : Command}
    (h : v.routines.command? top.routine top.position = some command) :
    v.ahead top = command :: v.ahead { top with position := top.position + 1 } := by
  unfold Routines.command? at h
  unfold ahead
  cases hr : v.routines.get? top.routine with
  | none => rw [hr] at h; cases h
  | some commands =>
    rw [hr, Option.bind_some] at h
    obtain ⟨hlt, heq⟩ := List.getElem?_eq_some_iff.1 h
    rw [Option.getD_some, List.drop_eq_getElem_cons hlt, heq]

end Evaluator

namespace Engine

open Evaluator

variable {ε α : Type} [Environment ε]

def evaluator (e : Engine ε) (source : AnswerSource α) : Evaluator α :=
  ⟨e.settings, e.routines, source⟩

def unwound (e : Engine ε) (source : AnswerSource α) (answers : α) : Conclusion ε α :=
  (e.evaluator source).unwind e.stack e.jumpsLeft ⟨e.workspace, answers⟩

variable {e e' : Engine ε} {source : AnswerSource α} {answers : α}

theorem report_finish (e : Engine ε) (ending : Ending) (answers : α) (left : Nat) :
    Conclusion.report ⟨ending, ⟨e.workspace, answers⟩, left⟩
      = ⟨ending, ⟨(e.finish ending).2.workspace, answers⟩, left⟩ := by
  unfold Conclusion.report finish
  cases ending.report? <;> rfl

/-- The routine that an engine is in has `command` before it, and the routines below it wait. -/
theorem unwound_of_fetches {top : Invocation} {below : List Invocation} {command : Command}
    (hf : e.Fetches top below command) :
    e.unwound source answers
      = ((e.evaluator source).carryOut top.gateOpen
          (command :: (e.evaluator source).ahead { top with position := top.position + 1 })
          e.jumpsLeft ⟨e.workspace, answers⟩).handOn fun left after =>
            (e.evaluator source).unwind below left (after.observeCaller top.caller) := by
  unfold unwound
  rw [hf.stack, unwind, ahead_eq_cons hf.fetched]

/-- A step that goes on leaves the evaluator as much to do. -/
theorem unwound_of_going (h : e.step = .going e') :
    e.unwound source answers = e'.unwound source answers := by
  have move := e.move_step
  rw [h] at move
  cases move with
  | @returned top below hc _ hs hn =>
    unfold unwound
    rw [hs, unwind, ahead_eq_nil hn, carryOut_nil hc]
    unfold leave
    cases hcaller : top.caller <;> rfl
  | @passedOver top below command hf hg ha =>
    have hclosed : (top.gateOpen || command.action == .condition) = false :=
      admits_eq_false_iff.2 ⟨hg, ha⟩
    rw [unwound_of_fetches hf, carryOut_passedOver hf.uncancelled hclosed]
    rfl
  | @next top below command w hf hg _ hp =>
    have hopen : (top.gateOpen || command.action == .condition) = true := hg
    rw [unwound_of_fetches hf, carryOut_next (v := e.evaluator source)
      (c := ⟨e.workspace, answers⟩) (w := w) hf.uncancelled hopen hp]
    rfl
  | @gate top below command isOpen hf hg _ hp =>
    have hopen : (top.gateOpen || command.action == .condition) = true := hg
    rw [unwound_of_fetches hf, carryOut_gate (v := e.evaluator source)
      (c := ⟨e.workspace, answers⟩) (w := e.workspace) hf.uncancelled hopen hp]
    rfl
  | @enters top below command hf hg ha hb hn =>
    have hopen : (top.gateOpen || command.action == .condition) = true := by rw [hg]; rfl
    have hjumps : e.jumpsLeft = (e.budget - 1).toNat + 1 := by unfold jumpsLeft; omega
    rw [Table.contains_eq_isSome] at hn
    obtain ⟨body, hbody⟩ := Option.isSome_iff_exists.1 hn
    have hahead : (e.evaluator source).ahead ⟨command.argument, 0, true, some command⟩ = body := by
      unfold ahead evaluator
      rw [hbody]
      rfl
    rw [unwound_of_fetches hf, hjumps, handOn_enter (v := e.evaluator source)
      (c := ⟨e.workspace, answers⟩) (w := e.workspace) hf.uncancelled hopen
      (e.workspace.perform_jump ha _) hbody, ← hahead]
    rfl

theorem jumpsLeft_finish (e : Engine ε) (ending : Ending) :
    (e.finish ending).2.jumpsLeft = e.jumpsLeft := by
  unfold jumpsLeft
  rw [budget_finish]

theorem report_of_unwound {x : Engine ε} {ending : Ending}
    (h : e.unwound source answers = ⟨ending, ⟨x.workspace, answers⟩, x.jumpsLeft⟩) :
    (e.unwound source answers).report
      = ⟨ending, ⟨(x.finish ending).2.workspace, answers⟩, (x.finish ending).2.jumpsLeft⟩ := by
  rw [h, report_finish, jumpsLeft_finish]

theorem unwound_of_cancelled (h : e.workspace.cancelled = true) :
    e.unwound source answers = ⟨.cancelled, ⟨e.workspace, answers⟩, e.jumpsLeft⟩ := by
  unfold unwound
  cases e.stack with
  | nil => rw [unwind, if_pos h]
  | cons top below =>
    rw [unwind, carryOut_cancelled (c := ⟨e.workspace, answers⟩) h]
    rfl

theorem unwound_of_ended {ending : Ending} (hq : e.quit = false) (hb : 0 ≤ e.budget)
    (h : e.step = .halted (.ended ending) e') :
    (e.unwound source answers).report = ⟨ending, ⟨e'.workspace, answers⟩, e'.jumpsLeft⟩ := by
  have move := e.move_step
  rw [h] at move
  generalize hstanding : Standing.ended ending = standing at move
  cases move with
  | cancelled hc =>
    cases hstanding
    exact report_of_unwound (unwound_of_cancelled hc)
  | broken _ hq' =>
    rw [hq] at hq'
    cases hq'
  | completed hc _ hs =>
    cases hstanding
    refine report_of_unwound ?_
    unfold unwound
    rw [hs, unwind, if_neg (Bool.eq_false_iff.1 hc)]
  | @stops top below command _ w hf hg _ _ hp =>
    cases hstanding
    have hopen : (top.gateOpen || command.action == .condition) = true := hg
    refine report_of_unwound ?_
    rw [unwound_of_fetches hf, carryOut_stop (v := e.evaluator source)
      (c := ⟨e.workspace, answers⟩) (w := w) hf.uncancelled hopen hp]
    rfl
  | @exhausted top below command hf hg ha hlt =>
    cases hstanding
    have hopen : (top.gateOpen || command.action == .condition) = true := by rw [hg]; rfl
    have hjumps : e.jumpsLeft = 0 := by unfold jumpsLeft; omega
    have hspent : ((e.past top below e.workspace).spent.observe command).jumpsLeft = 0 := by
      change (e.budget - 1).toNat = 0
      omega
    refine report_of_unwound ?_
    rw [unwound_of_fetches hf, hjumps, hspent, carryOut_exhausted (v := e.evaluator source)
      (c := ⟨e.workspace, answers⟩) (w := e.workspace) hf.uncancelled hopen
      (e.workspace.perform_jump ha _)]
    rfl
  | @missing top below command hf hg ha hlt hn =>
    cases hstanding
    have hopen : (top.gateOpen || command.action == .condition) = true := by rw [hg]; rfl
    have hjumps : e.jumpsLeft = (e.budget - 1).toNat + 1 := by unfold jumpsLeft; omega
    rw [Table.contains_eq_isSome, Option.isSome_eq_false_iff, Option.isNone_iff_eq_none] at hn
    refine report_of_unwound ?_
    rw [unwound_of_fetches hf, hjumps, carryOut_missing (v := e.evaluator source)
      (c := ⟨e.workspace, answers⟩) (w := e.workspace) hf.uncancelled hopen
      (e.workspace.perform_jump ha _) hn]
    rfl
  | waits => cases hstanding

/-- Where a run waits, the evaluator asks the source and goes on with the answer, or gives up. -/
theorem unwound_of_waiting {prompt : Text} (h : e.step = .halted (.waiting prompt) e') :
    ∃ command, e'.pending = some command ∧
      (∀ rest, source e'.workspace.cancelled prompt answers = (none, rest) →
        e.unwound source answers = ⟨.cancelled, ⟨e'.workspace, rest⟩, e'.jumpsLeft⟩) ∧
      ∀ input rest, source e'.workspace.cancelled prompt answers = (some input, rest) →
        e.unwound source answers = (e'.deliver command input).unwound source rest := by
  have move := e.move_step
  rw [h] at move
  cases move with
  | @waits top below command _ w hf hg _ hp =>
    have hopen : (top.gateOpen || command.action == .condition) = true := by rw [hg]; rfl
    refine ⟨command, rfl, ?_, ?_⟩
    · intro rest hs
      rw [unwound_of_fetches hf, carryOut_unanswered (v := e.evaluator source)
        (c := ⟨e.workspace, answers⟩) (w := w) hf.uncancelled hopen hp hs]
      rfl
    · intro input rest hs
      rw [unwound_of_fetches hf, carryOut_answered (v := e.evaluator source)
        (c := ⟨e.workspace, answers⟩) (w := w) hf.uncancelled hopen hp hs]
      rfl

/-- Run by run and answer by answer, an engine comes to what the evaluator makes of its stack. The
induction is on the weight, which a step and an answered prompt both lessen. -/
theorem answerPrompts_carryOn (source : AnswerSource α) (answers : α) (he : e.Ready) :
    ∃ after, e.carryOn.2.answerPrompts source answers e.carryOn.1
        = (.ok (e.unwound source answers).report.ending, after,
          (e.unwound source answers).report.after.answers) ∧
      after.workspace = (e.unwound source answers).report.after.workspace ∧
      after.jumpsLeft = (e.unwound source answers).report.left := by
  induction hw : e.weight using Nat.strongRecOn generalizing e answers with
  | ind weight ih =>
    subst hw
    cases hs : e.step with
    | going next =>
      rw [carryOn_of_going hs, unwound_of_going hs]
      exact ih next.weight (weight_step_lt hs) answers (he.going hs) rfl
    | halted standing last =>
      rw [carryOn_of_halted hs]
      cases standing with
      | ended ending =>
        rw [answerPrompts_ended, unwound_of_ended he.unbroken he.budget hs]
        exact ⟨last, rfl, rfl, rfl⟩
      | waiting prompt =>
        obtain ⟨command, hp, hnone, hsome⟩ :=
          @unwound_of_waiting ε α _ e last source answers prompt hs
        generalize hsource : source last.workspace.cancelled prompt answers = out
        obtain ⟨answer, rest⟩ := out
        cases answer with
        | none =>
          rw [answerPrompts_none hsource, hnone rest hsource]
          have habandon := report_finish { last with pending := none } .cancelled rest
            last.jumpsLeft
          rw [habandon]
          exact ⟨last.abandon, rfl, rfl, jumpsLeft_finish _ _⟩
        | some input =>
          rw [answerPrompts_some hp hsource, hsome input rest hsource]
          have hlt := (settles_step hs).2 prompt rfl
          exact ih _ hlt rest ((he.waiting hs).of_eq rfl rfl) rfl

theorem run_of_contains {routine : Text} (h : e.routines.contains routine = true) :
    (e.evaluator source).run routine e.workspace answers
      = (Engine.unwound { e.begun with stack := [{ routine }] } source answers).report := by
  rw [Table.contains_eq_isSome] at h
  obtain ⟨commands, hcommands⟩ := Option.isSome_iff_exists.1 h
  have hahead : (e.evaluator source).ahead { routine } = commands := by
    unfold ahead evaluator
    rw [hcommands]
    rfl
  -- A routine that comes to its end was not cancelled, so the stack may be unwound behind it.
  have hend := uncancelled_of_none (e.evaluator source) true commands
    e.settings.callDepthBudget ⟨{ e.workspace with cancelled := false }, answers⟩
  change Evaluator.run _ _ _ _ = ((e.evaluator source).unwind [{ routine }]
    e.settings.callDepthBudget ⟨{ e.workspace with cancelled := false }, answers⟩).report
  rw [unwind, hahead, Evaluator.run]
  simp only [show (e.evaluator source).routines.get? routine = some commands from hcommands]
  refine congrArg Conclusion.report ?_
  change ((e.evaluator source).carryOut true commands e.settings.callDepthBudget _).handOn _ = _
  generalize (e.evaluator source).carryOut true commands e.settings.callDepthBudget
    ⟨{ e.workspace with cancelled := false }, answers⟩ = outcome at hend ⊢
  obtain ⟨ending?, after, left, le⟩ := outcome
  cases ending? with
  | some ending => rfl
  | none =>
    have huncancelled : after.workspace.cancelled = false := hend rfl
    simp only [Outcome.handOn, Carried.observeCaller, unwind, huncancelled, Bool.false_eq_true,
      if_false]

theorem run_of_not_contains {routine : Text} (h : e.routines.contains routine = false) :
    (e.evaluator source).run routine e.workspace answers
      = ⟨.routineNotFound routine,
          ⟨(e.begun.finish (.routineNotFound routine)).2.workspace, answers⟩,
          (e.begun.finish (.routineNotFound routine)).2.jumpsLeft⟩ := by
  rw [Table.contains_eq_isSome, Option.isSome_eq_false_iff, Option.isNone_iff_eq_none] at h
  rw [jumpsLeft_finish, ← report_finish e.begun, Evaluator.run]
  simp only [show (e.evaluator source).routines.get? routine = none from h]
  rfl

theorem runAnswered_eq_run (source : AnswerSource α) (answers : α) (h : e.isWaiting = false)
    (routine : Text) :
    ∃ after, e.runAnswered routine source answers
        = (.ok ((e.evaluator source).run routine e.workspace answers).ending, after,
          ((e.evaluator source).run routine e.workspace answers).after.answers) ∧
      after.workspace = ((e.evaluator source).run routine e.workspace answers).after.workspace ∧
      after.jumpsLeft = ((e.evaluator source).run routine e.workspace answers).left := by
  unfold runAnswered run
  simp only [h, Bool.false_eq_true, if_false]
  cases hr : e.routines.contains routine with
  | true =>
    rw [run_of_contains hr]
    have hready : Ready { e.begun with stack := [{ routine }] } :=
      ⟨rfl, Int.natCast_nonneg _⟩
    have hrun := answerPrompts_carryOn source answers hready
    rw [if_pos (show e.begun.routines.contains routine = true from hr)]
    exact hrun
  | false =>
    rw [run_of_not_contains hr, if_neg (Bool.eq_false_iff.1
      (show e.begun.routines.contains routine = false from hr)), finish_fst, answerPrompts_ended]
    exact ⟨_, rfl, rfl, rfl⟩

/-- Stack, suspension and resumption cannot be told from recursion: whatever surrounds an engine,
and whatever answers it is given, it ends as the evaluator does, with the same record of what
passed, in the same order, and with the same state left behind. -/
theorem runAnswered_refines_recursion (e : Engine (Recorded ε)) (h : e.isWaiting = false)
    (routine : Text) (source : AnswerSource α) (answers : α) :
    let recursive := (e.evaluator source).run routine e.workspace answers
    let left := recursive.after.workspace
    ∃ after,
      e.runAnswered routine source answers
        = (.ok recursive.ending, after, recursive.after.answers) ∧
      after.workspace.around.record = left.around.record ∧
      after.workspace.around.notifications = left.around.notifications ∧
      after.workspace.around.observations = left.around.observations ∧
      after.workspace.around.writes = left.around.writes ∧
      after.workspace.around.appends = left.around.appends ∧
      after.workspace.around.around = left.around.around ∧
      after.workspace.bindings = left.bindings ∧
      after.workspace.lastRow = left.lastRow ∧
      after.workspace.lastData = left.lastData ∧
      after.workspace.cancelled = left.cancelled ∧
      after.jumpsLeft = recursive.left := by
  intro recursive left
  obtain ⟨after, hrun, hworkspace, hjumps⟩ := runAnswered_eq_run source answers h routine
  refine ⟨after, hrun, ?_⟩
  rw [hworkspace]
  exact ⟨rfl, rfl, rfl, rfl, rfl, rfl, rfl, rfl, rfl, rfl, hjumps⟩

def asking : Engine Bench :=
  ((idle {} Bench.fresh).load
    [['J', 'a'], ['M', 'x'], [':', 'a'], ['U', 'q'], ['?', '1', '=', '=', '2'], ['M', 'y']]).2

theorem runAnswered_asking :
    let recursive := (asking.evaluator Prepared.source).run [] asking.workspace ⟨[some ['r']], []⟩
    asking.isWaiting = false ∧ recursive.ending = .completed ∧ recursive.left = 9 ∧
      recursive.after.workspace.around.observations.map Observation.line
        = [['U', 'q'], ['?', '1', '=', '=', '2'], ['M', 'y'], ['J', 'a'], ['M', 'x']] := by
  intro recursive
  have hwaits : asking.isWaiting = false := by decide
  obtain ⟨prompt, first, hfirst, hpending, last, hlast, hjumps, hlines⟩ : ∃ prompt first,
      loop 2 { asking.begun with stack := [{ routine := [] }] } = some (.waiting prompt, first) ∧
      first.pending = some (.textual 'U' ['q']) ∧
      ∃ last, loop 7 (first.deliver (.textual 'U' ['q']) ['r']) = some (.ended .completed, last) ∧
        last.jumpsLeft = 9 ∧ last.workspace.around.observations.map Observation.line
          = [['U', 'q'], ['?', '1', '=', '=', '2'], ['M', 'y'], ['J', 'a'], ['M', 'x']] :=
    ⟨_, _, rfl, rfl, _, rfl, rfl, rfl⟩
  have hrun : asking.run [] = (.ok (.waiting prompt), first) := by
    have hcarried := carryOn_eq_of_loop hfirst
    unfold run
    rw [if_neg (by simp [hwaits])]
    simp only [show asking.begun.routines.contains [] = true by decide, if_true, hcarried]
  have hmachine : asking.runAnswered [] Prepared.source ⟨[some ['r']], []⟩
      = (.ok .completed, last, ⟨[], [prompt]⟩) := by
    rw [runAnswered_of_run Prepared.source _ (congrArg Prod.fst hrun), hrun,
      answerPrompts_some hpending rfl, carryOn_eq_of_loop hlast, answerPrompts_ended]
    rfl
  obtain ⟨after, hafter, _, _, hobserved, _, _, _, _, _, _, _, hleft⟩ :=
    runAnswered_refines_recursion asking hwaits [] Prepared.source ⟨[some ['r']], []⟩
  rw [hmachine] at hafter
  simp only [Prod.mk.injEq, Except.ok.injEq] at hafter
  obtain ⟨hending, rfl, _⟩ := hafter
  refine ⟨hwaits, hending.symm, hleft.symm.trans hjumps, ?_⟩
  rw [← hlines, hobserved]

end Engine
end BenchScript
