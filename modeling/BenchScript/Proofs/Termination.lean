import BenchScript.Proofs.Record
import BenchScript.Proofs.Runs

set_option autoImplicit false

namespace BenchScript
namespace Engine

variable {ε : Type}

def dispatches (e : Engine ε) : Bool := e.fetched?.isSome

def commandsAhead (table : Routines) : List Invocation → Nat
  | [] => 0
  | top :: below => table.lengthOf top.routine - top.position + commandsAhead table below

def dispatchesLeft (e : Engine ε) : Nat :=
  e.budget.toNat * e.routines.longest + commandsAhead e.routines e.stack

theorem dispatches_of_fetches {e : Engine ε} {top : Invocation} {below : List Invocation}
    {command : Command} (h : e.Fetches top below command) : e.dispatches = true := by
  unfold dispatches
  rw [h.fetched?_eq]
  rfl

theorem dispatches_eq_false {e : Engine ε} (h : e.fetched? = none) : e.dispatches = false := by
  unfold dispatches
  rw [h]
  rfl

theorem commandsAhead_past {table : Routines} {top : Invocation} {command : Command}
    (below : List Invocation) (h : table.command? top.routine top.position = some command)
    (isOpen : Bool) :
    commandsAhead table ({ top with position := top.position + 1, gateOpen := isOpen } :: below) + 1
      = commandsAhead table (top :: below) := by
  have hlt := Routines.lt_lengthOf h
  simp only [commandsAhead]
  omega

theorem dispatchesLeft_past {e : Engine ε} {top : Invocation} {below : List Invocation}
    {command : Command} (hf : e.Fetches top below command) (workspace : Workspace ε) :
    (e.past top below workspace).dispatchesLeft + 1 = e.dispatchesLeft := by
  have hpast := commandsAhead_past below hf.fetched top.gateOpen
  change e.budget.toNat * e.routines.longest + commandsAhead e.routines
    ({ top with position := top.position + 1, gateOpen := top.gateOpen } :: below) + 1 = _
  unfold dispatchesLeft
  rw [hf.stack]
  omega

theorem dispatchesLeft_setGate (e : Engine ε) (isOpen : Bool) :
    (e.setGate isOpen).dispatchesLeft = e.dispatchesLeft := by
  unfold setGate
  split
  · rfl
  · next top below hs =>
    unfold dispatchesLeft
    rw [hs]
    rfl

theorem dispatchesLeft_entered {e : Engine ε} (hb : 1 ≤ e.budget) (command : Command) :
    (e.entered command).dispatchesLeft ≤ e.dispatchesLeft := by
  have hlength := e.routines.lengthOf_le_longest command.argument
  have hbudget : e.budget.toNat = (e.budget - 1).toNat + 1 := by omega
  change (e.budget - 1).toNat * e.routines.longest
    + (e.routines.lengthOf command.argument - 0 + commandsAhead e.routines e.stack) ≤ _
  unfold dispatchesLeft
  rw [hbudget, Nat.succ_mul]
  omega

theorem dispatchesLeft_spent_le (e : Engine ε) : e.spent.dispatchesLeft ≤ e.dispatchesLeft := by
  have hmul : (e.budget - 1).toNat * e.routines.longest ≤ e.budget.toNat * e.routines.longest :=
    Nat.mul_le_mul_right _ (by omega)
  change (e.budget - 1).toNat * e.routines.longest + _ ≤ e.budget.toNat * e.routines.longest + _
  exact Nat.add_le_add_right hmul _

theorem dispatchesLeft_begun_le (e : Engine ε) (routine : Text) :
    dispatchesLeft { e.begun with stack := [{ routine }] }
      ≤ (e.settings.callDepthBudget + 1) * e.routines.longest := by
  have hlength := e.routines.lengthOf_le_longest routine
  change e.settings.callDepthBudget * e.routines.longest
    + (e.routines.lengthOf routine - 0 + 0) ≤ _
  rw [Nat.succ_mul]
  omega

variable [Environment ε]

theorem dispatchesLeft_finish_le (e : Engine ε) (ending : Ending) :
    (e.finish ending).2.dispatchesLeft ≤ e.dispatchesLeft := by
  unfold dispatchesLeft
  rw [budget_finish, routines_finish, stack_finish]
  simp [commandsAhead]

theorem dispatchesLeft_leave_le {e : Engine ε} {top : Invocation} {below : List Invocation}
    (hs : e.stack = top :: below) : (e.leave top below).dispatchesLeft ≤ e.dispatchesLeft := by
  have hleave : (e.leave top below).dispatchesLeft
      = e.budget.toNat * e.routines.longest + commandsAhead e.routines below := by
    unfold leave
    cases top.caller <;> rfl
  rw [hleave]
  unfold dispatchesLeft
  rw [hs, commandsAhead]
  omega

theorem dispatchesLeft_going {e e' : Engine ε} (h : e.step = .going e') :
    e'.dispatchesLeft + (if e.dispatches then 1 else 0) ≤ e.dispatchesLeft := by
  have move := e.move_step
  rw [h] at move
  cases move with
  | returned _ _ hs hn =>
    rw [dispatches_eq_false (fetched?_of_command?_none hs hn)]
    exact dispatchesLeft_leave_le hs
  | passedOver hf _ _ =>
    rw [dispatches_of_fetches hf]
    exact Nat.le_of_eq (dispatchesLeft_past hf _)
  | next hf _ _ _ =>
    rw [dispatches_of_fetches hf]
    exact Nat.le_of_eq (dispatchesLeft_past hf _)
  | @gate top below _ isOpen hf _ _ _ =>
    have hpast := dispatchesLeft_past hf e.workspace
    have hgate := dispatchesLeft_setGate (e.past top below e.workspace) isOpen
    rw [dispatches_of_fetches hf]
    change ((e.past top below e.workspace).setGate isOpen).dispatchesLeft + 1 ≤ _
    omega
  | @enters top below command hf _ _ hb _ =>
    have hpast := dispatchesLeft_past hf e.workspace
    have hentered : ((e.past top below e.workspace).entered command).dispatchesLeft
      ≤ (e.past top below e.workspace).dispatchesLeft :=
      dispatchesLeft_entered (e := e.past top below e.workspace) hb command
    rw [dispatches_of_fetches hf, if_pos rfl]
    omega

theorem dispatchesLeft_halted {e e' : Engine ε} {standing : Standing}
    (h : e.step = .halted standing e') :
    e'.dispatchesLeft + (if e.dispatches then 1 else 0) ≤ e.dispatchesLeft := by
  have move := e.move_step
  rw [h] at move
  cases move with
  | cancelled hc =>
    rw [dispatches_eq_false (fetched?_of_cancelled hc)]
    exact dispatchesLeft_finish_le e _
  | broken _ hq =>
    rw [dispatches_eq_false (fetched?_of_quit hq)]
    exact dispatchesLeft_finish_le e _
  | completed _ _ hs =>
    rw [dispatches_eq_false (fetched?_of_stack_nil hs)]
    exact dispatchesLeft_finish_le e _
  | @waits top below command prompt w hf _ _ _ =>
    rw [dispatches_of_fetches hf]
    exact Nat.le_of_eq (dispatchesLeft_past hf w)
  | @stops top below command ending w hf _ _ _ _ =>
    have hpast := dispatchesLeft_past hf w
    have hfinish := dispatchesLeft_finish_le ((e.past top below w).observe command) ending
    change _ ≤ (e.past top below w).dispatchesLeft at hfinish
    rw [dispatches_of_fetches hf, if_pos rfl]
    omega
  | @exhausted top below command hf _ _ _ =>
    have hpast := dispatchesLeft_past hf e.workspace
    have hspent := dispatchesLeft_spent_le (e.past top below e.workspace)
    have hfinish := dispatchesLeft_finish_le
      ((e.past top below e.workspace).spent.observe command) .callDepthExceeded
    change _ ≤ (e.past top below e.workspace).spent.dispatchesLeft at hfinish
    rw [dispatches_of_fetches hf, if_pos rfl]
    omega
  | @missing top below command hf _ _ _ _ =>
    have hpast := dispatchesLeft_past hf e.workspace
    have hspent := dispatchesLeft_spent_le (e.past top below e.workspace)
    have hfinish := dispatchesLeft_finish_le
      ((e.past top below e.workspace).spent.observe command) (.routineNotFound command.argument)
    change _ ≤ (e.past top below e.workspace).spent.dispatchesLeft at hfinish
    rw [dispatches_of_fetches hf, if_pos rfl]
    omega

theorem dispatches_of_waiting {e e' : Engine ε} {prompt : Text}
    (h : e.step = .halted (.waiting prompt) e') : e.dispatches = true := by
  have move := e.move_step
  rw [h] at move
  cases move with
  | waits hf _ _ _ => exact dispatches_of_fetches hf

/-- The commands of a leg come off the commands that are left. -/
theorem countP_dispatches_course (e : Engine ε) :
    e.course.countP dispatches + e.carryOn.2.dispatchesLeft ≤ e.dispatchesLeft := by
  fun_induction carryOn e with
  | case1 e e' h ih =>
    have hstep := dispatchesLeft_going h
    rw [course_of_going h, List.countP_cons]
    omega
  | case2 e standing e' h =>
    have hstep := dispatchesLeft_halted h
    rw [course_of_halted h, List.countP_singleton, Nat.add_comm]
    exact hstep

/-- A leg asks one question at most, which is a command of its own. -/
theorem length_prompts_le (e : Engine ε) :
    (Reply.standing e.carryOn.1).prompts.length ≤ e.course.countP dispatches := by
  fun_induction carryOn e with
  | case1 e e' h ih =>
    rw [course_of_going h, List.countP_cons]
    omega
  | case2 e standing e' h =>
    cases standing with
    | ended ending => exact Nat.zero_le _
    | waiting prompt =>
      rw [course_of_halted h, List.countP_singleton, dispatches_of_waiting h]
      exact Nat.le_refl 1

theorem countP_dispatches_underWay {e : Engine ε} (he : e.Settled) {calls : List Call}
    (h : e.UnderWay calls) :
    (e.courseOfAll calls).countP dispatches ≤ e.dispatchesLeft ∧
      ((e.callAll calls).1.flatMap Reply.prompts).length
        ≤ (e.courseOfAll calls).countP dispatches := by
  refine UnderWay.induction (motive := fun e visited replies _ =>
    visited.countP dispatches ≤ e.dispatchesLeft ∧
      (replies.flatMap Reply.prompts).length ≤ visited.countP dispatches) ?_ ?_ ?_ he h
  · intro e _
    exact ⟨Nat.zero_le _, Nat.le_refl 0⟩
  · intro e _ workspace visited replies _ _ _ _ _ hprompts ih
    rw [List.flatMap_cons, hprompts]
    exact ih
  · intro e command input visited replies _ _ _ _ ih
    have hcourse := countP_dispatches_course (e.deliver command input)
    have hprompts := length_prompts_le (e.deliver command input)
    have hleft : (e.deliver command input).dispatchesLeft = e.dispatchesLeft := rfl
    rw [List.countP_append, List.flatMap_cons, List.length_append]
    omega

theorem countP_dispatches_run {e : Engine ε} {routine : Text} {rest : List Call}
    (h : e.IsRun (.run routine :: rest)) :
    (e.courseOfAll (.run routine :: rest)).countP dispatches
        ≤ (e.settings.callDepthBudget + 1) * e.routines.longest ∧
      ((e.callAll (.run routine :: rest)).1.flatMap Reply.prompts).length
        ≤ (e.courseOfAll (.run routine :: rest)).countP dispatches := by
  refine IsRun.induction (motive := fun visited replies _ =>
    visited.countP dispatches ≤ (e.settings.callDepthBudget + 1) * e.routines.longest ∧
      (replies.flatMap Reply.prompts).length ≤ visited.countP dispatches) h ?_ ?_
  · exact ⟨Nat.zero_le _, Nat.le_refl 0⟩
  · intro start hstart heq hway
    -- One sum over the leg up to the first prompt and over all that the other calls do.
    have hcourse := countP_dispatches_course start
    have hprompts := length_prompts_le start
    have hbegun := e.dispatchesLeft_begun_le routine
    have hrest := countP_dispatches_underWay hstart.stands.settled hway
    rw [← heq] at hbegun
    rw [List.countP_append, List.flatMap_cons, List.length_append]
    omega

/-- Every leg of a run ends, and all its legs together carry out no more commands than the longest
routine has, for the routine that the run begins with and for each jump; no more often does the run
ask. -/
theorem run_ends :
    (∀ e : Engine ε, ∃ n ≤ e.weight + 1, e.loop n = some e.carryOn) ∧
      ∀ (e : Engine ε) (calls : List Call), e.IsRun calls →
        (e.courseOfAll calls).countP dispatches
            ≤ (e.settings.callDepthBudget + 1) * e.routines.longest ∧
          ((e.callAll calls).1.flatMap Reply.prompts).length
            ≤ (e.settings.callDepthBudget + 1) * e.routines.longest := by
  refine ⟨fun e => ⟨_, length_course_le e, loop_length_course e⟩, ?_⟩
  intro e calls h
  obtain ⟨routine, rest, hrun, hcourse, hprompts, _⟩ := h.exists_run
  have hbound := countP_dispatches_run hrun
  rw [hcourse, hprompts]
  omega

def insistent : Engine Bench :=
  ((idle { callDepthBudget := 2 } Bench.fresh).load
    [['J', 'a'], [':', 'a'], ['U', 'q'], ['J', 'a']]).2

theorem run_ends_insistent :
    insistent.IsRun [.run [], .resume ['x']] ∧
      (insistent.courseOfAll [.run [], .resume ['x']]).countP dispatches ≤ 6 ∧
      ((insistent.callAll [.run [], .resume ['x']]).1.flatMap Reply.prompts).length ≤ 6 := by
  obtain ⟨prompt, first, hfirst, hwaits⟩ : ∃ prompt first,
      loop 2 { insistent.begun with stack := [{ routine := [] }] }
        = some (.waiting prompt, first) ∧ first.isWaiting = true :=
    ⟨_, _, rfl, rfl⟩
  have hrun : insistent.IsRun [.run [], .resume ['x']] := by
    refine ⟨rfl, ?_⟩
    rw [call_run_of_contains rfl (by decide), carryOn_eq_of_loop hfirst]
    exact ⟨hwaits, trivial⟩
  exact ⟨hrun, run_ends.2 insistent _ hrun⟩

end Engine
end BenchScript
