import BenchScript.Proofs.Record
import BenchScript.Proofs.Runs

set_option autoImplicit false

namespace BenchScript
namespace Engine

variable {ε : Type}

def takesJump (e : Engine ε) : Bool :=
  match e.fetched? with
  | some (top, command) => top.gateOpen && command.action == .jump
  | none => false

def jumpCost (e : Engine ε) : Nat := if e.takesJump then 1 else 0

theorem takesJump_eq_false {e : Engine ε} (h : e.fetched? = none) : e.takesJump = false := by
  unfold takesJump
  rw [h]

theorem jumpCost_of_not_takesJump {e : Engine ε} (h : e.takesJump = false) : e.jumpCost = 0 := by
  unfold jumpCost
  rw [h]
  rfl

theorem Fetches.takesJump_eq {e : Engine ε} {top : Invocation} {below : List Invocation}
    {command : Command} (h : e.Fetches top below command) :
    e.takesJump = (top.gateOpen && command.action == .jump) := by
  unfold takesJump
  rw [h.fetched?_eq]

theorem Fetches.jumpCost_of_jump {e : Engine ε} {top : Invocation} {below : List Invocation}
    {command : Command} (h : e.Fetches top below command) (hg : top.gateOpen = true)
    (ha : command.action = .jump) : e.jumpCost = 1 := by
  unfold jumpCost
  rw [h.takesJump_eq, hg, ha]
  rfl

theorem Fetches.jumpCost_of_gate {e : Engine ε} {top : Invocation} {below : List Invocation}
    {command : Command} (h : e.Fetches top below command) (hg : top.gateOpen = false) :
    e.jumpCost = 0 := by
  refine jumpCost_of_not_takesJump ?_
  rw [h.takesJump_eq, hg]
  rfl

theorem Fetches.jumpCost_of_ne {e : Engine ε} {top : Invocation} {below : List Invocation}
    {command : Command} (h : e.Fetches top below command) (ha : command.action ≠ .jump) :
    e.jumpCost = 0 := by
  refine jumpCost_of_not_takesJump ?_
  rw [h.takesJump_eq, beq_eq_false_iff_ne.2 ha, Bool.and_false]

/-- Going through these engines, the budget falls to what is left by the jumps that they take. -/
def Spends (budget : Int) : List (Engine ε) → Int → Prop
  | [], left => left = budget
  | e :: rest, left => e.budget = budget ∧ Spends (budget - e.jumpCost) rest left

theorem Spends.append {budget middle left : Int} {first second : List (Engine ε)}
    (h : Spends budget first middle) (h' : Spends middle second left) :
    Spends budget (first ++ second) left := by
  induction first generalizing budget with
  | nil =>
    have hmiddle : middle = budget := h
    rw [hmiddle] at h'
    exact h'
  | cons e rest ih => exact ⟨h.1, ih h.2⟩

theorem Spends.left_eq {budget left : Int} {visited : List (Engine ε)}
    (h : Spends budget visited left) : left = budget - visited.countP takesJump := by
  induction visited generalizing budget with
  | nil =>
    have hleft : left = budget := h
    simp [hleft]
  | cons e rest ih =>
    have hrest := ih h.2
    rw [List.countP_cons, hrest]
    unfold jumpCost
    push_cast
    omega

theorem Spends.budget_eq {budget left : Int} {before after : List (Engine ε)} {here : Engine ε}
    (h : Spends budget (before ++ here :: after) left) :
    here.budget = budget - before.countP takesJump := by
  induction before generalizing budget with
  | nil =>
    have hhere : here.budget = budget := h.1
    simp [hhere]
  | cons e rest ih =>
    have hrest := ih h.2
    rw [List.countP_cons, hrest]
    unfold jumpCost
    push_cast
    omega

variable [Environment ε]

theorem budget_going {e e' : Engine ε} (h : e.step = .going e') :
    e'.budget = e.budget - e.jumpCost := by
  have move := e.move_step
  rw [h] at move
  cases move with
  | @returned top below _ _ hs hn =>
    rw [jumpCost_of_not_takesJump (takesJump_eq_false (fetched?_of_command?_none hs hn)),
      budget_leave]
    exact (Int.sub_zero _).symm
  | passedOver hf hg _ =>
    rw [hf.jumpCost_of_gate hg]
    exact (Int.sub_zero _).symm
  | next hf _ ha _ =>
    rw [hf.jumpCost_of_ne ha]
    exact (Int.sub_zero _).symm
  | gate hf _ ha _ =>
    rw [hf.jumpCost_of_ne (by simp [ha])]
    exact (Int.sub_zero _).symm
  | enters hf hg ha _ _ =>
    rw [hf.jumpCost_of_jump hg ha]
    rfl

theorem budget_halted {e e' : Engine ε} {standing : Standing}
    (h : e.step = .halted standing e') : e'.budget = e.budget - e.jumpCost := by
  have move := e.move_step
  rw [h] at move
  cases move with
  | cancelled hc =>
    rw [jumpCost_of_not_takesJump (takesJump_eq_false (fetched?_of_cancelled hc)), budget_finish]
    exact (Int.sub_zero _).symm
  | broken _ hq =>
    rw [jumpCost_of_not_takesJump (takesJump_eq_false (fetched?_of_quit hq)), budget_finish]
    exact (Int.sub_zero _).symm
  | completed _ _ hs =>
    rw [jumpCost_of_not_takesJump (takesJump_eq_false (fetched?_of_stack_nil hs)), budget_finish]
    exact (Int.sub_zero _).symm
  | waits hf _ ha _ =>
    rw [hf.jumpCost_of_ne (by simp [ha])]
    exact (Int.sub_zero _).symm
  | stops hf _ ha _ _ =>
    rw [hf.jumpCost_of_ne ha, budget_finish]
    exact (Int.sub_zero _).symm
  | exhausted hf hg ha _ =>
    rw [hf.jumpCost_of_jump hg ha, budget_finish]
    rfl
  | missing hf hg ha _ _ =>
    rw [hf.jumpCost_of_jump hg ha, budget_finish]
    rfl

theorem spends_course (e : Engine ε) : Spends e.budget e.course e.carryOn.2.budget := by
  fun_induction carryOn e with
  | case1 e e' h ih =>
    rw [course_of_going h]
    rw [budget_going h] at ih
    exact ⟨rfl, ih⟩
  | case2 e standing e' h =>
    rw [course_of_halted h]
    exact ⟨rfl, budget_halted h⟩

def enters (e : Engine ε) : Bool :=
  match e.step with
  | .going e' => e.stack.length < e'.stack.length
  | .halted _ _ => false

theorem enters_of_halted {e e' : Engine ε} {standing : Standing}
    (h : e.step = .halted standing e') : e.enters = false := by
  unfold enters
  rw [h]

omit [Environment ε] in
theorem length_stack_setGate (e : Engine ε) (isOpen : Bool) :
    (e.setGate isOpen).stack.length = e.stack.length := by
  unfold setGate
  split
  · rfl
  · next top below hs =>
    rw [hs]
    rfl

/-- Routines are entered by jumps only, and each costs a jump that was left. -/
theorem enters_going {e e' : Engine ε} (he : e.Ready) (h : e.step = .going e') :
    e'.budget.toNat + (if e.enters then 1 else 0) ≤ e.budget.toNat := by
  have hbudget := budget_going h
  have henters : e.enters = decide (e.stack.length < e'.stack.length) := by
    unfold enters
    rw [h]
  -- Where no routine is put on the stack there is nothing to pay.
  have hkept (hlength : e'.stack.length ≤ e.stack.length) :
      e'.budget.toNat + (if e.enters then 1 else 0) ≤ e.budget.toNat := by
    have hnone : e.enters = false := by
      rw [henters]
      exact decide_eq_false (Nat.not_lt.2 hlength)
    rw [hnone]
    simp only [Bool.false_eq_true, if_false]
    omega
  have hready := he.going h
  have move := e.move_step
  rw [h] at move
  cases move with
  | @returned top below _ _ hs _ =>
    refine hkept ?_
    rw [stack_leave, hs]
    exact Nat.le_succ _
  | passedOver hf _ _ =>
    refine hkept ?_
    rw [hf.stack]
    exact Nat.le_refl _
  | next hf _ _ _ =>
    refine hkept ?_
    rw [hf.stack]
    exact Nat.le_refl _
  | @gate top below _ isOpen hf _ _ _ =>
    refine hkept ?_
    have hgate := length_stack_setGate (e.past top below e.workspace) isOpen
    change ((e.past top below e.workspace).setGate isOpen).stack.length ≤ _
    rw [hgate, hf.stack]
    exact Nat.le_refl _
  | enters hf hg ha _ _ =>
    have hcost := hf.jumpCost_of_jump hg ha
    have hleft := hready.budget
    rw [hcost] at hbudget
    split <;> omega

theorem countP_enters_course {e : Engine ε} (h : e.OnCourse) :
    e.carryOn.2.budget.toNat + e.course.countP enters ≤ e.budget.toNat := by
  fun_induction carryOn e with
  | case1 e e' hs ih =>
    have hrest := ih (h.going hs)
    have hstep := enters_going h.toReady hs
    rw [course_of_going hs, List.countP_cons]
    omega
  | case2 e standing e' hs =>
    have hbudget := budget_halted hs
    rw [course_of_halted hs, List.countP_singleton, enters_of_halted hs]
    simp only [Bool.false_eq_true, if_false]
    omega

/-- A leg ends for want of jumps exactly if it leaves less than none. -/
theorem exceeded_halted {e e' : Engine ε} {standing : Standing} (he : e.Ready)
    (h : e.step = .halted standing e') :
    standing = .ended .callDepthExceeded ↔ e'.budget < 0 := by
  have hbudget := budget_halted h
  have hleft := he.budget
  have hother (hne : standing ≠ .ended .callDepthExceeded) (hb : 0 ≤ e'.budget) :
      standing = .ended .callDepthExceeded ↔ e'.budget < 0 :=
    ⟨fun heq => absurd heq hne, fun hlt => absurd hb (Int.not_le.2 hlt)⟩
  have move := e.move_step
  rw [h] at move
  cases move with
  | cancelled | broken | completed =>
    refine hother (by simp) ?_
    rw [budget_finish]
    exact hleft
  | waits => exact hother (by simp) hleft
  | stops _ _ _ hend _ =>
    refine hother ?_ ?_
    · rcases hend with rfl | ⟨message, rfl⟩ | ⟨message, rfl⟩ <;> simp
    · rw [budget_finish]
      exact hleft
  | exhausted hf hg ha hb =>
    rw [hf.jumpCost_of_jump hg ha] at hbudget
    refine ⟨fun _ => ?_, fun _ => rfl⟩
    omega
  | missing hf hg ha hb _ =>
    rw [hf.jumpCost_of_jump hg ha] at hbudget
    refine hother (by simp) ?_
    omega

theorem exceeded_carryOn {e : Engine ε} (h : e.OnCourse) :
    (e.carryOn.1 = .ended .callDepthExceeded ↔ e.carryOn.2.budget < 0) ∧
      -1 ≤ e.carryOn.2.budget := by
  obtain ⟨last, hlast, hhalt⟩ := carryOn_eq_of_course h fun _ _ he hs => he.going hs
  have hbudget := budget_halted hhalt
  have hleft := hlast.budget
  have hcost : last.jumpCost ≤ 1 := by
    unfold jumpCost
    split <;> omega
  exact ⟨exceeded_halted hlast.toReady hhalt, by omega⟩

/-- The account of what is left of a run: what it spends, how it may end, how often it enters. -/
structure Account (budget : Int) (visited : List (Engine ε)) (replies : List Reply)
    (after : Engine ε) : Prop where
  spends : Spends budget visited after.budget
  -- One jump too many may have been tried, and it was the last.
  floor : -1 ≤ after.budget
  exceeded : (budget < 0 ∨ .callDepthExceeded ∈ replies.filterMap Reply.ending?) ↔
    after.budget < 0
  entered : after.budget.toNat + visited.countP enters ≤ budget.toNat

theorem Account.leg {start : Engine ε} {visited : List (Engine ε)} {replies : List Reply}
    {after : Engine ε} (hstart : start.OnCourse)
    (h : Account start.carryOn.2.budget visited replies after) :
    Account start.budget (start.course ++ visited) (.standing start.carryOn.1 :: replies)
      after := by
  obtain ⟨hexceeded, _⟩ := exceeded_carryOn hstart
  have hentered := countP_enters_course hstart
  have hrest := h.entered
  refine ⟨start.spends_course.append h.spends, h.floor, ?_, ?_⟩
  · have hbudget := hstart.budget
    have hnever : ¬ start.budget < 0 := Int.not_lt.2 hbudget
    rw [← h.exceeded, ← hexceeded]
    cases hs : start.carryOn.1 with
    | waiting prompt => simp [Reply.ending?, hnever]
    | ended ending => simp [Reply.ending?, hnever, eq_comm]
  · rw [List.countP_append]
    omega

theorem UnderWay.account {e : Engine ε} (he : e.Settled) (hb : -1 ≤ e.budget)
    {calls : List Call} (h : e.UnderWay calls) :
    Account e.budget (e.courseOfAll calls) (e.callAll calls).1 (e.callAll calls).2 := by
  refine UnderWay.induction (motive := fun e visited replies after =>
    -1 ≤ e.budget → Account e.budget visited replies after) ?_ ?_ ?_ he h hb
  · intro e _ hb
    exact ⟨rfl, hb, by simp, Nat.le_refl _⟩
  · intro e _ workspace visited replies after _ _ _ hend _ ih hb
    have hrest := ih hb
    refine ⟨hrest.spends, hrest.floor, ?_, hrest.entered⟩
    rw [List.filterMap_cons_none hend]
    exact hrest.exceeded
  · intro e command input visited replies after _ _ hcourse ih _
    exact Account.leg hcourse (ih (exceeded_carryOn hcourse).2)

theorem account_run {e : Engine ε} {routine : Text} {rest : List Call}
    (h : e.IsRun (.run routine :: rest)) :
    Account e.settings.callDepthBudget (e.courseOfAll (.run routine :: rest))
      (e.callAll (.run routine :: rest)).1 (e.callAll (.run routine :: rest)).2 := by
  -- A run that cannot begin spends nothing; any other begins with the whole budget.
  refine IsRun.induction (motive := fun visited replies after =>
    Account e.settings.callDepthBudget visited replies after) h ?_ ?_
  · have hbudget : (e.begun.finish (.routineNotFound routine)).2.budget
        = e.settings.callDepthBudget := by
      rw [budget_finish]
      rfl
    refine ⟨hbudget, by omega, ?_, ?_⟩
    · rw [hbudget]
      simp [Reply.ending?]
    · rw [hbudget]
      exact Nat.le_refl _
  · intro start hstart heq hway
    have hfloor := (exceeded_carryOn hstart).2
    have hbudget : start.budget = e.settings.callDepthBudget := by
      rw [heq]
      rfl
    rw [← hbudget]
    exact (hway.account hstart.stands.settled hfloor).leg hstart

omit [Environment ε] in
theorem Settled.length_stack_le {e : Engine ε} (h : e.Settled) :
    e.stack.length ≤ e.settings.callDepthBudget + 1 := by
  rcases h with h | h
  · rw [h.stack]
    exact Nat.zero_le _
  · exact Nat.le_trans (Nat.le_add_right _ _) h.room

omit [Environment ε] in
theorem OnCourse.length_stack_le {e : Engine ε} (h : e.OnCourse) :
    e.stack.length ≤ e.settings.callDepthBudget + 1 := by
  have hroom := h.room
  have hbudget := h.budget
  omega

theorem budget_abandon (e : Engine ε) : e.abandon.budget = e.budget := by
  unfold abandon
  rw [budget_finish]

theorem IsRun.account {e : Engine ε} {calls : List Call} (h : e.IsRun calls) :
    Account e.settings.callDepthBudget (e.courseOfAll calls) (e.callAll calls).1
      (e.callAll calls).2 := by
  obtain ⟨routine, rest, hrun, hcourse, _, hend⟩ := h.exists_run
  have haccount := account_run hrun
  rw [hcourse]
  rcases hend with ⟨hendings, heq⟩ | ⟨hcancelled, hnone, _, heq⟩
  · have hexceeded := haccount.exceeded
    rw [← hendings] at hexceeded
    rw [heq]
    exact ⟨haccount.spends, haccount.floor, hexceeded, haccount.entered⟩
  · -- The run that is given up waits, so it has not ended for want of jumps either.
    have hexceeded := haccount.exceeded
    rw [hnone] at hexceeded
    have hbudget := budget_abandon (e.callAll (.run routine :: rest)).2
    rw [heq]
    refine ⟨?_, ?_, ?_, ?_⟩
    · rw [hbudget]
      exact haccount.spends
    · rw [hbudget]
      exact haccount.floor
    · rw [hbudget, hcancelled, ← hexceeded]
      simp
    · rw [hbudget]
      exact haccount.entered

theorem Account.exceeded_iff {budget : Nat} {visited : List (Engine ε)} {replies : List Reply}
    {after : Engine ε} (h : Account budget visited replies after) :
    .callDepthExceeded ∈ replies.filterMap Reply.ending? ↔
      budget < visited.countP takesJump := by
  have hleft := h.spends.left_eq
  have hbelow := h.exceeded
  constructor
  · intro hmem
    have hlt := hbelow.1 (Or.inr hmem)
    omega
  · intro hlt
    rcases hbelow.2 (by omega) with hneg | hmem
    · omega
    · exact hmem

/-- The budget is exact and shared by all routines of a run: it is what the run began with, less the
jumps tried since, and the run ends for want of jumps exactly if it tries one more than it has. -/
theorem budget_of_isRun {e : Engine ε} {calls : List Call} (h : e.IsRun calls) :
    let budget := e.settings.callDepthBudget
    let visited := e.courseOfAll calls
    let after := (e.callAll calls).2
    (∀ before here rest, visited = before ++ here :: rest →
        here.budget = (budget : Int) - before.countP takesJump ∧
          here.jumpsLeft = budget - before.countP takesJump ∧
          0 ≤ here.budget ∧ here.stack.length ≤ budget + 1) ∧
      after.budget = (budget : Int) - visited.countP takesJump ∧
      after.jumpsLeft = budget - visited.countP takesJump ∧
      -1 ≤ after.budget ∧ after.stack.length ≤ budget + 1 ∧
      (.callDepthExceeded ∈ (e.callAll calls).1.filterMap Reply.ending? ↔
        budget < visited.countP takesJump) ∧
      visited.countP enters ≤ budget := by
  intro budget visited after
  have haccount := h.account
  have hkeeps := h.keeps
  have hleft : after.budget = (budget : Int) - visited.countP takesJump := haccount.spends.left_eq
  have hfloor : -1 ≤ after.budget := haccount.floor
  have hstack := hkeeps.settled.length_stack_le
  rw [hkeeps.left.settings] at hstack
  refine ⟨?_, hleft, ?_, hfloor, hstack, haccount.exceeded_iff, ?_⟩
  · intro before here rest hsplit
    have hspends := haccount.spends
    change e.courseOfAll calls = _ at hsplit
    rw [hsplit] at hspends hkeeps
    have hbudget : here.budget = (budget : Int) - before.countP takesJump := hspends.budget_eq
    have hhere := hkeeps.onCourse here (by simp)
    have hlength := hhere.length_stack_le
    rw [(hkeeps.script here (by simp)).settings] at hlength
    refine ⟨hbudget, ?_, hhere.budget, hlength⟩
    unfold jumpsLeft
    omega
  · unfold jumpsLeft
    omega
  · have hentered : after.budget.toNat + visited.countP enters ≤ (budget : Int).toNat :=
      haccount.entered
    omega

def spinning : Engine Bench :=
  ((idle { callDepthBudget := 2 } Bench.fresh).load [['J', 'a'], [':', 'a'], ['J', 'a']]).2

theorem budget_spinning :
    spinning.IsRun [.run []] ∧
      .callDepthExceeded ∈ (spinning.callAll [.run []]).1.filterMap Reply.ending? ∧
      2 < (spinning.courseOfAll [.run []]).countP takesJump ∧
      (spinning.callAll [.run []]).2.budget = -1 ∧
      (spinning.callAll [.run []]).2.jumpsLeft = 0 := by
  have hrun : spinning.IsRun [.run []] := ⟨rfl, trivial⟩
  obtain ⟨last, hlast⟩ : ∃ last, loop 3 { spinning.begun with stack := [{ routine := [] }] }
      = some (.ended .callDepthExceeded, last) :=
    ⟨_, rfl⟩
  have hmem : .callDepthExceeded ∈ (spinning.callAll [.run []]).1.filterMap Reply.ending? := by
    rw [callAll_cons, call_run_of_contains rfl (by decide), carryOn_eq_of_loop hlast]
    exact List.mem_singleton.2 rfl
  obtain ⟨-, hafter, hleft, hfloor, -, hexceeded, -⟩ := budget_of_isRun hrun
  have hbudget : spinning.settings.callDepthBudget = 2 := rfl
  have hcount := hexceeded.1 hmem
  rw [hbudget] at hafter hleft hcount
  exact ⟨hrun, hmem, hcount, by omega, by omega⟩

end Engine
end BenchScript
