import BenchScript.Proofs.Course
import BenchScript.Proofs.Record

set_option autoImplicit false

/-!
# Engines between calls

Between two calls an engine is either at rest or suspended. `Suspended` says what its stack looks
like then: every routine under way has just left a jump behind that led to the one above it, and the
innermost one has just left the question behind that waits for an answer.
-/
namespace BenchScript

def JustPast (table : Routines) (frame : Invocation) (command : Command) : Prop :=
  1 ≤ frame.position ∧ table.command? frame.routine (frame.position - 1) = some command

/-- The upper routine was entered by a jump that the lower one made behind an open gate. -/
def EnteredFrom (table : Routines) (upper lower : Invocation) : Prop :=
  lower.gateOpen = true ∧ ∃ jump, upper.caller = some jump ∧ jump.action = .jump ∧
    jump.argument = upper.routine ∧ JustPast table lower jump

def Linked (table : Routines) : List Invocation → Prop
  | [] => True
  | [bottom] => bottom.caller = none
  | upper :: lower :: below => EnteredFrom table upper lower ∧ Linked table (lower :: below)

theorem justPast_succ {table : Routines} {top : Invocation} {command : Command}
    (h : table.command? top.routine top.position = some command) :
    JustPast table { top with position := top.position + 1 } command :=
  ⟨Nat.le_add_left 1 _, h⟩

theorem JustPast.placed {table : Routines} {frame : Invocation} {command : Command}
    (h : JustPast table frame command) :
    ∃ commands, table.get? frame.routine = some commands ∧ 1 ≤ frame.position ∧
      frame.position ≤ commands.length := by
  obtain ⟨hpos, hget⟩ := h
  unfold Routines.command? at hget
  obtain ⟨commands, hcommands, hat⟩ := Option.bind_eq_some_iff.1 hget
  obtain ⟨hlt, _⟩ := List.getElem?_eq_some_iff.1 hat
  exact ⟨commands, hcommands, hpos, by omega⟩

namespace Linked

variable {table : Routines} {top : Invocation} {below : List Invocation}

theorem of_top {top' : Invocation} (h : Linked table (top :: below))
    (hr : top'.routine = top.routine) (hc : top'.caller = top.caller) :
    Linked table (top' :: below) := by
  cases below with
  | nil => exact hc.trans h
  | cons lower below =>
    obtain ⟨⟨hgate, jump, hcaller, ha, harg, hpast⟩, hlinked⟩ := h
    exact ⟨⟨hgate, jump, hc.trans hcaller, ha, harg.trans hr.symm, hpast⟩, hlinked⟩

theorem tail (h : Linked table (top :: below)) : Linked table below := by
  cases below with
  | nil => exact trivial
  | cons lower below => exact h.2

theorem push {command : Command} (h : Linked table (top :: below)) (hg : top.gateOpen = true)
    (ha : command.action = .jump) (hp : JustPast table top command) :
    Linked table ({ routine := command.argument, caller := some command } :: top :: below) :=
  ⟨⟨hg, command, rfl, ha, rfl, hp⟩, h⟩

theorem justPast_of_mem (h : Linked table (top :: below)) :
    ∀ frame ∈ below, ∃ jump, JustPast table frame jump := by
  induction below generalizing top with
  | nil => simp
  | cons lower below ih =>
    obtain ⟨⟨_, jump, _, _, _, hpast⟩, hlinked⟩ := h
    intro frame hframe
    rcases List.mem_cons.1 hframe with rfl | hframe
    · exact ⟨jump, hpast⟩
    · exact ih hlinked frame hframe

end Linked

namespace Engine

variable {ε : Type}

structure AtRest (e : Engine ε) : Prop where
  pending : e.pending = none
  stack : e.stack = []

structure OnCourse (e : Engine ε) : Prop extends e.Ready where
  answered : e.pending = none
  linked : Linked e.routines e.stack
  room : e.stack.length + e.budget ≤ e.settings.callDepthBudget + 1

structure Suspended (e : Engine ε) : Prop extends e.Ready where
  question : ∃ top below command, e.stack = top :: below ∧ top.gateOpen = true ∧
    e.pending = some command ∧ command.action = .ask ∧ JustPast e.routines top command
  placed : ∀ frame ∈ e.stack, ∃ commands, e.routines.get? frame.routine = some commands ∧
    1 ≤ frame.position ∧ frame.position ≤ commands.length
  linked : Linked e.routines e.stack
  room : e.stack.length + e.jumpsLeft ≤ e.settings.callDepthBudget + 1

theorem AtRest.isWaiting {e : Engine ε} (h : e.AtRest) : e.isWaiting = false := by
  unfold Engine.isWaiting
  rw [h.pending]
  rfl

theorem Suspended.exists_question {e : Engine ε} (h : e.Suspended) :
    ∃ command, e.pending = some command := by
  obtain ⟨_, _, command, _, _, hp, _⟩ := h.question
  exact ⟨command, hp⟩

theorem Suspended.isWaiting {e : Engine ε} (h : e.Suspended) : e.isWaiting = true := by
  obtain ⟨_, hp⟩ := h.exists_question
  unfold Engine.isWaiting
  rw [hp]
  rfl

theorem Suspended.stack_ne_nil {e : Engine ε} (h : e.Suspended) : e.stack ≠ [] := by
  obtain ⟨_, _, _, hs, _⟩ := h.question
  rw [hs]
  exact List.cons_ne_nil _ _

theorem Suspended.withWorkspace {e : Engine ε} (h : e.Suspended) (workspace : Workspace ε) :
    Suspended { e with workspace } :=
  ⟨⟨h.unbroken, h.budget⟩, h.question, h.placed, h.linked, h.room⟩

theorem AtRest.withWorkspace {e : Engine ε} (h : e.AtRest) (workspace : Workspace ε) :
    AtRest { e with workspace } :=
  ⟨h.pending, h.stack⟩

theorem OnCourse.of_top {e e' : Engine ε} {top top' : Invocation} {below : List Invocation}
    (h : e.OnCourse) (hs : e.stack = top :: below) (hs' : e'.stack = top' :: below)
    (hr : top'.routine = top.routine) (hc : top'.caller = top.caller)
    (hsame : (e'.quit, e'.budget, e'.pending, e'.routines, e'.settings)
      = (e.quit, e.budget, e.pending, e.routines, e.settings)) : e'.OnCourse := by
  simp only [Prod.mk.injEq] at hsame
  obtain ⟨hq, hb, hp, ht, hset⟩ := hsame
  have hlinked := h.linked
  have hroom := h.room
  rw [hs] at hlinked hroom
  refine ⟨h.toReady.of_eq hq hb, hp.trans h.answered, ?_, ?_⟩
  · rw [hs', ht]
    exact hlinked.of_top hr hc
  · rw [hs', hb, hset]
    simpa using hroom

theorem onCourse_begun {e : Engine ε} (h : e.isWaiting = false) (routine : Text) :
    OnCourse { e.begun with stack := [{ routine }] } := by
  have hp := pending_eq_none h
  refine ⟨⟨rfl, ?_⟩, hp, rfl, ?_⟩
  · exact Int.natCast_nonneg e.settings.callDepthBudget
  · change ((1 : Nat) : Int) + (e.settings.callDepthBudget : Int) ≤ e.settings.callDepthBudget + 1
    omega

/-- How an engine is left by a call that carried out commands. -/
def Stands (e : Engine ε) : Standing → Prop
  | .waiting _ => e.Suspended
  | .ended ending => e.AtRest ∧ (e.quit = true ↔ ending ≠ .completed)

def Settled (e : Engine ε) : Prop := e.AtRest ∨ e.Suspended

theorem Stands.settled {e : Engine ε} {standing : Standing} (h : e.Stands standing) :
    e.Settled := by
  cases standing with
  | waiting prompt => exact Or.inr h
  | ended ending => exact Or.inl h.1

variable [Environment ε]

theorem OnCourse.going {e e' : Engine ε} (h : e.OnCourse) (hstep : e.step = .going e') :
    e'.OnCourse := by
  have hready := h.toReady.going hstep
  have move := e.move_step
  rw [hstep] at move
  cases move with
  | @returned top below _ _ hs _ =>
    have hlinked := h.linked
    have hroom := h.room
    rw [hs] at hlinked hroom
    rw [List.length_cons] at hroom
    have hscript := sameScript_leave e top below
    refine ⟨hready, (pending_leave e top below).trans h.answered, ?_, ?_⟩
    · rw [stack_leave, hscript.routines]
      exact hlinked.tail
    · rw [stack_leave, budget_leave, hscript.settings]
      omega
  | passedOver hf _ _ => exact h.of_top hf.stack rfl rfl rfl rfl
  | next hf _ _ _ => exact h.of_top hf.stack rfl rfl rfl rfl
  | gate hf _ _ _ => exact h.of_top hf.stack rfl rfl rfl rfl
  | @enters top below command hf hg ha _ _ =>
    have hlinked := h.linked
    have hroom := h.room
    rw [hf.stack] at hlinked hroom
    rw [List.length_cons] at hroom
    -- The jump that is left behind becomes the caller of the routine above it.
    refine ⟨hready, h.answered, ?_, ?_⟩
    · have hpast : Linked e.routines ({ top with position := top.position + 1 } :: below) :=
        hlinked.of_top rfl rfl
      exact hpast.push hg ha (justPast_succ hf.fetched)
    · change ((below.length + 1 + 1 : Nat) : Int) + (e.budget - 1) ≤ e.settings.callDepthBudget + 1
      omega

theorem OnCourse.waiting {e e' : Engine ε} {prompt : Text} (h : e.OnCourse)
    (hstep : e.step = .halted (.waiting prompt) e') : e'.Suspended := by
  have hready := h.toReady.waiting hstep
  have move := e.move_step
  rw [hstep] at move
  cases move with
  | @waits top below command _ w hf hg ha _ =>
    have hlinked := h.linked
    have hroom := h.room
    rw [hf.stack] at hlinked hroom
    have hpast := justPast_succ hf.fetched
    refine ⟨hready, ⟨_, _, command, rfl, hg, rfl, ha, hpast⟩, ?_, ?_, ?_⟩
    · intro frame hframe
      rcases List.mem_cons.1 hframe with rfl | hframe
      · exact hpast.placed
      · obtain ⟨jump, hjump⟩ := hlinked.justPast_of_mem frame hframe
        exact hjump.placed
    · exact hlinked.of_top rfl rfl
    · have hbudget := h.budget
      rw [List.length_cons] at hroom
      change below.length + 1 + e.budget.toNat ≤ e.settings.callDepthBudget + 1
      omega

theorem OnCourse.ended {e e' : Engine ε} {ending : Ending} (h : e.OnCourse)
    (hstep : e.step = .halted (.ended ending) e') :
    e'.AtRest ∧ (e'.quit = true ↔ ending ≠ .completed) := by
  have hpending := h.answered
  have hquit := h.unbroken
  have move := e.move_step
  rw [hstep] at move
  cases move with
  | cancelled | completed | stops | exhausted | missing =>
    refine ⟨⟨by rw [pending_finish]; exact hpending, stack_finish _ _⟩, ?_⟩
    rw [quit_finish]
    simp [spent, past, observe, hquit]
  | broken _ hq =>
    rw [hquit] at hq
    cases hq

theorem OnCourse.stands {e : Engine ε} (h : e.OnCourse) : e.carryOn.2.Stands e.carryOn.1 := by
  obtain ⟨last, hlast, hhalt⟩ := carryOn_eq_of_course h fun _ _ he hs => he.going hs
  cases hs : e.carryOn.1 with
  | waiting prompt =>
    rw [hs] at hhalt
    exact hlast.waiting hhalt
  | ended ending =>
    rw [hs] at hhalt
    exact hlast.ended hhalt

theorem OnCourse.forall_mem {e : Engine ε} (h : e.OnCourse) : ∀ m ∈ e.course, m.OnCourse :=
  forall_mem_course h fun _ _ he hs => he.going hs

theorem Suspended.deliver {e : Engine ε} (h : e.Suspended) (command : Command) (input : Text) :
    (e.deliver command input).OnCourse := by
  have hroom := h.room
  have hbudget := h.budget
  refine ⟨⟨h.unbroken, hbudget⟩, rfl, h.linked, ?_⟩
  unfold jumpsLeft at hroom
  change e.stack.length + e.budget ≤ e.settings.callDepthBudget + 1
  omega

theorem stands_run {e : Engine ε} (h : e.isWaiting = false) (routine : Text) :
    ∃ standing, (e.run routine).1 = .ok standing ∧ (e.run routine).2.Stands standing := by
  have hp := pending_eq_none h
  unfold run
  simp only [h, Bool.false_eq_true, if_false]
  refine ⟨_, rfl, ?_⟩
  split
  · exact (onCourse_begun h routine).stands
  · rw [finish_fst]
    refine ⟨⟨?_, stack_finish _ _⟩, ?_⟩
    · rw [pending_finish]
      exact hp
    · rw [quit_finish]
      simp

theorem Suspended.stands_resume {e : Engine ε} (h : e.Suspended) (input : Text) :
    ∃ standing, (e.resume input).1 = .ok standing ∧ (e.resume input).2.Stands standing := by
  obtain ⟨command, hp⟩ := h.exists_question
  unfold resume
  simp only [hp]
  exact ⟨_, rfl, (h.deliver command input).stands⟩

theorem stands_abandon (e : Engine ε) : e.abandon.Stands (.ended .cancelled) := by
  refine ⟨⟨?_, stack_finish _ _⟩, ?_⟩
  · unfold abandon
    rw [pending_finish]
  · unfold abandon
    rw [quit_finish]
    simp

/-- What became of a run: it ended so in the last of these replies, or it is to be given up because
there is no answer to the prompt that waits. -/
def Concludes (replies : List Reply) (before : Engine ε) (ending : Ending) (after : Engine ε) :
    Prop :=
  (replies.filterMap Reply.ending? = [ending] ∧ after = before) ∨
    (replies.filterMap Reply.ending? = [] ∧ before.isWaiting = true ∧ ending = .cancelled ∧
      after = before.abandon)

/-- A property of runs that answers are prepared for holds if it does of those that have ended and
of those that are left without an answer, and is kept from a leg to the one before it. -/
theorem Stands.induction
    {motive : ∀ (_ : List (Option Text)) (e : Engine ε) standing, e.Stands standing → Prop}
    (ended : ∀ answers (e : Engine ε) ending (h : e.Stands (.ended ending)),
      motive answers e (.ended ending) h)
    (unanswered : ∀ answers (e : Engine ε) prompt (hs : e.Suspended),
      answers.headD none = none → motive answers e (.waiting prompt) hs)
    (answered : ∀ input rest (e : Engine ε) prompt command (hs : e.Suspended),
      e.pending = some command →
      motive rest (e.deliver command input).carryOn.2 (e.deliver command input).carryOn.1
        (hs.deliver command input).stands →
      motive (some input :: rest) e (.waiting prompt) hs)
    (answers : List (Option Text)) (e : Engine ε) (standing : Standing) (h : e.Stands standing) :
    motive answers e standing h := by
  induction answers generalizing e standing with
  | nil =>
    cases standing with
    | ended ending => exact ended [] e ending h
    | waiting prompt => exact unanswered [] e prompt h rfl
  | cons answer rest ih =>
    cases standing with
    | ended ending => exact ended (answer :: rest) e ending h
    | waiting prompt =>
      have hs : e.Suspended := h
      cases answer with
      | none => exact unanswered (none :: rest) e prompt hs rfl
      | some input =>
        obtain ⟨command, hp⟩ := hs.exists_question
        exact answered input rest e prompt command hs hp (ih _ _ _)

theorem answerPrompts_unanswered {answers : List (Option Text)} (h : answers.headD none = none)
    (shown : List Text) (prompt : Text) (e : Engine ε) :
    e.answerPrompts Prepared.source ⟨answers, shown⟩ (.waiting prompt)
      = (.ok .cancelled, e.abandon, ⟨answers.tail, shown ++ [prompt]⟩) := by
  apply answerPrompts_none
  unfold Prepared.source
  rw [h]

theorem answerPrompts_answered {e : Engine ε} {command : Command} (hp : e.pending = some command)
    {input prompt : Text} {rest : List (Option Text)} {shown : List Text} :
    e.answerPrompts Prepared.source ⟨some input :: rest, shown⟩ (.waiting prompt)
      = (e.deliver command input).carryOn.2.answerPrompts Prepared.source
          ⟨rest, shown ++ [prompt]⟩ (e.deliver command input).carryOn.1 :=
  answerPrompts_some hp rfl

theorem courseOfAnswers_unanswered {answers : List (Option Text)}
    (h : answers.headD none = none) (e : Engine ε) : e.courseOfAnswers answers = [] := by
  unfold courseOfAnswers
  split
  · cases h
  · rfl

theorem answerPrompts_prepared (answers : List (Option Text)) (asked : List Text) {e : Engine ε}
    {standing : Standing} (h : e.Stands standing) :
    ∃ inputs : List Text, e.UnderWay (inputs.map .resume) ∧
      e.courseOfAnswers answers = e.courseOfAll (inputs.map .resume) ∧
      ∃ ending after left,
        Concludes (.standing standing :: (e.callAll (inputs.map .resume)).1)
          (e.callAll (inputs.map .resume)).2 ending after ∧
        e.answerPrompts Prepared.source ⟨answers, asked⟩ standing = (.ok ending, after,
          ⟨left, asked ++
            (Reply.standing standing :: (e.callAll (inputs.map .resume)).1).flatMap
              Reply.prompts⟩) ∧
        after.Stands (.ended ending) := by
  induction answers, e, standing, h using Stands.induction generalizing asked with
  | ended answers e ending h =>
    refine ⟨[], trivial, courseOfAnswers_of_none h.1.pending _, ending, e, answers,
      Or.inl ⟨rfl, rfl⟩, ?_, h⟩
    rw [answerPrompts_ended]
    simp [callAll, Reply.prompts]
  | unanswered answers e prompt hs ha =>
    exact ⟨[], trivial, courseOfAnswers_unanswered ha e, .cancelled, e.abandon, answers.tail,
      Or.inr ⟨rfl, hs.isWaiting, rfl, rfl⟩, answerPrompts_unanswered ha asked prompt e,
      stands_abandon e⟩
  | answered input rest e prompt command hs hp ih =>
    obtain ⟨inputs, hway, hcourse, ending, after, left, hend, hrun, hafter⟩ :=
      ih (asked ++ [prompt])
    refine ⟨input :: inputs, ?_, ?_, ending, after, left, ?_, ?_, hafter⟩
    · refine ⟨hs.isWaiting, ?_⟩
      rw [call_resume hp]
      exact hway
    · rw [List.map_cons, courseOfAll, call_resume hp]
      simp only [courseOfAnswers, courseOf, hp, List.append_nil, hcourse]
    · rw [List.map_cons, callAll_cons, call_resume hp]
      exact hend
    · rw [List.map_cons, callAll_cons, call_resume hp, answerPrompts_answered hp, hrun]
      simp [Reply.prompts, List.append_assoc]

/-- To run a routine with prepared answers is to run it and to answer its prompts one by one. -/
theorem call_runAnswered {e : Engine ε} (h : e.isWaiting = false) (routine : Text)
    (answers : List (Option Text)) :
    ∃ inputs : List Text, (e.call (.run routine)).2.UnderWay (inputs.map .resume) ∧
      e.courseOf (.runAnswered routine answers)
        = e.courseOfAll (.run routine :: inputs.map .resume) ∧
      ∃ ending after,
        Concludes (e.callAll (.run routine :: inputs.map .resume)).1
          (e.callAll (.run routine :: inputs.map .resume)).2 ending after ∧
        e.call (.runAnswered routine answers) = (.ended ending
          ((e.callAll (.run routine :: inputs.map .resume)).1.flatMap Reply.prompts), after) ∧
        after.Stands (.ended ending) := by
  obtain ⟨standing, hrun, hs⟩ := stands_run h routine
  obtain ⟨inputs, hway, hcourse, ending, after, left, hend, hanswers, hafter⟩ :=
    answerPrompts_prepared answers [] hs
  have hreply : (e.call (.run routine)).1 = .standing standing := by
    simp only [call, hrun, Reply.ofStanding]
  refine ⟨inputs, hway, ?_, ending, after, ?_, ?_, hafter⟩
  · rw [courseOfAll]
    simp only [courseOf, h, Bool.false_eq_true, if_false]
    rw [hcourse]
    rfl
  · rw [callAll_cons, hreply]
    exact hend
  · have hout := runAnswered_of_run Prepared.source ⟨answers, []⟩ hrun
    rw [callAll_cons, hreply]
    simp only [call, hout, hanswers, List.nil_append]

omit [Environment ε] in
theorem atRest_forget (e : Engine ε) : e.forget.AtRest := ⟨rfl, rfl⟩

theorem AtRest.adopt {e : Engine ε} (h : e.AtRest) (loaded : Except ScriptError Routines) :
    (e.adopt loaded).2.AtRest := by
  cases loaded with
  | ok routines => exact ⟨h.pending, h.stack⟩
  | error error => exact ⟨h.pending, h.stack⟩

theorem AtRest.loadFrom {e : Engine ε} (h : e.isWaiting = false) (path : Text) :
    (e.loadFrom path).2.AtRest := by
  rw [loadFrom_of_not_waiting h]
  exact (e.atRest_forget.withWorkspace _).adopt _

/-- A call leaves an engine settled, and as its reply says if that tells how a run ended. -/
def Leaves (reply : Reply) (e : Engine ε) : Prop :=
  e.Settled ∧ ∀ ending, reply.ending? = some ending → e.Stands (.ended ending)

omit [Environment ε] in
theorem Stands.leaves {e : Engine ε} {standing : Standing} (h : e.Stands standing) :
    Leaves (.standing standing) e := by
  cases standing with
  | waiting prompt => exact ⟨Or.inr h, fun _ hend => by cases hend⟩
  | ended ending =>
    refine ⟨Or.inl h.1, ?_⟩
    intro ending' hend
    cases hend
    exact h

omit [Environment ε] in
theorem Settled.leaves {e : Engine ε} (h : e.Settled) {reply : Reply}
    (hr : reply.ending? = none) : Leaves reply e := by
  refine ⟨h, ?_⟩
  intro ending hend
  rw [hr] at hend
  cases hend

theorem Settled.leaves_call {e : Engine ε} (h : e.Settled) (call : Call) :
    Leaves (e.call call).1 (e.call call).2 := by
  rcases h with h | h
  · have hw := h.isWaiting
    cases call with
    | load lines =>
      simp only [Engine.call, load_of_not_waiting hw]
      exact Settled.leaves (Or.inl (e.atRest_forget.adopt _)) (Reply.ending?_ofUnit _)
    | loadFrom path =>
      exact Settled.leaves (Or.inl (AtRest.loadFrom hw path)) (Reply.ending?_ofUnit _)
    | run routine =>
      obtain ⟨standing, hok, hs⟩ := stands_run hw routine
      simp only [Engine.call, hok, Reply.ofStanding]
      exact hs.leaves
    | resume input =>
      simp only [Engine.call, resume, h.pending]
      exact Settled.leaves (Or.inl h) rfl
    | runAnswered routine answers =>
      obtain ⟨_, _, _, ending, after, _, hcall, hs⟩ := call_runAnswered hw routine answers
      rw [hcall]
      exact hs.leaves
    | cancel | close => exact Settled.leaves (Or.inl (h.withWorkspace _)) rfl
    | sendDigits | sendChecksum =>
      exact Settled.leaves (Or.inl (h.withWorkspace _)) (Reply.ending?_ofUnit _)
  · rcases call_of_waiting h.isWaiting call with ⟨input, rfl⟩ | ⟨⟨workspace, heq⟩, _, hnone, _⟩
    · obtain ⟨standing, hok, hs⟩ := h.stands_resume input
      simp only [Engine.call, hok, Reply.ofStanding]
      exact hs.leaves
    · rw [heq]
      exact Settled.leaves (Or.inr (h.withWorkspace workspace)) hnone

theorem Settled.call {e : Engine ε} (h : e.Settled) (call : Call) : (e.call call).2.Settled :=
  (h.leaves_call call).1

theorem settled_of_isReachable {e : Engine ε} (h : e.IsReachable) : e.Settled :=
  h.induction (fun _ _ _ => Or.inl ⟨rfl, rfl⟩) fun _ call he => he.call call

omit [Environment ε] in
theorem Settled.suspended {e : Engine ε} (h : e.Settled) (hw : e.isWaiting = true) :
    e.Suspended := by
  rcases h with h | h
  · rw [h.isWaiting] at hw
    cases hw
  · exact h

theorem forall_mem_courseOfRun {e : Engine ε} (h : e.isWaiting = false) (routine : Text) :
    ∀ m ∈ e.courseOfRun routine, m.OnCourse := by
  unfold courseOfRun
  simp only [h, Bool.false_eq_true, if_false]
  split
  · exact (onCourse_begun h routine).forall_mem
  · simp

theorem Stands.forall_mem_courseOfAnswers (answers : List (Option Text)) {e : Engine ε}
    {standing : Standing} (h : e.Stands standing) :
    ∀ m ∈ e.courseOfAnswers answers, m.OnCourse := by
  induction answers, e, standing, h using Stands.induction with
  | ended answers e ending h =>
    rw [courseOfAnswers_of_none h.1.pending]
    simp
  | unanswered answers e prompt hs ha =>
    rw [courseOfAnswers_unanswered ha]
    simp
  | answered input rest e prompt command hs hp ih =>
    simp only [courseOfAnswers, hp]
    intro m hm
    rcases List.mem_append.1 hm with hm | hm
    · exact (hs.deliver command input).forall_mem m hm
    · exact ih m hm

theorem Settled.forall_mem_courseOf {e : Engine ε} (h : e.Settled) (call : Call) :
    ∀ m ∈ e.courseOf call, m.OnCourse := by
  rcases h with h | h
  · have hw := h.isWaiting
    cases call with
    | run routine => exact forall_mem_courseOfRun hw routine
    | resume input =>
      change ∀ m ∈ e.courseOfAnswers [some input], m.OnCourse
      rw [courseOfAnswers_of_none h.pending]
      simp
    | runAnswered routine answers =>
      obtain ⟨_, _, hs⟩ := stands_run hw routine
      have hcourse : e.courseOf (.runAnswered routine answers)
          = e.courseOfRun routine ++ (e.run routine).2.courseOfAnswers answers := by
        simp only [courseOf, hw, Bool.false_eq_true, if_false]
      intro m hm
      rw [hcourse] at hm
      rcases List.mem_append.1 hm with hm | hm
      · exact forall_mem_courseOfRun hw routine m hm
      · exact hs.forall_mem_courseOfAnswers answers m hm
    | load | loadFrom | cancel | sendDigits | sendChecksum | close => simp [courseOf]
  · rcases call_of_waiting h.isWaiting call with ⟨input, rfl⟩ | ⟨_, hcourse, _⟩
    · have hs : e.Stands (.waiting []) := h
      exact hs.forall_mem_courseOfAnswers [some input]
    · rw [hcourse]
      simp

/-- Between calls a prompt waits exactly if routines are under way, and they are linked by their
jumps then. No command of a run meets the flag of a broken run, and after a run the flag says
whether the script was left before it was completed. -/
theorem suspension_of_isReachable {e : Engine ε} (h : e.IsReachable) :
    (e.isWaiting = true ↔ e.stack ≠ []) ∧
      (e.isWaiting = true → e.Suspended) ∧
      (∀ call, ∀ m ∈ e.courseOf call, m.quit = false) ∧
      ∀ call ending, (e.call call).1.ending? = some ending →
        ((e.call call).2.quit = true ↔ ending ≠ .completed) := by
  have hsettled := settled_of_isReachable h
  refine ⟨⟨?_, ?_⟩, hsettled.suspended, ?_, ?_⟩
  · intro hw
    exact (hsettled.suspended hw).stack_ne_nil
  · intro hstack
    rcases hsettled with hrest | hsuspended
    · exact absurd hrest.stack hstack
    · exact hsuspended.isWaiting
  · intro call m hm
    exact (hsettled.forall_mem_courseOf call m hm).unbroken
  · intro call ending hend
    exact ((hsettled.leaves_call call).2 ending hend).2

def inquiring : Engine Bench :=
  ((idle {} Bench.fresh).call
    (.load [['J', 'a'], ['M', 'x'], [':', 'a'], ['M', 'y'], ['U', 'q']])).2

theorem suspension_inquiring :
    let asked := (inquiring.call (.run [])).2
    asked.IsReachable ∧ asked.Suspended ∧ asked.stack.map Invocation.position = [2, 1] ∧
      (asked.call (.resume ['r'])).1.ending? = some .completed ∧
      (asked.call (.resume ['r'])).2.quit = false := by
  intro asked
  have hreach : asked.IsReachable := ((isReachable_idle {} Bench.fresh rfl).call _).call _
  obtain ⟨prompt, first, hfirst, hpending, hplaces, last, hlast⟩ : ∃ prompt first,
      loop 3 { inquiring.begun with stack := [{ routine := [] }] }
        = some (.waiting prompt, first) ∧
      first.pending = some (.textual 'U' ['q']) ∧
      first.stack.map Invocation.position = [2, 1] ∧
      ∃ last, loop 4 (first.deliver (.textual 'U' ['q']) ['r'])
        = some (.ended .completed, last) :=
    ⟨_, _, rfl, rfl, rfl, _, rfl⟩
  have hasked : asked = first := by
    change (inquiring.call (.run [])).2 = first
    rw [call_run_of_contains rfl (by decide), carryOn_eq_of_loop hfirst]
  have hend : (asked.call (.resume ['r'])).1.ending? = some .completed := by
    rw [hasked, call_resume hpending, carryOn_eq_of_loop hlast]
    rfl
  obtain ⟨hwaits, hsuspended, -, hquit⟩ := suspension_of_isReachable hreach
  have hstack : asked.stack ≠ [] := by
    intro hnil
    rw [← hasked, hnil] at hplaces
    cases hplaces
  refine ⟨hreach, hsuspended (hwaits.2 hstack), ?_, hend, ?_⟩
  · rw [hasked]
    exact hplaces
  · have hbroken := hquit _ _ hend
    simpa using hbroken

end Engine
end BenchScript
