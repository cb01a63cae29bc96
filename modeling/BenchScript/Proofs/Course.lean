import BenchScript.Proofs.Step

set_option autoImplicit false

/-!
# The course of a run

`course` lists the engines that a run goes through, each as it is before a step, up to the one in
which the run ends or waits. A run may be interrupted by prompts, so its whole course is spread over
several calls: `courseOfAll` puts the pieces together. `call_of_waiting` says that no call but an
answer has a part in it once the run has begun.
-/
namespace BenchScript

namespace Reply

def ending? : Reply → Option Ending
  | .standing (.ended ending) => some ending
  | .ended ending _ => some ending
  | _ => none

def prompts : Reply → List Text
  | .standing (.waiting prompt) => [prompt]
  | .ended _ prompts => prompts
  | _ => []

@[simp] theorem ending?_ofUnit (result : Except ScriptError Unit) :
    (Reply.ofUnit result).ending? = none := by
  cases result <;> rfl

@[simp] theorem prompts_ofUnit (result : Except ScriptError Unit) :
    (Reply.ofUnit result).prompts = [] := by
  cases result <;> rfl

end Reply

def Call.begins : Call → Bool
  | .load _ | .loadFrom _ | .run _ | .runAnswered _ _ => true
  | _ => false

def Call.startsRun : Call → Bool
  | .run _ | .runAnswered _ _ => true
  | _ => false

namespace Engine

variable {ε : Type} [Environment ε]

omit [Environment ε] in
theorem pending_eq_none {e : Engine ε} (h : e.isWaiting = false) : e.pending = none := by
  simpa [isWaiting] using h

def loop : Nat → Engine ε → Option (Standing × Engine ε)
  | 0, _ => none
  | n + 1, e =>
    match e.step with
    | .going e' => loop n e'
    | .halted standing e' => some (standing, e')

/-- The engines that a run goes through from here on, each before a step. -/
def course (e : Engine ε) : List (Engine ε) :=
  match _h : e.step with
  | .going e' => e :: e'.course
  | .halted _ _ => [e]
termination_by e.weight
decreasing_by exact weight_step_lt _h

theorem course_of_going {e e' : Engine ε} (h : e.step = .going e') :
    e.course = e :: e'.course := by
  rw [course]
  split
  · next h' => rw [h] at h'; cases h'; rfl
  · next h' => rw [h] at h'; cases h'

theorem course_of_halted {e e' : Engine ε} {standing : Standing}
    (h : e.step = .halted standing e') : e.course = [e] := by
  rw [course]
  split
  · next h' => rw [h] at h'; cases h'
  · rfl

theorem mem_course_self (e : Engine ε) : e ∈ e.course := by
  cases hs : e.step with
  | going e' =>
    rw [course_of_going hs]
    exact List.mem_cons_self
  | halted standing e' =>
    rw [course_of_halted hs]
    exact List.mem_cons_self

theorem loop_length_course (e : Engine ε) : loop e.course.length e = some e.carryOn := by
  fun_induction carryOn e with
  | case1 e e' h ih =>
    rw [course_of_going h]
    simp only [List.length_cons, loop, h]
    exact ih
  | case2 e standing e' h =>
    rw [course_of_halted h]
    simp only [List.length_singleton, loop, h]

theorem carryOn_eq_of_loop {n : Nat} {e : Engine ε} {outcome : Standing × Engine ε}
    (h : loop n e = some outcome) : e.carryOn = outcome := by
  induction n generalizing e with
  | zero => cases h
  | succ n ih =>
    cases hs : e.step with
    | going e' =>
      rw [carryOn_of_going hs]
      simp only [loop, hs] at h
      exact ih h
    | halted standing e' =>
      rw [carryOn_of_halted hs]
      simpa only [loop, hs, Option.some.injEq] using h

theorem length_course_le (e : Engine ε) : e.course.length ≤ e.weight + 1 := by
  fun_induction carryOn e with
  | case1 e e' h ih =>
    have hlt := weight_step_lt h
    rw [course_of_going h, List.length_cons]
    omega
  | case2 e standing e' h =>
    rw [course_of_halted h, List.length_singleton]
    omega

/-- What every step keeps is true of all engines that a run goes through. -/
theorem forall_mem_course {motive : Engine ε → Prop} {e : Engine ε} (he : motive e)
    (hstep : ∀ e e', motive e → e.step = .going e' → motive e') : ∀ m ∈ e.course, motive m := by
  fun_induction carryOn e with
  | case1 e e' h ih =>
    rw [course_of_going h]
    intro m hm
    rcases List.mem_cons.1 hm with rfl | hm
    · exact he
    · exact ih (hstep e e' he h) m hm
  | case2 e standing e' h =>
    rw [course_of_halted h]
    intro m hm
    rw [List.mem_singleton.1 hm]
    exact he

/-- A run halts in the last engine that it goes through. -/
theorem carryOn_eq_of_course {motive : Engine ε → Prop} {e : Engine ε} (he : motive e)
    (hstep : ∀ e e', motive e → e.step = .going e' → motive e') :
    ∃ last, motive last ∧ last.step = .halted e.carryOn.1 e.carryOn.2 := by
  fun_induction carryOn e with
  | case1 e e' h ih => exact ih (hstep e e' he h)
  | case2 e standing e' h => exact ⟨e, he, h⟩

def courseOfRun (routine : Text) (e : Engine ε) : List (Engine ε) :=
  if e.isWaiting then []
  else if e.begun.routines.contains routine then course { e.begun with stack := [{ routine }] }
  else []

def courseOfAnswers : List (Option Text) → Engine ε → List (Engine ε)
  | some input :: rest, e =>
    match e.pending with
    | none => []
    | some command =>
      (e.deliver command input).course ++ courseOfAnswers rest (e.deliver command input).carryOn.2
  | _, _ => []

/-- The part of a run's course that a call is responsible for. -/
def courseOf (e : Engine ε) : Call → List (Engine ε)
  | .run routine => e.courseOfRun routine
  | .resume input => e.courseOfAnswers [some input]
  | .runAnswered routine answers =>
    if e.isWaiting then []
    else e.courseOfRun routine ++ (e.run routine).2.courseOfAnswers answers
  | _ => []

def courseOfAll (e : Engine ε) : List Call → List (Engine ε)
  | [] => []
  | call :: rest => e.courseOf call ++ (e.call call).2.courseOfAll rest

/-- A prompt waits whenever one of the calls is made. -/
def UnderWay (e : Engine ε) : List Call → Prop
  | [] => True
  | call :: rest => e.isWaiting = true ∧ (e.call call).2.UnderWay rest

/-- The calls of one run: the first begins it, and it is under way when the others are made. -/
def IsRun (e : Engine ε) : List Call → Prop
  | .run routine :: rest => e.isWaiting = false ∧ (e.call (.run routine)).2.UnderWay rest
  | .runAnswered routine answers :: rest =>
    e.isWaiting = false ∧ (e.call (.runAnswered routine answers)).2.UnderWay rest
  | _ => False

theorem callAll_cons (e : Engine ε) (call : Call) (rest : List Call) :
    e.callAll (call :: rest)
      = ((e.call call).1 :: ((e.call call).2.callAll rest).1,
        ((e.call call).2.callAll rest).2) := rfl

theorem call_resume {e : Engine ε} {command : Command} (h : e.pending = some command)
    (input : Text) :
    e.call (.resume input)
      = (.standing (e.deliver command input).carryOn.1, (e.deliver command input).carryOn.2) := by
  simp only [call, resume, h, Reply.ofStanding]

theorem courseOf_resume {e : Engine ε} {command : Command} (h : e.pending = some command)
    (input : Text) : e.courseOf (.resume input) = (e.deliver command input).course := by
  simp only [courseOf, courseOfAnswers, h, List.append_nil]

theorem courseOf_run_of_contains {e : Engine ε} (h : e.isWaiting = false) {routine : Text}
    (hr : e.routines.contains routine = true) :
    e.courseOf (.run routine) = course { e.begun with stack := [{ routine }] } := by
  have hbegun : e.begun.routines.contains routine = true := hr
  simp only [courseOf, courseOfRun, h, Bool.false_eq_true, if_false, hbegun, if_true]

theorem call_run_of_contains {e : Engine ε} (h : e.isWaiting = false) {routine : Text}
    (hr : e.routines.contains routine = true) :
    e.call (.run routine)
      = (.standing (carryOn { e.begun with stack := [{ routine }] }).1,
        (carryOn { e.begun with stack := [{ routine }] }).2) := by
  have hbegun : e.begun.routines.contains routine = true := hr
  simp only [call, run, h, Bool.false_eq_true, if_false, hbegun, if_true, Reply.ofStanding]

theorem callAll_run_of_loop {e : Engine ε} (h : e.isWaiting = false) {routine : Text}
    (hr : e.routines.contains routine = true) {n : Nat} {outcome : Standing × Engine ε}
    (hl : loop n { e.begun with stack := [{ routine }] } = some outcome) :
    e.callAll [.run routine] = ([.standing outcome.1], outcome.2) := by
  rw [callAll_cons, call_run_of_contains h hr, carryOn_eq_of_loop hl]
  rfl

theorem courseOf_run_of_not_contains {e : Engine ε} (h : e.isWaiting = false) {routine : Text}
    (hr : e.routines.contains routine = false) : e.courseOf (.run routine) = [] := by
  have hbegun : e.begun.routines.contains routine = false := hr
  simp only [courseOf, courseOfRun, h, Bool.false_eq_true, if_false, hbegun]

theorem call_run_of_not_contains {e : Engine ε} (h : e.isWaiting = false) {routine : Text}
    (hr : e.routines.contains routine = false) :
    e.call (.run routine)
      = (.standing (.ended (.routineNotFound routine)),
        (e.begun.finish (.routineNotFound routine)).2) := by
  have hbegun : e.begun.routines.contains routine = false := hr
  simp only [call, run, h, Bool.false_eq_true, if_false, hbegun, Reply.ofStanding, finish_fst]

theorem load_of_waiting {e : Engine ε} (h : e.isWaiting = true) (lines : List Text) :
    e.load lines = (.error .busy, e) := by
  unfold load
  rw [if_pos h]

theorem loadFrom_of_waiting {e : Engine ε} (h : e.isWaiting = true) (path : Text) :
    e.loadFrom path = (.error .busy, e) := by
  unfold loadFrom
  rw [if_pos h]

theorem load_of_not_waiting {e : Engine ε} (h : e.isWaiting = false) (lines : List Text) :
    e.load lines = e.forget.adopt (Routines.ofLines lines) := by
  simp only [load, h, Bool.false_eq_true, if_false]

def ofRead (path : Text) : Except Text (List Text) → Except ScriptError Routines
  | .ok lines => Routines.ofLines lines
  | .error cause => .error (.file path cause)

theorem loadFrom_of_not_waiting {e : Engine ε} (h : e.isWaiting = false) (path : Text) :
    e.loadFrom path
      = (e.forget.mapWorkspace fun w =>
          { w with around := (FileStore.readLines path e.workspace.around).2 }).adopt
        (ofRead path (FileStore.readLines path e.workspace.around).1) := by
  simp only [loadFrom, h, Bool.false_eq_true, if_false]
  have haround : e.forget.workspace.around = e.workspace.around := rfl
  rw [haround]
  cases (FileStore.readLines path e.workspace.around).1 <;> rfl

theorem run_of_waiting {e : Engine ε} (h : e.isWaiting = true) (routine : Text) :
    e.run routine = (.error .busy, e) := by
  unfold run
  rw [if_pos h]

theorem runAnswered_of_waiting {α : Type} {e : Engine ε} (h : e.isWaiting = true) (routine : Text)
    (source : AnswerSource α) (rest : α) :
    e.runAnswered routine source rest = (.error .busy, e, rest) := by
  simp only [runAnswered, run_of_waiting h]

theorem call_of_begins {e : Engine ε} (h : e.isWaiting = true) {call : Call}
    (hb : call.begins = true) : e.call call = (.refused .busy, e) := by
  cases call with
  | load lines => simp only [Engine.call, load_of_waiting h, Reply.ofUnit]
  | loadFrom path => simp only [Engine.call, loadFrom_of_waiting h, Reply.ofUnit]
  | run routine => simp only [Engine.call, run_of_waiting h, Reply.ofStanding]
  | runAnswered routine answers => simp only [Engine.call, runAnswered_of_waiting h]
  | resume | cancel | sendDigits | sendChecksum | close => cases hb

theorem courseOf_of_begins {e : Engine ε} (h : e.isWaiting = true) {call : Call}
    (hb : call.begins = true) : e.courseOf call = [] := by
  cases call with
  | load | loadFrom => rfl
  | run | runAnswered => exact if_pos h
  | resume | cancel | sendDigits | sendChecksum | close => cases hb

omit [Environment ε] in
/-- A call is refused because a prompt waits, or there is none if it begins something new. -/
theorem refused_or_free (e : Engine ε) (call : Call) :
    (e.isWaiting = true ∧ call.begins = true) ∨ (call.begins = true → e.isWaiting = false) := by
  cases e.isWaiting with
  | false => exact Or.inr fun _ => rfl
  | true =>
    cases call.begins with
    | true => exact Or.inl ⟨rfl, rfl⟩
    | false => exact Or.inr nofun

/-- While a prompt waits, only its answer carries the run on. Every other call is refused or has to
do with the workspace alone. -/
theorem call_of_waiting {e : Engine ε} (h : e.isWaiting = true) (call : Call) :
    (∃ input, call = .resume input) ∨
      (∃ workspace, (e.call call).2 = { e with workspace }) ∧ e.courseOf call = [] ∧
        (e.call call).1.ending? = none ∧ (e.call call).1.prompts = [] := by
  cases call with
  | resume input => exact Or.inl ⟨input, rfl⟩
  | load lines =>
    simp only [Engine.call, load_of_waiting h]
    exact Or.inr ⟨⟨e.workspace, rfl⟩, rfl, rfl, rfl⟩
  | loadFrom path =>
    simp only [Engine.call, loadFrom_of_waiting h]
    exact Or.inr ⟨⟨e.workspace, rfl⟩, rfl, rfl, rfl⟩
  | run routine =>
    have hcourse : e.courseOf (.run routine) = [] := if_pos h
    simp only [Engine.call, run_of_waiting h]
    exact Or.inr ⟨⟨e.workspace, rfl⟩, hcourse, rfl, rfl⟩
  | runAnswered routine answers =>
    have hcourse : e.courseOf (.runAnswered routine answers) = [] := if_pos h
    simp only [Engine.call, runAnswered_of_waiting h]
    exact Or.inr ⟨⟨e.workspace, rfl⟩, hcourse, rfl, rfl⟩
  | cancel | close => exact Or.inr ⟨⟨_, rfl⟩, rfl, rfl, rfl⟩
  | sendDigits text =>
    exact Or.inr ⟨⟨_, rfl⟩, rfl, Reply.ending?_ofUnit _, Reply.prompts_ofUnit _⟩
  | sendChecksum text =>
    exact Or.inr ⟨⟨_, rfl⟩, rfl, Reply.ending?_ofUnit _, Reply.prompts_ofUnit _⟩

theorem isWaiting_adopt (loaded : Except ScriptError Routines) (e : Engine ε) :
    (e.adopt loaded).2.isWaiting = e.isWaiting := by
  cases loaded <;> rfl

/-- A prompt comes of nothing but a run. -/
theorem isWaiting_call_of_not_startsRun {e : Engine ε} (h : e.isWaiting = false) {call : Call}
    (hr : call.startsRun = false) : (e.call call).2.isWaiting = false := by
  cases call with
  | load lines =>
    simp only [Engine.call, load_of_not_waiting h, isWaiting_adopt]
    rfl
  | loadFrom path =>
    simp only [Engine.call, loadFrom_of_not_waiting h, isWaiting_adopt]
    rfl
  | resume input =>
    have hp := pending_eq_none h
    simp only [Engine.call, resume, hp]
    exact h
  | cancel | sendDigits | sendChecksum | close => exact h
  | run | runAnswered => cases hr

section Answers

variable {α : Type} {source : AnswerSource α} {answers rest : α}

theorem answerPrompts_ended (e : Engine ε) (ending : Ending) :
    e.answerPrompts source answers (.ended ending) = (.ok ending, e, answers) := by
  rw [answerPrompts]

theorem answerPrompts_none {e : Engine ε} {prompt : Text}
    (h : source e.workspace.cancelled prompt answers = (none, rest)) :
    e.answerPrompts source answers (.waiting prompt) = (.ok .cancelled, e.abandon, rest) := by
  rw [answerPrompts]
  split
  · next h' => rw [h] at h'; cases h'; rfl
  · next h' => rw [h] at h'; cases h'

theorem answerPrompts_unasked {e : Engine ε} {prompt input : Text} (hp : e.pending = none)
    (h : source e.workspace.cancelled prompt answers = (some input, rest)) :
    e.answerPrompts source answers (.waiting prompt) = (.error .noPendingInput, e, rest) := by
  rw [answerPrompts]
  split
  · next h' => rw [h] at h'; cases h'
  · next h' =>
    rw [h] at h'
    cases h'
    split
    · rfl
    · next hc => rw [hp] at hc; cases hc

theorem answerPrompts_some {e : Engine ε} {prompt input : Text} {command : Command}
    (hp : e.pending = some command)
    (h : source e.workspace.cancelled prompt answers = (some input, rest)) :
    e.answerPrompts source answers (.waiting prompt)
      = (e.deliver command input).carryOn.2.answerPrompts source rest
          (e.deliver command input).carryOn.1 := by
  rw [answerPrompts]
  split
  · next h' => rw [h] at h'; cases h'
  · next h' =>
    rw [h] at h'
    cases h'
    split
    · next hn => rw [hp] at hn; cases hn
    · next command' hc =>
      rw [hp] at hc
      cases hc
      split
      · next hd => rw [hd, answerPrompts_ended]
      · next hd => rw [hd]

end Answers

theorem runAnswered_of_run {α : Type} (source : AnswerSource α) (rest : α) {e : Engine ε}
    {routine : Text} {standing : Standing} (h : (e.run routine).1 = .ok standing) :
    e.runAnswered routine source rest
      = (e.run routine).2.answerPrompts source rest standing := by
  unfold runAnswered
  generalize e.run routine = outcome at h ⊢
  obtain ⟨result, e'⟩ := outcome
  simp only at h
  subst h
  rfl

theorem courseOfAnswers_of_none {e : Engine ε} (h : e.pending = none)
    (answers : List (Option Text)) : e.courseOfAnswers answers = [] := by
  unfold courseOfAnswers
  split
  · rw [h]
  · rfl

end Engine
end BenchScript
