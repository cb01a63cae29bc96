import BenchScript.Proofs.Suspension

set_option autoImplicit false

namespace BenchScript
namespace Engine

variable {ε : Type} [Environment ε]

/-- What is left of a run: calls that have nothing to do with it, and a leg for each answer. -/
theorem UnderWay.induction {motive : Engine ε → List (Engine ε) → List Reply → Engine ε → Prop}
    (done : ∀ e : Engine ε, e.Settled → motive e [] [] e)
    (apart : ∀ (e : Engine ε) call workspace visited replies after, e.Suspended →
      (∀ input, call ≠ .resume input) → (e.call call).2 = { e with workspace } →
      (e.call call).1.ending? = none → (e.call call).1.prompts = [] →
      motive { e with workspace } visited replies after →
      motive e visited ((e.call call).1 :: replies) after)
    (leg : ∀ (e : Engine ε) command input visited replies after, e.Suspended →
      e.pending = some command → (e.deliver command input).OnCourse →
      motive (e.deliver command input).carryOn.2 visited replies after →
      motive e ((e.deliver command input).course ++ visited)
        (.standing (e.deliver command input).carryOn.1 :: replies) after)
    {e : Engine ε} (he : e.Settled) {calls : List Call} (h : e.UnderWay calls) :
    motive e (e.courseOfAll calls) (e.callAll calls).1 (e.callAll calls).2 := by
  induction calls generalizing e with
  | nil => exact done e he
  | cons call rest ih =>
    obtain ⟨hw, hrest⟩ := h
    have hs := he.suspended hw
    have hnext := ih (he.call call) hrest
    rw [courseOfAll, callAll_cons]
    by_cases hresume : ∃ input, call = .resume input
    · obtain ⟨input, rfl⟩ := hresume
      obtain ⟨command, hp⟩ := hs.exists_question
      rw [call_resume hp] at hnext ⊢
      rw [courseOf_resume hp]
      exact leg e command input _ _ _ hs hp (hs.deliver command input) hnext
    · rcases call_of_waiting hw call with hanswer | ⟨⟨workspace, heq⟩, hcourse, hend, hprompts⟩
      · exact absurd hanswer hresume
      · have hne : ∀ input, call ≠ .resume input := fun input hcall => hresume ⟨input, hcall⟩
        rw [heq] at hnext ⊢
        rw [hcourse]
        exact apart e call workspace _ _ _ hs hne heq hend hprompts hnext

theorem underWay_of_not_waiting {e : Engine ε} {calls : List Call} (h : e.UnderWay calls)
    (hw : e.isWaiting = false) : calls = [] := by
  cases calls with
  | nil => rfl
  | cons call rest =>
    rw [h.1] at hw
    cases hw

/-- A run either begins with its first leg or ends at once because there is no such routine. -/
theorem IsRun.induction {motive : List (Engine ε) → List Reply → Engine ε → Prop} {e : Engine ε}
    {routine : Text} {rest : List Call} (h : e.IsRun (.run routine :: rest))
    (absent : motive [] [.standing (.ended (.routineNotFound routine))]
      (e.begun.finish (.routineNotFound routine)).2)
    (first : ∀ start, start.OnCourse → start = { e.begun with stack := [{ routine }] } →
      start.carryOn.2.UnderWay rest →
      motive (start.course ++ start.carryOn.2.courseOfAll rest)
        (.standing start.carryOn.1 :: (start.carryOn.2.callAll rest).1)
        (start.carryOn.2.callAll rest).2) :
    motive (e.courseOfAll (.run routine :: rest)) (e.callAll (.run routine :: rest)).1
      (e.callAll (.run routine :: rest)).2 := by
  obtain ⟨hw, hrest⟩ := h
  rw [courseOfAll, callAll_cons]
  cases hr : e.routines.contains routine with
  | true =>
    rw [call_run_of_contains hw hr] at hrest ⊢
    rw [courseOf_run_of_contains hw hr]
    exact first _ (onCourse_begun hw routine) rfl hrest
  | false =>
    have hp := pending_eq_none hw
    rw [call_run_of_not_contains hw hr] at hrest ⊢
    rw [courseOf_run_of_not_contains hw hr]
    have hnil : rest = [] := by
      refine underWay_of_not_waiting hrest ?_
      unfold isWaiting
      rw [pending_finish]
      simp [begun, hp]
    subst hnil
    exact absent

theorem sameScript_of_mem_course (e : Engine ε) : ∀ m ∈ e.course, e.SameScript m :=
  forall_mem_course (motive := fun m => e.SameScript m) ⟨rfl, rfl⟩
    fun _ _ h hs => h.trans (sameScript_going hs)

theorem sameScript_carryOn (e : Engine ε) : e.SameScript e.carryOn.2 := by
  obtain ⟨last, hlast, hhalt⟩ := carryOn_eq_of_course (motive := fun m => e.SameScript m)
    ⟨rfl, rfl⟩ fun _ _ h hs => h.trans (sameScript_going hs)
  exact hlast.trans (sameScript_halted hhalt)

/-- What a run goes through keeps the script that the run began with and the shape of the stack. -/
structure Keeps (e : Engine ε) (visited : List (Engine ε)) (after : Engine ε) : Prop where
  onCourse : ∀ m ∈ visited, m.OnCourse
  script : ∀ m ∈ visited, e.SameScript m
  left : e.SameScript after
  settled : after.Settled

theorem Keeps.leg {e start after : Engine ε} {visited : List (Engine ε)}
    (hscript : e.SameScript start) (hstart : start.OnCourse)
    (h : Keeps start.carryOn.2 visited after) : Keeps e (start.course ++ visited) after := by
  have hcarried := hscript.trans start.sameScript_carryOn
  refine ⟨?_, ?_, hcarried.trans h.left, h.settled⟩
  · intro m hm
    rcases List.mem_append.1 hm with hm | hm
    · exact hstart.forall_mem m hm
    · exact h.onCourse m hm
  · intro m hm
    rcases List.mem_append.1 hm with hm | hm
    · exact hscript.trans (start.sameScript_of_mem_course m hm)
    · exact hcarried.trans (h.script m hm)

theorem UnderWay.keeps {e : Engine ε} (he : e.Settled) {calls : List Call} (h : e.UnderWay calls) :
    Keeps e (e.courseOfAll calls) (e.callAll calls).2 := by
  refine UnderWay.induction (motive := fun e visited _ after => Keeps e visited after)
    ?_ ?_ ?_ he h
  · intro e he
    exact ⟨by simp, by simp, ⟨rfl, rfl⟩, he⟩
  · intro e _ workspace visited _ after _ _ _ _ _ ih
    have hscript : e.SameScript { e with workspace } := ⟨rfl, rfl⟩
    exact ⟨ih.onCourse, fun m hm => hscript.trans (ih.script m hm), hscript.trans ih.left,
      ih.settled⟩
  · intro e command input visited _ after _ _ hcourse ih
    exact ih.leg ⟨rfl, rfl⟩ hcourse

theorem keeps_run {e : Engine ε} {routine : Text} {rest : List Call}
    (h : e.IsRun (.run routine :: rest)) :
    Keeps e (e.courseOfAll (.run routine :: rest)) (e.callAll (.run routine :: rest)).2 := by
  refine IsRun.induction (motive := fun visited _ after => Keeps e visited after) h ?_ ?_
  · have hp := pending_eq_none h.1
    refine ⟨by simp, by simp, ⟨settings_finish _ _, routines_finish _ _⟩,
      Or.inl ⟨?_, stack_finish _ _⟩⟩
    rw [pending_finish]
    exact hp
  · intro start hstart heq hway
    have hscript : e.SameScript start := by
      rw [heq]
      exact ⟨rfl, rfl⟩
    exact (hway.keeps hstart.stands.settled).leg hscript hstart

/-- A run with prepared answers is a run with the answers that it used; it ends as that run does, or
it is given up where that run waits. -/
theorem IsRun.exists_run {e : Engine ε} {calls : List Call} (h : e.IsRun calls) :
    ∃ routine rest, e.IsRun (.run routine :: rest) ∧
      e.courseOfAll calls = e.courseOfAll (.run routine :: rest) ∧
      (e.callAll calls).1.flatMap Reply.prompts
        = (e.callAll (.run routine :: rest)).1.flatMap Reply.prompts ∧
      (((e.callAll calls).1.filterMap Reply.ending?
          = (e.callAll (.run routine :: rest)).1.filterMap Reply.ending? ∧
        (e.callAll calls).2 = (e.callAll (.run routine :: rest)).2) ∨
      ((e.callAll calls).1.filterMap Reply.ending? = [.cancelled] ∧
        (e.callAll (.run routine :: rest)).1.filterMap Reply.ending? = [] ∧
        (e.callAll (.run routine :: rest)).2.isWaiting = true ∧
        (e.callAll calls).2 = (e.callAll (.run routine :: rest)).2.abandon)) := by
  match calls, h with
  | .run routine :: rest, h => exact ⟨routine, rest, h, rfl, rfl, Or.inl ⟨rfl, rfl⟩⟩
  | .runAnswered routine answers :: rest, ⟨hw, hrest⟩ =>
    obtain ⟨inputs, hway, hcourse, ending, after, hend, hcall, hafter⟩ :=
      call_runAnswered hw routine answers
    rw [hcall] at hrest
    have hnil : rest = [] := underWay_of_not_waiting hrest hafter.1.isWaiting
    subst hnil
    refine ⟨routine, inputs.map .resume, ⟨hw, hway⟩, ?_, ?_, ?_⟩
    · rw [courseOfAll, hcourse]
      exact List.append_nil _
    · rw [callAll_cons, hcall]
      simp [callAll, Reply.prompts]
    · rw [callAll_cons, hcall]
      rcases hend with ⟨hended, rfl⟩ | ⟨hnone, hwaits, rfl, rfl⟩
      · exact Or.inl ⟨hended.symm, rfl⟩
      · exact Or.inr ⟨rfl, hnone, hwaits, rfl⟩

theorem sameScript_abandon (e : Engine ε) : e.SameScript e.abandon :=
  ⟨settings_finish _ _, routines_finish _ _⟩

theorem IsRun.keeps {e : Engine ε} {calls : List Call} (h : e.IsRun calls) :
    Keeps e (e.courseOfAll calls) (e.callAll calls).2 := by
  obtain ⟨routine, rest, hrun, hcourse, _, hend⟩ := h.exists_run
  have hkeeps := keeps_run hrun
  rw [hcourse]
  rcases hend with ⟨_, heq⟩ | ⟨_, _, _, heq⟩
  · rw [heq]
    exact hkeeps
  · rw [heq]
    exact ⟨hkeeps.onCourse, hkeeps.script, hkeeps.left.trans (sameScript_abandon _),
      (stands_abandon _).settled⟩

end Engine
end BenchScript
