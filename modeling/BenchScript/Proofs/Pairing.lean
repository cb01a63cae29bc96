import BenchScript.Proofs.Suspension

set_option autoImplicit false

namespace BenchScript

def ScriptError.isRejection : ScriptError → Bool
  | .busy | .noPendingInput => true
  | _ => false

def Reply.isRejection : Reply → Bool
  | .refused error => error.isRejection
  | _ => false

/-- A question is asked, it is answered, or the run is given up instead. -/
inductive Mark where
  | asked (question : Command) (prompt : Text)
  | answered (question : Command) (input : Text)
  | withdrawn (question : Command)
deriving DecidableEq, Repr

namespace Mark

def prompt? : Mark → Option Text
  | .asked _ prompt => some prompt
  | _ => none

def input? : Mark → Option Text
  | .answered _ input => some input
  | _ => none

end Mark

/-- From one question that may wait to another, every mark is about the question that waits then. -/
inductive Paired : Option Command → List Mark → Option Command → Prop where
  | done (waits : Option Command) : Paired waits [] waits
  | asked {question : Command} {prompt : Text} {marks : List Mark} {left : Option Command}
      (rest : Paired (some question) marks left) :
      Paired none (.asked question prompt :: marks) left
  | answered {question : Command} {input : Text} {marks : List Mark} {left : Option Command}
      (rest : Paired none marks left) :
      Paired (some question) (.answered question input :: marks) left
  | withdrawn {question : Command} {marks : List Mark} {left : Option Command}
      (rest : Paired none marks left) :
      Paired (some question) (.withdrawn question :: marks) left

namespace Paired

variable {waits between left : Option Command} {marks marks' before after : List Mark}

theorem append (h : Paired waits marks between) (h' : Paired between marks' left) :
    Paired waits (marks ++ marks') left := by
  induction h with
  | done => exact h'
  | asked _ ih => exact .asked (ih h')
  | answered _ ih => exact .answered (ih h')
  | withdrawn _ ih => exact .withdrawn (ih h')

/-- Where a question waits, it is the one asked last, or it waited from the beginning. -/
theorem asked_last {question : Command} (h : Paired waits marks left)
    (hleft : left = some question) :
    marks = [] ∧ waits = some question ∨
      ∃ earlier prompt, marks = earlier ++ [.asked question prompt] := by
  induction h with
  | done waits => exact Or.inl ⟨rfl, hleft⟩
  | @asked question' prompt marks left _ ih =>
    rcases ih hleft with ⟨rfl, hwaits⟩ | ⟨earlier, prompt', rfl⟩
    · obtain rfl := Option.some.inj hwaits
      exact Or.inr ⟨[], prompt, rfl⟩
    · exact Or.inr ⟨.asked question' prompt :: earlier, prompt', rfl⟩
  | @answered question' input marks left _ ih =>
    rcases ih hleft with ⟨rfl, hwaits⟩ | ⟨earlier, prompt, rfl⟩
    · exact absurd hwaits nofun
    · exact Or.inr ⟨.answered question' input :: earlier, prompt, rfl⟩
  | @withdrawn question' marks left _ ih =>
    rcases ih hleft with ⟨rfl, hwaits⟩ | ⟨earlier, prompt, rfl⟩
    · exact absurd hwaits nofun
    · exact Or.inr ⟨.withdrawn question' :: earlier, prompt, rfl⟩

theorem split (h : Paired waits (before ++ after) left) :
    ∃ between, Paired waits before between ∧ Paired between after left := by
  induction before generalizing waits with
  | nil => exact ⟨waits, .done waits, h⟩
  | cons mark before ih =>
    rw [List.cons_append] at h
    cases h with
    | asked rest =>
      obtain ⟨between, hbefore, hafter⟩ := ih rest
      exact ⟨between, .asked hbefore, hafter⟩
    | answered rest =>
      obtain ⟨between, hbefore, hafter⟩ := ih rest
      exact ⟨between, .answered hbefore, hafter⟩
    | withdrawn rest =>
      obtain ⟨between, hbefore, hafter⟩ := ih rest
      exact ⟨between, .withdrawn hbefore, hafter⟩

/-- An answer is to the question that was asked just before, or that waited from the beginning. -/
theorem of_answered {question : Command} {input : Text}
    (h : Paired waits (before ++ .answered question input :: after) left) :
    before = [] ∧ waits = some question ∨
      ∃ earlier prompt, before = earlier ++ [.asked question prompt] := by
  obtain ⟨between, hbefore, hafter⟩ := h.split
  cases hafter with
  | answered => exact hbefore.asked_last rfl

end Paired

theorem readCommands_error (above lines : List Text) {error : ScriptError}
    (h : readCommands above lines = .error error) : error.isRejection = false := by
  fun_induction readCommands above lines with
  | case1 => cases h
  | case2 above line below hclass ih => exact ih h
  | case3 above line below hclass computed hshows ih => exact ih h
  | case4 =>
    cases h
    rfl
  | case5 => cases h
  | case6 above line below command hclass e he ih =>
    cases h
    exact ih he

theorem Routines.addSections_error (table : Routines) (sections : List Section)
    {error : ScriptError} (h : addSections table sections = .error error) :
    error.isRejection = false := by
  fun_induction addSections table sections with
  | case1 => cases h
  | case2 | case3 =>
    cases h
    rfl
  | case4 _ _ _ _ _ ih => exact ih h

theorem Routines.ofLines_error {lines : List Text} {error : ScriptError}
    (h : ofLines lines = .error error) : error.isRejection = false := by
  unfold ofLines at h
  split at h
  · next e hread =>
    cases h
    exact readCommands_error [] lines hread
  · exact addSections_error _ _ h

namespace Engine

variable {ε : Type} [Environment ε]

def askedBy (standing : Standing) (left : Engine ε) : List Mark :=
  match standing, left.pending with
  | .waiting prompt, some question => [.asked question prompt]
  | _, _ => []

def marksOfRun (routine : Text) (e : Engine ε) : List Mark :=
  match (e.run routine).1 with
  | .ok standing => askedBy standing (e.run routine).2
  | .error _ => []

def marksOfAnswer (question : Command) (input : Text) (e : Engine ε) : List Mark :=
  .answered question input
    :: askedBy (e.deliver question input).carryOn.1 (e.deliver question input).carryOn.2

def marksOfAnswers : List (Option Text) → Engine ε → List Mark
  | some input :: rest, e =>
    match e.pending with
    | none => []
    | some question =>
      e.marksOfAnswer question input
        ++ marksOfAnswers rest (e.deliver question input).carryOn.2
  | _, e => (e.pending.map Mark.withdrawn).toList

def marksOf (e : Engine ε) : Call → List Mark
  | .run routine => e.marksOfRun routine
  | .resume input =>
    match e.pending with
    | none => []
    | some question => e.marksOfAnswer question input
  | .runAnswered routine answers =>
    if e.isWaiting then [] else e.marksOfRun routine ++ (e.run routine).2.marksOfAnswers answers
  | _ => []

def marksOfAll (e : Engine ε) : List Call → List Mark
  | [] => []
  | call :: rest => e.marksOf call ++ (e.call call).2.marksOfAll rest

/-- The marks are paired, and the questions among them are the prompts that were shown. -/
structure Marked (waits : Option Command) (marks : List Mark) (prompts : List Text)
    (left : Option Command) : Prop where
  paired : Paired waits marks left
  prompts : marks.filterMap Mark.prompt? = prompts

theorem Marked.append {waits between left : Option Command} {marks marks' : List Mark}
    {prompts prompts' : List Text} (h : Marked waits marks prompts between)
    (h' : Marked between marks' prompts' left) :
    Marked waits (marks ++ marks') (prompts ++ prompts') left := by
  refine ⟨h.paired.append h'.paired, ?_⟩
  rw [List.filterMap_append, h.prompts, h'.prompts]

omit [Environment ε] in
theorem Stands.marked {left : Engine ε} {standing : Standing} (h : left.Stands standing) :
    Marked none (askedBy standing left) (Reply.standing standing).prompts left.pending := by
  cases standing with
  | ended ending =>
    rw [h.1.pending]
    exact ⟨.done none, rfl⟩
  | waiting prompt =>
    have hs : left.Suspended := h
    obtain ⟨question, hp⟩ := hs.exists_question
    unfold askedBy
    rw [hp]
    exact ⟨.asked (.done _), rfl⟩

theorem Suspended.marked_answer {e : Engine ε} (h : e.Suspended) (question : Command)
    (input : Text) :
    Marked (some question) (e.marksOfAnswer question input)
      (Reply.standing (e.deliver question input).carryOn.1).prompts
      (e.deliver question input).carryOn.2.pending := by
  have hleg := (h.deliver question input).stands.marked
  exact ⟨.answered hleg.paired, hleg.prompts⟩

theorem marked_run {e : Engine ε} (h : e.isWaiting = false) (routine : Text) :
    Marked none (e.marksOfRun routine) (e.call (.run routine)).1.prompts
      (e.run routine).2.pending := by
  obtain ⟨standing, hok, hs⟩ := stands_run h routine
  unfold marksOfRun
  simp only [Engine.call, hok, Reply.ofStanding]
  exact hs.marked

theorem marksOfAnswers_none {answers : List (Option Text)} (ha : answers.headD none = none)
    (e : Engine ε) : e.marksOfAnswers answers = (e.pending.map Mark.withdrawn).toList := by
  unfold marksOfAnswers
  split
  · cases ha
  · rfl

/-- Once the prompts of a run were answered so none waits, and the marks tell what was shown. -/
theorem Stands.marked_answers (answers : List (Option Text)) (shown : List Text) {e : Engine ε}
    {standing : Standing} (h : e.Stands standing) :
    ∃ ending after left prompts,
      e.answerPrompts Prepared.source ⟨answers, shown⟩ standing = (.ok ending, after, left) ∧
      after.pending = none ∧ Marked e.pending (e.marksOfAnswers answers) prompts none ∧
      left.prompts = shown ++ (Reply.standing standing).prompts ++ prompts := by
  induction answers, e, standing, h using Stands.induction generalizing shown with
  | ended answers e ending h =>
    have hp := h.1.pending
    refine ⟨ending, e, ⟨answers, shown⟩, [], answerPrompts_ended e ending, hp, ?_, by
      simp [Reply.prompts]⟩
    have hnone : e.marksOfAnswers answers = [] := by
      unfold marksOfAnswers
      split
      · rw [hp]
      · rw [hp]; rfl
    rw [hp, hnone]
    exact ⟨.done none, rfl⟩
  | unanswered answers e prompt hs ha =>
    obtain ⟨question, hp⟩ := hs.exists_question
    refine ⟨.cancelled, e.abandon, _, [], answerPrompts_unanswered ha shown prompt e,
      (stands_abandon e).1.pending, ?_, by simp [Reply.prompts]⟩
    rw [marksOfAnswers_none ha, hp]
    exact ⟨.withdrawn (.done none), rfl⟩
  | answered input rest e prompt question hs hp ih =>
    obtain ⟨ending, after, left, prompts, hrun, hnone, hmarked, hprompts⟩ :=
      ih (shown ++ [prompt])
    have hmarks : e.marksOfAnswers (some input :: rest)
        = e.marksOfAnswer question input
          ++ (e.deliver question input).carryOn.2.marksOfAnswers rest := by
      rw [marksOfAnswers, hp]
    -- The marks of this answer end with the question that the later ones begin with.
    have hmore := (hs.marked_answer question input).append hmarked
    rw [← hmarks, ← hp] at hmore
    refine ⟨ending, after, left, _, ?_, hnone, hmore, ?_⟩
    · rw [answerPrompts_answered hp]
      exact hrun
    · rw [hprompts]
      simp [Reply.prompts, List.append_assoc]

theorem marksOf_apart {e : Engine ε} (h : e.isWaiting = true) {call : Call}
    (hne : ∀ input, call ≠ .resume input) : e.marksOf call = [] := by
  cases call with
  | resume input => exact absurd rfl (hne input)
  | run routine => simp only [marksOf, marksOfRun, run_of_waiting h]
  | runAnswered => exact if_pos h
  | load | loadFrom | cancel | sendDigits | sendChecksum | close => rfl

theorem marked_runAnswered {e : Engine ε} (h : e.isWaiting = false) (routine : Text)
    (answers : List (Option Text)) :
    Marked none (e.marksOf (.runAnswered routine answers))
      (e.call (.runAnswered routine answers)).1.prompts
      (e.call (.runAnswered routine answers)).2.pending := by
  obtain ⟨standing, hok, hs⟩ := stands_run h routine
  obtain ⟨ending, after, left, prompts, hrun, hnone, hmarked, hprompts⟩ :=
    hs.marked_answers answers []
  have hcall : e.call (.runAnswered routine answers) = (.ended ending left.prompts, after) := by
    simp only [Engine.call, runAnswered_of_run _ _ hok, hrun]
  have hmarks : e.marksOf (.runAnswered routine answers)
      = e.marksOfRun routine ++ (e.run routine).2.marksOfAnswers answers := by
    simp only [marksOf, h, Bool.false_eq_true, if_false]
  have hrest := (marked_run h routine).append hmarked
  simp only [Engine.call, hok, Reply.ofStanding] at hrest
  rw [hcall, hmarks, hnone]
  change Marked none _ left.prompts none
  rw [hprompts]
  exact hrest

theorem Suspended.marked_call {e : Engine ε} (h : e.Suspended) (call : Call) :
    Marked e.pending (e.marksOf call) (e.call call).1.prompts (e.call call).2.pending := by
  have hw := h.isWaiting
  by_cases hresume : ∃ input, call = .resume input
  · obtain ⟨input, rfl⟩ := hresume
    obtain ⟨question, hp⟩ := h.exists_question
    rw [call_resume hp, hp]
    simp only [marksOf, hp]
    exact h.marked_answer question input
  · rcases call_of_waiting hw call with hanswer | ⟨⟨workspace, heq⟩, -, -, hprompts⟩
    · exact absurd hanswer hresume
    · rw [marksOf_apart hw fun input heq => hresume ⟨input, heq⟩, hprompts, heq]
      exact ⟨.done _, rfl⟩

theorem marked_call_of_not_waiting {e : Engine ε} (h : e.isWaiting = false) (call : Call) :
    Marked none (e.marksOf call) (e.call call).1.prompts (e.call call).2.pending := by
  have hleft (hstarts : call.startsRun = false) : (e.call call).2.pending = none := by
    exact pending_eq_none (isWaiting_call_of_not_startsRun h hstarts)
  cases call with
  | run routine => exact marked_run h routine
  | runAnswered routine answers => exact marked_runAnswered h routine answers
  | resume input =>
    have hp := pending_eq_none h
    rw [hleft rfl]
    simp only [Engine.call, resume, marksOf, hp]
    exact ⟨.done none, rfl⟩
  | load | loadFrom | sendDigits | sendChecksum =>
    rw [hleft rfl]
    exact ⟨.done none, (Reply.prompts_ofUnit _).symm⟩
  | cancel | close =>
    rw [hleft rfl]
    exact ⟨.done none, rfl⟩

theorem Settled.marked_call {e : Engine ε} (h : e.Settled) (call : Call) :
    Marked e.pending (e.marksOf call) (e.call call).1.prompts (e.call call).2.pending := by
  rcases h with h | h
  · rw [h.pending]
    exact marked_call_of_not_waiting h.isWaiting call
  · exact h.marked_call call

theorem Settled.marked_callAll {e : Engine ε} (h : e.Settled) (calls : List Call) :
    Marked e.pending (e.marksOfAll calls) ((e.callAll calls).1.flatMap Reply.prompts)
      (e.callAll calls).2.pending := by
  induction calls generalizing e with
  | nil => exact ⟨.done _, rfl⟩
  | cons call rest ih =>
    rw [marksOfAll, callAll_cons, List.flatMap_cons]
    exact (h.marked_call call).append (ih (h.call call))

omit [Environment ε] in
theorem ofRead_error {path : Text} {read : Except Text (List Text)} {error : ScriptError}
    (h : ofRead path read = .error error) : error.isRejection = false := by
  cases read with
  | ok lines => exact Routines.ofLines_error h
  | error cause =>
    cases h
    rfl

theorem isRejection_adopt {loaded : Except ScriptError Routines}
    (h : ∀ error, loaded = .error error → error.isRejection = false) (e : Engine ε) :
    (Reply.ofUnit (e.adopt loaded).1).isRejection = false := by
  cases loaded with
  | ok routines => rfl
  | error error => exact h error rfl

theorem isRejection_sendAny (frame : Except LinkError Frame) (w : Workspace ε) :
    (Reply.ofUnit (w.sendAny frame).1).isRejection = false := by
  cases frame with
  | error e => cases e <;> rfl
  | ok frame =>
    simp only [Workspace.sendAny, Workspace.send]
    split
    · rfl
    · next e _ _ => cases e <;> rfl

/-- What neither begins anything nor answers a prompt can be done at any time. -/
theorem isRejection_call_aside (e : Engine ε) {call : Call} (hb : call.begins = false)
    (hne : ∀ input, call ≠ .resume input) : (e.call call).1.isRejection = false := by
  cases call with
  | resume input => exact absurd rfl (hne input)
  | sendDigits | sendChecksum => exact isRejection_sendAny _ e.workspace
  | cancel | close => rfl
  | load | loadFrom | run | runAnswered => cases hb

theorem isRejection_call_begins {e : Engine ε} (h : e.isWaiting = false) {call : Call}
    (hb : call.begins = true) : (e.call call).1.isRejection = false := by
  cases call with
  | load lines =>
    simp only [Engine.call, load_of_not_waiting h]
    exact isRejection_adopt (fun _ => Routines.ofLines_error) _
  | loadFrom path =>
    simp only [Engine.call, loadFrom_of_not_waiting h]
    exact isRejection_adopt (fun _ => ofRead_error) _
  | run routine =>
    obtain ⟨standing, hok, -⟩ := stands_run h routine
    simp only [Engine.call, hok]
    rfl
  | runAnswered routine answers =>
    obtain ⟨_, _, _, _, _, -, hcall, -⟩ := call_runAnswered h routine answers
    rw [hcall]
    rfl
  | resume | cancel | sendDigits | sendChecksum | close => cases hb

/-- A call is rejected because a prompt waits or because none does, and then nothing happens. -/
theorem call_of_isRejection {e : Engine ε} {call : Call}
    (h : (e.call call).1.isRejection = true) :
    e.isWaiting = true ∧ call.begins = true ∧ e.call call = (.refused .busy, e) ∨
      e.isWaiting = false ∧ (∃ input, call = .resume input) ∧
        e.call call = (.refused .noPendingInput, e) := by
  by_cases hresume : ∃ input, call = .resume input
  · obtain ⟨input, rfl⟩ := hresume
    cases hp : e.pending with
    | some question =>
      rw [call_resume hp] at h
      cases h
    | none =>
      refine Or.inr ⟨by simp [isWaiting, hp], ⟨input, rfl⟩, ?_⟩
      simp only [Engine.call, resume, hp, Reply.ofStanding]
  · cases hb : call.begins with
    | false =>
      rw [isRejection_call_aside e hb fun input heq => hresume ⟨input, heq⟩] at h
      cases h
    | true =>
      cases hw : e.isWaiting with
      | true => exact Or.inl ⟨rfl, rfl, call_of_begins hw hb⟩
      | false =>
        rw [isRejection_call_begins hw hb] at h
        cases h

theorem call_eq_busy_iff {e : Engine ε} {call : Call} (hb : call.begins = true) :
    (e.call call).1 = .refused .busy ↔ e.isWaiting = true := by
  constructor
  · intro hbusy
    have hrejected : (e.call call).1.isRejection = true := by
      rw [hbusy]
      rfl
    rcases call_of_isRejection hrejected with ⟨hw, -⟩ | ⟨-, ⟨input, rfl⟩, -⟩
    · exact hw
    · cases hb
  · intro hw
    rw [call_of_begins hw hb]

theorem call_eq_noPendingInput_iff (e : Engine ε) (input : Text) :
    (e.call (.resume input)).1 = .refused .noPendingInput ↔ e.isWaiting = false := by
  constructor
  · intro hnone
    have hrejected : (e.call (.resume input)).1.isRejection = true := by
      rw [hnone]
      rfl
    rcases call_of_isRejection hrejected with ⟨-, hb, -⟩ | ⟨hw, -⟩
    · cases hb
    · exact hw
  · intro hw
    have hp := pending_eq_none hw
    simp only [Engine.call, resume, hp, Reply.ofStanding]

theorem answerPrompts_ne_busy {α : Type} (source : AnswerSource α) (rest : α)
    (standing : Standing) (e : Engine ε) :
    (e.answerPrompts source rest standing).1 ≠ .error .busy := by
  fun_induction answerPrompts source rest standing e with
  | case1 | case2 | case3 | case4 => nofun
  | case5 => assumption

/-- Whoever is to answer the prompts, they are not asked if a prompt waits already. -/
theorem runAnswered_eq_busy_iff {α : Type} (source : AnswerSource α) (rest : α) (e : Engine ε)
    (routine : Text) :
    (e.runAnswered routine source rest).1 = .error .busy ↔ e.isWaiting = true := by
  cases hw : e.isWaiting with
  | true => simp only [runAnswered_of_waiting hw]
  | false =>
    obtain ⟨standing, hok, -⟩ := stands_run hw routine
    rw [runAnswered_of_run source rest hok]
    simpa using answerPrompts_ne_busy source rest standing (e.run routine).2

def heeded (e : Engine ε) : List Call → List Call
  | [] => []
  | call :: rest =>
    if (e.call call).1.isRejection then (e.call call).2.heeded rest
    else call :: (e.call call).2.heeded rest

theorem callAll_heeded (e : Engine ε) (calls : List Call) :
    e.callAll (e.heeded calls)
      = ((e.callAll calls).1.filter fun reply => !reply.isRejection, (e.callAll calls).2) := by
  induction calls generalizing e with
  | nil => rfl
  | cons call rest ih =>
    have hnext := ih (e.call call).2
    rw [heeded, callAll_cons]
    split
    · next hrejected =>
      have hsame : (e.call call).2 = e := by
        rcases call_of_isRejection hrejected with ⟨-, -, heq⟩ | ⟨-, -, heq⟩ <;> rw [heq]
      rw [List.filter_cons, hrejected]
      rw [hsame] at hnext ⊢
      exact hnext
    · next haccepted =>
      rw [callAll_cons, hnext, List.filter_cons]
      simp [haccepted]

theorem marksOf_of_isRejection {e : Engine ε} {call : Call}
    (h : (e.call call).1.isRejection = true) : e.marksOf call = [] := by
  rcases call_of_isRejection h with ⟨hw, hb, -⟩ | ⟨hw, ⟨input, rfl⟩, -⟩
  · refine marksOf_apart hw ?_
    rintro input rfl
    cases hb
  · have hp := pending_eq_none hw
    simp only [marksOf, hp]

omit [Environment ε] in
theorem inputs_askedBy (standing : Standing) (left : Engine ε) :
    (askedBy standing left).filterMap Mark.input? = [] := by
  unfold askedBy
  split <;> rfl

/-- An answer that is accepted is given to the question that waits, and to no other: the host hears
of that question with the answer as the last row, and the run goes on from there. -/
structure Takes (question : Command) (input : Text) (e : Engine ε) : Prop where
  waits : e.pending = some question
  reply : e.call (.resume input) = (.standing (e.deliver question input).carryOn.1,
    (e.deliver question input).carryOn.2)
  heard : (e.deliver question input).workspace.around
    = (Host.observe ⟨question.line, input, []⟩ e.workspace.around).2
  lastRow : (e.deliver question input).workspace.lastRow = input
  lastData : (e.deliver question input).workspace.lastData = []

theorem exists_takes {e : Engine ε} {input : Text}
    (haccepted : (e.call (.resume input)).1.isRejection = false) :
    ∃ question, e.Takes question input := by
  cases hp : e.pending with
  | none =>
    simp only [Engine.call, resume, hp] at haccepted
    cases haccepted
  | some question => exact ⟨question, hp, call_resume hp input, rfl, rfl, rfl⟩

theorem inputs_resume {e : Engine ε} {input : Text}
    (haccepted : (e.call (.resume input)).1.isRejection = false) :
    (e.marksOf (.resume input)).filterMap Mark.input? = [input] := by
  obtain ⟨question, htakes⟩ := exists_takes haccepted
  simp only [marksOf, htakes.waits, marksOfAnswer, List.filterMap_cons, Mark.input?,
    inputs_askedBy]

/-- Prompts and answers pair up. To begin anything is refused exactly while a prompt waits, and an
answer exactly while none does; a call that is rejected for its time leaves everything as it was, so
a history without its rejected calls comes to the same. An answer that is accepted is what the last
row is when the host hears of the question that waited. The questions of a history are the prompts
that it shows, and each answer is given to the question asked just before. -/
theorem prompts_pair_up {e : Engine ε} (h : e.IsReachable) :
    (∀ call, call.begins = true →
      ((e.call call).1 = .refused .busy ↔ e.isWaiting = true)) ∧
    (∀ (α : Type) (source : AnswerSource α) rest routine,
      ((e.runAnswered routine source rest).1 = .error .busy ↔ e.isWaiting = true) ∧
        (e.isWaiting = true → e.runAnswered routine source rest = (.error .busy, e, rest))) ∧
    (∀ input, (e.call (.resume input)).1 = .refused .noPendingInput ↔ e.isWaiting = false) ∧
    (∀ call, (e.call call).1.isRejection = true → (e.call call).2 = e ∧ e.marksOf call = []) ∧
    (∀ input, (e.call (.resume input)).1.isRejection = false →
      (e.marksOf (.resume input)).filterMap Mark.input? = [input] ∧
        ∃ question, e.Takes question input) ∧
    ∀ calls,
      e.callAll (e.heeded calls)
          = ((e.callAll calls).1.filter fun reply => !reply.isRejection, (e.callAll calls).2) ∧
        Paired e.pending (e.marksOfAll calls) (e.callAll calls).2.pending ∧
        (e.marksOfAll calls).filterMap Mark.prompt?
          = (e.callAll calls).1.flatMap Reply.prompts ∧
        ∀ before question input after,
          e.marksOfAll calls = before ++ .answered question input :: after →
            before = [] ∧ e.pending = some question ∨
              ∃ earlier prompt, before = earlier ++ [.asked question prompt] := by
  have hsettled := settled_of_isReachable h
  refine ⟨fun _ => call_eq_busy_iff, ?_, call_eq_noPendingInput_iff e, ?_,
    fun _ haccepted => ⟨inputs_resume haccepted, exists_takes haccepted⟩, ?_⟩
  · intro α source rest routine
    exact ⟨runAnswered_eq_busy_iff source rest e routine,
      fun hw => runAnswered_of_waiting hw routine source rest⟩
  · intro call hrejected
    refine ⟨?_, marksOf_of_isRejection hrejected⟩
    rcases call_of_isRejection hrejected with ⟨-, -, heq⟩ | ⟨-, -, heq⟩ <;> rw [heq]
  · intro calls
    have hmarked := hsettled.marked_callAll calls
    refine ⟨callAll_heeded e calls, hmarked.paired, hmarked.prompts, ?_⟩
    intro before question input after hsplit
    have hpaired := hmarked.paired
    rw [hsplit] at hpaired
    exact hpaired.of_answered

theorem prompts_pair_up_inquiring :
    let asked := (inquiring.call (.run [])).2
    let calls : List Call := [.load [], .resume ['r'], .resume ['s']]
    asked.IsReachable ∧ asked.call (.load []) = (.refused .busy, asked) ∧
      (asked.callAll calls).1
        = [.refused .busy, .standing (.ended .completed), .refused .noPendingInput] ∧
      asked.callAll [.resume ['r']] = ([.standing (.ended .completed)], (asked.callAll calls).2) ∧
      asked.Takes (.textual 'U' ['q']) ['r'] ∧
      asked.marksOfAll calls = [.answered (.textual 'U' ['q']) ['r']] := by
  intro asked calls
  have hreach : asked.IsReachable := ((isReachable_idle {} Bench.fresh rfl).call _).call _
  obtain ⟨prompt, first, hfirst, hpending, last, hlast, hover⟩ : ∃ prompt first,
      loop 3 { inquiring.begun with stack := [{ routine := [] }] }
        = some (.waiting prompt, first) ∧
      first.pending = some (.textual 'U' ['q']) ∧
      ∃ last, loop 4 (first.deliver (.textual 'U' ['q']) ['r'])
        = some (.ended .completed, last) ∧ last.pending = none :=
    ⟨_, _, rfl, rfl, _, rfl, rfl⟩
  have hasked : asked = first := by
    change (inquiring.call (.run [])).2 = first
    rw [call_run_of_contains rfl (by decide), carryOn_eq_of_loop hfirst]
  obtain ⟨hbusy, -, -, hsame, hgiven, hcalls⟩ := prompts_pair_up hreach
  have hw : asked.isWaiting = true := by
    rw [hasked]
    exact congrArg Option.isSome hpending
  have hrefused := (hbusy (.load []) rfl).2 hw
  have hload : asked.call (.load []) = (.refused .busy, asked) :=
    Prod.ext hrefused (hsame _ (by rw [hrefused]; rfl)).1
  have hresume : asked.call (.resume ['r']) = (.standing (.ended .completed), last) := by
    rw [hasked, call_resume hpending, carryOn_eq_of_loop hlast]
  have hlate : last.call (.resume ['s']) = (.refused .noPendingInput, last) := by
    simp only [Engine.call, resume, hover, Reply.ofStanding]
  have hreplies : asked.callAll calls
      = ([.refused .busy, .standing (.ended .completed), .refused .noPendingInput], last) := by
    simp only [calls, callAll, hload, hresume, hlate]
  have hheeded : asked.heeded calls = [.resume ['r']] := by
    simp [calls, heeded, hload, hresume, hlate, Reply.isRejection, ScriptError.isRejection]
  refine ⟨hreach, hload, ?_, ?_, ?_, ?_⟩
  · rw [hreplies]
  · rw [← hheeded, (hcalls calls).1, hreplies]
    rfl
  · obtain ⟨-, question, htakes⟩ := hgiven ['r'] (by rw [hresume]; rfl)
    have hquestion := htakes.waits
    rw [hasked, hpending] at hquestion
    cases hquestion
    exact htakes
  · have hanswer : asked.marksOf (.resume ['r']) = [.answered (.textual 'U' ['q']) ['r']] := by
      rw [hasked]
      simp only [marksOf, hpending, marksOfAnswer, carryOn_eq_of_loop hlast, askedBy]
    have hnothing : last.marksOf (.resume ['s']) = [] := by simp only [marksOf, hover]
    simp only [calls, marksOfAll, hload, hresume]
    rw [hanswer, hnothing]
    rfl

end Engine
end BenchScript
