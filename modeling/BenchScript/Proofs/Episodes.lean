import BenchScript.Proofs.Passages
import BenchScript.Proofs.Runs

set_option autoImplicit false

namespace BenchScript

/-- A part of a run: the command in progress, how the run ended in it if it did, what passed, and
the engine that it left. -/
structure Episode (ε : Type) where
  command? : Option Command
  ending? : Option Ending
  passed : List Passage
  left : Engine (Recorded ε)

def Call.runs : Call → Bool
  | .run _ | .resume _ | .runAnswered _ _ => true
  | _ => false

theorem Reply.endings_cons (reply : Reply) (replies : List Reply) :
    (reply :: replies).filterMap Reply.ending?
      = reply.ending?.toList ++ replies.filterMap Reply.ending? := by
  rw [List.filterMap_cons]
  cases reply.ending? <;> rfl

namespace Workspace

variable {ε : Type} [Environment ε]

/-- What is sent has no part in the variables, and does not ask for cancellation. -/
theorem send_keeps (frame : Frame) (w : Workspace ε) :
    (w.send frame).2.bindings = w.bindings ∧ (w.send frame).2.cancelled = w.cancelled := by
  unfold send
  split <;> exact ⟨rfl, rfl⟩

theorem sendAny_keeps (frame : Except LinkError Frame) (w : Workspace ε) :
    (w.sendAny frame).2.bindings = w.bindings ∧ (w.sendAny frame).2.cancelled = w.cancelled := by
  cases frame with
  | error e => exact ⟨rfl, rfl⟩
  | ok frame => exact send_keeps frame w

end Workspace

namespace Engine

variable {ε : Type} [Environment ε]

/-- While a prompt waits, calls other than its answer define no variable, take back no wish to
cancel, and have no part in the run. -/
theorem call_apart {e : Engine ε} (h : e.isWaiting = true) {call : Call}
    (hne : ∀ input, call ≠ .resume input) :
    (e.call call).2.workspace.bindings = e.workspace.bindings ∧
      (e.workspace.cancelled = true → (e.call call).2.workspace.cancelled = true) := by
  cases call with
  | resume input => exact absurd rfl (hne input)
  | load | loadFrom | run | runAnswered =>
    rw [call_of_begins h rfl]
    exact ⟨rfl, id⟩
  | cancel => exact ⟨rfl, fun _ => rfl⟩
  | close => exact ⟨rfl, id⟩
  | sendDigits text | sendChecksum text =>
    obtain ⟨hbindings, hcancelled⟩ := Workspace.sendAny_keeps _ e.workspace
    exact ⟨hbindings, hcancelled.trans⟩

def since (earlier later : Engine (Recorded ε)) : List Passage :=
  later.record.drop earlier.record.length

omit [Environment ε] in
theorem record_since {earlier later : Engine (Recorded ε)} (h : earlier.record <+: later.record) :
    earlier.record ++ since earlier later = later.record := by
  obtain ⟨passed, h⟩ := h
  unfold since
  rw [← h, List.drop_left]

omit [Environment ε] in
theorem since_eq_of_record {earlier later : Engine (Recorded ε)} {passed : List Passage}
    (h : later.record = earlier.record ++ passed) : since earlier later = passed := by
  unfold since
  rw [h, List.drop_left]

omit [Environment ε] in
theorem since_self (e : Engine (Recorded ε)) : since e e = [] := List.drop_length

omit [Environment ε] in
theorem since_trans {e e' e'' : Engine (Recorded ε)} (h : e.record <+: e'.record)
    (h' : e'.record <+: e''.record) : since e e'' = since e e' ++ since e' e'' := by
  apply since_eq_of_record
  rw [← List.append_assoc, record_since h, record_since h']

def episode (m : Engine (Recorded ε)) : Episode ε :=
  match m.step with
  | .going e' => ⟨m.inProgress?, none, since m e', e'⟩
  | .halted standing e' => ⟨m.inProgress?, (Reply.standing standing).ending?, since m e', e'⟩

theorem episode_of_going {m e' : Engine (Recorded ε)} (h : m.step = .going e') :
    m.episode = ⟨m.inProgress?, none, since m e', e'⟩ := by
  unfold episode
  rw [h]

theorem episode_of_halted {m e' : Engine (Recorded ε)} {standing : Standing}
    (h : m.step = .halted standing e') :
    m.episode = ⟨m.inProgress?, (Reply.standing standing).ending?, since m e', e'⟩ := by
  unfold episode
  rw [h]

def episodes (start : Engine (Recorded ε)) : List (Episode ε) := start.course.map episode

def episodesOfAnswer (command : Command) (input : Text) (e : Engine (Recorded ε)) :
    List (Episode ε) :=
  ⟨some command, none, since e (e.deliver command input), e.deliver command input⟩
    :: (e.deliver command input).episodes

def abandonment (e : Engine (Recorded ε)) : Episode ε :=
  ⟨none, some .cancelled, since e e.abandon, e.abandon⟩

def absence (routine : Text) (e : Engine (Recorded ε)) : Episode ε :=
  ⟨none, some (.routineNotFound routine), since e (e.begun.finish (.routineNotFound routine)).2,
    (e.begun.finish (.routineNotFound routine)).2⟩

def episodesOfRun (routine : Text) (e : Engine (Recorded ε)) : List (Episode ε) :=
  if e.isWaiting then []
  else if e.begun.routines.contains routine then episodes { e.begun with stack := [{ routine }] }
  else [e.absence routine]

def episodesOfAnswers : List (Option Text) → Engine (Recorded ε) → List (Episode ε)
  | some input :: rest, e =>
    match e.pending with
    | none => []
    | some command =>
      e.episodesOfAnswer command input
        ++ episodesOfAnswers rest (e.deliver command input).carryOn.2
  | _, e => if e.isWaiting then [e.abandonment] else []

def episodesOf (e : Engine (Recorded ε)) : Call → List (Episode ε)
  | .run routine => e.episodesOfRun routine
  | .resume input =>
    match e.pending with
    | none => []
    | some command => e.episodesOfAnswer command input
  | .runAnswered routine answers =>
    if e.isWaiting then []
    else e.episodesOfRun routine ++ (e.run routine).2.episodesOfAnswers answers
  | _ => []

def episodesOfAll (e : Engine (Recorded ε)) : List Call → List (Episode ε)
  | [] => []
  | call :: rest => e.episodesOf call ++ (e.call call).2.episodesOfAll rest

theorem record_carryOn (start : Engine (Recorded ε)) :
    start.carryOn.2.record = start.record ++ start.episodes.flatMap Episode.passed := by
  unfold episodes
  fun_induction carryOn start with
  | case1 m e' h ih =>
    have hstep := record_since (record_of_stretch (stretch_going h))
    rw [course_of_going h, List.map_cons, List.flatMap_cons, episode_of_going h,
      ← List.append_assoc, hstep]
    exact ih
  | case2 m standing e' h =>
    have hstep := record_since (record_halted h)
    rw [course_of_halted h, List.map_singleton, List.flatMap_singleton, episode_of_halted h, hstep]

theorem record_answer (command : Command) (input : Text) (e : Engine (Recorded ε)) :
    (e.deliver command input).carryOn.2.record
      = e.record ++ (e.episodesOfAnswer command input).flatMap Episode.passed := by
  have hdelivered : e.record <+: (e.deliver command input).record := ⟨_, rfl⟩
  rw [episodesOfAnswer, List.flatMap_cons, ← List.append_assoc, record_since hdelivered]
  exact record_carryOn _

theorem record_abandon (e : Engine (Recorded ε)) :
    e.abandon.record = e.record ++ [e.abandonment].flatMap Episode.passed := by
  have habandon : e.record <+: e.abandon.record := ⟨_, rfl⟩
  rw [List.flatMap_singleton]
  exact (record_since habandon).symm

theorem episodesOfRun_of_contains {e : Engine (Recorded ε)} (h : e.isWaiting = false)
    {routine : Text} (hr : e.routines.contains routine = true) :
    e.episodesOfRun routine = episodes { e.begun with stack := [{ routine }] } := by
  have hbegun : e.begun.routines.contains routine = true := hr
  simp only [episodesOfRun, h, Bool.false_eq_true, if_false, hbegun, if_true]

theorem episodesOfRun_of_not_contains {e : Engine (Recorded ε)} (h : e.isWaiting = false)
    {routine : Text} (hr : e.routines.contains routine = false) :
    e.episodesOfRun routine = [e.absence routine] := by
  have hbegun : e.begun.routines.contains routine = false := hr
  simp only [episodesOfRun, h, Bool.false_eq_true, if_false, hbegun]

theorem record_run {e : Engine (Recorded ε)} (h : e.isWaiting = false) (routine : Text) :
    (e.call (.run routine)).2.record
      = e.record ++ (e.episodesOfRun routine).flatMap Episode.passed := by
  cases hr : e.routines.contains routine with
  | true =>
    rw [call_run_of_contains h hr, episodesOfRun_of_contains h hr]
    exact record_carryOn _
  | false =>
    have habsent : e.record <+: (e.begun.finish (.routineNotFound routine)).2.record :=
      record_finish e.begun _
    rw [call_run_of_not_contains h hr, episodesOfRun_of_not_contains h hr, List.flatMap_singleton]
    exact (record_since habsent).symm

theorem episodesOfAnswers_of_none {e : Engine (Recorded ε)} (h : e.pending = none)
    (answers : List (Option Text)) : e.episodesOfAnswers answers = [] := by
  unfold episodesOfAnswers
  split
  · rw [h]
  · unfold isWaiting
    rw [h]
    rfl

/-- What becomes of a run from between two calls on: its episodes, the endings that are told of it,
and the engine that is left. -/
inductive GoesOn : Engine (Recorded ε) → List (Episode ε) → List Ending → Engine (Recorded ε) → Prop
  where
  | stays {e : Engine (Recorded ε)} (he : e.Settled) : GoesOn e [] [] e
  /-- The host makes calls of its own while a prompt waits. -/
  | apart {s after : Engine (Recorded ε)} {workspace : Workspace (Recorded ε)}
      {episodes : List (Episode ε)} {endings : List Ending} (hs : s.Suspended)
      (hb : workspace.bindings = s.workspace.bindings)
      (hc : s.workspace.cancelled = true → workspace.cancelled = true)
      (rest : GoesOn { s with workspace } episodes endings after) :
      GoesOn s episodes endings after
  | answered {s after : Engine (Recorded ε)} {command : Command} {input : Text}
      {episodes : List (Episode ε)} {endings : List Ending} (hs : s.Suspended)
      (hp : s.pending = some command)
      (rest : GoesOn (s.deliver command input).carryOn.2 episodes endings after) :
      GoesOn s (s.episodesOfAnswer command input ++ episodes)
        ((Reply.standing (s.deliver command input).carryOn.1).ending?.toList ++ endings) after
  | abandoned {s : Engine (Recorded ε)} (hs : s.Suspended) :
      GoesOn s [s.abandonment] [.cancelled] s.abandon

omit [Environment ε] in
theorem Suspended.pending_ne_none {s : Engine ε} (h : s.Suspended) : s.pending ≠ none := by
  obtain ⟨_, hp⟩ := h.exists_question
  rw [hp]
  exact Option.some_ne_none _

/-- A run that is over does not go on. -/
theorem GoesOn.of_pending_none {e after : Engine (Recorded ε)} {episodes : List (Episode ε)}
    {endings : List Ending} (h : GoesOn e episodes endings after) (hp : e.pending = none) :
    episodes = [] ∧ endings = [] ∧ after = e := by
  cases h with
  | stays => exact ⟨rfl, rfl, rfl⟩
  | apart hs | answered hs | abandoned hs => exact absurd hp hs.pending_ne_none

theorem episodesOf_resume {e : Engine (Recorded ε)} {command : Command}
    (h : e.pending = some command) (input : Text) :
    e.episodesOf (.resume input) = e.episodesOfAnswer command input := by
  unfold episodesOf
  rw [h]

theorem episodesOf_apart {e : Engine (Recorded ε)} (h : e.isWaiting = true) {call : Call}
    (hne : ∀ input, call ≠ .resume input) : e.episodesOf call = [] := by
  cases call with
  | resume input => exact absurd rfl (hne input)
  | run | runAnswered => exact if_pos h
  | load | loadFrom | cancel | sendDigits | sendChecksum | close => rfl

theorem UnderWay.goesOn {e : Engine (Recorded ε)} (he : e.Settled) {calls : List Call}
    (h : e.UnderWay calls) :
    GoesOn e (e.episodesOfAll calls) ((e.callAll calls).1.filterMap Reply.ending?)
      (e.callAll calls).2 := by
  induction calls generalizing e with
  | nil => exact .stays he
  | cons call rest ih =>
    obtain ⟨hw, hrest⟩ := h
    have hs := he.suspended hw
    have hnext := ih (he.call call) hrest
    rw [episodesOfAll, callAll_cons, Reply.endings_cons]
    by_cases hresume : ∃ input, call = .resume input
    · obtain ⟨input, rfl⟩ := hresume
      obtain ⟨command, hp⟩ := hs.exists_question
      rw [call_resume hp] at hnext ⊢
      rw [episodesOf_resume hp]
      exact GoesOn.answered hs hp hnext
    · have hne : ∀ input, call ≠ .resume input := fun input heq => hresume ⟨input, heq⟩
      obtain ⟨hbindings, hcancelled⟩ := call_apart hw hne
      rcases call_of_waiting hw call with hanswer | ⟨⟨workspace, heq⟩, -, hend, -⟩
      · exact absurd hanswer hresume
      · rw [episodesOf_apart hw hne, hend]
        rw [heq] at hnext hbindings hcancelled ⊢
        exact GoesOn.apart hs hbindings hcancelled hnext

/-- To answer the prompts of a run so is to go on with it until it ends, and nothing passes but in
its episodes. -/
def EndsAnswered (answers : List (Option Text)) (asked : List Text) (e : Engine (Recorded ε))
    (standing : Standing) : Prop :=
  ∃ ending after left endings,
    e.answerPrompts Prepared.source ⟨answers, asked⟩ standing = (.ok ending, after, left) ∧
    GoesOn e (e.episodesOfAnswers answers) endings after ∧
    (Reply.standing standing).ending?.toList ++ endings = [ending] ∧
    after.record = e.record ++ (e.episodesOfAnswers answers).flatMap Episode.passed

theorem episodesOfAnswers_unanswered {e : Engine (Recorded ε)} (h : e.isWaiting = true)
    {answers : List (Option Text)} (ha : answers.headD none = none) :
    e.episodesOfAnswers answers = [e.abandonment] := by
  unfold episodesOfAnswers
  split
  · cases ha
  · exact if_pos h

theorem endsAnswered (answers : List (Option Text)) (asked : List Text) {e : Engine (Recorded ε)}
    {standing : Standing} (h : e.Stands standing) : e.EndsAnswered answers asked standing := by
  induction answers, e, standing, h using Stands.induction generalizing asked with
  | ended answers e ending h =>
    have hnone := episodesOfAnswers_of_none h.1.pending answers
    refine ⟨ending, e, _, [], answerPrompts_ended e ending, ?_, rfl, ?_⟩
    · rw [hnone]
      exact .stays h.settled
    · rw [hnone, List.flatMap_nil, List.append_nil]
  | unanswered answers e prompt hs ha =>
    have hepisodes := episodesOfAnswers_unanswered hs.isWaiting ha
    refine ⟨.cancelled, e.abandon, _, [.cancelled], answerPrompts_unanswered ha asked prompt e, ?_,
      rfl, ?_⟩
    · rw [hepisodes]
      exact .abandoned hs
    · rw [hepisodes]
      exact record_abandon e
  | answered input rest e prompt command hs hp ih =>
    obtain ⟨ending, after, left, endings, hrun, hgoes, hend, hrecord⟩ := ih (asked ++ [prompt])
    have hepisodes : e.episodesOfAnswers (some input :: rest)
        = e.episodesOfAnswer command input
          ++ (e.deliver command input).carryOn.2.episodesOfAnswers rest := by
      rw [episodesOfAnswers, hp]
    refine ⟨ending, after, left, [ending], ?_, ?_, rfl, ?_⟩
    · rw [answerPrompts_answered hp]
      exact hrun
    · rw [hepisodes, ← hend]
      exact GoesOn.answered hs hp hgoes
    · rw [hrecord, record_answer, hepisodes, List.flatMap_append, List.append_assoc]

/-- Nothing passes in a run but what passes in its episodes. -/
theorem record_call {e : Engine (Recorded ε)} (h : e.isWaiting = true → e.Suspended) {call : Call}
    (hr : call.runs = true) :
    (e.call call).2.record = e.record ++ (e.episodesOf call).flatMap Episode.passed := by
  by_cases hw : e.isWaiting = true
  · by_cases hresume : ∃ input, call = .resume input
    · obtain ⟨input, rfl⟩ := hresume
      obtain ⟨command, hp⟩ := (h hw).exists_question
      rw [call_resume hp, episodesOf_resume hp]
      exact record_answer command input e
    · rw [episodesOf_apart hw fun input heq => hresume ⟨input, heq⟩, List.flatMap_nil,
        List.append_nil]
      cases call with
      | run | runAnswered => rw [call_of_begins hw rfl]
      | resume input => exact absurd ⟨input, rfl⟩ hresume
      | load | loadFrom | cancel | sendDigits | sendChecksum | close => cases hr
  · have hw : e.isWaiting = false := by simpa using hw
    cases call with
    | run routine => exact record_run hw routine
    | resume input =>
      have hp := pending_eq_none hw
      simp only [Engine.call, resume, episodesOf, hp, List.flatMap_nil, List.append_nil]
    | runAnswered routine answers =>
      obtain ⟨standing, hok, hs⟩ := stands_run hw routine
      obtain ⟨ending, after, left, endings, hrun, -, -, hrecord⟩ := endsAnswered answers [] hs
      have hepisodes : e.episodesOf (.runAnswered routine answers)
          = e.episodesOfRun routine ++ (e.run routine).2.episodesOfAnswers answers := by
        simp only [episodesOf, hw, Bool.false_eq_true, if_false]
      have hcall : (e.call (.runAnswered routine answers)).2 = after := by
        simp only [Engine.call, runAnswered_of_run _ _ hok, hrun]
      rw [hcall, hrecord, hepisodes, List.flatMap_append, ← List.append_assoc]
      exact congrArg (· ++ _) (record_run hw routine)
    | load | loadFrom | cancel | sendDigits | sendChecksum | close => cases hr

/-- A run begins with a leg and goes on from there, or ends at once because there is no such
routine. -/
theorem IsRun.goesOn {e : Engine (Recorded ε)} {calls : List Call} (h : e.IsRun calls) :
    (∃ (start : Engine (Recorded ε)) (episodes : List (Episode ε)) (endings : List Ending),
      start.OnCourse ∧ e.episodesOfAll calls = start.episodes ++ episodes ∧
      (e.callAll calls).1.filterMap Reply.ending?
        = (Reply.standing start.carryOn.1).ending?.toList ++ endings ∧
      GoesOn start.carryOn.2 episodes endings (e.callAll calls).2) ∨
    ∃ routine, e.episodesOfAll calls = [e.absence routine] := by
  match calls, h with
  | .run routine :: rest, ⟨hw, hway⟩ =>
    cases hr : e.routines.contains routine with
    | true =>
      have hstart := onCourse_begun hw routine
      have hepisodes : e.episodesOf (.run routine)
          = episodes { e.begun with stack := [{ routine }] } :=
        episodesOfRun_of_contains hw hr
      rw [call_run_of_contains hw hr] at hway
      rw [episodesOfAll, callAll_cons, Reply.endings_cons, hepisodes, call_run_of_contains hw hr]
      exact Or.inl ⟨_, _, _, hstart, rfl, rfl, hway.goesOn hstart.stands.settled⟩
    | false =>
      have hp := pending_eq_none hw
      rw [call_run_of_not_contains hw hr] at hway
      have hnil : rest = [] := by
        apply underWay_of_not_waiting hway
        unfold isWaiting
        rw [pending_finish]
        simp [begun, hp]
      subst hnil
      refine Or.inr ⟨routine, ?_⟩
      rw [episodesOfAll, episodesOfAll, List.append_nil]
      exact episodesOfRun_of_not_contains hw hr
  | .runAnswered routine answers :: rest, ⟨hw, hway⟩ =>
    obtain ⟨_, _, _, _, _, -, hcall, hafter⟩ := call_runAnswered hw routine answers
    rw [hcall] at hway
    have hnil : rest = [] := underWay_of_not_waiting hway hafter.1.isWaiting
    subst hnil
    have hepisodes : e.episodesOfAll [.runAnswered routine answers]
        = e.episodesOfRun routine ++ (e.run routine).2.episodesOfAnswers answers := by
      simp only [episodesOfAll, episodesOf, hw, Bool.false_eq_true, if_false, List.append_nil]
    obtain ⟨standing, hok, hs⟩ := stands_run hw routine
    obtain ⟨ending, after, left, endings, hrun, hgoes, hend, -⟩ := endsAnswered answers [] hs
    have hanswered : e.call (.runAnswered routine answers)
        = (.ended ending left.prompts, after) := by
      simp only [Engine.call, runAnswered_of_run _ _ hok, hrun]
    have hreply : (e.call (.run routine)).1 = .standing standing := by
      simp only [Engine.call, hok, Reply.ofStanding]
    have hleft : (e.call (.run routine)).2 = (e.run routine).2 := rfl
    rw [hepisodes, callAll_cons, hanswered]
    cases hr : e.routines.contains routine with
    | true =>
      rw [call_run_of_contains hw hr] at hreply hleft
      obtain rfl := Reply.standing.inj hreply
      rw [← hleft] at hgoes ⊢
      rw [episodesOfRun_of_contains hw hr]
      exact Or.inl ⟨_, _, endings, onCourse_begun hw routine, rfl, hend.symm, hgoes⟩
    | false =>
      rw [call_run_of_not_contains hw hr] at hreply
      obtain rfl := Reply.standing.inj hreply
      refine Or.inr ⟨routine, ?_⟩
      rw [episodesOfRun_of_not_contains hw hr, episodesOfAnswers_of_none hs.1.pending,
        List.append_nil]

end Engine
end BenchScript
