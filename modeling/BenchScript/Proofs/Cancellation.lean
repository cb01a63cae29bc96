import BenchScript.Proofs.Episodes

set_option autoImplicit false

namespace BenchScript

def cancelledNote : Notification := ⟨.warning, "cancelled".toList, false⟩

def Episode.IsOpen {ε : Type} (x : Episode ε) : Prop :=
  ∀ ending, x.ending? = some ending → ending = .completed

/-- What may still be heard of a command in progress once the host has asked for cancellation. -/
def HeardOf (command? : Option Command) (after : List Passage) : Prop :=
  after = [] ∨ ∃ command row data cancel, command? = some command ∧
    after = [.observed ⟨command.line, row, data⟩ cancel]

namespace Engine

variable {ε : Type} [Environment ε]

theorem step_of_cancelled {e : Engine ε} (h : e.workspace.cancelled = true) :
    e.step = .halted (.ended .cancelled) (e.finish .cancelled).2 := by
  unfold step
  rw [if_pos h, halt_eq]

theorem carryOn_of_cancelled {e : Engine ε} (h : e.workspace.cancelled = true) :
    e.carryOn = (.ended .cancelled, (e.finish .cancelled).2) :=
  carryOn_of_halted (step_of_cancelled h)

theorem since_finish_cancelled (e : Engine (Recorded ε)) :
    ∃ cancel, since e (e.finish .cancelled).2 = [.notified cancelledNote cancel] :=
  ⟨_, since_eq_of_record rfl⟩

theorem since_deliver (command : Command) (input : Text) (e : Engine (Recorded ε)) :
    ∃ cancel, since e (e.deliver command input) = [.observed ⟨command.line, input, []⟩ cancel] :=
  ⟨_, since_eq_of_record rfl⟩

theorem episodes_of_cancelled {e : Engine (Recorded ε)} (h : e.workspace.cancelled = true) :
    ∃ cancel, e.episodes.flatMap Episode.passed = [.notified cancelledNote cancel] := by
  have hstep := step_of_cancelled h
  obtain ⟨cancel, hsince⟩ := since_finish_cancelled e
  refine ⟨cancel, ?_⟩
  unfold episodes
  rw [course_of_halted hstep, List.map_singleton, List.flatMap_singleton,
    episode_of_halted hstep]
  exact hsince

structure Closes (s : Engine (Recorded ε)) (answer : List Passage) (later : List (Episode ε))
    (endings : List Ending) (after : Engine (Recorded ε)) : Prop where
  passed : ∃ cancel, later.flatMap Episode.passed = answer ++ [.notified cancelledNote cancel]
  endings : endings = [.cancelled]
  stack : after.stack = []
  pending : after.pending = none
  bindings : after.workspace.bindings = s.workspace.bindings
  budget : after.budget = s.budget

/-- Nothing comes of a run after `s` but its end. If a prompt waits then, it waits for its answer,
which is observed before the end unless there is none. -/
def WindsUp (s : Engine (Recorded ε)) (later : List (Episode ε)) (endings : List Ending)
    (after : Engine (Recorded ε)) : Prop :=
  match s.pending with
  | none => s.Closes [] later endings after
  | some question =>
    (later = [] ∧ endings = [] ∧ after.pending = some question ∧
        after.workspace.cancelled = true) ∨
      s.Closes [] later endings after ∨
      ∃ input cancel, s.Closes [.observed ⟨question.line, input, []⟩ cancel] later endings after

omit [Environment ε] in
theorem windsUp_of_none {s after : Engine (Recorded ε)} {later : List (Episode ε)}
    {endings : List Ending} (hp : s.pending = none) :
    WindsUp s later endings after ↔ s.Closes [] later endings after := by
  unfold WindsUp
  rw [hp]

theorem bindings_finish (e : Engine ε) (ending : Ending) :
    (e.finish ending).2.workspace.bindings = e.workspace.bindings := by
  unfold finish
  cases ending.report? <;> rfl

theorem closes_of_carryOn {s after : Engine (Recorded ε)} {episodes : List (Episode ε)}
    {endings : List Ending} (hp : s.pending = none) (hc : s.workspace.cancelled = true)
    (rest : GoesOn s.carryOn.2 episodes endings after) :
    s.Closes [] (s.episodes ++ episodes)
      ((Reply.standing s.carryOn.1).ending?.toList ++ endings) after := by
  rw [carryOn_of_cancelled hc] at rest ⊢
  have hpending := (pending_finish s .cancelled).trans hp
  obtain ⟨rfl, rfl, rfl⟩ := rest.of_pending_none hpending
  rw [List.append_nil]
  exact ⟨episodes_of_cancelled hc, rfl, stack_finish s _, hpending, bindings_finish s _,
    budget_finish s _⟩

/-- A run that waits is over as soon as it goes on, if the flag is up. -/
theorem GoesOn.windsUp {s after : Engine (Recorded ε)} {episodes : List (Episode ε)}
    {endings : List Ending} (h : GoesOn s episodes endings after) {question : Command}
    (hq : s.pending = some question) (hc : s.workspace.cancelled = true) :
    WindsUp s episodes endings after := by
  unfold WindsUp
  rw [hq]
  induction h with
  | stays => exact Or.inl ⟨rfl, rfl, hq, hc⟩
  | apart hs hb hkept rest ih =>
    rcases ih hq (hkept hc) with hwaits | hcloses | ⟨input, cancel, hcloses⟩
    · exact Or.inl hwaits
    · exact Or.inr (Or.inl { hcloses with bindings := hcloses.bindings.trans hb })
    · exact Or.inr (Or.inr ⟨input, cancel, { hcloses with bindings := hcloses.bindings.trans hb }⟩)
  | @answered s after command input episodes endings hs hp rest ih =>
    have hdelivered : (s.deliver command input).workspace.cancelled = true := by
      change (s.workspace.cancelled || _) = true
      rw [hc, Bool.true_or]
    obtain rfl := Option.some.inj (hp.symm.trans hq)
    have hcloses := closes_of_carryOn rfl hdelivered rest
    obtain ⟨cancel, hpassed⟩ := hcloses.passed
    obtain ⟨cancel', hanswer⟩ := since_deliver command input s
    refine Or.inr (Or.inr ⟨input, cancel', { hcloses with passed := ⟨cancel, ?_⟩ }⟩)
    rw [episodesOfAnswer, List.cons_append, List.flatMap_cons, hpassed, hanswer, List.nil_append]
  | @abandoned s hs =>
    refine Or.inr (Or.inl ⟨?_, rfl, stack_finish _ _, pending_finish _ _, bindings_finish _ _,
      budget_finish _ _⟩)
    rw [List.flatMap_singleton]
    exact since_finish_cancelled { s with pending := none }

omit [Environment ε] in
theorem heardOf_of_stretch {m e' : Engine (Recorded ε)} {command? : Option Command}
    (h : Workspace.Stretch command? m.workspace e'.workspace) {before after : List Passage}
    {p : Passage} (hp : since m e' = before ++ p :: after) (hcancels : p.cancels = true) :
    HeardOf command? after ∧ e'.workspace.cancelled = true := by
  have hrecord := record_since (record_of_stretch h)
  rw [hp] at hrecord
  exact h.after_cancels hrecord.symm hcancels

theorem since_of_completed {m e' : Engine (Recorded ε)}
    (h : m.step = .halted (.ended .completed) e') : since m e' = [] := by
  have move := m.move_step
  rw [h] at move
  generalize hstanding : Standing.ended .completed = standing at move
  cases move with
  | completed => exact since_eq_of_record (List.append_nil _).symm
  | cancelled | broken | waits | exhausted | missing => cases hstanding
  | stops _ _ _ hend _ =>
    cases hstanding
    simp at hend

section Callback

variable {x : Episode ε} {earlier later : List (Episode ε)}
  {before after : List Passage} {p : Passage} {endings : List Ending} {final : Engine (Recorded ε)}
  {episodes : List (Episode ε)}

theorem leg_of_cancels {start : Engine (Recorded ε)} (hstart : start.OnCourse)
    (rest : GoesOn start.carryOn.2 episodes endings final)
    (hsplit : start.episodes = earlier ++ x :: later) (hx : x.IsOpen)
    (hp : x.passed = before ++ p :: after) (hcancels : p.cancels = true) :
    HeardOf x.command? after ∧ WindsUp x.left (later ++ episodes)
      ((Reply.standing start.carryOn.1).ending?.toList ++ endings) final := by
  unfold Engine.episodes at hsplit
  fun_induction carryOn start generalizing earlier with
  | case1 m e' h ih =>
    rw [course_of_going h, List.map_cons] at hsplit
    have hgoing := hstart.going h
    -- Either the callback comes in this step, or it comes later in the leg.
    cases earlier with
    | nil =>
      rw [episode_of_going h] at hsplit
      obtain ⟨rfl, rfl⟩ := List.cons.inj hsplit
      obtain ⟨hheard, hflag⟩ := heardOf_of_stretch (stretch_going h) hp hcancels
      exact ⟨hheard, (windsUp_of_none hgoing.answered).2
        (closes_of_carryOn hgoing.answered hflag rest)⟩
    | cons first earlier => exact ih hgoing rest (List.cons.inj hsplit).2
  | case2 m standing e' h =>
    -- The leg halts here: it ended of itself, and then nothing passed, or a prompt waits.
    rw [course_of_halted h, List.map_singleton, episode_of_halted h] at hsplit
    have hnil : earlier = [] ∧ later = [] := by
      have hlength := congrArg List.length hsplit
      simp at hlength
      exact ⟨List.length_eq_zero_iff.1 (by omega), List.length_eq_zero_iff.1 (by omega)⟩
    obtain ⟨rfl, rfl⟩ := hnil
    obtain ⟨rfl, -⟩ := List.cons.inj hsplit
    cases standing with
    | ended ending =>
      obtain rfl := hx ending rfl
      rw [since_of_completed h] at hp
      simp at hp
    | waiting prompt =>
      obtain ⟨hheard, hflag⟩ := heardOf_of_stretch (stretch_waiting h) hp hcancels
      obtain ⟨question, hq⟩ := (hstart.waiting h).exists_question
      exact ⟨hheard, rest.windsUp hq hflag⟩

/-- The callback may be in a leg or in what follows it. -/
theorem of_cancels_from {start : Engine (Recorded ε)} (hstart : start.OnCourse)
    (rest : GoesOn start.carryOn.2 episodes endings final)
    (hsplit : start.episodes ++ episodes = earlier ++ x :: later) (hx : x.IsOpen)
    (hp : x.passed = before ++ p :: after) (hcancels : p.cancels = true)
    (hlater : ∀ mid, episodes = mid ++ x :: later →
      HeardOf x.command? after ∧ WindsUp x.left later endings final) :
    HeardOf x.command? after ∧ WindsUp x.left later
      ((Reply.standing start.carryOn.1).ending?.toList ++ endings) final := by
  rcases append_eq_append_cons hsplit with ⟨mid, hcut⟩ | ⟨mid, hleg, rfl⟩
  · -- There is more of the run than this leg, so it did not end in it.
    have hrest := hlater mid hcut
    have hstands := hstart.stands
    cases hstanding : start.carryOn.1 with
    | waiting prompt => exact hrest
    | ended ending =>
      rw [hstanding] at hstands
      obtain ⟨hnil, -, -⟩ := rest.of_pending_none hstands.1.pending
      rw [hnil] at hcut
      simp at hcut
  · exact leg_of_cancels hstart rest hleg hx hp hcancels

theorem GoesOn.of_cancels {s : Engine (Recorded ε)} (h : GoesOn s episodes endings final)
    (hsplit : episodes = earlier ++ x :: later) (hx : x.IsOpen)
    (hp : x.passed = before ++ p :: after) (hcancels : p.cancels = true) :
    HeardOf x.command? after ∧ WindsUp x.left later endings final := by
  induction h generalizing earlier with
  | stays => simp at hsplit
  | apart hs hb hc rest ih => exact ih hsplit
  | @answered s final question input episodes endings hs hq rest ih =>
    have hdelivered := hs.deliver question input
    rw [episodesOfAnswer, List.cons_append] at hsplit
    cases earlier with
    | nil =>
      obtain ⟨rfl, rfl⟩ := List.cons.inj hsplit
      obtain ⟨hheard, hflag⟩ :=
        heardOf_of_stretch (stretch_deliver question input s) hp hcancels
      exact ⟨hheard, (windsUp_of_none rfl).2 (closes_of_carryOn rfl hflag rest)⟩
    | cons first earlier =>
      exact of_cancels_from hdelivered rest (List.cons.inj hsplit).2 hx hp hcancels
        fun mid hcut => ih hcut
  | @abandoned s hs =>
    cases earlier with
    | nil =>
      obtain ⟨rfl, -⟩ := List.cons.inj hsplit
      -- Giving a run up ends it, but the episode ended nothing.
      cases hx .cancelled rfl
    | cons first earlier => simp at hsplit

end Callback

theorem UnderWay.append {e : Engine ε} (he : e.Settled) {first second : List Call}
    (h : e.UnderWay (first ++ second)) :
    (e.callAll first).2.Settled ∧ (e.callAll first).2.UnderWay second := by
  induction first generalizing e with
  | nil => exact ⟨he, h⟩
  | cons call rest ih => exact ih (he.call call) h.2

/-- The calls of a run after the first are made while the run is under way. -/
theorem IsRun.underWay {e : Engine ε} {call : Call} {rest : List Call}
    (h : e.IsRun (call :: rest)) : (e.call call).2.Settled ∧ (e.call call).2.UnderWay rest := by
  cases call with
  | run routine =>
    obtain ⟨standing, -, hs⟩ := stands_run h.1 routine
    exact ⟨hs.settled, h.2⟩
  | runAnswered routine answers =>
    obtain ⟨_, _, _, _, _, -, hcall, hafter⟩ := call_runAnswered h.1 routine answers
    refine ⟨?_, h.2⟩
    rw [hcall]
    exact hafter.settled
  | load | loadFrom | resume | cancel | sendDigits | sendChecksum | close => exact absurd h id

/-- Where a prompt waits within the calls of a run, the run is under way. -/
theorem IsRun.suspended {e : Engine ε} {first second : List Call} (h : e.IsRun (first ++ second))
    (hw : (e.callAll first).2.isWaiting = true) :
    (e.callAll first).2.Suspended ∧ (e.callAll first).2.UnderWay second := by
  cases first with
  | nil =>
    have hidle : e.isWaiting = false := by
      match second, h with
      | .run _ :: _, h => exact h.1
      | .runAnswered _ _ :: _, h => exact h.1
    rw [show (e.callAll []).2 = e from rfl, hidle] at hw
    cases hw
  | cons call rest =>
    obtain ⟨hsettled, hway⟩ := IsRun.underWay h
    obtain ⟨hafter, hsecond⟩ := hway.append hsettled
    exact ⟨hafter.suspended hw, hsecond⟩

theorem IsRun.of_cancels {e : Engine (Recorded ε)} {calls : List Call} (h : e.IsRun calls)
    {earlier later : List (Episode ε)} {x : Episode ε} {before after : List Passage} {p : Passage}
    (hsplit : e.episodesOfAll calls = earlier ++ x :: later) (hx : x.IsOpen)
    (hp : x.passed = before ++ p :: after) (hcancels : p.cancels = true) :
    HeardOf x.command? after ∧
      WindsUp x.left later ((e.callAll calls).1.filterMap Reply.ending?) (e.callAll calls).2 := by
  rcases h.goesOn with ⟨start, episodes, endings, hstart, hall, hendings, rest⟩ | ⟨routine, hall⟩
  · rw [hall] at hsplit
    rw [hendings]
    exact of_cancels_from hstart rest hsplit hx hp hcancels
      fun mid hcut => rest.of_cancels hcut hx hp hcancels
  · rw [hall] at hsplit
    cases earlier with
    | nil =>
      obtain ⟨rfl, -⟩ := List.cons.inj hsplit
      cases hx (.routineNotFound routine) rfl
    | cons first earlier => simp at hsplit

/-- Cancellation is prompt and final. In a run, once the host was called and asked for cancellation
while a command was in progress that does not end the run, nothing more passes but that the host
hears of this command and, after the answer if it waits for one, that the user is told; and the run
ends as cancelled, with nothing on the stack and no variable or jump changed. So it does if the
flag is raised while a prompt waits. -/
theorem cancellation_of_isRun {e : Engine (Recorded ε)} {calls : List Call} (h : e.IsRun calls) :
    let endings := (e.callAll calls).1.filterMap Reply.ending?
    let final := (e.callAll calls).2
    (∀ first call second, calls = first ++ call :: second → call.runs = true →
      let here := (e.callAll first).2
      (here.call call).2.record
        = here.record ++ (here.episodesOf call).flatMap Episode.passed) ∧
    (∀ earlier x later before p after, e.episodesOfAll calls = earlier ++ x :: later →
      x.IsOpen → x.passed = before ++ p :: after → p.cancels = true →
        HeardOf x.command? after ∧ WindsUp x.left later endings final) ∧
    ∀ first second, calls = first ++ second →
      let here := (e.callAll first).2
      here.isWaiting = true → here.workspace.cancelled = true →
        WindsUp here (here.episodesOfAll second)
          ((here.callAll second).1.filterMap Reply.ending?) final := by
  intro endings final
  refine ⟨?_, ?_, ?_⟩
  · intro first call second hcalls hruns
    rw [hcalls] at h
    exact record_call (fun hw => (h.suspended hw).1) hruns
  · intro earlier x later before p after hsplit hx hp hcancels
    exact h.of_cancels hsplit hx hp hcancels
  · intro first second hcalls here hw hc
    rw [hcalls] at h
    obtain ⟨hsuspended, hway⟩ := h.suspended hw
    obtain ⟨question, hq⟩ := hsuspended.exists_question
    have hfinal : final = (here.callAll second).2 := by
      change (e.callAll calls).2 = _
      rw [hcalls, callAll_append]
    rw [hfinal]
    exact (hway.goesOn (Or.inr hsuspended)).windsUp hq hc

def hasty : Engine Bench :=
  ((idle {} ⟨⟨{}, {}, { cancelAtNote := some 1 }⟩, []⟩).load [['M', 'x']]).2

theorem cancellation_hasty :
    hasty.IsRun [.run []] ∧
      (hasty.callAll [.run []]).1.filterMap Reply.ending? = [.cancelled] ∧
      (hasty.callAll [.run []]).2.stack = [] ∧
      ∃ note cancel, (hasty.call (.run [])).2.record = hasty.record
        ++ [.notified note true, .observed ⟨['M', 'x'], [], []⟩ false,
          .notified cancelledNote cancel] := by
  have hrun : hasty.IsRun [.run []] := ⟨rfl, trivial⟩
  obtain ⟨hrecord, hcallbacks, -⟩ := cancellation_of_isRun hrun
  obtain ⟨start, next, note, hstart, hstep, hflag, hpassed, hpending⟩ :
      ∃ (start next : Engine Bench) (note : Notification),
        start = { hasty.begun with stack := [{ routine := [] }] } ∧ start.step = .going next ∧
        next.workspace.cancelled = true ∧
        since start next = [.notified note true, .observed ⟨['M', 'x'], [], []⟩ false] ∧
        next.pending = none :=
    ⟨_, _, _, rfl, rfl, rfl, rfl, rfl⟩
  have hepisodes : hasty.episodesOf (.run []) = [start.episode, next.episode] := by
    have hcourse : start.course = [start, next] := by
      rw [course_of_going hstep, course_of_halted (step_of_cancelled hflag)]
    change hasty.episodesOfRun [] = _
    rw [episodesOfRun_of_contains rfl (by decide), ← hstart, episodes, hcourse]
    rfl
  have hfirst := episode_of_going hstep
  obtain ⟨-, hwinds⟩ := hcallbacks [] start.episode [next.episode] [] (.notified note true)
    [.observed ⟨['M', 'x'], [], []⟩ false] (by rw [episodesOfAll, hepisodes]; rfl)
    (by simp [hfirst, Episode.IsOpen]) (by rw [hfirst]; exact hpassed) rfl
  have hcloses := (windsUp_of_none (by rw [hfirst]; exact hpending)).1 hwinds
  obtain ⟨cancel, hlater⟩ := hcloses.passed
  refine ⟨hrun, hcloses.endings, hcloses.stack, note, cancel, ?_⟩
  have hall := hrecord [] (.run []) [] rfl rfl
  change (hasty.call (.run [])).2.record = hasty.record ++ (hasty.episodesOf (.run [])).flatMap _
    at hall
  rw [hall, hepisodes, List.flatMap_cons, hlater, hfirst, hpassed]
  rfl

end Engine
end BenchScript
