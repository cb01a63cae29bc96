import BenchScript.Proofs.Mishaps

set_option autoImplicit false

namespace BenchScript

/-- What the last row and data can come of: an answer to a prompt, or a line from the device. -/
inductive Event where
  | answer (input : Text)
  | line (bytes : Bytes)
deriving DecidableEq, Repr

def Event.shows : Event → Text × Bytes
  | .answer input => (input, [])
  | .line bytes => ((Response.ofLine bytes).row, (Response.ofLine bytes).data)

def lastOf (events : List Event) (before : Text × Bytes) : Text × Bytes :=
  (events.getLast?.map Event.shows).getD before

@[simp] theorem lastOf_nil (before : Text × Bytes) : lastOf [] before = before := rfl

theorem lastOf_append (events events' : List Event) (before : Text × Bytes) :
    lastOf (events ++ events') before = lastOf events' (lastOf events before) := by
  unfold lastOf
  rw [List.getLast?_append]
  cases events'.getLast? with
  | none => rfl
  | some event => rfl

def Call.loads : Call → Bool
  | .load _ | .loadFrom _ => true
  | _ => false

namespace Workspace

variable {ε : Type}

theorem last_hear (lines : List Bytes) (w : Workspace ε) :
    (w.hear lines).last = lastOf (lines.map .line) w.last := by
  unfold hear lastOf
  rw [List.getLast?_map]
  cases lines.getLast? <;> rfl

variable [Environment ε]

/-- An exchange that fails shows nothing, and the one line of any other shows all that is new. -/
theorem last_sendAny (frame : Except LinkError Frame) (w : Workspace (Recorded ε)) :
    (∃ error, (w.sendAny frame).1 = .error error ∧ (w.sendAny frame).2.last = w.last) ∨
      ∃ bytes line, (w.sendAny frame).1 = .ok () ∧ (w.sendAny frame).2.around.record
          = w.around.record ++ [.wrote bytes (.ok ()), .received terminator (.ok line)] ∧
        (w.sendAny frame).2.last = (Event.line line).shows := by
  have hsent := sent_sendAny frame w
  generalize w.sendAny frame = outcome at hsent
  cases hsent with
  | unformed | unwritten | unanswered => exact Or.inl ⟨_, rfl, rfl⟩
  | answered _ _ hr => exact Or.inr ⟨_, _, rfl, hr, rfl⟩

theorem Effect.linesIn_eq_nil {settings : Settings} {command : Command}
    {w : Workspace (Recorded ε)} {passed : List Passage}
    {outcome : Verdict × Workspace (Recorded ε)} (h : w.Effect settings command passed outcome)
    (hs : command.action.sends = false) : linesIn passed = [] := by
  cases h with
  | decided | told | asked | appended => rfl
  | talked hsends _ _ =>
    rw [hsends] at hs
    cases hs
  | dictated ha _ _ _ =>
    rw [ha] at hs
    cases hs
  | mishap h _ =>
    rw [linesIn_append, h.linesIn_eq]
    rfl

end Workspace

namespace Engine

variable {ε : Type} [Environment ε] {m e e' start : Engine (Recorded ε)}

open Workspace

def heard (e e' : Engine (Recorded ε)) : List Event := (linesIn (since e e')).map .line

omit [Environment ε] in
theorem heard_self (e : Engine (Recorded ε)) : heard e e = [] := by
  unfold heard
  rw [since_self]
  rfl

omit [Environment ε] in
theorem heard_trans {e'' : Engine (Recorded ε)} (h : e.record <+: e'.record)
    (h' : e'.record <+: e''.record) : heard e e'' = heard e e' ++ heard e' e'' := by
  unfold heard
  rw [since_trans h h', linesIn_append, List.map_append]

omit [Environment ε] in
theorem last_of_hear {passed : List Passage} (hr : e'.record = e.record ++ passed)
    (hl : e'.workspace.last = (e.workspace.hear (linesIn passed)).last) :
    e'.workspace.last = lastOf (heard e e') e.workspace.last := by
  unfold heard
  rw [since_eq_of_record hr, hl, last_hear]

/-- A step shows the last of the lines that are received in it. -/
theorem last_step (m : Engine (Recorded ε)) :
    m.step.left.workspace.last = lastOf (heard m m.step.left) m.workspace.last := by
  unfold heard
  rw [m.happens_step.last_eq, last_hear]

theorem last_going (h : m.step = .going e') :
    e'.workspace.last = lastOf (heard m e') m.workspace.last := by
  have hstep := m.last_step
  rw [h] at hstep
  exact hstep

theorem last_carryOn (start : Engine (Recorded ε)) :
    start.carryOn.2.workspace.last
      = lastOf (heard start start.carryOn.2) start.workspace.last := by
  fun_induction carryOn start with
  | case1 m e' h ih =>
    rw [heard_trans (record_of_stretch (stretch_going h)) (record_le_carryOn e'), lastOf_append,
      ← last_going h]
    exact ih
  | case2 m standing e' h =>
    have hstep := m.last_step
    rw [h] at hstep
    exact hstep

/-- So it is wherever a run gets. -/
theorem last_of_mem_course (start : Engine (Recorded ε)) :
    ∀ m ∈ start.course, m.workspace.last = lastOf (heard start m) start.workspace.last := by
  intro m hm
  refine (forall_mem_course (motive := fun m => start.record <+: m.record ∧
    m.workspace.last = lastOf (heard start m) start.workspace.last) ?_ ?_ m hm).2
  · refine ⟨List.prefix_refl _, ?_⟩
    rw [heard_self, lastOf_nil]
  · intro m e' h hs
    have hrecord : m.record <+: e'.record := record_of_stretch (stretch_going hs)
    refine ⟨h.1.trans hrecord, ?_⟩
    rw [heard_trans h.1 hrecord, lastOf_append, ← h.2]
    exact last_going hs

/-- No line is received in a step that carries out no command, or one that has nothing to send. -/
theorem heard_eq_nil (h : ∀ command, m.carried? = some command → command.action.sends = false) :
    heard m m.step.left = [] := by
  obtain ⟨effects, after, hpassed, hafter, heffects⟩ := m.happens_step.exists_parts
  unfold heard
  rw [hpassed, linesIn_append, linesIn_of_isCallback hafter]
  rcases heffects with rfl | ⟨command, outcome, hc, he⟩
  · rfl
  · rw [he.linesIn_eq_nil (h command hc)]
    rfl

/-- The events of one answer: itself, and the lines received before the next prompt or the end. -/
def eventsOfAnswer (command : Command) (input : Text) (e : Engine (Recorded ε)) : List Event :=
  .answer input :: heard (e.deliver command input) (e.deliver command input).carryOn.2

def eventsOfAnswers : List (Option Text) → Engine (Recorded ε) → List Event
  | some input :: rest, e =>
    match e.pending with
    | none => []
    | some command =>
      e.eventsOfAnswer command input ++ eventsOfAnswers rest (e.deliver command input).carryOn.2
  | _, _ => []

def eventsOf (e : Engine (Recorded ε)) : Call → List Event
  | .resume input => e.eventsOfAnswers [some input]
  | .runAnswered routine answers =>
    if e.isWaiting then []
    else heard e (e.run routine).2 ++ (e.run routine).2.eventsOfAnswers answers
  | call => heard e (e.call call).2

/-- The events since the last load, once another call is made. -/
def eventsAfter (e : Engine (Recorded ε)) (call : Call) (events : List Event) : List Event :=
  if call.loads && !e.isWaiting then [] else events ++ e.eventsOf call

def eventsSinceLoad : List Call → List Event → Engine (Recorded ε) → List Event
  | [], events, _ => events
  | call :: rest, events, e => eventsSinceLoad rest (e.eventsAfter call events) (e.call call).2

theorem last_answer (command : Command) (input : Text) (e : Engine (Recorded ε)) :
    (e.deliver command input).carryOn.2.workspace.last
      = lastOf (e.eventsOfAnswer command input) e.workspace.last := by
  rw [last_carryOn, eventsOfAnswer, ← List.singleton_append, lastOf_append]
  rfl

theorem last_answers (answers : List (Option Text)) {standing : Standing} (hs : e.Stands standing)
    (asked : List Text) :
    (e.answerPrompts Prepared.source ⟨answers, asked⟩ standing).2.1.workspace.last
      = lastOf (e.eventsOfAnswers answers) e.workspace.last := by
  induction answers, e, standing, hs using Stands.induction generalizing asked with
  | ended answers e ending hs =>
    have hnone : e.eventsOfAnswers answers = [] := by
      unfold eventsOfAnswers
      split
      · rw [hs.1.pending]
      · rfl
    rw [answerPrompts_ended, hnone, lastOf_nil]
  | unanswered answers e prompt hs ha =>
    have hnone : e.eventsOfAnswers answers = [] := by
      unfold eventsOfAnswers
      split
      · cases ha
      · rfl
    -- Without an answer the run is given up, which leaves the row and the data alone.
    obtain ⟨cancel, hcalled⟩ := called_finish { e with pending := none } .cancelled
    rw [answerPrompts_unanswered ha, hnone, lastOf_nil]
    exact hcalled.last_eq
  | answered input later e prompt command hs hp ih =>
    rw [answerPrompts_answered hp, ih]
    simp only [eventsOfAnswers, hp]
    rw [lastOf_append, ← last_answer]

theorem last_run (h : e.isWaiting = false) (routine : Text) :
    (e.run routine).2.workspace.last = lastOf (heard e (e.run routine).2) e.workspace.last := by
  have hcall : (e.call (.run routine)).2 = (e.run routine).2 := rfl
  rw [← hcall]
  cases hr : e.routines.contains routine with
  | true =>
    rw [call_run_of_contains h hr]
    exact last_carryOn _
  | false =>
    obtain ⟨cancel, hcalled⟩ := called_finish e.begun (.routineNotFound routine)
    rw [call_run_of_not_contains h hr]
    refine last_of_hear hcalled.passes.record ?_
    rw [linesIn_reportedAs]
    exact hcalled.last_eq

/-- A call that gives no answers and takes no script shows the last of the lines received in it. -/
theorem last_call_of_heard {call : Call} (hl : (call.loads && !e.isWaiting) = false)
    (hne : ∀ input, call ≠ .resume input)
    (hne' : ∀ routine answers, call ≠ .runAnswered routine answers) :
    (e.call call).2.workspace.last = lastOf (heard e (e.call call).2) e.workspace.last := by
  rcases refused_or_free e call with ⟨hw, hb⟩ | hw
  · rw [call_of_begins hw hb, heard_self, lastOf_nil]
  · cases hb : call.begins with
    | false =>
      obtain ⟨passed, hrecord, -, hlast⟩ := e.call_aside_talks hb hne
      exact last_of_hear hrecord hlast
    | true =>
      cases call with
      | run routine => exact last_run (hw rfl) routine
      | runAnswered routine answers => exact absurd rfl (hne' routine answers)
      | load | loadFrom =>
        rw [hw rfl] at hl
        cases hl
      | resume | cancel | sendDigits | sendChecksum | close => cases hb

theorem last_adopt (e : Engine (Recorded ε)) (loaded : Except ScriptError Routines) :
    (e.adopt loaded).2.workspace.last = e.workspace.last := by
  cases loaded <;> rfl

theorem last_of_loads {call : Call} (hw : e.isWaiting = false) (hl : call.loads = true) :
    (e.call call).2.workspace.last = ([], []) := by
  cases call with
  | load lines =>
    simp only [Engine.call, load_of_not_waiting hw]
    exact last_adopt _ _
  | loadFrom path =>
    simp only [Engine.call, loadFrom_of_not_waiting hw]
    exact last_adopt _ _
  | run | resume | runAnswered | cancel | sendDigits | sendChecksum | close => cases hl

theorem last_call (call : Call) (hl : (call.loads && !e.isWaiting) = false) :
    (e.call call).2.workspace.last = lastOf (e.eventsOf call) e.workspace.last := by
  cases call with
  | resume input =>
    cases hp : e.pending with
    | none => simp only [Engine.call, Engine.resume, eventsOf, eventsOfAnswers, hp, lastOf_nil]
    | some command =>
      rw [call_resume hp]
      simp only [eventsOf, eventsOfAnswers, hp, List.append_nil]
      exact last_answer command input e
  | runAnswered routine answers =>
    cases hw : e.isWaiting with
    | true =>
      rw [call_of_begins hw rfl]
      simp only [eventsOf, hw, if_true, lastOf_nil]
    | false =>
      obtain ⟨standing, hok, hs⟩ := stands_run hw routine
      have hafter : (e.call (.runAnswered routine answers)).2
          = ((e.run routine).2.answerPrompts Prepared.source ⟨answers, []⟩ standing).2.1 := by
        simp only [Engine.call, runAnswered_of_run _ _ hok]
        generalize (e.run routine).2.answerPrompts Prepared.source ⟨answers, []⟩ standing = outcome
        obtain ⟨result, after, left⟩ := outcome
        cases result <;> rfl
      rw [hafter, last_answers answers hs, last_run hw]
      simp only [eventsOf, hw, Bool.false_eq_true, if_false]
      rw [lastOf_append]
  | load | loadFrom | run | cancel | sendDigits | sendChecksum | close =>
    refine last_call_of_heard hl ?_ ?_
    · intro input h
      cases h
    · intro routine answers h
      cases h

theorem last_callAll (calls : List Call) {events : List Event}
    (h : e.workspace.last = lastOf events ([], [])) :
    (e.callAll calls).2.workspace.last = lastOf (e.eventsSinceLoad calls events) ([], []) := by
  -- The events so far are general: a load drops them, and any other call adds to them.
  induction calls generalizing e events with
  | nil => exact h
  | cons call rest ih =>
    rw [callAll_cons]
    refine ih ?_
    unfold eventsAfter
    cases hl : call.loads && !e.isWaiting with
    | true =>
      obtain ⟨hloads, hw⟩ : call.loads = true ∧ e.isWaiting = false := by simpa using hl
      exact last_of_loads hw hloads
    | false =>
      simp only [Bool.false_eq_true, if_false]
      rw [last_call call hl, h, lastOf_append]

/-- A call that is refused shows nothing, unless it took the script away before. -/
theorem last_of_refused {call : Call} {error : ScriptError}
    (hl : (call.loads && !e.isWaiting) = false) (h : (e.call call).1 = .refused error) :
    (e.call call).2.workspace.last = e.workspace.last := by
  have sent : ∀ frame : Except LinkError Frame,
      Reply.ofUnit (e.workspace.sendAny frame).1 = .refused error →
        (e.workspace.sendAny frame).2.last = e.workspace.last := by
    intro frame hrefused
    obtain ⟨error, -, hlast⟩ | ⟨bytes, line, hok, -⟩ := last_sendAny frame e.workspace
    · exact hlast
    · rw [hok] at hrefused
      cases hrefused
  rcases refused_or_free e call with ⟨hw, hb⟩ | hw
  · rw [call_of_begins hw hb]
  · cases call with
    | load | loadFrom =>
      rw [hw rfl] at hl
      cases hl
    | run routine =>
      obtain ⟨standing, hok, -⟩ := stands_run (hw rfl) routine
      simp only [Engine.call, hok, Reply.ofStanding] at h
      cases h
    | runAnswered routine answers =>
      obtain ⟨inputs, -, -, ending, after, -, hcall, -⟩ := call_runAnswered (hw rfl) routine answers
      rw [hcall] at h
      cases h
    | resume input =>
      cases hp : e.pending with
      | none => simp only [Engine.call, Engine.resume, hp]
      | some command =>
        rw [call_resume hp] at h
        cases h
    | sendDigits text | sendChecksum text => exact sent _ h
    | cancel | close => rfl

/-- The last row and data show one and the same event. Whatever calls are made on an engine, they
are empty or what the latest answer or line since the last load shows. In a run they are so at every
step: no step changes them but by a line that it receives, so none of a command that is passed over
or has nothing to send, and none with a mishap. An exchange that fails and a call that is refused
leave them as they were. -/
theorem last_of_events (settings : Settings) (around : Recorded ε) (calls : List Call) :
    let e := ((idle settings around).callAll calls).2
    e.workspace.last = lastOf ((idle settings around).eventsSinceLoad calls []) ([], []) ∧
    (∀ call error, (call.loads && !e.isWaiting) = false → (e.call call).1 = .refused error →
      (e.call call).2.workspace.last = e.workspace.last) ∧
    (∀ (w : Workspace (Recorded ε)) frame,
      (∃ error, (w.sendAny frame).1 = .error error ∧ (w.sendAny frame).2.last = w.last) ∨
        ∃ bytes line, (w.sendAny frame).1 = .ok () ∧ (w.sendAny frame).2.around.record
            = w.around.record ++ [.wrote bytes (.ok ()), .received terminator (.ok line)] ∧
          (w.sendAny frame).2.last = (Event.line line).shows) ∧
    ∀ start m : Engine (Recorded ε), m ∈ start.course →
      m.workspace.last = lastOf (heard start m) start.workspace.last ∧
      m.step.left.workspace.last = lastOf (heard m m.step.left) m.workspace.last ∧
      ((∀ command, m.carried? = some command → command.action.sends = false) →
        m.step.left.workspace.last = m.workspace.last) ∧
      ∀ command passed message, m.carried? = some command →
        m.workspace.Mishap m.settings command passed message →
          m.step.left.workspace.last = m.workspace.last := by
  intro e
  refine ⟨last_callAll calls rfl, fun call error hl h => last_of_refused hl h,
    fun w frame => last_sendAny frame w, fun start m hm => ⟨start.last_of_mem_course m hm,
      m.last_step, fun hs => ?_, fun command passed message hc hmishap => ?_⟩⟩
  · rw [m.last_step, heard_eq_nil hs, lastOf_nil]
  · obtain ⟨m', hovercomes⟩ := exists_overcomes hc hmishap
    obtain ⟨top, below, -, hkept⟩ := hovercomes.kept
    rw [hovercomes.step, Progress.left, hkept]
    rfl

def framed : Bench := ⟨⟨.ofReplies [[0x44, 1, 0x61]], {}, {}⟩, []⟩

def questioning : Engine Bench := ((idle {} framed).load [['D', '0'], ['U', 'q']]).2

/-- The frame becomes the last row and data, and an answer given later takes the place of both. -/
theorem last_of_events_answered :
    let asked : List Call := [.load [['D', '0'], ['U', 'q']], .run []]
    ((idle {} framed).callAll asked).2.workspace.last = (['D', '\x01', 'a'], [0x61]) ∧
      ((idle {} framed).callAll (asked ++ [.resume ['r']])).2.workspace.last = (['r'], []) := by
  intro asked
  obtain ⟨prompt, question, first, left, hfirst, hpending, hline, hleft, hheard⟩ :
      ∃ prompt question first left,
        loop 4 { questioning.begun with stack := [{ routine := [] }] }
          = some (.waiting prompt, first) ∧ first.pending = some question ∧
        heard questioning first = [.line [0x44, 1, 0x61, 0x0A]] ∧
        loop 3 (first.deliver question ['r']) = some (.ended .completed, left) ∧
        heard (first.deliver question ['r']) left = [] :=
    ⟨_, _, _, _, rfl, rfl, rfl, rfl, rfl⟩
  have hcall : questioning.call (.run []) = (.standing (.waiting prompt), first) := by
    rw [call_run_of_contains rfl (by decide), carryOn_eq_of_loop hfirst]
  have hrun : questioning.eventsOf (.run []) = [.line [0x44, 1, 0x61, 0x0A]] := by
    simp only [eventsOf, hcall, hline]
  have hresume : first.eventsOf (.resume ['r']) = [.answer ['r']] := by
    simp only [eventsOf, eventsOfAnswers, hpending, eventsOfAnswer, carryOn_eq_of_loop hleft,
      hheard, List.append_nil]
  have hasked : (idle {} framed).eventsSinceLoad asked [] = [.line [0x44, 1, 0x61, 0x0A]] := hrun
  have hall : (idle {} framed).eventsSinceLoad (asked ++ [.resume ['r']]) []
      = [.line [0x44, 1, 0x61, 0x0A], .answer ['r']] := by
    change questioning.eventsSinceLoad [.run [], .resume ['r']] [] = _
    have hsince : questioning.eventsSinceLoad [.run [], .resume ['r']] []
        = questioning.eventsOf (.run []) ++ first.eventsOf (.resume ['r']) := by
      simp only [eventsSinceLoad, hcall]
      rfl
    rw [hsince, hrun, hresume]
    rfl
  constructor
  · obtain ⟨hlast, -⟩ := last_of_events {} framed asked
    rw [hlast, hasked]
    rfl
  · obtain ⟨hlast, -⟩ := last_of_events {} framed (asked ++ [.resume ['r']])
    rw [hlast, hall]
    rfl

end Engine
end BenchScript
