import BenchScript.Engine.Call

set_option autoImplicit false

namespace BenchScript

namespace Workspace

variable {ε : Type} [Environment ε]

theorem proceed_fst (command : Command) (outcome : Except ScriptError Unit × Workspace ε) :
    (proceed command outcome).1 = .next ∨
      ∃ message, (proceed command outcome).1 = .stop (.failed message) := by
  obtain ⟨result, w⟩ := outcome
  cases result with
  | ok => exact Or.inl rfl
  | error e => exact Or.inr ⟨_, rfl⟩

theorem withLine_fst (command : Command) (w : Workspace ε)
    (action : Text → Except ScriptError Unit × Workspace ε) :
    (withLine command w action).1 = .next ∨
      ∃ message, (withLine command w action).1 = .stop (.failed message) := by
  unfold withLine
  split
  · exact proceed_fst command _
  · exact proceed_fst command _

theorem decideGate_eq (command : Command) (w : Workspace ε) :
    (∃ isOpen, w.decideGate command = .gate isOpen) ∨
      ∃ message, w.decideGate command = .stop (.conditionError message) := by
  unfold decideGate
  split
  · exact Or.inr ⟨_, rfl⟩
  · split
    · exact Or.inr ⟨_, rfl⟩
    · exact Or.inl ⟨_, rfl⟩

/-- The ways in which a command can come out. Only a jump wants to enter a routine, only a question
waits, and no command ends a run as if its routine were missing or no jump were left. -/
inductive Answers (command : Command) (w : Workspace ε) : Verdict × Workspace ε → Prop where
  | next {w' : Workspace ε} (h : command.action ≠ .jump) : Answers command w (.next, w')
  | gate {isOpen : Bool} (h : command.action = .condition) : Answers command w (.gate isOpen, w)
  | enter (h : command.action = .jump) : Answers command w (.enter command.argument, w)
  | suspend {prompt : Text} {w' : Workspace ε} (h : command.action = .ask) :
      Answers command w (.suspend prompt, w')
  | quit (h : command.action = .quit) : Answers command w (.stop .quit, w)
  | undecided {message : Text} (h : command.action = .condition) :
      Answers command w (.stop (.conditionError message), w)
  | failed {message : Text} {w' : Workspace ε} (h : command.action ≠ .jump) :
      Answers command w (.stop (.failed message), w')

omit [Environment ε] in
theorem answers_of_fst {command : Command} {w : Workspace ε} {outcome : Verdict × Workspace ε}
    (ha : command.action ≠ .jump)
    (h : outcome.1 = .next ∨ ∃ message, outcome.1 = .stop (.failed message)) :
    Answers command w outcome := by
  obtain ⟨verdict, w'⟩ := outcome
  rcases h with h | ⟨message, h⟩
  · simp only at h
    subst h
    exact .next ha
  · simp only at h
    subst h
    exact .failed ha

theorem perform_jump {command : Command} (h : command.action = .jump) (settings : Settings)
    (w : Workspace ε) : w.perform settings command = (.enter command.argument, w) := by
  unfold perform
  rw [h]

theorem answers_perform (settings : Settings) (command : Command) (w : Workspace ε) :
    Answers command w (w.perform settings command) := by
  unfold perform
  split
  case h_1 ha =>
    rcases decideGate_eq command w with ⟨isOpen, h⟩ | ⟨message, h⟩
    · rw [h]
      exact .gate ha
    · rw [h]
      exact .undecided ha
  case h_2 ha =>
    split
    · exact answers_of_fst (by simp [ha]) (proceed_fst command _)
    · exact .next (by simp [ha])
  case h_3 ha => exact .enter ha
  case h_4 ha => exact answers_of_fst (by simp [ha]) (proceed_fst command _)
  case h_5 ha => exact answers_of_fst (by simp [ha]) (withLine_fst command w _)
  case h_6 ha => exact answers_of_fst (by simp [ha]) (proceed_fst command _)
  case h_7 ha => exact .next (by simp [ha])
  case h_8 ha => exact .quit ha
  case h_9 ha => exact .suspend ha
  case h_10 ha => exact .next (by simp [ha])
  case h_11 ha => exact answers_of_fst (by simp [ha]) (withLine_fst command w _)
  case h_12 ha => exact .next (by simp [ha])
  case h_13 ha => exact answers_of_fst (by simp [ha]) (withLine_fst command w _)

end Workspace

namespace Engine

variable {ε : Type}

/-- A step is about to carry out or pass over `command`, which `top` has come to. -/
structure Fetches (e : Engine ε) (top : Invocation) (below : List Invocation)
    (command : Command) : Prop where
  uncancelled : e.workspace.cancelled = false
  unbroken : e.quit = false
  stack : e.stack = top :: below
  fetched : e.routines.command? top.routine top.position = some command

def fetched? (e : Engine ε) : Option (Invocation × Command) :=
  if e.workspace.cancelled || e.quit then none
  else
    match e.stack with
    | [] => none
    | top :: _ => (e.routines.command? top.routine top.position).map fun command => (top, command)

theorem Fetches.fetched?_eq {e : Engine ε} {top : Invocation} {below : List Invocation}
    {command : Command} (h : e.Fetches top below command) :
    e.fetched? = some (top, command) := by
  unfold fetched?
  rw [h.uncancelled, h.unbroken, h.stack]
  simp [h.fetched]

theorem fetched?_of_cancelled {e : Engine ε} (h : e.workspace.cancelled = true) :
    e.fetched? = none := by
  unfold fetched?
  rw [h]
  rfl

theorem fetched?_of_quit {e : Engine ε} (h : e.quit = true) : e.fetched? = none := by
  unfold fetched?
  rw [h, Bool.or_true]
  rfl

theorem fetched?_of_stack_nil {e : Engine ε} (h : e.stack = []) : e.fetched? = none := by
  unfold fetched?
  rw [h]
  split <;> rfl

theorem fetched?_of_command?_none {e : Engine ε} {top : Invocation} {below : List Invocation}
    (hs : e.stack = top :: below)
    (hn : e.routines.command? top.routine top.position = none) : e.fetched? = none := by
  unfold fetched?
  rw [hs]
  simp [hn]

def past (top : Invocation) (below : List Invocation) (workspace : Workspace ε) (e : Engine ε) :
    Engine ε :=
  { e with workspace, stack := { top with position := top.position + 1 } :: below }

def spent (e : Engine ε) : Engine ε := { e with budget := e.budget - 1 }

def entered (command : Command) (e : Engine ε) : Engine ε :=
  { e.spent with stack := { routine := command.argument, caller := some command } :: e.stack }

theorem admits_eq_false_iff {top : Invocation} {command : Command} :
    admits top command = false ↔ top.gateOpen = false ∧ command.action ≠ .condition := by
  unfold admits
  rw [Bool.or_eq_false_iff, beq_eq_false_iff_ne]

theorem admits_of_gateOpen {top : Invocation} (h : top.gateOpen = true) (command : Command) :
    admits top command = true := by
  rw [admits, h, Bool.true_or]

theorem gateOpen_of_admits {top : Invocation} {command : Command}
    (h : admits top command = true) (ha : command.action ≠ .condition) : top.gateOpen = true := by
  unfold admits at h
  simpa [ha] using h

variable [Environment ε]

@[simp] theorem finish_fst (e : Engine ε) (ending : Ending) :
    (e.finish ending).1 = .ended ending := by
  unfold finish
  cases ending.report? <;> rfl

@[simp] theorem settings_finish (e : Engine ε) (ending : Ending) :
    (e.finish ending).2.settings = e.settings := by
  unfold finish
  cases ending.report? <;> rfl

@[simp] theorem routines_finish (e : Engine ε) (ending : Ending) :
    (e.finish ending).2.routines = e.routines := by
  unfold finish
  cases ending.report? <;> rfl

@[simp] theorem budget_finish (e : Engine ε) (ending : Ending) :
    (e.finish ending).2.budget = e.budget := by
  unfold finish
  cases ending.report? <;> rfl

@[simp] theorem stack_finish (e : Engine ε) (ending : Ending) :
    (e.finish ending).2.stack = [] := by
  unfold finish
  cases ending.report? <;> rfl

@[simp] theorem pending_finish (e : Engine ε) (ending : Ending) :
    (e.finish ending).2.pending = e.pending := by
  unfold finish
  cases ending.report? <;> rfl

@[simp] theorem quit_finish (e : Engine ε) (ending : Ending) :
    (e.finish ending).2.quit = (e.quit || ending != .completed) := by
  unfold finish
  cases ending.report? <;> rfl

theorem halt_eq (e : Engine ε) (ending : Ending) :
    e.halt ending = .halted (.ended ending) (e.finish ending).2 := by
  unfold halt
  rw [finish_fst]

inductive Move (e : Engine ε) : Progress ε → Prop where
  | cancelled (h : e.workspace.cancelled = true) :
      Move e (.halted (.ended .cancelled) (e.finish .cancelled).2)
  | broken (hc : e.workspace.cancelled = false) (hq : e.quit = true) :
      Move e (.halted (.ended .quit) (e.finish .quit).2)
  | completed (hc : e.workspace.cancelled = false) (hq : e.quit = false) (hs : e.stack = []) :
      Move e (.halted (.ended .completed) (e.finish .completed).2)
  | returned {top : Invocation} {below : List Invocation} (hc : e.workspace.cancelled = false)
      (hq : e.quit = false) (hs : e.stack = top :: below)
      (hn : e.routines.command? top.routine top.position = none) :
      Move e (.going (e.leave top below))
  | passedOver {top : Invocation} {below : List Invocation} {command : Command}
      (hf : e.Fetches top below command) (hg : top.gateOpen = false)
      (ha : command.action ≠ .condition) :
      Move e (.going ((e.past top below e.workspace).observe command))
  | next {top : Invocation} {below : List Invocation} {command : Command} {w : Workspace ε}
      (hf : e.Fetches top below command) (hg : admits top command = true)
      (ha : command.action ≠ .jump)
      (hp : e.workspace.perform e.settings command = (.next, w)) :
      Move e (.going ((e.past top below w).observe command))
  | gate {top : Invocation} {below : List Invocation} {command : Command} {isOpen : Bool}
      (hf : e.Fetches top below command) (hg : admits top command = true)
      (ha : command.action = .condition)
      (hp : e.workspace.perform e.settings command = (.gate isOpen, e.workspace)) :
      Move e (.going (((e.past top below e.workspace).setGate isOpen).observe command))
  | waits {top : Invocation} {below : List Invocation} {command : Command} {prompt : Text}
      {w : Workspace ε} (hf : e.Fetches top below command) (hg : top.gateOpen = true)
      (ha : command.action = .ask)
      (hp : e.workspace.perform e.settings command = (.suspend prompt, w)) :
      Move e (.halted (.waiting prompt) { e.past top below w with pending := some command })
  | stops {top : Invocation} {below : List Invocation} {command : Command} {ending : Ending}
      {w : Workspace ε} (hf : e.Fetches top below command) (hg : admits top command = true)
      (ha : command.action ≠ .jump)
      (he : ending = .quit ∨ (∃ m, ending = .conditionError m) ∨ ∃ m, ending = .failed m)
      (hp : e.workspace.perform e.settings command = (.stop ending, w)) :
      Move e (.halted (.ended ending) (((e.past top below w).observe command).finish ending).2)
  | exhausted {top : Invocation} {below : List Invocation} {command : Command}
      (hf : e.Fetches top below command) (hg : top.gateOpen = true)
      (ha : command.action = .jump) (hb : e.budget < 1) :
      Move e (.halted (.ended .callDepthExceeded)
        (((e.past top below e.workspace).spent.observe command).finish .callDepthExceeded).2)
  | missing {top : Invocation} {below : List Invocation} {command : Command}
      (hf : e.Fetches top below command) (hg : top.gateOpen = true)
      (ha : command.action = .jump) (hb : 1 ≤ e.budget)
      (hn : e.routines.contains command.argument = false) :
      Move e (.halted (.ended (.routineNotFound command.argument))
        (((e.past top below e.workspace).spent.observe command).finish
          (.routineNotFound command.argument)).2)
  | enters {top : Invocation} {below : List Invocation} {command : Command}
      (hf : e.Fetches top below command) (hg : top.gateOpen = true)
      (ha : command.action = .jump) (hb : 1 ≤ e.budget)
      (hn : e.routines.contains command.argument = true) :
      Move e (.going ((e.past top below e.workspace).entered command))

theorem move_enter {e : Engine ε} {top : Invocation} {below : List Invocation} {command : Command}
    (hf : e.Fetches top below command) (hg : top.gateOpen = true) (ha : command.action = .jump) :
    e.Move ((e.past top below e.workspace).enter command command.argument) := by
  have hbudget : (e.past top below e.workspace).budget = e.budget := rfl
  unfold enter
  simp only [hbudget]
  split
  · rw [halt_eq]
    exact .exhausted hf hg ha (by omega)
  · split
    · next hn =>
      rw [halt_eq]
      exact .missing hf hg ha (by omega) (by simpa [past] using hn)
    · next hn => exact .enters hf hg ha (by omega) (by simpa [past] using hn)

theorem move_advance {e : Engine ε} {top : Invocation} {below : List Invocation}
    {command : Command} (hf : e.Fetches top below command) :
    e.Move (e.advance top below command) := by
  unfold advance
  simp only
  split
  · next hg =>
    have answer := e.workspace.answers_perform e.settings command
    generalize hp : e.workspace.perform e.settings command = outcome at answer
    cases answer with
    | next ha => exact .next hf hg ha hp
    | gate ha => exact .gate hf hg ha hp
    | enter ha => exact move_enter hf (gateOpen_of_admits hg (by simp [ha])) ha
    | suspend ha => exact .waits hf (gateOpen_of_admits hg (by simp [ha])) ha hp
    | quit ha =>
      simp only [follow]
      rw [halt_eq]
      exact .stops hf hg (by simp [ha]) (Or.inl rfl) hp
    | undecided ha =>
      simp only [follow]
      rw [halt_eq]
      exact .stops hf hg (by simp [ha]) (Or.inr (Or.inl ⟨_, rfl⟩)) hp
    | failed ha =>
      simp only [follow]
      rw [halt_eq]
      exact .stops hf hg ha (Or.inr (Or.inr ⟨_, rfl⟩)) hp
  · next hg =>
    obtain ⟨hg, ha⟩ := admits_eq_false_iff.1 (by simpa using hg)
    exact .passedOver hf hg ha

theorem step_of_fetches {e : Engine ε} {top : Invocation} {below : List Invocation}
    {command : Command} (hf : e.Fetches top below command) (hg : top.gateOpen = true) : e.step
      = (e.past top below (e.workspace.perform e.settings command).2).follow command
        (e.workspace.perform e.settings command).1 := by
  unfold step advance
  simp [hf.uncancelled, hf.unbroken, hf.stack, hf.fetched, admits_of_gateOpen hg, past]

/-- A step does nothing else. -/
theorem move_step (e : Engine ε) : e.Move e.step := by
  unfold step
  split
  · next hc =>
    rw [halt_eq]
    exact .cancelled hc
  · next hc =>
    have hc : e.workspace.cancelled = false := by simpa using hc
    split
    · next hq =>
      rw [halt_eq]
      exact .broken hc hq
    · next hq =>
      have hq : e.quit = false := by simpa using hq
      split
      · next hs =>
        rw [halt_eq]
        exact .completed hc hq hs
      · next top below hs =>
        split
        · next hn => exact .returned hc hq hs hn
        · next command hn => exact move_advance ⟨hc, hq, hs, hn⟩

structure Ready (e : Engine ε) : Prop where
  unbroken : e.quit = false
  budget : 0 ≤ e.budget

omit [Environment ε] in
theorem Ready.of_eq {e e' : Engine ε} (h : e.Ready) (hq : e'.quit = e.quit)
    (hb : e'.budget = e.budget) : e'.Ready :=
  ⟨hq.trans h.unbroken, hb ▸ h.budget⟩

theorem quit_leave (e : Engine ε) (top : Invocation) (below : List Invocation) :
    (e.leave top below).quit = e.quit := by
  unfold leave
  cases top.caller <;> rfl

theorem budget_leave (e : Engine ε) (top : Invocation) (below : List Invocation) :
    (e.leave top below).budget = e.budget := by
  unfold leave
  cases top.caller <;> rfl

theorem stack_leave (e : Engine ε) (top : Invocation) (below : List Invocation) :
    (e.leave top below).stack = below := by
  unfold leave
  cases top.caller <;> rfl

theorem pending_leave (e : Engine ε) (top : Invocation) (below : List Invocation) :
    (e.leave top below).pending = e.pending := by
  unfold leave
  cases top.caller <;> rfl

structure SameScript (e e' : Engine ε) : Prop where
  settings : e'.settings = e.settings
  routines : e'.routines = e.routines

omit [Environment ε] in
theorem SameScript.trans {e e' e'' : Engine ε} (h : e.SameScript e') (h' : e'.SameScript e'') :
    e.SameScript e'' :=
  ⟨h'.settings.trans h.settings, h'.routines.trans h.routines⟩

theorem sameScript_finish (e : Engine ε) (ending : Ending) :
    e.SameScript (e.finish ending).2 :=
  ⟨settings_finish e ending, routines_finish e ending⟩

theorem sameScript_leave (e : Engine ε) (top : Invocation) (below : List Invocation) :
    e.SameScript (e.leave top below) := by
  unfold leave
  cases top.caller <;> exact ⟨rfl, rfl⟩

theorem sameScript_going {e e' : Engine ε} (h : e.step = .going e') : e.SameScript e' := by
  have move := e.move_step
  rw [h] at move
  cases move with
  | returned => exact sameScript_leave e _ _
  | passedOver | next | gate | enters => exact ⟨rfl, rfl⟩

theorem sameScript_halted {e e' : Engine ε} {standing : Standing}
    (h : e.step = .halted standing e') : e.SameScript e' := by
  have move := e.move_step
  rw [h] at move
  cases move with
  | cancelled | broken | completed => exact sameScript_finish e _
  | waits => exact ⟨rfl, rfl⟩
  | stops | exhausted | missing => exact ⟨settings_finish _ _, routines_finish _ _⟩

theorem Ready.going {e e' : Engine ε} (h : e.Ready) (hs : e.step = .going e') : e'.Ready := by
  have move := e.move_step
  rw [hs] at move
  cases move with
  | returned => exact h.of_eq (quit_leave e _ _) (budget_leave e _ _)
  | passedOver | next | gate => exact h.of_eq rfl rfl
  | enters _ _ _ hb _ =>
    refine ⟨h.unbroken, ?_⟩
    change 0 ≤ e.budget - 1
    omega

theorem Ready.waiting {e e' : Engine ε} {prompt : Text} (h : e.Ready)
    (hs : e.step = .halted (.waiting prompt) e') : e'.Ready := by
  have move := e.move_step
  rw [hs] at move
  cases move with
  | waits => exact h.of_eq rfl rfl

end Engine
end BenchScript
