import BenchScript.Proofs.Effects
import BenchScript.Proofs.Traffic

set_option autoImplicit false

namespace BenchScript

def Ending.reportedAs (ending : Ending) (cancel : Bool) : List Passage :=
  ending.report?.toList.map (.notified · cancel)

theorem Ending.isCallback_of_mem_reportedAs {ending : Ending} {cancel : Bool} :
    ∀ p ∈ ending.reportedAs cancel, p.isCallback = true := by
  intro p hp
  obtain ⟨note, -, rfl⟩ := List.mem_map.1 hp
  rfl

namespace Engine

variable {ε : Type}

def carried? (m : Engine ε) : Option Command :=
  match m.fetched? with
  | some (top, command) => if admits top command then some command else none
  | none => none

def Progress.left : Progress ε → Engine ε
  | .going e => e
  | .halted _ e => e

theorem Fetches.carried?_eq {m : Engine ε} {top : Invocation} {below : List Invocation}
    {command : Command} (h : m.Fetches top below command) :
    m.carried? = if admits top command then some command else none := by
  unfold carried?
  rw [h.fetched?_eq]

theorem Fetches.carried?_of_admits {m : Engine ε} {top : Invocation} {below : List Invocation}
    {command : Command} (h : m.Fetches top below command) (hg : admits top command = true) :
    m.carried? = some command := by
  rw [h.carried?_eq, if_pos hg]

theorem carried?_of_fetched?_none {m : Engine ε} (h : m.fetched? = none) : m.carried? = none := by
  unfold carried?
  rw [h]

variable [Environment ε] {m e e' : Engine (Recorded ε)}

open Workspace

/-- What passes in a step, and what comes of it. -/
inductive Happens (m : Engine (Recorded ε)) : List Passage → Progress (Recorded ε) → Prop where
  /-- Nothing is carried out, and the host hears of a command at most. -/
  | idle {passed : List Passage} {e' : Engine (Recorded ε)} (hn : m.carried? = none)
      (hp : passed = [] ∨ ∃ observation cancel, passed = [.observed observation cancel])
      (hw : m.workspace.Called passed e'.workspace) : Happens m passed (.going e')
  /-- A command is carried out. The host hears of it, unless it is a jump that is taken. -/
  | done {command : Command} {effects : List Passage} {heard : List Passage} {verdict : Verdict}
      {w : Workspace (Recorded ε)} {e' : Engine (Recorded ε)} (hc : m.carried? = some command)
      (he : Effect m.settings command m.workspace effects (verdict, w))
      (hv : verdict = .next ∨ (∃ isOpen, verdict = .gate isOpen) ∨ ∃ name, verdict = .enter name)
      (hp : heard = [] ∨ ∃ cancel, heard = [.observed ⟨command.line, w.lastRow, w.lastData⟩ cancel])
      (hw : w.Called heard e'.workspace) : Happens m (effects ++ heard) (.going e')
  | waits {command : Command} {effects : List Passage} {prompt : Text}
      {w : Workspace (Recorded ε)} {e' : Engine (Recorded ε)} (hc : m.carried? = some command)
      (he : Effect m.settings command m.workspace effects (.suspend prompt, w))
      (hw : e'.workspace = w) : Happens m effects (.halted (.waiting prompt) e')
  /-- A command ends the run: it has its effect, the host hears of it, and of the end after it. -/
  | ends {command : Command} {effects : List Passage} {verdict : Verdict} {ending : Ending}
      {w : Workspace (Recorded ε)} {e' : Engine (Recorded ε)} {cancel cancel' : Bool}
      (hc : m.carried? = some command)
      (he : Effect m.settings command m.workspace effects (verdict, w))
      (hv : verdict = .stop ending ∨ ∃ name, verdict = .enter name)
      (hend : ending ≠ .completed ∧ ending ≠ .cancelled)
      (hw : w.Called (.observed ⟨command.line, w.lastRow, w.lastData⟩ cancel
        :: ending.reportedAs cancel') e'.workspace) :
      Happens m (effects ++ .observed ⟨command.line, w.lastRow, w.lastData⟩ cancel
        :: ending.reportedAs cancel') (.halted (.ended ending) e')
  /-- The run ends before another command is taken up. -/
  | finished {ending : Ending} {e' : Engine (Recorded ε)} {cancel : Bool} (hn : m.fetched? = none)
      (hend : ending = .completed ∨ ending = .cancelled ∨ ending = .quit ∧ m.quit = true)
      (hw : m.workspace.Called (ending.reportedAs cancel) e'.workspace) :
      Happens m (ending.reportedAs cancel) (.halted (.ended ending) e')

theorem called_finish (e : Engine (Recorded ε)) (ending : Ending) :
    ∃ cancel, e.workspace.Called (ending.reportedAs cancel) (e.finish ending).2.workspace := by
  unfold finish Ending.reportedAs
  cases ending.report? with
  | none => exact ⟨false, .refl e.workspace⟩
  | some note => exact ⟨_, called_notify note e.workspace⟩

theorem called_leave (e : Engine (Recorded ε)) (top : Invocation) (below : List Invocation) :
    ∃ passed, (passed = [] ∨ ∃ observation cancel, passed = [.observed observation cancel]) ∧
      e.workspace.Called passed (e.leave top below).workspace := by
  unfold leave
  cases top.caller with
  | none => exact ⟨[], Or.inl rfl, .refl e.workspace⟩
  | some caller => exact ⟨_, Or.inr ⟨_, _, rfl⟩, called_observe caller e.workspace⟩

/-- A command after which the run is over. -/
theorem happens_ends {command : Command} {effects : List Passage} {verdict : Verdict}
    {ending : Ending} {w : Workspace (Recorded ε)} (hc : m.carried? = some command)
    (he : Effect m.settings command m.workspace effects (verdict, w))
    (hv : verdict = .stop ending ∨ ∃ name, verdict = .enter name)
    (hend : ending ≠ .completed ∧ ending ≠ .cancelled) (hw : e.workspace = w) :
    ∃ passed, m.Happens passed
      (.halted (.ended ending) ((e.observe command).finish ending).2) := by
  have hobserved : w.Called [.observed ⟨command.line, w.lastRow, w.lastData⟩
      (Host.observe ⟨command.line, w.lastRow, w.lastData⟩ w.around.around).1]
      (e.observe command).workspace := by
    rw [← hw]
    exact called_observe command e.workspace
  obtain ⟨cancel, hreported⟩ := called_finish (e.observe command) ending
  exact ⟨_, .ends hc he hv hend (hobserved.trans hreported)⟩

theorem happens_finished {ending : Ending} (hn : m.fetched? = none)
    (hend : ending = .completed ∨ ending = .cancelled ∨ ending = .quit ∧ m.quit = true) :
    ∃ passed, m.Happens passed (.halted (.ended ending) (m.finish ending).2) := by
  obtain ⟨cancel, hreported⟩ := called_finish m ending
  exact ⟨_, .finished hn hend hreported⟩

/-- Whatever a step does is one of these. -/
theorem exists_happens (m : Engine (Recorded ε)) : ∃ passed, m.Happens passed m.step := by
  have effect : ∀ {command verdict w},
      m.workspace.perform m.settings command = (verdict, w) →
        ∃ effects, Effect m.settings command m.workspace effects (verdict, w) := by
    intro command verdict w hp
    rw [← hp]
    exact effect_perform m.settings command m.workspace
  have move := m.move_step
  generalize m.step = progress at move
  cases move with
  | cancelled h => exact happens_finished (fetched?_of_cancelled h) (by simp)
  | broken _ h => exact happens_finished (fetched?_of_quit h) (Or.inr (Or.inr ⟨rfl, h⟩))
  | completed _ _ h => exact happens_finished (fetched?_of_stack_nil h) (by simp)
  | @returned top below _ _ hs hn =>
    obtain ⟨passed, hp, hw⟩ := called_leave m top below
    exact ⟨passed, .idle (carried?_of_fetched?_none (fetched?_of_command?_none hs hn)) hp hw⟩
  | @passedOver top below command hf hg ha =>
    have hn : m.carried? = none := by
      rw [hf.carried?_eq, admits_eq_false_iff.2 ⟨hg, ha⟩]
      rfl
    exact ⟨_, .idle hn (Or.inr ⟨_, _, rfl⟩) (called_observe command m.workspace)⟩
  | @next top below command w hf hg _ hp =>
    obtain ⟨effects, he⟩ := effect hp
    exact ⟨_, .done (hf.carried?_of_admits hg) he (Or.inl rfl) (Or.inr ⟨_, rfl⟩)
      (called_observe command w)⟩
  | @gate top below command isOpen hf hg _ hp =>
    obtain ⟨effects, he⟩ := effect hp
    have hw : (((m.past top below m.workspace).setGate isOpen).observe command).workspace
        = m.workspace.observe command := by
      unfold observe
      rw [workspace_mapWorkspace, workspace_setGate]
      rfl
    have hcalled := called_observe command m.workspace
    rw [← hw] at hcalled
    exact ⟨_, .done (hf.carried?_of_admits hg) he (Or.inr (Or.inl ⟨_, rfl⟩)) (Or.inr ⟨_, rfl⟩)
      hcalled⟩
  | waits hf hg _ hp =>
    obtain ⟨effects, he⟩ := effect hp
    exact ⟨_, .waits (hf.carried?_of_admits (admits_of_gateOpen hg _)) he rfl⟩
  | stops hf hg _ hend hp =>
    obtain ⟨effects, he⟩ := effect hp
    refine happens_ends (hf.carried?_of_admits hg) he (Or.inl rfl) ?_ rfl
    rcases hend with rfl | ⟨message, rfl⟩ | ⟨message, rfl⟩ <;> exact ⟨nofun, nofun⟩
  | exhausted hf hg ha _ =>
    obtain ⟨effects, he⟩ := effect (perform_jump ha m.settings m.workspace)
    exact happens_ends (hf.carried?_of_admits (admits_of_gateOpen hg _)) he (Or.inr ⟨_, rfl⟩)
      ⟨nofun, nofun⟩ rfl
  | missing hf hg ha _ _ =>
    obtain ⟨effects, he⟩ := effect (perform_jump ha m.settings m.workspace)
    exact happens_ends (hf.carried?_of_admits (admits_of_gateOpen hg _)) he (Or.inr ⟨_, rfl⟩)
      ⟨nofun, nofun⟩ rfl
  | enters hf hg ha _ _ =>
    obtain ⟨effects, he⟩ := effect (perform_jump ha m.settings m.workspace)
    exact ⟨_, .done (hf.carried?_of_admits (admits_of_gateOpen hg _)) he
      (Or.inr (Or.inr ⟨_, rfl⟩)) (Or.inl rfl) (.refl m.workspace)⟩

theorem Happens.passes {passed : List Passage} {progress : Progress (Recorded ε)}
    (h : m.Happens passed progress) : m.workspace.Passes passed progress.left.workspace := by
  cases h with
  | idle _ _ hw | finished _ _ hw => exact hw.passes
  | done _ he _ _ hw | ends _ he _ _ hw => exact he.passes.trans hw.passes
  | waits _ he hw =>
    have heffect := he.passes
    rw [← hw] at heffect
    exact heffect

theorem happens_step (m : Engine (Recorded ε)) : m.Happens (since m m.step.left) m.step := by
  obtain ⟨passed, hhappens⟩ := m.exists_happens
  rw [since_eq_of_record hhappens.passes.record]
  exact hhappens

theorem happens_going (h : m.step = .going e') : m.Happens (since m e') (.going e') := by
  have hhappens := m.happens_step
  rw [h] at hhappens
  exact hhappens

theorem happens_halted {standing : Standing} (h : m.step = .halted standing e') :
    m.Happens (since m e') (.halted standing e') := by
  have hhappens := m.happens_step
  rw [h] at hhappens
  exact hhappens

theorem linesIn_reportedAs (ending : Ending) (cancel : Bool) :
    linesIn (ending.reportedAs cancel) = [] :=
  linesIn_of_isCallback Ending.isCallback_of_mem_reportedAs

/-- What passes in a step is the effect of the command that it carries out, if it does, and what the
host hears after it. -/
theorem Happens.exists_parts {passed : List Passage} {progress : Progress (Recorded ε)}
    (h : m.Happens passed progress) :
    ∃ effects heard, passed = effects ++ heard ∧ (∀ p ∈ heard, p.isCallback = true) ∧
      (effects = [] ∨ ∃ command outcome, m.carried? = some command ∧
        Effect m.settings command m.workspace effects outcome) := by
  cases h with
  | idle _ hp _ =>
    refine ⟨[], passed, rfl, ?_, Or.inl rfl⟩
    rcases hp with rfl | ⟨observation, cancel, rfl⟩ <;> simp [Passage.isCallback]
  | done hc he _ hp _ =>
    refine ⟨_, _, rfl, ?_, Or.inr ⟨_, _, hc, he⟩⟩
    rcases hp with rfl | ⟨cancel, rfl⟩ <;> simp [Passage.isCallback]
  | waits hc he _ =>
    exact ⟨passed, [], (List.append_nil _).symm, List.forall_mem_nil _, Or.inr ⟨_, _, hc, he⟩⟩
  | ends hc he _ _ _ =>
    exact ⟨_, _, rfl, List.forall_mem_cons.2 ⟨rfl, Ending.isCallback_of_mem_reportedAs⟩,
      Or.inr ⟨_, _, hc, he⟩⟩
  | finished => exact ⟨[], _, rfl, Ending.isCallback_of_mem_reportedAs, Or.inl rfl⟩

/-- A step changes the last row and data only by the lines that it receives, to those of the last
one. -/
theorem Happens.last_eq {passed : List Passage} {progress : Progress (Recorded ε)}
    (h : m.Happens passed progress) :
    progress.left.workspace.last = (m.workspace.hear (linesIn passed)).last := by
  cases h with
  | idle _ hp hw =>
    have hnone : linesIn passed = [] := by
      rcases hp with rfl | ⟨observation, cancel, rfl⟩ <;> rfl
    rw [hnone]
    exact hw.last_eq
  | @done command effects heard _ w _ _ he _ hp hw =>
    have hnone : linesIn heard = [] := by
      rcases hp with rfl | ⟨cancel, rfl⟩ <;> rfl
    rw [linesIn_append, hnone, List.append_nil]
    exact hw.last_eq.trans he.last_eq
  | waits _ he hw =>
    rw [← he.last_eq, ← hw]
    rfl
  | @ends command effects _ ending w _ cancel cancel' _ he _ _ hw =>
    have hnone : linesIn (.observed ⟨command.line, w.lastRow, w.lastData⟩ cancel
        :: ending.reportedAs cancel') = [] := linesIn_reportedAs ending cancel'
    rw [linesIn_append, hnone, List.append_nil]
    exact hw.last_eq.trans he.last_eq
  | @finished ending _ cancel _ _ hw =>
    rw [linesIn_reportedAs]
    exact hw.last_eq

/-- A call that neither begins anything nor answers a prompt may talk to the device, and nothing
else of it is recorded. -/
theorem call_aside_talks (e : Engine (Recorded ε)) {call : Call} (hb : call.begins = false)
    (hne : ∀ input, call ≠ .resume input) :
    ∃ passed, (e.call call).2.record = e.record ++ passed ∧
      (∀ p ∈ passed, p.isTraffic = true) ∧
      (e.call call).2.workspace.last = (e.workspace.hear (linesIn passed)).last := by
  cases call with
  | resume input => exact absurd rfl (hne input)
  | load | loadFrom | run | runAnswered => cases hb
  | cancel => exact ⟨[], (List.append_nil _).symm, List.forall_mem_nil _, rfl⟩
  | close => exact ⟨[.closed], rfl, by simp [Passage.isTraffic], rfl⟩
  | sendDigits text | sendChecksum text =>
    obtain ⟨⟨passed, htalked⟩, -⟩ := talks_sendAny _ e.workspace
    exact ⟨passed, htalked.record, htalked.traffic, htalked.last_eq⟩

/-- So it is with every call but the answer while a prompt waits. -/
theorem call_apart_talks (h : e.isWaiting = true) {call : Call}
    (hne : ∀ input, call ≠ .resume input) :
    ∃ passed, (e.call call).2.record = e.record ++ passed ∧
      (∀ p ∈ passed, p.isTraffic = true) ∧
      (e.call call).2.workspace.last = (e.workspace.hear (linesIn passed)).last := by
  cases hb : call.begins with
  | false => exact e.call_aside_talks hb hne
  | true =>
    rw [call_of_begins h hb]
    exact ⟨[], (List.append_nil _).symm, List.forall_mem_nil _, rfl⟩

end Engine
end BenchScript
