import BenchScript.Proofs.Invariants
import BenchScript.Proofs.Lockstep
import BenchScript.Proofs.Mishaps

set_option autoImplicit false

namespace BenchScript

structure Host.Unmoved {η : Type} [Host η] (H : η → η → Prop) : Prop where
  symm : ∀ {h h'}, H h h' → H h' h
  notify : ∀ {h h'} note, H h h' → Agree H (Host.notify note h) (Host.notify note h')
  observe : ∀ {h h'} observation, H h h' →
    Agree H (Host.observe observation h) (Host.observe observation h')
  clock : ∀ {h h'}, H h h' → Host.clock h = Host.clock h'
  warned : ∀ {h h'} message, H h h' → (Host.notify ⟨.warning, message, false⟩ h).1 = false ∧
    H (Host.notify ⟨.warning, message, false⟩ h).2 h'

/-- A relation between surroundings that answer alike but for their files, and that neither an
append nor a warning to one of them parts. -/
structure Environment.Unmoved {ε : Type} [Environment ε] (S : ε → ε → Prop) : Prop
    extends Environment.Alike S where
  symm : ∀ {s s'}, S s s' → S s' s
  appended : ∀ {s s'} path line, S s s' →
    S (FileStore.appendLine path line s).2 (FileStore.appendLine path line s').2
  warned : ∀ {s s'} message, S s s' → (Host.notify ⟨.warning, message, false⟩ s).1 = false ∧
    S (Host.notify ⟨.warning, message, false⟩ s).2 s'

def attempt (path line : Text) (result : Except Text Unit) : List Passage :=
  .appended path line result ::
    match result with
    | .ok () => []
    | .error cause => [.notified ⟨.warning, (ScriptError.file path cause).message, false⟩ false]

/-- What passes is the same but for what became of appends. -/
inductive Mended : List Passage → List Passage → Prop where
  | nil : Mended [] []
  | same {passed passed' : List Passage} (h : Mended passed passed') (p : Passage) :
      Mended (passed ++ [p]) (passed' ++ [p])
  | attempted {passed passed' : List Passage} (h : Mended passed passed') (path line : Text)
      (result result' : Except Text Unit) :
      Mended (passed ++ attempt path line result) (passed' ++ attempt path line result')

namespace Transcript

def IsCalm (t : Transcript) : Prop := t.cancelAtNote = none ∧ t.cancelAtObserved = none

def Calm (t t' : Transcript) : Prop := t.IsCalm ∧ t'.IsCalm ∧ t.time = t'.time

theorem notify_of_isCalm {t : Transcript} (h : t.IsCalm) (note : Notification) :
    (t.notify note).1 = false ∧ (t.notify note).2.IsCalm := by
  obtain ⟨hnote, hobserved⟩ := h
  unfold Transcript.notify
  rw [hnote]
  exact ⟨rfl, rfl, hobserved⟩

theorem observe_of_isCalm {t : Transcript} (h : t.IsCalm) (observation : Observation) :
    (t.observe observation).1 = false ∧ (t.observe observation).2.IsCalm ∧
      (t.observe observation).2.time = t.time := by
  unfold Transcript.observe
  split
  · rw [h.2]
    exact ⟨rfl, ⟨h.1, rfl⟩, rfl⟩
  · exact ⟨rfl, h, rfl⟩

theorem unmoved : Host.Unmoved Calm where
  symm h := ⟨h.2.1, h.1, h.2.2.symm⟩
  notify note h := by
    obtain ⟨hfirst, hsecond, htime⟩ := h
    obtain ⟨hcancel, hcalm⟩ := notify_of_isCalm hfirst note
    obtain ⟨hcancel', hcalm'⟩ := notify_of_isCalm hsecond note
    exact ⟨hcancel.trans hcancel'.symm, hcalm, hcalm', htime⟩
  observe observation h := by
    obtain ⟨hfirst, hsecond, htime⟩ := h
    obtain ⟨hcancel, hcalm, hkept⟩ := observe_of_isCalm hfirst observation
    obtain ⟨hcancel', hcalm', hkept'⟩ := observe_of_isCalm hsecond observation
    exact ⟨hcancel.trans hcancel'.symm, hcalm, hcalm', hkept.trans (htime.trans hkept'.symm)⟩
  clock h := h.2.2
  warned message h := by
    obtain ⟨hcancel, hcalm⟩ := notify_of_isCalm h.1 ⟨.warning, message, false⟩
    exact ⟨hcancel, hcalm, h.2.1, h.2.2⟩

end Transcript

namespace Surroundings

variable {δ φ η : Type} [Device δ] [FileStore φ] [Host η] {H : η → η → Prop}

structure SameButFiles (H : η → η → Prop) (s s' : Surroundings δ φ η) : Prop where
  device : s.device = s'.device
  host : H s.host s'.host

theorem unmoved (hH : Host.Unmoved H) : Environment.Unmoved (@SameButFiles δ φ η H) where
  write {s s'} bytes h := by
    change Agree _ ((Device.write bytes s.device).map id fun device => { s with device })
      ((Device.write bytes s'.device).map id fun device => { s' with device })
    rw [h.device]
    exact ⟨rfl, rfl, h.host⟩
  readThrough {s s'} stop h := by
    change Agree _ ((Device.readThrough stop s.device).map id fun device => { s with device })
      ((Device.readThrough stop s'.device).map id fun device => { s' with device })
    rw [h.device]
    exact ⟨rfl, rfl, h.host⟩
  close h := ⟨congrArg Device.close h.device, h.host⟩
  notify note h := ⟨(hH.notify note h.host).result, h.device, (hH.notify note h.host).state⟩
  observe observation h :=
    ⟨(hH.observe observation h.host).result, h.device, (hH.observe observation h.host).state⟩
  clock h := hH.clock h.host
  symm h := ⟨h.device.symm, hH.symm h.host⟩
  appended path line h := ⟨h.device, h.host⟩
  warned message h := ⟨(hH.warned message h.host).1, h.device, (hH.warned message h.host).2⟩

end Surroundings

namespace Recorded

variable {ε : Type} [Environment ε] {S : ε → ε → Prop} {before before' : List Passage}
  {r r' : Recorded ε}

/-- Related surroundings to which the same has passed since then, but for what became of appends. -/
structure Beside (S : ε → ε → Prop) (before before' : List Passage) (r r' : Recorded ε) :
    Prop where
  around : S r.around r'.around
  record : ∃ passed passed', r.record = before ++ passed ∧ r'.record = before' ++ passed' ∧
    Mended passed passed'

omit [Environment ε] in
theorem Beside.keep {β : Type} (h : r.Beside S before before' r') (passage : β → Passage)
    {outcome outcome' : β × ε} (ho : Agree S outcome outcome') :
    Agree (Beside S before before') (r.keep passage outcome) (r'.keep passage outcome') := by
  obtain ⟨result, s, s', hs, rfl, rfl⟩ := ho.exists_eq
  obtain ⟨passed, passed', hr, hr', hmended⟩ := h.record
  refine ⟨rfl, hs, _, _, ?_, ?_, hmended.same (passage result)⟩
  · rw [← List.append_assoc, ← hr]
    rfl
  · rw [← List.append_assoc, ← hr']
    rfl

theorem alike_beside (hS : Environment.Unmoved S) (before before' : List Passage) :
    Environment.Alike (Beside S before before') where
  write bytes h := h.keep (.wrote bytes) (hS.write bytes h.around)
  readThrough stop h := h.keep (.received stop) (hS.readThrough stop h.around)
  close {r r'} h := by
    obtain ⟨passed, passed', hr, hr', hmended⟩ := h.record
    refine ⟨hS.close h.around, _, _, ?_, ?_, hmended.same .closed⟩
    · rw [← List.append_assoc, ← hr]
      rfl
    · rw [← List.append_assoc, ← hr']
      rfl
  notify note h := h.keep (.notified note) (hS.notify note h.around)
  observe observation h := h.keep (.observed observation) (hS.observe observation h.around)
  clock h := hS.clock h.around

end Recorded

namespace Workspace

variable {ε : Type} [Environment ε] {S : ε → ε → Prop} {before before' : List Passage}
  {w w' : Workspace (Recorded ε)} {settings : Settings} {command : Command} {path : Text}

theorem warn_of_unmoved (hS : Environment.Unmoved S) (message : Text) {s : ε}
    (h : S w.around.around s) :
    ∃ around : Recorded ε, w.warn message = { w with around } ∧
      around.record = w.around.record ++ [.notified ⟨.warning, message, false⟩ false] ∧
      S around.around s := by
  obtain ⟨hcancel, hleft⟩ := hS.warned message h
  have hkeep : Host.notify ⟨.warning, message, false⟩ w.around
      = w.around.keep (.notified ⟨.warning, message, false⟩)
        (Host.notify ⟨.warning, message, false⟩ w.around.around) := rfl
  unfold warn notify
  rw [hkeep]
  generalize Host.notify ⟨.warning, message, false⟩ w.around.around = out at hcancel hleft ⊢
  obtain ⟨cancel, left⟩ := out
  cases hcancel
  refine ⟨⟨left, w.around.record ++ [.notified ⟨.warning, message, false⟩ false]⟩, ?_, rfl, hleft⟩
  simp only [Recorded.keep, Bool.or_false]

/-- An attempt to append changes nothing but the record and what is around it. -/
theorem appendRow_of_unmoved (hS : Environment.Unmoved S)
    (hp : command.output? settings.defaultOutput = some path) {s : ε}
    (h : S (FileStore.appendLine path w.lastRow w.around.around).2 s) :
    ∃ around : Recorded ε, w.appendRow settings.defaultOutput command = { w with around } ∧
      around.record = w.around.record
        ++ attempt path w.lastRow (FileStore.appendLine path w.lastRow w.around.around).1 ∧
      S around.around s := by
  have hkeep : FileStore.appendLine path w.lastRow w.around
      = w.around.keep (.appended path w.lastRow)
        (FileStore.appendLine path w.lastRow w.around.around) := rfl
  rw [appendRow_of_some settings hp, hkeep]
  generalize FileStore.appendLine path w.lastRow w.around.around = out at h ⊢
  obtain ⟨result, left⟩ := out
  cases result with
  | ok => exact ⟨_, rfl, rfl, h⟩
  | error cause =>
    let after : Recorded ε := ⟨left, w.around.record ++ [.appended path w.lastRow (.error cause)]⟩
    obtain ⟨around, hwarned, hrecord, hleft⟩ :=
      warn_of_unmoved (w := { w with around := after }) hS (ScriptError.file path cause).message h
    refine ⟨around, hwarned, ?_, hleft⟩
    rw [hrecord, List.append_assoc]
    rfl

/-- Whether a line can be appended makes no difference to the workspace. -/
theorem Twin.appendRow_beside (hS : Environment.Unmoved S)
    (h : w.Twin (Recorded.Beside S before before') w') (settings : Settings) (command : Command) :
    (w.appendRow settings.defaultOutput command).Twin (Recorded.Beside S before before')
      (w'.appendRow settings.defaultOutput command) := by
  cases hp : command.output? settings.defaultOutput with
  | none =>
    rw [appendRow_of_none settings hp, appendRow_of_none settings hp]
    exact h.notify (Recorded.alike_beside hS before before') _
  | some path =>
    obtain ⟨around', hbeside, rfl⟩ := h.exists_eq
    obtain ⟨passed, passed', hr, hr', hmended⟩ := hbeside.record
    have happended := hS.appended path w.lastRow hbeside.around
    obtain ⟨left, heq, hrecord, hleft⟩ := appendRow_of_unmoved hS hp happended
    obtain ⟨left', heq', hrecord', hleft'⟩ :=
      appendRow_of_unmoved (w := { w with around := around' }) hS hp (hS.symm hleft)
    rw [heq, heq']
    rw [hr, List.append_assoc] at hrecord
    rw [hr', List.append_assoc] at hrecord'
    exact ⟨⟨hS.symm hleft', _, _, hrecord, hrecord', hmended.attempted path w.lastRow _ _⟩,
      rfl, rfl, rfl, rfl⟩

end Workspace

/-- Commands that read no file do alike in surroundings that have the same part in a run. -/
theorem Environment.Unmoved.abides {ε : Type} [Environment ε] {S : ε → ε → Prop}
    (hS : Environment.Unmoved S) (before before' : List Passage) :
    Abides (Recorded.Beside S before before')
      (fun command command' => command = command' ∧ command.action ≠ .sendFile) where
  alike := Recorded.alike_beside hS before before'
  perform settings h hc := by
    obtain ⟨rfl, hread⟩ := hc
    exact h.perform (Recorded.alike_beside hS before before') settings
      (fun ha => absurd ha hread) fun _ => h.appendRow_beside hS settings _
  observe h hc := by
    obtain ⟨rfl, -⟩ := hc
    exact h.observe (Recorded.alike_beside hS before before') _
  action_eq hc := congrArg Command.action hc.1
  eq_of_kept hc _ := hc.1

namespace Engine

variable {ε : Type} [Environment ε] {S : ε → ε → Prop} {e e' : Engine (Recorded ε)}

def SameButAround (e e' : Engine ε) : Prop :=
  e' = { e with workspace := { e.workspace with around := e'.workspace.around } }

omit [Environment ε] in
theorem Abreast.sameButAround {R : ε → ε → Prop} {C : Command → Command → Prop} {m m' : Engine ε}
    (h : m.Abreast R C m') (hr : m'.routines = m.routines) : m.SameButAround m' := by
  obtain ⟨settings, workspace, routines, quit, budget, stack, pending⟩ := m
  obtain ⟨settings', workspace', routines', quit', budget', stack', pending'⟩ := m'
  obtain ⟨rfl, hw, -, rfl, rfl, rfl, rfl⟩ := h
  obtain ⟨around, -, rfl⟩ := hw.exists_eq
  cases hr
  rfl

omit [Environment ε] in
theorem matches_of_all {routines : Routines}
    (h : Routines.All (fun command => command.action ≠ .sendFile) routines) :
    routines.Matches
      (fun command command' => command = command' ∧ command.action ≠ .sendFile) routines := by
  refine ⟨fun _ => rfl, fun name position => ?_⟩
  cases hc : routines.command? name position with
  | none => exact .none
  | some command => exact .some ⟨rfl, h name position command hc⟩

omit [Environment ε] in
theorem forall₂_sameButAround {R : ε → ε → Prop} {C : Command → Command → Prop}
    {start : Engine ε} {visited visited' : List (Engine ε)}
    (h : List.Forall₂ (Abreast R C) visited visited') (hs : ∀ m ∈ visited, start.SameScript m)
    (hs' : ∀ m ∈ visited', start.SameScript m) :
    List.Forall₂ SameButAround visited visited' := by
  induction h with
  | nil => exact .nil
  | cons hm _ ih =>
    obtain ⟨hfirst, hrest⟩ := List.forall_mem_cons.1 hs
    obtain ⟨hfirst', hrest'⟩ := List.forall_mem_cons.1 hs'
    have hroutines := hfirst'.routines.trans hfirst.routines.symm
    exact .cons (hm.sameButAround hroutines) (ih hrest hrest')

/-- Two runs of a script that reads no files, in surroundings that may differ in what they do with
appended lines. -/
theorem mended_of_isRun (hS : Environment.Unmoved S) {calls : List Call} (h : e.IsRun calls)
    (hread : Routines.All (fun command => command.action ≠ .sendFile) e.routines)
    (around : Recorded ε) (haround : S e.workspace.around.around around.around) :
    let e' : Engine (Recorded ε) := { e with workspace := { e.workspace with around } }
    e'.IsRun calls ∧ (e'.callAll calls).1 = (e.callAll calls).1 ∧
      (e.callAll calls).2.SameButAround (e'.callAll calls).2 ∧
      List.Forall₂ SameButAround (e.courseOfAll calls) (e'.courseOfAll calls) ∧
      Mended (since e (e.callAll calls).2) (since e' (e'.callAll calls).2) := by
  intro e'
  have hbeside : e.workspace.around.Beside S e.record around.record around :=
    ⟨haround, [], [], (List.append_nil _).symm, (List.append_nil _).symm, .nil⟩
  -- At first nothing has passed on either side; every step keeps the engines beside each other.
  have habreast : e.Abreast (Recorded.Beside S e.record around.record)
      (fun command command' => command = command' ∧ command.action ≠ .sendFile) e' :=
    ⟨rfl, ⟨hbeside, rfl, rfl, rfl, rfl⟩, matches_of_all hread, rfl, rfl, rfl, rfl⟩
  obtain ⟨hrun, hagree, hcourse⟩ :=
    habreast.callAll_of_isRun (hS.abides e.record around.record) h
  have hkeeps := h.keeps
  have hkeeps' := hrun.keeps
  have hroutines : (e'.callAll calls).2.routines = (e.callAll calls).2.routines := by
    rw [hkeeps.left.routines, hkeeps'.left.routines]
  have hvisited' : ∀ m ∈ e'.courseOfAll calls, e.SameScript m := fun m hm =>
    ⟨(hkeeps'.script m hm).settings, (hkeeps'.script m hm).routines⟩
  obtain ⟨passed, passed', hr, hr', hmended⟩ := hagree.state.workspace.around.record
  refine ⟨hrun, hagree.result.symm, hagree.state.sameButAround hroutines,
    forall₂_sameButAround hcourse hkeeps.script hvisited', ?_⟩
  have hsince : since e (e.callAll calls).2 = passed := since_eq_of_record hr
  have hsince' : since e' (e'.callAll calls).2 = passed' := since_eq_of_record hr'
  rw [hsince, hsince']
  exact hmended

/-- Files never disturb a run. If it fails, the error is not about a file. After a mishap with a
file the host is warned once, and the run goes on with the next command as if nothing had been done;
this is all that comes of a call on the file store that fails, and there are no such calls but those
of the commands. The lines appended are the last rows at the commands that wrote them, in order. And
whatever becomes of its appends, a run of a script that reads no files does the same: only the
appends and the warnings about them differ. -/
theorem undisturbed_by_files {calls : List Call} (h : e.IsRun calls) :
    let final := (e.callAll calls).2
    let visited := e.courseOfAll calls
    (∀ message, .failed message ∈ (e.callAll calls).1.filterMap Reply.ending? →
      ∃ m ∈ visited, ∃ command w error, m.carried? = some command ∧
        m.workspace.perform m.settings command = (.stop (.failed message), w) ∧
        message = w.blame command error ∧ error.isFile = false) ∧
    (∀ m ∈ visited, ∀ command passed message, m.carried? = some command →
      m.workspace.Mishap m.settings command passed message →
        ∃ m', m.Overcomes command passed message m') ∧
    (∀ m ∈ visited, ∀ p ∈ since m m.step.left, p.isFileFault = true →
      ∃ command message, m.carried? = some command ∧
        m.workspace.Mishap m.settings command [p] message) ∧
    fileCallsIn (since e final) = fileCallsOf visited ∧
    appendedIn (since e final) = visited.filterMap written? ∧
    ∀ S : ε → ε → Prop, Environment.Unmoved S →
      Routines.All (fun command => command.action ≠ .sendFile) e.routines →
      ∀ around : Recorded ε, S e.workspace.around.around around.around →
        let e' : Engine (Recorded ε) := { e with workspace := { e.workspace with around } }
        e'.IsRun calls ∧ (e'.callAll calls).1 = (e.callAll calls).1 ∧
          final.SameButAround (e'.callAll calls).2 ∧
          List.Forall₂ SameButAround visited (e'.courseOfAll calls) ∧
          Mended (since e final) (since e' (e'.callAll calls).2) := by
  intro final visited
  have hcalls := h.fileLedger.fileCalls
  refine ⟨fun message hend => h.exists_error hend, ?_, ?_, hcalls, ?_, ?_⟩
  · intro m _ command passed message hc hmishap
    exact exists_overcomes hc hmishap
  · intro m _ p hp hf
    exact exists_mishap_of_isFileFault hp hf
  · rw [← appendedIn_fileCallsIn, hcalls, appendedIn_fileCallsOf]
  · intro S hS hread around haround
    exact mended_of_isRun hS h hread around haround

def appending (locked : List PathKey) : Engine Bench :=
  ((idle {} ⟨⟨{}, { locked }, {}⟩, []⟩).load [['W', ' ', 'o'], ['M', 'x']]).2

theorem undisturbed_by_files_locked :
    (appending []).IsRun [.run []] ∧
      appendedIn (since (appending []) ((appending []).callAll [.run []]).2) = [(['o'], [])] ∧
      ((appending [PathKey.ofText ['o']]).callAll [.run []]).1
        = ((appending []).callAll [.run []]).1 ∧
      appendedIn (since (appending [PathKey.ofText ['o']])
        ((appending [PathKey.ofText ['o']]).callAll [.run []]).2) = [] := by
  have hrun : (appending []).IsRun [.run []] := ⟨rfl, trivial⟩
  obtain ⟨-, -, -, -, -, hmended⟩ := undisturbed_by_files hrun
  have hread : Routines.All (fun command => command.action ≠ .sendFile) (appending []).routines :=
    Routines.all_empty.insert entryRoutine (by decide)
  obtain ⟨-, hreplies, -⟩ := hmended _ (Surroundings.unmoved Transcript.unmoved) hread
    (appending [PathKey.ofText ['o']]).workspace.around ⟨rfl, ⟨rfl, rfl⟩, ⟨rfl, rfl⟩, rfl⟩
  obtain ⟨left, hloop, hwritten⟩ : ∃ left,
      loop 4 { (appending []).begun with stack := [{ routine := [] }] } = some left ∧
        appendedIn (since (appending []) left.2) = [(['o'], [])] := ⟨_, rfl, rfl⟩
  obtain ⟨left', hloop', hwritten'⟩ : ∃ left,
      loop 4 { (appending [PathKey.ofText ['o']]).begun with stack := [{ routine := [] }] }
        = some left ∧
        appendedIn (since (appending [PathKey.ofText ['o']]) left.2) = [] := ⟨_, rfl, rfl⟩
  refine ⟨hrun, ?_, hreplies, ?_⟩
  · rw [callAll_run_of_loop rfl (by decide) hloop]
    exact hwritten
  · rw [callAll_run_of_loop rfl (by decide) hloop']
    exact hwritten'

end Engine
end BenchScript
