import BenchScript.Proofs.Episodes
import BenchScript.Proofs.Markers

set_option autoImplicit false

namespace BenchScript

namespace Routines

variable {kind : Command → Prop}

def All (kind : Command → Prop) (table : Routines) : Prop :=
  ∀ name position command, table.command? name position = some command → kind command

theorem all_empty : All kind Table.empty := by
  intro name position command h
  cases h

theorem All.insert {table : Routines} (h : table.All kind) (name : Text) {commands : List Command}
    (hc : ∀ command ∈ commands, kind command) : All kind (table.insert name commands) := by
  intro name' position command hget
  unfold command? at hget
  rw [Table.get?_insert] at hget
  split at hget
  · exact hc command (List.mem_of_getElem? hget)
  · exact h name' position command hget

theorem all_cutSections {commands : List (Nat × Command)}
    (h : ∀ entry ∈ commands, kind entry.2) :
    (∀ command ∈ (cutSections commands).1, kind command) ∧
      ∀ part ∈ (cutSections commands).2, ∀ command ∈ part.commands, kind command := by
  induction commands with
  | nil => exact ⟨List.forall_mem_nil _, List.forall_mem_nil _⟩
  | cons entry rest ih =>
    obtain ⟨number, command⟩ := entry
    obtain ⟨hleading, hsections⟩ := ih fun other hmem => h other (List.mem_cons_of_mem _ hmem)
    rw [cutSections]
    simp only
    split
    · exact ⟨List.forall_mem_nil _, List.forall_mem_cons.2 ⟨hleading, hsections⟩⟩
    · exact ⟨List.forall_mem_cons.2 ⟨h (number, command) List.mem_cons_self, hleading⟩, hsections⟩

theorem All.addSections {table loaded : Routines} {sections : List Section} (h : table.All kind)
    (hs : ∀ part ∈ sections, ∀ command ∈ part.commands, kind command)
    (hok : table.addSections sections = .ok loaded) : loaded.All kind := by
  induction sections generalizing table with
  | nil =>
    cases hok
    exact h
  | cons part rest ih =>
    obtain ⟨hpart, hrest⟩ := List.forall_mem_cons.1 hs
    rw [Routines.addSections] at hok
    split at hok
    · cases hok
    · split at hok
      · cases hok
      · exact ih (h.insert part.name hpart) hrest hok

theorem mem_numbered {number : Nat} {lines : List Text} {entry : Nat × Command}
    (h : entry ∈ numbered number lines) :
    ∃ line ∈ lines, (LineClass.ofLine line).command? = some entry.2 := by
  have hmem : entry.2 ∈ (numbered number lines).map Prod.snd := List.mem_map_of_mem h
  rw [map_snd_numbered] at hmem
  exact List.mem_filterMap.1 hmem

/-- A script that was loaded has no commands but those of its lines. -/
theorem all_of_ofLines {lines : List Text} {table : Routines} (h : ofLines lines = .ok table)
    (hlines : ∀ line ∈ lines, ∀ command,
      (LineClass.ofLine line).command? = some command → kind command) : table.All kind := by
  have hunbroken := ((ofLines_eq_ok_iff lines table).1 h).1
  rw [ofLines_of_unbroken hunbroken] at h
  have hnumbered : ∀ entry ∈ numbered 1 lines, kind entry.2 := by
    intro entry hmem
    obtain ⟨line, hline, hcommand⟩ := mem_numbered hmem
    exact hlines line hline entry.2 hcommand
  obtain ⟨hleading, hsections⟩ := all_cutSections hnumbered
  exact (all_empty.insert entryRoutine hleading).addSections hsections h

end Routines

def Call.inputs : Call → List Text
  | .resume input => [input]
  | .runAnswered _ answers => answers.filterMap id
  | _ => []

namespace Workspace

variable {ε : Type} [Environment ε]

/-- A property of workspaces that nothing in a run takes away, if its commands are of one kind and
the answers to its prompts of another. -/
structure IsInvariant (settings : Settings) (kind : Command → Prop) (accepts : Text → Prop)
    (P : Workspace ε → Prop) : Prop where
  flag : ∀ w cancelled, P w → P { w with cancelled }
  answer : ∀ w input, accepts input → P w → P { w with lastRow := input, lastData := [] }
  notify : ∀ note w, P w → P (w.notify note)
  observe : ∀ command w, P w → P (w.observe command)
  perform : ∀ command w, kind command → P w → P (w.perform settings command).2

end Workspace

namespace Engine

variable {ε : Type}

structure Holds (settings : Settings) (kind : Command → Prop) (P : Workspace ε → Prop)
    (e : Engine ε) : Prop where
  settings : e.settings = settings
  routines : e.routines.All kind
  workspace : P e.workspace

variable {settings : Settings} {kind : Command → Prop} {accepts : Text → Prop}
  {P : Workspace ε → Prop} {e e' : Engine ε}

theorem Holds.of_sameScript (h : Holds settings kind P e) (hs : e.SameScript e')
    (hw : P e'.workspace) : Holds settings kind P e' := by
  refine ⟨hs.settings.trans h.settings, ?_, hw⟩
  rw [hs.routines]
  exact h.routines

variable [Environment ε] (hP : Workspace.IsInvariant settings kind accepts P)

include hP

theorem Holds.finish (h : Holds settings kind P e) (ending : Ending) :
    Holds settings kind P (e.finish ending).2 := by
  refine h.of_sameScript (sameScript_finish e ending) ?_
  unfold Engine.finish
  cases ending.report? with
  | none => exact h.workspace
  | some note => exact hP.notify note _ h.workspace

theorem Holds.observe (h : Holds settings kind P e) (command : Command) :
    Holds settings kind P (e.observe command) :=
  ⟨h.settings, h.routines, hP.observe command _ h.workspace⟩

theorem Holds.leave (h : Holds settings kind P e) (top : Invocation) (below : List Invocation) :
    Holds settings kind P (e.leave top below) := by
  refine h.of_sameScript (sameScript_leave e top below) ?_
  unfold Engine.leave
  cases top.caller with
  | none => exact h.workspace
  | some caller => exact hP.observe caller _ h.workspace

theorem Holds.past {top : Invocation} {below : List Invocation} {command : Command}
    {verdict : Verdict} {w : Workspace ε} (h : Holds settings kind P e)
    (hf : e.Fetches top below command)
    (hp : e.workspace.perform e.settings command = (verdict, w)) :
    Holds settings kind P (e.past top below w) := by
  have hw := hP.perform command e.workspace (h.routines _ _ _ hf.fetched) h.workspace
  rw [← h.settings, hp] at hw
  exact ⟨h.settings, h.routines, hw⟩

theorem Holds.going (h : Holds settings kind P e) (hs : e.step = .going e') :
    Holds settings kind P e' := by
  have move := e.move_step
  rw [hs] at move
  cases move with
  | returned => exact h.leave hP _ _
  | @passedOver top below command =>
    have hpassed : Holds settings kind P (e.past top below e.workspace) :=
      ⟨h.settings, h.routines, h.workspace⟩
    exact hpassed.observe hP command
  | next hf _ _ hp => exact (h.past hP hf hp).observe hP _
  | @gate top below command isOpen hf _ _ hp =>
    refine h.of_sameScript (sameScript_going hs) ?_
    unfold Engine.observe
    rw [workspace_mapWorkspace, workspace_setGate]
    exact hP.observe command _ h.workspace
  | enters => exact ⟨h.settings, h.routines, h.workspace⟩

theorem Holds.halted {standing : Standing} (h : Holds settings kind P e)
    (hs : e.step = .halted standing e') : Holds settings kind P e' := by
  have move := e.move_step
  rw [hs] at move
  cases move with
  | cancelled | broken | completed => exact h.finish hP _
  | waits hf _ _ hp =>
    have hpast := h.past hP hf hp
    exact ⟨hpast.settings, hpast.routines, hpast.workspace⟩
  | stops hf _ _ _ hp => exact ((h.past hP hf hp).observe hP _).finish hP _
  | @exhausted top below command _ _ _ _ | @missing top below command _ _ _ _ _ =>
    have hspent : Holds settings kind P (e.past top below e.workspace).spent :=
      ⟨h.settings, h.routines, h.workspace⟩
    exact (hspent.observe hP command).finish hP _

theorem Holds.carryOn (h : Holds settings kind P e) : Holds settings kind P e.carryOn.2 := by
  obtain ⟨last, hlast, hhalt⟩ := carryOn_eq_of_course h fun _ _ hm hs => Holds.going hP hm hs
  exact hlast.halted hP hhalt

theorem Holds.forall_mem_course (h : Holds settings kind P e) :
    ∀ m ∈ e.course, Holds settings kind P m :=
  Engine.forall_mem_course h fun _ _ hm hs => Holds.going hP hm hs

theorem Holds.begun (h : Holds settings kind P e) (stack : List Invocation) :
    Holds settings kind P { e.begun with stack } :=
  ⟨h.settings, h.routines, hP.flag _ false h.workspace⟩

theorem Holds.deliver (h : Holds settings kind P e) (command : Command) {input : Text}
    (hi : accepts input) : Holds settings kind P (e.deliver command input) :=
  ⟨h.settings, h.routines, hP.observe command _ (hP.answer _ input hi h.workspace)⟩

theorem Holds.abandon (h : Holds settings kind P e) : Holds settings kind P e.abandon := by
  have hanswered : Holds settings kind P { e with pending := none } :=
    ⟨h.settings, h.routines, h.workspace⟩
  exact hanswered.finish hP .cancelled

theorem Holds.run (h : Holds settings kind P e) (hw : e.isWaiting = false) (routine : Text) :
    (∀ m ∈ e.courseOf (.run routine), Holds settings kind P m) ∧
      Holds settings kind P (e.call (.run routine)).2 := by
  have hbegun := h.begun hP [{ routine }]
  cases hr : e.routines.contains routine with
  | true =>
    rw [courseOf_run_of_contains hw hr, call_run_of_contains hw hr]
    exact ⟨hbegun.forall_mem_course hP, hbegun.carryOn hP⟩
  | false =>
    rw [courseOf_run_of_not_contains hw hr, call_run_of_not_contains hw hr]
    exact ⟨List.forall_mem_nil _, (h.begun hP []).finish hP _⟩

theorem Holds.resume (h : Holds settings kind P e) {input : Text} (hi : accepts input) :
    (∀ m ∈ e.courseOf (.resume input), Holds settings kind P m) ∧
      Holds settings kind P (e.call (.resume input)).2 := by
  cases hp : e.pending with
  | none =>
    have hnone : e.courseOf (.resume input) = [] := courseOfAnswers_of_none hp [some input]
    rw [hnone]
    simp only [Engine.call, Engine.resume, hp]
    exact ⟨List.forall_mem_nil _, h⟩
  | some command =>
    have hdelivered := h.deliver hP command hi
    rw [courseOf_resume hp, call_resume hp]
    exact ⟨hdelivered.forall_mem_course hP, hdelivered.carryOn hP⟩

/-- What answers that were prepared lead to, from a prompt on. -/
theorem Holds.answers {answers : List (Option Text)} {standing : Standing}
    (h : Holds settings kind P e) (hs : e.Stands standing) (asked : List Text)
    (hi : ∀ input, some input ∈ answers → accepts input) :
    (∀ m ∈ e.courseOfAnswers answers, Holds settings kind P m) ∧
      Holds settings kind P
        (e.answerPrompts Prepared.source ⟨answers, asked⟩ standing).2.1 := by
  induction answers, e, standing, hs using Stands.induction generalizing asked with
  | ended answers e ending hs =>
    rw [courseOfAnswers_of_none hs.1.pending, answerPrompts_ended]
    exact ⟨List.forall_mem_nil _, h⟩
  | unanswered answers e prompt hs ha =>
    rw [courseOfAnswers_unanswered ha, answerPrompts_unanswered ha]
    exact ⟨List.forall_mem_nil _, h.abandon hP⟩
  | answered input later e prompt command hs hp ih =>
    have hdelivered := h.deliver hP command (hi input List.mem_cons_self)
    obtain ⟨hcourse, hleft⟩ := ih (hdelivered.carryOn hP)
      (asked ++ [prompt]) fun other hmem => hi other (List.mem_cons_of_mem _ hmem)
    rw [answerPrompts_answered hp]
    simp only [courseOfAnswers, hp]
    exact ⟨List.forall_mem_append.2 ⟨hdelivered.forall_mem_course hP, hcourse⟩, hleft⟩

theorem Holds.runAnswered (h : Holds settings kind P e) (hw : e.isWaiting = false) (routine : Text)
    {answers : List (Option Text)} (hi : ∀ input, some input ∈ answers → accepts input) :
    (∀ m ∈ e.courseOf (.runAnswered routine answers), Holds settings kind P m) ∧
      Holds settings kind P (e.call (.runAnswered routine answers)).2 := by
  obtain ⟨standing, hok, hs⟩ := stands_run hw routine
  obtain ⟨hcourse, hran⟩ := h.run hP hw routine
  obtain ⟨hanswers, hleft⟩ := hran.answers hP hs [] hi
  have hall : e.courseOf (.runAnswered routine answers)
      = e.courseOfRun routine ++ (e.run routine).2.courseOfAnswers answers := by
    simp only [courseOf, hw, Bool.false_eq_true, if_false]
  refine ⟨?_, ?_⟩
  · rw [hall]
    exact List.forall_mem_append.2 ⟨hcourse, hanswers⟩
  · simp only [Engine.call, runAnswered_of_run _ _ hok]
    change Holds settings kind P ((e.run routine).2.answerPrompts _ _ _).2.1 at hleft
    generalize (e.run routine).2.answerPrompts Prepared.source ⟨answers, []⟩ standing = outcome
      at hleft ⊢
    obtain ⟨result, after, left⟩ := outcome
    cases result <;> exact hleft

/-- Whatever call carries a run on, all engines that the run goes through have the property, and so
has the engine that is left. -/
theorem Holds.call_of_runs (h : Holds settings kind P e) {call : Call} (hr : call.runs = true)
    (hi : ∀ input ∈ call.inputs, accepts input) :
    (∀ m ∈ e.courseOf call, Holds settings kind P m) ∧ Holds settings kind P (e.call call).2 := by
  rcases refused_or_free e call with ⟨hw, hb⟩ | hw
  · rw [call_of_begins hw hb, courseOf_of_begins hw hb]
    exact ⟨List.forall_mem_nil _, h⟩
  · cases call with
    | resume input => exact h.resume hP (hi input List.mem_cons_self)
    | run routine => exact h.run hP (hw rfl) routine
    | runAnswered routine answers =>
      refine h.runAnswered hP (hw rfl) routine fun input hmem => hi input ?_
      exact List.mem_filterMap.2 ⟨some input, hmem, rfl⟩
    | load | loadFrom | cancel | sendDigits | sendChecksum | close => cases hr

omit hP

/-- No call changes the settings. -/
theorem settings_call (e : Engine ε) (call : Call) :
    (∀ m ∈ e.courseOf call, m.settings = e.settings) ∧
      (e.call call).2.settings = e.settings := by
  have hadopt (loaded : Except ScriptError Routines) (e : Engine ε) :
      (e.adopt loaded).2.settings = e.settings := by
    cases loaded <;> rfl
  have hruns (hr : call.runs = true) : (∀ m ∈ e.courseOf call, m.settings = e.settings) ∧
      (e.call call).2.settings = e.settings := by
    have htrivial : Workspace.IsInvariant (ε := ε) e.settings (fun _ => True) (fun _ => True)
        (fun _ => True) := by
      constructor <;> intros <;> trivial
    have hold : Holds e.settings (fun _ => True) (fun _ => True) e :=
      ⟨rfl, fun _ _ _ _ => trivial, trivial⟩
    obtain ⟨hcourse, hafter⟩ := hold.call_of_runs htrivial hr fun _ _ => trivial
    exact ⟨fun m hm => (hcourse m hm).settings, hafter.settings⟩
  rcases refused_or_free e call with ⟨hw, hb⟩ | hw
  · rw [call_of_begins hw hb, courseOf_of_begins hw hb]
    exact ⟨List.forall_mem_nil _, rfl⟩
  · cases call with
    | load lines =>
      refine ⟨List.forall_mem_nil _, ?_⟩
      simp only [Engine.call, load_of_not_waiting (hw rfl)]
      exact hadopt _ e.forget
    | loadFrom path =>
      refine ⟨List.forall_mem_nil _, ?_⟩
      simp only [Engine.call, loadFrom_of_not_waiting (hw rfl)]
      exact hadopt _ _
    | run | resume | runAnswered => exact hruns rfl
    | cancel | sendDigits | sendChecksum | close => exact ⟨List.forall_mem_nil _, rfl⟩

end Engine
end BenchScript
