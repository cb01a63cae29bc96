import BenchScript.Proofs.Blindness
import BenchScript.Proofs.Episodes

set_option autoImplicit false

namespace BenchScript

namespace Workspace

variable {ε : Type} [Environment ε] {R : ε → ε → Prop} {w w' : Workspace ε}
  {command command' : Command} (hR : Environment.Blind R)

include hR

theorem Twin.observe_of (h : w.Twin R w') (hc : command.SameButData command') :
    (w.observe command).Twin R (w'.observe command') :=
  have hout := hR.host.observe h.around ⟨hc.line, h.lastRow, h.lastData⟩
  ⟨hout.state, h.bindings, h.lastRow, h.lastData, congrArg₂ Bool.or h.cancelled hout.result⟩

theorem Twin.blame_eq_of (h : w.Twin R w') (hc : command.SameButData command')
    (error : ScriptError) : w.blame command error = w'.blame command' error := by
  unfold blame shown
  rw [hR.host.clock h.around, h.bindings, Display.ofLine_eq_of_sameButData hc.line]

theorem Twin.sendLines (limit : Nat) (lines : List Text) (h : w.Twin R w') :
    Agree (Twin R) (w.sendLines limit lines) (w'.sendLines limit lines) := by
  induction lines generalizing w w' with
  | nil => exact ⟨rfl, h⟩
  | cons line rest ih =>
    have hline : Agree (Twin R) (w.sendDigits limit line) (w'.sendDigits limit line) :=
      h.sendAny hR.alike _
    obtain ⟨result, after, after', hafter, hs, hs'⟩ := hline.exists_eq
    simp only [Workspace.sendLines, hs, hs']
    cases result with
    | error error => exact ⟨rfl, hafter⟩
    | ok => exact ih hafter

theorem Twin.sendFile (h : w.Twin R w') (limit : Nat) (command : Command) :
    Agree (Twin R) (w.sendFile limit command) (w'.sendFile limit command) := by
  unfold Workspace.sendFile
  by_cases hpath : command.argument = []
  · simp only [if_pos hpath]
    exact ⟨rfl, h.notify hR.alike _⟩
  · obtain ⟨result, around, around', haround, hr, hr'⟩ :=
      (hR.readLines command.argument h.around).exists_eq
    have hread := h.moved haround
    simp only [if_neg hpath, hr, hr']
    cases result with
    | error cause => exact ⟨rfl, hread.notify hR.alike _⟩
    | ok lines => exact Twin.sendLines hR limit _ hread

theorem Twin.appendRow (h : w.Twin R w') (defaultOutput : Option Text) (command : Command) :
    (w.appendRow defaultOutput command).Twin R (w'.appendRow defaultOutput command) := by
  obtain ⟨around', haround, rfl⟩ := h.exists_eq
  unfold Workspace.appendRow
  simp only
  generalize (if command.argument = [] then defaultOutput else some command.argument) = path?
  cases path? with
  | none => exact h.notify hR.alike _
  | some path =>
    obtain ⟨result, left, left', hleft, ha, ha'⟩ :=
      (hR.appendLine path w.lastRow haround).exists_eq
    have happended := h.moved hleft
    simp only [ha, ha']
    cases result with
    | error cause => exact happended.notify hR.alike _
    | ok => exact happended

theorem Twin.perform_data (h : w.Twin R w') (settings : Settings) {line line' : Text}
    (hl : DataLines line line') :
    Agree (Twin R) (w.perform settings (.binary line)) (w'.perform settings (.binary line')) := by
  refine Twin.proceed (h.send ?_) fun hafter error => hafter.blame_eq_of hR (.data hl) error
  refine agree_exchange (hR.device.readThrough terminator) h.around ?_
  rcases (Frame.SameButData.data hl.length).encode with
    ⟨error, he, he'⟩ | ⟨bytes, bytes', he, he', hb⟩
  · exact Or.inl ⟨error, he, he'⟩
  · exact Or.inr ⟨bytes, bytes', he, he', hR.device.write h.around hb⟩

end Workspace

theorem Environment.Blind.abides {ε : Type} [Environment ε] {R : ε → ε → Prop}
    (hR : Environment.Blind R) : Abides R Command.SameButData where
  alike := hR.alike
  perform settings h hc := by
    cases hc with
    | same =>
      exact h.perform hR.alike settings (fun _ => h.sendFile hR _ _) fun _ => h.appendRow hR _ _
    | data hl => exact h.perform_data hR settings hl
  observe h hc := h.observe_of hR hc
  action_eq hc := hc.action_eq
  eq_of_kept hc hkept := by
    cases hc with
    | same => rfl
    | data => rcases hkept with ha | ha <;> cases ha

namespace Engine

variable {ε : Type}

/-- Engines that stand at the same place in scripts that are the same but for data. What a jump or
a question leaves in `stack` and `pending` is no data command, so these are the same outright. -/
structure Twin (R : ε → ε → Prop) (e e' : Engine ε) : Prop where
  settings : e.settings = e'.settings
  workspace : e.workspace.Twin R e'.workspace
  routines : e.routines.SameButData e'.routines
  quit : e.quit = e'.quit
  budget : e.budget = e'.budget
  stack : e.stack = e'.stack
  pending : e.pending = e'.pending

variable {R : ε → ε → Prop} {e e' : Engine ε}

theorem Twin.abreast (h : e.Twin R e') : e.Abreast R Command.SameButData e' :=
  ⟨h.settings, h.workspace, ⟨h.routines.contains, h.routines.command⟩, h.quit, h.budget, h.stack,
    h.pending⟩

theorem Abreast.twin (h : e.Abreast R Command.SameButData e') : e.Twin R e' :=
  ⟨h.settings, h.workspace, ⟨h.routines.contains, h.routines.command⟩, h.quit, h.budget, h.stack,
    h.pending⟩

theorem Twin.forget (h : e.Twin R e') : e.forget.Twin R e'.forget :=
  { h with
    workspace := { h.workspace with bindings := rfl, lastRow := rfl, lastData := rfl }
    routines := .refl _, quit := rfl, stack := rfl, pending := rfl }

variable [Environment ε] (hR : Environment.Blind R)

include hR

theorem Twin.adopt (h : e.Twin R e') (loaded : Except ScriptError Routines) :
    Agree (Twin R) (e.adopt loaded) (e'.adopt loaded) := by
  cases loaded with
  | ok routines => exact ⟨rfl, { h with routines := .refl routines }⟩
  | error error => exact ⟨rfl, { h with workspace := h.workspace.notify hR.alike _ }⟩

theorem Twin.load (h : e.Twin R e') (hw : e.isWaiting = false) (lines : List Text) :
    Agree (Twin R) (e.call (.load lines)) (e'.call (.load lines)) := by
  have hw' : e'.isWaiting = false := h.abreast.isWaiting_eq ▸ hw
  have hadopt := h.forget.adopt hR (Routines.ofLines lines)
  simp only [Engine.call, load_of_not_waiting hw, load_of_not_waiting hw']
  exact ⟨congrArg Reply.ofUnit hadopt.result, hadopt.state⟩

theorem Twin.loadFrom (h : e.Twin R e') (hw : e.isWaiting = false) (path : Text) :
    Agree (Twin R) (e.call (.loadFrom path)) (e'.call (.loadFrom path)) := by
  have hw' : e'.isWaiting = false := h.abreast.isWaiting_eq ▸ hw
  have hread := hR.readLines path h.workspace.around
  have hmoved : Twin R
      (e.forget.mapWorkspace fun w =>
        { w with around := (FileStore.readLines path e.workspace.around).2 })
      (e'.forget.mapWorkspace fun w =>
        { w with around := (FileStore.readLines path e'.workspace.around).2 }) :=
    { h.forget with workspace := h.forget.workspace.moved hread.state }
  have hadopt := hmoved.adopt hR (ofRead path (FileStore.readLines path e.workspace.around).1)
  simp only [Engine.call, loadFrom_of_not_waiting hw, loadFrom_of_not_waiting hw']
  rw [← hread.result]
  exact ⟨congrArg Reply.ofUnit hadopt.result, hadopt.state⟩

/-- A call gets the same reply from twins, and leads both through twins. -/
theorem Twin.call (h : e.Twin R e') (call : Call) :
    Agree (Twin R) (e.call call) (e'.call call) ∧
      List.Forall₂ (Twin R) (e.courseOf call) (e'.courseOf call) := by
  have hother (hl : e.isWaiting = true ∨ call.begins = false ∨ call.startsRun = true) :
      Agree (Twin R) (e.call call) (e'.call call) ∧
        List.Forall₂ (Twin R) (e.courseOf call) (e'.courseOf call) := by
    obtain ⟨hagree, hcourse⟩ := h.abreast.call hR.abides hl
    exact ⟨⟨hagree.result, hagree.state.twin⟩, hcourse.imp fun _ _ hm => hm.twin⟩
  cases hw : e.isWaiting with
  | true => exact hother (Or.inl hw)
  | false =>
    cases call with
    | load lines => exact ⟨h.load hR hw lines, .nil⟩
    | loadFrom path => exact ⟨h.loadFrom hR hw path, .nil⟩
    | run | runAnswered => exact hother (Or.inr (Or.inr rfl))
    | resume | cancel | sendDigits | sendChecksum | close => exact hother (Or.inr (Or.inl rfl))

theorem Twin.callAll (h : e.Twin R e') (calls : List Call) :
    Agree (Twin R) (e.callAll calls) (e'.callAll calls) ∧
      List.Forall₂ (Twin R) (e.courseOfAll calls) (e'.courseOfAll calls) := by
  induction calls generalizing e e' with
  | nil => exact ⟨⟨rfl, h⟩, .nil⟩
  | cons call rest ih =>
    obtain ⟨hcall, hcourse⟩ := h.call hR call
    obtain ⟨hrest, hcourses⟩ := ih hcall.state
    rw [callAll_cons, callAll_cons, courseOfAll, courseOfAll, hcall.result, hrest.result]
    exact ⟨⟨rfl, hrest.state⟩, List.rel_append hcourse hcourses⟩

omit hR

/-- The data of a script is hidden. If two scripts are the same but for data, and what surrounds the
engines does not tell data apart, then to any calls both reply alike, with the same prompts and
endings, tell the user the same, and are left with the same variables, last row, last data and
jumps. What passes differs in the bytes of data frames and in the lines that the host hears, and the
runs go through twins step by step. -/
theorem data_hidden (hR : Environment.Blind R) {e e' : Engine (Recorded ε)}
    (h : e.Twin (Recorded.Twin R) e') (calls : List Call) :
    let after := (e.callAll calls).2
    let after' := (e'.callAll calls).2
    (e.callAll calls).1 = (e'.callAll calls).1 ∧
      after.workspace.around.notifications = after'.workspace.around.notifications ∧
      after.workspace.bindings = after'.workspace.bindings ∧
      after.workspace.lastRow = after'.workspace.lastRow ∧
      after.workspace.lastData = after'.workspace.lastData ∧ after.budget = after'.budget ∧
      List.Forall₂ Passage.SameButData
        after.workspace.around.record after'.workspace.around.record ∧
      List.Forall₂ (Twin (Recorded.Twin R)) (e.courseOfAll calls) (e'.courseOfAll calls) := by
  intro after after'
  obtain ⟨hagree, hcourse⟩ := h.callAll (Recorded.blind hR) calls
  have hleft : after.Twin (Recorded.Twin R) after' := hagree.state
  have haround := hleft.workspace.around
  exact ⟨hagree.result, haround.notifications_eq, hleft.workspace.bindings, hleft.workspace.lastRow,
    hleft.workspace.lastData, hleft.budget, haround.record, hcourse⟩

def carrying (data : Text) : Engine (Recorded (Surroundings StreamLink MemoryFiles Transcript)) :=
  ((idle {} ⟨⟨{ arrivals := [.bytes [0x6F, 0x6B, 0x0A]] }, {}, {}⟩, []⟩).call
    (.load ['D' :: ' ' :: data])).2

theorem data_hidden_carrying :
    let after := ((carrying ['a']).callAll [.run []]).2
    let after' := ((carrying ['b']).callAll [.run []]).2
    after.workspace.around.writes = [([0x44, 1, 0x61, 0x0A], .ok ())] ∧
      after'.workspace.around.writes = [([0x44, 1, 0x62, 0x0A], .ok ())] ∧
      after.workspace.lastRow = ['o', 'k'] ∧ after'.workspace.lastRow = ['o', 'k'] ∧
      after.workspace.around.notifications = after'.workspace.around.notifications := by
  intro after after'
  have hlines : DataLines ['D', ' ', 'a'] ['D', ' ', 'b'] := ⟨⟨_, _, rfl⟩, ⟨_, _, rfl⟩, rfl⟩
  have hroutines : (carrying ['a']).routines.SameButData (carrying ['b']).routines :=
    (Routines.SameButData.refl Table.empty).insert entryRoutine (.cons (.data hlines) .nil)
  have htwins : (carrying ['a']).Twin
      (Recorded.Twin (Surroundings.Twin StreamLink.SameButWritten Transcript.SameButData))
      (carrying ['b']) :=
    ⟨rfl, ⟨⟨⟨⟨_, rfl⟩, rfl, ⟨_, rfl, .nil⟩⟩, .nil⟩, rfl, rfl, rfl, rfl⟩, hroutines,
      rfl, rfl, rfl, rfl⟩
  obtain ⟨-, hnotes, -, hrow, -⟩ :=
    data_hidden (Surroundings.blind StreamLink.blind Transcript.blind) htwins [.run []]
  obtain ⟨outcome, hloop, hwrites, hanswer⟩ : ∃ outcome,
      loop 3 { (carrying ['a']).begun with stack := [{ routine := [] }] } = some outcome ∧
      outcome.2.workspace.around.writes = [([0x44, 1, 0x61, 0x0A], .ok ())] ∧
      outcome.2.workspace.lastRow = ['o', 'k'] :=
    ⟨_, rfl, rfl, rfl⟩
  obtain ⟨outcome', hloop', hwrites'⟩ : ∃ outcome,
      loop 3 { (carrying ['b']).begun with stack := [{ routine := [] }] } = some outcome ∧
      outcome.2.workspace.around.writes = [([0x44, 1, 0x62, 0x0A], .ok ())] :=
    ⟨_, rfl, rfl⟩
  have hafter : after = outcome.2 := congrArg Prod.snd (callAll_run_of_loop rfl (by decide) hloop)
  have hafter' : after' = outcome'.2 :=
    congrArg Prod.snd (callAll_run_of_loop rfl (by decide) hloop')
  have hkept : after.workspace.lastRow = ['o', 'k'] := by
    rw [hafter]
    exact hanswer
  refine ⟨?_, ?_, hkept, hrow.symm.trans hkept, hnotes⟩
  · rw [hafter]
    exact hwrites
  · rw [hafter']
    exact hwrites'

end Engine
end BenchScript
