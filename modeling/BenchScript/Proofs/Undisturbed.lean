import BenchScript.Host.Console
import BenchScript.Proofs.Standins

set_option autoImplicit false

namespace BenchScript

variable {ε : Type} [Environment ε]

structure NeverCancels (ε : Type) [Environment ε] : Prop where
  notify : ∀ note (around : ε), (Host.notify note around).1 = false
  observe : ∀ observation (around : ε), (Host.observe observation around).1 = false

theorem neverCancels_console {δ φ : Type} [Device δ] [FileStore φ] :
    NeverCancels (Surroundings δ φ Console) :=
  ⟨fun _ _ => rfl, fun _ _ => rfl⟩

namespace Workspace

theorem cancelled_withLine {command : Command} {w : Workspace ε}
    {action : Text → Except ScriptError Unit × Workspace ε}
    (h : ∀ line, (action line).2.cancelled = w.cancelled) :
    (withLine command w action).2.cancelled = w.cancelled := by
  unfold withLine
  split
  · next line _ =>
    rw [proceed_snd]
    exact h line
  · rfl

theorem cancelled_sendLines (limit : Nat) (lines : List Text) (w : Workspace ε) :
    (w.sendLines limit lines).2.cancelled = w.cancelled := by
  induction lines generalizing w with
  | nil => rfl
  | cons line rest ih =>
    have hline : (w.sendDigits limit line).2.cancelled = w.cancelled := (sendAny_keeps _ w).2
    rw [sendLines]
    generalize w.sendDigits limit line = outcome at hline ⊢
    obtain ⟨result, w'⟩ := outcome
    cases result with
    | error e => exact hline
    | ok => exact (ih w').trans hline

variable (hn : NeverCancels ε)

include hn

theorem cancelled_notify (note : Notification) (w : Workspace ε) :
    (w.notify note).cancelled = w.cancelled := by
  have hflag : (w.notify note).cancelled = (w.cancelled || (Host.notify note w.around).1) := rfl
  rw [hflag, hn.notify, Bool.or_false]

theorem cancelled_observe (command : Command) (w : Workspace ε) :
    (w.observe command).cancelled = w.cancelled := by
  have hflag : (w.observe command).cancelled
      = (w.cancelled || (Host.observe ⟨command.line, w.lastRow, w.lastData⟩ w.around).1) := rfl
  rw [hflag, hn.observe, Bool.or_false]

theorem cancelled_sendFile (limit : Nat) (command : Command) (w : Workspace ε) :
    (w.sendFile limit command).2.cancelled = w.cancelled := by
  unfold sendFile
  dsimp only
  split
  · exact cancelled_notify hn _ w
  · split
    · exact cancelled_sendLines limit _ _
    · exact cancelled_notify hn _ _

theorem cancelled_appendRow (defaultOutput : Option Text) (command : Command) (w : Workspace ε) :
    (w.appendRow defaultOutput command).cancelled = w.cancelled := by
  unfold appendRow
  dsimp only
  split
  · exact cancelled_notify hn _ w
  · split
    · rfl
    · exact cancelled_notify hn _ _

theorem cancelled_perform (settings : Settings) (command : Command) (w : Workspace ε) :
    (w.perform settings command).2.cancelled = w.cancelled := by
  unfold perform
  cases command.action with
  | condition | jump | quit | routine => rfl
  | define =>
    simp only
    split
    · rfl
    · exact cancelled_notify hn _ _
  | data =>
    dsimp only
    rw [proceed_snd]
    exact (send_keeps _ w).2
  | sendFile =>
    dsimp only
    rw [proceed_snd]
    exact cancelled_sendFile hn _ command w
  | message | ask => exact cancelled_notify hn _ w
  | append => exact cancelled_appendRow hn _ command w
  | hex | checksum => exact cancelled_withLine fun _ => (sendAny_keeps _ w).2
  | forward => exact cancelled_withLine fun _ => (send_keeps _ w).2

end Workspace

namespace Engine

variable (hn : NeverCancels ε) {e e' : Engine ε}

include hn

theorem cancelled_finish (e : Engine ε) (ending : Ending) :
    (e.finish ending).2.workspace.cancelled = e.workspace.cancelled := by
  unfold finish
  cases ending.report? with
  | none => rfl
  | some note => exact Workspace.cancelled_notify hn note _

theorem cancelled_leave (e : Engine ε) (top : Invocation) (below : List Invocation) :
    (e.leave top below).workspace.cancelled = e.workspace.cancelled := by
  unfold leave
  cases top.caller with
  | none => rfl
  | some caller => exact Workspace.cancelled_observe hn caller _

theorem cancelled_past (top : Invocation) (below : List Invocation) {command : Command}
    {verdict : Verdict} {w : Workspace ε}
    (hp : e.workspace.perform e.settings command = (verdict, w)) :
    (e.past top below w).workspace.cancelled = e.workspace.cancelled := by
  have hw := Workspace.cancelled_perform hn e.settings command e.workspace
  rwa [hp] at hw

theorem cancelled_going (h : e.step = .going e') :
    e'.workspace.cancelled = e.workspace.cancelled := by
  have move := e.move_step
  rw [h] at move
  cases move with
  | returned => exact cancelled_leave hn e _ _
  | @passedOver top below command => exact Workspace.cancelled_observe hn command _
  | @next top below command w hf _ _ hp =>
    exact (Workspace.cancelled_observe hn command _).trans (cancelled_past hn _ _ hp)
  | @gate top below command =>
    unfold observe
    rw [workspace_mapWorkspace, workspace_setGate]
    exact Workspace.cancelled_observe hn command _
  | enters => rfl

theorem cancelled_halted {standing : Standing} (h : e.step = .halted standing e') :
    e'.workspace.cancelled = e.workspace.cancelled := by
  have move := e.move_step
  rw [h] at move
  cases move with
  | cancelled | broken | completed => exact cancelled_finish hn e _
  | @waits top below command prompt w _ _ _ hp => exact cancelled_past hn top below hp
  | @stops top below command ending w hf _ _ _ hp =>
    calc _ = ((e.past top below w).observe command).workspace.cancelled := cancelled_finish hn _ _
      _ = (e.past top below w).workspace.cancelled := Workspace.cancelled_observe hn command _
      _ = e.workspace.cancelled := cancelled_past hn _ _ hp
  | exhausted | missing =>
    exact (cancelled_finish hn _ _).trans (Workspace.cancelled_observe hn _ _)

theorem cancelled_carryOn (e : Engine ε) :
    e.carryOn.2.workspace.cancelled = e.workspace.cancelled := by
  obtain ⟨last, hlast, hhalt⟩ :=
    carryOn_eq_of_course (motive := fun m => m.workspace.cancelled = e.workspace.cancelled) rfl
      fun _ _ hm hs => (cancelled_going hn hs).trans hm
  exact (cancelled_halted hn hhalt).trans hlast

/-- A run begins with the flag down. -/
theorem cancelled_run (h : e.isWaiting = false) (routine : Text) :
    (e.call (.run routine)).2.workspace.cancelled = false := by
  cases hr : e.routines.contains routine with
  | true =>
    rw [call_run_of_contains h hr]
    exact cancelled_carryOn hn _
  | false =>
    rw [call_run_of_not_contains h hr]
    exact cancelled_finish hn _ _

theorem cancelled_resume (e : Engine ε) (input : Text) :
    (e.call (.resume input)).2.workspace.cancelled = e.workspace.cancelled := by
  cases hp : e.pending with
  | none =>
    unfold call resume
    simp only [hp]
  | some command =>
    rw [call_resume hp]
    exact (cancelled_carryOn hn _).trans (Workspace.cancelled_observe hn command _)

theorem cancelled_resumes (inputs : List Text) (e : Engine ε) :
    (e.callAll (inputs.map .resume)).2.workspace.cancelled = e.workspace.cancelled := by
  induction inputs generalizing e with
  | nil => rfl
  | cons input rest ih => exact (ih _).trans (cancelled_resume hn e input)

end Engine
end BenchScript
