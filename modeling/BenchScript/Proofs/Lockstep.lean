import BenchScript.Proofs.Suspension
import Mathlib.Data.List.Forall2

set_option autoImplicit false

/-!
# Runs in lockstep

Two engines may differ in their surroundings and in their commands and still do the same. They stand
abreast if they are at the same place in their scripts and hold the same. If commands at the same
place come out alike in both, then both take every step together and stand abreast again, so they
reply the same to the calls of a run and go through it abreast.
-/
namespace BenchScript

structure Agree {β ρ : Type} (R : ρ → ρ → Prop) (outcome outcome' : β × ρ) : Prop where
  result : outcome.1 = outcome'.1
  state : R outcome.2 outcome'.2

theorem Agree.exists_eq {β ρ : Type} {R : ρ → ρ → Prop} {outcome outcome' : β × ρ}
    (h : Agree R outcome outcome') :
    ∃ result s s', R s s' ∧ outcome = (result, s) ∧ outcome' = (result, s') :=
  ⟨outcome.1, outcome.2, outcome'.2, h.state, rfl, Prod.ext h.result.symm rfl⟩

/-- Related surroundings answer alike to everything that has nothing to do with files. -/
structure Environment.Alike {ε : Type} [Environment ε] (R : ε → ε → Prop) : Prop where
  write : ∀ {s s'} bytes, R s s' → Agree R (Device.write bytes s) (Device.write bytes s')
  readThrough : ∀ {s s'} stop, R s s' →
    Agree R (Device.readThrough stop s) (Device.readThrough stop s')
  close : ∀ {s s'}, R s s' → R (Device.close s) (Device.close s')
  notify : ∀ {s s'} note, R s s' → Agree R (Host.notify note s) (Host.notify note s')
  observe : ∀ {s s'} observation, R s s' →
    Agree R (Host.observe observation s) (Host.observe observation s')
  clock : ∀ {s s'}, R s s' → Host.clock s = Host.clock s'

structure Routines.Matches (C : Command → Command → Prop) (table table' : Routines) : Prop where
  contains : ∀ name, table.contains name = table'.contains name
  command : ∀ name position,
    Option.Rel C (table.command? name position) (table'.command? name position)

/-- In an exchange, devices that answer alike part nowhere, if they take the frames alike. -/
theorem agree_exchange {δ : Type} [Device δ] {D : δ → δ → Prop}
    (hread : ∀ {d d'}, D d d' →
      Agree D (Device.readThrough terminator d) (Device.readThrough terminator d'))
    {d d' : δ} (h : D d d') {frame frame' : Frame}
    (hf : (∃ error, frame.encode = .error error ∧ frame'.encode = .error error) ∨
      ∃ bytes bytes', frame.encode = .ok bytes ∧ frame'.encode = .ok bytes' ∧
        Agree D (Device.write bytes d) (Device.write bytes' d')) :
    Agree D (exchange frame d) (exchange frame' d') := by
  unfold exchange
  rcases hf with ⟨error, he, he'⟩ | ⟨bytes, bytes', he, he', hwritten⟩
  · rw [he, he']
    exact ⟨rfl, h⟩
  · rw [he, he']
    simp only
    obtain ⟨result, after, after', hafter, hw, hw'⟩ := hwritten.exists_eq
    rw [hw, hw']
    cases result with
    | error error => exact ⟨rfl, hafter⟩
    | ok =>
      simp only
      obtain ⟨answer, left, left', hleft, hr, hr'⟩ := (hread hafter).exists_eq
      rw [hr, hr']
      cases answer <;> exact ⟨rfl, hleft⟩

theorem Environment.Alike.exchange {ε : Type} [Environment ε] {R : ε → ε → Prop}
    (hR : Environment.Alike R) {s s' : ε} (h : R s s') (frame : Frame) :
    Agree R (exchange frame s) (BenchScript.exchange frame s') := by
  refine agree_exchange (hR.readThrough terminator) h ?_
  cases he : frame.encode with
  | error error => exact Or.inl ⟨error, rfl, rfl⟩
  | ok bytes => exact Or.inr ⟨bytes, bytes, rfl, rfl, hR.write bytes h⟩

namespace Workspace

variable {ε : Type}

structure Twin (R : ε → ε → Prop) (w w' : Workspace ε) : Prop where
  around : R w.around w'.around
  bindings : w.bindings = w'.bindings
  lastRow : w.lastRow = w'.lastRow
  lastData : w.lastData = w'.lastData
  cancelled : w.cancelled = w'.cancelled

variable {R : ε → ε → Prop} {w w' : Workspace ε}

theorem Twin.exists_eq (h : w.Twin R w') :
    ∃ around, R w.around around ∧ w' = { w with around } := by
  obtain ⟨around', bindings, lastRow, lastData, cancelled⟩ := w'
  obtain ⟨haround, rfl, rfl, rfl, rfl⟩ := h
  exact ⟨around', haround, rfl⟩

theorem Twin.moved (h : w.Twin R w') {around around' : ε} (hs : R around around') :
    Twin R { w with around } { w' with around := around' } :=
  ⟨hs, h.bindings, h.lastRow, h.lastData, h.cancelled⟩

variable [Environment ε] (hR : Environment.Alike R)

theorem Twin.send (h : w.Twin R w') {frame frame' : Frame}
    (hf : Agree R (exchange frame w.around) (exchange frame' w'.around)) :
    Agree (Twin R) (w.send frame) (w'.send frame') := by
  obtain ⟨result, around, around', haround, ho, ho'⟩ := hf.exists_eq
  unfold Workspace.send
  rw [ho, ho']
  cases result with
  | error error => exact ⟨rfl, haround, h.bindings, h.lastRow, h.lastData, h.cancelled⟩
  | ok response => exact ⟨rfl, haround, h.bindings, rfl, rfl, h.cancelled⟩

theorem Twin.proceed {command command' : Command}
    {outcome outcome' : Except ScriptError Unit × Workspace ε}
    (h : Agree (Twin R) outcome outcome')
    (hblame : ∀ {w w' : Workspace ε}, w.Twin R w' → ∀ error,
      w.blame command error = w'.blame command' error) :
    Agree (Twin R) (proceed command outcome) (Workspace.proceed command' outcome') := by
  obtain ⟨result, after, after', hafter, rfl, rfl⟩ := h.exists_eq
  cases result with
  | ok => exact ⟨rfl, hafter⟩
  | error error =>
    exact ⟨congrArg (fun message => Verdict.stop (.failed message)) (hblame hafter error), hafter⟩

include hR

theorem Twin.notify (h : w.Twin R w') (note : Notification) :
    (w.notify note).Twin R (w'.notify note) :=
  have hout := hR.notify note h.around
  ⟨hout.state, h.bindings, h.lastRow, h.lastData, congrArg₂ Bool.or h.cancelled hout.result⟩

theorem Twin.observe (h : w.Twin R w') (command : Command) :
    (w.observe command).Twin R (w'.observe command) := by
  obtain ⟨around, haround, rfl⟩ := h.exists_eq
  have hout := hR.observe ⟨command.line, w.lastRow, w.lastData⟩ haround
  exact ⟨hout.state, rfl, rfl, rfl, congrArg (w.cancelled || ·) hout.result⟩

theorem Twin.shown_eq (h : w.Twin R w') (line : Text) : w.shown line = w'.shown line := by
  unfold shown
  rw [hR.clock h.around, h.bindings]

theorem Twin.caption_eq (h : w.Twin R w') (command : Command) :
    w.caption command = w'.caption command := by
  unfold caption
  rw [h.shown_eq hR]

theorem Twin.blame_eq (h : w.Twin R w') (command : Command) (error : ScriptError) :
    w.blame command error = w'.blame command error := by
  unfold blame
  rw [h.shown_eq hR]

theorem Twin.sendAny (h : w.Twin R w') (frame : Except LinkError Frame) :
    Agree (Twin R) (w.sendAny frame) (w'.sendAny frame) := by
  cases frame with
  | error error => exact ⟨rfl, h⟩
  | ok frame => exact h.send (hR.exchange h.around frame)

theorem Twin.sendChecksum (h : w.Twin R w') (limit : Nat) (text : Text) :
    Agree (Twin R) (w.sendChecksum limit text) (w'.sendChecksum limit text) := by
  unfold Workspace.sendChecksum
  rw [h.lastRow, h.lastData]
  exact h.sendAny hR _

theorem Twin.proceed_self (command : Command)
    {outcome outcome' : Except ScriptError Unit × Workspace ε}
    (h : Agree (Twin R) outcome outcome') :
    Agree (Twin R) (Workspace.proceed command outcome) (Workspace.proceed command outcome') :=
  Twin.proceed h fun hafter error => hafter.blame_eq hR command error

theorem Twin.withLine (h : w.Twin R w') (command : Command)
    {action action' : Text → Except ScriptError Unit × Workspace ε}
    (ha : ∀ line, Agree (Twin R) (action line) (action' line)) :
    Agree (Twin R) (withLine command w action) (Workspace.withLine command w' action') := by
  unfold Workspace.withLine
  rw [h.bindings]
  cases w'.bindings.expand command.line with
  | ok line => exact Twin.proceed_self hR command (ha line)
  | error error => exact Twin.proceed_self hR command ⟨rfl, h⟩

theorem Twin.decideGate_eq (h : w.Twin R w') (command : Command) :
    w.decideGate command = w'.decideGate command := by
  unfold decideGate
  rw [h.bindings, h.lastRow]
  simp only [h.blame_eq hR command]

/-- A command comes out alike in twins, if it does what it does with files alike. -/
theorem Twin.perform (h : w.Twin R w') (settings : Settings) {command : Command}
    (hread : command.action = .sendFile → Agree (Twin R)
      (w.sendFile settings.hexInlineLimit command) (w'.sendFile settings.hexInlineLimit command))
    (happend : command.action = .append →
      (w.appendRow settings.defaultOutput command).Twin R
        (w'.appendRow settings.defaultOutput command)) :
    Agree (Twin R) (w.perform settings command) (w'.perform settings command) := by
  unfold Workspace.perform
  cases ha : command.action with
  | condition => exact ⟨h.decideGate_eq hR command, h⟩
  | define =>
    obtain ⟨around, haround, rfl⟩ := h.exists_eq
    simp only
    cases w.bindings.assign (Text.trim command.raw) w.lastRow with
    | error error => exact Twin.proceed_self hR command ⟨rfl, h⟩
    | ok assigned =>
      obtain ⟨name, bindings⟩ := assigned
      have hdefined : Twin R { w with bindings } { w with around, bindings } :=
        ⟨haround, rfl, rfl, rfl, rfl⟩
      simp only [hdefined.shown_eq hR]
      exact ⟨rfl, hdefined.notify hR _⟩
  | data => exact Twin.proceed_self hR command (h.send (hR.exchange h.around _))
  | hex => exact h.withLine hR command fun line => h.sendAny hR _
  | checksum => exact h.withLine hR command fun line => h.sendChecksum hR _ line
  | forward tag => exact h.withLine hR command fun line => h.send (hR.exchange h.around _)
  | sendFile => exact Twin.proceed_self hR command (hread ha)
  | message =>
    simp only [h.caption_eq hR command]
    exact ⟨rfl, h.notify hR _⟩
  | ask =>
    simp only [h.caption_eq hR command]
    exact ⟨rfl, h.notify hR _⟩
  | append => exact ⟨rfl, happend ha⟩
  | jump | quit | routine => exact ⟨rfl, h⟩

end Workspace

/-- Commands that are related do alike in twins. What a jump or a question leaves behind in a run is
the command itself, so these have to be the same outright. -/
structure Abides {ε : Type} [Environment ε] (R : ε → ε → Prop) (C : Command → Command → Prop) :
    Prop where
  alike : Environment.Alike R
  perform : ∀ {w w' : Workspace ε} {command command' : Command} (settings : Settings),
    w.Twin R w' → C command command' →
      Agree (Workspace.Twin R) (w.perform settings command) (w'.perform settings command')
  observe : ∀ {w w' : Workspace ε} {command command' : Command}, w.Twin R w' → C command command' →
    (w.observe command).Twin R (w'.observe command')
  action_eq : ∀ {command command' : Command}, C command command' →
    command.action = command'.action
  eq_of_kept : ∀ {command command' : Command}, C command command' →
    command.action = .jump ∨ command.action = .ask → command = command'

namespace Engine

variable {ε : Type}

structure Abreast (R : ε → ε → Prop) (C : Command → Command → Prop) (e e' : Engine ε) : Prop where
  settings : e.settings = e'.settings
  workspace : e.workspace.Twin R e'.workspace
  routines : e.routines.Matches C e'.routines
  quit : e.quit = e'.quit
  budget : e.budget = e'.budget
  stack : e.stack = e'.stack
  pending : e.pending = e'.pending

inductive Progress.Abreast (R : ε → ε → Prop) (C : Command → Command → Prop) :
    Progress ε → Progress ε → Prop where
  | going {e e' : Engine ε} (h : e.Abreast R C e') : Progress.Abreast R C (.going e) (.going e')
  | halted (standing : Standing) {e e' : Engine ε} (h : e.Abreast R C e') :
      Progress.Abreast R C (.halted standing e) (.halted standing e')

variable {R : ε → ε → Prop} {C : Command → Command → Prop} {e e' : Engine ε}
  {command command' : Command}

theorem Abreast.setGate (h : e.Abreast R C e') (isOpen : Bool) :
    (e.setGate isOpen).Abreast R C (e'.setGate isOpen) := by
  unfold Engine.setGate
  rw [← h.stack]
  cases e.stack with
  | nil => exact h
  | cons top below => exact { h with stack := rfl }

theorem Abreast.isWaiting_eq (h : e.Abreast R C e') : e.isWaiting = e'.isWaiting :=
  congrArg Option.isSome h.pending

theorem Abreast.begun (h : e.Abreast R C e') (stack : List Invocation) :
    Abreast R C { e.begun with stack } { e'.begun with stack } := by
  have hbudget : (e.settings.callDepthBudget : Int) = e'.settings.callDepthBudget := by
    rw [h.settings]
  exact { h with
    workspace := { h.workspace with cancelled := rfl }
    quit := rfl
    budget := hbudget
    stack := rfl }

variable [Environment ε] (hA : Abides R C)

include hA

theorem Abreast.observe (h : e.Abreast R C e') (command : Command) :
    (e.observe command).Abreast R C (e'.observe command) :=
  { h with workspace := h.workspace.observe hA.alike command }

theorem Abreast.observe_of (h : e.Abreast R C e') (hc : C command command') :
    (e.observe command).Abreast R C (e'.observe command') :=
  { h with workspace := hA.observe h.workspace hc }

theorem Abreast.finish (h : e.Abreast R C e') (ending : Ending) :
    (e.finish ending).2.Abreast R C (e'.finish ending).2 := by
  have hquit : (e.quit || ending != .completed) = (e'.quit || ending != .completed) := by
    rw [h.quit]
  unfold Engine.finish
  cases ending.report? with
  | none => exact { h with quit := hquit, stack := rfl }
  | some note => exact { h with
      workspace := h.workspace.notify hA.alike note, quit := hquit, stack := rfl }

theorem Abreast.halt (h : e.Abreast R C e') (ending : Ending) :
    Progress.Abreast R C (e.halt ending) (e'.halt ending) := by
  rw [halt_eq, halt_eq]
  exact .halted _ (h.finish hA ending)

theorem Abreast.leave (h : e.Abreast R C e') (top : Invocation) (below : List Invocation) :
    (e.leave top below).Abreast R C (e'.leave top below) := by
  have hleft : Abreast R C { e with stack := below } { e' with stack := below } :=
    { h with stack := rfl }
  unfold Engine.leave
  cases top.caller with
  | none => exact hleft
  | some caller => exact hleft.observe hA caller

theorem Abreast.enter (h : e.Abreast R C e') (command : Command) (name : Text) :
    Progress.Abreast R C (e.enter command name) (e'.enter command name) := by
  have hspent :
      Abreast R C { e with budget := e'.budget - 1 } { e' with budget := e'.budget - 1 } :=
    { h with budget := rfl }
  have hobserved := hspent.observe hA command
  unfold Engine.enter
  simp only [h.budget, h.routines.contains name]
  split
  · exact hobserved.halt hA _
  · split
    · exact hobserved.halt hA _
    · exact .going { hspent with stack := congrArg (_ :: ·) h.stack }

theorem Abreast.follow (h : e.Abreast R C e') (hc : C command command') {verdict : Verdict}
    (hv : command = command' ∨
      (∀ name, verdict ≠ .enter name) ∧ ∀ prompt, verdict ≠ .suspend prompt) :
    Progress.Abreast R C (e.follow command verdict) (e'.follow command' verdict) := by
  cases verdict with
  | next => exact .going (h.observe_of hA hc)
  | gate isOpen => exact .going ((h.setGate isOpen).observe_of hA hc)
  | enter name =>
    obtain rfl | ⟨hother, -⟩ := hv
    · exact h.enter hA command name
    · exact absurd rfl (hother name)
  | suspend prompt =>
    obtain rfl | ⟨-, hother⟩ := hv
    · exact .halted _ { h with pending := rfl }
    · exact absurd rfl (hother prompt)
  | stop ending => exact (h.observe_of hA hc).halt hA ending

theorem Abreast.advance (h : e.Abreast R C e') (top : Invocation) (below : List Invocation)
    (hc : C command command') :
    Progress.Abreast R C (e.advance top below command) (e'.advance top below command') := by
  have hpast {w w' : Workspace ε} (hw : w.Twin R w') :
      (e.past top below w).Abreast R C (e'.past top below w') :=
    { h with workspace := hw, stack := rfl }
  have hadmits : admits top command = admits top command' := by
    unfold admits
    rw [hA.action_eq hc]
  unfold Engine.advance
  simp only
  rw [← hadmits]
  split
  · have answer := e.workspace.answers_perform e.settings command
    obtain ⟨verdict, w, w', hw, hp, hp'⟩ := (hA.perform e.settings h.workspace hc).exists_eq
    rw [h.settings] at hp'
    rw [hp] at answer ⊢
    rw [hp']
    refine (hpast hw).follow hA hc ?_
    cases answer with
    | enter ha => exact Or.inl (hA.eq_of_kept hc (Or.inl ha))
    | suspend ha => exact Or.inl (hA.eq_of_kept hc (Or.inr ha))
    | next | gate | quit | undecided | failed => exact Or.inr ⟨nofun, nofun⟩
  · exact .going ((hpast h.workspace).observe_of hA hc)

/-- Engines that stand abreast take a step together. -/
theorem Abreast.step (h : e.Abreast R C e') : Progress.Abreast R C e.step e'.step := by
  unfold Engine.step
  rw [← h.workspace.cancelled, ← h.quit, ← h.stack]
  split
  · exact h.halt hA .cancelled
  · split
    · exact h.halt hA .quit
    · cases e.stack with
      | nil => exact h.halt hA .completed
      | cons top below =>
        have hfetched := h.routines.command top.routine top.position
        simp only
        generalize e.routines.command? top.routine top.position = fetched at hfetched ⊢
        generalize e'.routines.command? top.routine top.position = fetched' at hfetched ⊢
        cases hfetched with
        | none => exact .going (h.leave hA top below)
        | some hc => exact h.advance hA top below hc

theorem Abreast.carryOn (h : e.Abreast R C e') :
    Agree (Abreast R C) e.carryOn e'.carryOn ∧
      List.Forall₂ (Abreast R C) e.course e'.course := by
  -- Each step of the first engine is matched by one of the second, so both halt together.
  fun_induction Engine.carryOn e generalizing e' with
  | case1 e next hs ih =>
    have hstep := h.step hA
    rw [hs] at hstep
    generalize hs' : e'.step = progress at hstep
    cases hstep with
    | going hnext =>
      obtain ⟨hagree, hcourse⟩ := ih hnext
      rw [carryOn_of_going hs', course_of_going hs, course_of_going hs']
      exact ⟨hagree, .cons h hcourse⟩
  | case2 e standing left hs =>
    have hstep := h.step hA
    rw [hs] at hstep
    generalize hs' : e'.step = progress at hstep
    cases hstep with
    | halted _ hleft =>
      rw [carryOn_of_halted hs', course_of_halted hs, course_of_halted hs']
      exact ⟨⟨rfl, hleft⟩, .cons h .nil⟩

theorem Abreast.deliver (h : e.Abreast R C e') (command : Command) (input : Text) :
    (e.deliver command input).Abreast R C (e'.deliver command input) := by
  have hanswered : Abreast R C
      { e with
        pending := none, workspace := { e.workspace with lastRow := input, lastData := [] } }
      { e' with
        pending := none, workspace := { e'.workspace with lastRow := input, lastData := [] } } :=
    { h with workspace := { h.workspace with lastRow := rfl, lastData := rfl }, pending := rfl }
  exact hanswered.observe hA command

theorem Abreast.abandon (h : e.Abreast R C e') : e.abandon.Abreast R C e'.abandon := by
  have hanswered : Abreast R C { e with pending := none } { e' with pending := none } :=
    { h with pending := rfl }
  exact hanswered.finish hA .cancelled

/-- A call gets the same reply from both, and both go through it abreast. -/
structure Lockstep (R : ε → ε → Prop) (C : Command → Command → Prop) (call : Call)
    (e e' : Engine ε) : Prop where
  agree : Agree (Abreast R C) (e.call call) (e'.call call)
  course : List.Forall₂ (Abreast R C) (e.courseOf call) (e'.courseOf call)

omit hA in
theorem Abreast.refused (h : e.Abreast R C e') (hw : e.isWaiting = true) {call : Call}
    (hb : call.begins = true) : Lockstep R C call e e' := by
  have hw' : e'.isWaiting = true := h.isWaiting_eq ▸ hw
  refine ⟨?_, ?_⟩
  · rw [call_of_begins hw hb, call_of_begins hw' hb]
    exact ⟨rfl, h⟩
  · rw [courseOf_of_begins hw hb, courseOf_of_begins hw' hb]
    exact .nil

theorem Abreast.run (h : e.Abreast R C e') (hw : e.isWaiting = false) (routine : Text) :
    Lockstep R C (.run routine) e e' := by
  have hw' : e'.isWaiting = false := h.isWaiting_eq ▸ hw
  have hcontains := h.routines.contains routine
  cases hr : e.routines.contains routine with
  | true =>
    rw [hr] at hcontains
    obtain ⟨hagree, hcourse⟩ := (h.begun [{ routine }]).carryOn hA
    refine ⟨?_, ?_⟩
    · rw [call_run_of_contains hw hr, call_run_of_contains hw' hcontains.symm]
      exact ⟨congrArg Reply.standing hagree.result, hagree.state⟩
    · rw [courseOf_run_of_contains hw hr, courseOf_run_of_contains hw' hcontains.symm]
      exact hcourse
  | false =>
    rw [hr] at hcontains
    refine ⟨?_, ?_⟩
    · rw [call_run_of_not_contains hw hr, call_run_of_not_contains hw' hcontains.symm]
      exact ⟨rfl, (h.begun []).finish hA _⟩
    · rw [courseOf_run_of_not_contains hw hr, courseOf_run_of_not_contains hw' hcontains.symm]
      exact .nil

theorem Abreast.resume (h : e.Abreast R C e') (input : Text) :
    Lockstep R C (.resume input) e e' := by
  cases hp : e.pending with
  | none =>
    have hp' : e'.pending = none := h.pending ▸ hp
    have hcourse : e.courseOf (.resume input) = [] := courseOfAnswers_of_none hp [some input]
    have hcourse' : e'.courseOf (.resume input) = [] := courseOfAnswers_of_none hp' [some input]
    refine ⟨?_, ?_⟩
    · simp only [Engine.call, Engine.resume, hp, hp']
      exact ⟨rfl, h⟩
    · rw [hcourse, hcourse']
      exact .nil
  | some command =>
    have hp' : e'.pending = some command := h.pending ▸ hp
    obtain ⟨hagree, hcourse⟩ := (h.deliver hA command input).carryOn hA
    refine ⟨?_, ?_⟩
    · rw [call_resume hp, call_resume hp']
      exact ⟨congrArg Reply.standing hagree.result, hagree.state⟩
    · rw [courseOf_resume hp, courseOf_resume hp']
      exact hcourse

/-- The same answers to the prompts lead both to the same end, and they go there abreast. -/
theorem Abreast.answers (answers : List (Option Text)) {standing : Standing}
    (h : e.Abreast R C e') (hs : e.Stands standing) (asked : List Text) :
    (∃ ending after after' left, after.Abreast R C after' ∧
      e.answerPrompts Prepared.source ⟨answers, asked⟩ standing = (.ok ending, after, left) ∧
      e'.answerPrompts Prepared.source ⟨answers, asked⟩ standing = (.ok ending, after', left)) ∧
    List.Forall₂ (Abreast R C) (e.courseOfAnswers answers) (e'.courseOfAnswers answers) := by
  induction answers, e, standing, hs using Stands.induction generalizing e' asked with
  | ended answers e ending hs =>
    have hp' : e'.pending = none := h.pending ▸ hs.1.pending
    rw [courseOfAnswers_of_none hs.1.pending, courseOfAnswers_of_none hp']
    exact ⟨⟨ending, e, e', _, h, answerPrompts_ended e ending, answerPrompts_ended e' ending⟩, .nil⟩
  | unanswered answers e prompt hs ha =>
    rw [courseOfAnswers_unanswered ha, courseOfAnswers_unanswered ha]
    exact ⟨⟨.cancelled, e.abandon, e'.abandon, _, h.abandon hA,
      answerPrompts_unanswered ha asked prompt e,
      answerPrompts_unanswered ha asked prompt e'⟩, .nil⟩
  | answered input later e prompt command hs hp ih =>
    have hp' : e'.pending = some command := h.pending ▸ hp
    obtain ⟨hagree, hcourse⟩ := (h.deliver hA command input).carryOn hA
    obtain ⟨hends, hcourses⟩ := ih hagree.state (asked ++ [prompt])
    rw [answerPrompts_answered hp, answerPrompts_answered hp', ← hagree.result]
    simp only [courseOfAnswers, hp, hp']
    exact ⟨hends, List.rel_append hcourse hcourses⟩

theorem Abreast.runAnswered (h : e.Abreast R C e') (hw : e.isWaiting = false) (routine : Text)
    (answers : List (Option Text)) : Lockstep R C (.runAnswered routine answers) e e' := by
  have hw' : e'.isWaiting = false := h.isWaiting_eq ▸ hw
  obtain ⟨hrun, hcourse⟩ := h.run hA hw routine
  obtain ⟨standing, hok, hs⟩ := stands_run hw routine
  obtain ⟨standing', hok', -⟩ := stands_run hw' routine
  have hreply := hrun.result
  simp only [Engine.call, hok, hok', Reply.ofStanding] at hreply
  obtain rfl := Reply.standing.inj hreply
  have hleft : (e.run routine).2.Abreast R C (e'.run routine).2 := hrun.state
  obtain ⟨⟨ending, after, after', left, hafter, ha, ha'⟩, hcourses⟩ :=
    Abreast.answers hA answers hleft hs []
  refine ⟨?_, ?_⟩
  · simp only [Engine.call, runAnswered_of_run _ _ hok, runAnswered_of_run _ _ hok', ha, ha']
    exact ⟨rfl, hafter⟩
  · simp only [courseOf, hw, hw', Bool.false_eq_true, if_false]
    exact List.rel_append hcourse hcourses

/-- So it is with every call, unless a script is to be loaded. -/
theorem Abreast.call (h : e.Abreast R C e') {call : Call}
    (hl : e.isWaiting = true ∨ call.begins = false ∨ call.startsRun = true) :
    Lockstep R C call e e' := by
  rcases refused_or_free e call with ⟨hw, hb⟩ | hw
  · exact h.refused hw hb
  · cases call with
    | run routine => exact h.run hA (hw rfl) routine
    | resume input => exact h.resume hA input
    | runAnswered routine answers => exact h.runAnswered hA (hw rfl) routine answers
    | load | loadFrom =>
      rw [hw rfl] at hl
      rcases hl with hl | hl | hl <;> cases hl
    | cancel => exact ⟨⟨rfl, { h with workspace := { h.workspace with cancelled := rfl } }⟩, .nil⟩
    | close =>
      exact ⟨⟨rfl, { h with workspace := h.workspace.moved (hA.alike.close h.workspace.around) }⟩,
        .nil⟩
    | sendDigits text =>
      have hsent : Agree (Workspace.Twin R)
          (e.workspace.sendDigits e.settings.hexInlineLimit text)
          (e'.workspace.sendDigits e'.settings.hexInlineLimit text) := by
        rw [h.settings]
        exact h.workspace.sendAny hA.alike _
      exact ⟨⟨congrArg Reply.ofUnit hsent.result, { h with workspace := hsent.state }⟩, .nil⟩
    | sendChecksum text =>
      have hsent : Agree (Workspace.Twin R)
          (e.workspace.sendChecksum e.settings.hexInlineLimit text)
          (e'.workspace.sendChecksum e'.settings.hexInlineLimit text) := by
        rw [h.settings]
        exact h.workspace.sendChecksum hA.alike _ text
      exact ⟨⟨congrArg Reply.ofUnit hsent.result, { h with workspace := hsent.state }⟩, .nil⟩

omit hA in
/-- A call that goes in lockstep goes in front. -/
theorem Lockstep.callAll_cons {call : Call} {rest : List Call} (h : Lockstep R C call e e')
    (hrest : Agree (Abreast R C) ((e.call call).2.callAll rest) ((e'.call call).2.callAll rest))
    (hcourse : List.Forall₂ (Abreast R C)
      ((e.call call).2.courseOfAll rest) ((e'.call call).2.courseOfAll rest)) :
    Agree (Abreast R C) (e.callAll (call :: rest)) (e'.callAll (call :: rest)) ∧
      List.Forall₂ (Abreast R C)
        (e.courseOfAll (call :: rest)) (e'.courseOfAll (call :: rest)) := by
  rw [Engine.callAll_cons, Engine.callAll_cons, courseOfAll, courseOfAll, h.agree.result,
    hrest.result]
  exact ⟨⟨rfl, hrest.state⟩, List.rel_append h.course hcourse⟩

theorem Abreast.callAll_of_underWay (h : e.Abreast R C e') {calls : List Call}
    (hway : e.UnderWay calls) : e'.UnderWay calls ∧
      Agree (Abreast R C) (e.callAll calls) (e'.callAll calls) ∧
      List.Forall₂ (Abreast R C) (e.courseOfAll calls) (e'.courseOfAll calls) := by
  induction calls generalizing e e' with
  | nil => exact ⟨trivial, ⟨rfl, h⟩, .nil⟩
  | cons call rest ih =>
    obtain ⟨hw, hrest⟩ := hway
    have hlock : Lockstep R C call e e' := h.call hA (Or.inl hw)
    obtain ⟨hlater, hagree, hcourse⟩ := ih hlock.agree.state hrest
    exact ⟨⟨h.isWaiting_eq ▸ hw, hlater⟩, hlock.callAll_cons hagree hcourse⟩

/-- Engines that stand abreast go through a whole run abreast, with the same replies. -/
theorem Abreast.callAll_of_isRun (h : e.Abreast R C e') {calls : List Call} (hrun : e.IsRun calls) :
    e'.IsRun calls ∧ Agree (Abreast R C) (e.callAll calls) (e'.callAll calls) ∧
      List.Forall₂ (Abreast R C) (e.courseOfAll calls) (e'.courseOfAll calls) := by
  have first : ∀ {call rest}, call.startsRun = true → e.isWaiting = false →
      (e.call call).2.UnderWay rest →
      (e'.isWaiting = false ∧ (e'.call call).2.UnderWay rest) ∧
        Agree (Abreast R C) (e.callAll (call :: rest)) (e'.callAll (call :: rest)) ∧
        List.Forall₂ (Abreast R C)
          (e.courseOfAll (call :: rest)) (e'.courseOfAll (call :: rest)) := by
    intro call rest hstarts hw hrest
    have hlock : Lockstep R C call e e' := h.call hA (Or.inr (Or.inr hstarts))
    obtain ⟨hlater, hagree, hcourse⟩ := hlock.agree.state.callAll_of_underWay hA hrest
    exact ⟨⟨h.isWaiting_eq ▸ hw, hlater⟩, hlock.callAll_cons hagree hcourse⟩
  match calls, hrun with
  | .run routine :: rest, ⟨hw, hrest⟩ => exact first rfl hw hrest
  | .runAnswered routine answers :: rest, ⟨hw, hrest⟩ => exact first rfl hw hrest

end Engine
end BenchScript
