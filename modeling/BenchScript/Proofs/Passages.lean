import BenchScript.Proofs.Record
import BenchScript.Proofs.Step

set_option autoImplicit false

/-!
# What passes in a step

A step of an engine only adds to the record that its surroundings keep. The device and the files
come first; once the host has been called, nothing is left of the step but to tell the host of the
command, or to end the run. `Quiet` is the part before the host is called, and `Callbacks` says what
may follow.
-/
namespace BenchScript

/-- Where an element of two lists in a row stands: in the second or in the first. -/
theorem append_eq_append_cons {α : Type} {first second before after : List α} {x : α}
    (h : first ++ second = before ++ x :: after) :
    (∃ rest, second = rest ++ x :: after) ∨
      ∃ rest, first = before ++ x :: rest ∧ after = rest ++ second := by
  rcases List.append_eq_append_iff.1 h with ⟨rest, -, hsecond⟩ | ⟨rest, hfirst, hcut⟩
  · exact Or.inl ⟨rest, hsecond⟩
  · cases rest with
    | nil => exact Or.inl ⟨[], hcut.symm⟩
    | cons y rest =>
      obtain ⟨rfl, hafter⟩ := List.cons.inj hcut
      exact Or.inr ⟨rest, hfirst, hafter⟩

namespace Passage

def isCallback : Passage → Bool
  | .notified _ _ | .observed _ _ => true
  | _ => false

def cancels : Passage → Bool
  | .notified _ cancel | .observed _ cancel => cancel
  | _ => false

theorem isCallback_of_cancels {p : Passage} (h : p.cancels = true) : p.isCallback = true := by
  cases p <;> first | rfl | cases h

end Passage

namespace Workspace

variable {ε : Type} [Environment ε] {w w' w'' : Workspace (Recorded ε)}
  {passed passed' : List Passage}

/-- What passed between two workspaces, and that the flag was raised by the host or not at all. -/
structure Passes (w : Workspace (Recorded ε)) (passed : List Passage)
    (w' : Workspace (Recorded ε)) : Prop where
  record : w'.around.record = w.around.record ++ passed
  cancelled : w'.cancelled = (w.cancelled || passed.any Passage.cancels)

omit [Environment ε] in
theorem Passes.of_eq (hr : w'.around.record = w.around.record) (hc : w'.cancelled = w.cancelled) :
    w.Passes [] w' :=
  ⟨by rw [hr, List.append_nil], by rw [hc, List.any_nil, Bool.or_false]⟩

omit [Environment ε] in
theorem Passes.trans (h : w.Passes passed w') (h' : w'.Passes passed' w'') :
    w.Passes (passed ++ passed') w'' := by
  refine ⟨?_, ?_⟩
  · rw [h'.record, h.record, List.append_assoc]
  · rw [h'.cancelled, h.cancelled, List.any_append, Bool.or_assoc]

theorem passes_notify (note : Notification) (w : Workspace (Recorded ε)) :
    w.Passes [.notified note (Host.notify note w.around.around).1] (w.notify note) := by
  refine ⟨rfl, ?_⟩
  rw [List.any_cons, List.any_nil, Bool.or_false]
  rfl

theorem passes_observe (command : Command) (w : Workspace (Recorded ε)) :
    w.Passes [.observed ⟨command.line, w.lastRow, w.lastData⟩
      (Host.observe ⟨command.line, w.lastRow, w.lastData⟩ w.around.around).1]
      (w.observe command) := by
  refine ⟨rfl, ?_⟩
  rw [List.any_cons, List.any_nil, Bool.or_false]
  rfl

def Quiet (w w' : Workspace (Recorded ε)) : Prop :=
  ∃ passed, w.Passes passed w' ∧ ∀ p ∈ passed, p.isCallback = false

omit [Environment ε] in
theorem Quiet.of_eq (hr : w'.around.record = w.around.record) (hc : w'.cancelled = w.cancelled) :
    w.Quiet w' :=
  ⟨[], Passes.of_eq hr hc, by simp⟩

omit [Environment ε] in
theorem Quiet.refl (w : Workspace (Recorded ε)) : w.Quiet w := Quiet.of_eq rfl rfl

omit [Environment ε] in
theorem Quiet.trans (h : w.Quiet w') (h' : w'.Quiet w'') : w.Quiet w'' := by
  obtain ⟨passed, hp, hquiet⟩ := h
  obtain ⟨passed', hp', hquiet'⟩ := h'
  refine ⟨passed ++ passed', hp.trans hp', ?_⟩
  intro p hmem
  rcases List.mem_append.1 hmem with hmem | hmem
  · exact hquiet p hmem
  · exact hquiet' p hmem

omit [Environment ε] in
theorem Quiet.of_record (hr : w'.around.record = w.around.record ++ passed)
    (hc : w'.cancelled = w.cancelled) (hp : ∀ p ∈ passed, p.isCallback = false) : w.Quiet w' := by
  have hnone : passed.any Passage.cancels = false := by
    rw [List.any_eq_false]
    intro p hmem h
    have hquiet := hp p hmem
    rw [Passage.isCallback_of_cancels h] at hquiet
    cases hquiet
  refine ⟨passed, ⟨hr, ?_⟩, hp⟩
  rw [hc, hnone, Bool.or_false]

omit [Environment ε] in
theorem Quiet.passing {p : Passage} (hr : w'.around.record = w.around.record ++ [p])
    (hc : w'.cancelled = w.cancelled) (hp : p.isCallback = false) : w.Quiet w' := by
  refine Quiet.of_record hr hc fun q hq => ?_
  rw [List.mem_singleton.1 hq]
  exact hp

inductive Sent (frame : Except LinkError Frame) (w : Workspace (Recorded ε)) :
    Except ScriptError Unit × Workspace (Recorded ε) → Prop where
  | unformed {e : LinkError} (h : frame.bind Frame.encode = .error e) :
      Sent frame w (.error (.ofLink e), w)
  | unwritten {bytes : Bytes} {e : LinkError} {around : Recorded ε}
      (h : frame.bind Frame.encode = .ok bytes)
      (hr : around.record = w.around.record ++ [.wrote bytes (.error e)]) :
      Sent frame w (.error (.ofLink e), { w with around })
  | unanswered {bytes : Bytes} {e : LinkError} {around : Recorded ε}
      (h : frame.bind Frame.encode = .ok bytes)
      (hr : around.record
        = w.around.record ++ [.wrote bytes (.ok ()), .received terminator (.error e)]) :
      Sent frame w (.error (.ofLink e), { w with around })
  | answered {bytes line : Bytes} {before around : Recorded ε}
      (h : frame.bind Frame.encode = .ok bytes)
      (hl : (Device.readThrough terminator before).1 = .ok line)
      (hr : around.record
        = w.around.record ++ [.wrote bytes (.ok ()), .received terminator (.ok line)]) :
      Sent frame w (.ok (), { w with
        around, lastRow := (Response.ofLine line).row, lastData := (Response.ofLine line).data })

theorem sent_sendAny (frame : Except LinkError Frame) (w : Workspace (Recorded ε)) :
    Sent frame w (w.sendAny frame) := by
  cases frame with
  | error e => exact .unformed rfl
  | ok frame =>
    simp only [sendAny, send, exchange]
    cases hencode : frame.encode with
    | error e => exact .unformed hencode
    | ok bytes =>
      have hwrite : (Device.write bytes w.around).2.record
          = w.around.record ++ [.wrote bytes (Device.write bytes w.around).1] := rfl
      simp only
      generalize Device.write bytes w.around = written at hwrite
      obtain ⟨result, around⟩ := written
      cases result with
      | error e => exact .unwritten hencode hwrite
      | ok =>
        have hread : (Device.readThrough terminator around).2.record = around.record
            ++ [.received terminator (Device.readThrough terminator around).1] := rfl
        simp only at hwrite ⊢
        rw [hwrite, List.append_assoc] at hread
        generalize hanswer : Device.readThrough terminator around = answer at hread
        obtain ⟨result, around'⟩ := answer
        cases result with
        | error e => exact .unanswered hencode hread
        | ok line => exact .answered hencode (congrArg Prod.fst hanswer) hread

theorem Sent.quiet {frame : Except LinkError Frame}
    {outcome : Except ScriptError Unit × Workspace (Recorded ε)} (h : Sent frame w outcome) :
    w.Quiet outcome.2 := by
  cases h with
  | unformed => exact Quiet.refl w
  | unwritten _ hr => exact Quiet.of_record hr rfl (by simp [Passage.isCallback])
  | unanswered _ hr => exact Quiet.of_record hr rfl (by simp [Passage.isCallback])
  | answered _ _ hr => exact Quiet.of_record hr rfl (by simp [Passage.isCallback])

theorem quiet_sendAny (frame : Except LinkError Frame) (w : Workspace (Recorded ε)) :
    w.Quiet (w.sendAny frame).2 :=
  (sent_sendAny frame w).quiet

theorem quiet_send (frame : Frame) (w : Workspace (Recorded ε)) : w.Quiet (w.send frame).2 :=
  quiet_sendAny (.ok frame) w

theorem quiet_sendLines (limit : Nat) (lines : List Text) (w : Workspace (Recorded ε)) :
    w.Quiet (sendLines limit lines w).2 := by
  induction lines generalizing w with
  | nil => exact Quiet.refl w
  | cons line rest ih =>
    have hline : w.Quiet (w.sendDigits limit line).2 := quiet_sendAny _ w
    rw [sendLines]
    generalize w.sendDigits limit line = outcome at hline ⊢
    obtain ⟨result, w'⟩ := outcome
    cases result with
    | error e => exact hline
    | ok => exact hline.trans (ih w')

/-- The host is told one thing at most, and all else has been done by then. -/
def Tells (w w' : Workspace (Recorded ε)) : Prop :=
  ∃ told, w.Quiet told ∧ (w' = told ∨ ∃ note, w' = told.notify note)

theorem Quiet.tells (h : w.Quiet w') : w.Tells w' := ⟨w', h, Or.inl rfl⟩

theorem Quiet.tells_notify (h : w.Quiet w') (note : Notification) : w.Tells (w'.notify note) :=
  ⟨w', h, Or.inr ⟨note, rfl⟩⟩

theorem tells_sendFile (limit : Nat) (command : Command) (w : Workspace (Recorded ε)) :
    w.Tells (w.sendFile limit command).2 := by
  unfold sendFile
  by_cases hpath : command.argument = []
  · rw [if_pos hpath]
    exact (Quiet.refl w).tells_notify _
  · have hread : w.Quiet
        { w with around := (FileStore.readLines command.argument w.around).2 } :=
      Quiet.passing rfl rfl rfl
    rw [if_neg hpath]
    generalize FileStore.readLines command.argument w.around = out at hread
    obtain ⟨result, around⟩ := out
    cases result with
    | error cause => exact hread.tells_notify _
    | ok lines => exact (hread.trans (quiet_sendLines _ _ _)).tells

theorem tells_appendRow (defaultOutput : Option Text) (command : Command)
    (w : Workspace (Recorded ε)) : w.Tells (w.appendRow defaultOutput command) := by
  unfold appendRow
  simp only
  generalize (if command.argument = [] then defaultOutput else some command.argument) = path?
  cases path? with
  | none => exact (Quiet.refl w).tells_notify _
  | some path =>
    have happend : w.Quiet
        { w with around := (FileStore.appendLine path w.lastRow w.around).2 } :=
      Quiet.passing rfl rfl rfl
    simp only
    generalize FileStore.appendLine path w.lastRow w.around = out at happend
    obtain ⟨result, around⟩ := out
    cases result with
    | error cause => exact happend.tells_notify _
    | ok => exact happend.tells

theorem tells_proceed {command : Command}
    {outcome : Except ScriptError Unit × Workspace (Recorded ε)} (h : w.Tells outcome.2) :
    w.Tells (proceed command outcome).2 := by
  obtain ⟨result, w'⟩ := outcome
  cases result <;> exact h

theorem tells_withLine {command : Command}
    {action : Text → Except ScriptError Unit × Workspace (Recorded ε)}
    (h : ∀ line, w.Quiet (action line).2) : w.Tells (withLine command w action).2 := by
  unfold withLine
  split
  · exact tells_proceed (h _).tells
  · exact (Quiet.refl w).tells

/-- Whatever a command does, telling the host of it comes last. -/
theorem tells_perform (settings : Settings) (command : Command) (w : Workspace (Recorded ε)) :
    w.Tells (w.perform settings command).2 := by
  unfold perform
  split
  case h_1 => exact (Quiet.refl w).tells
  case h_2 =>
    -- A variable is defined before the user is told of it.
    split
    · exact (Quiet.refl w).tells
    · next bindings _ =>
      have hdefined : w.Quiet { w with bindings } := Quiet.of_eq rfl rfl
      exact hdefined.tells_notify _
  case h_3 => exact (Quiet.refl w).tells
  case h_4 => exact tells_proceed (quiet_send _ w).tells
  case h_5 => exact tells_withLine fun line => quiet_sendAny _ w
  case h_6 => exact tells_proceed (tells_sendFile _ command w)
  case h_7 => exact (Quiet.refl w).tells_notify _
  case h_8 => exact (Quiet.refl w).tells
  case h_9 => exact (Quiet.refl w).tells_notify _
  case h_10 => exact tells_appendRow _ command w
  case h_11 => exact tells_withLine fun line => quiet_sendAny _ w
  case h_12 => exact (Quiet.refl w).tells
  case h_13 => exact tells_withLine fun line => quiet_send _ w

/-- How the host is called while a command is in progress that does not end the run. -/
inductive Callbacks (command? : Option Command) : List Passage → Prop where
  | none : Callbacks command? []
  | told (note : Notification) (cancel : Bool) : Callbacks command? [.notified note cancel]
  | observed (command : Command) (row : Text) (data : Bytes) (cancel : Bool)
      (h : command? = some command) :
      Callbacks command? [.observed ⟨command.line, row, data⟩ cancel]
  | both (note : Notification) (cancel : Bool) (command : Command) (row : Text) (data : Bytes)
      (cancel' : Bool) (h : command? = some command) :
      Callbacks command? [.notified note cancel, .observed ⟨command.line, row, data⟩ cancel']

def Stretch (command? : Option Command) (w w' : Workspace (Recorded ε)) : Prop :=
  ∃ ops calls, w.Passes (ops ++ calls) w' ∧ (∀ p ∈ ops, p.isCallback = false) ∧
    Callbacks command? calls

omit [Environment ε] in
theorem Quiet.calls {command? : Option Command} {calls : List Passage} (h : w.Quiet w')
    (h' : w'.Passes calls w'') (hc : Callbacks command? calls) : Stretch command? w w'' := by
  obtain ⟨passed, hp, hquiet⟩ := h
  exact ⟨passed, calls, hp.trans h', hquiet, hc⟩

/-- A command that does not end the run may tell the host something before the host hears of it. -/
theorem Tells.stretch_observe {command : Command} (h : w.Tells w') :
    Stretch (some command) w (w'.observe command) := by
  obtain ⟨told, hquiet, rfl | ⟨note, rfl⟩⟩ := h
  · exact hquiet.calls (passes_observe command _) (.observed command _ _ _ rfl)
  · exact hquiet.calls ((passes_notify note told).trans (passes_observe command _))
      (.both note _ command _ _ _ rfl)

theorem Tells.stretch {command? : Option Command} (h : w.Tells w') : Stretch command? w w' := by
  obtain ⟨told, hquiet, rfl | ⟨note, rfl⟩⟩ := h
  · exact hquiet.calls (Passes.of_eq rfl rfl) .none
  · exact hquiet.calls (passes_notify note told) (.told note _)

omit [Environment ε] in
theorem cut_of_quiet {ops calls before after : List Passage} {p : Passage}
    (h : ops ++ calls = before ++ p :: after) (hops : ∀ q ∈ ops, q.isCallback = false)
    (hp : p.isCallback = true) : ∃ rest, calls = rest ++ p :: after := by
  rcases append_eq_append_cons h with hcalls | ⟨rest, rfl, -⟩
  · exact hcalls
  · have hquiet := hops p (by simp)
    rw [hp] at hquiet
    cases hquiet

omit [Environment ε] in
theorem Callbacks.after_eq {command? : Option Command} {calls before after : List Passage}
    {p : Passage} (h : Callbacks command? calls) (hcut : calls = before ++ p :: after) :
    after = [] ∨ ∃ command row data cancel, command? = some command ∧
      after = [.observed ⟨command.line, row, data⟩ cancel] := by
  cases before with
  | nil =>
    cases h with
    | none => cases hcut
    | told | observed =>
      left
      exact (List.cons.inj hcut).2.symm
    | both note cancel command row data cancel' h =>
      right
      exact ⟨command, row, data, cancel', h, (List.cons.inj hcut).2.symm⟩
  | cons first before =>
    left
    cases h with
    | none => cases hcut
    | told | observed => simp at hcut
    | both =>
      have hrest := (List.cons.inj hcut).2
      cases before with
      | nil => exact (List.cons.inj hrest).2.symm
      | cons second before => simp at hrest

omit [Environment ε] in
/-- Once the host was called and asked for cancellation, it is at most told of the command. -/
theorem Stretch.after_cancels {command? : Option Command} (h : Stretch command? w w')
    {before after : List Passage} {p : Passage}
    (hr : w'.around.record = w.around.record ++ (before ++ p :: after)) (hp : p.cancels = true) :
    (after = [] ∨ ∃ command row data cancel, command? = some command ∧
      after = [.observed ⟨command.line, row, data⟩ cancel]) ∧ w'.cancelled = true := by
  obtain ⟨ops, calls, hpasses, hquiet, hcalls⟩ := h
  have hsplit : ops ++ calls = before ++ p :: after := by
    rw [hpasses.record] at hr
    exact List.append_cancel_left hr
  refine ⟨?_, ?_⟩
  · obtain ⟨rest, hcut⟩ := cut_of_quiet hsplit hquiet (Passage.isCallback_of_cancels hp)
    exact hcalls.after_eq hcut
  · rw [hpasses.cancelled, hsplit, List.any_append, List.any_cons, hp]
    simp

end Workspace

namespace Engine

variable {ε : Type} [Environment ε]

/-- The command that the step to come is about: the one that it takes up, or the jump whose routine
has come to its end. -/
def inProgress? (m : Engine ε) : Option Command :=
  match m.fetched? with
  | some (_, command) => some command
  | none =>
    if m.workspace.cancelled || m.quit then none else m.stack.head?.bind Invocation.caller

omit [Environment ε] in
theorem Fetches.inProgress?_eq {m : Engine ε} {top : Invocation} {below : List Invocation}
    {command : Command} (h : m.Fetches top below command) : m.inProgress? = some command := by
  unfold inProgress?
  rw [h.fetched?_eq]

omit [Environment ε] in
theorem inProgress?_of_returned {m : Engine ε} {top : Invocation} {below : List Invocation}
    (hc : m.workspace.cancelled = false) (hq : m.quit = false) (hs : m.stack = top :: below)
    (hn : m.routines.command? top.routine top.position = none) :
    m.inProgress? = top.caller := by
  unfold inProgress?
  rw [fetched?_of_command?_none hs hn, hc, hq, hs]
  rfl

omit [Environment ε] in
theorem workspace_setGate (e : Engine ε) (isOpen : Bool) :
    (e.setGate isOpen).workspace = e.workspace := by
  unfold setGate
  split <;> rfl

variable {m e' : Engine (Recorded ε)}

theorem stretch_leave (e : Engine (Recorded ε)) (top : Invocation) (below : List Invocation) :
    Workspace.Stretch top.caller e.workspace (e.leave top below).workspace := by
  unfold leave
  cases hcaller : top.caller with
  | none => exact (Workspace.Quiet.refl _).tells.stretch
  | some caller => exact (Workspace.Quiet.refl _).tells.stretch_observe

theorem stretch_going (h : m.step = .going e') :
    Workspace.Stretch m.inProgress? m.workspace e'.workspace := by
  have hidle : m.workspace.Tells m.workspace := (Workspace.Quiet.refl _).tells
  have move := m.move_step
  rw [h] at move
  cases move with
  | @returned top below hc hq hs hn =>
    rw [inProgress?_of_returned hc hq hs hn]
    exact stretch_leave m top below
  | passedOver hf _ _ =>
    rw [hf.inProgress?_eq]
    exact hidle.stretch_observe
  | @next top below command w hf _ _ hp =>
    have htells := Workspace.tells_perform m.settings command m.workspace
    rw [hp] at htells
    rw [hf.inProgress?_eq]
    exact htells.stretch_observe
  | @gate top below command isOpen hf _ _ _ =>
    rw [hf.inProgress?_eq]
    unfold observe
    rw [workspace_mapWorkspace, workspace_setGate]
    exact hidle.stretch_observe
  | enters => exact hidle.stretch

theorem stretch_waiting {prompt : Text} (h : m.step = .halted (.waiting prompt) e') :
    Workspace.Stretch m.inProgress? m.workspace e'.workspace := by
  have move := m.move_step
  rw [h] at move
  cases move with
  | @waits top below command _ w hf _ _ hp =>
    have htells := Workspace.tells_perform m.settings command m.workspace
    rw [hp] at htells
    exact htells.stretch

theorem stretch_deliver (command : Command) (input : Text) (e : Engine (Recorded ε)) :
    Workspace.Stretch (some command) e.workspace (e.deliver command input).workspace := by
  have hanswer : e.workspace.Quiet { e.workspace with lastRow := input, lastData := [] } :=
    Workspace.Quiet.of_eq rfl rfl
  exact hanswer.tells.stretch_observe

theorem sent_sendDigits (e : Engine (Recorded ε)) (text : Text) :
    Workspace.Sent (hexFrame e.settings.hexInlineLimit text) e.workspace
      ((e.sendDigits text).1, (e.sendDigits text).2.workspace) :=
  Workspace.sent_sendAny _ e.workspace

def record (e : Engine (Recorded ε)) : List Passage := e.workspace.around.record

theorem record_observe (command : Command) (e : Engine (Recorded ε)) :
    e.record <+: (e.observe command).record :=
  ⟨_, rfl⟩

theorem record_finish (e : Engine (Recorded ε)) (ending : Ending) :
    e.record <+: (e.finish ending).2.record := by
  unfold finish
  cases ending.report? with
  | none => exact List.prefix_refl _
  | some note => exact ⟨_, rfl⟩

omit [Environment ε] in
theorem record_of_stretch {command? : Option Command}
    (h : Workspace.Stretch command? m.workspace e'.workspace) : m.record <+: e'.record := by
  obtain ⟨ops, calls, hpasses, -, -⟩ := h
  exact ⟨_, hpasses.record.symm⟩

theorem record_halted {standing : Standing} (h : m.step = .halted standing e') :
    m.record <+: e'.record := by
  have move := m.move_step
  rw [h] at move
  cases move with
  | cancelled | broken | completed => exact record_finish m _
  | waits => exact record_of_stretch (stretch_waiting h)
  | @stops top below command ending w hf _ _ _ hp =>
    have htells := Workspace.tells_perform m.settings command m.workspace
    rw [hp] at htells
    have hobserved : m.record <+: ((m.past top below w).observe command).record :=
      record_of_stretch htells.stretch_observe
    exact hobserved.trans (record_finish _ _)
  | @exhausted top below command _ _ _ _ | @missing top below command _ _ _ _ _ =>
    have hobserved : m.record
        <+: ((m.past top below m.workspace).spent.observe command).record :=
      record_observe command (m.past top below m.workspace).spent
    exact hobserved.trans (record_finish _ _)

end Engine
end BenchScript
