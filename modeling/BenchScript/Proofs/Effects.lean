import BenchScript.Proofs.Conditions
import BenchScript.Proofs.Dictation
import BenchScript.Proofs.Exchanges
import BenchScript.Proofs.Substitution

set_option autoImplicit false

/-!
# The effects of commands

`Effect` lists what carrying out one command can come to, with all that passes meanwhile, and
`effect_perform` says that the list is complete. The last row and data are those of the last line
that was received, or stay as they were. What goes wrong with a file is a mishap: the host is warned
and nothing else changes, so no error about a file ends a run.
-/
namespace BenchScript

def ScriptError.isFile : ScriptError → Bool
  | .file _ _ => true
  | _ => false

theorem ScriptError.isFile_ofLink (e : LinkError) : (ScriptError.ofLink e).isFile = false := by
  cases e <;> rfl

namespace Variables

theorem isFile_of_operand {bindings : Variables} {text : Text} {e : ScriptError}
    (h : bindings.operand text = .error e) : e.isFile = false := by
  obtain ⟨value, hvalue, -⟩ | ⟨name, hname, -⟩ := bindings.operand_eq text
  · rw [hvalue] at h
    cases h
  · rw [hname] at h
    cases h
    rfl

theorem isFile_of_expand {bindings : Variables} {text : Text} {e : ScriptError}
    (h : bindings.expand text = .error e) : e.isFile = false := by
  rw [bindings.expand_eq [] text] at h
  split at h <;> cases h
  rfl

theorem isFile_of_assign {bindings : Variables} {text row : Text} {e : ScriptError}
    (h : bindings.assign text row = .error e) : e.isFile = false := by
  unfold assign at h
  simp only at h
  split at h
  · cases h
    rfl
  · split at h
    · cases h
    · split at h
      · cases h
      · next herror =>
        cases h
        exact isFile_of_operand herror

end Variables

def Notification.isRemark (note : Notification) : Bool :=
  (note.severity == .trace || note.severity == .info) && !note.requiresInput

def Action.sends : Action → Bool
  | .data | .hex | .sendFile | .checksum | .forward _ => true
  | _ => false

namespace Passage

def line? : Passage → Option Bytes
  | .received _ (.ok line) => some line
  | _ => none

theorem cancels_of_isTraffic {p : Passage} (h : p.isTraffic = true) : p.cancels = false := by
  cases p <;> first | rfl | cases h

end Passage

def linesIn (passed : List Passage) : List Bytes := passed.filterMap Passage.line?

theorem linesIn_append (passed passed' : List Passage) :
    linesIn (passed ++ passed') = linesIn passed ++ linesIn passed' := List.filterMap_append

theorem linesIn_of_isCallback {passed : List Passage} (h : ∀ p ∈ passed, p.isCallback = true) :
    linesIn passed = [] := by
  unfold linesIn
  rw [List.filterMap_eq_nil_iff]
  intro p hp
  have hcalled := h p hp
  cases p <;> first | rfl | cases hcalled

def Command.output? (defaultOutput : Option Text) (command : Command) : Option Text :=
  if command.argument = [] then defaultOutput else some command.argument

namespace Workspace

section Hearing

variable {ε : Type}

def hear (lines : List Bytes) (w : Workspace ε) : Workspace ε :=
  match lines.getLast? with
  | none => w
  | some line => { w with
      lastRow := (Response.ofLine line).row, lastData := (Response.ofLine line).data }

theorem hear_append (lines lines' : List Bytes) (w : Workspace ε) :
    w.hear (lines ++ lines') = (w.hear lines).hear lines' := by
  unfold hear
  rw [List.getLast?_append]
  cases lines'.getLast? with
  | some line => cases lines.getLast? <;> rfl
  | none => rfl

theorem hear_around (lines : List Bytes) (w : Workspace ε) (around : ε) :
    { w with around }.hear lines = { w.hear lines with around } := by
  unfold hear
  cases lines.getLast? <;> rfl

theorem cancelled_hear (lines : List Bytes) (w : Workspace ε) :
    (w.hear lines).cancelled = w.cancelled := by
  unfold hear
  cases lines.getLast? <;> rfl

end Hearing

variable {ε : Type} [Environment ε] {w w' w'' : Workspace (Recorded ε)}
  {passed passed' : List Passage}

/-- On the way from one workspace to another the device was talked to, and nothing else was done. -/
structure Talked (w : Workspace (Recorded ε)) (passed : List Passage)
    (w' : Workspace (Recorded ε)) : Prop where
  record : w'.around.record = w.around.record ++ passed
  traffic : ∀ p ∈ passed, p.isTraffic = true
  kept : w' = { w.hear (linesIn passed) with around := w'.around }

omit [Environment ε] in
theorem Talked.refl (w : Workspace (Recorded ε)) : w.Talked [] w :=
  ⟨(List.append_nil _).symm, List.forall_mem_nil _, rfl⟩

omit [Environment ε] in
theorem Talked.trans (h : w.Talked passed w') (h' : w'.Talked passed' w'') :
    w.Talked (passed ++ passed') w'' := by
  refine ⟨?_, ?_, ?_⟩
  · rw [h'.record, h.record, List.append_assoc]
  · intro p hp
    rcases List.mem_append.1 hp with hp | hp
    · exact h.traffic p hp
    · exact h'.traffic p hp
  · have hsecond := h'.kept
    rw [h.kept, hear_around] at hsecond
    rw [linesIn_append, hear_append]
    exact hsecond

omit [Environment ε] in
theorem Talked.cancelled (h : w.Talked passed w') : w'.cancelled = w.cancelled := by
  rw [h.kept]
  exact cancelled_hear _ w

/-- An action came to this: the device was talked to, and an error that it ended in is not about a
file. -/
def Talks (w : Workspace (Recorded ε))
    (outcome : Except ScriptError Unit × Workspace (Recorded ε)) : Prop :=
  (∃ passed, w.Talked passed outcome.2) ∧ ∀ error, outcome.1 = .error error → error.isFile = false

theorem Sent.talks {frame : Except LinkError Frame}
    {outcome : Except ScriptError Unit × Workspace (Recorded ε)} (h : Sent frame w outcome) :
    w.Talks outcome := by
  cases h with
  | unformed h =>
    refine ⟨⟨[], Talked.refl w⟩, fun error herror => ?_⟩
    cases herror
    exact ScriptError.isFile_ofLink _
  | unwritten _ hr | unanswered _ hr =>
    refine ⟨⟨_, hr, by simp [Passage.isTraffic], rfl⟩, fun error herror => ?_⟩
    cases herror
    exact ScriptError.isFile_ofLink _
  | answered _ _ hr =>
    refine ⟨⟨_, hr, by simp [Passage.isTraffic], rfl⟩, fun error herror => ?_⟩
    cases herror

theorem talks_sendAny (frame : Except LinkError Frame) (w : Workspace (Recorded ε)) :
    w.Talks (w.sendAny frame) :=
  (sent_sendAny frame w).talks

theorem talks_sendLines (limit : Nat) (lines : List Text) (w : Workspace (Recorded ε)) :
    w.Talks (sendLines limit lines w) := by
  induction lines generalizing w with
  | nil => exact ⟨⟨[], Talked.refl w⟩, fun error herror => by cases herror⟩
  | cons line rest ih =>
    have hline := talks_sendAny (hexFrame limit line) w
    rw [sendLines]
    unfold sendDigits
    generalize w.sendAny (hexFrame limit line) = outcome at hline ⊢
    obtain ⟨result, w'⟩ := outcome
    cases result with
    | error e => exact hline
    | ok =>
      obtain ⟨⟨passed, hfirst⟩, -⟩ := hline
      obtain ⟨⟨passed', hrest⟩, herror⟩ := ih w'
      exact ⟨⟨passed ++ passed', hfirst.trans hrest⟩, herror⟩

/-- What can go wrong with the file of a command. With it stands what passed when that was found
out, and what the host is told. -/
inductive Mishap (settings : Settings) (command : Command) (w : Workspace (Recorded ε)) :
    List Passage → Text → Prop where
  | lineless {passed : List Passage} {message : Text} (ha : command.action = .sendFile)
      (h : Engine.Lineless command w.around passed message) :
      Mishap settings command w passed message
  | unnamed (ha : command.action = .append)
      (hp : command.output? settings.defaultOutput = none) :
      Mishap settings command w []
        (command.line ++ ": no file given and no default output".toList)
  | unwritten {path cause : Text} (ha : command.action = .append)
      (hp : command.output? settings.defaultOutput = some path)
      (h : (FileStore.appendLine path w.lastRow w.around).1 = .error cause) :
      Mishap settings command w [.appended path w.lastRow (.error cause)]
        (ScriptError.file path cause).message

def Fares (command : Command) (w : Workspace ε) (verdict : Verdict) : Prop :=
  verdict = .next ∨
    ∃ error : ScriptError, error.isFile = false ∧ verdict = .stop (.failed (w.blame command error))

/-- Everything that carrying out a command can come to, with what passes meanwhile. -/
inductive Effect (settings : Settings) (command : Command) (w : Workspace (Recorded ε)) :
    List Passage → Verdict × Workspace (Recorded ε) → Prop where
  /-- Only how the run goes on is decided. -/
  | decided {verdict : Verdict} (hs : ∀ prompt, verdict ≠ .suspend prompt)
      (hf : ∀ message, verdict = .stop (.failed message) → w.Fares command verdict) :
      Effect settings command w [] (verdict, w)
  /-- The user is told something, of a definition for instance. -/
  | told {note : Notification} {bindings : Variables} (hn : note.isRemark = true) :
      Effect settings command w [.notified note (Host.notify note w.around.around).1]
        (.next, { w with bindings }.notify note)
  | asked {prompt : Text} (ha : command.action = .ask) :
      Effect settings command w
        [.notified (.prompt prompt) (Host.notify (.prompt prompt) w.around.around).1]
        (.suspend prompt, w.notify (.prompt prompt))
  | talked {passed : List Passage} {verdict : Verdict} {w' : Workspace (Recorded ε)}
      (hs : command.action.sends = true) (h : w.Talked passed w')
      (hv : w'.Fares command verdict) :
      Effect settings command w passed (verdict, w')
  /-- The lines of a file are sent. -/
  | dictated {contents : List Text} {passed : List Passage} {verdict : Verdict}
      {around : Recorded ε} {w' : Workspace (Recorded ε)} (ha : command.action = .sendFile)
      (hr : around.record = w.around.record ++ [.readFile command.argument (.ok contents)])
      (h : { w with around }.Talked passed w') (hv : w'.Fares command verdict) :
      Effect settings command w (.readFile command.argument (.ok contents) :: passed) (verdict, w')
  | mishap {passed : List Passage} {message : Text} {cancel : Bool} {around : Recorded ε}
      (h : w.Mishap settings command passed message)
      (hr : around.record
        = w.around.record ++ (passed ++ [.notified ⟨.warning, message, false⟩ cancel])) :
      Effect settings command w (passed ++ [.notified ⟨.warning, message, false⟩ cancel])
        (.next, { w with around, cancelled := w.cancelled || cancel })
  | appended {path : Text} {around : Recorded ε} (ha : command.action = .append)
      (hp : command.output? settings.defaultOutput = some path)
      (h : (FileStore.appendLine path w.lastRow w.around).1 = .ok ())
      (hr : around.record = w.around.record ++ [.appended path w.lastRow (.ok ())]) :
      Effect settings command w [.appended path w.lastRow (.ok ())] (.next, { w with around })

section Perform

variable (settings : Settings) {command : Command}

theorem fares_proceed (command : Command) {outcome : Except ScriptError Unit × Workspace ε}
    (h : ∀ error, outcome.1 = .error error → error.isFile = false) :
    ∃ verdict, proceed command outcome = (verdict, outcome.2) ∧
      outcome.2.Fares command verdict := by
  obtain ⟨result, w⟩ := outcome
  cases result with
  | ok => exact ⟨_, rfl, Or.inl rfl⟩
  | error e => exact ⟨_, rfl, Or.inr ⟨e, h e rfl, rfl⟩⟩

theorem effect_of_failure {error : ScriptError} (h : error.isFile = false)
    (w : Workspace (Recorded ε)) :
    Effect settings command w [] (proceed command (.error error, w)) :=
  .decided nofun fun _ _ => Or.inr ⟨error, h, rfl⟩

theorem effect_of_talks (hs : command.action.sends = true)
    {outcome : Except ScriptError Unit × Workspace (Recorded ε)} (h : w.Talks outcome) :
    ∃ passed, Effect settings command w passed (proceed command outcome) := by
  obtain ⟨⟨passed, htalked⟩, herror⟩ := h
  obtain ⟨verdict, heq, hfares⟩ := fares_proceed command herror
  rw [heq]
  exact ⟨passed, .talked hs htalked hfares⟩

theorem effect_withLine (hs : command.action.sends = true)
    {action : Text → Except ScriptError Unit × Workspace (Recorded ε)}
    (h : ∀ line, w.Talks (action line)) :
    ∃ passed, Effect settings command w passed (withLine command w action) := by
  unfold withLine
  split
  · exact effect_of_talks settings hs (h _)
  · next herror => exact ⟨[], effect_of_failure settings (Variables.isFile_of_expand herror) w⟩

theorem appendRow_of_none {w : Workspace ε}
    (h : command.output? settings.defaultOutput = none) :
    w.appendRow settings.defaultOutput command
      = w.warn (command.line ++ ": no file given and no default output".toList) := by
  unfold Command.output? at h
  unfold appendRow
  simp only [h]

theorem appendRow_of_some {w : Workspace ε} {path : Text}
    (h : command.output? settings.defaultOutput = some path) :
    w.appendRow settings.defaultOutput command
      = match FileStore.appendLine path w.lastRow w.around with
        | (.ok (), around) => { w with around }
        | (.error cause, around) =>
          { w with around }.warn (ScriptError.file path cause).message := by
  unfold Command.output? at h
  unfold appendRow
  dsimp only
  generalize (if command.argument = [] then settings.defaultOutput else some command.argument)
    = given at h ⊢
  subst h
  rfl

theorem perform_append {w : Workspace ε} (ha : command.action = .append) :
    w.perform settings command = (.next, w.appendRow settings.defaultOutput command) := by
  unfold perform
  rw [ha]

theorem perform_sendFile {w : Workspace ε} (ha : command.action = .sendFile) :
    w.perform settings command
      = proceed command (w.sendFile settings.hexInlineLimit command) := by
  unfold perform
  rw [ha]

theorem exists_appendLine {path line : Text} {r : Recorded ε} {result : Except Text Unit}
    (h : (FileStore.appendLine path line r).1 = result) :
    ∃ around, FileStore.appendLine path line r = (result, around) ∧
      around.record = r.record ++ [.appended path line result] := by
  rw [← h]
  exact ⟨_, rfl, rfl⟩

/-- After a mishap the host has been warned, and the run goes on. -/
theorem perform_of_mishap {message : Text} (h : w.Mishap settings command passed message) :
    ∃ (cancel : Bool) (around : Recorded ε),
      around.record = w.around.record ++ (passed ++ [.notified ⟨.warning, message, false⟩ cancel]) ∧
      w.perform settings command
        = (.next, { w with around, cancelled := w.cancelled || cancel }) := by
  cases h with
  | lineless ha h =>
    obtain ⟨cancel, around, hrecord, hsend⟩ :=
      Engine.sendFile_of_lineless h settings.hexInlineLimit
    rw [List.append_assoc] at hrecord
    refine ⟨cancel, around, hrecord, ?_⟩
    rw [perform_sendFile settings ha, hsend]
    rfl
  | unnamed ha hp =>
    rw [perform_append settings ha, appendRow_of_none settings hp]
    exact ⟨_, _, rfl, rfl⟩
  | @unwritten path cause ha hp h =>
    obtain ⟨around, happend, hrecord⟩ := exists_appendLine h
    rw [perform_append settings ha, appendRow_of_some settings hp, happend]
    refine ⟨_, _, ?_, rfl⟩
    rw [← List.append_assoc, ← hrecord]

theorem effect_of_mishap {message : Text} (h : w.Mishap settings command passed message) :
    ∃ passed, Effect settings command w passed (w.perform settings command) := by
  obtain ⟨cancel, around, hrecord, hperform⟩ := perform_of_mishap settings h
  rw [hperform]
  exact ⟨_, .mishap h hrecord⟩

theorem effect_sendFile (ha : command.action = .sendFile) (w : Workspace (Recorded ε)) :
    ∃ passed, Effect settings command w passed (w.perform settings command) := by
  by_cases hpath : command.argument = []
  · exact effect_of_mishap settings (.lineless ha (.unnamed hpath))
  · have hrecord : (FileStore.readLines command.argument w.around).2.record = w.around.record
        ++ [.readFile command.argument (FileStore.readLines command.argument w.around).1] := rfl
    cases hread : FileStore.readLines command.argument w.around with
    | mk result around =>
      rw [hread] at hrecord
      cases result with
      | error cause =>
        exact effect_of_mishap settings (.lineless ha (.unreadable hpath (congrArg Prod.fst hread)))
      | ok contents =>
        rw [perform_sendFile settings ha, Engine.sendFile_of_readable hpath hread]
        obtain ⟨⟨passed, htalked⟩, herror⟩ := talks_sendLines settings.hexInlineLimit
          ((contents.map Text.trim).filter (· ≠ [])) { w with around }
        obtain ⟨verdict, heq, hfares⟩ := fares_proceed command herror
        rw [heq]
        exact ⟨_, .dictated ha hrecord htalked hfares⟩

/-- A line that was appended is all that comes of it. -/
theorem perform_of_appended {path : Text} (ha : command.action = .append)
    (hp : command.output? settings.defaultOutput = some path)
    (h : (FileStore.appendLine path w.lastRow w.around).1 = .ok ()) :
    ∃ around : Recorded ε,
      around.record = w.around.record ++ [.appended path w.lastRow (.ok ())] ∧
      w.perform settings command = (.next, { w with around }) := by
  obtain ⟨around, happend, hrecord⟩ := exists_appendLine h
  refine ⟨around, hrecord, ?_⟩
  rw [perform_append settings ha, appendRow_of_some settings hp, happend]

theorem effect_append (ha : command.action = .append) (w : Workspace (Recorded ε)) :
    ∃ passed, Effect settings command w passed (w.perform settings command) := by
  cases hp : command.output? settings.defaultOutput with
  | none => exact effect_of_mishap settings (.unnamed ha hp)
  | some path =>
    cases h : (FileStore.appendLine path w.lastRow w.around).1 with
    | error cause => exact effect_of_mishap settings (.unwritten ha hp h)
    | ok =>
      obtain ⟨around, hrecord, hperform⟩ := perform_of_appended settings ha hp h
      rw [hperform]
      exact ⟨_, .appended ha hp h hrecord⟩

/-- Whatever a command comes to is an effect of one of these kinds. -/
theorem effect_perform (command : Command) (w : Workspace (Recorded ε)) :
    ∃ passed, Effect settings command w passed (w.perform settings command) := by
  by_cases hfile : command.action = .sendFile
  · exact effect_sendFile settings hfile w
  by_cases happend : command.action = .append
  · exact effect_append settings happend w
  -- What is left are the commands that have nothing to do with files.
  unfold perform
  split
  case h_1 =>
    obtain ⟨isOpen, hgate⟩ | ⟨message, hstop⟩ := decideGate_eq command w
    · rw [hgate]
      exact ⟨[], .decided nofun nofun⟩
    · rw [hstop]
      exact ⟨[], .decided nofun nofun⟩
  case h_2 =>
    split
    · next herror => exact ⟨[], effect_of_failure settings (Variables.isFile_of_assign herror) w⟩
    · exact ⟨_, .told rfl⟩
  case h_3 => exact ⟨[], .decided nofun nofun⟩
  case h_4 ha => exact effect_of_talks settings (by rw [ha]; rfl) (talks_sendAny (.ok _) w)
  case h_5 ha => exact effect_withLine settings (by rw [ha]; rfl) fun line => talks_sendAny _ w
  case h_6 ha => exact absurd ha hfile
  case h_7 => exact ⟨_, .told rfl⟩
  case h_8 => exact ⟨[], .decided nofun nofun⟩
  case h_9 ha => exact ⟨_, .asked ha⟩
  case h_10 ha => exact absurd ha happend
  case h_11 ha => exact effect_withLine settings (by rw [ha]; rfl) fun line => talks_sendAny _ w
  case h_12 => exact ⟨[], .decided nofun nofun⟩
  case h_13 ha =>
    exact effect_withLine settings (by rw [ha]; rfl) fun line => talks_sendAny (.ok _) w

end Perform

structure Called (w : Workspace (Recorded ε)) (passed : List Passage)
    (w' : Workspace (Recorded ε)) : Prop where
  passes : w.Passes passed w'
  kept : w' = { w with around := w'.around, cancelled := w'.cancelled }

omit [Environment ε] in
theorem Called.refl (w : Workspace (Recorded ε)) : w.Called [] w := ⟨.of_eq rfl rfl, rfl⟩

omit [Environment ε] in
theorem Called.trans (h : w.Called passed w') (h' : w'.Called passed' w'') :
    w.Called (passed ++ passed') w'' := by
  refine ⟨h.passes.trans h'.passes, ?_⟩
  have hsecond := h'.kept
  rw [h.kept] at hsecond
  exact hsecond

theorem called_notify (note : Notification) (w : Workspace (Recorded ε)) :
    w.Called [.notified note (Host.notify note w.around.around).1] (w.notify note) :=
  ⟨passes_notify note w, rfl⟩

theorem called_observe (command : Command) (w : Workspace (Recorded ε)) :
    w.Called [.observed ⟨command.line, w.lastRow, w.lastData⟩
      (Host.observe ⟨command.line, w.lastRow, w.lastData⟩ w.around.around).1]
      (w.observe command) :=
  ⟨passes_observe command w, rfl⟩

def last (w : Workspace ε) : Text × Bytes := (w.lastRow, w.lastData)

omit [Environment ε] in
theorem Called.last_eq (h : w.Called passed w') : w'.last = w.last := by
  rw [h.kept]
  rfl

omit [Environment ε] in
theorem Talked.last_eq (h : w.Talked passed w') : w'.last = (w.hear (linesIn passed)).last := by
  rw [h.kept]
  rfl

omit [Environment ε] in
theorem Talked.passes (h : w.Talked passed w') : w.Passes passed w' := by
  have hnone : passed.any Passage.cancels = false := by
    rw [List.any_eq_false]
    intro p hp hcancels
    rw [Passage.cancels_of_isTraffic (h.traffic p hp)] at hcancels
    cases hcancels
  refine ⟨h.record, ?_⟩
  rw [h.cancelled, hnone, Bool.or_false]

section Effects

variable {settings : Settings} {command : Command} {message : Text}
  {outcome : Verdict × Workspace (Recorded ε)}

theorem Mishap.any_cancels (h : w.Mishap settings command passed message) :
    passed.any Passage.cancels = false := by
  cases h with
  | lineless _ h => cases h <;> rfl
  | unnamed => rfl
  | unwritten => rfl

/-- What passes is recorded, and the flag is raised by the host or not at all. -/
theorem Effect.passes (h : w.Effect settings command passed outcome) :
    w.Passes passed outcome.2 := by
  cases h with
  | decided => exact .of_eq rfl rfl
  | @told note bindings _ =>
    obtain ⟨hrecord, hcancelled⟩ := passes_notify note { w with bindings }
    exact ⟨hrecord, hcancelled⟩
  | asked => exact passes_notify _ w
  | talked _ h _ => exact h.passes
  | @dictated contents _ _ around _ _ hr h _ =>
    have hread : w.Passes [.readFile command.argument (.ok contents)] { w with around } :=
      ⟨hr, (Bool.or_false _).symm⟩
    exact hread.trans h.passes
  | @mishap passed message cancel around h hr =>
    refine ⟨hr, ?_⟩
    rw [List.any_append, h.any_cancels, Bool.false_or, List.any_cons, List.any_nil, Bool.or_false]
    rfl
  | appended _ _ _ hr => exact ⟨hr, (Bool.or_false _).symm⟩

theorem Mishap.linesIn_eq (h : w.Mishap settings command passed message) : linesIn passed = [] := by
  cases h with
  | lineless _ h => cases h <;> rfl
  | unnamed => rfl
  | unwritten => rfl

/-- The last row and data are those of the last line received, or as they were. -/
theorem Effect.last_eq (h : w.Effect settings command passed outcome) :
    outcome.2.last = (w.hear (linesIn passed)).last := by
  cases h with
  | decided | told | asked | appended => rfl
  | talked _ h _ => exact h.last_eq
  | @dictated contents passed _ around _ _ _ h _ =>
    rw [h.last_eq, hear_around]
    rfl
  | mishap h _ =>
    rw [linesIn_append, h.linesIn_eq]
    rfl

end Effects

end Workspace
end BenchScript
