import BenchScript.Proofs.Passages

set_option autoImplicit false

namespace BenchScript

namespace Workspace

variable {ε : Type}

def answeredBy (exchanged : List (Bytes × Bytes)) (w : Workspace ε) : Workspace ε :=
  match exchanged.getLast? with
  | none => w
  | some (_, answer) => { w with
      lastRow := (Response.ofLine answer).row, lastData := (Response.ofLine answer).data }

theorem answeredBy_append (first second : List (Bytes × Bytes)) (w : Workspace ε) :
    w.answeredBy (first ++ second) = (w.answeredBy first).answeredBy second := by
  unfold answeredBy
  rw [List.getLast?_append]
  cases second.getLast? with
  | some exchange => cases first.getLast? <;> rfl
  | none => rfl

/-- Answers say nothing of the surroundings. -/
theorem answeredBy_around (exchanged : List (Bytes × Bytes)) (w : Workspace ε) (around : ε) :
    { w with around }.answeredBy exchanged = { w.answeredBy exchanged with around } := by
  unfold answeredBy
  cases exchanged.getLast? <;> rfl

variable [Environment ε] {frame : Except LinkError Frame} {w w' : Workspace (Recorded ε)}

/-- What is left of a workspace by a frame that was answered. -/
theorem Sent.answer (h : Sent frame w (.ok (), w')) : ∃ bytes answer,
    frame.bind Frame.encode = .ok bytes ∧
    w'.around.record
      = w.around.record ++ [.wrote bytes (.ok ()), .received terminator (.ok answer)] ∧
    w' = { w.answeredBy [(bytes, answer)] with around := w'.around } := by
  cases h with
  | answered hencode _ hr => exact ⟨_, _, hencode, hr, rfl⟩

/-- A frame that failed leaves the last row and data as they were. -/
theorem Sent.failure {error : ScriptError} (h : Sent frame w (.error error, w')) :
    w' = { w with around := w'.around } := by
  cases h <;> rfl

end Workspace

namespace Engine

variable {ε : Type} [Environment ε]

def passagesOf (exchanged : List (Bytes × Bytes)) : List Passage :=
  exchanged.flatMap fun exchange =>
    [.wrote exchange.1 (.ok ()), .received terminator (.ok exchange.2)]

structure Dictated (lines : List Text) (exchanged : List (Bytes × Bytes))
    (e e' : Engine (Recorded ε)) : Prop where
  calls : e.callAll (lines.map .sendDigits) = (lines.map fun _ => .done, e')
  frames : lines.map (fun line => (hexFrame e.settings.hexInlineLimit line).bind Frame.encode)
    = exchanged.map fun exchange => .ok exchange.1
  record : e'.record = e.record ++ passagesOf exchanged
  kept : e' = e.mapWorkspace fun w =>
    { w.answeredBy exchanged with around := e'.workspace.around }

/-- What came of lines that were sent in order up to the first that failed. -/
inductive Dictation (lines : List Text) (e : Engine (Recorded ε)) :
    Except ScriptError Unit × Engine (Recorded ε) → Prop where
  | finished {exchanged : List (Bytes × Bytes)} {e' : Engine (Recorded ε)}
      (h : Dictated lines exchanged e e') : Dictation lines e (.ok (), e')
  | failed {before after : List Text} {line : Text} {exchanged : List (Bytes × Bytes)}
      {e' e'' : Engine (Recorded ε)} {error : ScriptError}
      (hlines : lines = before ++ line :: after) (h : Dictated before exchanged e e')
      (hcall : e'.sendDigits line = (.error error, e''))
      (hsent : Workspace.Sent (hexFrame e.settings.hexInlineLimit line) e'.workspace
        (.error error, e''.workspace))
      (hkept : e'' = e'.mapWorkspace fun w => { w with around := e''.workspace.around }) :
      Dictation lines e (.error error, e'')

variable {e e₁ e' : Engine (Recorded ε)} {line : Text} {lines first second : List Text}
  {exchanged exchanged₁ exchanged₂ : List (Bytes × Bytes)}
  {outcome : Except ScriptError Unit × Engine (Recorded ε)}

theorem Dictated.nil (e : Engine (Recorded ε)) : Dictated [] [] e e :=
  ⟨rfl, rfl, (List.append_nil _).symm, rfl⟩

theorem Dictated.settings_eq (h : Dictated lines exchanged e e') : e'.settings = e.settings := by
  rw [h.kept]
  rfl

theorem Dictated.append (h : Dictated first exchanged₁ e e₁)
    (h' : Dictated second exchanged₂ e₁ e') :
    Dictated (first ++ second) (exchanged₁ ++ exchanged₂) e e' := by
  refine ⟨?calls, ?frames, ?record, ?kept⟩
  case calls => simp only [List.map_append, callAll_append, h.calls, h'.calls]
  case frames =>
    rw [List.map_append, List.map_append, h.frames, ← h'.frames, h.settings_eq]
  case record =>
    rw [h'.record, h.record, List.append_assoc]
    unfold passagesOf
    rw [List.flatMap_append]
  case kept =>
    have hsecond := h'.kept
    rw [h.kept] at hsecond
    simpa only [mapWorkspace, Workspace.answeredBy_append, Workspace.answeredBy_around]
      using hsecond

theorem Dictation.prepend (h : Dictated first exchanged e e₁) (h' : Dictation second e₁ outcome) :
    Dictation (first ++ second) e outcome := by
  cases h' with
  | finished h' => exact .finished (h.append h')
  | @failed before after line _ _ _ _ hlines h' hcall hsent hkept =>
    have hall : first ++ second = (first ++ before) ++ line :: after := by
      rw [hlines, List.append_assoc]
    rw [h.settings_eq] at hsent
    exact .failed hall (h.append h') hcall hsent hkept

/-- A line that was answered. -/
theorem Dictated.single {w : Workspace (Recorded ε)}
    (hcall : e.sendDigits line = (.ok (), { e with workspace := w }))
    (hsent : Workspace.Sent (hexFrame e.settings.hexInlineLimit line) e.workspace (.ok (), w)) :
    ∃ exchanged, Dictated [line] exchanged e { e with workspace := w } := by
  obtain ⟨bytes, answer, hencode, hrecord, hkept⟩ := hsent.answer
  refine ⟨[(bytes, answer)], ?calls, ?frames, hrecord, ?kept⟩
  case calls =>
    simp only [List.map_cons, List.map_nil, callAll, call, hcall]
    rfl
  case frames => rw [List.map_singleton, hencode, List.map_singleton]
  case kept => exact congrArg (fun w => { e with workspace := w }) hkept

/-- Sending lines from a file is sending them one by one. -/
theorem dictation_sendLines (lines : List Text) (e : Engine (Recorded ε)) :
    Dictation lines e
      ((Workspace.sendLines e.settings.hexInlineLimit lines e.workspace).1,
        { e with
          workspace := (Workspace.sendLines e.settings.hexInlineLimit lines e.workspace).2 }) := by
  induction lines generalizing e with
  | nil => exact .finished (.nil e)
  | cons line rest ih =>
    have hsent : Workspace.Sent (hexFrame e.settings.hexInlineLimit line) e.workspace
        (e.workspace.sendDigits e.settings.hexInlineLimit line) := e.sent_sendDigits line
    have hcall : e.sendDigits line
        = ((e.workspace.sendDigits e.settings.hexInlineLimit line).1,
          { e with workspace := (e.workspace.sendDigits e.settings.hexInlineLimit line).2 }) := rfl
    rw [Workspace.sendLines]
    generalize e.workspace.sendDigits e.settings.hexInlineLimit line = out at hsent hcall ⊢
    obtain ⟨result, w⟩ := out
    cases result with
    | error error =>
      have hkept := congrArg (fun w => { e with workspace := w }) hsent.failure
      exact .failed (List.nil_append _).symm (.nil e) hcall hsent hkept
    | ok =>
      obtain ⟨exchanged, hline⟩ := Dictated.single hcall hsent
      exact Dictation.prepend hline (ih { e with workspace := w })

/-- Why there are no lines to send: no file is named, or it cannot be read. With it stands what
passed when that was found out, and what the host is told. -/
inductive Lineless (command : Command) (r : Recorded ε) : List Passage → Text → Prop where
  | unnamed (h : command.argument = []) :
      Lineless command r [] (command.line ++ ": no file given".toList)
  | unreadable {cause : Text} (hne : command.argument ≠ [])
      (h : (FileStore.readLines command.argument r).1 = .error cause) :
      Lineless command r [.readFile command.argument (.error cause)]
        (ScriptError.file command.argument cause).message

variable {command : Command} {top : Invocation} {below : List Invocation}

theorem sendFile_of_lineless {passed : List Passage} {message : Text} {w : Workspace (Recorded ε)}
    (h : Lineless command w.around passed message) (limit : Nat) :
    ∃ (cancel : Bool) (around : Recorded ε),
      around.record = w.around.record ++ passed ++ [.notified ⟨.warning, message, false⟩ cancel] ∧
      w.sendFile limit command
        = (.ok (), { w with around, cancelled := w.cancelled || cancel }) := by
  unfold Workspace.sendFile
  cases h with
  | unnamed h =>
    rw [if_pos h, List.append_nil]
    exact ⟨_, _, rfl, rfl⟩
  | unreadable hne h =>
    have hread : (FileStore.readLines command.argument w.around).2.record
        = w.around.record ++ [.readFile command.argument
          (FileStore.readLines command.argument w.around).1] := rfl
    rw [h] at hread
    rw [if_neg hne]
    generalize FileStore.readLines command.argument w.around = out at h hread
    obtain ⟨result, around⟩ := out
    simp only at h hread
    rw [h, ← hread]
    exact ⟨_, _, rfl, rfl⟩

theorem sendFile_of_readable {contents : List Text} {w : Workspace ε} {around : ε}
    (hne : command.argument ≠ [])
    (h : FileStore.readLines command.argument w.around = (.ok contents, around)) (limit : Nat) :
    w.sendFile limit command
      = Workspace.sendLines limit ((contents.map Text.trim).filter (· ≠ []))
        { w with around } := by
  unfold Workspace.sendFile
  simp only [if_neg hne, h]

theorem step_of_sendFile {e : Engine ε} {w : Workspace ε} (hf : e.Fetches top below command)
    (hg : top.gateOpen = true) (ha : command.action = .sendFile) {result : Except ScriptError Unit}
    (h : e.workspace.sendFile e.settings.hexInlineLimit command = (result, w)) :
    (result = .ok () → e.step = .going ((e.past top below w).observe command)) ∧
    ∀ error, result = .error error → e.step = .halted
      (.ended (.failed (w.blame command error)))
      (((e.past top below w).observe command).finish (.failed (w.blame command error))).2 := by
  have hperform : e.workspace.perform e.settings command = Workspace.proceed command (result, w) := by
    unfold Workspace.perform
    simp only [ha, h]
  have hstep := step_of_fetches hf hg
  rw [hperform] at hstep
  constructor
  · rintro rfl
    exact hstep
  · rintro error rfl
    exact hstep.trans (halt_eq _ _)

/-- Sending a file is sending its lines, trimmed and without the blank ones, up to the first that
fails; the run goes on unless one did. Without lines nothing is sent and the host is warned. -/
theorem file_dictated (hf : e.Fetches top below command) (hg : top.gateOpen = true)
    (ha : command.action = .sendFile) :
    (∀ contents around, command.argument ≠ [] →
      FileStore.readLines command.argument e.workspace.around = (.ok contents, around) →
      around.record = e.record ++ [.readFile command.argument (.ok contents)] ∧
      ∃ result left,
        Dictation ((contents.map Text.trim).filter (· ≠ []))
          (e.past top below { e.workspace with around }) (result, left) ∧
        (result = .ok () → e.step = .going (left.observe command)) ∧
        ∀ error, result = .error error → e.step = .halted
          (.ended (.failed (left.workspace.blame command error)))
          ((left.observe command).finish (.failed (left.workspace.blame command error))).2) ∧
    ∀ passed message, Lineless command e.workspace.around passed message →
      ∃ (cancel : Bool) (around : Recorded ε),
        around.record = e.record ++ passed ++ [.notified ⟨.warning, message, false⟩ cancel] ∧
        e.step = .going
          ((e.past top below { e.workspace with around, cancelled := cancel }).observe command) := by
  constructor
  · intro contents around hne hread
    have hrecord : (FileStore.readLines command.argument e.workspace.around).2.record
        = e.record ++ [.readFile command.argument
          (FileStore.readLines command.argument e.workspace.around).1] := rfl
    rw [hread] at hrecord
    refine ⟨hrecord, _, _, dictation_sendLines _ _, ?_⟩
    exact step_of_sendFile hf hg ha (sendFile_of_readable hne hread _)
  · intro passed message h
    obtain ⟨cancel, around, hrecord, hsend⟩ :=
      sendFile_of_lineless h e.settings.hexInlineLimit
    rw [hf.uncancelled, Bool.false_or] at hsend
    exact ⟨cancel, around, hrecord, (step_of_sendFile hf hg ha hsend).1 rfl⟩

/-- About to send a file whose lines are one that can be sent, a blank one, one that cannot be sent
and one behind it. -/
def dictating : Engine Bench :=
  let lines := [" 01 02".toList, [' '], ['z', 'z'], ['0', '3']]
  let e := ((idle {} ⟨⟨{}, MemoryFiles.put ['f'] lines {}, {}⟩, []⟩).call
    (.load [['L', ' ', 'f']])).2.begun
  { e with stack := [{ routine := [] }] }

theorem file_dictated_broken_off :
    let command := Command.textual 'L' [' ', 'f']
    let read := (FileStore.readLines ['f'] dictating.workspace.around).2
    let opened := dictating.past { routine := [] } [] { dictating.workspace with around := read }
    (∃ error left,
      Dictation ["01 02".toList, ['z', 'z'], ['0', '3']] opened (.error error, left) ∧
      dictating.step = .halted (.ended (.failed (left.workspace.blame command error)))
        ((left.observe command).finish (.failed (left.workspace.blame command error))).2) ∧
    ∃ ending last, dictating.step = .halted ending last ∧
      last.workspace.around.writes = [([0x44, 2, 1, 2, terminator], .ok ())] := by
  intro command read opened
  obtain ⟨ending, last, hstep, hwrites⟩ : ∃ ending last, dictating.step = .halted ending last ∧
      last.workspace.around.writes = [([0x44, 2, 1, 2, terminator], .ok ())] :=
    ⟨_, _, rfl, rfl⟩
  have hf : dictating.Fetches { routine := [] } [] command := ⟨rfl, rfl, rfl, rfl⟩
  obtain ⟨hreadable, -⟩ := file_dictated hf rfl rfl
  obtain ⟨-, result, left, hdictation, hok, hfailed⟩ :=
    hreadable [" 01 02".toList, [' '], ['z', 'z'], ['0', '3']] read (by decide) rfl
  refine ⟨?_, ending, last, hstep, hwrites⟩
  cases result with
  | error error => exact ⟨error, left, hdictation, hfailed error rfl⟩
  | ok =>
    rw [hok rfl] at hstep
    cases hstep

end Engine
end BenchScript
