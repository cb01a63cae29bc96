import BenchScript.Proofs.Episodes

set_option autoImplicit false

namespace BenchScript

namespace Passage

def isTraffic : Passage → Bool
  | .wrote _ _ | .received _ _ | .closed => true
  | _ => false

def isFault : Passage → Bool
  | .wrote _ (.error _) | .received _ (.error _) => true
  | _ => false

end Passage

def traffic (passed : List Passage) : List Passage := passed.filter Passage.isTraffic

theorem traffic_append (passed passed' : List Passage) :
    traffic (passed ++ passed') = traffic passed ++ traffic passed' := List.filter_append ..

/-- Reads and writes come in pairs. A write that failed stands alone. -/
structure HalfDuplex (passed : List Passage) : Prop where
  read : ∀ before stop result after, passed = before ++ .received stop result :: after →
    stop = terminator ∧ ∃ earlier bytes, before = earlier ++ [.wrote bytes (.ok ())]
  write : ∀ before bytes after, passed = before ++ .wrote bytes (.ok ()) :: after →
    ∃ result later, after = .received terminator result :: later

def FaultLast (passed : List Passage) : Prop :=
  ∀ before p after, passed = before ++ p :: after → p.isFault = true → after = []

def Faultless (passed : List Passage) : Prop := ∀ p ∈ passed, p.isFault = false

theorem FaultLast.nil : FaultLast [] := by
  intro before p after h
  simp at h

theorem Faultless.faultLast {passed : List Passage} (h : Faultless passed) : FaultLast passed := by
  intro before p after hcut hp
  have hmem : p ∈ passed := by simp [hcut]
  rw [h p hmem] at hp
  cases hp

theorem FaultLast.singleton (p : Passage) : FaultLast [p] := by
  intro before q after h _
  cases before with
  | nil => exact (List.cons.inj h).2.symm
  | cons first before => simp at h

theorem Faultless.append {passed passed' : List Passage} (h : Faultless passed)
    (h' : Faultless passed') : Faultless (passed ++ passed') := by
  intro p hp
  rcases List.mem_append.1 hp with hp | hp
  · exact h p hp
  · exact h' p hp

theorem Faultless.append_faultLast {passed passed' : List Passage} (h : Faultless passed)
    (h' : FaultLast passed') : FaultLast (passed ++ passed') := by
  intro before p after hcut hp
  rcases append_eq_append_cons hcut with ⟨rest, hsecond⟩ | ⟨rest, hfirst, -⟩
  · exact h' rest p after hsecond hp
  · have hclean := h p (by simp [hfirst])
    rw [hclean] at hp
    cases hp

namespace HalfDuplex

theorem nil : HalfDuplex [] := by
  constructor
  · intro before stop result after h
    simp at h
  · intro before bytes after h
    simp at h

theorem append {passed passed' : List Passage} (h : HalfDuplex passed) (h' : HalfDuplex passed') :
    HalfDuplex (passed ++ passed') := by
  constructor
  · intro before stop result after hcut
    rcases append_eq_append_cons hcut with ⟨rest, hsecond⟩ | ⟨rest, hfirst, -⟩
    · obtain ⟨hstop, earlier, bytes, hrest⟩ := h'.read rest stop result after hsecond
      have hbefore : before = passed ++ rest := by
        rw [hsecond, ← List.append_assoc] at hcut
        exact (List.append_cancel_right hcut).symm
      refine ⟨hstop, passed ++ earlier, bytes, ?_⟩
      rw [hbefore, hrest, List.append_assoc]
    · exact h.read before stop result rest hfirst
  · intro before bytes after hcut
    rcases append_eq_append_cons hcut with ⟨rest, hsecond⟩ | ⟨rest, hfirst, hafter⟩
    · exact h'.write rest bytes after hsecond
    · obtain ⟨result, later, hrest⟩ := h.write before bytes rest hfirst
      refine ⟨result, later ++ passed', ?_⟩
      rw [hafter, hrest]
      rfl

/-- A single use of the device that is neither a read nor a write that succeeded. -/
theorem single {p : Passage} (hr : ∀ stop result, p ≠ .received stop result)
    (hw : ∀ bytes, p ≠ .wrote bytes (.ok ())) : HalfDuplex [p] := by
  constructor
  · intro before stop result after h
    cases before with
    | nil => exact absurd (List.cons.inj h).1 (hr stop result)
    | cons first before => simp at h
  · intro before bytes after h
    cases before with
    | nil => exact absurd (List.cons.inj h).1 (hw bytes)
    | cons first before => simp at h

theorem pair (bytes : Bytes) (result : Except LinkError Bytes) :
    HalfDuplex [.wrote bytes (.ok ()), .received terminator result] := by
  constructor
  · intro before stop result' after h
    match before, h with
    | [], h => cases h
    | [first], h =>
      obtain ⟨hfirst, hrest⟩ := List.cons.inj h
      cases hrest
      exact ⟨rfl, [], bytes, by rw [← hfirst]; rfl⟩
    | _ :: _ :: before, h => simp at h
  · intro before bytes' after h
    match before, h with
    | [], h => exact ⟨result, [], (List.cons.inj h).2.symm⟩
    | [_], h => cases (List.cons.inj h).2
    | _ :: _ :: before, h => simp at h

end HalfDuplex

/-- What the device sees of frames that are sent in order, up to the first that fails. The truth
value says whether all of them were answered. -/
inductive Exchanges : List (Except LinkError Frame) → List Passage → Bool → Prop where
  | none : Exchanges [] [] true
  | unformed {frame : Except LinkError Frame} {later : List (Except LinkError Frame)}
      {e : LinkError} (h : frame.bind Frame.encode = .error e) :
      Exchanges (frame :: later) [] false
  | unwritten {frame : Except LinkError Frame} {later : List (Except LinkError Frame)}
      {bytes : Bytes} (h : frame.bind Frame.encode = .ok bytes) (e : LinkError) :
      Exchanges (frame :: later) [.wrote bytes (.error e)] false
  | unanswered {frame : Except LinkError Frame} {later : List (Except LinkError Frame)}
      {bytes : Bytes} (h : frame.bind Frame.encode = .ok bytes) (e : LinkError) :
      Exchanges (frame :: later) [.wrote bytes (.ok ()), .received terminator (.error e)] false
  | answered {frame : Except LinkError Frame} {later : List (Except LinkError Frame)}
      {bytes : Bytes} {passed : List Passage} {intact : Bool}
      (h : frame.bind Frame.encode = .ok bytes) (line : Bytes)
      (rest : Exchanges later passed intact) :
      Exchanges (frame :: later)
        (.wrote bytes (.ok ()) :: .received terminator (.ok line) :: passed) intact

namespace Exchanges

variable {frames : List (Except LinkError Frame)} {passed : List Passage} {intact : Bool}

theorem halfDuplex (h : Exchanges frames passed intact) : HalfDuplex passed := by
  induction h with
  | none | unformed => exact .nil
  | unwritten => exact .single (by simp) (by simp)
  | unanswered => exact .pair _ _
  | answered _ line _ ih => exact (HalfDuplex.pair _ _).append ih

theorem faultLast (h : Exchanges frames passed intact) : FaultLast passed := by
  induction h with
  | none | unformed => exact .nil
  | unwritten => exact .singleton _
  | @unanswered _ _ bytes _ e =>
    have hwritten : Faultless [.wrote bytes (.ok ())] := by simp [Faultless, Passage.isFault]
    exact hwritten.append_faultLast (.singleton _)
  | @answered _ _ bytes _ _ _ line _ ih =>
    have hpair : Faultless [.wrote bytes (.ok ()), .received terminator (.ok line)] := by
      simp [Faultless, Passage.isFault]
    exact hpair.append_faultLast ih

theorem faultless (h : Exchanges frames passed intact) (hi : intact = true) :
    Faultless passed := by
  induction h with
  | none => nofun
  | unformed | unwritten | unanswered => cases hi
  | @answered _ _ bytes _ _ _ line _ ih =>
    have hpair : Faultless [.wrote bytes (.ok ()), .received terminator (.ok line)] := by
      simp [Faultless, Passage.isFault]
    exact hpair.append (ih hi)

end Exchanges

/-- What the device sees of groups of frames. A group is over with its first failure. -/
inductive Traffic : List (List (Except LinkError Frame)) → List Passage → Prop where
  | none : Traffic [] []
  | closed {groups : List (List (Except LinkError Frame))} {passed : List Passage}
      (rest : Traffic groups passed) : Traffic groups (.closed :: passed)
  | sent {frames : List (Except LinkError Frame)} {groups : List (List (Except LinkError Frame))}
      {part passed : List Passage} {intact : Bool} (h : Exchanges frames part intact)
      (rest : Traffic groups passed) : Traffic (frames :: groups) (part ++ passed)

namespace Traffic

variable {groups groups' : List (List (Except LinkError Frame))} {passed passed' : List Passage}

theorem append (h : Traffic groups passed) (h' : Traffic groups' passed') :
    Traffic (groups ++ groups') (passed ++ passed') := by
  induction h with
  | none => exact h'
  | closed _ ih => exact .closed ih
  | sent hsent _ ih =>
    rw [List.append_assoc]
    exact .sent hsent ih

theorem halfDuplex (h : Traffic groups passed) : HalfDuplex passed := by
  induction h with
  | none => exact .nil
  | closed _ ih => exact (HalfDuplex.single (by simp) (by simp)).append ih
  | sent hsent _ ih => exact hsent.halfDuplex.append ih

end Traffic

namespace Workspace

section Outgoing

variable {ε : Type} [Environment ε]

def outgoingLine (command : Command) (frame : Text → Except LinkError Frame) (w : Workspace ε) :
    List (Except LinkError Frame) :=
  match w.bindings.expand command.line with
  | .ok line => [frame line]
  | .error _ => []

def fileLines (command : Command) (w : Workspace ε) : List Text :=
  if command.argument = [] then []
  else
    match (FileStore.readLines command.argument w.around).1 with
    | .ok lines => (lines.map Text.trim).filter (· ≠ [])
    | .error _ => []

def outgoing (settings : Settings) (command : Command) (w : Workspace ε) :
    List (Except LinkError Frame) :=
  match command.action with
  | .data => [.ok (.data (command.payload?.getD []))]
  | .hex => w.outgoingLine command (hexFrame settings.hexInlineLimit)
  | .sendFile => (w.fileLines command).map (hexFrame settings.hexInlineLimit)
  | .checksum =>
    w.outgoingLine command (checksumFrame settings.hexInlineLimit w.lastRow w.lastData)
  | .forward _ => w.outgoingLine command fun line => .ok (.text line)
  | _ => []

/-- A frame that cannot be formed or has no encoding reaches nobody. -/
theorem sendAny_of_error {frame : Except LinkError Frame} {e : LinkError}
    (h : frame.bind Frame.encode = .error e) (w : Workspace ε) :
    w.sendAny frame = (.error (.ofLink e), w) := by
  cases frame with
  | error e' =>
    cases h
    rfl
  | ok frame =>
    have hexchange := exchange_of_encode_error h w.around
    simp only [sendAny, send, hexchange]

end Outgoing

variable {ε : Type} [Environment ε] {w w' w'' : Workspace (Recorded ε)}
  {frames : List (Except LinkError Frame)} {intact : Bool}

def Trades (frames : List (Except LinkError Frame)) (intact : Bool)
    (w w' : Workspace (Recorded ε)) : Prop :=
  ∃ passed, w'.around.record = w.around.record ++ passed ∧
    Exchanges frames (traffic passed) intact

def Offline (w w' : Workspace (Recorded ε)) : Prop :=
  ∃ passed, w'.around.record = w.around.record ++ passed ∧ traffic passed = []

omit [Environment ε] in
theorem Offline.of_eq (h : w'.around.record = w.around.record) : w.Offline w' :=
  ⟨[], by rw [h, List.append_nil], rfl⟩

omit [Environment ε] in
theorem Offline.trans (h : w.Offline w') (h' : w'.Offline w'') : w.Offline w'' := by
  obtain ⟨passed, hrecord, hnone⟩ := h
  obtain ⟨passed', hrecord', hnone'⟩ := h'
  refine ⟨passed ++ passed', ?_, ?_⟩
  · rw [hrecord', hrecord, List.append_assoc]
  · rw [traffic_append, hnone, hnone', List.nil_append]

omit [Environment ε] in
theorem Offline.trades (h : w.Offline w') : Trades [] true w w' := by
  obtain ⟨passed, hrecord, hnone⟩ := h
  refine ⟨passed, hrecord, ?_⟩
  rw [hnone]
  exact .none

omit [Environment ε] in
theorem Trades.offline (h : Trades frames intact w w') (h' : w'.Offline w'') :
    Trades frames intact w w'' := by
  obtain ⟨passed, hrecord, hpassed⟩ := h
  obtain ⟨passed', hrecord', hnone⟩ := h'
  refine ⟨passed ++ passed', ?_, ?_⟩
  · rw [hrecord', hrecord, List.append_assoc]
  · rw [traffic_append, hnone, List.append_nil]
    exact hpassed

omit [Environment ε] in
theorem Offline.then_trades (h : w.Offline w') (h' : Trades frames intact w' w'') :
    Trades frames intact w w'' := by
  obtain ⟨passed, hrecord, hnone⟩ := h
  obtain ⟨passed', hrecord', hpassed⟩ := h'
  refine ⟨passed ++ passed', ?_, ?_⟩
  · rw [hrecord', hrecord, List.append_assoc]
  · rw [traffic_append, hnone, List.nil_append]
    exact hpassed

theorem offline_notify (note : Notification) (w : Workspace (Recorded ε)) :
    w.Offline (w.notify note) :=
  ⟨_, rfl, rfl⟩

theorem offline_observe (command : Command) (w : Workspace (Recorded ε)) :
    w.Offline (w.observe command) :=
  ⟨_, rfl, rfl⟩

/-- What becomes of one frame, and with it of the frames behind it. -/
theorem Sent.trades {frame : Except LinkError Frame}
    {outcome : Except ScriptError Unit × Workspace (Recorded ε)} (h : Sent frame w outcome) :
    (outcome.1 = .ok () ∧ ∃ bytes line, frame.bind Frame.encode = .ok bytes ∧
      outcome.2.around.record = w.around.record
        ++ [.wrote bytes (.ok ()), .received terminator (.ok line)]) ∨
    (∃ e, outcome.1 = .error e) ∧ ∀ later, Trades (frame :: later) false w outcome.2 := by
  cases h with
  | unformed h =>
    exact Or.inr ⟨⟨_, rfl⟩, fun later => ⟨[], (List.append_nil _).symm, .unformed h⟩⟩
  | unwritten h hr => exact Or.inr ⟨⟨_, rfl⟩, fun later => ⟨_, hr, .unwritten h _⟩⟩
  | unanswered h hr => exact Or.inr ⟨⟨_, rfl⟩, fun later => ⟨_, hr, .unanswered h _⟩⟩
  | answered h _ hr => exact Or.inl ⟨rfl, _, _, h, hr⟩

def Sends (frames : List (Except LinkError Frame)) (w : Workspace (Recorded ε))
    (outcome : Except ScriptError Unit × Workspace (Recorded ε)) : Prop :=
  Trades frames outcome.1.isOk w outcome.2

theorem sends_sendAny (frame : Except LinkError Frame) (w : Workspace (Recorded ε)) :
    Sends [frame] w (w.sendAny frame) := by
  unfold Sends
  rcases (sent_sendAny frame w).trades with
    ⟨hok, bytes, line, hbytes, hrecord⟩ | ⟨⟨e, herror⟩, hfails⟩
  · rw [hok]
    exact ⟨_, hrecord, .answered hbytes line .none⟩
  · rw [herror]
    exact hfails []

theorem sends_sendLines (limit : Nat) (lines : List Text) (w : Workspace (Recorded ε)) :
    Sends (lines.map (hexFrame limit)) w (sendLines limit lines w) := by
  induction lines generalizing w with
  | nil => exact (Offline.of_eq rfl).trades
  | cons line rest ih =>
    have hline := (sent_sendAny (hexFrame limit line) w).trades
    rw [sendLines, List.map_cons]
    unfold sendDigits
    generalize w.sendAny (hexFrame limit line) = outcome at hline
    obtain ⟨result, w'⟩ := outcome
    rcases hline with ⟨hok, bytes, answer, hbytes, hrecord⟩ | ⟨⟨e, herror⟩, hfails⟩
    · simp only at hok
      subst hok
      obtain ⟨passed, hrest, hpassed⟩ := ih w'
      have hexchanged := Exchanges.answered hbytes answer hpassed
      refine ⟨.wrote bytes (.ok ()) :: .received terminator (.ok answer) :: passed, ?_, hexchanged⟩
      rw [hrest, hrecord, List.append_assoc]
      rfl
    · simp only at herror
      subst herror
      exact hfails _

theorem sends_sendFile (limit : Nat) (command : Command) (w : Workspace (Recorded ε)) :
    Sends ((w.fileLines command).map (hexFrame limit)) w (w.sendFile limit command) := by
  unfold sendFile fileLines
  by_cases hpath : command.argument = []
  · simp only [if_pos hpath]
    exact (offline_notify _ w).trades
  · have hread : w.Offline
        { w with around := (FileStore.readLines command.argument w.around).2 } :=
      ⟨_, rfl, rfl⟩
    simp only [if_neg hpath]
    generalize FileStore.readLines command.argument w.around = out at hread
    obtain ⟨result, around⟩ := out
    cases result with
    | error cause => exact hread.trades.offline (offline_notify _ _)
    | ok lines => exact hread.then_trades (sends_sendLines limit _ _)

theorem offline_appendRow (defaultOutput : Option Text) (command : Command)
    (w : Workspace (Recorded ε)) : w.Offline (w.appendRow defaultOutput command) := by
  unfold appendRow
  simp only
  generalize (if command.argument = [] then defaultOutput else some command.argument) = path?
  cases path? with
  | none => exact offline_notify _ w
  | some path =>
    have happend : (FileStore.appendLine path w.lastRow w.around).2.record = w.around.record
        ++ [.appended path w.lastRow (FileStore.appendLine path w.lastRow w.around).1] := rfl
    simp only
    generalize FileStore.appendLine path w.lastRow w.around = out at happend
    obtain ⟨result, around⟩ := out
    cases result with
    | error cause =>
      have happended : w.Offline { w with around } := ⟨_, happend, rfl⟩
      exact happended.trans (offline_notify _ _)
    | ok => exact ⟨_, happend, rfl⟩

/-- What a command did with the device. Unless it stops the run, all its frames were answered. -/
def Delivers (frames : List (Except LinkError Frame)) (w : Workspace (Recorded ε))
    (outcome : Verdict × Workspace (Recorded ε)) : Prop :=
  ∃ intact, Trades frames intact w outcome.2 ∧
    ((∀ ending, outcome.1 ≠ .stop ending) → intact = true)

omit [Environment ε] in
theorem Offline.delivers {outcome : Verdict × Workspace (Recorded ε)} (h : w.Offline outcome.2) :
    Delivers [] w outcome :=
  ⟨true, h.trades, fun _ => rfl⟩

theorem Sends.proceed {outcome : Except ScriptError Unit × Workspace (Recorded ε)}
    (h : Sends frames w outcome) (command : Command) :
    Delivers frames w (proceed command outcome) := by
  obtain ⟨result, w'⟩ := outcome
  cases result with
  | ok => exact ⟨true, h, fun _ => rfl⟩
  | error e => exact ⟨false, h, fun hgoes => absurd rfl (hgoes _)⟩

theorem delivers_withLine {action : Text → Except ScriptError Unit × Workspace (Recorded ε)}
    {frame : Text → Except LinkError Frame} (command : Command)
    (h : ∀ line, Sends [frame line] w (action line)) :
    Delivers (w.outgoingLine command frame) w (withLine command w action) := by
  unfold outgoingLine withLine
  cases w.bindings.expand command.line with
  | ok line => exact (h line).proceed command
  | error e => exact (Offline.of_eq rfl).delivers

theorem delivers_perform (settings : Settings) (command : Command) (w : Workspace (Recorded ε)) :
    Delivers (w.outgoing settings command) w (w.perform settings command) := by
  unfold perform outgoing
  cases ha : command.action with
  | condition | jump | quit | routine => exact (Offline.of_eq rfl).delivers
  | define =>
    simp only
    split
    · exact (Offline.of_eq rfl).delivers
    · next bindings _ => exact Offline.delivers ⟨_, rfl, rfl⟩
  | data => exact (sends_sendAny (.ok _) w).proceed command
  | hex | checksum => exact delivers_withLine command fun line => sends_sendAny _ w
  | sendFile => exact (sends_sendFile _ command w).proceed command
  | message | ask => exact (offline_notify _ w).delivers
  | append => exact (offline_appendRow _ command w).delivers
  | forward => exact delivers_withLine command fun line => sends_sendAny (.ok _) w

end Workspace
end BenchScript
