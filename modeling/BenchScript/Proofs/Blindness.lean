import BenchScript.Proofs.Lockstep
import BenchScript.Proofs.Record
import BenchScript.Wire.Stream

set_option autoImplicit false

/-!
# What does not see data

Two scripts may be the same but for the data of their data lines. `SameButData` relates what differs
in no more than that: lines, commands, frames, bytes on the wire, and what passes between an engine
and its surroundings. A relation between surroundings is blind if they answer alike whenever they
are given what is the same but for data. The device behind a stream and the host that keeps a
transcript are related so, and whatever commands do with a workspace keeps it.
-/
namespace BenchScript

/-- Lines of data whose payloads have the same length. A line that has no more than its tag is not
one of them: it is shown as it is. -/
structure DataLines (line line' : Text) : Prop where
  left : ∃ c rest, line = 'D' :: c :: rest
  right : ∃ c rest, line' = 'D' :: c :: rest
  length : ((Command.binary line).payload?.getD []).length
    = ((Command.binary line').payload?.getD []).length

def Text.SameButData (line line' : Text) : Prop := line = line' ∨ DataLines line line'

namespace Command

inductive SameButData : Command → Command → Prop where
  | same (command : Command) : SameButData command command
  | data {line line' : Text} (h : DataLines line line') :
      SameButData (.binary line) (.binary line')

theorem SameButData.line {command command' : Command} (h : command.SameButData command') :
    Text.SameButData command.line command'.line := by
  cases h with
  | same => exact Or.inl rfl
  | data h => exact Or.inr h

theorem SameButData.action_eq {command command' : Command} (h : command.SameButData command') :
    command.action = command'.action := by
  cases h <;> rfl

end Command

namespace Routines

structure SameButData (table table' : Routines) : Prop where
  contains : ∀ name, table.contains name = table'.contains name
  command : ∀ name position,
    Option.Rel Command.SameButData (table.command? name position) (table'.command? name position)

theorem SameButData.refl (table : Routines) : table.SameButData table := by
  refine ⟨fun _ => rfl, fun name position => ?_⟩
  cases table.command? name position with
  | none => exact .none
  | some command => exact .some (.same command)

theorem rel_getElem? {commands commands' : List Command}
    (h : List.Forall₂ Command.SameButData commands commands') (position : Nat) :
    Option.Rel Command.SameButData commands[position]? commands'[position]? := by
  induction h generalizing position with
  | nil => exact .none
  | cons hfirst _ ih =>
    cases position with
    | zero => exact .some hfirst
    | succ position => exact ih position

theorem SameButData.insert {table table' : Routines} (h : table.SameButData table') (name : Text)
    {commands commands' : List Command}
    (hc : List.Forall₂ Command.SameButData commands commands') :
    SameButData (table.insert name commands) (table'.insert name commands') := by
  refine ⟨fun other => ?_, fun other position => ?_⟩
  · have hother := h.contains other
    simp only [Table.contains_eq_isSome, Table.get?_insert] at hother ⊢
    split
    · rfl
    · exact hother
  · have hother := h.command other position
    simp only [command?, Table.get?_insert] at hother ⊢
    split
    · exact rel_getElem? hc position
    · exact hother

end Routines

inductive Frame.SameButData : Frame → Frame → Prop where
  | same (frame : Frame) : SameButData frame frame
  | data {payload payload' : Bytes} (h : payload.length = payload'.length) :
      SameButData (.data payload) (.data payload')

inductive Bytes.SameButData : Bytes → Bytes → Prop where
  | same (bytes : Bytes) : SameButData bytes bytes
  | data {payload payload' bytes bytes' : Bytes} (h : payload.length = payload'.length)
      (hb : (Frame.data payload).encode = .ok bytes)
      (hb' : (Frame.data payload').encode = .ok bytes') : SameButData bytes bytes'

theorem Frame.encode_data_of_le {payload : Bytes} (h : payload.length ≤ maxPayload) :
    (Frame.data payload).encode
      = .ok (asciiByte dataTag :: UInt8.ofNat payload.length :: payload ++ [terminator]) :=
  if_neg (Nat.not_lt.2 h)

theorem Frame.encode_data_of_lt {payload : Bytes} (h : maxPayload < payload.length) :
    (Frame.data payload).encode = .error (.payloadTooLong payload.length) :=
  if_pos h

theorem Frame.length_of_encode_data {payload bytes : Bytes}
    (h : (Frame.data payload).encode = .ok bytes) : bytes.length = payload.length + 3 := by
  rcases Nat.lt_or_ge maxPayload payload.length with hlong | hshort
  · rw [encode_data_of_lt hlong] at h
    cases h
  · rw [encode_data_of_le hshort] at h
    cases h
    simp

theorem Bytes.SameButData.length_eq {bytes bytes' : Bytes} (h : Bytes.SameButData bytes bytes') :
    bytes.length = bytes'.length := by
  cases h with
  | same => rfl
  | data h hb hb' => rw [Frame.length_of_encode_data hb, Frame.length_of_encode_data hb', h]

/-- Whether there is an encoding, and if not what is said of it, is a matter of the length. -/
theorem Frame.SameButData.encode {frame frame' : Frame} (h : frame.SameButData frame') :
    (∃ error, frame.encode = .error error ∧ frame'.encode = .error error) ∨
      ∃ bytes bytes', frame.encode = .ok bytes ∧ frame'.encode = .ok bytes' ∧
        Bytes.SameButData bytes bytes' := by
  cases h with
  | same =>
    cases frame.encode with
    | error error => exact Or.inl ⟨error, rfl, rfl⟩
    | ok bytes => exact Or.inr ⟨bytes, bytes, rfl, rfl, .same bytes⟩
  | @data payload payload' h =>
    rcases Nat.lt_or_ge maxPayload payload.length with hlong | hshort
    · have hlong' : maxPayload < payload'.length := h ▸ hlong
      refine Or.inl ⟨_, encode_data_of_lt hlong, ?_⟩
      rw [encode_data_of_lt hlong', h]
    · have hshort' : payload'.length ≤ maxPayload := h ▸ hshort
      have hb := encode_data_of_le hshort
      have hb' := encode_data_of_le hshort'
      exact Or.inr ⟨_, _, hb, hb', .data h hb hb'⟩

namespace Display

/-- A line of data looks the same whatever the data is. -/
theorem ofLine_data (now : Text) (lookup : Text → Option Text) (c : Char) (rest : Text) :
    ofLine now lookup ('D' :: c :: rest) = fill now lookup ('D' :: ' ' :: binaryPlaceholder) := by
  have hdraft : draft ('D' :: c :: rest) = 'D' :: ' ' :: binaryPlaceholder := by
    unfold draft
    by_cases hc : c = ' '
    · rw [spaceTag, if_pos hc]
      exact if_pos rfl
    · rw [spaceTag, if_neg hc]
      exact if_pos rfl
  unfold ofLine
  rw [if_neg (by simp), hdraft]

theorem ofLine_eq_of_sameButData {line line' : Text} (h : Text.SameButData line line')
    (now : Text) (lookup : Text → Option Text) :
    ofLine now lookup line = ofLine now lookup line' := by
  rcases h with rfl | h
  · rfl
  · obtain ⟨c, rest, rfl⟩ := h.left
    obtain ⟨c', rest', rfl⟩ := h.right
    rw [ofLine_data, ofLine_data]

end Display

structure Observation.SameButData (observation observation' : Observation) : Prop where
  line : Text.SameButData observation.line observation'.line
  row : observation.row = observation'.row
  data : observation.data = observation'.data

inductive Passage.SameButData : Passage → Passage → Prop where
  | same (p : Passage) : SameButData p p
  | wrote {bytes bytes' : Bytes} (h : Bytes.SameButData bytes bytes')
      (result : Except LinkError Unit) : SameButData (.wrote bytes result) (.wrote bytes' result)
  | observed {observation observation' : Observation} (h : observation.SameButData observation')
      (cancels : Bool) :
      SameButData (.observed observation cancels) (.observed observation' cancels)

/-- Devices that give the same replies to lines that are the same but for data. -/
structure Device.Blind {δ : Type} [Device δ] (R : δ → δ → Prop) : Prop where
  write : ∀ {d d' bytes bytes'}, R d d' → Bytes.SameButData bytes bytes' →
    Agree R (Device.write bytes d) (Device.write bytes' d')
  readThrough : ∀ {d d'} stop, R d d' →
    Agree R (Device.readThrough stop d) (Device.readThrough stop d')
  close : ∀ {d d'}, R d d' → R (Device.close d) (Device.close d')

structure Host.Blind {η : Type} [Host η] (R : η → η → Prop) : Prop where
  notify : ∀ {h h'} note, R h h' → Agree R (Host.notify note h) (Host.notify note h')
  observe : ∀ {h h' observation observation'}, R h h' →
    observation.SameButData observation' →
    Agree R (Host.observe observation h) (Host.observe observation' h')
  clock : ∀ {h h'}, R h h' → Host.clock h = Host.clock h'

/-- Surroundings that cannot be told apart by what they answer to an engine, as long as what they
are given differs in data alone. -/
structure Environment.Blind {ε : Type} [Environment ε] (R : ε → ε → Prop) : Prop where
  device : Device.Blind R
  host : Host.Blind R
  readLines : ∀ {s s'} path, R s s' →
    Agree R (FileStore.readLines path s) (FileStore.readLines path s')
  appendLine : ∀ {s s'} path line, R s s' →
    Agree R (FileStore.appendLine path line s) (FileStore.appendLine path line s')

theorem Environment.Blind.alike {ε : Type} [Environment ε] {R : ε → ε → Prop}
    (hR : Environment.Blind R) : Environment.Alike R where
  write bytes h := hR.device.write h (.same bytes)
  readThrough := hR.device.readThrough
  close := hR.device.close
  notify := hR.host.notify
  observe _ h := hR.host.observe h ⟨Or.inl rfl, rfl, rfl⟩
  clock := hR.host.clock

namespace StreamLink

def SameButWritten (link link' : StreamLink) : Prop :=
  ∃ written, link' = { link with written }

/-- How the stream takes bytes depends on how many they are. -/
theorem offer_of_length_eq (acceptances : List Acceptance) {bytes bytes' : Bytes}
    (h : bytes.length = bytes'.length) :
    (offer acceptances bytes).1 = (offer acceptances bytes').1 ∧
      (offer acceptances bytes).2.2 = (offer acceptances bytes').2.2 := by
  induction acceptances generalizing bytes bytes' with
  | nil => cases bytes <;> cases bytes' <;> exact ⟨rfl, rfl⟩
  | cons acceptance later ih =>
    cases bytes with
    | nil =>
      rw [List.length_eq_zero_iff.1 h.symm]
      exact ⟨rfl, rfl⟩
    | cons first rest =>
      cases bytes' with
      | nil => cases h
      | cons first' rest' =>
        cases acceptance with
        | all => exact ⟨rfl, rfl⟩
        | upTo count =>
          have hrest : ((first :: rest).drop count).length
              = ((first' :: rest').drop count).length := by
            rw [List.length_drop, List.length_drop, h]
          simp only [offer]
          split
          · exact ⟨rfl, rfl⟩
          · exact ih hrest
        | fault failure =>
          simp only [offer]
          split
          · exact ih h
          · exact ⟨rfl, rfl⟩

theorem agree_write {link link' : StreamLink} {bytes bytes' : Bytes}
    (h : link.SameButWritten link') (hb : bytes.length = bytes'.length) :
    Agree SameButWritten (link.write bytes) (link'.write bytes') := by
  obtain ⟨written, rfl⟩ := h
  obtain ⟨arrivals, acceptances, flushes, before, buffer, isOpen⟩ := link
  obtain ⟨hresult, hlater⟩ := offer_of_length_eq acceptances hb
  unfold StreamLink.write
  cases isOpen with
  | false => exact ⟨rfl, written, rfl⟩
  | true =>
    simp only [Bool.not_true, Bool.false_eq_true, if_false]
    generalize offer acceptances bytes = outcome at hresult hlater ⊢
    generalize offer acceptances bytes' = outcome' at hresult hlater ⊢
    obtain ⟨result, taken, later⟩ := outcome
    obtain ⟨result', taken', later'⟩ := outcome'
    cases hresult
    cases hlater
    cases result with
    | error error => exact ⟨rfl, _, rfl⟩
    | ok =>
      cases flushes with
      | nil => exact ⟨rfl, _, rfl⟩
      | cons flush flushes => cases flush <;> exact ⟨rfl, _, rfl⟩

theorem agree_readThrough {link link' : StreamLink} (h : link.SameButWritten link') (stop : UInt8) :
    Agree SameButWritten (link.readThrough stop) (link'.readThrough stop) := by
  obtain ⟨written, rfl⟩ := h
  obtain ⟨arrivals, acceptances, flushes, before, buffer, isOpen⟩ := link
  unfold StreamLink.readThrough
  cases isOpen with
  | true => exact ⟨rfl, written, rfl⟩
  | false =>
    simp only [Bool.not_false, if_true]
    generalize buffer.takeThrough stop = outcome
    obtain ⟨line?, rest⟩ := outcome
    cases line? <;> exact ⟨rfl, written, rfl⟩

theorem blind : Device.Blind SameButWritten where
  write h hb := agree_write h hb.length_eq
  readThrough stop h := agree_readThrough h stop
  close h := by
    obtain ⟨written, rfl⟩ := h
    exact ⟨written, rfl⟩

end StreamLink

namespace Transcript

def SameButData (t t' : Transcript) : Prop :=
  ∃ observed, t' = { t with observed } ∧ List.Forall₂ Observation.SameButData t.observed observed

theorem agree_observe {t t' : Transcript} {observation observation' : Observation}
    (h : t.SameButData t') (ho : observation.SameButData observation') :
    Agree SameButData (t.observe observation) (t'.observe observation') := by
  obtain ⟨observed, rfl, hobserved⟩ := h
  obtain ⟨notes, before, cancelAtNote, cancelAtObserved, listens, time⟩ := t
  have hlength : before.length = observed.length := hobserved.length_eq
  unfold Transcript.observe
  cases listens with
  | false => exact ⟨rfl, observed, rfl, hobserved⟩
  | true =>
    refine ⟨?_, observed ++ [observation'], rfl, ?_⟩
    · simp only [if_true, hlength]
    · exact List.rel_append hobserved (.cons ho .nil)

theorem blind : Host.Blind SameButData where
  notify note h := by
    obtain ⟨observed, rfl, hobserved⟩ := h
    exact ⟨rfl, observed, rfl, hobserved⟩
  observe h ho := agree_observe h ho
  clock h := by
    obtain ⟨observed, rfl, hobserved⟩ := h
    rfl

end Transcript

namespace Surroundings

variable {δ φ η : Type}

structure Twin (D : δ → δ → Prop) (H : η → η → Prop) (s s' : Surroundings δ φ η) : Prop where
  device : D s.device s'.device
  files : s.files = s'.files
  host : H s.host s'.host

variable [Device δ] [FileStore φ] [Host η] {D : δ → δ → Prop} {H : η → η → Prop}

theorem blind (hD : Device.Blind D) (hH : Host.Blind H) :
    Environment.Blind (@Twin δ φ η D H) where
  device := {
    write h hb := ⟨(hD.write h.device hb).result, (hD.write h.device hb).state, h.files, h.host⟩
    readThrough stop h :=
      ⟨(hD.readThrough stop h.device).result, (hD.readThrough stop h.device).state, h.files, h.host⟩
    close h := ⟨hD.close h.device, h.files, h.host⟩ }
  host := {
    notify note h :=
      ⟨(hH.notify note h.host).result, h.device, h.files, (hH.notify note h.host).state⟩
    observe h ho :=
      ⟨(hH.observe h.host ho).result, h.device, h.files, (hH.observe h.host ho).state⟩
    clock h := hH.clock h.host }
  readLines {s s'} path h := by
    change Agree _ ((FileStore.readLines path s.files).map id fun files => { s with files })
      ((FileStore.readLines path s'.files).map id fun files => { s' with files })
    rw [h.files]
    exact ⟨rfl, h.device, rfl, h.host⟩
  appendLine {s s'} path line h := by
    change Agree _ ((FileStore.appendLine path line s.files).map id fun files => { s with files })
      ((FileStore.appendLine path line s'.files).map id fun files => { s' with files })
    rw [h.files]
    exact ⟨rfl, h.device, rfl, h.host⟩

end Surroundings

namespace Recorded

variable {ε : Type} {R : ε → ε → Prop} {r r' : Recorded ε}

structure Twin (R : ε → ε → Prop) (r r' : Recorded ε) : Prop where
  around : R r.around r'.around
  record : List.Forall₂ Passage.SameButData r.record r'.record

theorem Twin.keep {β : Type} {passage passage' : β → Passage} {outcome outcome' : β × ε}
    (h : r.Twin R r') (hp : ∀ result, (passage result).SameButData (passage' result))
    (ho : Agree R outcome outcome') :
    Agree (Twin R) (r.keep passage outcome) (r'.keep passage' outcome') := by
  obtain ⟨result, s, s', hs, rfl, rfl⟩ := ho.exists_eq
  exact ⟨rfl, hs, List.rel_append h.record (.cons (hp result) .nil)⟩

theorem Twin.notifications_eq (h : r.Twin R r') : r.notifications = r'.notifications := by
  have hrecord := h.record
  unfold notifications
  generalize r.record = passed at hrecord ⊢
  generalize r'.record = passed' at hrecord ⊢
  induction hrecord with
  | nil => rfl
  | cons hp _ ih =>
    rw [List.filterMap_cons, List.filterMap_cons, ih]
    cases hp <;> rfl

theorem blind [Environment ε] (hR : Environment.Blind R) : Environment.Blind (Twin R) where
  device := {
    write h hb := h.keep (fun result => .wrote hb result) (hR.device.write h.around hb)
    readThrough stop h := h.keep (fun _ => .same _) (hR.device.readThrough stop h.around)
    close h := ⟨hR.device.close h.around, List.rel_append h.record (.cons (.same _) .nil)⟩ }
  host := {
    notify note h := h.keep (fun _ => .same _) (hR.host.notify note h.around)
    observe h ho := h.keep (fun cancels => .observed ho cancels) (hR.host.observe h.around ho)
    clock h := hR.host.clock h.around }
  readLines path h := h.keep (fun _ => .same _) (hR.readLines path h.around)
  appendLine path line h := h.keep (fun _ => .same _) (hR.appendLine path line h.around)

end Recorded
end BenchScript
