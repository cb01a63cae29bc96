import BenchScript.Proofs.Passages
import BenchScript.Proofs.Recognition
import BenchScript.Wire.Checksum

set_option autoImplicit false

namespace BenchScript

theorem checksum_cons (b : UInt8) (bytes : Bytes) :
    checksum (b :: bytes) = b ^^^ checksum bytes := by
  have hfirst : checksum [b] = b := UInt8.zero_xor
  rw [← List.singleton_append, checksum_append, hfirst]

/-- Whatever surrounds them, two bytes change the checksum by what they differ in. -/
theorem checksum_change (before after : Bytes) (x y : UInt8) :
    checksum (before ++ x :: after) ^^^ checksum (before ++ y :: after) = x ^^^ y := by
  rw [checksum_append, checksum_append, checksum_cons, checksum_cons]
  calc
    checksum before ^^^ (x ^^^ checksum after) ^^^ (checksum before ^^^ (y ^^^ checksum after))
      = checksum before ^^^ checksum before ^^^ (checksum after ^^^ checksum after) ^^^ (x ^^^ y) :=
        by ac_rfl
    _ = x ^^^ y := by rw [UInt8.xor_self, UInt8.xor_self, UInt8.zero_xor, UInt8.zero_xor]

theorem xor_eq_xor_iff {a b c d : UInt8} : a ^^^ c = b ^^^ d ↔ c ^^^ d = a ^^^ b := by
  rw [← UInt8.xor_eq_zero_iff, ← UInt8.xor_eq_zero_iff (a := c ^^^ d)]
  have hsame : a ^^^ c ^^^ (b ^^^ d) = c ^^^ d ^^^ (a ^^^ b) := by ac_rfl
  rw [hsame]

namespace Response

/-- The data of the response that a line with this body is read as. -/
def dataOf (body : Bytes) : Bytes := (framePayload? body).getD []

def sumOf (body : Bytes) : UInt8 :=
  checksum (Utf8.encode (Utf8.decodeLenient body)) ^^^ checksum (dataOf body)

variable {body before after : Bytes} {x y : UInt8}

theorem sumOf_of_valid (h : (Utf8.decode? body).isSome = true) :
    sumOf body = checksum body ^^^ checksum (dataOf body) := by
  rw [sumOf, Utf8.encode_decodeLenient (Utf8.none_not_mem_scan h)]

theorem sumOf_eq_iff (hx : (Utf8.decode? (before ++ x :: after)).isSome = true)
    (hy : (Utf8.decode? (before ++ y :: after)).isSome = true) :
    sumOf (before ++ x :: after) = sumOf (before ++ y :: after)
      ↔ checksum (dataOf (before ++ x :: after)) ^^^ checksum (dataOf (before ++ y :: after))
        = x ^^^ y := by
  rw [sumOf_of_valid hx, sumOf_of_valid hy, xor_eq_xor_iff, checksum_change]

/-- Without data every change is noticed. -/
theorem sumOf_ne (hne : x ≠ y) (hx : (Utf8.decode? (before ++ x :: after)).isSome = true)
    (hy : (Utf8.decode? (before ++ y :: after)).isSome = true)
    (hnone : dataOf (before ++ x :: after) = []) (hnone' : dataOf (before ++ y :: after) = []) :
    sumOf (before ++ x :: after) ≠ sumOf (before ++ y :: after) := by
  rw [Ne, sumOf_eq_iff hx hy, hnone, hnone']
  exact fun hsame => hne (UInt8.xor_eq_zero_iff.1 hsame.symm)

/-- The payload of a frame is in the row and in the data, and takes itself out of the sum. -/
theorem sumOf_frame (h : (Utf8.decode? body).isSome = true) (hdata : dataOf body ≠ []) :
    ∃ tag payload, body = frameBody tag payload ∧
      sumOf body = asciiByte tag ^^^ UInt8.ofNat payload.length := by
  obtain ⟨payload, hshape⟩ : ∃ payload, framePayload? body = some payload := by
    cases hcase : framePayload? body with
    | none => exact absurd (by rw [dataOf, hcase]; rfl) hdata
    | some payload => exact ⟨payload, rfl⟩
  obtain ⟨-, tag, -, hbody⟩ := eq_frameBody_of_framePayload? hshape
  refine ⟨tag, payload, hbody, ?_⟩
  rw [sumOf_of_valid h, dataOf, hshape, hbody, frameBody, checksum_cons, checksum_cons,
    Option.getD_some, UInt8.xor_assoc, UInt8.xor_assoc, UInt8.xor_self, UInt8.xor_zero]

/-- Between two frames it is the tag alone that is noticed. -/
theorem sumOf_ne_iff_of_frames (hne : x ≠ y)
    (hx : (Utf8.decode? (before ++ x :: after)).isSome = true)
    (hy : (Utf8.decode? (before ++ y :: after)).isSome = true)
    (hdata : dataOf (before ++ x :: after) ≠ []) (hdata' : dataOf (before ++ y :: after) ≠ []) :
    sumOf (before ++ x :: after) ≠ sumOf (before ++ y :: after) ↔ before = [] := by
  obtain ⟨tag, payload, hbody, hsum⟩ := sumOf_frame hx hdata
  obtain ⟨tag', payload', hbody', hsum'⟩ := sumOf_frame hy hdata'
  have hlength : payload.length = payload'.length := by
    have hlong := congrArg List.length hbody
    have hlong' := congrArg List.length hbody'
    simp only [frameBody, List.length_append, List.length_cons] at hlong hlong'
    omega
  rw [hsum, hsum', hlength, Ne, UInt8.xor_left_inj]
  cases before with
  | nil =>
    have hfirst : x = asciiByte tag := (List.cons.inj hbody).1
    have hfirst' : y = asciiByte tag' := (List.cons.inj hbody').1
    rw [← hfirst, ← hfirst']
    exact iff_of_true hne rfl
  | cons first before =>
    have hfirst : first = asciiByte tag := (List.cons.inj hbody).1
    have hfirst' : first = asciiByte tag' := (List.cons.inj hbody').1
    exact iff_of_false (fun htags => htags (hfirst.symm.trans hfirst')) (List.cons_ne_nil _ _)

end Response

namespace Workspace

variable {ε : Type} [Environment ε]

theorem sendChecksum_bare (limit : Nat) {text : Text} (hbare : (Text.trim text).length = 1)
    (w : Workspace (Recorded ε)) :
    ∃ result later, (w.sendChecksum limit text).2.around.record = w.around.record
      ++ .wrote [0x58, 1, checksum (Utf8.encode w.lastRow) ^^^ checksum w.lastData, 0x0A] result
        :: later := by
  have hframe : checksumFrame limit w.lastRow w.lastData text
      = .ok (.checksum (checksum (Utf8.encode w.lastRow) ^^^ checksum w.lastData)) := if_pos hbare
  have hsent := sent_sendAny (checksumFrame limit w.lastRow w.lastData text) w
  change Sent _ w (w.sendChecksum limit text) at hsent
  rw [hframe] at hsent
  generalize w.sendChecksum limit text = outcome at hsent
  cases hsent with
  | unformed h => cases h
  | unwritten h hr =>
    cases h
    exact ⟨_, _, hr⟩
  | unanswered h hr =>
    cases h
    exact ⟨_, _, hr⟩
  | answered h _ hr =>
    cases h
    exact ⟨_, _, hr⟩

end Workspace

namespace Engine

variable {ε : Type} [Environment ε] {e e' : Engine (Recorded ε)}

def HasAnswer (body : Bytes) (e : Engine (Recorded ε)) : Prop :=
  ∃ (start : Workspace (Recorded ε)) (frame : Frame) (request : Bytes),
    e.workspace = (start.send frame).2 ∧
    e.record = start.around.record
      ++ [.wrote request (.ok ()), .received terminator (.ok (body ++ [terminator]))]

/-- Asked for a checksum, by a call or in a script, the engine sends this one. -/
structure SendsSum (sum : UInt8) (e : Engine (Recorded ε)) : Prop where
  call : ∀ text, (Text.trim text).length = 1 →
    ∃ result later, (e.sendChecksum text).2.record
      = e.record ++ .wrote [0x58, 1, sum, 0x0A] result :: later
  command : ∀ (command : Command) (line : Text), command.action = .checksum →
    e.workspace.bindings.expand command.line = .ok line → (Text.trim line).length = 1 →
    ∃ result later, (e.workspace.perform e.settings command).2.around.record
      = e.record ++ .wrote [0x58, 1, sum, 0x0A] result :: later

theorem sendsSum (e : Engine (Recorded ε)) :
    e.SendsSum (checksum (Utf8.encode e.workspace.lastRow) ^^^ checksum e.workspace.lastData) := by
  constructor
  · intro text hbare
    exact Workspace.sendChecksum_bare _ hbare e.workspace
  · intro command line haction hline hbare
    have hsent := Workspace.sendChecksum_bare e.settings.hexInlineLimit hbare e.workspace
    simp only [Workspace.perform, haction, Workspace.withLine, hline]
    generalize e.workspace.sendChecksum e.settings.hexInlineLimit line = outcome at hsent ⊢
    obtain ⟨result, w⟩ := outcome
    cases result <;> exact hsent

theorem HasAnswer.lastRow_lastData {body : Bytes} (h : e.HasAnswer body) :
    e.workspace.lastRow = Utf8.decodeLenient body ∧
      e.workspace.lastData = Response.dataOf body := by
  obtain ⟨start, frame, request, hworkspace, hrecord⟩ := h
  have hsent := Workspace.sent_sendAny (.ok frame) start
  change Workspace.Sent _ start (start.send frame) at hsent
  unfold record at hrecord
  rw [hworkspace] at hrecord ⊢
  generalize start.send frame = outcome at hsent hrecord
  cases hsent with
  | unformed => simp at hrecord
  | unwritten _ hr =>
    rw [hr, List.append_cancel_left_eq] at hrecord
    cases hrecord
  | unanswered _ hr =>
    rw [hr, List.append_cancel_left_eq] at hrecord
    cases hrecord
  | answered _ _ hr =>
    rw [hr, List.append_cancel_left_eq] at hrecord
    cases hrecord
    rw [ofLine_terminated]
    exact ⟨rfl, rfl⟩

theorem HasAnswer.sendsSum {body : Bytes} (h : e.HasAnswer body) :
    e.SendsSum (Response.sumOf body) := by
  have hsum := e.sendsSum
  rw [h.lastRow_lastData.1, h.lastRow_lastData.2] at hsum
  exact hsum

/-- After answers that differ in one byte, the checksums are the same exactly if the data make up
for the difference. So they are different if neither answer has data. If both have, a different tag
is noticed and a different payload is not. -/
theorem checksums_tell_apart {before after : Bytes} {x y : UInt8} (hne : x ≠ y)
    (hx : (Utf8.decode? (before ++ x :: after)).isSome = true)
    (hy : (Utf8.decode? (before ++ y :: after)).isSome = true)
    (h : e.HasAnswer (before ++ x :: after)) (h' : e'.HasAnswer (before ++ y :: after)) :
    ∃ sum sum', e.SendsSum sum ∧ e'.SendsSum sum' ∧
      (sum = sum'
        ↔ checksum e.workspace.lastData ^^^ checksum e'.workspace.lastData = x ^^^ y) ∧
      (e.workspace.lastData = [] → e'.workspace.lastData = [] → sum ≠ sum') ∧
      (e.workspace.lastData ≠ [] → e'.workspace.lastData ≠ [] → (sum ≠ sum' ↔ before = [])) := by
  rw [h.lastRow_lastData.2, h'.lastRow_lastData.2]
  exact ⟨_, _, h.sendsSum, h'.sendsSum, Response.sumOf_eq_iff hx hy, Response.sumOf_ne hne hx hy,
    Response.sumOf_ne_iff_of_frames hne hx hy⟩

def answered (body : Bytes) : Engine Bench :=
  ((idle {} ⟨⟨.ofReplies [body], {}, {}⟩, []⟩).sendDigits ['0', '0']).2

theorem hasAnswer_answered {body : Bytes} (h : terminator ∉ body) :
    (answered body).HasAnswer body := by
  have hreply : terminated body = body ++ [terminator] := by
    unfold terminated
    rw [if_neg fun hlast => h (List.mem_of_getLast? hlast)]
  refine ⟨⟨⟨⟨.ofReplies [body], {}, {}⟩, []⟩, Table.empty, [], [], false⟩, .data [0],
    [0x44, 1, 0, 0x0A], rfl, ?_⟩
  rw [← hreply]
  rfl

theorem checksums_tell_apart_letters :
    (Utf8.decode? [0x41]).isSome = true ∧ (Utf8.decode? [0x42]).isSome = true ∧
      (answered [0x41]).HasAnswer [0x41] ∧ (answered [0x42]).HasAnswer [0x42] ∧
      ∃ sum sum', (answered [0x41]).SendsSum sum ∧ (answered [0x42]).SendsSum sum' ∧
        sum ≠ sum' := by
  have hfirst : (answered [0x41]).HasAnswer [0x41] := hasAnswer_answered (by decide)
  have hsecond : (answered [0x42]).HasAnswer [0x42] := hasAnswer_answered (by decide)
  have hne : (0x41 : UInt8) ≠ 0x42 := by decide
  have hvalid : (Utf8.decode? [0x41]).isSome = true := rfl
  have hvalid' : (Utf8.decode? [0x42]).isSome = true := rfl
  obtain ⟨sum, sum', hsum, hsum', -, htexts, -⟩ :=
    @checksums_tell_apart _ _ (answered [0x41]) (answered [0x42]) [] [] 0x41 0x42 hne hvalid hvalid'
      hfirst hsecond
  exact ⟨hvalid, hvalid', hfirst, hsecond, sum, sum', hsum, hsum', htexts rfl rfl⟩

/-- The payloads of two frames are not told apart. -/
theorem checksums_miss_payload :
    (Utf8.decode? [0x44, 1, 0x61]).isSome = true ∧ (Utf8.decode? [0x44, 1, 0x62]).isSome = true ∧
      (answered [0x44, 1, 0x61]).HasAnswer [0x44, 1, 0x61] ∧
      (answered [0x44, 1, 0x62]).HasAnswer [0x44, 1, 0x62] ∧
      (answered [0x44, 1, 0x61]).SendsSum 0x45 ∧ (answered [0x44, 1, 0x62]).SendsSum 0x45 := by
  have hfirst : (answered [0x44, 1, 0x61]).HasAnswer [0x44, 1, 0x61] :=
    hasAnswer_answered (by decide)
  have hsecond : (answered [0x44, 1, 0x62]).HasAnswer [0x44, 1, 0x62] :=
    hasAnswer_answered (by decide)
  exact ⟨rfl, rfl, hfirst, hsecond, hfirst.sendsSum, hsecond.sendsSum⟩

end Engine
end BenchScript
