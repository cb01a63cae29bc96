import BenchScript.Proofs.Framing
import BenchScript.Proofs.Standins
import BenchScript.Wire.Canned
import Mathlib.Data.List.Basic

set_option autoImplicit false

/-!
# Rehearsing with canned replies

A device with canned replies stands in for one behind a stream that brings the same replies one
after the other, however they are cut into reads, and takes all that is written. The queue of
replies and the line buffer are related by what the link has still to deliver: the replies left, and
whatever comes after them.
-/
namespace BenchScript

inductive Arrival.Bring : List Arrival → Bytes → Prop where
  | none : Bring [] []
  | piece {data bytes : Bytes} {later : List Arrival} (h : data ≠ []) (rest : Bring later bytes) :
      Bring (.bytes data :: later) (data ++ bytes)
  | interrupted {failure : IoFault} {bytes : Bytes} {later : List Arrival}
      (h : failure.kind = .interrupted) (rest : Bring later bytes) :
      Bring (.fault failure :: later) bytes

open Arrival (itemsOf)

theorem itemsOf_of_bring {arrivals : List Arrival} {bytes : Bytes}
    (h : Arrival.Bring arrivals bytes) : itemsOf arrivals = bytes.map .byte := by
  induction h with
  | none => rfl
  | piece h _ ih => rw [Arrival.itemsOf_cons, Arrival.items_bytes h, ih, List.map_append]
  | interrupted h _ ih =>
    rw [Arrival.itemsOf_cons, Arrival.items, if_pos h, ih]
    rfl

def Acceptance.Takes : Acceptance → Prop
  | .all => True
  | .upTo count => count ≠ 0
  | .fault failure => failure.kind = .interrupted

namespace StreamLink

/-- All bytes are taken in the end, in order. -/
theorem offer_of_takes {acceptances : List Acceptance} (h : ∀ a ∈ acceptances, a.Takes)
    (bytes : Bytes) :
    ∃ taken later, offer acceptances bytes = (.ok (), taken, later) ∧ taken.flatten = bytes ∧
      ∀ a ∈ later, a.Takes := by
  induction acceptances generalizing bytes with
  | nil =>
    cases bytes with
    | nil => exact ⟨[], [], rfl, rfl, h⟩
    | cons b rest => exact ⟨[b :: rest], [], rfl, List.flatten_singleton, h⟩
  | cons acceptance later ih =>
    obtain ⟨htakes, hlater⟩ := List.forall_mem_cons.1 h
    cases bytes with
    | nil => exact ⟨[], acceptance :: later, rfl, rfl, h⟩
    | cons b rest =>
      cases acceptance with
      | all => exact ⟨[b :: rest], later, rfl, List.flatten_singleton, hlater⟩
      | upTo count =>
        obtain ⟨taken, left, hoffer, htaken, hleft⟩ := ih hlater ((b :: rest).drop count)
        refine ⟨(b :: rest).take count :: taken, left, ?_, ?_, hleft⟩
        · simp only [offer, if_neg (show count ≠ 0 from htakes), hoffer]
        · rw [List.flatten_cons, htaken, List.take_append_drop]
      | fault failure =>
        obtain ⟨taken, left, hoffer, htaken, hleft⟩ := ih hlater (b :: rest)
        refine ⟨taken, left, ?_, htaken, hleft⟩
        simp only [offer, if_pos (show failure.kind = .interrupted from htakes), hoffer]

structure Accepts (link : StreamLink) : Prop where
  acceptances : ∀ a ∈ link.acceptances, a.Takes
  flushes : ∀ flush ∈ link.flushes, flush = none

theorem Accepts.write {link : StreamLink} (h : link.Accepts) (hopen : link.isOpen = true)
    (bytes : Bytes) :
    ∃ after, link.write bytes = (.ok (), after) ∧ after.Accepts ∧
      after.written.flatten = link.written.flatten ++ bytes ∧ after.isOpen = true ∧
      after.items = link.items := by
  obtain ⟨taken, later, hoffer, htaken, hlater⟩ := offer_of_takes h.acceptances bytes
  have hkept := items_write bytes link
  have hwritten : (link.written ++ taken).flatten = link.written.flatten ++ bytes := by
    rw [List.flatten_append, htaken]
  cases hflushes : link.flushes with
  | nil =>
    have hwrite : link.write bytes
        = (.ok (), { link with acceptances := later, written := link.written ++ taken }) := by
      simp only [StreamLink.write, hopen, Bool.not_true, Bool.false_eq_true, if_false, hoffer,
        hflushes]
    exact ⟨_, hwrite, ⟨hlater, h.flushes⟩, hwritten, hopen, rfl⟩
  | cons flush flushes =>
    obtain ⟨rfl, hnone⟩ := List.forall_mem_cons.1 (hflushes ▸ h.flushes)
    have hwrite : link.write bytes = (.ok (), { link with
        acceptances := later, written := link.written ++ taken, flushes }) := by
      simp only [StreamLink.write, hopen, Bool.not_true, Bool.false_eq_true, if_false, hoffer,
        hflushes]
    exact ⟨_, hwrite, ⟨hlater, hnone⟩, hwritten, hopen, rfl⟩

theorem Accepts.readThrough {link : StreamLink} (h : link.Accepts) (stop : UInt8) :
    (link.readThrough stop).2.Accepts ∧
      (link.readThrough stop).2.written = link.written := by
  unfold StreamLink.readThrough
  split
  · split <;> exact ⟨⟨h.acceptances, h.flushes⟩, rfl⟩
  · exact ⟨⟨h.acceptances, h.flushes⟩, rfl⟩

end StreamLink

def IsLine (reply : Bytes) : Prop := ∃ body, reply = body ++ [terminator] ∧ terminator ∉ body

/-- A reply without a terminator before its last byte goes out as one line. -/
theorem isLine_terminated {reply : Bytes} (h : terminator ∉ reply.dropLast) :
    IsLine (terminated reply) := by
  unfold terminated
  split
  · next hlast => exact ⟨reply.dropLast, (List.dropLast_append_getLast? _ hlast).symm, h⟩
  · next hlast =>
    exact ⟨reply, rfl, fun hmem =>
      h (List.mem_dropLast_of_mem_of_ne_getLast? hmem (Ne.symm hlast))⟩

namespace CannedDevice

/-- A device with canned replies is as far as a link that has the same replies still to deliver, and
has been written the same. Once closed, neither delivers anything. -/
structure Rehearses (left : Nat) (canned : CannedDevice) (link : StreamLink) : Prop where
  isOpen : link.isOpen = canned.isOpen
  written : link.written.flatten = canned.written.flatten
  accepts : link.Accepts
  lines : ∀ reply ∈ canned.replies, IsLine reply
  ahead : canned.isOpen = true → left ≤ canned.replies.length ∧
    ∃ further, link.items = canned.replies.flatten.map .byte ++ further

theorem Rehearses.trade {left : Nat} {canned : CannedDevice} {link : StreamLink} (bytes : Bytes)
    (h : Rehearses left canned link) : Device.Trade Rehearses bytes left canned link := by
  have hstill := h.isOpen
  cases hopen : canned.isOpen with
  | false =>
    rw [hopen] at hstill
    have hwrite : Device.write bytes canned = (.error .closed, canned) := by
      simp only [Device.write, CannedDevice.write, hopen, Bool.false_eq_true, if_false]
    have hwrite' : Device.write bytes link = (.error .closed, link) := by
      simp only [Device.write, StreamLink.write, hstill, Bool.not_false, if_true]
    exact .refused hwrite hwrite' h
  | true =>
    rw [hopen] at hstill
    have hwrite : Device.write bytes canned
        = (.ok (), { canned with written := canned.written ++ [bytes] }) := by
      simp only [Device.write, CannedDevice.write, hopen, if_true]
    cases left with
    | zero => exact .exceeded hwrite
    | succ left =>
      obtain ⟨taken, hwrite', htakes, hwritten, htaken, hitems⟩ := h.accepts.write hstill bytes
      obtain ⟨hleft, further, hahead⟩ := h.ahead hopen
      cases hreplies : canned.replies with
      | nil =>
        rw [hreplies] at hleft
        exact absurd hleft (Nat.not_succ_le_zero left)
      | cons reply rest =>
        obtain ⟨hline, hrest⟩ := List.forall_mem_cons.1 (hreplies ▸ h.lines)
        rw [hreplies] at hleft hahead
        have hread : Device.readThrough terminator
              { canned with written := canned.written ++ [bytes] }
            = (.ok reply,
              { canned with written := canned.written ++ [bytes], replies := rest }) := by
          simp only [Device.readThrough, CannedDevice.readThrough, hopen, Bool.not_true,
            Bool.false_eq_true, if_false, hreplies]
        rw [List.flatten_cons, List.map_append, List.append_assoc, ← hitems] at hahead
        obtain ⟨body, rfl, hbody⟩ := hline
        obtain ⟨hanswer, hlater⟩ := StreamLink.readThrough_line htaken hbody hahead
        have hread' : Device.readThrough terminator taken
            = (.ok (body ++ [terminator]), (taken.readThrough terminator).2) :=
          Prod.ext hanswer rfl
        obtain ⟨hstays, hsame⟩ := htakes.readThrough terminator
        refine .answered hwrite hread hwrite' hread' ⟨?_, ?_, hstays, hrest, fun _ => ?_⟩
        · exact (StreamLink.isOpen_readThrough terminator taken).trans (htaken.trans hopen.symm)
        · rw [hsame, hwritten, h.written, List.flatten_append, List.flatten_singleton]
        · exact ⟨Nat.le_of_succ_le_succ hleft, further, hlater⟩

theorem Rehearses.close {left : Nat} {canned : CannedDevice} {link : StreamLink}
    (h : Rehearses left canned link) :
    Rehearses left (Device.close canned) (Device.close link) where
  isOpen := rfl
  written := h.written
  accepts := ⟨h.accepts.acceptances, h.accepts.flushes⟩
  lines := h.lines
  ahead hopen := nomatch hopen

theorem standsIn : Device.StandsIn Rehearses where
  trade bytes h := h.trade bytes
  close := Rehearses.close

section Connecting

variable {replies : List Bytes} {arrivals : List Arrival} {acceptances : List Acceptance}
  {flushes : List (Option IoFault)}

theorem rehearses_connect (hlines : ∀ reply ∈ replies, terminator ∉ reply.dropLast)
    (hbring : Arrival.Bring arrivals (replies.map terminated).flatten)
    (htakes : ∀ acceptance ∈ acceptances, acceptance.Takes)
    (hflushes : ∀ flush ∈ flushes, flush = none) (further : List Arrival) :
    Rehearses replies.length (ofReplies replies)
      (StreamLink.connect (arrivals ++ further) acceptances flushes) where
  isOpen := rfl
  written := rfl
  accepts := ⟨htakes, hflushes⟩
  lines := List.forall_mem_map.2 fun reply hmem => isLine_terminated (hlines reply hmem)
  ahead _ := by
    refine ⟨Nat.le_of_eq (List.length_map _).symm, itemsOf further, ?_⟩
    rw [StreamLink.items_connect, Arrival.itemsOf_append, itemsOf_of_bring hbring]
    rfl

/-- A device with canned replies does what a stream does that brings these replies, cut as one
likes and with interruptions, and takes what it is given. As long as there are replies for what is
sent, sessions get the same responses and errors and write the same, and engines do the same to the
last of their notifications and observations, so that nothing but the device differs after. -/
theorem rehearses_stream (hlines : ∀ reply ∈ replies, terminator ∉ reply.dropLast)
    (hbring : Arrival.Bring arrivals (replies.map terminated).flatten)
    (htakes : ∀ acceptance ∈ acceptances, acceptance.Takes)
    (hflushes : ∀ flush ∈ flushes, flush = none) (further : List Arrival) :
    let canned := ofReplies replies
    let link := StreamLink.connect (arrivals ++ further) acceptances flushes
    (∀ frames : List Frame, frames.countP (fun frame => frame.encode.isOk) ≤ replies.length →
      (exchangeAll frames link).1 = (exchangeAll frames canned).1 ∧
      (exchangeAll frames link).2.written.flatten
        = (exchangeAll frames canned).2.written.flatten) ∧
    ∀ {φ η : Type} [FileStore φ] [Host η] (e : Engine (Recorded (Surroundings CannedDevice φ η)))
      (calls : List Call), e.workspace.around.around.device = canned →
      exchangesIn (e.callAll calls).2.record ≤ exchangesIn e.record + replies.length →
      ∃ after : StreamLink,
        (e.withDevice link).callAll calls
          = ((e.callAll calls).1, (e.callAll calls).2.withDevice after) ∧
        after.written.flatten
          = (e.callAll calls).2.workspace.around.around.device.written.flatten := by
  intro canned link
  have hstart := rehearses_connect hlines hbring htakes hflushes further
  constructor
  · intro frames hframes
    obtain ⟨hresults, left, hend⟩ := standsIn.agrees_all frames hstart hframes
    exact ⟨hresults.symm, hend.written⟩
  · intro φ η _ _ e calls hdevice hlimit
    have hserves : Serves Rehearses (exchangesIn e.record + replies.length)
        e.workspace.around link := ⟨replies.length, Nat.add_comm .., hdevice ▸ hstart⟩
    obtain ⟨after, ⟨left, -, hend⟩, hsame⟩ :=
      Engine.redone_callAll standsIn calls hserves hlimit
    exact ⟨after, hsame, hend.written⟩

end Connecting

def rehearsed : Engine Bench :=
  ((Engine.idle {} ⟨⟨ofReplies [[0x6F, 0x6B], [0x41, 0x0A]], {}, {}⟩, []⟩).call
    (.load [['D', ' ', 'a'], ['D', ' ', 'b']])).2

theorem rehearses_stream_rehearsed :
    let arrivals : List Arrival := [.bytes [0x6F], .fault ⟨.interrupted, []⟩,
      .bytes [0x6B, 0x0A, 0x41], .bytes [0x0A]]
    let link := StreamLink.connect (arrivals ++ [.bytes []]) [.upTo 1, .fault ⟨.interrupted, []⟩]
      [none]
    (exchangeAll [.text ['P'], .data (List.replicate 256 0), .text ['Q']] link).1
        = [.ok ⟨['o', 'k'], []⟩, .error (.payloadTooLong 256), .ok ⟨['A'], []⟩] ∧
      ∃ after : StreamLink,
        (rehearsed.withDevice link).callAll [.run []]
          = ((rehearsed.callAll [.run []]).1, (rehearsed.callAll [.run []]).2.withDevice after) ∧
        after.written.flatten = [0x44, 1, 0x61, 0x0A, 0x44, 1, 0x62, 0x0A] := by
  intro arrivals link
  have hlines : ∀ reply ∈ ([[0x6F, 0x6B], [0x41, 0x0A]] : List Bytes),
      terminator ∉ reply.dropLast := by decide
  have hbring : Arrival.Bring arrivals
      (([[0x6F, 0x6B], [0x41, 0x0A]] : List Bytes).map terminated).flatten :=
    .piece (List.cons_ne_nil _ _) (.interrupted rfl
      (.piece (List.cons_ne_nil _ _) (.piece (List.cons_ne_nil _ _) .none)))
  have htakes : ∀ acceptance ∈ ([.upTo 1, .fault ⟨.interrupted, []⟩] : List Acceptance),
      acceptance.Takes :=
    List.forall_mem_cons.2 ⟨Nat.one_ne_zero, List.forall_mem_singleton.2 rfl⟩
  have hflushes : ∀ flush ∈ ([none] : List (Option IoFault)), flush = none :=
    List.forall_mem_singleton.2 rfl
  obtain ⟨hsession, hengine⟩ := rehearses_stream hlines hbring htakes hflushes [.bytes []]
  constructor
  · have hlong : (Frame.data (List.replicate 256 0)).encode = .error (.payloadTooLong 256) := by
      rw [Frame.data, Frame.encode, List.length_replicate]
      rfl
    obtain ⟨hresults, -⟩ :=
      hsession [.text ['P'], .data (List.replicate 256 0), .text ['Q']]
        (by simp only [List.countP_cons, hlong]; decide)
    rw [hresults, exchangeAll_cons, exchangeAll_cons, exchange_of_encode_error hlong]
    rfl
  · obtain ⟨outcome, hloop, hcount, hwritten⟩ : ∃ outcome,
        Engine.loop 4 { rehearsed.begun with stack := [{ routine := [] }] } = some outcome ∧
        exchangesIn outcome.2.record = 2 ∧
        outcome.2.workspace.around.around.device.written.flatten
          = [0x44, 1, 0x61, 0x0A, 0x44, 1, 0x62, 0x0A] :=
      ⟨_, rfl, rfl, rfl⟩
    have hrun : (rehearsed.callAll [.run []]).2 = outcome.2 :=
      congrArg Prod.snd (Engine.callAll_run_of_loop rfl (by decide) hloop)
    obtain ⟨after, hsame, hafter⟩ :=
      hengine rehearsed [.run []] rfl (by rw [hrun, hcount]; exact Nat.le_add_left 2 _)
    refine ⟨after, hsame, ?_⟩
    rw [hafter, hrun]
    exact hwritten

end CannedDevice
end BenchScript
