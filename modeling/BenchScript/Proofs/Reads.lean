import BenchScript.Wire.Stream

set_option autoImplicit false

namespace BenchScript

inductive Item where
  | byte (b : UInt8)
  /-- A read that brings nothing. -/
  | pause
  | fault (failure : IoFault)
deriving DecidableEq, Repr

namespace Arrival

def items : Arrival → List Item
  | .bytes [] => [.pause]
  | .bytes (c :: data) => (c :: data).map .byte
  | .fault failure => if failure.kind = .interrupted then [] else [.fault failure]

def itemsOf (arrivals : List Arrival) : List Item := arrivals.flatMap items

theorem items_bytes {data : Bytes} (h : data ≠ []) : (bytes data).items = data.map .byte := by
  cases data with
  | nil => exact absurd rfl h
  | cons c data => rfl

theorem itemsOf_append (before after : List Arrival) :
    itemsOf (before ++ after) = itemsOf before ++ itemsOf after :=
  List.flatMap_append

theorem itemsOf_cons (arrival : Arrival) (later : List Arrival) :
    itemsOf (arrival :: later) = arrival.items ++ itemsOf later :=
  List.flatMap_cons

/-- Reads that bring bytes are split, and interruptions come in between; or the other way round. -/
inductive Resplit : List Arrival → List Arrival → Prop where
  | same (arrivals : List Arrival) : Resplit arrivals arrivals
  | back {first second : List Arrival} : Resplit first second → Resplit second first
  | and {first second third : List Arrival} :
    Resplit first second → Resplit second third → Resplit first third
  | split (before after : List Arrival) (a b : Bytes) : a ≠ [] → b ≠ [] →
    Resplit (before ++ bytes (a ++ b) :: after) (before ++ bytes a :: bytes b :: after)
  | interrupt (before after : List Arrival) (failure : IoFault) : failure.kind = .interrupted →
    Resplit (before ++ after) (before ++ fault failure :: after)

theorem itemsOf_resplit {first second : List Arrival} (h : Resplit first second) :
    itemsOf first = itemsOf second := by
  induction h with
  | same arrivals => rfl
  | back _ ih => exact ih.symm
  | and _ _ ih ih' => exact ih.trans ih'
  | split before after a b ha hb =>
    have hab : a ++ b ≠ [] := by simp [ha]
    simp only [itemsOf_append, itemsOf_cons, items_bytes ha, items_bytes hb, items_bytes hab,
      List.map_append, List.append_assoc]
  | interrupt before after failure hkind =>
    simp [itemsOf_append, itemsOf_cons, items, hkind]

end Arrival

open Arrival (itemsOf)

theorem itemsOf_piecesOf (size : Nat) {data : Bytes} (h : data ≠ []) :
    itemsOf ((piecesOf size data).map .bytes) = data.map .byte := by
  fun_induction piecesOf size data with
  | case1 data hshort => simp [itemsOf, Arrival.items_bytes h]
  | case2 data hlong ih =>
    have hrest : data.drop (size + 1) ≠ [] := by
      intro hnil
      have hlength := congrArg List.length hnil
      simp only [List.length_drop, List.length_nil] at hlength
      omega
    have hfirst : data.take (size + 1) ≠ [] := by
      simp [h]
    rw [List.map_cons, Arrival.itemsOf_cons, ih hrest, Arrival.items_bytes hfirst,
      ← List.map_append, List.take_append_drop]

theorem itemsOf_reads (arrival : Arrival) : itemsOf arrival.reads = arrival.items := by
  cases arrival with
  | fault failure => simp [Arrival.reads, itemsOf]
  | bytes data =>
    cases data with
    | nil => simp [Arrival.reads, itemsOf, piecesOf, Arrival.items]
    | cons c data => exact itemsOf_piecesOf _ (List.cons_ne_nil c data)

theorem itemsOf_flatMap_reads (arrivals : List Arrival) :
    itemsOf (arrivals.flatMap Arrival.reads) = itemsOf arrivals := by
  induction arrivals with
  | nil => rfl
  | cons arrival later ih =>
    rw [List.flatMap_cons, Arrival.itemsOf_append, itemsOf_reads, ih, Arrival.itemsOf_cons]

namespace Item

def handedOver (held : Bytes) : Except LinkError Bytes :=
  if held = [] then .error .closed else .ok held

/-- Reads through the next byte `stop`, with some bytes in hand. -/
def take (stop : UInt8) (held : Bytes) : List Item → Except LinkError Bytes × List Item
  | [] => (handedOver held, [])
  | .pause :: later => (handedOver held, later)
  | .fault failure :: later => (.error failure.toLinkError, later)
  | .byte b :: later =>
    if b = stop then (.ok (held ++ [b]), later) else take stop (held ++ [b]) later

theorem take_of_not_mem {stop : UInt8} {bytes : Bytes} (h : stop ∉ bytes) (held : Bytes)
    (later : List Item) :
    take stop held (bytes.map byte ++ later) = take stop (held ++ bytes) later := by
  induction bytes generalizing held with
  | nil => simp
  | cons b bytes ih =>
    have hb : b ≠ stop := by
      intro heq
      exact h (heq ▸ List.mem_cons_self)
    have hbytes : stop ∉ bytes := fun hmem => h (List.mem_cons_of_mem b hmem)
    rw [List.map_cons, List.cons_append, take, if_neg hb, ih hbytes, List.append_assoc]
    rfl

theorem take_of_splitAfter {stop : UInt8} {bytes line rest : Bytes}
    (h : splitAfter stop bytes = some (line, rest)) (held : Bytes) (later : List Item) :
    take stop held (bytes.map byte ++ later) = (.ok (held ++ line), rest.map byte ++ later) := by
  induction bytes generalizing held line rest with
  | nil => cases h
  | cons b bytes ih =>
    rw [splitAfter] at h
    rw [List.map_cons, List.cons_append, take]
    by_cases hb : b = stop
    · rw [if_pos hb] at h ⊢
      cases h
      rfl
    · rw [if_neg hb] at h ⊢
      obtain ⟨⟨line', rest'⟩, hcut, hpair⟩ := Option.map_eq_some_iff.1 h
      cases hpair
      rw [ih hcut, List.append_assoc]
      rfl

end Item

namespace StreamLink

def items (link : StreamLink) : List Item := link.buffer.bytes.map .byte ++ itemsOf link.arrivals

theorem items_connect (arrivals : List Arrival) (acceptances : List Acceptance)
    (flushes : List (Option IoFault)) :
    (connect arrivals acceptances flushes).items = itemsOf arrivals :=
  itemsOf_flatMap_reads arrivals

theorem connect_of_le {arrivals : List Arrival}
    (h : ∀ data, .bytes data ∈ arrivals → data.length ≤ readLimit) (acceptances : List Acceptance)
    (flushes : List (Option IoFault)) :
    connect arrivals acceptances flushes = { arrivals, acceptances, flushes } := by
  have hreads : ∀ arrival ∈ arrivals, arrival.reads = [arrival] := by
    intro arrival hmem
    cases arrival with
    | fault failure => rfl
    | bytes data =>
      rw [Arrival.reads, piecesOf]
      simp [show data.length ≤ readLimit - 1 + 1 from h data hmem]
  have hsame : arrivals.flatMap Arrival.reads = arrivals := by
    rw [List.flatMap_def, List.map_congr_left hreads, ← List.flatMap_def]
    exact List.flatMap_singleton' arrivals
  unfold connect
  rw [hsame]

theorem takeAll_eq (buffer : LineBuffer) :
    buffer.takeAll.1.elim (.error .closed) .ok = Item.handedOver buffer.bytes ∧
      buffer.takeAll.2.bytes = [] := by
  obtain ⟨bytes⟩ := buffer
  cases bytes with
  | nil => exact ⟨rfl, rfl⟩
  | cons b bytes => exact ⟨rfl, rfl⟩

theorem takeThrough_eq_some {buffer after : LineBuffer} {stop : UInt8} {line : Bytes}
    (h : buffer.takeThrough stop = (some line, after)) :
    splitAfter stop buffer.bytes = some (line, after.bytes) := by
  unfold LineBuffer.takeThrough at h
  split at h
  · next hcut =>
    cases h
    exact hcut
  · cases h

theorem takeThrough_eq_none {buffer after : LineBuffer} {stop : UInt8}
    (h : buffer.takeThrough stop = (none, after)) : after = buffer ∧ stop ∉ buffer.bytes := by
  unfold LineBuffer.takeThrough at h
  split at h
  · cases h
  · next hcut =>
    cases h
    exact ⟨rfl, splitAfter_eq_none_iff.1 hcut⟩

theorem receive_eq (stop : UInt8) (arrivals : List Arrival) (buffer : LineBuffer) :
    ((receive stop arrivals buffer).1, (receive stop arrivals buffer).2.2.bytes.map Item.byte
        ++ itemsOf (receive stop arrivals buffer).2.1)
      = Item.take stop [] (buffer.bytes.map .byte ++ itemsOf arrivals) := by
  -- What is buffered and what is still to arrive make one list of items, read in order.
  fun_induction receive stop arrivals buffer with
  | case1 buffer line after h =>
    rw [Item.take_of_splitAfter (takeThrough_eq_some h)]
    rfl
  | case2 buffer after h =>
    obtain ⟨rfl, hmem⟩ := takeThrough_eq_none h
    rw [Item.take_of_not_mem hmem, (takeAll_eq after).1, (takeAll_eq after).2]
    rfl
  | case3 arrival later buffer line after h =>
    rw [Item.take_of_splitAfter (takeThrough_eq_some h)]
    rfl
  | case4 later buffer after h =>
    obtain ⟨rfl, hmem⟩ := takeThrough_eq_none h
    rw [Item.take_of_not_mem hmem, (takeAll_eq after).1, (takeAll_eq after).2]
    rfl
  | case5 later buffer after h c data ih =>
    obtain ⟨rfl, hmem⟩ := takeThrough_eq_none h
    rw [ih, Arrival.itemsOf_cons, Arrival.items, LineBuffer.push, List.map_append,
      List.append_assoc]
  | case6 later buffer after h failure hkind ih =>
    obtain ⟨rfl, hmem⟩ := takeThrough_eq_none h
    rw [ih, Arrival.itemsOf_cons, Arrival.items, if_pos hkind, List.nil_append]
  | case7 later buffer after h failure hkind =>
    obtain ⟨rfl, hmem⟩ := takeThrough_eq_none h
    rw [Item.take_of_not_mem hmem, Arrival.itemsOf_cons, Arrival.items, if_neg hkind]
    rfl

theorem readThrough_eq {link : StreamLink} (h : link.isOpen = true) (stop : UInt8) :
    ((link.readThrough stop).1, (link.readThrough stop).2.items)
      = Item.take stop [] link.items := by
  unfold readThrough
  rw [if_neg (by simp [h])]
  exact receive_eq stop link.arrivals link.buffer

theorem isOpen_readThrough (stop : UInt8) (link : StreamLink) :
    (link.readThrough stop).2.isOpen = link.isOpen := by
  unfold readThrough
  split
  · split <;> rfl
  · rfl

def readEach : List UInt8 → StreamLink → List (Except LinkError Bytes) × StreamLink
  | [], link => ([], link)
  | stop :: stops, link =>
    let (result, link) := link.readThrough stop
    let (results, link) := readEach stops link
    (result :: results, link)

theorem readEach_cons (stop : UInt8) (stops : List UInt8) (link : StreamLink) :
    link.readEach (stop :: stops)
      = ((link.readThrough stop).1 :: ((link.readThrough stop).2.readEach stops).1,
        ((link.readThrough stop).2.readEach stops).2) := rfl

/-- Links that have the same still to deliver cannot be told apart by reads. -/
theorem readEach_of_items {link link' : StreamLink} (h : link.isOpen = true)
    (h' : link'.isOpen = true) (hitems : link.items = link'.items) (stops : List UInt8) :
    (link.readEach stops).1 = (link'.readEach stops).1 := by
  induction stops generalizing link link' with
  | nil => rfl
  | cons stop stops ih =>
    have heq := readThrough_eq h stop
    rw [hitems, ← readThrough_eq h' stop, Prod.mk.injEq] at heq
    rw [readEach_cons, readEach_cons, heq.1,
      ih ((isOpen_readThrough stop link).trans h) ((isOpen_readThrough stop link').trans h') heq.2]

/-- The part of a stream that a read uses up, and what the read gives for it: the bytes through the
first `stop`, or those before the end, unless a fault has made them void. -/
inductive Uses (stop : UInt8) : List Item → Except LinkError Bytes → Prop where
  | line (before : Bytes) : stop ∉ before →
    Uses stop ((before ++ [stop]).map .byte) (.ok (before ++ [stop]))
  | rest (data : Bytes) : stop ∉ data → data ≠ [] →
    Uses stop (data.map .byte ++ [.pause]) (.ok data)
  | nothing : Uses stop [.pause] (.error .closed)
  | failure (void : Bytes) (failure : IoFault) : stop ∉ void →
    Uses stop (void.map .byte ++ [.fault failure]) (.error failure.toLinkError)

/-- Reads use up a stream from its beginning, each the part that comes next. -/
inductive ReadsOff : List UInt8 → List Item → List (Except LinkError Bytes) → List Item → Prop where
  | done (left : List Item) : ReadsOff [] left [] left
  | read {stop : UInt8} {stops : List UInt8} {part later left : List Item}
    {result : Except LinkError Bytes} {results : List (Except LinkError Bytes)} :
    Uses stop part result → ReadsOff stops later results left →
    ReadsOff (stop :: stops) (part ++ later) (result :: results) left

theorem uses_handedOver {stop : UInt8} {held : Bytes} (h : stop ∉ held) :
    Uses stop (held.map .byte ++ [.pause]) (Item.handedOver held) := by
  unfold Item.handedOver
  split
  · next hnil =>
    subst hnil
    exact .nothing
  · next hne => exact .rest held h hne

/-- A stream that is given out goes on with reads that bring nothing, and one of them may be used up
too. -/
theorem uses_take {stop : UInt8} {held : Bytes} (h : stop ∉ held) (items : List Item) :
    ∃ part pauses, items ++ List.replicate pauses .pause = part ++ (Item.take stop held items).2 ∧
      Uses stop (held.map .byte ++ part) (Item.take stop held items).1 := by
  -- No byte in hand is a `stop`; a further byte is the first one or joins those in hand.
  induction items generalizing held with
  | nil => exact ⟨[.pause], 1, rfl, uses_handedOver h⟩
  | cons item later ih =>
    cases item with
    | pause => exact ⟨[.pause], 0, List.append_nil _, uses_handedOver h⟩
    | fault failure => exact ⟨[.fault failure], 0, List.append_nil _, .failure held failure h⟩
    | byte b =>
      rw [Item.take]
      by_cases hb : b = stop
      · subst hb
        rw [if_pos rfl]
        refine ⟨[.byte b], 0, List.append_nil _, ?_⟩
        have hline := Uses.line held h
        rwa [List.map_append] at hline
      · have hheld : stop ∉ held ++ [b] := by simp [h, Ne.symm hb]
        obtain ⟨part, pauses, heq, huses⟩ := ih hheld
        rw [if_neg hb]
        refine ⟨.byte b :: part, pauses, ?_, ?_⟩
        · rw [List.cons_append, heq]
          rfl
        · rw [List.map_append, List.append_assoc] at huses
          exact huses

theorem readsOff_readEach {link : StreamLink} (h : link.isOpen = true) (stops : List UInt8) :
    ∃ pauses, ReadsOff stops (link.items ++ List.replicate pauses .pause) (link.readEach stops).1
      (link.readEach stops).2.items := by
  induction stops generalizing link with
  | nil => exact ⟨0, by simpa [readEach] using ReadsOff.done link.items⟩
  | cons stop stops ih =>
    have heq := readThrough_eq h stop
    rw [Prod.ext_iff] at heq
    obtain ⟨part, pauses, hparts, huses⟩ := uses_take (List.not_mem_nil (a := stop)) link.items
    obtain ⟨more, hreads⟩ := ih ((isOpen_readThrough stop link).trans h)
    rw [← heq.1] at huses
    rw [← heq.2] at hparts
    refine ⟨pauses + more, ?_⟩
    rw [readEach_cons, ← List.replicate_append_replicate, ← List.append_assoc, hparts,
      List.append_assoc]
    exact .read huses hreads

def given (result : Except LinkError Bytes) : Bytes := result.toOption.getD []

def bytesOf (items : List Item) : Bytes :=
  items.filterMap fun
    | .byte b => some b
    | _ => none

theorem bytesOf_append (first second : List Item) :
    bytesOf (first ++ second) = bytesOf first ++ bytesOf second :=
  List.filterMap_append

theorem bytesOf_map_byte (bytes : Bytes) : bytesOf (bytes.map .byte) = bytes := by
  induction bytes with
  | nil => rfl
  | cons b bytes ih => exact congrArg (b :: ·) ih

theorem bytesOf_pauses (pauses : Nat) : bytesOf (List.replicate pauses .pause) = [] := by
  induction pauses with
  | zero => rfl
  | succ pauses ih => exact ih

theorem Uses.given_sublist {stop : UInt8} {part : List Item} {result : Except LinkError Bytes}
    (h : Uses stop part result) : (given result).Sublist (bytesOf part) := by
  cases h with
  | line before _ =>
    rw [bytesOf_map_byte]
    exact List.Sublist.refl _
  | rest data _ _ =>
    rw [bytesOf_append, bytesOf_map_byte]
    exact List.sublist_append_left data _
  | nothing => exact List.nil_sublist _
  | failure => exact List.nil_sublist _

/-- What is given out has been received, each byte once and all in order. -/
theorem ReadsOff.given_sublist {stops : List UInt8} {items left : List Item}
    {results : List (Except LinkError Bytes)} (h : ReadsOff stops items results left) :
    (results.flatMap given).Sublist (bytesOf items) := by
  induction h with
  | done left => exact List.nil_sublist _
  | read huses _ ih =>
    rw [List.flatMap_cons, bytesOf_append]
    exact huses.given_sublist.append ih

/-- How the bytes of a stream are cut into reads, and interruptions, change no result. Each read
gives the bytes through the first that it looks for, or all there are before the end of the stream;
it goes on where the one before it left off, and what a fault has made void is given by none. -/
theorem readEach_of_resplit {arrivals arrivals' : List Arrival}
    (h : Arrival.Resplit arrivals arrivals') (acceptances : List Acceptance)
    (flushes : List (Option IoFault)) (stops : List UInt8) :
    ((connect arrivals' acceptances flushes).readEach stops).1
        = ((connect arrivals acceptances flushes).readEach stops).1 ∧
      ∃ pauses,
        ReadsOff stops (itemsOf arrivals ++ List.replicate pauses .pause)
          ((connect arrivals acceptances flushes).readEach stops).1
          ((connect arrivals acceptances flushes).readEach stops).2.items ∧
        (((connect arrivals acceptances flushes).readEach stops).1.flatMap given).Sublist
          (bytesOf (itemsOf arrivals)) := by
  have hitems := items_connect arrivals acceptances flushes
  have hitems' := items_connect arrivals' acceptances flushes
  rw [← Arrival.itemsOf_resplit h] at hitems'
  refine ⟨readEach_of_items rfl rfl (hitems'.trans hitems.symm) stops, ?_⟩
  have hopen : (connect arrivals acceptances flushes).isOpen = true := rfl
  obtain ⟨pauses, hreads⟩ := readsOff_readEach hopen stops
  rw [hitems] at hreads
  have hgiven := hreads.given_sublist
  rw [bytesOf_append, bytesOf_pauses, List.append_nil] at hgiven
  exact ⟨pauses, hreads, hgiven⟩

theorem readEach_of_resplit_late :
    let whole : List Arrival :=
      [.bytes [1, 2, 3, 10, 4], .fault ⟨.timedOut, []⟩, .bytes [5, 10, 6]]
    let cut : List Arrival := [.bytes [1, 2], .fault ⟨.interrupted, []⟩, .bytes [3, 10, 4],
      .fault ⟨.timedOut, []⟩, .bytes [5, 10, 6]]
    Arrival.Resplit whole cut ∧
      ((connect cut [] []).readEach [10, 10, 10, 10, 10]).1
        = [.ok [1, 2, 3, 10], .error .timeout, .ok [5, 10], .ok [6], .error .closed] := by
  intro whole cut
  have hsplit : Arrival.Resplit whole cut :=
    (Arrival.Resplit.split [] (whole.drop 1) [1, 2] [3, 10, 4] (by simp) (by simp)).and
      (.interrupt [.bytes [1, 2]] (.bytes [3, 10, 4] :: whole.drop 1) ⟨.interrupted, []⟩ rfl)
  refine ⟨hsplit, ?_⟩
  rw [(readEach_of_resplit hsplit [] [] [10, 10, 10, 10, 10]).1]
  rw [connect_of_le (by simp [whole, readLimit])]
  rfl

end StreamLink
end BenchScript
