import BenchScript.Proofs.Reads

set_option autoImplicit false

namespace BenchScript

theorem exists_body_of_splitAfter {stop : UInt8} {bytes line rest : Bytes}
    (h : splitAfter stop bytes = some (line, rest)) :
    ∃ body, line = body ++ [stop] ∧ stop ∉ body := by
  induction bytes generalizing line rest with
  | nil => cases h
  | cons c tail ih =>
    rw [splitAfter] at h
    by_cases hc : c = stop
    · rw [if_pos hc] at h
      cases h
      exact ⟨[], by rw [hc, List.nil_append], List.not_mem_nil⟩
    · rw [if_neg hc] at h
      obtain ⟨⟨line', rest'⟩, hcut, hpair⟩ := Option.map_eq_some_iff.1 h
      cases hpair
      obtain ⟨body, hline, hbody⟩ := ih hcut
      refine ⟨c :: body, congrArg (List.cons c) hline, ?_⟩
      rw [List.mem_cons, not_or]
      exact ⟨Ne.symm hc, hbody⟩

namespace LineBuffer

inductive Use where
  | push (bytes : Bytes)
  | takeThrough (stop : UInt8)
  | takeAll
  | clear
deriving DecidableEq, Repr

def Use.pushed : Use → Bytes
  | .push bytes => bytes
  | .takeThrough _ | .takeAll | .clear => []

def serve (buffer : LineBuffer) : Use → List (Option Bytes) × LineBuffer
  | .push bytes => ([], buffer.push bytes)
  | .takeThrough stop => ([(buffer.takeThrough stop).1], (buffer.takeThrough stop).2)
  | .takeAll => ([buffer.takeAll.1], buffer.takeAll.2)
  | .clear => ([], empty)

def serveAll (buffer : LineBuffer) : List Use → List (Option Bytes) × LineBuffer
  | [] => ([], buffer)
  | use :: uses =>
    let (results, buffer) := buffer.serve use
    let (more, buffer) := buffer.serveAll uses
    (results ++ more, buffer)

def handedOn (results : List (Option Bytes)) : Bytes := results.flatMap (·.getD [])

theorem handedOn_append (first second : List (Option Bytes)) :
    handedOn (first ++ second) = handedOn first ++ handedOn second :=
  List.flatMap_append

variable {buffer : LineBuffer}

theorem serveAll_cons (buffer : LineBuffer) (use : Use) (uses : List Use) :
    buffer.serveAll (use :: uses)
      = ((buffer.serve use).1 ++ ((buffer.serve use).2.serveAll uses).1,
        ((buffer.serve use).2.serveAll uses).2) := rfl

theorem serveAll_append (buffer : LineBuffer) (first second : List Use) :
    buffer.serveAll (first ++ second)
      = ((buffer.serveAll first).1 ++ ((buffer.serveAll first).2.serveAll second).1,
        ((buffer.serveAll first).2.serveAll second).2) := by
  induction first generalizing buffer with
  | nil => rfl
  | cons use first ih => rw [List.cons_append, serveAll_cons, ih, serveAll_cons, List.append_assoc]

theorem bytes_takeThrough (buffer : LineBuffer) (stop : UInt8) :
    (buffer.takeThrough stop).1.getD [] ++ (buffer.takeThrough stop).2.bytes = buffer.bytes := by
  unfold takeThrough
  split
  · next hcut => exact (splitAfter_eq hcut).symm
  · rfl

theorem takeThrough_eq_none_iff (buffer : LineBuffer) (stop : UInt8) :
    (buffer.takeThrough stop).1 = none ↔ stop ∉ buffer.bytes := by
  rw [← splitAfter_eq_none_iff]
  unfold takeThrough
  split
  · next hcut => simp [hcut]
  · next hcut => simp [hcut]

theorem takeAll_of_ne_nil (h : buffer.bytes ≠ []) : buffer.takeAll = (some buffer.bytes, empty) :=
  if_neg (by simpa using h)

theorem takeAll_of_nil (h : buffer.bytes = []) : buffer.takeAll = (none, buffer) :=
  if_pos (by simpa using h)

theorem takeAll_eq_none_iff (buffer : LineBuffer) :
    buffer.takeAll.1 = none ↔ buffer.bytes = [] := by
  by_cases h : buffer.bytes = []
  · simp [takeAll_of_nil h, h]
  · simp [takeAll_of_ne_nil h, h]

theorem bytes_takeAll (buffer : LineBuffer) :
    buffer.takeAll.1.getD [] ++ buffer.takeAll.2.bytes = buffer.bytes := by
  by_cases h : buffer.bytes = []
  · rw [takeAll_of_nil h]
    rfl
  · rw [takeAll_of_ne_nil h]
    exact List.append_nil _

/-- What left and what is left are what was there and what came. -/
theorem conserves_serve (buffer : LineBuffer) {use : Use} (h : use ≠ .clear) :
    handedOn (buffer.serve use).1 ++ (buffer.serve use).2.bytes = buffer.bytes ++ use.pushed := by
  cases use with
  | push bytes => rfl
  | takeThrough stop =>
    change ((buffer.takeThrough stop).1.getD [] ++ []) ++ _ = buffer.bytes ++ []
    rw [List.append_nil, List.append_nil]
    exact bytes_takeThrough buffer stop
  | takeAll =>
    change (buffer.takeAll.1.getD [] ++ []) ++ _ = buffer.bytes ++ []
    rw [List.append_nil, List.append_nil]
    exact bytes_takeAll buffer
  | clear => exact absurd rfl h

theorem conserves_serveAll (buffer : LineBuffer) {uses : List Use} (h : .clear ∉ uses) :
    handedOn (buffer.serveAll uses).1 ++ (buffer.serveAll uses).2.bytes
      = buffer.bytes ++ uses.flatMap Use.pushed := by
  induction uses generalizing buffer with
  | nil => exact (List.append_nil _).symm
  | cons use uses ih =>
    have huse : use ≠ .clear := fun heq => h (heq ▸ List.mem_cons_self)
    have huses : .clear ∉ uses := List.not_mem_of_not_mem_cons h
    rw [serveAll_cons, handedOn_append, List.append_assoc, ih _ huses, ← List.append_assoc,
      conserves_serve buffer huse, List.append_assoc, List.flatMap_cons]

theorem serveAll_push (buffer : LineBuffer) (pieces : List Bytes) :
    buffer.serveAll (pieces.map .push) = ([], buffer.push pieces.flatten) := by
  induction pieces generalizing buffer with
  | nil => simp [serveAll, push]
  | cons piece pieces ih =>
    have hpush : buffer.serve (.push piece) = ([], buffer.push piece) := rfl
    have hjoin : (buffer.push piece).push pieces.flatten
        = buffer.push (piece :: pieces).flatten := by
      simp [push, List.append_assoc]
    rw [List.map_cons, serveAll_cons, hpush, List.nil_append, ih, hjoin]

/-- Pushes in a row are one push. -/
theorem serveAll_merged (buffer : LineBuffer) (before after : List Use) (pieces : List Bytes) :
    buffer.serveAll (before ++ (pieces.map .push ++ after))
      = buffer.serveAll (before ++ .push pieces.flatten :: after) := by
  rw [serveAll_append, serveAll_append buffer before, serveAll_append _ (pieces.map .push),
    serveAll_push]
  rfl

/-- The buffer holds nothing at the beginning and behind a clear. -/
def IsFresh (before : List Use) : Prop := before = [] ∨ before.getLast? = some .clear

instance (before : List Use) : Decidable (IsFresh before) :=
  inferInstanceAs (Decidable (_ ∨ _))

theorem serveAll_of_isFresh {before : List Use} (h : IsFresh before) :
    (empty.serveAll before).2 = empty := by
  rcases h with rfl | hlast
  · rfl
  · obtain ⟨earlier, rfl⟩ := List.getLast?_eq_some_iff.1 hlast
    rw [serveAll_append]
    rfl

/-- A new buffer is a queue that loses nothing, however it is used. From the beginning or a clear on,
what was handed on and what is held are all that was pushed, in its order, up to the next clear. What
is taken through a byte ends in that byte and has it nowhere else, and there is nothing to take, and
nothing changes, exactly if the byte is not held. Taking all gives everything, or nothing exactly if
nothing is held. How the bytes were cut into pushes cannot be told from the results. -/
theorem hands_on_in_order :
    (∀ before during, IsFresh before → .clear ∉ during →
      ∃ results, (empty.serveAll (before ++ during)).1 = (empty.serveAll before).1 ++ results ∧
        handedOn results ++ (empty.serveAll (before ++ during)).2.bytes
          = during.flatMap Use.pushed) ∧
    (∀ (buffer : LineBuffer) stop,
      (∀ line, (buffer.takeThrough stop).1 = some line →
        ∃ body, line = body ++ [stop] ∧ stop ∉ body) ∧
      ((buffer.takeThrough stop).1 = none ↔ stop ∉ buffer.bytes) ∧
      (stop ∉ buffer.bytes → (buffer.takeThrough stop).2 = buffer)) ∧
    (∀ buffer : LineBuffer,
      (buffer.takeAll.1 = none ↔ buffer.bytes = []) ∧
      (buffer.bytes ≠ [] → buffer.takeAll = (some buffer.bytes, empty))) ∧
    ∀ (buffer : LineBuffer) before after (pieces : List Bytes),
      buffer.serveAll (before ++ (pieces.map .push ++ after))
        = buffer.serveAll (before ++ .push pieces.flatten :: after) := by
  refine ⟨?_, ?_, fun buffer => ⟨takeAll_eq_none_iff buffer, takeAll_of_ne_nil⟩, serveAll_merged⟩
  · intro before during hfresh hduring
    refine ⟨(empty.serveAll during).1, ?_, ?_⟩
    · rw [serveAll_append, serveAll_of_isFresh hfresh]
    · rw [serveAll_append, serveAll_of_isFresh hfresh]
      exact conserves_serveAll empty hduring
  · intro buffer stop
    refine ⟨?_, takeThrough_eq_none_iff buffer stop, ?_⟩
    · intro line hline
      have htake : buffer.takeThrough stop = (some line, (buffer.takeThrough stop).2) :=
        Prod.ext hline rfl
      exact exists_body_of_splitAfter (StreamLink.takeThrough_eq_some htake)
    · intro hmem
      have htake : buffer.takeThrough stop = (none, (buffer.takeThrough stop).2) :=
        Prod.ext ((takeThrough_eq_none_iff buffer stop).2 hmem) rfl
      exact (StreamLink.takeThrough_eq_none htake).1

/-- Two kinds of line ends, bytes that are thrown away, and a line in three pieces. -/
theorem hands_on_in_order_mixed :
    let before : List Use := [.push [1, 2], .takeThrough 7, .clear]
    let during : List Use := [.push [3], .takeThrough 9, .push [9, 4], .push [7, 9], .takeThrough 7,
      .takeThrough 7, .takeAll]
    let merged : List Use := [.push [3], .takeThrough 9, .push [9, 4, 7, 9], .takeThrough 7,
      .takeThrough 7, .takeAll]
    (empty.serveAll (before ++ during)).1 = [none, none, some [3, 9, 4, 7], none, some [9]] ∧
      (∃ results, (empty.serveAll (before ++ during)).1 = [none] ++ results ∧
        handedOn results ++ (empty.serveAll (before ++ during)).2.bytes = [3, 9, 4, 7, 9]) ∧
      empty.serveAll during = empty.serveAll merged := by
  intro before during merged
  obtain ⟨hkept, -, -, hmerged⟩ := hands_on_in_order
  refine ⟨by decide, hkept before during (by decide) (by decide), ?_⟩
  exact hmerged empty [.push [3], .takeThrough 9] [.takeThrough 7, .takeThrough 7, .takeAll]
    [[9, 4], [7, 9]]

end LineBuffer
end BenchScript
