import BenchScript.Proofs.Digits
import BenchScript.Proofs.Framing
import BenchScript.Proofs.Invariants
import BenchScript.Proofs.Traffic

set_option autoImplicit false

namespace BenchScript

/-- The length of the longest hexadecimal text that can have the shape of a binary frame: its second
character is `F` at most. -/
def longestShaped : Nat := 72

theorem framePayload?_eq_none_of_tag {tag : UInt8} (hd : tag ≠ asciiByte dataTag)
    (hx : tag ≠ asciiByte checksumTag) (rest : Bytes) : framePayload? (tag :: rest) = none := by
  cases rest with
  | nil => rfl
  | cons length payload => exact if_neg fun h => h.1.elim hd hx

theorem ne_tag_of_ne {c : Char} (hd : c ≠ dataTag) (hx : c ≠ checksumTag) :
    asciiByte c ≠ asciiByte dataTag ∧ asciiByte c ≠ asciiByte checksumTag := by
  by_cases hwide : c.toNat < 128
  · exact forall_ascii
      (P := fun c => c ≠ dataTag → c ≠ checksumTag →
        asciiByte c ≠ asciiByte dataTag ∧ asciiByte c ≠ asciiByte checksumTag)
      (by decide) hwide hd hx
  · rw [asciiByte_of_not_lt hwide]
    decide

/-- The first character of a text stays in front when references are replaced, unless it begins
one. -/
theorem Variables.expand_cons {bindings : Variables} {c : Char} {rest line : Text} (hc : c ≠ '$')
    (h : bindings.expand (c :: rest) = .ok line) : ∃ more, line = c :: more := by
  unfold Variables.expand at h
  rw [Piece.ofText, if_neg fun hmatch => hc hmatch.1, Piece.expand] at h
  split at h
  · next more _ =>
    cases h
    exact ⟨more, rfl⟩
  · cases h

theorem Action.tag_of_forward {c tag : Char} (h : Action.ofTag c = .forward tag) :
    c ≠ '$' ∧ c ≠ dataTag ∧ c ≠ checksumTag := by
  refine ⟨?_, ?_, ?_⟩ <;>
  · rintro rfl
    cases h

theorem not_shaped_of_forward {command : Command} {tag : Char} (h : command.action = .forward tag)
    {bindings : Variables} {line : Text} (he : bindings.expand command.line = .ok line) :
    framePayload? (asciiBytes line) = none := by
  cases command with
  | binary line => cases h
  | textual c raw =>
    obtain ⟨hreference, hdata, hchecksum⟩ := Action.tag_of_forward h
    obtain ⟨more, rfl⟩ := Variables.expand_cons hreference he
    obtain ⟨hd, hx⟩ := ne_tag_of_ne hdata hchecksum
    exact framePayload?_eq_none_of_tag hd hx _

/-- The second byte of hexadecimal text is a space or an upper-case digit, and with it as the length
the text is short. -/
theorem IsHexText.length_le {limit : Nat} {text : Text} (h : IsHexText limit text)
    (hs : framePayload? (asciiBytes (text.map Char.toUpper)) ≠ none) :
    text.length ≤ longestShaped := by
  obtain ⟨⟨first, rest, rfl, -, hrest⟩, -⟩ := h
  cases rest with
  | nil => exact absurd rfl hs
  | cons second rest =>
    have hlength : (asciiByte second.toUpper).toNat = rest.length := by
      refine Classical.not_not.1 fun hne => hs (if_neg fun hmatch => hne ?_)
      simpa using hmatch.2
    have hbound : (asciiByte second.toUpper).toNat ≤ 70 := by
      rcases hrest second List.mem_cons_self with rfl | hdigit
      · decide
      · exact hdigit.toUpper_bounds.2
    rw [hlength] at hbound
    simp only [List.length_cons]
    unfold longestShaped
    omega

theorem hexFrame_shaped {limit : Nat} {text line : Text}
    (h : hexFrame limit text = .ok (.text line))
    (hs : framePayload? (asciiBytes line) ≠ none) :
    limit ≤ line.length ∧ line.length ≤ longestShaped := by
  obtain ⟨sent, rfl, hsent⟩ := hexFrame_text h
  rw [List.length_map]
  exact ⟨hsent.length, hsent.length_le hs⟩

/-- With every limit that is low enough there is text that has the shape. -/
theorem exists_shaped {limit : Nat} (h : limit ≤ longestShaped) :
    ∃ text line, hexFrame limit text = .ok (.text line) ∧
      framePayload? (asciiBytes line) ≠ none := by
  have hdigits : hexDigits ('D' :: 'F' :: List.replicate 70 '0')
      = 'D' :: 'F' :: List.replicate 70 '0' := by decide
  obtain ⟨bytes, hbytes⟩ : ∃ bytes, Hex.decode ('D' :: 'F' :: List.replicate 70 '0') = .ok bytes :=
    ⟨_, rfl⟩
  refine ⟨'D' :: 'F' :: List.replicate 70 '0', 'D' :: 'F' :: List.replicate 70 '0', ?_, by decide⟩
  unfold hexFrame
  rw [hdigits, if_neg (List.cons_ne_nil _ _), hbytes]
  exact if_neg (Nat.not_lt_of_le h)

namespace Workspace

variable {ε : Type} [Environment ε] {w : Workspace ε} {settings : Settings} {command : Command}
  {line : Text}

/-- The line of a command that is passed on does not have the shape, whatever the variables are. -/
theorem not_shaped_of_outgoing {tag : Char} (ha : command.action = .forward tag)
    (h : .ok (.text line) ∈ w.outgoing settings command) :
    framePayload? (asciiBytes line) = none := by
  unfold outgoing outgoingLine at h
  rw [ha] at h
  simp only at h
  split at h
  · next text hexpand =>
    cases List.mem_singleton.1 h
    exact not_shaped_of_forward ha hexpand
  · cases h

theorem length_of_shaped (h : .ok (.text line) ∈ w.outgoing settings command)
    (hs : framePayload? (asciiBytes line) ≠ none) :
    settings.hexInlineLimit ≤ line.length ∧ line.length ≤ longestShaped := by
  have hline {frame : Text → Except LinkError Frame}
      (hm : .ok (.text line) ∈ w.outgoingLine command frame) :
      ∃ text, frame text = .ok (.text line) := by
    unfold outgoingLine at hm
    split at hm
    · exact ⟨_, (List.mem_singleton.1 hm).symm⟩
    · cases hm
  cases ha : command.action with
  | forward tag => exact absurd (not_shaped_of_outgoing ha h) hs
  | data =>
    unfold outgoing at h
    rw [ha] at h
    cases List.mem_singleton.1 h
  | hex =>
    unfold outgoing at h
    rw [ha] at h
    obtain ⟨text, heq⟩ := hline h
    exact hexFrame_shaped heq hs
  | checksum =>
    unfold outgoing at h
    rw [ha] at h
    obtain ⟨text, heq⟩ := hline h
    exact hexFrame_shaped (checksumFrame_text heq) hs
  | sendFile =>
    unfold outgoing at h
    rw [ha] at h
    obtain ⟨text, -, heq⟩ := List.mem_map.1 h
    exact hexFrame_shaped heq hs
  | condition | define | jump | message | quit | ask | append | routine =>
    unfold outgoing at h
    rw [ha] at h
    cases h

end Workspace

namespace Engine

section Sent

variable {ε : Type} [Environment ε]

theorem length_of_shaped {m : Engine ε} {line : Text} (h : .ok (.text line) ∈ m.outgoing)
    (hs : framePayload? (asciiBytes line) ≠ none) :
    m.settings.hexInlineLimit ≤ line.length ∧ line.length ≤ longestShaped := by
  unfold outgoing at h
  split at h
  · split at h
    · exact Workspace.length_of_shaped h hs
    · cases h
  · cases h

theorem length_of_shaped_call {e : Engine ε} {call : Call} :
    ∀ group ∈ e.outgoingOf call, ∀ line, .ok (.text line) ∈ group →
      framePayload? (asciiBytes line) ≠ none →
      e.settings.hexInlineLimit ≤ line.length ∧ line.length ≤ longestShaped := by
  intro group hgroup line hline hs
  have hcourse := (e.settings_call call).1
  cases call with
  | sendDigits text =>
    rw [List.mem_singleton.1 hgroup, List.mem_singleton] at hline
    exact hexFrame_shaped hline.symm hs
  | sendChecksum text =>
    rw [List.mem_singleton.1 hgroup, List.mem_singleton] at hline
    exact hexFrame_shaped (checksumFrame_text hline.symm) hs
  | load | loadFrom | cancel | close => cases hgroup
  | run | resume | runAnswered =>
    obtain ⟨m, hm, rfl⟩ := List.mem_map.1 hgroup
    rw [← hcourse m hm]
    exact length_of_shaped hline hs

theorem length_of_shaped_callAll (calls : List Call) (e : Engine ε) :
    ∀ group ∈ e.outgoingOfAll calls, ∀ line, .ok (.text line) ∈ group →
      framePayload? (asciiBytes line) ≠ none →
      e.settings.hexInlineLimit ≤ line.length ∧ line.length ≤ longestShaped := by
  induction calls generalizing e with
  | nil => exact List.forall_mem_nil _
  | cons call rest ih =>
    have hrest := ih (e.call call).2
    rw [(e.settings_call call).2] at hrest
    rw [outgoingOfAll]
    exact List.forall_mem_append.2 ⟨length_of_shaped_call, hrest⟩

end Sent

variable {ε : Type} [Environment ε]

/-- Text in the shape of a binary frame is hexadecimal text of no fewer characters than the limit
and no more than 72, so that an engine with a limit above that sends none. With every limit up to
there some text has the shape. -/
theorem text_in_shape (e : Engine (Recorded ε)) (calls : List Call) :
    (∃ passed, (e.callAll calls).2.record = e.record ++ passed ∧
      Traffic (e.outgoingOfAll calls) (traffic passed)) ∧
    (∀ (w : Workspace ε) (command : Command) (tag : Char) (line : Text),
      command.action = .forward tag → .ok (.text line) ∈ w.outgoing e.settings command →
      framePayload? (asciiBytes line) = none) ∧
    (∀ group ∈ e.outgoingOfAll calls, ∀ line, .ok (.text line) ∈ group →
      framePayload? (asciiBytes line) ≠ none →
      e.settings.hexInlineLimit ≤ line.length ∧ line.length ≤ longestShaped) ∧
    (longestShaped < e.settings.hexInlineLimit → ∀ group ∈ e.outgoingOfAll calls,
      ∀ frame bytes, .ok frame ∈ group → frame.encode = .ok bytes →
      (Response.ofLine bytes).data ≠ [] → ∃ tag payload, frame = .binary tag payload) ∧
    ∀ limit, limit ≤ longestShaped → ∃ text line, hexFrame limit text = .ok (.text line) ∧
      framePayload? (asciiBytes line) ≠ none := by
  have hshaped := length_of_shaped_callAll calls e
  refine ⟨transfers_callAll calls e, fun _ _ _ _ => Workspace.not_shaped_of_outgoing, hshaped, ?_,
    fun _ => exists_shaped⟩
  intro hlimit group hgroup frame bytes hframe hencode hdata
  cases frame with
  | binary tag payload => exact ⟨tag, payload, rfl⟩
  | text line =>
    cases hencode
    rw [ofLine_terminated] at hdata
    have hs : framePayload? (asciiBytes line) ≠ none := by
      intro hnone
      rw [hnone] at hdata
      exact hdata rfl
    obtain ⟨hlow, hhigh⟩ := hshaped group hgroup line hframe hs
    omega

/-- A line of hexadecimal text with a tag: behind the space, which is the byte for 32, stand 32
digits. -/
def disguised : Text := 'X' :: ' ' :: List.replicate 32 '0'

def sending (limit : Nat) : Engine Bench :=
  ((idle { hexInlineLimit := limit }
    ⟨⟨{}, MemoryFiles.put ['f'] [disguised] {}, {}⟩, []⟩).call (.load [['L', ' ', 'f']])).2

theorem outgoing_mem_outgoingOfAll {e : Engine ε} {routine : Text} (hw : e.isWaiting = false)
    (hr : e.routines.contains routine = true) :
    outgoing { e.begun with stack := [{ routine }] } ∈ e.outgoingOfAll [.run routine] := by
  rw [outgoingOfAll, outgoingOfAll, List.append_nil, outgoingOf_of_runs rfl,
    courseOf_run_of_contains hw hr]
  exact List.mem_map_of_mem (mem_course_self _)

/-- With the limit at 32 the line goes out as text, and has the shape of a binary frame. -/
theorem not_text_in_shape_below :
    (sending 32).settings.Valid ∧
      [.ok (.text disguised)] ∈ (sending 32).outgoingOfAll [.run []] ∧
      (asciiBytes disguised ++ [terminator], .ok ())
        ∈ ((sending 32).callAll [.run []]).2.workspace.around.writes ∧
      (Response.ofLine (asciiBytes disguised ++ [terminator])).data = List.replicate 32 0x30 := by
  obtain ⟨standing, left, hloop, hwritten⟩ : ∃ standing left,
      loop 3 { (sending 32).begun with stack := [{ routine := [] }] } = some (standing, left) ∧
      left.workspace.around.writes = [(asciiBytes disguised ++ [terminator], .ok ())] :=
    ⟨_, _, rfl, rfl⟩
  have hleft : ((sending 32).callAll [.run []]).2 = left :=
    congrArg Prod.snd (callAll_run_of_loop rfl (by decide) hloop)
  refine ⟨by decide, outgoing_mem_outgoingOfAll rfl (by decide), ?_, by decide⟩
  rw [hleft, hwritten]
  exact List.mem_singleton.2 rfl

/-- With the limit above 72 the same line goes out as the bytes that it stands for. -/
theorem text_in_shape_above :
    longestShaped < (sending 73).settings.hexInlineLimit ∧
      [.ok (.data (List.replicate 16 0))] ∈ (sending 73).outgoingOfAll [.run []] ∧
      ∃ bytes, (Frame.data (List.replicate 16 0)).encode = .ok bytes ∧
        (Response.ofLine bytes).data ≠ [] ∧
        ∃ tag payload, Frame.data (List.replicate 16 0) = .binary tag payload := by
  obtain ⟨-, -, -, habove, -⟩ := text_in_shape (sending 73) [.run []]
  have hsent : [.ok (.data (List.replicate 16 0))] ∈ (sending 73).outgoingOfAll [.run []] :=
    outgoing_mem_outgoingOfAll rfl (by decide)
  obtain ⟨bytes, hencode, hdata⟩ : ∃ bytes,
      (Frame.data (List.replicate 16 0)).encode = .ok bytes ∧ (Response.ofLine bytes).data ≠ [] :=
    ⟨_, rfl, by decide⟩
  exact ⟨by decide, hsent, bytes, hencode, hdata,
    habove (by decide) _ hsent _ bytes List.mem_cons_self hencode hdata⟩

end Engine
end BenchScript
