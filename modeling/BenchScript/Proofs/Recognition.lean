import BenchScript.Proofs.Digits
import BenchScript.Proofs.Encoding
import BenchScript.Proofs.Framing

set_option autoImplicit false

namespace BenchScript

/-- Only the length of its payload can keep a binary frame from being sent. -/
theorem Frame.encode_binary_eq_error_iff {tag : Char} {payload : Bytes} {e : LinkError} :
    (binary tag payload).encode = .error e
      ↔ maxPayload < payload.length ∧ e = .payloadTooLong payload.length := by
  rw [encode]
  split
  · next hlong =>
    refine ⟨fun h => ⟨hlong, (Except.error.inj h).symm⟩, fun h => ?_⟩
    rw [h.2]
  · next hshort =>
    refine iff_of_false (fun h => ?_) fun h => hshort h.1
    cases h

/-- A line with the shape of a binary frame is the line of one, and of no other. -/
theorem eq_frameBody_of_framePayload? {body payload : Bytes}
    (h : framePayload? body = some payload) :
    payload.length ≤ maxPayload ∧
      ∃ tag, (tag = dataTag ∨ tag = checksumTag) ∧ body = frameBody tag payload := by
  match body, h with
  | first :: length :: rest, h =>
    rw [framePayload?] at h
    split at h
    · next hmatch =>
      cases h
      obtain ⟨htag, hlength⟩ := hmatch
      have hbound : payload.length ≤ maxPayload := hlength ▸ Nat.le_of_lt_succ length.toNat_lt
      have hbyte : length = UInt8.ofNat payload.length := by rw [← hlength, UInt8.ofNat_toNat]
      refine ⟨hbound, ?_⟩
      rcases htag with rfl | rfl
      · exact ⟨dataTag, Or.inl rfl, by rw [frameBody, ← hbyte]⟩
      · exact ⟨checksumTag, Or.inr rfl, by rw [frameBody, ← hbyte]⟩
    · cases h

theorem head?_of_dropTerminator {line : Bytes} {b : UInt8}
    (h : (dropTerminator line).head? = some b) : line.head? = some b := by
  unfold dropTerminator at h
  split at h
  · obtain ⟨last, hline⟩ := List.dropLast_prefix line
    rw [← hline, List.head?_append, h]
    rfl
  · exact h

namespace Response

theorem data_ofLine_frame {tag : Char} (htag : tag = dataTag ∨ tag = checksumTag)
    {payload : Bytes} (h : payload.length ≤ maxPayload) :
    ∃ line, (Frame.binary tag payload).encode = .ok line ∧ (ofLine line).data = payload := by
  refine ⟨_, encode_binary h tag, ?_⟩
  rw [ofLine_terminated, framePayload?_frameBody htag h]
  rfl

theorem row_ofLine_text {text : Text} (h : ∀ c ∈ text, c.toNat < 128) :
    ∃ line, (Frame.text text).encode = .ok line ∧ (ofLine line).row = text := by
  refine ⟨_, rfl, ?_⟩
  rw [ofLine_terminated, asciiBytes_of_ascii h]
  exact Utf8.decodeLenient_encode text

theorem encode_of_data_ofLine {line payload : Bytes} (h : (ofLine line).data = payload)
    (hsome : payload ≠ []) :
    ∃ tag, (tag = dataTag ∨ tag = checksumTag) ∧ line.head? = some (asciiByte tag) ∧
      (Frame.binary tag payload).encode = .ok (dropTerminator line ++ [terminator]) := by
  have hshape : framePayload? (dropTerminator line) = some payload := by
    change (framePayload? (dropTerminator line)).getD [] = payload at h
    cases hread : framePayload? (dropTerminator line) with
    | none =>
      rw [hread] at h
      exact absurd h.symm hsome
    | some read =>
      rw [hread] at h
      exact congrArg some h
  obtain ⟨hlength, tag, htag, hbody⟩ := eq_frameBody_of_framePayload? hshape
  refine ⟨tag, htag, head?_of_dropTerminator ?_, ?_⟩
  · rw [hbody]
    rfl
  · rw [encode_binary hlength, hbody]

/-- Reading recognises exactly what encoding produces: a payload is refused for its length alone,
data and ASCII text come back from their lines, and a line that is read as data is the line that the
frame of that data goes out as. -/
theorem recognises_encoded :
    (∀ (tag : Char) (payload : Bytes) (e : LinkError),
      (Frame.binary tag payload).encode = .error e
        ↔ 255 < payload.length ∧ e = .payloadTooLong payload.length) ∧
    (∀ (tag : Char) (payload : Bytes), tag = 'D' ∨ tag = 'X' → payload.length ≤ 255 →
      ∃ line, (Frame.binary tag payload).encode = .ok line ∧ (ofLine line).data = payload) ∧
    (∀ text : Text, (∀ c ∈ text, c.toNat < 128) →
      ∃ line, (Frame.text text).encode = .ok line ∧ (ofLine line).row = text) ∧
    ∀ line payload : Bytes, (ofLine line).data = payload → payload ≠ [] →
      ∃ tag, (tag = 'D' ∨ tag = 'X') ∧ line.head? = some (asciiByte tag) ∧
        (Frame.binary tag payload).encode = .ok (dropTerminator line ++ [terminator]) :=
  ⟨fun _ _ _ => Frame.encode_binary_eq_error_iff, fun _ _ htag => data_ofLine_frame htag,
    fun _ => row_ofLine_text, fun _ _ => encode_of_data_ofLine⟩

/-- Terminators in a payload, at the end of a text and behind the length byte change nothing. -/
theorem recognises_encoded_terminators :
    (∃ line, (Frame.binary 'X' [0x0A, 0x0A]).encode = .ok line ∧
      (ofLine line).data = [0x0A, 0x0A]) ∧
    (∃ line, (Frame.text ['D', '\n']).encode = .ok line ∧ (ofLine line).row = ['D', '\n']) ∧
    ∃ tag, (tag = 'D' ∨ tag = 'X') ∧ [0x44, 2, 0x0A, 0x0B].head? = some (asciiByte tag) ∧
      (Frame.binary tag [0x0A, 0x0B]).encode
        = .ok (dropTerminator [0x44, 2, 0x0A, 0x0B] ++ [terminator]) := by
  obtain ⟨-, hframe, htext, hline⟩ := recognises_encoded
  exact ⟨hframe 'X' _ (Or.inr rfl) (by decide), htext _ (by simp), hline _ _ rfl (by decide)⟩

end Response
end BenchScript
