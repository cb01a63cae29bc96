import BenchScript.Proofs.Blindness
import BenchScript.Proofs.Dispatch

set_option autoImplicit false

namespace BenchScript

namespace Text

/-- Only the 26 small letters have another upper case. -/
theorem toUpper_of_not_ascii {c : Char} (h : ¬ c.toNat < 128) : c.toUpper = c := by
  refine dif_neg fun hsmall => h ?_
  have hle : c.val.toNat ≤ 'z'.val.toNat := UInt32.le_iff_toNat_le.1 hsmall.2
  exact Nat.lt_of_le_of_lt hle (by decide)

theorem isBlank_toUpper (c : Char) : isBlank c.toUpper = isBlank c := by
  by_cases hascii : c.toNat < 128
  · exact forall_ascii (P := fun c => isBlank c.toUpper = isBlank c) (by decide) hascii
  · rw [toUpper_of_not_ascii hascii]

theorem toUpper_bne_space (c : Char) : (c.toUpper != ' ') = (c != ' ') := by
  by_cases hascii : c.toNat < 128
  · exact forall_ascii (P := fun c => (c.toUpper != ' ') = (c != ' ')) (by decide) hascii
  · rw [toUpper_of_not_ascii hascii]

theorem toUpper_toUpper (c : Char) : c.toUpper.toUpper = c.toUpper := by
  by_cases hascii : c.toNat < 128
  · exact forall_ascii (P := fun c => c.toUpper.toUpper = c.toUpper) (by decide) hascii
  · rw [toUpper_of_not_ascii hascii, toUpper_of_not_ascii hascii]

end Text

def spelling (text : Text) : Text := (Text.trim text).map Char.toUpper

theorem spelling_spelling (text : Text) : spelling (spelling text) = spelling text := by
  have htrim : Text.trim (spelling text) = spelling text :=
    ((Text.trimmed_trim text).map Text.isBlank_toUpper).trim_eq
  have hupper : Char.toUpper ∘ Char.toUpper = Char.toUpper := funext Text.toUpper_toUpper
  rw [spelling, htrim, spelling, List.map_map, hupper]

namespace Hex

def upperDigits : Text := "0123456789ABCDEF".toList

end Hex

namespace IsHexDigit

variable {c : Char}

theorem toUpper_mem (h : IsHexDigit c) : c.toUpper ∈ Hex.upperDigits :=
  forall_ascii (P := fun c => IsHexDigit c → c.toUpper ∈ Hex.upperDigits) (by decide) h.toNat_lt h

theorem digit?_toUpper (h : IsHexDigit c) :
    Hex.digit? (asciiByte c.toUpper) = Hex.digit? (asciiByte c) :=
  forall_ascii
    (P := fun c => IsHexDigit c → Hex.digit? (asciiByte c.toUpper) = Hex.digit? (asciiByte c))
    (by decide) h.toNat_lt h

theorem toUpper (h : IsHexDigit c) : IsHexDigit c.toUpper := by
  unfold IsHexDigit
  rw [h.digit?_toUpper]
  exact h

/-- No digit becomes a tag in upper case. -/
theorem isHexTag_toUpper (h : IsHexDigit c) : isHexTag c.toUpper = isHexTag c :=
  forall_ascii (P := fun c => IsHexDigit c → isHexTag c.toUpper = isHexTag c) (by decide)
    h.toNat_lt h

end IsHexDigit

theorem toUpper_of_isHexTag {c : Char} (h : isHexTag c = true) : c.toUpper = c := by
  simp only [isHexTag, Bool.or_eq_true, beq_iff_eq] at h
  rcases h with (rfl | rfl) | rfl <;> rfl

theorem toNat_lt_of_isHexTag {c : Char} (h : isHexTag c = true) : c.toNat < 128 := by
  simp only [isHexTag, Bool.or_eq_true, beq_iff_eq] at h
  rcases h with (rfl | rfl) | rfl <;> decide

namespace Hex

theorem decodePairs_toUpper (index : Nat) :
    ∀ digits : Text, (∀ c ∈ digits, IsHexDigit c) →
      decodePairs index (asciiBytes (digits.map Char.toUpper))
        = decodePairs index (asciiBytes digits)
  | [], _ => rfl
  | [_], _ => rfl
  | high :: low :: rest, h => by
    obtain ⟨hhigh, hlow, hrest⟩ : IsHexDigit high ∧ IsHexDigit low ∧ ∀ c ∈ rest, IsHexDigit c := by
      simpa only [List.forall_mem_cons] using h
    have ih := decodePairs_toUpper (index + 2) rest hrest
    obtain ⟨highValue, hhighValue⟩ := Option.isSome_iff_exists.1 hhigh
    obtain ⟨lowValue, hlowValue⟩ := Option.isSome_iff_exists.1 hlow
    unfold asciiBytes at ih ⊢
    simp only [List.map_cons, decodePairs, hhigh.digit?_toUpper, hlow.digit?_toUpper, hhighValue,
      hlowValue, ih]

theorem decode_toUpper {digits : Text} (h : ∀ c ∈ digits, IsHexDigit c) :
    decode (digits.map Char.toUpper) = decode digits := by
  have hupper : ∀ c ∈ digits.map Char.toUpper, c.toNat < 128 := by
    intro c hc
    obtain ⟨d, hd, rfl⟩ := List.mem_map.1 hc
    exact (h d hd).toUpper.toNat_lt
  have hlength :
      (asciiBytes (digits.map Char.toUpper)).length = (asciiBytes digits).length := by
    simp only [asciiBytes, List.length_map]
  unfold decode
  rw [← asciiBytes_of_ascii hupper, ← asciiBytes_of_ascii fun c hc => (h c hc).toNat_lt]
  simp only [hlength, decodePairs_toUpper 0 digits h]

end Hex

section Spelled

variable {text : Text} (hsome : hexDigits text ≠ []) (hdigits : ∀ c ∈ hexDigits text, IsHexDigit c)
include hsome hdigits

theorem filter_spelling :
    (spelling text).filter (· != ' ') = (text.filter (· != ' ')).map Char.toUpper := by
  have hspaces : (fun c : Char => c != ' ') ∘ Char.toUpper = (· != ' ') :=
    funext Text.toUpper_bne_space
  rw [spelling, List.filter_map, hspaces, Text.filter_trim (isBlank_of_hexDigits hsome hdigits)]

/-- The spelling has a tag to be dropped exactly if the text has one. -/
theorem hexDigits_spelling : hexDigits (spelling text) = (hexDigits text).map Char.toUpper := by
  obtain ⟨first, rest, hfilter, hfirst, hrest, -⟩ := filter_of_hexDigits hsome hdigits
  have htag : isHexTag first.toUpper = isHexTag first :=
    hfirst.elim (fun h => by rw [toUpper_of_isHexTag h]) IsHexDigit.isHexTag_toUpper
  have hsize : Utf8.size ((first :: rest).map Char.toUpper) = Utf8.size (first :: rest) := by
    have hascii : ∀ c ∈ first :: rest, c.toNat < 128 ∧ c.toUpper.toNat < 128 := by
      intro c hc
      rcases List.mem_cons.1 hc with rfl | hc
      · refine hfirst.elim (fun h => ?_) fun h => ⟨h.toNat_lt, h.toUpper.toNat_lt⟩
        rw [toUpper_of_isHexTag h]
        exact ⟨toNat_lt_of_isHexTag h, toNat_lt_of_isHexTag h⟩
      · exact ⟨(hrest c hc).toNat_lt, (hrest c hc).toUpper.toNat_lt⟩
    rw [Utf8.size_of_ascii fun c hc => (hascii c hc).1, Utf8.size_of_ascii, List.length_map]
    intro c hc
    obtain ⟨d, hd, rfl⟩ := List.mem_map.1 hc
    exact (hascii d hd).2
  have hspelled := filter_spelling hsome hdigits
  rw [hfilter, List.map_cons] at hspelled
  rw [List.map_cons] at hsize
  unfold hexDigits
  rw [hspelled, hfilter]
  simp only [htag, hsize]
  split <;> rfl

theorem hexFrame_spelling (limit : Nat) : hexFrame limit (spelling text) = hexFrame limit text := by
  have hline : (Text.trim (spelling text)).map Char.toUpper = spelling text :=
    spelling_spelling text
  unfold hexFrame
  rw [hexDigits_spelling hsome hdigits, Hex.decode_toUpper hdigits, List.length_map, hline]
  simp only [List.map_eq_nil_iff, hsome, if_false]
  rfl

end Spelled

/-- A line of hexadecimal text: one tag at most, and behind it digits in upper case and spaces. -/
def IsSpelling (line : Text) : Prop :=
  ∃ (tag? : Option Char) (rest : Text), line = tag?.toList ++ rest ∧
    (∀ tag, tag? = some tag → isHexTag tag = true) ∧ ∀ c ∈ rest, c = ' ' ∨ c ∈ Hex.upperDigits

theorem IsHexText.isSpelling {limit : Nat} {text : Text} (h : IsHexText limit text) :
    IsSpelling (text.map Char.toUpper) := by
  obtain ⟨first, rest, rfl, hfirst, hrest⟩ := h.shape
  have hupper : ∀ c ∈ rest.map Char.toUpper, c = ' ' ∨ c ∈ Hex.upperDigits := by
    intro c hc
    obtain ⟨d, hd, rfl⟩ := List.mem_map.1 hc
    rcases hrest d hd with rfl | hdigit
    · exact Or.inl rfl
    · exact Or.inr hdigit.toUpper_mem
  rcases hfirst with htag | hdigit
  · refine ⟨some first, rest.map Char.toUpper, ?_, fun tag h => ?_, hupper⟩
    · rw [List.map_cons, toUpper_of_isHexTag htag]
      rfl
    · rwa [← Option.some.inj h]
  · refine ⟨none, (first :: rest).map Char.toUpper, rfl, nofun, ?_⟩
    rw [List.map_cons]
    exact List.forall_mem_cons.2 ⟨Or.inr hdigit.toUpper_mem, hupper⟩

theorem IsSpelling.toNat_lt {line : Text} (h : IsSpelling line) : ∀ c ∈ line, c.toNat < 128 := by
  obtain ⟨tag?, rest, rfl, htag, hrest⟩ := h
  intro c hc
  rcases List.mem_append.1 hc with hc | hc
  · exact toNat_lt_of_isHexTag (htag c (Option.mem_toList.1 hc))
  · have hascii : (' ' :: Hex.upperDigits).all (·.toNat < 128) = true := by decide
    exact of_decide_eq_true (List.all_eq_true.1 hascii c (List.mem_cons.2 (hrest c hc)))

namespace Engine

variable {ε : Type} [Environment ε]

theorem wellFormed_of_accepted {e : Engine ε} {text : Text}
    (h : ∀ error, (e.sendDigits text).1 ≠ .error (.format error)) :
    Hex.WellFormed (hexDigits text) := by
  refine Classical.not_not.1 fun hwrong => ?_
  obtain ⟨error, herror⟩ := e.sendDigits_refuses hwrong
  exact h _ (congrArg Prod.fst herror)

theorem sent_of_hexFrame (e : Engine (Recorded ε)) {text : Text} {frame : Frame}
    (h : hexFrame e.settings.hexInlineLimit text = .ok frame) :
    Workspace.Sent (.ok frame) e.workspace
      ((e.sendDigits text).1, (e.sendDigits text).2.workspace) := by
  rw [← h]
  exact e.sent_sendDigits text

/-- Hexadecimal text carries the same bytes under all limits. Under one limit they are the payload
of a binary frame, under the other they are spelled out in a line of ASCII characters, none of which
is replaced on the wire. The line stands for the payload, and whatever becomes of the text when it
is sent becomes of the line. -/
theorem spelling_carries_payload {accepting inlined written : Engine (Recorded ε)} {text : Text}
    (haccepted : ∀ error, (accepting.sendDigits text).1 ≠ .error (.format error))
    (hvalid : inlined.settings.check = .ok ())
    (hshort : Utf8.size (hexDigits text) < inlined.settings.hexInlineLimit)
    (hlong : written.settings.hexInlineLimit ≤ Utf8.size (hexDigits text)) :
    ∃ payload line,
      (Frame.data payload).encode
        = .ok (asciiByte dataTag :: UInt8.ofNat payload.length :: payload ++ [terminator]) ∧
      Workspace.Sent (.ok (.data payload)) inlined.workspace
        ((inlined.sendDigits text).1, (inlined.sendDigits text).2.workspace) ∧
      IsSpelling line ∧ (Frame.text line).encode = .ok (Utf8.encode line ++ [terminator]) ∧
      Workspace.Sent (.ok (.text line)) written.workspace
        ((written.sendDigits text).1, (written.sendDigits text).2.workspace) ∧
      Hex.decode (hexDigits line) = .ok payload ∧
      (∀ e : Engine (Recorded ε), e.sendDigits line = e.sendDigits text) ∧
      ∀ again : Engine (Recorded ε),
        again.settings.hexInlineLimit = written.settings.hexInlineLimit →
        Workspace.Sent (.ok (.text line)) again.workspace
          ((again.sendDigits line).1, (again.sendDigits line).2.workspace) := by
  have hwell := wellFormed_of_accepted haccepted
  obtain ⟨payload, hdecode⟩ := hwell.exists_decode
  have hdigits := Hex.isHexDigit_of_decode hdecode
  have hlength := Hex.length_of_decode hdecode
  have hfits : payload.length ≤ maxPayload := by
    have hlimit := ((Settings.check_eq_ok_iff _).1 hvalid).2
    have hsize := Hex.size_of_decode hdecode
    unfold maxInlineLimit at hlimit
    omega
  have hspelling : IsSpelling (spelling text) :=
    (isHexText_trim hwell.nonempty hdigits (Nat.zero_le _)).isSpelling
  have hdata : hexFrame inlined.settings.hexInlineLimit text = .ok (.data payload) := by
    unfold hexFrame
    rw [if_neg hwell.nonempty, hdecode]
    exact if_pos (by omega)
  have htext : hexFrame written.settings.hexInlineLimit text = .ok (.text (spelling text)) := by
    unfold hexFrame
    rw [if_neg hwell.nonempty, hdecode]
    exact if_neg (by omega)
  have hagain := hexFrame_spelling hwell.nonempty hdigits
  refine ⟨payload, spelling text, Frame.encode_data_of_le hfits, inlined.sent_of_hexFrame hdata,
    hspelling, ?_, written.sent_of_hexFrame htext, ?_, fun e => ?_, fun again hsame => ?_⟩
  · rw [Frame.encode, asciiBytes_of_ascii hspelling.toNat_lt]
  · rw [hexDigits_spelling hwell.nonempty hdigits, Hex.decode_toUpper hdigits, hdecode]
  · simp only [sendDigits, Workspace.sendDigits, hagain]
  · exact again.sent_of_hexFrame (by rw [hagain, hsame, htext])

def spellingOut : Engine (Recorded (Surroundings Link MemoryFiles Transcript)) :=
  idle { hexInlineLimit := 1 } ⟨⟨.canned {}, {}, {}⟩, []⟩

/-- Five characters are left of the text without its spaces, so that its tag is dropped. -/
theorem spelling_carries_payload_tagged :
    (∀ error, (confirmed.sendDigits " H 0a b1 ".toList).1 ≠ .error (.format error)) ∧
      confirmed.settings.check = .ok () ∧
      Utf8.size (hexDigits " H 0a b1 ".toList) < confirmed.settings.hexInlineLimit ∧
      spellingOut.settings.hexInlineLimit ≤ Utf8.size (hexDigits " H 0a b1 ".toList) ∧
      ∃ payload line, IsSpelling line ∧ Hex.decode (hexDigits line) = .ok payload ∧
        Workspace.Sent (.ok (.text line)) spellingOut.workspace
          ((spellingOut.sendDigits " H 0a b1 ".toList).1,
            (spellingOut.sendDigits " H 0a b1 ".toList).2.workspace) := by
  have hsent : (confirmed.sendDigits " H 0a b1 ".toList).1 = .ok () := rfl
  have haccepted : ∀ error,
      (confirmed.sendDigits " H 0a b1 ".toList).1 ≠ .error (.format error) := by
    intro error h
    rw [hsent] at h
    cases h
  have hvalid : confirmed.settings.check = .ok () := rfl
  have hshort : Utf8.size (hexDigits " H 0a b1 ".toList) < confirmed.settings.hexInlineLimit := by
    decide
  have hlong : spellingOut.settings.hexInlineLimit ≤ Utf8.size (hexDigits " H 0a b1 ".toList) := by
    decide
  obtain ⟨payload, line, -, -, hspelling, -, hline, hpayload, -, -⟩ :=
    spelling_carries_payload haccepted hvalid hshort hlong
  exact ⟨haccepted, hvalid, hshort, hlong, payload, line, hspelling, hpayload, hline⟩

end Engine
end BenchScript
