import BenchScript.Engine.Outgoing
import BenchScript.Proofs.Trimming

set_option autoImplicit false

namespace BenchScript

theorem forall_ascii {P : Char → Prop} (h : ∀ n : Fin 128, P (Char.ofNat n)) {c : Char}
    (hc : c.toNat < 128) : P c := by
  have hchar := h ⟨c.toNat, hc⟩
  rwa [Char.ofNat_toNat] at hchar

theorem asciiByte_of_not_lt {c : Char} (h : ¬ c.toNat < 128) : asciiByte c = 0x3F := if_neg h

theorem encodeChar_of_ascii {c : Char} (h : c.toNat < 128) :
    String.utf8EncodeChar c = [asciiByte c] := by
  unfold String.utf8EncodeChar asciiByte
  rw [if_pos h]
  exact if_pos (Nat.le_of_lt_succ h)

/-- On the wire and in UTF-8 an ASCII text has the same bytes. -/
theorem asciiBytes_of_ascii {text : Text} (h : ∀ c ∈ text, c.toNat < 128) :
    asciiBytes text = Utf8.encode text := by
  induction text with
  | nil => rfl
  | cons c rest ih =>
    obtain ⟨hc, hrest⟩ := List.forall_mem_cons.1 h
    unfold asciiBytes Utf8.encode at ih ⊢
    rw [List.map_cons, List.flatMap_cons, encodeChar_of_ascii hc, ih hrest]
    rfl

theorem Utf8.size_of_ascii {text : Text} (h : ∀ c ∈ text, c.toNat < 128) :
    Utf8.size text = text.length := by
  rw [Utf8.size, ← asciiBytes_of_ascii h, asciiBytes, List.length_map]

def IsHexDigit (c : Char) : Prop := (Hex.digit? (asciiByte c)).isSome = true

instance (c : Char) : Decidable (IsHexDigit c) := inferInstanceAs (Decidable (_ = true))

namespace IsHexDigit

variable {c : Char}

theorem toNat_lt (h : IsHexDigit c) : c.toNat < 128 := by
  refine Classical.not_not.1 fun hwide => ?_
  unfold IsHexDigit at h
  rw [asciiByte_of_not_lt hwide] at h
  cases h

theorem isBlank (h : IsHexDigit c) : Text.isBlank c = false :=
  forall_ascii (P := fun c => IsHexDigit c → Text.isBlank c = false) (by decide) h.toNat_lt h

/-- The byte of a digit in upper case. -/
theorem toUpper_bounds (h : IsHexDigit c) :
    0x30 ≤ (asciiByte c.toUpper).toNat ∧ (asciiByte c.toUpper).toNat ≤ 0x46 :=
  forall_ascii
    (P := fun c => IsHexDigit c →
      0x30 ≤ (asciiByte c.toUpper).toNat ∧ (asciiByte c.toUpper).toNat ≤ 0x46)
    (by decide) h.toNat_lt h

end IsHexDigit

theorem isBlank_of_isHexTag {c : Char} (h : isHexTag c = true) : Text.isBlank c = false := by
  simp only [isHexTag, Bool.or_eq_true, beq_iff_eq] at h
  rcases h with (rfl | rfl) | rfl <;> rfl

namespace Hex

theorem isSome_digit?_of_decodePairs {index : Nat} {digits bytes : Bytes}
    (h : decodePairs index digits = .ok bytes) : ∀ b ∈ digits, (digit? b).isSome = true := by
  fun_induction decodePairs index digits generalizing bytes with
  | case1 => exact nofun
  | case5 index high low rest highValue lowValue hlow hhigh decoded hrest ih =>
    intro b hb
    rcases List.mem_cons.1 hb with rfl | hb
    · rw [hhigh]
      rfl
    · rcases List.mem_cons.1 hb with rfl | hb
      · rw [hlow]
        rfl
      · exact ih hrest b hb
  | case2 | case3 | case4 | case6 => cases h

/-- Digits in pairs can be read. -/
theorem exists_decodePairs {digits : Bytes} (heven : digits.length % 2 = 0)
    (h : ∀ b ∈ digits, (digit? b).isSome = true) (index : Nat) :
    ∃ bytes, decodePairs index digits = .ok bytes := by
  fun_induction decodePairs index digits with
  | case1 => exact ⟨[], rfl⟩
  | case2 => simp at heven
  | case3 index high low rest hhigh =>
    have hdigit := h high List.mem_cons_self
    rw [hhigh] at hdigit
    cases hdigit
  | case4 index high low rest value hlow hhigh =>
    have hdigit := h low (List.mem_cons_of_mem _ List.mem_cons_self)
    rw [hlow] at hdigit
    cases hdigit
  | case5 => exact ⟨_, rfl⟩
  | case6 index high low rest highValue lowValue hlow hhigh error hrest ih =>
    have hpairs : rest.length % 2 = 0 := by
      simp only [List.length_cons] at heven
      omega
    obtain ⟨bytes, hbytes⟩ :=
      ih hpairs fun b hb => h b (List.mem_cons_of_mem _ (List.mem_cons_of_mem _ hb))
    rw [hrest] at hbytes
    cases hbytes

theorem length_of_decodePairs {index : Nat} {digits bytes : Bytes}
    (h : decodePairs index digits = .ok bytes) : digits.length = 2 * bytes.length := by
  fun_induction decodePairs index digits generalizing bytes with
  | case1 =>
    cases h
    rfl
  | case5 index high low rest highValue lowValue hlow hhigh decoded hrest ih =>
    cases h
    simp only [List.length_cons, ih hrest]
    omega
  | case2 | case3 | case4 | case6 => cases h

theorem toNat_lt_of_digit? {b : UInt8} (h : (digit? b).isSome = true) : b.toNat < 128 := by
  unfold digit? at h
  simp only [UInt8.le_iff_toNat_le] at h
  split at h
  · next hb => exact Nat.lt_of_le_of_lt hb.2 (by decide)
  · split at h
    · next hb => exact Nat.lt_of_le_of_lt hb.2 (by decide)
    · split at h
      · next hb => exact Nat.lt_of_le_of_lt hb.2 (by decide)
      · cases h

/-- The first byte of a wider character is no digit. -/
theorem isHexDigit_of_encodeChar {c : Char}
    (h : ∀ b ∈ String.utf8EncodeChar c, (digit? b).isSome = true) : IsHexDigit c := by
  have hfirst : ∀ n rest, 128 ≤ n → n < 256 → String.utf8EncodeChar c ≠ UInt8.ofNat n :: rest := by
    intro n rest hlow hhigh heq
    have hlt := toNat_lt_of_digit? (h (UInt8.ofNat n) (by simp [heq]))
    rw [UInt8.toNat_ofNat_of_lt' hhigh] at hlt
    omega
  have hrange : c.val.toNat < 0xD800 ∨ 0xDFFF < c.val.toNat ∧ c.val.toNat < 0x110000 := c.valid
  by_cases hwide : c.toNat < 128
  · exact h (asciiByte c) (by simp [encodeChar_of_ascii hwide])
  · have hvalue : ¬ c.val.toNat ≤ 127 := fun hle => hwide (Nat.lt_succ_of_le hle)
    unfold String.utf8EncodeChar at hfirst
    simp only [hvalue, if_false] at hfirst
    split at hfirst
    · exact absurd rfl (hfirst _ _ (by omega) (by omega))
    · split at hfirst
      · exact absurd rfl (hfirst _ _ (by omega) (by omega))
      · exact absurd rfl (hfirst _ _ (by omega) (by omega))

theorem isHexDigit_of_decode {text : Text} {bytes : Bytes} (h : decode text = .ok bytes) :
    ∀ c ∈ text, IsHexDigit c := by
  unfold decode at h
  simp only at h
  split at h
  · cases h
  · intro c hc
    apply isHexDigit_of_encodeChar
    intro b hb
    exact isSome_digit?_of_decodePairs h b (List.mem_flatMap.2 ⟨c, hc, hb⟩)

end Hex

/-- What is left of a text without its spaces, if its digits are digits: they have at most a tag in
front of them. -/
theorem filter_of_hexDigits {text : Text} (h : hexDigits text ≠ [])
    (hdigits : ∀ c ∈ hexDigits text, IsHexDigit c) :
    ∃ first rest, text.filter (· != ' ') = first :: rest ∧
      (isHexTag first = true ∨ IsHexDigit first) ∧ (∀ c ∈ rest, IsHexDigit c) ∧
      (hexDigits text).length ≤ (first :: rest).length := by
  unfold hexDigits at h hdigits ⊢
  cases hfilter : text.filter (· != ' ') with
  | nil =>
    rw [hfilter] at h
    exact absurd rfl h
  | cons first rest =>
    rw [hfilter] at hdigits
    refine ⟨first, rest, rfl, ?_⟩
    simp only at hdigits ⊢
    split at hdigits
    · next htag =>
      rw [if_pos htag]
      exact ⟨Or.inl (Bool.and_eq_true_iff.1 htag).1, hdigits, Nat.le_succ _⟩
    · next htag =>
      rw [if_neg htag]
      obtain ⟨hfirst, hrest⟩ := List.forall_mem_cons.1 hdigits
      exact ⟨Or.inr hfirst, hrest, Nat.le_refl _⟩

/-- Hexadecimal text has no blanks but spaces. -/
theorem isBlank_of_hexDigits {text : Text} (h : hexDigits text ≠ [])
    (hdigits : ∀ c ∈ hexDigits text, IsHexDigit c) :
    ∀ c ∈ text, c ≠ ' ' → Text.isBlank c = false := by
  obtain ⟨first, rest, hfilter, hfirst, hrest, -⟩ := filter_of_hexDigits h hdigits
  intro c hc hne
  have hmem : c ∈ text.filter (· != ' ') := List.mem_filter.2 ⟨hc, by simpa using hne⟩
  rw [hfilter] at hmem
  rcases List.mem_cons.1 hmem with rfl | hmem
  · exact hfirst.elim isBlank_of_isHexTag IsHexDigit.isBlank
  · exact (hrest c hmem).isBlank

/-- Hexadecimal text that goes out as text: digits and spaces, behind one tag at most, and no fewer
than the limit. -/
structure IsHexText (limit : Nat) (text : Text) : Prop where
  shape : ∃ first rest, text = first :: rest ∧ (isHexTag first = true ∨ IsHexDigit first) ∧
    ∀ c ∈ rest, c = ' ' ∨ IsHexDigit c
  length : limit ≤ text.length

theorem isHexText_trim {limit : Nat} {text : Text} (h : hexDigits text ≠ [])
    (hdigits : ∀ c ∈ hexDigits text, IsHexDigit c) (hlimit : limit ≤ (hexDigits text).length) :
    IsHexText limit (Text.trim text) := by
  obtain ⟨first, rest, hfilter, hfirst, hrest, hlength⟩ := filter_of_hexDigits h hdigits
  have htrim := Text.filter_trim (isBlank_of_hexDigits h hdigits)
  rw [hfilter] at htrim
  refine ⟨?_, ?_⟩
  · -- The first character is no space, so it is the first that is left without spaces.
    cases hcut : Text.trim text with
    | nil =>
      rw [hcut] at htrim
      cases htrim
    | cons c tail =>
      have hblank : Text.isBlank c = false := Text.isBlank_of_head?_trim (by rw [hcut]; rfl)
      have hspace : c ≠ ' ' := by
        rintro rfl
        cases hblank
      rw [hcut, List.filter_cons_of_pos (by simpa using hspace), List.cons.injEq] at htrim
      refine ⟨c, tail, rfl, ?_, ?_⟩
      · rw [htrim.1]
        exact hfirst
      · intro d hd
        by_cases hne : d = ' '
        · exact Or.inl hne
        · refine Or.inr (hrest d ?_)
          rw [← htrim.2]
          exact List.mem_filter.2 ⟨hd, by simpa using hne⟩
  · calc
      limit ≤ (first :: rest).length := Nat.le_trans hlimit hlength
      _ = ((Text.trim text).filter (· != ' ')).length := by rw [htrim]
      _ ≤ (Text.trim text).length := List.length_filter_le _ _

theorem hexFrame_text {limit : Nat} {text line : Text}
    (h : hexFrame limit text = .ok (.text line)) :
    ∃ sent, line = sent.map Char.toUpper ∧ IsHexText limit sent := by
  unfold hexFrame at h
  split at h
  · cases h
  · next hsome =>
    split at h
    · cases h
    · next bytes hdecode =>
      split at h
      · cases h
      · next hlimit =>
        cases h
        exact ⟨Text.trim text, rfl,
          isHexText_trim hsome (Hex.isHexDigit_of_decode hdecode) (Nat.le_of_not_lt hlimit)⟩

theorem checksumFrame_text {limit : Nat} {row text line : Text} {data : Bytes}
    (h : checksumFrame limit row data text = .ok (.text line)) :
    hexFrame limit text = .ok (.text line) := by
  unfold checksumFrame at h
  split at h
  · cases h
  · exact h

end BenchScript
