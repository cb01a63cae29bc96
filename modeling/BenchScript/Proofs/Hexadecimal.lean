import BenchScript.Proofs.Dispatch

set_option autoImplicit false

namespace BenchScript.Hex

theorem digit?_digitChar {n : Nat} (h : n < 16) :
    digit? (asciiByte (Nat.digitChar n)) = some n := by
  have hall : ∀ n < 16, digit? (asciiByte (Nat.digitChar n)) = some n := by decide
  exact hall n h

theorem digits_encodeByte (b : UInt8) :
    digit? (asciiByte (Nat.digitChar (b.toNat / 16))) = some (b.toNat / 16) ∧
      digit? (asciiByte (Nat.digitChar (b.toNat % 16))) = some (b.toNat % 16) := by
  have hb : b.toNat < 256 := b.toNat_lt
  exact ⟨digit?_digitChar (by omega), digit?_digitChar (by omega)⟩

theorem isHexDigit_of_mem_encode {bytes : Bytes} {c : Char} (h : c ∈ encode bytes) :
    IsHexDigit c := by
  obtain ⟨b, -, hc⟩ := List.mem_flatMap.1 h
  obtain ⟨hhigh, hlow⟩ := digits_encodeByte b
  simp only [encodeByte, List.mem_cons, List.not_mem_nil, or_false] at hc
  rcases hc with rfl | rfl
  · exact Option.isSome_of_eq_some hhigh
  · exact Option.isSome_of_eq_some hlow

theorem decodePairs_encode (bytes : Bytes) (index : Nat) :
    decodePairs index (asciiBytes (encode bytes)) = .ok bytes := by
  induction bytes generalizing index with
  | nil => rfl
  | cons b rest ih =>
    obtain ⟨hhigh, hlow⟩ := digits_encodeByte b
    have hrest : decodePairs (index + 2) (asciiBytes (rest.flatMap encodeByte)) = .ok rest :=
      ih (index + 2)
    have hbyte : 16 * (b.toNat / 16) + b.toNat % 16 = b.toNat := by omega
    unfold asciiBytes at hrest ⊢
    simp only [encode, List.flatMap_cons, encodeByte, List.cons_append, List.nil_append,
      List.map_cons, decodePairs, hhigh, hlow, hrest, hbyte, UInt8.ofNat_toNat]

theorem decode_encode (bytes : Bytes) : decode (encode bytes) = .ok bytes := by
  have hascii : ∀ c ∈ encode bytes, c.toNat < 128 :=
    fun c hc => (isHexDigit_of_mem_encode hc).toNat_lt
  have hlength : (asciiBytes (encode bytes)).length = 2 * bytes.length := by
    rw [asciiBytes, List.length_map, length_encode]
  unfold decode
  rw [← asciiBytes_of_ascii hascii]
  simp only [hlength]
  rw [if_neg (by omega), decodePairs_encode]

theorem encode_injective : Function.Injective encode := by
  intro a b heq
  have hdecode := congrArg decode heq
  rwa [decode_encode, decode_encode, Except.ok.injEq] at hdecode

/-- What a digit stands for is written as that digit in lower case. -/
theorem digitChar_of_digit? {c : Char} {n : Nat} (h : digit? (asciiByte c) = some n) :
    n < 16 ∧ Nat.digitChar n = c.toLower := by
  have hdigit : IsHexDigit c := Option.isSome_of_eq_some h
  exact forall_ascii
    (P := fun c => ∀ n ∈ digit? (asciiByte c), n < 16 ∧ Nat.digitChar n = c.toLower)
    (by decide) hdigit.toNat_lt n h

theorem encodeByte_pair {high low : Nat} (hhigh : high < 16) (hlow : low < 16) :
    encodeByte (UInt8.ofNat (16 * high + low)) = [Nat.digitChar high, Nat.digitChar low] := by
  have hvalue : (UInt8.ofNat (16 * high + low)).toNat = 16 * high + low :=
    UInt8.toNat_ofNat_of_lt' (show 16 * high + low < 256 by omega)
  have hquotient : (16 * high + low) / 16 = high := by omega
  have hremainder : (16 * high + low) % 16 = low := by omega
  rw [encodeByte, hvalue, hquotient, hremainder]

theorem encode_of_decodePairs (index : Nat) : ∀ (digits : Text) {bytes : Bytes},
    decodePairs index (asciiBytes digits) = .ok bytes → encode bytes = digits.map Char.toLower
  | [], bytes, h => by
    cases h
    rfl
  | [_], bytes, h => by cases h
  | high :: low :: rest, bytes, h => by
    change decodePairs index (asciiByte high :: asciiByte low :: asciiBytes rest) = _ at h
    rw [decodePairs] at h
    split at h
    · cases h
    · cases h
    · next highValue lowValue hhigh hlow =>
      split at h
      · next decoded hrest =>
        cases h
        obtain ⟨hhighValue, hhighChar⟩ := digitChar_of_digit? hhigh
        obtain ⟨hlowValue, hlowChar⟩ := digitChar_of_digit? hlow
        have ih : decoded.flatMap encodeByte = rest.map Char.toLower :=
          encode_of_decodePairs (index + 2) rest hrest
        rw [encode, List.flatMap_cons, encodeByte_pair hhighValue hlowValue, ih, hhighChar, hlowChar]
        rfl
      · cases h

theorem encode_of_decode {text : Text} {bytes : Bytes} (h : decode text = .ok bytes) :
    encode bytes = text.map Char.toLower := by
  have hpairs := (decodePairs_of_decode h).2
  rw [← asciiBytes_of_ascii fun c hc => (isHexDigit_of_decode h c hc).toNat_lt] at hpairs
  exact encode_of_decodePairs 0 text hpairs

structure IsFirstFault (bytes before : Bytes) (b : UInt8) : Prop where
  start : before ++ [b] <+: bytes
  digits : ∀ d ∈ before, d ∈ asciiBytes alphabet
  fault : b ∉ asciiBytes alphabet

namespace IsFirstFault

variable {bytes before before' : Bytes} {b b' d : UInt8}

theorem here (h : b ∉ asciiBytes alphabet) (bytes : Bytes) : IsFirstFault (b :: bytes) [] b :=
  ⟨⟨bytes, rfl⟩, List.forall_mem_nil _, h⟩

theorem behind (h : IsFirstFault bytes before b) (hd : d ∈ asciiBytes alphabet) :
    IsFirstFault (d :: bytes) (d :: before) b :=
  ⟨List.cons_prefix_cons.2 ⟨rfl, h.start⟩, List.forall_mem_cons.2 ⟨hd, h.digits⟩, h.fault⟩

theorem length_le (h : IsFirstFault bytes before b) (h' : IsFirstFault bytes before' b') :
    before.length ≤ before'.length := by
  refine Nat.le_of_not_lt fun hlt => ?_
  -- The other fault would be one of the digits in front of this one.
  have hlong : (before' ++ [b']).length ≤ before.length := by
    rw [List.length_append]
    exact hlt
  have hfront : before <+: bytes := (List.prefix_append before [b]).trans h.start
  have hwithin : before' ++ [b'] <+: before :=
    List.prefix_of_prefix_length_le h'.start hfront hlong
  exact h'.fault (h.digits b' (hwithin.subset (by simp)))

theorem unique (h : IsFirstFault bytes before b) (h' : IsFirstFault bytes before' b') :
    before = before' ∧ b = b' := by
  have hlength : (before ++ [b]).length = (before' ++ [b']).length := by
    have hle := h.length_le h'
    have hge := h'.length_le h
    simp only [List.length_append, List.length_singleton]
    omega
  have hsame : before ++ [b] <+: before' ++ [b'] :=
    List.prefix_of_prefix_length_le h.start h'.start (Nat.le_of_eq hlength)
  exact List.append_singleton_inj.1 (hsame.eq_of_length hlength)

end IsFirstFault

theorem not_mem_alphabet {b : UInt8} (h : digit? b = none) : b ∉ asciiBytes alphabet := by
  rw [← isSome_digit?_iff, h]
  exact Bool.false_ne_true

theorem mem_alphabet {b : UInt8} {n : Nat} (h : digit? b = some n) : b ∈ asciiBytes alphabet :=
  (isSome_digit?_iff b).1 (Option.isSome_of_eq_some h)

theorem firstFault_of_decodePairs {index : Nat} {digits : Bytes} {error : Error}
    (heven : digits.length % 2 = 0) (h : decodePairs index digits = .error error) :
    ∃ before b, IsFirstFault digits before b ∧
      error = .notDigit (Char.ofNat b.toNat) (index + before.length) := by
  fun_induction decodePairs index digits generalizing error with
  | case1 => cases h
  | case2 => simp at heven
  | case3 index high low rest hhigh =>
    cases h
    exact ⟨[], high, .here (not_mem_alphabet hhigh) _, rfl⟩
  | case4 index high low rest value hlow hhigh =>
    cases h
    exact ⟨[high], low, (IsFirstFault.here (not_mem_alphabet hlow) rest).behind
      (mem_alphabet hhigh), rfl⟩
  | case5 => cases h
  | case6 index high low rest highValue lowValue hlow hhigh fault hrest ih =>
    cases h
    have hpairs : rest.length % 2 = 0 := by
      simp only [List.length_cons] at heven
      omega
    obtain ⟨before, b, hfirst, rfl⟩ := ih hpairs hrest
    refine ⟨high :: low :: before, b,
      (hfirst.behind (mem_alphabet hlow)).behind (mem_alphabet hhigh), ?_⟩
    rw [List.length_cons, List.length_cons]
    congr 1
    omega

theorem decodePairs_eq_error_iff {digits : Bytes} (heven : digits.length % 2 = 0) (index : Nat)
    (error : Error) :
    decodePairs index digits = .error error ↔
      ∃ before b, IsFirstFault digits before b ∧
        error = .notDigit (Char.ofNat b.toNat) (index + before.length) := by
  refine ⟨firstFault_of_decodePairs heven, ?_⟩
  rintro ⟨before, b, hfirst, rfl⟩
  cases hread : decodePairs index digits with
  | ok bytes =>
    have hb : b ∈ digits := hfirst.start.subset (by simp)
    exact absurd ((isSome_digit?_iff b).1 (isSome_digit?_of_decodePairs hread b hb)) hfirst.fault
  | error other =>
    obtain ⟨before', b', hfirst', rfl⟩ := firstFault_of_decodePairs heven hread
    obtain ⟨rfl, rfl⟩ := hfirst.unique hfirst'
    rfl

theorem decode_eq_error_iff (text : Text) (error : Error) :
    decode text = .error error ↔
      Utf8.size text % 2 = 1 ∧ error = .oddLength (Utf8.size text) ∨
      Utf8.size text % 2 = 0 ∧ ∃ before b, IsFirstFault (Utf8.encode text) before b ∧
        error = .notDigit (Char.ofNat b.toNat) before.length := by
  unfold decode Utf8.size
  simp only
  split
  · next hodd =>
    simp [hodd, eq_comm]
  · next hodd =>
    have heven : (Utf8.encode text).length % 2 = 0 := by omega
    rw [decodePairs_eq_error_iff heven]
    simp [heven]

/-- Bytes are written with two digits each, from which they come back. A text can be read exactly if
it has an even number of bytes, all of them digits of either case, and what it stands for is written
as the text in lower case. Any other text is refused, for an odd number of bytes if there is one,
and otherwise for the first byte that is no digit. -/
theorem digits_stand_for_bytes :
    (∀ bytes, decode (encode bytes) = .ok bytes) ∧
    ∀ text,
      ((∃ bytes, decode text = .ok bytes) ↔
        Utf8.size text % 2 = 0 ∧ ∀ b ∈ Utf8.encode text, b ∈ asciiBytes alphabet) ∧
      (∀ bytes, decode text = .ok bytes → encode bytes = text.map Char.toLower) ∧
      ∀ error, decode text = .error error ↔
        Utf8.size text % 2 = 1 ∧ error = .oddLength (Utf8.size text) ∨
        Utf8.size text % 2 = 0 ∧ ∃ before b, IsFirstFault (Utf8.encode text) before b ∧
          error = .notDigit (Char.ofNat b.toNat) before.length :=
  ⟨decode_encode, fun text =>
    ⟨exists_decode_iff text, fun _ => encode_of_decode, decode_eq_error_iff text⟩⟩

/-- Only the first byte of a wider character is told, and only if the length is not at fault. -/
theorem digits_stand_for_bytes_wide :
    decode ['4', 'A', '\u00e9'] = .error (.notDigit '\u00c3' 2) ∧
      decode ['4', 'A', '\u00e9', '!'] = .error (.oddLength 5) ∧
      ∃ bytes, decode ['f', 'A', '0', '9'] = .ok bytes ∧ encode bytes = ['f', 'a', '0', '9'] := by
  obtain ⟨-, hread⟩ := digits_stand_for_bytes
  refine ⟨?_, ?_, ?_⟩
  · obtain ⟨-, -, hrefused⟩ := hread ['4', 'A', '\u00e9']
    refine (hrefused _).2 (Or.inr ⟨rfl, [0x34, 0x41], 0xC3, ?_, rfl⟩)
    have hdigits : [0x34, 0x41] ⊆ asciiBytes alphabet := by decide
    exact ⟨⟨[0xA9], rfl⟩, fun d hd => hdigits hd, by decide⟩
  · obtain ⟨-, -, hrefused⟩ := hread ['4', 'A', '\u00e9', '!']
    exact (hrefused _).2 (Or.inl ⟨rfl, rfl⟩)
  · obtain ⟨haccepted, hwritten, -⟩ := hread ['f', 'A', '0', '9']
    have hdigits : Utf8.encode ['f', 'A', '0', '9'] ⊆ asciiBytes alphabet := by decide
    obtain ⟨bytes, hbytes⟩ := haccepted.2 ⟨rfl, fun b hb => hdigits hb⟩
    exact ⟨bytes, hbytes, hwritten bytes hbytes⟩

end BenchScript.Hex
