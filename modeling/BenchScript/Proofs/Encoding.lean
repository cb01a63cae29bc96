import BenchScript.Text.Utf8

set_option autoImplicit false

namespace BenchScript.Utf8

theorem range_ofNat {n : Nat} (hn : n < 256) {low high : UInt8} (hlow : low.toNat ≤ n)
    (hhigh : n ≤ high.toNat) : (low ≤ UInt8.ofNat n && UInt8.ofNat n ≤ high) = true := by
  simp only [Bool.and_eq_true, decide_eq_true_eq, UInt8.le_iff_toNat_le,
    UInt8.toNat_ofNat_of_lt' hn]
  exact ⟨hlow, hhigh⟩

theorem range_ofNat_above {n : Nat} (hn : n < 256) (low : UInt8) {high : UInt8}
    (hhigh : high.toNat < n) : (low ≤ UInt8.ofNat n && UInt8.ofNat n ≤ high) = false := by
  simp only [Bool.and_eq_false_iff, decide_eq_false_iff_not, UInt8.le_iff_toNat_le,
    UInt8.toNat_ofNat_of_lt' hn]
  exact Or.inr (Nat.not_le_of_lt hhigh)

theorem not_ascii_ofNat {n : Nat} (hn : n < 256) (h : 128 ≤ n) : ¬ UInt8.ofNat n < 0x80 := by
  rw [UInt8.lt_iff_toNat_lt, UInt8.toNat_ofNat_of_lt' hn]
  exact Nat.not_lt_of_le h

theorem isTail_ofNat {n : Nat} (h : n < 64) :
    isTail (UInt8.ofNat (n + 128)) = true ∧ tailBits (UInt8.ofNat (n + 128)) = n := by
  have hbyte : n + 128 < 256 := by omega
  constructor
  · exact range_ofNat hbyte (Nat.le_add_left 128 n) (show n + 128 ≤ 191 by omega)
  · unfold tailBits
    rw [UInt8.toNat_ofNat_of_lt' hbyte]
    omega

theorem isSecondOfThree_ofNat {first second : Nat} (hfirst : first < 16) (hsecond : second < 64)
    (hlong : first = 0 → 32 ≤ second) (hsurrogate : first = 13 → second < 32) :
    isSecondOfThree (UInt8.ofNat (first + 224)) (UInt8.ofNat (second + 128)) = true := by
  have hf := UInt8.toNat_ofNat_of_lt' (show first + 224 < 256 by omega)
  refine range_ofNat (by omega) ?_ ?_
  · split
    · next h =>
      rw [h] at hf
      have hzero : 224 = first + 224 := hf
      exact show 160 ≤ second + 128 by omega
    · exact Nat.le_add_left 128 second
  · split
    · next h =>
      rw [h] at hf
      have hlast : 237 = first + 224 := hf
      exact show second + 128 ≤ 159 by omega
    · exact show second + 128 ≤ 191 by omega

theorem isSecondOfFour_ofNat {first second : Nat} (hfirst : first < 5) (hsecond : second < 64)
    (hlong : first = 0 → 16 ≤ second) (hlast : first = 4 → second < 16) :
    isSecondOfFour (UInt8.ofNat (first + 240)) (UInt8.ofNat (second + 128)) = true := by
  have hf := UInt8.toNat_ofNat_of_lt' (show first + 240 < 256 by omega)
  refine range_ofNat (by omega) ?_ ?_
  · split
    · next h =>
      rw [h] at hf
      have hzero : 240 = first + 240 := hf
      exact show 144 ≤ second + 128 by omega
    · exact Nat.le_add_left 128 second
  · split
    · next h =>
      rw [h] at hf
      have hfour : 244 = first + 240 := hf
      exact show second + 128 ≤ 143 by omega
    · exact show second + 128 ≤ 191 by omega

theorem scan_one {n : Nat} (h : n < 128) (rest : Bytes) :
    scan (UInt8.ofNat n :: rest) = some (Char.ofNat n) :: scan rest := by
  have hn := UInt8.toNat_ofNat_of_lt' (show n < 256 by omega)
  have hlow : UInt8.ofNat n < 0x80 := by
    rw [UInt8.lt_iff_toNat_lt, hn]
    exact h
  rw [scan.eq_def]
  simp only [hlow, if_true, hn]

theorem scan_two {a b : Nat} (ha : 2 ≤ a) (ha' : a < 32) (hb : b < 64) (rest : Bytes) :
    scan (UInt8.ofNat (a + 192) :: UInt8.ofNat (b + 128) :: rest)
      = some (Char.ofNat (a * 64 + b)) :: scan rest := by
  have hlead : a + 192 < 256 := by omega
  have hlow := not_ascii_ofNat hlead (by omega)
  have htwo : (0xC2 ≤ UInt8.ofNat (a + 192) && UInt8.ofNat (a + 192) ≤ 0xDF) = true :=
    range_ofNat hlead (show 194 ≤ a + 192 by omega) (show a + 192 ≤ 223 by omega)
  obtain ⟨htail, hbits⟩ := isTail_ofNat hb
  rw [scan.eq_def]
  simp only [hlow, if_false, htwo, htail, if_true, hbits, UInt8.toNat_ofNat_of_lt' hlead]
  have hvalue : (a + 192) % 0x20 * 0x40 + b = a * 64 + b := by omega
  rw [hvalue]

theorem scan_three {a b c : Nat} (ha : a < 16) (hb : b < 64) (hc : c < 64)
    (hlong : a = 0 → 32 ≤ b) (hsurrogate : a = 13 → b < 32) (rest : Bytes) :
    scan (UInt8.ofNat (a + 224) :: UInt8.ofNat (b + 128) :: UInt8.ofNat (c + 128) :: rest)
      = some (Char.ofNat ((a * 64 + b) * 64 + c)) :: scan rest := by
  have hlead : a + 224 < 256 := by omega
  have hlow := not_ascii_ofNat hlead (by omega)
  have htwo : (0xC2 ≤ UInt8.ofNat (a + 224) && UInt8.ofNat (a + 224) ≤ 0xDF) = false :=
    range_ofNat_above hlead _ (show 223 < a + 224 by omega)
  have hthree : (0xE0 ≤ UInt8.ofNat (a + 224) && UInt8.ofNat (a + 224) ≤ 0xEF) = true :=
    range_ofNat hlead (Nat.le_add_left 224 a) (show a + 224 ≤ 239 by omega)
  have hsecond := isSecondOfThree_ofNat ha hb hlong hsurrogate
  obtain ⟨-, hbitsB⟩ := isTail_ofNat hb
  obtain ⟨htail, hbitsC⟩ := isTail_ofNat hc
  rw [scan.eq_def]
  simp only [hlow, if_false, htwo, Bool.false_eq_true, hthree, hsecond, htail, if_true, hbitsB,
    hbitsC, UInt8.toNat_ofNat_of_lt' hlead]
  have hvalue : ((a + 224) % 0x10 * 0x40 + b) * 0x40 + c = (a * 64 + b) * 64 + c := by omega
  rw [hvalue]

theorem scan_four {a b c d : Nat} (ha : a < 5) (hb : b < 64) (hc : c < 64) (hd : d < 64)
    (hlong : a = 0 → 16 ≤ b) (hlast : a = 4 → b < 16) (rest : Bytes) :
    scan (UInt8.ofNat (a + 240) :: UInt8.ofNat (b + 128) :: UInt8.ofNat (c + 128)
        :: UInt8.ofNat (d + 128) :: rest)
      = some (Char.ofNat (((a * 64 + b) * 64 + c) * 64 + d)) :: scan rest := by
  have hlead : a + 240 < 256 := by omega
  have hlow := not_ascii_ofNat hlead (by omega)
  have htwo : (0xC2 ≤ UInt8.ofNat (a + 240) && UInt8.ofNat (a + 240) ≤ 0xDF) = false :=
    range_ofNat_above hlead _ (show 223 < a + 240 by omega)
  have hthree : (0xE0 ≤ UInt8.ofNat (a + 240) && UInt8.ofNat (a + 240) ≤ 0xEF) = false :=
    range_ofNat_above hlead _ (show 239 < a + 240 by omega)
  have hfour : (0xF0 ≤ UInt8.ofNat (a + 240) && UInt8.ofNat (a + 240) ≤ 0xF4) = true :=
    range_ofNat hlead (Nat.le_add_left 240 a) (show a + 240 ≤ 244 by omega)
  have hsecond := isSecondOfFour_ofNat ha hb hlong hlast
  obtain ⟨-, hbitsB⟩ := isTail_ofNat hb
  obtain ⟨htailC, hbitsC⟩ := isTail_ofNat hc
  obtain ⟨htailD, hbitsD⟩ := isTail_ofNat hd
  rw [scan.eq_def]
  simp only [hlow, if_false, htwo, Bool.false_eq_true, hthree, hfour, hsecond, htailC, htailD,
    if_true, hbitsB, hbitsC, hbitsD, UInt8.toNat_ofNat_of_lt' hlead]
  have hvalue : (((a + 240) % 0x08 * 0x40 + b) * 0x40 + c) * 0x40 + d
      = ((a * 64 + b) * 64 + c) * 64 + d := by omega
  rw [hvalue]

/-- The cases are the ranges of a character's number for one, two, three and four bytes. -/
theorem scan_encodeChar (c : Char) (rest : Bytes) :
    scan (String.utf8EncodeChar c ++ rest) = some c :: scan rest := by
  have hrange : c.val.toNat < 0xD800 ∨ 0xDFFF < c.val.toNat ∧ c.val.toNat < 0x110000 := c.valid
  have hback {n : Nat} (h : n = c.val.toNat) :
      some (Char.ofNat n) :: scan rest = some c :: scan rest := by
    rw [h]
    exact congrArg (some · :: scan rest) c.ofNat_toNat
  unfold String.utf8EncodeChar
  generalize c.val.toNat = n at hrange hback ⊢
  simp only
  split
  · exact (scan_one (by omega) rest).trans (hback rfl)
  · split
    · exact (scan_two (by omega) (by omega) (by omega) rest).trans (hback (by omega))
    · split
      · exact (scan_three (by omega) (by omega) (by omega) (by omega) (by omega) rest).trans
          (hback (by omega))
      · exact (scan_four (by omega) (by omega) (by omega) (by omega) (by omega) (by omega)
          rest).trans (hback (by omega))

theorem scan_encode_append (text : Text) (rest : Bytes) :
    scan (encode text ++ rest) = text.map some ++ scan rest := by
  induction text with
  | nil => rfl
  | cons c text ih =>
    unfold encode at ih ⊢
    rw [List.flatMap_cons, List.append_assoc, scan_encodeChar, ih]
    rfl

theorem scan_encode (text : Text) : scan (encode text) = text.map some := by
  simpa [scan] using scan_encode_append text []

theorem decodeLenient_encode (text : Text) : decodeLenient (encode text) = text := by
  unfold decodeLenient
  rw [scan_encode, List.map_map]
  exact List.map_id text

theorem encode_injective : Function.Injective encode :=
  Function.LeftInverse.injective decodeLenient_encode

theorem scan_append {first : Bytes} (h : none ∉ scan first) (second : Bytes) :
    scan (first ++ second) = scan first ++ scan second := by
  -- Only an ill-formed part could take in more bytes; it heads every case but these five.
  fun_induction scan first with
  | case1 => rfl
  | case2 a rest hone ih =>
    rw [List.cons_append, scan.eq_def]
    simp only [hone, if_true, ih (List.not_mem_of_not_mem_cons h), List.cons_append]
  | case3 a hone htwo b rest htail ih =>
    rw [List.cons_append, List.cons_append, scan.eq_def]
    simp only [hone, if_false, htwo, htail, if_true,
      ih (List.not_mem_of_not_mem_cons h), List.cons_append]
  | case6 a hone htwo hthree b hsecond c rest htail ih =>
    rw [List.cons_append, List.cons_append, List.cons_append, scan.eq_def]
    simp only [hone, if_false, htwo, Bool.false_eq_true, hthree, hsecond, htail, if_true,
      ih (List.not_mem_of_not_mem_cons h), List.cons_append]
  | case11 a hone htwo hthree hfour b hsecond c htail d rest htail' ih =>
    rw [List.cons_append, List.cons_append, List.cons_append, List.cons_append, scan.eq_def]
    simp only [hone, if_false, htwo, Bool.false_eq_true, hthree, hfour, hsecond, htail, htail',
      if_true, ih (List.not_mem_of_not_mem_cons h), List.cons_append]
  | _ => exact absurd List.mem_cons_self h

theorem bounds_of_range {low high b : UInt8} (h : (low ≤ b && b ≤ high) = true) :
    low.toNat ≤ b.toNat ∧ b.toNat ≤ high.toNat := by
  simpa only [Bool.and_eq_true, decide_eq_true_eq, UInt8.le_iff_toNat_le] using h

theorem bounds_of_isTail {b : UInt8} (h : isTail b = true) : 128 ≤ b.toNat ∧ b.toNat ≤ 191 :=
  bounds_of_range h

theorem bounds_of_isSecondOfThree {a b : UInt8} (h : isSecondOfThree a b = true) :
    128 ≤ b.toNat ∧ b.toNat ≤ 191 ∧ (a.toNat = 224 → 160 ≤ b.toNat) ∧
      (a.toNat = 237 → b.toNat ≤ 159) := by
  have hbyte {n : UInt8} : a = n ↔ a.toNat = n.toNat := UInt8.toNat_inj.symm
  obtain ⟨hlow, hhigh⟩ := bounds_of_range h
  simp only [hbyte] at hlow hhigh
  change (if a.toNat = 224 then (160 : UInt8) else 128).toNat ≤ _ at hlow
  change _ ≤ (if a.toNat = 237 then (159 : UInt8) else 191).toNat at hhigh
  split at hlow <;> split at hhigh <;> simp only [UInt8.reduceToNat] at hlow hhigh <;> omega

theorem bounds_of_isSecondOfFour {a b : UInt8} (h : isSecondOfFour a b = true) :
    128 ≤ b.toNat ∧ b.toNat ≤ 191 ∧ (a.toNat = 240 → 144 ≤ b.toNat) ∧
      (a.toNat = 244 → b.toNat ≤ 143) := by
  have hbyte {n : UInt8} : a = n ↔ a.toNat = n.toNat := UInt8.toNat_inj.symm
  obtain ⟨hlow, hhigh⟩ := bounds_of_range h
  simp only [hbyte] at hlow hhigh
  change (if a.toNat = 240 then (144 : UInt8) else 128).toNat ≤ _ at hlow
  change _ ≤ (if a.toNat = 244 then (143 : UInt8) else 191).toNat at hhigh
  split at hlow <;> split at hhigh <;> simp only [UInt8.reduceToNat] at hlow hhigh <;> omega

theorem ofNat_eq {b : UInt8} {n : Nat} (h : b.toNat = n) : UInt8.ofNat n = b := by
  rw [← h, UInt8.ofNat_toNat]

theorem toNat_ofNat {n : Nat} (h : n < 0xD800 ∨ 0xDFFF < n ∧ n < 0x110000) :
    (Char.ofNat n).val.toNat = n := by
  unfold Char.ofNat
  rw [dif_pos h]
  rfl

theorem encodeChar_one {a : UInt8} (ha : a < 0x80) :
    String.utf8EncodeChar (Char.ofNat a.toNat) = [a] := by
  have hlow : a.toNat < 128 := UInt8.lt_iff_toNat_lt.1 ha
  unfold String.utf8EncodeChar
  rw [toNat_ofNat (by omega)]
  simp only [show a.toNat ≤ 127 by omega, if_true, UInt8.ofNat_toNat]

theorem encodeChar_two {a b : UInt8} (ha : (0xC2 ≤ a && a ≤ 0xDF) = true)
    (hb : isTail b = true) :
    String.utf8EncodeChar (Char.ofNat (a.toNat % 0x20 * 0x40 + tailBits b)) = [a, b] := by
  obtain ⟨hlow, hhigh⟩ : 194 ≤ a.toNat ∧ a.toNat ≤ 223 := bounds_of_range ha
  obtain ⟨hlow', hhigh'⟩ := bounds_of_isTail hb
  unfold tailBits
  generalize hn : a.toNat % 0x20 * 0x40 + b.toNat % 0x40 = n
  unfold String.utf8EncodeChar
  rw [toNat_ofNat (by omega)]
  simp only [show ¬ n ≤ 127 by omega, show n ≤ 2047 by omega, if_false, if_true]
  rw [ofNat_eq (show a.toNat = _ by omega), ofNat_eq (show b.toNat = _ by omega)]

theorem encodeChar_three {a b c : UInt8} (ha : (0xE0 ≤ a && a ≤ 0xEF) = true)
    (hb : isSecondOfThree a b = true) (hc : isTail c = true) :
    String.utf8EncodeChar
      (Char.ofNat ((a.toNat % 0x10 * 0x40 + tailBits b) * 0x40 + tailBits c)) = [a, b, c] := by
  obtain ⟨hlow, hhigh⟩ : 224 ≤ a.toNat ∧ a.toNat ≤ 239 := bounds_of_range ha
  obtain ⟨hlow', hhigh', hlong, hsurrogate⟩ := bounds_of_isSecondOfThree hb
  obtain ⟨hlow'', hhigh''⟩ := bounds_of_isTail hc
  unfold tailBits
  generalize hn : (a.toNat % 0x10 * 0x40 + b.toNat % 0x40) * 0x40 + c.toNat % 0x40 = n
  unfold String.utf8EncodeChar
  rw [toNat_ofNat (by omega)]
  simp only [show ¬ n ≤ 127 by omega, show ¬ n ≤ 2047 by omega, show n ≤ 65535 by omega,
    if_false, if_true]
  rw [ofNat_eq (show a.toNat = _ by omega), ofNat_eq (show b.toNat = _ by omega),
    ofNat_eq (show c.toNat = _ by omega)]

theorem encodeChar_four {a b c d : UInt8} (ha : (0xF0 ≤ a && a ≤ 0xF4) = true)
    (hb : isSecondOfFour a b = true) (hc : isTail c = true) (hd : isTail d = true) :
    String.utf8EncodeChar (Char.ofNat
      (((a.toNat % 0x08 * 0x40 + tailBits b) * 0x40 + tailBits c) * 0x40 + tailBits d))
      = [a, b, c, d] := by
  obtain ⟨hlow, hhigh⟩ : 240 ≤ a.toNat ∧ a.toNat ≤ 244 := bounds_of_range ha
  obtain ⟨hlow', hhigh', hlong, hlast⟩ := bounds_of_isSecondOfFour hb
  obtain ⟨hlowC, hhighC⟩ := bounds_of_isTail hc
  obtain ⟨hlowD, hhighD⟩ := bounds_of_isTail hd
  unfold tailBits
  generalize hn : ((a.toNat % 0x08 * 0x40 + b.toNat % 0x40) * 0x40 + c.toNat % 0x40) * 0x40
    + d.toNat % 0x40 = n
  unfold String.utf8EncodeChar
  rw [toNat_ofNat (by omega)]
  simp only [show ¬ n ≤ 127 by omega, show ¬ n ≤ 2047 by omega, show ¬ n ≤ 65535 by omega,
    if_false]
  rw [ofNat_eq (show a.toNat = _ by omega), ofNat_eq (show b.toNat = _ by omega),
    ofNat_eq (show c.toNat = _ by omega), ofNat_eq (show d.toNat = _ by omega)]

/-- Bytes that are well formed throughout come back from the text that is read from them. -/
theorem encode_decodeLenient {bytes : Bytes} (h : none ∉ scan bytes) :
    encode (decodeLenient bytes) = bytes := by
  unfold decodeLenient encode
  -- The cases that are not named begin with an ill-formed part, and there is none.
  fun_induction scan bytes with
  | case1 => rfl
  | case2 a rest hone ih =>
    rw [List.map_cons, List.flatMap_cons, ih (List.not_mem_of_not_mem_cons h)]
    exact congrArg (· ++ rest) (encodeChar_one hone)
  | case3 a hone htwo b rest htail ih =>
    rw [List.map_cons, List.flatMap_cons, ih (List.not_mem_of_not_mem_cons h)]
    exact congrArg (· ++ rest) (encodeChar_two htwo htail)
  | case6 a hone htwo hthree b hsecond c rest htail ih =>
    rw [List.map_cons, List.flatMap_cons, ih (List.not_mem_of_not_mem_cons h)]
    exact congrArg (· ++ rest) (encodeChar_three hthree hsecond htail)
  | case11 a hone htwo hthree hfour b hsecond c htail d rest htail' ih =>
    rw [List.map_cons, List.flatMap_cons, ih (List.not_mem_of_not_mem_cons h)]
    exact congrArg (· ++ rest) (encodeChar_four hfour hsecond htail htail')
  | _ => exact absurd List.mem_cons_self h

theorem mapM_id_eq_some_iff {cut : List (Option Char)} {text : Text} :
    cut.mapM id = some text ↔ cut = text.map some := by
  induction cut generalizing text with
  | nil => cases text <;> simp
  | cons part cut ih =>
    cases part with
    | none => cases text <;> simp
    | some c =>
      cases text with
      | nil => simp [Option.bind_eq_some_iff]
      | cons d text => simpa [ih, Option.bind_eq_some_iff] using and_comm

theorem decode?_eq_some_iff {bytes : Bytes} {text : Text} :
    decode? bytes = some text ↔ scan bytes = text.map some :=
  mapM_id_eq_some_iff

theorem none_not_mem_scan {bytes : Bytes} (h : (decode? bytes).isSome = true) :
    none ∉ scan bytes := by
  obtain ⟨text, htext⟩ := Option.isSome_iff_exists.1 h
  rw [decode?_eq_some_iff] at htext
  simp [htext]

theorem decode?_append_encode {bytes : Bytes} {text : Text} (h : decode? bytes = some text)
    (more : Text) : decode? (bytes ++ encode more) = some (text ++ more) := by
  have hnone := none_not_mem_scan (Option.isSome_of_eq_some h)
  rw [decode?_eq_some_iff] at h ⊢
  rw [scan_append hnone, h, scan_encode, List.map_append]

end BenchScript.Utf8
