import BenchScript.Text.Basic

set_option autoImplicit false

namespace BenchScript.Utf8

def encode (text : Text) : Bytes := text.flatMap String.utf8EncodeChar

theorem encode_append (a b : Text) : encode (a ++ b) = encode a ++ encode b := by
  simp [encode]

def size (text : Text) : Nat := (encode text).length

def replacement : Char := '\uFFFD'

def isTail (b : UInt8) : Bool := 0x80 ≤ b && b ≤ 0xBF

def tailBits (b : UInt8) : Nat := b.toNat % 0x40

/-- The bytes that may follow the first byte of a character of three bytes: overlong forms and the
surrogates are left out. -/
def isSecondOfThree (first second : UInt8) : Bool :=
  (if first = 0xE0 then 0xA0 else 0x80) ≤ second && second ≤ (if first = 0xED then 0x9F else 0xBF)

def isSecondOfFour (first second : UInt8) : Bool :=
  (if first = 0xF0 then 0x90 else 0x80) ≤ second && second ≤ (if first = 0xF4 then 0x8F else 0xBF)

/-- The characters and the ill-formed parts (`none`) of a byte string. -/
def scan : Bytes → List (Option Char)
  | [] => []
  | a :: rest =>
    if a < 0x80 then some (Char.ofNat a.toNat) :: scan rest
    else if 0xC2 ≤ a && a ≤ 0xDF then
      match rest with
      | b :: rest₂ =>
        if isTail b then
          some (Char.ofNat (a.toNat % 0x20 * 0x40 + tailBits b)) :: scan rest₂
        else none :: scan (b :: rest₂)
      | [] => [none]
    else if 0xE0 ≤ a && a ≤ 0xEF then
      match rest with
      | b :: rest₂ =>
        if isSecondOfThree a b then
          match rest₂ with
          | c :: rest₃ =>
            if isTail c then
              some (Char.ofNat ((a.toNat % 0x10 * 0x40 + tailBits b) * 0x40 + tailBits c))
                :: scan rest₃
            else none :: scan (c :: rest₃)
          | [] => [none]
        else none :: scan (b :: rest₂)
      | [] => [none]
    else if 0xF0 ≤ a && a ≤ 0xF4 then
      match rest with
      | b :: rest₂ =>
        if isSecondOfFour a b then
          match rest₂ with
          | c :: rest₃ =>
            if isTail c then
              match rest₃ with
              | d :: rest₄ =>
                if isTail d then
                  some (Char.ofNat (((a.toNat % 0x08 * 0x40 + tailBits b) * 0x40 + tailBits c)
                    * 0x40 + tailBits d)) :: scan rest₄
                else none :: scan (d :: rest₄)
              | [] => [none]
            else none :: scan (c :: rest₃)
          | [] => [none]
        else none :: scan (b :: rest₂)
      | [] => [none]
    else none :: scan rest

def decodeLenient (bytes : Bytes) : Text := (scan bytes).map (·.getD replacement)

def decode? (bytes : Bytes) : Option Text := (scan bytes).mapM id

end BenchScript.Utf8
