import BenchScript.Text.Utf8
import BenchScript.Text.Quoted

set_option autoImplicit false

namespace BenchScript.Hex

inductive Error where
  | oddLength (length : Nat)
  /-- The first byte that is no digit, as a character, and its place. -/
  | notDigit (char : Char) (index : Nat)
  /-- No digit is left once the spaces and the tag of the text are dropped. -/
  | empty (text : Text)
deriving DecidableEq, Repr

def Error.message : Error → Text
  | .oddLength length => "odd number of hex digits: ".toList ++ Text.decimal length
  | .notDigit char index =>
    "invalid hex character ".toList ++ Text.quotedChar char ++ " at index ".toList
      ++ Text.decimal index
  | .empty text => "no hex digits in ".toList ++ Text.quoted text

def encodeByte (b : UInt8) : Text :=
  [Nat.digitChar (b.toNat / 16), Nat.digitChar (b.toNat % 16)]

def encode (bytes : Bytes) : Text := bytes.flatMap encodeByte

theorem encode_append (a b : Bytes) : encode (a ++ b) = encode a ++ encode b := by
  simp [encode]

theorem length_encode (bytes : Bytes) : (encode bytes).length = 2 * bytes.length := by
  induction bytes with
  | nil => rfl
  | cons b rest ih =>
    simp only [encode, List.flatMap_cons, List.length_append] at ih ⊢
    simp only [ih, encodeByte, List.length_cons, List.length_nil]
    omega

def digit? (b : UInt8) : Option Nat :=
  if 0x30 ≤ b ∧ b ≤ 0x39 then some (b.toNat - 0x30)
  else if 0x41 ≤ b ∧ b ≤ 0x46 then some (b.toNat - 0x41 + 10)
  else if 0x61 ≤ b ∧ b ≤ 0x66 then some (b.toNat - 0x61 + 10)
  else none

def decodePairs (index : Nat) : Bytes → Except Error Bytes
  | [] => .ok []
  | [_] => .error (.oddLength (index + 1))
  | high :: low :: rest =>
    match digit? high, digit? low with
    | none, _ => .error (.notDigit (Char.ofNat high.toNat) index)
    | some _, none => .error (.notDigit (Char.ofNat low.toNat) (index + 1))
    | some h, some l =>
      match decodePairs (index + 2) rest with
      | .ok bytes => .ok (UInt8.ofNat (16 * h + l) :: bytes)
      | .error e => .error e

/-- The bytes that a text stands for. An odd length is reported before any wrong digit. -/
def decode (text : Text) : Except Error Bytes :=
  let digits := Utf8.encode text
  if digits.length % 2 = 1 then .error (.oddLength digits.length) else decodePairs 0 digits

end BenchScript.Hex
