import BenchScript.Text.Basic

set_option autoImplicit false

namespace BenchScript

def checksum (bytes : Bytes) : UInt8 := bytes.foldl (· ^^^ ·) 0

theorem foldl_xor_eq (start : UInt8) (bytes : Bytes) :
    bytes.foldl (· ^^^ ·) start = start ^^^ checksum bytes := by
  induction bytes generalizing start with
  | nil => simp [checksum]
  | cons b rest ih =>
    rw [checksum, List.foldl_cons, List.foldl_cons, ih, ih (0 ^^^ b)]
    simp [UInt8.xor_assoc]

theorem checksum_append (a b : Bytes) : checksum (a ++ b) = checksum a ^^^ checksum b := by
  simp only [checksum, List.foldl_append]
  exact foldl_xor_eq _ b

end BenchScript
