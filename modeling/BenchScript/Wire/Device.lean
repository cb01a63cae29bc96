import BenchScript.Wire.Frame

set_option autoImplicit false

namespace BenchScript

class Device (δ : Type) where
  write : Bytes → δ → Except LinkError Unit × δ
  /-- Reads up to and including a byte, or to the end of the stream. -/
  readThrough : UInt8 → δ → Except LinkError Bytes × δ
  close : δ → δ

def exchange {δ : Type} [Device δ] (frame : Frame) (device : δ) : Except LinkError Response × δ :=
  match frame.encode with
  | .error e => (.error e, device)
  | .ok bytes =>
    match Device.write bytes device with
    | (.error e, device) => (.error e, device)
    | (.ok (), device) =>
      match Device.readThrough terminator device with
      | (.error e, device) => (.error e, device)
      | (.ok line, device) => (.ok (Response.ofLine line), device)

/-- A frame without an encoding does not reach the device. -/
theorem exchange_of_encode_error {δ : Type} [Device δ] {frame : Frame} {e : LinkError}
    (h : frame.encode = .error e) (device : δ) : exchange frame device = (.error e, device) := by
  simp [exchange, h]

end BenchScript
