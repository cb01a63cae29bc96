import BenchScript.Wire.Hex

set_option autoImplicit false

namespace BenchScript

def maxPayload : Nat := 255

inductive LinkError where
  | hex (error : Hex.Error)
  | payloadTooLong (length : Nat)
  | io (cause : Text)
  | timeout
  /-- The link is closed, or the stream ended with nothing to deliver. -/
  | closed
deriving DecidableEq, Repr

namespace LinkError

def message : LinkError → Text
  | .hex error => error.message
  | .payloadTooLong length =>
    "payload too long: max ".toList ++ Text.decimal maxPayload ++ " bytes, got ".toList
      ++ Text.decimal length
  | .io cause => "transport I/O error: ".toList ++ cause
  | .timeout => "timeout waiting for response".toList
  | .closed => "transport closed".toList

/-- Whether what was to be sent is at fault, and not the link. -/
def isFormat : LinkError → Bool
  | .hex _ | .payloadTooLong _ => true
  | .io _ | .timeout | .closed => false

end LinkError
end BenchScript
