import BenchScript.Digest.Md5
import BenchScript.Text.Utf8
import BenchScript.Wire.Hex

set_option autoImplicit false

namespace BenchScript

def markerTag : Char := 'O'

/-- The bytes that stand for a list of lines: each line's bytes and a newline. -/
def sealedBytes (lines : List Text) : Bytes :=
  lines.flatMap fun line => Utf8.encode line ++ [0x0A]

def fingerprint (lines : List Text) : Text := Hex.encode (Md5.digest (sealedBytes lines))

def markerLine (lines : List Text) : Text := markerTag :: ' ' :: fingerprint lines

/-- Whether a marker line shows a fingerprint: it stands in the line somewhere. -/
def showsFingerprint (line candidate : Text) : Bool :=
  !candidate.isEmpty && Text.occursIn candidate line

end BenchScript
