import BenchScript.Text.Utf8
import BenchScript.Wire.Error

set_option autoImplicit false

/-!
# Frames and responses

A message to the device is one line: a text, or a tag, a length byte and so many payload bytes,
ended by the terminator. The device answers in the same shapes, and a bare terminator confirms.
Nothing in a line says which shape it has; `payload?` takes a line for a binary frame when its tag
is one of two and its length byte is right.
-/
namespace BenchScript

def terminator : UInt8 := 0x0A

def dataTag : Char := 'D'

def checksumTag : Char := 'X'

/-- The byte of an ASCII character; any other character goes out as a question mark. -/
def asciiByte (c : Char) : UInt8 :=
  if c.toNat < 0x80 then UInt8.ofNat c.toNat else 0x3F

def asciiBytes (text : Text) : Bytes := text.map asciiByte

inductive Frame where
  | text (line : Text)
  | binary (tag : Char) (payload : Bytes)
deriving DecidableEq, Repr

namespace Frame

def data (payload : Bytes) : Frame := .binary dataTag payload

def checksum (value : UInt8) : Frame := .binary checksumTag [value]

def payload? : Frame → Option Bytes
  | .text _ => none
  | .binary _ payload => some payload

/-- The line that goes out for a frame. Only a payload too long for the length byte is refused. -/
def encode : Frame → Except LinkError Bytes
  | .text line => .ok (asciiBytes line ++ [terminator])
  | .binary tag payload =>
    if payload.length > maxPayload then .error (.payloadTooLong payload.length)
    else .ok (asciiByte tag :: UInt8.ofNat payload.length :: payload ++ [terminator])

end Frame

def dropTerminator (line : Bytes) : Bytes :=
  if line.getLast? = some terminator then line.dropLast else line

/-- The payload of a line, already without its terminator, that has the shape of a binary frame. -/
def framePayload? : Bytes → Option Bytes
  | tag :: length :: payload =>
    if (tag = asciiByte dataTag ∨ tag = asciiByte checksumTag) ∧ length.toNat = payload.length then
      some payload
    else none
  | _ => none

structure Response where
  row : Text
  /-- The payload if the line has the shape of a binary frame. -/
  data : Bytes
deriving DecidableEq, Repr

namespace Response

def ofLine (line : Bytes) : Response :=
  let body := dropTerminator line
  { row := Utf8.decodeLenient body, data := (framePayload? body).getD [] }

def isConfirmation (response : Response) : Bool := response.row.isEmpty

end Response
end BenchScript
