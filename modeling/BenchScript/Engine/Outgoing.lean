import BenchScript.Text.Blank
import BenchScript.Wire.Checksum
import BenchScript.Wire.Frame

set_option autoImplicit false

namespace BenchScript

def isHexTag (c : Char) : Bool := c == 'H' || c == 'X' || c == 'Z'

/-- The digits of a text: no spaces, and no tag in front if the length is odd with it. -/
def hexDigits (text : Text) : Text :=
  match text.filter (· != ' ') with
  | [] => []
  | c :: rest => if isHexTag c && Utf8.size (c :: rest) % 2 == 1 then rest else c :: rest

theorem hexDigits_eq (text : Text) :
    hexDigits text =
      if ((text.filter (· != ' ')).head? = some 'H' ∨ (text.filter (· != ' ')).head? = some 'X' ∨
            (text.filter (· != ' ')).head? = some 'Z') ∧
          Utf8.size (text.filter (· != ' ')) % 2 = 1 then
        (text.filter (· != ' ')).tail
      else text.filter (· != ' ') := by
  unfold hexDigits
  generalize text.filter (· != ' ') = plain
  cases plain with
  | nil => rfl
  | cons c rest =>
    simp [isHexTag, or_assoc]

/-- The frame for hexadecimal text: the raw bytes if there are fewer digits than the limit, else the
text itself in upper case. -/
def hexFrame (limit : Nat) (text : Text) : Except LinkError Frame :=
  if hexDigits text = [] then .error (.hex (.empty text))
  else
    match Hex.decode (hexDigits text) with
    | .error e => .error (.hex e)
    | .ok bytes =>
      if (hexDigits text).length < limit then .ok (.data bytes)
      else .ok (.text ((Text.trim text).map Char.toUpper))

/-- The frame for a checksum command: a bare tag sends the checksum over the last row and the last
data, anything longer is hexadecimal text. -/
def checksumFrame (limit : Nat) (lastRow : Text) (lastData : Bytes) (text : Text) :
    Except LinkError Frame :=
  if (Text.trim text).length = 1 then
    .ok (.checksum (checksum (Utf8.encode lastRow) ^^^ checksum lastData))
  else hexFrame limit text

end BenchScript
