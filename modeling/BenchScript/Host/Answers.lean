import BenchScript.Text.Utf8
import BenchScript.Wire.LineBuffer

set_option autoImplicit false

namespace BenchScript.Answers

def chomp (line : Text) : Text :=
  Text.dropTrailing (fun c => c == '\r' || c == Text.newline) line

def nextLine : Bytes → Option (Bytes × Bytes)
  | [] => none
  | c :: rest => some ((splitAfter 0x0A (c :: rest)).getD (c :: rest, []))

def next (input : Bytes) : Option Text × Bytes :=
  match nextLine input with
  | none => (none, [])
  | some (line, rest) => ((Utf8.decode? line).map chomp, rest)

/-- The next answer unless the run is cancelled before the input is read, which then stays as it is,
or while it is read, which uses the answer up. -/
def nextUnless (before during : Bool) (input : Bytes) : Option Text × Bytes :=
  if before then (none, input)
  else
    let (answer, rest) := next input
    (if during then none else answer, rest)

end BenchScript.Answers
