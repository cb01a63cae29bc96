import BenchScript.Script.Reference

set_option autoImplicit false

/-!
# Lines as shown to the user

What goes over the wire is shown in a readable form: the tag apart from its text, binary data
hidden, carriage returns as line ends, references replaced by values, and a backtick by the time.
The form is for reading only and never goes out.
-/
namespace BenchScript

structure Timestamp where
  year : Int
  month : Nat
  day : Nat
  hour : Nat
  minute : Nat
  second : Nat
deriving DecidableEq, Repr

def Timestamp.yearText (year : Int) : Text :=
  if year < 0 then '-' :: Text.decimalPadded 4 year.natAbs
  else if year > 9999 then '+' :: Text.decimal year.natAbs
  else Text.decimalPadded 4 year.natAbs

def Timestamp.text (t : Timestamp) : Text :=
  yearText t.year ++ '-' :: Text.decimalPadded 2 t.month ++ '-' :: Text.decimalPadded 2 t.day
    ++ 'T' :: Text.decimalPadded 2 t.hour ++ ':' :: Text.decimalPadded 2 t.minute
    ++ ':' :: Text.decimalPadded 2 t.second

namespace Display

def confirmation : Text := ['✓']

def binaryPlaceholder : Text := "[binary]".toList

def unknownPlaceholder : Text := "<unknown>".toList

def clockMark : Char := '\x60'

/-- Sets the tag apart from the text by a space, unless one is there. -/
def spaceTag : Text → Text
  | tag :: c :: rest => if c = ' ' then tag :: c :: rest else tag :: ' ' :: c :: rest
  | short => short

/-- The line before anything is looked up: data hidden, carriage returns turned to line ends. A line
of one character is left as it is. -/
def draft (line : Text) : Text :=
  match spaceTag line with
  | tag :: c :: rest =>
    if tag = 'D' then tag :: ' ' :: binaryPlaceholder
    else Text.replaceEach '\r' [Text.newline] (tag :: c :: rest)
  | short => short

def expand (lookup : Text → Option Text) (text : Text) : Text :=
  Piece.render (fun name => (lookup name).getD unknownPlaceholder) (Piece.ofText text)

/-- Replaces references by values, then every backtick by the time, also those that came with a
value. -/
def fill (now : Text) (lookup : Text → Option Text) (text : Text) : Text :=
  Text.replaceEach clockMark now (expand lookup text)

def ofLine (now : Text) (lookup : Text → Option Text) (line : Text) : Text :=
  if line = [Text.newline] then confirmation else fill now lookup (draft line)

end Display
end BenchScript
