import BenchScript.Text.Basic

set_option autoImplicit false

namespace BenchScript.Yaml

structure Letter where
  char : Char
  line : Nat
  column : Nat
  offset : Nat
deriving DecidableEq, Repr

def byteOrderMark : Char := '\uFEFF'

def nextLine : Char := '\u0085'

def isAllowed (c : Char) : Bool :=
  let n := c.toNat
  n == 0x09 || n == 0x0A || n == 0x0D || (0x20 ≤ n && n ≤ 0x7E) || n == 0x85
    || (0xA0 ≤ n && n ≤ 0xFFFD) || 0x10000 ≤ n

def isBreak (c : Char) : Bool := c == Text.newline || c == '\u2028' || c == '\u2029'

def isBlank (c : Char) : Bool := c == ' ' || c == '\t'

def lettersFrom (line column offset : Nat) : Text → List Letter
  | [] => []
  | '\r' :: '\n' :: rest =>
    ⟨Text.newline, line, column, offset⟩ :: lettersFrom (line + 1) 0 (offset + 2) rest
  | c :: rest =>
    let read := if c = '\r' ∨ c = nextLine then Text.newline else c
    ⟨read, line, column, offset⟩ ::
      if isBreak read then lettersFrom (line + 1) 0 (offset + c.utf8Size) rest
      else lettersFrom line (column + 1) (offset + c.utf8Size) rest

def lettersOf (text : Text) : Option (List Letter) :=
  if text.all isAllowed then some (lettersFrom 0 0 0 text) else none

def endsWord : List Letter → Bool
  | [] => true
  | letter :: _ => isBlank letter.char || isBreak letter.char

def startsWith (c : Char) (letters : List Letter) : Bool :=
  letters.head?.any (·.char == c)

/-- Whether a line begins with a mark between documents: three equal signs that stand alone. -/
def startsMark (sign : Char) (letters : List Letter) : Bool :=
  letters.head?.any (·.column == 0) && (letters.take 3).map Letter.char == [sign, sign, sign]
    && endsWord (letters.drop 3)

def dropBlanks (letters : List Letter) : List Letter :=
  letters.dropWhile fun letter => isBlank letter.char

def afterLine (letters : List Letter) : Option (List Letter) :=
  let rest := dropBlanks letters
  let behind :=
    if startsWith '#' rest then rest.dropWhile fun letter => !isBreak letter.char else rest
  match behind with
  | [] => some []
  | letter :: rest => if isBreak letter.char then some rest else none

def hexValue (c : Char) : Option Nat :=
  if '0' ≤ c ∧ c ≤ '9' then some (c.toNat - 0x30)
  else if 'a' ≤ c ∧ c ≤ 'f' then some (c.toNat - 0x61 + 10)
  else if 'A' ≤ c ∧ c ≤ 'F' then some (c.toNat - 0x41 + 10)
  else none

def isFlowSign (c : Char) : Bool :=
  c == ',' || c == '[' || c == ']' || c == '\x7b' || c == '\x7d'

def isNameChar (c : Char) : Bool := c.isAlphanum || c == '_' || c == '-'

def takeName (letters : List Letter) : Text × List Letter :=
  ((letters.takeWhile fun letter => isNameChar letter.char).map Letter.char,
    letters.dropWhile fun letter => isNameChar letter.char)

end BenchScript.Yaml
