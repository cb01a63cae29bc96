import BenchScript.Yaml.Letter

set_option autoImplicit false

namespace BenchScript.Yaml

inductive Style where
  | plain
  | quoted
  | literal
  | folded
deriving DecidableEq, Repr

inductive Gap where
  | blanks (held : Text)
  /-- Line ends. There is no first one when it was escaped. -/
  | lineEnds (first : Option Char) (more : Text)
deriving DecidableEq, Repr

namespace Gap

def empty : Gap := .blanks []

def hasLineEnd : Gap → Bool
  | .blanks _ => false
  | .lineEnds _ _ => true

def addBlank (c : Char) : Gap → Gap
  | .blanks held => .blanks (held ++ [c])
  | gap => gap

def addBreak (c : Char) : Gap → Gap
  | .blanks _ => .lineEnds (some c) []
  | .lineEnds first more => .lineEnds first (more ++ [c])

def text : Gap → Text
  | .blanks held => held
  | .lineEnds first more =>
    if first = some Text.newline then (if more = [] then [' '] else more)
    else first.toList ++ more

end Gap

structure Reading where
  text : Text
  rest : List Letter
  passedLine : Bool := false
deriving DecidableEq, Repr

def Reading.after (front : Text) (reading : Reading) : Reading :=
  { reading with text := front ++ reading.text }

/-- A plain scalar, from a gap on. Its lines stand at column `floor` or further in, unless it is
part of a flow collection. It ends before a comment, a mark between documents, a colon that ends a
word, or a sign of the flow collection around it. A colon directly before such a sign is refused,
and so is a tabulator left of `floor`. -/
def plainFrom (floor : Nat) (inFlow : Bool) : Gap → List Letter → Option Reading
  | gap, [] => some ⟨[], [], gap.hasLineEnd⟩
  | gap, letter :: rest =>
    let c := letter.char
    if isBlank c then
      if gap.hasLineEnd && letter.column < floor && c == '\t' then none
      else plainFrom floor inFlow (gap.addBlank c) rest
    else if isBreak c then plainFrom floor inFlow (gap.addBreak c) rest
    else if gap != .empty && ((!inFlow && letter.column < floor) || c == '#'
        || startsMark '-' (letter :: rest) || startsMark '.' (letter :: rest)) then
      some ⟨[], letter :: rest, gap.hasLineEnd⟩
    else if inFlow && c == ':' && rest.head?.any (fun letter =>
        isFlowSign letter.char || letter.char == '?') then none
    else if (c == ':' && endsWord rest) || (inFlow && isFlowSign c) then
      some ⟨[], letter :: rest, gap.hasLineEnd⟩
    else (plainFrom floor inFlow .empty rest).map (Reading.after (gap.text ++ [c]))

def shortEscape (c : Char) : Option Char :=
  if c = '0' then some '\x00'
  else if c = 'a' then some '\x07'
  else if c = 'b' then some '\x08'
  else if c = 't' ∨ c = '\t' then some '\t'
  else if c = 'n' then some '\n'
  else if c = 'v' then some '\x0b'
  else if c = 'f' then some '\x0c'
  else if c = 'r' then some '\r'
  else if c = 'e' then some '\x1b'
  else if c = ' ' ∨ c = '"' ∨ c = '/' ∨ c = '\\' then some c
  else if c = 'N' then some '\u0085'
  else if c = '_' then some '\u00a0'
  else if c = 'L' then some '\u2028'
  else if c = 'P' then some '\u2029'
  else none

def escapeDigits (c : Char) : Option Nat :=
  if c = 'x' then some 2 else if c = 'u' then some 4 else if c = 'U' then some 8 else none

def charOfDigits (count : Nat) (letters : List Letter) : Option Char :=
  let digits := letters.take count
  let value := digits.foldl (fun n letter =>
    n.bind fun n => (hexValue letter.char).map (16 * n + ·)) (some 0)
  value.bind fun n =>
    if digits.length = count ∧ n.isValidChar then some (Char.ofNat n) else none

/-- A quoted scalar after its opening quote, from a gap on. Between single quotes a quote is written
twice; between double quotes a backslash begins an escape, and one at the end of a line joins the
lines. No mark between documents may stand inside. -/
def quotedFrom (quote : Char) (gap : Gap) (letters : List Letter) : Option Reading :=
  match letters with
  | [] => none
  | letter :: rest =>
    let c := letter.char
    if startsMark '-' (letter :: rest) || startsMark '.' (letter :: rest) then none
    else if isBlank c then quotedFrom quote (gap.addBlank c) rest
    else if isBreak c then quotedFrom quote (gap.addBreak c) rest
    else if c = quote then
      if quote = '\'' ∧ startsWith quote rest then
        (quotedFrom quote .empty (rest.drop 1)).map (Reading.after (gap.text ++ [quote]))
      else some ⟨gap.text, rest, false⟩
    else if quote = '"' ∧ c = '\\' then
      match rest with
      | [] => none
      | escape :: rest =>
        if isBreak escape.char then
          (quotedFrom quote (.lineEnds none []) rest).map (Reading.after gap.text)
        else
          match shortEscape escape.char, escapeDigits escape.char with
          | some d, _ => (quotedFrom quote .empty rest).map (Reading.after (gap.text ++ [d]))
          | none, some count =>
            (charOfDigits count rest).bind fun d =>
              (quotedFrom quote .empty (rest.drop count)).map (Reading.after (gap.text ++ [d]))
          | none, none => none
    else (quotedFrom quote .empty rest).map (Reading.after (gap.text ++ [c]))
termination_by letters.length
decreasing_by all_goals simp +arith

inductive Chomping where
  | strip
  | clip
  | keep
deriving DecidableEq, Repr

def chomping? : List Letter → Option Chomping × List Letter
  | [] => (none, [])
  | letter :: rest =>
    if letter.char = '+' then (some .keep, rest)
    else if letter.char = '-' then (some .strip, rest)
    else (none, letter :: rest)

def indentation? : List Letter → Option (Option Nat × List Letter)
  | [] => some (none, [])
  | letter :: rest =>
    if letter.char = '0' then none
    else if letter.char.isDigit then some (some (letter.char.toNat - 0x30), rest)
    else some (none, letter :: rest)

/-- What stands behind the sign of a block up to the end of its line: a digit and a sign in either
order, neither of them needed. -/
def blockHeader (letters : List Letter) : Option (Chomping × Option Nat × List Letter) := do
  let (chomping, rest) := chomping? letters
  let (indentation, rest) ← indentation? rest
  let (chomping, rest) :=
    if chomping.isNone && indentation.isSome then chomping? rest else (chomping, rest)
  let rest ← afterLine rest
  return (chomping.getD .clip, indentation, rest)

/-- The empty lines in front of a block: their line ends, the widest indentation met, and the rest.
No tabulator may stand in an indentation, whose width may not be known yet. -/
def emptyLines (width : Option Nat) :
    (lineEnds : Text) → (widest : Nat) → List Letter → Option (Text × Nat × List Letter)
  | lineEnds, widest, [] => some (lineEnds, widest, [])
  | lineEnds, widest, letter :: rest =>
    let isLeft := width.all (letter.column < ·)
    if isBreak letter.char then
      emptyLines width (lineEnds ++ [letter.char]) (max widest letter.column) rest
    else if isLeft && letter.char == ' ' then emptyLines width lineEnds widest rest
    else if isLeft && letter.char == '\t' then none
    else some (lineEnds, max widest letter.column, letter :: rest)

inductive BlockPlace where
  | inLine (isIndented : Bool)
  /-- Behind a line that began with a blank or not, its line end if there was a line, and the line
  ends after it. -/
  | between (isIndented : Bool) (lineEnd : Option Char) (more : Text)
deriving DecidableEq, Repr

def Chomping.tail (chomping : Chomping) (lineEnd : Option Char) (more : Text) : Text :=
  (if chomping = .strip then [] else lineEnd.toList) ++ (if chomping = .keep then more else [])

/-- What stands for the line ends before a line of a block. A folded block joins two lines by a
space if neither begins with a blank, and drops the first of several newlines between them. -/
def blockGlue (style : Style) (wasIndented isIndented : Bool) (lineEnd : Option Char)
    (more : Text) : Text :=
  if style = .folded ∧ lineEnd = some Text.newline ∧ !wasIndented ∧ !isIndented then
    if more = [] then [' '] else more
  else lineEnd.toList ++ more

def blockFrom (style : Style) (chomping : Chomping) (width : Nat) :
    BlockPlace → List Letter → Option Reading
  | .inLine _, [] => some ⟨chomping.tail none [], [], true⟩
  | .inLine isIndented, letter :: rest =>
    if isBreak letter.char then
      blockFrom style chomping width (.between isIndented (some letter.char) []) rest
    else
      (blockFrom style chomping width (.inLine isIndented) rest).map (Reading.after [letter.char])
  | .between _ lineEnd more, [] => some ⟨chomping.tail lineEnd more, [], true⟩
  | .between wasIndented lineEnd more, letter :: rest =>
    let c := letter.char
    if isBreak c then
      blockFrom style chomping width (.between wasIndented lineEnd (more ++ [c])) rest
    else if letter.column < width then
      if c = ' ' then blockFrom style chomping width (.between wasIndented lineEnd more) rest
      else if c = '\t' then none
      else some ⟨chomping.tail lineEnd more, letter :: rest, true⟩
    else
      (blockFrom style chomping width (.inLine (isBlank c)) rest).map
        (Reading.after (blockGlue style wasIndented (isBlank c) lineEnd more ++ [c]))

/-- A block after its sign. Its lines are indented by as many columns from the collection around it
as the header says, or else by as many as the first line that is not empty, at least up to `floor`.
-/
def blockScalar (style : Style) (floor : Nat) (letters : List Letter) : Option Reading := do
  let (chomping, indentation, rest) ← blockHeader letters
  let stated := indentation.map (floor - 1 + ·)
  let (lineEnds, widest, rest) ← emptyLines stated [] 0 rest
  let width := stated.getD (max widest (max floor 1))
  blockFrom style chomping width (.between false none lineEnds) rest

end BenchScript.Yaml
