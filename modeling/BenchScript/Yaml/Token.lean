import BenchScript.Yaml.Scalar
import BenchScript.Yaml.Tag

set_option autoImplicit false

/-!
# Tokens of YAML

A document is cut into signs, scalars and names. The columns of keys and dashes give block
collections their beginnings and ends, which are tokens of their own. Whether a node is a key is
known only at the colon behind it, so the place in front of it is kept in mind for as long as it can
still become one: up to the end of its line and not further than 1024 bytes.
-/
namespace BenchScript.Yaml

inductive Token where
  | directive (line : Directive)
  | documentStart
  | documentEnd
  | itemsBegin
  | entriesBegin
  | blockEnd
  | openMap
  | closeMap
  | openList
  | closeList
  | comma
  | item
  | key
  | value
  | alias (name : Text)
  | anchor (name : Text)
  | tag (name : TagName)
  | scalar (style : Style) (text : Text)
deriving DecidableEq, Repr

structure KeyPlace where
  letter : Letter
  before : Nat
  isRequired : Bool
deriving DecidableEq, Repr

def KeyPlace.isStale (letter : Letter) (place : KeyPlace) : Bool :=
  place.letter.line < letter.line || place.letter.offset + 1024 < letter.offset

structure Cut where
  rest : List Letter
  tokens : List Token := []
  /-- The columns of the open block collections, the innermost first. -/
  columns : List Nat := []
  keyAllowed : Bool := true
  /-- The place of a possible key in the innermost collection. -/
  key? : Option KeyPlace := none
  /-- The same for the collections around it, one for each open bracket or brace. -/
  outerKeys : List (Option KeyPlace) := []
deriving DecidableEq, Repr

namespace Cut

def inFlow (cut : Cut) : Bool := !cut.outerKeys.isEmpty

def floor (cut : Cut) : Nat := (cut.columns.head?.map (· + 1)).getD 0

def push (token : Token) (cut : Cut) : Cut := { cut with tokens := token :: cut.tokens }

def pushAt (before : Nat) (token : Token) (cut : Cut) : Cut :=
  let later := cut.tokens.length - before
  { cut with tokens := cut.tokens.take later ++ token :: cut.tokens.drop later }

/-- Letters after blanks, line ends and comments, and whether a key may come next: a line end
outside brackets allows it. A tabulator counts as a blank only where no key may come. -/
def dropGap (inFlow : Bool) : (keyAllowed inComment : Bool) → List Letter → Bool × List Letter
  | keyAllowed, _, [] => (keyAllowed, [])
  | keyAllowed, inComment, letter :: rest =>
    let c := letter.char
    if isBreak c then dropGap inFlow (keyAllowed || !inFlow) false rest
    else if inComment then dropGap inFlow keyAllowed true rest
    else if c = ' ' ∨ (c = byteOrderMark ∧ letter.column = 0) then
      dropGap inFlow keyAllowed false rest
    else if c = '\t' ∧ (inFlow ∨ !keyAllowed) then dropGap inFlow keyAllowed false rest
    else if c = '#' then dropGap inFlow keyAllowed true rest
    else (keyAllowed, letter :: rest)

def dropKey (cut : Cut) : Option Cut :=
  if cut.key?.any (·.isRequired) then none else some { cut with key? := none }

/-- What is left of a place when a letter is reached: nothing if a key had to stand there and none
can any more. -/
def stillPossible (letter : Letter) (key? : Option KeyPlace) : Option (Option KeyPlace) :=
  match key?.filter (·.isStale letter) with
  | none => some key?
  | some place => if place.isRequired then none else some none

def dropStaleKeys (letter : Letter) (cut : Cut) : Option Cut := do
  let key? ← stillPossible letter cut.key?
  let outerKeys ← cut.outerKeys.mapM (stillPossible letter)
  return { cut with key? := key?, outerKeys := outerKeys }

def offerKey (letter : Letter) (cut : Cut) : Option Cut :=
  if cut.keyAllowed then
    (dropKey cut).map fun cut =>
      { cut with
        key? := some
          { letter := letter
            before := cut.tokens.length
            isRequired := !cut.inFlow && cut.columns.head? == some letter.column } }
  else some cut

def closeBlocks (column : Nat) (cut : Cut) : Cut :=
  if cut.inFlow then cut
  else
    let closed := cut.columns.takeWhile (column ≤ ·)
    { cut with
      tokens := List.replicate closed.length Token.blockEnd ++ cut.tokens
      columns := cut.columns.drop closed.length }

/-- Begins a block collection in front of all but the first `before` tokens, if its column is
further in than that of the collection around it. -/
def openBlock (token : Token) (column before : Nat) (cut : Cut) : Cut :=
  if !cut.inFlow && cut.columns.all (· < column) then
    { cut.pushAt before token with columns := column :: cut.columns }
  else cut

def goOn (token : Token) (keyAllowed : Bool) (rest : List Letter) (cut : Cut) : Cut :=
  { cut.push token with keyAllowed := keyAllowed, rest := rest }

def takeMark (token : Token) (rest : List Letter) (cut : Cut) : Option Cut :=
  (dropKey (cut.closeBlocks 0)).map (goOn token false rest)

def takeOpening (token : Token) (letter : Letter) (rest : List Letter) (cut : Cut) : Option Cut :=
  (cut.offerKey letter).map fun cut =>
    goOn token true rest { cut with key? := none, outerKeys := cut.key? :: cut.outerKeys }

def takeClosing (token : Token) (rest : List Letter) (cut : Cut) : Option Cut :=
  cut.dropKey.map fun cut =>
    goOn token false rest
      { cut with key? := cut.outerKeys.head?.getD cut.key?, outerKeys := cut.outerKeys.tail }

/-- The dash of an item or the question mark of a key, which begin a block collection where there is
none at their column. -/
def takeIndicator (border token : Token) (keyAllowed : Bool) (letter : Letter) (rest : List Letter)
    (cut : Cut) : Option Cut :=
  if cut.inFlow || cut.keyAllowed then
    (cut.openBlock border letter.column cut.tokens.length).dropKey.map (goOn token keyAllowed rest)
  else none

def takeColon (letter : Letter) (rest : List Letter) (cut : Cut) : Option Cut :=
  match cut.key? with
  | some place =>
    -- The node in front of the colon is a key now, and maybe the first of its mapping.
    let cut := (cut.pushAt place.before .key).openBlock .entriesBegin place.letter.column
      place.before
    some (goOn .value false rest { cut with key? := none })
  | none =>
    if cut.inFlow then some (cut.goOn .value false rest)
    else if cut.keyAllowed then
      some ((cut.openBlock .entriesBegin letter.column cut.tokens.length).goOn .value true rest)
    else none

def endsName (letters : List Letter) : Bool :=
  endsWord letters || letters.head?.any fun letter =>
    ['?', ':', ',', ']', '\x7d', '%', '@', '\x60'].contains letter.char

def takeReference (token : Text → Token) (letter : Letter) (rest : List Letter) (cut : Cut) :
    Option Cut :=
  let (name, after) := takeName rest
  if name != [] && endsName after then (cut.offerKey letter).map (goOn (token name) false after)
  else none

def takeScalar (style : Style) (letter : Letter) (reading : Option Reading) (cut : Cut) :
    Option Cut :=
  reading.bind fun reading =>
    (cut.offerKey letter).map (goOn (.scalar style reading.text) reading.passedLine reading.rest)

def takeBlock (style : Style) (rest : List Letter) (cut : Cut) : Option Cut :=
  (blockScalar style cut.floor rest).bind fun reading =>
    cut.dropKey.map (goOn (.scalar style reading.text) true reading.rest)

def isIndicator (c : Char) : Bool :=
  isFlowSign c || "-?:#&*!|>'\"%@".toList.contains c || c == '\x60'

def startsPlain (inFlow : Bool) (letter : Letter) (rest : List Letter) : Bool :=
  let c := letter.char
  !(isIndicator c || isBlank c || isBreak c)
    || (!endsWord rest && (c == '-' || (!inFlow && (c == '?' || c == ':'))))

def takeToken (letter : Letter) (rest : List Letter) (cut : Cut) : Option Cut :=
  let c := letter.char
  let isAlone := endsWord rest
  -- Directives and marks first: at the left border their signs mean nothing else.
  if letter.column = 0 ∧ c = '%' then
    (directive rest).bind fun (line, rest) => cut.takeMark (.directive line) rest
  else if startsMark '-' (letter :: rest) then cut.takeMark .documentStart (rest.drop 2)
  else if startsMark '.' (letter :: rest) then cut.takeMark .documentEnd (rest.drop 2)
  else if c = '[' then cut.takeOpening .openList letter rest
  else if c = '\x7b' then cut.takeOpening .openMap letter rest
  else if c = ']' then cut.takeClosing .closeList rest
  else if c = '\x7d' then cut.takeClosing .closeMap rest
  else if c = ',' then cut.dropKey.map (goOn .comma true rest)
  else if c = '-' ∧ isAlone then cut.takeIndicator .itemsBegin .item true letter rest
  else if c = '?' ∧ (cut.inFlow ∨ isAlone) then
    cut.takeIndicator .entriesBegin .key (!cut.inFlow) letter rest
  else if c = ':' ∧ (cut.inFlow ∨ isAlone) then cut.takeColon letter rest
  else if c = '*' then cut.takeReference .alias letter rest
  else if c = '&' then cut.takeReference .anchor letter rest
  else if c = '!' then
    (tagBefore cut.inFlow rest).bind fun (name, rest) =>
      (cut.offerKey letter).map (goOn (.tag name) false rest)
  else if c = '|' ∧ !cut.inFlow then cut.takeBlock .literal rest
  else if c = '>' ∧ !cut.inFlow then cut.takeBlock .folded rest
  else if c = '\'' ∨ c = '"' then cut.takeScalar .quoted letter (quotedFrom c .empty rest)
  else if startsPlain cut.inFlow letter rest then
    cut.takeScalar .plain letter (plainFrom cut.floor cut.inFlow .empty (letter :: rest))
  else none

def run : Nat → Cut → Option Cut
  | 0, _ => none
  | n + 1, cut =>
    let (keyAllowed, rest) := dropGap cut.inFlow cut.keyAllowed false cut.rest
    match rest with
    | [] => (cut.closeBlocks 0).dropKey
    | letter :: rest => do
      let cut ← dropStaleKeys letter { cut with keyAllowed := keyAllowed }
      let cut ← (cut.closeBlocks (letter.column + 1)).takeToken letter rest
      run n cut

end Cut

/-- The tokens of a text; nothing if it cannot be cut. Each token takes a letter at least. -/
def tokensOf (text : Text) : Option (List Token) := do
  let letters ← lettersOf text
  let cut ← Cut.run (letters.length + 1) { rest := letters }
  return cut.tokens.reverse

end BenchScript.Yaml
