import BenchScript.Table
import BenchScript.Yaml.Token

set_option autoImplicit false

namespace BenchScript.Yaml

structure Scalar where
  style : Style
  tag : Option Tag
  text : Text
deriving DecidableEq, Repr

def Scalar.missing : Scalar := ⟨.plain, none, []⟩

inductive Node where
  | scalar (scalar : Scalar)
  | sequence (items : List Node)
  | mapping (entries : List (Node × Node))
  | alias (number : Nat)
deriving Repr

def Node.missing : Node := .scalar .missing

structure Anchors where
  numbers : Table Text Nat := Table.empty
  /-- The scalars with numbers, or nothing for collections. -/
  scalars : Table Nat (Option Scalar) := Table.empty
deriving DecidableEq, Repr

namespace Anchors

/-- Names a node. Its number is how many names there are so far; if a name was given twice, the
number may be taken already, and then stands for the new node only. -/
def add (name : Text) (scalar : Option Scalar) (anchors : Anchors) : Anchors :=
  let number := anchors.numbers.size
  ⟨anchors.numbers.insert name number, anchors.scalars.insert number scalar⟩

def scalar? (anchors : Anchors) : Node → Option Scalar
  | .scalar scalar => some scalar
  | .alias number => (anchors.scalars.get? number).join
  | _ => none

end Anchors

structure Source where
  tokens : List Token
  anchors : Anchors := {}
  handles : Table Text Tag := Table.empty
deriving DecidableEq, Repr

abbrev Reader (α : Type) := StateT Source Option α

namespace Reader

def next? : Reader (Option Token) := do return (← get).tokens.head?

def skip : Reader Unit := modify fun source => { source with tokens := source.tokens.tail }

def skipIf (token : Token) : Reader Bool := do
  if (← next?) = some token then
    skip
    return true
  else return false

def isNext (tokens : List Token) : Reader Bool := do
  return (← next?).any tokens.contains

def giveName (name : Option Text) (scalar : Option Scalar) : Reader Unit :=
  match name with
  | none => pure ()
  | some name => modify fun source => { source with anchors := source.anchors.add name scalar }

def separator (isFirst : Bool) : Reader Unit := do
  if isFirst then return ()
  else if ← skipIf .comma then return ()
  else failure

def number (name : Text) : Reader Nat := do
  match (← get).anchors.numbers.get? name with
  | some number => return number
  | none => failure

def anchor? : Reader (Option Text) := do
  match ← next? with
  | some (.anchor name) =>
    skip
    return some name
  | _ => return none

def tagOf (name : TagName) : Reader Tag := do
  if name.handle = [] then return name.suffix
  else
    match (← get).handles.get? name.handle with
    | some meaning => return meaning ++ name.suffix
    | none => failure

def tag? : Reader (Option Tag) := do
  match ← next? with
  | some (.tag name) =>
    skip
    return some (← tagOf name)
  | _ => return none

def scalar (anchor : Option Text) (scalar : Scalar) : Reader Node := do
  giveName anchor (some scalar)
  return .scalar scalar

mutual

/-- A node. Block collections are read where `inBlock` says so, and items at the column of the key
in front of them where `afterKey` says so. An anchor or tag without a node belongs to an empty
scalar. -/
def node : Nat → (inBlock afterKey : Bool) → Reader Node
  | 0, _, _ => failure
  | n + 1, inBlock, afterKey => do
    match ← next? with
    | some (.alias name) =>
      skip
      return .alias (← number name)
    | _ =>
      let anchor ← anchor?
      let tag ← tag?
      let anchor ← if anchor.isNone then anchor? else pure anchor
      match ← next? with
      | some (.scalar style text) =>
        skip
        scalar anchor ⟨style, if tag = some Tag.unspecific then none else tag, text⟩
      | some .openList =>
        skip
        giveName anchor none
        return .sequence (← flowItems n true)
      | some .openMap =>
        skip
        giveName anchor none
        return .mapping (← flowEntries n true)
      | token =>
        if token = some .item ∧ afterKey then
          giveName anchor none
          return .sequence (← keyItems n)
        else if token = some .itemsBegin ∧ inBlock then
          skip
          giveName anchor none
          return .sequence (← blockItems n)
        else if token = some .entriesBegin ∧ inBlock then
          skip
          giveName anchor none
          return .mapping (← blockEntries n)
        else if anchor.isSome || tag.isSome then scalar anchor ⟨.plain, tag, []⟩
        else failure

def nodeBefore (n : Nat) (stops : List Token) (inBlock afterKey : Bool) : Reader Node := do
  match n with
  | 0 => failure
  | n + 1 => if ← isNext stops then return .missing else node n inBlock afterKey

def blockItems : Nat → Reader (List Node)
  | 0 => failure
  | n + 1 => do
    if ← skipIf .blockEnd then return []
    else if ← skipIf .item then
      let item ← nodeBefore n [.item, .blockEnd] true false
      return item :: (← blockItems n)
    else failure

def keyItems : Nat → Reader (List Node)
  | 0 => failure
  | n + 1 => do
    if ← skipIf .item then
      let item ← nodeBefore n [.item, .key, .value, .blockEnd] true false
      return item :: (← keyItems n)
    else return []

def blockEntries : Nat → Reader (List (Node × Node))
  | 0 => failure
  | n + 1 => do
    if ← skipIf .blockEnd then return []
    else if ← skipIf .key then
      let key ← nodeBefore n [.key, .value, .blockEnd] true true
      let value ←
        if ← skipIf .value then nodeBefore n [.key, .value, .blockEnd] true true
        else pure .missing
      return (key, value) :: (← blockEntries n)
    else failure

def flowValue : Nat → (close : Token) → Reader Node
  | 0, _ => failure
  | n + 1, close => do
    if ← skipIf .value then nodeBefore n [.comma, close] false false else return .missing

/-- The items of a flow sequence, up to its closing bracket. A key with its value is a mapping of
one entry; if the key is missing, the sign in its place is passed over. -/
def flowItems : Nat → (isFirst : Bool) → Reader (List Node)
  | 0, _ => failure
  | n + 1, isFirst => do
    if ← skipIf .closeList then return []
    separator isFirst
    if ← skipIf .closeList then return []
    else if ← skipIf .key then
      let isMissing ← isNext [.value, .comma, .closeList]
      let key ← if isMissing then do skip; pure .missing else node n false false
      let value ← flowValue n .closeList
      return .mapping [(key, value)] :: (← flowItems n false)
    else
      let item ← node n false false
      return item :: (← flowItems n false)

def flowEntries : Nat → (isFirst : Bool) → Reader (List (Node × Node))
  | 0, _ => failure
  | n + 1, isFirst => do
    if ← skipIf .closeMap then return []
    separator isFirst
    if ← skipIf .closeMap then return []
    else if ← skipIf .key then
      let key ← nodeBefore n [.value, .comma, .closeMap] false false
      let value ← flowValue n .closeMap
      return (key, value) :: (← flowEntries n false)
    else
      let key ← node n false false
      return (key, .missing) :: (← flowEntries n false)

end

end Reader

structure Document where
  root : Node
  anchors : Anchors
deriving Repr

inductive Content where
  | nothing
  | document (document : Document)
  | unreadable
deriving Repr

/-- Takes over the directives in front of a document, of which there is one of each kind and handle,
and gives the tokens after them. The version is 1.1 or 1.2. -/
def takeDirectives (hasVersion : Bool) (handles : Table Text Tag) :
    List Token → Option (Table Text Tag × List Token)
  | .directive (.version major minor) :: rest =>
    if hasVersion ∨ major ≠ 1 ∨ (minor ≠ 1 ∧ minor ≠ 2) then none
    else takeDirectives true handles rest
  | .directive (.handle name meaning) :: rest =>
    if handles.contains name then none
    else takeDirectives hasVersion (handles.insert name meaning) rest
  | tokens => some (handles, tokens)

def withStandardHandles (handles : Table Text Tag) : Table Text Tag :=
  [(['!'], Tag.unspecific), (['!', '!'], Tag.standard)].foldl (fun handles (name, meaning) =>
    if handles.contains name then handles else handles.insert name meaning) handles

def Token.isBetween : Token → Bool
  | .directive _ | .documentStart | .documentEnd => true
  | _ => false

def documentBody (tokens : List Token) : Option (Table Text Tag × Bool × List Token) := do
  let (stated, rest) ← takeDirectives false Table.empty tokens
  let handles := withStandardHandles stated
  match rest with
  | .documentStart :: body => return (handles, body.head?.all Token.isBetween, body)
  | _ => if tokens.head?.any Token.isBetween then none else return (handles, false, rest)

def documentOf (tokens : List Token) : Option Document := do
  let (handles, isEmpty, body) ← documentBody tokens
  let read : Reader Node :=
    if isEmpty then pure .missing else Reader.node (4 * body.length + 4) true false
  let (root, source) ← read.run { tokens := body, handles := handles }
  if source.tokens.all (· = .documentEnd) then return ⟨root, source.anchors⟩ else none

def Content.ofText (text : Text) : Content :=
  match tokensOf text with
  | none => .unreadable
  | some [] => .nothing
  | some tokens =>
    match documentOf tokens with
    | none => .unreadable
    | some read => .document read

end BenchScript.Yaml
