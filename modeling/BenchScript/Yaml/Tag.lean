import BenchScript.Text.Utf8
import BenchScript.Yaml.Letter

set_option autoImplicit false

namespace BenchScript.Yaml

abbrev Tag := Bytes

namespace Tag

def standard : Tag := Utf8.encode "tag:yaml.org,2002:".toList

def int : Tag := standard ++ Utf8.encode "int".toList

def null : Tag := standard ++ Utf8.encode "null".toList

def unspecific : Tag := Utf8.encode "!".toList

end Tag

def isAddressChar (wide : Bool) (c : Char) : Bool :=
  isNameChar c || ";/?:@&=+$.!~*'()".toList.contains c || (wide && [',', '[', ']'].contains c)

def octetsAfter (octet : UInt8) : Option Nat :=
  if octet &&& 0x80 = 0 then some 0
  else if octet &&& 0xE0 = 0xC0 then some 1
  else if octet &&& 0xF0 = 0xE0 then some 2
  else if octet &&& 0xF8 = 0xF0 then some 3
  else none

def takeAddress (wide : Bool) : (missing : Nat) → List Letter → Option (Tag × List Letter)
  | missing, [] => if missing = 0 then some ([], []) else none
  | missing, letter :: rest =>
    if letter.char = '%' then
      match rest with
      | high :: low :: rest => do
        let octet := UInt8.ofNat (16 * (← hexValue high.char) + (← hexValue low.char))
        let missing ←
          if missing = 0 then octetsAfter octet
          else if octet &&& 0xC0 = 0x80 then some (missing - 1) else none
        let (octets, rest) ← takeAddress wide missing rest
        return (octet :: octets, rest)
      | _ => none
    else if missing ≠ 0 then none
    else if isAddressChar wide letter.char then do
      let (octets, rest) ← takeAddress wide 0 rest
      return (Utf8.encode [letter.char] ++ octets, rest)
    else some ([], letter :: rest)

/-- The address that letters begin with, which is not empty; a zero octet ends it. -/
def address (wide : Bool) (letters : List Letter) : Option (Tag × List Letter) := do
  let (octets, rest) ← takeAddress wide 0 letters
  if octets = [] then none else return (octets.takeWhile (· != 0), rest)

structure TagName where
  handle : Text
  suffix : Tag
deriving DecidableEq, Repr

/-- The tag name after its first sign, and the letters after it. A name without a second sign
belongs to the handle of one sign, unless nothing follows it. -/
def tagName (letters : List Letter) : Option (TagName × List Letter) :=
  if startsWith '<' letters then do
    let (suffix, rest) ← address true (letters.drop 1)
    if startsWith '>' rest then return (⟨[], suffix⟩, rest.drop 1) else none
  else do
    let (name, rest) := takeName letters
    if startsWith '!' rest then
      let (suffix, rest) ← address false (rest.drop 1)
      return (⟨'!' :: name ++ ['!'], suffix⟩, rest)
    else
      let (octets, rest) ← takeAddress false 0 rest
      let suffix := (Utf8.encode name ++ octets).takeWhile (· != 0)
      return (if suffix = [] then ⟨[], Tag.unspecific⟩ else ⟨['!'], suffix⟩, rest)

def tagBefore (inFlow : Bool) (letters : List Letter) : Option (TagName × List Letter) := do
  let (name, rest) ← tagName letters
  if endsWord rest || (inFlow && startsWith ',' rest) then return (name, rest) else none

inductive Directive where
  | version (major minor : Nat)
  | handle (name : Text) (meaning : Tag)
deriving DecidableEq, Repr

def versionNumber (letters : List Letter) : Option (Nat × List Letter) :=
  let digits := letters.takeWhile (·.char.isDigit)
  if digits = [] ∨ 9 < digits.length then none
  else some (digits.foldl (fun n letter => 10 * n + (letter.char.toNat - 0x30)) 0,
    letters.drop digits.length)

def handleName (letters : List Letter) : Option (Text × List Letter) :=
  if startsWith '!' letters then
    let (name, rest) := takeName (letters.drop 1)
    if startsWith '!' rest then some ('!' :: name ++ ['!'], rest.drop 1)
    else if name = [] then some (['!'], rest)
    else none
  else none

def directive (letters : List Letter) : Option (Directive × List Letter) := do
  let (name, rest) := takeName letters
  if !endsWord rest then none
  else if name = "YAML".toList then
    let (major, rest) ← versionNumber (dropBlanks rest)
    if startsWith '.' rest then
      let (minor, rest) ← versionNumber (rest.drop 1)
      return (.version major minor, ← afterLine rest)
    else none
  else if name = "TAG".toList then
    let (handle, rest) ← handleName (dropBlanks rest)
    if rest.head?.any fun letter => isBlank letter.char then
      let (meaning, rest) ← address true (dropBlanks rest)
      if endsWord rest then return (.handle handle meaning, ← afterLine rest) else none
    else none
  else none

end BenchScript.Yaml
