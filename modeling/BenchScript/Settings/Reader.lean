import BenchScript.Settings
import BenchScript.Yaml.Node

set_option autoImplicit false

namespace BenchScript.Settings

def digitIn (base : Nat) (c : Char) : Option Nat :=
  (Yaml.hexValue c).bind fun value => if value < base then some value else none

def natIn (base : Nat) (digits : Text) : Option Nat :=
  if digits = [] then none
  else digits.foldl (fun n c => n.bind fun n => (digitIn base c).map (base * n + ·)) (some 0)

/-- A number as a plain scalar: a plus may stand in front, and a decimal number has no needless zero
there. -/
def number (text : Text) : Option Nat :=
  match Text.dropLeading '+' text with
  | '0' :: 'x' :: digits => natIn 16 digits
  | '0' :: 'o' :: digits => natIn 8 digits
  | '0' :: 'b' :: digits => natIn 2 digits
  | '0' :: _ :: _ => none
  | digits => natIn 10 digits

def isNull (text : Text) : Bool :=
  text == ['~'] || text == "null".toList || text == "Null".toList || text == "NULL".toList

/-- Whether a scalar may be read as a number: it is plain, or a block whose tag says so. -/
def isNumeric (scalar : Yaml.Scalar) : Bool :=
  scalar.style == .plain || (scalar.style == .literal && scalar.tag == some Yaml.Tag.int)

def numberBelow (bound : Nat) (scalar : Yaml.Scalar) : Option Nat :=
  if isNumeric scalar then (number scalar.text).filter (· < bound) else none

/-- A value that may be absent: the outer layer says whether it can be read. A plain scalar is
absent if it is empty or a word for null; with a tag it is absent only if the tag asks for null. -/
def optional {α : Type} (read : Yaml.Scalar → Option α) (scalar : Yaml.Scalar) :
    Option (Option α) :=
  let value := (read scalar).map some
  if scalar.style = .plain then
    match scalar.tag with
    | none => if scalar.text = [] ∨ isNull scalar.text then some none else value
    | some tag =>
      if tag = Yaml.Tag.null then (if isNull scalar.text then some none else none) else value
  else value

def assign (settings : Settings) (key : Text) (value : Option Yaml.Scalar) : Option Settings :=
  if key = "call_depth_budget".toList then
    (value.bind (numberBelow UInt32.size)).map fun n => { settings with callDepthBudget := n }
  else if key = "hex_inline_limit".toList then
    (value.bind (numberBelow UInt64.size)).map fun n => { settings with hexInlineLimit := n }
  else if key = "read_timeout_ms".toList then
    (value.bind (optional (numberBelow UInt64.size))).map fun n => { settings with readTimeout := n }
  else if key = "default_output".toList then
    (value.bind (optional fun scalar => some scalar.text)).map fun path =>
      { settings with defaultOutput := path }
  else some settings

def names : List Text :=
  ["call_depth_budget".toList, "hex_inline_limit".toList, "read_timeout_ms".toList,
    "default_output".toList]

def assignAll (anchors : Yaml.Anchors) (settings : Settings) (seen : List Text) :
    List (Yaml.Node × Yaml.Node) → Option Settings
  | [] => some settings
  | (key, value) :: rest =>
    match anchors.scalar? key with
    | none => none
    | some ⟨_, _, key⟩ =>
      if seen.contains key then none
      else
        (settings.assign key (anchors.scalar? value)).bind fun settings =>
          assignAll anchors settings (if names.contains key then key :: seen else seen) rest

/-- The settings of a document, which need not be valid. A document that is an empty plain scalar
changes nothing. -/
def ofContent : Yaml.Content → Option Settings
  | .nothing => some {}
  | .unreadable => none
  | .document document =>
    match document.root with
    | .mapping entries => assignAll document.anchors {} [] entries
    | .scalar scalar => if scalar.style = .plain ∧ scalar.text = [] then some {} else none
    | _ => none

def ofText (text : Text) : Except ConfigError Settings :=
  match ofContent (Yaml.Content.ofText text) with
  | none => .error .unreadable
  | some settings =>
    match settings.check with
    | .ok () => .ok settings
    | .error e => .error e

end BenchScript.Settings
