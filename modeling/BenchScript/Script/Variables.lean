import BenchScript.Table
import BenchScript.Text.Blank
import BenchScript.Script.Error
import BenchScript.Script.Reference

set_option autoImplicit false

namespace BenchScript

abbrev Variables := Table Text Text

namespace Variables

def valueOf (bindings : Variables) (name : Text) : Except ScriptError Text :=
  match bindings.get? name with
  | some value => .ok value
  | none => .error (.undefinedVariable name)

def operand (bindings : Variables) : Text → Except ScriptError Text
  | '$' :: name => bindings.valueOf name
  | literal => .ok literal

/-- The two sides of an assignment: the name without its spaces, and the trimmed value if there is
an equals sign. -/
def assignmentSides (assignment : Text) : Text × Option Text :=
  match Text.splitOnce ['='] assignment with
  | some (name, value) => (name.filter (· != ' '), some (Text.trim value))
  | none => (assignment.filter (· != ' '), none)

/-- Carries out an assignment. Without a value the variable takes the last row. Returns the name. -/
def assign (bindings : Variables) (assignment lastRow : Text) :
    Except ScriptError (Text × Variables) :=
  let (name, given) := assignmentSides assignment
  if name = [] then .error (.format (.namelessVariable assignment))
  else
    match given with
    | none => .ok (name, bindings.insert name lastRow)
    | some value =>
      match bindings.operand value with
      | .ok value => .ok (name, bindings.insert name value)
      | .error e => .error e

def expand (bindings : Variables) (text : Text) : Except ScriptError Text :=
  Piece.expand bindings.valueOf (Piece.ofText text)

end Variables
end BenchScript
