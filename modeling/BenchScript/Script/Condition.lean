import BenchScript.Script.Variables

set_option autoImplicit false

/-!
# Conditions

A condition compares two operands for equality or inequality, or one operand with the last row. An
empty condition always holds. Operands are compared character by character.
-/
namespace BenchScript

inductive Condition where
  | always
  | lastRow (operand : Text)
  | compare (left right : Text) (negated : Bool)
deriving DecidableEq, Repr

namespace Condition

def equalSign : Text := ['=', '=']

/-- The sign for inequality, which is looked for first. -/
def differSign : Text := ['<', '>']

def ofBody (body : Text) : Except ScriptError Condition :=
  if body = [] then .ok .always
  else
    let negated := Text.occursIn differSign body
    match Text.splitOnce (if negated then differSign else equalSign) body with
    | none => .ok (.lastRow body)
    | some (left, right) =>
      let left := Text.trim left
      let right := Text.trim right
      if left = [] ∨ right = [] then .error (.format (.blankOperand body))
      else .ok (.compare left right negated)

def ofText (text : Text) : Except ScriptError Condition :=
  ofBody (Text.trim (Text.dropLeading '?' (Text.trim text)))

def holds (condition : Condition) (bindings : Variables) (lastRow : Text) :
    Except ScriptError Bool :=
  match condition with
  | .always => .ok true
  | .lastRow operand =>
    match bindings.operand operand with
    | .error e => .error e
    | .ok value => .ok (decide (value = lastRow))
  | .compare left right negated =>
    match bindings.operand left with
    | .error e => .error e
    | .ok leftValue =>
      match bindings.operand right with
      | .error e => .error e
      | .ok rightValue => .ok (decide (leftValue = rightValue) != negated)

end Condition
end BenchScript
