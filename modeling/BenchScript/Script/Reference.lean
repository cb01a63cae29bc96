import BenchScript.Text.Basic

set_option autoImplicit false

namespace BenchScript

inductive Piece where
  | plain (c : Char)
  | reference (name : Text)
deriving DecidableEq, Repr

namespace Piece

def inName (c : Char) : Bool := c != ' '

def ofText : Text → List Piece
  | [] => []
  | c :: rest =>
    if c = '$' ∧ rest.takeWhile inName ≠ [] then
      .reference (rest.takeWhile inName) :: ofText (rest.dropWhile inName)
    else .plain c :: ofText rest
termination_by text => text.length
decreasing_by
  · have := (List.dropWhile_sublist (l := rest) (p := inName)).length_le
    simp only [List.length_cons]
    omega
  · simp

/-- Replaces every reference; the first one that cannot be replaced decides the error. -/
def expand {ε : Type} (value : Text → Except ε Text) : List Piece → Except ε Text
  | [] => .ok []
  | .plain c :: rest =>
    match expand value rest with
    | .ok text => .ok (c :: text)
    | .error e => .error e
  | .reference name :: rest =>
    match value name with
    | .error e => .error e
    | .ok replacement =>
      match expand value rest with
      | .ok text => .ok (replacement ++ text)
      | .error e => .error e

def render (value : Text → Text) : List Piece → Text
  | [] => []
  | .plain c :: rest => c :: render value rest
  | .reference name :: rest => value name ++ render value rest

end Piece
end BenchScript
