import BenchScript.Launch.Error
import BenchScript.Text.Basic

set_option autoImplicit false

namespace BenchScript

inductive LinkChoice where
  | serial (path : Text)
  | tcp (address : Text)
deriving DecidableEq, Repr

inductive Endpoint where
  | serial (path : Text) (baud : Nat)
  | tcp (address : Text)
deriving DecidableEq, Repr

namespace Endpoint

def ofChoice (choice : LinkChoice) (baud : Nat) : Endpoint :=
  match choice with
  | .serial path => .serial path baud
  | .tcp address => .tcp address

def decimalBelow (bound : Nat) (text : Text) : Option Nat :=
  let digits := Text.dropLeading '+' text
  if digits = [] then none
  else
    let value := digits.foldl (fun n c => n.bind fun n =>
      if c.isDigit then some (10 * n + (c.toNat - '0'.toNat)) else none) (some 0)
    value.filter (· < bound)

def portOf (address : Text) : Option Text :=
  if address.contains ':' then some (address.reverse.takeWhile (· != ':')).reverse else none

/-- Why a link to a target cannot be opened, given what keeps a path from being a port. No driver
for live links is built in, so an address without any other fault has this one. -/
def fault {m : Type → Type} [Monad m] (portFault : Text → m LinkFault) : Endpoint → m LaunchError
  | .serial path _ => return .openPort path (← portFault path)
  | .tcp address =>
    match portOf address with
    | none => return .connect address .invalidAddress
    | some port =>
      return .connect address
        (if (decimalBelow 65536 port).isSome then .unsupported else .invalidPort)

end Endpoint
end BenchScript
