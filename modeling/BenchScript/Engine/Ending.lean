import BenchScript.Engine.Surroundings
import BenchScript.Text.Quoted

set_option autoImplicit false

namespace BenchScript

inductive Ending where
  | completed
  | quit
  | cancelled
  | routineNotFound (name : Text)
  | conditionError (message : Text)
  | callDepthExceeded
  | failed (message : Text)
deriving DecidableEq, Repr

namespace Ending

def text : Ending → Text
  | .completed => "completed".toList
  | .quit => "quit".toList
  | .cancelled => "cancelled".toList
  | .routineNotFound name => "routine not found: ".toList ++ Text.quoted name
  | .conditionError message => "condition error: ".toList ++ message
  | .callDepthExceeded => "call depth exceeded".toList
  | .failed message => "failed: ".toList ++ message

def isSuccess : Ending → Bool
  | .completed | .quit => true
  | _ => false

/-- What the user is told of the end of a run; the ends that a script is written to have need no
telling. -/
def report? : Ending → Option Notification
  | .completed | .quit => none
  | .cancelled => some ⟨.warning, text .cancelled, false⟩
  | ending => some ⟨.error, ending.text, false⟩

end Ending

inductive Standing where
  | waiting (prompt : Text)
  | ended (ending : Ending)
deriving DecidableEq, Repr

end BenchScript
