import BenchScript.Engine.Surroundings

set_option autoImplicit false

namespace BenchScript

structure Transcript where
  notes : List Notification := []
  observed : List Observation := []
  cancelAtNote : Option Nat := none
  cancelAtObserved : Option Nat := none
  listens : Bool := true
  time : Text := []
deriving DecidableEq, Repr

namespace Transcript

def notify (note : Notification) (t : Transcript) : Bool × Transcript :=
  (t.cancelAtNote == some (t.notes.length + 1), { t with notes := t.notes ++ [note] })

def observe (observation : Observation) (t : Transcript) : Bool × Transcript :=
  if t.listens then
    (t.cancelAtObserved == some (t.observed.length + 1),
      { t with observed := t.observed ++ [observation] })
  else (false, t)

instance : Host Transcript where
  notify := notify
  observe := observe
  clock := time

end Transcript
end BenchScript
