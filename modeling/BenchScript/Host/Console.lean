import BenchScript.Engine.Surroundings

set_option autoImplicit false

namespace BenchScript

structure Console where
  showTrace : Bool := false
  shown : Text := []
  time : Text := []
deriving DecidableEq, Repr

namespace Console

def render (showTrace : Bool) (note : Notification) : Text :=
  match note.severity with
  | .trace => if showTrace then "  ".toList ++ note.message ++ [Text.newline] else []
  | .info => note.message ++ [if note.requiresInput then ' ' else Text.newline]
  | .warning => "warning: ".toList ++ note.message ++ [Text.newline]
  | .error => "error: ".toList ++ note.message ++ [Text.newline]

def notify (note : Notification) (console : Console) : Bool × Console :=
  (false, { console with shown := console.shown ++ render console.showTrace note })

instance : Host Console where
  notify := notify
  observe _ console := (false, console)
  clock := time

end Console
end BenchScript
