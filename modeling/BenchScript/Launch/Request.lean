import BenchScript.CommandLine.Request
import BenchScript.Launch.Seal
import BenchScript.Settings.Reader

set_option autoImplicit false

namespace BenchScript

def settingsIn (path : Text) (text : Except Text Text) : Except LaunchError Settings :=
  match text with
  | .error cause => .error (.script (.file path cause))
  | .ok text =>
    match Settings.ofText text with
    | .ok settings => .ok settings
    | .error e => .error (.script (.config e))

variable {m : Type → Type} [Monad m]

def linkFailure (files : FileAccess m) (config : Option Text) (link : LinkChoice) (baud : Nat) :
    m LaunchError := do
  let settings ← match config with
    | none => pure (.ok {})
    | some path => settingsIn path <$> files.readText path
  match settings with
  | .error e => return e
  | .ok _ => (Endpoint.ofChoice link baud).fault files.portFault

def fulfilOn (files : FileAccess m) : CommandLine.Request → m (Except LaunchError Text)
  | .sign script append =>
    return (← Seal.signOn files script append).map (· ++ [Text.newline])
  | .run _ _ config link baud => return .error (← linkFailure files config link baud)

/-- What carrying out a request on a directory comes to: whether all went well, what was shown, and
the files afterwards. -/
def fulfil (request : CommandLine.Request) (d : Directory) :
    Except LaunchError Bool × Text × Directory :=
  match (fulfilOn Directory.access request).run d with
  | (.ok shown, d) => (.ok true, shown, d)
  | (.error e, d) => (.error e, [], d)

end BenchScript
