import BenchScript.Display
import BenchScript.Engine.Outgoing
import BenchScript.Engine.Surroundings
import BenchScript.Script.Command
import BenchScript.Script.Variables
import BenchScript.Settings

set_option autoImplicit false

namespace BenchScript

structure Workspace (ε : Type) where
  around : ε
  bindings : Variables := Table.empty
  /-- The last answer: a response of the device, or what the user gave to a prompt. -/
  lastRow : Text := []
  lastData : Bytes := []
  cancelled : Bool := false
deriving DecidableEq, Repr

namespace Workspace

variable {ε : Type} [Environment ε]

def notify (note : Notification) (w : Workspace ε) : Workspace ε :=
  let (cancel, around) := Host.notify note w.around
  { w with around, cancelled := w.cancelled || cancel }

def observe (command : Command) (w : Workspace ε) : Workspace ε :=
  let (cancel, around) := Host.observe ⟨command.line, w.lastRow, w.lastData⟩ w.around
  { w with around, cancelled := w.cancelled || cancel }

def shown (line : Text) (w : Workspace ε) : Text :=
  Display.ofLine (Host.clock w.around) w.bindings.get? line

def caption (command : Command) (w : Workspace ε) : Text :=
  Text.dropLeading ' ' ((w.shown command.line).drop 1)

def send (frame : Frame) (w : Workspace ε) : Except ScriptError Unit × Workspace ε :=
  match exchange frame w.around with
  | (.ok response, around) =>
    (.ok (), { w with around, lastRow := response.row, lastData := response.data })
  | (.error e, around) => (.error (.ofLink e), { w with around })

def sendAny (frame : Except LinkError Frame) (w : Workspace ε) :
    Except ScriptError Unit × Workspace ε :=
  match frame with
  | .ok frame => w.send frame
  | .error e => (.error (.ofLink e), w)

def sendDigits (limit : Nat) (text : Text) (w : Workspace ε) :
    Except ScriptError Unit × Workspace ε :=
  w.sendAny (hexFrame limit text)

def sendChecksum (limit : Nat) (text : Text) (w : Workspace ε) :
    Except ScriptError Unit × Workspace ε :=
  w.sendAny (checksumFrame limit w.lastRow w.lastData text)

def sendLines (limit : Nat) : List Text → Workspace ε → Except ScriptError Unit × Workspace ε
  | [], w => (.ok (), w)
  | line :: rest, w =>
    match w.sendDigits limit line with
    | (.ok (), w) => sendLines limit rest w
    | (.error e, w) => (.error e, w)

def warn (message : Text) (w : Workspace ε) : Workspace ε := w.notify ⟨.warning, message, false⟩

/-- Sends the lines of a file that are not blank. A file that cannot be read is only warned of. -/
def sendFile (limit : Nat) (command : Command) (w : Workspace ε) :
    Except ScriptError Unit × Workspace ε :=
  let path := command.argument
  if path = [] then (.ok (), w.warn (command.line ++ ": no file given".toList))
  else
    match FileStore.readLines path w.around with
    | (.ok lines, around) =>
      sendLines limit ((lines.map Text.trim).filter (· ≠ [])) { w with around }
    | (.error cause, around) =>
      (.ok (), { w with around }.warn (ScriptError.file path cause).message)

/-- Appends the last row to the file that a command names, or to the default. Failure is only warned
of. -/
def appendRow (defaultOutput : Option Text) (command : Command) (w : Workspace ε) : Workspace ε :=
  let given := command.argument
  match (if given = [] then defaultOutput else some given) with
  | none => w.warn (command.line ++ ": no file given and no default output".toList)
  | some path =>
    match FileStore.appendLine path w.lastRow w.around with
    | (.ok (), around) => { w with around }
    | (.error cause, around) => { w with around }.warn (ScriptError.file path cause).message

end Workspace
end BenchScript
