import BenchScript.Engine.Ending
import BenchScript.Engine.Workspace
import BenchScript.Script.Condition

set_option autoImplicit false

namespace BenchScript

inductive Verdict where
  | next
  | gate (isOpen : Bool)
  | enter (name : Text)
  | suspend (prompt : Text)
  | stop (ending : Ending)
deriving DecidableEq, Repr

namespace Workspace

variable {ε : Type} [Environment ε]

def blame (command : Command) (e : ScriptError) (w : Workspace ε) : Text :=
  w.shown command.line ++ ": ".toList ++ e.message

def proceed (command : Command) : Except ScriptError Unit × Workspace ε → Verdict × Workspace ε
  | (.ok (), w) => (.next, w)
  | (.error e, w) => (.stop (.failed (w.blame command e)), w)

/-- The line of a command with its references replaced, handed on to `action`. -/
def withLine (command : Command) (w : Workspace ε)
    (action : Text → Except ScriptError Unit × Workspace ε) : Verdict × Workspace ε :=
  match w.bindings.expand command.line with
  | .ok line => proceed command (action line)
  | .error e => proceed command (.error e, w)

def decideGate (command : Command) (w : Workspace ε) : Verdict :=
  match Condition.ofText command.raw with
  | .error e => .stop (.conditionError (w.blame command e))
  | .ok condition =>
    match condition.holds w.bindings w.lastRow with
    | .error e => .stop (.conditionError (w.blame command e))
    | .ok isOpen => .gate isOpen

def perform (settings : Settings) (command : Command) (w : Workspace ε) : Verdict × Workspace ε :=
  match command.action with
  | .condition => (w.decideGate command, w)
  | .define =>
    match w.bindings.assign (Text.trim command.raw) w.lastRow with
    | .error e => proceed command (.error e, w)
    | .ok (_, bindings) =>
      let w := { w with bindings }
      (.next, w.notify ⟨.trace, w.shown command.line, false⟩)
  | .jump => (.enter command.argument, w)
  | .data => proceed command (w.send (.data (command.payload?.getD [])))
  | .hex => withLine command w fun line => w.sendDigits settings.hexInlineLimit line
  | .sendFile => proceed command (w.sendFile settings.hexInlineLimit command)
  | .message => (.next, w.notify ⟨.info, w.caption command, false⟩)
  | .quit => (.stop .quit, w)
  | .ask =>
    let prompt := w.caption command
    (.suspend prompt, w.notify (.prompt prompt))
  | .append => (.next, w.appendRow settings.defaultOutput command)
  | .checksum => withLine command w fun line => w.sendChecksum settings.hexInlineLimit line
  -- No routine holds a heading, so nothing is lost here.
  | .routine => (.next, w)
  | .forward _ => withLine command w fun line => w.send (.text line)

end Workspace
end BenchScript
