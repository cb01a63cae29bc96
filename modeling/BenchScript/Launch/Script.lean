import BenchScript.Engine.Run
import BenchScript.Files.Directory
import BenchScript.Host.Answers
import BenchScript.Host.Console
import BenchScript.Launch.Error

set_option autoImplicit false

namespace BenchScript

/-- An input for answers, and whether the user interrupts the run during each read from it; once the
list is used up there is no interruption. -/
structure AnswerInput where
  bytes : Bytes
  interrupts : List Bool := []
deriving DecidableEq, Repr

def AnswerInput.source : AnswerSource AnswerInput := fun cancelled _ input =>
  let (answer, bytes) :=
    Answers.nextUnless cancelled (input.interrupts.headD false) input.bytes
  (answer, ⟨bytes, if cancelled then input.interrupts else input.interrupts.tail⟩)

def launchScript {δ : Type} [Device δ] (settings : Settings) (path routine : Text)
    (input : AnswerInput) (around : Surroundings δ Directory Console) :
    Except LaunchError Ending × Surroundings δ Directory Console :=
  match Engine.assemble settings ⟨some around.device, some around.host, some around.files⟩ with
  | .error e => (.error (.script e), around)
  | .ok engine =>
    match engine.loadFrom path with
    | (.error e, engine) => (.error (.load path e), engine.workspace.around)
    | (.ok (), engine) =>
      match engine.runAnswered routine AnswerInput.source input with
      | (.error e, engine, _) => (.error (.script e), engine.workspace.around)
      | (.ok ending, engine, _) => (.ok ending, engine.close.workspace.around)

end BenchScript
