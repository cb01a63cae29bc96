import BenchScript.Wire.Device

set_option autoImplicit false

/-!
# What surrounds an engine

An engine talks to a device, a file store and a host. The host shows notifications to the user,
hears of every command that has been carried out, and may ask for the run to be cancelled whenever
it is called. All three are states with operations, so an engine is a function of its surroundings
and statements about it hold for every device, every store and every host.
-/
namespace BenchScript

inductive Severity where
  | trace
  | info
  | warning
  | error
deriving DecidableEq, Repr

structure Notification where
  severity : Severity
  message : Text
  requiresInput : Bool := false
deriving DecidableEq, Repr

def Notification.prompt (message : Text) : Notification := ⟨.info, message, true⟩

structure Observation where
  line : Text
  row : Text
  data : Bytes
deriving DecidableEq, Repr

/-- The operations on the state of a file store; a failure is told in the system's words. -/
class FileStore (φ : Type) where
  readLines : Text → φ → Except Text (List Text) × φ
  /-- Adds a line at the end of a file, which is made if it is not there. -/
  appendLine : Text → Text → φ → Except Text Unit × φ

/-- The operations on the state of a host. The truth value says whether the host asks for the run to
be cancelled. -/
class Host (η : Type) where
  notify : Notification → η → Bool × η
  observe : Observation → η → Bool × η
  clock : η → Text

/-- Where answers to prompts come from: asked with whether the run is cancelled and with the prompt,
a source gives an answer or none. -/
abbrev AnswerSource (α : Type) := Bool → Text → α → Option Text × α

class Environment (ε : Type) extends Device ε, FileStore ε, Host ε

structure Surroundings (δ φ η : Type) where
  device : δ
  files : φ
  host : η
deriving DecidableEq, Repr

namespace Surroundings

variable {δ φ η : Type}

instance [Device δ] [FileStore φ] [Host η] : Environment (Surroundings δ φ η) where
  write bytes s := (Device.write bytes s.device).map id fun device => { s with device }
  readThrough b s := (Device.readThrough b s.device).map id fun device => { s with device }
  close s := { s with device := Device.close s.device }
  readLines path s := (FileStore.readLines path s.files).map id fun files => { s with files }
  appendLine path text s :=
    (FileStore.appendLine path text s.files).map id fun files => { s with files }
  notify note s := (Host.notify note s.host).map id fun host => { s with host }
  observe observation s := (Host.observe observation s.host).map id fun host => { s with host }
  clock s := Host.clock s.host

end Surroundings
end BenchScript
