import BenchScript.Files.Memory
import BenchScript.Host.Transcript
import BenchScript.Wire.Canned

set_option autoImplicit false

namespace BenchScript

/-- Something that passed between an engine and its surroundings, with what came back. -/
inductive Passage where
  | notified (note : Notification) (cancels : Bool)
  | observed (observation : Observation) (cancels : Bool)
  | wrote (bytes : Bytes) (result : Except LinkError Unit)
  | received (stop : UInt8) (result : Except LinkError Bytes)
  | closed
  | readFile (path : Text) (result : Except Text (List Text))
  | appended (path line : Text) (result : Except Text Unit)

structure Recorded (ε : Type) where
  around : ε
  record : List Passage := []

namespace Recorded

variable {ε : Type}

def keep {β : Type} (passage : β → Passage) (out : β × ε) (r : Recorded ε) : β × Recorded ε :=
  (out.1, ⟨out.2, r.record ++ [passage out.1]⟩)

instance [Environment ε] : Environment (Recorded ε) where
  write bytes r := r.keep (.wrote bytes) (Device.write bytes r.around)
  readThrough stop r := r.keep (.received stop) (Device.readThrough stop r.around)
  close r := ⟨Device.close r.around, r.record ++ [.closed]⟩
  readLines path r := r.keep (.readFile path) (FileStore.readLines path r.around)
  appendLine path line r := r.keep (.appended path line) (FileStore.appendLine path line r.around)
  notify note r := r.keep (.notified note) (Host.notify note r.around)
  observe observation r := r.keep (.observed observation) (Host.observe observation r.around)
  clock r := Host.clock r.around

def notifications (r : Recorded ε) : List Notification :=
  r.record.filterMap fun
    | .notified note _ => some note
    | _ => none

def observations (r : Recorded ε) : List Observation :=
  r.record.filterMap fun
    | .observed observation _ => some observation
    | _ => none

def writes (r : Recorded ε) : List (Bytes × Except LinkError Unit) :=
  r.record.filterMap fun
    | .wrote bytes result => some (bytes, result)
    | _ => none

def appends (r : Recorded ε) : List (Text × Text × Except Text Unit) :=
  r.record.filterMap fun
    | .appended path line result => some (path, line, result)
    | _ => none

end Recorded

/-- A bench for trying scripts out: a device that confirms everything, no files, and a record. -/
abbrev Bench := Recorded (Surroundings CannedDevice MemoryFiles Transcript)

def Bench.fresh : Bench := ⟨⟨{}, {}, {}⟩, []⟩

end BenchScript
