import BenchScript.Files.Directory
import BenchScript.Launch.Error

set_option autoImplicit false

namespace BenchScript

structure FileAccess (m : Type → Type) where
  readText : Text → m (Except Text Text)
  /-- Adds a text at the end of a file, which is made if it is not there. -/
  appendText : Text → Text → m (Except Text Unit)
  /-- What keeps a path from being a port. -/
  portFault : Text → m LinkFault

/-- A directory holds no devices, so none of its paths is a port. -/
def Directory.access : FileAccess (StateM Directory) where
  readText path d := (d.readText path, d)
  appendText path text d :=
    let (added, d) := d.appendBytes path (Utf8.encode text)
    (added.mapError PathFault.message, d)
  portFault path d :=
    match d.readBytes path with
    | .error fault => (.noPort fault, d)
    | .ok _ => (.noDevice, d)

end BenchScript
