import BenchScript.Launch.Access
import BenchScript.Script.Fingerprint

set_option autoImplicit false

namespace BenchScript.Seal

def addition (text marker : Text) : Text :=
  (if text = [] ∨ text.getLast? = some Text.newline then [] else [Text.newline])
    ++ marker ++ [Text.newline]

def signOn {m : Type → Type} [Monad m] (files : FileAccess m) (path : Text) (add : Bool) :
    m (Except LaunchError Text) := do
  match ← files.readText path with
  | .error cause => return .error (.script (.file path cause))
  | .ok text =>
    let marker := markerLine (Text.lines text)
    if add then
      match ← files.appendText path (addition text marker) with
      | .ok () => return .ok marker
      | .error cause => return .error (.reopen path cause)
    else return .ok marker

def sign (path : Text) (add : Bool) (d : Directory) : Except LaunchError Text × Directory :=
  (signOn Directory.access path add).run d

theorem sign_eq (path : Text) (add : Bool) (d : Directory) :
    sign path add d =
      match d.readText path with
      | .error cause => (.error (.script (.file path cause)), d)
      | .ok text =>
        let marker := markerLine (Text.lines text)
        if add then
          match d.appendBytes path (Utf8.encode (addition text marker)) with
          | (.ok (), d) => (.ok marker, d)
          | (.error cause, d) => (.error (.reopen path cause.message), d)
        else (.ok marker, d) := by
  unfold sign signOn
  simp only [StateT.run, bind, StateT.bind, Directory.access]
  cases d.readText path with
  | error cause => rfl
  | ok text =>
    cases add with
    | false => rfl
    | true =>
      simp only [if_true, StateT.bind]
      generalize d.appendBytes path _ = outcome
      obtain ⟨added, d⟩ := outcome
      cases added <;> rfl

end BenchScript.Seal
