import BenchScript.Table
import BenchScript.Script.Command
import BenchScript.Script.Error
import BenchScript.Script.Fingerprint

set_option autoImplicit false

/-!
# Routines

Loading a script reads its lines to commands and cuts the commands into routines. Blank lines and
comments are passed over, marker lines are checked against the lines above them, and only when every
marker holds are the routines cut. Commands before the first routine marker belong to the routine
with the empty name, which every script has.
-/
namespace BenchScript

def entryRoutine : Text := []

inductive LineClass where
  | ignored
  | marker
  | command (command : Command)
deriving DecidableEq, Repr

/-- Looks at the first character that is not blank. Binary data keeps the blanks at its end. -/
def LineClass.ofLine (line : Text) : LineClass :=
  match Text.trim line with
  | [] => .ignored
  | tag :: raw =>
    if tag = '#' then .ignored
    else if tag = markerTag then .marker
    else if tag = 'D' then .command (.binary (Text.trimStart line))
    else .command (.textual tag raw)

def readCommands (above : List Text) : List Text → Except ScriptError (List (Nat × Command))
  | [] => .ok []
  | line :: below =>
    match LineClass.ofLine line with
    | .ignored => readCommands (above ++ [line]) below
    | .marker =>
      let computed := fingerprint above
      if showsFingerprint line computed then readCommands (above ++ [line]) below
      else .error (.integrity (above.length + 1) computed line)
    | .command command =>
      match readCommands (above ++ [line]) below with
      | .ok commands => .ok ((above.length + 1, command) :: commands)
      | .error e => .error e

structure Section where
  number : Nat
  name : Text
  commands : List Command
deriving DecidableEq, Repr

/-- Cuts commands at the routine markers: those before the first marker, and a section a marker. -/
def cutSections : List (Nat × Command) → List Command × List Section
  | [] => ([], [])
  | (number, command) :: rest =>
    let (leading, sections) := cutSections rest
    if command.action = .routine then ([], ⟨number, command.argument, leading⟩ :: sections)
    else (command :: leading, sections)

abbrev Routines := Table Text (List Command)

namespace Routines

def addSections (table : Routines) : List Section → Except ScriptError Routines
  | [] => .ok table
  | part :: rest =>
    if part.name = [] then .error (.format (.namelessRoutine part.number))
    else if table.contains part.name then
      .error (.format (.duplicateRoutine part.name part.number))
    else addSections (table.insert part.name part.commands) rest

def ofLines (lines : List Text) : Except ScriptError Routines :=
  match readCommands [] lines with
  | .error e => .error e
  | .ok commands =>
    let (leading, sections) := cutSections commands
    addSections (Table.empty.insert entryRoutine leading) sections

def names (table : Routines) : List Text := table.keys.mergeSort Text.precedes

def command? (table : Routines) (name : Text) (position : Nat) : Option Command :=
  (table.get? name).bind fun commands => commands[position]?

end Routines
end BenchScript
