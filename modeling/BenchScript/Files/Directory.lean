import BenchScript.Engine.Surroundings
import BenchScript.Files.Path
import BenchScript.Table
import BenchScript.Text.Utf8

set_option autoImplicit false

/-!
# Files in a directory

A directory holds plain files, which are bytes, and folders. Paths are followed name by name from
the directory. Of what is outside it only the folders that it lies in are known, up to the root.
Texts are stored in UTF-8, one line after another with a newline behind each that is added.
-/
namespace BenchScript

inductive Node where
  | file (bytes : Bytes)
  | folder
deriving DecidableEq, Repr

/-- Files and folders by the names on the way to them; the directory itself and the folders that it
lies in are not listed. -/
structure Directory where
  nodes : Table (List Text) Node := Table.empty
deriving DecidableEq, Repr

namespace Directory

def notUtf8 : Text := "stream did not contain valid UTF-8".toList

def up : Text := ['.', '.']

def isAround (names : List Text) : Bool := names.all (· == up)

def node? (names : List Text) (d : Directory) : Option Node :=
  if isAround names then some .folder else d.nodes.get? names

/-- Follows names from a folder; the last one need not be there. -/
def follow (d : Directory) (place : List Text) : List Text → Except PathFault (List Text)
  | [] => .ok place
  | name :: rest =>
    match d.node? place with
    | none => .error .notFound
    | some (.file _) => .error .notFolder
    | some .folder =>
      if 255 < Utf8.size name then .error .tooLong
      else if name = up then
        -- Above the directory each folder is known by the steps up to it, and by nothing else.
        d.follow (if isAround place then place ++ [up] else place.dropLast) rest
      else d.follow (if PathKey.isStep name then place ++ [name] else place) rest

/-- Where a path leads, slashes at its end left aside. From the root nothing but the root itself is
in reach. A name takes at most 255 bytes and a path at most 4095. -/
def locate (d : Directory) (path : Text) : Except PathFault (List Text) :=
  let parts := PathKey.splitSlashes (Text.dropTrailing (· == '/') path)
  if path.contains '\x00' then .error .hasNull
  else if 4096 ≤ Utf8.size path then .error .tooLong
  else if path = [] then .error .notFound
  else if path.head? = some '/' then
    match (parts.filter PathKey.isStep).find? (· != up) with
    | none => .ok []
    | some name => .error (if 255 < Utf8.size name then .tooLong else .notFound)
  else d.follow [] parts

def endsInSlash (path : Text) : Bool := path.getLast? == some '/'

def readBytes (path : Text) (d : Directory) : Except PathFault Bytes :=
  match d.locate path with
  | .error e => .error e
  | .ok place =>
    match d.node? place with
    | none => .error .notFound
    | some .folder => .error .isFolder
    | some (.file bytes) => if endsInSlash path then .error .notFolder else .ok bytes

def textOf (bytes : Bytes) : Except Text Text :=
  match Utf8.decode? bytes with
  | some text => .ok text
  | none => .error notUtf8

def readText (path : Text) (d : Directory) : Except Text Text :=
  match d.readBytes path with
  | .error e => .error e.message
  | .ok bytes => textOf bytes

def appendBytes (path : Text) (bytes : Bytes) (d : Directory) :
    Except PathFault Unit × Directory :=
  match d.locate path with
  | .error e => (.error e, d)
  | .ok place =>
    if endsInSlash path then (.error .isFolder, d)
    else
      match d.node? place with
      | some .folder => (.error .isFolder, d)
      | some (.file old) => (.ok (), ⟨d.nodes.insert place (.file (old ++ bytes))⟩)
      | none => (.ok (), ⟨d.nodes.insert place (.file bytes)⟩)

def readLines (path : Text) (d : Directory) : Except Text (List Text) × Directory :=
  match d.readText path with
  | .ok text => (.ok (Text.lines text), d)
  | .error e => (.error e, d)

def appendLine (path text : Text) (d : Directory) : Except Text Unit × Directory :=
  let (added, d) := d.appendBytes path (Utf8.encode (text ++ [Text.newline]))
  (added.mapError PathFault.message, d)

instance : FileStore Directory where
  readLines := readLines
  appendLine := appendLine

end Directory
end BenchScript
