import BenchScript.Engine.Surroundings
import BenchScript.Files.Path
import BenchScript.Table

set_option autoImplicit false

namespace BenchScript

structure MemoryFile where
  spelling : Text
  lines : List Text
deriving DecidableEq, Repr

structure MemoryFiles where
  files : Table PathKey MemoryFile := Table.empty
  locked : List PathKey := []
deriving DecidableEq, Repr

namespace MemoryFiles

def put (path : Text) (lines : List Text) (store : MemoryFiles) : MemoryFiles :=
  let key := PathKey.ofText path
  let spelling := ((store.files.get? key).map MemoryFile.spelling).getD path
  { store with files := store.files.insert key ⟨spelling, lines⟩ }

def lines? (path : Text) (store : MemoryFiles) : Option (List Text) :=
  (store.files.get? (PathKey.ofText path)).map MemoryFile.lines

def readLines (path : Text) (store : MemoryFiles) : Except Text (List Text) × MemoryFiles :=
  match store.lines? path with
  | some lines => (.ok lines, store)
  | none => (.error "no such file".toList, store)

def appendLine (path text : Text) (store : MemoryFiles) : Except Text Unit × MemoryFiles :=
  if store.locked.contains (PathKey.ofText path) then (.error "read only".toList, store)
  else (.ok (), store.put path ((store.lines? path).getD [] ++ [text]))

instance : FileStore MemoryFiles where
  readLines := readLines
  appendLine := appendLine

end MemoryFiles
end BenchScript
