import BenchScript.Text.Basic

set_option autoImplicit false

namespace BenchScript

structure PathKey where
  isAbsolute : Bool
  names : List Text
deriving DecidableEq, Repr

namespace PathKey

def splitSlashes : Text → List Text
  | [] => [[]]
  | c :: rest =>
    if c = '/' then [] :: splitSlashes rest
    else
      match splitSlashes rest with
      | [] => [[c]]
      | name :: more => (c :: name) :: more

def here : Text := ['.']

def isStep (name : Text) : Bool := name != [] && name != here

def ofText (path : Text) : PathKey :=
  match splitSlashes path with
  | [] => ⟨false, []⟩
  | first :: more =>
    if path.head? = some '/' then ⟨true, more.filter isStep⟩
    else if first = here then ⟨false, here :: more.filter isStep⟩
    else ⟨false, (first :: more).filter isStep⟩

end PathKey

inductive PathFault where
  | notFound
  | notFolder
  | isFolder
  | tooLong
  /-- A null character, which ends every path of the system. -/
  | hasNull
deriving DecidableEq, Repr

namespace PathFault

def words : PathFault → Text
  | .notFound => "No such file or directory".toList
  | .notFolder => "Not a directory".toList
  | .isFolder => "Is a directory".toList
  | .tooLong => "File name too long".toList
  | .hasNull => "Invalid argument".toList

/-- The words for a fault of a file, with the system's number. A null character is found before the
system is asked. -/
def message (fault : PathFault) : Text :=
  let numbered (n : Nat) : Text := fault.words ++ " (os error ".toList ++ Text.decimal n ++ [')']
  match fault with
  | .notFound => numbered 2
  | .notFolder => numbered 20
  | .isFolder => numbered 21
  | .tooLong => numbered 36
  | .hasNull => "file name contained an unexpected NUL byte".toList

end PathFault
end BenchScript
