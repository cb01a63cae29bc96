import BenchScript.Launch.Request

set_option autoImplicit false

namespace BenchScript.Program

def faultText : IO.Error → Text
  | .noFileOrDirectory _ _ _ => PathFault.notFound.message
  | .inappropriateType _ _ _ => PathFault.isFolder.message
  | e => (toString e).toList

def readText (path : Text) : IO (Except Text Text) := do
  try
    let bytes ← IO.FS.readBinFile (String.ofList path)
    return Directory.textOf bytes.toList
  catch e => return .error (faultText e)

def appendText (path text : Text) : IO (Except Text Unit) := do
  try
    let handle ← IO.FS.Handle.mk (String.ofList path) .append
    handle.putStr (String.ofList text)
    return .ok ()
  catch e => return .error (faultText e)

def portFault (path : Text) : IO LinkFault := do
  match ← readText path with
  | .ok _ => return .noDevice
  | .error cause =>
    return if cause = PathFault.notFound.message then .noPort .notFound else .unsupported

def disk : FileAccess IO := { readText, appendText, portFault }

def complain (error : LaunchError) : IO UInt32 := do
  let lines := error.chain.map String.ofList
  IO.eprintln ("Error: " ++ lines.headD "")
  unless lines.tail.isEmpty do
    IO.eprintln "\nCaused by:"
    for cause in lines.tail do
      IO.eprintln ("    " ++ cause)
  return 1

def usage : String :=
  "usage: run SCRIPT (--serial PATH | --tcp ADDR) [--baud N] [-r ROUTINE] [-c FILE]\n"
    ++ "       sign SCRIPT [--append]"

def perform (words : List Text) : IO UInt32 := do
  match CommandLine.read words with
  | .error .help | .error .version =>
    IO.println usage
    return 0
  | .error _ =>
    IO.eprintln usage
    return 2
  | .ok order =>
    match ← fulfilOn disk order.request with
    | .ok shown =>
      IO.print (String.ofList shown)
      return 0
    | .error error => complain error

end BenchScript.Program

def main (args : List String) : IO UInt32 := BenchScript.Program.perform (args.map String.toList)
