import BenchScript.Files.Path
import BenchScript.Script.Error

set_option autoImplicit false

namespace BenchScript

inductive LinkFault where
  | invalidAddress
  | invalidPort
  | noPort (fault : PathFault)
  | noDevice
  | unsupported
deriving DecidableEq, Repr

def LinkFault.message : LinkFault → Text
  | .invalidAddress => "invalid socket address".toList
  | .invalidPort => "invalid port value".toList
  | .noPort fault => fault.words
  | .noDevice => "Not a typewriter".toList
  | .unsupported => "live links are not supported".toList

inductive LaunchError where
  | script (error : ScriptError)
  | load (path : Text) (error : ScriptError)
  | reopen (path cause : Text)
  | connect (address : Text) (fault : LinkFault)
  | openPort (path : Text) (fault : LinkFault)
deriving DecidableEq, Repr

namespace LaunchError

def scriptChain (error : ScriptError) : List Text :=
  error.message :: match error with
    | .file _ cause => [cause]
    | _ => []

def chain : LaunchError → List Text
  | .script error => scriptChain error
  | .load path error => ("failed to load ".toList ++ path) :: scriptChain error
  | .reopen path cause => ["failed to open ".toList ++ path, cause]
  | .connect address fault => ["failed to connect to ".toList ++ address, fault.message]
  | .openPort path fault => ["failed to open serial port ".toList ++ path, fault.message]

end LaunchError
end BenchScript
