import BenchScript.Wire.Error

set_option autoImplicit false

namespace BenchScript

inductive FormatError where
  | hex (error : Hex.Error)
  | payloadTooLong (length : Nat)
  | blankOperand (condition : Text)
  | namelessRoutine (line : Nat)
  | duplicateRoutine (name : Text) (line : Nat)
  | namelessVariable (assignment : Text)
deriving DecidableEq, Repr

def FormatError.message : FormatError → Text
  | .hex error => error.message
  | .payloadTooLong length => (LinkError.payloadTooLong length).message
  | .blankOperand condition => "blank operand in condition ".toList ++ Text.quoted condition
  | .namelessRoutine line =>
    "routine marker without a name at line ".toList ++ Text.decimal line
  | .duplicateRoutine name line =>
    "duplicate routine ".toList ++ Text.quoted name ++ " at line ".toList ++ Text.decimal line
  | .namelessVariable assignment =>
    "variable assignment without a name: ".toList ++ Text.quoted assignment

inductive ConfigError where
  | unreadable
  | zeroInlineLimit
  /-- Text sent as a binary frame could be too long for it. -/
  | inlineLimitTooLarge
  | noDevice
  | noHost
  | noFiles
deriving DecidableEq, Repr

/-- The largest number of hexadecimal digits, plus one, that fits one binary frame. -/
def maxInlineLimit : Nat := 2 * maxPayload + 1

def ConfigError.message : ConfigError → Text
  | .unreadable => "invalid engine config".toList
  | .zeroInlineLimit => "hex_inline_limit must be greater than zero".toList
  | .inlineLimitTooLarge =>
    "hex_inline_limit must be at most ".toList ++ Text.decimal maxInlineLimit
  | .noDevice => "no transport configured".toList
  | .noHost => "no info sink configured".toList
  | .noFiles => "no file store configured".toList

inductive ScriptError where
  | format (error : FormatError)
  /-- A marker line does not show the fingerprint of the lines above it. -/
  | integrity (line : Nat) (computed marker : Text)
  | undefinedVariable (name : Text)
  | transport (error : LinkError)
  | file (path cause : Text)
  | config (error : ConfigError)
  | noPendingInput
  /-- A run or a load was asked for while a prompt was waiting. -/
  | busy
deriving DecidableEq, Repr

namespace ScriptError

def message : ScriptError → Text
  | .format error => "format error: ".toList ++ error.message
  | .integrity line computed marker =>
    "fingerprint mismatch at line ".toList ++ Text.decimal line ++ ": computed ".toList ++ computed
      ++ ", marker ".toList ++ Text.quoted marker
  | .undefinedVariable name => "undefined variable $".toList ++ name
  | .transport error => "transport error: ".toList ++ error.message
  | .file path cause => "file error on ".toList ++ path ++ ": ".toList ++ cause
  | .config error => "configuration error: ".toList ++ error.message
  | .noPendingInput => "no prompt is waiting for input".toList
  | .busy => "engine is suspended waiting for input".toList

/-- A failed exchange as an error of the script: what cannot be encoded is the script's fault. -/
def ofLink : LinkError → ScriptError
  | .hex error => .format (.hex error)
  | .payloadTooLong length => .format (.payloadTooLong length)
  | .io cause => .transport (.io cause)
  | .timeout => .transport .timeout
  | .closed => .transport .closed

end ScriptError
end BenchScript
