import BenchScript.Table
import BenchScript.Text.Basic

set_option autoImplicit false

/-!
# The grammar of the command line

Words are options, values of options, or plain words. An option takes its value from the same word
or from the next; short options may share a word. A value is looked at only when the next option or
plain word shows that it is complete, which decides which of two faults is reported.
-/
namespace BenchScript.CommandLine

inductive UsageError where
  | nothingGiven
  | help
  | version
  | missingCommand
  | unknownCommand
  | missingArgument
  /-- Two things exclude each other, or one is given twice. -/
  | conflict
  | unknownArgument
  | invalidValue
  | valueForFlag
  | badNumber
deriving DecidableEq, Repr

inductive Parameter where
  | verbose
  | logLevel
  | help
  | version
  | script
  | routine
  | config
  | serial
  | tcp
  | baud
  | append
deriving DecidableEq, Repr

inductive Shape where
  | text
  | path
  | number
  | flag
  | count
  | stop (error : UsageError)
deriving DecidableEq, Repr

namespace Parameter

def shape : Parameter → Shape
  | .verbose => .count
  | .help => .stop .help
  | .version => .stop .version
  | .append => .flag
  | .script | .config => .path
  | .baud => .number
  | .logLevel | .routine | .serial | .tcp => .text

def takesValue (p : Parameter) : Bool :=
  match p.shape with
  | .text | .path | .number => true
  | .flag | .count | .stop _ => false

def long : Parameter → Option Text
  | .verbose => some "verbose".toList
  | .logLevel => some "log-level".toList
  | .help => some "help".toList
  | .version => some "version".toList
  | .script => none
  | .routine => some "routine".toList
  | .config => some "config".toList
  | .serial => some "serial".toList
  | .tcp => some "tcp".toList
  | .baud => some "baud".toList
  | .append => some "append".toList

def short : Parameter → Option Char
  | .verbose => some 'v'
  | .help => some 'h'
  | .version => some 'V'
  | .routine => some 'r'
  | .config => some 'c'
  | .logLevel | .script | .serial | .tcp | .baud | .append => none

end Parameter

def maxCount : Nat := 255

/-- A number of 32 bits: decimal digits, with an optional sign; only zero may have a minus. -/
def number32? (text : Text) : Option Nat :=
  let (digits, isNegative) := match text with
    | '-' :: digits => (digits, true)
    | '+' :: digits => (digits, false)
    | digits => (digits, false)
  if digits = [] ∨ digits.any (fun c => !c.isDigit) then none
  else
    let n := digits.foldl (fun n c => 10 * n + (c.toNat - '0'.toNat)) 0
    if n < UInt32.size ∧ (isNegative → n = 0) then some n else none

structure Found where
  values : Table Parameter Text := Table.empty
  count : Nat := 0
deriving DecidableEq, Repr

namespace Found

/-- Takes over a value: it must not be given twice, and it must be of the right shape. -/
def give (p : Parameter) (value : Text) (found : Found) : Except UsageError Found :=
  if found.values.contains p then .error .conflict
  else
    match p.shape with
    | .path =>
      if value = [] then .error .invalidValue
      else .ok { found with values := found.values.insert p value }
    | .number =>
      match number32? value with
      | none => .error .badNumber
      | some _ => .ok { found with values := found.values.insert p value }
    | _ => .ok { found with values := found.values.insert p value }

end Found

structure Scan where
  found : Found := {}
  /-- The parameter given last and its value, if that has come. -/
  pending : Option (Parameter × Option Text) := none
  isTrailing : Bool := false
  hasWord : Bool := false
deriving DecidableEq, Repr

namespace Scan

def settle (s : Scan) : Except UsageError Scan :=
  match s.pending with
  | none => .ok s
  | some (_, none) => .error .invalidValue
  | some (p, some value) =>
    match s.found.give p value with
    | .ok found => .ok { s with found, pending := none }
    | .error e => .error e

def touch (p : Parameter) (s : Scan) : Except UsageError Scan :=
  match s.settle with
  | .error e => .error e
  | .ok s =>
    match p.shape with
    | .stop e => .error e
    | .count => .ok { s with found := { s.found with count := min maxCount (s.found.count + 1) } }
    | _ =>
      match s.found.give p [] with
      | .ok found => .ok { s with found }
      | .error e => .error e

def attach (p : Parameter) (value : Text) (s : Scan) : Except UsageError Scan :=
  match s.settle with
  | .error e => .error e
  | .ok s =>
    match s.found.give p value with
    | .ok found => .ok { s with found }
    | .error e => .error e

def await (p : Parameter) (s : Scan) : Except UsageError Scan :=
  match s.settle with
  | .error e => .error e
  | .ok s => .ok { s with pending := some (p, none) }

def takeLong (accepted : List Parameter) (word : Text) (s : Scan) : Except UsageError Scan :=
  let (name, value) : Text × Option Text :=
    match Text.splitOnce ['='] word with
    | some (name, value) => (name, some value)
    | none => (word, none)
  match accepted.find? fun p => p.long == some name with
  | none => .error .unknownArgument
  | some p =>
    match p.takesValue, value with
    | true, some value => s.attach p value
    | true, none => s.await p
    | false, some _ => .error .valueForFlag
    | false, none => s.touch p

/-- Takes the short options of one word. The rest of the word is the value of the first option that
takes one, without one equals sign in front. -/
def takeShorts (accepted : List Parameter) (s : Scan) : Text → Except UsageError Scan
  | [] => .ok s
  | c :: rest =>
    match accepted.find? fun p => p.short == some c with
    | none => .error .unknownArgument
    | some p =>
      if p.takesValue then
        if rest = [] then s.await p else s.attach p (Text.dropLeading '=' rest)
      else
        match s.touch p with
        | .ok s => takeShorts accepted s rest
        | .error e => .error e

def isAwaiting (s : Scan) : Bool :=
  match s.pending with
  | some (_, none) => true
  | _ => false

inductive Reading where
  | taken (s : Scan)
  | plain
  | refused (error : UsageError)

def Reading.ofScan : Except UsageError Scan → Reading
  | .ok s => .taken s
  | .error e => .refused e

def read (accepted : List Parameter) (word : Text) (s : Scan) : Reading :=
  if s.isTrailing then .plain
  else
    match word with
    | ['-', '-'] => .taken { s with isTrailing := true }
    | '-' :: '-' :: long => .ofScan (s.takeLong accepted long)
    | '-' :: c :: rest => .ofScan (s.takeShorts accepted (c :: rest))
    | _ =>
      match s.pending with
      | some (p, none) => .taken { s with pending := some (p, some word) }
      | _ => .plain

def readAll (accepted : List Parameter) : Scan → List Text → Except UsageError Scan
  | s, [] => s.settle
  | s, word :: rest =>
    match s.read accepted word with
    | .refused e => .error e
    | .taken s => readAll accepted s rest
    | .plain =>
      if s.hasWord then .error .unknownArgument
      else
        match s.settle with
        | .error e => .error e
        | .ok s =>
          readAll accepted { s with pending := some (.script, some word), hasWord := true } rest

end Scan
end BenchScript.CommandLine
