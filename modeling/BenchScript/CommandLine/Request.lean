import BenchScript.CommandLine.Grammar
import BenchScript.Launch.Endpoint

set_option autoImplicit false

namespace BenchScript.CommandLine

inductive Verb where
  | run
  | sign
deriving DecidableEq, Repr

def Verb.ofWord? (word : Text) : Option Verb :=
  if word = "run".toList then some .run
  else if word = "sign".toList then some .sign
  else none

def helpWord : Text := "help".toList

def globalParameters : List Parameter := [.verbose, .logLevel, .help]

def Verb.parameters : Verb → List Parameter
  | .run => [.routine, .config, .serial, .tcp, .baud] ++ globalParameters
  | .sign => .append :: globalParameters

inductive Request where
  | run (script routine : Text) (config : Option Text) (link : LinkChoice) (baud : Nat)
  | sign (script : Text) (append : Bool)
deriving DecidableEq, Repr

structure Order where
  request : Request
  verbose : Nat
  logLevel : Option Text
deriving DecidableEq, Repr

def defaultBaud : Nat := 115200

/-- The request that a command and what was given with it make up. That two links exclude each other
is reported before anything that is missing. -/
def requestOf (verb : Verb) (found : Found) : Except UsageError Request :=
  let values := found.values
  match verb with
  | .sign =>
    match values.get? .script with
    | none => .error .missingArgument
    | some script => .ok (.sign script (values.contains .append))
  | .run =>
    match values.get? .serial, values.get? .tcp, values.get? .script with
    | some _, some _, _ => .error .conflict
    | none, none, _ | _, _, none => .error .missingArgument
    | some path, none, some script => .ok (build script (.serial path))
    | none, some address, some script => .ok (build script (.tcp address))
where
  build (script : Text) (link : LinkChoice) : Request :=
    .run script ((found.values.get? .routine).getD []) (found.values.get? .config) link
      (((found.values.get? .baud).bind number32?).getD defaultBaud)

/-- What asking for help on some words comes to: the first names a command, and is the only one. -/
def helpOn : List Text → UsageError
  | [] => .help
  | [word] => if (Verb.ofWord? word).isSome || word == helpWord then .help else .unknownCommand
  | _ => .unknownCommand

def readFrom : Scan → List Text → Except UsageError Order
  | s, [] =>
    match s.settle with
    | .error e => .error e
    | .ok s =>
      .error (if s.found.values.entries.isEmpty && s.found.count == 0 then .nothingGiven
        else .missingCommand)
  | s, word :: rest =>
    if !s.isTrailing && !s.isAwaiting && word == helpWord then .error (helpOn rest)
    else
      match (if s.isTrailing || s.isAwaiting then none else Verb.ofWord? word) with
      | some verb =>
        match Scan.readAll verb.parameters {} rest with
        | .error e => .error e
        | .ok inner =>
          match requestOf verb inner.found, s.settle with
          | .error e, _ => .error e
          | .ok _, .error e => .error e
          | .ok request, .ok outer =>
            .ok {
              request
              verbose := if inner.found.count = 0 then outer.found.count else inner.found.count
              logLevel := (inner.found.values.get? .logLevel).orElse
                fun _ => outer.found.values.get? .logLevel }
      | none =>
        match s.read (.version :: globalParameters) word with
        | .refused e => .error e
        | .taken s => readFrom s rest
        | .plain =>
          if s.isTrailing && ((Verb.ofWord? word).isSome || word == helpWord) then
            .error .unknownArgument
          else .error .unknownCommand

def read (words : List Text) : Except UsageError Order := readFrom {} words

end BenchScript.CommandLine
