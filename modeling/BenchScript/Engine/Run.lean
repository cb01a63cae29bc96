import BenchScript.Engine.Weight

set_option autoImplicit false

/-!
# Calls on an engine

A host assembles an engine, loads a script and runs its routines. A run goes on until it ends or a
prompt waits for an answer; until the answer is given, no other run and no load is accepted. All
calls return what happened together with the engine afterwards.
-/
namespace BenchScript

namespace Engine

variable {ε : Type} [Environment ε]

def carryOn (e : Engine ε) : Standing × Engine ε :=
  match _h : e.step with
  | .going e' => e'.carryOn
  | .halted standing e' => (standing, e')
termination_by e.weight
decreasing_by exact weight_step_lt _h

theorem carryOn_of_going {e e' : Engine ε} (h : e.step = .going e') : e.carryOn = e'.carryOn := by
  rw [carryOn]
  split
  · next h' => rw [h] at h'; cases h'; rfl
  · next h' => rw [h] at h'; cases h'

theorem carryOn_of_halted {e e' : Engine ε} {standing : Standing}
    (h : e.step = .halted standing e') : e.carryOn = (standing, e') := by
  rw [carryOn]
  split
  · next h' => rw [h] at h'; cases h'
  · next h' => rw [h] at h'; cases h'; rfl

theorem settles_carryOn (e : Engine ε) : Settles e.weight e.carryOn.1 e.carryOn.2 := by
  fun_induction carryOn e with
  | case1 e e' h ih =>
    have hlt := weight_step_lt h
    exact ⟨by have := ih.1; omega, fun prompt hp => by have := ih.2 prompt hp; omega⟩
  | case2 e standing e' h =>
    exact settles_step h

def begun (e : Engine ε) : Engine ε :=
  { e with
    workspace := { e.workspace with cancelled := false }
    quit := false
    budget := e.settings.callDepthBudget
    stack := [] }

def run (routine : Text) (e : Engine ε) : Except ScriptError Standing × Engine ε :=
  if e.isWaiting then (.error .busy, e)
  else
    let e := e.begun
    let (standing, e) :=
      if e.routines.contains routine then carryOn { e with stack := [{ routine }] }
      else e.finish (.routineNotFound routine)
    (.ok standing, e)

/-- Gives an answer to a prompt: it becomes the last row, and the host hears of the prompt. -/
def deliver (command : Command) (input : Text) (e : Engine ε) : Engine ε :=
  let workspace := { e.workspace with lastRow := input, lastData := [] }
  Engine.observe command { e with pending := none, workspace }

def resume (input : Text) (e : Engine ε) : Except ScriptError Standing × Engine ε :=
  match e.pending with
  | none => (.error .noPendingInput, e)
  | some command =>
    let (standing, e) := (e.deliver command input).carryOn
    (.ok standing, e)

def abandon (e : Engine ε) : Engine ε :=
  (Engine.finish .cancelled { e with pending := none }).2

/-- Answers prompts from a source until the run ends; a prompt without an answer cancels it. -/
def answerPrompts {α : Type} (source : AnswerSource α) (rest : α) (standing : Standing)
    (e : Engine ε) : Except ScriptError Ending × Engine ε × α :=
  match standing with
  | .ended ending => (.ok ending, e, rest)
  | .waiting prompt =>
    match source e.workspace.cancelled prompt rest with
    | (none, rest) => (.ok .cancelled, e.abandon, rest)
    | (some input, rest) =>
      match e.pending with
      | none => (.error .noPendingInput, e, rest)
      | some command =>
        match _hd : (e.deliver command input).carryOn with
        | (.ended ending, e') => (.ok ending, e', rest)
        | (.waiting prompt', e') => answerPrompts source rest (.waiting prompt') e'
termination_by e.weight
decreasing_by
  have h := (settles_carryOn (e.deliver command input)).2 prompt' (by rw [_hd])
  rw [_hd] at h
  exact h

def runAnswered {α : Type} (routine : Text) (source : AnswerSource α) (rest : α) (e : Engine ε) :
    Except ScriptError Ending × Engine ε × α :=
  match e.run routine with
  | (.error error, e) => (.error error, e, rest)
  | (.ok standing, e) => e.answerPrompts source rest standing

def forget (e : Engine ε) : Engine ε :=
  { e with
    routines := Table.empty
    workspace := { e.workspace with bindings := Table.empty, lastRow := [], lastData := [] }
    quit := false
    stack := []
    pending := none }

/-- Takes the routines of a new script, or tells the user why there are none. -/
def adopt (loaded : Except ScriptError Routines) (e : Engine ε) :
    Except ScriptError Unit × Engine ε :=
  match loaded with
  | .ok routines => (.ok (), { e with routines })
  | .error error =>
    (.error error,
      e.mapWorkspace (·.notify ⟨.error, "load failed: ".toList ++ error.message, false⟩))

def load (lines : List Text) (e : Engine ε) : Except ScriptError Unit × Engine ε :=
  if e.isWaiting then (.error .busy, e) else e.forget.adopt (Routines.ofLines lines)

def loadFrom (path : Text) (e : Engine ε) : Except ScriptError Unit × Engine ε :=
  if e.isWaiting then (.error .busy, e)
  else
    let e := e.forget
    match FileStore.readLines path e.workspace.around with
    | (result, around) =>
      let e := e.mapWorkspace fun w => { w with around }
      match result with
      | .ok lines => e.adopt (Routines.ofLines lines)
      | .error cause => e.adopt (.error (.file path cause))

def cancel (e : Engine ε) : Engine ε := e.mapWorkspace fun w => { w with cancelled := true }

def sendDigits (text : Text) (e : Engine ε) : Except ScriptError Unit × Engine ε :=
  let (result, workspace) := e.workspace.sendDigits e.settings.hexInlineLimit text
  (result, { e with workspace })

def sendChecksum (text : Text) (e : Engine ε) : Except ScriptError Unit × Engine ε :=
  let (result, workspace) := e.workspace.sendChecksum e.settings.hexInlineLimit text
  (result, { e with workspace })

def shown (line : Text) (e : Engine ε) : Text := e.workspace.shown line

def close (e : Engine ε) : Engine ε :=
  e.mapWorkspace fun w => { w with around := Device.close w.around }

end Engine

structure Parts (δ φ η : Type) where
  device : Option δ
  host : Option η
  files : Option φ

def Engine.assemble {δ φ η : Type} (settings : Settings) (parts : Parts δ φ η) :
    Except ScriptError (Engine (Surroundings δ φ η)) :=
  match settings.check, parts.device, parts.host, parts.files with
  | .error e, _, _, _ => .error (.config e)
  | .ok (), none, _, _ => .error (.config .noDevice)
  | .ok (), some _, none, _ => .error (.config .noHost)
  | .ok (), some _, some _, none => .error (.config .noFiles)
  | .ok (), some device, some host, some files =>
    .ok (Engine.idle settings { device, files, host })

end BenchScript
