import BenchScript.Engine.Perform
import BenchScript.Script.Routine

set_option autoImplicit false

namespace BenchScript

structure Invocation where
  routine : Text
  position : Nat := 0
  gateOpen : Bool := true
  /-- The jump that entered the routine; the host hears of it on return. -/
  caller : Option Command := none
deriving DecidableEq, Repr

structure Engine (ε : Type) where
  settings : Settings
  workspace : Workspace ε
  routines : Routines := Table.empty
  quit : Bool := false
  /-- Jumps left to the run; less than zero once one too many was tried. -/
  budget : Int
  stack : List Invocation := []
  pending : Option Command := none
deriving DecidableEq, Repr

namespace Engine

variable {ε : Type}

def idle (settings : Settings) (around : ε) : Engine ε :=
  { settings, workspace := { around }, budget := settings.callDepthBudget }

def jumpsLeft (e : Engine ε) : Nat := e.budget.toNat

def isWaiting (e : Engine ε) : Bool := e.pending.isSome

def mapWorkspace (e : Engine ε) (change : Workspace ε → Workspace ε) : Engine ε :=
  { e with workspace := change e.workspace }

@[simp] theorem settings_mapWorkspace (e : Engine ε) (change : Workspace ε → Workspace ε) :
    (e.mapWorkspace change).settings = e.settings := rfl

@[simp] theorem routines_mapWorkspace (e : Engine ε) (change : Workspace ε → Workspace ε) :
    (e.mapWorkspace change).routines = e.routines := rfl

@[simp] theorem quit_mapWorkspace (e : Engine ε) (change : Workspace ε → Workspace ε) :
    (e.mapWorkspace change).quit = e.quit := rfl

@[simp] theorem budget_mapWorkspace (e : Engine ε) (change : Workspace ε → Workspace ε) :
    (e.mapWorkspace change).budget = e.budget := rfl

@[simp] theorem stack_mapWorkspace (e : Engine ε) (change : Workspace ε → Workspace ε) :
    (e.mapWorkspace change).stack = e.stack := rfl

@[simp] theorem pending_mapWorkspace (e : Engine ε) (change : Workspace ε → Workspace ε) :
    (e.mapWorkspace change).pending = e.pending := rfl

@[simp] theorem workspace_mapWorkspace (e : Engine ε) (change : Workspace ε → Workspace ε) :
    (e.mapWorkspace change).workspace = change e.workspace := rfl

def setGate (isOpen : Bool) (e : Engine ε) : Engine ε :=
  match e.stack with
  | [] => e
  | top :: below => { e with stack := { top with gateOpen := isOpen } :: below }

variable [Environment ε]

def observe (command : Command) (e : Engine ε) : Engine ε := e.mapWorkspace (·.observe command)

/-- Ends the run: every routine is left, and the user is told if the script was not to end so. -/
def finish (ending : Ending) (e : Engine ε) : Standing × Engine ε :=
  let e := { e with stack := [], quit := e.quit || ending != .completed }
  match ending.report? with
  | none => (.ended ending, e)
  | some note => (.ended ending, e.mapWorkspace (·.notify note))

inductive Progress (ε : Type) where
  | going (e : Engine ε)
  | halted (standing : Standing) (e : Engine ε)

def halt (ending : Ending) (e : Engine ε) : Progress ε :=
  .halted (e.finish ending).1 (e.finish ending).2

/-- Takes a jump: one less is left, even if there is no such routine. The host hears of the jump
when the routine returns, or now if it cannot be entered. -/
def enter (command : Command) (name : Text) (e : Engine ε) : Progress ε :=
  let e := { e with budget := e.budget - 1 }
  if e.budget < 0 then (e.observe command).halt .callDepthExceeded
  else if !e.routines.contains name then (e.observe command).halt (.routineNotFound name)
  else .going { e with stack := { routine := name, caller := some command } :: e.stack }

def follow (command : Command) (verdict : Verdict) (e : Engine ε) : Progress ε :=
  match verdict with
  | .next => .going (e.observe command)
  | .gate isOpen => .going ((e.setGate isOpen).observe command)
  | .enter name => e.enter command name
  | .suspend prompt => .halted (.waiting prompt) { e with pending := some command }
  | .stop ending => (e.observe command).halt ending

def leave (top : Invocation) (below : List Invocation) (e : Engine ε) : Engine ε :=
  let e := { e with stack := below }
  match top.caller with
  | some caller => e.observe caller
  | none => e

def admits (top : Invocation) (command : Command) : Bool :=
  top.gateOpen || command.action == .condition

def advance (top : Invocation) (below : List Invocation) (command : Command) (e : Engine ε) :
    Progress ε :=
  let e := { e with stack := { top with position := top.position + 1 } :: below }
  -- Behind a closed gate the command is passed over, and the host hears of it all the same.
  if admits top command then
    let (verdict, workspace) := e.workspace.perform e.settings command
    { e with workspace }.follow command verdict
  else e.follow command .next

def step (e : Engine ε) : Progress ε :=
  if e.workspace.cancelled then e.halt .cancelled
  else if e.quit then e.halt .quit
  else
    match e.stack with
    | [] => e.halt .completed
    | top :: below =>
      match e.routines.command? top.routine top.position with
      | none => .going (e.leave top below)
      | some command => e.advance top below command

end Engine
end BenchScript
