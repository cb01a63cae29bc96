import BenchScript.Engine.Ending
import BenchScript.Engine.Perform
import BenchScript.Script.Routine

set_option autoImplicit false

/-!
# Evaluating a script by recursion

A script can be carried out without a stack of routines: a jump is a recursive call, a prompt asks
for its answer on the spot, and a routine in which the run ends hands the ending on to its caller.
Every routine has a gate of its own, and what a call leaves of the jumps is never more than it was
given, so that the recursion is on the jumps left and, among equals, on the commands to come.
-/
namespace BenchScript

structure Evaluator (α : Type) where
  settings : Settings
  routines : Routines
  source : AnswerSource α

namespace Evaluator

structure Carried (ε α : Type) where
  workspace : Workspace ε
  answers : α
deriving DecidableEq, Repr

/-- How carrying out commands came out when so many jumps were left. -/
structure Outcome (ε α : Type) (jumps : Nat) where
  ending? : Option Ending
  after : Carried ε α
  left : Nat
  left_le : left ≤ jumps

structure Conclusion (ε α : Type) where
  ending : Ending
  after : Carried ε α
  left : Nat
deriving DecidableEq, Repr

variable {ε α : Type} [Environment ε]

def Carried.observe (command : Command) (c : Carried ε α) : Carried ε α :=
  { c with workspace := c.workspace.observe command }

def Carried.answer (input : Text) (c : Carried ε α) : Carried ε α :=
  { c with workspace := { c.workspace with lastRow := input, lastData := [] } }

def Outcome.weaken {few many : Nat} (h : few ≤ many) (o : Outcome ε α few) : Outcome ε α many :=
  { o with left_le := Nat.le_trans o.left_le h }

def Outcome.handOn {jumps : Nat} (o : Outcome ε α jumps)
    (rest : Nat → Carried ε α → Conclusion ε α) : Conclusion ε α :=
  match o.ending? with
  | some ending => ⟨ending, o.after, o.left⟩
  | none => rest o.left o.after

def Conclusion.report (c : Conclusion ε α) : Conclusion ε α :=
  match c.ending.report? with
  | none => c
  | some note => { c with after := { c.after with workspace := c.after.workspace.notify note } }

/-- Carries out commands in order behind a gate that is open or not. Behind a closed gate the host
hears of a command and nothing else happens, unless it is a condition. The host hears of a jump when
its routine has come to its end, and not at all when the run ended there. -/
def carryOut (v : Evaluator α) (isOpen : Bool) (commands : List Command) (jumps : Nat)
    (c : Carried ε α) : Outcome ε α jumps :=
  if c.workspace.cancelled then ⟨some .cancelled, c, jumps, Nat.le_refl _⟩
  else
    match commands with
    | [] => ⟨none, c, jumps, Nat.le_refl _⟩
    | command :: rest =>
      if isOpen || command.action == .condition then
        let (verdict, workspace) := c.workspace.perform v.settings command
        match verdict with
        | .next => v.carryOut isOpen rest jumps (Carried.observe command { c with workspace })
        | .gate isOpen =>
          v.carryOut isOpen rest jumps (Carried.observe command { c with workspace })
        | .stop ending =>
          ⟨some ending, Carried.observe command { c with workspace }, jumps, Nat.le_refl _⟩
        | .suspend prompt =>
          match v.source workspace.cancelled prompt c.answers with
          | (none, answers) => ⟨some .cancelled, ⟨workspace, answers⟩, jumps, Nat.le_refl _⟩
          | (some input, answers) =>
            v.carryOut isOpen rest jumps
              (Carried.observe command (Carried.answer input ⟨workspace, answers⟩))
        | .enter name =>
          match jumps with
          | 0 =>
            ⟨some .callDepthExceeded, Carried.observe command { c with workspace }, 0,
              Nat.le_refl _⟩
          | jumps + 1 =>
            match v.routines.get? name with
            | none =>
              ⟨some (.routineNotFound name), Carried.observe command { c with workspace }, jumps,
                Nat.le_succ _⟩
            | some body =>
              match v.carryOut true body jumps { c with workspace } with
              | ⟨some ending, after, left, le⟩ =>
                ⟨some ending, after, left, Nat.le_succ_of_le le⟩
              | ⟨none, after, left, le⟩ =>
                Outcome.weaken (Nat.le_succ_of_le le)
                  (v.carryOut isOpen rest left (after.observe command))
      else v.carryOut isOpen rest jumps (c.observe command)
termination_by (jumps, commands.length)

def run (v : Evaluator α) (routine : Text) (workspace : Workspace ε) (answers : α) :
    Conclusion ε α :=
  let start : Carried ε α := ⟨{ workspace with cancelled := false }, answers⟩
  let conclusion : Conclusion ε α :=
    match v.routines.get? routine with
    | none => ⟨.routineNotFound routine, start, v.settings.callDepthBudget⟩
    | some commands =>
      (v.carryOut true commands v.settings.callDepthBudget start).handOn fun left after =>
        ⟨.completed, after, left⟩
  conclusion.report

end Evaluator
end BenchScript
