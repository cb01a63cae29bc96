import BenchScript.Engine.Run

set_option autoImplicit false

namespace BenchScript

inductive Call where
  | load (lines : List Text)
  | loadFrom (path : Text)
  | run (routine : Text)
  | resume (input : Text)
  /-- To run a routine with answers prepared for its prompts. -/
  | runAnswered (routine : Text) (answers : List (Option Text))
  | cancel
  | sendDigits (text : Text)
  | sendChecksum (text : Text)
  | close
deriving DecidableEq, Repr

inductive Reply where
  | done
  | standing (standing : Standing)
  | ended (ending : Ending) (prompts : List Text)
  | refused (error : ScriptError)
deriving DecidableEq, Repr

def Reply.ofUnit : Except ScriptError Unit → Reply
  | .ok () => .done
  | .error e => .refused e

def Reply.ofStanding : Except ScriptError Standing → Reply
  | .ok result => .standing result
  | .error e => .refused e

structure Prepared where
  answers : List (Option Text)
  prompts : List Text := []
deriving DecidableEq, Repr

def Prepared.source : AnswerSource Prepared := fun _ prompt prepared =>
  (prepared.answers.headD none, ⟨prepared.answers.tail, prepared.prompts ++ [prompt]⟩)

namespace Engine

variable {ε : Type} [Environment ε]

def call (e : Engine ε) : Call → Reply × Engine ε
  | .load lines => (Reply.ofUnit (e.load lines).1, (e.load lines).2)
  | .loadFrom path => (Reply.ofUnit (e.loadFrom path).1, (e.loadFrom path).2)
  | .run routine => (Reply.ofStanding (e.run routine).1, (e.run routine).2)
  | .resume input => (Reply.ofStanding (e.resume input).1, (e.resume input).2)
  | .runAnswered routine answers =>
    match e.runAnswered routine Prepared.source ⟨answers, []⟩ with
    | (.ok ending, e, prepared) => (.ended ending prepared.prompts, e)
    | (.error error, e, _) => (.refused error, e)
  | .cancel => (.done, e.cancel)
  | .sendDigits text => (Reply.ofUnit (e.sendDigits text).1, (e.sendDigits text).2)
  | .sendChecksum text => (Reply.ofUnit (e.sendChecksum text).1, (e.sendChecksum text).2)
  | .close => (.done, e.close)

def callAll (e : Engine ε) : List Call → List Reply × Engine ε
  | [] => ([], e)
  | call :: rest =>
    let (reply, e) := e.call call
    let (replies, e) := e.callAll rest
    (reply :: replies, e)

theorem callAll_append (e : Engine ε) (first second : List Call) :
    e.callAll (first ++ second)
      = ((e.callAll first).1 ++ ((e.callAll first).2.callAll second).1,
        ((e.callAll first).2.callAll second).2) := by
  induction first generalizing e with
  | nil => rfl
  | cons call rest ih =>
    have h := ih (e.call call).2
    simp only [List.cons_append, callAll, h]

/-- An engine that calls lead to from an idle one with valid settings. -/
def IsReachable (e : Engine ε) : Prop :=
  ∃ (settings : Settings) (around : ε) (calls : List Call),
    settings.check = .ok () ∧ e = ((idle settings around).callAll calls).2

theorem isReachable_idle (settings : Settings) (around : ε) (h : settings.check = .ok ()) :
    (idle settings around).IsReachable :=
  ⟨settings, around, [], h, rfl⟩

theorem IsReachable.call {e : Engine ε} (h : e.IsReachable) (call : Call) :
    (e.call call).2.IsReachable := by
  obtain ⟨settings, around, calls, valid, eq⟩ := h
  refine ⟨settings, around, calls ++ [call], valid, ?_⟩
  rw [callAll_append, ← eq]
  rfl

/-- A property that idle engines have and that every call keeps is one of all engines that can be
reached. -/
theorem IsReachable.induction {motive : Engine ε → Prop}
    (idle : ∀ settings around, settings.check = .ok () → motive (Engine.idle settings around))
    (call : ∀ e call, motive e → motive (e.call call).2) {e : Engine ε} (h : e.IsReachable) :
    motive e := by
  obtain ⟨settings, around, calls, valid, rfl⟩ := h
  have kept : ∀ (calls : List Call) (e : Engine ε), motive e → motive (e.callAll calls).2 := by
    intro calls
    induction calls with
    | nil => exact fun _ h => h
    | cons first rest ih => exact fun e h => ih _ (call e first h)
  exact kept calls _ (idle settings around valid)

end Engine
end BenchScript
