import BenchScript.Engine.Basic

set_option autoImplicit false

namespace BenchScript

namespace Routines

def lengthOf (table : Routines) (name : Text) : Nat := ((table.get? name).getD []).length

def longest (table : Routines) : Nat :=
  table.entries.foldr (fun entry most => max entry.2.length most) 0

theorem length_le_longest {entries : List (Text × List Command)} {entry : Text × List Command}
    (h : entry ∈ entries) :
    entry.2.length ≤ entries.foldr (fun entry most => max entry.2.length most) 0 := by
  induction entries with
  | nil => simp at h
  | cons first rest ih =>
    simp only [List.foldr_cons]
    rcases List.mem_cons.1 h with rfl | h
    · exact Nat.le_max_left _ _
    · exact Nat.le_trans (ih h) (Nat.le_max_right _ _)

theorem lengthOf_le_longest (table : Routines) (name : Text) :
    table.lengthOf name ≤ table.longest := by
  unfold lengthOf Table.get? longest
  cases h : table.entries.find? fun entry => entry.1 = name with
  | none => simp
  | some entry => simpa using length_le_longest (List.mem_of_find?_eq_some h)

theorem lt_lengthOf {table : Routines} {name : Text} {position : Nat} {command : Command}
    (h : table.command? name position = some command) : position < table.lengthOf name := by
  unfold command? at h
  unfold lengthOf
  cases ht : table.get? name with
  | none => simp [ht] at h
  | some commands =>
    simp only [ht, Option.bind_some] at h
    simpa using (List.getElem?_eq_some_iff.1 h).1

end Routines

namespace Engine

variable {ε : Type}

def stepsLeft (table : Routines) (top : Invocation) : Nat :=
  table.lengthOf top.routine - top.position + 1

/-- Steps that a stack still takes if no routine is entered. -/
def stackWeight (table : Routines) : List Invocation → Nat
  | [] => 0
  | top :: below => stepsLeft table top + stackWeight table below

def weight (e : Engine ε) : Nat :=
  e.budget.toNat * (e.routines.longest + 2) + stackWeight e.routines e.stack

@[simp] theorem weight_mapWorkspace (e : Engine ε) (change : Workspace ε → Workspace ε) :
    (e.mapWorkspace change).weight = e.weight := rfl

@[simp] theorem weight_setGate (e : Engine ε) (isOpen : Bool) :
    (e.setGate isOpen).weight = e.weight := by
  unfold setGate
  split
  · rfl
  · next top below h => simp [weight, stackWeight, h, stepsLeft]

/-- Leaving a command behind makes an engine lighter, whatever its workspace becomes. -/
theorem weight_behind_lt (e : Engine ε) (workspace : Workspace ε) {top : Invocation}
    {below : List Invocation} {command : Command} (hs : e.stack = top :: below)
    (hc : e.routines.command? top.routine top.position = some command) :
    Engine.weight { e with
      workspace, stack := { top with position := top.position + 1 } :: below } < e.weight := by
  have hlt := Routines.lt_lengthOf hc
  simp only [weight, stackWeight, hs, stepsLeft]
  omega

variable [Environment ε]

@[simp] theorem weight_observe (e : Engine ε) (command : Command) :
    (e.observe command).weight = e.weight := rfl

theorem weight_finish_le (e : Engine ε) (ending : Ending) :
    (e.finish ending).2.weight ≤ e.weight := by
  have : (e.finish ending).2.weight = e.budget.toNat * (e.routines.longest + 2) := by
    unfold finish
    cases ending.report? <;> rfl
  rw [this]
  exact Nat.le_add_right _ _

theorem weight_leave_lt (e : Engine ε) (top : Invocation) (below : List Invocation)
    (h : e.stack = top :: below) : (e.leave top below).weight < e.weight := by
  have hlt : stackWeight e.routines below < stackWeight e.routines (top :: below) := by
    simp only [stackWeight, stepsLeft]
    omega
  have heq : (e.leave top below).weight
      = e.budget.toNat * (e.routines.longest + 2) + stackWeight e.routines below := by
    unfold leave
    cases top.caller <;> rfl
  rw [heq, weight, h]
  omega

/-- Taking a jump costs a command of the routine that it stands in, and one jump. -/
theorem weight_enter_lt {e e' : Engine ε} {command : Command} {name : Text}
    (h : e.enter command name = .going e') : e'.weight < e.weight := by
  unfold enter at h
  simp only [halt] at h
  split at h
  · cases h
  · next hbudget =>
    split at h
    · cases h
    · cases h
      have hlen := e.routines.lengthOf_le_longest name
      have hjump : e.budget.toNat = (e.budget - 1).toNat + 1 := by omega
      simp only [weight, stackWeight, stepsLeft, hjump, Nat.succ_mul]
      omega

theorem weight_follow_le {e e' : Engine ε} {command : Command} {verdict : Verdict}
    (h : e.follow command verdict = .going e') : e'.weight ≤ e.weight := by
  cases verdict with
  | next => cases h; simp
  | gate isOpen => cases h; simp
  | enter name => exact Nat.le_of_lt (weight_enter_lt h)
  | suspend prompt => cases h
  | stop ending => cases h

theorem weight_advance_lt {e e' : Engine ε} {top : Invocation} {below : List Invocation}
    {command : Command} (hs : e.stack = top :: below)
    (hc : e.routines.command? top.routine top.position = some command)
    (h : e.advance top below command = .going e') : e'.weight < e.weight := by
  unfold advance at h
  simp only at h
  split at h
  · exact Nat.lt_of_le_of_lt (weight_follow_le h) (weight_behind_lt e _ hs hc)
  · exact Nat.lt_of_le_of_lt (weight_follow_le h) (weight_behind_lt e _ hs hc)

theorem weight_step_lt {e e' : Engine ε} (h : e.step = .going e') : e'.weight < e.weight := by
  unfold step at h
  split at h
  · cases h
  · split at h
    · cases h
    · split at h
      · cases h
      · next top below hs =>
        split at h
        · cases h
          exact weight_leave_lt e top below hs
        · next command hc => exact weight_advance_lt hs hc h

def Settles (before : Nat) (standing : Standing) (after : Engine ε) : Prop :=
  after.weight ≤ before ∧ ∀ prompt, standing = .waiting prompt → after.weight < before

theorem settles_halt {e e' : Engine ε} {ending : Ending} {standing : Standing} {bound : Nat}
    (hb : e.weight ≤ bound) (h : e.halt ending = .halted standing e') :
    Settles bound standing e' := by
  unfold halt at h
  cases h
  refine ⟨Nat.le_trans (weight_finish_le e ending) hb, fun prompt hp => ?_⟩
  unfold finish at hp
  cases hr : ending.report? <;> simp [hr] at hp

theorem settles_follow {e e' : Engine ε} {command : Command} {verdict : Verdict}
    {standing : Standing} {bound : Nat} (hb : e.weight < bound)
    (h : e.follow command verdict = .halted standing e') : Settles bound standing e' := by
  have hle := Nat.le_of_lt hb
  cases verdict with
  | next => cases h
  | gate isOpen => cases h
  | suspend prompt => cases h; exact ⟨hle, fun _ _ => hb⟩
  | stop ending => exact settles_halt (e := e.observe command) hle h
  | enter name =>
    have hjump : Engine.weight { e with budget := e.budget - 1 } ≤ bound := by
      have hmul : (e.budget - 1).toNat * (e.routines.longest + 2)
          ≤ e.budget.toNat * (e.routines.longest + 2) :=
        Nat.mul_le_mul_right _ (by omega)
      simp only [weight] at hle ⊢
      omega
    unfold follow enter at h
    simp only at h
    split at h
    · exact settles_halt (e := observe command { e with budget := e.budget - 1 }) hjump h
    · split at h
      · exact settles_halt (e := observe command { e with budget := e.budget - 1 }) hjump h
      · cases h

theorem settles_step {e e' : Engine ε} {standing : Standing} (h : e.step = .halted standing e') :
    Settles e.weight standing e' := by
  unfold step at h
  split at h
  · exact settles_halt (Nat.le_refl _) h
  · split at h
    · exact settles_halt (Nat.le_refl _) h
    · split at h
      · exact settles_halt (Nat.le_refl _) h
      · next top below hs =>
        split at h
        · cases h
        · next command hc =>
          unfold advance at h
          simp only at h
          split at h
          · exact settles_follow (weight_behind_lt e _ hs hc) h
          · exact settles_follow (weight_behind_lt e _ hs hc) h

end Engine
end BenchScript
