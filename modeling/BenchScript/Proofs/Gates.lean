import BenchScript.Engine.Perform
import BenchScript.Proofs.Conditions
import BenchScript.Proofs.Record

set_option autoImplicit false

namespace BenchScript

namespace Condition

open Text (Trimmed)

/-- Reading a body keeps its question marks. If it fails it gives the body back. -/
theorem count_of_ofBody (body : Text) :
    (∃ condition, ofBody body = .ok condition ∧
      condition.operands.flatten.count '?' = body.count '?') ∨
    ofBody body = .error (.format (.blankOperand body)) := by
  by_cases hne : body = []
  · subst hne
    exact Or.inl ⟨.always, rfl, rfl⟩
  · obtain ⟨left, right, negated, hdivided⟩ | hsignless := isDivided_or_signless body
    · rw [ofBody_of_isDivided hdivided]
      split
      · exact Or.inr rfl
      · refine Or.inl ⟨_, rfl, ?_⟩
        have hsign : (sign negated).count '?' = 0 := by cases negated <;> rfl
        have hblank : Text.isBlank '?' = false := by decide
        rw [hdivided.cut.eq]
        simp [operands, Text.count_trim hblank, hsign]
    · exact Or.inl ⟨_, ofBody_of_signless hne hsignless, by simp [operands]⟩

theorem ofBody_ne_of_count {body body' : Text} (h : body.count '?' ≠ body'.count '?') :
    ofBody body ≠ ofBody body' := by
  intro heq
  obtain ⟨condition, hread, hcount⟩ | hfails := count_of_ofBody body <;>
  obtain ⟨condition', hread', hcount'⟩ | hfails' := count_of_ofBody body'
  · rw [hread, hread'] at heq
    cases heq
    exact h (hcount.symm.trans hcount')
  · rw [hread, hfails'] at heq
    cases heq
  · rw [hfails, hread'] at heq
    cases heq
  · rw [hfails, hfails'] at heq
    cases heq
    exact h rfl

/-- The two ways to write a condition are read alike unless what is behind the question mark begins
with one. -/
theorem ofText_cons_question_iff (text : Text) :
    ofText ('?' :: text) = ofText text ↔ (Text.trim text).head? ≠ some '?' := by
  change ofBody (bodyOf ('?' :: text)) = ofBody (bodyOf text) ↔ _
  rw [bodyOf_cons_question, bodyOf]
  have htrimmed := Text.trimmed_trim text
  generalize Text.trim text = body at htrimmed
  cases body with
  | nil => exact iff_of_true rfl (by simp)
  | cons c rest =>
    by_cases hc : c = '?'
    · subst hc
      have hcount : ('?' :: rest).count '?' ≠ (Text.trim rest).count '?' := by
        rw [List.count_cons_self, Text.count_trim (by decide)]
        omega
      rw [Text.dropLeading, if_pos rfl]
      exact iff_of_false (ofBody_ne_of_count hcount) fun hhead => hhead rfl
    · rw [Text.dropLeading, if_neg hc, htrimmed.trim_eq]
      exact iff_of_true rfl (by simpa using hc)

end Condition

namespace Workspace

variable {ε : Type} [Environment ε]

def decideBy (text : Text) (command : Command) (w : Workspace ε) : Verdict :=
  match Condition.evaluate text w.bindings w.lastRow with
  | .error e => .stop (.conditionError (w.blame command e))
  | .ok isOpen => .gate isOpen

theorem decideGate_eq_decideBy (command : Command) (w : Workspace ε) :
    w.decideGate command = w.decideBy command.raw command := by
  unfold decideGate decideBy Condition.evaluate
  cases Condition.ofText command.raw with
  | error e => rfl
  | ok condition =>
    cases hholds : condition.holds w.bindings w.lastRow <;> simp only [Except.bind, hholds]

theorem perform_condition (settings : Settings) {command : Command} (h : command.tag = '?')
    (w : Workspace ε) :
    w.perform settings command = (w.decideBy command.raw command, w) := by
  have hcondition : command.action = .condition := by
    cases command with
    | textual tag raw => exact congrArg Action.ofTag h
    | binary line => cases h
  rw [← decideGate_eq_decideBy]
  simp only [perform, hcondition]

/-- A literal operand is compared with the last row as it is written. -/
theorem decideBy_literal {operand : Text} (h : Condition.IsPlainOperand operand)
    (hquestion : operand.head? ≠ some '?') (hdollar : operand.head? ≠ some '$')
    (command : Command) (w : Workspace ε) :
    w.decideBy operand command = .gate (decide (operand = w.lastRow)) := by
  have hread : Condition.ofText operand = .ok (.lastRow operand) := by
    rw [← h.trimmed.trim_eq] at hquestion
    rw [← (Condition.ofText_cons_question_iff operand).2 hquestion]
    exact Condition.ofText_render_lastRow h
  have hvalue : w.bindings.operand operand = .ok operand := by
    unfold Variables.operand
    split
    · exact absurd rfl hdollar
    · rfl
  unfold decideBy Condition.evaluate
  simp only [hread, Except.bind, Condition.holds_lastRow, hvalue, Except.map]

end Workspace

/-- The text of a condition and the whole line are read alike exactly if the text does not begin
with a question mark of its own. Then a gate is set as its line is written, and a literal operand of
any other spelling can be compared with the last row. -/
theorem gate_as_written {ε : Type} [Environment ε] (settings : Settings) (w : Workspace ε) :
    (∀ text, Condition.ofText ('?' :: text) = Condition.ofText text
      ↔ (Text.trim text).head? ≠ some '?') ∧
    (∀ line command, Command.ofLine? line = some command → command.tag = '?' →
      (Text.trim command.raw).head? ≠ some '?' →
        w.perform settings command = (w.decideBy line command, w)) ∧
    ∀ operand, Condition.IsPlainOperand operand → operand.head? ≠ some '?' →
      operand.head? ≠ some '$' →
        w.perform settings (.textual '?' operand)
          = (.gate (decide (operand = w.lastRow)), w) := by
  refine ⟨Condition.ofText_cons_question_iff, ?_, ?_⟩
  · intro line command hline htag hhead
    have hwhole : line = '?' :: command.raw := by rw [← htag, Command.line_eq_tag_cons_raw hline]
    have hsame := (Condition.ofText_cons_question_iff command.raw).2 hhead
    rw [Workspace.perform_condition settings htag, hwhole]
    unfold Workspace.decideBy Condition.evaluate
    rw [hsame]
  · intro operand h hquestion hdollar
    rw [Workspace.perform_condition settings rfl]
    exact congrArg (·, w) (Workspace.decideBy_literal h hquestion hdollar _ w)

/-- A condition with spaces around its operands, and a literal. -/
theorem gate_as_written_spaced :
    let w : Workspace Bench := ⟨Bench.fresh, Condition.fives, ['x', '?'], [], false⟩
    w.perform {} (.textual '?' " $x == 5".toList) = (.gate true, w) ∧
      w.perform {} (.textual '?' ['x', '?']) = (.gate true, w) := by
  intro w
  obtain ⟨-, hlines, hliterals⟩ := gate_as_written {} w
  have hplain : Condition.IsPlainOperand ['x', '?'] :=
    Condition.isPlainOperand_of_trim (by decide) rfl (by decide)
  refine ⟨?_, ?_⟩
  · exact (hlines "? $x == 5".toList _ rfl rfl (by decide)).trans rfl
  · exact (hliterals _ hplain (by decide) (by decide)).trans rfl

/-- The operand `?x` of the line `??x` is compared as `x`, so the gate is closed where it should be
open. -/
theorem gate_loses_question_mark :
    let line := ['?', '?', 'x']
    let command := Command.textual '?' ['?', 'x']
    let w : Workspace Bench := ⟨Bench.fresh, Table.empty, ['?', 'x'], [], false⟩
    Command.ofLine? line = some command ∧ command.tag = '?' ∧
      Condition.ofText line = .ok (.lastRow ['?', 'x']) ∧
      Condition.ofText command.raw = .ok (.lastRow ['x']) ∧
      w.decideBy line command = .gate true ∧ w.perform {} command = (.gate false, w) :=
  ⟨rfl, rfl, rfl, rfl, rfl, rfl⟩

end BenchScript
