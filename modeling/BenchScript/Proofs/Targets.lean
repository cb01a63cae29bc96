import BenchScript.Proofs.Partition
import BenchScript.Proofs.Record
import BenchScript.Proofs.Step

set_option autoImplicit false

namespace BenchScript

namespace Command

variable {name : Text}

theorem trimmed_argument (command : Command) : Text.Trimmed command.argument :=
  Text.trimmed_trim _

/-- Blanks at the end of the line make no difference. -/
theorem argument_trimEnd (tag : Char) (rest : Text) :
    (textual tag (Text.trimEnd rest)).argument = (textual tag rest).argument := by
  unfold argument raw
  rw [Text.trim_trimEnd]

theorem argument_space (tag : Char) (rest : Text) :
    (textual tag (' ' :: rest)).argument = (textual tag rest).argument := by
  unfold argument raw
  rw [Text.trim_cons_of_blank (by decide)]

theorem argument_colon (tag : Char) (rest : Text) :
    (textual tag (':' :: rest)).argument = Text.trim rest := by
  unfold argument raw
  rw [Text.trim_cons_of_not_blank (by decide), Text.dropLeading_cons_self, Text.trim_trimEnd]

/-- A name alone is its own argument unless it loses a colon. -/
theorem argument_eq_self_iff (h : Text.Trimmed name) (tag : Char) :
    (textual tag name).argument = name ↔ name.head? ≠ some ':' := by
  constructor
  · intro hself hcolon
    obtain ⟨rest, rfl⟩ := List.head?_eq_some_iff.1 hcolon
    rw [argument_colon] at hself
    have hshort : (Text.trim rest).length ≤ rest.length := (Text.isInfix_trim rest).length_le
    rw [hself, List.length_cons] at hshort
    omega
  · intro hplain
    unfold argument raw
    rw [h.trim_eq, Text.dropLeading_of_head?_ne hplain, h.trim_eq]

end Command

theorem LineClass.ofLine_jump (rest : Text) :
    LineClass.ofLine ('J' :: rest) = .command (.textual 'J' (Text.trimEnd rest)) := by
  unfold LineClass.ofLine
  rw [Text.trim_cons_of_not_blank (by decide)]
  rfl

theorem trimmed_headingName (line : Text) : Text.Trimmed (headingName line) := by
  unfold headingName
  cases commandOf? line with
  | none => exact Text.trimmed_nil
  | some command => exact command.trimmed_argument

namespace Routines

variable {lines : List Text} {table : Routines} {name : Text}

theorem eq_divided_of_ofLines (h : ofLines lines = .ok table) : table = divided lines := by
  have hunbroken := ((ofLines_eq_ok_iff lines table).1 h).1
  by_cases hnamed : WellNamed lines
  · rw [ofLines_of_wellNamed hunbroken hnamed] at h
    exact (Except.ok.inj h).symm
  · obtain ⟨before, line, after, rfl, hbefore, hline⟩ := exists_of_not_wellNamed hnamed
    rw [ofLines_of_not_namesAnew hunbroken hbefore hline] at h
    cases h

/-- The name of a routine is that of the entry, which is empty, or that of a heading. -/
theorem trimmed_of_contains (h : ofLines lines = .ok table) (hname : table.contains name = true) :
    Text.Trimmed name := by
  have hkey : name ∈ table.keys := by simpa [Table.contains] using hname
  rw [eq_divided_of_ofLines h, keys_divided] at hkey
  rcases List.mem_cons.1 hkey with rfl | hheading
  · exact Text.trimmed_nil
  · obtain ⟨line, -, rfl⟩ := List.mem_map.1 hheading
    exact trimmed_headingName line

/-- The line is read as a command that names the routine. Wherever a run comes to the command, behind
an open gate and with a jump left, its next step takes a jump and puts the routine on the stack, to
be carried out from its beginning. -/
def LeadsTo (table : Routines) (line name : Text) : Prop :=
  ∃ command, LineClass.ofLine line = .command command ∧ command.argument = name ∧
    ∀ {ε : Type} [Environment ε] (e : Engine ε) (top : Invocation) (below : List Invocation),
      e.routines = table → e.Fetches top below command → top.gateOpen = true → 1 ≤ e.budget →
        e.step = .going { e with
          budget := e.budget - 1
          stack := { routine := name, caller := some command }
            :: { top with position := top.position + 1 } :: below }

end Routines

theorem Engine.step_of_jump {ε : Type} [Environment ε] {e : Engine ε} {top : Invocation}
    {below : List Invocation} {command : Command} (hf : e.Fetches top below command)
    (hg : top.gateOpen = true) (ha : command.action = .jump) (hb : 1 ≤ e.budget)
    (hn : e.routines.contains command.argument = true) :
    e.step = .going ((e.past top below e.workspace).entered command) := by
  rw [step_of_fetches hf hg, Workspace.perform_jump ha]
  have hbudget : ¬ (e.past top below e.workspace).budget - 1 < 0 := by
    change ¬ e.budget - 1 < 0
    omega
  have hcontains : (e.past top below e.workspace).routines.contains command.argument = true := hn
  unfold follow enter
  simp only [hbudget, hcontains, if_false, Bool.not_true, Bool.false_eq_true]
  rfl

namespace Routines

variable {lines : List Text} {table : Routines} {name : Text}

theorem leadsTo_iff (hname : table.contains name = true) (rest : Text) :
    table.LeadsTo ('J' :: rest) name ↔ (Command.textual 'J' rest).argument = name := by
  rw [← Command.argument_trimEnd]
  constructor
  · rintro ⟨command, hread, hargument, -⟩
    rw [LineClass.ofLine_jump] at hread
    cases hread
    exact hargument
  · intro hargument
    refine ⟨_, LineClass.ofLine_jump rest, hargument, ?_⟩
    intro ε _ e top below hroutines hfetches hgate hbudget
    subst hargument
    subst hroutines
    exact Engine.step_of_jump hfetches hgate rfl hbudget hname

/-- Every routine of a script can be jumped to. With a colon in front of the name, and spaces around
the colon or none, a jump leads to the routine whatever its name is. Without a colon it does so
exactly if the name does not begin with one. -/
theorem jumps_lead (h : ofLines lines = .ok table) (hname : table.contains name = true) :
    (∀ opening ∈ [[' ', ':'], [' ', ':', ' '], [':']],
      table.LeadsTo ('J' :: (opening ++ name)) name) ∧
    ∀ opening ∈ [[], [' ']],
      table.LeadsTo ('J' :: (opening ++ name)) name ↔ name.head? ≠ some ':' := by
  have htrimmed := trimmed_of_contains h hname
  have hcolon : (Command.textual 'J' (':' :: name)).argument = name := by
    rw [Command.argument_colon, htrimmed.trim_eq]
  have hspaced : (Command.textual 'J' (':' :: ' ' :: name)).argument = name := by
    rw [Command.argument_colon, Text.trim_cons_of_blank (by decide), htrimmed.trim_eq]
  simp only [List.forall_mem_cons, leadsTo_iff hname, List.cons_append, List.nil_append,
    Command.argument_space]
  exact ⟨⟨hcolon, hspaced, hcolon, List.forall_mem_nil _⟩,
    Command.argument_eq_self_iff htrimmed 'J', Command.argument_eq_self_iff htrimmed 'J',
    List.forall_mem_nil _⟩

def colonScript : List Text :=
  [['J', ' ', ':', ':', 'a'], [':', ':', ':', 'a', ' '], ['Q']]

def colonStart : Engine Bench :=
  { ((Engine.idle {} Bench.fresh).load colonScript).2.begun with stack := [{ routine := [] }] }

/-- The colon in front of the name is not enough, the one that belongs to the jump is needed. -/
theorem jumps_lead_colon :
    let name : Text := [':', 'a']
    (∃ later, colonStart.step = .going later ∧ later.stack.map Invocation.routine = [name, []] ∧
      later.budget = colonStart.budget - 1) ∧
    ∀ table, ofLines colonScript = .ok table →
      ¬ table.LeadsTo ('J' :: ' ' :: name) name ∧ table.LeadsTo ('J' :: ':' :: name) name := by
  intro name
  have hplain : ∀ line ∈ colonScript, ¬ IsMarker line := by decide
  have hload : ofLines colonScript = .ok (divided colonScript) :=
    ofLines_of_wellNamed (unbroken_of_not_isMarker [] hplain) (by decide)
  have hname : (divided colonScript).contains name = true := by decide
  obtain ⟨hcolon, hbare⟩ := jumps_lead hload hname
  constructor
  · obtain ⟨command, hread, -, hstep⟩ := hcolon [' ', ':'] (by decide)
    cases hread
    have hstart := hstep colonStart { routine := [] } [] rfl ⟨rfl, rfl, rfl, rfl⟩ rfl (by decide)
    exact ⟨_, hstart, rfl, rfl⟩
  · intro table htable
    cases hload.symm.trans htable
    refine ⟨fun hlead => ?_, hcolon [':'] (by decide)⟩
    exact (hbare [' '] (by decide)).1 hlead rfl

end Routines
end BenchScript
