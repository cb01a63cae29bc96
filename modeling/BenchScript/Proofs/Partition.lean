import BenchScript.Proofs.Markers
import Mathlib.Data.List.Induction

set_option autoImplicit false

namespace BenchScript

def IsSignificant (line : Text) : Prop :=
  Text.trim line ≠ [] ∧ (Text.trim line).head? ≠ some '#' ∧ ¬ IsMarker line

instance (line : Text) : Decidable (IsSignificant line) :=
  inferInstanceAs (Decidable (_ ∧ _ ∧ _))

def IsHeading (line : Text) : Prop := (Text.trim line).head? = some ':'

instance (line : Text) : Decidable (IsHeading line) :=
  inferInstanceAs (Decidable ((Text.trim line).head? = some ':'))

def commandOf? (line : Text) : Option Command :=
  if (Text.trim line).head? = some 'D' then some (.binary (Text.trimStart line))
  else Command.ofLine? (Text.trim line)

def headingName (line : Text) : Text := ((commandOf? line).map Command.argument).getD []

def commandsOf (lines : List Text) : List Command :=
  (lines.filter (IsSignificant ·)).filterMap commandOf?

def untilHeading (lines : List Text) : List Text := lines.takeWhile (¬ IsHeading ·)

def headingNames (lines : List Text) : List Text := (lines.filter (IsHeading ·)).map headingName

/-- The line is no heading, or it has a name that no heading above has. -/
def NamesAnew (above : List Text) (line : Text) : Prop :=
  IsHeading line → headingName line ≠ [] ∧ headingName line ∉ headingNames above

def WellNamed (lines : List Text) : Prop :=
  (∀ name ∈ headingNames lines, name ≠ []) ∧ (headingNames lines).Nodup

instance (lines : List Text) : Decidable (WellNamed lines) :=
  inferInstanceAs (Decidable (_ ∧ _))

theorem LineClass.command?_ofLine (line : Text) :
    (LineClass.ofLine line).command? = if IsSignificant line then commandOf? line else none := by
  unfold LineClass.ofLine
  cases htrim : Text.trim line with
  | nil =>
    rw [if_neg fun h : IsSignificant line => h.1 htrim]
    rfl
  | cons tag raw =>
    have hhead : (Text.trim line).head? = some tag := by rw [htrim]; rfl
    by_cases hcomment : tag = '#'
    · rw [if_neg fun h : IsSignificant line => h.2.1 (by rw [hhead, hcomment])]
      simp [hcomment, LineClass.command?]
    · by_cases hmarker : tag = markerTag
      · rw [if_neg fun h : IsSignificant line => h.2.2 (by unfold IsMarker; rw [hhead, hmarker])]
        simp only [if_neg hcomment, if_pos hmarker]
        rfl
      · have hsignificant : IsSignificant line := by
          refine ⟨by simp [htrim], by simp [hhead, hcomment], ?_⟩
          unfold IsMarker
          simp [hhead, hmarker]
        rw [if_pos hsignificant, commandOf?, htrim]
        simp only [hcomment, hmarker, if_false, List.head?_cons, Option.some.injEq]
        by_cases hdata : tag = 'D' <;> simp [hdata, LineClass.command?, Command.ofLine?]

theorem commandsOf_eq (lines : List Text) :
    commandsOf lines = lines.filterMap fun line => (LineClass.ofLine line).command? := by
  unfold commandsOf
  rw [List.filterMap_filter]
  congr 1
  funext line
  rw [LineClass.command?_ofLine]
  simp

theorem commandsOf_cons (line : Text) (lines : List Text) :
    commandsOf (line :: lines) = (LineClass.ofLine line).command?.toList ++ commandsOf lines := by
  rw [commandsOf_eq, commandsOf_eq, List.filterMap_cons]
  cases (LineClass.ofLine line).command? <;> rfl

theorem isSignificant_of_isHeading {line : Text} (h : IsHeading line) : IsSignificant line := by
  have hhead : (Text.trim line).head? = some ':' := h
  refine ⟨?_, ?_, ?_⟩
  · intro hnil
    rw [hnil] at hhead
    cases hhead
  · rw [hhead]
    decide
  · unfold IsMarker
    rw [hhead]
    decide

theorem command?_of_isHeading {line : Text} (h : IsHeading line) :
    ∃ command, (LineClass.ofLine line).command? = some command ∧ command.action = .routine ∧
      command.argument = headingName line := by
  obtain ⟨raw, htrim⟩ : ∃ raw, Text.trim line = ':' :: raw := List.head?_eq_some_iff.1 h
  have hcommand : commandOf? line = some (.textual ':' raw) := by
    unfold commandOf?
    rw [htrim]
    rfl
  refine ⟨.textual ':' raw, ?_, rfl, ?_⟩
  · rw [LineClass.command?_ofLine, if_pos (isSignificant_of_isHeading h), hcommand]
  · unfold headingName
    rw [hcommand]
    rfl

def Command.IsStored (command : Command) : Prop :=
  command.action ≠ .routine ∧ (command.payload?.isSome = true ↔ command.action = .data)

theorem isStored_of_not_isHeading {line : Text} {command : Command} (h : ¬ IsHeading line)
    (hcommand : commandOf? line = some command) : command.IsStored := by
  unfold commandOf? at hcommand
  unfold IsHeading at h
  cases htrim : Text.trim line with
  | nil =>
    rw [htrim] at hcommand
    cases hcommand
  | cons tag raw =>
    rw [htrim] at h hcommand
    simp only [List.head?_cons, Option.some.injEq] at h hcommand
    split at hcommand
    · cases hcommand
      exact ⟨nofun, fun _ => rfl, fun _ => rfl⟩
    · next hdata =>
      cases hcommand
      refine ⟨fun hroutine => h (Action.ofTag_eq_routine_iff.1 hroutine), nofun, ?_⟩
      intro haction
      exact absurd (Action.ofTag_eq_data_iff.1 haction) hdata

theorem isSome_commandOf? {line : Text} (h : IsSignificant line) : (commandOf? line).isSome := by
  unfold commandOf?
  split
  · rfl
  · cases htrim : Text.trim line with
    | nil => exact absurd htrim h.1
    | cons tag raw => rfl

theorem length_commandsOf (lines : List Text) :
    (commandsOf lines).length = (lines.filter (IsSignificant ·)).length := by
  unfold commandsOf
  induction lines with
  | nil => rfl
  | cons line lines ih =>
    rw [List.filter_cons]
    split
    · next h =>
      have hsignificant : IsSignificant line := by simpa using h
      obtain ⟨command, hcommand⟩ := Option.isSome_iff_exists.1 (isSome_commandOf? hsignificant)
      rw [List.filterMap_cons, hcommand, List.length_cons, List.length_cons, ih]
    · exact ih

theorem isStored_of_mem_commandsOf {lines : List Text} (h : ∀ line ∈ lines, ¬ IsHeading line)
    {command : Command} (hmem : command ∈ commandsOf lines) : command.IsStored := by
  obtain ⟨line, hline, hcommand⟩ := List.mem_filterMap.1 hmem
  exact isStored_of_not_isHeading (h line (List.mem_filter.1 hline).1) hcommand

/-- The routines that the headings of lines begin, the first line of which has this number. -/
def sectionsOf (number : Nat) : List Text → List Section
  | [] => []
  | line :: below =>
    if IsHeading line then
      ⟨number, headingName line, commandsOf (untilHeading below)⟩ :: sectionsOf (number + 1) below
    else sectionsOf (number + 1) below

theorem untilHeading_cons_of_isHeading {line : Text} (h : IsHeading line) (below : List Text) :
    untilHeading (line :: below) = [] :=
  List.takeWhile_cons_of_neg (by simpa using h)

theorem untilHeading_cons_of_not_isHeading {line : Text} (h : ¬ IsHeading line)
    (below : List Text) : untilHeading (line :: below) = line :: untilHeading below :=
  List.takeWhile_cons_of_pos (by simpa using h)

theorem cutSections_numbered (number : Nat) (lines : List Text) :
    cutSections (numbered number lines)
      = (commandsOf (untilHeading lines), sectionsOf number lines) := by
  induction lines generalizing number with
  | nil => rfl
  | cons line below ih =>
    rw [numbered, sectionsOf]
    by_cases hheading : IsHeading line
    · obtain ⟨command, hcommand, haction, hname⟩ := command?_of_isHeading hheading
      rw [hcommand, untilHeading_cons_of_isHeading hheading, if_pos hheading]
      simp [cutSections, ih, haction, hname, commandsOf]
    · rw [untilHeading_cons_of_not_isHeading hheading, if_neg hheading, commandsOf_cons]
      cases hcommand : (LineClass.ofLine line).command? with
      | none => exact ih (number + 1)
      | some command =>
        have haction : command.action ≠ .routine := by
          rw [LineClass.command?_ofLine] at hcommand
          split at hcommand
          · exact (isStored_of_not_isHeading hheading hcommand).1
          · cases hcommand
        simp [cutSections, ih, haction]

theorem sectionsOf_append (number : Nat) (above below : List Text) :
    ∃ first,
      sectionsOf number (above ++ below) = first ++ sectionsOf (number + above.length) below ∧
      first.map Section.name = headingNames above := by
  -- The last of the first sections may reach into the lines below: only its name is told.
  induction above generalizing number with
  | nil => exact ⟨[], rfl, rfl⟩
  | cons line above ih =>
    obtain ⟨first, hsections, hnames⟩ := ih (number + 1)
    rw [List.cons_append, sectionsOf, hsections, List.length_cons, Nat.add_assoc, Nat.add_comm 1]
    by_cases hheading : IsHeading line
    · refine ⟨_ :: first, if_pos hheading, ?_⟩
      simpa [headingNames, hheading] using hnames
    · refine ⟨first, if_neg hheading, ?_⟩
      simpa [headingNames, hheading] using hnames

theorem sectionsOf_cons_of_isHeading {line : Text} (h : IsHeading line) (number : Nat)
    (below : List Text) :
    sectionsOf number (line :: below)
      = ⟨number, headingName line, commandsOf (untilHeading below)⟩
        :: sectionsOf (number + 1) below := by
  rw [sectionsOf, if_pos h]

theorem map_name_sectionsOf (number : Nat) (lines : List Text) :
    (sectionsOf number lines).map Section.name = headingNames lines := by
  obtain ⟨first, hsections, hnames⟩ := sectionsOf_append number lines []
  rw [List.append_nil, sectionsOf, List.append_nil] at hsections
  rw [hsections, hnames]

/-- No command is lost, none is in two routines, and they keep their order. -/
theorem flatMap_sectionsOf (number : Nat) (lines : List Text) :
    commandsOf (untilHeading lines) ++ (sectionsOf number lines).flatMap Section.commands
      = commandsOf (lines.filter (¬ IsHeading ·)) := by
  induction lines generalizing number with
  | nil => rfl
  | cons line below ih =>
    rw [sectionsOf, List.filter_cons]
    by_cases hheading : IsHeading line
    · rw [untilHeading_cons_of_isHeading hheading, if_pos hheading, List.flatMap_cons,
        if_neg (by simpa using hheading)]
      exact ih (number + 1)
    · rw [untilHeading_cons_of_not_isHeading hheading, if_neg hheading,
        if_pos (by simpa using hheading), commandsOf_cons, commandsOf_cons, List.append_assoc, ih]

theorem wellNamed_concat (above : List Text) (line : Text) :
    WellNamed (above ++ [line]) ↔ WellNamed above ∧ NamesAnew above line := by
  unfold WellNamed NamesAnew
  by_cases hheading : IsHeading line
  · have hnames : headingNames (above ++ [line]) = headingNames above ++ [headingName line] := by
      simp [headingNames, hheading]
    rw [hnames, List.nodup_append]
    constructor
    · rintro ⟨hnamed, hnodup, -, hnew⟩
      refine ⟨⟨fun name hmem => hnamed name (List.mem_append_left _ hmem), hnodup⟩, fun _ => ?_⟩
      exact ⟨hnamed _ (by simp), fun hmem => hnew _ hmem _ (List.mem_singleton_self _) rfl⟩
    · rintro ⟨⟨hnamed, hnodup⟩, hline⟩
      obtain ⟨hne, hnew⟩ := hline hheading
      refine ⟨?_, hnodup, by simp, ?_⟩
      · intro name hmem
        rcases List.mem_append.1 hmem with hmem | hmem
        · exact hnamed name hmem
        · rw [List.mem_singleton.1 hmem]
          exact hne
      · intro name hmem name' hmem' heq
        rw [List.mem_singleton.1 hmem'] at heq
        exact hnew (heq ▸ hmem)
  · have hnames : headingNames (above ++ [line]) = headingNames above := by
      simp [headingNames, hheading]
    rw [hnames]
    exact ⟨fun h => ⟨h, fun hline => absurd hline hheading⟩, And.left⟩

theorem exists_of_not_wellNamed {lines : List Text} (h : ¬ WellNamed lines) :
    ∃ before line after, lines = before ++ line :: after ∧ WellNamed before ∧
      ¬ NamesAnew before line := by
  -- From the end of the script, so that what is found is the first heading at fault.
  induction lines using List.reverseRecOn with
  | nil => exact absurd ⟨by simp [headingNames], by simp [headingNames]⟩ h
  | append_singleton above line ih =>
    by_cases habove : WellNamed above
    · refine ⟨above, line, [], rfl, habove, fun hline => h ?_⟩
      exact (wellNamed_concat above line).2 ⟨habove, hline⟩
    · obtain ⟨before, line', after, rfl, hbefore, hline'⟩ := ih habove
      exact ⟨before, line', after ++ [line], by simp, hbefore, hline'⟩

def nameFault (above : List Text) (line : Text) : FormatError :=
  if headingName line = [] then .namelessRoutine (above.length + 1)
  else .duplicateRoutine (headingName line) (above.length + 1)

namespace Routines

/-- Sections with new names are all added, in order. -/
theorem addSections_append {table : Routines} {first : List Section}
    (hnamed : ∀ name ∈ first.map Section.name, name ≠ [])
    (hnodup : (table.keys ++ first.map Section.name).Nodup) (rest : List Section) :
    addSections table (first ++ rest)
      = addSections ⟨table.entries ++ first.map Section.content⟩ rest := by
  -- The table stands for the headings above, and its keys stay apart from those below.
  induction first generalizing table with
  | nil => simp
  | cons part first ih =>
    have hname : part.name ≠ [] := hnamed part.name (by simp)
    have hnew : part.name ∉ table.keys := by
      intro hmem
      rw [List.nodup_append] at hnodup
      exact hnodup.2.2 _ hmem _ (by simp) rfl
    have hcontains : table.contains part.name = false := by
      simpa [Table.contains] using hnew
    have hkeys : (table.insert part.name part.commands).keys = table.keys ++ [part.name] := by
      rw [Table.insert_of_not_mem hnew]
      simp [Table.keys]
    have hrest : ∀ name ∈ first.map Section.name, name ≠ [] :=
      fun name hmem => hnamed name (List.mem_cons_of_mem _ hmem)
    have hrestNodup : ((table.insert part.name part.commands).keys
        ++ first.map Section.name).Nodup := by
      simpa [hkeys] using hnodup
    have hadded := ih hrest hrestNodup
    rw [Table.insert_of_not_mem hnew] at hadded
    rw [List.cons_append, addSections, if_neg hname, hcontains, Table.insert_of_not_mem hnew]
    simpa [Section.content] using hadded

def divided (lines : List Text) : Routines :=
  ⟨(entryRoutine, commandsOf (untilHeading lines)) :: (sectionsOf 1 lines).map Section.content⟩

theorem keys_append_content (entries : List (Text × List Command)) (sections : List Section) :
    (Table.mk (entries ++ sections.map Section.content)).keys
      = (Table.mk entries).keys ++ sections.map Section.name := by
  unfold Table.keys
  rw [List.map_append, List.map_map]
  rfl

theorem keys_divided (lines : List Text) :
    (divided lines).keys = entryRoutine :: headingNames lines := by
  rw [← map_name_sectionsOf 1 lines]
  exact keys_append_content [(entryRoutine, commandsOf (untilHeading lines))] _

theorem ofLines_eq_addSections {lines : List Text} (h : Unbroken [] lines) :
    ofLines lines
      = addSections ⟨[(entryRoutine, commandsOf (untilHeading lines))]⟩ (sectionsOf 1 lines) := by
  rw [ofLines_of_unbroken h, ofCommands, cutSections_numbered]
  rfl

theorem nodup_of_wellNamed {lines : List Text} (h : WellNamed lines) :
    (entryRoutine :: headingNames lines).Nodup :=
  List.nodup_cons.2 ⟨fun hmem => h.1 _ hmem rfl, h.2⟩

theorem ofLines_of_wellNamed {lines : List Text} (h : Unbroken [] lines) (hw : WellNamed lines) :
    ofLines lines = .ok (divided lines) := by
  have hnames := map_name_sectionsOf 1 lines
  have hnodup : ((Table.mk [(entryRoutine, commandsOf (untilHeading lines))]).keys
      ++ (sectionsOf 1 lines).map Section.name).Nodup := by
    rw [hnames]
    exact nodup_of_wellNamed hw
  have hadded := addSections_append (by rw [hnames]; exact hw.1) hnodup []
  rw [List.append_nil] at hadded
  rw [ofLines_eq_addSections h, hadded]
  rfl

/-- The first heading that does not name a routine anew is told, with the number of its line. -/
theorem ofLines_of_not_namesAnew {before after : List Text} {line : Text}
    (h : Unbroken [] (before ++ line :: after)) (hbefore : WellNamed before)
    (hline : ¬ NamesAnew before line) :
    ofLines (before ++ line :: after) = .error (.format (nameFault before line)) := by
  obtain ⟨hheading, hfault⟩ := Classical.not_imp.1 hline
  obtain ⟨first, hsections, hnames⟩ := sectionsOf_append 1 before (line :: after)
  rw [ofLines_eq_addSections h, hsections, sectionsOf_cons_of_isHeading hheading,
    addSections_append (by rw [hnames]; exact hbefore.1)
      (by rw [hnames]; exact nodup_of_wellNamed hbefore), addSections]
  unfold nameFault
  rw [Nat.add_comm 1]
  split
  · rfl
  · next hne =>
    have hmem : headingName line ∈ headingNames before := by
      by_cases hmem : headingName line ∈ headingNames before
      · exact hmem
      · exact absurd ⟨hne, hmem⟩ hfault
    have hcontains : (Table.mk ((Table.mk [(entryRoutine,
          commandsOf (untilHeading (before ++ line :: after)))]).entries
        ++ first.map Section.content)).contains (headingName line) = true := by
      rw [Table.contains, keys_append_content, hnames]
      simpa [Table.keys] using Or.inr hmem
    rw [hcontains]
    rfl

theorem get?_divided {lines : List Text} (h : WellNamed lines) {name : Text}
    {commands : List Command} (hmem : (name, commands) ∈ (divided lines).entries) :
    (divided lines).get? name = some commands := by
  have hnodup : (divided lines).keys.Nodup := by
    rw [keys_divided]
    exact nodup_of_wellNamed h
  exact Table.get?_of_mem hnodup hmem

theorem flatMap_divided (lines : List Text) :
    (divided lines).entries.flatMap Prod.snd = commandsOf (lines.filter (¬ IsHeading ·)) := by
  rw [← flatMap_sectionsOf 1 lines]
  unfold divided
  rw [List.flatMap_cons, List.flatMap_map]
  rfl

/-- Loading divides a script at its headings. If the markers hold, it succeeds exactly if the
headings have names, each its own; if not, the first heading at fault is told with its line. The
routines are then the entry and one for each heading, each with the commands of its lines up to the
next heading, so that every command that is no heading is in one routine and in its place. -/
theorem ofLines_divides {lines : List Text} (h : ∀ i, ¬ BreaksSeal lines i) :
    ((∃ table, ofLines lines = .ok table) ↔ WellNamed lines) ∧
    (¬ WellNamed lines → ∃ before line after, lines = before ++ line :: after ∧
      WellNamed before ∧ ¬ NamesAnew before line ∧
      ofLines lines = .error (.format (nameFault before line))) ∧
    ∀ table, ofLines lines = .ok table →
      table.keys = entryRoutine :: headingNames lines ∧ table.keys.Nodup ∧
      table.get? entryRoutine = some (commandsOf (untilHeading lines)) ∧
      (∀ before line after, lines = before ++ line :: after → IsHeading line →
        table.get? (headingName line) = some (commandsOf (untilHeading after))) ∧
      table.entries.flatMap Prod.snd = commandsOf (lines.filter (¬ IsHeading ·)) ∧
      (table.entries.flatMap Prod.snd).length
        = (lines.filter fun line => IsSignificant line ∧ ¬ IsHeading line).length ∧
      ∀ name commands, table.get? name = some commands →
        ∀ command ∈ commands, command.IsStored := by
  have hunbroken : Unbroken [] lines := by
    refine Classical.not_not.1 fun hnot => ?_
    obtain ⟨i, hbreak⟩ := not_unbroken_iff.1 hnot
    exact h i hbreak
  have hfault (hnot : ¬ WellNamed lines) : ∃ before line after, lines = before ++ line :: after ∧
      WellNamed before ∧ ¬ NamesAnew before line ∧
      ofLines lines = .error (.format (nameFault before line)) := by
    obtain ⟨before, line, after, rfl, hbefore, hline⟩ := exists_of_not_wellNamed hnot
    exact ⟨before, line, after, rfl, hbefore, hline,
      ofLines_of_not_namesAnew hunbroken hbefore hline⟩
  have hiff : (∃ table, ofLines lines = .ok table) ↔ WellNamed lines := by
    constructor
    · rintro ⟨table, hok⟩
      refine Classical.not_not.1 fun hnot => ?_
      obtain ⟨_, _, _, -, -, -, herror⟩ := hfault hnot
      rw [hok] at herror
      cases herror
    · intro hw
      exact ⟨_, ofLines_of_wellNamed hunbroken hw⟩
  refine ⟨hiff, hfault, ?_⟩
  intro table hok
  have hw := hiff.1 ⟨table, hok⟩
  have hdivided := (ofLines_of_wellNamed hunbroken hw).symm.trans hok
  obtain rfl : divided lines = table := Except.ok.inj hdivided
  refine ⟨keys_divided lines, ?_, ?_, ?_, flatMap_divided lines, ?_, ?_⟩
  · rw [keys_divided]
    exact nodup_of_wellNamed hw
  · exact get?_divided hw (List.mem_cons_self ..)
  · rintro before line after rfl hheading
    obtain ⟨first, hsections, -⟩ := sectionsOf_append 1 before (line :: after)
    apply get?_divided hw
    apply List.mem_cons_of_mem
    rw [hsections, sectionsOf_cons_of_isHeading hheading]
    simp [Section.content]
  · rw [flatMap_divided, length_commandsOf, List.filter_filter]
    simp
  · intro name commands hget command hmem
    have hstored : command ∈ (divided lines).entries.flatMap Prod.snd :=
      List.mem_flatMap.2 ⟨_, Table.mem_of_get? hget, hmem⟩
    rw [flatMap_divided] at hstored
    refine isStored_of_mem_commandsOf ?_ hstored
    intro line hline
    simpa using (List.mem_filter.1 hline).2

theorem ofLines_divides_headed :
    let lines : List Text :=
      [['M', 'x'], [], [':', ' ', 'a'], ['#', 'b'], ['D', ' ', '1', ' '], [':', 'b']]
    let repeated : List Text := [[':', 'a'], ['#', 'b'], [' ', ':', ':', 'a']]
    (∃ table, ofLines lines = .ok table ∧ table.keys = [[], ['a'], ['b']] ∧
      table.get? [] = some [.textual 'M' ['x']] ∧
      table.get? ['a'] = some [.binary ['D', ' ', '1', ' ']] ∧ table.get? ['b'] = some []) ∧
    ∃ before line after, repeated = before ++ line :: after ∧ ¬ NamesAnew before line ∧
      ofLines repeated = .error (.format (nameFault before line)) := by
  intro lines repeated
  have hplain : ∀ line ∈ lines ++ repeated, ¬ IsMarker line := by decide
  have hholds : ∀ i, ¬ BreaksSeal lines i := by
    rintro i ⟨line, hline, hmarker, -⟩
    exact hplain line (List.mem_append_left _ (List.mem_of_getElem? hline)) hmarker
  have hholds' : ∀ i, ¬ BreaksSeal repeated i := by
    rintro i ⟨line, hline, hmarker, -⟩
    exact hplain line (List.mem_append_right _ (List.mem_of_getElem? hline)) hmarker
  obtain ⟨hiff, -, htable⟩ := ofLines_divides hholds
  obtain ⟨-, hfault, -⟩ := ofLines_divides hholds'
  obtain ⟨table, hok⟩ := hiff.2 (by decide)
  obtain ⟨hkeys, -, hentry, hparts, -⟩ := htable table hok
  have ha := hparts (lines.take 2) [':', ' ', 'a'] (lines.drop 3) rfl (by decide)
  have hb := hparts (lines.take 5) [':', 'b'] [] rfl (by decide)
  refine ⟨⟨table, hok, hkeys, hentry, ha, hb⟩, ?_⟩
  obtain ⟨before, line, after, hcut, -, hline, herror⟩ := hfault (by decide)
  exact ⟨before, line, after, hcut, hline, herror⟩

end Routines

end BenchScript
