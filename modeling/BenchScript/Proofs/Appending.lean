import BenchScript.Files.Memory
import BenchScript.Proofs.Files

set_option autoImplicit false

namespace BenchScript

namespace Text

/-- No line of the text is left without its newline. -/
def IsFinished (text : Text) : Prop := text = [] ∨ text.getLast? = some newline

theorem isFinished_newline (text : Text) : IsFinished (text ++ [newline]) := by
  simp [IsFinished]

theorem length_consFirst (c : Char) {found : List Text} (h : found ≠ []) :
    (consFirst c found).length = found.length := by
  cases found with
  | nil => exact absurd rfl h
  | cons line more => rfl

/-- Behind a text with a newline there are as many lines as newlines. -/
theorem length_lines_newline (text : Text) :
    (lines (text ++ [newline])).length = text.count newline + 1 := by
  induction text with
  | nil => rfl
  | cons c text ih =>
    rw [List.cons_append, lines]
    split
    · next hc => rw [hc, List.length_cons, ih, List.count_cons_self]
    · next hc =>
      rw [List.count_cons_of_ne hc]
      split
      · exact ih
      · rw [length_consFirst c (lines_ne_nil (by simp)), ih]

theorem length_lines_unfinished {text : Text} {c : Char} (h : text.getLast? = some c)
    (hn : c ≠ newline) : (lines text).length = text.count newline + 1 := by
  rw [← length_lines_newline]
  by_cases hr : c = '\r'
  · obtain ⟨before, rfl⟩ := List.getLast?_eq_some_iff.1 h
    subst hr
    obtain ⟨above, last, hlines, hnewline⟩ := lines_return before
    rw [hlines, hnewline, List.length_append, List.length_append]
    rfl
  · rw [lines_newline_of_last h hn hr]

theorem lines_of_not_mem {text : Text} (h : newline ∉ text) (hne : text ≠ []) :
    lines text = [text] := by
  induction text with
  | nil => exact absurd rfl hne
  | cons c rest ih =>
    obtain ⟨hc, hrest⟩ : newline ≠ c ∧ newline ∉ rest := by simpa using h
    have hhead : rest.head? ≠ some newline := fun hhead => hrest (List.mem_of_head? hhead)
    rw [lines, if_neg hc.symm, if_neg fun hreturn => hhead hreturn.2]
    by_cases hnil : rest = []
    · subst hnil
      rfl
    · rw [ih hrest hnil]
      rfl

theorem lines_line_iff {line : Text} (h : newline ∉ line) :
    lines (line ++ [newline]) = [line] ↔ line.getLast? ≠ some '\r' := by
  refine ⟨fun hlines hlast => ?_, lines_line h⟩
  obtain ⟨before, rfl⟩ := List.getLast?_eq_some_iff.1 hlast
  obtain ⟨above, last, hfound, hnewline⟩ := lines_return before
  rw [lines_of_not_mem h (by simp)] at hfound
  rw [hnewline] at hlines
  have hsame : [last ++ ['\r']] = [last] := by
    have habove : above = [] := by
      have hlength := congrArg List.length hlines
      simpa using hlength
    rw [habove] at hfound hlines
    exact hfound.symm.trans hlines.symm
  simp at hsame

/-- A line is one more line behind a text exactly if the text has no unfinished line and the newline
does not make a longer line end with the line's last character. -/
theorem lines_append_line_iff (old : Text) {line : Text} (h : newline ∉ line) :
    lines (old ++ (line ++ [newline])) = lines old ++ [line]
      ↔ IsFinished old ∧ line.getLast? ≠ some '\r' := by
  rcases List.eq_nil_or_concat old with rfl | ⟨before, c, hold⟩
  · rw [List.nil_append, lines_nil, List.nil_append, lines_line_iff h]
    exact ⟨fun hlast => ⟨Or.inl rfl, hlast⟩, And.right⟩
  · rw [List.concat_eq_append] at hold
    have hlast : old.getLast? = some c := by rw [hold, List.getLast?_concat]
    have hne : old ≠ [] := by simp [hold]
    by_cases hn : c = newline
    · subst hn
      have hcut : old ++ (line ++ [newline]) = before ++ newline :: (line ++ [newline]) := by
        simp [hold]
      rw [hcut, lines_append_newline, ← hold, List.append_cancel_left_eq, lines_line_iff h]
      exact ⟨fun hline => ⟨Or.inr hlast, hline⟩, And.right⟩
    · -- The last line of the text goes on, so that there are no more lines than before.
      refine iff_of_false (fun hlines => ?_) ?_
      · have hlength := congrArg List.length hlines
        rw [← List.append_assoc, length_lines_newline, List.count_append,
          List.count_eq_zero.2 h, List.length_append, length_lines_unfinished hlast hn] at hlength
        simp at hlength
      · rintro ⟨hfinished, -⟩
        rcases hfinished with hnil | hnewline
        · exact hne hnil
        · rw [hlast] at hnewline
          exact hn (Option.some.inj hnewline)

end Text

namespace Directory

def place? (path : Text) (d : Directory) : Option (List Text) :=
  if endsInSlash path then none else (d.locate path).toOption

def bytesAt? (place : List Text) (d : Directory) : Option Bytes :=
  match d.node? place with
  | some (.file bytes) => some bytes
  | _ => none

/-- The text under a path, which is empty where there is no file. There is none where no file can
be, and where a file is no UTF-8. -/
def heldText? (path : Text) (d : Directory) : Option Text :=
  (d.place? path).bind fun place => Utf8.decode? ((d.bytesAt? place).getD [])

/-- A directory with bytes behind what the file at a place holds. The file is made if need be. -/
def grow (place : List Text) (added : Bytes) (d : Directory) : Directory :=
  ⟨d.nodes.insert place (.file ((d.bytesAt? place).getD [] ++ added))⟩

variable {d d' : Directory} {path other : Text} {place : List Text} {added : Bytes}

theorem readBytes_toOption (path : Text) (d : Directory) :
    (d.readBytes path).toOption = (d.place? path).bind fun place => d.bytesAt? place := by
  unfold readBytes place? bytesAt?
  cases d.locate path with
  | error e => cases endsInSlash path <;> rfl
  | ok place =>
    cases hnode : d.node? place with
    | none => cases endsInSlash path <;> simp [hnode, Except.toOption]
    | some node =>
      cases node <;> cases endsInSlash path <;> simp [hnode, Except.toOption]

theorem readBytes_of_place (h : d.place? path = some place) {bytes : Bytes}
    (hbytes : d.bytesAt? place = some bytes) : d.readBytes path = .ok bytes := by
  have hread := readBytes_toOption path d
  rw [h, Option.bind_some, hbytes] at hread
  cases hresult : d.readBytes path with
  | error e =>
    rw [hresult] at hread
    cases hread
  | ok found =>
    rw [hresult] at hread
    rw [Option.some.inj hread]

/-- What can be added to is a file, or a place without anything. -/
theorem appendBytes_eq_ok (h : d.appendBytes path added = (.ok (), d')) :
    ∃ place, d.place? path = some place ∧ isAround place = false ∧
      d.node? place ≠ some .folder ∧ d' = d.grow place added := by
  unfold appendBytes at h
  split at h
  · cases h
  · next place hplace =>
    split at h
    · cases h
    · next hslash =>
      have hfound : d.place? path = some place := by
        unfold place?
        rw [if_neg hslash, hplace]
        rfl
      split at h
      · cases h
      · next old hnode =>
        cases h
        refine ⟨place, hfound, isAround_of_file hnode, by simp [hnode], ?_⟩
        simp [grow, bytesAt?, hnode]
      · next hnode =>
        cases h
        refine ⟨place, hfound, ?_, by simp [hnode], ?_⟩
        · unfold node? at hnode
          split at hnode
          · cases hnode
          · next haround => simpa using haround
        · simp [grow, bytesAt?, hnode]

theorem bytesAt?_grow (h : isAround place = false) (added : Bytes) (d : Directory)
    (other : List Text) :
    (d.grow place added).bytesAt? other
      = if place = other then some ((d.bytesAt? place).getD [] ++ added)
        else d.bytesAt? other := by
  unfold bytesAt? grow
  rw [node?_insert h]
  by_cases heq : place = other
  · rw [if_pos heq, if_pos heq]
    rfl
  · rw [if_neg heq, if_neg heq]

/-- No way leads through a file, so it is no matter whether it is there. -/
theorem follow_grow (haround : isAround place = false) (hnode : d.node? place ≠ some .folder)
    (added : Bytes) (start names : List Text) :
    ((d.grow place added).follow start names).toOption = (d.follow start names).toOption := by
  induction names generalizing start with
  | nil => rfl
  | cons name rest ih =>
    rw [follow, follow, grow, node?_insert haround]
    -- At the place itself the way ends: what is there is no folder, with the bytes or without.
    by_cases hstart : place = start
    · subst hstart
      rw [if_pos rfl]
      cases hthere : d.node? place with
      | none => rfl
      | some node =>
        cases node with
        | file bytes => rfl
        | folder => exact absurd hthere hnode
    · rw [if_neg hstart]
      cases d.node? start with
      | none => rfl
      | some node =>
        cases node with
        | file bytes => rfl
        | folder =>
          simp only
          split
          · rfl
          · split
            · exact ih _
            · exact ih _

theorem place?_grow (haround : isAround place = false) (hnode : d.node? place ≠ some .folder)
    (added : Bytes) (other : Text) :
    (d.grow place added).place? other = d.place? other := by
  unfold place? locate
  split
  · rfl
  · simp only
    split
    · rfl
    · split
      · rfl
      · split
        · rfl
        · split
          · rfl
          · exact follow_grow haround hnode added _ _

/-- Of what is read, a file that grows changes only what is read from its place. -/
theorem readBytes_grow (haround : isAround place = false) (hnode : d.node? place ≠ some .folder)
    (added : Bytes) (other : Text) :
    ((d.grow place added).readBytes other).toOption
      = if d.place? other = some place then some ((d.bytesAt? place).getD [] ++ added)
        else (d.readBytes other).toOption := by
  rw [readBytes_toOption, readBytes_toOption, place?_grow haround hnode]
  cases hother : d.place? other with
  | none => rfl
  | some place' =>
    rw [Option.bind_some, Option.bind_some, bytesAt?_grow haround]
    by_cases heq : place = place'
    · simp [heq]
    · simp [heq, Ne.symm heq]

theorem heldText?_grow_self (haround : isAround place = false)
    (hnode : d.node? place ≠ some .folder) (hplace : d.place? path = some place) {old : Text}
    (hold : d.heldText? path = some old) (added : Text) :
    (d.grow place (Utf8.encode added)).heldText? path = some (old ++ added) := by
  unfold heldText? at hold ⊢
  rw [hplace, Option.bind_some] at hold
  rw [place?_grow haround hnode, hplace, Option.bind_some, bytesAt?_grow haround, if_pos rfl,
    Option.getD_some, Utf8.decode?_append_encode hold]

theorem heldText?_grow_of_ne (haround : isAround place = false)
    (hnode : d.node? place ≠ some .folder) (hother : d.place? other ≠ some place)
    (added : Bytes) : (d.grow place added).heldText? other = d.heldText? other := by
  unfold heldText?
  rw [place?_grow haround hnode]
  cases hplace : d.place? other with
  | none => rfl
  | some place' =>
    have hne : place ≠ place' := fun heq => hother (hplace.trans (congrArg some heq.symm))
    rw [Option.bind_some, Option.bind_some, bytesAt?_grow haround, if_neg hne]

theorem readLines_toOption (path : Text) (d : Directory) :
    (d.readLines path).1.toOption
      = ((d.readBytes path).toOption.bind Utf8.decode?).map Text.lines := by
  unfold readLines readText textOf
  cases d.readBytes path with
  | error e => rfl
  | ok bytes => cases h : Utf8.decode? bytes <;> simp [h, Except.toOption]

/-- The lines that are read, none if there is no file, are those of the text that is held. -/
theorem readLines_of_held {old : Text} (h : d.heldText? path = some old) :
    ((d.readLines path).1.toOption).getD [] = Text.lines old := by
  obtain ⟨place, hplace, hdecode⟩ := Option.bind_eq_some_iff.1 h
  rw [readLines_toOption, readBytes_toOption, hplace, Option.bind_some]
  cases hbytes : d.bytesAt? place with
  | none =>
    rw [hbytes] at hdecode
    cases hdecode
    rfl
  | some bytes =>
    rw [hbytes, Option.getD_some] at hdecode
    rw [Option.bind_some, hdecode]
    rfl

/-- How a line comes to stand in a directory. -/
theorem appendLine_eq_ok {text : Text} (h : d.appendLine path text = (.ok (), d')) :
    ∃ place, d.place? path = some place ∧ isAround place = false ∧
      d.node? place ≠ some .folder ∧
      d' = d.grow place (Utf8.encode (text ++ [Text.newline])) := by
  unfold appendLine at h
  cases hbytes : d.appendBytes path (Utf8.encode (text ++ [Text.newline])) with
  | mk result after =>
    rw [hbytes] at h
    cases result with
    | error e => cases h
    | ok done =>
      cases h
      exact appendBytes_eq_ok hbytes

/-- Behind a line that was added, a file is read as the lines of what it held with the line. -/
theorem readLines_of_appendLine {text old : Text} (h : d.appendLine path text = (.ok (), d'))
    (hold : d.heldText? path = some old) :
    d'.heldText? path = some (old ++ (text ++ [Text.newline])) ∧
      (d'.readLines path).1 = .ok (Text.lines (old ++ (text ++ [Text.newline]))) := by
  obtain ⟨place, hplace, haround, hnode, rfl⟩ := appendLine_eq_ok h
  have hheld := heldText?_grow_self haround hnode hplace hold (text ++ [Text.newline])
  refine ⟨hheld, ?_⟩
  have hbytes := readBytes_of_place ((place?_grow haround hnode _ path).trans hplace)
    ((bytesAt?_grow haround (Utf8.encode (text ++ [Text.newline])) d place).trans (if_pos rfl))
  have hdecode : Utf8.decode? ((d.bytesAt? place).getD []
      ++ Utf8.encode (text ++ [Text.newline])) = some (old ++ (text ++ [Text.newline])) := by
    rw [heldText?, hplace, Option.bind_some] at hold
    exact Utf8.decode?_append_encode hold _
  unfold readLines
  rw [readText_of_readBytes hbytes hdecode]

theorem place?_of_appendLine {text : Text} (h : d.appendLine path text = (.ok (), d'))
    (other : Text) : d'.place? other = d.place? other := by
  obtain ⟨place, -, haround, hnode, rfl⟩ := appendLine_eq_ok h
  exact place?_grow haround hnode _ other

/-- Paths that lead to one place are read alike. -/
theorem readLines_congr (h : d.place? path = d.place? other) :
    (d.readLines path).1.toOption = (d.readLines other).1.toOption ∧
      d.heldText? path = d.heldText? other := by
  rw [readLines_toOption, readLines_toOption, readBytes_toOption, readBytes_toOption, heldText?,
    heldText?, h]
  exact ⟨rfl, rfl⟩

theorem readLines_of_appendLine_of_ne {text : Text} (h : d.appendLine path text = (.ok (), d'))
    (hother : d.place? other ≠ d.place? path) :
    (d'.readLines other).1.toOption = (d.readLines other).1.toOption ∧
      d'.heldText? other = d.heldText? other := by
  obtain ⟨place, hplace, haround, hnode, rfl⟩ := appendLine_eq_ok h
  rw [hplace] at hother
  rw [readLines_toOption, readLines_toOption, readBytes_grow haround hnode, if_neg hother]
  exact ⟨rfl, heldText?_grow_of_ne haround hnode hother _⟩

end Directory

def appendEach? {φ : Type} [FileStore φ] : List (Text × Text) → φ → Option φ
  | [], files => some files
  | (path, text) :: rest, files =>
    match FileStore.appendLine path text files with
    | (.ok (), files) => appendEach? rest files
    | (.error _, _) => none

theorem appendEach?_of_ok {φ : Type} [FileStore φ] {path text : Text} {files files' : φ}
    (h : FileStore.appendLine path text files = (.ok (), files')) (rest : List (Text × Text)) :
    appendEach? ((path, text) :: rest) files = appendEach? rest files' := by
  rw [appendEach?, h]

theorem appendEach?_cons_eq_some {φ : Type} [FileStore φ] {path text : Text} {files last : φ}
    {rest : List (Text × Text)} (h : appendEach? ((path, text) :: rest) files = some last) :
    ∃ files', FileStore.appendLine path text files = (.ok (), files') ∧
      appendEach? rest files' = some last := by
  rw [appendEach?] at h
  split at h
  · next files' hfirst => exact ⟨files', hfirst, h⟩
  · cases h

namespace MemoryFiles

theorem lines?_put (path other : Text) (found : List Text) (m : MemoryFiles) :
    (m.put path found).lines? other
      = if PathKey.ofText path = PathKey.ofText other then some found else m.lines? other := by
  unfold lines? put
  simp only [Table.get?_insert]
  split
  · rfl
  · rfl

theorem appendLine_of_unlocked {m : MemoryFiles} (h : m.locked = []) (path text : Text) :
    m.appendLine path text = (.ok (), m.put path ((m.lines? path).getD [] ++ [text])) := by
  simp [appendLine, h]

end MemoryFiles

/-- A directory and files in memory of which the same is read under certain paths. They tell these
paths apart alike, and no file in the directory has an unfinished line. -/
structure Mirrors (paths : Text → Prop) (d : Directory) (m : MemoryFiles) : Prop where
  unlocked : m.locked = []
  apart : ∀ p q place, paths p → paths q → d.place? p = some place →
    (d.place? q = some place ↔ PathKey.ofText p = PathKey.ofText q)
  finished : ∀ p, paths p → (d.place? p).isSome = true →
    ∃ text, d.heldText? p = some text ∧ text.IsFinished
  same : ∀ p, paths p → (d.readLines p).1.toOption = m.lines? p

namespace Mirrors

/-- One path is always told apart from itself alike. -/
theorem of_path {d : Directory} {m : MemoryFiles} {path text : Text} (hlocked : m.locked = [])
    (htext : d.heldText? path = some text) (hfinished : text.IsFinished)
    (hsame : (d.readLines path).1.toOption = m.lines? path) : Mirrors (· = path) d m where
  unlocked := hlocked
  apart := by
    rintro p q place rfl rfl hplace
    exact iff_of_true hplace rfl
  finished := by
    rintro p rfl -
    exact ⟨text, htext, hfinished⟩
  same := by
    rintro p rfl
    exact hsame

variable {paths : Text → Prop} {d d' : Directory} {m : MemoryFiles} {path text : Text}

/-- A line that is finished by its newline alone keeps the two alike. -/
theorem appendLine (h : Mirrors paths d m) (hpath : paths path) (hn : Text.newline ∉ text)
    (hr : text.getLast? ≠ some '\r') (hok : d.appendLine path text = (.ok (), d')) :
    Mirrors paths d' (m.put path ((m.lines? path).getD [] ++ [text])) := by
  obtain ⟨place, hplace, -⟩ := Directory.appendLine_eq_ok hok
  obtain ⟨old, hold, hfinished⟩ := h.finished path hpath (by simp [hplace])
  obtain ⟨hheld, hread⟩ := Directory.readLines_of_appendLine hok hold
  have hlines : Text.lines (old ++ (text ++ [Text.newline]))
      = (m.lines? path).getD [] ++ [text] := by
    rw [(Text.lines_append_line_iff old hn).2 ⟨hfinished, hr⟩, ← h.same path hpath,
      Directory.readLines_of_held hold]
  have hplaces := Directory.place?_of_appendLine hok
  refine ⟨h.unlocked, ?_, ?_, ?_⟩
  · intro p q place' hp hq
    rw [hplaces, hplaces]
    exact h.apart p q place' hp hq
  · intro p hp hsome
    rw [hplaces] at hsome
    by_cases heq : d.place? p = d.place? path
    · have hsame := Directory.readLines_congr ((hplaces p).trans (heq.trans (hplaces path).symm))
      rw [hsame.2, hheld, ← List.append_assoc]
      exact ⟨_, rfl, Text.isFinished_newline _⟩
    · rw [(Directory.readLines_of_appendLine_of_ne hok heq).2]
      exact h.finished p hp hsome
  · intro p hp
    rw [MemoryFiles.lines?_put]
    by_cases heq : d.place? p = d.place? path
    · have hkey := (h.apart path p place hpath hp hplace).1 (heq.trans hplace)
      have hsame := Directory.readLines_congr ((hplaces p).trans (heq.trans (hplaces path).symm))
      rw [if_pos hkey, hsame.1, hread, hlines]
      rfl
    · have hkey : PathKey.ofText path ≠ PathKey.ofText p := fun hkey =>
        heq (((h.apart path p place hpath hp hplace).2 hkey).trans hplace.symm)
      rw [if_neg hkey, (Directory.readLines_of_appendLine_of_ne hok heq).1]
      exact h.same p hp

/-- However many lines are added, the same is read. -/
theorem appendEach (h : Mirrors paths d m) {appends : List (Text × Text)}
    (hall : ∀ append ∈ appends, paths append.1 ∧ Text.newline ∉ append.2 ∧
      append.2.getLast? ≠ some '\r') (hok : appendEach? appends d = some d') :
    ∃ m', appendEach? appends m = some m' ∧ Mirrors paths d' m' := by
  induction appends generalizing d m with
  | nil =>
    cases hok
    exact ⟨m, rfl, h⟩
  | cons append rest ih =>
    obtain ⟨path, text⟩ := append
    obtain ⟨hpath, hn, hr⟩ := hall _ List.mem_cons_self
    obtain ⟨after, hfirst, hrest⟩ := appendEach?_cons_eq_some hok
    obtain ⟨m', hm', hmirrors⟩ :=
      ih (h.appendLine hpath hn hr hfirst) (fun a ha => hall a (List.mem_cons_of_mem _ ha)) hrest
    have happend := MemoryFiles.appendLine_of_unlocked h.unlocked path text
    exact ⟨m', (appendEach?_of_ok happend rest).trans hm', hmirrors⟩

end Mirrors

/-- A line that is added to a file is read back as one more line, whole, behind those that were
there, exactly if the file had no unfinished line and the line does not end with a carriage return.
In memory it always is. With such files and such lines a directory and files in memory give the same
to read after any number of lines, under all paths that they tell apart alike. -/
theorem append_adds_line {d d' : Directory} {path text old : Text} (hn : Text.newline ∉ text)
    (hold : d.heldText? path = some old) (hok : d.appendLine path text = (.ok (), d')) :
    ((d'.readLines path).1 = .ok (((d.readLines path).1.toOption).getD [] ++ [text])
      ↔ old.IsFinished ∧ text.getLast? ≠ some '\r') ∧
    (∀ (m : MemoryFiles) (name line : Text), m.locked = [] →
      ∃ m', m.appendLine name line = (.ok (), m') ∧
        m'.lines? name = some ((m.lines? name).getD [] ++ [line])) ∧
    ∀ (paths : Text → Prop) (start after : Directory) (m : MemoryFiles)
      (appends : List (Text × Text)), Mirrors paths start m →
      (∀ append ∈ appends, paths append.1 ∧ Text.newline ∉ append.2 ∧
        append.2.getLast? ≠ some '\r') →
      appendEach? appends start = some after →
        ∃ m', appendEach? appends m = some m' ∧
          ∀ name, paths name → (after.readLines name).1.toOption = m'.lines? name := by
  refine ⟨?_, fun m name line hlocked => ?_, fun paths start after m appends h hall hafter => ?_⟩
  · obtain ⟨-, hread⟩ := Directory.readLines_of_appendLine hok hold
    rw [hread, Directory.readLines_of_held hold, Except.ok.injEq]
    exact Text.lines_append_line_iff old hn
  · refine ⟨_, MemoryFiles.appendLine_of_unlocked hlocked name line, ?_⟩
    rw [MemoryFiles.lines?_put, if_pos rfl]
  · obtain ⟨m', hm', hmirrors⟩ := h.appendEach hall hafter
    exact ⟨m', hm', hmirrors.same⟩

/-- A carriage return in the middle of a line does no harm, and neither does a line of nothing. -/
theorem append_adds_line_finished :
    let d : Directory := ⟨⟨[([['f']], .file [0x78, 0x0A])]⟩⟩
    let m : MemoryFiles := ⟨⟨[(PathKey.ofText ['f'], ⟨['f'], [['x']]⟩)]⟩, []⟩
    let appends : List (Text × Text) := [(['f'], ['y', '\r', 'z']), (['f'], [])]
    ((d.appendLine ['f'] ['y', '\r', 'z']).2.readLines ['f']).1 = .ok [['x'], ['y', '\r', 'z']] ∧
      ∃ d' m', appendEach? appends d = some d' ∧ appendEach? appends m = some m' ∧
        (d'.readLines ['f']).1.toOption = m'.lines? ['f'] := by
  intro d m appends
  have hheld : d.heldText? ['f'] = some ['x', '\n'] := rfl
  have hfinished : Text.IsFinished ['x', '\n'] := Or.inr rfl
  obtain ⟨after, hafter⟩ : ∃ after, d.appendLine ['f'] ['y', '\r', 'z'] = (.ok (), after) :=
    ⟨_, rfl⟩
  obtain ⟨hone, -, hall⟩ := append_adds_line (by decide) hheld hafter
  obtain ⟨d', hd'⟩ : ∃ d', appendEach? appends d = some d' := ⟨_, rfl⟩
  obtain ⟨m', hm', hsame⟩ := hall (· = ['f']) d d' m appends
    (Mirrors.of_path rfl hheld hfinished rfl) (by decide) hd'
  refine ⟨?_, d', m', hd', hm', hsame _ rfl⟩
  rw [hafter]
  exact hone.2 ⟨hfinished, by decide⟩

/-- A line that is added behind an unfinished one goes on with it, and one that ends with a carriage
return is read back without it; neither happens in memory. -/
theorem append_joins_unfinished :
    let d : Directory := ⟨⟨[([['f']], .file [0x78])]⟩⟩
    let m : MemoryFiles := ⟨⟨[(PathKey.ofText ['f'], ⟨['f'], [['x']]⟩)]⟩, []⟩
    (d.readLines ['f']).1 = .ok [['x']] ∧ m.lines? ['f'] = some [['x']] ∧
      (d.appendLine ['f'] ['y']).1 = .ok () ∧
      ((d.appendLine ['f'] ['y']).2.readLines ['f']).1 = .ok [['x', 'y']] ∧
      ((d.appendLine ['f'] ['y']).2.readLines ['f']).1 ≠ .ok [['x'], ['y']] ∧
      (m.appendLine ['f'] ['y']).2.lines? ['f'] = some [['x'], ['y']] ∧
      ((d.appendLine ['g'] ['y', '\r']).2.readLines ['g']).1 = .ok [['y']] ∧
      (m.appendLine ['g'] ['y', '\r']).2.lines? ['g'] = some [['y', '\r']] := by
  intro d m
  have hread : ((d.appendLine ['f'] ['y']).2.readLines ['f']).1 = .ok [['x', 'y']] := rfl
  refine ⟨rfl, rfl, rfl, hread, ?_, rfl, rfl, rfl⟩
  rw [hread]
  simp

end BenchScript
