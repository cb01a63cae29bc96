import BenchScript.Files.Directory
import BenchScript.Proofs.Encoding

set_option autoImplicit false

namespace BenchScript
namespace Text

theorem lines_ne_nil {text : Text} (h : text ≠ []) : lines text ≠ [] := by
  induction text with
  | nil => exact absurd rfl h
  | cons c rest ih =>
    rw [lines]
    split
    · exact List.cons_ne_nil _ _
    · split
      · next hreturn =>
        refine ih fun hnil => ?_
        rw [hnil] at hreturn
        cases hreturn.2
      · cases lines rest with
        | nil => exact List.cons_ne_nil _ _
        | cons line more => exact List.cons_ne_nil _ _

theorem consFirst_append (c : Char) {first : List Text} (h : first ≠ []) (second : List Text) :
    consFirst c (first ++ second) = consFirst c first ++ second := by
  cases first with
  | nil => exact absurd rfl h
  | cons line more => rfl

theorem lines_append_newline (text more : Text) :
    lines (text ++ newline :: more) = lines (text ++ [newline]) ++ lines more := by
  induction text with
  | nil => simp [lines]
  | cons c text ih =>
    have hhead : (text ++ newline :: more).head? = (text ++ [newline]).head? := by
      cases text <;> rfl
    rw [List.cons_append, List.cons_append, lines, lines, hhead, ih]
    split
    · rfl
    · split
      · rfl
      · exact consFirst_append c (lines_ne_nil (by simp)) _

theorem lines_newline_of_last {text : Text} {c : Char} (h : text.getLast? = some c)
    (hn : c ≠ newline) (hr : c ≠ '\r') : lines (text ++ [newline]) = lines text := by
  induction text with
  | nil => cases h
  | cons d text ih =>
    cases text with
    | nil =>
      obtain rfl : d = c := by simpa using h
      simp [lines, hn, hr, consFirst]
    | cons d' text =>
      rw [List.getLast?_cons_cons] at h
      rw [List.cons_append, lines, ih h, List.cons_append, List.head?_cons, lines.eq_2 d,
        List.head?_cons]

/-- A newline behind a carriage return at the end takes it away from the last line. -/
theorem lines_return (text : Text) :
    ∃ before last, lines (text ++ ['\r']) = before ++ [last ++ ['\r']] ∧
      lines (text ++ ['\r'] ++ [newline]) = before ++ [last] := by
  induction text with
  | nil => exact ⟨[], [], rfl, rfl⟩
  | cons c text ih =>
    obtain ⟨before, last, hlines, hnewline⟩ := ih
    have hhead : (text ++ ['\r'] ++ [newline]).head? = (text ++ ['\r']).head? := by
      cases text <;> rfl
    rw [List.cons_append, List.cons_append, lines, lines, hhead, hlines, hnewline]
    split
    · exact ⟨[] :: before, last, rfl, rfl⟩
    · split
      · exact ⟨before, last, rfl, rfl⟩
      · cases before with
        | nil => exact ⟨[], c :: last, rfl, rfl⟩
        | cons line before => exact ⟨(c :: line) :: before, last, rfl, rfl⟩

theorem lines_line {line : Text} (hn : newline ∉ line) (hr : line.getLast? ≠ some '\r') :
    lines (line ++ [newline]) = [line] := by
  induction line with
  | nil => rfl
  | cons c line ih =>
    obtain ⟨hc, hline⟩ : newline ≠ c ∧ newline ∉ line := by simpa using hn
    cases line with
    | nil =>
      have hc' : c ≠ '\r' := by simpa using hr
      simp [lines, hc.symm, hc', consFirst]
    | cons d line =>
      have hd : d ≠ newline := fun h => hline (h ▸ List.mem_cons_self)
      rw [List.getLast?_cons_cons] at hr
      rw [List.cons_append, lines, ih hline hr, if_neg hc.symm, if_neg (by simp [hd])]
      rfl

end Text

namespace Directory

theorem node?_insert {d : Directory} {place : List Text} (hplace : isAround place = false)
    (node : Node) (other : List Text) :
    node? other ⟨d.nodes.insert place node⟩
      = if place = other then some node else d.node? other := by
  unfold node?
  rw [Table.get?_insert]
  by_cases h : place = other
  · subst h
    simp [hplace]
  · simp [h]

theorem isAround_of_file {d : Directory} {place : List Text} {bytes : Bytes}
    (h : d.node? place = some (.file bytes)) : isAround place = false := by
  unfold node? at h
  split at h
  · cases h
  · next hplace => simpa using hplace

/-- Ways are found over folders, so what a file holds does not matter. -/
theorem follow_insert {d : Directory} {place : List Text} {old : Bytes}
    (h : d.node? place = some (.file old)) (bytes : Bytes) (start names : List Text) :
    follow ⟨d.nodes.insert place (.file bytes)⟩ start names = d.follow start names := by
  induction names generalizing start with
  | nil => rfl
  | cons name rest ih =>
    rw [follow, follow, node?_insert (isAround_of_file h)]
    by_cases hstart : place = start
    · subst hstart
      rw [if_pos rfl, h]
    · rw [if_neg hstart]
      simp only [ih]

theorem locate_insert {d : Directory} {place : List Text} {old : Bytes}
    (h : d.node? place = some (.file old)) (bytes : Bytes) (path : Text) :
    locate ⟨d.nodes.insert place (.file bytes)⟩ path = d.locate path := by
  unfold locate
  simp only [follow_insert h]

theorem readBytes_eq_ok {d : Directory} {path : Text} {bytes : Bytes}
    (h : d.readBytes path = .ok bytes) :
    ∃ place, d.locate path = .ok place ∧ d.node? place = some (.file bytes) ∧
      endsInSlash path = false := by
  unfold readBytes at h
  split at h
  · cases h
  · next place hplace =>
    refine ⟨place, hplace, ?_⟩
    split at h
    · cases h
    · cases h
    · next old hnode =>
      split at h
      · cases h
      · next hslash =>
        cases h
        exact ⟨hnode, by simpa using hslash⟩

/-- What is added to a file that can be read stands behind what it held. -/
theorem appendBytes_of_readBytes {d : Directory} {path : Text} {old : Bytes}
    (h : d.readBytes path = .ok old) (added : Bytes) :
    ∃ d', d.appendBytes path added = (.ok (), d') ∧ d'.readBytes path = .ok (old ++ added) := by
  obtain ⟨place, hplace, hnode, hslash⟩ := readBytes_eq_ok h
  refine ⟨⟨d.nodes.insert place (.file (old ++ added))⟩, ?_, ?_⟩
  · simp only [appendBytes, hplace, hslash, hnode, Bool.false_eq_true, if_false]
  · simp only [readBytes, locate_insert hnode, hplace, node?_insert (isAround_of_file hnode),
      if_true, hslash, Bool.false_eq_true, if_false]

theorem appendBytes_of_error {d d' : Directory} {path : Text} {added : Bytes} {fault : PathFault}
    (h : d.appendBytes path added = (.error fault, d')) : d' = d := by
  unfold appendBytes at h
  split at h
  · cases h
    rfl
  · split at h
    · cases h
      rfl
    · split at h
      · cases h
        rfl
      · cases h
      · cases h

theorem readText_eq_ok {d : Directory} {path text : Text} (h : d.readText path = .ok text) :
    ∃ bytes, d.readBytes path = .ok bytes ∧ Utf8.decode? bytes = some text := by
  unfold readText at h
  split at h
  · cases h
  · next bytes hbytes =>
    refine ⟨bytes, hbytes, ?_⟩
    unfold textOf at h
    split at h
    · next text' htext =>
      cases h
      exact htext
    · cases h

theorem readText_of_readBytes {d : Directory} {path text : Text} {bytes : Bytes}
    (h : d.readBytes path = .ok bytes) (htext : Utf8.decode? bytes = some text) :
    d.readText path = .ok text := by
  simp only [readText, h, textOf, htext]

end Directory
end BenchScript
