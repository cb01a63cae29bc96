import BenchScript.Text.Blank

set_option autoImplicit false

namespace BenchScript.Text

variable {text : Text} {c : Char}

structure Trimmed (text : Text) : Prop where
  head : ∀ c, text.head? = some c → isBlank c = false
  last : ∀ c, text.getLast? = some c → isBlank c = false

theorem isBlank_of_head?_dropWhile (h : (text.dropWhile isBlank).head? = some c) :
    isBlank c = false := by
  have hhead := List.head?_dropWhile_not isBlank text
  rwa [h] at hhead

theorem isInfix_trim (text : Text) : trim text <:+: text := by
  have hend : trimEnd (trimStart text) <+: trimStart text := by
    rw [← List.reverse_suffix, trimEnd, dropTrailing, List.reverse_reverse]
    exact List.dropWhile_suffix isBlank
  exact hend.isInfix.trans (List.dropWhile_suffix isBlank).isInfix

theorem mem_of_mem_trim (h : c ∈ trim text) : c ∈ text := (isInfix_trim text).subset h

theorem trimEnd_cons (c : Char) (rest : Text) :
    trimEnd (c :: rest)
      = if trimEnd rest = [] ∧ isBlank c = true then [] else c :: trimEnd rest := by
  unfold trimEnd dropTrailing
  rw [List.reverse_cons, List.dropWhile_append]
  cases hrest : rest.reverse.dropWhile isBlank with
  | nil => cases hc : isBlank c <;> simp [hc]
  | cons d more => simp

theorem trimEnd_cons_of_not_blank (h : isBlank c = false) (rest : Text) :
    trimEnd (c :: rest) = c :: trimEnd rest := by
  rw [trimEnd_cons, if_neg (by simp [h])]

theorem head?_trimEnd (h : isBlank c = false) (rest : Text) :
    (trimEnd (c :: rest)).head? = some c := by
  rw [trimEnd_cons_of_not_blank h]
  rfl

theorem isBlank_of_head?_trim (h : (trim text).head? = some c) : isBlank c = false := by
  unfold trim at h
  cases hcut : trimStart text with
  | nil =>
    rw [hcut] at h
    cases h
  | cons d rest =>
    have hstart : isBlank d = false := isBlank_of_head?_dropWhile (congrArg List.head? hcut)
    rw [hcut, head?_trimEnd hstart, Option.some.injEq] at h
    rwa [← h]

theorem trimmed_trim (text : Text) : Trimmed (trim text) := by
  refine ⟨fun c => isBlank_of_head?_trim, fun c h => ?_⟩
  unfold trim trimEnd dropTrailing at h
  rw [List.getLast?_reverse] at h
  exact isBlank_of_head?_dropWhile h

theorem trimmed_nil : Trimmed [] := trimmed_trim []

theorem dropWhile_isBlank (h : ∀ c, text.head? = some c → isBlank c = false) :
    text.dropWhile isBlank = text := by
  cases text with
  | nil => rfl
  | cons c rest => exact List.dropWhile_cons_of_neg (by simp [h c rfl])

theorem Trimmed.trim_eq (h : Trimmed text) : trim text = text := by
  have hback : text.reverse.dropWhile isBlank = text.reverse :=
    dropWhile_isBlank fun c hc => h.last c (by rwa [List.head?_reverse] at hc)
  unfold trim trimEnd dropTrailing trimStart
  rw [dropWhile_isBlank h.head, hback, List.reverse_reverse]

/-- Whatever stands between two texts, the ends are theirs. -/
theorem Trimmed.enclose {text' : Text} (h : Trimmed text) (hne : text ≠ []) (h' : Trimmed text')
    (hne' : text' ≠ []) (between : Text) : Trimmed (text ++ (between ++ text')) := by
  obtain ⟨first, rest, rfl⟩ := List.exists_cons_of_ne_nil hne
  obtain ⟨last, hlast⟩ := Option.ne_none_iff_exists'.1 (mt List.getLast?_eq_none_iff.1 hne')
  refine ⟨fun c hc => h.head c hc, fun c hc => h'.last c ?_⟩
  simpa only [List.getLast?_append, hlast, Option.some_or] using hc

theorem trim_cons_of_blank (hc : isBlank c = true) (text : Text) : trim (c :: text) = trim text := by
  rw [trim, trimStart, List.dropWhile_cons_of_pos hc]
  rfl

theorem trim_cons_of_not_blank (hc : isBlank c = false) (text : Text) :
    trim (c :: text) = c :: trimEnd text := by
  rw [trim, trimStart, List.dropWhile_cons_of_neg (by simp [hc]), trimEnd_cons_of_not_blank hc]

theorem trimEnd_trimEnd (text : Text) : trimEnd (trimEnd text) = trimEnd text := by
  unfold trimEnd dropTrailing
  rw [List.reverse_reverse, dropWhile_isBlank fun c => isBlank_of_head?_dropWhile]

/-- Blanks at the end make no difference to trimming. -/
theorem trim_trimEnd (text : Text) : trim (trimEnd text) = trim text := by
  induction text with
  | nil => rfl
  | cons c rest ih =>
    cases hc : isBlank c with
    | true =>
      rw [trim_cons_of_blank hc, ← ih, trimEnd_cons]
      split
      · next hnone => rw [hnone.1]
      · rw [trim_cons_of_blank hc]
    | false =>
      rw [trimEnd_cons_of_not_blank hc, trim_cons_of_not_blank hc, trim_cons_of_not_blank hc,
        trimEnd_trimEnd]

theorem count_trim (hc : isBlank c = false) (text : Text) :
    (trim text).count c = text.count c := by
  have hdrop : ∀ part : Text, (part.dropWhile isBlank).count c = part.count c := by
    intro part
    induction part with
    | nil => rfl
    | cons d rest ih =>
      rw [List.dropWhile_cons]
      split
      · next hblank =>
        have hne : d ≠ c := by
          rintro rfl
          rw [hc] at hblank
          cases hblank
        rw [ih, List.count_cons_of_ne hne]
      · rfl
  unfold trim trimEnd dropTrailing trimStart
  rw [List.count_reverse, hdrop, List.count_reverse, hdrop]

theorem Trimmed.trim_append_blank (h : Trimmed text) (hne : text ≠ []) (hc : isBlank c = true) :
    trim (text ++ [c]) = text := by
  have hfront : (text ++ [c]).dropWhile isBlank = text ++ [c] := by
    obtain ⟨first, rest, rfl⟩ := List.exists_cons_of_ne_nil hne
    exact dropWhile_isBlank h.head
  have hback : text.reverse.dropWhile isBlank = text.reverse :=
    dropWhile_isBlank fun d hd => h.last d (by rwa [List.head?_reverse] at hd)
  rw [trim, trimStart, hfront, trimEnd, dropTrailing, List.reverse_append, List.reverse_singleton,
    List.singleton_append, List.dropWhile_cons_of_pos hc, hback, List.reverse_reverse]

theorem Trimmed.map {f : Char → Char} (hf : ∀ c, isBlank (f c) = isBlank c) (h : Trimmed text) :
    Trimmed (text.map f) := by
  constructor
  · intro c hc
    rw [List.head?_map] at hc
    obtain ⟨d, hd, rfl⟩ := Option.map_eq_some_iff.1 hc
    rw [hf, h.head d hd]
  · intro c hc
    rw [List.getLast?_map] at hc
    obtain ⟨d, hd, rfl⟩ := Option.map_eq_some_iff.1 hc
    rw [hf, h.last d hd]

/-- Trimming takes away nothing but spaces if a text has no other blanks. -/
theorem filter_trim {text : Text} (h : ∀ c ∈ text, c ≠ ' ' → isBlank c = false) :
    (trim text).filter (· != ' ') = text.filter (· != ' ') := by
  -- For parts of the text, because it serves the text and its mirror image.
  have hdrop : ∀ part : Text, (∀ c ∈ part, c ∈ text) →
      (part.dropWhile isBlank).filter (· != ' ') = part.filter (· != ' ') := by
    intro part hpart
    induction part with
    | nil => rfl
    | cons c rest ih =>
      rw [List.dropWhile_cons]
      split
      · next hblank =>
        have hspace : c = ' ' := by
          refine Classical.not_not.1 fun hne => ?_
          rw [h c (hpart c List.mem_cons_self) hne] at hblank
          cases hblank
        rw [ih fun d hd => hpart d (List.mem_cons_of_mem _ hd), hspace]
        rfl
      · rfl
  unfold trim trimEnd dropTrailing
  rw [List.filter_reverse, hdrop, List.filter_reverse, List.reverse_reverse]
  · exact hdrop text fun _ hc => hc
  · intro c hc
    exact (List.dropWhile_sublist _).subset (List.mem_reverse.1 hc)

end BenchScript.Text
