import BenchScript.Text.Basic

set_option autoImplicit false

namespace BenchScript.Text

variable {separator text before after rest : Text} {c : Char}

structure IsFirstCut (separator text before after : Text) : Prop where
  eq : text = before ++ separator ++ after
  first : ∀ before' after', text = before' ++ separator ++ after' → before.length ≤ before'.length

theorem splitOnce_eq_none_iff : splitOnce separator text = none ↔ ¬ separator <:+: text := by
  induction text with
  | nil => cases separator <;> simp [splitOnce]
  | cons c rest ih =>
    rw [splitOnce]
    split
    · next hprefix =>
      have hstart := List.isPrefixOf_iff_prefix.1 hprefix
      simp [List.infix_cons_iff, hstart]
    · next hprefix =>
      rw [List.isPrefixOf_iff_prefix] at hprefix
      simp [List.infix_cons_iff, hprefix, ih]

theorem isFirstCut_of_splitOnce (h : splitOnce separator text = some (before, after)) :
    IsFirstCut separator text before after := by
  refine ⟨splitOnce_eq h, ?_⟩
  induction text generalizing before with
  | nil =>
    intro before' after' hcut
    have heq := congrArg List.length (splitOnce_eq h)
    simp only [List.length_append, List.length_nil] at heq
    omega
  | cons c rest ih =>
    intro before' after' hcut
    rw [splitOnce] at h
    split at h
    · cases h
      exact Nat.zero_le _
    · next hprefix =>
      obtain ⟨⟨before₁, after₁⟩, hrest, hpair⟩ := Option.map_eq_some_iff.1 h
      obtain ⟨rfl, rfl⟩ := Prod.mk.inj hpair
      cases before' with
      | nil => exact absurd (List.isPrefixOf_iff_prefix.2 ⟨after', hcut.symm⟩) hprefix
      | cons d before' =>
        exact Nat.succ_le_succ (ih hrest before' after' (List.cons.inj hcut).2)

theorem splitOnce_eq_some_iff :
    splitOnce separator text = some (before, after) ↔ IsFirstCut separator text before after := by
  refine ⟨isFirstCut_of_splitOnce, fun h => ?_⟩
  cases hcut : splitOnce separator text with
  | none => exact absurd ⟨before, after, h.eq.symm⟩ (splitOnce_eq_none_iff.1 hcut)
  | some cut =>
    obtain ⟨before', after'⟩ := cut
    have h' := isFirstCut_of_splitOnce hcut
    have hlength : before.length = before'.length :=
      Nat.le_antisymm (h.first _ _ h'.eq) (h'.first _ _ h.eq)
    have hsame := h.eq.symm.trans h'.eq
    rw [List.append_assoc, List.append_assoc] at hsame
    obtain ⟨rfl, hafter⟩ := List.append_inj hsame hlength
    rw [List.append_cancel_left hafter]

/-- What stands in front of the first separator has none. -/
theorem IsFirstCut.not_isInfix (h : IsFirstCut separator text before after)
    (hne : separator ≠ []) : ¬ separator <:+: before := by
  rintro ⟨front, back, hbefore⟩
  have hfirst := h.first front (back ++ separator ++ after) (by simp [h.eq, ← hbefore])
  have hlength := congrArg List.length hbefore
  have hpos := List.length_pos_iff.2 hne
  simp only [List.length_append] at hlength
  omega

theorem splitOnce_separator (separator rest : Text) :
    splitOnce separator (separator ++ rest) = some ([], rest) := by
  cases separator with
  | nil => cases rest <;> simp [splitOnce]
  | cons c separator => simp [splitOnce]

theorem splitOnce_singleton (h : c ∉ before) (rest : Text) :
    splitOnce [c] (before ++ c :: rest) = some (before, rest) := by
  induction before with
  | nil => exact splitOnce_separator [c] rest
  | cons d before ih =>
    have hne : c ≠ d := List.ne_of_not_mem_cons h
    rw [List.cons_append, splitOnce, if_neg (by simpa using hne),
      ih (List.not_mem_of_not_mem_cons h)]
    rfl

theorem isPrefix_of_append_cons (hc : c ∉ separator) (h : separator <+: before ++ c :: rest) :
    separator <+: before := by
  have hfront : before ++ [c] <+: before ++ c :: rest := ⟨rest, by simp⟩
  rcases List.prefix_or_prefix_of_prefix h hfront with hshort | hlong
  · rcases List.prefix_concat_iff.1 hshort with heq | hprefix
    · exact absurd (by simp [heq]) hc
    · exact hprefix
  · exact absurd (hlong.subset (by simp)) hc

theorem splitOnce_append_cons (hbefore : ¬ separator <:+: before) (hc : c ∉ separator)
    (rest : Text) :
    splitOnce separator (before ++ c :: rest)
      = (splitOnce separator rest).map fun cut => (before ++ c :: cut.1, cut.2) := by
  induction before with
  | nil =>
    have hprefix : ¬ separator.isPrefixOf (c :: rest) = true := fun h =>
      hbefore (isPrefix_of_append_cons hc (List.isPrefixOf_iff_prefix.1 h)).isInfix
    rw [List.nil_append, splitOnce, if_neg hprefix]
    rfl
  | cons d before ih =>
    have hprefix : ¬ separator.isPrefixOf (d :: (before ++ c :: rest)) = true := fun h =>
      hbefore (isPrefix_of_append_cons hc (List.isPrefixOf_iff_prefix.1 h)).isInfix
    rw [List.cons_append, splitOnce, if_neg hprefix,
      ih fun h => hbefore (h.trans (List.suffix_cons d before).isInfix), Option.map_map]
    rfl

theorem not_isInfix_append_cons (hbefore : ¬ separator <:+: before) (hc : c ∉ separator)
    (hrest : ¬ separator <:+: rest) : ¬ separator <:+: before ++ c :: rest := by
  rw [← splitOnce_eq_none_iff, splitOnce_append_cons hbefore hc, splitOnce_eq_none_iff.2 hrest]
  rfl

end BenchScript.Text
