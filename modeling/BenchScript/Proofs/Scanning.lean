import BenchScript.Yaml.Token

set_option autoImplicit false

namespace BenchScript.Yaml

variable {letters rest : List Letter} {reading : Reading}

theorem suffix_dropBlanks (letters : List Letter) : dropBlanks letters <:+ letters :=
  List.dropWhile_suffix _

theorem suffix_takeName (letters : List Letter) : (takeName letters).2 <:+ letters :=
  List.dropWhile_suffix _

theorem suffix_afterLine (h : afterLine letters = some rest) : rest <:+ letters := by
  have hbehind : (if startsWith '#' (dropBlanks letters) then
      (dropBlanks letters).dropWhile fun letter => !isBreak letter.char
      else dropBlanks letters) <:+ letters := by
    split
    · exact (List.dropWhile_suffix _).trans (suffix_dropBlanks letters)
    · exact suffix_dropBlanks letters
  unfold afterLine at h
  simp only at h
  split at h
  · cases h
    exact List.nil_suffix
  · next heq =>
    rw [heq] at hbehind
    split at h
    · cases h
      exact (List.suffix_cons _ _).trans hbehind
    · cases h

theorem suffix_dropGap (inFlow keyAllowed inComment : Bool) (letters : List Letter) :
    (Cut.dropGap inFlow keyAllowed inComment letters).2 <:+ letters := by
  fun_induction Cut.dropGap inFlow keyAllowed inComment letters with
  | case1 | case7 => exact List.suffix_refl _
  | case2 | case3 | case4 | case5 | case6 =>
    next ih => exact ih.trans (List.suffix_cons _ _)

theorem exists_of_map_after {front : Text} {read : Option Reading}
    (h : read.map (Reading.after front) = some reading) :
    ∃ later, read = some later ∧ reading.rest = later.rest := by
  cases read with
  | none => cases h
  | some later =>
    cases h
    exact ⟨later, rfl, rfl⟩

theorem suffix_plainFrom {floor : Nat} {inFlow : Bool} {gap : Gap}
    (h : plainFrom floor inFlow gap letters = some reading) : reading.rest <:+ letters := by
  fun_induction plainFrom floor inFlow gap letters generalizing reading with
  | case1 =>
    cases h
    exact List.nil_suffix
  | case2 | case6 => cases h
  | case3 | case4 =>
    next ih => exact (ih h).trans (List.suffix_cons _ _)
  | case5 | case7 =>
    cases h
    exact List.suffix_refl _
  | @case8 _ letter rest _ _ _ _ _ _ ih =>
    obtain ⟨later, hlater, hrest⟩ := exists_of_map_after h
    rw [hrest]
    exact (ih hlater).trans (List.suffix_cons letter rest)

theorem suffix_quotedFrom {quote : Char} {gap : Gap}
    (h : quotedFrom quote gap letters = some reading) : reading.rest <:+ letters := by
  -- All ways on leave a suffix; they differ in how many letters are taken at once.
  fun_induction quotedFrom quote gap letters generalizing reading with
  | case1 | case2 | case7 | case11 => cases h
  | case3 | case4 =>
    next ih => exact (ih h).trans (List.suffix_cons _ _)
  | @case6 _ letter rest =>
    cases h
    exact List.suffix_cons letter rest
  | @case5 _ letter rest _ _ _ _ _ _ ih =>
    obtain ⟨later, hlater, hrest⟩ := exists_of_map_after h
    rw [hrest]
    exact ((ih hlater).trans (List.drop_suffix 1 rest)).trans (List.suffix_cons letter rest)
  | @case8 _ letter _ _ _ _ _ escape rest _ _ ih
  | @case9 _ letter _ _ _ _ _ escape rest _ _ _ _ ih =>
    obtain ⟨later, hlater, hrest⟩ := exists_of_map_after h
    rw [hrest]
    exact ((ih hlater).trans (List.suffix_cons escape rest)).trans (List.suffix_cons letter _)
  | @case10 _ letter _ _ _ _ _ escape rest _ count _ _ _ ih =>
    obtain ⟨d, -, hd⟩ := Option.bind_eq_some_iff.1 h
    obtain ⟨later, hlater, hrest⟩ := exists_of_map_after hd
    rw [hrest]
    exact (((ih hlater).trans (List.drop_suffix count rest)).trans
      (List.suffix_cons escape rest)).trans (List.suffix_cons letter _)
  | @case12 _ letter rest _ _ _ _ _ _ ih =>
    obtain ⟨later, hlater, hrest⟩ := exists_of_map_after h
    rw [hrest]
    exact (ih hlater).trans (List.suffix_cons letter rest)

theorem suffix_chomping? (letters : List Letter) : (chomping? letters).2 <:+ letters := by
  unfold chomping?
  split
  · exact List.suffix_refl _
  · next letter rest =>
    split
    · exact List.suffix_cons letter rest
    · split
      · exact List.suffix_cons letter rest
      · exact List.suffix_refl _

theorem suffix_indentation? {digit : Option Nat} (h : indentation? letters = some (digit, rest)) :
    rest <:+ letters := by
  unfold indentation? at h
  split at h
  · cases h
    exact List.suffix_refl _
  · next letter behind =>
    split at h
    · cases h
    · split at h
      · cases h
        exact List.suffix_cons letter rest
      · cases h
        exact List.suffix_refl _

theorem suffix_blockHeader {chomping : Chomping} {digit : Option Nat}
    (h : blockHeader letters = some (chomping, digit, rest)) : rest <:+ letters := by
  unfold blockHeader at h
  obtain ⟨⟨digit', behind⟩, hdigit, h⟩ := Option.bind_eq_some_iff.1 h
  have hbehind : (if (chomping? letters).1.isNone && digit'.isSome then chomping? behind
      else ((chomping? letters).1, behind)).2 <:+ letters := by
    have hsuffix := (suffix_indentation? hdigit).trans (suffix_chomping? letters)
    split
    · exact (suffix_chomping? behind).trans hsuffix
    · exact hsuffix
  obtain ⟨after, hafter, h⟩ := Option.bind_eq_some_iff.1 h
  cases h
  exact (suffix_afterLine hafter).trans hbehind

theorem suffix_emptyLines {width : Option Nat} {lineEnds lineEnds' : Text} {widest widest' : Nat}
    (h : emptyLines width lineEnds widest letters = some (lineEnds', widest', rest)) :
    rest <:+ letters := by
  fun_induction emptyLines width lineEnds widest letters with
  | case1 =>
    cases h
    exact List.suffix_refl _
  | case2 | case3 =>
    next ih => exact (ih h).trans (List.suffix_cons _ _)
  | case4 => cases h
  | case5 =>
    cases h
    exact List.suffix_refl _

theorem suffix_blockFrom {style : Style} {chomping : Chomping} {width : Nat} {place : BlockPlace}
    (h : blockFrom style chomping width place letters = some reading) :
    reading.rest <:+ letters := by
  fun_induction blockFrom style chomping width place letters generalizing reading with
  | case1 | case4 | case8 =>
    cases h
    exact List.suffix_refl _
  | case7 => cases h
  | case2 | case5 | case6 =>
    next ih => exact (ih h).trans (List.suffix_cons _ _)
  | case3 | case9 =>
    next ih =>
      obtain ⟨later, hlater, hrest⟩ := exists_of_map_after h
      rw [hrest]
      exact (ih hlater).trans (List.suffix_cons _ _)

theorem suffix_blockScalar {style : Style} {floor : Nat}
    (h : blockScalar style floor letters = some reading) : reading.rest <:+ letters := by
  unfold blockScalar at h
  obtain ⟨⟨chomping, digit, behind⟩, hheader, h⟩ := Option.bind_eq_some_iff.1 h
  obtain ⟨⟨lineEnds, widest, lines⟩, hempty, h⟩ := Option.bind_eq_some_iff.1 h
  exact ((suffix_blockFrom h).trans (suffix_emptyLines hempty)).trans (suffix_blockHeader hheader)

theorem suffix_takeAddress {wide : Bool} {missing : Nat} {octets : Tag}
    (h : takeAddress wide missing letters = some (octets, rest)) : rest <:+ letters := by
  fun_induction takeAddress wide missing letters generalizing octets rest with
  | case1 =>
    cases h
    exact List.suffix_refl _
  | case2 => cases h
  | @case3 _ letter _ high low behind ih =>
    obtain ⟨first, -, h⟩ := Option.bind_eq_some_iff.1 h
    obtain ⟨second, -, h⟩ := Option.bind_eq_some_iff.1 h
    have hbehind : behind <:+ letter :: high :: low :: behind := ⟨[letter, high, low], rfl⟩
    -- However many octets are missing now, the rest of the address is read from there.
    have hread : ∀ (octet : UInt8) (missing : Nat),
        ((takeAddress wide missing behind).bind fun read => some (octet :: read.1, read.2))
          = some (octets, rest) → rest <:+ letter :: high :: low :: behind := by
      intro octet missing hbind
      obtain ⟨⟨octets', rest'⟩, htake, hread⟩ := Option.bind_eq_some_iff.1 hbind
      cases hread
      exact (ih missing htake).trans hbehind
    simp only at h
    split at h
    · obtain ⟨missing, -, h⟩ := Option.bind_eq_some_iff.1 h
      exact hread _ missing h
    · split at h
      · exact hread _ _ h
      · cases h
  | case4 | case5 => cases h
  | @case6 _ letter behind _ _ _ ih =>
    obtain ⟨⟨octets', rest'⟩, htake, hread⟩ := Option.bind_eq_some_iff.1 h
    cases hread
    exact (ih htake).trans (List.suffix_cons letter behind)
  | case7 =>
    cases h
    exact List.suffix_refl _

theorem suffix_address {wide : Bool} {octets : Tag}
    (h : address wide letters = some (octets, rest)) : rest <:+ letters := by
  unfold address at h
  obtain ⟨⟨octets', behind⟩, htake, h⟩ := Option.bind_eq_some_iff.1 h
  simp only at h
  split at h
  · cases h
  · cases h
    exact suffix_takeAddress htake

theorem suffix_tagName {name : TagName} (h : tagName letters = some (name, rest)) :
    rest <:+ letters := by
  unfold tagName at h
  split at h
  · obtain ⟨⟨suffix, behind⟩, haddress, h⟩ := Option.bind_eq_some_iff.1 h
    simp only at h
    split at h
    · cases h
      exact ((List.drop_suffix 1 behind).trans (suffix_address haddress)).trans
        (List.drop_suffix 1 letters)
    · cases h
  · simp only at h
    split at h
    · obtain ⟨⟨suffix, behind⟩, haddress, h⟩ := Option.bind_eq_some_iff.1 h
      cases h
      exact ((suffix_address haddress).trans (List.drop_suffix 1 _)).trans
        (suffix_takeName letters)
    · obtain ⟨⟨octets, behind⟩, haddress, h⟩ := Option.bind_eq_some_iff.1 h
      cases h
      exact (suffix_takeAddress haddress).trans (suffix_takeName letters)

theorem suffix_tagBefore {inFlow : Bool} {name : TagName}
    (h : tagBefore inFlow letters = some (name, rest)) : rest <:+ letters := by
  unfold tagBefore at h
  obtain ⟨⟨name', behind⟩, hname, h⟩ := Option.bind_eq_some_iff.1 h
  simp only at h
  split at h
  · cases h
    exact suffix_tagName hname
  · cases h

theorem suffix_versionNumber {n : Nat} (h : versionNumber letters = some (n, rest)) :
    rest <:+ letters := by
  unfold versionNumber at h
  simp only at h
  split at h
  · cases h
  · cases h
    exact List.drop_suffix _ letters

theorem suffix_handleName {name : Text} (h : handleName letters = some (name, rest)) :
    rest <:+ letters := by
  have hname := (suffix_takeName (letters.drop 1)).trans (List.drop_suffix 1 letters)
  unfold handleName at h
  split at h
  · simp only at h
    split at h
    · cases h
      exact (List.drop_suffix 1 _).trans hname
    · split at h
      · cases h
        exact hname
      · cases h
  · cases h

theorem suffix_directive {line : Directive} (h : directive letters = some (line, rest)) :
    rest <:+ letters := by
  unfold directive at h
  simp only at h
  split at h
  · cases h
  · split at h
    · obtain ⟨⟨major, afterMajor⟩, hmajor, h⟩ := Option.bind_eq_some_iff.1 h
      simp only at h
      split at h
      · obtain ⟨⟨minor, afterMinor⟩, hminor, h⟩ := Option.bind_eq_some_iff.1 h
        obtain ⟨below, hbelow, h⟩ := Option.bind_eq_some_iff.1 h
        cases h
        exact ((((suffix_afterLine hbelow).trans (suffix_versionNumber hminor)).trans
          (List.drop_suffix 1 afterMajor)).trans (suffix_versionNumber hmajor)).trans
            ((suffix_dropBlanks _).trans (suffix_takeName letters))
      · cases h
    · split at h
      · obtain ⟨⟨handle, afterHandle⟩, hhandle, h⟩ := Option.bind_eq_some_iff.1 h
        simp only at h
        split at h
        · obtain ⟨⟨meaning, afterMeaning⟩, hmeaning, h⟩ := Option.bind_eq_some_iff.1 h
          simp only at h
          split at h
          · obtain ⟨below, hbelow, h⟩ := Option.bind_eq_some_iff.1 h
            cases h
            exact ((((suffix_afterLine hbelow).trans (suffix_address hmeaning)).trans
              (suffix_dropBlanks afterHandle)).trans (suffix_handleName hhandle)).trans
                ((suffix_dropBlanks _).trans (suffix_takeName letters))
          · cases h
        · cases h
      · cases h

namespace Cut

variable {letter : Letter} {cut after : Cut}

theorem rest_of_map_goOn {before : Option Cut} {token : Token} {keyAllowed : Bool}
    (h : before.map (goOn token keyAllowed rest) = some after) : after.rest = rest := by
  cases before with
  | none => cases h
  | some before =>
    cases h
    rfl

theorem rest_of_takeMark {token : Token} (h : cut.takeMark token rest = some after) :
    after.rest = rest :=
  rest_of_map_goOn h

theorem rest_of_takeOpening {token : Token} (h : cut.takeOpening token letter rest = some after) :
    after.rest = rest := by
  obtain ⟨offered, -, hafter⟩ := Option.map_eq_some_iff.1 h
  rw [← hafter]
  rfl

theorem rest_of_takeClosing {token : Token} (h : cut.takeClosing token rest = some after) :
    after.rest = rest := by
  obtain ⟨dropped, -, hafter⟩ := Option.map_eq_some_iff.1 h
  rw [← hafter]
  rfl

theorem rest_of_takeIndicator {border token : Token} {keyAllowed : Bool}
    (h : cut.takeIndicator border token keyAllowed letter rest = some after) :
    after.rest = rest := by
  unfold takeIndicator at h
  split at h
  · exact rest_of_map_goOn h
  · cases h

theorem rest_of_takeColon (h : cut.takeColon letter rest = some after) : after.rest = rest := by
  unfold takeColon at h
  split at h
  · cases h
    rfl
  · split at h
    · cases h
      rfl
    · split at h
      · cases h
        rfl
      · cases h

theorem suffix_takeReference {token : Text → Token}
    (h : cut.takeReference token letter rest = some after) : after.rest <:+ rest := by
  unfold takeReference at h
  simp only at h
  split at h
  · rw [rest_of_map_goOn h]
    exact suffix_takeName rest
  · cases h

theorem suffix_takeScalar {style : Style} {read : Option Reading}
    (hread : ∀ reading, read = some reading → reading.rest <:+ rest)
    (h : cut.takeScalar style letter read = some after) : after.rest <:+ rest := by
  obtain ⟨reading, hreading, h⟩ := Option.bind_eq_some_iff.1 h
  rw [rest_of_map_goOn h]
  exact hread reading hreading

theorem suffix_takeBlock {style : Style} (h : cut.takeBlock style rest = some after) :
    after.rest <:+ rest := by
  obtain ⟨reading, hreading, h⟩ := Option.bind_eq_some_iff.1 h
  rw [rest_of_map_goOn h]
  exact suffix_blockScalar hreading

/-- A letter that may begin a plain scalar is none of those that end one. -/
theorem of_startsPlain {inFlow : Bool} (h : startsPlain inFlow letter rest = true) :
    isBlank letter.char = false ∧ isBreak letter.char = false ∧
      (letter.char = ':' → inFlow = false ∧ endsWord rest = false) ∧
      (inFlow = true → isFlowSign letter.char = false) := by
  simp only [startsPlain, Bool.or_eq_true, Bool.and_eq_true, Bool.not_eq_true',
    Bool.or_eq_false_iff, beq_iff_eq] at h
  rcases h with ⟨⟨hindicator, hblank⟩, hbreak⟩ | ⟨hword, hdash | ⟨hflow, hmark | hcolon⟩⟩
  · simp only [isIndicator, Bool.or_eq_false_iff] at hindicator
    refine ⟨hblank, hbreak, fun hcolon => ?_, fun _ => hindicator.1.1⟩
    rw [hcolon] at hindicator
    exact absurd hindicator.1.2 (by decide)
  · rw [hdash]
    exact ⟨by decide, by decide, fun hcolon => absurd hcolon (by decide), fun _ => by decide⟩
  · rw [hmark]
    exact ⟨by decide, by decide, fun hcolon => absurd hcolon (by decide), fun _ => by decide⟩
  · rw [hcolon]
    exact ⟨by decide, by decide, fun _ => ⟨hflow, hword⟩, fun _ => by decide⟩

/-- A letter that may begin a plain scalar belongs to it. -/
theorem plainFrom_of_startsPlain {floor : Nat} {inFlow : Bool}
    (h : startsPlain inFlow letter rest = true) :
    plainFrom floor inFlow .empty (letter :: rest)
      = (plainFrom floor inFlow .empty rest).map (Reading.after [letter.char]) := by
  obtain ⟨hblank, hbreak, hcolon, hsign⟩ := of_startsPlain h
  have hrefused : (inFlow && letter.char == ':') = false := by
    by_cases hc : letter.char = ':'
    · rw [(hcolon hc).1, Bool.false_and]
    · rw [beq_eq_false_iff_ne.2 hc, Bool.and_false]
  have hword : (letter.char == ':' && endsWord rest) = false := by
    by_cases hc : letter.char = ':'
    · rw [(hcolon hc).2, Bool.and_false]
    · rw [beq_eq_false_iff_ne.2 hc, Bool.false_and]
  have hflow : (inFlow && isFlowSign letter.char) = false := by
    cases inFlow with
    | false => rfl
    | true => rw [hsign rfl, Bool.and_false]
  rw [plainFrom]
  simp [hblank, hbreak, hrefused, hword, hflow, Gap.text, Gap.empty]

theorem suffix_plainFrom_of_startsPlain {floor : Nat} {inFlow : Bool}
    (hstarts : startsPlain inFlow letter rest = true)
    (h : plainFrom floor inFlow .empty (letter :: rest) = some reading) :
    reading.rest <:+ rest := by
  rw [plainFrom_of_startsPlain hstarts] at h
  obtain ⟨later, hlater, hrest⟩ := exists_of_map_after h
  rw [hrest]
  exact suffix_plainFrom hlater

theorem suffix_of_rest {behind : List Letter} (h : after.rest = behind) (hrest : behind <:+ rest) :
    after.rest <:+ rest := by
  rw [h]
  exact hrest

theorem eq_some_of_ite {p : Prop} [Decidable p] {taken passed : Option Cut}
    (h : (if p then taken else passed) = some after) :
    p ∧ taken = some after ∨ ¬ p ∧ passed = some after := by
  by_cases hp : p
  · rw [if_pos hp] at h
    exact Or.inl ⟨hp, h⟩
  · rw [if_neg hp] at h
    exact Or.inr ⟨hp, h⟩

theorem suffix_takeToken (h : cut.takeToken letter rest = some after) : after.rest <:+ rest := by
  rcases eq_some_of_ite h with ⟨-, h⟩ | ⟨-, h⟩
  · obtain ⟨⟨line, below⟩, hdirective, h⟩ := Option.bind_eq_some_iff.1 h
    exact suffix_of_rest (rest_of_takeMark h) (suffix_directive hdirective)
  rcases eq_some_of_ite h with ⟨-, h⟩ | ⟨-, h⟩
  · exact suffix_of_rest (rest_of_takeMark h) (List.drop_suffix 2 rest)
  rcases eq_some_of_ite h with ⟨-, h⟩ | ⟨-, h⟩
  · exact suffix_of_rest (rest_of_takeMark h) (List.drop_suffix 2 rest)
  rcases eq_some_of_ite h with ⟨-, h⟩ | ⟨-, h⟩
  · exact suffix_of_rest (rest_of_takeOpening h) List.suffix_rfl
  rcases eq_some_of_ite h with ⟨-, h⟩ | ⟨-, h⟩
  · exact suffix_of_rest (rest_of_takeOpening h) List.suffix_rfl
  rcases eq_some_of_ite h with ⟨-, h⟩ | ⟨-, h⟩
  · exact suffix_of_rest (rest_of_takeClosing h) List.suffix_rfl
  rcases eq_some_of_ite h with ⟨-, h⟩ | ⟨-, h⟩
  · exact suffix_of_rest (rest_of_takeClosing h) List.suffix_rfl
  rcases eq_some_of_ite h with ⟨-, h⟩ | ⟨-, h⟩
  · exact suffix_of_rest (rest_of_map_goOn h) List.suffix_rfl
  rcases eq_some_of_ite h with ⟨-, h⟩ | ⟨-, h⟩
  · exact suffix_of_rest (rest_of_takeIndicator h) List.suffix_rfl
  rcases eq_some_of_ite h with ⟨-, h⟩ | ⟨-, h⟩
  · exact suffix_of_rest (rest_of_takeIndicator h) List.suffix_rfl
  rcases eq_some_of_ite h with ⟨-, h⟩ | ⟨-, h⟩
  · exact suffix_of_rest (rest_of_takeColon h) List.suffix_rfl
  rcases eq_some_of_ite h with ⟨-, h⟩ | ⟨-, h⟩
  · exact suffix_takeReference h
  rcases eq_some_of_ite h with ⟨-, h⟩ | ⟨-, h⟩
  · exact suffix_takeReference h
  rcases eq_some_of_ite h with ⟨-, h⟩ | ⟨-, h⟩
  · obtain ⟨⟨name, behind⟩, htag, h⟩ := Option.bind_eq_some_iff.1 h
    exact suffix_of_rest (rest_of_map_goOn h) (suffix_tagBefore htag)
  rcases eq_some_of_ite h with ⟨-, h⟩ | ⟨-, h⟩
  · exact suffix_takeBlock h
  rcases eq_some_of_ite h with ⟨-, h⟩ | ⟨-, h⟩
  · exact suffix_takeBlock h
  rcases eq_some_of_ite h with ⟨-, h⟩ | ⟨-, h⟩
  · exact suffix_takeScalar (fun _ => suffix_quotedFrom) h
  rcases eq_some_of_ite h with ⟨hstarts, h⟩ | ⟨-, h⟩
  · exact suffix_takeScalar (fun _ => suffix_plainFrom_of_startsPlain hstarts) h
  · cases h

/-- Each turn uses letters up, so the number of turns never decides what comes of a cut. -/
theorem run_eq_run {n m : Nat} (cut : Cut) (hn : cut.rest.length < n) (hm : cut.rest.length < m) :
    run n cut = run m cut := by
  induction n generalizing m cut with
  | zero => omega
  | succ n ih =>
    obtain ⟨m, rfl⟩ : ∃ k, m = k + 1 := ⟨m - 1, by omega⟩
    have hgap := (suffix_dropGap cut.inFlow cut.keyAllowed false cut.rest).length_le
    unfold run
    generalize dropGap cut.inFlow cut.keyAllowed false cut.rest = gap at hgap
    obtain ⟨keyAllowed, rest⟩ := gap
    cases rest with
    | nil => rfl
    | cons letter rest =>
      simp only
      refine Option.bind_congr fun offered _ => Option.bind_congr fun after hafter => ?_
      -- A token takes its first letter at least, so fewer letters are left for fewer turns.
      have hrest := (suffix_takeToken hafter).length_le
      simp only [List.length_cons] at hgap
      exact ih after (by omega) (by omega)

end Cut

theorem length_lettersFrom_le (line column offset : Nat) (text : Text) :
    (lettersFrom line column offset text).length ≤ text.length := by
  fun_induction lettersFrom line column offset text with
  | case1 => exact Nat.le_refl _
  | case2 _ _ _ rest ih =>
    simp only [List.length_cons]
    omega
  | case3 _ _ _ _ _ _ _ ih ih' =>
    rw [List.length_cons, List.length_cons]
    split <;> omega

/-- The tokens of a text are what any number of turns gives that the letters cannot use up. -/
theorem tokensOf_eq (text : Text) {n : Nat} (h : text.length < n) :
    tokensOf text = (lettersOf text).bind fun letters =>
      (Cut.run n { rest := letters }).map fun cut => cut.tokens.reverse := by
  unfold tokensOf
  refine Option.bind_congr fun letters hletters => ?_
  have hlength : letters.length ≤ text.length := by
    unfold lettersOf at hletters
    split at hletters
    · cases hletters
      exact length_lettersFrom_le 0 0 0 text
    · cases hletters
  have hrun : Cut.run (letters.length + 1) { rest := letters } = Cut.run n { rest := letters } :=
    Cut.run_eq_run _ (Nat.lt_succ_self _) (Nat.lt_of_le_of_lt hlength h)
  rw [hrun]
  cases Cut.run n { rest := letters } <;> rfl

end BenchScript.Yaml
