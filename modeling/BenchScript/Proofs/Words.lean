import BenchScript.Script.Command
import Mathlib.Data.List.TakeWhile

set_option autoImplicit false

namespace BenchScript

namespace Text

structure IsWord (word : Text) : Prop where
  nonempty : word ≠ []
  unbroken : ∀ c ∈ word, isBlank c = false

def StopsWord (rest : Text) : Prop := ∀ c, rest.head? = some c → isBlank c = true

/-- The text is made of these words, in this order, and of blanks. A blank or nothing stands in
front of a word and behind it. -/
inductive HasWords : Text → List Text → Prop where
  | none : HasWords [] []
  | blank {c : Char} {rest : Text} {words : List Text} :
      isBlank c = true → HasWords rest words → HasWords (c :: rest) words
  | word {word rest : Text} {words : List Text} :
      IsWord word → StopsWord rest → HasWords rest words → HasWords (word ++ rest) (word :: words)

theorem stopsWord_nil : StopsWord [] := by
  intro c hc
  cases hc

theorem stopsWord_cons {c : Char} (hc : isBlank c = true) (rest : Text) :
    StopsWord (c :: rest) := by
  intro d hd
  cases hd
  exact hc

theorem stopsWord_dropWhile (text : Text) : StopsWord (text.dropWhile (!isBlank ·)) := by
  intro c hc
  have hhead := List.head?_dropWhile_not (!isBlank ·) text
  rw [hc] at hhead
  simpa using hhead

theorem StopsWord.cut {rest : Text} (h : StopsWord rest) :
    rest.takeWhile (!isBlank ·) = [] ∧ rest.dropWhile (!isBlank ·) = rest := by
  cases rest with
  | nil => exact ⟨rfl, rfl⟩
  | cons c more =>
    have hc : ¬ (!isBlank c) = true := by simp [h c rfl]
    exact ⟨List.takeWhile_cons_of_neg hc, List.dropWhile_cons_of_neg hc⟩

theorem words_nil : words [] = [] := by
  unfold words
  rfl

theorem words_cons (c : Char) (rest : Text) :
    words (c :: rest)
      = if isBlank c then words rest
        else (c :: rest.takeWhile (!isBlank ·)) :: words (rest.dropWhile (!isBlank ·)) := by
  rw [words.eq_def]

theorem words_blank {c : Char} (hc : isBlank c = true) (rest : Text) :
    words (c :: rest) = words rest := by
  rw [words_cons, if_pos hc]

/-- The first word goes up to the first blank. -/
theorem words_append {word rest : Text} (hword : IsWord word) (hrest : StopsWord rest) :
    words (word ++ rest) = word :: words rest := by
  obtain ⟨c, tail, rfl⟩ := List.exists_cons_of_ne_nil hword.nonempty
  obtain ⟨hc, htail⟩ := List.forall_mem_cons.1 hword.unbroken
  have hunbroken : ∀ d ∈ tail, (!isBlank d) = true := fun d hd => by simp [htail d hd]
  obtain ⟨htake, hdrop⟩ := hrest.cut
  rw [List.cons_append, words_cons, if_neg (by simp [hc]), List.takeWhile_append_of_pos hunbroken,
    List.dropWhile_append_of_pos hunbroken, htake, hdrop, List.append_nil]

theorem hasWords_words (text : Text) : HasWords text (words text) := by
  fun_induction words text with
  | case1 => exact .none
  | case2 c rest hc ih => exact .blank hc ih
  | case3 c rest hc ih =>
    have hcut : rest.takeWhile (!isBlank ·) ++ rest.dropWhile (!isBlank ·) = rest :=
      List.takeWhile_append_dropWhile
    have hword : IsWord (c :: rest.takeWhile (!isBlank ·)) := by
      refine ⟨List.cons_ne_nil _ _, List.forall_mem_cons.2 ⟨by simpa using hc, fun d hd => ?_⟩⟩
      simpa using List.mem_takeWhile_imp hd
    have hall := HasWords.word hword (stopsWord_dropWhile rest) ih
    rwa [List.cons_append, hcut] at hall

/-- The words of a text are the maximal runs of characters that are not blank. -/
theorem words_eq_iff {text : Text} {parts : List Text} :
    words text = parts ↔ HasWords text parts := by
  constructor
  · rintro rfl
    exact hasWords_words text
  · intro h
    induction h with
    | none => exact words_nil
    | blank hc _ ih => rw [words_blank hc, ih]
    | word hword hrest _ ih => rw [words_append hword hrest, ih]

theorem isWord_of_mem_words {text word : Text} (h : word ∈ words text) : IsWord word := by
  have hparts := hasWords_words text
  generalize words text = parts at h hparts
  induction hparts with
  | none => cases h
  | blank _ _ ih => exact ih h
  | word hword _ _ ih =>
    rcases List.mem_cons.1 h with rfl | h
    · exact hword
    · exact ih h

theorem words_join {parts : List Text} (h : ∀ word ∈ parts, IsWord word) :
    words ([' '].intercalate parts) = parts := by
  induction parts with
  | nil => exact words_nil
  | cons word parts ih =>
    obtain ⟨hword, hparts⟩ := List.forall_mem_cons.1 h
    cases parts with
    | nil =>
      have halone : words (word ++ []) = word :: words [] := words_append hword stopsWord_nil
      rw [List.append_nil, words_nil] at halone
      rw [List.intercalate_singleton, halone]
    | cons next more =>
      have hspace : StopsWord (' ' :: [' '].intercalate (next :: more)) :=
        stopsWord_cons (by decide) _
      rw [List.intercalate_cons_cons, List.append_assoc, List.singleton_append,
        words_append hword hspace, words_blank (by decide), ih hparts]

end Text

/-- The bytes of what stands behind a part are those behind its bytes. -/
theorem Utf8.encode_behind (front rest : Text) :
    encode rest = (encode (front ++ rest)).drop (size front) := by
  rw [encode_append]
  exact List.drop_left.symm

namespace Command

theorem parameters_eq (command : Command) :
    command.parameters = Text.words (command.text?.getD []) := by
  unfold parameters
  cases command.text? with
  | none => exact Text.words_nil.symm
  | some text => rfl

theorem text?_spaced (tag spacer : Char) (rest : Text) :
    (textual tag (spacer :: rest)).text?.getD [] = rest := by
  cases rest with
  | nil => rfl
  | cons c rest => rfl

theorem isSome_text?_iff (tag : Char) (raw : Text) :
    (textual tag raw).text?.isSome = true ↔ 3 ≤ (tag :: raw).length := by
  match raw with
  | [] => simp [text?]
  | [_] => simp [text?]
  | _ :: _ :: _ => simp [text?]

theorem raw_of_text? {tag : Char} {raw text : Text} (h : (textual tag raw).text? = some text) :
    ∃ spacer, raw = spacer :: text := by
  match raw, h with
  | spacer :: _ :: _, rfl => exact ⟨spacer, rfl⟩

/-- A line that is not empty is its tag and the raw text. If it has three characters or more, the
raw text is one character and then the text, which begins that many bytes into the line. The
parameters are the words of the text, and words joined by spaces have the same parameters behind any
two characters. The data of a binary line are its bytes from the third on. -/
theorem cuts_without_loss (line : Text) :
    (line ≠ [] → ∃ command, ofLine? line = some command ∧
      line = command.tag :: command.raw ∧
      Utf8.encode command.raw = (Utf8.encode line).drop (Utf8.size [command.tag]) ∧
      (command.text?.isSome = true ↔ 3 ≤ line.length) ∧
      (∀ text, command.text? = some text → ∃ spacer, command.raw = spacer :: text ∧
        Utf8.encode text = (Utf8.encode line).drop (Utf8.size [command.tag, spacer])) ∧
      (command.text? = none → command.parameters = []) ∧
      (∀ parts, command.parameters = parts ↔ Text.HasWords (command.text?.getD []) parts) ∧
      ∀ tag spacer, ∃ again,
        ofLine? (tag :: spacer :: [' '].intercalate command.parameters) = some again ∧
          again.parameters = command.parameters) ∧
    (binary line).payload? = some ((Utf8.encode line).drop 2) ∧
    ((Utf8.encode line).length < 3 → (binary line).payload? = some []) := by
  refine ⟨fun hne => ?_, rfl, fun hshort => ?_⟩
  · obtain ⟨tag, raw, rfl⟩ := List.exists_cons_of_ne_nil hne
    refine ⟨.textual tag raw, rfl, rfl, Utf8.encode_behind [tag] raw, isSome_text?_iff tag raw,
      ?_, ?_, ?_, ?_⟩
    · intro text htext
      obtain ⟨spacer, hraw⟩ := raw_of_text? htext
      refine ⟨spacer, hraw, ?_⟩
      rw [hraw]
      exact Utf8.encode_behind [tag, spacer] text
    · intro hnone
      rw [parameters_eq, hnone]
      exact Text.words_eq_iff.2 .none
    · intro parts
      rw [parameters_eq]
      exact Text.words_eq_iff
    · intro tag' spacer
      refine ⟨_, rfl, ?_⟩
      rw [parameters_eq, text?_spaced, parameters_eq]
      exact Text.words_join fun word hword => Text.isWord_of_mem_words hword
  · exact congrArg some (List.drop_eq_nil_of_le (Nat.le_of_lt_succ hshort))

/-- Three widths of characters, and blanks of two kinds between the words. -/
theorem cuts_without_loss_wide :
    let line : Text := ['\u00e9', '\u3000', 'x', '\u00a0', ' ', '\u00df', 'z']
    (∃ command, ofLine? line = some command ∧
      Utf8.encode command.raw = (Utf8.encode line).drop 2 ∧
      (∃ text, command.text? = some text ∧ Utf8.encode text = (Utf8.encode line).drop 5) ∧
      command.parameters = [['x'], ['\u00df', 'z']]) ∧
    (∃ command, ofLine? (line.take 2) = some command ∧ command.text? = none) ∧
    (binary (line.take 1)).payload? = some [] := by
  intro line
  have hwords : Text.HasWords (line.drop 2) [['x'], ['\u00df', 'z']] := by
    have hfirst : Text.IsWord ['x'] := ⟨List.cons_ne_nil _ _, List.forall_mem_singleton.2 rfl⟩
    have hsecond : Text.IsWord ['\u00df', 'z'] :=
      ⟨List.cons_ne_nil _ _, List.forall_mem_cons.2 ⟨rfl, List.forall_mem_singleton.2 rfl⟩⟩
    have hlast : Text.HasWords (['\u00df', 'z'] ++ []) [['\u00df', 'z']] :=
      .word hsecond Text.stopsWord_nil .none
    exact .word hfirst (Text.stopsWord_cons rfl _) (.blank rfl (.blank rfl hlast))
  refine ⟨?_, ?_, ?_⟩
  · obtain ⟨command, hread, -, hraw, -, htext, -, hparameters, -⟩ :=
      (cuts_without_loss line).1 (List.cons_ne_nil _ _)
    cases hread
    obtain ⟨spacer, hspacer, hbytes⟩ := htext _ rfl
    cases hspacer
    exact ⟨_, rfl, hraw, ⟨_, rfl, hbytes⟩, (hparameters _).2 hwords⟩
  · obtain ⟨command, hread, -, -, hsome, -⟩ :=
      (cuts_without_loss (line.take 2)).1 (List.cons_ne_nil _ _)
    refine ⟨command, hread, Option.not_isSome_iff_eq_none.1 fun htext => ?_⟩
    exact absurd (hsome.1 htext) (by decide)
  · exact (cuts_without_loss (line.take 1)).2.2 (by decide)

end Command
end BenchScript
