import BenchScript.Launch.Script
import BenchScript.Proofs.Newlines
import BenchScript.Proofs.Undisturbed

set_option autoImplicit false

/-!
# Answers from an input

An input holds one answer in each of its lines. A run that is fed from it takes a line for each of
its prompts, in order, and no line for anything else. `Fed` says how such a run goes in terms of the
calls that a host would make to answer the prompts itself; the main statement is that a script file
that is launched is fed so, and so is every other run.
-/
namespace BenchScript

namespace Text

/-- The lines of a text with their line ends: cut after each newline. What follows the last newline
is a line of its own unless it is empty. -/
def keptLines : Text → List Text
  | [] => []
  | c :: rest => if c = newline then [c] :: keptLines rest else consFirst c (keptLines rest)

theorem flatten_consFirst (c : Char) (lines : List Text) :
    (consFirst c lines).flatten = c :: lines.flatten := by
  cases lines <;> rfl

theorem flatten_keptLines (text : Text) : (keptLines text).flatten = text := by
  induction text with
  | nil => rfl
  | cons c rest ih =>
    rw [keptLines]
    split
    · rw [List.flatten_cons, ih]
      rfl
    · rw [flatten_consFirst, ih]

theorem keptLines_eq_nil_iff {text : Text} : keptLines text = [] ↔ text = [] := by
  refine ⟨fun h => ?_, fun h => h ▸ rfl⟩
  rw [← flatten_keptLines text, h]
  rfl

/-- The lines behind the first are those of what is left without it. -/
theorem keptLines_flatten {text line : Text} {rest : List Text}
    (h : keptLines text = line :: rest) : keptLines rest.flatten = rest := by
  induction text generalizing line rest with
  | nil => cases h
  | cons c text ih =>
    rw [keptLines] at h
    split at h
    · cases h
      rw [flatten_keptLines]
    · cases hlines : keptLines text with
      | nil =>
        rw [hlines] at h
        cases h
        rfl
      | cons first more =>
        rw [hlines] at h
        cases h
        exact ih hlines

theorem dropTrailing_spec (p : Char → Bool) (text : Text) :
    ∃ tail, text = dropTrailing p text ++ tail ∧ (∀ c ∈ tail, p c = true) ∧
      ∀ c, (dropTrailing p text).getLast? = some c → p c = false := by
  unfold dropTrailing
  refine ⟨(text.reverse.takeWhile p).reverse, ?_, fun c hc => ?_, fun c hc => ?_⟩
  · rw [← List.reverse_append, List.takeWhile_append_dropWhile, List.reverse_reverse]
  · exact List.all_eq_true.1 List.all_takeWhile c (List.mem_reverse.1 hc)
  · have hhead := List.head?_dropWhile_not p text.reverse
    rw [List.getLast?_reverse] at hc
    rwa [hc] at hhead

end Text

theorem splitAfter_append {b : UInt8} {first : Bytes} (h : b ∉ first) (second : Bytes) :
    splitAfter b (first ++ second)
      = (splitAfter b second).map fun cut => (first ++ cut.1, cut.2) := by
  induction first with
  | nil => simp
  | cons c first ih =>
    have hne : c ≠ b := fun heq => h (heq ▸ List.mem_cons_self)
    rw [List.cons_append, splitAfter, if_neg hne, ih (List.not_mem_of_not_mem_cons h),
      Option.map_map]
    rfl

theorem Utf8.terminator_not_mem_encodeChar {c : Char} (h : c ≠ Text.newline) :
    terminator ∉ String.utf8EncodeChar c := by
  have hne : c.val.toNat ≠ 10 := fun heq => h (Char.ext (UInt32.toNat_inj.1 heq))
  have hrange : c.val.toNat < 0xD800 ∨ 0xDFFF < c.val.toNat ∧ c.val.toNat < 0x110000 := c.valid
  have hbyte {n : Nat} (hn : n ≠ 10) (hn' : n < 256) : terminator ≠ UInt8.ofNat n := by
    intro heq
    have hvalue := congrArg UInt8.toNat heq
    rw [UInt8.toNat_ofNat_of_lt' hn'] at hvalue
    exact hn hvalue.symm
  unfold String.utf8EncodeChar
  generalize c.val.toNat = n at hne hrange
  simp only
  split
  · simp only [List.mem_singleton]
    exact hbyte hne (by omega)
  · split
    · simp only [List.mem_cons, List.not_mem_nil, or_false, not_or]
      exact ⟨hbyte (by omega) (by omega), hbyte (by omega) (by omega)⟩
    · split
      · simp only [List.mem_cons, List.not_mem_nil, or_false, not_or]
        exact ⟨hbyte (by omega) (by omega), hbyte (by omega) (by omega),
          hbyte (by omega) (by omega)⟩
      · simp only [List.mem_cons, List.not_mem_nil, or_false, not_or]
        exact ⟨hbyte (by omega) (by omega), hbyte (by omega) (by omega),
          hbyte (by omega) (by omega), hbyte (by omega) (by omega)⟩

namespace Answers

open Text (keptLines)

/-- An answer is its line without the carriage returns and newlines at the end, and all of them. -/
theorem chomp_spec (line : Text) :
    ∃ lineEnd, line = chomp line ++ lineEnd ∧ (∀ c ∈ lineEnd, c = '\r' ∨ c = Text.newline) ∧
      ∀ c, (chomp line).getLast? = some c → c ≠ '\r' ∧ c ≠ Text.newline := by
  obtain ⟨lineEnd, hcut, hall, hlast⟩ :=
    Text.dropTrailing_spec (fun c => c == '\r' || c == Text.newline) line
  exact ⟨lineEnd, hcut, fun c hc => by simpa using hall c hc, fun c hc => by simpa using hlast c hc⟩

theorem cut_encode {text line : Text} {rest : List Text} (h : keptLines text = line :: rest) :
    (splitAfter terminator (Utf8.encode text)).getD (Utf8.encode text, [])
      = (Utf8.encode line, Utf8.encode rest.flatten) := by
  induction text generalizing line rest with
  | nil => cases h
  | cons c text ih =>
    rw [keptLines] at h
    split at h
    · next hc =>
      cases h
      rw [Text.flatten_keptLines, hc]
      rfl
    · next hc =>
      -- No byte of a longer encoding looks like a newline, so the cut lies behind this character.
      have hsplit := splitAfter_append (Utf8.terminator_not_mem_encodeChar hc) (Utf8.encode text)
      have hencode (part : Text) :
          Utf8.encode (c :: part) = String.utf8EncodeChar c ++ Utf8.encode part := rfl
      rw [hencode, hsplit]
      cases hlines : keptLines text with
      | nil =>
        rw [hlines] at h
        cases h
        rw [Text.keptLines_eq_nil_iff.1 hlines]
        rfl
      | cons first more =>
        rw [hlines] at h
        cases h
        let behind (cut : Bytes × Bytes) : Bytes × Bytes := (String.utf8EncodeChar c ++ cut.1, cut.2)
        calc ((splitAfter terminator (Utf8.encode text)).map behind).getD
              (behind (Utf8.encode text, []))
          _ = behind ((splitAfter terminator (Utf8.encode text)).getD (Utf8.encode text, [])) :=
            Option.getD_map behind _ _
          _ = behind (Utf8.encode first, Utf8.encode rest.flatten) := congrArg behind (ih hlines)
          _ = (Utf8.encode (c :: first), Utf8.encode rest.flatten) := rfl

theorem next_encode {text line : Text} {rest : List Text} (h : keptLines text = line :: rest) :
    next (Utf8.encode text) = (some (chomp line), Utf8.encode rest.flatten) := by
  have hcut := cut_encode h
  have hdecode : Utf8.decode? (Utf8.encode line) = some line :=
    Utf8.decode?_eq_some_iff.2 (Utf8.scan_encode line)
  have hline : nextLine (Utf8.encode text) = some (Utf8.encode line, Utf8.encode rest.flatten) := by
    cases hbytes : Utf8.encode text with
    | nil =>
      have htext := Utf8.scan_encode text
      rw [hbytes] at htext
      rw [List.map_eq_nil_iff.1 htext.symm] at h
      cases h
    | cons b bytes =>
      rw [hbytes] at hcut
      exact congrArg some hcut
  unfold next
  rw [hline]
  simp only [hdecode, Option.map_some]

end Answers

def Reply.asks (prompt : Text) : Reply := .standing (.waiting prompt)

namespace Engine

variable {ε : Type} [Environment ε]

def answering (routine : Text) (e : Engine ε) (answers : List Text) : List Reply × Engine ε :=
  e.callAll (.run routine :: answers.map .resume)

def answeringFrom (standing : Standing) (e : Engine ε) (answers : List Text) :
    List Reply × Engine ε :=
  (.standing standing :: (e.callAll (answers.map .resume)).1, (e.callAll (answers.map .resume)).2)

/-- What becomes of a run whose first `n` prompts got the first `n` answers, with the replies up to
there and the engine then: its ending, the engine that is left, and how many answers are used up. -/
inductive Fate (answers : List Text) (interrupts : List Bool) (n : Nat) :
    List Reply × Engine ε → Ending → Engine ε → Nat → Prop where
  /-- It is over without another prompt. -/
  | finished (prompts : List Text) {ending : Ending} {after : Engine ε} (hn : prompts.length = n) :
      Fate answers interrupts n
        (prompts.map Reply.asks ++ [.standing (.ended ending)], after) ending after n
  /-- It was to be cancelled before the next prompt was answered, for which nothing is read. -/
  | cancelled (prompts : List Text) {last : Engine ε} (hn : prompts.length = n + 1)
      (hc : last.workspace.cancelled = true) :
      Fate answers interrupts n (prompts.map Reply.asks, last) .cancelled last.abandon n
  /-- The user interrupts it while the next answer is read, which is lost. -/
  | interrupted (prompts : List Text) {last : Engine ε} (hn : prompts.length = n + 1)
      (hc : last.workspace.cancelled = false) (hl : n < answers.length)
      (hi : interrupts.getD n false = true) :
      Fate answers interrupts n (prompts.map Reply.asks, last) .cancelled last.abandon (n + 1)
  /-- There is no answer left for the next prompt. -/
  | exhausted (prompts : List Text) {last : Engine ε} (hn : prompts.length = n + 1)
      (hc : last.workspace.cancelled = false) (hl : n = answers.length) :
      Fate answers interrupts n (prompts.map Reply.asks, last) .cancelled last.abandon n

/-- How a run goes that is fed with answers, when `course` is what it comes to if it is given some
of them: its first `n` prompts get the first `n`, one each, and then it ends in one of four ways. -/
structure Fed (course : List Text → List Reply × Engine ε) (answers : List Text)
    (interrupts : List Bool) (n : Nat) (ending : Ending) (after : Engine ε) (used : Nat) :
    Prop where
  available : n ≤ answers.length
  undisturbed : ∀ k < n, (course (answers.take k)).2.workspace.cancelled = false ∧
    interrupts.getD k false = false
  fate : Fate answers interrupts n (course (answers.take n)) ending after used

variable {course course' : List Text → List Reply × Engine ε} {answer prompt : Text}
  {answers : List Text} {interrupts : List Bool} {n used : Nat} {ending : Ending}
  {after : Engine ε}

theorem getD_zero (interrupts : List Bool) : interrupts.getD 0 false = interrupts.headD false := by
  cases interrupts <;> rfl

theorem getD_tail (interrupts : List Bool) (n : Nat) :
    interrupts.tail.getD n false = interrupts.getD (n + 1) false := by
  cases interrupts <;> rfl

theorem Fate.cons {replies : List Reply} {last : Engine ε}
    (h : Fate answers interrupts.tail n (replies, last) ending after used) :
    Fate (answer :: answers) interrupts (n + 1) (Reply.asks prompt :: replies, last) ending after
      (used + 1) := by
  cases h with
  | @finished prompts ending after hn => exact .finished (prompt :: prompts) (congrArg (· + 1) hn)
  | @cancelled prompts last hn hc =>
    exact .cancelled (prompt :: prompts) (congrArg (· + 1) hn) hc
  | @interrupted prompts last hn hc hl hi =>
    exact .interrupted (prompt :: prompts) (congrArg (· + 1) hn) hc
      (Nat.succ_lt_succ hl) ((getD_tail interrupts n).symm.trans hi)
  | @exhausted prompts last hn hc hl =>
    exact .exhausted (prompt :: prompts) (congrArg (· + 1) hn) hc (congrArg (· + 1) hl)

/-- A run that has not ended by itself is cancelled. -/
theorem Fate.ending_eq {replies : List Reply} {last : Engine ε} {prompts : List Text}
    (h : Fate answers interrupts n (replies, last) ending after used)
    (hr : replies = prompts.map Reply.asks) : ending = .cancelled := by
  cases h with
  | @finished asked ending after hn =>
    have hmem : Reply.standing (.ended ending) ∈ prompts.map Reply.asks :=
      hr ▸ List.mem_append_right _ List.mem_cons_self
    obtain ⟨prompt, -, heq⟩ := List.mem_map.1 hmem
    cases heq
  | cancelled | interrupted | exhausted => rfl

theorem Fed.cons (h : Fed course' answers interrupts.tail n ending after used)
    (hcourse : ∀ inputs, course (answer :: inputs)
      = (Reply.asks prompt :: (course' inputs).1, (course' inputs).2))
    (hc : (course []).2.workspace.cancelled = false) (hi : interrupts.headD false = false) :
    Fed course (answer :: answers) interrupts (n + 1) ending after (used + 1) := by
  refine ⟨Nat.succ_le_succ h.available, fun k hk => ?_, ?_⟩
  · cases k with
    | zero => exact ⟨hc, (getD_zero interrupts).trans hi⟩
    | succ k =>
      obtain ⟨hdown, hquiet⟩ := h.undisturbed k (Nat.lt_of_succ_lt_succ hk)
      rw [List.take_succ_cons, hcourse]
      exact ⟨hdown, (getD_tail interrupts k).symm.trans hquiet⟩
  · rw [List.take_succ_cons, hcourse]
    exact h.fate.cons

theorem fed_of_fate (h : Fate answers interrupts 0 (course []) ending after used) :
    Fed course answers interrupts 0 ending after used :=
  ⟨Nat.zero_le _, fun _ hk => absurd hk (Nat.not_lt_zero _), h⟩

theorem answeringFrom_cons {e : Engine ε} {command : Command} (hp : e.pending = some command)
    (standing : Standing) (answer : Text) (inputs : List Text) :
    e.answeringFrom standing (answer :: inputs)
      = (.standing standing :: ((e.deliver command answer).carryOn.2.answeringFrom
            (e.deliver command answer).carryOn.1 inputs).1,
          ((e.deliver command answer).carryOn.2.answeringFrom
            (e.deliver command answer).carryOn.1 inputs).2) := by
  unfold answeringFrom
  rw [List.map_cons, callAll_cons, call_resume hp]

theorem answering_eq {e : Engine ε} {routine : Text} {standing : Standing}
    (h : (e.run routine).1 = .ok standing) :
    e.answering routine = (e.run routine).2.answeringFrom standing := by
  funext answers
  have hreply : (e.call (.run routine)).1 = .standing standing := by
    simp only [call, h, Reply.ofStanding]
  unfold answering
  rw [callAll_cons, hreply]
  rfl

/-- From where it stands, a run takes its answers from the lines of a text, and leaves the lines that
it does not take in the input. -/
def TakesLines (text : Text) (interrupts : List Bool) (e : Engine ε) (standing : Standing) : Prop :=
  ∃ n ending after used left,
    Fed (e.answeringFrom standing) ((Text.keptLines text).map Answers.chomp) interrupts n ending
        after used ∧
      e.answerPrompts AnswerInput.source ⟨Utf8.encode text, interrupts⟩ standing
        = (.ok ending, after, left) ∧
      left.bytes = Utf8.encode ((Text.keptLines text).drop used).flatten

theorem source_of_cancelled {cancelled : Bool} (h : cancelled = true) (prompt : Text)
    (input : AnswerInput) : AnswerInput.source cancelled prompt input = (none, input) := by
  rw [h]
  rfl

theorem source_of_free {cancelled : Bool} (h : cancelled = false) (prompt : Text) (bytes : Bytes)
    (interrupts : List Bool) :
    AnswerInput.source cancelled prompt ⟨bytes, interrupts⟩
      = (if interrupts.headD false then none else (Answers.next bytes).1,
          ⟨(Answers.next bytes).2, interrupts.tail⟩) := by
  rw [h]
  rfl

theorem takesLines_ended (text : Text) (interrupts : List Bool) (e : Engine ε) (ending : Ending) :
    e.TakesLines text interrupts (.ended ending) := by
  refine ⟨0, ending, e, 0, _, fed_of_fate (.finished [] rfl), answerPrompts_ended e ending, ?_⟩
  rw [List.drop_zero, Text.flatten_keptLines]

section Prompt

variable {e : Engine ε} {prompt text : Text} {line : Text} {rest : List Text}

theorem takesLines_of_cancelled (hc : e.workspace.cancelled = true) :
    e.TakesLines text interrupts (.waiting prompt) := by
  have hsource := source_of_cancelled hc prompt ⟨Utf8.encode text, interrupts⟩
  refine ⟨0, .cancelled, e.abandon, 0, _, fed_of_fate (.cancelled [prompt] rfl hc),
    answerPrompts_none hsource, ?_⟩
  rw [List.drop_zero, Text.flatten_keptLines]

variable (hc : e.workspace.cancelled = false)

include hc

theorem takesLines_of_exhausted :
    e.TakesLines [] interrupts (.waiting prompt) := by
  have hsource := source_of_free hc prompt (Utf8.encode []) interrupts
  have hnone : (Answers.next (Utf8.encode [])).1 = none := rfl
  rw [hnone, ite_self] at hsource
  exact ⟨0, .cancelled, e.abandon, 0, _, fed_of_fate (.exhausted [prompt] rfl hc rfl),
    answerPrompts_none hsource, rfl⟩

variable (hl : Text.keptLines text = line :: rest)

include hl

theorem takesLines_of_interrupted (hi : interrupts.headD false = true) :
    e.TakesLines text interrupts (.waiting prompt) := by
  have hsource := source_of_free hc prompt (Utf8.encode text) interrupts
  rw [hi, if_pos rfl, Answers.next_encode hl] at hsource
  unfold TakesLines
  rw [hl]
  exact ⟨0, .cancelled, e.abandon, 1, _,
    fed_of_fate (.interrupted [prompt] rfl hc (Nat.succ_pos _) ((getD_zero interrupts).trans hi)),
    answerPrompts_none hsource, rfl⟩

theorem TakesLines.answered {command : Command} (hp : e.pending = some command)
    (hi : interrupts.headD false = false)
    (h : TakesLines rest.flatten interrupts.tail
      (e.deliver command (Answers.chomp line)).carryOn.2
      (e.deliver command (Answers.chomp line)).carryOn.1) :
    e.TakesLines text interrupts (.waiting prompt) := by
  have hsource := source_of_free hc prompt (Utf8.encode text) interrupts
  rw [hi, if_neg Bool.false_ne_true, Answers.next_encode hl] at hsource
  unfold TakesLines at h ⊢
  rw [Text.keptLines_flatten hl] at h
  rw [hl]
  obtain ⟨n, ending, after, used, left, hfed, hrun, hleft⟩ := h
  refine ⟨n + 1, ending, after, used + 1, left, ?_, ?_, hleft⟩
  · exact hfed.cons (answeringFrom_cons hp (.waiting prompt) _) hc hi
  · rw [answerPrompts_some hp hsource]
    exact hrun

end Prompt

theorem Stands.takesLines {e : Engine ε} {standing : Standing} (h : e.Stands standing) (text : Text)
    (interrupts : List Bool) : e.TakesLines text interrupts standing := by
  -- The lines that are left are the measure, for every answer takes one of them away.
  induction hl : Text.keptLines text generalizing text interrupts e standing with
  | nil =>
    rw [Text.keptLines_eq_nil_iff.1 hl]
    cases standing with
    | ended ending => exact takesLines_ended [] interrupts e ending
    | waiting prompt =>
      cases hc : e.workspace.cancelled with
      | true => exact takesLines_of_cancelled hc
      | false => exact takesLines_of_exhausted hc
  | cons line rest ih =>
    cases standing with
    | ended ending => exact takesLines_ended text interrupts e ending
    | waiting prompt =>
      have hs : e.Suspended := h
      obtain ⟨command, hp⟩ := hs.exists_question
      cases hc : e.workspace.cancelled with
      | true => exact takesLines_of_cancelled hc
      | false =>
        cases hi : interrupts.headD false with
        | true => exact takesLines_of_interrupted hc hl hi
        | false =>
          exact .answered hc hl hp hi
            (ih (hs.deliver command _).stands _ _ (Text.keptLines_flatten hl))

/-- A run of a routine takes its answers from the lines of a text and ends so; the lines that it
does not take stay in the input. -/
def RunsOnLines (e : Engine ε) (routine text : Text) (interrupts : List Bool) (ending : Ending)
    (after : Engine ε) : Prop :=
  ∃ n used left,
    Fed (e.answering routine) ((Text.keptLines text).map Answers.chomp) interrupts n ending after
        used ∧
      e.runAnswered routine AnswerInput.source ⟨Utf8.encode text, interrupts⟩
        = (.ok ending, after, left) ∧
      left.bytes = Utf8.encode ((Text.keptLines text).drop used).flatten

theorem exists_runsOnLines {e : Engine ε} (h : e.isWaiting = false) (routine text : Text)
    (interrupts : List Bool) :
    ∃ ending after, e.RunsOnLines routine text interrupts ending after := by
  obtain ⟨standing, hrun, hs⟩ := stands_run h routine
  obtain ⟨n, ending, after, used, left, hfed, hanswers, hleft⟩ := hs.takesLines text interrupts
  refine ⟨ending, after, n, used, left, ?_, ?_, hleft⟩
  · rw [answering_eq hrun]
    exact hfed
  · rw [runAnswered_of_run _ _ hrun]
    exact hanswers

end Engine

section Launch

variable {δ : Type} [Device δ] {settings : Settings} {path : Text}
  {around : Surroundings δ Directory Console} {e : Engine (Surroundings δ Directory Console)}

theorem launchScript_of_ran (hvalid : settings.check = .ok ())
    (hload : (Engine.idle settings around).loadFrom path = (.ok (), e)) {routine : Text}
    {input left : AnswerInput} {ending : Ending} {after : Engine (Surroundings δ Directory Console)}
    (hrun : e.runAnswered routine AnswerInput.source input = (.ok ending, after, left)) :
    launchScript settings path routine input around
      = (.ok ending, after.close.workspace.around) := by
  have hengine : Engine.assemble settings ⟨some around.device, some around.host, some around.files⟩
      = .ok (Engine.idle settings around) := by
    simp only [Engine.assemble, hvalid]
  unfold launchScript
  simp only [hengine, hload, hrun]

/-- A script file that is launched takes its answers from the lines of the input, the first line for
the first prompt and so on, each without the carriage returns and newlines at its end. The run ends
as it does for a host that gives these answers itself; it is cancelled when a line is interrupted
while it is read, which is then lost, and when there is no line for a prompt. One line is read for
each prompt, and nothing else is. So it is with every engine whose run has not begun, except that
others may cancel its run as well: then no line is read any more. -/
theorem launch_feeds_lines (hvalid : settings.check = .ok ())
    (hload : (Engine.idle settings around).loadFrom path = (.ok (), e)) (routine text : Text)
    (interrupts : List Bool) :
    (∃ ending after, e.RunsOnLines routine text interrupts ending after ∧
      launchScript settings path routine ⟨Utf8.encode text, interrupts⟩ around
        = (.ok ending, after.close.workspace.around)) ∧
    (∀ answers, (e.answering routine answers).2.workspace.cancelled = false) ∧
    (∀ line, ∃ lineEnd, line = Answers.chomp line ++ lineEnd ∧
      (∀ c ∈ lineEnd, c = '\r' ∨ c = Text.newline) ∧
      ∀ c, (Answers.chomp line).getLast? = some c → c ≠ '\r' ∧ c ≠ Text.newline) ∧
    ∀ (ε : Type) [Environment ε] (m : Engine ε), m.isWaiting = false →
      ∃ ending after, m.RunsOnLines routine text interrupts ending after := by
  have hw : e.isWaiting = false := by
    have hrest : ((Engine.idle settings around).loadFrom path).2.AtRest :=
      Engine.AtRest.loadFrom rfl path
    rw [hload] at hrest
    exact hrest.isWaiting
  refine ⟨?_, fun answers => ?_, Answers.chomp_spec, fun ε _ m hm =>
    Engine.exists_runsOnLines hm routine text interrupts⟩
  · obtain ⟨ending, after, hruns⟩ := Engine.exists_runsOnLines hw routine text interrupts
    obtain ⟨_, _, _, _, hran, _⟩ := id hruns
    exact ⟨ending, after, hruns, launchScript_of_ran hvalid hload hran⟩
  · unfold Engine.answering
    rw [Engine.callAll_cons]
    exact (Engine.cancelled_resumes neverCancels_console answers _).trans
      (Engine.cancelled_run neverCancels_console hw routine)

end Launch

def Directory.withQuestions : Directory :=
  ⟨⟨[([['s']], .file [0x55, 0x71, 0x0A, 0x55, 0x72])]⟩⟩

/-- The one line of the input answers the first question, and the second one cancels the run. -/
theorem launch_feeds_lines_once :
    let around : Surroundings CannedDevice Directory Console := ⟨{}, .withQuestions, {}⟩
    ((Engine.idle {} around).loadFrom ['s']).1 = .ok () ∧
      (launchScript {} ['s'] [] ⟨Utf8.encode ['a', '\r', '\r', '\n'], []⟩ around).1
        = .ok .cancelled := by
  intro around
  obtain ⟨e, hload, hwaits, hentry, first, q, question, hfirst, hpending, second, r, hsecond⟩ :
      ∃ e, (Engine.idle {} around).loadFrom ['s'] = (.ok (), e) ∧ e.isWaiting = false ∧
        e.routines.contains [] = true ∧ ∃ first q question,
        Engine.loop 1 { e.begun with stack := [{ routine := [] }] } = some (.waiting q, first) ∧
        first.pending = some question ∧ ∃ second r,
          Engine.loop 2 (first.deliver question ['a']) = some (.waiting r, second) :=
    ⟨_, rfl, rfl, rfl, _, _, _, rfl, rfl, _, _, rfl⟩
  have hrun : e.call (.run []) = (Reply.asks q, first) := by
    rw [Engine.call_run_of_contains hwaits hentry, Engine.carryOn_eq_of_loop hfirst]
    rfl
  have hnext : first.call (.resume ['a']) = (Reply.asks r, second) := by
    rw [Engine.call_resume hpending, Engine.carryOn_eq_of_loop hsecond]
    rfl
  have hnone : e.answering [] [] = ([q].map Reply.asks, first) := by
    unfold Engine.answering
    rw [Engine.callAll_cons, hrun]
    rfl
  have hone : e.answering [] [['a']] = ([q, r].map Reply.asks, second) := by
    unfold Engine.answering
    rw [Engine.callAll_cons, hrun, List.map_cons, Engine.callAll_cons, hnext]
    rfl
  obtain ⟨⟨ending, after, ⟨n, used, left, hfed, -⟩, hlaunch⟩, -⟩ :=
    launch_feeds_lines rfl hload [] ['a', '\r', '\r', '\n'] []
  have hn : n ≤ 1 := hfed.available
  have hfate := hfed.fate
  have hanswers : (Text.keptLines ['a', '\r', '\r', '\n']).map Answers.chomp = [['a']] := rfl
  rw [hlaunch]
  refine ⟨congrArg Prod.fst hload, congrArg Except.ok ?_⟩
  rw [hanswers] at hfate
  obtain rfl | rfl := Nat.le_one_iff_eq_zero_or_eq_one.1 hn
  · rw [List.take_zero, hnone] at hfate
    exact hfate.ending_eq rfl
  · rw [List.take_succ_cons, List.take_zero, hone] at hfate
    exact hfate.ending_eq rfl

end BenchScript
