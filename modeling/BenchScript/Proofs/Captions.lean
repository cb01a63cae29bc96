import BenchScript.Engine.Perform
import BenchScript.Proofs.Record
import BenchScript.Proofs.Substitution

set_option autoImplicit false

namespace BenchScript

namespace Text

theorem replaceEach_cons (c : Char) (replacement : Text) (d : Char) (rest : Text) :
    replaceEach c replacement (d :: rest)
      = (if d = c then replacement else [d]) ++ replaceEach c replacement rest := rfl

theorem replaceEach_cons_of_ne {c d : Char} (h : d ≠ c) (replacement rest : Text) :
    replaceEach c replacement (d :: rest) = d :: replaceEach c replacement rest := by
  rw [replaceEach_cons, if_neg h]
  rfl

end Text

namespace Display

/-- A character that is no more than itself at the beginning of a line, whatever follows. -/
structure IsPlainTag (tag : Char) : Prop where
  ne_newline : tag ≠ Text.newline
  ne_data : tag ≠ 'D'
  ne_return : tag ≠ '\r'
  ne_dollar : tag ≠ '$'
  ne_clock : tag ≠ clockMark

theorem isPlainTag_message : IsPlainTag 'M' := by
  constructor <;> decide

theorem isPlainTag_ask : IsPlainTag 'U' := by
  constructor <;> decide

/-- A text as it is shown where nothing stands around it: carriage returns become line ends, then
references give way to values, then every backtick to the time. -/
def reading (now : Text) (lookup : Text → Option Text) (text : Text) : Text :=
  Text.replaceEach clockMark now
    (Text.fillWords (fun name => (lookup name).getD unknownPlaceholder)
      (Text.replaceEach '\r' [Text.newline] text))

variable {tag : Char}

theorem spaceTag_eq (tag : Char) {text : Text} (h : text ≠ []) :
    spaceTag (tag :: text) = tag :: ' ' :: Text.dropLeading ' ' text := by
  obtain ⟨c, rest, rfl⟩ := List.exists_cons_of_ne_nil h
  by_cases hc : c = ' '
  · simp [spaceTag, Text.dropLeading, hc]
  · simp [spaceTag, Text.dropLeading, hc]

theorem draft_eq (h : IsPlainTag tag) {text : Text} (hne : text ≠ []) :
    draft (tag :: text)
      = tag :: ' ' :: Text.replaceEach '\r' [Text.newline] (Text.dropLeading ' ' text) := by
  unfold draft
  rw [spaceTag_eq tag hne]
  simp only [h.ne_data, if_false]
  rw [Text.replaceEach_cons_of_ne h.ne_return, Text.replaceEach_cons_of_ne (by decide)]

theorem expand_tag (h : IsPlainTag tag) (lookup : Text → Option Text) :
    expand lookup [tag] = [tag] := by
  unfold expand
  rw [Piece.ofText, if_neg fun hmatch => h.ne_dollar hmatch.1, Piece.ofText]
  rfl

/-- The tag and the space behind it stand in front of the text as if it stood alone. -/
theorem ofLine_eq (h : IsPlainTag tag) (now : Text) (lookup : Text → Option Text) {text : Text}
    (hne : text ≠ []) :
    ofLine now lookup (tag :: text)
      = tag :: ' ' :: reading now lookup (Text.dropLeading ' ' text) := by
  have hline : tag :: text ≠ [Text.newline] := fun heq => h.ne_newline (List.cons.inj heq).1
  unfold ofLine
  rw [if_neg hline, fill, draft_eq h hne, ← List.singleton_append, expand_append_space,
    expand_tag h, List.singleton_append, Text.replaceEach_cons_of_ne h.ne_clock,
    Text.replaceEach_cons_of_ne (by decide), expand_eq]
  rfl

theorem ofLine_tag (h : IsPlainTag tag) (now : Text) (lookup : Text → Option Text) :
    ofLine now lookup [tag] = [tag] := by
  have hline : [tag] ≠ [Text.newline] := fun heq => h.ne_newline (List.cons.inj heq).1
  unfold ofLine
  rw [if_neg hline, fill]
  change Text.replaceEach clockMark now (expand lookup [tag]) = [tag]
  rw [expand_tag h, Text.replaceEach_cons_of_ne h.ne_clock]
  rfl

/-- The cut that leaves the text of a line over takes away what is not of the text, and no more. -/
theorem dropLeading_ofLine (h : IsPlainTag tag) (now : Text) (lookup : Text → Option Text)
    (text : Text) :
    Text.dropLeading ' ' ((ofLine now lookup (tag :: text)).drop 1)
      = reading now lookup (Text.dropLeading ' ' text) := by
  by_cases hne : text = []
  · subst hne
    rw [ofLine_tag h]
    rfl
  · rw [ofLine_eq h now lookup hne]
    exact Text.dropLeading_cons_self ' ' _

end Display

namespace Workspace

variable {ε : Type} [Environment ε] {w : Workspace ε}

theorem caption_eq {tag : Char} (h : Display.IsPlainTag tag) (w : Workspace ε) (text : Text) :
    w.caption (.textual tag text)
      = Display.reading (Host.clock w.around) w.bindings.get? (Text.dropLeading ' ' text) :=
  Display.dropLeading_ofLine h _ _ text

/-- A message and a prompt show the text behind their tag, less one space in front, with carriage
returns as line ends, then with the values of names, then with the time for every backtick, also for
those that came with a value. That is what the user is told, and what a run waits with. So a space
between tag and text makes no difference, unless the text begins with a space itself. -/
theorem captions_show_text (w : Workspace ε) {tag : Char} (htag : tag = 'M' ∨ tag = 'U') :
    let shows := fun text => Text.replaceEach Display.clockMark (Host.clock w.around)
      (Text.fillWords (fun name => (w.bindings.get? name).getD "<unknown>".toList)
        (Text.replaceEach '\r' [Text.newline] text))
    (∀ text, w.caption (.textual tag text) = shows (Text.dropLeading ' ' text)) ∧
    (∀ text, text.head? ≠ some ' ' →
      w.caption (.textual tag text) = shows text ∧
        w.caption (.textual tag (' ' :: text)) = shows text) ∧
    ∀ settings text,
      w.perform settings (.textual 'M' text)
          = (.next, w.notify ⟨.info, shows (Text.dropLeading ' ' text), false⟩) ∧
        w.perform settings (.textual 'U' text)
          = (.suspend (shows (Text.dropLeading ' ' text)),
              w.notify (.prompt (shows (Text.dropLeading ' ' text)))) := by
  intro shows
  have hplain : Display.IsPlainTag tag := by
    rcases htag with rfl | rfl
    · exact Display.isPlainTag_message
    · exact Display.isPlainTag_ask
  have hcaption : ∀ text, w.caption (.textual tag text) = shows (Text.dropLeading ' ' text) :=
    caption_eq hplain w
  refine ⟨hcaption, fun text htext => ⟨?_, ?_⟩, fun settings text => ⟨?_, ?_⟩⟩
  · rw [hcaption, Text.dropLeading_of_head?_ne htext]
  · rw [hcaption, Text.dropLeading_cons_self]
  · change (Verdict.next, w.notify ⟨.info, w.caption (.textual 'M' text), false⟩) = _
    rw [caption_eq Display.isPlainTag_message]
    rfl
  · change (Verdict.suspend (w.caption (.textual 'U' text)),
      w.notify (.prompt (w.caption (.textual 'U' text)))) = _
    rw [caption_eq Display.isPlainTag_ask]
    rfl

end Workspace

def Workspace.atNoon : Workspace Bench :=
  { around := ⟨⟨{}, {}, { time := "12:00".toList }⟩, []⟩
    bindings := Table.empty.insert ['a'] " \x60".toList }

/-- Of two spaces one is kept, and of the value all, but its backtick gives way to the time as well.
Behind a line end a word goes on, so the name there is another. -/
theorem Workspace.captions_show_text_noon :
    Workspace.atNoon.caption (.textual 'U' "  $a \r$b \x60".toList)
        = "  12:00 \n<unknown> 12:00".toList ∧
      Workspace.atNoon.caption (.textual 'U' "$a?".toList) = "<unknown>".toList ∧
      Workspace.atNoon.caption (.textual 'U' " $a?".toList) = "<unknown>".toList := by
  obtain ⟨hshown, hspace, -⟩ := @captions_show_text Bench _ Workspace.atNoon 'U' (Or.inr rfl)
  obtain ⟨hbare, hspaced⟩ := hspace "$a?".toList (by decide)
  exact ⟨(hshown _).trans rfl, hbare.trans rfl, hspaced.trans rfl⟩

end BenchScript
