import BenchScript.Proofs.Digits
import BenchScript.Proofs.Encoding
import BenchScript.Proofs.Framing
import BenchScript.Proofs.Invariants
import BenchScript.Proofs.Traffic

set_option autoImplicit false

/-!
# Newlines stay off the wire

A link cuts its stream at the terminators, so no row that it gives holds a newline. From rows,
answers and script lines without newlines come variables without newlines, and from these the text
that goes out. `Workspace.Clean` is the invariant, and `no_injection` says that a text frame is one
line of the wire whatever the device sends.
-/
namespace BenchScript

def OneLine (text : Text) : Prop := Text.newline ∉ text

instance (text : Text) : Decidable (OneLine text) := inferInstanceAs (Decidable (_ ∉ _))

theorem OneLine.of_subset {part text : Text} (h : OneLine text) (hs : ∀ c ∈ part, c ∈ text) :
    OneLine part :=
  fun hmem => h (hs _ hmem)

theorem OneLine.append {first second : Text} (h : OneLine first) (h' : OneLine second) :
    OneLine (first ++ second) :=
  fun hmem => (List.mem_append.1 hmem).elim h h'

namespace Utf8

theorem ofNat_ne_newline {n : Nat} (h : n ≠ 10) : some (Char.ofNat n) ≠ some Text.newline := by
  intro heq
  have hnumber : (Char.ofNat n).val.toNat = 10 := congrArg Char.toNat (Option.some.inj heq)
  by_cases hvalid : n < 0xD800 ∨ 0xDFFF < n ∧ n < 0x110000
  · rw [toNat_ofNat hvalid] at hnumber
    exact h hnumber
  · unfold Char.ofNat at hnumber
    rw [dif_neg hvalid] at hnumber
    cases hnumber

theorem value_of_two_ne {a : UInt8} (ha : (0xC2 ≤ a && a ≤ 0xDF) = true) (b : UInt8) :
    a.toNat % 0x20 * 0x40 + tailBits b ≠ 10 := by
  obtain ⟨hlow, hhigh⟩ := bounds_of_range ha
  simp only [UInt8.reduceToNat] at hlow hhigh
  omega

theorem value_of_three_ne {a b : UInt8} (ha : (0xE0 ≤ a && a ≤ 0xEF) = true)
    (hb : isSecondOfThree a b = true) (c : UInt8) :
    (a.toNat % 0x10 * 0x40 + tailBits b) * 0x40 + tailBits c ≠ 10 := by
  obtain ⟨hlow, hhigh⟩ := bounds_of_range ha
  obtain ⟨hsecond, hsecond', hleast, -⟩ := bounds_of_isSecondOfThree hb
  simp only [UInt8.reduceToNat] at hlow hhigh
  unfold tailBits
  omega

theorem value_of_four_ne {a b : UInt8} (ha : (0xF0 ≤ a && a ≤ 0xF4) = true)
    (hb : isSecondOfFour a b = true) (c d : UInt8) :
    ((a.toNat % 0x08 * 0x40 + tailBits b) * 0x40 + tailBits c) * 0x40 + tailBits d ≠ 10 := by
  obtain ⟨hlow, hhigh⟩ := bounds_of_range ha
  obtain ⟨hsecond, hsecond', hleast, -⟩ := bounds_of_isSecondOfFour hb
  simp only [UInt8.reduceToNat] at hlow hhigh
  unfold tailBits
  omega

/-- A newline in a text comes of its own byte, for no wider encoding of it is well formed. -/
theorem newline_not_mem_scan {bytes : Bytes} (h : terminator ∉ bytes) :
    some Text.newline ∉ scan bytes := by
  have hcons {n : Nat} {rest : List (Option Char)} (hn : n ≠ 10)
      (hrest : some Text.newline ∉ rest) :
      some Text.newline ∉ some (Char.ofNat n) :: rest :=
    List.not_mem_cons_of_ne_of_not_mem (ofNat_ne_newline hn).symm hrest
  have hnone {rest : List (Option Char)} (hrest : some Text.newline ∉ rest) :
      some Text.newline ∉ none :: rest :=
    List.not_mem_cons_of_ne_of_not_mem nofun hrest
  fun_induction scan bytes with
  | case1 => exact List.not_mem_nil
  | case2 a rest hone ih =>
    refine hcons ?_ (ih (List.not_mem_of_not_mem_cons h))
    intro heq
    have hbyte : a = terminator := UInt8.toNat_inj.1 heq
    exact h (hbyte ▸ List.mem_cons_self)
  | case3 a hone htwo b rest htail ih =>
    exact hcons (value_of_two_ne htwo b) (ih fun hmem => h (by simp [hmem]))
  | case6 a hone htwo hthree b hsecond c rest htail ih =>
    exact hcons (value_of_three_ne hthree hsecond c) (ih fun hmem => h (by simp [hmem]))
  | case11 a hone htwo hthree hfour b hsecond c htail d rest htail' ih =>
    exact hcons (value_of_four_ne hfour hsecond c d) (ih fun hmem => h (by simp [hmem]))
  -- Behind an ill-formed part the rest is read on, or nothing is left.
  | case4 | case7 | case9 | case12 | case14 | case16 | case18 =>
    next ih => exact hnone (ih fun hmem => h (by grind))
  | case5 | case8 | case10 | case13 | case15 | case17 => exact hnone List.not_mem_nil

theorem oneLine_decodeLenient {bytes : Bytes} (h : terminator ∉ bytes) :
    OneLine (decodeLenient bytes) := by
  intro hmem
  obtain ⟨part, hpart, heq⟩ := List.mem_map.1 hmem
  cases part with
  | none => cases heq
  | some c =>
    have hnewline : c = Text.newline := heq
    rw [hnewline] at hpart
    exact newline_not_mem_scan h hpart

end Utf8

/-- What a device gives for a line holds no terminator but the one at its end. -/
def GivesLines (ε : Type) [Device ε] : Prop :=
  ∀ (around : ε) (line : Bytes), (Device.readThrough terminator around).1 = .ok line →
    terminator ∉ dropTerminator line

namespace StreamLink

theorem Uses.terminator_not_mem {part : List Item} {line : Bytes}
    (h : Uses terminator part (.ok line)) : terminator ∉ dropTerminator line := by
  cases h with
  | line before hbefore =>
    rw [dropTerminator_terminated]
    exact hbefore
  | rest data hdata =>
    unfold dropTerminator
    rw [if_neg fun hlast => hdata (List.mem_of_getLast? hlast)]
    exact hdata

theorem givesLines : GivesLines StreamLink := by
  intro link line hread
  change (link.readThrough terminator).1 = .ok line at hread
  have htaken : ∃ items, (Item.take terminator [] items).1 = .ok line := by
    cases hopen : link.isOpen with
    | true =>
      have htake := congrArg Prod.fst (readThrough_eq hopen terminator)
      exact ⟨link.items, htake.symm.trans hread⟩
    | false =>
      unfold readThrough at hread
      simp only [hopen, Bool.not_false, if_true] at hread
      split at hread
      · next hcut =>
        cases hread
        have htake := Item.take_of_splitAfter (takeThrough_eq_some hcut) [] []
        exact ⟨_, congrArg Prod.fst htake⟩
      · cases hread
  obtain ⟨items, htake⟩ := htaken
  obtain ⟨part, pauses, -, huses⟩ := uses_take (List.not_mem_nil (a := terminator)) items
  rw [htake] at huses
  exact huses.terminator_not_mem

end StreamLink

theorem GivesLines.surroundings {δ φ η : Type} [Device δ] [FileStore φ] [Host η]
    (h : GivesLines δ) : GivesLines (Surroundings δ φ η) :=
  fun around line hread => h around.device line hread

theorem GivesLines.recorded {ε : Type} [Environment ε] (h : GivesLines ε) :
    GivesLines (Recorded ε) :=
  fun around line hread => h around.around line hread

theorem asciiByte_eq_terminator_iff {c : Char} : asciiByte c = terminator ↔ c = Text.newline := by
  by_cases hwide : c.toNat < 128
  · exact forall_ascii (P := fun c => asciiByte c = terminator ↔ c = Text.newline) (by decide) hwide
  · rw [asciiByte_of_not_lt hwide]
    refine iff_of_false (by decide) ?_
    rintro rfl
    exact hwide (by decide)

/-- A text of one line goes out as one line. -/
theorem OneLine.encode {line : Text} (h : OneLine line) :
    ∃ body, (Frame.text line).encode = .ok (body ++ [terminator]) ∧ terminator ∉ body := by
  refine ⟨asciiBytes line, rfl, ?_⟩
  intro hmem
  obtain ⟨c, hc, heq⟩ := List.mem_map.1 hmem
  exact h (asciiByte_eq_terminator_iff.1 heq ▸ hc)

theorem IsHexText.oneLine {limit : Nat} {text : Text} (h : IsHexText limit text) :
    OneLine (text.map Char.toUpper) := by
  obtain ⟨⟨first, rest, rfl, hfirst, hrest⟩, -⟩ := h
  have hdigit {c : Char} (hc : IsHexDigit c) : c.toUpper ≠ Text.newline := by
    intro heq
    have hlow := hc.toUpper_bounds.1
    rw [heq] at hlow
    exact absurd hlow (by decide)
  have htag {c : Char} (hc : isHexTag c = true) : c.toUpper ≠ Text.newline := by
    simp only [isHexTag, Bool.or_eq_true, beq_iff_eq] at hc
    rcases hc with (rfl | rfl) | rfl <;> decide
  intro hmem
  obtain ⟨c, hc, heq⟩ := List.mem_map.1 hmem
  rcases List.mem_cons.1 hc with rfl | hc
  · exact hfirst.elim (fun h => htag h heq) fun h => hdigit h heq
  · rcases hrest c hc with rfl | h
    · exact absurd heq (by decide)
    · exact hdigit h heq

theorem oneLine_of_hexFrame {limit : Nat} {text line : Text}
    (h : hexFrame limit text = .ok (.text line)) : OneLine line := by
  obtain ⟨sent, rfl, hsent⟩ := hexFrame_text h
  exact hsent.oneLine

namespace Piece

theorem mem_of_plain {text : Text} {c : Char} (h : Piece.plain c ∈ ofText text) : c ∈ text := by
  fun_induction ofText text with
  | case1 => cases h
  | case2 d rest hname ih =>
    rcases List.mem_cons.1 h with heq | h
    · cases heq
    · exact List.mem_cons_of_mem _ ((List.dropWhile_sublist _).subset (ih h))
  | case3 d rest hname ih =>
    rcases List.mem_cons.1 h with heq | h
    · cases heq
      exact List.mem_cons_self
    · exact List.mem_cons_of_mem _ (ih h)

theorem oneLine_expand {ε : Type} {value : Text → Except ε Text} {pieces : List Piece} {text : Text}
    (hp : ∀ c, Piece.plain c ∈ pieces → c ≠ Text.newline)
    (hv : ∀ name replacement, value name = .ok replacement → OneLine replacement)
    (h : expand value pieces = .ok text) : OneLine text := by
  induction pieces generalizing text with
  | nil =>
    cases h
    exact List.not_mem_nil
  | cons piece rest ih =>
    have hplain : ∀ c, Piece.plain c ∈ rest → c ≠ Text.newline :=
      fun c hc => hp c (List.mem_cons_of_mem _ hc)
    cases piece with
    | plain c =>
      rw [expand] at h
      split at h
      · next hexpand =>
        cases h
        have hne := hp c List.mem_cons_self
        exact List.not_mem_cons_of_ne_of_not_mem hne.symm (ih hplain hexpand)
      · cases h
    | reference name =>
      rw [expand] at h
      split at h
      · cases h
      · next hvalue =>
        split at h
        · next hexpand =>
          cases h
          exact (hv name _ hvalue).append (ih hplain hexpand)
        · cases h

end Piece

namespace Variables

def OneLined (bindings : Variables) : Prop :=
  ∀ name value, bindings.get? name = some value → OneLine value

variable {bindings : Variables}

theorem OneLined.valueOf (h : bindings.OneLined) {name value : Text}
    (hv : bindings.valueOf name = .ok value) : OneLine value := by
  unfold Variables.valueOf at hv
  split at hv
  · next hget =>
    cases hv
    exact h name value hget
  · cases hv

theorem OneLined.expand (h : bindings.OneLined) {text line : Text} (ht : OneLine text)
    (he : bindings.expand text = .ok line) : OneLine line := by
  refine Piece.oneLine_expand ?_ (fun _ _ => h.valueOf) he
  rintro c hc rfl
  exact ht (Piece.mem_of_plain hc)

theorem OneLined.operand (h : bindings.OneLined) {text value : Text} (ht : OneLine text)
    (ho : bindings.operand text = .ok value) : OneLine value := by
  unfold Variables.operand at ho
  split at ho
  · exact h.valueOf ho
  · cases ho
    exact ht

theorem OneLined.insert (h : bindings.OneLined) (name : Text) {value : Text} (hv : OneLine value) :
    OneLined (bindings.insert name value) := by
  intro other found hget
  rw [Table.get?_insert] at hget
  split at hget
  · cases hget
    exact hv
  · exact h other found hget

theorem OneLined.assign (h : bindings.OneLined) {assignment row name : Text} {after : Variables}
    (ha : OneLine assignment) (hr : OneLine row)
    (hok : bindings.assign assignment row = .ok (name, after)) : after.OneLined := by
  unfold Variables.assign at hok
  cases hsides : assignmentSides assignment with
  | mk target given =>
    rw [hsides] at hok
    simp only at hok
    split at hok
    · cases hok
    · cases given with
      | none =>
        cases hok
        exact h.insert _ hr
      | some value =>
        have hvalue : OneLine value := by
          unfold assignmentSides at hsides
          split at hsides
          · next before after hcut =>
            cases hsides
            apply ha.of_subset
            intro c hc
            rw [Text.splitOnce_eq hcut]
            exact List.mem_append_right _ (Text.mem_of_mem_trim hc)
          · cases hsides
        simp only at hok
        split at hok
        · next hoperand =>
          cases hok
          exact h.insert _ (h.operand hvalue hoperand)
        · cases hok

end Variables

namespace Passage

def AppendsLine : Passage → Prop
  | .appended _ line _ => OneLine line
  | _ => True

end Passage

namespace Workspace

variable {ε : Type} [Environment ε]

/-- No newline has found its way in, and none has gone out to a file. -/
structure Clean (w : Workspace (Recorded ε)) : Prop where
  row : OneLine w.lastRow
  values : w.bindings.OneLined
  appended : ∀ p ∈ w.around.record, p.AppendsLine

variable {w w' : Workspace (Recorded ε)}

omit [Environment ε] in
theorem Clean.of_record (h : w.Clean) {passed : List Passage} (hrow : OneLine w'.lastRow)
    (hbindings : w'.bindings = w.bindings) (hrecord : w'.around.record = w.around.record ++ passed)
    (hpassed : ∀ p ∈ passed, p.AppendsLine) : w'.Clean := by
  refine ⟨hrow, ?_, ?_⟩
  · rw [hbindings]
    exact h.values
  · rw [hrecord]
    exact List.forall_mem_append.2 ⟨h.appended, hpassed⟩

theorem Clean.notify (h : w.Clean) (note : Notification) : (w.notify note).Clean :=
  h.of_record h.row rfl rfl (by simp [Passage.AppendsLine])

theorem Clean.observe (h : w.Clean) (command : Command) : (w.observe command).Clean :=
  h.of_record h.row rfl rfl (by simp [Passage.AppendsLine])

theorem Sent.clean (hd : GivesLines ε) (h : w.Clean) {frame : Except LinkError Frame}
    {outcome : Except ScriptError Unit × Workspace (Recorded ε)} (hs : Sent frame w outcome) :
    outcome.2.Clean := by
  cases hs with
  | unformed => exact h
  | unwritten _ hr => exact h.of_record h.row rfl hr (by simp [Passage.AppendsLine])
  | unanswered _ hr => exact h.of_record h.row rfl hr (by simp [Passage.AppendsLine])
  | answered _ hl hr =>
    have hrow := Utf8.oneLine_decodeLenient (hd.recorded _ _ hl)
    exact h.of_record hrow rfl hr (by simp [Passage.AppendsLine])

theorem Clean.sendAny (hd : GivesLines ε) (h : w.Clean) (frame : Except LinkError Frame) :
    (w.sendAny frame).2.Clean :=
  Sent.clean hd h (sent_sendAny frame w)

theorem Clean.send (hd : GivesLines ε) (h : w.Clean) (frame : Frame) : (w.send frame).2.Clean :=
  h.sendAny hd (.ok frame)

theorem Clean.sendLines (hd : GivesLines ε) (h : w.Clean) (limit : Nat) (lines : List Text) :
    (w.sendLines limit lines).2.Clean := by
  induction lines generalizing w with
  | nil => exact h
  | cons line rest ih =>
    have hline : (w.sendDigits limit line).2.Clean := h.sendAny hd _
    rw [Workspace.sendLines]
    generalize w.sendDigits limit line = outcome at hline
    obtain ⟨result, w'⟩ := outcome
    cases result with
    | error e => exact hline
    | ok => exact ih hline

theorem Clean.sendFile (hd : GivesLines ε) (h : w.Clean) (limit : Nat) (command : Command) :
    (w.sendFile limit command).2.Clean := by
  unfold Workspace.sendFile
  by_cases hpath : command.argument = []
  · rw [if_pos hpath]
    exact h.notify _
  · have hread : Clean { w with around := (FileStore.readLines command.argument w.around).2 } :=
      h.of_record h.row rfl rfl (by simp [Passage.AppendsLine])
    rw [if_neg hpath]
    generalize FileStore.readLines command.argument w.around = out at hread
    obtain ⟨result, around⟩ := out
    cases result with
    | error cause => exact hread.notify _
    | ok lines => exact hread.sendLines hd limit _

theorem Clean.appendRow (h : w.Clean) (defaultOutput : Option Text) (command : Command) :
    (w.appendRow defaultOutput command).Clean := by
  unfold Workspace.appendRow
  simp only
  generalize (if command.argument = [] then defaultOutput else some command.argument) = path?
  cases path? with
  | none => exact h.notify _
  | some path =>
    have happend : Clean { w with around := (FileStore.appendLine path w.lastRow w.around).2 } :=
      h.of_record h.row rfl rfl (by simpa [Passage.AppendsLine] using h.row)
    simp only
    generalize FileStore.appendLine path w.lastRow w.around = out at happend
    obtain ⟨result, around⟩ := out
    cases result with
    | error cause => exact happend.notify _
    | ok => exact happend

theorem Clean.proceed {command : Command}
    {outcome : Except ScriptError Unit × Workspace (Recorded ε)} (h : outcome.2.Clean) :
    (Workspace.proceed command outcome).2.Clean := by
  obtain ⟨result, w'⟩ := outcome
  cases result <;> exact h

theorem Clean.withLine (h : w.Clean) {command : Command}
    {action : Text → Except ScriptError Unit × Workspace (Recorded ε)}
    (ha : ∀ line, (action line).2.Clean) : (Workspace.withLine command w action).2.Clean := by
  unfold Workspace.withLine
  split
  · exact Clean.proceed (ha _)
  · exact h

end Workspace

theorem Command.oneLine_raw {command : Command} (h : OneLine command.line) :
    OneLine command.raw := by
  apply h.of_subset
  intro c hc
  match command, hc with
  | .textual tag raw, hc => exact List.mem_cons_of_mem _ hc
  | .binary [], hc => cases hc
  | .binary (d :: rest), hc =>
    rw [raw] at hc
    split at hc
    · exact List.mem_cons_of_mem _ hc
    · cases hc

namespace Workspace

variable {ε : Type} [Environment ε] {w : Workspace (Recorded ε)}

theorem Clean.perform (hd : GivesLines ε) (h : w.Clean) (settings : Settings) {command : Command}
    (hc : OneLine command.line) : (w.perform settings command).2.Clean := by
  unfold Workspace.perform
  cases ha : command.action with
  | condition | jump | quit | routine => exact h
  | define =>
    simp only
    split
    · exact Clean.proceed h
    · next bindings hassign =>
      have hraw : OneLine (Text.trim command.raw) :=
        (Command.oneLine_raw hc).of_subset fun _ => Text.mem_of_mem_trim
      have hdefined : Clean { w with bindings } :=
        ⟨h.row, h.values.assign hraw h.row hassign, h.appended⟩
      exact hdefined.notify _
  | data => exact Clean.proceed (h.send hd _)
  | hex | checksum => exact h.withLine fun line => h.sendAny hd _
  | sendFile => exact Clean.proceed (h.sendFile hd _ command)
  | message | ask => exact h.notify _
  | append => exact h.appendRow _ command
  | forward => exact h.withLine fun line => h.send hd _

omit [Environment ε] in
theorem oneLine_of_mem_outgoingLine (h : w.Clean) {command : Command} (hc : OneLine command.line)
    {frame : Text → Except LinkError Frame} {line : Text}
    (hf : ∀ text, OneLine text → frame text = .ok (.text line) → OneLine line)
    (hm : .ok (.text line) ∈ w.outgoingLine command frame) : OneLine line := by
  unfold outgoingLine at hm
  split at hm
  · next text hexpand =>
    exact hf text (h.values.expand hc hexpand) (List.mem_singleton.1 hm).symm
  · cases hm

/-- Whatever a command sends as text is one line. -/
theorem Clean.outgoing (h : w.Clean) (settings : Settings) {command : Command}
    (hc : OneLine command.line) {line : Text}
    (hm : .ok (.text line) ∈ w.outgoing settings command) : OneLine line := by
  unfold Workspace.outgoing at hm
  split at hm
  · cases List.mem_singleton.1 hm
  · exact oneLine_of_mem_outgoingLine h hc (fun _ _ => oneLine_of_hexFrame) hm
  · obtain ⟨text, -, heq⟩ := List.mem_map.1 hm
    exact oneLine_of_hexFrame heq
  · exact oneLine_of_mem_outgoingLine h hc
      (fun _ _ heq => oneLine_of_hexFrame (checksumFrame_text heq)) hm
  · refine oneLine_of_mem_outgoingLine h hc (fun text ht heq => ?_) hm
    cases heq
    exact ht
  · cases hm

theorem isInvariant_clean (hd : GivesLines ε) (settings : Settings) :
    IsInvariant settings (fun command => OneLine command.line) OneLine
      (Clean (ε := ε)) where
  flag _ _ h := ⟨h.row, h.values, h.appended⟩
  answer _ _ hi h := ⟨hi, h.values, h.appended⟩
  notify note _ h := h.notify note
  observe command _ h := h.observe command
  perform _ _ hc h := h.perform hd settings hc

end Workspace

theorem LineClass.oneLine_of_ofLine {line : Text} {command : Command} (h : OneLine line)
    (hc : (LineClass.ofLine line).command? = some command) : OneLine command.line := by
  apply h.of_subset
  intro c hmem
  unfold LineClass.ofLine at hc
  split at hc
  · cases hc
  · next tag raw htrim =>
    split at hc
    · cases hc
    · split at hc
      · cases hc
      · split at hc
        · cases hc
          exact (List.dropWhile_sublist _).subset hmem
        · cases hc
          have htrimmed : c ∈ Text.trim line := by
            rw [htrim]
            exact hmem
          exact Text.mem_of_mem_trim htrimmed

namespace Engine

section Feeds

variable {ε : Type} [Environment ε]

/-- Whatever a call brings from the host or loads from a file is text of one line each. -/
def Feeds (e : Engine ε) : Call → Prop
  | .load lines => ∀ line ∈ lines, OneLine line
  | .loadFrom path => ∀ lines, (FileStore.readLines path e.workspace.around).1 = .ok lines →
      ∀ line ∈ lines, OneLine line
  | call => ∀ input ∈ call.inputs, OneLine input

def FeedsAll (e : Engine ε) : List Call → Prop
  | [] => True
  | call :: rest => e.Feeds call ∧ (e.call call).2.FeedsAll rest

end Feeds

variable {ε : Type} [Environment ε] {e : Engine (Recorded ε)} {settings : Settings}

omit [Environment ε] in
theorem command?_of_fetched? {m : Engine ε} {top : Invocation} {command : Command}
    (h : m.fetched? = some (top, command)) :
    m.routines.command? top.routine top.position = some command := by
  unfold fetched? at h
  split at h
  · cases h
  · split at h
    · cases h
    · obtain ⟨found, hfound, heq⟩ := Option.map_eq_some_iff.1 h
      cases heq
      exact hfound

/-- No newline has found its way into an engine or its script. -/
abbrev Clean (settings : Settings) (e : Engine (Recorded ε)) : Prop :=
  Holds settings (fun command => OneLine command.line) Workspace.Clean e

theorem Clean.outgoing (h : e.Clean settings) {line : Text} (hm : .ok (.text line) ∈ e.outgoing) :
    OneLine line := by
  unfold Engine.outgoing at hm
  split at hm
  · next top command hfetched =>
    split at hm
    · have hcommand := h.routines _ _ _ (command?_of_fetched? hfetched)
      exact h.workspace.outgoing _ hcommand hm
    · cases hm
  · cases hm

theorem Clean.adopt (h : e.Clean settings) {loaded : Except ScriptError Routines}
    (hl : ∀ table, loaded = .ok table → table.All fun command => OneLine command.line) :
    (e.adopt loaded).2.Clean settings := by
  cases loaded with
  | ok table => exact ⟨h.settings, hl table rfl, h.workspace⟩
  | error error => exact ⟨h.settings, h.routines, h.workspace.notify _⟩

theorem oneLine_of_ofLines {lines : List Text} (h : ∀ line ∈ lines, OneLine line)
    {table : Routines} (hok : Routines.ofLines lines = .ok table) :
    table.All fun command => OneLine command.line :=
  Routines.all_of_ofLines hok fun line hline _ => LineClass.oneLine_of_ofLine (h line hline)

omit [Environment ε] in
theorem Clean.forget (h : e.Clean settings) : e.forget.Clean settings :=
  ⟨h.settings, Routines.all_empty, List.not_mem_nil, nofun, h.workspace.appended⟩

/-- What a call is given without newlines leaves everything without them. -/
theorem Clean.call (hd : GivesLines ε) (h : e.Clean settings) {call : Call} (hf : e.Feeds call) :
    (∀ m ∈ e.courseOf call, m.Clean settings) ∧ (e.call call).2.Clean settings := by
  have hP := Workspace.isInvariant_clean hd settings
  rcases refused_or_free e call with ⟨hw, hb⟩ | hw
  · rw [call_of_begins hw hb, courseOf_of_begins hw hb]
    exact ⟨List.forall_mem_nil _, h⟩
  · cases call with
    | load lines =>
      refine ⟨List.forall_mem_nil _, ?_⟩
      simp only [Engine.call, load_of_not_waiting (hw rfl)]
      exact h.forget.adopt fun _ => oneLine_of_ofLines hf
    | loadFrom path =>
      refine ⟨List.forall_mem_nil _, ?_⟩
      simp only [Engine.call, loadFrom_of_not_waiting (hw rfl)]
      have hforget := h.forget
      have hread : Clean settings (e.forget.mapWorkspace fun w =>
          { w with around := (FileStore.readLines path e.workspace.around).2 }) :=
        ⟨hforget.settings, hforget.routines,
          hforget.workspace.of_record hforget.workspace.row rfl rfl (by simp [Passage.AppendsLine])⟩
      refine hread.adopt fun table hok => ?_
      cases hlines : (FileStore.readLines path e.workspace.around).1 with
      | error cause =>
        rw [hlines] at hok
        cases hok
      | ok lines =>
        rw [hlines] at hok
        exact oneLine_of_ofLines (hf lines hlines) hok
    | run | resume | runAnswered => exact h.call_of_runs hP rfl hf
    | cancel => exact ⟨List.forall_mem_nil _, h.settings, h.routines, hP.flag _ true h.workspace⟩
    | sendDigits | sendChecksum =>
      exact ⟨List.forall_mem_nil _, h.settings, h.routines, h.workspace.sendAny hd _⟩
    | close =>
      exact ⟨List.forall_mem_nil _, h.settings, h.routines,
        h.workspace.of_record h.workspace.row rfl rfl (by simp [Passage.AppendsLine])⟩

theorem Clean.outgoingOf (hd : GivesLines ε) (h : e.Clean settings) {call : Call}
    (hf : e.Feeds call) : ∀ group ∈ e.outgoingOf call, ∀ line, .ok (.text line) ∈ group →
      OneLine line := by
  have hcourse := (h.call hd hf).1
  intro group hgroup line hline
  cases call with
  | sendDigits text =>
    rw [List.mem_singleton.1 hgroup, List.mem_singleton] at hline
    exact oneLine_of_hexFrame hline.symm
  | sendChecksum text =>
    rw [List.mem_singleton.1 hgroup, List.mem_singleton] at hline
    exact oneLine_of_hexFrame (checksumFrame_text hline.symm)
  | load | loadFrom | cancel | close => cases hgroup
  | run | resume | runAnswered =>
    obtain ⟨m, hm, rfl⟩ := List.mem_map.1 hgroup
    exact (hcourse m hm).outgoing hline

theorem Clean.callAll (hd : GivesLines ε) (h : e.Clean settings) {calls : List Call}
    (hf : e.FeedsAll calls) :
    (∀ m ∈ e.courseOfAll calls, m.Clean settings) ∧ (e.callAll calls).2.Clean settings ∧
      ∀ group ∈ e.outgoingOfAll calls, ∀ line, .ok (.text line) ∈ group → OneLine line := by
  induction calls generalizing e with
  | nil => exact ⟨List.forall_mem_nil _, h, List.forall_mem_nil _⟩
  | cons call rest ih =>
    obtain ⟨hcall, hrest⟩ := hf
    obtain ⟨hcourse, hafter⟩ := h.call hd hcall
    obtain ⟨hcourses, hleft, hgroups⟩ := ih hafter hrest
    rw [courseOfAll, callAll_cons, outgoingOfAll]
    exact ⟨List.forall_mem_append.2 ⟨hcourse, hcourses⟩, hleft,
      List.forall_mem_append.2 ⟨h.outgoingOf hd hcall, hgroups⟩⟩

section Stream

variable {φ η : Type} [FileStore φ] [Host η]

def connected (settings : Settings) (link : StreamLink) (files : φ) (host : η) :
    Engine (Recorded (Surroundings StreamLink φ η)) :=
  idle settings ⟨⟨link, files, host⟩, []⟩

/-- Whatever the stream brings, no newline gets into the rows, into the variables or into files as
long as none comes from the host or the script. What is written are the frames of the commands, and
each that is text is one line of the wire. -/
theorem no_injection (settings : Settings) (link : StreamLink) (files : φ) (host : η)
    {calls : List Call} (h : (connected settings link files host).FeedsAll calls) :
    let start := connected settings link files host
    (∀ m ∈ start.courseOfAll calls, m.workspace.Clean) ∧ (start.callAll calls).2.workspace.Clean ∧
      Traffic (start.outgoingOfAll calls) (traffic (start.callAll calls).2.record) ∧
      ∀ group ∈ start.outgoingOfAll calls, ∀ line, .ok (.text line) ∈ group →
        ∃ body, (Frame.text line).encode = .ok (body ++ [terminator]) ∧ terminator ∉ body := by
  intro start
  have hd : GivesLines (Surroundings StreamLink φ η) := StreamLink.givesLines.surroundings
  have hstart : start.Clean settings :=
    ⟨rfl, Routines.all_empty, List.not_mem_nil, nofun, nofun⟩
  obtain ⟨hcourse, hleft, htext⟩ := hstart.callAll hd h
  obtain ⟨passed, hrecord, htraffic⟩ := transfers_callAll calls start
  have hall : (start.callAll calls).2.record = passed := hrecord
  refine ⟨fun m hm => (hcourse m hm).workspace, hleft.workspace, ?_, ?_⟩
  · rw [hall]
    exact htraffic
  · intro group hgroup line hline
    exact (htext group hgroup line hline).encode

end Stream

def keeping : Engine (Recorded (Surroundings StreamLink MemoryFiles Transcript)) :=
  connected {} { arrivals := [.bytes [0x61, 0x0A, 0x62, 0x0A]] } {} {}

theorem no_injection_keeping :
    let lines := [['D', ' ', 'x'], ['W', ' ', 'f']]
    let after := (keeping.callAll [.load lines, .run []]).2
    keeping.FeedsAll [.load lines, .run []] ∧ after.workspace.lastRow = ['a'] ∧
      after.workspace.around.appends = [(['f'], ['a'], .ok ())] ∧ after.workspace.Clean := by
  intro lines after
  have hfeeds : keeping.FeedsAll [.load lines, .run []] := by
    refine ⟨?_, nofun, trivial⟩
    change ∀ line ∈ [['D', ' ', 'x'], ['W', ' ', 'f']], OneLine line
    decide
  obtain ⟨standing, left, hloop, hrow, hkept⟩ : ∃ standing left,
      loop 4 { (keeping.call (.load lines)).2.begun with stack := [{ routine := [] }] }
        = some (standing, left) ∧ left.workspace.lastRow = ['a'] ∧
        left.workspace.around.appends = [(['f'], ['a'], .ok ())] :=
    ⟨_, _, rfl, rfl, rfl⟩
  have hafter : after = left := by
    change ((keeping.call (.load lines)).2.callAll [.run []]).2 = left
    rw [callAll_run_of_loop rfl (by decide) hloop]
  rw [hafter]
  refine ⟨hfeeds, hrow, hkept, ?_⟩
  rw [← hafter]
  exact (no_injection {} _ _ _ hfeeds).2.1

end Engine
end BenchScript
