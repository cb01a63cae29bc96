import BenchScript.Text.Blank
import BenchScript.Text.Utf8

set_option autoImplicit false

namespace BenchScript

inductive Action where
  | condition
  | define
  | jump
  | data
  | hex
  | sendFile
  | message
  | quit
  | ask
  | append
  | checksum
  | routine
  | forward (tag : Char)
deriving DecidableEq, Repr

def Action.ofTag (tag : Char) : Action :=
  if tag = '?' then .condition
  else if tag = '$' then .define
  else if tag = 'J' then .jump
  else if tag = 'D' then .data
  else if tag = 'H' ∨ tag = 'Z' then .hex
  else if tag = 'L' then .sendFile
  else if tag = 'M' then .message
  else if tag = 'Q' then .quit
  else if tag = 'U' then .ask
  else if tag = 'W' then .append
  else if tag = 'X' then .checksum
  else if tag = ':' then .routine
  else .forward tag

theorem Action.ite_ne {c : Prop} [Decidable c] {a b action : Action} (ha : a ≠ action)
    (hb : b ≠ action) : (if c then a else b) ≠ action := by
  split <;> assumption

theorem Action.ofTag_eq_data_iff {tag : Char} : Action.ofTag tag = .data ↔ tag = 'D' := by
  by_cases h : tag = 'D'
  · subst h
    decide
  · refine iff_of_false ?_ h
    unfold Action.ofTag
    rw [if_neg h]
    repeat refine Action.ite_ne (by decide) ?_
    nofun

theorem Action.ofTag_eq_routine_iff {tag : Char} : Action.ofTag tag = .routine ↔ tag = ':' := by
  by_cases h : tag = ':'
  · subst h
    decide
  · refine iff_of_false ?_ h
    unfold Action.ofTag
    rw [if_neg h]
    repeat refine Action.ite_ne (by decide) ?_
    nofun

inductive Command where
  | textual (tag : Char) (raw : Text)
  | binary (line : Text)
deriving DecidableEq, Repr

namespace Command

def ofLine? : Text → Option Command
  | [] => none
  | tag :: raw => some (.textual tag raw)

def line : Command → Text
  | .textual tag raw => tag :: raw
  | .binary line => line

/-- The tag; a line of binary data is a data command whatever it begins with. -/
def tag : Command → Char
  | .textual tag _ => tag
  | .binary _ => 'D'

/-- The text after the tag. A binary line that begins with a wider character than the one-byte tag
has none. -/
def raw : Command → Text
  | .textual _ raw => raw
  | .binary [] => []
  | .binary (c :: rest) => if c.toNat < 0x80 then rest else []

def text? : Command → Option Text
  | .textual _ (_ :: c :: rest) => some (c :: rest)
  | _ => none

def payload? : Command → Option Bytes
  | .textual _ _ => none
  | .binary line => some ((Utf8.encode line).drop 2)

def parameters (command : Command) : List Text := (command.text?.map Text.words).getD []

def action : Command → Action
  | .textual tag _ => .ofTag tag
  | .binary _ => .data

def argument (command : Command) : Text :=
  Text.trim (Text.dropLeading ':' (Text.trim command.raw))

theorem line_eq_tag_cons_raw {line : Text} {command : Command} (h : ofLine? line = some command) :
    line = command.tag :: command.raw := by
  cases line with
  | nil => simp [ofLine?] at h
  | cons c rest =>
    simp only [ofLine?, Option.some.injEq] at h
    subst h
    rfl

end Command
end BenchScript
