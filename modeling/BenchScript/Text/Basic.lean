set_option autoImplicit false

namespace BenchScript

abbrev Text := List Char

abbrev Bytes := List UInt8

namespace Text

def newline : Char := '\n'

def occursIn (part : Text) : Text → Bool
  | [] => part.isEmpty
  | c :: rest => part.isPrefixOf (c :: rest) || occursIn part rest

theorem occursIn_iff (part text : Text) : occursIn part text = true ↔ part <:+: text := by
  induction text with
  | nil => simp [occursIn]
  | cons c rest ih =>
    simp only [occursIn, Bool.or_eq_true, List.isPrefixOf_iff_prefix, ih, List.infix_cons_iff]

/-- Cuts a text at the first place where the separator stands, which is left out. -/
def splitOnce (separator : Text) : Text → Option (Text × Text)
  | [] => if separator.isEmpty then some ([], []) else none
  | c :: rest =>
    if separator.isPrefixOf (c :: rest) then some ([], (c :: rest).drop separator.length)
    else (splitOnce separator rest).map fun cut => (c :: cut.1, cut.2)

theorem splitOnce_eq {separator text before after : Text}
    (h : splitOnce separator text = some (before, after)) :
    text = before ++ separator ++ after := by
  induction text generalizing before after with
  | nil =>
    simp only [splitOnce] at h
    split at h
    · simp_all
    · simp at h
  | cons c rest ih =>
    simp only [splitOnce] at h
    split at h
    · next hp =>
      obtain ⟨tail, ht⟩ := List.isPrefixOf_iff_prefix.1 hp
      simp only [Option.some.injEq, Prod.mk.injEq] at h
      obtain ⟨rfl, rfl⟩ := h
      rw [← ht]
      simp
    · obtain ⟨cut, hcut, hpair⟩ := Option.map_eq_some_iff.1 h
      obtain ⟨b, a⟩ := cut
      simp only [Prod.mk.injEq] at hpair
      obtain ⟨rfl, rfl⟩ := hpair
      simp [ih hcut]

def dropLeading (c : Char) : Text → Text
  | [] => []
  | d :: rest => if d = c then rest else d :: rest

theorem dropLeading_cons_self (c : Char) (rest : Text) : dropLeading c (c :: rest) = rest :=
  if_pos rfl

theorem dropLeading_of_head?_ne {c : Char} {text : Text} (h : text.head? ≠ some c) :
    dropLeading c text = text := by
  cases text with
  | nil => rfl
  | cons d rest => exact if_neg fun heq => h (congrArg some heq)

def dropTrailing (p : Char → Bool) (text : Text) : Text :=
  (text.reverse.dropWhile p).reverse

def decimal (n : Nat) : Text := Nat.toDigits 10 n

def decimalPadded (width n : Nat) : Text :=
  let digits := decimal n
  List.replicate (width - digits.length) '0' ++ digits

def hexadecimal (n : Nat) : Text := Nat.toDigits 16 n

def precedes : Text → Text → Bool
  | [], _ => true
  | _ :: _, [] => false
  | c :: a, d :: b => c.toNat < d.toNat || (c == d && precedes a b)

def replaceEach (c : Char) (replacement text : Text) : Text :=
  text.flatMap fun d => if d = c then replacement else [d]

def consFirst (c : Char) : List Text → List Text
  | [] => [[c]]
  | line :: more => (c :: line) :: more

/-- The lines of a text: cut after each newline, which is dropped together with one carriage return
before it. What follows the last newline is a line of its own unless it is empty, and keeps its
carriage returns. -/
def lines : Text → List Text
  | [] => []
  | c :: rest =>
    if c = newline then [] :: lines rest
    else if c = '\r' ∧ rest.head? = some newline then lines rest
    else consFirst c (lines rest)

theorem lines_nil : lines [] = [] := rfl

end Text
end BenchScript
