import BenchScript.CommandLine.Grammar
import BenchScript.Launch.Endpoint
import BenchScript.Settings.Reader

set_option autoImplicit false

namespace BenchScript

namespace Text

theorem decimal_ne_nil (n : Nat) : decimal n ≠ [] :=
  List.ne_nil_of_length_pos Nat.length_toDigits_pos

theorem isDigit_of_mem_decimal {n : Nat} {c : Char} (h : c ∈ decimal n) : c.isDigit = true :=
  Nat.isDigit_of_mem_toDigits (by decide) (by decide) h

theorem decimal_of_lt {n : Nat} (h : n < 10) : decimal n = [Nat.digitChar n] :=
  Nat.toDigits_of_lt_base h

theorem decimal_of_le {n : Nat} (h : 10 ≤ n) :
    decimal n = decimal (n / 10) ++ [Nat.digitChar (n % 10)] :=
  Nat.toDigits_of_base_le (by decide) h

/-- Only zero is written with a zero in front. -/
theorem head?_decimal_ne {n : Nat} (h : 0 < n) : (decimal n).head? ≠ some '0' := by
  induction n using Nat.strongRecOn with
  | ind n ih =>
    by_cases hn : n < 10
    · have hall : ∀ n < 10, 0 < n → (some (Nat.digitChar n)) ≠ some '0' := by decide
      rw [decimal_of_lt hn]
      exact hall n hn h
    · have hrest := ih (n / 10) (by omega) (by omega)
      obtain ⟨c, digits, hdigits⟩ := List.exists_cons_of_ne_nil (decimal_ne_nil (n / 10))
      rw [decimal_of_le (by omega), hdigits]
      rw [hdigits] at hrest
      exact hrest

theorem dropLeading_decimal {c : Char} (hc : c.isDigit = false) (n : Nat) :
    dropLeading c (decimal n) = decimal n := by
  refine dropLeading_of_head?_ne fun hhead => ?_
  rw [isDigit_of_mem_decimal (List.mem_of_head? hhead)] at hc
  cases hc

end Text

namespace Settings

theorem natIn_decimal (n : Nat) : natIn 10 (Text.decimal n) = some n := by
  rw [natIn, if_neg (Text.decimal_ne_nil n)]
  induction n using Nat.strongRecOn with
  | ind n ih =>
    have hdigit : ∀ d < 10, digitIn 10 (Nat.digitChar d) = some d := by decide
    by_cases hn : n < 10
    · rw [Text.decimal_of_lt hn]
      simp [hdigit n hn]
    · rw [Text.decimal_of_le (by omega), List.foldl_append, ih (n / 10) (by omega)]
      simp [hdigit (n % 10) (Nat.mod_lt _ (by decide))]
      omega

theorem number_decimal (n : Nat) : number (Text.decimal n) = some n := by
  have hread := natIn_decimal n
  rcases Nat.eq_zero_or_pos n with rfl | hn
  · rfl
  · have hhead := Text.head?_decimal_ne hn
    rw [number, Text.dropLeading_decimal (by decide)]
    -- The prefixes of other bases begin with a zero, which these digits do not.
    generalize Text.decimal n = digits at hhead hread
    split
    · exact absurd rfl hhead
    · exact absurd rfl hhead
    · exact absurd rfl hhead
    · exact absurd rfl hhead
    · exact hread

end Settings

namespace CommandLine

theorem number32?_decimal {n : Nat} (h : n < UInt32.size) :
    number32? (Text.decimal n) = some n := by
  have hdigit : ∀ c ∈ Text.decimal n, c.isDigit = true := fun _ => Text.isDigit_of_mem_decimal
  have hsome := Text.decimal_ne_nil n
  have hvalue : Nat.ofDigitChars 10 (Text.decimal n) 0 = n :=
    Nat.ofDigitChars_toDigits (by decide) (by decide)
  unfold number32?
  generalize Text.decimal n = digits at hdigit hsome hvalue
  have hall : digits.any (fun c => !c.isDigit) = false := by
    rw [List.any_eq_false]
    intro c hc
    simp [hdigit c hc]
  split
  next digits' isNegative hsign =>
  split at hsign
  · exact absurd (hdigit '-' (List.mem_cons_self ..)) (by decide)
  · exact absurd (hdigit '+' (List.mem_cons_self ..)) (by decide)
  · cases hsign
    have hfold : digits.foldl (fun n c => 10 * n + (c.toNat - '0'.toNat)) 0 = n := hvalue
    simp only [hsome, hall, hfold, h, Bool.false_eq_true, or_self, if_false, false_implies,
      and_self, if_true]

end CommandLine

theorem Endpoint.decimalBelow_decimal (bound n : Nat) :
    decimalBelow bound (Text.decimal n) = if n < bound then some n else none := by
  have hdigit : ∀ c ∈ Text.decimal n, c.isDigit = true := fun _ => Text.isDigit_of_mem_decimal
  have hfold : ∀ (digits : Text) (k : Nat), (∀ c ∈ digits, c.isDigit = true) →
      digits.foldl (fun n c => n.bind fun n =>
        if c.isDigit then some (10 * n + (c.toNat - '0'.toNat)) else none) (some k)
        = some (Nat.ofDigitChars 10 digits k) := by
    intro digits
    induction digits with
    | nil => exact fun _ _ => rfl
    | cons c digits ih =>
      intro k hdigits
      rw [List.foldl_cons, Option.bind_some, if_pos (hdigits c (List.mem_cons_self ..)),
        ih _ fun d hd => hdigits d (List.mem_cons_of_mem _ hd)]
      rfl
  have hvalue : Nat.ofDigitChars 10 (Text.decimal n) 0 = n :=
    Nat.ofDigitChars_toDigits (by decide) (by decide)
  rw [decimalBelow, Text.dropLeading_decimal (by decide)]
  simp only [Text.decimal_ne_nil n, if_false, hfold _ 0 hdigit, hvalue]
  simp [Option.filter]

end BenchScript
