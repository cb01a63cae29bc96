import BenchScript.Proofs.Cutting
import BenchScript.Proofs.Trimming
import BenchScript.Script.Condition

set_option autoImplicit false

namespace BenchScript

/-- The name that an operand refers to, if it has no value. -/
def Variables.undefinedIn? (bindings : Variables) (operand : Text) : Option Text :=
  if operand.head? = some '$' ∧ bindings.get? operand.tail = none then some operand.tail else none

/-- An operand has a value or names the variable that is missing. -/
theorem Variables.operand_eq (bindings : Variables) (text : Text) :
    (∃ value, bindings.operand text = .ok value ∧ bindings.undefinedIn? text = none) ∨
      ∃ name, bindings.operand text = .error (.undefinedVariable name)
        ∧ bindings.undefinedIn? text = some name := by
  unfold operand undefinedIn?
  split
  · next name =>
    unfold valueOf
    cases hvalue : bindings.get? name with
    | some value => exact .inl ⟨value, rfl, by simp [hvalue]⟩
    | none => exact .inr ⟨name, rfl, by simp [hvalue]⟩
  · next hliteral =>
    have hhead : text.head? ≠ some '$' := by
      intro hdollar
      obtain ⟨name, hname⟩ := List.head?_eq_some_iff.1 hdollar
      exact hliteral name hname
    exact .inl ⟨text, rfl, if_neg fun h => hhead h.1⟩

theorem Variables.exists_operand {bindings : Variables} {text : Text}
    (h : bindings.undefinedIn? text = none) : ∃ value, bindings.operand text = .ok value := by
  obtain ⟨value, hvalue, -⟩ | ⟨name, -, hname⟩ := bindings.operand_eq text
  · exact ⟨value, hvalue⟩
  · rw [h] at hname
    cases hname

namespace Condition

open Text (Trimmed IsFirstCut)

def bodyOf (text : Text) : Text := Text.trim (Text.dropLeading '?' (Text.trim text))

def sign (negated : Bool) : Text := if negated then differSign else equalSign

def render : Condition → Text
  | .always => ['?']
  | .lastRow operand => '?' :: operand
  | .compare left right negated => '?' :: left ++ ' ' :: (sign negated ++ ' ' :: right)

/-- How a body is divided: at its first sign for inequality, or if it has none at its first sign for
equality. -/
structure IsDivided (body left right : Text) (negated : Bool) : Prop where
  negated_iff : negated = true ↔ differSign <:+: body
  cut : IsFirstCut (sign negated) body left right

structure IsOperand (operand : Text) : Prop where
  nonempty : operand ≠ []
  trimmed : Trimmed operand

structure IsPlainOperand (operand : Text) : Prop extends IsOperand operand where
  signless : ∀ negated, ¬ sign negated <:+: operand

def IsReadable : Condition → Prop
  | .always => True
  | .lastRow operand => IsPlainOperand operand
  | .compare left right negated => IsOperand left ∧ IsOperand right ∧ ¬ sign negated <:+: left ∧
      (negated = false → ¬ differSign <:+: left ∧ ¬ differSign <:+: right)

theorem sign_ne_nil (negated : Bool) : sign negated ≠ [] := by
  cases negated <;> decide

theorem space_not_mem_sign (negated : Bool) : ' ' ∉ sign negated := by
  cases negated <;> decide

theorem isDivided_iff {body left right : Text} {negated : Bool} :
    IsDivided body left right negated ↔ Text.occursIn differSign body = negated ∧
      Text.splitOnce (sign negated) body = some (left, right) := by
  rw [Text.splitOnce_eq_some_iff]
  refine ⟨fun h => ⟨?_, h.cut⟩, fun h => ⟨?_, h.2⟩⟩
  · rw [Bool.eq_iff_iff, Text.occursIn_iff, h.negated_iff]
  · rw [← h.1, Text.occursIn_iff]

theorem IsDivided.body_ne_nil {body left right : Text} {negated : Bool}
    (h : IsDivided body left right negated) : body ≠ [] := by
  rw [h.cut.eq]
  simp [sign_ne_nil negated]

theorem signless_of_splitOnce {body : Text}
    (h : Text.splitOnce (sign (Text.occursIn differSign body)) body = none) (negated : Bool) :
    ¬ sign negated <:+: body := by
  rw [Text.splitOnce_eq_none_iff] at h
  have hdiffer : differSign <:+: body → Text.occursIn differSign body = true :=
    (Text.occursIn_iff _ _).2
  cases hdiffers : Text.occursIn differSign body with
  | true =>
    rw [hdiffers] at h
    exact absurd ((Text.occursIn_iff _ _).1 hdiffers) h
  | false =>
    rw [hdiffers] at h hdiffer
    cases negated with
    | false => exact h
    | true => exact fun hinfix => Bool.false_ne_true (hdiffer hinfix)

theorem isDivided_or_signless (body : Text) :
    (∃ left right negated, IsDivided body left right negated)
      ∨ ∀ negated, ¬ sign negated <:+: body := by
  cases hcut : Text.splitOnce (sign (Text.occursIn differSign body)) body with
  | none => exact .inr (signless_of_splitOnce hcut)
  | some cut => exact .inl ⟨cut.1, cut.2, _, isDivided_iff.2 ⟨rfl, hcut⟩⟩

theorem ofBody_eq {body : Text} (h : body ≠ []) :
    ofBody body = match Text.splitOnce (sign (Text.occursIn differSign body)) body with
      | none => .ok (.lastRow body)
      | some (left, right) =>
        if Text.trim left = [] ∨ Text.trim right = [] then .error (.format (.blankOperand body))
        else .ok (.compare (Text.trim left) (Text.trim right) (Text.occursIn differSign body)) :=
  if_neg h

theorem ofBody_of_isDivided {body left right : Text} {negated : Bool}
    (h : IsDivided body left right negated) :
    ofBody body = if Text.trim left = [] ∨ Text.trim right = []
      then .error (.format (.blankOperand body))
      else .ok (.compare (Text.trim left) (Text.trim right) negated) := by
  obtain ⟨hnegated, hcut⟩ := isDivided_iff.1 h
  rw [ofBody_eq h.body_ne_nil, hnegated, hcut]

theorem ofBody_of_signless {body : Text} (hne : body ≠ [])
    (h : ∀ negated, ¬ sign negated <:+: body) : ofBody body = .ok (.lastRow body) := by
  rw [ofBody_eq hne, Text.splitOnce_eq_none_iff.2 (h _)]

/-- Trimming brings no sign in. -/
theorem isReadable_of_isDivided {body left right : Text} {negated : Bool}
    (h : IsDivided body left right negated) (hleft : Text.trim left ≠ [])
    (hright : Text.trim right ≠ []) :
    (compare (Text.trim left) (Text.trim right) negated).IsReadable := by
  refine ⟨⟨hleft, Text.trimmed_trim left⟩, ⟨hright, Text.trimmed_trim right⟩, ?_, ?_⟩
  · exact fun hsign => h.cut.not_isInfix (sign_ne_nil negated)
      (hsign.trans (Text.isInfix_trim left))
  · rintro rfl
    have hnone : ¬ differSign <:+: body := mt h.negated_iff.2 (by decide)
    have hl : left <:+: body := ⟨[], sign false ++ right, by simp [h.cut.eq]⟩
    have hr : right <:+: body := ⟨left ++ sign false, [], by simp [h.cut.eq]⟩
    exact ⟨fun hsign => hnone ((hsign.trans (Text.isInfix_trim left)).trans hl),
      fun hsign => hnone ((hsign.trans (Text.isInfix_trim right)).trans hr)⟩

theorem isReadable_of_ofText {text : Text} {condition : Condition}
    (h : ofText text = .ok condition) : condition.IsReadable := by
  change ofBody (bodyOf text) = .ok condition at h
  by_cases hne : bodyOf text = []
  · rw [hne] at h
    cases h
    trivial
  · obtain ⟨left, right, negated, hdivided⟩ | hsignless := isDivided_or_signless (bodyOf text)
    · rw [ofBody_of_isDivided hdivided] at h
      split at h
      · cases h
      · next hblank =>
        cases h
        rw [not_or] at hblank
        exact isReadable_of_isDivided hdivided hblank.1 hblank.2
    · rw [ofBody_of_signless hne hsignless] at h
      cases h
      exact ⟨⟨hne, Text.trimmed_trim _⟩, hsignless⟩

/-- The question mark is no part of the body. -/
theorem bodyOf_cons_question (text : Text) : bodyOf ('?' :: text) = Text.trim text := by
  rw [bodyOf, Text.trim_cons_of_not_blank (by decide), Text.dropLeading, if_pos rfl,
    Text.trim_trimEnd]

theorem bodyOf_question {body : Text} (h : Trimmed body) : bodyOf ('?' :: body) = body := by
  rw [bodyOf_cons_question, h.trim_eq]

theorem IsOperand.trimmed_compare {left right : Text} (hl : IsOperand left) (hr : IsOperand right)
    (negated : Bool) : Trimmed (left ++ ' ' :: (sign negated ++ ' ' :: right)) := by
  have h := hl.trimmed.enclose hl.nonempty hr.trimmed hr.nonempty (' ' :: (sign negated ++ [' ']))
  simpa using h

/-- Only the sign in the middle is one that the text could be divided at. -/
theorem splitOnce_compare {left : Text} {negated : Bool} (h : ¬ sign negated <:+: left)
    (right : Text) :
    Text.splitOnce (sign negated) (left ++ ' ' :: (sign negated ++ ' ' :: right))
      = some (left ++ [' '], ' ' :: right) := by
  rw [Text.splitOnce_append_cons h (space_not_mem_sign negated), Text.splitOnce_separator]
  rfl

theorem occursIn_compare {left right : Text} {negated : Bool}
    (h : negated = false → ¬ differSign <:+: left ∧ ¬ differSign <:+: right) :
    Text.occursIn differSign (left ++ ' ' :: (sign negated ++ ' ' :: right)) = negated := by
  cases negated with
  | true =>
    exact (Text.occursIn_iff _ _).2 ⟨left ++ [' '], ' ' :: right, by simp [sign]⟩
  | false =>
    obtain ⟨hleft, hright⟩ := h rfl
    have hspace : ' ' ∉ differSign := by decide
    have hsign : ¬ differSign <:+: sign false := by decide
    have hnone := Text.not_isInfix_append_cons hleft hspace
      (Text.not_isInfix_append_cons hsign hspace hright)
    rwa [← Bool.not_eq_true, Text.occursIn_iff]

theorem isDivided_compare {left right : Text} {negated : Bool}
    (h : (compare left right negated).IsReadable) :
    IsDivided (left ++ ' ' :: (sign negated ++ ' ' :: right)) (left ++ [' ']) (' ' :: right)
      negated :=
  isDivided_iff.2 ⟨occursIn_compare h.2.2.2, splitOnce_compare h.2.2.1 right⟩

theorem ofText_render_compare {left right : Text} {negated : Bool}
    (h : (compare left right negated).IsReadable) :
    ofText (render (.compare left right negated)) = .ok (.compare left right negated) := by
  have hdivided := isDivided_compare h
  obtain ⟨hl, hr, -⟩ := h
  have htrimleft : Text.trim (left ++ [' ']) = left :=
    hl.trimmed.trim_append_blank hl.nonempty (by decide)
  have htrimright : Text.trim (' ' :: right) = right :=
    (Text.trim_cons_of_blank (by decide) right).trans hr.trimmed.trim_eq
  change ofBody (bodyOf ('?' :: (left ++ ' ' :: (sign negated ++ ' ' :: right)))) = _
  rw [bodyOf_question (hl.trimmed_compare hr negated), ofBody_of_isDivided hdivided, htrimleft,
    htrimright, if_neg (not_or.2 ⟨hl.nonempty, hr.nonempty⟩)]

theorem ofText_render_lastRow {operand : Text} (h : IsPlainOperand operand) :
    ofText (render (.lastRow operand)) = .ok (.lastRow operand) := by
  change ofBody (bodyOf ('?' :: operand)) = _
  rw [bodyOf_question h.trimmed, ofBody_of_signless h.nonempty h.signless]

/-- What can be read is read as itself once it is written out. -/
theorem ofText_render {condition : Condition} (h : condition.IsReadable) :
    ofText condition.render = .ok condition := by
  cases condition with
  | always => rfl
  | lastRow operand => exact ofText_render_lastRow h
  | compare left right negated => exact ofText_render_compare h

/-- Reading fails for a blank side, and for nothing else. -/
theorem ofText_eq_error_iff {text : Text} {e : ScriptError} :
    ofText text = .error e ↔ e = .format (.blankOperand (bodyOf text)) ∧
      ∃ left right negated, IsDivided (bodyOf text) left right negated ∧
        (Text.trim left = [] ∨ Text.trim right = []) := by
  change ofBody (bodyOf text) = .error e ↔ _
  constructor
  · intro h
    by_cases hne : bodyOf text = []
    · rw [hne] at h
      cases h
    · obtain ⟨left, right, negated, hdivided⟩ | hsignless := isDivided_or_signless (bodyOf text)
      · rw [ofBody_of_isDivided hdivided] at h
        split at h
        · next hblank =>
          cases h
          exact ⟨rfl, left, right, negated, hdivided, hblank⟩
        · cases h
      · rw [ofBody_of_signless hne hsignless] at h
        cases h
  · rintro ⟨rfl, left, right, negated, hdivided, hblank⟩
    rw [ofBody_of_isDivided hdivided, if_pos hblank]

def operands : Condition → List Text
  | .always => []
  | .lastRow operand => [operand]
  | .compare left right _ => [left, right]

def evaluate (text : Text) (bindings : Variables) (row : Text) : Except ScriptError Bool :=
  (ofText text).bind fun condition => condition.holds bindings row

variable {bindings : Variables} {row : Text}

theorem holds_lastRow (operand : Text) :
    (lastRow operand).holds bindings row
      = (bindings.operand operand).map fun value => decide (value = row) := by
  simp only [holds]
  cases bindings.operand operand <;> rfl

theorem holds_compare (left right : Text) (negated : Bool) :
    (compare left right negated).holds bindings row = (bindings.operand left).bind fun l =>
      (bindings.operand right).map fun r => decide (l = r) != negated := by
  simp only [holds]
  cases bindings.operand left with
  | error e => rfl
  | ok value => cases bindings.operand right <;> rfl

/-- The evaluation fails at the first operand that has no value. -/
theorem holds_eq_error_iff {condition : Condition} {e : ScriptError} :
    condition.holds bindings row = .error e
      ↔ ∃ name, condition.operands.findSome? bindings.undefinedIn? = some name
        ∧ e = .undefinedVariable name := by
  cases condition with
  | always => simp [holds, operands]
  | lastRow operand =>
    rw [holds_lastRow]
    obtain ⟨_, h, hnone⟩ | ⟨_, h, hname⟩ := bindings.operand_eq operand <;>
      simp [operands, Except.map, *, eq_comm]
  | compare left right negated =>
    rw [holds_compare]
    obtain ⟨_, hl, hlnone⟩ | ⟨_, hl, hlname⟩ := bindings.operand_eq left <;>
    obtain ⟨_, hr, hrnone⟩ | ⟨_, hr, hrname⟩ := bindings.operand_eq right <;>
      simp [operands, Except.map, Except.bind, *, eq_comm]

theorem holds_negated (left right : Text) :
    (compare left right true).holds bindings row
      = ((compare left right false).holds bindings row).map (!·) := by
  simp only [holds_compare]
  cases bindings.operand left with
  | error e => rfl
  | ok value => cases bindings.operand right <;> simp [Except.map, Except.bind]

theorem holds_swap {left right : Text} (hl : bindings.undefinedIn? left = none)
    (hr : bindings.undefinedIn? right = none) (negated : Bool) :
    (compare left right negated).holds bindings row
      = (compare right left negated).holds bindings row := by
  obtain ⟨l, hl⟩ := Variables.exists_operand hl
  obtain ⟨r, hr⟩ := Variables.exists_operand hr
  simp only [holds_compare, hl, hr, Except.map, Except.bind, eq_comm]

theorem holds_lastRow_eq {other : Text} (h : bindings.operand other = .ok row) (operand : Text) :
    (lastRow operand).holds bindings row
      = (compare operand other false).holds bindings row := by
  rw [holds_lastRow, holds_compare, h]
  cases bindings.operand operand <;> simp [Except.map, Except.bind]

theorem evaluate_render {condition : Condition} (h : condition.IsReadable) :
    evaluate condition.render bindings row = condition.holds bindings row := by
  rw [evaluate, ofText_render h]
  rfl

theorem IsPlainOperand.isReadable_lastRow {operand : Text} (h : IsPlainOperand operand) :
    (lastRow operand).IsReadable :=
  h

theorem IsPlainOperand.isReadable_compare {left right : Text} (hl : IsPlainOperand left)
    (hr : IsPlainOperand right) (negated : Bool) : (compare left right negated).IsReadable :=
  ⟨hl.toIsOperand, hr.toIsOperand, hl.signless negated,
    fun _ => ⟨hl.signless true, hr.signless true⟩⟩

/-- Conditions have a canonical written form, which is read as the condition it stands for. Reading
fails for a blank side alone, and evaluating for the first operand without a value alone. Written
out with plain operands the two signs are opposites that do not tell their sides apart, and an
operand alone is compared with the last row. -/
theorem canonical_form :
    (∀ text condition, ofText text = .ok condition → ofText condition.render = .ok condition) ∧
    (∀ text e, ofText text = .error e ↔ e = .format (.blankOperand (bodyOf text)) ∧
      ∃ left right negated, IsDivided (bodyOf text) left right negated ∧
        (Text.trim left = [] ∨ Text.trim right = [])) ∧
    ∀ (bindings : Variables) (row : Text),
      (∀ (condition : Condition) e, condition.holds bindings row = .error e
        ↔ ∃ name, condition.operands.findSome? bindings.undefinedIn? = some name
          ∧ e = .undefinedVariable name) ∧
      (∀ left right, IsPlainOperand left → IsPlainOperand right →
        evaluate (render (.compare left right true)) bindings row
          = (evaluate (render (.compare left right false)) bindings row).map (!·)) ∧
      (∀ left right negated, IsPlainOperand left → IsPlainOperand right →
        (∀ operand ∈ [left, right], bindings.undefinedIn? operand = none) →
        evaluate (render (.compare left right negated)) bindings row
          = evaluate (render (.compare right left negated)) bindings row) ∧
      (∀ operand, IsPlainOperand operand →
        evaluate (render (.lastRow operand)) bindings row
          = (bindings.operand operand).map fun value => decide (value = row)) ∧
      ∀ operand other, IsPlainOperand operand → IsPlainOperand other →
        bindings.operand other = .ok row →
        evaluate (render (.lastRow operand)) bindings row
          = evaluate (render (.compare operand other false)) bindings row := by
  refine ⟨fun text condition h => ofText_render (isReadable_of_ofText h),
    fun text e => ofText_eq_error_iff, fun bindings row => ⟨fun condition e => holds_eq_error_iff,
      ?opposite, ?swap, ?alone, ?lastRow⟩⟩
  case opposite =>
    intro left right hl hr
    rw [evaluate_render (hl.isReadable_compare hr true),
      evaluate_render (hl.isReadable_compare hr false), holds_negated]
  case swap =>
    intro left right negated hl hr hdefined
    rw [evaluate_render (hl.isReadable_compare hr negated),
      evaluate_render (hr.isReadable_compare hl negated)]
    exact holds_swap (hdefined left (by simp)) (hdefined right (by simp)) negated
  case alone =>
    intro operand h
    exact (evaluate_render h.isReadable_lastRow).trans (holds_lastRow operand)
  case lastRow =>
    intro operand other h hother hrow
    rw [evaluate_render h.isReadable_lastRow,
      evaluate_render (h.isReadable_compare hother false), holds_lastRow_eq hrow]

theorem isPlainOperand_of_trim {operand : Text} (hne : operand ≠ [])
    (htrim : Text.trim operand = operand) (h : ∀ negated, ¬ sign negated <:+: operand) :
    IsPlainOperand operand :=
  ⟨⟨hne, htrim ▸ Text.trimmed_trim operand⟩, h⟩

def fives : Variables := Table.empty.insert ['x'] ['5']

/-- An operand that begins with half a sign, and two plain ones that are equal. -/
theorem canonical_form_sides :
    (ofText "a  ===<".toList = .ok (.compare ['a'] ['=', '<'] false) ∧
      ofText "?a == =<".toList = .ok (.compare ['a'] ['=', '<'] false)) ∧
    evaluate "?$x <> 5".toList fives ['5'] = .ok false ∧
    evaluate "?5 == $x".toList fives ['5'] = .ok true ∧
    evaluate "?$x".toList fives ['5'] = .ok true := by
  have hx : IsPlainOperand ['$', 'x'] := isPlainOperand_of_trim (by decide) rfl (by decide)
  have hfive : IsPlainOperand ['5'] := isPlainOperand_of_trim (by decide) rfl (by decide)
  obtain ⟨hread, -, hrest⟩ := canonical_form
  obtain ⟨-, hopposite, hswap, -, hlast⟩ := hrest fives ['5']
  refine ⟨⟨rfl, hread _ _ (rfl : ofText "a  ===<".toList = _)⟩, ?_, ?_, ?_⟩
  · exact (hopposite _ _ hx hfive).trans rfl
  · exact (hswap _ _ false hfive hx (by decide)).trans rfl
  · exact (hlast _ _ hx hfive rfl).trans rfl

end Condition
end BenchScript
