import Abacus.Proofs.Binary64.Multiples
import Abacus.Proofs.Keypad.Failure
import Abacus.Proofs.Keypad.Rereading

/-!
# Calculations with an undefined result

A keypad checks one thing before it calculates: a division by zero has no result and shows a
failure.  Sums, differences, products and other quotients of finite numbers are numbers, if perhaps
infinite ones (`isNaN_of_calculate`).  The power of a negative number with an exponent that is not
whole is undefined too, but nothing checks for it: it is calculated, the result is not a number, and
the display says so (`isNaN_power`).  So `NaN` comes up on the display with powers only
(`display_eq_NaN_iff`), and it does come up (`display_root_of_negative`).
-/

namespace Abacus

open Binary64

/-- **A negative number has no power with an exponent that is not whole.** -/
theorem isNaN_power {x y : Float} (hx : x.isFinite = true) (hy : y.isFinite = true)
    (hneg : number x < 0) (hwhole : ¬ ∃ k : Int, number y = k) : (power x y).isNaN = true := by
  have hlt : x < 0.0 := (lt_iff_number_lt (isNaN_of_isFinite hx) rfl).2 hneg
  have hy' : isWhole y = false := by rwa [← isWhole_iff hy, Bool.not_eq_true] at hwhole
  rw [power, if_pos]
  · rfl
  · simp [hlt, hx, hy, hy']

namespace Keypad

/-! ### Texts -/

/-- Only what is not a number has the text `NaN`. -/
theorem numberText_eq_NaN_iff {x : Float} : numberText x = "NaN" ↔ x.isNaN = true := by
  constructor
  · intro h
    obtain ⟨y, hread, hxy⟩ := read?_numberText x
    rw [h] at hread
    obtain rfl : notANumber = y := Option.some.inj hread
    obtain rfl | ⟨-, s, hzero⟩ := hxy
    · rfl
    · exact absurd hzero (by cases s <;> decide)
  · intro h
    rw [numberText, Style.write, isNaN_eq_true_iff.1 h]

/-- The text of a result tells whether there is one and whether it is a number. -/
theorem resultText_eq_NaN_iff {r : Option Float} :
    resultText r = "NaN" ↔ ∃ x, r = some x ∧ x.isNaN = true := by
  cases r with
  | none => simp [resultText, errorText]
  | some x => simp [resultText, numberText_eq_NaN_iff]

/-- A display that is read as a finite number does not show `NaN`. -/
theorem State.display_ne_NaN {s : State} (h : s.operand.isFinite = true) : s.display ≠ "NaN" := by
  intro hdisplay
  have hnone : s.operand.isNaN = true := by
    rw [State.operand, hdisplay]
    decide
  rw [isNaN_of_isFinite h] at hnone
  cases hnone

/-! ### Operators -/

variable {a b : Float}

theorem beq_zero_iff (hb : b.isFinite = true) : (b == 0.0) = true ↔ number b = 0 :=
  beq_iff_number_eq (isNaN_of_isFinite hb) rfl

/-- **Operators but powers give numbers** for finite operands, where they give anything. -/
theorem isNaN_of_calculate {op : Operator} (hop : op ≠ .pow) (ha : a.isFinite = true)
    (hb : b.isFinite = true) {x : Float} (hx : op.calculate a b = some x) : x.isNaN = false := by
  cases op with
  | add =>
    cases hx
    exact (isNaN_add_sub ha hb).1
  | sub =>
    cases hx
    exact (isNaN_add_sub ha hb).2
  | mul =>
    cases hx
    exact (isNearest_mul ha hb).isNumber
  | div =>
    simp only [Operator.calculate] at hx
    split at hx
    · cases hx
    · next hzero =>
      cases hx
      exact (isNearest_div ha hb (mt (beq_zero_iff hb).2 hzero)).isNumber
  | pow => exact absurd rfl hop

theorem resultText_calculate_eq_NaN_iff {op : Operator} (ha : a.isFinite = true)
    (hb : b.isFinite = true) :
    resultText (op.calculate a b) = "NaN" ↔ op = .pow ∧ (power a b).isNaN = true := by
  rw [resultText_eq_NaN_iff]
  by_cases hop : op = .pow
  · subst hop
    simp [Operator.calculate]
  · refine iff_of_false ?_ fun h => hop h.1
    rintro ⟨x, hx, hnone⟩
    rw [isNaN_of_calculate hop ha hb hx] at hnone
    cases hnone

/-! ### Keys -/

/-- **Only powers put `NaN` on the display.**  Let a display that shows no failure be read as a
finite number, and let there be a finite first operand.  An operator or an equals sign brings up
`NaN` exactly if a power is pending that is not a number, as is each power of a negative number with
an exponent that is not whole.  It brings up a failure exactly if a division by zero is pending. -/
theorem display_eq_NaN_iff {s : State} {e : Event} (herror : s.isError = false)
    (hfirst : s.first = some a) (ha : a.isFinite = true) (hb : s.operand.isFinite = true)
    (he : e.Calculates) :
    ((s.apply e).display = "NaN" ↔
        s.pending = some .pow ∧ (power a s.operand).isNaN = true) ∧
      (number a < 0 → (¬ ∃ k : Int, number s.operand = k) → (power a s.operand).isNaN = true) ∧
      ((s.apply e).isError = true ↔ s.pending = some .div ∧ number s.operand = 0) := by
  have hdisplay := display_apply_of_calculates herror he
  refine ⟨?_, isNaN_power ha hb, ?_⟩
  · rw [hdisplay, State.due?, hfirst]
    cases s.pending with
    | none => simpa using s.display_ne_NaN hb
    | some op => simpa using resultText_calculate_eq_NaN_iff ha hb
  · rw [← beq_zero_iff hb, State.isError, beq_iff_eq, hdisplay, State.due?, hfirst]
    cases s.pending with
    | none => simpa using isError_eq_false_iff.1 herror
    | some op => simp [resultText_eq_errorText_iff, calculate_eq_none_iff]

/-- The square root of minus eight, written as a power. -/
theorem display_power_of_negative :
    let s := stateAfter .scientific
      [.operator .sub, .digit 8, .equals, .operator .pow, .point, .digit 5]
    s.first = some (-8.0) ∧ s.operand = 0.5 ∧ (s.apply .equals).display = "NaN" := by
  intro s
  have hfirst : s.first = some (-8.0) := by decide +kernel
  have hoperand : s.operand = 0.5 := by decide +kernel
  obtain ⟨hdisplay, hpower, -⟩ := display_eq_NaN_iff (s := s) (e := .equals) (by decide +kernel)
    hfirst (by decide) (by rw [hoperand]; decide) (.inl rfl)
  refine ⟨hfirst, hoperand, hdisplay.2 ⟨by decide +kernel, hpower (by decide +kernel) ?_⟩⟩
  rw [hoperand, ← isWhole_iff (by decide)]
  decide

/-- A power that is undefined shows no failure. -/
theorem display_root_of_negative :
    ¬ ∀ (es : List Event) (a : Float) (e : Event),
      (stateAfter .scientific es).isError = false →
      (stateAfter .scientific es).first = some a → a.isFinite = true →
      (stateAfter .scientific es).operand.isFinite = true → e.Calculates →
        ((stateAfter .scientific es).apply e).display ≠ "NaN" := by
  intro h
  have hne := h [.operator .sub, .digit 8, .equals, .operator .pow, .point, .digit 5] (-8.0) .equals
    (by decide +kernel) (by decide +kernel) (by decide) (by decide +kernel) (.inl rfl)
  revert hne
  decide +kernel

end Keypad

end Abacus
