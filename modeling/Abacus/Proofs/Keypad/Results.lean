import Abacus.Proofs.Binary64.Order
import Abacus.Proofs.Decimal.Editing
import Abacus.Proofs.Keypad.Failure
import Abacus.Proofs.Keypad.Rereading

/-!
# Results that are used again

A result is shown as a text, and whatever is done with it next begins by reading that text.  This
loses nothing but the sign of zero (`read?_numberText_eq`), so the next key works on the result itself
(`reread_result`).

The three notations stay within what can be read: a finite number is written with digits, at most one
point, signs and the letter of an exponent (`exists_figures_numberText`).
-/

namespace Abacus

open Binary64

namespace Keypad

open Float.Model.UnpackedFloat (Sign)

variable {x : Float}

/-- What the display tells of a number: all but the sign of zero. -/
def reread (x : Float) : Float :=
  if x == 0.0 then 0.0 else x

theorem beq_reread (h : x.isNaN = false) : (reread x == x) = true := by
  rw [reread]
  split
  · next hzero =>
    rw [beq_iff_number_eq rfl h]
    exact ((beq_iff_number_eq h rfl).1 hzero).symm
  · exact (beq_iff_number_eq h h).2 rfl

/-- A number that equals zero is a zero with a sign. -/
theorem exists_eq_zero (h : (x == 0.0) = true) : ∃ s, x = zero s := by
  have hcompare : x.toModel.unpack.compare (.zero .positive) = some .eq := beq_iff_eq.1 h
  have hx := ofModel_pack_unpack x
  cases hunpack : x.toModel.unpack with
  | notANumber => rw [hunpack] at hcompare; cases hcompare
  | infinity s => rw [hunpack] at hcompare; cases s <;> cases hcompare
  | zero s =>
    rw [hunpack] at hx
    exact ⟨s, hx.symm⟩
  | finite s m e hm => rw [hunpack] at hcompare; cases s <;> cases hcompare

/-- **A number is read back from its text**, but for the sign of zero. -/
theorem read?_numberText_eq (x : Float) :
    Numeral.read? (numberText x).toList = some (reread x) := by
  by_cases hzero : (x == 0.0) = true
  · obtain ⟨s, rfl⟩ := exists_eq_zero hzero
    rw [reread, if_pos hzero, numberText_zero]
    decide +kernel
  · obtain ⟨y, hread, halike⟩ := read?_numberText x
    obtain rfl | ⟨⟨s, rfl⟩, -⟩ := halike
    · rw [hread, reread, if_neg hzero]
    · exact absurd (by cases s <;> decide) hzero

/-- A finite number is written with digits. -/
theorem exists_figures_numberText (h : x.isFinite = true) :
    ∃ f : Figures, (numberText x).toList = f.text := by
  obtain ⟨s, hx⟩ | ⟨s, m, e, hm, hx⟩ := unpack_of_isFinite h
  · refine ⟨.digit '0' (by decide), ?_⟩
    simp [numberText, Style.write, hx, displayStyle]
  · obtain ⟨f, hf, -⟩ := exists_figures_layout s (displayStyle.digits m e)
    refine ⟨f, ?_⟩
    simp only [numberText, Style.write, hx, String.toList_append, String.toList_ofList]
    exact hf

/-! ### On a keypad -/

variable {s : State}

theorem operand_of_display_eq_numberText (h : s.display = numberText x) : s.operand = reread x := by
  rw [State.operand, h, read?_numberText_eq, Option.getD_some]

theorem isError_of_display_eq_numberText (h : s.display = numberText x) : s.isError = false :=
  isError_eq_false_iff.2 (h ▸ numberText_ne_errorText x)

/-- An operator key shows the result of the calculation before and keeps it; an equals sign then works
on what is shown. -/
theorem chained_result (herror : s.isError = false) (hdue : s.due? = some (some x))
    (op : Operator) :
    let t := s.apply (.operator op)
    t.first = some x ∧ t.operand = reread x ∧
      (t.apply .equals).display = resultText (op.calculate x (reread x)) := by
  intro t
  have ht : t = ⟨numberText x, some x, some op, true⟩ := apply_operator_of_due herror hdue op
  have hdisplay : t.display = numberText x := by rw [ht]
  have hoperand := operand_of_display_eq_numberText hdisplay
  have hnext : t.due? = some (op.calculate x (reread x)) := by
    rw [State.due?, hoperand, ht]
  refine ⟨by rw [ht], hoperand, ?_⟩
  rw [apply_equals_of_due (isError_of_display_eq_numberText hdisplay) hnext]

/-- An equals sign shows the result, and an operator then takes what is shown. -/
theorem finished_result (herror : s.isError = false) (hdue : s.due? = some (some x))
    (op : Operator) :
    let t := s.apply .equals
    t.operand = reread x ∧ (t.apply (.operator op)).first = some (reread x) := by
  intro t
  have ht : t = { display := numberText x } := apply_equals_of_due herror hdue
  have hdisplay : t.display = numberText x := by rw [ht]
  have hoperand := operand_of_display_eq_numberText hdisplay
  have hnext : t.due? = none := by rw [ht]; rfl
  refine ⟨hoperand, ?_⟩
  rw [apply_operator_of_not_due (isError_of_display_eq_numberText hdisplay) hnext, hoperand, ht]
  rfl

/-- **What is read off the display is the result itself.**  The text of a number is read as that
number, or as zero without its sign, and the two are equal.  The text of a finite number has digits,
points, signs and the letter of an exponent only.  So wherever a calculation has a number as its
result, the keys after an operator or an equals sign work on this result. -/
theorem reread_result (hx : x.isNaN = false) :
    Numeral.read? (numberText x).toList = some (reread x) ∧ (reread x == x) = true ∧
      (x.isInf = false →
        ∀ c ∈ (numberText x).toList, c.isDigit = true ∨ c ∈ ['.', '-', '+', 'e']) ∧
      ∀ s : State, s.isError = false → s.due? = some (some x) → ∀ op : Operator,
        (let t := s.apply (.operator op)
        t.first = some x ∧ t.operand = reread x ∧
          (t.apply .equals).display = resultText (op.calculate x (reread x))) ∧
        let t := s.apply .equals
        t.operand = reread x ∧ (t.apply (.operator op)).first = some (reread x) := by
  refine ⟨read?_numberText_eq x, beq_reread hx, fun hfinite c hc => ?_, fun s herror hdue op => ?_⟩
  · obtain ⟨f, hf⟩ := exists_figures_numberText (isFinite_of_isInf hx hfinite)
    rw [hf] at hc
    exact Figures.isDigit_or_mem_of_mem_text hc
  · exact ⟨chained_result herror hdue op, finished_result herror hdue op⟩

/-- The smallest positive number is read back from its text, and negative zero is read as zero. -/
theorem reread_least_and_zero :
    numberText 5e-324 = "5e-324" ∧ Numeral.read? "5e-324".toList = some 5e-324 ∧
      numberText (-0.0) = "0" ∧ (reread (-0.0) == -0.0) = true := by
  have htext : numberText 5e-324 = "5e-324" := by decide +kernel
  obtain ⟨hread, -⟩ := reread_result (x := 5e-324) (by decide +kernel)
  obtain ⟨-, hzero, -⟩ := reread_result (x := -0.0) (by decide +kernel)
  have hsame : reread 5e-324 = 5e-324 := by decide +kernel
  rw [htext, hsame] at hread
  exact ⟨htext, hread, by decide +kernel, hzero⟩

end Keypad

end Abacus
