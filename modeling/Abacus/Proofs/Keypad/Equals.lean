import Abacus.Proofs.Keypad.Rereading
import Abacus.Proofs.Keypad.Run

/-!
# An equals sign before an operator

On the basic keypad it makes no difference whether the equals key is pressed before an operator.
Without it an operator carries out the one before it and keeps the result as a number; with it the
result is only on the display, and the operator reads it from there.  So the two keypads agree in
all that will be seen (`State.Agrees`): the display, and the operand but for the sign of zero.  When
the display shows a failed calculation nothing else matters.

Every key keeps the agreement (`State.Agrees.apply`), and so does an operator with an equals sign
before it on one side only (`State.Agrees.apply_operator_equals`).  It follows that the displays are
the same in a whole run (`display_withEquals`).
-/

namespace Abacus

namespace Keypad

/-- Keys, with an equals sign before those that are marked. -/
def withEquals (marked : List (Event × Bool)) : List Event :=
  marked.flatMap fun (e, mark) => if mark then [.equals, e] else [e]

theorem Variant.supports_operator {op : Operator} (hop : op ≠ .pow) :
    Variant.basic.supports (.operator op) = true := by
  cases op with
  | pow => exact absurd rfl hop
  | add | sub | mul | div => rfl

namespace State

/-- Two states show the same now and whatever is pressed on the basic keypad. -/
structure Agrees (s t : State) : Prop where
  display_eq : s.display = t.display
  rest : s.isError = true ∨
    AlikeResults s.first t.first ∧ s.pending = t.pending ∧ s.pending ≠ some .pow ∧
      s.awaiting = t.awaiting

theorem Agrees.isError_eq {s t : State} (h : s.Agrees t) : s.isError = t.isError := by
  rw [isError, isError, h.display_eq]

theorem Agrees.fresh : Agrees {} {} :=
  ⟨rfl, .inr ⟨.failed, rfl, by simp, rfl⟩⟩

/-- States that differ in the operand before the operator only. -/
theorem agrees_mk {display : String} {r t : Option Float} {pending : Option Operator}
    {awaiting : Bool} (hpow : pending ≠ some .pow) (h : AlikeResults r t) :
    Agrees ⟨display, r, pending, awaiting⟩ ⟨display, t, pending, awaiting⟩ :=
  ⟨rfl, .inr ⟨h, rfl, hpow, rfl⟩⟩

/-- States that agree and show no failed calculation. -/
theorem Agrees.exists_mk {s t : State} (h : s.Agrees t) (herror : s.isError = false) :
    ∃ display r r' pending awaiting, s = ⟨display, r, pending, awaiting⟩ ∧
      t = ⟨display, r', pending, awaiting⟩ ∧ AlikeResults r r' ∧ pending ≠ some .pow := by
  obtain ⟨hdisplay, hrest⟩ := h
  obtain ⟨hfirst, hpending, hpow, hawaiting⟩ := hrest.resolve_left (by simp [herror])
  obtain ⟨display, r, pending, awaiting⟩ := s
  obtain ⟨display', r', pending', awaiting'⟩ := t
  dsimp only at hdisplay hfirst hpending hpow hawaiting
  subst hdisplay hpending hawaiting
  exact ⟨display, r, r', pending, awaiting, rfl, rfl, hfirst, hpow⟩

section

variable {display : String} {r t : Option Float} {pending : Option Operator} {awaiting : Bool}

theorem agrees_enterDigit (hpow : pending ≠ some .pow) (h : AlikeResults r t) (value : Nat) :
    Agrees (enterDigit ⟨display, r, pending, awaiting⟩ value)
      (enterDigit ⟨display, t, pending, awaiting⟩ value) := by
  simp only [enterDigit]
  split
  · exact agrees_mk hpow h
  · split
    · exact agrees_mk hpow h
    · exact agrees_mk hpow h

theorem agrees_enterPoint (hpow : pending ≠ some .pow) (h : AlikeResults r t) :
    Agrees (enterPoint ⟨display, r, pending, awaiting⟩)
      (enterPoint ⟨display, t, pending, awaiting⟩) := by
  simp only [enterPoint]
  split
  · exact agrees_mk hpow h
  · split
    · exact agrees_mk hpow h
    · exact agrees_mk hpow h

/-- A pending operator is carried out on operands that are alike and on the same display. -/
theorem agrees_enterOperator (hpow : pending ≠ some .pow) (h : AlikeResults r t) {op : Operator}
    (hop : op ≠ .pow) :
    Agrees (enterOperator ⟨display, r, pending, awaiting⟩ op)
      (enterOperator ⟨display, t, pending, awaiting⟩ op) := by
  have hop' : some op ≠ some .pow := by simpa using hop
  cases h with
  | failed => exact agrees_mk hop' (.refl _)
  | @number x y hxy =>
    cases pending with
    | none => exact agrees_mk hop' (.number hxy)
    | some p =>
      have hresult := AlikeResults.calculate (by simpa using hpow) hxy
        (operand ⟨display, some x, some p, awaiting⟩)
      exact ⟨hresult.resultText_eq, .inr ⟨hresult, rfl, hop', rfl⟩⟩

theorem agrees_finish (hpow : pending ≠ some .pow) (h : AlikeResults r t) :
    Agrees (finish ⟨display, r, pending, awaiting⟩)
      (finish ⟨display, t, pending, awaiting⟩) := by
  cases h with
  | failed => exact agrees_mk hpow .failed
  | @number x y hxy =>
    cases pending with
    | none => exact agrees_mk hpow (.number hxy)
    | some p =>
      have hresult := AlikeResults.calculate (by simpa using hpow) hxy
        (operand ⟨display, some x, some p, awaiting⟩)
      exact ⟨hresult.resultText_eq, .inr ⟨.failed, rfl, by simp [finish], rfl⟩⟩

end

theorem apply_clear (s : State) : s.apply .clear = {} := by
  simp [State.apply]

/-- **Every key of the basic keypad keeps the agreement.** -/
theorem Agrees.apply {s t : State} (h : s.Agrees t) {e : Event}
    (he : Variant.basic.supports e = true) : (s.apply e).Agrees (t.apply e) := by
  by_cases hclear : e = .clear
  · rw [hclear, apply_clear, apply_clear]
    exact .fresh
  cases herror : s.isError with
  | true =>
    -- a failed calculation stays on both displays
    rw [apply_of_isError herror hclear, apply_of_isError (h.isError_eq ▸ herror) hclear]
    exact h
  | false =>
    rw [apply_of_not_isError herror, apply_of_not_isError (h.isError_eq ▸ herror)]
    obtain ⟨display, r, r', pending, awaiting, rfl, rfl, hr, hpow⟩ := h.exists_mk herror
    cases e with
    | digit value => exact agrees_enterDigit hpow hr value
    | point => exact agrees_enterPoint hpow hr
    | operator op =>
      refine agrees_enterOperator hpow hr ?_
      rintro rfl
      simp [Variant.supports] at he
    | equals => exact agrees_finish hpow hr
    | clear => exact absurd rfl hclear
    | function f => simp [Variant.supports] at he
    | backspace => simp [Variant.supports] at he

/-- An operator that finds a result on the display takes it as its operand, as if it had kept it. -/
theorem agrees_enterOperator_resultText {r t : Option Float} (h : AlikeResults r t) {op : Operator}
    (hop : op ≠ .pow) :
    Agrees ⟨resultText r, r, some op, true⟩ (State.apply ⟨resultText t, none, none, false⟩
      (.operator op)) := by
  cases h with
  | failed =>
    -- the operator finds a failed calculation
    rw [apply_of_isError rfl (by simp)]
    exact ⟨rfl, .inl rfl⟩
  | @number x y hxy =>
    obtain ⟨z, hread, hz⟩ := read?_numberText y
    have hoperand : operand ⟨numberText y, none, none, false⟩ = z := by
      simp [operand, hread]
    have hnumber : isError ⟨numberText y, none, none, false⟩ = false :=
      isError_eq_false_iff.2 (numberText_ne_errorText y)
    show Agrees _ (State.apply ⟨numberText y, none, none, false⟩ (.operator op))
    rw [apply_of_not_isError hnumber]
    simp only [enterOperator, hoperand]
    exact ⟨hxy.numberText_eq, .inr ⟨.number (hxy.trans hz), rfl, by simpa using hop, rfl⟩⟩

/-- **An equals sign before an operator keeps the agreement.** -/
theorem Agrees.apply_operator_equals {s t : State} (h : s.Agrees t) {op : Operator}
    (hop : op ≠ .pow) :
    (s.apply (.operator op)).Agrees ((t.apply .equals).apply (.operator op)) := by
  have hkeep := h.apply (Variant.supports_operator hop)
  cases herror : s.isError with
  | true =>
    have hkept : t.apply .equals = t := apply_of_isError (h.isError_eq ▸ herror) (by simp)
    rw [hkept]
    exact hkeep
  | false =>
    have hequals : t.apply .equals = t.finish :=
      apply_of_not_isError (h.isError_eq ▸ herror) .equals
    have hoperator : s.apply (.operator op) = s.enterOperator op := apply_of_not_isError herror _
    obtain ⟨display, r, r', pending, awaiting, rfl, rfl, hr, hpow⟩ := h.exists_mk herror
    rw [hequals]
    -- unless an operator is pending the equals sign does nothing
    cases hr with
    | failed => exact hkeep
    | @number x y hxy =>
      cases pending with
      | none => exact hkeep
      | some p =>
        rw [hoperator]
        exact agrees_enterOperator_resultText (AlikeResults.calculate (by simpa using hpow) hxy
          (operand ⟨display, some x, some p, awaiting⟩)) hop

end State

/-! ### Runs -/

/-- Two runs agree if they differ in equals signs before operators only. -/
theorem agrees_pressAll_withEquals {k l : Keypad} (hk : k.variant = .basic)
    (hl : l.variant = .basic) (h : k.state.Agrees l.state) {marked : List (Event × Bool)}
    (hmarked : ∀ p ∈ marked, p.2 = true → ∃ op, p.1 = .operator op ∧ op ≠ .pow) :
    (k.pressAll (marked.map Prod.fst)).state.Agrees (l.pressAll (withEquals marked)).state := by
  induction marked generalizing k l with
  | nil => exact h
  | cons p marked ih =>
    obtain ⟨e, mark⟩ := p
    have hrest : ∀ p ∈ marked, p.2 = true → ∃ op, p.1 = .operator op ∧ op ≠ .pow := fun p hp =>
      hmarked p (List.mem_cons_of_mem _ hp)
    have hk' : (k.press e).variant = .basic := by rw [variant_press, hk]
    cases mark with
    | false =>
      refine ih hk' (l := l.press e) (by rw [variant_press, hl]) ?_ hrest
      rw [state_press, state_press, hk, hl]
      split
      · next he => exact h.apply he
      · exact h
    | true =>
      obtain ⟨op, rfl, hop⟩ := hmarked (e, true) List.mem_cons_self rfl
      have hsupports := Variant.supports_operator hop
      refine ih hk' (l := (l.press .equals).press (.operator op)) ?_ ?_ hrest
      · rw [variant_press, variant_press, hl]
      · have hequals : Variant.basic.supports .equals = true := rfl
        rw [state_press, state_press, state_press, variant_press, hk, hl, if_pos hsupports,
          if_pos hsupports, if_pos hequals]
        exact h.apply_operator_equals hop

/-- **The operand behind the display of the basic keypad always agrees with it.**  In any run, put
an equals sign before any of the operators that the keypad has a key for: after each key of the run
the display is the same as without. -/
theorem display_withEquals (marked : List (Event × Bool))
    (hmarked : ∀ p ∈ marked, p.2 = true → ∃ op, p.1 = .operator op ∧ op ≠ .pow) (n : Nat) :
    ((fresh .basic).pressAll (withEquals (marked.take n))).display =
      ((fresh .basic).pressAll ((marked.take n).map Prod.fst)).display :=
  (agrees_pressAll_withEquals rfl rfl .fresh fun p hp =>
    hmarked p (List.mem_of_mem_take hp)).display_eq.symm

/-- A run through a negative zero: nought less five, times nought, plus three. -/
theorem display_withEquals_negative_zero :
    ((fresh .basic).pressAll [.digit 0, .operator .sub, .digit 5, .equals, .operator .mul, .digit 0,
      .equals, .operator .add, .digit 3, .equals]).display = "3" :=
  (display_withEquals [(.digit 0, false), (.operator .sub, false), (.digit 5, false),
    (.operator .mul, true), (.digit 0, false), (.operator .add, true), (.digit 3, false),
    (.equals, false)] (by simp) 8).trans (by decide +kernel)

/-- An equals sign before an operator that the keypad has no key for stands alone: of `2 + 3` and a
power the display is 3 without it, and 5 with it. -/
theorem display_withEquals_pow :
    ¬ ∀ marked : List (Event × Bool),
      (∀ p ∈ marked, p.2 = true → ∃ op, p.1 = .operator op) → ∀ n : Nat,
        ((fresh .basic).pressAll (withEquals (marked.take n))).display =
          ((fresh .basic).pressAll ((marked.take n).map Prod.fst)).display := by
  intro h
  have hsame := h [(.digit 2, false), (.operator .add, false), (.digit 3, false),
    (.operator .pow, true)] (by simp) 4
  revert hsame
  decide +kernel

end Keypad

end Abacus
