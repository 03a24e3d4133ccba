import Abacus.Keypad.Basic
import Mathlib.Data.List.Induction

/-!
# Runs of a keypad

A run presses keys on a fresh keypad one after the other.  What holds of the state of a fresh keypad
and is kept by every key holds after every run (`stateAfter_induction`).  A state that shows a
failed calculation is kept by every key but one (`foldl_apply_of_isError`).
-/

namespace Abacus

namespace Keypad

/-- A keypad on which nothing has been pressed. -/
def fresh (v : Variant) : Keypad :=
  { variant := v }

/-- The state after some keys on a fresh keypad. -/
def stateAfter (v : Variant) (events : List Event) : State :=
  ((fresh v).pressAll events).state

@[simp] theorem variant_press (k : Keypad) (event : Event) :
    (k.press event).variant = k.variant := by
  unfold press
  split <;> rfl

@[simp] theorem variant_pressAll (k : Keypad) (events : List Event) :
    (k.pressAll events).variant = k.variant := by
  induction events generalizing k with
  | nil => rfl
  | cons e es ih => exact (ih (k.press e)).trans (k.variant_press e)

theorem pressAll_append (k : Keypad) (es fs : List Event) :
    k.pressAll (es ++ fs) = (k.pressAll es).pressAll fs :=
  List.foldl_append

theorem state_press (k : Keypad) (event : Event) :
    (k.press event).state = if k.variant.supports event then k.state.apply event else k.state := by
  unfold press
  split <;> rfl

/-- One more key. -/
theorem stateAfter_concat (v : Variant) (es : List Event) (e : Event) :
    stateAfter v (es ++ [e]) =
      if v.supports e then (stateAfter v es).apply e else stateAfter v es := by
  rw [stateAfter, pressAll_append]
  change (((fresh v).pressAll es).press e).state = _
  rw [state_press, variant_pressAll]
  rfl

/-- **What the empty run has and every key keeps holds after every run.** -/
theorem stateAfter_induction {v : Variant} {I : State → Prop} (h₀ : I {})
    (hstep : ∀ s e, v.supports e = true → I s → I (s.apply e)) (es : List Event) :
    I (stateAfter v es) := by
  induction es using List.reverseRecOn with
  | nil => exact h₀
  | append_singleton es e ih =>
    rw [stateAfter_concat]
    split
    · next he => exact hstep _ e he ih
    · exact ih

/-- Keys that are all there act on the state alone. -/
theorem state_pressAll_of_supports (k : Keypad) {events : List Event}
    (h : ∀ e ∈ events, k.variant.supports e = true) :
    (k.pressAll events).state = events.foldl State.apply k.state := by
  induction events generalizing k with
  | nil => rfl
  | cons e es ih =>
    have he : (k.press e).state = k.state.apply e := by
      rw [state_press, if_pos (h e List.mem_cons_self)]
    have := ih (k.press e) fun d hd => by
      rw [variant_press]
      exact h d (List.mem_cons_of_mem e hd)
    rw [he] at this
    exact this

/-! ### Failed calculations -/

/-- Only a division by zero has no result. -/
theorem calculate_eq_none_iff {op : Operator} {a b : Float} :
    op.calculate a b = none ↔ op = .div ∧ (b == 0.0) = true := by
  cases op <;> simp [Operator.calculate]

theorem apply_of_isError {s : State} (h : s.isError = true) {e : Event} (he : e ≠ .clear) :
    s.apply e = s := by
  simp [State.apply, h, he]

theorem apply_of_not_isError {s : State} (h : s.isError = false) (e : Event) :
    s.apply e = match e with
      | .digit value => s.enterDigit value
      | .point => s.enterPoint
      | .operator op => s.enterOperator op
      | .function f => s.applyFunction f
      | .equals => s.finish
      | .backspace => s.erase
      | .clear => {} := by
  unfold State.apply
  rw [h]
  cases e <;> rfl

theorem foldl_apply_of_isError {s : State} (h : s.isError = true) {es : List Event}
    (hes : Event.clear ∉ es) : es.foldl State.apply s = s := by
  induction es with
  | nil => rfl
  | cons e es ih =>
    obtain ⟨he, hes⟩ := not_or.1 (mt List.mem_cons.2 hes)
    rw [List.foldl_cons, apply_of_isError h (Ne.symm he)]
    exact ih hes

theorem isError_eq_false_iff {s : State} : s.isError = false ↔ s.display ≠ errorText := by
  simp [State.isError]

end Keypad

end Abacus
