import Abacus.Proofs.Keypad.NumberText
import Abacus.Proofs.Keypad.Run

/-!
# Failed calculations on a keypad

A failure is a text on the display, the same display that digits are appended to and taken back
from.  Still it appears exactly when a calculation has no result (`State.Fails`) and goes exactly
when the keypad is cleared (`isError_apply_iff`).

What keeps the two kinds of text apart is the first character.  A text that does not begin with
that of a failure is called `Proper`: every number is proper, a digit or a point after a proper text
leaves it proper, and so does taking back a character while another one is left.
-/

namespace Abacus

namespace Keypad

/-! ### Proper texts -/

/-- The text does not begin like a failed calculation. -/
def Proper (text : String) : Prop :=
  ∃ c cs, text.toList = c :: cs ∧ c ≠ 'E'

theorem Proper.ne_errorText {text : String} (h : Proper text) : text ≠ errorText := by
  rintro rfl
  obtain ⟨c, cs, h, hc⟩ := h
  exact hc (List.head_eq_of_cons_eq h).symm

theorem Proper.push {text : String} (h : Proper text) (d : Char) : Proper (text.push d) := by
  obtain ⟨c, cs, h, hc⟩ := h
  exact ⟨c, cs ++ [d], by rw [String.toList_push, h, List.cons_append], hc⟩

theorem Proper.dropLast {text : String} (h : Proper text) (hlen : 1 < text.toList.length) :
    Proper (.ofList text.toList.dropLast) := by
  obtain ⟨c, cs, h, hc⟩ := h
  have hcs : cs ≠ [] := by
    rintro rfl
    simp [h] at hlen
  exact ⟨c, cs.dropLast, by rw [String.toList_ofList, h, List.dropLast_cons_of_ne_nil hcs], hc⟩

theorem proper_singleton_digit (value : Nat) : Proper (.singleton (State.digitChar value)) :=
  ⟨_, [], String.toList_singleton _, Figures.ne_of_isDigit (isDigit_digitChar value) (by decide)⟩

theorem proper_zero : Proper "0" := ⟨'0', [], rfl, by decide⟩

theorem proper_zero_point : Proper "0." := ⟨'0', ['.'], rfl, by decide⟩

theorem proper_numberText (x : Float) : Proper (numberText x) :=
  (isWritten_numberText x).exists_eq_cons

/-! ### Calculations without a result -/

/-- The key asks for a calculation that has no result. -/
def State.Fails (s : State) : Event → Prop
  | .operator _ | .equals =>
    s.first.isSome = true ∧ s.pending = some .div ∧ (s.operand == 0.0) = true
  | .function .log | .function .ln => ¬ 0.0 < s.operand
  | .function .sqrt => ¬ 0.0 ≤ s.operand
  | _ => False

/-- The result of the calculation that is pending, if there is one. -/
def State.due? (s : State) : Option (Option Float) :=
  match s.first, s.pending with
  | some a, some op => some (op.calculate a s.operand)
  | _, _ => none

/-- A key that carries out the pending calculation. -/
def Event.Calculates (e : Event) : Prop :=
  e = .equals ∨ ∃ next, e = .operator next

/-- Such a key shows the result, and nothing new if no calculation is pending. -/
theorem display_apply_of_calculates {s : State} (h : s.isError = false) {e : Event}
    (he : e.Calculates) : (s.apply e).display = (s.due?.map resultText).getD s.display := by
  rw [apply_of_not_isError h]
  rcases he with rfl | ⟨next, rfl⟩
  · simp only [State.finish, State.due?]
    cases s.first <;> cases s.pending <;> rfl
  · simp only [State.enterOperator, State.due?]
    cases s.first <;> cases s.pending <;> rfl

theorem apply_operator_of_due {s : State} (h : s.isError = false) {r : Option Float}
    (hdue : s.due? = some r) (op : Operator) :
    s.apply (.operator op) = ⟨resultText r, r, some op, true⟩ := by
  rw [apply_of_not_isError h]
  simp only [State.due?] at hdue
  split at hdue
  · next hfirst hpending =>
    cases hdue
    simp only [State.enterOperator, hfirst, hpending]
  · cases hdue

/-- Where no calculation is pending, an operator keeps the operand that is there or takes the one on
the display. -/
theorem apply_operator_of_not_due {s : State} (h : s.isError = false) (hdue : s.due? = none)
    (op : Operator) :
    s.apply (.operator op) = ⟨s.display, some (s.first.getD s.operand), some op, true⟩ := by
  rw [apply_of_not_isError h]
  cases hfirst : s.first with
  | none => simp only [State.enterOperator, hfirst, Option.getD_none]
  | some a =>
    cases hpending : s.pending with
    | none => simp only [State.enterOperator, hfirst, hpending, Option.getD_some]
    | some p => simp [State.due?, hfirst, hpending] at hdue

theorem apply_equals_of_due {s : State} (h : s.isError = false) {r : Option Float}
    (hdue : s.due? = some r) : s.apply .equals = { display := resultText r } := by
  rw [apply_of_not_isError h]
  simp only [State.due?] at hdue
  split at hdue
  · next hfirst hpending =>
    cases hdue
    simp only [State.finish, hfirst, hpending]
  · cases hdue

theorem apply_equals_of_not_due {s : State} (h : s.isError = false) (hdue : s.due? = none) :
    s.apply .equals = s := by
  rw [apply_of_not_isError h]
  cases hfirst : s.first with
  | none => simp only [State.finish, hfirst]
  | some a =>
    cases hpending : s.pending with
    | none => simp only [State.finish, hfirst, hpending]
    | some p => simp [State.due?, hfirst, hpending] at hdue

theorem fails_iff_due?_eq {s : State} {e : Event} (he : e.Calculates) :
    s.Fails e ↔ s.due? = some none := by
  have hfails : s.Fails e ↔
      s.first.isSome = true ∧ s.pending = some .div ∧ (s.operand == 0.0) = true := by
    rcases he with rfl | ⟨next, rfl⟩ <;> rfl
  rw [hfails, State.due?]
  cases s.first with
  | none => simp
  | some a =>
    cases s.pending with
    | none => simp
    | some op => simp [calculate_eq_none_iff]

theorem value_eq_none_iff_fails (s : State) (f : Function) :
    f.value s.operand = none ↔ s.Fails (.function f) := by
  cases f <;> simp [Function.value, State.Fails]

/-- The text of a result is proper or that of a failure. -/
theorem resultText_cases (r : Option Float) :
    (Proper (resultText r) ∧ r ≠ none) ∨ (resultText r = errorText ∧ r = none) := by
  cases r with
  | none => exact .inr ⟨rfl, rfl⟩
  | some x => exact .inl ⟨proper_numberText x, by simp⟩

/-! ### One key -/

/-- What a key does to a proper display, as far as failures go. -/
def Decides (s : State) (e : Event) : Prop :=
  (Proper (s.apply e).display ∧ ¬ s.Fails e) ∨ ((s.apply e).display = errorText ∧ s.Fails e)

/-- A key that shows a result decides by whether there is one. -/
theorem decides_of_result {s : State} {e : Event} {r : Option Float}
    (hd : (s.apply e).display = resultText r) (hr : r = none ↔ s.Fails e) : Decides s e := by
  rw [Decides, hd, ← hr]
  exact resultText_cases r

theorem decides_enterDigit {s : State} (h : Proper s.display) (value : Nat) :
    Decides s (.digit value) := by
  refine .inl ⟨?_, id⟩
  rw [apply_of_not_isError (isError_eq_false_iff.2 h.ne_errorText)]
  simp only [State.enterDigit]
  split
  · exact proper_singleton_digit value
  · split
    · exact proper_singleton_digit value
    · exact h.push _

theorem decides_enterPoint {s : State} (h : Proper s.display) : Decides s .point := by
  refine .inl ⟨?_, id⟩
  rw [apply_of_not_isError (isError_eq_false_iff.2 h.ne_errorText)]
  simp only [State.enterPoint]
  split
  · exact proper_zero_point
  · split
    · exact h
    · exact h.push _

theorem decides_erase {s : State} (h : Proper s.display) : Decides s .backspace := by
  refine .inl ⟨?_, id⟩
  rw [apply_of_not_isError (isError_eq_false_iff.2 h.ne_errorText)]
  simp only [State.erase]
  split
  · next hlen => exact h.dropLast hlen
  · exact proper_zero

theorem decides_of_calculates {s : State} (h : Proper s.display) {e : Event}
    (he : e.Calculates) : Decides s e := by
  have hdisplay := display_apply_of_calculates (isError_eq_false_iff.2 h.ne_errorText) he
  cases hdue : s.due? with
  | none =>
    rw [hdue] at hdisplay
    refine .inl ⟨?_, ?_⟩
    · rw [hdisplay]
      exact h
    · simp [fails_iff_due?_eq he, hdue]
  | some r =>
    rw [hdue] at hdisplay
    refine decides_of_result hdisplay ?_
    simp [fails_iff_due?_eq he, hdue]

/-- **A key on a proper display fails or leaves it proper.** -/
theorem decides {s : State} (h : Proper s.display) (e : Event) : Decides s e := by
  have happly := apply_of_not_isError (isError_eq_false_iff.2 h.ne_errorText) e
  cases e with
  | digit value => exact decides_enterDigit h value
  | point => exact decides_enterPoint h
  | operator op => exact decides_of_calculates h (.inr ⟨op, rfl⟩)
  | function f =>
    refine decides_of_result (r := f.value s.operand) ?_ (value_eq_none_iff_fails s f)
    rw [happly]
    rfl
  | equals => exact decides_of_calculates h (.inl rfl)
  | backspace => exact decides_erase h
  | clear =>
    refine .inl ⟨?_, id⟩
    rw [happly]
    exact proper_zero

/-! ### Runs -/

/-- **The display of a run is proper or shows a failure.** -/
theorem proper_display_stateAfter (v : Variant) (es : List Event) :
    (stateAfter v es).isError = true ∨ Proper (stateAfter v es).display := by
  refine stateAfter_induction (I := fun s => s.isError = true ∨ Proper s.display)
    (Or.inr proper_zero) ?_ es
  intro s e _ h
  rcases h with h | h
  · by_cases he : e = .clear
    · subst he
      refine Or.inr ?_
      simpa [State.apply] using proper_zero
    · exact .inl (by rwa [apply_of_isError h he])
  · rcases decides h e with h | h
    · exact .inr h.1
    · exact .inl (by simp [State.isError, h.1])

theorem isError_apply_iff_fails {s : State} (h : Proper s.display) (e : Event) :
    (s.apply e).isError = true ↔ s.Fails e := by
  rw [State.isError, beq_iff_eq]
  rcases decides h e with ⟨hp, hf⟩ | ⟨he, hf⟩
  · exact ⟨fun h => absurd h hp.ne_errorText, fun h => absurd h hf⟩
  · exact ⟨fun _ => hf, fun _ => he⟩

theorem proper_display_of_not_isError {v : Variant} {es : List Event}
    (h : (stateAfter v es).isError = false) : Proper (stateAfter v es).display := by
  rcases proper_display_stateAfter v es with he | hp
  · rw [h] at he
    cases he
  · exact hp

/-- Keys other than the clear key, present or not, keep a failure. -/
theorem stateAfter_append_of_isError {v : Variant} {es : List Event}
    (h : (stateAfter v es).isError = true) {fs : List Event} (hfs : Event.clear ∉ fs) :
    stateAfter v (es ++ fs) = stateAfter v es := by
  induction fs using List.reverseRecOn with
  | nil => rw [List.append_nil]
  | append_singleton fs e ih =>
    simp only [List.mem_append, List.mem_singleton, not_or] at hfs
    have ih := ih hfs.1
    rw [← List.append_assoc, stateAfter_concat, ih, apply_of_isError h (Ne.symm hfs.2), ite_self]

theorem stateAfter_concat_clear (v : Variant) (es : List Event) :
    stateAfter v (es ++ [.clear]) = {} := by
  rw [stateAfter_concat]
  cases v <;> simp [Variant.supports, State.apply]

/-- **A failure appears exactly with a calculation that has no result and goes exactly with a
clear.**  Until then it keeps the whole state.  In a state without a failure no digit, point or
backspace shows one, and no number has its text. -/
theorem isError_apply_iff (v : Variant) (es : List Event) :
    ((stateAfter v es).isError = false →
        (∀ e, v.supports e = true →
          (((stateAfter v es).apply e).isError = true ↔ (stateAfter v es).Fails e)) ∧
        ∀ e, (e = .point ∨ e = .backspace ∨ ∃ value, e = .digit value) →
          ((stateAfter v es).apply e).isError = false) ∧
      ((stateAfter v es).isError = true →
        (∀ fs, Event.clear ∉ fs → stateAfter v (es ++ fs) = stateAfter v es) ∧
          stateAfter v (es ++ [.clear]) = {}) ∧
      ∀ x, numberText x ≠ errorText := by
  refine ⟨fun h => ?_, fun h => ⟨?_, stateAfter_concat_clear v es⟩, numberText_ne_errorText⟩
  · have hiff := isError_apply_iff_fails (proper_display_of_not_isError h)
    refine ⟨fun e _ => hiff e, fun e he => ?_⟩
    have hfails : ¬ (stateAfter v es).Fails e := by
      rcases he with rfl | rfl | ⟨value, rfl⟩ <;> exact id
    rw [← Bool.not_eq_true, hiff e]
    exact hfails
  · intro fs
    exact stateAfter_append_of_isError h

/-- `8 / 0 =` fails, and `5 + =` does not change that. -/
theorem isError_eight_over_zero :
    ((stateAfter .basic [.digit 8, .operator .div, .digit 0]).apply .equals).isError = true ∧
      stateAfter .basic
          ([.digit 8, .operator .div, .digit 0, .equals] ++ [.digit 5, .operator .add, .equals]) =
        stateAfter .basic [.digit 8, .operator .div, .digit 0, .equals] := by
  obtain ⟨hfail, -, -⟩ := isError_apply_iff .basic [.digit 8, .operator .div, .digit 0]
  obtain ⟨-, hkept, -⟩ :=
    isError_apply_iff .basic [.digit 8, .operator .div, .digit 0, .equals]
  refine ⟨((hfail (by decide +kernel)).1 .equals rfl).2 ⟨?_, ?_, ?_⟩, ?_⟩
  · decide +kernel
  · decide +kernel
  · decide +kernel
  · exact (hkept (by decide +kernel)).1 _ (by decide)

end Keypad

end Abacus
