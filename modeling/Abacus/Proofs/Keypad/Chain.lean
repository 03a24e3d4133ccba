import Abacus.Proofs.Keypad.Entry

/-!
# Chained calculations

Entries with operators between them are calculated from the left, without an equals sign in
between.  `foldFrom` is that calculation on numbers; it has no value as soon as one of its steps
divides by zero (`foldFrom_eq_none_iff`).

* `display_pressAll_chain` : after the last equals sign the keypad shows the value of the fold, and
  a failed calculation exactly if a step of it divides by zero.

The invariant (`display_foldl_entered`): while an operand is being entered, the keypad holds the
value of all steps before the pending operator, whatever was typed to get there.
-/

namespace Abacus

namespace Keypad

/-! ### Calculating from the left -/

/-- The value of `a` followed by operators with their right operands, calculated from the left. -/
def foldFrom (a : Float) (steps : List (Operator × Float)) : Option Float :=
  steps.foldlM (fun a p => p.1.calculate a p.2) a

theorem foldFrom_nil (a : Float) : foldFrom a [] = some a := rfl

theorem foldFrom_cons (a : Float) (op : Operator) (b : Float) (steps : List (Operator × Float)) :
    foldFrom a ((op, b) :: steps) = (op.calculate a b).bind (foldFrom · steps) := rfl

theorem foldFrom_eq_none_iff {a : Float} {steps : List (Operator × Float)} :
    foldFrom a steps = none ↔ ∃ p ∈ steps, p.1 = .div ∧ (p.2 == 0.0) = true := by
  induction steps generalizing a with
  | nil => simp [foldFrom_nil]
  | cons p steps ih =>
    obtain ⟨op, b⟩ := p
    simp only [foldFrom_cons, List.mem_cons, exists_eq_or_imp]
    cases h : op.calculate a b with
    | none => simpa using .inl (calculate_eq_none_iff.1 h)
    | some c =>
      have hne : ¬ (op = .div ∧ (b == 0.0) = true) := by
        rw [← calculate_eq_none_iff (a := a), h]
        simp
      rw [Option.bind_some, ih]
      exact ⟨.inr, fun hp => hp.resolve_left hne⟩

/-! ### The keys of a chain -/

/-- The keys of operators with the entries after them. -/
def stepEvents (steps : List (Operator × Entry)) : List Event :=
  steps.flatMap fun p => .operator p.1 :: p.2.events

/-- The keys of a whole chain, with an equals sign at its end. -/
def chainEvents (first : Entry) (steps : List (Operator × Entry)) : List Event :=
  first.events ++ stepEvents steps ++ [.equals]

/-- Operators with the numbers that the entries after them spell. -/
def stepValues (steps : List (Operator × Entry)) : List (Operator × Float) :=
  steps.map fun p => (p.1, p.2.value)

theorem clear_not_mem_stepEvents (steps : List (Operator × Entry)) :
    Event.clear ∉ stepEvents steps ++ [.equals] := by
  simp only [stepEvents, List.mem_append, List.mem_flatMap, List.mem_cons, List.not_mem_nil,
    or_false, not_or, not_exists, not_and]
  refine ⟨fun p _ => ⟨by simp, p.2.clear_not_mem_events⟩, by simp⟩

/-! ### The invariant -/

/-- The state in which `e` has been entered after `a` and `op`. -/
def entered (a : Float) (op : Operator) (e : Entry) : State :=
  { display := .ofList e.numeral, first := some a, pending := some op }

theorem operand_of_display_eq {s : State} {e : Entry} (h : s.display = .ofList e.numeral) :
    s.operand = e.value := by
  rw [State.operand, h, String.toList_ofList]
  rfl

theorem isError_of_display_eq {s : State} {e : Entry} (h : s.display = .ofList e.numeral) :
    s.isError = false := by
  rw [isError_eq_false_iff, h]
  exact e.isPlain_numeral.ne_errorText

/-- An operator carries out the one before it, and the next entry follows its result. -/
theorem apply_operator_entered (a : Float) (op next : Operator) (e : Entry) :
    (entered a op e).apply (.operator next) =
      { display := resultText (op.calculate a e.value), first := op.calculate a e.value,
        pending := some next, awaiting := true } := by
  rw [apply_of_not_isError (isError_of_display_eq (e := e) rfl)]
  simp only [State.enterOperator, entered]
  rw [operand_of_display_eq (e := e) rfl]

theorem apply_equals_entered (a : Float) (op : Operator) (e : Entry) :
    (entered a op e).apply .equals = { display := resultText (op.calculate a e.value) } := by
  rw [apply_of_not_isError (isError_of_display_eq (e := e) rfl)]
  simp only [State.finish, entered]
  rw [operand_of_display_eq (e := e) rfl]

/-- **What is on the keypad is the value of the steps so far.**  The induction is on the steps to
come; the operand before the pending operator is the value of the steps that were carried out. -/
theorem display_foldl_entered (a : Float) (op : Operator) (e : Entry)
    (steps : List (Operator × Entry)) :
    ((stepEvents steps ++ [Event.equals]).foldl State.apply (entered a op e)).display =
      resultText (foldFrom a ((op, e.value) :: stepValues steps)) := by
  induction steps generalizing a op e with
  | nil =>
    rw [foldFrom_cons]
    change ((entered a op e).apply .equals).display =
      resultText ((op.calculate a e.value).bind some)
    rw [apply_equals_entered, Option.bind_fun_some]
  | cons p steps ih =>
    obtain ⟨next, e'⟩ := p
    have hevents : stepEvents ((next, e') :: steps) ++ [.equals] =
        .operator next :: (e'.events ++ (stepEvents steps ++ [.equals])) := by
      simp [stepEvents]
    rw [hevents, List.foldl_cons, apply_operator_entered, foldFrom_cons]
    cases h : op.calculate a e.value with
    | none =>
      -- the failure stays on the display whatever comes
      rw [foldl_apply_of_isError rfl]
      · rfl
      · have := clear_not_mem_stepEvents steps
        exact fun hc => (List.mem_append.1 hc).elim e'.clear_not_mem_events this
    | some b =>
      have hb : (State.isError ⟨resultText (some b), some b, some next, true⟩) = false :=
        isError_eq_false_iff.2 (numberText_ne_errorText b)
      rw [List.foldl_append, e'.foldl_apply_events hb (.inl rfl)]
      exact ih b next e'

/-- **A keypad calculates a chain from the left.**  It shows a failed calculation exactly if some
step divides by zero, wherever this step stands.  The numerals of the entries are plain, and the
numbers in the chain are read from them. -/
theorem display_pressAll_chain (v : Variant) (first : Entry) (steps : List (Operator × Entry))
    (hne : steps ≠ []) (hv : ∀ e ∈ chainEvents first steps, v.supports e = true) :
    ((fresh v).pressAll (chainEvents first steps)).display =
        resultText (foldFrom first.value (stepValues steps)) ∧
      (((fresh v).pressAll (chainEvents first steps)).display = errorText ↔
        ∃ p ∈ steps, p.1 = .div ∧ (p.2.value == 0.0) = true) ∧
      ∀ e ∈ first :: steps.map Prod.snd,
        IsPlain e.numeral ∧ Numeral.read? e.numeral = some e.value := by
  have hdisplay : ((fresh v).pressAll (chainEvents first steps)).display =
      resultText (foldFrom first.value (stepValues steps)) := by
    obtain ⟨⟨op, e⟩, rest, rfl⟩ := List.exists_cons_of_ne_nil hne
    have hfirst : first.events.foldl State.apply {} = { display := .ofList first.numeral } :=
      first.foldl_apply_events (by decide) (.inr rfl)
    have hop : State.apply { display := .ofList first.numeral } (.operator op) =
        { display := .ofList first.numeral, first := some first.value, pending := some op,
          awaiting := true } := by
      rw [apply_of_not_isError (isError_of_display_eq (e := first) rfl)]
      simp only [State.enterOperator]
      rw [operand_of_display_eq (e := first) rfl]
    have hevents : chainEvents first ((op, e) :: rest) =
        first.events ++ (.operator op :: (e.events ++ (stepEvents rest ++ [.equals]))) := by
      simp [chainEvents, stepEvents]
    rw [Keypad.display, state_pressAll_of_supports _ hv, hevents, List.foldl_append]
    change (List.foldl State.apply (first.events.foldl State.apply {}) _).display = _
    rw [hfirst, List.foldl_cons, hop, List.foldl_append, e.foldl_apply_events _ (.inl rfl)]
    · exact display_foldl_entered first.value op e rest
    · exact isError_of_display_eq (e := first) rfl
  refine ⟨hdisplay, ?_, fun e _ => ⟨e.isPlain_numeral, e.read?_numeral⟩⟩
  rw [hdisplay, resultText_eq_errorText_iff, foldFrom_eq_none_iff]
  simp [stepValues]

/-- A chain in which a point is taken back: six divided by five. -/
theorem display_six_over_five :
    ((fresh .scientific).pressAll (chainEvents ⟨.digit 6, [], by decide⟩
      [(.div, ⟨.point, [.backspace, .digit 5], by decide⟩)])).display = "1.2" :=
  (display_pressAll_chain .scientific ⟨.digit 6, [], by decide⟩
    [(.div, ⟨.point, [.backspace, .digit 5], by decide⟩)] (by decide) (by decide)).1.trans
    (by decide +kernel)

end Keypad

end Abacus
