import Abacus.Proofs.Keypad.Legibility

/-!
# What holds of a keypad at any time

Whatever has been pressed, there is a text on the display, and it has at most one point (`Shown`): a
result is written with at most one, and the only key that could bring in another looks for one first.

The operand before an operator and the operator itself come and go together (`handles`).  An operator
key sets both and an equals sign takes both away, and a calculation that fails drops the operand.  A
function is different: it fails without touching them (`eq_function_of_isError`), but then the keypad
awaits a new operand.  The basic keypad has no functions, so there a failure never leaves an operand.

`State.Coherent` puts this together.  Every key keeps it (`State.Coherent.apply`), and so it holds
after every run (`coherent_stateAfter`).
-/

namespace Abacus

namespace Keypad

/-! ### The text on the display -/

/-- There is a text, and it has at most one point. -/
structure Shown (cs : List Char) : Prop where
  ne_nil : cs ≠ []
  count_point_le : cs.count '.' ≤ 1

theorem shown_singleton_digit {c : Char} (h : c.isDigit = true) : Shown [c] :=
  ⟨by simp, by simp [Figures.count_point_of_digits (List.forall_mem_singleton.2 h)]⟩

theorem shown_zero : Shown ['0'] := shown_singleton_digit (by decide)

theorem shown_text (f : Figures) : Shown f.text := by
  obtain ⟨c, cs, h, -⟩ := f.exists_text_eq_cons
  exact ⟨by simp [h], f.count_point_text_le⟩

theorem IsWritten.shown {cs : List Char} (h : IsWritten cs) : Shown cs := by
  rcases h with h | ⟨f, rfl⟩
  · simp only [valueWords, List.mem_cons, List.not_mem_nil, or_false] at h
    rcases h with rfl | rfl | rfl
    · exact ⟨by decide, by decide⟩
    · exact ⟨by decide, by decide⟩
    · exact ⟨by decide, by decide⟩
  · exact shown_text f

theorem shown_resultText (r : Option Float) : Shown (resultText r).toList := by
  cases r with
  | none => exact ⟨by decide, by decide⟩
  | some x => exact (isWritten_numberText x).shown

/-- **Editing a text leaves one with at most one point.** -/
theorem Shown.edit {cs : List Char} (h : Shown cs) (k : EntryKey) : Shown (k.edit cs) := by
  cases k with
  | digit value =>
    have hd := isDigit_digitChar value
    rw [EntryKey.edit]
    split
    · exact shown_singleton_digit hd
    · refine ⟨by simp, ?_⟩
      rw [List.count_append, Figures.count_point_of_digits (List.forall_mem_singleton.2 hd)]
      exact h.count_point_le
  | point =>
    rw [EntryKey.edit]
    split
    · exact h
    · next hpoint =>
      refine ⟨by simp, ?_⟩
      rw [List.count_append, List.count_eq_zero.2 hpoint]
      decide
  | backspace =>
    rw [EntryKey.edit]
    split
    · next hlength =>
      refine ⟨?_, Nat.le_trans (cs.dropLast_sublist.count_le '.') h.count_point_le⟩
      rw [← List.length_pos_iff, List.length_dropLast]
      omega
    · exact shown_zero

theorem shown_apply_edit {s : State} (he : s.isError = false) (h : Shown s.display.toList)
    (k : EntryKey) : Shown (s.apply k.event).display.toList := by
  by_cases hk : s.awaiting = false ∨ k = .backspace
  · rw [display_apply_edit he hk, String.toList_ofList]
    exact h.edit k
  · obtain ⟨ha, hback⟩ := not_or.1 hk
    rw [apply_event_of_awaiting he (by simpa using ha) hback, String.toList_ofList]
    exact shown_zero.edit k

theorem shown_apply_of_calculates {s : State} (he : s.isError = false)
    (h : Shown s.display.toList) {e : Event} (hcalculates : e.Calculates) :
    Shown (s.apply e).display.toList := by
  rw [display_apply_of_calculates he hcalculates]
  cases s.due? with
  | none => exact h
  | some r => exact shown_resultText r

/-- **Every key leaves a text with at most one point.** -/
theorem shown_apply {s : State} (he : s.isError = false) (h : Shown s.display.toList)
    (e : Event) : Shown (s.apply e).display.toList := by
  cases e with
  | digit value => exact shown_apply_edit he h (.digit value)
  | point => exact shown_apply_edit he h .point
  | backspace => exact shown_apply_edit he h .backspace
  | operator op => exact shown_apply_of_calculates he h (.inr ⟨op, rfl⟩)
  | equals => exact shown_apply_of_calculates he h (.inl rfl)
  | function f =>
    rw [apply_of_not_isError he]
    exact shown_resultText (f.value s.operand)
  | clear =>
    rw [show s.apply .clear = {} from apply_of_not_isError he .clear]
    exact shown_zero

/-! ### The operand and its operator -/

variable {v : Variant} {s : State} {e : Event}

/-- A key that edits the display leaves the calculation alone. -/
theorem first_pending_apply_edit (he : s.isError = false) (k : EntryKey) :
    (s.apply k.event).first = s.first ∧ (s.apply k.event).pending = s.pending := by
  rw [apply_of_not_isError he]
  cases k with
  | digit value =>
    simp only [EntryKey.event, State.enterDigit]
    split
    · exact ⟨rfl, rfl⟩
    · split <;> exact ⟨rfl, rfl⟩
  | point =>
    simp only [EntryKey.event, State.enterPoint]
    split
    · exact ⟨rfl, rfl⟩
    · split <;> exact ⟨rfl, rfl⟩
  | backspace => exact ⟨rfl, rfl⟩

theorem isError_apply_edit (h : Proper s.display) (k : EntryKey) :
    (s.apply k.event).isError = false := by
  rw [← Bool.not_eq_true, isError_apply_iff_fails h]
  cases k <;> exact id

/-- What a key may do to the pending calculation. -/
inductive Handles (s : State) (e : Event) : Prop
  /-- It leaves the operand and the operator, and only a function fails in doing so. -/
  | keeps (first_eq : (s.apply e).first = s.first) (pending_eq : (s.apply e).pending = s.pending)
      (eq_function : (s.apply e).isError = true → ∃ f, e = .function f)
  /-- It takes both away. -/
  | drops (first_eq : (s.apply e).first = none) (pending_eq : (s.apply e).pending = none)
  /-- It sets an operator, and there is an operand if the calculation before has a result. -/
  | sets (op : Operator) (event_eq : e = .operator op) (pending_eq : (s.apply e).pending = some op)
      (first_eq_none_iff : (s.apply e).first = none ↔ (s.apply e).isError = true)

theorem handles_edit (he : s.isError = false) (h : Proper s.display) (k : EntryKey) :
    Handles s k.event := by
  obtain ⟨hfirst, hpending⟩ := first_pending_apply_edit he k
  refine .keeps hfirst hpending fun herror => ?_
  rw [isError_apply_edit h k] at herror
  cases herror

theorem handles_operator (he : s.isError = false) (op : Operator) : Handles s (.operator op) := by
  cases hdue : s.due? with
  | none =>
    have happly := apply_operator_of_not_due he hdue op
    refine .sets op rfl (by rw [happly]) ?_
    rw [happly]
    exact iff_of_false (by simp) (by simpa [State.isError] using he)
  | some r =>
    have happly := apply_operator_of_due he hdue op
    refine .sets op rfl (by rw [happly]) ?_
    rw [happly, State.isError, beq_iff_eq]
    exact (resultText_eq_errorText_iff r).symm

theorem handles_equals (he : s.isError = false) : Handles s .equals := by
  cases hdue : s.due? with
  | none =>
    have happly := apply_equals_of_not_due he hdue
    refine .keeps (by rw [happly]) (by rw [happly]) fun herror => ?_
    rw [happly, he] at herror
    cases herror
  | some r =>
    have happly := apply_equals_of_due he hdue
    exact .drops (by rw [happly]) (by rw [happly])

/-- **A key leaves operand and operator, takes both away or sets an operator.** -/
theorem handles (he : s.isError = false) (h : Proper s.display) (e : Event) : Handles s e := by
  cases e with
  | digit value => exact handles_edit he h (.digit value)
  | point => exact handles_edit he h .point
  | backspace => exact handles_edit he h .backspace
  | operator op => exact handles_operator he op
  | equals => exact handles_equals he
  | function f =>
    have happly := apply_of_not_isError he (.function f)
    exact .keeps (by rw [happly]; rfl) (by rw [happly]; rfl) fun _ => ⟨f, rfl⟩
  | clear =>
    have happly := apply_of_not_isError he .clear
    exact .drops (by rw [happly]) (by rw [happly])

/-- **Only a function fails and leaves the operand.** -/
theorem eq_function_of_isError (he : s.isError = false) (h : Proper s.display)
    (herror : (s.apply e).isError = true) (hfirst : (s.apply e).first.isSome = true) :
    ∃ f, e = .function f := by
  cases handles he h e with
  | keeps _ _ hfunction => exact hfunction herror
  | drops hnone _ =>
    rw [hnone] at hfirst
    cases hfirst
  | sets op _ _ hnone =>
    rw [hnone.2 herror] at hfirst
    cases hfirst

/-- A failure that leaves the operand awaits another one. -/
theorem awaiting_apply (he : s.isError = false) (h : Proper s.display)
    (herror : (s.apply e).isError = true) (hfirst : (s.apply e).first.isSome = true) :
    (s.apply e).awaiting = true := by
  obtain ⟨f, rfl⟩ := eq_function_of_isError he h herror hfirst
  rw [apply_of_not_isError he]
  rfl

/-- On the basic keypad, which has no functions, a failure leaves no operand. -/
theorem first_apply_eq_none (he : s.isError = false) (h : Proper s.display)
    (hbasic : Variant.basic.supports e = true) (herror : (s.apply e).isError = true) :
    (s.apply e).first = none := by
  by_contra hsome
  obtain ⟨f, rfl⟩ := eq_function_of_isError he h herror (Option.isSome_iff_ne_none.2 hsome)
  cases hbasic

/-! ### Coherent states -/

/-- What holds of a keypad at any time. -/
structure State.Coherent (v : Variant) (s : State) : Prop where
  /-- The display is not empty and has at most one point. -/
  shown : Shown s.display.toList
  /-- There is no operand without an operator. -/
  isSome_pending : s.first.isSome = true → s.pending.isSome = true
  /-- There is no operator without an operand, but for a failure. -/
  isSome_first : s.isError = false → s.pending.isSome = true → s.first.isSome = true
  /-- A failure that leaves the operand awaits a new one. -/
  awaiting_of_isError : s.isError = true → s.first.isSome = true → s.awaiting = true
  /-- The basic keypad has no powers. -/
  pending_ne_pow : v = .basic → s.pending ≠ some .pow
  /-- On the basic keypad no failure leaves the operand. -/
  first_eq_none : v = .basic → s.isError = true → s.first = none

theorem coherent_default (v : Variant) : State.Coherent v {} where
  shown := shown_zero
  isSome_pending := by simp
  isSome_first := by simp
  awaiting_of_isError := by simp
  pending_ne_pow := by simp
  first_eq_none := by simp

/-- **Every key keeps a keypad coherent.** -/
theorem State.Coherent.apply (h : s.Coherent v) (hproper : s.isError = true ∨ Proper s.display)
    (he : v.supports e = true) : (s.apply e).Coherent v := by
  cases herror : s.isError with
  | true =>
    by_cases hclear : e = .clear
    · have hdefault : s.apply e = {} := by simp [State.apply, hclear]
      rw [hdefault]
      exact coherent_default v
    · rwa [apply_of_isError herror hclear]
  | false =>
    have hproper := hproper.resolve_left (by simp [herror])
    have hshown := shown_apply herror h.shown e
    have hawaiting := awaiting_apply (e := e) herror hproper
    have hbasic : v = .basic → (s.apply e).isError = true → (s.apply e).first = none := by
      rintro rfl
      exact first_apply_eq_none herror hproper he
    -- What is said of failures holds of every key; the rest depends on what the key does with the
    -- operand and the operator.
    cases handles herror hproper e with
    | keeps hfirst hpending _ =>
      refine ⟨hshown, ?_, fun _ => ?_, hawaiting, ?_, hbasic⟩
      · rw [hfirst, hpending]
        exact h.isSome_pending
      · rw [hfirst, hpending]
        exact h.isSome_first herror
      · rw [hpending]
        exact h.pending_ne_pow
    | drops hfirst hpending =>
      refine ⟨hshown, ?_, fun _ => ?_, hawaiting, fun _ => ?_, hbasic⟩
      · simp [hfirst]
      · simp [hpending]
      · simp [hpending]
    | sets op hevent hpending hfirst =>
      refine ⟨hshown, fun _ => ?_, fun hresult _ => ?_, hawaiting, ?_, hbasic⟩
      · rw [hpending]
        rfl
      · rw [Option.isSome_iff_ne_none, ne_eq, hfirst, hresult]
        exact Bool.false_ne_true
      · rintro rfl
        rw [hpending]
        rintro ⟨⟩
        rw [hevent] at he
        cases he

/-- **A keypad is coherent at any time.**  Whatever has been pressed, the display is not empty and has
at most one point.  There is an operand exactly as long as there is an operator, but for a failure:
it may leave the operator alone, and if it leaves the operand too, the keypad awaits a new one.  Only a
function fails in this way.  On the basic keypad no power is ever pending, and a failure leaves no
operand. -/
theorem coherent_stateAfter (v : Variant) (es : List Event) :
    (stateAfter v es).Coherent v ∧
      ∀ e, v.supports e = true → (stateAfter v es).isError = false →
        ((stateAfter v es).apply e).isError = true →
        ((stateAfter v es).apply e).first.isSome = true → ∃ f, e = .function f := by
  refine ⟨?_, fun e _ he herror hfirst => ?_⟩
  · induction es using List.reverseRecOn with
    | nil => exact coherent_default v
    | append_singleton es e ih =>
      rw [stateAfter_concat]
      split
      · next he => exact ih.apply (proper_display_stateAfter v es) he
      · exact ih
  · exact eq_function_of_isError he (proper_display_of_not_isError he) herror hfirst

/-- `5 + 0 log` fails and leaves the five, for which the keypad then awaits a new operand. -/
theorem awaiting_after_log_of_zero :
    let s := stateAfter .scientific [.digit 5, .operator .add, .digit 0, .function .log]
    s.isError = true ∧ s.first = some 5.0 ∧ s.awaiting = true := by
  intro s
  have herror : s.isError = true := by decide +kernel
  have hfirst : s.first = some 5.0 := by decide +kernel
  obtain ⟨hcoherent, -⟩ :=
    coherent_stateAfter .scientific [.digit 5, .operator .add, .digit 0, .function .log]
  exact ⟨herror, hfirst, hcoherent.awaiting_of_isError herror (by rw [hfirst]; rfl)⟩

end Keypad

end Abacus
