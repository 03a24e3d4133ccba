import Abacus.Keypad.Basic
import Abacus.Proofs.Decimal.Figures

/-!
# The texts of numbers on the display

A keypad writes a number as one of three words (`valueWords`) or as figures
(`isWritten_numberText`).  Such a text can be read back (`IsWritten.isSome_read?`), and it never
looks like a failed calculation (`numberText_ne_errorText`).
-/

namespace Abacus

namespace Keypad

open Float.Model (UnpackedFloat)
open Float.Model.UnpackedFloat (Sign)

/-- What stands for the values that have no digits. -/
def valueWords : List (List Char) := ["NaN".toList, "Infinity".toList, "-Infinity".toList]

/-- Whether a sign is a minus sign. -/
def isMinus : Sign → Bool
  | .negative => true
  | .positive => false

theorem signText_append_unsigned {s : Sign} {f : Figures} (h : f.negative = isMinus s) :
    (Style.signText s).toList ++ f.unsigned = f.text := by
  cases s <;> simp [Figures.text, h, isMinus, Style.signText]

theorem signText_append_positional (s : Sign) (d : Decimal) :
    (Style.signText s).toList ++ d.positional = (d.positionalFigures (isMinus s)).text := by
  rw [← d.unsigned_positionalFigures (isMinus s)]
  exact signText_append_unsigned rfl

theorem signText_append_exponential (s : Sign) (d : Decimal) :
    (Style.signText s).toList ++ d.exponential ['+'] = (d.exponentialFigures (isMinus s)).text := by
  rw [← d.unsigned_exponentialFigures (isMinus s)]
  exact signText_append_unsigned rfl

/-- The layout of a decimal after a sign is a written number, which spells that decimal. -/
theorem exists_figures_layout (s : Sign) (d : Decimal) :
    ∃ f : Figures, (Style.signText s).toList ++ displayStyle.layout d = f.text ∧
      f.negative = isMinus s ∧ ∃ k, f.decimal = d.scale k := by
  simp only [displayStyle]
  split
  · exact ⟨_, signText_append_positional s d, rfl, d.decimal_positionalFigures _⟩
  · refine ⟨_, signText_append_exponential s d, rfl, 0, ?_⟩
    rw [d.decimal_exponentialFigures, d.scale_zero]

/-- The text is one of the words or a written number. -/
def IsWritten (cs : List Char) : Prop :=
  cs ∈ valueWords ∨ ∃ f : Figures, cs = f.text

/-- **The text of a number is a word or a written number.** -/
theorem isWritten_numberText (x : Float) : IsWritten (numberText x).toList := by
  simp only [numberText, Style.write]
  split
  · exact .inl (by decide)
  · next s _ => left; cases s <;> decide
  · exact .inr ⟨.digit '0' (by decide), by simp [displayStyle]⟩
  · next s m e _ _ =>
    obtain ⟨f, hf, -⟩ := exists_figures_layout s (displayStyle.digits m e)
    exact .inr ⟨f, by rw [String.toList_append, String.toList_ofList, hf]⟩

/-- Such a text does not begin like a failed calculation. -/
theorem IsWritten.exists_eq_cons {cs : List Char} (h : IsWritten cs) :
    ∃ d ds, cs = d :: ds ∧ d ≠ 'E' := by
  rcases h with h | ⟨f, rfl⟩
  · simp only [valueWords, List.mem_cons, List.not_mem_nil, or_false] at h
    rcases h with rfl | rfl | rfl
    · exact ⟨_, _, rfl, by decide⟩
    · exact ⟨_, _, rfl, by decide⟩
    · exact ⟨_, _, rfl, by decide⟩
  · obtain ⟨c, cs, hc, hd⟩ := f.exists_text_eq_cons
    refine ⟨c, cs, hc, ?_⟩
    rcases hd with rfl | hd
    · decide
    · exact Figures.ne_of_isDigit hd (by decide)

theorem IsWritten.isSome_read? {cs : List Char} (h : IsWritten cs) :
    (Numeral.read? cs).isSome = true := by
  rcases h with h | ⟨f, rfl⟩
  · revert cs
    decide +kernel
  · exact f.isSome_read?_text

theorem IsWritten.ne_errorText {cs : List Char} (h : IsWritten cs) : .ofList cs ≠ errorText := by
  obtain ⟨c, cs, rfl, hc⟩ := h.exists_eq_cons
  intro he
  have := congrArg String.toList he
  rw [String.toList_ofList] at this
  exact hc (List.head_eq_of_cons_eq this)

theorem numberText_ne_errorText (x : Float) : numberText x ≠ errorText := by
  simpa only [String.ofList_toList] using (isWritten_numberText x).ne_errorText

theorem isDigit_digitChar (value : Nat) : (State.digitChar value).isDigit = true := by
  rw [State.digitChar, Nat.isDigit_digitChar, decide_eq_true_eq]
  omega

/-- A result shows as a failure exactly when there is none. -/
theorem resultText_eq_errorText_iff (r : Option Float) : resultText r = errorText ↔ r = none := by
  cases r with
  | none => simp [resultText]
  | some x => simp [resultText, numberText_ne_errorText]

end Keypad

end Abacus
