import Abacus.Proofs.Decimal.Reading
import Abacus.Proofs.Decimal.Shortest
import Abacus.Proofs.Keypad.NumberText

/-!
# Reading numbers off the display

The display shows a number with the shortest digits that round to it, so the number is read back
from its text (`read?_numberText`).  Only the sign of zero is lost.  It can be neglected: the
operators of the basic keypad make of two numbers that are alike but for it two results that are
(`AlikeResults.calculate`), and these have the same text (`Alike.numberText_eq`).
-/

namespace Abacus

open Binary64

theorem Decimal.value_scale (d : Decimal) (k : Nat) : (d.scale k).value = d.value := by
  rw [value, value, scale, zpow_sub₀ (by norm_num), zpow_natCast]
  push_cast
  field_simp

namespace Keypad

open Float.Model
open Float.Model.UnpackedFloat (Sign)

/-! ### Numbers that are alike -/

/-- The float that is zero with a sign. -/
def zero (s : Sign) : Float :=
  .ofModel (.pack (.zero s))

/-- Two floats are equal or both zero. -/
def Alike (x y : Float) : Prop :=
  x = y ∨ (∃ s, x = zero s) ∧ ∃ s, y = zero s

theorem Alike.refl (x : Float) : Alike x x :=
  .inl rfl

theorem Alike.trans {x y z : Float} (hxy : Alike x y) (hyz : Alike y z) : Alike x z := by
  rcases hxy with rfl | ⟨hx, hy⟩
  · exact hyz
  · rcases hyz with rfl | ⟨-, hz⟩
    · exact .inr ⟨hx, hy⟩
    · exact .inr ⟨hx, hz⟩

theorem numberText_zero (s : Sign) : numberText (zero s) = "0" := by
  cases s <;> decide +kernel

/-- **Numbers that are alike have the same text.** -/
theorem Alike.numberText_eq {x y : Float} (h : Alike x y) : numberText x = numberText y := by
  obtain rfl | ⟨⟨s, rfl⟩, t, rfl⟩ := h
  · rfl
  · rw [numberText_zero, numberText_zero]

/-! ### Reading back -/

theorem neg_float {m : Nat} {e : Int} (h : Canonical m e) :
    -float .positive h = float .negative h := by
  change Float.ofModel (.pack (float .positive h).toModel.unpack.neg) = _
  rw [unpack_float]
  rfl

/-- A decimal that rounds to a float is not zero. -/
theorem coefficient_pos_of_roundsTo {d : Decimal} {m : Nat} {e : Int} (h : Canonical m e)
    (hround : RoundsTo d.value m e) : 0 < d.coefficient := by
  refine Nat.pos_of_ne_zero fun hzero => ?_
  have hle := two_zpow_le_of_roundsTo h hround
  rw [Decimal.value, hzero, Nat.cast_zero, zero_mul] at hle
  exact absurd hle (not_le.2 (by positivity))

/-- A written number is read as the float that it rounds to. -/
theorem read?_text_of_roundsTo {f : Figures} {s : Sign} (hnegative : f.negative = isMinus s)
    {m : Nat} {e : Int} (h : Canonical m e) (hround : RoundsTo f.decimal.value m e) :
    Numeral.read? f.text = some (float s h) := by
  have hpos := coefficient_pos_of_roundsTo h hround
  rw [Numeral.read?, Figures.sign_text]
  simp only [Numeral.magnitude?, Figures.decimal?_unsigned, Option.map_some,
    Numeral.toFloat_eq_float hpos h hround, hnegative]
  cases s with
  | positive => rfl
  | negative => exact congrArg some (neg_float h)

/-- A finite number is read back. -/
theorem read?_numberText_float (s : Sign) {m : Nat} {e : Int} (h : Canonical m e) :
    Numeral.read? (numberText (float s h)).toList = some (float s h) := by
  obtain ⟨f, hf, hnegative, k, hdecimal⟩ := exists_figures_layout s (Decimal.shortest m e)
  have htext : (numberText (float s h)).toList = f.text := by
    simp only [numberText, Style.write, unpack_float, String.toList_append, String.toList_ofList]
    exact hf
  rw [htext]
  refine read?_text_of_roundsTo hnegative h ?_
  rw [hdecimal, Decimal.value_scale]
  exact Decimal.roundsTo_shortest h.pos h.lt e

/-- **A number is read back from its text**, but for the sign of zero. -/
theorem read?_numberText (x : Float) :
    ∃ y, Numeral.read? (numberText x).toList = some y ∧ Alike x y := by
  have hx := ofModel_pack_unpack x
  cases hunpack : x.toModel.unpack with
  | notANumber =>
    rw [hunpack] at hx
    refine ⟨x, ?_, .refl x⟩
    rw [← hx]
    decide +kernel
  | infinity s =>
    rw [hunpack] at hx
    refine ⟨x, ?_, .refl x⟩
    rw [← hx]
    cases s <;> decide +kernel
  | zero s =>
    rw [hunpack] at hx
    refine ⟨zero .positive, ?_, .inr ⟨⟨s, hx.symm⟩, .positive, rfl⟩⟩
    rw [← hx, show Float.ofModel (.pack (.zero s)) = zero s from rfl, numberText_zero]
    decide +kernel
  | finite s m e hm =>
    have hfloat := eq_float hunpack
    exact ⟨x, by rw [hfloat, read?_numberText_float], .refl x⟩

/-! ### Operators -/

/-- Two results fail together, or they are numbers that are alike. -/
inductive AlikeResults : Option Float → Option Float → Prop
  | failed : AlikeResults none none
  | number {x y : Float} (h : Alike x y) : AlikeResults (some x) (some y)

theorem AlikeResults.refl (r : Option Float) : AlikeResults r r := by
  cases r with
  | none => exact .failed
  | some x => exact .number (.refl x)

theorem AlikeResults.resultText_eq {r t : Option Float} (h : AlikeResults r t) :
    resultText r = resultText t := by
  cases h with
  | failed => rfl
  | number hxy => exact hxy.numberText_eq

theorem unpack_zero (s : Sign) : (zero s).toModel.unpack = .zero s :=
  UnpackedFloat.unpack_packedZero

/-- Parts of floats that are equal, or zero in both. -/
def AlikeParts (u v : UnpackedFloat) : Prop :=
  u = v ∨ (∃ s, u = .zero s) ∧ ∃ s, v = .zero s

theorem AlikeParts.alike {u v : UnpackedFloat} (h : AlikeParts u v) :
    Alike (.ofModel (.pack u)) (.ofModel (.pack v)) := by
  obtain rfl | ⟨⟨s, rfl⟩, t, rfl⟩ := h
  · exact .refl _
  · exact .inr ⟨⟨s, rfl⟩, t, rfl⟩

theorem alikeParts_add (spec : Format) (s t : Sign) (w : UnpackedFloat) :
    AlikeParts (.add spec (.zero s) w) (.add spec (.zero t) w) := by
  cases w with
  | zero r => cases s <;> cases t <;> cases r <;> exact .inr ⟨⟨_, rfl⟩, _, rfl⟩
  | notANumber | infinity _ | finite _ _ _ _ => exact .inl rfl

theorem alikeParts_sub (spec : Format) (s t : Sign) (w : UnpackedFloat) :
    AlikeParts (.sub spec (.zero s) w) (.sub spec (.zero t) w) := by
  cases w with
  | zero r => cases s <;> cases t <;> cases r <;> exact .inr ⟨⟨_, rfl⟩, _, rfl⟩
  | notANumber | infinity _ | finite _ _ _ _ => exact .inl rfl

theorem alikeParts_mul (spec : Format) (s t : Sign) (w : UnpackedFloat) :
    AlikeParts (.mul spec (.zero s) w) (.mul spec (.zero t) w) := by
  cases w with
  | zero _ | finite _ _ _ _ => exact .inr ⟨⟨_, rfl⟩, _, rfl⟩
  | notANumber | infinity _ => exact .inl rfl

theorem alikeParts_div (spec : Format) (s t : Sign) (w : UnpackedFloat) :
    AlikeParts (.div spec (.zero s) w) (.div spec (.zero t) w) := by
  cases w with
  | infinity _ | finite _ _ _ _ => exact .inr ⟨⟨_, rfl⟩, _, rfl⟩
  | notANumber | zero _ => exact .inl rfl

/-- **Operators do not see the sign of a left operand that is zero.** -/
theorem AlikeResults.calculate {op : Operator} (hop : op ≠ .pow) {x y : Float} (h : Alike x y)
    (b : Float) : AlikeResults (op.calculate x b) (op.calculate y b) := by
  obtain rfl | ⟨⟨s, rfl⟩, t, rfl⟩ := h
  · exact .refl _
  have hparts : ∀ f : UnpackedFloat → UnpackedFloat → UnpackedFloat,
      (∀ w, AlikeParts (f (.zero s) w) (f (.zero t) w)) →
        AlikeResults (some (.ofModel (.pack (f (zero s).toModel.unpack b.toModel.unpack))))
          (some (.ofModel (.pack (f (zero t).toModel.unpack b.toModel.unpack)))) := by
    intro f hf
    rw [unpack_zero, unpack_zero]
    exact .number (hf _).alike
  cases op with
  | add => exact hparts (.add .binary64) (alikeParts_add _ s t)
  | sub => exact hparts (.sub .binary64) (alikeParts_sub _ s t)
  | mul => exact hparts (.mul .binary64) (alikeParts_mul _ s t)
  | div =>
    simp only [Operator.calculate]
    split
    · exact .failed
    · exact hparts (.div .binary64) (alikeParts_div _ s t)
  | pow => exact absurd rfl hop

end Keypad

end Abacus
