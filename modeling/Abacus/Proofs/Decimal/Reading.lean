import Abacus.Decimal.Numeral
import Abacus.Proofs.Decimal.Packing

/-!
# Decimals are read as the nearest float

The value of a decimal is `coefficient * 10 ^ exponent`.  If it lies in the interval around a float
then the decimal is read as this float (`Numeral.toFloat_eq_float`).

A reader has two ways.  Small coefficients and powers of ten are floats themselves
(`ofUInt64_eq_float`, `powerOfTen_eq_float`), and one multiplication or division rounds once.
Otherwise exact integers are multiplied or divided, and rounded in the end.  Both come down to what
the model makes of a product and of a quotient (`mul_of_roundsTo`, `div_of_roundsTo`).
-/

namespace Abacus

namespace Binary64

open Float.Model
open Float.Model.UnpackedFloat

/-! ### Products and quotients -/

/-- The number `m * 2 ^ e`. -/
def value (m : Nat) (e : Int) : Rat :=
  m * 2 ^ e

theorem value_div (m : Nat) (e : Int) : value m e / 2 ^ e = m := by
  unfold value
  field_simp

theorem tracks_value (m : Nat) (e : Int) :
    Tracks (.ofMantissaAndAccuracy m .exact) (value m e / 2 ^ e) := by
  rw [value_div]
  exact tracks_exact m

theorem roundsTo_value (m : Nat) (e : Int) : RoundsTo (value m e) m e := by
  unfold RoundsTo
  rw [value_div, sub_self]
  exact ⟨.inl (by norm_num), .inl (reachBelow_pos m)⟩

theorem tracks_product (m₁ m₂ : Nat) (e₁ e₂ : Int) :
    Tracks (.ofMantissaAndAccuracy (m₁ * m₂) .exact)
      (value m₁ e₁ * value m₂ e₂ / 2 ^ (e₁ + e₂)) := by
  have hz : value m₁ e₁ * value m₂ e₂ / 2 ^ (e₁ + e₂) = (m₁ * m₂ : Nat) := by
    unfold value
    rw [zpow_add₀ (by norm_num)]
    push_cast
    field_simp
  rw [hz]
  exact tracks_exact _

/-- **A product rounds to the float in whose interval it lies.** -/
theorem mul_of_roundsTo {s₁ s₂ : Sign} {m₁ m₂ : Nat} {e₁ e₂ : Int} {h₁ : 0 < m₁} {h₂ : 0 < m₂}
    (hfull : 2 ^ 52 ≤ m₁ * m₂) {m : Nat} {e : Int} (hc : Canonical m e)
    (hr : RoundsTo (value m₁ e₁ * value m₂ e₂) m e) :
    UnpackedFloat.mul .binary64 (.finite s₁ m₁ e₁ h₁) (.finite s₂ m₂ e₂ h₂) =
      .finite (s₁ * s₂) m e hc.pos := by
  have hlog : 52 ≤ (m₁ * m₂).log2 := (Nat.le_log2 (by omega)).2 hfull
  refine roundWithAccuracy_of_roundsTo (tracks_product m₁ m₂ e₁ e₂) ?_ hc hr
  rw [targetExponent_binary64, totalExponent]
  omega

/-- The quotient with the accuracy that the model gives it. -/
theorem tracks_quotient (n : Nat) {d : Nat} (hd : 0 < d) :
    Tracks (.ofMantissaAndAccuracy (n / d) (accuracyOfFraction (n % d) d)) ((n : Rat) / d) := by
  have hd' : (0 : Rat) < d := by exact_mod_cast hd
  have hz : 2 * ((n : Rat) / d) = 2 * (n / d : Nat) + 2 * (n % d : Nat) / d := by
    have hdiv : (n : Rat) = d * (n / d : Nat) + (n % d : Nat) := by
      exact_mod_cast (Nat.div_add_mod n d).symm
    field_simp
    linarith
  have hlt : (2 * (n % d : Nat) : Rat) / d < 2 := by
    rw [div_lt_iff₀ hd']
    exact_mod_cast Nat.mul_lt_mul_of_pos_left (Nat.mod_lt n hd) (by decide)
  unfold Tracks
  rw [hz]
  unfold accuracyOfFraction
  split
  · next h => simp [halves, ExtendedMantissa.ofMantissaAndAccuracy, h]
  · next h =>
    have hpos : (0 : Rat) < 2 * (n % d : Nat) / d := by
      have : (0 : Rat) < (n % d : Nat) := by exact_mod_cast Nat.pos_of_ne_zero h
      positivity
    -- the rest of the division against half of the divisor
    rcases lt_trichotomy (2 * (n % d)) d with hcmp | hcmp | hcmp
    · have hhalf : (2 * (n % d : Nat) : Rat) / d < 1 := by
        rw [div_lt_one hd']
        exact_mod_cast hcmp
      rw [Nat.compare_eq_lt.2 hcmp]
      simp only [halves, ExtendedMantissa.ofMantissaAndAccuracy, Bool.toNat_false, ↓reduceIte]
      push_cast at hpos hhalf ⊢
      constructor <;> linarith
    · have hhalf : (2 * (n % d : Nat) : Rat) / d = 1 := by
        rw [div_eq_one_iff_eq hd'.ne']
        exact_mod_cast hcmp
      rw [Nat.compare_eq_eq.2 hcmp, hhalf]
      simp [halves, ExtendedMantissa.ofMantissaAndAccuracy]
    · have hhalf : 1 < (2 * (n % d : Nat) : Rat) / d := by
        rw [one_lt_div hd']
        exact_mod_cast hcmp
      rw [Nat.compare_eq_gt.2 hcmp]
      simp only [halves, ExtendedMantissa.ofMantissaAndAccuracy, Bool.toNat_true, ↓reduceIte]
      push_cast at hhalf hlt ⊢
      constructor <;> linarith

theorem two_zpow_le_value {m : Nat} (hm : 0 < m) (e : Int) :
    2 ^ (totalExponent m e - 1) ≤ value m e :=
  two_zpow_totalExponent_le hm (tracks_value m e)

theorem value_lt_two_zpow (m : Nat) (e : Int) : value m e < 2 ^ totalExponent m e :=
  lt_two_zpow_totalExponent (tracks_value m e)

theorem two_zpow_lt_value_div {m₁ m₂ : Nat} (h₁ : 0 < m₁) (h₂ : 0 < m₂) (e₁ e₂ : Int) :
    2 ^ (totalExponent m₁ e₁ - 1 - totalExponent m₂ e₂) < value m₁ e₁ / value m₂ e₂ := by
  have hpos₁ : 0 < value m₁ e₁ := mul_pos (by exact_mod_cast h₁) (by positivity)
  have hpos₂ : 0 < value m₂ e₂ := mul_pos (by exact_mod_cast h₂) (by positivity)
  rw [zpow_sub₀ (by norm_num)]
  exact div_lt_div₀' (two_zpow_le_value h₁ e₁) (value_lt_two_zpow m₂ e₂) hpos₁ hpos₂

/-- The model divides at an exponent that is low enough for rounding, and with the accuracy that
rounding needs. -/
theorem tracks_divCore {m₁ m₂ : Nat} (h₁ : 0 < m₁) (h₂ : 0 < m₂) (e₁ e₂ : Int) :
    ∃ (n : Nat) (i : Int) (acc : Accuracy), divCore .binary64 m₁ e₁ m₂ e₂ = (n, i, acc) ∧
      Tracks (.ofMantissaAndAccuracy n acc) (value m₁ e₁ / value m₂ e₂ / 2 ^ i) ∧
      i ≤ Format.binary64.targetExponent (totalExponent n i) := by
  obtain ⟨i, hi⟩ : ∃ i, min (e₁ - e₂) (Format.binary64.targetExponent
      (totalExponent m₁ e₁ - totalExponent m₂ e₂)) = i := ⟨_, rfl⟩
  obtain ⟨k, hk⟩ : ∃ k : Nat, e₁ - e₂ - i = k := ⟨(e₁ - e₂ - i).toNat, by omega⟩
  have hcore : divCore .binary64 m₁ e₁ m₂ e₂ =
      (m₁ <<< k / m₂, i, accuracyOfFraction (m₁ <<< k % m₂) m₂) := by
    unfold divCore
    simp only [hi, hk, Int.toNat_natCast]
  have hz : value m₁ e₁ / value m₂ e₂ / 2 ^ i = (m₁ <<< k : Nat) / m₂ := by
    have hexp : e₁ = e₂ + i + k := by omega
    rw [Nat.shiftLeft_eq, value, value, hexp, zpow_add₀ (by norm_num), zpow_add₀ (by norm_num)]
    rw [zpow_natCast]
    push_cast
    field_simp
  have htracks : Tracks (.ofMantissaAndAccuracy (m₁ <<< k / m₂)
      (accuracyOfFraction (m₁ <<< k % m₂) m₂)) (value m₁ e₁ / value m₂ e₂ / 2 ^ i) := by
    rw [hz]
    exact tracks_quotient _ h₂
  refine ⟨_, _, _, hcore, htracks, ?_⟩
  have htotal : totalExponent m₁ e₁ - totalExponent m₂ e₂ ≤ totalExponent (m₁ <<< k / m₂) i := by
    have hpow := (two_zpow_lt_value_div h₁ h₂ e₁ e₂).trans (lt_two_zpow_totalExponent htracks)
    rw [zpow_lt_zpow_iff_right₀ (by norm_num)] at hpow
    omega
  rw [targetExponent_binary64] at hi ⊢
  omega

/-- **A quotient rounds to the float in whose interval it lies.** -/
theorem div_of_roundsTo {s₁ s₂ : Sign} {m₁ m₂ : Nat} {e₁ e₂ : Int} {h₁ : 0 < m₁} {h₂ : 0 < m₂}
    {m : Nat} {e : Int} (hc : Canonical m e) (hr : RoundsTo (value m₁ e₁ / value m₂ e₂) m e) :
    UnpackedFloat.div .binary64 (.finite s₁ m₁ e₁ h₁) (.finite s₂ m₂ e₂ h₂) =
      .finite (s₁ / s₂) m e hc.pos := by
  obtain ⟨n, i, acc, hcore, htracks, hi⟩ := tracks_divCore h₁ h₂ e₁ e₂
  unfold UnpackedFloat.div
  simp only [hcore]
  exact roundWithAccuracy_of_roundsTo htracks hi hc hr

/-! ### Exact integers -/

/-- A number that rounds to a float is not less than half of the unit. -/
theorem two_zpow_le_of_roundsTo {x : Rat} {m : Nat} {e : Int} (hc : Canonical m e)
    (hr : RoundsTo x m e) : 2 ^ (e - 1) ≤ x := by
  have hdown := hr.nearestEven.bounds.2
  have hm : (1 : Rat) ≤ m := by exact_mod_cast hc.pos
  have hz : 1 / 2 ≤ x / 2 ^ e := by linarith
  rw [le_div_iff₀ (by positivity)] at hz
  rw [zpow_sub_one₀ (by norm_num)]
  linarith

/-- A decimal that rounds to a float has no power of ten above the limit of the reader. -/
theorem exponent_le_of_roundsTo {c : Nat} {k : Int} (hpos : 0 < c) {m : Nat} {e : Int}
    (hc : Canonical m e) (hr : RoundsTo (c * 10 ^ k) m e) : k ≤ 1024 := by
  have hgreatest := hc.le_greatest
  by_cases hk : k ≤ 0
  · omega
  have hpow : (2 : Rat) ^ k < 2 ^ (e + 53) := by
    calc (2 : Rat) ^ k ≤ 10 ^ k := zpow_le_zpow_left₀ (by omega) (by norm_num) (by norm_num)
      _ = 1 * 10 ^ k := (one_mul _).symm
      _ ≤ c * 10 ^ k := by
        gcongr
        exact_mod_cast hpos
      _ < 2 ^ (e + 53) := hr.lt hc
  rw [zpow_lt_zpow_iff_right₀ (by norm_num)] at hpow
  omega

/-- Nor one below the limit, which lies lower the more digits there are. -/
theorem le_exponent_of_roundsTo {c : Nat} {k : Int} {m : Nat} {e : Int} (hc : Canonical m e)
    (hr : RoundsTo (c * 10 ^ k) m e) : -1076 - (c.log2 : Int) ≤ k := by
  have hleast := hc.least_le
  by_cases hk : 0 ≤ k
  · omega
  have hten : (10 : Rat) ^ k ≤ 2 ^ k := by
    obtain ⟨n, rfl⟩ : ∃ n : Nat, k = -n := ⟨(-k).toNat, by omega⟩
    rw [zpow_neg, zpow_neg, zpow_natCast, zpow_natCast]
    exact inv_anti₀ (by positivity) (pow_le_pow_left₀ (by norm_num) (by norm_num) n)
  have hlog : (c : Rat) < 2 ^ (c.log2 + 1) := by exact_mod_cast Nat.lt_log2_self
  have hpow : (2 : Rat) ^ (e - 1) < 2 ^ (c.log2 + 1 + k) := by
    calc (2 : Rat) ^ (e - 1) ≤ c * 10 ^ k := two_zpow_le_of_roundsTo hc hr
      _ ≤ c * 2 ^ k := by gcongr
      _ < 2 ^ (c.log2 + 1) * 2 ^ k := by gcongr
      _ = 2 ^ (c.log2 + 1 + k) := by
        rw [← zpow_natCast, ← zpow_add₀ (by norm_num)]
        norm_num
  rw [zpow_lt_zpow_iff_right₀ (by norm_num)] at hpow
  omega

theorem value_shiftLeft_neg (c n : Nat) : value (c <<< n) (-n) = c := by
  rw [value, Nat.shiftLeft_eq, zpow_neg, zpow_natCast]
  push_cast
  field_simp

theorem value_ten_pow (n : Nat) : value (10 ^ n) 0 = 10 ^ (n : Int) := by
  simp [value]

/-- **Multiplying or dividing exact integers gives the float in whose interval the decimal
lies.** -/
theorem ofScientific_of_roundsTo {c : Nat} {k : Int} (hpos : 0 < c) {m : Nat} {e : Int}
    (hc : Canonical m e) (hr : RoundsTo (c * 10 ^ k) m e) :
    UnpackedFloat.ofScientific .binary64 c k = .finite .positive m e hc.pos := by
  have hup := exponent_le_of_roundsTo hpos hc hr
  have hdown := le_exponent_of_roundsTo hc hr
  have htoo : ¬ k > 2 ^ Format.binary64.exponentBits := by
    change ¬ k > 2048
    omega
  have hfew : ¬ k < -((2 ^ Format.binary64.exponentBits : Int) + c.log2) := by
    change ¬ k < -(2048 + (c.log2 : Int))
    omega
  unfold UnpackedFloat.ofScientific
  rw [dif_neg hpos.ne', if_neg htoo, if_neg hfew]
  split
  · next hk =>
    refine mul_of_roundsTo ?_ hc ?_
    · calc 2 ^ 52 ≤ 1 * 2 ^ 53 * 1 := by norm_num
        _ ≤ c * 2 ^ 53 * 10 ^ k.toNat := by
          gcongr
          · exact hpos
          · exact Nat.one_le_pow _ _ (by decide)
        _ = c <<< Format.binary64.mantissaBits * 10 ^ k.toNat := by
          rw [Nat.shiftLeft_eq]
          rfl
    · rwa [value_shiftLeft_neg, value_ten_pow, Int.toNat_of_nonneg hk]
  · next hk =>
    refine div_of_roundsTo hc ?_
    rw [value_ten_pow, Int.toNat_of_nonneg (by omega), zpow_neg, div_inv_eq_mul]
    simpa [value] using hr

/-! ### Small coefficients and powers of ten -/

/-- The float is the positive number `x`, with a full mantissa. -/
def IsExactly (f : Float) (x : Rat) : Prop :=
  ∃ (m : Nat) (e : Int) (h : Canonical m e), 2 ^ 52 ≤ m ∧ value m e = x ∧ f = float .positive h

theorem ofNat_of_shiftLeft {c k : Nat} (hc : Canonical (c <<< k) (-k)) (hk : k = 52 - c.log2)
    (hlog : c.log2 ≤ 52) :
    UnpackedFloat.ofNat .binary64 c = .finite .positive (c <<< k) (-k) hc.pos := by
  have hcpos : 0 < c := by
    have := hc.pos
    rw [Nat.shiftLeft_eq] at this
    exact Nat.pos_of_mul_pos_right this
  have htarget : Format.binary64.targetExponent (totalExponent c 0) = -k := by
    rw [targetExponent_binary64, totalExponent]
    omega
  have hgt : compare (c : Int) 0 = .gt := Int.compare_eq_gt.2 (by omega)
  unfold UnpackedFloat.ofNat UnpackedFloat.ofInt UnpackedFloat.normalize
  rw [hgt]
  dsimp only
  rw [Int.toNat_natCast]
  unfold UnpackedFloat.round
  simp only [htarget, decreaseExponent, zero_sub, neg_neg, Int.toNat_natCast]
  exact roundWithAccuracy_of_roundsTo (tracks_value _ _) hc.targetExponent_eq.ge hc
    (roundsTo_value _ _)

/-- **A small natural number is a float.** -/
theorem isExactly_toFloat {c : Nat} (hpos : 0 < c) (hlt : c < 2 ^ 53) :
    IsExactly c.toUInt64.toFloat c := by
  have hlog : c.log2 < 53 := (Nat.log2_lt hpos.ne').2 hlt
  -- shifting by `k` makes the mantissa full
  obtain ⟨k, hk⟩ : ∃ k, k = 52 - c.log2 := ⟨_, rfl⟩
  have hlow : 2 ^ 52 ≤ c <<< k := by
    rw [Nat.shiftLeft_eq]
    calc 2 ^ 52 = 2 ^ c.log2 * 2 ^ k := by
          rw [← pow_add]
          congr 1
          omega
      _ ≤ c * 2 ^ k := Nat.mul_le_mul_right _ (Nat.log2_self_le hpos.ne')
  have hhigh : c <<< k < 2 ^ 53 := by
    rw [Nat.shiftLeft_eq]
    calc c * 2 ^ k < 2 ^ (c.log2 + 1) * 2 ^ k := by
          gcongr
          exact Nat.lt_log2_self
      _ = 2 ^ 53 := by
          rw [← pow_add]
          congr 1
          omega
  have hc : Canonical (c <<< k) (-k) := ⟨by omega, hhigh, .inl hlow, by omega, by omega⟩
  refine ⟨c <<< k, -k, hc, hlow, value_shiftLeft_neg c k, ?_⟩
  have htoNat : c.toUInt64.toNat = c := by
    rw [Nat.toUInt64_eq, UInt64.toNat_ofNat']
    omega
  change Float.ofModel (.pack (UnpackedFloat.ofNat .binary64 c.toUInt64.toNat)) = _
  rw [htoNat, ofNat_of_shiftLeft hc hk (by omega)]
  rfl

/-- Whether a float is a natural number, with a full mantissa. -/
def isNat (f : Float) (n : Nat) : Bool :=
  match f.toModel.unpack with
  | .finite .positive m e _ => 2 ^ 52 ≤ m && m * 2 ^ e.toNat == n * 2 ^ (-e).toNat
  | _ => false

theorem isExactly_of_isNat {f : Float} {n : Nat} (h : isNat f n = true) : IsExactly f n := by
  unfold isNat at h
  split at h
  · next m e hm hunpack =>
    simp only [Bool.and_eq_true, decide_eq_true_eq, beq_iff_eq] at h
    obtain ⟨hfull, hvalue⟩ := h
    refine ⟨m, e, canonical_of_unpack hunpack, hfull, ?_, eq_float hunpack⟩
    have hvalue' : (m : Rat) * 2 ^ e.toNat = n * 2 ^ (-e).toNat := by exact_mod_cast hvalue
    rw [value, zpow_eq_pow_div_pow (by norm_num)]
    field_simp
    linarith
  · cases h

/-- **The powers of ten in the table are what they say.** -/
theorem isExactly_powerOfTen {k : Nat} (hk : k < Float.exactlyRepresentablePowersOfTen.size) :
    IsExactly Float.exactlyRepresentablePowersOfTen[k] (10 ^ k) := by
  have hall : ∀ k : Fin 23, isNat Float.exactlyRepresentablePowersOfTen[k] (10 ^ k.val) = true := by
    decide +kernel
  exact_mod_cast isExactly_of_isNat (hall ⟨k, hk⟩)

/-- A product of numbers that are floats. -/
theorem IsExactly.mul_eq_float {f g : Float} {x y : Rat} (hf : IsExactly f x) (hg : IsExactly g y)
    {m : Nat} {e : Int} (hc : Canonical m e) (hr : RoundsTo (x * y) m e) :
    f * g = float .positive hc := by
  obtain ⟨m₁, e₁, h₁, hfull, rfl, rfl⟩ := hf
  obtain ⟨m₂, e₂, h₂, -, rfl, rfl⟩ := hg
  have hle : 2 ^ 52 ≤ m₁ * m₂ := hfull.trans (Nat.le_mul_of_pos_right _ h₂.pos)
  change Float.ofModel (.pack (UnpackedFloat.mul .binary64 (float _ h₁).toModel.unpack
    (float _ h₂).toModel.unpack)) = _
  rw [unpack_float, unpack_float, mul_of_roundsTo hle hc hr]
  rfl

/-- A quotient of numbers that are floats. -/
theorem IsExactly.div_eq_float {f g : Float} {x y : Rat} (hf : IsExactly f x) (hg : IsExactly g y)
    {m : Nat} {e : Int} (hc : Canonical m e) (hr : RoundsTo (x / y) m e) :
    f / g = float .positive hc := by
  obtain ⟨m₁, e₁, h₁, -, rfl, rfl⟩ := hf
  obtain ⟨m₂, e₂, h₂, -, rfl, rfl⟩ := hg
  change Float.ofModel (.pack (UnpackedFloat.div .binary64 (float _ h₁).toModel.unpack
    (float _ h₂).toModel.unpack)) = _
  rw [unpack_float, unpack_float, div_of_roundsTo hc hr]
  rfl

end Binary64

/-! ### Numerals -/

/-- The sign of the exponent and its absolute value make up the exponent. -/
theorem Numeral.exponent_of_sign (k : Int) :
    (if decide (k < 0) = true then Int.negOfNat k.natAbs else Int.ofNat k.natAbs) = k := by
  split
  · next hneg =>
    rw [decide_eq_true_eq] at hneg
    rw [Int.negOfNat_eq, Int.ofNat_eq_natCast]
    omega
  · next hneg =>
    rw [decide_eq_true_eq] at hneg
    exact Int.natAbs_of_nonneg (by omega)

/-- **A decimal is read as the float in whose interval it lies.** -/
theorem Numeral.toFloat_eq_float {c : Nat} {k : Int} (hpos : 0 < c) {m : Nat} {e : Int}
    (hc : Binary64.Canonical m e) (hr : Binary64.RoundsTo (c * 10 ^ k) m e) :
    Numeral.toFloat c k = Binary64.float .positive hc := by
  unfold Numeral.toFloat Float.ofScientific
  split
  · next hsmall =>
    -- coefficient and power are floats, and one operation joins them
    obtain ⟨hlt, hk⟩ := hsmall
    have hc' := Binary64.isExactly_toFloat hpos hlt
    have hten := Binary64.isExactly_powerOfTen (k := k.natAbs)
      (by simp [Float.exactlyRepresentablePowersOfTen]; omega)
    by_cases hneg : k < 0
    · simp only [hneg, decide_true, ↓reduceIte]
      refine hc'.div_eq_float hten hc ?_
      have hpow : (10 : Rat) ^ k = (10 ^ k.natAbs)⁻¹ := by
        rw [← zpow_natCast, ← zpow_neg]
        congr 1
        omega
      rwa [hpow] at hr
    · simp only [hneg, decide_false]
      refine hc'.mul_eq_float hten hc ?_
      have hpow : (10 : Rat) ^ k = 10 ^ k.natAbs := by
        rw [← zpow_natCast]
        congr 1
        omega
      rwa [hpow] at hr
  · simp only [Numeral.exponent_of_sign]
    change Float.ofModel (.pack (Float.Model.UnpackedFloat.ofScientific .binary64 c k)) = _
    rw [Binary64.ofScientific_of_roundsTo hpos hc hr]
    rfl

end Abacus
