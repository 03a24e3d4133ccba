import Abacus.Proofs.Decimal.Reading

/-!
# Rounding to the nearest float keeps the order

A number `x ≥ 0` is rounded in units of the last place that a float of its size has
(`LastPlace`), to the nearest multiple of this unit (`Nearest`).  A greater number has the same
last place or a higher one.  In the same place rounding keeps the order as it does for natural
numbers; and between two places lies a power of two, which is a float and so rounds to itself.
Hence rounding keeps the order of all numbers (`Nearest.le`).

The model shifts a mantissa, rounds it, and shifts again if it carried.  The main result,
`roundWithAccuracy_nearest`, is that this gives the nearest number.  Nothing is said here about the
greatest float: overflow happens when the result is packed.
-/

namespace Abacus

namespace Binary64

open Float.Model
open Float.Model.UnpackedFloat

/-! ### The last place -/

/-- The last place of floats of the size of `x` has the value `2 ^ t`. -/
structure LastPlace (x : Rat) (t : Int) : Prop where
  least_le : -1074 ≤ t
  lt : x < 2 ^ (t + 53)
  full : t = -1074 ∨ 2 ^ (t + 52) ≤ x

theorem LastPlace.le {x y : Rat} {t u : Int} (hx : LastPlace x t) (hy : LastPlace y u)
    (hxy : x ≤ y) : t ≤ u := by
  rcases hx.full with rfl | hfull
  · exact hy.least_le
  · have hpow := (hfull.trans hxy).trans_lt hy.lt
    rw [zpow_lt_zpow_iff_right₀ (by norm_num)] at hpow
    omega

theorem LastPlace.mantissa_le {x : Rat} {t : Int} {k : Nat} (h : LastPlace x t)
    (hk : NearestEven (x / 2 ^ t) k) : k ≤ 2 ^ 53 := by
  have hlt : x / 2 ^ t < 2 ^ 53 := (div_two_zpow_lt_iff 53).2 h.lt
  exact hk.le (nearestEven_natCast (2 ^ 53)) (by exact_mod_cast hlt.le)

theorem LastPlace.le_mantissa {x : Rat} {t : Int} {k : Nat} (h : LastPlace x t) (ht : t ≠ -1074)
    (hk : NearestEven (x / 2 ^ t) k) : 2 ^ 52 ≤ k := by
  have hle : 2 ^ 52 ≤ x / 2 ^ t := (two_pow_le_div_iff 52).2 (h.full.resolve_left ht)
  exact (nearestEven_natCast (2 ^ 52)).le hk (by exact_mod_cast hle)

theorem value_le_value {m n : Nat} (h : m ≤ n) (e : Int) : value m e ≤ value n e := by
  unfold value
  gcongr

theorem value_nonneg (m : Nat) (e : Int) : 0 ≤ value m e := by
  unfold value
  positivity

theorem value_two_pow (k : Nat) (e : Int) : value (2 ^ k) e = 2 ^ (e + k) := by
  unfold value
  rw [zpow_add₀ (by norm_num), zpow_natCast, mul_comm]
  norm_cast

/-! ### The nearest number -/

/-- The number `x` is rounded to `v`. -/
def Nearest (x v : Rat) : Prop :=
  ∃ t, LastPlace x t ∧ ∃ k : Nat, NearestEven (x / 2 ^ t) k ∧ v = value k t

/-- **Rounding to the nearest float keeps the order.** -/
theorem Nearest.le {x y v w : Rat} (hx : Nearest x v) (hy : Nearest y w) (hxy : x ≤ y) : v ≤ w := by
  obtain ⟨t, ht, k, hk, rfl⟩ := hx
  obtain ⟨u, hu, n, hn, rfl⟩ := hy
  rcases (ht.le hu hxy).eq_or_lt with rfl | htu
  · exact value_le_value (hk.le hn (by gcongr)) t
  · -- a power of two lies between the last places
    have hne : u ≠ -1074 := (ht.least_le.trans_lt htu).ne'
    calc value k t ≤ value (2 ^ 53) t := value_le_value (ht.mantissa_le hk) t
      _ = 2 ^ (t + 53) := value_two_pow 53 t
      _ ≤ 2 ^ (u + 52) := zpow_le_zpow_right₀ (by norm_num) (by omega)
      _ = value (2 ^ 52) u := (value_two_pow 52 u).symm
      _ ≤ value n u := value_le_value (hu.le_mantissa hne hn) u

theorem Nearest.nonneg {x v : Rat} (h : Nearest x v) : 0 ≤ v := by
  obtain ⟨t, -, k, -, rfl⟩ := h
  exact value_nonneg k t

/-- The mantissa has at most 53 digits, and fewer only at the lowest place. -/
structure Fits (m : Nat) (e : Int) : Prop where
  lt : m < 2 ^ 53
  full : 2 ^ 52 ≤ m ∨ e = -1074
  least_le : -1074 ≤ e

theorem Canonical.fits {m : Nat} {e : Int} (h : Canonical m e) : Fits m e :=
  ⟨h.lt, h.full, h.least_le⟩

theorem Fits.lastPlace {m : Nat} {e : Int} (h : Fits m e) : LastPlace (value m e) e where
  least_le := h.least_le
  lt := by
    refine (div_two_zpow_lt_iff 53).1 ?_
    rw [value_div]
    exact_mod_cast h.lt
  full := by
    rcases h.full with hfull | rfl
    · refine .inr ((two_pow_le_div_iff 52).1 ?_)
      rw [value_div]
      exact_mod_cast hfull
    · exact .inl rfl

/-- **A float is rounded to itself.** -/
theorem Fits.nearest {m : Nat} {e : Int} (h : Fits m e) : Nearest (value m e) (value m e) := by
  refine ⟨e, h.lastPlace, m, ?_, rfl⟩
  rw [value_div]
  exact nearestEven_natCast m

theorem nearest_zero : Nearest 0 0 := by
  have hfits : Fits 0 (-1074) := ⟨by norm_num, .inr rfl, le_rfl⟩
  simpa [value] using hfits.nearest

/-- Powers of two are floats. -/
theorem nearest_two_zpow {e : Int} (he : -1022 ≤ e) : Nearest (2 ^ e) (2 ^ e) := by
  have hfits : Fits (2 ^ 52) (e - 52) := ⟨by norm_num, .inl le_rfl, by omega⟩
  have hpow : value (2 ^ 52) (e - 52) = 2 ^ e := by
    rw [value_two_pow]
    norm_num
  exact hpow ▸ hfits.nearest

/-! ### Rounding in the model -/

/-- The float `u` with sign `s` has the magnitude `v`. -/
inductive Represents (s : Sign) : UnpackedFloat → Rat → Prop
  | zero : Represents s (.zero s) 0
  | finite {m : Nat} {e : Int} (hm : 0 < m) (h : Fits m e) :
      Represents s (.finite s m e hm) (value m e)

theorem Fits.targetExponent_eq {m : Nat} {e : Int} (h : Fits m e) :
    Format.binary64.targetExponent (totalExponent m e) = e := by
  rcases Nat.eq_zero_or_pos m with rfl | hm
  · have he : e = -1074 := h.full.resolve_left (by norm_num)
    rw [he]
    decide
  have hleast := h.least_le
  rw [targetExponent_binary64, totalExponent]
  rcases h.full with hfull | rfl
  · have hlog : m.log2 = 52 := (Nat.log2_eq_iff hm.ne').2 ⟨hfull, h.lt⟩
    omega
  · have hlog : m.log2 < 53 := (Nat.log2_lt hm.ne').2 h.lt
    omega

/-- A mantissa that fits is not shifted again. -/
theorem Fits.shiftToTargetExponent {m : Nat} {e : Int} (h : Fits m e) :
    (shiftToTargetExponent .binary64 m e .exact).1.mantissa = m ∧
      (shiftToTargetExponent .binary64 m e .exact).2 = e := by
  simp only [UnpackedFloat.shiftToTargetExponent, h.targetExponent_eq, shiftToExponent, sub_self,
    Int.toNat_zero]
  exact ⟨rfl, by simp⟩

/-- A rounded mantissa fits after the second shift, which does not change the number. -/
theorem LastPlace.shiftToTargetExponent {x : Rat} {t : Int} {k : Nat} (h : LastPlace x t)
    (hk : NearestEven (x / 2 ^ t) k) :
    ∃ (m : Nat) (e : Int), Fits m e ∧ value m e = value k t ∧
      (shiftToTargetExponent .binary64 k t .exact).1.mantissa = m ∧
      (shiftToTargetExponent .binary64 k t .exact).2 = e := by
  rcases (h.mantissa_le hk).eq_or_lt with rfl | hlt
  · -- rounding carried into the next power of two
    have hleast := h.least_le
    refine ⟨2 ^ 52, t + 1, ⟨by norm_num, .inl le_rfl, by omega⟩, ?_, ?_⟩
    · rw [value_two_pow, value_two_pow]
      congr 1
      push_cast
      ring
    · have hcarry := shiftToTargetExponent_carry (show -1074 ≤ t + 1 by omega)
      rwa [add_sub_cancel_right] at hcarry
  · have hfull : 2 ^ 52 ≤ k ∨ t = -1074 := by
      by_cases ht : t = -1074
      · exact .inr ht
      · exact .inl (h.le_mantissa ht hk)
    have hfits : Fits k t := ⟨hlt, hfull, h.least_le⟩
    exact ⟨k, t, hfits, rfl, hfits.shiftToTargetExponent⟩

/-- The model shifts to the last place. -/
theorem lastPlace_targetExponent {n : Nat} {i : Int} {acc : Accuracy} {x : Rat}
    (h : Tracks (.ofMantissaAndAccuracy n acc) (x / 2 ^ i))
    (hi : i ≤ Format.binary64.targetExponent (totalExponent n i)) :
    LastPlace x (Format.binary64.targetExponent (totalExponent n i)) := by
  have hlt := lt_two_zpow_totalExponent h
  rw [targetExponent_binary64] at hi ⊢
  refine ⟨le_max_right _ _, hlt.trans_le ?_, ?_⟩
  · exact zpow_le_zpow_right₀ (by norm_num) (by omega)
  · rcases Nat.eq_zero_or_pos n with rfl | hn
    · left
      simp only [totalExponent, Nat.log2_zero] at hi ⊢
      omega
    · by_cases hleast : totalExponent n i - 53 ≤ -1074
      · exact .inl (max_eq_right hleast)
      · right
        rw [max_eq_left (by omega)]
        convert two_zpow_totalExponent_le hn h using 2
        ring

/-- **The model rounds to the nearest number.** -/
theorem roundWithAccuracy_nearest (s : Sign) {n : Nat} {i : Int} {acc : Accuracy} {x : Rat}
    (h : Tracks (.ofMantissaAndAccuracy n acc) (x / 2 ^ i))
    (hi : i ≤ Format.binary64.targetExponent (totalExponent n i)) :
    ∃ v, Nearest x v ∧ Represents s (roundWithAccuracy .binary64 s n i acc) v := by
  obtain ⟨t, ht⟩ : ∃ t, Format.binary64.targetExponent (totalExponent n i) = t := ⟨_, rfl⟩
  have hplace : LastPlace x t := ht ▸ lastPlace_targetExponent h hi
  obtain ⟨hexp, htracks⟩ := tracks_shiftToExponent h (ht ▸ hi)
  have hnearest := htracks.nearestEven
  obtain ⟨m, e, hfits, hvalue, hmantissa, hexponent⟩ := hplace.shiftToTargetExponent hnearest
  refine ⟨value m e, ⟨t, hplace, _, hnearest, hvalue⟩, ?_⟩
  have hfirst : shiftToTargetExponent .binary64 n i acc = shiftToExponent n i acc t := by
    rw [UnpackedFloat.shiftToTargetExponent, ht]
  have hsecond : shiftToTargetExponent .binary64
        (shiftToTargetExponent .binary64 n i acc).1.roundedMantissa
        (shiftToTargetExponent .binary64 n i acc).2 .exact =
      shiftToTargetExponent .binary64 (shiftToExponent n i acc t).1.roundedMantissa t .exact := by
    rw [hfirst, hexp]
  have hshape : ∀ (m' : Nat) (e' : Int), m' = m → e' = e →
      Represents s (if hzero : m' = 0 then UnpackedFloat.zero s
        else .finite s m' e' (Nat.pos_of_ne_zero hzero)) (value m e) := by
    rintro m' e' rfl rfl
    split
    · next hzero =>
      have hvalue : value m' e' = 0 := by simp [value, hzero]
      rw [hvalue]
      exact .zero
    · exact .finite _ hfits
  exact hshape _ _ ((congrArg (·.1.mantissa) hsecond).trans hmantissa)
    ((congrArg (·.2) hsecond).trans hexponent)

theorem log2_shiftLeft {m : Nat} (hm : 0 < m) (k : Nat) : (m <<< k).log2 = m.log2 + k := by
  have hpos : m <<< k ≠ 0 := by
    rw [Nat.shiftLeft_eq]
    positivity
  rw [Nat.log2_eq_iff hpos, Nat.shiftLeft_eq]
  constructor
  · rw [pow_add]
    exact Nat.mul_le_mul_right _ (Nat.log2_self_le hm.ne')
  · rw [add_right_comm, pow_add]
    exact Nat.mul_lt_mul_of_pos_right Nat.lt_log2_self (by positivity)

theorem value_shiftLeft (m k : Nat) (e : Int) : value (m <<< k) (e - k) = value m e := by
  rw [value, value, Nat.shiftLeft_eq, zpow_sub₀ (by norm_num), zpow_natCast]
  push_cast
  field_simp

/-- The same for a mantissa and an exponent of any size. -/
theorem round_nearest (s : Sign) {m : Nat} (hm : 0 < m) (e : Int) :
    ∃ v, Nearest (value m e) v ∧ Represents s (.round .binary64 s m e) v := by
  obtain ⟨t, ht⟩ : ∃ t, Format.binary64.targetExponent (totalExponent m e) = t := ⟨_, rfl⟩
  obtain ⟨k, hk⟩ : ∃ k, (e - t).toNat = k := ⟨_, rfl⟩
  have hround : UnpackedFloat.round .binary64 s m e =
      roundWithAccuracy .binary64 s (m <<< k) (e - k) .exact := by
    unfold UnpackedFloat.round decreaseExponent
    simp only [ht, hk]
  have htotal : totalExponent (m <<< k) (e - k) = totalExponent m e := by
    simp only [totalExponent, log2_shiftLeft hm]
    push_cast
    ring
  rw [hround, ← value_shiftLeft m k e]
  refine roundWithAccuracy_nearest s (tracks_value _ _) ?_
  rw [htotal, ht]
  omega

/-- There is a number to which a given one is rounded. -/
theorem exists_nearest_value (m : Nat) (e : Int) : ∃ v, Nearest (value m e) v := by
  rcases Nat.eq_zero_or_pos m with rfl | hm
  · exact ⟨0, by simpa [value] using nearest_zero⟩
  · obtain ⟨v, hv, -⟩ := round_nearest .positive hm e
    exact ⟨v, hv⟩

end Binary64

end Abacus
