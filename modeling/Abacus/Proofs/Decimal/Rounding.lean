import Mathlib.Algebra.Order.Field.Power
import Mathlib.Data.Rat.Cast.Order
import Mathlib.Tactic.FieldSimp
import Mathlib.Tactic.Linarith
import Mathlib.Tactic.NormNum
import Mathlib.Tactic.Positivity
import Mathlib.Tactic.Ring

/-!
# How the float model rounds

The model of floats rounds a number by shifting a mantissa to the right until it fits, and it keeps
two bits of what was shifted out.  `Tracks` says what the mantissa and these bits tell of the number
that they were cut from; a shift keeps it (`Tracks.shiftRight`), and it is enough to round to the
nearest number (`Tracks.nearestEven`).

A number rounds to the float `m * 2 ^ e` if it lies in an interval around it (`RoundsTo`), half a
unit `2 ^ e` to either side, and only a quarter below the smallest full mantissa.  The main result,
`roundWithAccuracy_of_roundsTo`, is that the model then gives just this float.
-/

namespace Abacus

namespace Binary64

open Float.Model
open Float.Model.UnpackedFloat

/-- A power with an integer exponent, without division of the base. -/
theorem zpow_eq_pow_div_pow {b : Rat} (hb : b ≠ 0) (e : Int) :
    b ^ e = b ^ e.toNat / b ^ (-e).toNat := by
  conv_lhs => rw [← Int.toNat_sub_toNat_neg e]
  rw [zpow_sub₀ hb, zpow_natCast, zpow_natCast]

/-- A number in units of `2 ^ e`. -/
theorem div_two_zpow_lt_iff {x : Rat} {e : Int} (k : Nat) :
    x / 2 ^ e < 2 ^ k ↔ x < 2 ^ (e + k) := by
  rw [div_lt_iff₀ (by positivity), zpow_add₀ (by norm_num), zpow_natCast, mul_comm]

theorem two_pow_le_div_iff {x : Rat} {e : Int} (k : Nat) : 2 ^ k ≤ x / 2 ^ e ↔ 2 ^ (e + k) ≤ x := by
  rw [le_div_iff₀ (by positivity), zpow_add₀ (by norm_num), zpow_natCast, mul_comm]

/-! ### Mantissas and what was cut off -/

/-- A mantissa with its round bit, in halves. -/
def halves (em : ExtendedMantissa) : Nat :=
  2 * em.mantissa + em.roundBit.toNat

/-- The mantissa and the two bits are cut from the number `z`. -/
def Tracks (em : ExtendedMantissa) (z : Rat) : Prop :=
  if em.stickyBit then halves em < 2 * z ∧ 2 * z < halves em + 1 else 2 * z = halves em

@[simp]
theorem mantissa_ofMantissaAndAccuracy (n : Nat) (acc : Accuracy) :
    (ExtendedMantissa.ofMantissaAndAccuracy n acc).mantissa = n := by
  unfold ExtendedMantissa.ofMantissaAndAccuracy
  split <;> rfl

theorem tracks_exact (m : Nat) : Tracks (.ofMantissaAndAccuracy m .exact) m := by
  simp [Tracks, halves, ExtendedMantissa.ofMantissaAndAccuracy]

theorem Tracks.mantissa_le {em : ExtendedMantissa} {z : Rat} (h : Tracks em z) :
    em.mantissa ≤ z := by
  obtain ⟨m, r, s⟩ := em
  cases r <;> cases s <;> simp [Tracks, halves] at h ⊢ <;> linarith

theorem Tracks.lt_mantissa_add_one {em : ExtendedMantissa} {z : Rat} (h : Tracks em z) :
    z < em.mantissa + 1 := by
  obtain ⟨m, r, s⟩ := em
  cases r <;> cases s <;> simp [Tracks, halves] at h ⊢ <;> linarith

theorem halves_shiftRightOne (em : ExtendedMantissa) : halves em.shiftRightOne = em.mantissa := by
  have hmod : (em.mantissa % 2 != 0).toNat = em.mantissa % 2 := by
    rcases Nat.mod_two_eq_zero_or_one em.mantissa with h | h <;> simp [h]
  simp only [halves, ExtendedMantissa.shiftRightOne, hmod]
  omega

theorem Tracks.shiftRightOne {em : ExtendedMantissa} {z : Rat} (h : Tracks em z) :
    Tracks em.shiftRightOne (z / 2) := by
  have hz : 2 * (z / 2) = z := by ring
  unfold Tracks
  rw [halves_shiftRightOne, hz]
  obtain ⟨m, r, s⟩ := em
  cases r <;> cases s <;> simp [Tracks, halves, ExtendedMantissa.shiftRightOne] at h ⊢ <;>
    first | linarith | constructor <;> linarith

/-- **Shifting keeps track of the number.** -/
theorem Tracks.shiftRight {em : ExtendedMantissa} {z : Rat} (h : Tracks em z) (n : Nat) :
    Tracks (em >>> n) (z / 2 ^ n) := by
  -- the model shifts by one again and again
  change Tracks (n.repeat ExtendedMantissa.shiftRightOne em) _
  induction n with
  | zero => simpa [Nat.repeat] using h
  | succ n ih =>
    rw [Nat.repeat, pow_succ, ← div_div]
    exact ih.shiftRightOne

/-- The number `z` lies at most half a unit from `m`, and less than that if `m` is odd. -/
def NearestEven (z : Rat) (m : Nat) : Prop :=
  (z - m < 1 / 2 ∨ z - m = 1 / 2 ∧ Even m) ∧ (m - z < 1 / 2 ∨ m - z = 1 / 2 ∧ Even m)

theorem NearestEven.bounds {z : Rat} {m : Nat} (h : NearestEven z m) :
    z ≤ m + 1 / 2 ∧ m ≤ z + 1 / 2 := by
  obtain ⟨hup, hdown⟩ := h
  constructor
  · rcases hup with h | h <;> linarith
  · rcases hdown with h | h <;> linarith

/-- Rounding to the nearest natural number keeps the order. -/
theorem NearestEven.le {x y : Rat} {m n : Nat} (hx : NearestEven x m) (hy : NearestEven y n)
    (hxy : x ≤ y) : m ≤ n := by
  by_contra! hlt
  have hx' := hx.bounds.2
  have hy' := hy.bounds.1
  have hle : (n : Rat) + 1 ≤ m := by exact_mod_cast hlt
  -- both numbers lie in the middle between `n` and `m`, and only one of these is even
  have hm : Even m := (hx.2.resolve_left (by linarith)).2
  have hn : Even n := (hy.1.resolve_left (by linarith)).2
  have hsucc : m = n + 1 := by
    have : (m : Rat) ≤ n + 1 := by linarith
    exact le_antisymm (by exact_mod_cast this) hlt
  rw [hsucc] at hm
  exact Nat.even_add_one.1 hm hn

theorem NearestEven.eq {x : Rat} {m n : Nat} (hm : NearestEven x m) (hn : NearestEven x n) :
    m = n :=
  le_antisymm (hm.le hn le_rfl) (hn.le hm le_rfl)

theorem nearestEven_natCast (n : Nat) : NearestEven n n := by
  unfold NearestEven
  rw [sub_self]
  exact ⟨.inl (by norm_num), .inl (by norm_num)⟩

/-- **A mantissa rounds to the nearest natural number**, of two to the even one. -/
theorem Tracks.nearestEven {em : ExtendedMantissa} {z : Rat} (h : Tracks em z) :
    NearestEven z em.roundedMantissa := by
  obtain ⟨k, r, s⟩ := em
  simp only [Tracks, halves] at h
  cases r <;> cases s <;> simp at h
  · change NearestEven z k
    rw [h]
    exact nearestEven_natCast k
  · change NearestEven z k
    exact ⟨.inl (by linarith), .inl (by linarith)⟩
  · -- `z` lies in the middle
    change NearestEven z (k + k % 2 : Nat)
    unfold NearestEven
    rcases Nat.mod_two_eq_zero_or_one k with hk | hk <;> rw [hk] <;> push_cast
    · exact ⟨.inr ⟨by linarith, Nat.even_iff.2 hk⟩, .inl (by linarith)⟩
    · exact ⟨.inl (by linarith), .inr ⟨by linarith, Nat.even_iff.2 (by omega)⟩⟩
  · change NearestEven z (k + 1 : Nat)
    unfold NearestEven
    push_cast
    exact ⟨.inl (by linarith), .inl (by linarith)⟩

theorem Tracks.roundedMantissa_eq {em : ExtendedMantissa} {z : Rat} {m : Nat} (h : Tracks em z)
    (hm : NearestEven z m) : em.roundedMantissa = m :=
  h.nearestEven.eq hm

/-! ### Floats and their intervals -/

/-- The mantissas and exponents of finite floats: the mantissa is full, or the exponent is the least
one. -/
structure Canonical (m : Nat) (e : Int) : Prop where
  pos : 0 < m
  lt : m < 2 ^ 53
  full : 2 ^ 52 ≤ m ∨ e = -1074
  least_le : -1074 ≤ e
  le_greatest : e ≤ 971

/-- How far below `m`, in units, the numbers go that still round to it; below the smallest full
mantissa the floats lie twice as dense. -/
def reachBelow (m : Nat) : Rat :=
  if m = 2 ^ 52 then 1 / 4 else 1 / 2

/-- The number `x` lies in the interval around `m * 2 ^ e`; its ends belong to it if `m` is even. -/
def RoundsTo (x : Rat) (m : Nat) (e : Int) : Prop :=
  (x / 2 ^ e - m < 1 / 2 ∨ x / 2 ^ e - m = 1 / 2 ∧ Even m) ∧
    (m - x / 2 ^ e < reachBelow m ∨ m - x / 2 ^ e = reachBelow m ∧ Even m)

theorem reachBelow_pos (m : Nat) : 0 < reachBelow m := by
  unfold reachBelow
  split <;> norm_num

theorem reachBelow_le (m : Nat) : reachBelow m ≤ 1 / 2 := by
  unfold reachBelow
  split <;> norm_num

theorem RoundsTo.nearestEven {x : Rat} {m : Nat} {e : Int} (h : RoundsTo x m e) :
    NearestEven (x / 2 ^ e) m := by
  obtain ⟨hup, hdown⟩ := h
  refine ⟨hup, ?_⟩
  rcases hdown with hlt | ⟨heq, heven⟩
  · exact .inl (hlt.trans_le (reachBelow_le m))
  · rcases (reachBelow_le m).lt_or_eq with hlt | hhalf
    · exact .inl (heq.trans_lt hlt)
    · exact .inr ⟨heq.trans hhalf, heven⟩

/-- Shifting to an exponent keeps track of the number, in units of the new exponent. -/
theorem tracks_shiftToExponent {n : Nat} {i t : Int} {acc : Accuracy} {x : Rat}
    (h : Tracks (.ofMantissaAndAccuracy n acc) (x / 2 ^ i)) (hi : i ≤ t) :
    (shiftToExponent n i acc t).2 = t ∧ Tracks (shiftToExponent n i acc t).1 (x / 2 ^ t) := by
  have ht : i + ((t - i).toNat : Int) = t := by omega
  have hx : x / 2 ^ t = x / 2 ^ i / 2 ^ (t - i).toNat := by
    rw [div_div, ← zpow_natCast (2 : Rat) (t - i).toNat, ← zpow_add₀ (by norm_num), ht]
  refine ⟨ht, ?_⟩
  rw [hx]
  exact h.shiftRight _

/-! ### The target exponent -/

theorem targetExponent_binary64 (t : Int) :
    Format.binary64.targetExponent t = max (t - 53) (-1074) :=
  rfl

theorem totalExponent_eq (n : Nat) (i : Int) : totalExponent n i = i + (n.log2 + 1 : Nat) :=
  Int.add_comm _ _

theorem lt_two_zpow_totalExponent {n : Nat} {i : Int} {acc : Accuracy} {x : Rat}
    (h : Tracks (.ofMantissaAndAccuracy n acc) (x / 2 ^ i)) : x < 2 ^ totalExponent n i := by
  have hlt : x / 2 ^ i < n + 1 := by simpa using h.lt_mantissa_add_one
  have hpow : n + 1 ≤ 2 ^ (n.log2 + 1) := Nat.lt_log2_self
  rw [totalExponent_eq]
  exact (div_two_zpow_lt_iff _).1 (hlt.trans_le (by exact_mod_cast hpow))

theorem two_zpow_totalExponent_le {n : Nat} {i : Int} {acc : Accuracy} {x : Rat} (hpos : 0 < n)
    (h : Tracks (.ofMantissaAndAccuracy n acc) (x / 2 ^ i)) :
    2 ^ (totalExponent n i - 1) ≤ x := by
  have hle : n ≤ x / 2 ^ i := by simpa using h.mantissa_le
  have hpow : 2 ^ n.log2 ≤ n := Nat.log2_self_le hpos.ne'
  rw [totalExponent_eq, add_sub_assoc, Nat.cast_succ, add_sub_cancel_right]
  refine (two_pow_le_div_iff _).1 (le_trans ?_ hle)
  exact_mod_cast hpow

theorem RoundsTo.lt {x : Rat} {m : Nat} {e : Int} (hc : Canonical m e) (h : RoundsTo x m e) :
    x < 2 ^ (e + 53) := by
  have hup := h.nearestEven.bounds.1
  have hm : (m : Rat) + 1 ≤ 2 ^ 53 := by exact_mod_cast hc.lt
  exact (div_two_zpow_lt_iff 53).1 (by linarith)

/-- A full mantissa is rounded to from above half of it. -/
theorem RoundsTo.le {x : Rat} {m : Nat} {e : Int} (hm : 2 ^ 52 ≤ m) (h : RoundsTo x m e) :
    2 ^ (e + 51) ≤ x := by
  have hdown := h.nearestEven.bounds.2
  have hm' : (2 : Rat) * 2 ^ 51 ≤ m := by exact_mod_cast hm
  have hone : (1 : Rat) ≤ 2 ^ 51 := one_le_pow₀ (by norm_num)
  exact (two_pow_le_div_iff 51).1 (by linarith)

/-- Below the smallest full mantissa nothing rounds to a greater one. -/
theorem RoundsTo.mantissa_eq {x : Rat} {m : Nat} {e : Int} (hm : 2 ^ 52 ≤ m) (h : RoundsTo x m e)
    (hx : x < 2 ^ (e + 52)) : m = 2 ^ 52 := by
  have hdown := h.nearestEven.bounds.2
  have hz : x / 2 ^ e < 2 ^ 52 := (div_two_zpow_lt_iff 52).2 hx
  have hlt : m < 2 ^ 52 + 1 := by
    have : (m : Rat) < 2 ^ 52 + 1 := by linarith
    exact_mod_cast this
  omega

/-- **The exponent that the model rounds to** is the one of the float, or the one below it if the
number lies below the smallest full mantissa. -/
theorem targetExponent_cases {n : Nat} {i : Int} {acc : Accuracy} {x : Rat} {m : Nat} {e : Int}
    (h : Tracks (.ofMantissaAndAccuracy n acc) (x / 2 ^ i))
    (hi : i ≤ Format.binary64.targetExponent (totalExponent n i)) (hc : Canonical m e)
    (hr : RoundsTo x m e) :
    Format.binary64.targetExponent (totalExponent n i) = e ∨
      Format.binary64.targetExponent (totalExponent n i) = e - 1 ∧ m = 2 ^ 52 ∧
        x < 2 ^ (e + 52) := by
  have hone : (1 : Rat) < 2 := by norm_num
  have hle : totalExponent n i ≤ e + 53 := by
    rcases Nat.eq_zero_or_pos n with rfl | hn
    · rw [targetExponent_binary64] at hi
      have hleast := hc.least_le
      simp only [totalExponent, Nat.log2_zero] at hi ⊢
      omega
    · have hpow := (two_zpow_totalExponent_le hn h).trans_lt (hr.lt hc)
      rw [zpow_lt_zpow_iff_right₀ hone] at hpow
      omega
  rw [targetExponent_binary64]
  have hleast := hc.least_le
  by_cases he : e = -1074
  · -- no exponent is less
    left
    omega
  · have hm : 2 ^ 52 ≤ m := hc.full.resolve_right he
    have hpow := (hr.le hm).trans_lt (lt_two_zpow_totalExponent h)
    rw [zpow_lt_zpow_iff_right₀ hone] at hpow
    rcases (show totalExponent n i = e + 53 ∨ totalExponent n i = e + 52 by omega) with ht | ht
    · left
      omega
    · right
      have hx : x < 2 ^ (e + 52) := ht ▸ lt_two_zpow_totalExponent h
      exact ⟨by omega, hr.mantissa_eq hm hx, hx⟩

/-! ### Rounding -/

theorem Canonical.log2_eq {m : Nat} {e : Int} (h : Canonical m e) (hfull : 2 ^ 52 ≤ m) :
    m.log2 = 52 :=
  (Nat.log2_eq_iff h.pos.ne').2 ⟨hfull, h.lt⟩

theorem Canonical.targetExponent_eq {m : Nat} {e : Int} (h : Canonical m e) :
    Format.binary64.targetExponent (totalExponent m e) = e := by
  have hleast := h.least_le
  rw [targetExponent_binary64, totalExponent]
  rcases h.full with hfull | rfl
  · have hlog := h.log2_eq hfull
    omega
  · have hlog : m.log2 < 53 := (Nat.log2_lt h.pos.ne').2 h.lt
    omega

/-- The mantissa of a float is not shifted again. -/
theorem Canonical.shiftToTargetExponent {m : Nat} {e : Int} (h : Canonical m e) :
    (shiftToTargetExponent .binary64 m e .exact).1.mantissa = m ∧
      (shiftToTargetExponent .binary64 m e .exact).2 = e := by
  simp only [UnpackedFloat.shiftToTargetExponent, h.targetExponent_eq, shiftToExponent, sub_self,
    Int.toNat_zero]
  exact ⟨rfl, by simp⟩

/-- A mantissa that was rounded up to a power of two is halved. -/
theorem shiftToTargetExponent_carry {e : Int} (he : -1074 ≤ e) :
    (shiftToTargetExponent .binary64 (2 ^ 53) (e - 1) .exact).1.mantissa = 2 ^ 52 ∧
      (shiftToTargetExponent .binary64 (2 ^ 53) (e - 1) .exact).2 = e := by
  have htarget : Format.binary64.targetExponent (totalExponent (2 ^ 53) (e - 1)) = e := by
    rw [targetExponent_binary64, totalExponent, Nat.log2_two_pow]
    omega
  have hone : (e - (e - 1)).toNat = 1 := by omega
  simp only [UnpackedFloat.shiftToTargetExponent, htarget, shiftToExponent, hone]
  refine ⟨rfl, by omega⟩

/-- In units of the exponent below, a number below the smallest full mantissa rounds to a power of
two. -/
theorem RoundsTo.nearestEven_carry {x : Rat} {e : Int} (h : RoundsTo x (2 ^ 52) e)
    (hx : x < 2 ^ (e + 52)) : NearestEven (x / 2 ^ (e - 1)) (2 ^ 53) := by
  have hunit : x / 2 ^ (e - 1) = 2 * (x / 2 ^ e) := by
    rw [zpow_sub_one₀ (by norm_num)]
    field_simp
  have hz : x / 2 ^ e < 2 ^ 52 := (div_two_zpow_lt_iff 52).2 hx
  have hdown := h.2
  simp only [reachBelow, ↓reduceIte] at hdown
  push_cast at hdown
  rw [hunit]
  unfold NearestEven
  push_cast
  refine ⟨.inl (by linarith), ?_⟩
  rcases hdown with hlt | ⟨heq, -⟩
  · exact .inl (by linarith)
  · exact .inr ⟨by linarith, by decide⟩

/-- **The model rounds a number to the float in whose interval it lies.**  If the number lies below
the smallest full mantissa then its exponent is one too small at first, and rounding carries. -/
theorem roundWithAccuracy_of_roundsTo {s : Sign} {n : Nat} {i : Int} {acc : Accuracy} {x : Rat}
    {m : Nat} {e : Int} (h : Tracks (.ofMantissaAndAccuracy n acc) (x / 2 ^ i))
    (hi : i ≤ Format.binary64.targetExponent (totalExponent n i)) (hc : Canonical m e)
    (hr : RoundsTo x m e) :
    roundWithAccuracy .binary64 s n i acc = .finite s m e hc.pos := by
  obtain ⟨hexp, htracks⟩ := tracks_shiftToExponent h hi
  -- the mantissa is shifted and rounded, and shifted again in case that it became too large
  obtain ⟨hmantissa, hexponent⟩ : (shiftToTargetExponent .binary64
        (shiftToTargetExponent .binary64 n i acc).1.roundedMantissa
        (shiftToTargetExponent .binary64 n i acc).2 .exact).1.mantissa = m ∧
      (shiftToTargetExponent .binary64
        (shiftToTargetExponent .binary64 n i acc).1.roundedMantissa
        (shiftToTargetExponent .binary64 n i acc).2 .exact).2 = e := by
    change (shiftToTargetExponent .binary64 n i acc).2 = _ at hexp
    change Tracks (shiftToTargetExponent .binary64 n i acc).1 _ at htracks
    rcases targetExponent_cases h hi hc hr with ht | ⟨ht, rfl, hx⟩
    · rw [ht] at htracks hexp
      rw [htracks.roundedMantissa_eq hr.nearestEven, hexp]
      exact hc.shiftToTargetExponent
    · rw [ht] at htracks hexp
      rw [htracks.roundedMantissa_eq (hr.nearestEven_carry hx), hexp]
      exact shiftToTargetExponent_carry hc.least_le
  have hfinite : ∀ (m' : Nat) (e' : Int), m' = m → e' = e →
      (if hzero : m' = 0 then UnpackedFloat.zero s
        else .finite s m' e' (Nat.pos_of_ne_zero hzero)) = .finite s m e hc.pos := by
    rintro m' e' rfl rfl
    exact dif_neg hc.pos.ne'
  exact hfinite _ _ hmantissa hexponent

end Binary64

end Abacus
