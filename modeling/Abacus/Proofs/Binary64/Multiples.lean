import Abacus.Proofs.Binary64.Operations

/-!
# Rounding to a number of places

A value is rounded to places by scaling it up, rounding it to a whole number, and scaling it down
again (`roundTo`).  Each of the three steps keeps the order, so all of them do
(`number_roundTo_le`).  Only the first one may overflow: a whole number near a finite float is
finite, and scaling down makes nothing larger (`isFinite_roundTo`).  Which floats are whole numbers
already is told by `isWhole_iff`.
-/

namespace Abacus

namespace Binary64

open Float.Model
open Float.Model.UnpackedFloat

/-! ### Whole numbers -/

/-- The whole number nearest to `x`; halfway numbers go away from zero. -/
def nearestWhole (x : Rat) : Rat :=
  if 0 ≤ x then ⌊x + 1 / 2⌋₊ else -⌊-x + 1 / 2⌋₊

theorem nearestWhole_signed (s : Sign) {x : Rat} (hx : 0 ≤ x) :
    nearestWhole (signed s x) = signed s ⌊x + 1 / 2⌋₊ := by
  unfold nearestWhole
  cases s with
  | positive => exact if_pos hx
  | negative =>
    rcases hx.eq_or_lt with rfl | hpos
    · norm_num [signed]
    · have hneg : ¬ 0 ≤ signed .negative x := not_le.2 (neg_lt_zero.2 hpos)
      rw [if_neg hneg]
      simp [signed]

theorem nearestWhole_mono : Monotone nearestWhole := by
  intro x y hxy
  unfold nearestWhole
  split_ifs with hx hy hy
  · exact_mod_cast Nat.floor_mono (by linarith)
  · linarith
  · exact (neg_nonpos.2 (Nat.cast_nonneg _)).trans (Nat.cast_nonneg _)
  · exact neg_le_neg (by exact_mod_cast Nat.floor_mono (by linarith))

theorem magnitude_nearest (s : Sign) (m : Nat) {d : Nat} (hd : 0 < d) :
    Rounding.nearest.magnitude s m d = ⌊(m / d : Rat) + 1 / 2⌋₊ := by
  have hsum : (m / d : Rat) + 1 / 2 = (2 * m + d : Nat) / (2 * d : Nat) := by
    push_cast
    field_simp
  rw [hsum, Nat.floor_div_eq_div]
  rfl

theorem isNearest_ofParts (s : Sign) (k : Nat) : IsNearest (ofParts s k 0) (signed s k) := by
  rcases Nat.eq_zero_or_pos k with rfl | hk
  · rw [Nat.cast_zero, signed_zero]
    cases s <;> exact isNearest_pack_zero _
  · have hround := isNearest_round s hk 0
    rwa [value, zpow_zero, mul_one] at hround

theorem value_eq_div (m : Nat) {e : Int} (he : e < 0) :
    value m e = m / (Nat.pow 2 (-e).toNat : Nat) := by
  obtain ⟨k, rfl⟩ : ∃ k : Nat, e = -k := ⟨(-e).toNat, by omega⟩
  rw [value, zpow_neg, zpow_natCast, neg_neg, Int.toNat_natCast]
  change _ = (m : Rat) / (2 ^ k : Nat)
  push_cast
  rfl

theorem value_eq_natCast (m : Nat) {e : Int} (he : 0 ≤ e) : ∃ n : Nat, value m e = n := by
  refine ⟨m * 2 ^ e.toNat, ?_⟩
  obtain ⟨k, rfl⟩ : ∃ k : Nat, e = k := ⟨e.toNat, by omega⟩
  simp [value]

theorem exists_signed_eq_intCast_iff (s : Sign) (q : Rat) :
    (∃ k : Int, signed s q = k) ↔ ∃ k : Int, q = k := by
  cases s with
  | positive => rfl
  | negative =>
    refine ⟨fun ⟨k, hk⟩ => ⟨-k, ?_⟩, fun ⟨k, hk⟩ => ⟨-k, ?_⟩⟩
    · rw [Int.cast_neg, ← hk, signed, neg_neg]
    · rw [Int.cast_neg, ← hk, signed]

/-- A ratio of natural numbers is whole if the division leaves nothing. -/
theorem exists_div_eq_intCast_iff (m : Nat) {d : Nat} (hd : 0 < d) :
    (∃ k : Int, (m / d : Rat) = k) ↔ m % d = 0 := by
  have hd' : (d : Rat) ≠ 0 := by positivity
  rw [← Nat.dvd_iff_mod_eq_zero]
  constructor
  · rintro ⟨k, hk⟩
    rw [div_eq_iff hd'] at hk
    exact Int.natCast_dvd_natCast.1 ⟨k, by rw [mul_comm]; exact_mod_cast hk⟩
  · rintro ⟨k, rfl⟩
    refine ⟨k, ?_⟩
    push_cast
    field_simp

/-- **A finite float is whole if its number is.** -/
theorem isWhole_iff {x : Float} (hx : x.isFinite = true) :
    isWhole x = true ↔ ∃ k : Int, number x = k := by
  unfold isWhole number
  obtain ⟨s, hu⟩ | ⟨s, m, e, hm, hu⟩ := unpack_of_isFinite hx <;> rw [hu]
  · exact iff_of_true rfl ⟨0, by rw [numberOf_zero, Int.cast_zero]⟩
  · rw [numberOf, exists_signed_eq_intCast_iff]
    dsimp only
    rcases le_or_gt 0 e with he | he
    · obtain ⟨n, hn⟩ := value_eq_natCast m he
      rw [decide_eq_true he]
      exact iff_of_true rfl ⟨n, by rw [hn, Int.cast_natCast]⟩
    · have hd : 0 < Nat.pow 2 (-e).toNat := Nat.pow_pos two_pos
      rw [decide_eq_false (not_le.2 he), Bool.false_or, beq_iff_eq, value_eq_div m he,
        exists_div_eq_intCast_iff m hd]

variable {x : Float}

/-- **A finite float is rounded to the nearest whole number**, and this to a float. -/
theorem isNearest_nearest (hx : x.isFinite = true) :
    IsNearest (Rounding.nearest.apply x) (nearestWhole (number x)) := by
  have hself := isNearest_number (isNaN_of_isFinite hx)
  unfold Rounding.apply number at *
  obtain ⟨s, hx⟩ | ⟨s, m, e, hm, hx⟩ := unpack_of_isFinite hx <;> rw [hx] at hself ⊢
  · convert hself using 1
    norm_num [numberOf_zero, nearestWhole]
  · dsimp only
    rw [numberOf, nearestWhole_signed s (value_nonneg m e)]
    split_ifs with he
    · have hd : 0 < Nat.pow 2 (-e).toNat := Nat.pow_pos two_pos
      rw [value_eq_div m he, ← magnitude_nearest s m hd]
      exact isNearest_ofParts s _
    · obtain ⟨n, hn⟩ := value_eq_natCast m (not_lt.1 he)
      have hfloor : ⌊value m e + 1 / 2⌋₊ = n := by
        rw [hn, Nat.floor_eq_iff (by positivity)]
        constructor <;> linarith
      rw [hfloor, ← hn]
      exact hself

/-- What lies below a power of two is rounded to a finite float. -/
theorem IsNearest.isFinite {y : Rat} {e : Int} (h : IsNearest x y) (hlow : -1022 ≤ e)
    (hhigh : e < 1024) (hy : |y| ≤ 2 ^ e) : x.isFinite = true := by
  rw [isFinite_iff h.isNumber]
  obtain ⟨-, s, y, v, hnonneg, rfl, hv, hnumber⟩ := h
  rw [abs_signed, abs_of_nonneg hnonneg] at hy
  rw [hnumber, abs_signed, abs_of_nonneg (le_min hv.nonneg limit_pos.le)]
  calc min v limit ≤ v := min_le_left v limit
    _ ≤ 2 ^ e := hv.le (nearest_two_zpow hlow) hy
    _ < limit := zpow_lt_zpow_right₀ (by norm_num) hhigh

theorem isFinite_nearest (hx : x.isFinite = true) :
    (Rounding.nearest.apply x).isFinite = true := by
  unfold Rounding.apply
  obtain ⟨s, hunpack⟩ | ⟨s, m, e, hm, hunpack⟩ := unpack_of_isFinite hx <;> rw [hunpack]
  · exact hx
  · dsimp only
    split_ifs with he
    · -- a mantissa is not made longer
      obtain ⟨d, hd⟩ : ∃ d, Nat.pow 2 (-e).toNat = d := ⟨_, rfl⟩
      have hpos : 0 < d := hd ▸ Nat.pow_pos two_pos
      have hle : Rounding.nearest.magnitude s m d ≤ 2 ^ 53 := by
        have hlt := (canonical_of_unpack hunpack).lt
        have hdiv : (2 * m + d) / (2 * d) < m + 1 := by
          rw [Nat.div_lt_iff_lt_mul (by omega)]
          nlinarith
        change (2 * m + d) / (2 * d) ≤ 2 ^ 53
        omega
      rw [hd]
      refine (isNearest_ofParts s _).isFinite (e := 53) (by norm_num) (by norm_num) ?_
      rw [abs_signed, Nat.abs_cast]
      exact_mod_cast hle
    · exact hx

/-! ### Places -/

/-- Dividing by a number from one on keeps a float finite. -/
theorem isFinite_div {c : Float} (hx : x.isFinite = true) (hc : c.isFinite = true)
    (hone : 1 ≤ number c) : (x / c).isFinite = true := by
  have hpos : 0 < number c := by linarith
  have hdiv := isNearest_div hx hc hpos.ne'
  have hself := isNearest_number (isNaN_of_isFinite hx)
  rw [isFinite_iff hdiv.isNumber]
  refine (hdiv.abs_number_le hself ?_).trans_lt ((isFinite_iff hself.isNumber).1 hx)
  rw [abs_div, abs_of_pos hpos]
  exact div_le_self (abs_nonneg _) hone

/-- **A value that can be scaled stays finite when it is rounded to places.** -/
theorem isFinite_roundTo {c : Float} (hc : c.isFinite = true) (hone : 1 ≤ number c)
    (hx : (x * c).isFinite = true) : (roundTo c x).isFinite = true :=
  isFinite_div (isFinite_nearest hx) hc hone

/-- **Rounding to places keeps the order.** -/
theorem number_roundTo_le {c y : Float} (hc : c.isFinite = true) (hpos : 0 < number c)
    (hx : x.isFinite = true) (hxc : (x * c).isFinite = true) (hy : y.isFinite = true)
    (hyc : (y * c).isFinite = true) (h : number x ≤ number y) :
    number (roundTo c x) ≤ number (roundTo c y) := by
  have hscaled : number (x * c) ≤ number (y * c) :=
    (isNearest_mul hx hc).number_le (isNearest_mul hy hc) (by gcongr)
  have hwhole : number (Rounding.nearest.apply (x * c)) ≤
      number (Rounding.nearest.apply (y * c)) :=
    (isNearest_nearest hxc).number_le (isNearest_nearest hyc) (nearestWhole_mono hscaled)
  exact (isNearest_div (isFinite_nearest hxc) hc hpos.ne').number_le
    (isNearest_div (isFinite_nearest hyc) hc hpos.ne') (by gcongr)

theorem roundTo_isNaN {c : Float} (hx : x.isNaN = true) : (roundTo c x).isNaN = true := by
  have hscaled : (x * c).isNaN = true := isNaN_mul (.inl hx)
  have hwhole : Rounding.nearest.apply (x * c) = x * c := by
    unfold Rounding.apply
    rw [isNaN_eq_true_iff.1 hscaled]
  unfold roundTo
  rw [hwhole]
  exact isNaN_div (.inl hscaled)

end Binary64

end Abacus
