import Abacus.Decimal.Shortest
import Abacus.Proofs.Decimal.Rounding
import Mathlib.Data.Nat.Cast.Order.Field
import Mathlib.Tactic.LinearCombination

/-!
# The shortest decimal rounds to its float

The value of `Decimal.shortest m e` lies in the interval around `m * 2 ^ e`
(`Decimal.roundsTo_shortest`).  A point that is found on a grid lies in the interval since its
distance was measured (`Decimal.roundsTo_of_onGrid`).  With seventeen digits the grid is finer than
the floats, so that a point is always found (`Decimal.isSome_onGrid`).
-/

namespace Abacus

namespace Decimal

open Binary64

/-- The number that a decimal stands for. -/
def value (d : Decimal) : Rat :=
  d.coefficient * 10 ^ d.exponent

theorem value_strip (d : Decimal) : d.strip.value = d.value := by
  fun_induction strip d with
  | case1 d h ih =>
    have hdiv : (d.coefficient : Rat) = 10 * (d.coefficient / 10 : Nat) := by
      exact_mod_cast (Nat.mul_div_cancel' (Nat.dvd_of_mod_eq_zero h.2)).symm
    rw [ih, value, value, hdiv, zpow_add_one₀ (by norm_num)]
    ring
  | case2 d h => rfl

/-! ### Ratios -/

theorem ratio_div (m : Nat) (e : Int) : ((ratio m e).1 : Rat) / (ratio m e).2 = m * 2 ^ e := by
  rw [zpow_eq_pow_div_pow (by norm_num), ratio, Nat.pow_eq, Nat.pow_eq]
  push_cast
  ring

theorem inUnits_div (a b : Nat) (g : Int) :
    ((inUnits a b g).1 : Rat) / (inUnits a b g).2 = a / b / 10 ^ g := by
  rw [zpow_eq_pow_div_pow (by norm_num), inUnits, Nat.pow_eq, Nat.pow_eq]
  push_cast
  field_simp

theorem lt_ten_pow_length_toDigits (n : Nat) : n < 10 ^ (Nat.toDigits 10 n).length :=
  (Nat.length_toDigits_le_iff (by decide) Nat.length_toDigits_pos).1 le_rfl

theorem ten_pow_length_toDigits_le {n : Nat} (hn : 0 < n) :
    10 ^ ((Nat.toDigits 10 n).length - 1) ≤ n := by
  rcases Nat.eq_zero_or_pos ((Nat.toDigits 10 n).length - 1) with h | h
  · rw [h, pow_zero]
    exact hn
  · by_contra hlt
    have hle := (Nat.length_toDigits_le_iff (by decide) h).2 (Nat.lt_of_not_le hlt)
    omega

/-- The power of ten is not above the number. -/
theorem ten_zpow_powerBelow_le {a b : Nat} (ha : 0 < a) (hb : 0 < b) :
    (10 : Rat) ^ powerBelow a b ≤ a / b := by
  have hb' : (0 : Rat) < b := by exact_mod_cast hb
  unfold powerBelow
  split
  · next hle =>
    have hlen := Nat.length_toDigits_pos (b := 10) (n := a / b)
    have hexp : ((Nat.toDigits 10 (a / b)).length : Int) - 1 =
        ((Nat.toDigits 10 (a / b)).length - 1 : Nat) := by omega
    have hpow := ten_pow_length_toDigits_le (Nat.div_pos hle hb)
    rw [hexp, zpow_natCast]
    calc (10 : Rat) ^ ((Nat.toDigits 10 (a / b)).length - 1) ≤ (a / b : Nat) := by
          exact_mod_cast hpow
      _ ≤ a / b := Nat.cast_div_le
  · have hlen := Nat.length_toDigits_pos (b := 10) (n := b / a)
    have hinv : ∀ n : Nat, b ≤ a * 10 ^ n → (10 : Rat) ^ (-(n : Int)) ≤ a / b := by
      intro n hn
      rw [zpow_neg, zpow_natCast, le_div_iff₀ hb', inv_mul_le_iff₀ (by positivity), mul_comm]
      exact_mod_cast hn
    dsimp only
    split
    · next hle =>
      have hexp : 1 - ((Nat.toDigits 10 (b / a)).length : Int) =
          -((Nat.toDigits 10 (b / a)).length - 1 : Nat) := by omega
      rw [hexp]
      exact hinv _ hle
    · refine hinv _ (le_of_lt ?_)
      rw [mul_comm, ← Nat.div_lt_iff_lt_mul ha]
      exact lt_ten_pow_length_toDigits _

/-! ### One grid -/

/-- How far below `m` the interval reaches, where `q` is a quarter of the unit. -/
def gapBelow (m q : Nat) : Nat :=
  if m = 2 ^ 52 then q else 2 * q

/-- The grid in natural numbers: `b` is its unit, and `q` is a quarter of the unit of the float. -/
def pick (m q b : Nat) (g : Int) : Option Decimal :=
  let r := 4 * m * q % b
  let below := reaches m r (gapBelow m q)
  let above := reaches m (b - r) (2 * q)
  if below && (!above || 2 * r < b) then some ⟨4 * m * q / b, g⟩
  else if above then some ⟨4 * m * q / b + 1, g⟩
  else none

theorem exists_onGrid_eq_pick (m : Nat) (e g : Int) :
    ∃ q b : Nat, 0 < q ∧ 0 < b ∧ (q / b : Rat) = 2 ^ (e - 2) / 10 ^ g ∧
      onGrid m e g = pick m q b g := by
  refine ⟨(inUnits (ratio 1 (e - 2)).1 (ratio 1 (e - 2)).2 g).1,
    (inUnits (ratio 1 (e - 2)).1 (ratio 1 (e - 2)).2 g).2, ?_, ?_, ?_, ?_⟩
  · simp [inUnits, ratio]
  · simp [inUnits, ratio]
  · rw [inUnits_div, ratio_div, Nat.cast_one, one_mul]
  · simp only [onGrid, pick, inUnits, mul_assoc]
    rfl

theorem reaches_iff {m d gap : Nat} : reaches m d gap = true ↔ d < gap ∨ d = gap ∧ Even m := by
  simp [reaches, Nat.even_iff]

theorem gapBelow_div (m : Nat) {q : Nat} (hq : 0 < q) :
    (gapBelow m q : Rat) / (4 * q) = reachBelow m := by
  have hq' : (0 : Rat) < q := by exact_mod_cast hq
  unfold gapBelow reachBelow
  split
  · field_simp
  · push_cast
    field_simp
    norm_num

/-- A point in reach lies in the interval, with distances in units. -/
theorem lt_or_eq_of_reaches {m d gap q : Nat} (hq : 0 < q) (h : reaches m d gap = true) :
    (d : Rat) / (4 * q) < gap / (4 * q) ∨ (d : Rat) / (4 * q) = gap / (4 * q) ∧ Even m := by
  have hq' : (0 : Rat) < q := by exact_mod_cast hq
  rcases reaches_iff.1 h with hlt | ⟨rfl, heven⟩
  · left
    gcongr
  · exact .inr ⟨rfl, heven⟩

section

variable {m q b : Nat} {e g : Int} (hq : 0 < q) (hb : 0 < b)
  (hunit : (q / b : Rat) = 2 ^ (e - 2) / 10 ^ g)

include hq hb hunit

/-- A point of the grid in units of the float. -/
theorem value_div_two_zpow (n : Nat) : value ⟨n, g⟩ / 2 ^ e = n * b / (4 * q) := by
  have hq' : (0 : Rat) < q := by exact_mod_cast hq
  have hb' : (0 : Rat) < b := by exact_mod_cast hb
  have hexp : (2 : Rat) ^ e = 2 ^ (e - 2) * 4 := by
    rw [zpow_sub₀ (by norm_num)]
    norm_num
  rw [div_eq_div_iff hb'.ne' (by positivity)] at hunit
  rw [value, hexp, div_eq_div_iff (by positivity) (by positivity)]
  linear_combination (4 * n : Rat) * hunit

/-- **A point that is picked lies in the interval.** -/
theorem roundsTo_of_pick {d : Decimal} (h : pick m q b g = some d) : RoundsTo d.value m e := by
  have hq' : (0 : Rat) < q := by exact_mod_cast hq
  have hdiv : (b : Rat) * (4 * m * q / b : Nat) + (4 * m * q % b : Nat) = 4 * m * q := by
    exact_mod_cast Nat.div_add_mod (4 * m * q) b
  have hlt : 4 * m * q % b < b := Nat.mod_lt _ hb
  unfold pick at h
  dsimp only at h
  generalize 4 * m * q % b = r at h hdiv hlt
  generalize 4 * m * q / b = n at h hdiv
  split at h
  · next hbelow =>
    -- the point below, at the distance `r`
    obtain rfl : ⟨n, g⟩ = d := Option.some.inj h
    have hz : (m : Rat) - value ⟨n, g⟩ / 2 ^ e = r / (4 * q) := by
      rw [value_div_two_zpow hq hb hunit]
      field_simp
      linarith
    have hnonneg : 0 ≤ (r : Rat) / (4 * q) := by positivity
    rw [Bool.and_eq_true] at hbelow
    have hreach := lt_or_eq_of_reaches hq hbelow.1
    rw [gapBelow_div m hq, ← hz] at hreach
    exact ⟨.inl (by linarith), hreach⟩
  · split at h
    · next habove =>
      -- the point above, at the distance `b - r`
      obtain rfl : ⟨n + 1, g⟩ = d := Option.some.inj h
      have hz : value ⟨n + 1, g⟩ / 2 ^ e - m = (b - r : Nat) / (4 * q) := by
        rw [value_div_two_zpow hq hb hunit, Nat.cast_sub hlt.le]
        push_cast
        field_simp
        linarith
      have hnonneg : 0 ≤ ((b - r : Nat) : Rat) / (4 * q) := by positivity
      have hhalf : ((2 * q : Nat) : Rat) / (4 * q) = 1 / 2 := by
        push_cast
        field_simp
        norm_num
      have hreach := lt_or_eq_of_reaches hq habove
      have hbelow := reachBelow_pos m
      rw [hhalf, ← hz] at hreach
      exact ⟨hreach, .inl (by linarith)⟩
    · cases h

end

/-- On a grid that is finer than the floats a point is picked. -/
theorem isSome_pick {m q b : Nat} (g : Int) (hb : 0 < b) (hfine : b < 4 * q)
    (hfine' : m = 2 ^ 52 → b < 3 * q) : (pick m q b g).isSome = true := by
  have hlt : 4 * m * q % b < b := Nat.mod_lt _ hb
  unfold pick
  dsimp only
  generalize 4 * m * q % b = r at hlt
  generalize 4 * m * q / b = n
  cases habove : reaches m (b - r) (2 * q) with
  | true =>
    split
    · rfl
    · rfl
  | false =>
    have hge : 2 * q ≤ b - r := by
      have hnot : ¬ (b - r < 2 * q ∨ b - r = 2 * q ∧ Even m) := by
        rw [← reaches_iff, habove]
        simp
      omega
    have hbelow : reaches m r (gapBelow m q) = true := by
      refine reaches_iff.2 (.inl ?_)
      unfold gapBelow
      split
      · next hm =>
        have := hfine' hm
        omega
      · omega
    simp [hbelow]

/-! ### All grids -/

theorem roundsTo_of_onGrid {m : Nat} {e g : Int} {d : Decimal} (h : onGrid m e g = some d) :
    RoundsTo d.value m e := by
  obtain ⟨q, b, hq, hb, hunit, hpick⟩ := exists_onGrid_eq_pick m e g
  exact roundsTo_of_pick hq hb hunit (hpick ▸ h)

/-- **With seventeen digits there is always a point.** -/
theorem isSome_onGrid {m : Nat} (hpos : 0 < m) (hlt : m < 2 ^ 53) {e top : Int}
    (htop : (10 : Rat) ^ top ≤ m * 2 ^ e) : (onGrid m e (top - 16)).isSome = true := by
  obtain ⟨q, b, hq, hb, hunit, hpick⟩ := exists_onGrid_eq_pick m e (top - 16)
  have hb' : (0 : Rat) < b := by exact_mod_cast hb
  have hfine : b * 10 ^ 16 ≤ 4 * (m * q) := by
    have hratio : 1 ≤ m * 2 ^ e / (10 : Rat) ^ top := by
      rw [le_div_iff₀ (by positivity), one_mul]
      exact htop
    have hq' : (q : Rat) = 2 ^ (e - 2) / 10 ^ (top - 16) * b := by
      rw [← hunit]
      field_simp
    have hle : (b : Rat) * 10 ^ 16 ≤ 4 * (m * q) := by
      calc (b : Rat) * 10 ^ 16 = b * 10 ^ 16 * 1 := (mul_one _).symm
        _ ≤ b * 10 ^ 16 * (m * 2 ^ e / 10 ^ top) := by gcongr
        _ = 4 * (m * q) := by
          rw [hq', zpow_sub₀ (by norm_num), zpow_sub₀ (by norm_num)]
          field_simp
          norm_num
    exact_mod_cast hle
  rw [hpick]
  -- a full mantissa has at most sixteen digits, so the unit of the grid is less than the float's
  refine isSome_pick _ hb ?_ fun hm => ?_
  · have hmul : m * q < 2 ^ 53 * q := Nat.mul_lt_mul_of_pos_right hlt hq
    omega
  · rw [hm] at hfine
    omega

/-- **The shortest decimal rounds to its float.** -/
theorem roundsTo_shortest {m : Nat} (hpos : 0 < m) (hlt : m < 2 ^ 53) (e : Int) :
    RoundsTo (shortest m e).value m e := by
  have htop : (10 : Rat) ^ powerBelow (ratio m e).1 (ratio m e).2 ≤ m * 2 ^ e := by
    rw [← ratio_div]
    refine ten_zpow_powerBelow_le ?_ ?_
    · simpa [ratio] using hpos
    · simp [ratio]
  unfold shortest
  dsimp only
  rw [value_strip]
  cases hfound : (List.range 17).findSome? fun n : Nat =>
      onGrid m e (powerBelow (ratio m e).1 (ratio m e).2 - n) with
  | some d =>
    obtain ⟨n, -, hn⟩ := List.exists_of_findSome?_eq_some hfound
    exact roundsTo_of_onGrid hn
  | none =>
    have hnone := List.findSome?_eq_none_iff.1 hfound 16 (by decide)
    have hsome := isSome_onGrid hpos hlt htop
    rw [Nat.cast_ofNat] at hnone
    rw [hnone] at hsome
    cases hsome

end Decimal

end Abacus
