import Abacus.Proofs.Decimal.Figures
import Abacus.Proofs.Decimal.Shortest

/-!
# Digits that count

A decimal without the zeros at its end (`Decimal.strip`) has the same digits but for these zeros, and
its first digit counts the same power of ten (`Decimal.digits_eq_append_zeros`, `Decimal.lead_strip`).

`Decimal.rounded` is the nearest decimal with a given number of digits.  It differs from
`Decimal.significant` only where rounding carries into one digit more (`Decimal.rounded_spec`,
`Decimal.strip_rounded`).
-/

namespace Abacus

namespace Decimal

/-! ### Zeros at the end -/

theorem head?_digits_ne (d : Decimal) (h : 0 < d.coefficient) : d.digits.head? ≠ some '0' := by
  obtain ⟨c, cs, hcs, hc⟩ := exists_toDigits_eq_cons h
  rw [digits, hcs, List.head?_cons, ne_eq, Option.some_inj]
  exact hc

/-- The last digit of a number. -/
theorem getLast?_toDigits (n : Nat) :
    (Nat.toDigits 10 n).getLast? = some (Nat.digitChar (n % 10)) := by
  by_cases h : n < 10
  · rw [Nat.toDigits_of_lt_base h, Nat.mod_eq_of_lt h, List.getLast?_singleton]
  · rw [Nat.toDigits_of_base_le (by decide) (by omega), List.getLast?_concat]

/-- **The digits of a decimal are those that count, and zeros.** -/
theorem digits_eq_append_zeros (d : Decimal) :
    ∃ k : Nat, d.digits = d.strip.digits ++ List.replicate k '0' ∧
      d.strip.exponent = d.exponent + k := by
  fun_induction strip d with
  | case1 d h ih =>
    obtain ⟨k, hdigits, hexponent⟩ := ih
    refine ⟨k + 1, ?_, ?_⟩
    · have hlast : Nat.digitChar (d.coefficient % 10) = '0' := by rw [h.2]; rfl
      rw [digits, Nat.toDigits_of_base_le (by decide) (by omega), hlast, List.replicate_succ',
        ← List.append_assoc, ← hdigits]
      rfl
    · rw [hexponent]
      push_cast
      ring
  | case2 d h => exact ⟨0, by simp, by simp⟩

theorem lead_strip (d : Decimal) : d.strip.lead = d.lead := by
  obtain ⟨k, hdigits, hexponent⟩ := d.digits_eq_append_zeros
  rw [lead, lead, hdigits, hexponent, List.length_append, List.length_replicate]
  push_cast
  ring

/-- There is a digit that counts at the end. -/
theorem coefficient_strip_mod (d : Decimal) (h : 0 < d.coefficient) :
    d.strip.coefficient % 10 ≠ 0 := by
  fun_induction strip d with
  | case1 d h' ih => exact ih (Nat.div_pos (by omega) (by decide))
  | case2 d h' =>
    intro hmod
    exact h' ⟨Nat.pos_iff_ne_zero.1 h, hmod⟩

theorem getLast?_digits_strip (d : Decimal) (h : 0 < d.coefficient) :
    d.strip.digits.getLast? ≠ some '0' := by
  have hmod := d.coefficient_strip_mod h
  rw [digits, getLast?_toDigits, ne_eq, Option.some_inj, Nat.digitChar_eq_zero]
  exact hmod

theorem coefficient_strip_pos (d : Decimal) (h : 0 < d.coefficient) : 0 < d.strip.coefficient := by
  have hmod := d.coefficient_strip_mod h
  refine Nat.pos_of_ne_zero fun hzero => hmod ?_
  rw [hzero]

theorem strip_strip (d : Decimal) : d.strip.strip = d.strip := by
  by_cases h : 0 < d.coefficient
  · rw [strip, dif_neg fun hzeros => d.coefficient_strip_mod h hzeros.2]
  · have hstrip : d.strip = d := by
      rw [strip, dif_neg fun hzeros => h (Nat.pos_of_ne_zero hzeros.1)]
    rw [hstrip, hstrip]

/-! ### Rounding to a number of digits -/

theorem length_toDigits_eq {n k : Nat} (hle : 10 ^ k ≤ n) (hlt : n < 10 ^ (k + 1)) :
    (Nat.toDigits 10 n).length = k + 1 := by
  have hupper : (Nat.toDigits 10 n).length ≤ k + 1 :=
    (Nat.length_toDigits_le_iff (by decide) (Nat.succ_pos k)).2 hlt
  have hlower := lt_ten_pow_length_toDigits n
  have hpow := (Nat.pow_lt_pow_iff_right (by decide)).1 (hle.trans_lt hlower)
  omega

/-- The number is below the next power of ten. -/
theorem lt_ten_zpow_powerBelow_add_one {a b : Nat} (ha : 0 < a) (hb : 0 < b) :
    (a / b : Rat) < 10 ^ (powerBelow a b + 1) := by
  have hb' : (0 : Rat) < b := by exact_mod_cast hb
  unfold powerBelow
  split
  · next hle =>
    have hlt : a < 10 ^ (Nat.toDigits 10 (a / b)).length * b :=
      (Nat.div_lt_iff_lt_mul hb).1 (lt_ten_pow_length_toDigits (a / b))
    rw [sub_add_cancel, zpow_natCast, div_lt_iff₀ hb']
    exact_mod_cast hlt
  · next hgt =>
    have hlen := Nat.length_toDigits_pos (b := 10) (n := b / a)
    have hpow := ten_pow_length_toDigits_le (Nat.div_pos (le_of_not_ge hgt) ha)
    have hmul : a * 10 ^ ((Nat.toDigits 10 (b / a)).length - 1) ≤ b := by
      rw [mul_comm]
      exact (Nat.le_div_iff_mul_le ha).1 hpow
    have hexp : (10 : Rat) ^ (1 - ((Nat.toDigits 10 (b / a)).length : Int)) =
        (10 ^ ((Nat.toDigits 10 (b / a)).length - 1))⁻¹ := by
      have hneg : 1 - ((Nat.toDigits 10 (b / a)).length : Int) =
          -((Nat.toDigits 10 (b / a)).length - 1 : Nat) := by omega
      rw [hneg, zpow_neg, zpow_natCast]
    have hinv : (a / b : Rat) ≤ 10 ^ (1 - ((Nat.toDigits 10 (b / a)).length : Int)) := by
      rw [hexp, div_le_iff₀ hb', le_inv_mul_iff₀ (by positivity), mul_comm]
      exact_mod_cast hmul
    dsimp only
    split
    · refine hinv.trans_lt ?_
      rw [zpow_lt_zpow_iff_right₀ (by norm_num)]
      omega
    · next hnot =>
      rw [neg_add_eq_sub, hexp, div_lt_iff₀ hb', lt_inv_mul_iff₀ (by positivity), mul_comm]
      exact_mod_cast lt_of_not_ge hnot

/-- Rounding moves a ratio by half a unit at most. -/
theorem abs_roundHalfEven_sub_le (a : Nat) {b : Nat} (hb : 0 < b) :
    |(roundHalfEven a b : Rat) - a / b| ≤ 1 / 2 := by
  have hb' : (0 : Rat) < b := by exact_mod_cast hb
  have hdiv : (b : Rat) * (a / b : Nat) + (a % b : Nat) = a := by exact_mod_cast Nat.div_add_mod a b
  have hlt : a % b < b := Nat.mod_lt _ hb
  unfold roundHalfEven
  generalize a % b = r at hdiv hlt
  generalize a / b = n at hdiv
  have hz : (a : Rat) / b = n + r / b := by
    rw [← hdiv]
    field_simp
  rw [hz]
  split
  · next hdown =>
    have hhalf : (r : Rat) / b ≤ 1 / 2 := by
      rw [div_le_div_iff₀ hb' (by norm_num)]
      exact_mod_cast (by omega : r * 2 ≤ 1 * b)
    have hnonneg : (0 : Rat) ≤ r / b := by positivity
    rw [abs_le]
    exact ⟨by linarith, by linarith⟩
  · next hup =>
    have hhalf : 1 / 2 ≤ (r : Rat) / b := by
      rw [div_le_div_iff₀ (by norm_num) hb']
      exact_mod_cast (by omega : 1 * b ≤ r * 2)
    have hone : (r : Rat) / b < 1 := by
      rw [div_lt_one hb']
      exact_mod_cast hlt
    rw [Nat.cast_add, Nat.cast_one, abs_le]
    exact ⟨by linarith, by linarith⟩

/-- The decimal with `count` digits nearest to `m * 2 ^ e`, where `m` and `count` are positive.  Where
rounding carries into one digit more, there is a zero less at the end. -/
def rounded (count m : Nat) (e : Int) : Decimal :=
  let d := significant count m e
  if d.coefficient = 10 ^ count then ⟨10 ^ (count - 1), d.exponent + 1⟩ else d

theorem strip_rounded {count : Nat} (h : 0 < count) (m : Nat) (e : Int) :
    (rounded count m e).strip = (significant count m e).strip := by
  unfold rounded
  dsimp only
  split
  · next hcarry =>
    have hpow : 10 ^ count = 10 ^ (count - 1) * 10 := by rw [← pow_succ, Nat.sub_add_cancel h]
    rw [strip.eq_1 (significant count m e), dif_pos, hcarry, hpow, Nat.mul_div_cancel _ (by decide)]
    rw [hcarry, hpow]
    exact ⟨by positivity, Nat.mul_mod_left _ _⟩
  · rfl

/-- The coefficient that rounding to significant digits gives, with the unit of its last digit. -/
theorem coefficient_significant {count m : Nat} (hcount : 0 < count) (hm : 0 < m) (e : Int) :
    let d := significant count m e
    10 ^ (count - 1) ≤ d.coefficient ∧ d.coefficient ≤ 10 ^ count ∧
      |d.coefficient - m * 2 ^ e / (10 : Rat) ^ d.exponent| ≤ 1 / 2 := by
  intro d
  obtain ⟨a, ha⟩ : ∃ a, (ratio m e).1 = a := ⟨_, rfl⟩
  obtain ⟨b, hb⟩ : ∃ b, (ratio m e).2 = b := ⟨_, rfl⟩
  have hratio : (a / b : Rat) = m * 2 ^ e := by rw [← ha, ← hb, ratio_div]
  have hapos : 0 < a := by simpa [← ha, ratio] using hm
  have hbpos : 0 < b := by simp [← hb, ratio]
  have hunit : 0 < (inUnits a b d.exponent).2 := by simp [inUnits, hbpos]
  have hexp : d.exponent = powerBelow a b - count + 1 := by rw [← ha, ← hb]; rfl
  have hcoefficient : d.coefficient =
      roundHalfEven (inUnits a b d.exponent).1 (inUnits a b d.exponent).2 := by
    rw [← ha, ← hb]
    rfl
  -- the number lies between two powers of ten, and so does what it is rounded to
  have hclose := abs_roundHalfEven_sub_le (inUnits a b d.exponent).1 hunit
  rw [← hcoefficient, inUnits_div, hratio] at hclose
  have hlower : (10 : Rat) ^ (count - 1) ≤ m * 2 ^ e / 10 ^ d.exponent := by
    have hle := ten_zpow_powerBelow_le hapos hbpos
    rw [hratio] at hle
    rw [le_div_iff₀ (by positivity), ← zpow_natCast, ← zpow_add₀ (by norm_num)]
    refine le_trans (le_of_eq ?_) hle
    congr 1
    omega
  have hupper : m * 2 ^ e / (10 : Rat) ^ d.exponent < 10 ^ count := by
    have hlt := lt_ten_zpow_powerBelow_add_one hapos hbpos
    rw [hratio] at hlt
    rw [div_lt_iff₀ (by positivity), ← zpow_natCast, ← zpow_add₀ (by norm_num)]
    refine lt_of_lt_of_eq hlt ?_
    congr 1
    omega
  obtain ⟨hbelow, habove⟩ := abs_le.1 hclose
  refine ⟨?_, ?_, hclose⟩
  · have hlt : (10 ^ (count - 1) : Rat) < d.coefficient + 1 := by linarith
    exact Nat.lt_succ_iff.1 (by exact_mod_cast hlt)
  · have hlt : (d.coefficient : Rat) < 10 ^ count + 1 := by linarith
    exact Nat.lt_succ_iff.1 (by exact_mod_cast hlt)

/-- **Rounding gives so many digits and moves the number by half a unit of the last one at most.** -/
theorem rounded_spec {count m : Nat} (hcount : 0 < count) (hm : 0 < m) (e : Int) :
    let d := rounded count m e
    0 < d.coefficient ∧ d.digits.length = count ∧ |d.value - m * 2 ^ e| ≤ 10 ^ d.exponent / 2 := by
  obtain ⟨hlower, hupper, hclose⟩ := coefficient_significant hcount hm e
  have hpow : count - 1 + 1 = count := Nat.sub_add_cancel hcount
  have hvalue : |(significant count m e).value - m * 2 ^ e| ≤
      10 ^ (significant count m e).exponent / 2 := by
    generalize significant count m e = d at hclose
    have hunit : (0 : Rat) < 10 ^ d.exponent := by positivity
    have hsplit : d.value - m * 2 ^ e =
        (d.coefficient - m * 2 ^ e / (10 : Rat) ^ d.exponent) * 10 ^ d.exponent := by
      rw [value, sub_mul, div_mul_cancel₀ _ hunit.ne']
    rw [hsplit, abs_mul, abs_of_pos hunit]
    calc |d.coefficient - m * 2 ^ e / (10 : Rat) ^ d.exponent| * 10 ^ d.exponent
        ≤ 1 / 2 * 10 ^ d.exponent := by gcongr
      _ = 10 ^ d.exponent / 2 := by ring
  unfold rounded
  dsimp only
  split
  · next hcarry =>
    refine ⟨by positivity, ?_, ?_⟩
    · rw [digits, length_toDigits_eq le_rfl (Nat.pow_lt_pow_right (by decide) (Nat.lt_succ_self _))]
      exact hpow
    · have hsame : value ⟨10 ^ (count - 1), (significant count m e).exponent + 1⟩ =
          (significant count m e).value := by
        rw [value, value, hcarry, zpow_add_one₀ (by norm_num), ← hpow, pow_succ]
        push_cast
        ring
      rw [hsame]
      refine hvalue.trans ?_
      gcongr
      · norm_num
      · exact Int.le_add_one le_rfl
  · next hnot =>
    refine ⟨Nat.lt_of_lt_of_le (by positivity) hlower, ?_, hvalue⟩
    have hlt : (significant count m e).coefficient < 10 ^ (count - 1 + 1) := by
      rw [hpow]
      exact lt_of_le_of_ne hupper hnot
    rw [digits, length_toDigits_eq hlower hlt, hpow]

end Decimal

end Abacus
