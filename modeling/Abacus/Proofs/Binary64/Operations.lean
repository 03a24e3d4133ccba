import Abacus.Arithmetic
import Abacus.Proofs.Binary64.Order

/-!
# Sums, products and quotients of floats

The product and the quotient of finite floats, and the sum of floats that are not negative, are the
exact results, rounded (`isNearest_mul`, `isNearest_div`, `isNearest_add`); a result that is too
large is packed as an infinite float, which counts as the limit itself.  So inequalities between
exact results carry over: sums keep the order (`add_mono`), a part of a whole is at most one
(`div_le_one`), and a part of a float is at most the float (`mul_le_right`).  Finite operands of any
sign have a sum and a difference that are numbers (`isNaN_add_sub`); an operand that is not a number
makes a result that is not a number.
-/

namespace Abacus

namespace Binary64

open Float.Model
open Float.Model.UnpackedFloat

/-! ### Packing -/

theorem unpack_packedInfinity (s : Sign) :
    UnpackedFloat.unpack .binary64 (packedInfinity .binary64 s) = .infinity s := by
  unfold UnpackedFloat.unpack packedInfinity
  simp only [unpackMantissa_packComponents, unpackExponent_packComponents,
    unpackSign_packComponents, Sign.ofBitVec_toBitVec]
  rfl

/-- An exponent that is too large makes an infinite float. -/
theorem unpack_pack_overflow (s : Sign) {m : Nat} (hm : 0 < m) {e : Int} (he : 972 ≤ e) :
    UnpackedFloat.unpack .binary64 (UnpackedFloat.pack .binary64 (.finite s m e hm)) =
      .infinity s := by
  have hbias : Format.binary64.exponentBias = 1023 := by decide
  have hlarge : 2 ^ 11 ≤ (e + Format.binary64.exponentBias + (52 : Nat)).toNat + 1 := by omega
  unfold UnpackedFloat.pack
  simp only [if_pos hlarge]
  exact unpack_packedInfinity s

/-- A magnitude that the model rounds is packed, and becomes infinite from the limit on. -/
theorem isNearest_pack {s : Sign} {y v : Rat} {u : UnpackedFloat} (hy : 0 ≤ y)
    (hv : Nearest y v) (hu : Represents s u v) : IsNearest (.ofModel (.pack u)) (signed s y) := by
  cases hu with
  | zero =>
    have hunpack : (Float.Model.pack (.zero s)).unpack = .zero s := unpack_packedZero
    refine ⟨congrArg UnpackedFloat.isNaN hunpack, s, y, 0, hy, rfl, hv, ?_⟩
    rw [min_eq_left limit_pos.le, signed_zero]
    exact congrArg numberOf hunpack
  | @finite m e hm hfits =>
    by_cases he : e ≤ 971
    · have hc : Canonical m e := ⟨hm, hfits.lt, hfits.full, hfits.least_le, he⟩
      have hunpack := unpack_float s hc
      refine ⟨congrArg UnpackedFloat.isNaN hunpack, s, y, value m e, hy, rfl, hv, ?_⟩
      rw [min_eq_left hc.value_lt_limit.le]
      exact congrArg numberOf hunpack
    · have hunpack : (Float.Model.pack (.finite s m e hm)).unpack = .infinity s :=
        unpack_pack_overflow s hm (by omega)
      refine ⟨congrArg UnpackedFloat.isNaN hunpack, s, y, value m e, hy, rfl, hv, ?_⟩
      rw [min_eq_right (hfits.limit_le_value (by omega))]
      exact congrArg numberOf hunpack

theorem isNearest_pack_zero (s : Sign) : IsNearest (.ofModel (.pack (.zero s))) 0 :=
  signed_zero s ▸ isNearest_pack le_rfl nearest_zero .zero

/-- What the model rounds is the float nearest to it. -/
theorem isNearest_roundWithAccuracy (s : Sign) {n : Nat} {i : Int} {acc : Accuracy} {x : Rat}
    (hx : 0 ≤ x) (h : Tracks (.ofMantissaAndAccuracy n acc) (x / 2 ^ i))
    (hi : i ≤ Format.binary64.targetExponent (totalExponent n i)) :
    IsNearest (.ofModel (.pack (roundWithAccuracy .binary64 s n i acc))) (signed s x) := by
  obtain ⟨v, hv, hrepresents⟩ := roundWithAccuracy_nearest s h hi
  exact isNearest_pack hx hv hrepresents

/-- A mantissa and an exponent of any size are rounded to the nearest float. -/
theorem isNearest_round (s : Sign) {m : Nat} (hm : 0 < m) (e : Int) :
    IsNearest (.ofModel (.pack (.round .binary64 s m e))) (signed s (value m e)) := by
  obtain ⟨v, hv, hrepresents⟩ := round_nearest s hm e
  exact isNearest_pack (value_nonneg m e) hv hrepresents

/-- A product of mantissas is long enough to be rounded, or its exponent is very low. -/
theorem le_targetExponent_mul {m n : Nat} {e k : Int} (hm : Canonical m e) (hn : Canonical n k) :
    e + k ≤ Format.binary64.targetExponent (totalExponent (m * n) (e + k)) := by
  rw [targetExponent_binary64, totalExponent]
  by_cases hlong : 2 ^ 52 ≤ m * n
  · have hlog : 52 ≤ (m * n).log2 := (Nat.le_log2 (Nat.mul_pos hm.pos hn.pos).ne').2 hlong
    omega
  · have he : e = -1074 := hm.full.resolve_left fun hfull =>
      hlong (hfull.trans (Nat.le_mul_of_pos_right m hn.pos))
    have hk : k = -1074 := hn.full.resolve_left fun hfull =>
      hlong (hfull.trans (Nat.le_mul_of_pos_left n hm.pos))
    omega

theorem normalize_natCast {n : Nat} (hn : 0 < n) (e : Int) (s : Sign) :
    UnpackedFloat.normalize .binary64 n e s = .round .binary64 .positive n e := by
  have hgt : compare (n : Int) 0 = .gt := Int.compare_eq_gt.2 (by omega)
  unfold UnpackedFloat.normalize
  rw [hgt]
  dsimp only
  rw [Int.toNat_natCast]

/-! ### Operations -/

variable {f g : Float}

/-- **The product of finite floats is their exact product, rounded.** -/
theorem isNearest_mul (hf : f.isFinite = true) (hg : g.isFinite = true) :
    IsNearest (f * g) (number f * number g) := by
  change IsNearest (.ofModel (.pack (UnpackedFloat.mul .binary64 f.toModel.unpack
    g.toModel.unpack))) (numberOf f.toModel.unpack * numberOf g.toModel.unpack)
  obtain ⟨s, hf⟩ | ⟨s, m, e, hm, hf⟩ := unpack_of_isFinite hf <;>
    obtain ⟨s', hg⟩ | ⟨s', n, k, hn, hg⟩ := unpack_of_isFinite hg <;> rw [hf, hg]
  · rw [numberOf_zero, zero_mul]
    exact isNearest_pack_zero (s * s')
  · rw [numberOf_zero, zero_mul]
    exact isNearest_pack_zero (s * s')
  · rw [numberOf_zero, mul_zero]
    exact isNearest_pack_zero (s * s')
  · rw [numberOf, numberOf, ← signed_mul]
    refine isNearest_roundWithAccuracy (s * s') (mul_nonneg (value_nonneg m e) (value_nonneg n k))
      (tracks_product m n e k) ?_
    exact le_targetExponent_mul (canonical_of_unpack hf) (canonical_of_unpack hg)

/-- **The quotient of finite floats is their exact quotient, rounded.** -/
theorem isNearest_div (hf : f.isFinite = true) (hg : g.isFinite = true) (hne : number g ≠ 0) :
    IsNearest (f / g) (number f / number g) := by
  change IsNearest (.ofModel (.pack (UnpackedFloat.div .binary64 f.toModel.unpack
    g.toModel.unpack))) (numberOf f.toModel.unpack / numberOf g.toModel.unpack)
  change numberOf g.toModel.unpack ≠ 0 at hne
  obtain ⟨s', hg⟩ | ⟨s', n, k, hn, hg⟩ := unpack_of_isFinite hg
  · rw [hg] at hne
    exact absurd rfl hne
  obtain ⟨s, hf⟩ | ⟨s, m, e, hm, hf⟩ := unpack_of_isFinite hf <;> rw [hf, hg]
  · rw [numberOf_zero, zero_div]
    exact isNearest_pack_zero (s / s')
  · rw [numberOf, numberOf, ← signed_div]
    obtain ⟨q, i, acc, hcore, htracks, hi⟩ := tracks_divCore hm hn e k
    have hround := isNearest_roundWithAccuracy (s / s')
      (div_nonneg (value_nonneg m e) (value_nonneg n k)) htracks hi
    unfold UnpackedFloat.div
    simpa only [hcore] using hround

/-! ### Sums -/

/-- A number from the limit on is rounded to an infinite float. -/
theorem isNearest_infinity {s : Sign} {y v : Rat} (h : limit ≤ y) (hv : Nearest y v) :
    IsNearest (.ofModel (.pack (.infinity s))) (signed s y) := by
  have hunpack : (Float.Model.pack (.infinity s)).unpack = .infinity s := unpack_packedInfinity s
  refine ⟨congrArg UnpackedFloat.isNaN hunpack, s, y, v, limit_pos.le.trans h, rfl, hv, ?_⟩
  rw [min_eq_right (nearest_limit.le hv h)]
  exact congrArg numberOf hunpack

theorem value_decreaseExponent (m : Nat) {e i : Int} (h : i ≤ e) :
    value (decreaseExponent m e i).1 i = value m e := by
  have hi : i = e - (e - i).toNat := by omega
  unfold decreaseExponent
  conv_lhs => arg 2; rw [hi]
  exact value_shiftLeft m _ e

/-- A sum in units of the lower exponent. -/
theorem value_add_value (m n : Nat) (e k : Int) :
    value m e + value n k = value ((decreaseExponent m e (min e k)).1 +
      (decreaseExponent n k (min e k)).1) (min e k) := by
  rw [← value_decreaseExponent m (min_le_left e k), ← value_decreaseExponent n (min_le_right e k)]
  unfold value
  push_cast
  ring

theorem isNearest_add_finite {m n : Nat} {e k : Int} (hm : 0 < m) (hn : 0 < n) :
    IsNearest (.ofModel (.pack (UnpackedFloat.add .binary64 (.finite .positive m e hm)
      (.finite .positive n k hn)))) (value m e + value n k) := by
  have hpos : 0 < (decreaseExponent m e (min e k)).1 + (decreaseExponent n k (min e k)).1 := by
    unfold decreaseExponent
    dsimp only
    rw [Nat.shiftLeft_eq]
    positivity
  have hsum : UnpackedFloat.add .binary64 (.finite .positive m e hm) (.finite .positive n k hn) =
      .round .binary64 .positive ((decreaseExponent m e (min e k)).1 +
        (decreaseExponent n k (min e k)).1) (min e k) :=
    normalize_natCast hpos _ _
  rw [hsum, value_add_value]
  exact isNearest_round .positive hpos _

/-- What is not negative is `m * 2 ^ e`, the limit included. -/
theorem number_of_zero_le (hf : 0.0 ≤ f) : ∃ m e, number f = value m e := by
  unfold number
  obtain ⟨s, hf⟩ | ⟨m, e, hm, hf⟩ | hf := unpack_of_zero_le hf <;> rw [hf]
  · exact ⟨0, 0, by simp [numberOf, value]⟩
  · exact ⟨m, e, rfl⟩
  · exact ⟨1, 1024, by simp [numberOf, value, signed, limit]⟩

theorem exists_nearest_add (hf : 0.0 ≤ f) (hg : 0.0 ≤ g) : ∃ v, Nearest (number f + number g) v := by
  obtain ⟨m, e, hf⟩ := number_of_zero_le hf
  obtain ⟨n, k, hg⟩ := number_of_zero_le hg
  rw [hf, hg, value_add_value]
  exact exists_nearest_value _ _

theorem isNearest_unpacked {u : UnpackedFloat} (hu : f.toModel.unpack = u)
    (h : f.isNaN = false) : IsNearest (.ofModel (.pack u)) (numberOf u) := by
  subst hu
  rw [ofModel_pack_unpack]
  exact isNearest_number h

/-- **The sum of floats that are not negative is their exact sum, rounded**; infinite floats are
included. -/
theorem isNearest_add (hf : 0.0 ≤ f) (hg : 0.0 ≤ g) :
    IsNearest (f + g) (number f + number g) := by
  obtain ⟨v, hv⟩ := exists_nearest_add hf hg
  have hnonneg := (zero_le_iff.1 hf).2
  have hnonneg' := (zero_le_iff.1 hg).2
  have hinfinity (h : limit ≤ number f + number g) :
      IsNearest (.ofModel (.pack (.infinity .positive))) (number f + number g) :=
    isNearest_infinity h hv
  change IsNearest (.ofModel (.pack (UnpackedFloat.add .binary64 f.toModel.unpack
    g.toModel.unpack))) _
  unfold number at *
  obtain ⟨s, huf⟩ | ⟨m, e, hm, huf⟩ | huf := unpack_of_zero_le hf <;>
    obtain ⟨s', hug⟩ | ⟨n, k, hn, hug⟩ | hug := unpack_of_zero_le hg <;>
      rw [huf, hug] at hinfinity ⊢
  -- a zero changes nothing but the sign of another zero
  · rw [numberOf_zero, numberOf_zero, add_zero]
    cases s <;> cases s' <;> exact isNearest_pack_zero _
  · rw [numberOf_zero, zero_add]
    exact isNearest_unpacked hug (zero_le_iff.1 hg).1
  · rw [numberOf_zero, zero_add]
    exact isNearest_unpacked hug (zero_le_iff.1 hg).1
  · rw [numberOf_zero, add_zero]
    exact isNearest_unpacked huf (zero_le_iff.1 hf).1
  · exact isNearest_add_finite hm hn
  · rw [huf] at hnonneg
    exact hinfinity (le_add_of_nonneg_left hnonneg)
  · rw [numberOf_zero, add_zero]
    exact isNearest_unpacked huf (zero_le_iff.1 hf).1
  · rw [hug] at hnonneg'
    exact hinfinity (le_add_of_nonneg_right hnonneg')
  · rw [hug] at hnonneg'
    exact hinfinity (le_add_of_nonneg_right hnonneg')

/-! ### Sums and differences of either sign -/

theorem isNaN_pack_finite (s : Sign) {m : Nat} {e : Int} (hc : Canonical m e) :
    (Float.ofModel (.pack (.finite s m e hc.pos))).isNaN = false :=
  congrArg UnpackedFloat.isNaN (unpack_float s hc)

/-- What the model normalizes is a number. -/
theorem isNaN_pack_normalize (k e : Int) (s : Sign) :
    (Float.ofModel (.pack (UnpackedFloat.normalize .binary64 k e s))).isNaN = false := by
  unfold UnpackedFloat.normalize
  split
  · next h =>
    have hneg : k < 0 := Int.compare_eq_lt.1 h
    exact (isNearest_round .negative (by omega) e).isNumber
  · exact (isNearest_pack_zero s).isNumber
  · next h =>
    have hpos : 0 < k := Int.compare_eq_gt.1 h
    exact (isNearest_round .positive (by omega) e).isNumber

/-- **The sum and the difference of finite floats are numbers**, though perhaps not finite. -/
theorem isNaN_add_sub (hf : f.isFinite = true) (hg : g.isFinite = true) :
    (f + g).isNaN = false ∧ (f - g).isNaN = false := by
  change (Float.ofModel (.pack (UnpackedFloat.add .binary64 f.toModel.unpack
      g.toModel.unpack))).isNaN = false ∧
    (Float.ofModel (.pack (UnpackedFloat.sub .binary64 f.toModel.unpack
      g.toModel.unpack))).isNaN = false
  obtain ⟨s, hf⟩ | ⟨s, m, e, hm, hf⟩ := unpack_of_isFinite hf <;>
    obtain ⟨s', hg⟩ | ⟨s', n, k, hn, hg⟩ := unpack_of_isFinite hg <;> rw [hf, hg]
  · cases s <;> cases s' <;> exact ⟨rfl, rfl⟩
  · have hc := canonical_of_unpack hg
    exact ⟨isNaN_pack_finite s' hc, isNaN_pack_finite (-s') hc⟩
  · have hc := canonical_of_unpack hf
    exact ⟨isNaN_pack_finite s hc, isNaN_pack_finite s hc⟩
  · exact ⟨isNaN_pack_normalize _ _ _, isNaN_pack_normalize _ _ _⟩

/-! ### Operations and the order -/

/-- **Adding keeps the order.** -/
theorem add_mono {f' g' : Float} (hf : 0.0 ≤ f) (hg : 0.0 ≤ g) (hff : f ≤ f') (hgg : g ≤ g') :
    0.0 ≤ f + g ∧ f + g ≤ f' + g' := by
  have hadd := isNearest_add hf hg
  have hadd' := isNearest_add (zero_le_of_le hf hff) (zero_le_of_le hg hgg)
  have hsum : number f + number g ≤ number f' + number g' := by
    have hf' := number_le_of_le hff
    have hg' := number_le_of_le hgg
    linarith
  have hnonneg : 0 ≤ number f + number g :=
    add_nonneg (zero_le_iff.1 hf).2 (zero_le_iff.1 hg).2
  exact ⟨zero_le_iff.2 ⟨hadd.isNumber, hadd.nonneg hnonneg⟩,
    (le_iff_number_le hadd.isNumber hadd'.isNumber).2 (hadd.number_le hadd' hsum)⟩

theorem number_one : number 1.0 = 1 := by
  decide +kernel

theorem isFinite_of_le {c : Float} (hc : c.isFinite = true) (hf : 0.0 ≤ f) (hle : f ≤ c) :
    f.isFinite = true := by
  have hnumber := number_le_of_le hle
  have hnonneg := (zero_le_iff.1 hf).2
  rw [isFinite_iff (isNaN_of_isFinite hc), abs_of_nonneg (hnonneg.trans hnumber)] at hc
  rw [isFinite_iff (isNaN_of_le hle).1, abs_of_nonneg hnonneg]
  exact hnumber.trans_lt hc

/-- Nothing is left of a finite float that is divided by an infinite one. -/
theorem zero_of_div_infinity {s : Sign} (hf : f.isFinite = true)
    (hg : g.toModel.unpack = .infinity s) : IsNearest (f / g) 0 := by
  change IsNearest (.ofModel (.pack (UnpackedFloat.div .binary64 f.toModel.unpack
    g.toModel.unpack))) 0
  obtain ⟨s', hf⟩ | ⟨s', m, e, hm, hf⟩ := unpack_of_isFinite hf <;> rw [hf, hg] <;>
    exact isNearest_pack_zero (s' / s)

/-- **A part of a whole is at most one.** -/
theorem div_le_one (hf : f.isFinite = true) (hnonneg : 0.0 ≤ f) (hg : 1.0 ≤ g) (hle : f ≤ g) :
    0.0 ≤ f / g ∧ f / g ≤ 1.0 := by
  have hone : number 1.0 ≤ number g := number_le_of_le hg
  rw [number_one] at hone
  have hself := isNearest_number (f := 1.0) rfl
  obtain ⟨q, hdiv, hlow, hhigh⟩ : ∃ q, IsNearest (f / g) q ∧ 0 ≤ q ∧ q ≤ number 1.0 := by
    rw [number_one]
    by_cases hfinite : g.isFinite = true
    · have hpos : 0 < number g := by linarith
      refine ⟨number f / number g, isNearest_div hf hfinite hpos.ne', ?_, ?_⟩
      · exact div_nonneg (zero_le_iff.1 hnonneg).2 hpos.le
      · exact (div_le_one₀ hpos).2 (number_le_of_le hle)
    · have hg' := zero_le_of_le (f := 1.0) (by decide) hg
      exact ⟨0, zero_of_div_infinity hf (unpack_of_not_isFinite hg' hfinite), le_rfl, zero_le_one⟩
  exact ⟨zero_le_iff.2 ⟨hdiv.isNumber, hdiv.nonneg hlow⟩,
    (le_iff_number_le hdiv.isNumber rfl).2 (hdiv.number_le hself hhigh)⟩

/-- **A part of a float is at most the float.** -/
theorem mul_le_right (hf : 0.0 ≤ f) (hone : f ≤ 1.0) (hg : 0.0 ≤ g) (hfinite : g.isFinite = true) :
    0.0 ≤ f * g ∧ f * g ≤ g := by
  have hmul := isNearest_mul (isFinite_of_le (c := 1.0) (by decide) hf hone) hfinite
  have hself := isNearest_number (isNaN_of_isFinite hfinite)
  have hf' := (zero_le_iff.1 hf).2
  have hg' := (zero_le_iff.1 hg).2
  have hone' : number f ≤ 1 := number_one ▸ number_le_of_le hone
  exact ⟨zero_le_iff.2 ⟨hmul.isNumber, hmul.nonneg (mul_nonneg hf' hg')⟩,
    (le_iff_number_le hmul.isNumber hself.isNumber).2
      (hmul.number_le hself (mul_le_of_le_one_left hg' hone'))⟩

/-! ### Not a number -/

theorem isNaN_eq_true_iff : f.isNaN = true ↔ f.toModel.unpack = .notANumber :=
  isNaN_iff

/-- An operation that the model takes to not-a-number if one of its operands is. -/
theorem isNaN_operation {op : UnpackedFloat → UnpackedFloat → UnpackedFloat}
    (hleft : ∀ u, op .notANumber u = .notANumber) (hright : ∀ u, op u .notANumber = .notANumber)
    (h : f.isNaN = true ∨ g.isNaN = true) :
    (Float.ofModel (.pack (op f.toModel.unpack g.toModel.unpack))).isNaN = true := by
  have hop : op f.toModel.unpack g.toModel.unpack = .notANumber := by
    rcases h with h | h
    · rw [isNaN_eq_true_iff.1 h, hleft]
    · rw [isNaN_eq_true_iff.1 h, hright]
  rw [hop]
  rfl

theorem isNaN_add (h : f.isNaN = true ∨ g.isNaN = true) : (f + g).isNaN = true :=
  isNaN_operation (fun _ => rfl) (fun u => by cases u <;> rfl) h

theorem isNaN_mul (h : f.isNaN = true ∨ g.isNaN = true) : (f * g).isNaN = true :=
  isNaN_operation (fun _ => rfl) (fun u => by cases u <;> rfl) h

theorem isNaN_div (h : f.isNaN = true ∨ g.isNaN = true) : (f / g).isNaN = true :=
  isNaN_operation (fun _ => rfl) (fun u => by cases u <;> rfl) h

theorem isNaN_div_infinity {s s' : Sign} (hf : f.toModel.unpack = .infinity s)
    (hg : g.toModel.unpack = .infinity s') : (f / g).isNaN = true := by
  have hdiv : UnpackedFloat.div .binary64 f.toModel.unpack g.toModel.unpack = .notANumber := by
    rw [hf, hg]
    rfl
  change (Float.Model.pack (UnpackedFloat.div .binary64 f.toModel.unpack
    g.toModel.unpack)).isNaN = true
  rw [hdiv]
  rfl

end Binary64

end Abacus
