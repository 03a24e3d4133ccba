import Abacus.Proofs.Binary64.Nearest

/-!
# The order of floats

A float other than not-a-number stands for a number (`number`); an infinite float counts as the
first power of two that is too large for a float, `± 2 ^ 1024`.  Counted like this infinite floats
need no cases of their own: floats are compared as their numbers are (`le_iff_number_le`), and
rounding keeps the order also where it overflows (`IsNearest.number_le`).
-/

namespace Abacus

namespace Binary64

open Float.Model
open Float.Model.UnpackedFloat

/-! ### Numbers with a sign -/

/-- The number `± x`. -/
def signed : Sign → Rat → Rat
  | .positive, x => x
  | .negative, x => -x

@[simp]
theorem signed_zero (s : Sign) : signed s 0 = 0 := by
  cases s <;> simp [signed]

@[simp]
theorem abs_signed (s : Sign) (x : Rat) : |signed s x| = |x| := by
  cases s <;> simp [signed]

theorem signed_mul (s₁ s₂ : Sign) (x y : Rat) :
    signed (s₁ * s₂) (x * y) = signed s₁ x * signed s₂ y := by
  cases s₁ <;> cases s₂
  · exact (neg_mul_neg x y).symm
  · exact (neg_mul x y).symm
  · exact (mul_neg x y).symm
  · rfl

theorem signed_div (s₁ s₂ : Sign) (x y : Rat) :
    signed (s₁ / s₂) (x / y) = signed s₁ x / signed s₂ y := by
  cases s₁ <;> cases s₂
  · exact (neg_div_neg_eq x y).symm
  · exact (neg_div y x).symm
  · exact (div_neg x).symm
  · rfl

/-! ### The number of a float -/

/-- The first power of two that is too large for a float. -/
def limit : Rat := 2 ^ (1024 : Int)

theorem limit_pos : 0 < limit := by
  unfold limit
  positivity

theorem nearest_limit : Nearest limit limit :=
  nearest_two_zpow (by norm_num)

/-- The number that an unpacked float stands for. -/
def numberOf : UnpackedFloat → Rat
  | .infinity s => signed s limit
  | .notANumber => 0
  | .zero _ => 0
  | .finite s m e _ => signed s (value m e)

theorem numberOf_zero (s : Sign) : numberOf (.zero s) = 0 := rfl

/-- The number that a float stands for. -/
def number (f : Float) : Rat :=
  numberOf f.toModel.unpack

theorem value_pos {m : Nat} (hm : 0 < m) (e : Int) : 0 < value m e := by
  unfold value
  positivity

theorem Canonical.value_lt_limit {m : Nat} {e : Int} (h : Canonical m e) : value m e < limit := by
  have hgreatest := h.le_greatest
  exact h.fits.lastPlace.lt.trans_le (zpow_le_zpow_right₀ (by norm_num) (by omega))

theorem Fits.limit_le_value {m : Nat} {e : Int} (h : Fits m e) (he : 972 ≤ e) :
    limit ≤ value m e := by
  have hfull := h.lastPlace.full.resolve_left (by omega)
  exact (zpow_le_zpow_right₀ (by norm_num) (by omega)).trans hfull

/-! ### Comparison -/

theorem Fits.value_lt_value {m n : Nat} {e f : Int} (hm : Fits m e) (hn : Fits n f) (h : e < f) :
    value m e < value n f := by
  have hleast := hm.least_le
  have hfull := hn.lastPlace.full.resolve_left (by omega)
  exact hm.lastPlace.lt.trans_le
    ((zpow_le_zpow_right₀ (by norm_num) (by omega)).trans hfull)

/-- Floats of one sign are compared by their exponents, and then by their mantissas. -/
theorem Fits.compares {m n : Nat} {e f : Int} (hm : Fits m e) (hn : Fits n f) :
    ((compare e f).then (compare m n)).Compares (value m e) (value n f) := by
  rcases lt_trichotomy e f with h | rfl | h
  · rw [Int.compare_eq_lt.2 h]
    exact hm.value_lt_value hn h
  · have hlt : ∀ {k l : Nat}, k < l → value k e < value l e := by
      intro k l hkl
      unfold value
      gcongr
    rw [Int.compare_eq_eq.2 rfl]
    rcases lt_trichotomy m n with h | rfl | h
    · rw [Nat.compare_eq_lt.2 h]
      exact hlt h
    · rw [Nat.compare_eq_eq.2 rfl]
      exact rfl
    · rw [Nat.compare_eq_gt.2 h]
      exact hlt h
  · rw [Int.compare_eq_gt.2 h]
    exact hn.value_lt_value hm h

theorem compares_neg {o : Ordering} {x y : Rat} (h : o.Compares x y) : o.Compares (-y) (-x) := by
  cases o with
  | lt => exact neg_lt_neg h
  | eq => exact congrArg Neg.neg (Eq.symm h)
  | gt => exact neg_lt_neg h

/-- Two unpacked floats are compared as the numbers that they stand for. -/
def Ordered (u v : UnpackedFloat) : Prop :=
  ∃ o : Ordering, u.compare v = some o ∧ o.Compares (numberOf u) (numberOf v)

section

variable {f : Float} (hf : f.isNaN = false) (s : Sign)
include hf

theorem ordered_infinity : Ordered (.infinity s) f.toModel.unpack := by
  have hlimit := limit_pos
  change f.toModel.unpack.isNaN = false at hf
  cases hu : f.toModel.unpack with
  | notANumber => rw [hu] at hf; cases hf
  | infinity s' =>
    refine ⟨compare s s', rfl, ?_⟩
    cases s <;> cases s'
    · exact rfl
    · show -limit < limit
      linarith
    · show -limit < limit
      linarith
    · exact rfl
  | zero s' =>
    cases s
    · exact ⟨.lt, rfl, show -limit < 0 by linarith⟩
    · exact ⟨.gt, rfl, hlimit⟩
  | finite s' n k hn =>
    have hpos := value_pos hn k
    have hlt := (canonical_of_unpack hu).value_lt_limit
    cases s <;> cases s'
    · exact ⟨.lt, rfl, show -limit < -value n k by linarith⟩
    · exact ⟨.lt, rfl, show -limit < value n k by linarith⟩
    · exact ⟨.gt, rfl, show -value n k < limit by linarith⟩
    · exact ⟨.gt, rfl, hlt⟩

theorem ordered_zero : Ordered (.zero s) f.toModel.unpack := by
  have hlimit := limit_pos
  change f.toModel.unpack.isNaN = false at hf
  cases hu : f.toModel.unpack with
  | notANumber => rw [hu] at hf; cases hf
  | infinity s' =>
    cases s'
    · exact ⟨.gt, rfl, show -limit < 0 by linarith⟩
    · exact ⟨.lt, rfl, hlimit⟩
  | zero s' => exact ⟨.eq, rfl, rfl⟩
  | finite s' n k hn =>
    have hpos := value_pos hn k
    cases s'
    · exact ⟨.gt, rfl, show -value n k < 0 by linarith⟩
    · exact ⟨.lt, rfl, hpos⟩

theorem ordered_finite {m : Nat} {e : Int} (hm : 0 < m) (hc : Canonical m e) :
    Ordered (.finite s m e hm) f.toModel.unpack := by
  have hpos := value_pos hm e
  have hlt := hc.value_lt_limit
  change f.toModel.unpack.isNaN = false at hf
  cases hu : f.toModel.unpack with
  | notANumber => rw [hu] at hf; cases hf
  | infinity s' =>
    cases s <;> cases s'
    · exact ⟨.gt, rfl, show -limit < -value m e by linarith⟩
    · exact ⟨.lt, rfl, show -value m e < limit by linarith⟩
    · exact ⟨.gt, rfl, show -limit < value m e by linarith⟩
    · exact ⟨.lt, rfl, hlt⟩
  | zero s' =>
    cases s
    · exact ⟨.lt, rfl, show -value m e < 0 by linarith⟩
    · exact ⟨.gt, rfl, hpos⟩
  | finite s' n k hn =>
    have hpos' := value_pos hn k
    have hcompares := hc.fits.compares (canonical_of_unpack hu).fits
    cases s <;> cases s'
    · exact ⟨_, rfl, Ordering.compares_swap.2 (compares_neg hcompares)⟩
    · exact ⟨.lt, rfl, show -value m e < value n k by linarith⟩
    · exact ⟨.gt, rfl, show -value n k < value m e by linarith⟩
    · exact ⟨_, rfl, hcompares⟩

end

theorem exists_compares {f g : Float} (hf : f.isNaN = false) (hg : g.isNaN = false) :
    ∃ o : Ordering, f.toModel.unpack.compare g.toModel.unpack = some o ∧
      o.Compares (number f) (number g) := by
  change f.toModel.unpack.isNaN = false at hf
  change Ordered f.toModel.unpack g.toModel.unpack
  cases hu : f.toModel.unpack with
  | notANumber => rw [hu] at hf; cases hf
  | infinity s => exact ordered_infinity hg s
  | zero s => exact ordered_zero hg s
  | finite s m e hm => exact ordered_finite hg s hm (canonical_of_unpack hu)

/-- **Floats are compared as the numbers that they stand for.** -/
theorem le_iff_number_le {f g : Float} (hf : f.isNaN = false) (hg : g.isNaN = false) :
    f ≤ g ↔ number f ≤ number g := by
  obtain ⟨o, ho, hcompares⟩ := exists_compares hf hg
  have hle : f ≤ g ↔ (f.toModel.unpack.compare g.toModel.unpack).any (·.isLE) :=
    decide_eq_true_iff
  rw [hle, ho, ← hcompares.ne_gt]
  cases o <;> simp

theorem lt_iff_number_lt {f g : Float} (hf : f.isNaN = false) (hg : g.isNaN = false) :
    f < g ↔ number f < number g := by
  obtain ⟨o, ho, hcompares⟩ := exists_compares hf hg
  have hlt : f < g ↔ f.toModel.unpack.compare g.toModel.unpack == some .lt :=
    decide_eq_true_iff
  rw [hlt, ho, ← hcompares.eq_lt]
  cases o <;> simp

theorem beq_iff_number_eq {f g : Float} (hf : f.isNaN = false) (hg : g.isNaN = false) :
    (f == g) = true ↔ number f = number g := by
  obtain ⟨o, ho, hcompares⟩ := exists_compares hf hg
  have hbeq : (f == g) = true ↔ f.toModel.unpack.compare g.toModel.unpack == some .eq := Iff.rfl
  rw [hbeq, ho, ← hcompares.eq_eq]
  cases o <;> simp

/-- Not-a-number compares to nothing. -/
theorem isNaN_of_compare {a b : UnpackedFloat} {o : Ordering} (h : a.compare b = some o) :
    a.isNaN = false ∧ b.isNaN = false := by
  cases a <;> cases b <;> first | exact ⟨rfl, rfl⟩ | cases h

theorem isNaN_of_le {f g : Float} (h : f ≤ g) : f.isNaN = false ∧ g.isNaN = false := by
  have hle : (f.toModel.unpack.compare g.toModel.unpack).any (·.isLE) := decide_eq_true_iff.1 h
  obtain ⟨o, ho, -⟩ := (Option.any_eq_true _ _).1 hle
  exact isNaN_of_compare ho

theorem isNaN_of_beq {f g : Float} (h : (f == g) = true) : f.isNaN = false ∧ g.isNaN = false :=
  isNaN_of_compare (beq_iff_eq.1 h)

theorem number_le_of_le {f g : Float} (h : f ≤ g) : number f ≤ number g :=
  (le_iff_number_le (isNaN_of_le h).1 (isNaN_of_le h).2).1 h

theorem float_le_trans {f g h : Float} (hfg : f ≤ g) (hgh : g ≤ h) : f ≤ h :=
  (le_iff_number_le (isNaN_of_le hfg).1 (isNaN_of_le hgh).2).2
    ((number_le_of_le hfg).trans (number_le_of_le hgh))

theorem le_of_not_lt {f g : Float} (hf : f.isNaN = false) (hg : g.isNaN = false) (h : ¬ f < g) :
    g ≤ f := by
  rw [lt_iff_number_lt hf hg, not_lt] at h
  exact (le_iff_number_le hg hf).2 h

/-! ### Rounding -/

/-- The float `f` is what the number `x` is rounded to. -/
structure IsNearest (f : Float) (x : Rat) : Prop where
  isNumber : f.isNaN = false
  nearest : ∃ (s : Sign) (y v : Rat),
    0 ≤ y ∧ x = signed s y ∧ Nearest y v ∧ number f = signed s (min v limit)

/-- **A float is what its own number is rounded to.** -/
theorem isNearest_number {f : Float} (h : f.isNaN = false) : IsNearest f (number f) := by
  refine ⟨h, ?_⟩
  change f.toModel.unpack.isNaN = false at h
  unfold number
  cases hf : f.toModel.unpack with
  | notANumber => rw [hf] at h; cases h
  | infinity s => exact ⟨s, limit, limit, limit_pos.le, rfl, nearest_limit, by simp [numberOf]⟩
  | zero s =>
    refine ⟨.positive, 0, 0, le_rfl, rfl, nearest_zero, ?_⟩
    rw [min_eq_left limit_pos.le]
    rfl
  | finite s m e hm =>
    have hc := canonical_of_unpack hf
    refine ⟨s, value m e, value m e, value_nonneg m e, rfl, hc.fits.nearest, ?_⟩
    rw [min_eq_left hc.value_lt_limit.le]
    rfl

theorem IsNearest.abs_number_le {f g : Float} {x y : Rat} (hf : IsNearest f x)
    (hg : IsNearest g y) (h : |x| ≤ |y|) : |number f| ≤ |number g| := by
  obtain ⟨-, s, x, v, hx, rfl, hv, hnumber⟩ := hf
  obtain ⟨-, s', y, w, hy, rfl, hw, hnumber'⟩ := hg
  rw [abs_signed, abs_signed, abs_of_nonneg hx, abs_of_nonneg hy] at h
  have hvw := hv.le hw h
  rw [hnumber, hnumber', abs_signed, abs_signed, abs_of_nonneg (le_min hv.nonneg limit_pos.le),
    abs_of_nonneg (le_min hw.nonneg limit_pos.le)]
  gcongr

/-- Rounding keeps the sign, and zero stays zero. -/
theorem IsNearest.exists_sign {f : Float} {x : Rat} (h : IsNearest f x) :
    ∃ (s : Sign) (y z : Rat), 0 ≤ y ∧ 0 ≤ z ∧ (y = 0 → z = 0) ∧ x = signed s y ∧
      number f = signed s z := by
  obtain ⟨-, s, y, v, hy, rfl, hv, hnumber⟩ := h
  refine ⟨s, y, min v limit, hy, le_min hv.nonneg limit_pos.le, ?_, rfl, hnumber⟩
  rintro rfl
  have hzero : v = 0 := le_antisymm (hv.le nearest_zero le_rfl) hv.nonneg
  rw [hzero, min_eq_left limit_pos.le]

theorem IsNearest.nonneg {f : Float} {x : Rat} (h : IsNearest f x) (hx : 0 ≤ x) : 0 ≤ number f := by
  obtain ⟨s, y, z, hy, hz, hzero, rfl, hnumber⟩ := h.exists_sign
  rw [hnumber]
  cases s with
  | positive => exact hz
  | negative => rw [hzero (le_antisymm (neg_nonneg.1 hx) hy), signed_zero]

theorem IsNearest.nonpos {f : Float} {x : Rat} (h : IsNearest f x) (hx : x ≤ 0) : number f ≤ 0 := by
  obtain ⟨s, y, z, hy, hz, hzero, rfl, hnumber⟩ := h.exists_sign
  rw [hnumber]
  cases s with
  | positive => rw [hzero (le_antisymm hx hy), signed_zero]
  | negative => exact neg_nonpos.2 hz

/-- **Rounding keeps the order.** -/
theorem IsNearest.number_le {f g : Float} {x y : Rat} (hf : IsNearest f x) (hg : IsNearest g y)
    (h : x ≤ y) : number f ≤ number g := by
  rcases le_or_gt 0 x with hx | hx
  · have habs := hf.abs_number_le hg (abs_le_abs_of_nonneg hx h)
    rwa [abs_of_nonneg (hf.nonneg hx), abs_of_nonneg (hg.nonneg (hx.trans h))] at habs
  rcases le_or_gt 0 y with hy | hy
  · exact (hf.nonpos hx.le).trans (hg.nonneg hy)
  · have habs := hg.abs_number_le hf (abs_le_abs_of_nonpos hy.le h)
    rw [abs_of_nonpos (hf.nonpos hx.le), abs_of_nonpos (hg.nonpos hy.le)] at habs
    exact neg_le_neg_iff.1 habs

/-! ### Finite floats -/

/-- **A finite float stands for a number below the limit.** -/
theorem isFinite_iff {f : Float} (h : f.isNaN = false) :
    f.isFinite = true ↔ |number f| < limit := by
  change f.toModel.unpack.isNaN = false at h
  change f.toModel.unpack.isFinite = true ↔ |numberOf f.toModel.unpack| < limit
  cases hf : f.toModel.unpack with
  | notANumber => rw [hf] at h; cases h
  | infinity s => simp [numberOf, UnpackedFloat.isFinite, abs_of_pos limit_pos]
  | zero s => simp [numberOf, UnpackedFloat.isFinite, limit_pos]
  | finite s m e hm =>
    have hlt := (canonical_of_unpack hf).value_lt_limit
    simpa [numberOf, UnpackedFloat.isFinite, abs_of_nonneg (value_nonneg m e)] using hlt

/-- A finite float is a zero or has a mantissa and an exponent. -/
theorem unpack_of_isFinite {f : Float} (h : f.isFinite = true) :
    (∃ s, f.toModel.unpack = .zero s) ∨
      ∃ s m e hm, f.toModel.unpack = .finite s m e hm := by
  change f.toModel.unpack.isFinite = true at h
  cases hf : f.toModel.unpack with
  | notANumber => rw [hf] at h; cases h
  | infinity s => rw [hf] at h; cases h
  | zero s => exact .inl ⟨s, rfl⟩
  | finite s m e hm => exact .inr ⟨s, m, e, hm, rfl⟩

theorem isNaN_of_isFinite {f : Float} (h : f.isFinite = true) : f.isNaN = false := by
  change f.toModel.unpack.isNaN = false
  obtain ⟨s, hf⟩ | ⟨s, m, e, hm, hf⟩ := unpack_of_isFinite h <;> rw [hf] <;> rfl

theorem isFinite_of_isInf {f : Float} (hnumber : f.isNaN = false) (h : f.isInf = false) :
    f.isFinite = true := by
  change f.toModel.unpack.isNaN = false at hnumber
  change f.toModel.unpack.isInf = false at h
  change f.toModel.unpack.isFinite = true
  cases hf : f.toModel.unpack with
  | notANumber => rw [hf] at hnumber; cases hnumber
  | infinity s => rw [hf] at h; cases h
  | zero s => rfl
  | finite s m e hm => rfl

/-! ### Floats that are not negative -/

theorem zero_le_iff {f : Float} : 0.0 ≤ f ↔ f.isNaN = false ∧ 0 ≤ number f := by
  have hzero : (0.0 : Float).isNaN = false := rfl
  constructor
  · intro h
    exact ⟨(isNaN_of_le h).2, number_le_of_le h⟩
  · rintro ⟨hf, h⟩
    exact (le_iff_number_le hzero hf).2 h

theorem zero_le_of_le {f g : Float} (hf : 0.0 ≤ f) (h : f ≤ g) : 0.0 ≤ g :=
  zero_le_iff.2 ⟨(isNaN_of_le h).2, (zero_le_iff.1 hf).2.trans (number_le_of_le h)⟩

/-- A float that is not negative is a zero, or its sign is positive. -/
theorem unpack_of_zero_le {f : Float} (h : 0.0 ≤ f) :
    (∃ s, f.toModel.unpack = .zero s) ∨
      (∃ m e hm, f.toModel.unpack = .finite .positive m e hm) ∨
      f.toModel.unpack = .infinity .positive := by
  obtain ⟨hnan, hnonneg⟩ := zero_le_iff.1 h
  change f.toModel.unpack.isNaN = false at hnan
  unfold number at hnonneg
  cases hf : f.toModel.unpack with
  | notANumber => rw [hf] at hnan; cases hnan
  | infinity s =>
    cases s with
    | positive => exact .inr (.inr rfl)
    | negative =>
      rw [hf] at hnonneg
      exact absurd hnonneg (not_le.2 (neg_lt_zero.2 limit_pos))
  | zero s => exact .inl ⟨s, rfl⟩
  | finite s m e hm =>
    cases s with
    | positive => exact .inr (.inl ⟨m, e, hm, rfl⟩)
    | negative =>
      rw [hf] at hnonneg
      exact absurd hnonneg (not_le.2 (neg_lt_zero.2 (value_pos hm e)))

theorem unpack_of_not_isFinite {f : Float} (h : 0.0 ≤ f) (hf : ¬ f.isFinite = true) :
    f.toModel.unpack = .infinity .positive := by
  change ¬ f.toModel.unpack.isFinite = true at hf
  obtain ⟨s, hzero⟩ | ⟨m, e, hm, hfinite⟩ | hinfinity := unpack_of_zero_le h
  · exact absurd (hzero ▸ rfl) hf
  · exact absurd (hfinite ▸ rfl) hf
  · exact hinfinity

end Binary64

end Abacus
