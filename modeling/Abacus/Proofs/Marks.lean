import Abacus.Marks
import Abacus.Proofs.Binary64.Multiples

/-!
# What a mark without issues is worth

A mark that is presented as final should be sane: not negative, at most the greatest possible mark,
and this at most a hundred (`MarkSummary.Sane`).  Each assessment without problems contributes
between nothing and its weightage (`Assessment.contribution_bounds`), if its marks are proper: what
was obtained is finite, and the total is a number.  Adding keeps the order, so the sums are ordered
like the contributions (`MarkSummary.sum_bounds`); rounding to two places keeps it as well.

The checks do not see to it that marks are proper.  Whether an obtained mark is negative or exceeds
the total is asked by comparisons, which not-a-number passes, and infinity out of infinity passes
them too.  One such row spoils the mark; so a mark without issues is sane exactly if all marks are
proper (`MarkSummary.sane_iff`).
-/

namespace Abacus

open Binary64

/-! ### Assessments without problems -/

namespace Assessment

/-- The marks of an assessment are proper: the obtained ones are finite, and the total is a
number. -/
structure Proper (a : Assessment) : Prop where
  obtained_isFinite : a.obtained.isFinite = true
  total_isNumber : a.total.isNaN = false

theorem hasProblem_eq_false {a : Assessment} (h : a.problems = []) (p : Problem) :
    a.hasProblem p = false := by
  rw [problems, List.filter_eq_nil_iff] at h
  have hmem : p ∈ [Problem.missingName, .negativeObtained, .totalTooSmall, .weightageOutOfRange,
      .obtainedExceedsTotal] := by
    cases p <;> decide
  exact Bool.eq_false_iff.2 (h p hmem)

theorem weightage_bounds {a : Assessment} (h : a.problems = []) :
    0.0 ≤ a.weightage ∧ a.weightage ≤ 100.0 := by
  have hrange := hasProblem_eq_false h .weightageOutOfRange
  simpa [hasProblem] using hrange

theorem one_le_total {a : Assessment} (h : a.problems = []) (ht : a.total.isNaN = false) :
    1.0 ≤ a.total :=
  le_of_not_lt ht rfl (of_decide_eq_false (hasProblem_eq_false h .totalTooSmall))

theorem zero_le_obtained {a : Assessment} (h : a.problems = []) (ho : a.obtained.isNaN = false) :
    0.0 ≤ a.obtained :=
  le_of_not_lt ho rfl (of_decide_eq_false (hasProblem_eq_false h .negativeObtained))

theorem obtained_le_total {a : Assessment} (h : a.problems = []) (ho : a.obtained.isNaN = false)
    (ht : a.total.isNaN = false) : a.obtained ≤ a.total :=
  le_of_not_lt ht ho (of_decide_eq_false (hasProblem_eq_false h .obtainedExceedsTotal))

/-- The total of an assessment without problems is not zero. -/
theorem contribution_eq {a : Assessment} (h : a.problems = []) :
    a.contribution = a.obtained / a.total * a.weightage := by
  unfold contribution
  split_ifs with hzero
  · have ht := (isNaN_of_beq hzero).1
    have hone := number_le_of_le (one_le_total h ht)
    rw [(beq_iff_number_eq ht rfl).1 hzero, number_one] at hone
    exact absurd hone (by decide)
  · rfl

/-- **An assessment without problems contributes between nothing and its weightage**, if its marks
are proper. -/
theorem contribution_bounds {a : Assessment} (h : a.problems = []) (hp : a.Proper) :
    0.0 ≤ a.contribution ∧ a.contribution ≤ a.weightage := by
  have ho := isNaN_of_isFinite hp.obtained_isFinite
  obtain ⟨hquotient, hone⟩ := div_le_one hp.obtained_isFinite (zero_le_obtained h ho)
    (one_le_total h hp.total_isNumber) (obtained_le_total h ho hp.total_isNumber)
  obtain ⟨hweightage, hhundred⟩ := weightage_bounds h
  rw [contribution_eq h]
  exact mul_le_right hquotient hone hweightage
    (isFinite_of_le (c := 100.0) (by decide) hweightage hhundred)

/-- Marks that are not proper contribute not-a-number, though they have no problem. -/
theorem contribution_isNaN {a : Assessment} (h : a.problems = []) (hp : ¬ a.Proper) :
    a.contribution.isNaN = true := by
  rw [contribution_eq h]
  refine isNaN_mul (.inl ?_)
  by_cases ho : a.obtained.isNaN = true
  · exact isNaN_div (.inl ho)
  by_cases ht : a.total.isNaN = true
  · exact isNaN_div (.inr ht)
  rw [Bool.not_eq_true] at ho ht
  -- infinity was obtained, so the total is infinite too
  have hobtained := zero_le_obtained h ho
  have hle := obtained_le_total h ho ht
  have hfinite : ¬ a.obtained.isFinite = true := fun hfinite => hp ⟨hfinite, ht⟩
  have hfinite' : ¬ a.total.isFinite = true := fun htotal =>
    hfinite (isFinite_of_le htotal hobtained hle)
  exact isNaN_div_infinity (unpack_of_not_isFinite hobtained hfinite)
    (unpack_of_not_isFinite (zero_le_of_le hobtained hle) hfinite')

end Assessment

namespace MarkSummary

/-! ### Sums -/

/-- **Sums are ordered like what they add up.** -/
theorem sum_bounds {α : Type} {f g : α → Float} {l : List α}
    (h : ∀ a ∈ l, 0.0 ≤ f a ∧ f a ≤ g a) :
    0.0 ≤ sum (l.map f) ∧ sum (l.map f) ≤ sum (l.map g) := by
  -- the induction is on the terms, and starts from sums so far that are ordered
  have hfold : ∀ (x y : Float), 0.0 ≤ x → x ≤ y →
      0.0 ≤ (l.map f).foldl (· + ·) x ∧ (l.map f).foldl (· + ·) x ≤ (l.map g).foldl (· + ·) y := by
    induction l with
    | nil => exact fun x y hx hxy => ⟨hx, hxy⟩
    | cons a l ih =>
      intro x y hx hxy
      obtain ⟨ha, hle⟩ := h a List.mem_cons_self
      obtain ⟨hnonneg, hsum⟩ := add_mono hx ha hxy hle
      exact ih (fun b hb => h b (List.mem_cons_of_mem a hb)) _ _ hnonneg hsum
  exact hfold _ _ (by decide) (by decide)

/-- Not-a-number spoils every sum. -/
theorem sum_isNaN {xs : List Float} {x : Float} (hx : x ∈ xs) (h : x.isNaN = true) :
    (sum xs).isNaN = true := by
  have hkept : ∀ (ys : List Float) (y : Float), y.isNaN = true →
      (ys.foldl (· + ·) y).isNaN = true := by
    intro ys
    induction ys with
    | nil => exact fun y hy => hy
    | cons z ys ih => exact fun y hy => ih _ (isNaN_add (.inl hy))
  obtain ⟨ys, zs, rfl⟩ := List.append_of_mem hx
  rw [sum, List.foldl_append, List.foldl_cons]
  exact hkept zs _ (isNaN_add (.inr h))

/-! ### Rounding to two places -/

theorem number_hundred : number 100.0 = 100 := by
  decide +kernel

/-- A number up to a hundred can be scaled up by a hundred. -/
theorem isFinite_mul_hundred {x : Float} (hx : 0.0 ≤ x) (hle : x ≤ 100.0) :
    x.isFinite = true ∧ (x * 100.0).isFinite = true := by
  have hfinite : x.isFinite = true := isFinite_of_le (c := 100.0) (by decide) hx hle
  have hnonneg := (zero_le_iff.1 hx).2
  have hnumber := number_le_of_le hle
  rw [number_hundred] at hnumber
  have hscaled := isNearest_mul (g := 100.0) hfinite (by decide)
  refine ⟨hfinite, hscaled.isFinite (e := 14) (by norm_num) (by norm_num) ?_⟩
  rw [number_hundred, abs_of_nonneg (by positivity)]
  norm_num
  linarith

/-- **Rounding to two places keeps the order** of numbers up to a hundred. -/
theorem roundTo_mono {x y : Float} (hx : 0.0 ≤ x) (hxy : x ≤ y) (hy : y ≤ 100.0) :
    roundTo 100.0 x ≤ roundTo 100.0 y := by
  have hpos : 0 < number 100.0 := by
    rw [number_hundred]
    norm_num
  have hisNaN : ∀ {z : Float}, (z * 100.0).isFinite = true → (roundTo 100.0 z).isNaN = false :=
    fun hz => (isNearest_div (g := 100.0) (isFinite_nearest hz) (by decide) hpos.ne').isNumber
  obtain ⟨hfinite, hscaled⟩ := isFinite_mul_hundred hx (float_le_trans hxy hy)
  obtain ⟨hfinite', hscaled'⟩ := isFinite_mul_hundred (zero_le_of_le hx hxy) hy
  exact (le_iff_number_le (hisNaN hscaled) (hisNaN hscaled')).2
    (number_roundTo_le (by decide) hpos hfinite hscaled hfinite' hscaled' (number_le_of_le hxy))

/-! ### The summary -/

/-- A mark that can be presented: both totals are numbers, the mark lies between zero and the
greatest possible mark, and this is a hundred at most. -/
structure Sane (s : MarkSummary) : Prop where
  mark_isNumber : s.totalMark.isNaN = false
  weightage_isNumber : s.totalWeightage.isNaN = false
  mark_nonneg : 0.0 ≤ s.totalMark
  mark_le_weightage : s.totalMark ≤ s.totalWeightage
  weightage_le_hundred : s.totalWeightage ≤ 100.0

/-- Without issues no assessment has a problem, and the weightages add up to a hundred at most. -/
theorem of_isValid {rows : List Assessment} (h : (ofAssessments rows).isValid = true) :
    (∀ a ∈ rows, a.problems = []) ∧ ¬ 100.0 < sum (rows.map (·.weightage)) := by
  have hissues := List.append_eq_nil_iff.1 (List.isEmpty_iff.1 h)
  constructor
  · intro a ha
    obtain ⟨i, hi⟩ : ∃ i, (a, i) ∈ rows.zipIdx := by
      obtain ⟨i, hi, rfl⟩ := List.getElem_of_mem ha
      exact ⟨i, List.mk_mem_zipIdx_iff_getElem?.2 (List.getElem?_eq_getElem hi)⟩
    exact List.map_eq_nil_iff.1 (List.flatMap_eq_nil_iff.1 hissues.1 (a, i) hi)
  · intro hexceeded
    have hnil := hissues.2
    rw [if_pos hexceeded] at hnil
    cases hnil

/-- **A mark without issues is sane exactly if all marks are proper.** -/
theorem sane_iff {rows : List Assessment} (h : (ofAssessments rows).isValid = true) :
    (ofAssessments rows).Sane ↔ ∀ a ∈ rows, a.Proper := by
  obtain ⟨hproblems, hweightage⟩ := of_isValid h
  constructor
  · intro hsane a ha
    by_contra hp
    have hmark : (sum (rows.map (·.contribution))).isNaN = true :=
      sum_isNaN (x := a.contribution) (List.mem_map_of_mem ha)
        (Assessment.contribution_isNaN (hproblems a ha) hp)
    have hrounded : (ofAssessments rows).totalMark.isNaN = true := roundTo_isNaN hmark
    rw [hsane.mark_isNumber] at hrounded
    cases hrounded
  · intro hproper
    have hbounds : ∀ a ∈ rows, 0.0 ≤ a.contribution ∧ a.contribution ≤ a.weightage :=
      fun a ha => Assessment.contribution_bounds (hproblems a ha) (hproper a ha)
    obtain ⟨hnonneg, hle⟩ := sum_bounds hbounds
    have hhundred : sum (rows.map (·.weightage)) ≤ 100.0 :=
      le_of_not_lt (f := 100.0) rfl (isNaN_of_le hle).2 hweightage
    have hzero : (0.0 : Float) ≤ roundTo 100.0 0.0 := by decide
    have hmark := roundTo_mono (x := 0.0) (by decide) hnonneg (float_le_trans hle hhundred)
    have hordered := roundTo_mono hnonneg hle hhundred
    have htop := roundTo_mono (zero_le_of_le hnonneg hle) hhundred (by decide)
    have hlimit : roundTo 100.0 100.0 ≤ 100.0 := by decide
    exact ⟨(isNaN_of_le hordered).1, (isNaN_of_le hordered).2, float_le_trans hzero hmark,
      hordered, float_le_trans htop hlimit⟩

theorem sane_defaults :
    (ofAssessments Assessment.defaults).isValid = true ∧
      (ofAssessments Assessment.defaults).Sane := by
  have hvalid : (ofAssessments Assessment.defaults).isValid = true := by decide +kernel
  refine ⟨hvalid, (sane_iff hvalid).2 ?_⟩
  intro a ha
  simp only [Assessment.defaults, List.mem_cons, List.not_mem_nil, or_false] at ha
  rcases ha with rfl | rfl | rfl <;> exact ⟨by decide, by decide⟩

/-- An assessment whose obtained marks are not a number can be written on the command line, and the
mark that it makes is presented as final. -/
theorem valid_without_number :
    ∃ a, Assessment.parse "A:NaN/100@20" = .ok a ∧ (ofAssessments [a]).isValid = true ∧
      ¬ (ofAssessments [a]).Sane := by
  refine ⟨⟨"A", notANumber, 100.0, 20.0⟩, by rfl, by decide +kernel, ?_⟩
  intro hsane
  have hnumber := hsane.mark_isNumber
  revert hnumber
  decide +kernel

end MarkSummary

end Abacus
