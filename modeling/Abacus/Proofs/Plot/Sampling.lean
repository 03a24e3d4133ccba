import Abacus.Plot
import Abacus.Proofs.Binary64.Multiples

/-!
# Which samples a plot keeps

A plot does not look into the function it samples, which may have any number, an error or the name
of a function as its value at each place (`Plot.ofFunction`).  It keeps exactly the places with a
finite number (`Plot.Shows`), and there is a plot if these are two at least
(`Plot.sample_keeps_finite`).  Two facts on floats stand behind this: the places are computed without
rounding (`Plot.number_grid`), so they increase, and a finite value stays finite when it is rounded
(`Plot.isFinite_roundValue`).
-/

namespace Abacus

open Binary64

namespace Plot

/-! ### The places -/

/-- **The places are the numbers from minus ten to ten in steps of one half.** -/
theorem number_grid : grid.map number = (List.range 41).map fun i : Nat => (-10 + i / 2 : Rat) := by
  decide +kernel

theorem isFinite_of_mem_grid {x : Float} (h : x ∈ grid) : x.isFinite = true := by
  have hall : grid.all Float.isFinite = true := by decide +kernel
  exact List.all_eq_true.1 hall x h

theorem lt_iff_of_mem_grid {x y : Float} (hx : x ∈ grid) (hy : y ∈ grid) :
    x < y ↔ number x < number y :=
  lt_iff_number_lt (isNaN_of_isFinite (isFinite_of_mem_grid hx))
    (isNaN_of_isFinite (isFinite_of_mem_grid hy))

theorem grid_sorted : grid.Pairwise (· < ·) := by
  have hnumber : (grid.map number).Pairwise (· < ·) := by
    rw [number_grid, List.pairwise_map]
    refine List.pairwise_lt_range.imp fun {i j} hij => ?_
    have hcast : (i : Rat) < j := by exact_mod_cast hij
    linarith
  rw [List.pairwise_map] at hnumber
  refine hnumber.imp_of_mem fun hx hy hxy => ?_
  exact (lt_iff_of_mem_grid hx hy).2 hxy

theorem grid_nodup : grid.Nodup := by
  refine grid_sorted.imp_of_mem fun hx hy hxy => ?_
  rintro rfl
  exact lt_irrefl _ ((lt_iff_of_mem_grid hx hx).1 hxy)

theorem one_mem_grid : 1.0 ∈ grid :=
  List.mem_map.2 ⟨22, by decide, by decide +kernel⟩

/-! ### Rounding -/

theorem number_tenThousand : number 10000.0 = 10000 := by
  decide +kernel

/-- **Rounding to four places keeps a value finite**, also one that is too large to be scaled. -/
theorem isFinite_roundValue {y : Float} (h : y.isFinite = true) :
    (roundValue y).isFinite = true := by
  unfold roundValue
  split_ifs with hscaled
  · refine isFinite_roundTo (by decide) ?_ hscaled
    rw [number_tenThousand]
    norm_num
  · exact h

/-! ### Sampling a function -/

variable {f : Float → Evaluation Value}

/-- The plot of a function, which need not be spelled by a text. -/
def ofFunction (label : String) (f : Float → Evaluation Value) : Except CalcError Plot :=
  ofSamples label (grid.map fun x => ⟨x, f x⟩)

/-- The finite number that a function has as its value at a place. -/
def finiteValue? (f : Float → Evaluation Value) (x : Float) : Option Float :=
  match (f x).result with
  | .ok (.number y) => if y.isFinite then some y else none
  | _ => none

/-- The places where a function has a finite number as its value. -/
def finitePlaces (f : Float → Evaluation Value) : List Float :=
  grid.filter fun x => (finiteValue? f x).isSome

theorem finiteValue?_eq_some_iff {x y : Float} :
    finiteValue? f x = some y ↔ (f x).result = .ok (.number y) ∧ y.isFinite = true := by
  unfold finiteValue?
  split
  · next v hv =>
    rw [hv]
    split_ifs with hfinite
    · constructor
      · rintro ⟨rfl⟩
        exact ⟨rfl, hfinite⟩
      · rintro ⟨⟨rfl⟩, -⟩
        rfl
    · constructor
      · intro h
        cases h
      · rintro ⟨⟨rfl⟩, h⟩
        exact absurd h hfinite
  · next hnone =>
    constructor
    · intro h
      cases h
    · rintro ⟨h, -⟩
      exact absurd h (hnone y)

theorem point?_mk (f : Float → Evaluation Value) (x : Float) :
    Sample.point? ⟨x, f x⟩ = (finiteValue? f x).map fun y => ⟨x, roundValue y⟩ := by
  unfold Sample.point? finiteValue?
  cases (f x).result with
  | error e => rfl
  | ok v =>
    cases v with
    | function name => rfl
    | number y =>
      dsimp only
      split_ifs <;> rfl

/-- The points of a function at the places where it has a finite number as its value. -/
def finitePoints (f : Float → Evaluation Value) : List Point :=
  grid.filterMap fun x => (finiteValue? f x).map fun y => ⟨x, roundValue y⟩

theorem map_x_finitePoints (f : Float → Evaluation Value) :
    (finitePoints f).map (·.x) = finitePlaces f := by
  unfold finitePoints finitePlaces
  rw [List.map_filterMap, ← List.filterMap_eq_filter]
  congr 1
  funext x
  cases h : finiteValue? f x <;> simp [Option.guard, h]

theorem mem_finitePoints {q : Point} :
    q ∈ finitePoints f ↔ q.x ∈ grid ∧ ∃ v, finiteValue? f q.x = some v ∧ q.y = roundValue v := by
  unfold finitePoints
  rw [List.mem_filterMap]
  constructor
  · rintro ⟨x, hx, hq⟩
    obtain ⟨v, hv, rfl⟩ := Option.map_eq_some_iff.1 hq
    exact ⟨hx, v, hv, rfl⟩
  · rintro ⟨hx, v, hv, hy⟩
    exact ⟨q.x, hx, Option.map_eq_some_iff.2 ⟨v, hv, by rw [← hy]⟩⟩

theorem ofFunction_eq (label : String) (f : Float → Evaluation Value) :
    ofFunction label f = if (finitePlaces f).length < 2 then .error .notEnoughPoints
      else .ok ⟨label, finitePoints f⟩ := by
  have hpoints : (grid.map fun x => (⟨x, f x⟩ : Sample)).filterMap Sample.point? =
      finitePoints f := by
    rw [List.filterMap_map]
    exact List.filterMap_congr fun x _ => point?_mk f x
  rw [← map_x_finitePoints, List.length_map]
  unfold ofFunction ofSamples
  rw [hpoints]
  rfl

theorem ofFunction_eq_ok_iff {label : String} {p : Plot} :
    ofFunction label f = .ok p ↔ 2 ≤ (finitePlaces f).length ∧ p = ⟨label, finitePoints f⟩ := by
  rw [ofFunction_eq]
  split_ifs with hfew
  · constructor
    · intro h
      cases h
    · rintro ⟨h, -⟩
      omega
  · constructor
    · rintro ⟨rfl⟩
      exact ⟨not_lt.1 hfew, rfl⟩
    · rintro ⟨-, rfl⟩
      rfl

/-- Only points may be lacking. -/
theorem ofFunction_eq_error_iff {label : String} {e : CalcError} :
    ofFunction label f = .error e ↔ (finitePlaces f).length < 2 ∧ e = .notEnoughPoints := by
  rw [ofFunction_eq]
  split_ifs with hfew
  · constructor
    · rintro ⟨rfl⟩
      exact ⟨hfew, rfl⟩
    · rintro ⟨-, rfl⟩
      rfl
  · constructor
    · intro h
      cases h
    · rintro ⟨h, -⟩
      exact absurd h hfew

/-- A plot shows a function under a label. -/
structure Shows (p : Plot) (label : String) (f : Float → Evaluation Value) : Prop where
  label_eq : p.label = label
  places_eq : p.points.map (·.x) = finitePlaces f
  value_eq : ∀ q ∈ p.points, ∃ v, finiteValue? f q.x = some v ∧ q.y = roundValue v
  sorted : (p.points.map (·.x)).Pairwise (· < ·)
  nodup : (p.points.map (·.x)).Nodup
  isFinite : ∀ q ∈ p.points, q.y.isFinite = true

theorem shows_finitePoints (label : String) (f : Float → Evaluation Value) :
    Shows ⟨label, finitePoints f⟩ label f where
  label_eq := rfl
  places_eq := map_x_finitePoints f
  value_eq := fun _ hq => (mem_finitePoints.1 hq).2
  sorted := map_x_finitePoints f ▸ grid_sorted.sublist List.filter_sublist
  nodup := map_x_finitePoints f ▸ grid_nodup.sublist List.filter_sublist
  isFinite := by
    intro q hq
    obtain ⟨-, v, hv, hy⟩ := mem_finitePoints.1 hq
    rw [hy]
    exact isFinite_roundValue (finiteValue?_eq_some_iff.1 hv).2

/-! ### Sampling a text -/

theorem sample_of_parse {text : String} {c : Calculation} (label : String)
    (h : Calculation.parse text = .ok c) :
    sample label text = ofFunction label fun x => c.eval [(graphVariable, x)] := by
  unfold sample
  rw [h]
  rfl

theorem sample_eq_invalidFunction_iff {label text : String} {e : ParseError} :
    sample label text = .error (.invalidFunction e) ↔ Calculation.parse text = .error e := by
  cases h : Calculation.parse text with
  | error err =>
    unfold sample
    rw [h]
    constructor
    · rintro ⟨rfl⟩
      rfl
    · rintro ⟨rfl⟩
      rfl
  | ok c =>
    rw [sample_of_parse label h]
    constructor
    · intro hinvalid
      cases (ofFunction_eq_error_iff.1 hinvalid).2
    · intro hparse
      cases hparse

/-- **The sampler keeps exactly the finite samples.**  Whatever function is sampled, there is a plot
if and only if it has a finite number as its value at two places at least; the plot then shows the
function, and otherwise points are lacking.  The function of a text is its calculation, and only a
text that is no calculation is an invalid function. -/
theorem sample_keeps_finite (label : String) :
    (∀ f : Float → Evaluation Value,
      ((∃ p, ofFunction label f = .ok p) ↔ 2 ≤ (finitePlaces f).length) ∧
      (∀ p, ofFunction label f = .ok p → p.Shows label f) ∧
      ∀ e, ofFunction label f = .error e ↔ (finitePlaces f).length < 2 ∧ e = .notEnoughPoints) ∧
    (∀ text c, Calculation.parse text = .ok c →
      sample label text = ofFunction label fun x => c.eval [(graphVariable, x)]) ∧
    (∀ text e, sample label text = .error (.invalidFunction e) ↔
      Calculation.parse text = .error e) ∧
    grid.map number = (List.range 41).map fun i : Nat => (-10 + i / 2 : Rat) := by
  refine ⟨fun f => ⟨?_, ?_, fun e => ofFunction_eq_error_iff⟩,
    fun text c h => sample_of_parse label h, fun text e => sample_eq_invalidFunction_iff,
    number_grid⟩
  · constructor
    · rintro ⟨p, hp⟩
      exact (ofFunction_eq_ok_iff.1 hp).1
    · intro htwo
      exact ⟨_, ofFunction_eq_ok_iff.2 ⟨htwo, rfl⟩⟩
  · intro p hp
    obtain ⟨-, rfl⟩ := ofFunction_eq_ok_iff.1 hp
    exact shows_finitePoints label f

/-- The plot of the variable itself has a point at each place. -/
theorem sample_variable :
    ∃ c p, Calculation.parse "x" = .ok c ∧ sample "y = x" "x" = .ok p ∧
      p.Shows "y = x" (fun x => c.eval [(graphVariable, x)]) ∧ p.points.map (·.x) = grid := by
  obtain ⟨hfunction, htext, -, -⟩ := sample_keeps_finite "y = x"
  have hparse : Calculation.parse "x" = .ok (.expression (.call "x" [])) := by rfl
  obtain ⟨f, hf⟩ : ∃ f : Float → Evaluation Value, f = fun x =>
      (Calculation.expression (.call "x" [])).eval [(graphVariable, x)] := ⟨_, rfl⟩
  have hplaces : finitePlaces f = grid := by
    refine List.filter_eq_self.2 fun x hx => ?_
    have hvalue : finiteValue? f x = some x :=
      finiteValue?_eq_some_iff.2 ⟨by rw [hf]; rfl, isFinite_of_mem_grid hx⟩
    rw [hvalue]
    rfl
  obtain ⟨hexists, hshows, -⟩ := hfunction f
  obtain ⟨p, hp⟩ := hexists.2 (by rw [hplaces]; decide)
  refine ⟨_, p, hparse, ?_, hf ▸ hshows p hp, (hshows p hp).places_eq.trans hplaces⟩
  rw [htext "x" _ hparse, ← hf]
  exact hp

end Plot

end Abacus
