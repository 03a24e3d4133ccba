import Abacus.Proofs.Evaluator.Classification
import Abacus.Proofs.Plot.Sampling

/-!
# The probe and the plot agree

Before a text is plotted its value at one is probed.  The plot samples the same calculation again,
and one is among the places; so a text that is plotted is never an invalid function, and a finite
value that the probe has seen is a point of the plot.  If there is no plot although the probe has
seen a finite value, then this is the only place with one (`Evaluator.graph_agrees_with_probe`).
-/

namespace Abacus

namespace Question

/-- A plot is the outcome only after the probe has found a number. -/
theorem of_outcome_eq_graph {mode : VariableMatch} {precision : Nat} {q : Question} {input : String}
    {plot : Except CalcError Plot} (h : q.outcome mode precision = .graph input plot) :
    Calculation.HasNumber [(graphVariable, 1.0)] q.normalized ∧
      input = q.typed ∧ plot = Plot.sample q.typed q.normalized := by
  unfold outcome at h
  split_ifs at h with hempty hgraph
  · cases hreply : reply? q.key with
    | some reply =>
      rw [hreply] at h
      cases h
    | none =>
      rw [hreply] at h
      cases h
      have hprobe := (Bool.and_eq_true_iff.1 hgraph).2
      exact ⟨Evaluator.value_probe.1 hprobe, rfl, rfl⟩
  · unfold valueOutcome at h
    split at h
    · cases h
    · split at h
      · cases h
      · split at h <;> cases h

end Question

namespace Plot

variable {f : Float → Evaluation Value}

theorem mem_finitePlaces {x : Float} :
    x ∈ finitePlaces f ↔ x ∈ grid ∧ ∃ y, finiteValue? f x = some y := by
  unfold finitePlaces
  rw [List.mem_filter, Option.isSome_iff_exists]

/-- Two places with finite values are enough for a plot. -/
theorem two_le_length_finitePlaces {x y : Float} (hx : x ∈ finitePlaces f)
    (hy : y ∈ finitePlaces f) (hne : x ≠ y) : 2 ≤ (finitePlaces f).length := by
  have hsubset : [x, y] ⊆ finitePlaces f := by
    simp [hx, hy]
  have hnodup : [x, y].Nodup := by simpa using hne
  exact (List.subperm_of_subset hnodup hsubset).length_le

end Plot

namespace Evaluator

open Calculation Plot

/-- **The probe and the plot agree.** -/
theorem graph_agrees_with_probe (e : Evaluator) (now : Nat) (text : String) {input : String}
    {plot : Except CalcError Plot} (h : (e.submit now text).value.2 = .graph input plot) :
    ((∃ p, plot = .ok p ∧ p.label = Text.trim text) ∨ plot = .error .notEnoughPoints) ∧
      ∃ c v, Calculation.parse (Question.ofText text).normalized = .ok c ∧
        (c.eval [(graphVariable, 1.0)]).result = .ok (.number v) ∧
        (v.isFinite = true →
          (∀ p, plot = .ok p → ⟨1.0, roundValue v⟩ ∈ p.points) ∧
          ∀ err, plot = .error err → ∀ x ∈ grid, x ≠ 1.0 → ∀ y,
            (c.eval [(graphVariable, x)]).result = .ok (.number y) → y.isFinite = false) := by
  rw [(e.answers_submit now text).outcome_eq] at h
  obtain ⟨⟨c, v, hparse, hv⟩, -, rfl⟩ := Question.of_outcome_eq_graph h
  rw [sample_of_parse _ hparse]
  obtain ⟨f, hf⟩ : ∃ f : Float → Evaluation Value, f = fun x => c.eval [(graphVariable, x)] :=
    ⟨_, rfl⟩
  rw [← hf]
  refine ⟨?_, c, v, hparse, hv, fun hfinite => ?_⟩
  · cases hplot : ofFunction (Question.ofText text).typed f with
    | ok p => exact .inl ⟨p, rfl, by rw [(ofFunction_eq_ok_iff.1 hplot).2]; rfl⟩
    | error err => exact .inr (by rw [(ofFunction_eq_error_iff.1 hplot).2])
  have hone : finiteValue? f 1.0 = some v := finiteValue?_eq_some_iff.2 ⟨hf ▸ hv, hfinite⟩
  constructor
  · intro p hp
    obtain ⟨-, rfl⟩ := ofFunction_eq_ok_iff.1 hp
    exact mem_finitePoints.2 ⟨one_mem_grid, v, hone, rfl⟩
  · intro err herr x hx hne y hy
    have hfew := (ofFunction_eq_error_iff.1 herr).1
    -- a second finite value would make a plot
    by_contra hyfinite
    rw [Bool.not_eq_false] at hyfinite
    have hplace : x ∈ finitePlaces f :=
      mem_finitePlaces.2 ⟨hx, y, finiteValue?_eq_some_iff.2 ⟨hf ▸ hy, hyfinite⟩⟩
    have htwo := two_le_length_finitePlaces hplace
      (mem_finitePlaces.2 ⟨one_mem_grid, v, hone⟩) hne
    omega

/-- The text `x` is plotted, with its value at one among the points. -/
theorem graph_of_variable :
    ∃ plot, (({} : Evaluator).submit 0 " x ").value.2 = .graph "x" plot ∧
      ∀ p, plot = .ok p → ⟨1.0, roundValue 1.0⟩ ∈ p.points := by
  have hquestion : Question.ofText " x " = ⟨"x", "x", "x"⟩ := by decide +kernel
  have hgraph : (({} : Evaluator).submit 0 " x ").value.2 = .graph "x" (Plot.sample "x" "x") := by
    rw [(({} : Evaluator).answers_submit 0 " x ").outcome_eq, hquestion]
    rfl
  obtain ⟨-, c, v, hparse, hv, hfinite⟩ := graph_agrees_with_probe {} 0 " x " hgraph
  have hparse' : Calculation.parse (Question.ofText " x ").normalized =
      .ok (.expression (.call "x" [])) := by
    rw [hquestion]
    rfl
  rw [hparse'] at hparse
  cases hparse
  have hone : v = 1.0 := by
    cases hv
    rfl
  subst hone
  exact ⟨_, hgraph, (hfinite (by decide)).1⟩

end Evaluator

end Abacus
