import Abacus.Proofs.Evaluator.Graphs

/-!
# The two ways of looking for the variable

The variable is found anywhere in a text, or only where it stands alone.  Whatever is found in the
second way is found in the first way too (`VariableMatch.looksGraphable_of_token`), and the way
matters for one thing only, whether a question asks for a plot.  So if a question has two different
outcomes, it is plotted in the first way and calculated in the second way
(`Question.outcome_token_or`).  It is not the bare name of a function then, as the probe has found a
number.

Evaluators that differ in the way of looking, but not in their records, therefore differ after a
submission only in plots of the first one (`Evaluator.plotted_of_differs`).
-/

namespace Abacus

namespace VariableMatch

variable {key : String}

theorem mentions_token_iff : token.mentions key = true ↔ Text.OccursAlone 'x' key.toList :=
  Text.standsAlone_iff_occursAlone

theorem mentions_substring_iff : substring.mentions key = true ↔ 'x' ∈ key.toList :=
  List.contains_iff_mem

theorem mentions_of_token (h : token.mentions key = true) : substring.mentions key = true := by
  obtain ⟨before, after, hkey, -, -⟩ := mentions_token_iff.1 h
  rw [mentions_substring_iff, hkey]
  exact List.mem_append_right before List.mem_cons_self

theorem looksGraphable_of_token (h : token.looksGraphable key = true) :
    substring.looksGraphable key = true := by
  obtain ⟨hmentions, hmatrix⟩ := Bool.and_eq_true_iff.1 h
  exact Bool.and_eq_true_iff.2 ⟨mentions_of_token hmentions, hmatrix⟩

/-- The ways differ on a text that has the variable in words only. -/
theorem of_looksGraphable_ne (h : token.looksGraphable key ≠ substring.looksGraphable key) :
    substring.looksGraphable key = true ∧ token.looksGraphable key = false ∧
      'x' ∈ key.toList ∧ ¬ Text.OccursAlone 'x' key.toList := by
  cases htoken : token.looksGraphable key with
  | true => exact absurd (htoken.trans (looksGraphable_of_token htoken).symm) h
  | false =>
    have hsubstring : substring.looksGraphable key = true := by
      rw [htoken] at h
      exact eq_true_of_ne_false h.symm
    obtain ⟨hmentions, hmatrix⟩ := Bool.and_eq_true_iff.1 hsubstring
    refine ⟨hsubstring, rfl, mentions_substring_iff.1 hmentions, fun halone => ?_⟩
    rw [looksGraphable, mentions_token_iff.2 halone, hmatrix] at htoken
    cases htoken

end VariableMatch

namespace Question

open Calculation

variable {q : Question} {precision : Nat}

/-- A text that has a number as its value where the variable is one is not incomplete. -/
theorem valueOutcome_ne_incomplete (h : HasNumber [(graphVariable, 1.0)] q.normalized)
    (input : String) : q.valueOutcome precision ≠ .incomplete input := by
  obtain ⟨c, v, hparse, hv⟩ := h
  rw [valueOutcome, hparse]
  dsimp only
  cases hresult : (c.eval []).result with
  | error err => exact Outcome.noConfusion
  | ok value =>
    cases value with
    | number w => exact Outcome.noConfusion
    | function name =>
      rw [result_eval_one c hresult] at hv
      cases hv

theorem valueOutcome_ne_canned (input reply : String) :
    q.valueOutcome precision ≠ .canned input reply := by
  unfold valueOutcome
  split
  · exact Outcome.noConfusion
  · split <;> exact Outcome.noConfusion

theorem valueOutcome_ne_graph (input : String) (plot : Except CalcError Plot) :
    q.valueOutcome precision ≠ .graph input plot := by
  unfold valueOutcome
  split
  · exact Outcome.noConfusion
  · split <;> exact Outcome.noConfusion

/-- The way of looking for the variable counts only if it decides whether to plot. -/
theorem outcome_token_or (q : Question) (precision : Nat) :
    q.outcome .token precision = q.outcome .substring precision ∨
      'x' ∈ q.key.toList ∧ ¬ Text.OccursAlone 'x' q.key.toList ∧
        HasNumber [(graphVariable, 1.0)] q.normalized ∧
        q.outcome .token precision = q.valueOutcome precision ∧
        q.outcome .substring precision = .graph q.typed (Plot.sample q.typed q.normalized) := by
  unfold outcome
  split
  · exact .inl rfl
  · cases reply? q.key with
    | some reply => exact .inl rfl
    | none =>
      dsimp only
      by_cases hasks : q.asksForGraph .token = q.asksForGraph .substring
      · exact .inl (by rw [hasks])
      · -- both ways come to the same probe, so they differ in what looks like a function
        have hlooks : VariableMatch.token.looksGraphable q.key ≠
            VariableMatch.substring.looksGraphable q.key := by
          intro h
          exact hasks (by rw [asksForGraph, asksForGraph, h])
        obtain ⟨hsubstring, htoken, hmem, halone⟩ := VariableMatch.of_looksGraphable_ne hlooks
        simp only [asksForGraph, hsubstring, htoken, Bool.true_and, Bool.false_and] at hasks ⊢
        have hprobe : (Evaluator.probe q.normalized).value = true :=
          eq_true_of_ne_false (Ne.symm hasks)
        rw [hprobe]
        exact .inr ⟨hmem, halone, Evaluator.value_probe.1 hprobe, rfl, rfl⟩

end Question

namespace Evaluator

/-- The same outcome has the same effects on the same records. -/
theorem Answers.agree {e f : Evaluator} {x y : Traced (Evaluator × Outcome)} {outcome : Outcome}
    (hx : e.Answers x outcome) (hy : f.Answers y outcome) (h : e.records = f.records) :
    x.value.2 = y.value.2 ∧ x.value.1.records = y.value.1.records ∧ x.saves = y.saves := by
  refine ⟨hx.outcome_eq.trans hy.outcome_eq.symm, ?_, ?_⟩
  · rw [hx.records_eq, hy.records_eq, h]
  · rw [hx.saves_eq, hy.saves_eq, h]

/-- **The way of looking for the variable only decides between plotting and calculating.**  Let two
evaluators have the same records, as they have when they are loaded from the same store, and let one
look for the variable standing alone and the other one anywhere.  What the first one plots the second
one plots in the same way.  If their outcomes differ, or their histories afterwards, or what they
save, then the second one plots, the text has the variable in words only, and the first one gives a
value or an error. -/
theorem plotted_of_differs {e f : Evaluator} (he : e.variableMatch = .token)
    (hf : f.variableMatch = .substring) (hrecords : e.records = f.records) (now : Nat)
    (text : String) :
    let x := e.submit now text
    let y := f.submit now text
    let key := (Question.ofText text).key.toList
    (∀ input plot, x.value.2 = .graph input plot → y.value.2 = .graph input plot) ∧
      (x.value.2 ≠ y.value.2 ∨ x.value.1.history ≠ y.value.1.history ∨ x.saves ≠ y.saves →
        (∃ input plot, y.value.2 = .graph input plot) ∧
          ('x' ∈ key ∧ ¬ Text.OccursAlone 'x' key) ∧
          (∀ input plot, x.value.2 ≠ .graph input plot) ∧
          (∀ input reply, x.value.2 ≠ .canned input reply) ∧
          ∀ input, x.value.2 ≠ .incomplete input) := by
  intro x y key
  have hprecision : f.precision = e.precision := congrArg Records.precision hrecords.symm
  have hx : e.Answers x _ := e.answers_submit now text
  have hy : f.Answers y _ := f.answers_submit now text
  clear_value x y
  rw [he] at hx
  rw [hf, hprecision] at hy
  obtain hsame | ⟨hmem, halone, hnumber, htoken, hsubstring⟩ :=
    (Question.ofText text).outcome_token_or e.precision
  · rw [hsame] at hx
    obtain ⟨houtcome, hafter, hsaves⟩ := hx.agree hy hrecords
    refine ⟨fun input plot h => houtcome.symm.trans h, ?_⟩
    rintro (h | h | h)
    · exact absurd houtcome h
    · exact absurd (congrArg Records.history hafter) h
    · exact absurd hsaves h
  · have hvalue : x.value.2 = (Question.ofText text).valueOutcome e.precision :=
      hx.outcome_eq.trans htoken
    have hgraph := hy.outcome_eq.trans hsubstring
    rw [hvalue]
    refine ⟨fun input plot h => absurd h (Question.valueOutcome_ne_graph input plot),
      fun _ => ⟨⟨_, _, hgraph⟩, ⟨hmem, halone⟩, Question.valueOutcome_ne_graph,
        Question.valueOutcome_ne_canned, Question.valueOutcome_ne_incomplete hnumber⟩⟩

/-- The greater of two numbers, whose function has the variable in its name. -/
theorem plotted_max :
    let e := (load .token 5000 fun _ => none).value
    let f := (load .substring 5000 fun _ => none).value
    let x := e.submit 0 "max(3, 7)"
    let y := f.submit 0 "max(3, 7)"
    x.value.1.history = [⟨"max(3, 7)", "7"⟩] ∧ y.value.1.history = [⟨"max(3, 7)", "[Graph]"⟩] ∧
      (∃ input plot, y.value.2 = .graph input plot) ∧
      ¬ Text.OccursAlone 'x' (Question.ofText "max(3, 7)").key.toList := by
  intro e f x y
  have hx : x.value.1.history = [⟨"max(3, 7)", "7"⟩] := by decide +kernel
  have hy : y.value.1.history = [⟨"max(3, 7)", "[Graph]"⟩] := by decide +kernel
  have hne : x.value.1.history ≠ y.value.1.history := by
    rw [hx, hy]
    decide
  have he : e.variableMatch = .token := rfl
  have hf : f.variableMatch = .substring := rfl
  obtain ⟨-, hdiffers⟩ := plotted_of_differs he hf rfl 0 "max(3, 7)"
  obtain ⟨hgraph, ⟨-, halone⟩, -⟩ := hdiffers (.inr (.inl hne))
  exact ⟨hx, hy, hgraph, halone⟩

end Evaluator

end Abacus
