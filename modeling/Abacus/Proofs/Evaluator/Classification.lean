import Abacus.Proofs.Evaluator.Submission
import Abacus.Proofs.Expression.Extension
import Abacus.Proofs.Text.Blank

/-!
# Plots, values and errors

A text that looks like a function of the variable is plotted, or it is the bare name of a function,
or it is an error; it never has a plain value (`Evaluator.outcome_submit_of_looksGraphable`).  For a
value is computed without variables, and so it would be the value at one too, where the question is
whether to plot (`Calculation.result_eval_one`).

The engine trims the text it is given.  The text of a question has no blanks at its ends
(`Question.trim_normalized`), so that a bare name is the whole text.
-/

namespace Abacus

/-! ### Root signs -/

namespace Root

open Text

theorem headUnblank_spellOut {cs : List Char} (h : HeadUnblank cs) :
    HeadUnblank (spellOut cs) := by
  fun_cases spellOut cs with
  | case1 => exact h
  | case2 | case3 =>
    rintro c ⟨rfl⟩
    rfl
  | case4 c rest =>
    rintro d ⟨rfl⟩
    exact h _ rfl

theorem spellOut_ne_nil {cs : List Char} (h : cs ≠ []) : spellOut cs ≠ [] := by
  fun_cases spellOut cs with
  | case1 => exact h
  | case2 | case3 | case4 => simp

/-- A text that is spelled out ends with the last character of the text itself, or with a bracket
or a letter that was put in. -/
theorem lastUnblank_spellOut {cs : List Char} (h : LastUnblank cs) :
    LastUnblank (spellOut cs) := by
  fun_induction spellOut cs with
  | case1 => exact h
  | case2 rest after n hn ih =>
    refine LastUnblank.append ?_ (ih (h.suffix (List.suffix_cons _ _)))
    rintro c ⟨rfl⟩
    rfl
  | case3 rest after n hn ih =>
    have hsuffix : after.drop n <:+ '√' :: rest :=
      ((List.drop_suffix n after).trans (List.dropWhile_suffix _)).trans (List.suffix_cons _ _)
    rw [List.append_cons]
    refine LastUnblank.append ?_ (ih (h.suffix hsuffix))
    unfold LastUnblank
    rw [List.getLast?_concat]
    rintro c ⟨rfl⟩
    rfl
  | case4 c rest hc ih =>
    -- the character is the last one only if nothing comes after it
    cases rest with
    | nil => rwa [spellOut]
    | cons d ds =>
      obtain ⟨e, es, hes⟩ := List.exists_cons_of_ne_nil (spellOut_ne_nil (List.cons_ne_nil d ds))
      have hlast := ih (h.suffix (List.suffix_cons _ _))
      rw [hes] at hlast ⊢
      unfold LastUnblank at hlast ⊢
      rwa [List.getLast?_cons_cons]

end Root

namespace Question

/-- The engine takes the text of a question as it is. -/
theorem trim_normalized (text : String) :
    Text.trim (ofText text).normalized = (ofText text).normalized := by
  have hunblank := Text.trimChars_of_unblank
    (Root.headUnblank_spellOut (Text.headUnblank_trimChars text.toList))
    (Root.lastUnblank_spellOut (Text.lastUnblank_trimChars text.toList))
  simp only [ofText, Text.trim, String.toList_ofList, hunblank]

/-- An empty text does not look like a function. -/
theorem typed_ne_empty {mode : VariableMatch} {text : String}
    (hlook : mode.looksGraphable (ofText text).key = true) : (ofText text).typed ≠ "" := by
  intro htyped
  have hnil : Text.trimChars text.toList = [] := String.ofList_eq_empty_iff.1 htyped
  have hkey : (ofText text).key = "" := by
    simp only [ofText, hnil, Root.spellOut]
    decide +kernel
  rw [hkey] at hlook
  revert hlook
  cases mode <;> decide +kernel

/-- No phrase with a fixed reply looks like a function. -/
theorem reply?_eq_none {mode : VariableMatch} {key : String}
    (hlook : mode.looksGraphable key = true) : reply? key = none := by
  cases hreply : reply? key with
  | none => rfl
  | some reply =>
    have hphrases : ∀ p ∈ replies, mode.looksGraphable p.1 = false := by
      cases mode <;> decide +kernel
    obtain ⟨before, after, hmem, -⟩ := List.lookup_eq_some_iff.1 hreply
    have hphrase := hphrases (key, reply) (by simp [hmem])
    rw [hlook] at hphrase
    cases hphrase

end Question

/-! ### Calculations -/

namespace Calculation

/-- A text is the bare name of a function, an expression, or an error. -/
theorem parse_cases (text : String) :
    (Text.trim text ∈ functionNames ∧ parse text = .ok (.bareFunction (Text.trim text))) ∨
      (Text.trim text ∉ functionNames ∧
        ((∃ e, parse text = .ok (.expression e)) ∨ ∃ err, parse text = .error err)) := by
  by_cases hname : Text.trim text ∈ functionNames
  · refine .inl ⟨hname, ?_⟩
    rw [parse, if_pos (List.contains_iff_mem.2 hname)]
  · refine .inr ⟨hname, ?_⟩
    rw [parse, if_neg (mt List.contains_iff_mem.1 hname)]
    cases Expr.parse (Text.trim text) with
    | ok e => exact .inl ⟨e.reduce, rfl⟩
    | error err => exact .inr ⟨err, rfl⟩

/-- Whether the text of a calculation has a number as its value in a scope. -/
def HasNumber (scope : Scope) (text : String) : Prop :=
  ∃ c v, parse text = .ok c ∧ (c.eval scope).result = .ok (.number v)

theorem result_eval_expression_ne (scope : Scope) (e : Reduced) (name : String) :
    ((expression e).eval scope).result ≠ .ok (.function name) := by
  intro h
  change (Evaluation.bind (e.eval scope.toLookup) fun v => Evaluation.ok (Value.number v)).result =
    .ok (.function name) at h
  unfold Evaluation.bind at h
  cases hresult : (e.eval scope.toLookup).result <;> simp [hresult, Evaluation.ok] at h

/-- **A value without variables is the value at one too.** -/
theorem result_eval_one (c : Calculation) {v : Value} (h : (c.eval []).result = .ok v) :
    (c.eval [(graphVariable, 1.0)]).result = .ok v := by
  refine (persists_eval ?_ c).result_eq h
  intro p hp
  rw [List.mem_singleton.1 hp]
  rfl

theorem HasNumber.notMem_functionNames {scope : Scope} {text : String}
    (h : HasNumber scope text) : Text.trim text ∉ functionNames := by
  obtain ⟨c, v, hparse, hresult⟩ := h
  intro hname
  obtain ⟨-, hbare⟩ | ⟨hnot, -⟩ := parse_cases text
  · rw [hbare] at hparse
    cases hparse
    cases hresult
  · exact hnot hname

end Calculation

namespace Evaluator

open Calculation

theorem value_probe {text : String} :
    (probe text).value = true ↔ HasNumber [(graphVariable, 1.0)] text := by
  unfold probe HasNumber
  cases parse text with
  | error err => simp [Traced.ok]
  | ok c =>
    cases h : (c.eval [(graphVariable, 1.0)]).result with
    | error err => simp [h]
    | ok v => cases v <;> simp [h]

/-- What becomes of a text that looks like a function. -/
theorem outcome_cases {mode : VariableMatch} {text : String} (precision : Nat)
    (hlook : mode.looksGraphable (Question.ofText text).key = true) :
    let q := Question.ofText text
    let outcome := q.outcome mode precision
    let hasNumber := HasNumber [(graphVariable, 1.0)] q.normalized
    let isBare := q.normalized ∈ functionNames
    (hasNumber ∧ ¬ isBare ∧ outcome = .graph q.typed (Plot.sample q.typed q.normalized)) ∨
      (¬ hasNumber ∧ isBare ∧ outcome = .incomplete q.typed) ∨
      (¬ hasNumber ∧ ¬ isBare ∧ ∃ err, outcome = .error q.typed err) := by
  intro q outcome hasNumber isBare
  have hreply : reply? q.key = none := Question.reply?_eq_none hlook
  have houtcome : outcome = if (probe q.normalized).value = true
      then .graph q.typed (Plot.sample q.typed q.normalized)
      else q.valueOutcome precision := by
    simp only [outcome, Question.outcome, if_neg (Question.typed_ne_empty hlook), hreply,
      Question.asksForGraph, hlook, Bool.true_and, q]
  rw [houtcome]
  by_cases hnumber : hasNumber
  · rw [if_pos (value_probe.2 hnumber)]
    have hbare := hnumber.notMem_functionNames
    rw [Question.trim_normalized] at hbare
    exact .inl ⟨hnumber, hbare, rfl⟩
  · rw [if_neg (mt value_probe.1 hnumber)]
    refine .inr ?_
    have hcases := parse_cases q.normalized
    rw [Question.trim_normalized] at hcases
    unfold Question.valueOutcome
    obtain ⟨hbare, hparse⟩ | ⟨hbare, ⟨e, hparse⟩ | ⟨err, hparse⟩⟩ := hcases
    · rw [hparse]
      exact .inl ⟨hnumber, hbare, rfl⟩
    · rw [hparse]
      dsimp only
      -- a number without variables would be the value at one
      cases hresult : ((Calculation.expression e).eval []).result with
      | error err => exact .inr ⟨hnumber, hbare, _, rfl⟩
      | ok v =>
        cases v with
        | number v => exact absurd ⟨_, v, hparse, result_eval_one _ hresult⟩ hnumber
        | function name => exact absurd hresult (result_eval_expression_ne [] e name)
    · rw [hparse]
      exact .inr ⟨hnumber, hbare, _, rfl⟩

/-- **A text that looks like a function of the variable never gets a plain value.**  It is plotted
exactly if it has a number as its value where the variable is one, it is incomplete exactly if it is
the bare name of a function, and in all other cases it is an error.  So a value comes only of a text
that does not look like a function.  The reason is that whatever has a number as its value without
variables has the same value where the variable is one. -/
theorem outcome_submit_of_looksGraphable (e : Evaluator) (now : Nat) (text : String) :
    let q := Question.ofText text
    let outcome := (e.submit now text).value.2
    (e.variableMatch.looksGraphable q.key = true →
      ((∃ plot, outcome = .graph q.typed plot) ↔
        HasNumber [(graphVariable, 1.0)] q.normalized) ∧
      (outcome = .incomplete q.typed ↔ q.normalized ∈ functionNames) ∧
      ((∃ err, outcome = .error q.typed err) ↔
        ¬ HasNumber [(graphVariable, 1.0)] q.normalized ∧ q.normalized ∉ functionNames) ∧
      ∀ input v display, outcome ≠ .value input v display) ∧
    (∀ input v display, outcome = .value input v display →
      e.variableMatch.looksGraphable q.key = false) ∧
    ∀ (c : Calculation) (v : Float), (c.eval []).result = .ok (.number v) →
      (c.eval [(graphVariable, 1.0)]).result = .ok (.number v) := by
  intro q outcome
  have houtcome : outcome = q.outcome e.variableMatch e.precision :=
    (e.answers_submit now text).outcome_eq
  rw [houtcome]
  refine ⟨fun hlook => ?_, fun input v display hvalue => ?_, fun c v h => result_eval_one c h⟩
  · obtain ⟨hnumber, hbare, h⟩ | ⟨hnumber, hbare, h⟩ | ⟨hnumber, hbare, err, h⟩ :=
      outcome_cases e.precision hlook
    · simp [h, q, hnumber, hbare]
    · simp [h, q, hnumber, hbare]
    · simp [h, q, hnumber, hbare]
  · cases hlook : e.variableMatch.looksGraphable q.key with
    | false => rfl
    | true =>
      obtain ⟨-, -, h⟩ | ⟨-, -, h⟩ | ⟨-, -, err, h⟩ := outcome_cases e.precision hlook
      all_goals
        rw [h] at hvalue
        cases hvalue

/-- The text `x` is plotted, and `max`, where the variable is found too, is incomplete. -/
theorem outcome_submit_x_and_max :
    (∃ plot, (({} : Evaluator).submit 0 " x ").value.2 = .graph "x" plot) ∧
      (({} : Evaluator).submit 0 "max").value.2 = .incomplete "max" := by
  have hx := outcome_submit_of_looksGraphable {} 0 " x "
  have hmax := outcome_submit_of_looksGraphable {} 0 "max"
  refine ⟨(hx.1 (by decide +kernel)).1.2 ?_, (hmax.1 (by decide +kernel)).2.1.2 ?_⟩
  · exact value_probe.1 (by decide +kernel)
  · decide +kernel

end Evaluator

end Abacus
