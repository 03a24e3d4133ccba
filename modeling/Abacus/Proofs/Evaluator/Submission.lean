import Abacus.Evaluator
import Abacus.Proofs.Evaluator.Records

/-!
# What a submission does

The outcome of a question depends on two settings of the evaluator only, on how the variable is
looked for and on the precision (`Question.outcome`).  The outcome in turn says which item goes into
the history (`Outcome.item?`), and beyond its log a submission has no other effect.
`Evaluator.answers_submit` puts this together.
-/

namespace Abacus

/-- The item of the history that an outcome makes. -/
def Outcome.item? : Outcome → Option HistoryItem
  | canned input reply => some ⟨input, reply⟩
  | graph input _ => some ⟨input, graphMarker⟩
  | value input _ display => some ⟨input, display⟩
  | incomplete _ | error .. => none

namespace Question

/-- The outcome of a question that asks for a value. -/
def valueOutcome (precision : Nat) (q : Question) : Outcome :=
  match Calculation.parse q.normalized with
  | .error err => .error q.typed (.parse err)
  | .ok c =>
    match (c.eval []).result with
    | .ok (.function _) => .incomplete q.typed
    | .ok (.number v) => .value q.typed v (answerText v precision)
    | .error err => .error q.typed (.eval err)

/-- Whether a question asks for a plot. -/
def asksForGraph (mode : VariableMatch) (q : Question) : Bool :=
  mode.looksGraphable q.key && (Evaluator.probe q.normalized).value

/-- The outcome of a question. -/
def outcome (mode : VariableMatch) (precision : Nat) (q : Question) : Outcome :=
  if q.typed = "" then .error q.typed .emptyInput
  else
    match reply? q.key with
    | some reply => .canned q.typed reply
    | none =>
      if q.asksForGraph mode then .graph q.typed (Plot.sample q.typed q.normalized)
      else q.valueOutcome precision

end Question

namespace Evaluator

/-- A step answers with an outcome, and but for its log it only puts the item of the outcome into
the history. -/
structure Answers (e : Evaluator) (x : Traced (Evaluator × Outcome)) (outcome : Outcome) :
    Prop where
  outcome_eq : x.value.2 = outcome
  records_eq : x.value.1.records = (e.records.note outcome.item?).value
  saves_eq : x.saves = (e.records.note outcome.item?).saves
  variableMatch_eq : x.value.1.variableMatch = e.variableMatch
  celebrationTime_eq : x.value.1.celebrationTime = e.celebrationTime

theorem Answers.congr {e : Evaluator} {x y : Traced (Evaluator × Outcome)} {outcome : Outcome}
    (h : e.Answers x outcome) (hvalue : y.value = x.value) (hsaves : y.saves = x.saves) :
    e.Answers y outcome where
  outcome_eq := by rw [hvalue, h.outcome_eq]
  records_eq := by rw [hvalue, h.records_eq]
  saves_eq := by rw [hsaves, h.saves_eq]
  variableMatch_eq := by rw [hvalue, h.variableMatch_eq]
  celebrationTime_eq := by rw [hvalue, h.celebrationTime_eq]

@[simp] theorem saves_probe (normalized : String) : (probe normalized).saves = [] := by
  unfold probe
  split
  · rfl
  · simp only [Traced.saves_bind, Traced.saves_notes, List.nil_append]
    split <;> rfl

@[simp] theorem saves_traceSample (s : Plot.Sample) : (traceSample s).saves = [] := by
  unfold traceSample
  simp only [Traced.saves_bind, Traced.saves_notes, List.nil_append]
  split <;> rfl

@[simp] theorem saves_traceSamples (samples : List Plot.Sample) :
    (traceSamples samples).saves = [] := by
  induction samples with
  | nil => rfl
  | cons s samples ih =>
    simp only [traceSamples, Traced.saves_bind, saves_traceSample, ih, List.nil_append]

theorem value_plot (label text : String) : (plot label text).value = Plot.sample label text := by
  unfold plot Plot.sample
  cases Calculation.parse text <;> rfl

@[simp] theorem saves_plot (label text : String) : (plot label text).saves = [] := by
  unfold plot
  split
  · rfl
  · simp only [Traced.saves_bind, saves_traceSamples, Traced.saves_pure, List.append_nil]

theorem answers_answerGraph (e : Evaluator) (q : Question) :
    e.Answers (e.answerGraph q) (.graph q.typed (Plot.sample q.typed q.normalized)) := by
  refine ⟨?_, ?_, ?_, ?_, ?_⟩
  · simp [answerGraph, value_plot]
  · rfl
  · simp [answerGraph, record, Outcome.item?, Records.note]
  · rfl
  · rfl

theorem answers_answerValue (e : Evaluator) (now : Nat) (q : Question) :
    e.Answers (e.answerValue now q) (q.valueOutcome e.precision) := by
  unfold answerValue Question.valueOutcome
  cases Calculation.parse q.normalized with
  | error err => exact ⟨rfl, rfl, rfl, rfl, rfl⟩
  | ok c =>
    dsimp only
    cases (c.eval []).result with
    | error err =>
      refine ⟨rfl, rfl, ?_, rfl, rfl⟩
      simp [Outcome.item?, Records.note]
    | ok v =>
      cases v with
      | function name =>
        refine ⟨rfl, rfl, ?_, rfl, rfl⟩
        simp [Outcome.item?, Records.note]
      | number v =>
        refine ⟨rfl, rfl, ?_, rfl, rfl⟩
        simp [Outcome.item?, Records.note, record, precision]

theorem answers_answer (e : Evaluator) (now : Nat) (q : Question) :
    e.Answers (e.answer now q) (q.outcome e.variableMatch e.precision) := by
  unfold answer Question.outcome
  split
  · exact ⟨rfl, rfl, rfl, rfl, rfl⟩
  · cases reply? q.key with
    | some reply =>
      refine ⟨rfl, rfl, ?_, rfl, rfl⟩
      simp [Outcome.item?, Records.note, record]
    | none =>
      dsimp only
      by_cases hlook : e.variableMatch.looksGraphable q.key = true
      · have hask : q.asksForGraph e.variableMatch = (probe q.normalized).value := by
          simp [Question.asksForGraph, hlook]
        rw [if_pos hlook, hask]
        -- the probe saves nothing, so only its value counts
        cases hprobe : (probe q.normalized).value with
        | true =>
          refine (e.answers_answerGraph q).congr ?_ ?_
          · simp [hprobe]
          · simp [hprobe]
        | false =>
          refine (e.answers_answerValue now q).congr ?_ ?_
          · simp [hprobe]
          · simp [hprobe]
      · have hask : q.asksForGraph e.variableMatch = false := by
          simp [Question.asksForGraph, hlook]
        rw [if_neg hlook, hask]
        exact e.answers_answerValue now q

/-- **A submission answers with the outcome of its question.** -/
theorem answers_submit (e : Evaluator) (now : Nat) (text : String) :
    e.Answers (e.submit now text)
      ((Question.ofText text).outcome e.variableMatch e.precision) :=
  e.answers_answer now (.ofText text)

end Evaluator

end Abacus
