import Abacus.Proofs.Evaluator.Restart

/-!
# The history as a journal

The history is what the last twenty lines of an unbounded journal would say.  A request and what
came of it are an exchange (`Evaluator.Exchange`); the journal of some exchanges has the items of
all of them since the history was last cleared, the newest first, and before them what was loaded,
unless there was a clearing (`Evaluator.journal`).

One request extends the journal in front or empties it, and the history does the same but for its
length (`Evaluator.history_serve`).  What is cut off at the end is old enough never to come back, so
the history of every run is the front of its journal (`Evaluator.history_faithful`).  A submission
saves the history once if it records an item, and nothing else (`Evaluator.saves_submit`).
-/

namespace Abacus

/-- An outcome makes an item exactly if it is recorded. -/
theorem Outcome.isSome_item? (o : Outcome) : o.item?.isSome = o.isRecorded := by
  cases o <;> rfl

namespace Evaluator

/-! ### Exchanges -/

/-- A request, the precision before it, and the outcome if it has one. -/
structure Exchange where
  precision : Nat
  request : Request
  outcome? : Option Outcome

namespace Exchange

/-- Whether the history was cleared. -/
def isClear (x : Exchange) : Bool :=
  x.request = .clearHistory

/-- The item that a submission leaves: the trimmed input with the fixed reply, with the mark of a
plot, or with the value as text at the precision of the time. -/
def item? (x : Exchange) : Option HistoryItem :=
  match x.request, x.outcome? with
  | .submit _ text, some (.canned _ reply) => some ⟨Text.trim text, reply⟩
  | .submit _ text, some (.graph ..) => some ⟨Text.trim text, "[Graph]"⟩
  | .submit _ text, some (.value _ v _) => some ⟨Text.trim text, answerText v x.precision⟩
  | _, _ => none

end Exchange

/-- The items of all exchanges since the history was last cleared, the newest first, and before them
the items that were loaded, unless it was cleared. -/
def journal (loaded : List HistoryItem) (past : List Exchange) : List HistoryItem :=
  (past.reverse.takeWhile (!·.isClear)).filterMap Exchange.item? ++
    if past.any Exchange.isClear then [] else loaded

theorem journal_concat (loaded : List HistoryItem) (past : List Exchange) (x : Exchange) :
    journal loaded (past ++ [x]) =
      if x.isClear then [] else x.item?.toList ++ journal loaded past := by
  unfold journal
  rw [List.reverse_append, List.reverse_singleton, List.singleton_append, List.any_append]
  cases hclear : x.isClear with
  | true => simp [hclear]
  | false => cases hitem : x.item? <;> simp [hclear, hitem]

/-! ### Runs -/

/-- The evaluator after some requests. -/
def serveAll (e : Evaluator) (requests : List Request) : Evaluator :=
  requests.foldl (fun e q => (e.serve q).value.1) e

/-- The exchanges of some requests. -/
def exchanges (e : Evaluator) : List Request → List Exchange
  | [] => []
  | q :: requests =>
    ⟨e.precision, q, (e.serve q).value.2⟩ :: (e.serve q).value.1.exchanges requests

theorem serveAll_concat (e : Evaluator) (requests : List Request) (q : Request) :
    e.serveAll (requests ++ [q]) = ((e.serveAll requests).serve q).value.1 := by
  simp [serveAll]

theorem exchanges_concat (e : Evaluator) (requests : List Request) (q : Request) :
    e.exchanges (requests ++ [q]) = e.exchanges requests ++
      [⟨(e.serveAll requests).precision, q, ((e.serveAll requests).serve q).value.2⟩] := by
  induction requests generalizing e with
  | nil => rfl
  | cons first requests ih =>
    rw [List.cons_append, exchanges, ih, exchanges]
    rfl

/-! ### One request -/

/-- The item of an outcome, as an exchange tells it. -/
theorem item?_outcome (mode : VariableMatch) (precision now : Nat) (text : String) :
    let outcome := (Question.ofText text).outcome mode precision
    Exchange.item? ⟨precision, .submit now text, some outcome⟩ = outcome.item? := by
  intro outcome
  have htyped : (Question.ofText text).typed = Text.trim text := rfl
  simp only [outcome, Question.outcome, Question.valueOutcome, htyped]
  split
  · rfl
  · cases reply? (Question.ofText text).key with
    | some reply => rfl
    | none =>
      dsimp only
      split
      · rfl
      · cases Calculation.parse (Question.ofText text).normalized with
        | error err => rfl
        | ok c =>
          dsimp only
          cases (c.eval []).result with
          | error err => rfl
          | ok v => cases v <;> rfl

/-- The item of a submission, as its exchange tells it. -/
theorem item?_submit (e : Evaluator) (now : Nat) (text : String) :
    Exchange.item? ⟨e.precision, .submit now text, some (e.submit now text).value.2⟩ =
      (e.submit now text).value.2.item? := by
  rw [(e.answers_submit now text).outcome_eq]
  exact item?_outcome e.variableMatch e.precision now text

theorem history_note (r : Records) (item? : Option HistoryItem) {journal : List HistoryItem}
    (h : r.history = journal.take historyLimit) :
    (r.note item?).value.history = (item?.toList ++ journal).take historyLimit := by
  cases item? with
  | none => exact h
  | some item =>
    change (item :: r.history).take historyLimit = (item :: journal).take historyLimit
    -- an item that was cut off before is cut off again
    rw [h, historyLimit, List.take_succ_cons, List.take_succ_cons, List.take_take, Nat.min_eq_left]
    decide

theorem saves_note (r : Records) (item? : Option HistoryItem) :
    (r.note item?).saves =
      if item?.isSome
      then [(Store.historyKey, (Records.historyJson (r.note item?).value.history).render)]
      else [] := by
  cases item? <;> rfl

theorem precision_note (r : Records) (item? : Option HistoryItem) :
    (r.note item?).value.precision = r.precision := by
  cases item? <;> rfl

/-- A request does to the history what it does to a journal, but for the length. -/
theorem history_serve (e : Evaluator) (q : Request) {journal : List HistoryItem}
    (h : e.history = journal.take historyLimit) :
    let x : Exchange := ⟨e.precision, q, (e.serve q).value.2⟩
    (e.serve q).value.1.history =
      (if x.isClear then [] else x.item?.toList ++ journal).take historyLimit := by
  intro x
  cases q with
  | submit now text =>
    have hsubmit := e.answers_submit now text
    have hitem : x.item? = (e.submit now text).value.2.item? := by
      simp only [x, value_serve_submit, item?_submit]
    rw [value_serve_submit, history, hsubmit.records_eq, hitem, hsubmit.outcome_eq]
    exact history_note e.records _ h
  | clearHistory => rfl
  | setPrecision precision => exact h

theorem precision_serve_le {e : Evaluator} (h : e.precision ≤ maxPrecision) (q : Request) :
    (e.serve q).value.1.precision ≤ maxPrecision := by
  cases q with
  | submit now text =>
    rw [value_serve_submit, precision, (e.answers_submit now text).records_eq, precision_note]
    exact h
  | clearHistory => exact h
  | setPrecision precision => exact Nat.min_le_right _ _

/-- **A submission saves once what it records.**  The precision stays.  An item is left exactly if
the outcome is recorded, and then the new history is saved in a form that reads back. -/
theorem saves_submit (e : Evaluator) (now : Nat) (text : String) :
    let x := e.submit now text
    let item? := Exchange.item? ⟨e.precision, .submit now text, some x.value.2⟩
    let stored := (Records.historyJson x.value.1.history).render
    x.value.1.precision = e.precision ∧
      item?.isSome = x.value.2.isRecorded ∧
      x.saves = (if x.value.2.isRecorded then [(Store.historyKey, stored)] else []) ∧
      (Json.parse stored).bind Records.history? = some x.value.1.history := by
  intro x item? stored
  have hsubmit := e.answers_submit now text
  have hrecords := hsubmit.records_eq
  refine ⟨?_, ?_, ?_, (Records.readsBack_history _).parse⟩
  · rw [precision, hrecords, precision_note, precision]
  · rw [← Outcome.isSome_item?]
    exact congrArg Option.isSome (item?_submit e now text)
  · rw [hsubmit.saves_eq, saves_note, Outcome.isSome_item?, ← hrecords, ← hsubmit.outcome_eq]
    simp only [x, stored, history]

/-- **What a request changes it saves as a whole**: it saves the history, and the precision stays, or
it saves the precision, and the history stays, or it saves nothing, and both stay. -/
theorem saves_serve (e : Evaluator) (q : Request) :
    let f := (e.serve q).value.1
    ((e.serve q).saves = [] ∧ f.records = e.records) ∨
      ((e.serve q).saves = [(Store.historyKey, (Records.historyJson f.history).render)] ∧
        f.precision = e.precision) ∨
      ((e.serve q).saves = [(Store.settingsKey, (Records.settingsJson f.precision).render)] ∧
        f.history = e.history) := by
  intro f
  cases q with
  | submit now text =>
    have hsubmit := e.answers_submit now text
    obtain ⟨hprecision, -, hsaves, -⟩ := saves_submit e now text
    simp only [f, value_serve_submit, saves_serve_submit, hsaves]
    cases hrecorded : (e.submit now text).value.2.isRecorded with
    | true => exact .inr (.inl ⟨rfl, hprecision⟩)
    | false =>
      have hitem : (e.submit now text).value.2.item? = none := by
        rw [← Option.not_isSome_iff_eq_none, Outcome.isSome_item?, hrecorded]
        exact Bool.false_ne_true
      have hrecords := hsubmit.records_eq
      rw [← hsubmit.outcome_eq, hitem] at hrecords
      exact .inl ⟨rfl, hrecords⟩
  | clearHistory => exact .inr (.inl ⟨rfl, rfl⟩)
  | setPrecision precision => exact .inr (.inr ⟨rfl, rfl⟩)

/-! ### The journal of a run -/

/-- **The history of a run is the front of its journal.** -/
theorem history_serveAll {e : Evaluator} (h : e.records.Bounded) (requests : List Request) :
    (e.serveAll requests).history =
        (journal e.history (e.exchanges requests)).take historyLimit ∧
      (e.serveAll requests).precision ≤ maxPrecision := by
  -- the last request comes first in the journal, so the induction takes it off
  induction requests using List.reverseRecOn with
  | nil =>
    refine ⟨?_, h.precision_le⟩
    exact (List.take_of_length_le h.length_history).symm
  | append_singleton requests q ih =>
    rw [serveAll_concat, exchanges_concat, journal_concat]
    exact ⟨history_serve _ q ih.1, precision_serve_le ih.2 q⟩

/-- **The history is a faithful bounded log.**  Whatever the store held at first, after any requests
the history has the first twenty items of the journal, which tells for each submission what was
typed and what it was answered.  The precision is at most fourteen.  A further submission does not
change the precision; it leaves an item exactly if its outcome is recorded, and then it saves once,
under the key of the history, a text from which just the new history is read back. -/
theorem history_faithful (variableMatch : VariableMatch) (celebrationTime : Nat)
    (get? : String → Option String) (requests : List Request) :
    let loaded := (load variableMatch celebrationTime get?).value
    let e := loaded.serveAll requests
    e.history = (journal loaded.history (loaded.exchanges requests)).take 20 ∧
      e.precision ≤ 14 ∧
      ∀ (now : Nat) (text : String),
        let x := e.submit now text
        let item? := Exchange.item? ⟨e.precision, .submit now text, some x.value.2⟩
        let stored := (Records.historyJson x.value.1.history).render
        x.value.1.precision = e.precision ∧
          item?.isSome = x.value.2.isRecorded ∧
          x.saves = (if x.value.2.isRecorded then [("calcHistory", stored)] else []) ∧
          (Json.parse stored).bind Records.history? = some x.value.1.history := by
  intro loaded e
  have hbounded : loaded.records.Bounded := Records.bounded_load get?
  obtain ⟨hhistory, hprecision⟩ := history_serveAll hbounded requests
  refine ⟨hhistory, hprecision, ?_⟩
  exact saves_submit e

end Evaluator

end Abacus
