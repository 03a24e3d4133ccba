import Abacus.Proofs.CommandLine.LineByLine

/-!
# When a session celebrates

A value starts a celebration, which goes on for a fixed time whatever else is asked.  After each
answer the session tells of the celebration that is going on, and that may be one that an earlier
line has started (`Repl.error_celebrated`).  So the line that tells of a celebration follows an answer
of any kind, exactly if the last value was computed less than the time of a celebration ago.

What is remembered of the past is the time of the last value alone (`Repl.Remembers`).  Every line
keeps it (`Repl.Remembers.step`), and it decides what is printed after an answer.  Hence a session
celebrates nothing but values exactly if it gives no other answer while it celebrates
(`Repl.celebrates_iff`).
-/

namespace Abacus

/-! ### One answer -/

/-- Whether an outcome is a value. -/
def Outcome.isValue : Outcome → Bool
  | value .. => true
  | canned .. | graph .. | incomplete _ | error .. => false

namespace Evaluator

/-- A step starts a celebration if its outcome is a value, and otherwise it leaves the last one. -/
def Celebrates (e : Evaluator) (now : Nat) (x : Traced (Evaluator × Outcome)) : Prop :=
  x.value.1.lastCelebration =
    if x.value.2.isValue then some ⟨now, e.celebrationTime⟩ else e.lastCelebration

theorem celebrates_answerValue (e : Evaluator) (now : Nat) (q : Question) :
    e.Celebrates now (e.answerValue now q) := by
  unfold answerValue
  cases Calculation.parse q.normalized with
  | error err => rfl
  | ok c =>
    dsimp only
    cases (c.eval []).result with
    | error err => rfl
    | ok v => cases v <;> rfl

theorem celebrates_answer (e : Evaluator) (now : Nat) (q : Question) :
    e.Celebrates now (e.answer now q) := by
  unfold answer
  split
  · rfl
  · cases reply? q.key with
    | some reply => rfl
    | none =>
      dsimp only
      split
      · unfold Celebrates
        rw [Traced.value_bind]
        cases (probe q.normalized).value with
        | true => rfl
        | false =>
          rw [if_neg Bool.false_ne_true]
          exact e.celebrates_answerValue now q
      · exact e.celebrates_answerValue now q

/-- **Only values start celebrations.** -/
theorem celebrates_submit (e : Evaluator) (now : Nat) (text : String) :
    e.Celebrates now (e.submit now text) :=
  e.celebrates_answer now (.ofText text)

end Evaluator

namespace Repl

/-! ### The lines of a session -/

/-- A line that a session has carried out. -/
structure Exchange where
  /-- When it was read. -/
  now : Nat
  /-- Its outcome, if it was answered. -/
  outcome? : Option Outcome
  /-- What was printed for it. -/
  printed : String

namespace Exchange

/-- Whether the answer is a value. -/
def isValue (x : Exchange) : Bool :=
  x.outcome?.any Outcome.isValue

/-- Whether the answer is followed by the line that tells of a celebration. -/
def celebrates (x : Exchange) : Bool :=
  x.outcome?.any fun outcome =>
    x.printed == outcome.description ++ "\n" ++ celebrationLine true

end Exchange

/-- The outcome of a line, if it is a text. -/
def outcome? (s : Session) (now : Nat) (line : String) : Option Outcome :=
  match Line.parse line with
  | .text text => some (s.evaluator.submit now text).value.2
  | .quit | .history | .clear | .precision _ => none

/-- What happens at one line. -/
def exchange (s : Session) (now : Nat) (line : String) : Exchange :=
  ⟨now, outcome? s now line, (step s now line).prints⟩

/-- What happens at the lines of a session, up to the one that ends it. -/
def exchanges (s : Session) : List (Nat × String) → List Exchange
  | [] => []
  | (now, line) :: rest =>
    exchange s now line ::
      match (step s now line).value with
      | none => []
      | some t => exchanges t rest

theorem value_step_eq_none_iff (s : Session) (now : Nat) (line : String) :
    (step s now line).value = none ↔ Line.parse line = .quit := by
  unfold step
  cases Line.parse line with
  | precision value? => cases value? <;> simp
  | quit | history | clear | text _ => simp

/-- **A session prints what is printed for its lines**, and a prompt before each line and where there
are no more. -/
theorem prints_run (s : Session) (lines : List (Nat × String)) :
    (run s lines).prints =
      .join ((exchanges s lines).map fun x => prompt ++ x.printed) ++
        if quits lines then "" else prompt := by
  induction lines generalizing s with
  | nil => simp [run, exchanges, quits]
  | cons first rest ih =>
    obtain ⟨now, line⟩ := first
    have hquit := value_step_eq_none_iff s now line
    cases hvalue : (step s now line).value with
    | none =>
      have hquits : quits ((now, line) :: rest) = true := by simp [quits, hquit.1 hvalue]
      rw [hquits]
      simp [run, exchanges, exchange, hvalue]
    | some t =>
      have hquits : quits ((now, line) :: rest) = quits rest := by
        simp [quits, mt hquit.2 (by simp [hvalue])]
      rw [run_cons_of_value hvalue, hquits]
      simp [exchanges, exchange, hvalue, ih, String.append_assoc]

/-! ### The last value -/

/-- When the last value was computed. -/
def lastValue (past : List Exchange) : Option Nat :=
  ((past.filter Exchange.isValue).getLast?).map Exchange.now

/-- Whether the last value was computed less than a time ago. -/
def isRecent (duration : Nat) (past : List Exchange) (now : Nat) : Bool :=
  (lastValue past).any fun time => now - time < duration

theorem lastValue_concat (past : List Exchange) (x : Exchange) :
    lastValue (past ++ [x]) = if x.isValue then some x.now else lastValue past := by
  unfold lastValue
  rw [List.filter_append]
  cases hx : x.isValue with
  | true => simp [hx]
  | false => simp [hx]

/-- All that a session remembers of its past is when the last value was computed. -/
structure Remembers (duration : Nat) (s : Session) (past : List Exchange) : Prop where
  lastCelebration_eq :
    s.evaluator.lastCelebration = (lastValue past).map fun time => ⟨time, duration⟩
  celebrationTime_eq : s.evaluator.celebrationTime = duration

variable {duration : Nat} {s t : Session} {past : List Exchange} {now : Nat} {line : String}

theorem Remembers.celebrating_eq (h : Remembers duration s past) (now : Nat) :
    s.evaluator.celebrating now = isRecent duration past now := by
  rw [Evaluator.celebrating, h.lastCelebration_eq, Option.any_map]
  rfl

/-- A line that is not answered changes nothing that is remembered. -/
theorem Remembers.of_eq (h : Remembers duration s past)
    (hlast : t.evaluator.lastCelebration = s.evaluator.lastCelebration)
    (htime : t.evaluator.celebrationTime = s.evaluator.celebrationTime) {x : Exchange}
    (hx : x.outcome? = none) : Remembers duration t (past ++ [x]) := by
  refine ⟨?_, htime.trans h.celebrationTime_eq⟩
  rw [hlast, h.lastCelebration_eq, lastValue_concat, if_neg (by simp [Exchange.isValue, hx])]

theorem step_of_text {text : String} (hline : Line.parse line = .text text) :
    Repl.step s now line = some <$> answer s now text := by
  rw [Repl.step, hline]
  rfl

/-- **An answer is remembered if it is a value**, and what follows it tells whether the last value is
recent. -/
theorem Remembers.of_text (h : Remembers duration s past) {text : String}
    (hline : Line.parse line = .text text) :
    Remembers duration (answer s now text).value (past ++ [exchange s now line]) ∧
      (exchange s now line).printed = (s.evaluator.submit now text).value.2.description ++ "\n" ++
        celebrationLine (isRecent duration (past ++ [exchange s now line]) now) := by
  obtain ⟨hevaluator, -, hprints⟩ :=
    answer_of_submit (Eq.refl (s.evaluator.submit now text))
  have hvalue : (exchange s now line).isValue =
      (s.evaluator.submit now text).value.2.isValue := by
    simp [exchange, outcome?, hline, Exchange.isValue]
  have hremembers : Remembers duration (answer s now text).value
      (past ++ [exchange s now line]) := by
    have hcelebrates := s.evaluator.celebrates_submit now text
    have hanswers := s.evaluator.answers_submit now text
    refine ⟨?_, ?_⟩
    · rw [hevaluator, hcelebrates, lastValue_concat, hvalue, h.lastCelebration_eq,
        h.celebrationTime_eq]
      split <;> rfl
    · rw [hevaluator, hanswers.celebrationTime_eq, h.celebrationTime_eq]
  refine ⟨hremembers, ?_⟩
  rw [← hremembers.celebrating_eq, hevaluator, exchange, step_of_text hline, Traced.prints_map,
    hprints]

/-- **Every line keeps what is remembered.** -/
theorem Remembers.step (h : Remembers duration s past) (ht : (Repl.step s now line).value = some t) :
    Remembers duration t (past ++ [exchange s now line]) := by
  cases hline : Line.parse line with
  | quit =>
    rw [Repl.step, hline] at ht
    cases ht
  | history =>
    rw [Repl.step, hline] at ht
    cases ht
    exact h.of_eq rfl rfl (by simp [exchange, outcome?, hline])
  | clear =>
    rw [Repl.step, hline] at ht
    cases ht
    exact h.of_eq (t := s.clearHistory.value) rfl rfl (by simp [exchange, outcome?, hline])
  | precision value? =>
    rw [Repl.step, hline] at ht
    cases value? with
    | none =>
      cases ht
      exact h.of_eq rfl rfl (by simp [exchange, outcome?, hline])
    | some value =>
      cases ht
      exact h.of_eq (t := (s.setPrecision value).value) rfl rfl (by simp [exchange, outcome?, hline])
  | text text =>
    rw [step_of_text hline, Traced.value_map] at ht
    obtain rfl := Option.some.inj ht
    exact (h.of_text hline).1

/-! ### Whole sessions -/

theorem parse_of_exchange {outcome : Outcome}
    (h : (exchange s now line).outcome? = some outcome) :
    ∃ text, Line.parse line = .text text ∧ (s.evaluator.submit now text).value.2 = outcome := by
  simp only [exchange, outcome?] at h
  split at h
  · next text hline => exact ⟨text, hline, Option.some.inj h⟩
  all_goals cases h

/-- **After every answer a session tells whether the last value is recent.**  The induction is on the
lines to come; what is remembered of those before tells when the last value was computed. -/
theorem Remembers.printed_eq (h : Remembers duration s past) {lines : List (Nat × String)}
    {before : List Exchange} {x : Exchange} (hx : before ++ [x] <+: exchanges s lines)
    {outcome : Outcome} (houtcome : x.outcome? = some outcome) :
    x.printed = outcome.description ++ "\n" ++
      celebrationLine (isRecent duration (past ++ (before ++ [x])) x.now) := by
  induction lines generalizing s past before with
  | nil => simp [exchanges] at hx
  | cons first rest ih =>
    obtain ⟨now, line⟩ := first
    rw [exchanges] at hx
    -- The answer is the one to this line, or it comes after it.
    cases before with
    | nil =>
      obtain ⟨rfl, -⟩ := List.cons_prefix_cons.1 hx
      obtain ⟨text, hline, hsubmit⟩ := parse_of_exchange houtcome
      rw [← hsubmit]
      exact (h.of_text hline).2
    | cons y before =>
      obtain ⟨rfl, hrest⟩ := List.cons_prefix_cons.1 hx
      cases hvalue : (Repl.step s now line).value with
      | none =>
        rw [hvalue] at hrest
        simp at hrest
      | some t =>
        rw [hvalue] at hrest
        rw [ih (h.step hvalue) hrest]
        simp

/-- What is printed shows whether a celebration is told of. -/
theorem Exchange.celebrates_eq {x : Exchange} {outcome : Outcome} {celebrating : Bool}
    (houtcome : x.outcome? = some outcome)
    (h : x.printed = outcome.description ++ "\n" ++ celebrationLine celebrating) :
    x.celebrates = celebrating := by
  rw [celebrates, houtcome, Option.any_some, h]
  cases celebrating with
  | true => simp
  | false =>
    rw [beq_eq_false_iff_ne]
    intro hline
    have hlength := congrArg String.length hline
    simp [celebrationLine, String.length_append] at hlength

theorem Exchange.isSome_of_celebrates {x : Exchange} (h : x.celebrates = true) :
    x.outcome?.isSome = true := by
  rw [celebrates, Option.any_eq_true] at h
  obtain ⟨outcome, houtcome, -⟩ := h
  simp [houtcome]

/-- An answer that is no value goes without a celebration exactly if the last value before it is not
recent. -/
theorem Remembers.celebrates_eq_false_iff (h : Remembers duration s []) {lines : List (Nat × String)}
    {before : List Exchange} {x : Exchange} (hx : before ++ [x] <+: exchanges s lines)
    (hsome : x.outcome?.isSome = true) (hvalue : x.isValue = false) :
    x.celebrates = false ↔ ∀ time ∈ lastValue before, duration ≤ x.now - time := by
  obtain ⟨outcome, houtcome⟩ := Option.isSome_iff_exists.1 hsome
  rw [Exchange.celebrates_eq houtcome (h.printed_eq hx houtcome), List.nil_append, isRecent,
    lastValue_concat, hvalue, if_neg Bool.false_ne_true, Option.any_eq_false]
  simp

/-- A session that begins has nothing to remember. -/
theorem remembers_start (c : Config) (get? : String → Option String) :
    Remembers c.celebrationTime { evaluator := (Command.evaluator c get?).value } [] :=
  ⟨rfl, rfl⟩

/-- **A session celebrates whenever the last value is recent**, whatever it answers.  Its output is
made of what it prints at its lines.  After an answer it tells of a celebration exactly if the last
value, be it this answer or an earlier one, was computed less than the time of a celebration ago.  So
it celebrates values only exactly if every other answer comes at least this time after the last
value before it. -/
theorem celebrates_iff (c : Config) (get? : String → Option String) (now : Nat)
    (lines : List (Nat × String)) :
    let past := exchanges { evaluator := (Command.evaluator c get?).value } lines
    (Command.repl.run c get? now lines).prints =
        .join (past.map fun x => prompt ++ x.printed) ++ (if quits lines then "" else prompt) ∧
      (∀ before x, before ++ [x] <+: past → ∀ outcome, x.outcome? = some outcome →
        x.printed = outcome.description ++ "\n" ++
          celebrationLine (isRecent c.celebrationTime (before ++ [x]) x.now)) ∧
      ((∀ x ∈ past, x.celebrates = true → x.isValue = true) ↔
        ∀ before x, before ++ [x] <+: past → x.outcome?.isSome = true → x.isValue = false →
          ∀ time ∈ lastValue before, c.celebrationTime ≤ x.now - time) := by
  intro past
  have hstart := remembers_start c get?
  refine ⟨?_, fun before x hx outcome houtcome => hstart.printed_eq hx houtcome, ?_, ?_⟩
  · obtain ⟨hquiet, -⟩ := Command.quiet_evaluator c get?
    simp only [Command.run, Traced.prints_bind, Traced.prints_pure, hquiet, String.empty_append,
      String.append_empty]
    exact prints_run _ lines
  · intro h before x hx hsome hvalue
    rw [← hstart.celebrates_eq_false_iff hx hsome hvalue, ← Bool.not_eq_true]
    intro hcelebrates
    have hmem : x ∈ past := hx.subset (by simp)
    rw [h x hmem hcelebrates] at hvalue
    cases hvalue
  · intro h x hmem hcelebrates
    obtain ⟨before, after, hpast⟩ := List.append_of_mem hmem
    have hx : before ++ [x] <+: past := ⟨after, by rw [hpast, List.append_assoc]; rfl⟩
    have hsome := Exchange.isSome_of_celebrates hcelebrates
    by_contra hvalue
    rw [Bool.not_eq_true] at hvalue
    have hquiet := (hstart.celebrates_eq_false_iff hx hsome hvalue).2 (h before x hx hsome hvalue)
    rw [hquiet] at hcelebrates
    cases hcelebrates

/-- An error that follows a value closely comes while the value is celebrated. -/
theorem error_celebrated :
    ¬ ∀ (c : Config) (get? : String → Option String) (lines : List (Nat × String)),
      ∀ x ∈ exchanges { evaluator := (Command.evaluator c get?).value } lines,
        x.celebrates = true → x.isValue = true := by
  intro h
  have hlines := h {} (fun _ => none) [(0, "1+1"), (7, "2 +* 2")]
  revert hlines
  decide +kernel

end Repl

end Abacus
