import Abacus.Proofs.Evaluator.Records
import Abacus.Proofs.Evaluator.Submission
import Mathlib.Data.List.Induction

/-!
# Restarting an evaluator

An evaluator serves requests on a machine, whose store keeps its records.  It may be restarted at
any time: a new evaluator then loads the records from the store.  Nobody can tell this from the
outcomes, the history or the precision (`Service.restart_invisible`), whatever the store held at
first.

The reason is an invariant, that the records in memory are those that would be loaded
(`Service.Settled`), and that nothing else of an evaluator but its configuration has a part in its
answers (`Evaluator.Alike.serve`).
-/

namespace Abacus

namespace Evaluator

/-! ### Requests -/

/-- What may be asked of an evaluator. -/
inductive Request
  | submit (now : Nat) (text : String)
  | clearHistory
  | setPrecision (precision : Nat)
deriving DecidableEq, Repr

/-- Serves a request; only a submission has an outcome. -/
def serve (e : Evaluator) : Request → Traced (Evaluator × Option Outcome)
  | .submit now text => do
    let (e, outcome) ← e.submit now text
    return (e, some outcome)
  | .clearHistory => do return (← e.clearHistory, none)
  | .setPrecision precision => do return (← e.setPrecision precision, none)

theorem value_serve_submit (e : Evaluator) (now : Nat) (text : String) :
    (e.serve (.submit now text)).value =
      ((e.submit now text).value.1, some (e.submit now text).value.2) := by
  simp [serve]

theorem saves_serve_submit (e : Evaluator) (now : Nat) (text : String) :
    (e.serve (.submit now text)).saves = (e.submit now text).saves := by
  simp [serve]

/-- Evaluators with the same records that look for the variable in the same way. -/
structure Alike (e f : Evaluator) : Prop where
  records_eq : e.records = f.records
  variableMatch_eq : e.variableMatch = f.variableMatch

/-- Evaluators that are alike have the same outcomes and stay alike. -/
theorem Alike.serve {e f : Evaluator} (h : e.Alike f) (q : Request) :
    (e.serve q).value.2 = (f.serve q).value.2 ∧ (e.serve q).value.1.Alike (f.serve q).value.1 := by
  obtain ⟨hr, hm⟩ := h
  cases q with
  | submit now text =>
    have he := e.answers_submit now text
    have hf := f.answers_submit now text
    rw [precision, hr, hm] at he
    rw [value_serve_submit, value_serve_submit]
    refine ⟨?_, ?_, ?_⟩
    · rw [he.outcome_eq, hf.outcome_eq, precision]
    · rw [he.records_eq, hf.records_eq, hr, precision]
    · rw [he.variableMatch_eq, hf.variableMatch_eq, hm]
  | clearHistory => exact ⟨rfl, congrArg (fun r : Records => r.clear.value) hr, hm⟩
  | setPrecision precision =>
    exact ⟨rfl, congrArg (fun r : Records => (r.setPrecision precision).value) hr, hm⟩

/-- What a request saves keeps the records stored. -/
theorem storedIn_serve {e : Evaluator} {get? : String → Option String}
    (h : e.records.StoredIn get?) (q : Request) :
    (e.serve q).value.1.records.StoredIn (Store.overlay get? (e.serve q).saves) := by
  cases q with
  | submit now text =>
    have hsubmit := e.answers_submit now text
    rw [value_serve_submit, saves_serve_submit, hsubmit.saves_eq, hsubmit.records_eq]
    exact h.note _
  | clearHistory =>
    have hsaves : (e.serve .clearHistory).saves = e.records.clear.saves := by
      simp [serve, clearHistory]
    exact hsaves ▸ h.clear
  | setPrecision precision =>
    have hsaves : (e.serve (.setPrecision precision)).saves =
        (e.records.setPrecision precision).saves := by
      simp [serve, setPrecision]
    exact hsaves ▸ h.setPrecision precision

end Evaluator

/-! ### Services -/

/-- An evaluator and the machine with its store. -/
structure Service where
  machine : Machine
  evaluator : Evaluator

namespace Service

/-- Loads an evaluator from the store of a machine. -/
def start (variableMatch : VariableMatch) (celebrationTime : Nat) (m : Machine) : Service :=
  let x := Evaluator.load variableMatch celebrationTime m.store.get?
  { machine := m.performAll x.effects, evaluator := x.value }

/-- Puts a new evaluator with the same configuration in the place of the old one. -/
def restart (s : Service) : Service :=
  start s.evaluator.variableMatch s.evaluator.celebrationTime s.machine

/-- Serves a request and carries out what it asks for. -/
def serve (s : Service) (q : Evaluator.Request) : Service × Option Outcome :=
  let x := s.evaluator.serve q
  ({ machine := s.machine.performAll x.effects, evaluator := x.value.1 }, x.value.2)

/-- What happens to a service. -/
inductive Step
  | request (q : Evaluator.Request)
  | restart
deriving DecidableEq, Repr

/-- Whether a step is a request. -/
def Step.isRequest : Step → Bool
  | request _ => true
  | restart => false

/-- One step, and the outcome if it has one. -/
def step (s : Service) : Step → Service × Option Outcome
  | .request q => s.serve q
  | .restart => (s.restart, none)

/-- The service after some steps. -/
def run (s : Service) (steps : List Step) : Service :=
  steps.foldl (fun s t => (s.step t).1) s

/-- The outcomes of some steps. -/
def outcomes (s : Service) : List Step → List Outcome
  | [] => []
  | t :: steps => (s.step t).2.toList ++ (s.step t).1.outcomes steps

/-- The past calculations, the newest first. -/
def history (s : Service) : List HistoryItem :=
  s.evaluator.history

/-- The number of significant digits in answers. -/
def precision (s : Service) : Nat :=
  s.evaluator.precision

/-! ### What a restart does -/

/-- The records in memory are those that would be loaded. -/
def Settled (s : Service) : Prop :=
  s.evaluator.records.StoredIn s.machine.store.get?

theorem saves_load (variableMatch : VariableMatch) (celebrationTime : Nat)
    (get? : String → Option String) :
    (Evaluator.load variableMatch celebrationTime get?).saves = [] := by
  simp [Evaluator.load, Records.saves_load]

/-- Starting leaves the store and the files as they are. -/
theorem store_start (variableMatch : VariableMatch) (celebrationTime : Nat) (m : Machine) :
    (start variableMatch celebrationTime m).machine.store = m.store ∧
      (start variableMatch celebrationTime m).machine.files = m.files :=
  m.performAll_of_saves_eq_nil (saves_load variableMatch celebrationTime m.store.get?)

theorem settled_start (variableMatch : VariableMatch) (celebrationTime : Nat) (m : Machine) :
    (start variableMatch celebrationTime m).Settled := by
  rw [Settled, (store_start variableMatch celebrationTime m).1]
  rfl

theorem Settled.serve {s : Service} (h : s.Settled) (q : Evaluator.Request) :
    (s.serve q).1.Settled := by
  have hget : (s.serve q).1.machine.store.get? =
      Store.overlay s.machine.store.get? (s.evaluator.serve q).saves :=
    s.machine.get?_performAll (s.evaluator.serve q)
  rw [Settled, hget]
  exact Evaluator.storedIn_serve h q

/-- **A settled service is alike after a restart.** -/
theorem Settled.alike_restart {s : Service} (h : s.Settled) :
    s.restart.evaluator.Alike s.evaluator where
  records_eq := h
  variableMatch_eq := rfl

/-! ### Runs -/

theorem Settled.step {s : Service} (h : s.Settled) (t : Step) : (s.step t).1.Settled := by
  cases t with
  | request q => exact h.serve q
  | restart => exact settled_start _ _ s.machine

/-- Two services that are alike stay so if only one of them is ever restarted. -/
theorem alike_run {s t : Service} (hs : s.Settled) (h : s.evaluator.Alike t.evaluator)
    (steps : List Step) :
    (s.run steps).evaluator.Alike (t.run (steps.filter Step.isRequest)).evaluator ∧
      s.outcomes steps = t.outcomes (steps.filter Step.isRequest) := by
  induction steps generalizing s t with
  | nil => exact ⟨h, rfl⟩
  | cons first steps ih =>
    have hnext := hs.step first
    cases first with
    | request q =>
      obtain ⟨houtcome, halike⟩ := h.serve q
      obtain ⟨hrun, houtcomes⟩ := ih (s := (s.serve q).1) (t := (t.serve q).1) hnext halike
      refine ⟨hrun, ?_⟩
      have hserve : (s.serve q).2 = (t.serve q).2 := houtcome
      rw [List.filter_cons_of_pos (by rfl), outcomes, outcomes, step, step, hserve, houtcomes]
    | restart =>
      -- the restarted service is settled again, and the other one does not move
      have halike : s.restart.evaluator.Alike t.evaluator :=
        ⟨hs.alike_restart.records_eq.trans h.records_eq, h.variableMatch_eq⟩
      obtain ⟨hrun, houtcomes⟩ := ih hnext halike
      exact ⟨hrun, houtcomes⟩

/-- **Restarting is invisible.**  From any machine, a run has the same outcomes, and the same
history and precision at its end, as the run without its restarts; and since this holds of every
beginning of the run too, these are the same at every step.  Starting changes neither the store nor
the files.  Every history and every precision in a byte is read back from its stored form. -/
theorem restart_invisible (variableMatch : VariableMatch) (celebrationTime : Nat) (m : Machine)
    (steps : List Step) :
    let s := start variableMatch celebrationTime m
    let requests := steps.filter Step.isRequest
    s.outcomes steps = s.outcomes requests ∧
      (s.run steps).history = (s.run requests).history ∧
      (s.run steps).precision = (s.run requests).precision ∧
      s.machine.store = m.store ∧ s.machine.files = m.files ∧
      (∀ history, (Json.parse (Records.historyJson history).render).bind Records.history? =
        some history) ∧
      ∀ precision < 256,
        (Json.parse (Records.settingsJson precision).render).bind Records.settings? =
          some precision := by
  intro s requests
  have hsettled : s.Settled := settled_start variableMatch celebrationTime m
  obtain ⟨halike, houtcomes⟩ := alike_run hsettled ⟨rfl, rfl⟩ steps
  obtain ⟨hstore, hfiles⟩ := store_start variableMatch celebrationTime m
  refine ⟨houtcomes, ?_, ?_, hstore, hfiles, ?_, ?_⟩
  · exact congrArg Records.history halike.records_eq
  · exact congrArg Records.precision halike.records_eq
  · exact fun history => (Records.readsBack_history history).parse
  · exact fun precision h => (Records.readsBack_settings h).parse

/-- A greeting is in the history after a restart, and a precision of 200 is read back. -/
theorem history_restarted_greeting :
    ((start .token 5000 { files := {} }).run
        [.request (.submit 0 "hello"), .restart]).history = [⟨"hello", "Hello there!"⟩] ∧
      (Json.parse (Records.settingsJson 200).render).bind Records.settings? = some 200 := by
  obtain ⟨-, hhistory, -, -, -, -, hsettings⟩ :=
    restart_invisible .token 5000 { files := {} } [.request (.submit 0 "hello"), .restart]
  refine ⟨hhistory.trans ?_, hsettings 200 (by decide)⟩
  decide +kernel

end Service

end Abacus
