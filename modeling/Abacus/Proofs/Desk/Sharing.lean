import Abacus.Proofs.Evaluator.Journal
import Abacus.Proofs.Formula.Archive

/-!
# Two clients of one store

An evaluator and a library may share the store of a machine; together they make a desk.  Their steps
come in any order, and each may be loaded anew at any time, from what both have written by then.
Still neither notices the other: what each answers and knows is what a service, or an archive, with
a machine of its own would answer and know (`Desk.undisturbed`).

Each writes under keys of its own (`Evaluator.mem_keys_of_mem_saves`,
`Library.mem_keys_of_mem_saves`) and finds under these keys all that it is loaded from.  So a step of
one leaves the keys of the other alone (`Service.get?_step`, `Archive.get?_step`), and what is found
under the keys of a client is always what is found there after its own steps alone
(`Desk.Splits`).
-/

namespace Abacus

/-! ### Keys -/

namespace Evaluator

/-- The keys of the records of an evaluator. -/
def keys : List String :=
  [Store.historyKey, Store.settingsKey]

theorem mem_keys_of_mem_saves {e : Evaluator} {q : Request} {save : String × String}
    (h : save ∈ (e.serve q).saves) : save.1 ∈ keys := by
  rcases e.saves_serve q with ⟨hsaves, -⟩ | ⟨hsaves, -⟩ | ⟨hsaves, -⟩ <;> rw [hsaves] at h
  · cases h
  · exact List.mem_singleton.1 h ▸ List.mem_cons_self
  · exact List.mem_singleton.1 h ▸ List.mem_cons_of_mem _ List.mem_cons_self

/-- An evaluator is loaded from what is under its keys. -/
theorem value_load_congr (variableMatch : VariableMatch) (celebrationTime : Nat)
    {get? get?' : String → Option String} (h : ∀ key ∈ keys, get? key = get?' key) :
    (load variableMatch celebrationTime get?).value =
      (load variableMatch celebrationTime get?').value := by
  have hhistory : get? Store.historyKey = get?' Store.historyKey := h _ (by simp [keys])
  have hsettings : get? Store.settingsKey = get?' Store.settingsKey := h _ (by simp [keys])
  have hrecords : (Records.load get?).value = (Records.load get?').value := by
    rw [Records.value_load, Records.value_load, hhistory, hsettings]
  simp only [load, Traced.value_bind, Traced.value_pure, hrecords]

end Evaluator

namespace Library

/-- The key of the formulas of a library. -/
def keys : List String :=
  [Store.formulasKey]

theorem mem_keys_of_mem_saves {l : Library} {q : Request} {save : String × String}
    (h : save ∈ (l.serve q).saves) : save.1 ∈ keys := by
  rw [saves_serve] at h
  split at h
  · exact List.mem_singleton.1 h ▸ List.mem_cons_self
  · cases h

/-- A library is loaded from what is under its key. -/
theorem value_load_congr {get? get?' : String → Option String}
    (h : ∀ key ∈ keys, get? key = get?' key) : (load get?).value = (load get?').value := by
  have hformulas : get? Store.formulasKey = get?' Store.formulasKey := h _ (by simp [keys])
  simp only [load, Traced.value_bind, Traced.value_pure, Store.value_load, hformulas]

end Library

/-! ### Clients and the rest of the store -/

namespace Service

/-- Two services are twins if they have the same evaluator and find the same under its keys. -/
structure Twins (s t : Service) : Prop where
  evaluator_eq : s.evaluator = t.evaluator
  get?_eq : ∀ key ∈ Evaluator.keys, s.machine.store.get? key = t.machine.store.get? key

/-- **A step leaves the other keys alone.** -/
theorem get?_step (s : Service) (x : Step) {key : String} (h : key ∉ Evaluator.keys) :
    (s.step x).1.machine.store.get? key = s.machine.store.get? key := by
  cases x with
  | request q =>
    refine s.machine.get?_performAll_of_forall_ne fun save hsave heq => h ?_
    exact heq ▸ Evaluator.mem_keys_of_mem_saves hsave
  | restart =>
    rw [step, restart, (store_start _ _ _).1]

/-- **Twins have the same outcomes and stay twins.** -/
theorem Twins.step {s t : Service} (h : s.Twins t) (x : Step) :
    (s.step x).2 = (t.step x).2 ∧ (s.step x).1.Twins (t.step x).1 := by
  cases x with
  | request q =>
    simp only [Service.step, serve, ← h.evaluator_eq]
    refine ⟨trivial, rfl, fun key hkey => ?_⟩
    exact Machine.get?_performAll_congr (h.get?_eq key hkey) _
  | restart =>
    refine ⟨rfl, ?_, fun key hkey => ?_⟩
    · simp only [Service.step, restart, start, ← h.evaluator_eq]
      exact Evaluator.value_load_congr _ _ h.get?_eq
    · simp only [Service.step, restart, (store_start _ _ _).1]
      exact h.get?_eq key hkey

end Service

namespace Archive

/-- Two archives are twins if they have the same library and find the same under its key. -/
structure Twins (a b : Archive) : Prop where
  library_eq : a.library = b.library
  get?_eq : ∀ key ∈ Library.keys, a.machine.store.get? key = b.machine.store.get? key

/-- **A step leaves the other keys alone.** -/
theorem get?_step (a : Archive) (x : Step) {key : String} (h : key ∉ Library.keys) :
    (a.step x).1.machine.store.get? key = a.machine.store.get? key := by
  cases x with
  | request q =>
    refine a.machine.get?_performAll_of_forall_ne fun save hsave heq => h ?_
    exact heq ▸ Library.mem_keys_of_mem_saves hsave
  | reload =>
    rw [step, reload, (store_start _).1]

/-- **Twins have the same answers and stay twins.** -/
theorem Twins.step {a b : Archive} (h : a.Twins b) (x : Step) :
    (a.step x).2 = (b.step x).2 ∧ (a.step x).1.Twins (b.step x).1 := by
  cases x with
  | request q =>
    simp only [Archive.step, serve, ← h.library_eq]
    refine ⟨trivial, rfl, fun key hkey => ?_⟩
    exact Machine.get?_performAll_congr (h.get?_eq key hkey) _
  | reload =>
    refine ⟨rfl, ?_, fun key hkey => ?_⟩
    · simp only [Archive.step, reload, start]
      exact Library.value_load_congr h.get?_eq
    · simp only [Archive.step, reload, (store_start _).1]
      exact h.get?_eq key hkey

end Archive

/-! ### Desks -/

/-- An evaluator and a library that share the store of a machine. -/
structure Desk where
  machine : Machine
  evaluator : Evaluator
  library : Library

namespace Desk

/-- The evaluator, with the machine. -/
def service (d : Desk) : Service :=
  ⟨d.machine, d.evaluator⟩

/-- The library, with the machine. -/
def archive (d : Desk) : Archive :=
  ⟨d.machine, d.library⟩

/-- Loads an evaluator and a library from the store of a machine. -/
def start (variableMatch : VariableMatch) (celebrationTime : Nat) (m : Machine) : Desk :=
  let s := Service.start variableMatch celebrationTime m
  let a := Archive.start s.machine
  { machine := a.machine, evaluator := s.evaluator, library := a.library }

/-- A step of one of the two. -/
inductive Step
  | evaluator (x : Service.Step)
  | library (x : Archive.Step)
deriving DecidableEq, Repr

/-- The step, if it is one of the evaluator. -/
def Step.service? : Step → Option Service.Step
  | evaluator x => some x
  | library _ => none

/-- The step, if it is one of the library. -/
def Step.archive? : Step → Option Archive.Step
  | evaluator _ => none
  | library x => some x

/-- The desk after a step. -/
def step (d : Desk) : Step → Desk
  | .evaluator x =>
    let s := (d.service.step x).1
    { d with machine := s.machine, evaluator := s.evaluator }
  | .library x =>
    let a := (d.archive.step x).1
    { d with machine := a.machine, library := a.library }

/-- The desk after some steps. -/
def run (d : Desk) (steps : List Step) : Desk :=
  steps.foldl step d

/-- The outcomes of the evaluator in some steps. -/
def outcomes (d : Desk) : List Step → List Outcome
  | [] => []
  | .evaluator x :: steps =>
    (d.service.step x).2.toList ++ (d.step (.evaluator x)).outcomes steps
  | .library x :: steps => (d.step (.library x)).outcomes steps

/-- The answers of the library in some steps. -/
def answers (d : Desk) : List Step → List (Option Library.Answer)
  | [] => []
  | .evaluator x :: steps => (d.step (.evaluator x)).answers steps
  | .library x :: steps => (d.archive.step x).2 :: (d.step (.library x)).answers steps

/-- A desk splits into a service and an archive with machines of their own: each finds the same under
its keys, and under all other keys is found what a machine had there. -/
structure Splits (d : Desk) (s : Service) (a : Archive) (m : Machine) : Prop where
  service : d.service.Twins s
  archive : d.archive.Twins a
  get?_eq : ∀ key, key ∉ Evaluator.keys → key ∉ Library.keys →
    d.machine.store.get? key = m.store.get? key

theorem notMem_evaluator_keys {key : String} (h : key ∈ Library.keys) : key ∉ Evaluator.keys := by
  rw [List.mem_singleton.1 h]
  decide

theorem splits_start (variableMatch : VariableMatch) (celebrationTime : Nat) (m : Machine) :
    (start variableMatch celebrationTime m).Splits
      (Service.start variableMatch celebrationTime m) (Archive.start m) m := by
  -- loading leaves the store as it is, for either client and for both
  obtain ⟨hservice, -⟩ := Service.store_start variableMatch celebrationTime m
  obtain ⟨harchive, -⟩ := Archive.store_start m
  have hdesk : (start variableMatch celebrationTime m).machine.store = m.store := by
    rw [start, (Archive.store_start _).1, hservice]
  refine ⟨⟨rfl, ?_⟩, ⟨?_, ?_⟩, ?_⟩
  · intro key _
    rw [service, hdesk, hservice]
  · simp only [archive, start, Archive.start, hservice]
  · intro key _
    rw [archive, hdesk, harchive]
  · intro key _ _
    rw [hdesk]

variable {d : Desk} {s : Service} {a : Archive} {m : Machine}

theorem Splits.evaluator (h : d.Splits s a m) (x : Service.Step) :
    (d.service.step x).2 = (s.step x).2 ∧
      (d.step (.evaluator x)).Splits (s.step x).1 a m := by
  obtain ⟨houtcome, htwins⟩ := h.service.step x
  refine ⟨houtcome, htwins, ⟨h.archive.library_eq, ?_⟩, ?_⟩
  · intro key hkey
    exact (d.service.get?_step x (notMem_evaluator_keys hkey)).trans (h.archive.get?_eq key hkey)
  · intro key hevaluator hlibrary
    exact (d.service.get?_step x hevaluator).trans (h.get?_eq key hevaluator hlibrary)

theorem Splits.library (h : d.Splits s a m) (x : Archive.Step) :
    (d.archive.step x).2 = (a.step x).2 ∧
      (d.step (.library x)).Splits s (a.step x).1 m := by
  obtain ⟨hanswer, htwins⟩ := h.archive.step x
  refine ⟨hanswer, ⟨h.service.evaluator_eq, ?_⟩, htwins, ?_⟩
  · intro key hkey
    have hother : key ∉ Library.keys := fun hmem => notMem_evaluator_keys hmem hkey
    exact (d.archive.get?_step x hother).trans (h.service.get?_eq key hkey)
  · intro key hevaluator hlibrary
    exact (d.archive.get?_step x hlibrary).trans (h.get?_eq key hevaluator hlibrary)

/-- **A run splits** into the steps of the evaluator and those of the library. -/
theorem Splits.run (h : d.Splits s a m) (steps : List Step) :
    d.outcomes steps = s.outcomes (steps.filterMap Step.service?) ∧
      d.answers steps = a.answers (steps.filterMap Step.archive?) ∧
      (d.run steps).Splits (s.run (steps.filterMap Step.service?))
        (a.run (steps.filterMap Step.archive?)) m := by
  induction steps generalizing d s a with
  | nil => exact ⟨rfl, rfl, h⟩
  | cons first steps ih =>
    cases first with
    | evaluator x =>
      obtain ⟨houtcome, hsplits⟩ := h.evaluator x
      obtain ⟨houtcomes, hanswers, hrun⟩ := ih hsplits
      refine ⟨?_, hanswers, hrun⟩
      rw [outcomes, houtcome, houtcomes]
      rfl
    | library x =>
      obtain ⟨hanswer, hsplits⟩ := h.library x
      obtain ⟨houtcomes, hanswers, hrun⟩ := ih hsplits
      refine ⟨houtcomes, ?_, hrun⟩
      rw [answers, hanswer, hanswers]
      rfl

/-- **Two clients of one store do not disturb each other.**  Whatever the store of a machine holds at
first, and in whatever order an evaluator and a library take their steps there, loadings included,
the evaluator has the same outcomes, the same history and the same precision as a service that takes
its steps alone, in their order, on a machine of its own, and the library has the same answers and
the same formulas as an archive that does so; since this holds of every beginning of the steps too,
it holds at every time.  In the end the store holds under the keys of history and settings what that
service leaves there, under the key of the formulas what that archive leaves there, and under every
other key what was there at first. -/
theorem undisturbed (variableMatch : VariableMatch) (celebrationTime : Nat) (m : Machine)
    (steps : List Step) :
    let d := start variableMatch celebrationTime m
    let s := Service.start variableMatch celebrationTime m
    let a := Archive.start m
    let evaluatorSteps := steps.filterMap Step.service?
    let librarySteps := steps.filterMap Step.archive?
    d.outcomes steps = s.outcomes evaluatorSteps ∧
      d.answers steps = a.answers librarySteps ∧
      (d.run steps).evaluator.history = (s.run evaluatorSteps).history ∧
      (d.run steps).evaluator.precision = (s.run evaluatorSteps).precision ∧
      (d.run steps).library.formulas = (a.run librarySteps).library.formulas ∧
      ∀ key, (d.run steps).machine.store.get? key =
        if key ∈ ["calcHistory", "calcSettings"] then
          (s.run evaluatorSteps).machine.store.get? key
        else if key = "custom-formulas" then (a.run librarySteps).machine.store.get? key
        else m.store.get? key := by
  intro d s a evaluatorSteps librarySteps
  obtain ⟨houtcomes, hanswers, hrun⟩ :=
    (splits_start variableMatch celebrationTime m).run steps
  have hevaluator : (d.run steps).evaluator = (s.run evaluatorSteps).evaluator :=
    hrun.service.evaluator_eq
  have hlibrary : (d.run steps).library = (a.run librarySteps).library := hrun.archive.library_eq
  refine ⟨houtcomes, hanswers, ?_, ?_, ?_, fun key => ?_⟩
  · rw [hevaluator, Service.history]
  · rw [hevaluator, Service.precision]
  · rw [hlibrary]
  · split_ifs with hrecords hformulas
    · exact hrun.service.get?_eq key hrecords
    · exact hrun.archive.get?_eq key (List.mem_singleton.2 hformulas)
    · exact hrun.get?_eq key hrecords fun hmem => hformulas (List.mem_singleton.1 hmem)

end Desk

end Abacus
