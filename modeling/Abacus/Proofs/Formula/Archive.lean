import Abacus.Proofs.Formula.Inputs
import Abacus.Proofs.Json.Codec
import Abacus.Proofs.Store.Saves
import Abacus.Formula.Library

/-!
# The formula library as a list

A library is kept in the store of a machine, and may be loaded from it again at any time.  To its
users it is a plain list of formulas (`Archive.refines_list`): what a request does to a list is told
by `Library.Request.onList`, without stores and texts, and no loading in between is noticed.

One request does to the library what it does to the list (`Library.value_serve`), and it saves the
library once if it changes it, and nothing else (`Library.saves_serve`).  So the library in memory
is always the one that would be loaded (`Archive.Settled`), since every formula reads back from its
stored form (`Formula.readsBack`).
-/

namespace Abacus

open Json

/-! ### Stored forms -/

theorem Formula.readsBack (f : Formula) : ReadsBack toJson ofJson? f where
  printable := by
    refine printable_record ?_
    simp only [List.forall_mem_cons, List.not_mem_nil, false_implies, implies_true, and_true]
    exact ⟨.text f.name, .text f.expression,
      (ReadsBack.list fun v (_ : v ∈ f.parameters) => readsBack_text v).printable⟩
  decode?_encode := by
    have hfields := record?_record [("name", .text f.name), ("expression", .text f.expression),
      ("variables", .array (f.parameters.map .text))] (by simp)
    have hparameters : (Json.array (f.parameters.map .text)).list? Json.text? = some f.parameters :=
      (ReadsBack.list fun v (_ : v ∈ f.parameters) => readsBack_text v).decode?_encode
    simp only [List.map_cons, List.map_nil] at hfields
    simp only [toJson, ofJson?, hfields, hparameters]
    rfl

namespace Library

/-- **A library reads back from its stored form.** -/
theorem readsBack (l : Library) : ReadsBack toJson ofJson? l := by
  have hlist : ReadsBack (fun fs => Json.array (fs.map Formula.toJson)) (list? Formula.ofJson?)
      l.formulas := ReadsBack.list fun f _ => f.readsBack
  refine ⟨hlist.printable, ?_⟩
  have hdecode : (list? Formula.ofJson?) l.toJson = some l.formulas := hlist.decode?_encode
  rw [ofJson?, hdecode]
  rfl

/-! ### Requests -/

/-- What may be asked of a library. -/
inductive Request
  | add (f : Formula)
  | remove (position : Nat)
  | get (position : Nat)
  | evaluate (position : Nat) (inputs : Formula.Inputs)
deriving DecidableEq, Repr

/-- What a library answers. -/
inductive Answer
  | added
  | removed (f : Formula)
  | found (f? : Option Formula)
  | value (text : String)
  | failed (e : Formula.Error)
deriving DecidableEq, Repr

/-- Whether an answer tells of a change. -/
def Answer.isChange : Answer → Bool
  | added | removed _ => true
  | found _ | value _ | failed _ => false

/-- The answer to an evaluation. -/
def Answer.ofValue : Except Formula.Error String → Answer
  | .ok text => value text
  | .error e => failed e

/-- Serves a request. -/
def serve (l : Library) : Request → Traced (Library × Answer)
  | .add f => do
    match ← l.add f with
    | .ok l => return (l, .added)
    | .error e => return (l, .failed e)
  | .remove position => do
    match ← l.remove position with
    | .ok (f, l) => return (l, .removed f)
    | .error e => return (l, .failed e)
  | .get position => return (l, .found (l.get? position))
  | .evaluate position inputs => do return (l, .ofValue (← l.evaluate position inputs))

/-- What a request does to a plain list, and its answer. -/
def Request.onList (formulas : List Formula) : Request → List Formula × Answer
  | .add f =>
    match Calculation.parse f.expression with
    | .ok _ => (formulas ++ [f], .added)
    | .error e => (formulas, .failed (.invalidExpression e))
  | .remove position =>
    match formulas[position]? with
    | some f => (formulas.take position ++ formulas.drop (position + 1), .removed f)
    | none => (formulas, .failed (.notFound position))
  | .get position => (formulas, .found formulas[position]?)
  | .evaluate position inputs =>
    match formulas[position]? with
    | some f => (formulas, .ofValue (f.evaluate inputs).value)
    | none => (formulas, .failed (.notFound position))

/-- **A request does to a library what it does to a list.** -/
theorem value_serve (l : Library) (q : Request) :
    (l.serve q).value = (⟨(q.onList l.formulas).1⟩, (q.onList l.formulas).2) := by
  cases q with
  | add f =>
    simp only [serve, add, Request.onList]
    cases Calculation.parse f.expression <;> rfl
  | remove position =>
    simp only [serve, remove, get?, Request.onList]
    cases l.formulas[position]? with
    | none => rfl
    | some f =>
      rw [← List.eraseIdx_eq_take_drop_succ]
      rfl
  | get position => rfl
  | evaluate position inputs =>
    simp only [serve, evaluate, get?, Request.onList]
    cases l.formulas[position]? <;> rfl

theorem saves_evaluate (f : Formula) (inputs : Formula.Inputs) :
    (f.evaluate inputs).saves = [] := by
  unfold Formula.evaluate
  cases f.scope inputs with
  | error e => rfl
  | ok scope =>
    dsimp only [Formula.answer]
    cases Calculation.parse f.expression with
    | error e => rfl
    | ok c =>
      simp only [Traced.saves_bind, Traced.saves_notes, List.nil_append]
      cases (c.eval scope).result with
      | error e => rfl
      | ok v => cases v <;> rfl

/-- **A change is saved once, and nothing else is saved.** -/
theorem saves_serve (l : Library) (q : Request) :
    (l.serve q).saves =
      if (l.serve q).value.2.isChange
      then [(Store.formulasKey, (l.serve q).value.1.toJson.render)] else [] := by
  cases q with
  | add f =>
    cases h : Calculation.parse f.expression <;> simp only [serve, add, h] <;> rfl
  | remove position =>
    cases h : l.get? position <;> simp only [serve, remove, h] <;> rfl
  | get position => rfl
  | evaluate position inputs =>
    cases h : l.get? position with
    | none =>
      simp only [serve, evaluate, h]
      rfl
    | some f =>
      have hvalue : ((l.serve (.evaluate position inputs)).value.2).isChange = false := by
        simp only [serve, evaluate, h, Traced.value_bind, Traced.value_pure]
        cases (f.evaluate inputs).value <;> rfl
      rw [hvalue]
      simp [serve, evaluate, h, saves_evaluate]

/-- An answer that tells of no change comes with the same list. -/
theorem Request.onList_of_not_isChange {formulas : List Formula} {q : Request}
    (h : (q.onList formulas).2.isChange = false) : (q.onList formulas).1 = formulas := by
  fun_cases onList formulas q with
  | case1 f c hparse =>
    simp [onList, hparse, Answer.isChange] at h
  | case3 position f hf =>
    simp [onList, hf, Answer.isChange] at h
  | _ => rfl

/-- An answer that tells of no change comes with the same library. -/
theorem serve_of_not_isChange {l : Library} {q : Request}
    (h : (l.serve q).value.2.isChange = false) : (l.serve q).value.1 = l := by
  rw [value_serve] at h ⊢
  rw [Request.onList_of_not_isChange h]

/-! ### Failures -/

/-- An evaluation does not ask for the position of the formula. -/
theorem evaluate_ne_notFound (f : Formula) (inputs : Formula.Inputs) (position : Nat) :
    (f.evaluate inputs).value ≠ .error (.notFound position) := by
  obtain ⟨v, -, -, hfault⟩ | ⟨scope, -, hanswer⟩ := f.value_evaluate_cases inputs
  · rw [hfault, Formula.fault]
    split <;> simp
  · rw [hanswer, Formula.value_answer]
    cases Calculation.parse f.expression with
    | error e => simp
    | ok c =>
      cases hresult : (c.eval scope).result with
      | error e => simp [hresult]
      | ok v => cases v <;> simp [hresult]

/-- An addition fails exactly if the expression cannot be parsed. -/
theorem Request.onList_add_failed_iff (formulas : List Formula) (f : Formula) :
    (∃ e, ((Request.add f).onList formulas).2 = .failed e) ↔
      ∃ e, Calculation.parse f.expression = .error e := by
  cases h : Calculation.parse f.expression <;> simp [onList, h]

/-- A removal finds no formula exactly if the position is past the end. -/
theorem Request.onList_remove_notFound_iff (formulas : List Formula) (position : Nat) :
    ((Request.remove position).onList formulas).2 = .failed (.notFound position) ↔
      formulas.length ≤ position := by
  cases h : formulas[position]? <;> simp [onList, h, ← List.getElem?_eq_none_iff]

/-- An evaluation finds no formula exactly if the position is past the end. -/
theorem Request.onList_evaluate_notFound_iff (formulas : List Formula) (position : Nat)
    (inputs : Formula.Inputs) :
    ((Request.evaluate position inputs).onList formulas).2 = .failed (.notFound position) ↔
      formulas.length ≤ position := by
  cases h : formulas[position]? with
  | none => simp [onList, h, ← List.getElem?_eq_none_iff]
  | some f =>
    have hvalue := evaluate_ne_notFound f inputs position
    rw [← List.getElem?_eq_none_iff, h]
    simp only [onList, h]
    cases hresult : (f.evaluate inputs).value with
    | ok text => simp [Answer.ofValue]
    | error e =>
      rw [hresult] at hvalue
      simpa [Answer.ofValue] using hvalue

end Library

/-! ### Archives -/

/-- A library and the machine with its store. -/
structure Archive where
  machine : Machine
  library : Library

namespace Archive

/-- Loads a library from the store of a machine. -/
def start (m : Machine) : Archive :=
  let x := Library.load m.store.get?
  { machine := m.performAll x.effects, library := x.value }

/-- Puts a library that is loaded anew in the place of the old one. -/
def reload (a : Archive) : Archive :=
  start a.machine

/-- Serves a request and carries out what it asks for. -/
def serve (a : Archive) (q : Library.Request) : Archive × Library.Answer :=
  let x := a.library.serve q
  ({ machine := a.machine.performAll x.effects, library := x.value.1 }, x.value.2)

/-- What happens to an archive. -/
inductive Step
  | request (q : Library.Request)
  | reload
deriving DecidableEq, Repr

/-- One step, and the answer if it has one. -/
def step (a : Archive) : Step → Archive × Option Library.Answer
  | .request q => ((a.serve q).1, some (a.serve q).2)
  | .reload => (a.reload, none)

/-- The archive after some steps. -/
def run (a : Archive) (steps : List Step) : Archive :=
  steps.foldl (fun a t => (a.step t).1) a

/-- The answers of some steps. -/
def answers (a : Archive) : List Step → List (Option Library.Answer)
  | [] => []
  | t :: steps => (a.step t).2 :: (a.step t).1.answers steps

/-! ### Plain lists -/

/-- What a step does to a plain list, and its answer: a loading does nothing. -/
def Step.onList (formulas : List Formula) : Step → List Formula × Option Library.Answer
  | request q => ((q.onList formulas).1, some (q.onList formulas).2)
  | reload => (formulas, none)

/-- The list after some steps. -/
def listRun (formulas : List Formula) (steps : List Step) : List Formula :=
  steps.foldl (fun formulas t => (t.onList formulas).1) formulas

/-- The answers of some steps on a list. -/
def listAnswers (formulas : List Formula) : List Step → List (Option Library.Answer)
  | [] => []
  | t :: steps => (t.onList formulas).2 :: listAnswers (t.onList formulas).1 steps

/-! ### What a loading does -/

/-- The library in memory is the one that would be loaded. -/
def Settled (a : Archive) : Prop :=
  (Library.load a.machine.store.get?).value = a.library

theorem saves_load (get? : String → Option String) : (Library.load get?).saves = [] := by
  simp [Library.load]

/-- The formulas that are loaded; there are none if the text cannot be read. -/
theorem formulas_load (get? : String → Option String) :
    (Library.load get?).value.formulas = ((get? Store.formulasKey).bind fun text =>
      (parse text).bind (list? Formula.ofJson?)).getD [] := by
  simp only [Library.load, Traced.value_bind, Traced.value_pure, Store.value_load]
  cases get? Store.formulasKey with
  | none => rfl
  | some text =>
    cases hparse : parse text with
    | none => simp [hparse]
    | some j => cases hlist : list? Formula.ofJson? j <;> simp [hparse, Library.ofJson?, hlist]

/-- Loading leaves the store and the files as they are. -/
theorem store_start (m : Machine) :
    (start m).machine.store = m.store ∧ (start m).machine.files = m.files :=
  m.performAll_of_saves_eq_nil (saves_load m.store.get?)

theorem settled_start (m : Machine) : (start m).Settled := by
  rw [Settled, (store_start m).1]
  rfl

/-- A library is loaded from its text. -/
theorem value_load_of_get? {get? : String → Option String} {l : Library}
    (h : get? Store.formulasKey = some l.toJson.render) : (Library.load get?).value = l := by
  have hparse := l.readsBack.parse
  simp only [Library.load, Traced.value_bind, Traced.value_pure, Store.value_load, h,
    Option.bind_some, hparse, Option.getD_some]

/-- A library that was just saved is the one that would be loaded. -/
theorem load_overlay (get? : String → Option String) (l : Library) :
    (Library.load (Store.overlay get? [(Store.formulasKey, l.toJson.render)])).value = l :=
  value_load_of_get? ((Store.overlay_singleton get? _ _ _).trans (if_pos rfl))

theorem Settled.serve {a : Archive} (h : a.Settled) (q : Library.Request) :
    (a.serve q).1.Settled := by
  have hget : (a.serve q).1.machine.store.get? =
      Store.overlay a.machine.store.get? (a.library.serve q).saves :=
    a.machine.get?_performAll (a.library.serve q)
  rw [Settled, hget, Library.saves_serve]
  cases hchange : (a.library.serve q).value.2.isChange with
  | true => exact load_overlay _ _
  | false => exact h.trans (Library.serve_of_not_isChange hchange).symm

/-- **A loading changes nothing.** -/
theorem Settled.reload {a : Archive} (h : a.Settled) :
    a.reload.library = a.library ∧ a.reload.machine.store = a.machine.store ∧
      a.reload.machine.files = a.machine.files :=
  ⟨h, store_start a.machine⟩

/-! ### Runs -/

theorem Settled.step {a : Archive} (h : a.Settled) (t : Step) : (a.step t).1.Settled := by
  cases t with
  | request q => exact h.serve q
  | reload => exact settled_start a.machine

theorem Settled.run {a : Archive} (h : a.Settled) (steps : List Step) : (a.run steps).Settled := by
  induction steps generalizing a with
  | nil => exact h
  | cons t steps ih => exact ih (h.step t)

/-- A step does to an archive what it does to a list. -/
theorem Settled.step_eq_onList {a : Archive} (h : a.Settled) (t : Step) :
    ((a.step t).1.library.formulas, (a.step t).2) = t.onList a.library.formulas := by
  cases t with
  | request q =>
    simp only [Archive.step, Archive.serve, Library.value_serve]
    rfl
  | reload =>
    simp only [Archive.step, h.reload.1]
    rfl

/-- A run does to an archive what it does to a list. -/
theorem Settled.run_eq_listRun {a : Archive} (h : a.Settled) (steps : List Step) :
    a.answers steps = listAnswers a.library.formulas steps ∧
      (a.run steps).library.formulas = listRun a.library.formulas steps := by
  induction steps generalizing a with
  | nil => exact ⟨rfl, rfl⟩
  | cons t steps ih =>
    obtain ⟨hanswers, hrun⟩ := ih (h.step t)
    have hstep := h.step_eq_onList t
    -- the rest of the run begins with the list that the first step leaves
    have hformulas := congrArg Prod.fst hstep
    have hanswer := congrArg Prod.snd hstep
    dsimp only at hformulas hanswer
    rw [hformulas] at hanswers hrun
    refine ⟨?_, hrun⟩
    rw [answers, listAnswers, hanswer, hanswers]

/-- **A formula library is a plain list, kept durably and changed in whole steps.**  Whatever the
store held at first, a run of an archive has the answers and the formulas of the same run of a list,
which begins with the stored formulas, or empty if there are none that can be read, and to which
loading does nothing.  Loading writes nothing, at the start and at any later time.  Of the requests
after such a run, one that changes the list saves the new list once, and any other one saves nothing
and leaves library, store and files as they are; an addition fails exactly if the expression cannot
be parsed, and a removal and an evaluation find no formula exactly if the position is past the
end. -/
theorem refines_list (m : Machine) (steps : List Step) :
    let stored? := (m.store.get? "custom-formulas").bind fun text =>
      (Json.parse text).bind (Json.list? Formula.ofJson?)
    let formulas := stored?.getD []
    let a := (start m).run steps
    (start m).answers steps = listAnswers formulas steps ∧
      a.library.formulas = listRun formulas steps ∧
      ((start m).machine.store = m.store ∧ (start m).machine.files = m.files) ∧
      (a.reload.library = a.library ∧ a.reload.machine.store = a.machine.store ∧
        a.reload.machine.files = a.machine.files) ∧
      (∀ q, (a.library.serve q).saves =
        if (a.serve q).2.isChange
        then [("custom-formulas", (a.serve q).1.library.toJson.render)] else []) ∧
      (∀ q, (a.serve q).2.isChange = false → (a.serve q).1.library = a.library ∧
        (a.serve q).1.machine.store = a.machine.store ∧
        (a.serve q).1.machine.files = a.machine.files) ∧
      (∀ f, (∃ e, (a.serve (.add f)).2 = .failed e) ↔
        ∃ e, Calculation.parse f.expression = .error e) ∧
      (∀ position, (a.serve (.remove position)).2 = .failed (.notFound position) ↔
        a.library.formulas.length ≤ position) ∧
      ∀ position inputs, (a.serve (.evaluate position inputs)).2 = .failed (.notFound position) ↔
        a.library.formulas.length ≤ position := by
  intro stored? formulas a
  have hstart : (start m).Settled := settled_start m
  have hformulas : (start m).library.formulas = formulas := formulas_load m.store.get?
  obtain ⟨hanswers, hrun⟩ := hstart.run_eq_listRun steps
  rw [hformulas] at hanswers hrun
  have hanswer : ∀ q, (a.serve q).2 = (q.onList a.library.formulas).2 := fun q =>
    congrArg Prod.snd (a.library.value_serve q)
  refine ⟨hanswers, hrun, store_start m, (hstart.run steps).reload, ?_, ?_, ?_, ?_, ?_⟩
  · exact fun q => a.library.saves_serve q
  · intro q hchange
    have hsaves := a.library.saves_serve q
    have hchange' : (a.library.serve q).value.2.isChange = false := hchange
    rw [hchange'] at hsaves
    exact ⟨Library.serve_of_not_isChange hchange, a.machine.performAll_of_saves_eq_nil hsaves⟩
  · intro f
    simp only [hanswer, Library.Request.onList_add_failed_iff]
  · intro position
    rw [hanswer, Library.Request.onList_remove_notFound_iff]
  · intro position inputs
    rw [hanswer, Library.Request.onList_evaluate_notFound_iff]

end Archive

end Abacus
