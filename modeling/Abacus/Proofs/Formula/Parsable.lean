import Abacus.Proofs.Desk.Faults
import Abacus.Proofs.Evaluator.Classification
import Abacus.Proofs.Formula.Archive

/-!
# Formulas that can be parsed

The expression of a formula is parsed when the formula is added, and again each time it is
evaluated.  In between the formula may have moved in its library, and it may have been written as a
text and read from it.  Still the second parse never fails: an evaluation of a formula of a library
gives a text, or it fails for an input, in the computation, or as the expression is the bare name of
a function (`Library.Reached.value_evaluate`).

Nothing is asked of the store but that it invents no text.  A write may succeed, fail, or be lost
later on, and a store may be closed and opened again in between.  So along with a library go all
texts that were ever to be written, and a loading finds any of them or none (`Library.Reached`).
This covers the runs with any honest store (`Shelf.reached_run`), hence all runs of an archive
(`Archive.reached_run`).

The invariant is on the library and on the texts: all formulas of a library can be parsed, and each
text is that of such a library (`Library.Parsable`).
-/

namespace Abacus

namespace Formula

/-! ### One formula -/

/-- The expression can be parsed. -/
def Parsable (f : Formula) : Prop :=
  ∃ c, Calculation.parse f.expression = .ok c

/-- The answer of an expression that can be parsed. -/
theorem Parsable.value_answer {f : Formula} (h : f.Parsable) (scope : Scope) :
    (∃ text, (answer f.expression scope).value = .ok text) ∨
      (∃ e, (answer f.expression scope).value = .error (.calculation (.eval e))) ∨
      ((answer f.expression scope).value = .error (.calculation .incomplete) ∧
        Text.trim f.expression ∈ functionNames) := by
  obtain ⟨c, hparse⟩ := h
  rw [Formula.value_answer, hparse]
  dsimp only
  cases hresult : (c.eval scope).result with
  | error e => exact .inr (.inl ⟨e, rfl⟩)
  | ok value =>
    cases value with
    | number x => exact .inl ⟨_, rfl⟩
    | function name =>
      refine .inr (.inr ⟨rfl, ?_⟩)
      -- only the name of a function has a function as its value
      obtain ⟨hname, -⟩ | ⟨-, ⟨e, he⟩ | ⟨e, he⟩⟩ := Calculation.parse_cases f.expression
      · exact hname
      · obtain rfl : c = .expression e := Except.ok.inj (hparse.symm.trans he)
        exact absurd hresult (Calculation.result_eval_expression_ne scope e name)
      · rw [hparse] at he
        cases he

end Formula

namespace Library

/-! ### Libraries -/

/-- All formulas can be parsed. -/
def Parsable (l : Library) : Prop :=
  ∀ f ∈ l.formulas, f.Parsable

theorem parsable_nil : Parsable ⟨[]⟩ := by
  intro f hf
  cases hf

/-- **A request keeps all formulas parsable**: one that is added was parsed just then. -/
theorem Parsable.serve {l : Library} (h : l.Parsable) (q : Request) :
    (l.serve q).value.1.Parsable := by
  intro f hf
  rw [value_serve] at hf
  revert hf
  fun_cases Request.onList l.formulas q with
  | case1 g c hparse =>
    intro hf
    rcases List.mem_append.1 hf with hf | hf
    · exact h f hf
    · obtain rfl := List.mem_singleton.1 hf
      exact ⟨c, hparse⟩
  | case3 position g hg =>
    intro hf
    rcases List.mem_append.1 hf with hf | hf
    · exact h f (List.mem_of_mem_take hf)
    · exact h f (List.mem_of_mem_drop hf)
  | _ => exact h f

/-- The libraries that are reached from a store without formulas, each with the texts that were to be
written on the way.  A loading finds any of these texts, or none. -/
inductive Reached : List String → Library → Prop
  | start {get? : String → Option String} :
    get? Store.formulasKey = none → Reached [] (load get?).value
  | serve {texts : List String} {l : Library} (q : Request) :
    Reached texts l → Reached (texts ++ (l.serve q).saves.map Prod.snd) (l.serve q).value.1
  | reload {texts : List String} {l : Library} {get? : String → Option String} :
    Reached texts l → (∀ text, get? Store.formulasKey = some text → text ∈ texts) →
      Reached texts (load get?).value

/-- What is loaded from a store without formulas. -/
theorem load_of_get?_eq_none {get? : String → Option String}
    (h : get? Store.formulasKey = none) : (load get?).value = ⟨[]⟩ := by
  have hformulas := Archive.formulas_load get?
  rw [h] at hformulas
  exact congrArg Library.mk hformulas

/-- **A library that is reached can be parsed, and each text is that of such a library.** -/
theorem Reached.parsable {texts : List String} {l : Library} (h : Reached texts l) :
    l.Parsable ∧ ∀ text ∈ texts, ∃ k : Library, k.Parsable ∧ text = k.toJson.render := by
  induction h with
  | start hnone =>
    rw [load_of_get?_eq_none hnone]
    exact ⟨parsable_nil, fun text htext => by cases htext⟩
  | @serve texts l q _ ih =>
    obtain ⟨hl, htexts⟩ := ih
    refine ⟨hl.serve q, fun text htext => ?_⟩
    rcases List.mem_append.1 htext with htext | htext
    · exact htexts text htext
    · -- what is to be written is the library as it is after the request
      rw [saves_serve] at htext
      split at htext
      · exact ⟨_, hl.serve q, List.mem_singleton.1 htext⟩
      · cases htext
  | @reload texts l get? _ hfound ih =>
    obtain ⟨-, htexts⟩ := ih
    refine ⟨?_, htexts⟩
    cases htext : get? Store.formulasKey with
    | none =>
      rw [load_of_get?_eq_none htext]
      exact parsable_nil
    | some text =>
      obtain ⟨k, hk, rfl⟩ := htexts text (hfound text htext)
      rw [Archive.value_load_of_get? htext]
      exact hk

end Library

/-! ### Stores -/

/-- A library with a store of some kind. -/
structure Shelf (σ : Type) where
  store : σ
  library : Library

namespace Shelf

variable {σ : Type} {B : Store.Backend σ} {s : σ}

/-- Loads a library from a store. -/
def start (B : Store.Backend σ) (s : σ) : Shelf σ :=
  ⟨s, (Library.load (B.get? s)).value⟩

/-- The library and the store after a step. -/
def step (B : Store.Backend σ) (x : Shelf σ) : Archive.Step → Shelf σ
  | .request q =>
    ⟨(B.setAll x.store (x.library.serve q).saves).1, (x.library.serve q).value.1⟩
  | .reload => start B x.store

/-- The library and the store after some steps. -/
def run (B : Store.Backend σ) (x : Shelf σ) (steps : List Archive.Step) : Shelf σ :=
  steps.foldl (step B) x

/-- The library is reached, with all texts that the store holds of formulas. -/
def Reached (B : Store.Backend σ) (x : Shelf σ) : Prop :=
  ∃ texts, x.library.Reached texts ∧
    ∀ text, B.get? x.store Store.formulasKey = some text → text ∈ texts

theorem reached_start (h : B.get? s Store.formulasKey = none) : (start B s).Reached B :=
  ⟨[], .start h, fun text htext => absurd (h.symm.trans htext) (by simp)⟩

theorem Reached.step {x : Shelf σ} (h : x.Reached B) (hB : B.Honest) (t : Archive.Step) :
    (x.step B t).Reached B := by
  obtain ⟨texts, hreached, hfound⟩ := h
  cases t with
  | reload => exact ⟨texts, .reload hreached hfound, hfound⟩
  | request q =>
    -- what is found was to be written by this request, or it was found before
    refine ⟨_, .serve q hreached, fun text htext => ?_⟩
    rcases hB.found_setAll htext with hmem | hbefore
    · exact List.mem_append_right texts (List.mem_map_of_mem hmem)
    · exact List.mem_append_left _ (hfound text hbefore)

/-- **The runs with an honest store reach their libraries.** -/
theorem reached_run (hB : B.Honest) (h : B.get? s Store.formulasKey = none)
    (steps : List Archive.Step) : ((start B s).run B steps).Reached B := by
  have hrun : ∀ x : Shelf σ, x.Reached B → (x.run B steps).Reached B := by
    induction steps with
    | nil => exact fun x hx => hx
    | cons t steps ih => exact fun x hx => ih _ (hx.step hB t)
  exact hrun _ (reached_start h)

/-- An archive as a library with a store of the program. -/
def ofArchive (a : Archive) : Shelf (Store × FileTree) :=
  ⟨(a.machine.store, a.machine.files), a.library⟩

theorem ofArchive_start (m : Machine) :
    ofArchive (Archive.start m) = start .program (m.store, m.files) := by
  obtain ⟨hstore, hfiles⟩ := Archive.store_start m
  simp only [ofArchive, hstore, hfiles]
  rfl

theorem ofArchive_step (a : Archive) (t : Archive.Step) :
    ofArchive (a.step t).1 = (ofArchive a).step .program t := by
  cases t with
  | reload => exact ofArchive_start a.machine
  | request q =>
    have hstore := a.machine.setAll_performAll (a.library.serve q)
    simp only [step, ofArchive, hstore]
    rfl

/-- A run with a store of the program is a run of an archive. -/
theorem ofArchive_run (a : Archive) (steps : List Archive.Step) :
    ofArchive (a.run steps) = (ofArchive a).run .program steps := by
  induction steps generalizing a with
  | nil => rfl
  | cons t steps ih => exact (ih _).trans (by rw [ofArchive_step]; rfl)

end Shelf

/-- **The runs of an archive reach their libraries.** -/
theorem Archive.reached_run {m : Machine} (h : m.store.get? Store.formulasKey = none)
    (steps : List Step) : ∃ texts, ((start m).run steps).library.Reached texts := by
  have hnone : Store.Backend.program.get? (m.store, m.files) Store.formulasKey = none := h
  have hrun : (Shelf.ofArchive ((start m).run steps)).Reached .program := by
    rw [Shelf.ofArchive_run, Shelf.ofArchive_start]
    exact Shelf.reached_run Store.Backend.honest_program hnone steps
  obtain ⟨texts, hreached, -⟩ := hrun
  exact ⟨texts, hreached⟩

namespace Library

/-! ### Evaluations -/

variable {texts : List String} {l : Library}

/-- **A library never holds a formula that cannot be parsed.**  Whatever is added, removed and loaded
again, and whatever becomes of the writes in between, the expression of each formula can be parsed,
and an evaluation at a position of the library gives no parse error.  It gives a text, or the error of
a declared variable without a finite number, or an error of the computation, or it is incomplete; and
this last only if the expression is, trimmed, the bare name of a function. -/
theorem Reached.value_evaluate (h : Reached texts l) :
    l.Parsable ∧ ∀ (position : Nat) (hposition : position < l.formulas.length)
      (inputs : Formula.Inputs),
      let f := l.formulas[position]
      let result := (l.evaluate position inputs).value
      (∀ e, result ≠ .error (.calculation (.parse e)) ∧ result ≠ .error (.invalidExpression e)) ∧
        ((∃ text, result = .ok text) ∨
          (∃ v ∈ f.parameters, Formula.number? inputs v = none ∧
            (result = .error (.emptyVariable v) ∨ result = .error (.invalidNumber v))) ∨
          (∃ e, result = .error (.calculation (.eval e))) ∨
          (result = .error (.calculation .incomplete) ∧
            Text.trim f.expression ∈ functionNames)) := by
  refine ⟨h.parsable.1, fun position hposition inputs => ?_⟩
  intro f result
  have hf : f.Parsable := h.parsable.1 f (List.getElem_mem hposition)
  have hresult : result = (f.evaluate inputs).value := by
    simp only [result, evaluate, get?, List.getElem?_eq_getElem hposition, f]
  rw [hresult]
  obtain ⟨v, hv, hnone, hfault⟩ | ⟨scope, -, hanswer⟩ := f.value_evaluate_cases inputs
  · rw [hfault]
    unfold Formula.fault
    split
    · exact ⟨by simp, .inr (.inl ⟨v, hv, hnone, .inl rfl⟩)⟩
    · exact ⟨by simp, .inr (.inl ⟨v, hv, hnone, .inr rfl⟩)⟩
  · rw [hanswer]
    obtain ⟨text, htext⟩ | ⟨e, he⟩ | ⟨hincomplete, hname⟩ := hf.value_answer scope
    · exact ⟨by simp [htext], .inl ⟨text, htext⟩⟩
    · exact ⟨by simp [he], .inr (.inr (.inl ⟨e, he⟩))⟩
    · exact ⟨by simp [hincomplete], .inr (.inr (.inr ⟨hincomplete, hname⟩))⟩

/-- A formula is lost as it cannot be written, and one is rejected; of two others the second one moves
to the front, is written and is loaded again. -/
theorem value_evaluate_after_failures :
    let double : Formula := ⟨"Double", "2 * n", ["n"]⟩
    let sine : Formula := ⟨"Sine", " sin ", ["n"]⟩
    let steps : List Archive.Step := [.request (.add double), .reload,
      .request (.add ⟨"Broken", "2 +* n", ["n"]⟩), .request (.add sine), .request (.add double),
      .request (.remove 0), .reload, .request (.add sine)]
    let s : Store.Contents × List Bool := (.ofList [], [false, true, false, true, false])
    let l := ((Shelf.start .scripted s).run .scripted steps).library
    l.formulas = [double, sine] ∧ (l.evaluate 0 [("n", "4")]).value = .ok "8" ∧
      (l.evaluate 1 [("n", "4")]).value = .error (.calculation .incomplete) ∧
      ∀ inputs e, (l.evaluate 0 inputs).value ≠ .error (.calculation (.parse e)) := by
  intro double sine steps s l
  have hformulas : l.formulas = [double, sine] := by decide +kernel
  obtain ⟨texts, hreached, -⟩ : ((Shelf.start .scripted s).run .scripted steps).Reached .scripted :=
    Shelf.reached_run Store.Backend.honest_scripted rfl steps
  have hposition : 0 < l.formulas.length := by
    rw [hformulas]
    decide
  refine ⟨hformulas, by decide +kernel, by decide +kernel, fun inputs e => ?_⟩
  exact ((Reached.value_evaluate hreached).2 0 hposition inputs).1 e |>.1

end Library

end Abacus
