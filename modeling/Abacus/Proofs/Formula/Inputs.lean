import Abacus.Formula.Basic
import Abacus.Proofs.Expression.Lookups
import Mathlib.Data.List.Basic

/-!
# The inputs of a formula

A formula is evaluated with one text for each of its variables.  The first variable in the order of
declaration whose text is no finite number decides on the error, whatever the expression is; if there
is none the expression is evaluated in a scope of the declared variables alone
(`Formula.evaluate_declared`).  So texts for other names do not matter, and neither does one more
variable that the expression does not look up.

The values are collected in one pass over the declared variables, so what is proved of a list of
variables cut in two parts carries all of this (`Formula.collect_append`).
-/

namespace Abacus

namespace Formula

variable {inputs inputs' : Inputs} {v w : String}

/-! ### One variable -/

/-- The text given for a variable, trimmed.  No text is as good as an empty one. -/
def given (inputs : Inputs) (v : String) : String :=
  Text.trim ((inputs.lookup v).getD "")

/-- The finite number given for a variable. -/
def number? (inputs : Inputs) (v : String) : Option Float :=
  (Numeral.read (given inputs v)).toOption.filter Float.isFinite

/-- What is wrong with a variable for which no finite number is given. -/
def fault (inputs : Inputs) (v : String) : Error :=
  if given inputs v = "" then .emptyVariable v else .invalidNumber v

theorem inputValue_eq (inputs : Inputs) (v : String) :
    inputValue inputs v =
      match number? inputs v with
      | some a => .ok a
      | none => .error (fault inputs v) := by
  have hgiven : Text.trim ((inputs.lookup v).getD "") = given inputs v := rfl
  simp only [inputValue, hgiven]
  unfold number? fault
  by_cases hempty : given inputs v = ""
  · rw [if_pos hempty, if_pos hempty, hempty]
    rfl
  · rw [if_neg hempty, if_neg hempty]
    cases Numeral.read (given inputs v) with
    | error e => rfl
    | ok x =>
      by_cases hfinite : x.isFinite = true
      · simp [hfinite, Except.toOption, Option.filter]
      · simp [hfinite, Except.toOption, Option.filter]

/-! ### The declared variables -/

/-- The values of some variables, or what is wrong with the first bad one. -/
def collect (inputs : Inputs) (vs : List String) : Except Error Scope :=
  vs.mapM fun v => do return (v, ← inputValue inputs v)

theorem collect_nil : collect inputs [] = .ok [] := rfl

theorem collect_cons (v : String) (vs : List String) :
    collect inputs (v :: vs) =
      match number? inputs v, collect inputs vs with
      | none, _ => .error (fault inputs v)
      | some _, .error e => .error e
      | some a, .ok scope => .ok ((v, a) :: scope) := by
  unfold collect
  rw [List.mapM_cons, inputValue_eq]
  cases number? inputs v with
  | none => rfl
  | some a => cases List.mapM (fun v => do return (v, ← inputValue inputs v)) vs <;> rfl

theorem collect_append (vs ws : List String) :
    collect inputs (vs ++ ws) =
      match collect inputs vs, collect inputs ws with
      | .error e, _ => .error e
      | .ok _, .error e => .error e
      | .ok scope, .ok scope' => .ok (scope ++ scope') := by
  induction vs with
  | nil =>
    rw [List.nil_append, collect_nil]
    cases collect inputs ws <;> rfl
  | cons v vs ih =>
    rw [List.cons_append, collect_cons, collect_cons, ih]
    cases number? inputs v with
    | none => rfl
    | some a => cases collect inputs vs <;> cases collect inputs ws <;> rfl

/-- Variables that all have values make a scope of just these values. -/
theorem exists_collect {vs : List String} (h : ∀ v ∈ vs, (number? inputs v).isSome) :
    ∃ scope, collect inputs vs = .ok scope ∧
      ∀ name, List.lookup name scope = if name ∈ vs then number? inputs name else none := by
  induction vs with
  | nil => exact ⟨[], rfl, fun _ => rfl⟩
  | cons v vs ih =>
    obtain ⟨scope, hscope, hlookup⟩ := ih fun w hw => h w (List.mem_cons_of_mem v hw)
    obtain ⟨a, ha⟩ := Option.isSome_iff_exists.1 (h v List.mem_cons_self)
    refine ⟨(v, a) :: scope, ?_, fun name => ?_⟩
    · rw [collect_cons, ha, hscope]
    · by_cases hname : name = v
      · simp [hname, ha]
      · have hb : (name == v) = false := by simpa using hname
        rw [List.lookup_cons, hb, hlookup]
        simp [hname]

/-- **The first variable without a value decides on the error.** -/
theorem collect_eq_error {before : List String} (hbefore : ∀ w ∈ before, (number? inputs w).isSome)
    (hv : number? inputs v = none) (after : List String) :
    collect inputs (before ++ v :: after) = .error (fault inputs v) := by
  obtain ⟨scope, hscope, -⟩ := exists_collect hbefore
  rw [collect_append, hscope, collect_cons, hv]

/-- An error comes from a variable without a value. -/
theorem exists_fault_of_collect {vs : List String} {e : Error} (h : collect inputs vs = .error e) :
    ∃ v ∈ vs, number? inputs v = none ∧ e = fault inputs v := by
  induction vs with
  | nil => cases h
  | cons v vs ih =>
    rw [collect_cons] at h
    cases hv : number? inputs v with
    | none =>
      rw [hv] at h
      exact ⟨v, List.mem_cons_self, hv, (Except.error.inj h).symm⟩
    | some a =>
      cases hvs : collect inputs vs with
      | ok scope => simp [hv, hvs] at h
      | error e' =>
        obtain rfl : e' = e := by simpa [hv, hvs] using h
        obtain ⟨w, hw, hnone, he⟩ := ih hvs
        exact ⟨w, List.mem_cons_of_mem v hw, hnone, he⟩

theorem collect_congr {vs : List String} (h : ∀ v ∈ vs, inputs'.lookup v = inputs.lookup v) :
    collect inputs' vs = collect inputs vs := by
  induction vs with
  | nil => rw [collect_nil, collect_nil]
  | cons v vs ih =>
    have hgiven : given inputs' v = given inputs v := by
      rw [given, given, h v List.mem_cons_self]
    rw [collect_cons, collect_cons, ih fun w hw => h w (List.mem_cons_of_mem v hw), number?,
      number?, fault, fault, hgiven]

/-! ### Answers -/

/-- What an expression looks up in a scope. -/
def lookups (expression : String) (scope : Scope) : List Reference :=
  match Calculation.parse expression with
  | .ok c => c.lookups scope
  | .error _ => []

theorem evaluate_eq (f : Formula) (inputs : Inputs) :
    f.evaluate inputs =
      match collect inputs f.parameters with
      | .error e => return .error e
      | .ok scope => answer f.expression scope := rfl

theorem answer_congr {expression : String} {scope scope' : Scope}
    (h : scope'.toLookup.AgreesOn scope.toLookup (lookups expression scope)) :
    answer expression scope' = answer expression scope := by
  unfold answer
  unfold lookups at h
  cases hparse : Calculation.parse expression with
  | error e => rfl
  | ok c =>
    rw [hparse] at h
    simp only [Calculation.eval_congr h]

/-- The value of an expression in a scope, worded as an answer. -/
theorem value_answer (expression : String) (scope : Scope) :
    (answer expression scope).value =
      match Calculation.parse expression with
      | .error e => .error (.calculation (.parse e))
      | .ok c =>
        match (c.eval scope).result with
        | .ok (.number x) => .ok (answerText x 14)
        | .ok (.function _) => .error (.calculation .incomplete)
        | .error e => .error (.calculation (.eval e)) := by
  unfold answer
  cases Calculation.parse expression with
  | error e => rfl
  | ok c =>
    simp only [Traced.value_bind]
    cases (c.eval scope).result with
    | error e => rfl
    | ok value => cases value <;> rfl

/-- **An evaluation fails for a declared variable, or it gives the answer in the scope.** -/
theorem value_evaluate_cases (f : Formula) (inputs : Inputs) :
    (∃ v ∈ f.parameters, number? inputs v = none ∧
      (f.evaluate inputs).value = .error (fault inputs v)) ∨
    ∃ scope, f.scope inputs = .ok scope ∧
      (f.evaluate inputs).value = (answer f.expression scope).value := by
  have hscope : f.scope inputs = collect inputs f.parameters := rfl
  rw [evaluate_eq, hscope]
  cases hcollect : collect inputs f.parameters with
  | error e =>
    obtain ⟨v, hv, hnone, rfl⟩ := exists_fault_of_collect hcollect
    exact .inl ⟨v, hv, hnone, rfl⟩
  | ok scope => exact .inr ⟨scope, rfl, rfl⟩

/-- Scopes with the same values give the same answers. -/
theorem toLookup_eq_of_lookup_eq {scope scope' : Scope}
    (h : ∀ name, List.lookup name scope' = List.lookup name scope) :
    scope'.toLookup = scope.toLookup := by
  funext name args
  unfold Scope.toLookup
  rw [h name]

/-- One more variable is seen by questions for this variable only. -/
theorem agreesOn_insert {before after : Scope} {a : Float} {questions : List Reference}
    (h : (w, []) ∉ questions) :
    (Scope.toLookup (before ++ (w, a) :: after)).AgreesOn (Scope.toLookup (before ++ after))
      questions := by
  rintro ⟨name, args⟩ hq
  cases args with
  | cons x args => rfl
  | nil =>
    have hname : name ≠ w := by
      rintro rfl
      exact h hq
    have hb : (name == w) = false := by simpa using hname
    have hlookup : List.lookup name (before ++ (w, a) :: after) =
        List.lookup name (before ++ after) := by
      rw [List.lookup_append, List.lookup_append, List.lookup_cons, hb]
    simp only [Scope.toLookup, hlookup]

/-- **A formula reports its first bad input and sees nothing but its variables.**  The first
variable without a finite number decides on the error.  If all have one, the answer is the value of
the expression in any scope that binds just the variables to their numbers.  Texts for other names
do not matter, nor does one more variable, with a number, that the expression does not look up. -/
theorem evaluate_declared (f : Formula) (inputs : Inputs) :
    (∀ before v after, f.parameters = before ++ v :: after →
      (∀ w ∈ before, (number? inputs w).isSome) → number? inputs v = none →
        f.evaluate inputs =
          return .error (if given inputs v = "" then .emptyVariable v else .invalidNumber v)) ∧
    (∀ scope : Scope, (∀ v ∈ f.parameters, (number? inputs v).isSome) →
      (∀ name, List.lookup name scope =
        if name ∈ f.parameters then number? inputs name else none) →
        (f.evaluate inputs).value =
          match Calculation.parse f.expression with
          | .error e => .error (.calculation (.parse e))
          | .ok c =>
            match (c.eval scope).result with
            | .ok (.number x) => .ok (answerText x 14)
            | .ok (.function _) => .error (.calculation .incomplete)
            | .error e => .error (.calculation (.eval e))) ∧
    (∀ inputs' : Inputs, (∀ v ∈ f.parameters, inputs'.lookup v = inputs.lookup v) →
      f.evaluate inputs' = f.evaluate inputs) ∧
    ∀ before w after, f.parameters = before ++ after → (number? inputs w).isSome →
      (∀ scope, f.scope inputs = .ok scope → (w, []) ∉ lookups f.expression scope) →
        ({ f with parameters := before ++ w :: after } : Formula).evaluate inputs =
          f.evaluate inputs := by
  refine ⟨fun before v after hparameters hbefore hv => ?_, fun scope hall hscope => ?_,
    fun inputs' hagree => ?_, fun before w after hparameters hw hlookups => ?_⟩
  · rw [evaluate_eq, hparameters, collect_eq_error hbefore hv]
    rfl
  · obtain ⟨collected, hcollected, hlookup⟩ := exists_collect hall
    have hsame : collected.toLookup = scope.toLookup :=
      toLookup_eq_of_lookup_eq fun name => (hlookup name).trans (hscope name).symm
    have hanswer : answer f.expression collected = answer f.expression scope := by
      refine answer_congr fun q _ => ?_
      rw [hsame]
    rw [evaluate_eq, hcollected]
    exact (congrArg Traced.value hanswer).trans (value_answer f.expression scope)
  · rw [evaluate_eq, evaluate_eq, collect_congr hagree]
  · obtain ⟨a, ha⟩ := Option.isSome_iff_exists.1 hw
    have hscope : f.scope inputs = collect inputs f.parameters := rfl
    rw [evaluate_eq, evaluate_eq, hparameters, collect_append, collect_append, collect_cons, ha]
    rw [hscope, hparameters, collect_append] at hlookups
    cases hbefore : collect inputs before with
    | error e => rfl
    | ok scope =>
      cases hafter : collect inputs after with
      | error e => rfl
      | ok scope' =>
        rw [hbefore, hafter] at hlookups
        exact answer_congr (agreesOn_insert (hlookups (scope ++ scope') rfl))

/-- A sum of two variables: without a text for the second one, with a number for each of them, and
with a third variable between them. -/
theorem evaluate_sum :
    let f : Formula := ⟨"Sum", "a + b", ["a", "b"]⟩
    let inputs : Inputs := [("a", "1"), ("b", " 2 "), ("c", "5")]
    (f.evaluate [("a", "1"), ("c", "5")]).value = .error (.emptyVariable "b") ∧
      (f.evaluate inputs).value = .ok "3" ∧
      ({ f with parameters := ["a", "c", "b"] } : Formula).evaluate inputs = f.evaluate inputs := by
  intro f inputs
  refine ⟨?_, by decide +kernel, ?_⟩
  · have herror := (evaluate_declared f [("a", "1"), ("c", "5")]).1 ["a"] "b" [] rfl
      (by decide +kernel) (by decide +kernel)
    rw [herror]
    decide +kernel
  · refine (evaluate_declared f inputs).2.2.2 ["a"] "c" ["b"] rfl (by decide +kernel) ?_
    intro scope hscope
    have hvalues : f.scope inputs = .ok [("a", 1), ("b", 2)] := by decide +kernel
    obtain rfl : [("a", 1), ("b", 2)] = scope := Except.ok.inj (hvalues.symm.trans hscope)
    have hlookups : lookups f.expression [("a", 1), ("b", 2)] = [("a", []), ("b", [])] := by
      decide +kernel
    rw [hlookups]
    simp

end Formula

end Abacus
