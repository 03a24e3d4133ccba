import Abacus.Formula.Library
import Abacus.Proofs.Expression.Name
import Abacus.Proofs.Formula.Definition

/-!
# Names as variables of formulas

Any name may be declared as a variable, also one that means something else elsewhere: `pi` is a
constant, `sin` is a function, `and` is an operator behind an operand.  What such a name is worth as
a variable shows in the formula that consists of it (`Formula.variable_works`).  The formula gives
its input back as an answer, for the scope comes before the constants, and an operator does not stand
where an operand has to be.  Two kinds of names are taken out: the bare name of a function goes on to
stand for this function, which is not a number, and a name that is too long for an expression makes a
formula that the library rejects.

All this is about names that do not begin with a word for a number; the expression engine takes `inf`
for infinity whatever the scope says (`Formula.names_that_are_no_variables`).
-/

namespace Abacus

open Formula

variable {v : String}

/-! ### Definition -/

theorem Formula.define_name (hname : Text.isName v.toList = true) :
    define "f" v v = .ok ⟨"f", v, [v]⟩ := by
  have htitle : ("f" : String) ≠ "" := by decide
  have htrimTitle : Text.trim "f" = "f" := by decide
  have htrim : Text.trim v = v := (Text.unblank_of_isName hname).trim_eq
  have hne : v ≠ "" := by
    rintro rfl
    cases hname
  have hdeclares : Declares v [v] :=
    ⟨[], v.toList, [], by decide, .one v, by decide, (List.append_nil _).symm⟩
  exact define_of_declares (f := ⟨"f", v, [v]⟩)
    ⟨htitle, hne, List.cons_ne_nil v [], by simpa using hname⟩ htrimTitle htrim hdeclares

/-! ### Parsing -/

theorem Calculation.parse_function (hname : Text.isName v.toList = true)
    (hv : v ∈ functionNames) : parse v = .ok (.bareFunction v) := by
  unfold parse
  rw [(Text.unblank_of_isName hname).trim_eq]
  exact if_pos (List.contains_iff_mem.2 hv)

theorem Calculation.parse_tooLong (hname : Text.isName v.toList = true)
    (hlength : Parser.maxLength < v.utf8ByteSize) : parse v = .error .tooLong := by
  have hv : v ∉ functionNames := by
    intro hv
    have hshort : ∀ w ∈ functionNames, w.utf8ByteSize ≤ Parser.maxLength := by decide
    exact absurd (hshort v hv) (Nat.not_le.2 hlength)
  unfold parse
  simp only [(Text.unblank_of_isName hname).trim_eq, List.contains_iff_mem, hv, if_false]
  rw [Expr.parse, if_pos hlength]
  rfl

theorem Calculation.parse_variable (hname : Text.isName v.toList = true)
    (hword : ¬ Parser.BeginsNumber v.toList) (hlength : v.utf8ByteSize ≤ Parser.maxLength)
    (hv : v ∉ functionNames) : parse v = .ok (.expression (.call v [])) := by
  unfold parse
  simp only [(Text.unblank_of_isName hname).trim_eq, List.contains_iff_mem, hv, if_false,
    Expr.parse_name hname hword hlength]
  rfl

/-! ### Evaluation -/

/-- A variable has its value in the scope, whatever else its name stands for. -/
theorem Calculation.eval_variable (a : Float) :
    (expression (.call v [])).eval [(v, a)] = .ok (.number a) := by
  have hlookup : Scope.toLookup [(v, a)] v [] = some a := by
    simp only [Scope.toLookup, List.lookup_cons, beq_self_eq_true]
  have hvalue : (Reduced.call v []).eval (Scope.toLookup [(v, a)]) = .ok a := by
    change Lookup.find _ v [] = _
    rw [Lookup.find, hlookup]
  simp only [eval, hvalue]
  rfl

theorem Formula.inputValue_of_read {inputs : Inputs} {text : String} {a : Float}
    (hinput : inputs.lookup v = some text) (hread : Numeral.read text = .ok a)
    (hfinite : a.isFinite = true) : inputValue inputs v = .ok a := by
  have htrim : Text.trim text = text := (Numeral.unblank_of_read hread).trim_eq
  have hne : text ≠ "" := by
    rintro rfl
    cases hread
  unfold inputValue
  simp only [hinput, Option.getD_some, htrim, hne, hread, hfinite, if_false, if_true]

theorem Formula.scope_variable {inputs : Inputs} {a : Float} (n e : String)
    (h : inputValue inputs v = .ok a) : scope ⟨n, e, [v]⟩ inputs = .ok [(v, a)] := by
  simp only [scope, List.mapM_cons, List.mapM_nil, h]
  rfl

theorem Formula.answer_variable (hname : Text.isName v.toList = true)
    (hword : ¬ Parser.BeginsNumber v.toList) (hlength : v.utf8ByteSize ≤ Parser.maxLength)
    (a : Float) : (answer v [(v, a)]).value =
      if v ∈ functionNames then .error (.calculation .incomplete)
      else .ok (answerText a answerPrecision) := by
  unfold answer
  split_ifs with hv
  · rw [Calculation.parse_function hname hv]
    rfl
  · rw [Calculation.parse_variable hname hword hlength hv]
    simp only [Calculation.eval_variable]
    rfl

/-! ### The formula that consists of a variable -/

/-- **A declared variable works as a variable, unless it is the name of a function.** -/
theorem Formula.variable_works (hname : Text.isName v.toList = true)
    (hword : ¬ Parser.BeginsNumber v.toList) (l : Library) :
    ∃ f, define "f" v v = .ok f ∧
      (Parser.maxLength < v.utf8ByteSize →
        (l.add f).value = .error (.invalidExpression .tooLong)) ∧
      (v.utf8ByteSize ≤ Parser.maxLength → ∃ l', (l.add f).value = .ok l' ∧
        ∀ inputs text a, List.lookup v inputs = some text → Numeral.read text = .ok a →
          a.isFinite = true → (l'.evaluate l.formulas.length inputs).value =
            if v ∈ functionNames then .error (.calculation .incomplete)
            else .ok (answerText a answerPrecision)) := by
  refine ⟨⟨"f", v, [v]⟩, define_name hname, fun hlong => ?_, fun hlength => ?_⟩
  · simp only [Library.add, Calculation.parse_tooLong hname hlong, Traced.value_pure]
  · have hparse : ∃ c, Calculation.parse v = .ok c := by
      by_cases hv : v ∈ functionNames
      · exact ⟨_, Calculation.parse_function hname hv⟩
      · exact ⟨_, Calculation.parse_variable hname hword hlength hv⟩
    obtain ⟨c, hc⟩ := hparse
    refine ⟨⟨l.formulas ++ [⟨"f", v, [v]⟩]⟩, ?_, fun inputs text a hinput hread hfinite => ?_⟩
    · simp only [Library.add, hc, Traced.value_bind, Traced.value_pure]
    · have hget : Library.get? ⟨l.formulas ++ [⟨"f", v, [v]⟩]⟩ l.formulas.length =
          some ⟨"f", v, [v]⟩ := List.getElem?_concat_length
      have hscope := scope_variable "f" v (inputValue_of_read hinput hread hfinite)
      simp only [Library.evaluate, hget, Formula.evaluate, hscope]
      exact answer_variable hname hword hlength a

/-- Such a variable may have the name of a constant. -/
theorem Formula.variable_named_pi : ∃ f l, define "f" "pi" "pi" = .ok f ∧
    (Library.add {} f).value = .ok l ∧ (l.evaluate 0 [("pi", "2.5")]).value = .ok "2.5" := by
  have hname : Text.isName "pi".toList = true := by decide
  have hword : ¬ Parser.BeginsNumber "pi".toList := by
    unfold Parser.BeginsNumber
    decide
  obtain ⟨f, hf, -, hadd⟩ := variable_works hname hword {}
  obtain ⟨l, hl, hvalue⟩ := hadd (by decide)
  refine ⟨f, l, hf, hl, ?_⟩
  have hanswer := hvalue [("pi", "2.5")] "2.5" 2.5 rfl (by decide +kernel) (by decide +kernel)
  rw [if_neg (by decide)] at hanswer
  exact hanswer.trans (by decide +kernel)

/-- A name does not give the value back that was given for it if it is the bare name of a function,
which stands for the function, or a word for a number, which stands for this number. -/
theorem Formula.names_that_are_no_variables :
    Text.isName "sin".toList = true ∧ Text.isName "inf".toList = true ∧
      Numeral.read "1" = .ok 1 ∧ (1 : Float).isFinite = true ∧
      (∃ f l, define "f" "sin" "sin" = .ok f ∧ (Library.add {} f).value = .ok l ∧
        (l.evaluate 0 [("sin", "1")]).value = .error (.calculation .incomplete)) ∧
      ∃ f l, define "f" "inf" "inf" = .ok f ∧ (Library.add {} f).value = .ok l ∧
        (l.evaluate 0 [("inf", "1")]).value = .ok "Infinity" := by
  refine ⟨by decide, by decide, by decide +kernel, by decide +kernel,
    ⟨⟨"f", "sin", ["sin"]⟩, ⟨[⟨"f", "sin", ["sin"]⟩]⟩, define_name (by decide), ?_, ?_⟩,
    ⟨⟨"f", "inf", ["inf"]⟩, ⟨[⟨"f", "inf", ["inf"]⟩]⟩, define_name (by decide), ?_, ?_⟩⟩
  all_goals decide +kernel

end Abacus
