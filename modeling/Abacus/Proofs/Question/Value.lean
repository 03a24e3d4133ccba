import Abacus.Proofs.Evaluator.Classification
import Abacus.Proofs.Expression.Call
import Abacus.Proofs.Expression.Literal

/-!
# The number that a question asks for

A question has a number as its value (`Question.number?`) if its text, with the root signs spelled
out, is not the bare name of a function, is not too long, and is an expression with a value
(`Question.number?_eq_some_iff`).

A name that is neither a constant nor a function gives no value: not as a call
(`Calculation.not_evaluates_call`), and not as a variable with something behind it that is no
operator (`Calculation.not_evaluates_variable`) or a number with a sign
(`Calculation.not_evaluates_signed`).
-/

namespace Abacus

/-! ### The number that a text stands for -/

theorem Scope.toLookup_nil : Scope.toLookup [] = library := by
  funext name args
  exact toLookup_of_lookup_eq_none rfl args

/-- The number that a question has as its value, if it has one. -/
def Question.number? (text : String) : Option Float :=
  match Calculation.parse (ofText text).normalized with
  | .error _ => none
  | .ok c =>
    match (c.eval []).result with
    | .ok (.number v) => some v
    | _ => none

/-- A text is an expression with a value. -/
def Calculation.Evaluates (cs : List Char) (v : Float) : Prop :=
  ∃ e c, Parser.whole { rest := cs } = .ok (e, c) ∧ (e.reduce.eval library).result = .ok v

theorem Calculation.result_eval_expression (e : Reduced) (v : Float) :
    ((expression e).eval []).result = .ok (.number v) ↔ (e.eval library).result = .ok v := by
  rw [← Scope.toLookup_nil]
  change (Evaluation.bind (e.eval _) fun v => Evaluation.ok (Value.number v)).result = _ ↔ _
  unfold Evaluation.bind
  cases h : (e.eval (Scope.toLookup [])).result with
  | error err => simp
  | ok w => simp [Evaluation.ok]

theorem Question.normalized_ofList {p : List Char} (hp : Text.HeadUnblank p)
    (hp' : Text.LastUnblank p) : (ofText (.ofList p)).normalized = .ofList (Root.spellOut p) := by
  simp only [ofText, String.toList_ofList, Text.trimChars_of_unblank hp hp']

theorem Question.number?_eq_some_iff {p : List Char} (hp : Text.HeadUnblank p)
    (hp' : Text.LastUnblank p) {v : Float} : number? (.ofList p) = some v ↔
      String.ofList (Root.spellOut p) ∉ functionNames ∧
        (String.ofList (Root.spellOut p)).utf8ByteSize ≤ Parser.maxLength ∧
        Calculation.Evaluates (Root.spellOut p) v := by
  have htrim := trim_normalized (.ofList p)
  rw [normalized_ofList hp hp'] at htrim
  unfold number? Calculation.parse
  rw [normalized_ofList hp hp', htrim]
  by_cases hname : String.ofList (Root.spellOut p) ∈ functionNames
  · rw [if_pos (List.contains_iff_mem.2 hname)]
    simp [hname, Calculation.eval, Evaluation.ok]
  · rw [if_neg (mt List.contains_iff_mem.1 hname), Expr.parse, String.toList_ofList]
    by_cases hlength : Parser.maxLength < (String.ofList (Root.spellOut p)).utf8ByteSize
    · rw [if_pos hlength]
      simp [Except.map, Nat.not_le.2 hlength]
    · rw [if_neg hlength]
      have hfits := Nat.not_lt.1 hlength
      cases hwhole : Parser.whole { rest := Root.spellOut p } with
      | error err => simp [Except.map, Calculation.Evaluates, hwhole]
      | ok x =>
        obtain ⟨e, c⟩ := x
        have hevaluates : Calculation.Evaluates (Root.spellOut p) v ↔
            ((Calculation.expression e.reduce).eval []).result = .ok (.number v) := by
          rw [Calculation.result_eval_expression]
          constructor
          · rintro ⟨e', c', hwhole', heval⟩
            rw [hwhole] at hwhole'
            cases hwhole'
            exact heval
          · exact fun heval => ⟨e, c, hwhole, heval⟩
        rw [hevaluates]
        simp only [Except.map, hname, hfits, not_false_eq_true, true_and]
        cases ((Calculation.expression e.reduce).eval []).result with
        | error err => simp
        | ok w => cases w <;> simp

/-! ### Names that stand for nothing -/

namespace Calculation

open Abacus.Parser

variable {name : List Char} {v : Float}

theorem result_eval_call (name : String) (args : List Expr) :
    (Expr.call name args).reduce.eval library =
      Reduced.evalAll library (Expr.reduceAll args) >>= Lookup.find library name := by
  simp only [Expr.reduce, Reduced.eval]

theorem result_eval_call_singleton {name : String} {e : Expr} {x y : Float}
    (heval : (e.reduce.eval library).result = .ok x) (hname : library name [x] = some y) :
    ((Expr.call name [e]).reduce.eval library).result = .ok y := by
  have hargs : (Reduced.evalAll library (Expr.reduceAll [e])).result = .ok [x] := by
    simp only [Expr.reduceAll, Reduced.evalAll]
    change (Evaluation.bind _ _).result = _
    unfold Evaluation.bind
    rw [heval]
    rfl
  rw [result_eval_call]
  change (Evaluation.bind _ _).result = _
  unfold Evaluation.bind Lookup.find
  rw [hargs]
  simp only [hname]
  rfl

/-- A name that means nothing has no value, neither as a variable nor as a function. -/
theorem result_eval_call_ne {name : String} (hname : ∀ args, library name args = none)
    (args : List Expr) (v : Float) :
    ((Expr.call name args).reduce.eval library).result ≠ .ok v := by
  rw [result_eval_call]
  change (Evaluation.bind _ _).result ≠ _
  unfold Evaluation.bind Lookup.find
  cases (Reduced.evalAll library (Expr.reduceAll args)).result with
  | error err => simp
  | ok xs => simp [hname, Evaluation.fail]

/-- Neither has a sum with such a variable. -/
theorem result_eval_sum_ne {name : String} (hname : library name [] = none) (x v : Float) :
    ((Reduced.sum [.call name [], .const x]).eval library).result ≠ .ok v := by
  have hcall : (Reduced.call name []).eval library = .fail (.undefined name) := by
    change Lookup.find library name [] = _
    rw [Lookup.find, hname]
  have hsum : Reduced.sum [.call name [], .const x] =
      if apart (0.0 + x) 0.0 then .add (.call name []) (.const (0.0 + x)) else .call name [] := rfl
  rw [hsum]
  split_ifs
  · simp only [Reduced.eval]
    change (Evaluation.bind (Reduced.eval library (.call name [])) _).result ≠ _
    rw [hcall]
    simp [Evaluation.bind, Evaluation.fail]
  · rw [hcall]
    simp [Evaluation.fail]

theorem not_evaluates_of_error {cs : List Char} (h : ∃ err, whole { rest := cs } = .error err) :
    ¬ Evaluates cs v := by
  obtain ⟨err, herr⟩ := h
  rintro ⟨e, c, hwhole, -⟩
  rw [herr] at hwhole
  cases hwhole

theorem not_evaluates_call {cs : List Char} {name : String}
    (hname : ∀ args, library name args = none) {args : List Expr} {es os : Nat}
    (h : operand maxDepth { rest := cs } = .ok (.call name args, ⟨[], es, os⟩)) :
    ¬ Evaluates cs v := by
  rintro ⟨e, c, hwhole, heval⟩
  rw [whole_of_operand es os h] at hwhole
  cases es with
  | zero => cases hwhole
  | succ n =>
    cases hwhole
    exact result_eval_call_ne hname args v heval

/-- Nothing may stand behind a variable but an operator. -/
theorem not_evaluates_variable (h : LeftToLookup name) {after rest : List Char} {d : Char}
    (hafter : ∀ d ∈ after.head?, Text.inName d = false)
    (hspaces : after.dropWhile isSpace = d :: rest)
    (hd : d ∉ "+-*/%^<>=!|&oa([".toList) : ¬ Evaluates (name ++ after) v := by
  have hbracket : ∀ c ∈ (after.dropWhile isSpace).head?, closerOf? c = none := by
    rw [hspaces]
    rintro _ ⟨rfl⟩
    fun_cases closerOf? d with
    | case1 | case2 => exact absurd (by decide) hd
    | case3 => rfl
  have hoperand : operand maxDepth { rest := name ++ after } = _ :=
    h.operandWith_variable _ _ 64 64 hafter hbracket
  have hagain : (after.dropWhile isSpace).dropWhile isSpace = d :: rest := by
    rw [List.dropWhile_idempotent, hspaces]
  have hsymbols : ∀ d ∈ "+-*/%^<>=!|&oa".toList, d ∈ "+-*/%^<>=!|&oa([".toList :=
    List.all_iff_forall_prop.1 (by decide)
  refine not_evaluates_of_error (whole_of_operator?_eq_none _ _ hoperand ?_ ?_)
  · rw [hagain]
    exact List.cons_ne_nil d rest
  · rw [hagain]
    exact operator?_eq_none (mt (hsymbols d) hd) rest

/-- A variable that means nothing has no value in a sum with a number either. -/
theorem not_evaluates_signed (h : LeftToLookup name) (hname : library (.ofList name) [] = none)
    {after w : List Char} {c : Char} (hafter : ∀ d ∈ after.head?, Text.inName d = false)
    (hspaces : after.dropWhile isSpace = c :: w) (hc : c = '-' ∨ c = '+')
    (hw : IsLiteral (c :: w)) : ¬ Evaluates (name ++ after) v := by
  have hbracket : ∀ d ∈ (after.dropWhile isSpace).head?, closerOf? d = none := by
    rw [hspaces]
    rintro _ ⟨rfl⟩
    obtain rfl | rfl := hc <;> rfl
  have hoperand : operand maxDepth { rest := name ++ after } = _ :=
    h.operandWith_variable _ _ 64 64 hafter hbracket
  have hagain : (after.dropWhile isSpace).dropWhile isSpace = c :: w := by
    rw [List.dropWhile_idempotent, hspaces]
  obtain ⟨op, hop, hne⟩ : ∃ op, operator? (c :: w) = some (op, w) ∧ ∀ y,
      ((Expr.ofOperands (.call (.ofList name) []) [(op, .number y)]).reduce.eval library).result ≠
        .ok v := by
    obtain rfl | rfl := hc
    · exact ⟨.sub, rfl, fun y => result_eval_sum_ne hname (-y) v⟩
    · exact ⟨.add, rfl, fun y => result_eval_sum_ne hname y v⟩
  rw [← hagain] at hop
  obtain ⟨herror, hok⟩ := whole_of_operator? _ _ hoperand hop
  obtain ⟨y, hy⟩ | ⟨err, herr⟩ := hw.number?_of_sign hc 64 64
  · have hnumber : operand maxDepth ⟨w, 64, 64⟩ = .ok (.number y, ⟨[], 64, 64⟩) := by
      change operandWith _ _ _ = _
      unfold operandWith
      rw [bind_apply, hy]
      rfl
    rintro ⟨e, c', hwhole, heval⟩
    rw [hok _ _ _ hnumber] at hwhole
    cases hwhole
    exact hne y heval
  · have hnumber : operand maxDepth ⟨w, 64, 64⟩ = .error err := by
      change operandWith _ _ _ = _
      unfold operandWith
      rw [bind_apply, herr]
    exact not_evaluates_of_error ⟨err, herror err hnumber⟩

end Calculation

end Abacus
