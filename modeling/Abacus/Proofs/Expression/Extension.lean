import Abacus.Calculation

/-!
# Evaluation with more variables

An evaluation asks its lookup for variables and calls, and ends with an error as soon as one has no
value.  So an expression that has a value has asked for known names only, and it keeps this value in
every lookup that knows more (`Lookup.Extends`), with everything that it prints on the way
(`Reduced.persists_eval`).  A scope knows more than the empty one if none of its variables hides a
constant (`Scope.extends_nil`); in such a scope a calculation that has a value without variables has
the same value (`Calculation.persists_eval`).

`Evaluation.Persists` is the relation between the two evaluations.  It is closed under sequencing
(`Evaluation.Persists.bind`), and that alone carries the induction over expressions.
-/

namespace Abacus

/-- The first lookup gives every answer that the second one gives. -/
def Lookup.Extends (l' l : Lookup) : Prop :=
  ∀ name args v, l name args = some v → l' name args = some v

namespace Evaluation

variable {α β : Type}

/-- If the first evaluation has a value then the second one is the same. -/
def Persists (x y : Evaluation α) : Prop :=
  ∀ a, x.result = .ok a → y = x

theorem Persists.refl (x : Evaluation α) : x.Persists x := by
  intro _ _
  rfl

theorem Persists.bind {x y : Evaluation α} {f g : α → Evaluation β} (hx : x.Persists y)
    (hf : ∀ a, (f a).Persists (g a)) : (x >>= f).Persists (y >>= g) := by
  intro b hb
  change (Evaluation.bind x f).result = .ok b at hb
  change Evaluation.bind y g = Evaluation.bind x f
  cases h : x.result with
  | error e => simp [Evaluation.bind, h] at hb
  | ok a =>
    rw [hx a h]
    simp only [Evaluation.bind, h] at hb ⊢
    rw [hf a b hb]

theorem Persists.result_eq {x y : Evaluation α} (h : x.Persists y) {a : α}
    (ha : x.result = .ok a) : y.result = .ok a := by
  rw [h a ha, ha]

end Evaluation

open Evaluation

variable {l l' : Lookup}

theorem Lookup.Extends.find (h : l'.Extends l) (name : String) (args : List Float) :
    (l.find name args).Persists (l'.find name args) := by
  intro a ha
  unfold Lookup.find at ha ⊢
  cases hl : l name args with
  | none => simp [hl, Evaluation.fail] at ha
  | some v => rw [h name args v hl]

/-! ### Expressions -/

mutual

theorem Expr.persists_eval (h : l'.Extends l) : ∀ e : Expr, (e.eval l).Persists (e.eval l')
  | .number v => by
    simp only [Expr.eval]
    exact .refl _
  | .unary .neg e | .unary .not e | .builtin _ e => by
    simp only [Expr.eval]
    exact (persists_eval h e).bind fun _ => .refl _
  | .chain _ first rest => by
    simp only [Expr.eval]
    exact (persists_eval h first).bind fun _ => (persists_evalOperands h rest).bind fun _ => .refl _
  | .log e₁ e₂ | .round e₁ e₂ => by
    simp only [Expr.eval]
    exact (persists_eval h e₁).bind fun _ => (persists_eval h e₂).bind fun _ => .refl _
  | .extremum _ first rest => by
    simp only [Expr.eval]
    exact (persists_eval h first).bind fun _ => (persists_evalAll h rest).bind fun _ => .refl _
  | .call name args => by
    simp only [Expr.eval]
    exact (persists_evalAll h args).bind (h.find name)
  | .print args => by
    simp only [Expr.eval]
    split
    · exact .refl _
    · exact (persists_evalPrinted h 0.0 args).bind fun _ => .refl _

theorem Expr.persists_evalAll (h : l'.Extends l) :
    ∀ es : List Expr, (Expr.evalAll l es).Persists (Expr.evalAll l' es)
  | [] => by
    simp only [Expr.evalAll]
    exact .refl _
  | e :: rest => by
    simp only [Expr.evalAll]
    exact (persists_eval h e).bind fun _ => (persists_evalAll h rest).bind fun _ => .refl _

theorem Expr.persists_evalOperands (h : l'.Extends l) :
    ∀ es : List (Binary × Expr), (Expr.evalOperands l es).Persists (Expr.evalOperands l' es)
  | [] => by
    simp only [Expr.evalOperands]
    exact .refl _
  | (_, e) :: rest => by
    simp only [Expr.evalOperands]
    exact (persists_eval h e).bind fun _ => (persists_evalOperands h rest).bind fun _ => .refl _

theorem Expr.persists_evalPrinted (h : l'.Extends l) (last : Float) :
    ∀ es : List (String ⊕ Expr),
      (Expr.evalPrinted l last es).Persists (Expr.evalPrinted l' last es)
  | [] => by
    simp only [Expr.evalPrinted]
    exact .refl _
  | .inl _ :: rest => by
    simp only [Expr.evalPrinted]
    exact (persists_evalPrinted h last rest).bind fun _ => .refl _
  | .inr e :: rest => by
    simp only [Expr.evalPrinted]
    exact (persists_eval h e).bind fun x => (persists_evalPrinted h x rest).bind fun _ => .refl _

end

/-! ### Reduced expressions -/

mutual

/-- **A reduced expression that has a value keeps it when more is known.** -/
theorem Reduced.persists_eval (h : l'.Extends l) :
    ∀ e : Reduced, (e.eval l).Persists (e.eval l')
  | .const v => by
    simp only [Reduced.eval]
    exact .refl _
  | .neg e | .not e | .inv e | .builtin _ e => by
    simp only [Reduced.eval]
    exact (persists_eval h e).bind fun _ => .refl _
  | .add e₁ e₂ | .mul e₁ e₂ | .mod e₁ e₂ | .pow e₁ e₂ | .compare _ e₁ e₂ | .log e₁ e₂
  | .round e₁ e₂ | .extremum _ e₁ e₂ => by
    simp only [Reduced.eval]
    exact (persists_eval h e₁).bind fun _ => (persists_eval h e₂).bind fun _ => .refl _
  | .or e₁ e₂ | .and e₁ e₂ => by
    simp only [Reduced.eval]
    -- the first operand decides in both lookups whether the second one is evaluated
    refine (persists_eval h e₁).bind fun x => ?_
    split
    · exact .refl _
    · exact persists_eval h e₂
  | .call name args => by
    simp only [Reduced.eval]
    exact (persists_evalAll h args).bind (h.find name)
  | .print args => by
    simp only [Reduced.eval]
    exact Expr.persists_eval h (.print args)

theorem Reduced.persists_evalAll (h : l'.Extends l) :
    ∀ es : List Reduced, (Reduced.evalAll l es).Persists (Reduced.evalAll l' es)
  | [] => by
    simp only [Reduced.evalAll]
    exact .refl _
  | e :: rest => by
    simp only [Reduced.evalAll]
    exact (persists_eval h e).bind fun _ => (persists_evalAll h rest).bind fun _ => .refl _

end

/-! ### Scopes -/

theorem Scope.toLookup_of_lookup_eq_none {scope : Scope} {name : String}
    (h : List.lookup name scope = none) (args : List Float) :
    scope.toLookup name args = library name args := by
  unfold Scope.toLookup
  rw [h]
  cases args <;> rfl

theorem Scope.toLookup_cons (scope : Scope) (name : String) (a : Float) (args : List Float) :
    scope.toLookup name (a :: args) = library name (a :: args) := rfl

/-- A scope that hides no constant extends the empty one. -/
theorem Scope.extends_nil {scope : Scope} (h : ∀ p ∈ scope, library p.1 [] = none) :
    scope.toLookup.Extends (Scope.toLookup []) := by
  intro name args v hv
  rw [toLookup_of_lookup_eq_none rfl] at hv
  cases args with
  | cons a args => rwa [toLookup_cons]
  | nil =>
    cases hlookup : List.lookup name scope with
    | none => rwa [toLookup_of_lookup_eq_none hlookup]
    | some w =>
      -- the scope would hide the constant `v`
      obtain ⟨before, after, rfl, -⟩ := List.lookup_eq_some_iff.1 hlookup
      have hnone := h (name, w) (by simp)
      rw [hv] at hnone
      cases hnone

/-- **A calculation that has a value without variables keeps it in a scope that hides no
constant.** -/
theorem Calculation.persists_eval {scope : Scope} (h : ∀ p ∈ scope, library p.1 [] = none)
    (c : Calculation) : (c.eval []).Persists (c.eval scope) := by
  cases c with
  | bareFunction name => exact .refl _
  | expression e =>
    simp only [Calculation.eval]
    exact (e.persists_eval (Scope.extends_nil h)).bind fun _ => .refl _

end Abacus
