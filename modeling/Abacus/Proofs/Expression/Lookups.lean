import Abacus.Calculation

/-!
# What an evaluation looks up

An evaluation knows variables, and functions that are not built in, from its lookup alone.  The names
that it looks up, with their arguments, are `Reduced.lookups`, in order; a name that the operators
`or` and `and` leave aside is not looked up, and neither is one behind the first error.  Lookups with
the same answers to these questions give the same evaluation (`Reduced.eval_congr`).  So a variable
that is not looked up may have any value or none (`Calculation.eval_congr`).
-/

namespace Abacus

namespace Evaluation

variable {α β : Type}

/-- What is done with the value of an evaluation, if there is one. -/
def followedBy (x : Evaluation α) (next : α → List β) : List β :=
  match x.result with
  | .ok a => next a
  | .error _ => []

theorem mem_followedBy {x : Evaluation α} {next : α → List β} {a : α} {b : β}
    (ha : x.result = .ok a) (hb : b ∈ next a) : b ∈ x.followedBy next := by
  unfold followedBy
  rw [ha]
  exact hb

theorem bind_congr {x y : Evaluation α} {f g : α → Evaluation β} (hx : y = x)
    (hf : ∀ a, x.result = .ok a → g a = f a) : (y >>= g) = (x >>= f) := by
  subst hx
  change Evaluation.bind y g = Evaluation.bind y f
  unfold Evaluation.bind
  split
  · next a ha => rw [hf a ha]
  · rfl

end Evaluation

open Evaluation

/-- A name that is looked up, with its arguments; a variable has none. -/
abbrev Reference : Type :=
  String × List Float

mutual

/-- What is looked up for the value of an expression that is not reduced. -/
def Expr.lookups (lookup : Lookup) : Expr → List Reference
  | .number _ => []
  | .unary _ e => e.lookups lookup
  | .chain _ first rest =>
    first.lookups lookup ++
      (first.eval lookup).followedBy fun _ => Expr.lookupsOfOperands lookup rest
  | .builtin _ e => e.lookups lookup
  | .log base e =>
    base.lookups lookup ++ (base.eval lookup).followedBy fun _ => e.lookups lookup
  | .round modulus e =>
    modulus.lookups lookup ++ (modulus.eval lookup).followedBy fun _ => e.lookups lookup
  | .extremum _ first rest =>
    first.lookups lookup ++ (first.eval lookup).followedBy fun _ => Expr.lookupsOfAll lookup rest
  | .call name args =>
    Expr.lookupsOfAll lookup args ++ (Expr.evalAll lookup args).followedBy fun xs => [(name, xs)]
  | .print args => if asksForFormat args then [] else Expr.lookupsOfPrinted lookup 0.0 args

/-- What is looked up for the values of some expressions. -/
def Expr.lookupsOfAll (lookup : Lookup) : List Expr → List Reference
  | [] => []
  | e :: rest =>
    e.lookups lookup ++ (e.eval lookup).followedBy fun _ => Expr.lookupsOfAll lookup rest

/-- What is looked up for the values of the operands after operators. -/
def Expr.lookupsOfOperands (lookup : Lookup) : List (Binary × Expr) → List Reference
  | [] => []
  | (_, e) :: rest =>
    e.lookups lookup ++ (e.eval lookup).followedBy fun _ => Expr.lookupsOfOperands lookup rest

/-- What is looked up for the arguments of `print`. -/
def Expr.lookupsOfPrinted (lookup : Lookup) (last : Float) :
    List (String ⊕ Expr) → List Reference
  | [] => []
  | .inl _ :: rest => Expr.lookupsOfPrinted lookup last rest
  | .inr e :: rest =>
    e.lookups lookup ++ (e.eval lookup).followedBy fun x => Expr.lookupsOfPrinted lookup x rest

end

mutual

/-- What is looked up for the value of a reduced expression. -/
def Reduced.lookups (lookup : Lookup) : Reduced → List Reference
  | .const _ => []
  | .neg e | .not e | .inv e | .builtin _ e => e.lookups lookup
  | .add l r | .mul l r | .mod l r | .pow l r | .compare _ l r | .log l r | .round l r
  | .extremum _ l r =>
    l.lookups lookup ++ (l.eval lookup).followedBy fun _ => r.lookups lookup
  | .or l r =>
    l.lookups lookup ++
      (l.eval lookup).followedBy fun x => if apart x 0.0 then [] else r.lookups lookup
  | .and l r =>
    l.lookups lookup ++
      (l.eval lookup).followedBy fun x => if near x 0.0 then [] else r.lookups lookup
  | .call name args =>
    Reduced.lookupsOfAll lookup args ++
      (Reduced.evalAll lookup args).followedBy fun xs => [(name, xs)]
  | .print args => (Expr.print args).lookups lookup

/-- What is looked up for the values of some reduced expressions. -/
def Reduced.lookupsOfAll (lookup : Lookup) : List Reduced → List Reference
  | [] => []
  | e :: rest =>
    e.lookups lookup ++ (e.eval lookup).followedBy fun _ => Reduced.lookupsOfAll lookup rest

end

/-- A lookup gives the same answers as another one to some questions. -/
def Lookup.AgreesOn (l' l : Lookup) (questions : List Reference) : Prop :=
  ∀ q ∈ questions, l' q.1 q.2 = l q.1 q.2

namespace Lookup.AgreesOn

variable {α : Type} {l l' : Lookup} {qs rs : List Reference}

theorem left (h : l'.AgreesOn l (qs ++ rs)) : l'.AgreesOn l qs :=
  fun q hq => h q (List.mem_append_left rs hq)

/-- The questions behind a value. -/
theorem right {x : Evaluation α} {next : α → List Reference}
    (h : l'.AgreesOn l (qs ++ x.followedBy next)) {a : α} (ha : x.result = .ok a) :
    l'.AgreesOn l (next a) :=
  fun q hq => h q (List.mem_append_right qs (mem_followedBy ha hq))

theorem find_eq {name : String} {args : List Float} (h : l'.AgreesOn l [(name, args)]) :
    l'.find name args = l.find name args := by
  unfold Lookup.find
  rw [h (name, args) List.mem_cons_self]

end Lookup.AgreesOn

variable {l l' : Lookup}

/-! ### Expressions -/

mutual

theorem Expr.eval_congr : ∀ e : Expr, l'.AgreesOn l (e.lookups l) → e.eval l' = e.eval l
  | .number _, _ => by simp only [Expr.eval]
  | .unary .neg e, h | .unary .not e, h | .builtin _ e, h => by
    simp only [Expr.lookups] at h
    simp only [Expr.eval, Expr.eval_congr e h]
  | .chain _ first rest, h => by
    simp only [Expr.lookups] at h
    simp only [Expr.eval]
    refine bind_congr (Expr.eval_congr first h.left) fun a ha => ?_
    rw [Expr.evalOperands_congr rest (h.right ha)]
  | .log e₁ e₂, h | .round e₁ e₂, h => by
    simp only [Expr.lookups] at h
    simp only [Expr.eval]
    refine bind_congr (Expr.eval_congr e₁ h.left) fun a ha => ?_
    rw [Expr.eval_congr e₂ (h.right ha)]
  | .extremum _ first rest, h => by
    simp only [Expr.lookups] at h
    simp only [Expr.eval]
    refine bind_congr (Expr.eval_congr first h.left) fun a ha => ?_
    rw [Expr.evalAll_congr rest (h.right ha)]
  | .call name args, h => by
    simp only [Expr.lookups] at h
    simp only [Expr.eval]
    exact bind_congr (Expr.evalAll_congr args h.left) fun xs hxs => (h.right hxs).find_eq
  | .print args, h => by
    simp only [Expr.lookups] at h
    simp only [Expr.eval]
    split
    · rfl
    · next hformat =>
      rw [if_neg hformat] at h
      rw [Expr.evalPrinted_congr args 0.0 h]

theorem Expr.evalAll_congr : ∀ es : List Expr, l'.AgreesOn l (Expr.lookupsOfAll l es) →
    Expr.evalAll l' es = Expr.evalAll l es
  | [], _ => by simp only [Expr.evalAll]
  | e :: rest, h => by
    simp only [Expr.lookupsOfAll] at h
    simp only [Expr.evalAll]
    refine bind_congr (Expr.eval_congr e h.left) fun a ha => ?_
    rw [Expr.evalAll_congr rest (h.right ha)]

theorem Expr.evalOperands_congr : ∀ es : List (Binary × Expr),
    l'.AgreesOn l (Expr.lookupsOfOperands l es) → Expr.evalOperands l' es = Expr.evalOperands l es
  | [], _ => by simp only [Expr.evalOperands]
  | (_, e) :: rest, h => by
    simp only [Expr.lookupsOfOperands] at h
    simp only [Expr.evalOperands]
    refine bind_congr (Expr.eval_congr e h.left) fun a ha => ?_
    rw [Expr.evalOperands_congr rest (h.right ha)]

theorem Expr.evalPrinted_congr : ∀ (es : List (String ⊕ Expr)) (last : Float),
    l'.AgreesOn l (Expr.lookupsOfPrinted l last es) →
      Expr.evalPrinted l' last es = Expr.evalPrinted l last es
  | [], _, _ => by simp only [Expr.evalPrinted]
  | .inl _ :: rest, last, h => by
    simp only [Expr.lookupsOfPrinted] at h
    simp only [Expr.evalPrinted, Expr.evalPrinted_congr rest last h]
  | .inr e :: rest, _, h => by
    simp only [Expr.lookupsOfPrinted] at h
    simp only [Expr.evalPrinted]
    refine bind_congr (Expr.eval_congr e h.left) fun a ha => ?_
    rw [Expr.evalPrinted_congr rest a (h.right ha)]

end

/-! ### Reduced expressions -/

mutual

/-- **Lookups that agree on what is looked up give the same evaluation.** -/
theorem Reduced.eval_congr : ∀ e : Reduced, l'.AgreesOn l (e.lookups l) → e.eval l' = e.eval l
  | .const _, _ => by simp only [Reduced.eval]
  | .neg e, h | .not e, h | .inv e, h | .builtin _ e, h => by
    simp only [Reduced.lookups] at h
    simp only [Reduced.eval, Reduced.eval_congr e h]
  | .add e₁ e₂, h | .mul e₁ e₂, h | .mod e₁ e₂, h | .pow e₁ e₂, h | .compare _ e₁ e₂, h
  | .log e₁ e₂, h | .round e₁ e₂, h | .extremum _ e₁ e₂, h => by
    simp only [Reduced.lookups] at h
    simp only [Reduced.eval]
    refine bind_congr (Reduced.eval_congr e₁ h.left) fun a ha => ?_
    rw [Reduced.eval_congr e₂ (h.right ha)]
  | .or e₁ e₂, h | .and e₁ e₂, h => by
    simp only [Reduced.lookups] at h
    simp only [Reduced.eval]
    refine bind_congr (Reduced.eval_congr e₁ h.left) fun a ha => ?_
    -- nothing is looked up for the second operand if the first one decides
    have hright := h.right ha
    split
    · rfl
    · next hopen =>
      rw [if_neg hopen] at hright
      exact Reduced.eval_congr e₂ hright
  | .call name args, h => by
    simp only [Reduced.lookups] at h
    simp only [Reduced.eval]
    exact bind_congr (Reduced.evalAll_congr args h.left) fun xs hxs => (h.right hxs).find_eq
  | .print args, h => by
    simp only [Reduced.lookups] at h
    simp only [Reduced.eval]
    exact Expr.eval_congr (.print args) h

theorem Reduced.evalAll_congr : ∀ es : List Reduced,
    l'.AgreesOn l (Reduced.lookupsOfAll l es) → Reduced.evalAll l' es = Reduced.evalAll l es
  | [], _ => by simp only [Reduced.evalAll]
  | e :: rest, h => by
    simp only [Reduced.lookupsOfAll] at h
    simp only [Reduced.evalAll]
    refine bind_congr (Reduced.eval_congr e h.left) fun a ha => ?_
    rw [Reduced.evalAll_congr rest (h.right ha)]

end

/-! ### Calculations -/

/-- What a calculation looks up in a scope. -/
def Calculation.lookups (scope : Scope) : Calculation → List Reference
  | .bareFunction _ => []
  | .expression e => e.lookups scope.toLookup

/-- **A calculation has the same value in scopes that agree on what it looks up.** -/
theorem Calculation.eval_congr {scope scope' : Scope} {c : Calculation}
    (h : scope'.toLookup.AgreesOn scope.toLookup (c.lookups scope)) :
    c.eval scope' = c.eval scope := by
  cases c with
  | bareFunction name => rfl
  | expression e => simp only [Calculation.eval, e.eval_congr h]

end Abacus
