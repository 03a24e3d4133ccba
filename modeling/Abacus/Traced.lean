import Abacus.Log

/-!
# Steps and what they do

A step of the calculator has a value, and it asks for effects: records to be logged, values to be
saved, texts to be printed.  It does not carry them out itself and does not wait for their end, so a
step is a pure function, and whether a value could be saved never changes what follows.
-/

namespace Abacus

/-- What a step asks for. -/
inductive Effect
  | log (record : Log.Record)
  /-- Saves a value in the store. -/
  | save (key value : String)
  /-- Prints a text. -/
  | print (text : String)
  /-- Prints a line beside the output. -/
  | note (line : String)
deriving DecidableEq, Repr

/-- The value of a step, and the effects that it asks for, in order. -/
structure Traced (α : Type) where
  value : α
  effects : List Effect := []

namespace Traced

/-- A step without effects. -/
def ok (a : α) : Traced α :=
  { value := a }

/-- Two steps, one after the other. -/
def bind (x : Traced α) (next : α → Traced β) : Traced β :=
  let y := next x.value
  { value := y.value, effects := x.effects ++ y.effects }

instance : Monad Traced where
  pure := ok
  bind := bind

@[simp] theorem value_pure (a : α) : (pure a : Traced α).value = a := rfl

@[simp] theorem effects_pure (a : α) : (pure a : Traced α).effects = [] := rfl

@[simp] theorem value_bind (x : Traced α) (next : α → Traced β) :
    (x >>= next).value = (next x.value).value := rfl

@[simp] theorem effects_bind (x : Traced α) (next : α → Traced β) :
    (x >>= next).effects = x.effects ++ (next x.value).effects := rfl

@[simp] theorem value_map (f : α → β) (x : Traced α) : (f <$> x).value = f x.value := rfl

@[simp] theorem effects_map (f : α → β) (x : Traced α) : (f <$> x).effects = x.effects :=
  List.append_nil x.effects

theorem ext {x y : Traced α} (hv : x.value = y.value) (he : x.effects = y.effects) : x = y := by
  cases x
  cases y
  simp_all

@[simp] theorem effects_ok (a : α) : (ok a).effects = [] := rfl

instance : LawfulMonad Traced := .mk' Traced
  (fun x => ext rfl (by simp [Functor.map, bind]))
  (fun a f => ext rfl (by simp))
  (fun x f g => ext rfl (by simp [List.append_assoc]))

/-- Logs a record. -/
def log (level : Log.Level) (target : String) : Traced Unit :=
  { value := (), effects := [.log ⟨level, target⟩] }

/-- Saves a value. -/
def save (key value : String) : Traced Unit :=
  { value := (), effects := [.save key value] }

/-- Prints a text. -/
def print (text : String) : Traced Unit :=
  { value := (), effects := [.print text] }

/-- Prints a text and ends the line. -/
def printLine (text : String) : Traced Unit :=
  print (text ++ "\n")

/-- Prints some lines. -/
def printLines : List String → Traced Unit
  | [] => .ok ()
  | line :: rest => do
    printLine line
    printLines rest

/-- Prints some lines beside the output. -/
def notes (lines : List String) : Traced Unit :=
  { value := (), effects := lines.map .note }

/-- The values that a step saves, with their keys. -/
def saves (x : Traced α) : List (String × String) :=
  x.effects.filterMap fun
    | .save key value => some (key, value)
    | _ => none

@[simp] theorem saves_ok (a : α) : (ok a).saves = [] := rfl

@[simp] theorem saves_pure (a : α) : (pure a : Traced α).saves = [] := rfl

@[simp] theorem saves_bind (x : Traced α) (next : α → Traced β) :
    (x >>= next).saves = x.saves ++ (next x.value).saves := by
  simp [saves]

@[simp] theorem saves_map (f : α → β) (x : Traced α) : (f <$> x).saves = x.saves := by
  simp [saves]

@[simp] theorem saves_log (level : Log.Level) (target : String) : (log level target).saves = [] :=
  rfl

@[simp] theorem saves_save (key value : String) : (save key value).saves = [(key, value)] := rfl

@[simp] theorem saves_print (text : String) : (print text).saves = [] := rfl

@[simp] theorem saves_notes (lines : List String) : (notes lines).saves = [] := by
  simp [saves, notes]

end Traced

end Abacus
