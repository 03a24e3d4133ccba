/-!
# Decimal numbers and their nearest neighbours

A `Decimal` is a natural coefficient times a power of ten.  A finite float is `m * 2 ^ e` exactly,
so its decimals are found in integer arithmetic, without error:

* `Decimal.fixed` : the nearest decimal with a given number of places after the point,
* `Decimal.significant` : the nearest decimal with a given number of significant digits,
* `Decimal.strip` : the same number without the zeros at the end of its coefficient.

Of two decimals at the same distance the one with the even coefficient is taken (`roundHalfEven`).
-/

namespace Abacus

/-- The number `coefficient * 10 ^ exponent`. -/
structure Decimal where
  coefficient : Nat
  exponent : Int
deriving DecidableEq, Repr, Inhabited

namespace Decimal

/-- The digits of the coefficient. -/
def digits (d : Decimal) : List Char :=
  Nat.toDigits 10 d.coefficient

/-- The power of ten that the first digit counts. -/
def lead (d : Decimal) : Int :=
  d.exponent + d.digits.length - 1

/-- The same number with no zero at the end of its coefficient. -/
def strip (d : Decimal) : Decimal :=
  if h : d.coefficient ≠ 0 ∧ d.coefficient % 10 = 0 then
    strip ⟨d.coefficient / 10, d.exponent + 1⟩
  else d
termination_by d.coefficient
decreasing_by exact Nat.div_lt_self (Nat.pos_of_ne_zero h.1) (by decide)

/-! ### Ratios of natural numbers -/

/-- The natural number nearest to `a / b`; of two, the even one. -/
def roundHalfEven (a b : Nat) : Nat :=
  if 2 * (a % b) < b ∨ (2 * (a % b) = b ∧ a / b % 2 = 0) then a / b else a / b + 1

/-- The power of ten at or just below the positive number `a / b`. -/
def powerBelow (a b : Nat) : Int :=
  if b ≤ a then ((Nat.toDigits 10 (a / b)).length : Int) - 1
  else
    let n := (Nat.toDigits 10 (b / a)).length
    if b ≤ a * Nat.pow 10 (n - 1) then 1 - (n : Int) else -(n : Int)

/-- The ratio `a / b` in units of `10 ^ g`. -/
def inUnits (a b : Nat) (g : Int) : Nat × Nat :=
  (a * Nat.pow 10 (-g).toNat, b * Nat.pow 10 g.toNat)

/-- The multiple of `10 ^ g` nearest to `a / b`. -/
def nearest (a b : Nat) (g : Int) : Decimal :=
  let (a, b) := inUnits a b g
  ⟨roundHalfEven a b, g⟩

/-! ### Numbers `m * 2 ^ e` -/

/-- The number `m * 2 ^ e` as a ratio. -/
def ratio (m : Nat) (e : Int) : Nat × Nat :=
  (m * Nat.pow 2 e.toNat, Nat.pow 2 (-e).toNat)

/-- The decimal with `places` digits after the point nearest to `m * 2 ^ e`. -/
def fixed (places : Nat) (m : Nat) (e : Int) : Decimal :=
  let (a, b) := ratio m e
  nearest a b (-(places : Int))

/-- The decimal with `count` significant digits nearest to `m * 2 ^ e`, where `m` is positive. -/
def significant (count : Nat) (m : Nat) (e : Int) : Decimal :=
  let (a, b) := ratio m e
  nearest a b (powerBelow a b - count + 1)

end Decimal

end Abacus
