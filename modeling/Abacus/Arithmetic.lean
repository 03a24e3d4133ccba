/-!
# Exact operations on floats

Rounding to whole numbers and the remainder of a division lose nothing, so they are computed on the
exact value `± m * 2 ^ e` of a float, in integer arithmetic.  A power is taken from the mathematical
library, but for those that do not exist (`power`).  Comparison up to a tolerance is here too
(`near`, `apart`).  Both are false when a side is not a number, so neither is the negation of the
other.
-/

namespace Abacus

open Float.Model (UnpackedFloat)
open Float.Model.UnpackedFloat (Sign)

/-- Not a number. -/
def notANumber : Float := 0.0 / 0.0

/-- The float nearest to the ratio of a circle's circumference to its diameter. -/
def pi : Float := 3.141592653589793

/-- The float nearest to the ratio of a circle's circumference to its radius. -/
def tau : Float := 6.283185307179586

/-- The float nearest to the base of the natural logarithm. -/
def euler : Float := 2.718281828459045

/-- The float nearest to `± m * 2 ^ e`. -/
def ofParts (s : Sign) (m : Nat) (e : Int) : Float :=
  .ofModel (.pack (.round .binary64 s m e))

/-- The sign of a float; zero has one too. -/
def signOf (x : Float) : Sign :=
  match x.toModel.unpack with
  | .infinity s | .zero s | .finite s .. => s
  | .notANumber => .positive

/-! ### Whole numbers -/

/-- A direction in which to round to a whole number. -/
inductive Rounding
  | down
  | up
  | towardZero
  /-- To the nearest whole number; halfway numbers go away from zero. -/
  | nearest
deriving DecidableEq, Repr

/-- The magnitude of `± m / d` after rounding. -/
def Rounding.magnitude (r : Rounding) (s : Sign) (m d : Nat) : Nat :=
  match r, s with
  | .nearest, _ => (2 * m + d) / (2 * d)
  | .down, .negative | .up, .positive => (m + d - 1) / d
  | _, _ => m / d

/-- A float rounded to a whole number, with its sign kept. -/
def Rounding.apply (r : Rounding) (x : Float) : Float :=
  match x.toModel.unpack with
  | .finite s m e _ =>
    if e < 0 then ofParts s (r.magnitude s m (Nat.pow 2 (-e).toNat)) 0 else x
  | _ => x

/-- `value` rounded to a multiple of `1 / factor`. -/
def roundTo (factor value : Float) : Float :=
  Rounding.nearest.apply (value * factor) / factor

/-! ### Remainder and sign -/

/-- The remainder of `x / y` with the sign of `x`, without rounding. -/
def remainder (x y : Float) : Float :=
  match x.toModel.unpack, y.toModel.unpack with
  | .finite s m e _, .finite _ n f _ =>
    let low := min e f
    ofParts s ((m * Nat.pow 2 (e - low).toNat) % (n * Nat.pow 2 (f - low).toNat)) low
  | .finite .., .infinity _ | .zero _, .infinity _ | .zero _, .finite .. => x
  | _, _ => notANumber

/-- One with the sign of `x`. -/
def signum (x : Float) : Float :=
  if x.isNaN then x
  else
    match signOf x with
    | .positive => 1.0
    | .negative => -1.0

/-! ### Powers -/

/-- Whether a float is a whole number. -/
def isWhole (x : Float) : Bool :=
  match x.toModel.unpack with
  | .zero _ => true
  | .finite _ m e _ => 0 ≤ e || m % Nat.pow 2 (-e).toNat == 0
  | _ => false

/-- `x` to the power of `y`; a negative number has none for an exponent that is not whole. -/
def power (x y : Float) : Float :=
  if x < 0.0 && x.isFinite && y.isFinite && !isWhole y then notANumber else x.pow y

/-! ### Comparison -/

/-- Floats at most this far apart count as equal: `8 * 2 ^ (-52)`. -/
def tolerance : Float := 8.0 / 4503599627370496.0

/-- Whether two floats are equal up to the tolerance. -/
def near (x y : Float) : Bool :=
  (x - y).abs ≤ tolerance

/-- Whether two floats differ by more than the tolerance. -/
def apart (x y : Float) : Bool :=
  tolerance < (x - y).abs

/-- The number of a truth value. -/
def ofBool (b : Bool) : Float :=
  if b then 1.0 else 0.0

end Abacus
