import Abacus.Arithmetic
import Abacus.Expression.Basic

/-!
# The operations of expressions

The values of operators and built-in functions on floats.  Truth values are the numbers one and
zero. Equality is up to the tolerance of `near`, and so is the truth of a number.
-/

namespace Abacus

/-- Whether a comparison holds. -/
def Comparison.holds (c : Comparison) (x y : Float) : Bool :=
  match c with
  | .less => x < y
  | .lessEq => x ≤ y
  | .equal => near x y
  | .notEqual => apart x y
  | .greaterEq => y ≤ x
  | .greater => y < x

/-- The logarithm of `1 + x`, exact to the last digits also where `x` is small. -/
def logOnePlus (x : Float) : Float :=
  let u := 1.0 + x
  if u == 1.0 then x
  else if u.isFinite then u.log * (x / (u - 1.0))
  else u.log

/-- The inverse of the hyperbolic sine. -/
def inverseSinh (x : Float) : Float :=
  let a := x.abs
  let i := 1.0 / a
  let y := logOnePlus (a + a / ((1.0 + i * i).sqrt + i))
  match signOf x with
  | .positive => y
  | .negative => -y

/-- The inverse of the hyperbolic cosine. -/
def inverseCosh (x : Float) : Float :=
  if x < 1.0 then notANumber else (x + (x - 1.0).sqrt * (x + 1.0).sqrt).log

/-- The inverse of the hyperbolic tangent. -/
def inverseTanh (x : Float) : Float :=
  0.5 * logOnePlus (2.0 * x / (1.0 - x))

/-- The value of a built-in function. -/
def Builtin.value : Builtin → Float → Float
  | .int => Rounding.towardZero.apply
  | .ceil => Rounding.up.apply
  | .floor => Rounding.down.apply
  | .abs => Float.abs
  | .sign => signum
  | .sin => Float.sin
  | .cos => Float.cos
  | .tan => Float.tan
  | .asin => Float.asin
  | .acos => Float.acos
  | .atan => Float.atan
  | .sinh => Float.sinh
  | .cosh => Float.cosh
  | .tanh => Float.tanh
  | .asinh => inverseSinh
  | .acosh => inverseCosh
  | .atanh => inverseTanh

/-- The logarithm of `x` to a base. -/
def logarithm (base x : Float) : Float :=
  if near base 2.0 then x.log2
  else if near base 10.0 then x.log10
  else x.log / base.log

/-- The multiple of `modulus` nearest to `x`. -/
def roundToMultiple (modulus x : Float) : Float :=
  Rounding.nearest.apply (x / modulus) * modulus

/-- Whether `x` lies further out than `y`. -/
def Extremum.beats (side : Extremum) (x y : Float) : Bool :=
  match side with
  | .min => x < y
  | .max => y < x

/-- The smaller or the greater of two numbers. -/
def Extremum.pick (side : Extremum) (x y : Float) : Float :=
  if x.isNaN || y.isNaN then notANumber
  else if side.beats x y then x
  else y

/-- The value of a binary operator. -/
def Binary.value (op : Binary) (x y : Float) : Float :=
  match op with
  | .or => if apart x 0.0 then x else y
  | .and => if near x 0.0 then x else y
  | .compare c => ofBool (c.holds x y)
  | .add => x + y
  | .sub => x - y
  | .mul => x * y
  | .div => x / y
  | .mod => remainder x y
  | .pow => power x y

/-- Whether a chain of operators of this level is carried out from its right end. -/
def Precedence.fromRight : Precedence → Bool
  | .add | .mul | .pow => true
  | _ => false

/-- The value of a chain that is carried out from its right end. -/
def chainFromRight (x : Float) : List (Binary × Float) → Float
  | [] => x
  | (op, y) :: rest => op.value x (chainFromRight y rest)

/-- The value of a chain of operands. -/
def Precedence.value (level : Precedence) (first : Float) (rest : List (Binary × Float)) : Float :=
  if level.fromRight then chainFromRight first rest
  else rest.foldl (fun x (op, y) => op.value x y) first

end Abacus
