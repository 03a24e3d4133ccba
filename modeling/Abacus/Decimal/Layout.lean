import Abacus.Decimal.Shortest

/-!
# How numbers are written

A `Style` says which digits of a float are written, how they are laid out and what stands for the
values that have no digits.  The library writes numbers in five styles, each beside the part that
shows them; the two plain ones, `Style.plain` and `Style.scientific`, are here.

A decimal is laid out in positional form (`Decimal.positional`), with the zeros that its power of
ten asks for and a point before its fraction, or in exponential form (`Decimal.exponential`), with
one digit before the point.
-/

namespace Abacus

namespace Decimal

/-- All digits of a decimal around its point; there is no point when there is no fraction. -/
def positional (d : Decimal) : List Char :=
  let ds := d.digits
  let places := (-d.exponent).toNat
  if places = 0 then ds ++ List.replicate d.exponent.toNat '0'
  else if places < ds.length then
    ds.take (ds.length - places) ++ '.' :: ds.drop (ds.length - places)
  else '0' :: '.' :: List.replicate (places - ds.length) '0' ++ ds

/-- The first digit, a point and the other digits if there are any, and the power of ten of the
first digit; `plus` is written before a power that is not negative. -/
def exponential (plus : List Char) (d : Decimal) : List Char :=
  let mantissa :=
    match d.digits with
    | [] => []
    | [c] => [c]
    | c :: rest => c :: '.' :: rest
  let power := if d.lead < 0 then ['-'] else plus
  mantissa ++ 'e' :: power ++ Nat.toDigits 10 d.lead.natAbs

end Decimal

/-- A way to write floats. -/
structure Style where
  /-- The digits of the positive float `m * 2 ^ e`. -/
  digits : Nat → Int → Decimal
  /-- The text of these digits. -/
  layout : Decimal → List Char
  /-- What stands for zero. -/
  zero : String
  /-- Whether zero shows its sign. -/
  signedZero : Bool
  /-- What stands for infinity. -/
  infinity : String

namespace Style

open Float.Model (UnpackedFloat)
open Float.Model.UnpackedFloat (Sign)

/-- The sign before a number. -/
def signText : Sign → String
  | .negative => "-"
  | .positive => ""

/-- The text of a float. -/
def write (style : Style) (x : Float) : String :=
  match x.toModel.unpack with
  | .notANumber => "NaN"
  | .infinity s => signText s ++ style.infinity
  | .zero s => (if style.signedZero then signText s else "") ++ style.zero
  | .finite s m e _ => signText s ++ .ofList (style.layout (style.digits m e))

/-- The shortest digits that read back, always in positional form. -/
def plain : Style where
  digits := Decimal.shortest
  layout := Decimal.positional
  zero := "0"
  signedZero := true
  infinity := "inf"

/-- The shortest digits that read back, always in exponential form. -/
def scientific : Style where
  digits := Decimal.shortest
  layout := Decimal.exponential []
  zero := "0e0"
  signedZero := true
  infinity := "inf"

end Style

end Abacus
