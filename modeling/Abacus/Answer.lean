import Abacus.Decimal.Layout

/-!
# How answers are written

The answer to a calculation is written with a chosen number of significant digits, its precision;
precision zero keeps all digits that it takes to read the number back.  Zeros at the end of a
fraction are dropped.  Numbers from a thousandth up to a hundred thousand are in positional form,
the others in exponential form.
-/

namespace Abacus

/-- The style of answers with `precision` significant digits. -/
def answerStyle (precision : Nat) : Style where
  digits m e :=
    if precision = 0 then Decimal.shortest m e else (Decimal.significant precision m e).strip
  layout d := if -3 ≤ d.lead ∧ d.lead < 5 then d.positional else d.exponential ['+']
  zero := "0"
  signedZero := false
  infinity := "Infinity"

/-- The text of an answer. -/
def answerText (x : Float) (precision : Nat) : String :=
  (answerStyle precision).write x

end Abacus
