/-!
# Hexadecimal digits

The letters of hexadecimal digits may be in either case.
-/

namespace Abacus

namespace Text

/-- The value of a hexadecimal digit. -/
def hexDigit? (c : Char) : Option Nat :=
  if c.isDigit then some (c.toNat - '0'.toNat)
  else if 'a' ≤ c ∧ c ≤ 'f' then some (c.toNat - 'a'.toNat + 10)
  else if 'A' ≤ c ∧ c ≤ 'F' then some (c.toNat - 'A'.toNat + 10)
  else none

/-- The number that hexadecimal digits spell. -/
def hexNumber? (digits : List Char) : Option Nat := do
  return (← digits.mapM hexDigit?).foldl (fun n d => 16 * n + d) 0

end Text

end Abacus
