import Abacus.Decimal.Basic

/-!
# The shortest decimal of a float

All real numbers in an interval around `m * 2 ^ e` round to that float: half a unit `2 ^ e` to
either side, and only a quarter below the smallest mantissa `2 ^ 52`, where the floats lie twice as
dense. The ends belong to the interval when `m` is even.  `Decimal.shortest` is the decimal with the
fewest digits in this interval; of two with that many digits the nearer one, and the upper one when
they are equally near.

The grid of decimals with `n` significant digits meets the interval only if one of the two grid
points around the float does, so it is enough to look at these, for `n = 1, 2, …, 17`; with
seventeen digits there is always a hit.
-/

namespace Abacus

namespace Decimal

/-- Whether a grid point at distance `d` reads back, where the interval ends at distance `gap`. -/
def reaches (m d gap : Nat) : Bool :=
  d < gap || (d == gap && m % 2 == 0)

/-- The point of the grid `10 ^ g` in the interval around `m * 2 ^ e`, if there is one.  Distances
are counted in quarters of the unit `2 ^ e`. -/
def onGrid (m : Nat) (e : Int) (g : Int) : Option Decimal :=
  let (q, b) := ratio 1 (e - 2)
  let (a, b') := inUnits (4 * m * q) b g
  let (q', _) := inUnits q b g
  let below := reaches m (a % b') (if m = Nat.pow 2 52 then q' else 2 * q')
  let above := reaches m (b' - a % b') (2 * q')
  if below && (!above || 2 * (a % b') < b') then some ⟨a / b', g⟩
  else if above then some ⟨a / b' + 1, g⟩
  else none

/-- The decimal with the fewest digits that reads back as `m * 2 ^ e`, where `m` is positive. -/
def shortest (m : Nat) (e : Int) : Decimal :=
  let (a, b) := ratio m e
  let top := powerBelow a b
  let found := (List.range 17).findSome? fun (n : Nat) => onGrid m e (top - n)
  (found.getD (significant 17 m e)).strip

end Decimal

end Abacus
