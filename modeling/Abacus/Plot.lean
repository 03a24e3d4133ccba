import Abacus.CalcError
import Abacus.Calculation
import Abacus.Question

/-!
# Plots

A function of the variable is sampled at 41 places, from minus ten to ten in steps of one half.
Samples without a finite value are left out; a plot has at least two points.  Values are rounded to
four places.
-/

namespace Abacus

/-- A point of a plot. -/
structure Point where
  x : Float
  y : Float
deriving DecidableEq

/-- A plotted function. -/
structure Plot where
  /-- The function as the user wrote it. -/
  label : String
  points : List Point
deriving DecidableEq

namespace Plot

/-- The leftmost place. -/
def left : Float := -10.0

/-- The rightmost place. -/
def right : Float := 10.0

/-- The distance from one place to the next. -/
def step : Float := 0.5

/-- The fewest points that make a plot. -/
def minPoints : Nat := 2

/-- The places where a function is sampled. -/
def grid : List Float :=
  (List.range 41).map fun i => left + Float.ofNat i * step

/-- A value rounded to four places; one too large to be scaled is whole already. -/
def roundValue (y : Float) : Float :=
  if (y * 10000.0).isFinite then roundTo 10000.0 y else y

/-- One sample of a function. -/
structure Sample where
  x : Float
  outcome : Evaluation Value

/-- The point of a sample with a finite value. -/
def Sample.point? (s : Sample) : Option Point :=
  match s.outcome.result with
  | .ok (.number y) => if y.isFinite then some ⟨s.x, roundValue y⟩ else none
  | _ => none

/-- The samples of a calculation. -/
def samples (c : Calculation) : List Sample :=
  grid.map fun x => ⟨x, c.eval [(graphVariable, x)]⟩

/-- The plot of some samples. -/
def ofSamples (label : String) (samples : List Sample) : Except CalcError Plot :=
  let points := samples.filterMap Sample.point?
  if points.length < minPoints then .error .notEnoughPoints else .ok ⟨label, points⟩

/-- The plot of the function that a text spells. -/
def sample (label text : String) : Except CalcError Plot :=
  match Calculation.parse text with
  | .error e => .error (.invalidFunction e)
  | .ok c => ofSamples label (samples c)

/-! ### The range of values -/

/-- The smaller of two numbers; of two equal ones the second. -/
def lower (a b : Float) : Float :=
  if a < b then a else b

/-- The greater of two numbers; of two equal ones the second. -/
def higher (a b : Float) : Float :=
  if b < a then a else b

/-- The least value of a plot. -/
def lowest (p : Plot) : Float :=
  (p.points.map (·.y)).foldl lower (1.0 / 0.0)

/-- The greatest value of a plot. -/
def highest (p : Plot) : Float :=
  (p.points.map (·.y)).foldl higher (-1.0 / 0.0)

end Plot

end Abacus
