import PositionFeed.Decimal.Layout

namespace PositionFeed

/-!
# Running statistics

The mean and the squared deviations of a growing list are kept up to date with
each value, so the values themselves need not be kept.  The arithmetic is that
of any `Quantity`: doubles when the program runs, exact numbers when it is
reasoned about.
-/

/-- Numbers that statistics can be kept of. -/
class Quantity (α : Type) extends Add α, Sub α, Mul α, Div α where
  nought : α
  ofCount : Nat → α
  /-- The smaller of two numbers. -/
  smaller : α → α → α
  /-- The larger of two numbers. -/
  larger : α → α → α

/-- The smaller of two doubles, the second of two equal ones.  A double that is
not a number yields to one that is. -/
def smallerFloat (first second : Float) : Float :=
  if first.isNaN then second
  else if second.isNaN then first
  else if first < second then first
  else second

/-- The larger of two doubles, the second of two equal ones.  A double that is
not a number yields to one that is. -/
def largerFloat (first second : Float) : Float :=
  if first.isNaN then second
  else if second.isNaN then first
  else if second < first then first
  else second

instance : Quantity Float where
  nought := 0.0
  ofCount count := Binary64.nearest false count 1
  smaller := smallerFloat
  larger := largerFloat

/-- The statistics of the values so far. -/
structure RunningStatistics (α : Type) where
  /-- The number of values. -/
  count : Nat
  mean : α
  /-- The sum of the squares of their distances from the mean. -/
  squares : α
  /-- The least value. -/
  least : α
  /-- The greatest value. -/
  greatest : α

namespace RunningStatistics

variable [Quantity α]

/-- The statistics of no values. -/
def empty : RunningStatistics α where
  count := 0
  mean := Quantity.nought
  squares := Quantity.nought
  least := Quantity.nought
  greatest := Quantity.nought

def push (statistics : RunningStatistics α) (value : α) :
    RunningStatistics α :=
  if statistics.count = 0 then
    { count := 1, mean := value, squares := Quantity.nought
      least := value, greatest := value }
  else
    let count := statistics.count + 1
    let before := value - statistics.mean
    let mean := statistics.mean + before / Quantity.ofCount count
    let after := value - mean
    { count := count
      mean := mean
      squares := statistics.squares + before * after
      least := Quantity.smaller statistics.least value
      greatest := Quantity.larger statistics.greatest value }

def ofList (values : List α) : RunningStatistics α :=
  values.foldl push empty

/-- The mean of the values, nought if there are none. -/
def average (statistics : RunningStatistics α) : α :=
  if statistics.count = 0 then Quantity.nought else statistics.mean

/-- The mean square distance from the mean, for one value less; nought for
fewer than two values. -/
def variance (statistics : RunningStatistics α) : α :=
  if statistics.count < 2 then Quantity.nought
  else statistics.squares / Quantity.ofCount (statistics.count - 1)

end RunningStatistics

/-- The statistics at the end. -/
structure Summary where
  /-- The number of values. -/
  count : Nat
  /-- The least value. -/
  least : Float
  /-- The greatest value. -/
  greatest : Float
  /-- The mean of the values. -/
  mean : Float
  /-- The square root of the variance. -/
  deviation : Float
  deriving DecidableEq

namespace Summary

/-- The summary of no values. -/
def empty : Summary := ⟨0, 0.0, 0.0, 0.0, 0.0⟩

def ofStatistics (statistics : RunningStatistics Float) : Summary where
  count := statistics.count
  least := statistics.least
  greatest := statistics.greatest
  mean := statistics.average
  deviation := statistics.variance.sqrt

/-- A double with three places. -/
def measureText (value : Float) : String :=
  String.ofList (Rounded.fixed 3 value)

def text (summary : Summary) : String :=
  if summary.count = 0 then "N/A"
  else
    "min=" ++ measureText summary.least ++
      ", max=" ++ measureText summary.greatest ++
      ", mean=" ++ measureText summary.mean ++
      ", std=" ++ measureText summary.deviation ++
      s!" (n={summary.count})"

end Summary

end PositionFeed
