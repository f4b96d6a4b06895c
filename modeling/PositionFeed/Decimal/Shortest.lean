import PositionFeed.Decimal.Binary64

namespace PositionFeed

/-!
# The shortest decimal that reads back

Every finite double is the nearest double to all numbers of a small interval
around it.  `Shortest.find` returns the decimal `digits * 10 ^ exponent` of the
coarsest decimal grid that has a point in this interval, and of two such points
the one nearer to the double.  A coarser grid means fewer digits, so no decimal
with fewer digits reads back as the same double.

The ends of the interval belong to it exactly when the significand is even,
because a number half way between two doubles is read as the even one.
-/

/-- The number `± digits * 10 ^ exponent`. -/
structure Decimal where
  /-- Whether the number is written with a minus sign. -/
  negative : Bool
  /-- The significant digits, as one natural number. -/
  digits : Nat
  /-- The power of ten of the last digit. -/
  exponent : Int
  deriving Repr, DecidableEq

namespace Shortest

open Binary64

/-- Which of two equally near decimals is taken. -/
inductive Tie where
  /-- The larger one. -/
  | up
  /-- The one whose last digit is even. -/
  | toEven
  deriving Repr, DecidableEq

/-- The positive double `significand * 2 ^ exponent` between its neighbours, on
a scale of quarters of its last place. -/
structure Interval where
  /-- The lower end, in quarters of the last place. -/
  low : Nat
  /-- The double itself, in quarters of the last place. -/
  centre : Nat
  /-- The upper end, in quarters of the last place. -/
  high : Nat
  /-- Whether the ends read back as this double. -/
  closed : Bool
  /-- The binary exponent of one quarter. -/
  exponent : Int
  deriving Repr, DecidableEq

/-- The numbers that are read as the double `significand * 2 ^ exponent`.

Below a power of two the doubles are twice as dense, so the lower end is half
as far away there. -/
def interval (significand : Nat) (exponent : Int) : Interval where
  low :=
    if significand = Nat.pow 2 fractionBits ∧ leastExponent < exponent then
      4 * significand - 1
    else
      4 * significand - 2
  centre := 4 * significand
  high := 4 * significand + 2
  closed := significand % 2 = 0
  exponent := exponent - 2

/-- Puts `quarters * 2 ^ exponent` over `10 ^ grid`, as a quotient. -/
def overGrid (quarters : Nat) (exponent grid : Int) : Nat × Nat :=
  tenfold quarters exponent (-grid)

/-- Whether the grid point `point * 10 ^ grid` lies in the interval. -/
def Interval.contains (range : Interval) (grid : Int) (point : Nat) : Bool :=
  let low := overGrid range.low range.exponent grid
  let high := overGrid range.high range.exponent grid
  if range.closed then
    low.1 ≤ point * low.2 && point * high.2 ≤ high.1
  else
    low.1 < point * low.2 && point * high.2 < high.1

/-- The point of one decimal grid that lies in the interval and is nearest to
its centre, if the grid has such a point. -/
def Interval.onGrid? (range : Interval) (tie : Tie) (grid : Int) : Option Nat :=
  let centre := overGrid range.centre range.exponent grid
  let below := centre.1 / centre.2
  let above := below + 1
  match range.contains grid below, range.contains grid above with
  | false, false => none
  | true, false => some below
  | false, true => some above
  | true, true =>
      let rest := centre.1 % centre.2
      if 2 * rest < centre.2 then some below
      else if centre.2 < 2 * rest then some above
      else match tie with
        | .up => some above
        | .toEven => some (if below % 2 = 0 then below else above)

/-- Tries the grids `10 ^ grid`, `10 ^ (grid - 1)`, ... in turn.  The finest
grid tried gives the lower neighbour when none of them has a point inside. -/
def Interval.scan (range : Interval) (tie : Tie) : Nat → Int → Nat × Int
  | 0, grid =>
      let centre := overGrid range.centre range.exponent grid
      (centre.1 / centre.2, grid)
  | fuel + 1, grid =>
      match range.onGrid? tie grid with
      | some point => (point, grid)
      | none => range.scan tie fuel (grid - 1)

/-- A power of ten that is above `significand * 2 ^ exponent`. -/
def topGrid (significand : Nat) (exponent : Int) : Int :=
  ((significand.log2 + 1 + exponent) * 30103).fdiv 100000 + 1

/-- The number of grids tried: one or two too coarse ones and seventeen digits. -/
def gridCount : Nat := 22

/-- The shortest decimal that is read as the positive double
`significand * 2 ^ exponent`, as its digits and the power of ten of the last. -/
def find (tie : Tie) (significand : Nat) (exponent : Int) : Nat × Int :=
  (interval significand exponent).scan tie gridCount
    (topGrid significand exponent)

/-- The shortest decimal of a finite double, and zero for a zero. -/
def decimal (tie : Tie) (negative : Bool) (significand : Nat) (exponent : Int) :
    Decimal :=
  if significand = 0 then ⟨negative, 0, 0⟩
  else
    let shortest := find tie significand exponent
    ⟨negative, shortest.1, shortest.2⟩

end Shortest

end PositionFeed
