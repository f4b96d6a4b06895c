import PositionFeed.Decimal.Literal
import PositionFeed.Word

namespace PositionFeed

/-!
# Numbers in JSON

A number without a point and an exponent is a whole number as long as it fits
into 64 bits.  Every other number is read as a scaled significand: its digits
are gathered into a significand of at most 64 bits, digits that no longer fit
only shift the exponent, and the significand, as a double, is multiplied or
divided by a power of ten once.  Two roundings can leave the result next to
the nearest double, so this is not `FloatLiteral.read`.
-/

namespace Json

/-- The parts of a number as it is spelled. -/
structure Spelling where
  /-- Whether a minus sign comes first. -/
  negative : Bool
  /-- The digits before the point. -/
  whole : List Char
  /-- The digits after the point, if there is one. -/
  fraction : Option (List Char)
  /-- The sign and the digits of the exponent, if there is one. -/
  power : Option (Bool × List Char)
  deriving Repr, DecidableEq

/-- The value of a number. -/
inductive NumberValue where
  /-- A whole number of 64 bits. -/
  | integer (value : Int)
  /-- Every other number. -/
  | fraction (value : Float)
  deriving Repr

/-- The largest significand. -/
def significandLimit : Nat := Word.greatest 64

/-- The largest exponent that is still counted. -/
def powerLimit : Nat := Word.greatest 31

/-- Appends digits to a significand while it stays within the limit, and
returns the digits left over. -/
def gather : Nat → List Char → Nat × List Char
  | significand, [] => (significand, [])
  | significand, c :: rest =>
      let next := significand * 10 + (digitValue? c).getD 0
      if significandLimit < next then (significand, c :: rest)
      else gather next rest

/-- The exponent that digits spell, unless it is too large to be counted. -/
def countPower : Nat → List Char → Option Nat
  | value, [] => some value
  | value, c :: rest =>
      let next := value * 10 + (digitValue? c).getD 0
      if powerLimit < next then none else countPower next rest

/-- The largest power of ten that is a double. -/
def largestTen : Nat := 308

/-- A power of ten as a double. -/
def ten (power : Nat) : Float :=
  FloatLiteral.ofScientific false 1 power

/-- Multiplies a double by a power of ten, unless the result is infinite.
Below the reach of one power the division is done in several steps. -/
def scale (value : Float) (power : Int) : Option Float :=
  if power.natAbs ≤ largestTen then
    if 0 ≤ power then
      let scaled := value * ten power.toNat
      if scaled.isInf then none else some scaled
    else some (value / ten power.natAbs)
  else if value == 0 then some value
  else if 0 ≤ power then none
  else scale (value / ten largestTen) (power + largestTen)
  termination_by power.natAbs
  decreasing_by simp only [largestTen] at *; omega

/-- A double with the sign of the spelling. -/
def Spelling.signed (spelling : Spelling) (value : Float) : Float :=
  if spelling.negative then -value else value

/-- A significand as a double. -/
def significandFloat (significand : Nat) : Float :=
  Binary64.nearest false significand 1

/-- The value of a number that has to be a double. -/
def Spelling.float (spelling : Spelling) : Option Float :=
  let (whole, dropped) := gather 0 spelling.whole
  let digits := spelling.fraction.getD []
  let (significand, unread) := gather whole digits
  let shift : Int :=
    (dropped.length : Int) - ((digits.length - unread.length : Nat) : Int)
  match spelling.power with
  | none =>
      (scale (significandFloat significand) shift).map spelling.signed
  | some (negative, powerDigits) =>
      match countPower 0 powerDigits with
      | none =>
          if significand = 0 ∨ negative then some (spelling.signed 0)
          else none
      | some power =>
          let power : Int := if negative then -power else power
          (scale (significandFloat significand) (shift + power)).map
            spelling.signed

/-- The value of a number, unless it is too large for a double. -/
def Spelling.value (spelling : Spelling) : Option NumberValue :=
  let (whole, dropped) := gather 0 spelling.whole
  if spelling.fraction.isNone ∧ spelling.power.isNone ∧ dropped.isEmpty then
    if ¬ spelling.negative then some (.integer whole)
    else if 0 < whole ∧ whole ≤ Word.size 63 then some (.integer (-whole))
    else some (.fraction (-significandFloat whole))
  else spelling.float.map .fraction

end Json

end PositionFeed
