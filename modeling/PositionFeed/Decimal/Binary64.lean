namespace PositionFeed

/-!
# Binary64 values as exact rationals

A binary64 value is either a special value or `± significand * 2 ^ exponent`
with a natural significand.  `Binary64.decode` reads that exact value off the
bits, and `Binary64.nearest` goes the other way: it returns the double that is
nearest to a quotient of two natural numbers, where a value half way between
two doubles goes to the one with the even significand.

Everything here is arithmetic on `Nat` and `Int`.  The hardware operations on
`Float` are used only by the parts of the program that calculate, never by the
parts that read or write numbers.
-/

namespace Binary64

/-- The exact meaning of a binary64 value. -/
inductive Value where
  | nan
  /-- An infinity of the given sign. -/
  | infinite (negative : Bool)
  /-- The number `± significand * 2 ^ exponent`. -/
  | finite (negative : Bool) (significand : Nat) (exponent : Int)
  deriving Repr, DecidableEq

/-- The number of bits of the fraction field. -/
def fractionBits : Nat := 52

/-- The exponent of the last place of every subnormal double. -/
def leastExponent : Int := -1074

/-- The biased exponent that marks infinities and not-a-number. -/
def specialExponent : Nat := 2047

/-- Reads the exact value off a bit pattern. -/
def decodeBits (bits : Nat) : Value :=
  let negative := bits / Nat.pow 2 63 % 2 == 1
  let biased := bits / Nat.pow 2 fractionBits % Nat.pow 2 11
  let fraction := bits % Nat.pow 2 fractionBits
  if biased = specialExponent then
    if fraction = 0 then .infinite negative else .nan
  else if biased = 0 then
    .finite negative fraction leastExponent
  else
    .finite negative (fraction + Nat.pow 2 fractionBits)
      (leastExponent + (biased - 1 : Nat))

/-- The exact value of a double. -/
def decode (x : Float) : Value :=
  decodeBits x.toBits.toNat

/-- The bit pattern of positive infinity. -/
def infinityBits : Nat := specialExponent * Nat.pow 2 fractionBits

/-- Adds the sign bit to the bit pattern of a magnitude. -/
def withSign (negative : Bool) (bits : Nat) : Float :=
  Float.ofBits (UInt64.ofNat (if negative then bits + Nat.pow 2 63 else bits))

/-- An infinity of the given sign. -/
def infinity (negative : Bool) : Float :=
  withSign negative infinityBits

def nan : Float :=
  Float.ofBits 0x7ff8000000000000

/-- The quotient rounded to the nearest natural number, half way to the even one. -/
def roundDiv (numerator denominator : Nat) : Nat :=
  let quotient := numerator / denominator
  let rest := numerator % denominator
  if 2 * rest < denominator then quotient
  else if denominator < 2 * rest then quotient + 1
  else if quotient % 2 = 0 then quotient
  else quotient + 1

/-- The quotient `numerator / denominator` divided by `2 ^ exponent`, as a pair. -/
def scaleDown (numerator denominator : Nat) : Int → Nat × Nat
  | .ofNat exponent => (numerator, denominator * Nat.pow 2 exponent)
  | .negSucc exponent => (numerator * Nat.pow 2 (exponent + 1), denominator)

/-- The largest `k` with `2 ^ k ≤ numerator / denominator`, for a positive quotient. -/
def floorLog2 (numerator denominator : Nat) : Int :=
  let guess : Int := (numerator.log2 : Int) - denominator.log2
  let scaled := scaleDown numerator denominator guess
  if scaled.2 ≤ scaled.1 then guess else guess - 1

/-- The bit pattern of the magnitude nearest to a positive quotient. -/
def nearestBits (numerator denominator : Nat) : Nat :=
  let exponent :=
    max leastExponent (floorLog2 numerator denominator - fractionBits)
  let scaled := scaleDown numerator denominator exponent
  let significand := roundDiv scaled.1 scaled.2
  let bits := (exponent - leastExponent).toNat * Nat.pow 2 fractionBits + significand
  min bits infinityBits

/-- The double nearest to `± numerator / denominator`. -/
def nearest (negative : Bool) (numerator denominator : Nat) : Float :=
  if numerator = 0 then withSign negative 0
  else withSign negative (nearestBits numerator denominator)

/-- The value of a finite double scaled by a power of ten, as a quotient. -/
def tenfold (significand : Nat) (exponent tens : Int) : Nat × Nat :=
  let scaled := scaleDown significand 1 (-exponent)
  match tens with
  | .ofNat power => (scaled.1 * Nat.pow 10 power, scaled.2)
  | .negSucc power => (scaled.1, scaled.2 * Nat.pow 10 (power + 1))

/-- Whether a double is neither infinite nor not-a-number. -/
def Value.isFinite : Value → Bool
  | .finite .. => true
  | _ => false

end Binary64

end PositionFeed
