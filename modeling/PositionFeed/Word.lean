namespace PositionFeed

/-!
# Machine words

A word of so many bits counts from zero, or from as far below zero as above it.
Where a word is put on a wire, its highest byte comes first.
-/

namespace Word

/-- How many values a word of so many bits has. -/
def size (bits : Nat) : Nat := Nat.pow 2 bits

/-- The greatest value of a word without a sign. -/
def greatest (bits : Nat) : Nat := size bits - 1

/-- The least value of a word with a sign. -/
def leastSigned (bits : Nat) : Int := -(size (bits - 1))

/-- The greatest value of a word with a sign. -/
def greatestSigned (bits : Nat) : Int := size (bits - 1) - 1

/-- The value of a word with a sign that is nearest to a number. -/
def clampSigned (bits : Nat) (value : Int) : Int :=
  max (leastSigned bits) (min (greatestSigned bits) value)

/-- A number in so many bytes, the highest byte first. -/
def toBytes : Nat → Nat → List UInt8
  | 0, _ => []
  | width + 1, value => toBytes width (value / 256) ++ [UInt8.ofNat value]

/-- The number that bytes spell, the highest byte first. -/
def ofBytes (bytes : List UInt8) : Nat :=
  bytes.foldl (fun value byte => value * 256 + byte.toNat) 0

end Word

end PositionFeed
