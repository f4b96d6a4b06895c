import PositionFeed.Decimal.Shortest

namespace PositionFeed

/-!
# How numbers are laid out as text

Three texts of a double occur in this program.  Messages and terminal output
write it without an exponent, JSON switches to an exponent outside a fixed
range, and counted places are used for coordinates and summaries.  All three
start from exact digits; a `NumberStyle` record holds what differs between the
first two and the third form.
-/

namespace Decimal

/-- The decimal digits of a natural number. -/
def digitText (value : Nat) : List Char :=
  Nat.toDigits 10 value

/-- The digits followed by zeros, or with a point in or before them. -/
def positionalText (digits : List Char) (exponent : Int) : List Char :=
  match exponent with
  | .ofNat zeros => digits ++ List.replicate zeros '0'
  | .negSucc more =>
      let places := more + 1
      if places < digits.length then
        digits.take (digits.length - places) ++
          '.' :: digits.drop (digits.length - places)
      else
        '0' :: '.' :: List.replicate (places - digits.length) '0' ++ digits

/-- The first digit, a point, the other digits and the exponent with its sign. -/
def exponentText (digits : List Char) (exponent : Int) : List Char :=
  let fraction := digits.drop 1
  let power := exponent + (fraction.length : Int)
  digits.take 1 ++
    (if fraction.isEmpty then [] else '.' :: fraction) ++
    'e' :: (if power < 0 then '-' else '+') :: digitText power.natAbs

end Decimal

/-- What a text of doubles decides beyond their digits. -/
structure NumberStyle where
  /-- Which of two equally near decimals is written. -/
  tie : Shortest.Tie
  /-- What follows a whole number. -/
  wholeSuffix : List Char
  /-- The positions of the decimal point, counted from the first digit, for
  which no exponent is written; every position if absent. -/
  positional : Option (Int × Int)
  nan : List Char
  /-- The text of an infinity, by its sign. -/
  infinity : Bool → List Char

namespace NumberStyle

/-- Puts a minus sign before a text. -/
def signed (negative : Bool) (text : List Char) : List Char :=
  if negative then '-' :: text else text

def magnitude (style : NumberStyle) (digits : Nat) (exponent : Int) :
    List Char :=
  let text := Decimal.digitText digits
  let point := (text.length : Int) + exponent
  let plain :=
    Decimal.positionalText text exponent ++
      (if 0 ≤ exponent then style.wholeSuffix else [])
  match style.positional with
  | none => plain
  | some (least, greatest) =>
      if digits = 0 ∨ (least ≤ point ∧ point ≤ greatest) then plain
      else Decimal.exponentText text exponent

/-- The text of a double. -/
def text (style : NumberStyle) (x : Float) : List Char :=
  match Binary64.decode x with
  | .nan => style.nan
  | .infinite negative => style.infinity negative
  | .finite negative significand exponent =>
      let decimal :=
        Shortest.decimal style.tie negative significand exponent
      signed negative (style.magnitude decimal.digits decimal.exponent)

/-- Numbers in messages: shortest digits and never an exponent. -/
def plain : NumberStyle where
  tie := .up
  wholeSuffix := []
  positional := none
  nan := "NaN".toList
  infinity negative := signed negative "inf".toList

/-- Numbers in messages about a value of the wrong kind: a finite number always
has a point. -/
def pointed : NumberStyle :=
  { plain with wholeSuffix := ".0".toList }

/-- Numbers in JSON: no exponent for `1e-5 ≤ |x| < 1e16`, and `null` for what
JSON cannot write. -/
def json : NumberStyle where
  tie := .toEven
  wholeSuffix := ".0".toList
  positional := some (-4, 16)
  nan := "null".toList
  infinity _ := "null".toList

/-- Numbers in TOML: never an exponent and always a point. -/
def toml : NumberStyle where
  tie := .up
  wholeSuffix := ".0".toList
  positional := none
  nan := "nan".toList
  infinity negative := signed negative "inf".toList

end NumberStyle

/-- The text of a double in a message. -/
def plainNumber (x : Float) : String :=
  String.ofList (NumberStyle.plain.text x)

namespace Rounded

open Binary64

/-- Writes a natural number as so many units of `10 ^ -places`. -/
def fixedMagnitude (places units : Nat) : List Char :=
  let digits := Decimal.digitText units
  let padded := List.replicate (places + 1 - digits.length) '0' ++ digits
  let whole := padded.take (padded.length - places)
  if places = 0 then whole
  else whole ++ '.' :: padded.drop (padded.length - places)

/-- A special value or a number with so many places after the point, where a
tie goes to the even last digit and the sign of zero is kept. -/
def fixed (places : Nat) (x : Float) : List Char :=
  match decode x with
  | .nan => "NaN".toList
  | .infinite negative => NumberStyle.signed negative "inf".toList
  | .finite negative significand exponent =>
      let scaled := tenfold significand exponent places
      NumberStyle.signed negative
        (fixedMagnitude places (roundDiv scaled.1 scaled.2))

/-- The largest `k ≤ start` with `10 ^ k ≤ significand * 2 ^ exponent`, looked
for in so many steps. -/
def floorLog10 (significand : Nat) (exponent : Int) : Nat → Int → Int
  | 0, start => start
  | fuel + 1, start =>
      let scaled := tenfold significand exponent (-start)
      if scaled.2 ≤ scaled.1 then start
      else floorLog10 significand exponent fuel (start - 1)

/-- One digit, so many places and a power of ten, where a tie goes to the even
last digit. -/
def scientific (places : Nat) (x : Float) : List Char :=
  match decode x with
  | .nan => "NaN".toList
  | .infinite negative => NumberStyle.signed negative "inf".toList
  | .finite negative significand exponent =>
      let power :=
        if significand = 0 then 0
        else floorLog10 significand exponent 4
          (Shortest.topGrid significand exponent)
      let scaled := tenfold significand exponent ((places : Int) - power)
      let units := roundDiv scaled.1 scaled.2
      let carried := units == Nat.pow 10 (places + 1)
      let power := if carried then power + 1 else power
      let units := if carried then units / 10 else units
      NumberStyle.signed negative
        (fixedMagnitude places units ++
          'e' :: NumberStyle.signed (power < 0) (Decimal.digitText power.natAbs))

end Rounded

end PositionFeed
