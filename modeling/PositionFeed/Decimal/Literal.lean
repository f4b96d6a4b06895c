import PositionFeed.Decimal.Binary64

namespace PositionFeed

/-!
# Numbers read from text

`FloatLiteral.read` accepts a sign, then one of the words `inf`, `infinity` and
`nan` in any case, or digits with at most one point and at least one digit, and
an optional exponent with at least one digit.  Its value is the double nearest
to the number that the text denotes.

`WholeLiteral.read` accepts a sign and ASCII digits whose value is inside given
bounds.  Both say which rule a refused text breaks.
-/

/-- Why a text is not a number of the wanted kind. -/
inductive NumberDefect where
  /-- There is no text at all where a fraction is wanted. -/
  | emptyFraction
  | malformedFraction
  /-- There is no text at all where a whole number is wanted. -/
  | emptyWhole
  /-- A character is not a digit. -/
  | strayCharacter
  /-- The number is above the largest one allowed. -/
  | tooLarge
  /-- The number is below the smallest one allowed. -/
  | tooSmall
  deriving Repr, DecidableEq

/-- The wording of a refused number. -/
def NumberDefect.message : NumberDefect → String
  | .emptyFraction => "cannot parse float from empty string"
  | .malformedFraction => "invalid float literal"
  | .emptyWhole => "cannot parse integer from empty string"
  | .strayCharacter => "invalid digit found in string"
  | .tooLarge => "number too large to fit in target type"
  | .tooSmall => "number too small to fit in target type"

/-- The value of an ASCII digit. -/
def digitValue? (c : Char) : Option Nat :=
  if '0' ≤ c ∧ c ≤ '9' then some (c.toNat - '0'.toNat) else none

/-- Whether a character is an ASCII digit. -/
def isDigit (c : Char) : Bool :=
  (digitValue? c).isSome

/-- The number that a list of digits denotes. -/
def digitsValue (digits : List Char) : Nat :=
  digits.foldl (fun value c => value * 10 + (digitValue? c).getD 0) 0

/-- A sign and the text after it; no sign means plus. -/
def splitSign : List Char → Bool × List Char
  | '-' :: rest => (true, rest)
  | '+' :: rest => (false, rest)
  | text => (false, text)

namespace FloatLiteral

open Binary64

/-- Beyond this power of ten every number is infinite or zero. -/
def decimalReach : Int := 400

/-- The double nearest to `± digits * 10 ^ exponent`. -/
def ofScientific (negative : Bool) (digits : Nat) (exponent : Int) : Float :=
  if digits = 0 then withSign negative 0
  else if decimalReach < exponent then infinity negative
  else if exponent + (digits.log2 + 1 : Nat) < -decimalReach * 4 then
    withSign negative 0
  else match exponent with
    | .ofNat power => nearest negative (digits * Nat.pow 10 power) 1
    | .negSucc power => nearest negative digits (Nat.pow 10 (power + 1))

/-- The exponent after its mark: a sign and at least one digit, to the end. -/
def exponent? (text : List Char) : Option Int :=
  let (negative, digits) := splitSign text
  if digits.isEmpty ∨ ¬ digits.all isDigit then none
  else
    let value : Int := digitsValue digits
    some (if negative then -value else value)

/-- The value of a number without sign. -/
def magnitude? (negative : Bool) (text : List Char) : Option Float :=
  let whole := text.takeWhile isDigit
  let afterWhole := text.dropWhile isDigit
  let (fraction, afterFraction) :=
    match afterWhole with
    | '.' :: rest => (rest.takeWhile isDigit, rest.dropWhile isDigit)
    | _ => ([], afterWhole)
  if whole.isEmpty ∧ fraction.isEmpty then none
  else
    let digits := digitsValue (whole ++ fraction)
    let places : Int := fraction.length
    match afterFraction with
    | [] => some (ofScientific negative digits (-places))
    | mark :: rest =>
        if mark = 'e' ∨ mark = 'E' then
          (exponent? rest).map fun power =>
            ofScientific negative digits (power - places)
        else none

/-- The value of one of the words for special values. -/
def word? (negative : Bool) (text : List Char) : Option Float :=
  let lower := String.ofList (text.map Char.toLower)
  if lower = "inf" ∨ lower = "infinity" then some (infinity negative)
  else if lower = "nan" then some nan
  else none

/-- The double that a text denotes, if it denotes one. -/
def read? (text : List Char) : Option Float :=
  let (negative, rest) := splitSign text
  match magnitude? negative rest with
  | some value => some value
  | none => word? negative rest

/-- The double that a text denotes, or what is wrong with the text. -/
def read (text : List Char) : Except NumberDefect Float :=
  if text.isEmpty then .error .emptyFraction
  else match read? text with
    | some value => .ok value
    | none => .error .malformedFraction

end FloatLiteral

namespace WholeLiteral

/-- Reads digits onto a value that may not pass a limit. -/
def magnitude (limit : Nat) (overflow : NumberDefect) :
    Nat → List Char → Except NumberDefect Nat
  | value, [] => .ok value
  | value, c :: rest =>
      match digitValue? c with
      | none => .error .strayCharacter
      | some digit =>
          if limit < value * 10 + digit then .error overflow
          else magnitude limit overflow (value * 10 + digit) rest

/-- A whole number from `-below` to `above`.  The minus sign is not a digit
where no negative number is allowed. -/
def read (below above : Nat) (text : List Char) : Except NumberDefect Int :=
  match text with
  | [] => .error .emptyWhole
  | ['+'] => .error .strayCharacter
  | ['-'] => .error .strayCharacter
  | '-' :: digits =>
      if below = 0 then .error .strayCharacter
      else (magnitude below .tooSmall 0 digits).map fun value => -(value : Int)
  | '+' :: digits => (magnitude above .tooLarge 0 digits).map Int.ofNat
  | digits => (magnitude above .tooLarge 0 digits).map Int.ofNat

/-- A natural number up to a bound. -/
def readNat (above : Nat) (text : List Char) : Except NumberDefect Nat :=
  (read 0 above text).map Int.toNat

end WholeLiteral

end PositionFeed
