import PositionFeed.Decimal.Binary64
import PositionFeed.Word

namespace PositionFeed

/-!
# Spans of time and instants

A span is a number of nanoseconds, of which the whole seconds fit into 64 bits.
An instant is the distance from a fixed origin; its whole seconds fit into 63
bits.  The period of a rate is the span nearest to its reciprocal, where half a
nanosecond goes to the even neighbour.
-/

/-- A length of time. -/
structure Span where
  /-- The length in nanoseconds. -/
  nanos : Nat
  deriving Repr, DecidableEq, Inhabited

/-- A point in time, as the distance from an origin. -/
structure Instant where
  /-- The distance in nanoseconds. -/
  nanos : Nat
  deriving Repr, DecidableEq, Inhabited

namespace Span

/-- The nanoseconds of one second. -/
def perSecond : Nat := 1000000000

/-- The nanoseconds of one millisecond. -/
def perMilli : Nat := 1000000

/-- One more than the largest number of whole seconds of a span. -/
def secondBound : Nat := Word.size 64

def ofMillis (millis : Nat) : Span := ⟨millis * perMilli⟩

def ofSeconds (seconds : Nat) : Span := ⟨seconds * perSecond⟩

/-- The whole seconds of a span. -/
def seconds (span : Span) : Nat := span.nanos / perSecond

/-- The nanoseconds of a span beyond its whole seconds. -/
def subseconds (span : Span) : Nat := span.nanos % perSecond

/-- The whole microseconds of a span, reduced to 64 bits. -/
def micros (span : Span) : Nat := span.nanos / 1000 % Word.size 64

/-- Whether a span can be held. -/
def fits (span : Span) : Bool := span.seconds < secondBound

/-- So many times a span. -/
def times (span : Span) (count : Nat) : Span := ⟨span.nanos * count⟩

/-- A span in seconds, rounded as a sum of its two parts. -/
def toSeconds (span : Span) : Float :=
  Binary64.nearest false span.seconds 1 +
    Binary64.nearest false span.subseconds 1 / 1e9

def toMillis (span : Span) : Float :=
  span.toSeconds * 1000.0

/-- The span nearest to a number of seconds, unless the number is negative, not
finite or too large. -/
def nearest? (seconds : Float) : Option Span :=
  match Binary64.decode seconds with
  | .nan => none
  | .infinite _ => none
  | .finite negative significand exponent =>
      let value := Binary64.scaleDown significand 1 (-exponent)
      if negative ∧ 0 < significand then none
      else if secondBound * value.2 ≤ value.1 then none
      else some ⟨Binary64.roundDiv (value.1 * perSecond) value.2⟩

end Span

/-- The period of a rate in ticks per second, if it can be held. -/
def Span.ofRate? (rate : Float) : Option Span :=
  Span.nearest? (1.0 / rate)

/-- Whether a rate is a positive number. -/
def isPositiveRate (rate : Float) : Bool :=
  rate.isFinite && ! (rate ≤ 0.0)

namespace Instant

/-- One more than the largest number of whole seconds of an instant. -/
def secondBound : Nat := Word.size 63

def origin : Instant := ⟨0⟩

/-- The instant a span later. -/
def after (instant : Instant) (span : Span) : Instant :=
  ⟨instant.nanos + span.nanos⟩

/-- The span between two instants, empty if the first is the later one. -/
def spanTo (earlier later : Instant) : Span :=
  ⟨later.nanos - earlier.nanos⟩

/-- Whether an instant can be held. -/
def fits (instant : Instant) : Bool :=
  instant.nanos / Span.perSecond < secondBound

/-- The first whole millisecond that is not before an instant. -/
def ceilMilli (instant : Instant) : Instant :=
  ⟨(instant.nanos + Span.perMilli - 1) / Span.perMilli * Span.perMilli⟩

/-- The whole milliseconds since the origin. -/
def millis (instant : Instant) : Nat := instant.nanos / Span.perMilli

instance : LE Instant := ⟨fun first second => first.nanos ≤ second.nanos⟩

instance : LT Instant := ⟨fun first second => first.nanos < second.nanos⟩

instance (first second : Instant) : Decidable (first ≤ second) :=
  inferInstanceAs (Decidable (first.nanos ≤ second.nanos))

instance (first second : Instant) : Decidable (first < second) :=
  inferInstanceAs (Decidable (first.nanos < second.nanos))

end Instant

end PositionFeed
