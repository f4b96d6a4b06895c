import PositionFeed.Decimal.Layout
import PositionFeed.Decimal.Literal
import PositionFeed.Text.Blank
import PositionFeed.Word

namespace PositionFeed

/-!
# Positions and samples

A position is a place and the time at which it was taken.  A sample is a
position with the number it got when it entered the cache.  On the bus a
position travels as text: longitude, latitude and time between commas, the
first two with eight places.  The reader is more generous than the writer: it
takes any spelling of the three numbers, with blanks around each.
-/

/-- A place at a moment. -/
structure Position where
  /-- The longitude in degrees. -/
  longitude : Float
  /-- The latitude in degrees. -/
  latitude : Float
  /-- The moment, in milliseconds of the Unix epoch. -/
  timestamp : Int64
  deriving DecidableEq

/-- A position with its number in the cache. -/
structure Sample where
  position : Position
  /-- The number; the first sample has number one. -/
  sequence : Nat
  deriving DecidableEq

/-- Which of the three numbers of a position. -/
inductive Coordinate where
  | longitude
  | latitude
  /-- The moment. -/
  | timestamp
  deriving Repr, DecidableEq

/-- The word for a number of a position. -/
def Coordinate.name : Coordinate → String
  | .longitude => "longitude"
  | .latitude => "latitude"
  | .timestamp => "timestamp"

/-- Why a text is no position. -/
inductive PositionDefect where
  /-- It does not have three fields. -/
  | fieldCount (text : String)
  /-- One of its fields is not a number of the right kind. -/
  | field (coordinate : Coordinate) (text : List Char) (defect : NumberDefect)
  deriving Repr, DecidableEq

/-- The wording of a text that is no position. -/
def PositionDefect.message : PositionDefect → String
  | .fieldCount text => "expected 'lon,lat,timestamp', got '" ++ text ++ "'"
  | .field coordinate text defect =>
      "invalid " ++ coordinate.name ++ " '" ++ String.ofList text ++ "': " ++
        defect.message

namespace Position

/-- The places after the point that a longitude or latitude is written with. -/
def places : Nat := 8

def wholeText (value : Int) : List Char :=
  NumberStyle.signed (value < 0) (Decimal.digitText value.natAbs)

def chars (position : Position) : List Char :=
  Rounded.fixed places position.longitude ++
    ',' :: Rounded.fixed places position.latitude ++
    ',' :: wholeText position.timestamp.toInt

def text (position : Position) : String :=
  String.ofList position.chars

/-- Says which number of a position a defect belongs to. -/
def inField (coordinate : Coordinate) (field : List Char) :
    Except NumberDefect α → Except PositionDefect α
  | .ok value => .ok value
  | .error defect => .error (.field coordinate field defect)

/-- Reads a longitude or a latitude. -/
def readDegrees (coordinate : Coordinate) (field : List Char) :
    Except PositionDefect Float :=
  inField coordinate field (FloatLiteral.read field)

/-- Reads a moment. -/
def readTimestamp (field : List Char) : Except PositionDefect Int64 :=
  inField .timestamp field
    ((WholeLiteral.read (Word.size 63) (Word.greatest 63) field).map Int64.ofInt)

/-- Reads three fields without blanks around them. -/
def ofFields (longitude latitude timestamp : List Char) :
    Except PositionDefect Position := do
  let longitude ← readDegrees .longitude longitude
  let latitude ← readDegrees .latitude latitude
  let timestamp ← readTimestamp timestamp
  .ok ⟨longitude, latitude, timestamp⟩

def read (text : String) : Except PositionDefect Position :=
  match (Text.splitAt ',' text.toList).map Text.trim with
  | [longitude, latitude, timestamp] => ofFields longitude latitude timestamp
  | _ => .error (.fieldCount text)

end Position

end PositionFeed
