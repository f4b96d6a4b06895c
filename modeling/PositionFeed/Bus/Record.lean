import PositionFeed.Position

namespace PositionFeed

/-!
# Bus records

A record is what one datagram carries.  Its text holds the position; the other
fields say who sent it and about what.  The count is the number that the sample
had at the sender; a receiver gives samples numbers of its own.
-/

/-- A record on the bus. -/
structure Record where
  /-- Who sent the record. -/
  sender : String
  /-- What the record is about. -/
  subject : String
  subjectNumber : UInt32
  text : String
  /-- The number of the sample at the sender, reduced to 64 bits. -/
  count : UInt64
  deriving Repr, DecidableEq

namespace Record

/-- The sender of every published record. -/
def publisher : String := "CoordinatePublisher"

/-- The subject of every published record. -/
def coordinates : String := "GPS_Coordinates"

/-- The record that is published for a sample. -/
def ofSample (sample : Sample) : Record where
  sender := publisher
  subject := coordinates
  subjectNumber := 1
  text := sample.position.text
  count := UInt64.ofNat sample.sequence

/-- The position that a record carries. -/
def position (record : Record) : Except PositionDefect Position :=
  Position.read record.text

end Record

end PositionFeed
