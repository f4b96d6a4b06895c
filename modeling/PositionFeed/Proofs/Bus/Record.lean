import PositionFeed.Proofs.Bus.Codec
import PositionFeed.Proofs.Position

namespace PositionFeed

/-!
# Samples on the bus

The record of every sample is read back in both formats, so what comes out of
its datagram is the position that the text of the sample means: the same
moment, and a longitude and a latitude that finite values move by at most one
unit of the eighth place to become.
-/

/-- A position is what the text of another one means. -/
structure Position.CarriedFrom
    (origin position : Position) : Prop where
  /-- It is read from the text of the other one. -/
  read :
    Position.read origin.text = .ok position
  /-- It is of the same moment. -/
  timestamp :
    position.timestamp = origin.timestamp
  /-- A finite longitude stays finite and near. -/
  longitude :
    (Binary64.decode origin.longitude).isFinite = true →
      (Binary64.decode position.longitude).isFinite = true ∧
        |(Binary64.decode position.longitude).number -
            (Binary64.decode origin.longitude).number| ≤ 1 / 10 ^ 8
  /-- A finite latitude stays finite and near. -/
  latitude :
    (Binary64.decode origin.latitude).isFinite = true →
      (Binary64.decode position.latitude).isFinite = true ∧
        |(Binary64.decode position.latitude).number -
            (Binary64.decode origin.latitude).number| ≤ 1 / 10 ^ 8

theorem Position.carriedFrom_reread
    (position : Position) :
    position.CarriedFrom position.reread where
  read := position.read_text
  timestamp := rfl
  longitude := Rounded.reread_close places
  latitude := Rounded.reread_close places

namespace Record

theorem length_text_le
    (sample : Sample) :
    (Utf8.encode (ofSample sample).text.toList).length ≤ 2640 := by
  have text : (ofSample sample).text.toList = sample.position.chars :=
    String.toList_ofList
  have short := sample.position.length_chars_le
  have bytes := Utf8.length_encode_le sample.position.chars
  rw [text]
  omega

theorem lengthsFit_ofSample
    (sample : Sample) :
    (ofSample sample).LengthsFit where
  sender := by
    have bytes := Utf8.length_encode_le publisher.toList
    exact bytes.trans_lt (by decide)
  subject := by
    have bytes := Utf8.length_encode_le coordinates.toList
    exact bytes.trans_lt (by decide)
  text := (length_text_le sample).trans_lt (by decide)

/-- In both formats the datagram of a sample holds the position that the text
of the sample means. -/
theorem decodePosition_ofSample
    (format : WireFormat)
    (sample : Sample) :
    decodePosition format ((ofSample sample).encode format) =
      .ok sample.position.reread := by
  have read : Position.read (ofSample sample).text = .ok sample.position.reread :=
    sample.position.read_text
  rw [decodePosition_encode (lengthsFit_ofSample sample), read]
  rfl

end Record

end PositionFeed
