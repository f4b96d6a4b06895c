import PositionFeed.Proofs.Decimal.Settled
import PositionFeed.Proofs.Text.Fields
import PositionFeed.Proofs.Text.Utf8

namespace PositionFeed

/-!
# The text of a position read back

The text of every position is read as a position with the same time, and with
the longitude and the latitude that their eight places mean.  That position has
the same text, so reading it once more changes nothing.
-/

namespace Rounded

theorem isField_fixed
    {places : Nat}
    (positive : 0 < places)
    (x : Float) :
    Text.IsField (fixed places x) := by
  unfold fixed
  cases Binary64.decode x with
  | nan =>
      exact .cons (by decide) (by decide)
        (.cons (by decide) (by decide) (.cons (by decide) (by decide) nofun))
  | infinite negative =>
      refine Text.IsField.signed ?_ negative
      exact .cons (by decide) (by decide)
        (.cons (by decide) (by decide) (.cons (by decide) (by decide) nofun))
  | finite negative significand exponent =>
      obtain ⟨whole, fraction, shape, wholeDigits, fractionDigits, _⟩ :=
        fixedMagnitude_shape positive (unitsOf places significand exponent)
      simp only [unitsOf] at shape
      simp only [shape]
      refine Text.IsField.signed ?_ negative
      exact (Text.IsField.of_digits wholeDigits).append
        (.cons (by decide) (by decide) (.of_digits fractionDigits))

end Rounded

namespace Position

theorem places_positive : 0 < places := by
  decide

/-- A whole number of 64 bits with a sign is read back. -/
theorem read_wholeText
    {value : Int}
    (low : -(Word.size 63 : Int) ≤ value)
    (high : value ≤ Word.greatest 63) :
    WholeLiteral.read (Word.size 63) (Word.greatest 63) (wholeText value) =
      .ok value := by
  have all := AllDigits.digitText value.natAbs
  have nonempty := digitText_ne_nil value.natAbs
  by_cases negative : value < 0
  · have bounded :
        Nat.ofDigitChars 10 (Decimal.digitText value.natAbs) 0 ≤
          Word.size 63 := by
      rw [ofDigitChars_digitText]
      omega
    have shape :
        wholeText value = '-' :: Decimal.digitText value.natAbs := by
      simp [wholeText, NumberStyle.signed, negative]
    rw [shape, WholeLiteral.read_negative all nonempty (by decide) bounded,
      ofDigitChars_digitText]
    congr 1
    omega
  · have bounded :
        Nat.ofDigitChars 10 (Decimal.digitText value.natAbs) 0 ≤
          Word.greatest 63 := by
      rw [ofDigitChars_digitText]
      omega
    have shape : wholeText value = Decimal.digitText value.natAbs := by
      simp [wholeText, NumberStyle.signed, negative]
    rw [shape, WholeLiteral.read_digits all nonempty bounded,
      ofDigitChars_digitText]
    congr 1
    omega

theorem isField_wholeText
    (value : Int) :
    Text.IsField (wholeText value) :=
  (Text.IsField.of_digits (AllDigits.digitText _)).signed _

theorem length_wholeText_le
    (value : Int64) :
    (wholeText value.toInt).length ≤ 20 := by
  have low := value.le_toInt
  have high := value.toInt_lt
  have digits : (Decimal.digitText value.toInt.natAbs).length ≤ 19 :=
    length_digitText_le (by decide) (by omega)
  have signed :=
    Rounded.length_signed_le (decide (value.toInt < 0))
      (Decimal.digitText value.toInt.natAbs)
  exact signed.trans (Nat.succ_le_succ digits)

/-- No text of a position is longer than that of the largest doubles with the
lowest moment. -/
theorem length_chars_le
    (position : Position) :
    position.chars.length ≤ 660 := by
  have longitude :=
    Rounded.length_fixed_le places_positive position.longitude
  have latitude :=
    Rounded.length_fixed_le places_positive position.latitude
  have timestamp := length_wholeText_le position.timestamp
  simp only [places] at longitude latitude
  simp only [chars, places, List.length_append, List.length_cons]
  omega

/-- The text of a moment is read as the moment. -/
theorem readTimestamp_wholeText
    (timestamp : Int64) :
    readTimestamp (wholeText timestamp.toInt) = .ok timestamp := by
  have low : -(Word.size 63 : Int) ≤ timestamp.toInt :=
    timestamp.le_toInt
  have high : timestamp.toInt ≤ Word.greatest 63 :=
    Int.le_sub_one_of_lt timestamp.toInt_lt
  rw [readTimestamp, read_wholeText low high]
  simp [inField, Except.map]

/-- The text of a longitude or a latitude is read as what eight places leave
of it. -/
theorem readDegrees_fixed
    (coordinate : Coordinate)
    (x : Float) :
    readDegrees coordinate (Rounded.fixed places x) =
      .ok (Rounded.reread places x) := by
  rw [readDegrees, Rounded.read_fixed places_positive (by decide)]
  rfl

/-- What a position becomes when its text is read. -/
def reread (position : Position) : Position where
  longitude := Rounded.reread places position.longitude
  latitude := Rounded.reread places position.latitude
  timestamp := position.timestamp

/-- The text of a position is read as what eight places leave of it. -/
theorem read_text
    (position : Position) :
    read position.text = .ok position.reread := by
  have fields :=
    Text.splitAt_three
      (Rounded.isField_fixed places_positive position.longitude)
      (Rounded.isField_fixed places_positive position.latitude)
      (isField_wholeText position.timestamp.toInt)
  have split :
      (Text.splitAt ',' position.text.toList).map Text.trim =
        [Rounded.fixed places position.longitude,
          Rounded.fixed places position.latitude,
          wholeText position.timestamp.toInt] := by
    rw [text, String.toList_ofList, chars]
    simpa using fields
  rw [read, split]
  simp only [ofFields, readDegrees_fixed, readTimestamp_wholeText]
  rfl

@[simp] theorem text_reread
    (position : Position) :
    position.reread.text = position.text := by
  simp [text, chars, reread, Rounded.fixed_reread]

@[simp] theorem reread_reread
    (position : Position) :
    position.reread.reread = position.reread := by
  have again := position.reread.read_text
  rw [text_reread, read_text] at again
  exact (Except.ok.inj again).symm

end Position

end PositionFeed
