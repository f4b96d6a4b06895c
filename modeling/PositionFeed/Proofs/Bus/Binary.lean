import Mathlib.Algebra.Group.Nat.Defs
import PositionFeed.Bus.Codec
import PositionFeed.Proofs.Text.Utf8

namespace PositionFeed

/-!
# The binary format reads back what it writes

Every field says itself where it ends, so each is read back from the beginning
of the input whatever follows it, and a record is read field after field.  The
length of a text must fit into the eight bytes that hold it.
-/

/-- The lengths of the texts of a record fit into 64 bits. -/
structure Record.LengthsFit (record : Record) : Prop where
  sender :
    (Utf8.encode record.sender.toList).length < Word.size 64
  subject :
    (Utf8.encode record.subject.toList).length < Word.size 64
  text :
    (Utf8.encode record.text.toList).length < Word.size 64

namespace Bincode

/-- A number is read back, reduced to its width. -/
theorem decodeNumber_encodeNumber
    (width value : Nat)
    (rest : List UInt8) :
    decodeNumber width (encodeNumber width value ++ rest) =
      .ok (value % 256 ^ width, rest) := by
  induction width generalizing value with
  | zero =>
      simp [encodeNumber, decodeNumber, Nat.mod_one]
  | succ width inductionHypothesis =>
      have lowest : (UInt8.ofNat value).toNat = value % 256 :=
        UInt8.toNat_ofNat'
      have whole :
          value % 256 + 256 * (value / 256 % 256 ^ width) =
            value % 256 ^ (width + 1) := by
        rw [Nat.pow_succ', Nat.mod_mul]
      simp only [encodeNumber, decodeNumber, List.cons_append,
        inductionHypothesis, lowest]
      exact congrArg (fun read => Except.ok (read, rest)) whole

/-- A number that fits its width is read back. -/
theorem decodeNumber_of_lt
    {width value : Nat}
    (fits : value < 256 ^ width)
    (rest : List UInt8) :
    decodeNumber width (encodeNumber width value ++ rest) =
      .ok (value, rest) := by
  rw [decodeNumber_encodeNumber, Nat.mod_eq_of_lt fits]

/-- A text is read back. -/
theorem decodeText_encodeText
    {text : String}
    (fits : (Utf8.encode text.toList).length < Word.size 64)
    (rest : List UInt8) :
    decodeText (encodeText text ++ rest) = .ok (text, rest) := by
  have length :
      decodeNumber 8
          (encodeNumber 8 (Utf8.encode text.toList).length ++
            (Utf8.encode text.toList ++ rest)) =
        .ok ((Utf8.encode text.toList).length,
          Utf8.encode text.toList ++ rest) :=
    decodeNumber_of_lt fits _
  simp only [encodeText, List.append_assoc, decodeText, length]
  simp [bind, Except.bind]

/-- A record is read back, whatever follows it. -/
theorem decode_encode_append
    {record : Record}
    (fit : record.LengthsFit)
    (rest : List UInt8) :
    decode (encode record ++ rest) = .ok record := by
  have subjectNumber : record.subjectNumber.toNat < 256 ^ 4 :=
    record.subjectNumber.toNat_lt
  have count : record.count.toNat < 256 ^ 8 :=
    record.count.toNat_lt
  simp only [encode, decode, List.append_assoc,
    decodeText_encodeText fit.sender, decodeText_encodeText fit.subject,
    decodeText_encodeText fit.text, decodeNumber_of_lt subjectNumber,
    decodeNumber_of_lt count, bind, Except.bind]
  simp

/-- A record is read back. -/
theorem decode_encode
    {record : Record}
    (fit : record.LengthsFit) :
    decode (encode record) = .ok record := by
  simpa using decode_encode_append fit []

end Bincode

end PositionFeed
