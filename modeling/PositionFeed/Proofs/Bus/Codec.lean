import PositionFeed.Proofs.Bus.Binary
import PositionFeed.Proofs.Json.Object

namespace PositionFeed

/-!
# Records read back

In either format the bytes of a record are read as that record.  The binary
format needs the lengths of its texts to fit their eight bytes, which every
text that fits into a memory does.
-/

namespace Record

/-- The entries of a record as the reader finds them. -/
def entries (record : Record) : List (Option String × Node) :=
  [(some "from", .text record.sender),
    (some "subject", .text record.subject),
    (some "subject_id", .integer record.subjectNumber.toNat),
    (some "text", .text record.text),
    (some "count", .integer record.count.toNat)]

theorem ofNode_entries
    (record : Record) :
    ofNode (.table record.entries true) = .ok record := by
  have subjectNumber : record.subjectNumber.toNat ≤ Word.greatest 32 :=
    Nat.le_sub_one_of_lt record.subjectNumber.toNat_lt
  have count : record.count.toNat ≤ Word.greatest 64 :=
    Nat.le_sub_one_of_lt record.count.toNat_lt
  simp [ofNode, entries, Schema.record, Schema.tableFields, Schema.Field.of,
    Schema.text, Schema.natural32, Schema.natural64, Schema.natural,
    Schema.Present.wanted, List.lookup_cons, subjectNumber, count, bind,
    Except.bind, Except.map]

/-- The entries of a record as they are written. -/
def trees (record : Record) : List (String × Json.Tree) :=
  [("from", .text record.sender), ("subject", .text record.subject),
    ("subject_id", .integer record.subjectNumber.toNat),
    ("text", .text record.text), ("count", .integer record.count.toNat)]

theorem tree_eq
    (record : Record) :
    record.tree = .object record.trees := rfl

theorem plainEntries?_trees
    (record : Record) :
    Json.plainEntries? record.trees = some record.entries := by
  have subjectNumber : record.subjectNumber.toNat < Word.size 64 :=
    Nat.lt_trans record.subjectNumber.toNat_lt (by decide)
  have count : record.count.toNat < Word.size 64 :=
    record.count.toNat_lt
  simp [trees, Json.plainEntries?, Json.plainNode?_natural subjectNumber,
    Json.plainNode?_natural count, entries]

/-- A record in JSON is read back. -/
theorem read_tree
    (record : Record) :
    Json.read ofNode (Utf8.encode record.tree.compact) = .ok record := by
  rw [tree_eq, Json.read_object record.plainEntries?_trees, ofNode_entries]

/-- The format can hold the record.  JSON sets no limit to a text, and the one
of the binary format is beyond every text that a memory holds. -/
def Fits (record : Record) : WireFormat → Prop
  | .json => True
  | .bincode => record.LengthsFit

/-- A record is read back in the format in which it was written. -/
theorem decode_encode_of_fits
    {format : WireFormat}
    {record : Record}
    (fits : record.Fits format) :
    decode format (encode format record) = .ok record := by
  cases format with
  | json =>
      simp only [decode, encode, read_tree]
      rfl
  | bincode =>
      simp only [decode, encode, Bincode.decode_encode fits]
      rfl

theorem decode_encode
    {record : Record}
    (fit : record.LengthsFit)
    (format : WireFormat) :
    decode format (encode format record) = .ok record := by
  refine decode_encode_of_fits ?_
  cases format with
  | json =>
      trivial
  | bincode =>
      exact fit

/-- What is read from the bytes of a record is the position in its text. -/
theorem decodePosition_encode
    {record : Record}
    (fit : record.LengthsFit)
    (format : WireFormat) :
    decodePosition format (encode format record) =
      (Position.read record.text).mapError .position := by
  simp only [decodePosition, decode_encode fit]
  rfl

/-- Every record that a format can hold is read back in it, so no two of them
have the same bytes. -/
theorem every_record_reads_back
    {format : WireFormat}
    {record : Record}
    (fits : record.Fits format) :
    decode format (encode format record) = .ok record ∧
      ∀ other : Record, other.Fits format →
        encode format other = encode format record → other = record := by
  have read := decode_encode_of_fits fits
  refine ⟨read, ?_⟩
  intro other fitsOther same
  have readOther := decode_encode_of_fits fitsOther
  rw [same, read] at readOther
  exact (Except.ok.inj readOther).symm

/-- A record whose texts are hard to write. -/
def awkward : Record where
  sender := "say \"no\"\\\x00\n\x7f"
  subject := ""
  subjectNumber := 4294967295
  text := "δ,€,𝄞,\x7b\x7d"
  count := 18446744073709551615

theorem awkward_reads_back :
    (awkward.Fits .json ∧ awkward.Fits .bincode) ∧
      decode .json (encode .json awkward) = .ok awkward ∧
      decode .bincode (encode .bincode awkward) = .ok awkward ∧
      (∀ other : Record, other.Fits .bincode →
        encode .bincode other = encode .bincode awkward →
          other = awkward) := by
  have short (text : String) (few : 4 * text.toList.length < Word.size 64) :
      (Utf8.encode text.toList).length < Word.size 64 :=
    Nat.lt_of_le_of_lt (Utf8.length_encode_le text.toList) few
  have inJson : awkward.Fits .json :=
    trivial
  have inBincode : awkward.Fits .bincode := {
    sender := short _ (by decide)
    subject := short _ (by decide)
    text := short _ (by decide)
  }
  exact ⟨⟨inJson, inBincode⟩, (every_record_reads_back inJson).1,
    every_record_reads_back inBincode⟩

end Record

end PositionFeed
