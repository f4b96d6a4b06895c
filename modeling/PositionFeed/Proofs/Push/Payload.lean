import PositionFeed.Bus.Intake
import PositionFeed.Proofs.Json.Compact
import PositionFeed.Proofs.Json.Exact
import PositionFeed.Proofs.Position.Grammar
import PositionFeed.Push.Frame

namespace PositionFeed

/-!
# What is let in and what is pushed out

A position enters with any two literals.  Most of them denote numbers, and a
frame has these as numbers that denote the stored doubles and no others.  The
words for infinity and for what is no number, and numbers beyond the doubles,
enter as well.  JSON has no number for what is stored then, so the frame says
`null` in its place.
-/

/-! ## Literals that are stored as finite doubles -/

namespace FloatLiteral

/-- A number that is rounded to a finite double. -/
inductive Meaning.IsBounded : Meaning → Prop where
  | number
      {negative : Bool}
      {magnitude : ℚ}
      (small : magnitude < Binary64.overflow) :
      IsBounded (.number negative magnitude)

theorem Meaning.IsRoundedTo.unique
    {meaning : Meaning}
    {x y : Float}
    (isFirst : meaning.IsRoundedTo x)
    (isSecond : meaning.IsRoundedTo y) :
    x = y := by
  cases meaning with
  | nan | infinite =>
      exact Eq.trans isFirst (Eq.symm isSecond)
  | number =>
      exact Binary64.IsNearestTo.unique isFirst isSecond

theorem Meaning.IsRoundedTo.isFinite_iff
    {meaning : Meaning}
    {x : Float}
    (rounded : meaning.IsRoundedTo x) :
    x.isFinite = true ↔ meaning.IsBounded := by
  cases meaning with
  | nan =>
      obtain rfl : x = Binary64.nan := rounded
      refine ⟨fun finite => ?_, fun bounded => by cases bounded⟩
      exact absurd finite (by decide +kernel)
  | infinite negative =>
      obtain rfl : x = Binary64.infinity negative := rounded
      refine ⟨fun finite => ?_, fun bounded => by cases bounded⟩
      rw [Binary64.isFinite_infinity] at finite
      cases finite
  | number negative magnitude =>
      rw [Binary64.IsNearestTo.isFinite_iff rounded]
      exact ⟨.number, fun bounded => by cases bounded; assumption⟩

/-- A field is stored as the double that it is rounded to, and this is finite
exactly if the field denotes a number that is small enough. -/
inductive IsStoredAs : List Char → Float → Prop where
  | rounded
      {field : List Char}
      {meaning : Meaning}
      {x : Float}
      (denotes : Denotes field meaning)
      (isRounded : meaning.IsRoundedTo x)
      (finite : x.isFinite = true ↔ meaning.IsBounded) :
      IsStoredAs field x

end FloatLiteral

/-! ## Texts of numbers -/

namespace Json

/-- A text is a number of JSON that denotes a double and no other. -/
structure IsNumberOf (text : List Char) (x : Float) : Prop where
  isNumber : ∃ number : Spelling, number.IsPlain ∧ text = number.text
  denotes :
    ∃ meaning, FloatLiteral.Denotes text meaning ∧
      ∀ other, meaning.IsRoundedTo other ↔ other = x

/-- A text is a number of JSON that denotes a whole number. -/
structure IsIntegerOf (text : List Char) (value : Int) : Prop where
  isNumber : ∃ number : Spelling, number.IsPlain ∧ text = number.text
  denotes : WholeLiteral.Denotes text value

/-- A text stands for a double in JSON: it is its number, or `null` if the
double is not finite. -/
inductive StandsFor : List Char → Float → Prop where
  | number
      {text : List Char}
      {x : Float}
      (finite : x.isFinite = true)
      (isNumberOf : IsNumberOf text x) :
      StandsFor text x
  | null
      {x : Float}
      (special : x.isFinite = false) :
      StandsFor "null".toList x

theorem standsFor_text
    (x : Float) :
    StandsFor (NumberStyle.json.text x) x := by
  cases finite : x.isFinite with
  | true =>
      obtain ⟨number, text, plain, _⟩ := exists_spelling finite
      obtain ⟨meaning, denotes, rounded⟩ := denotes_text finite
      refine .number finite ⟨⟨number, plain, text⟩, meaning, denotes, ?_⟩
      intro other
      constructor
      · intro otherRounded
        exact otherRounded.unique rounded
      · rintro rfl
        exact rounded
  | false =>
      rw [text_of_not_isFinite finite]
      exact .null finite

theorem isIntegerOf_integerText
    (value : Int) :
    IsIntegerOf (integerText value) value where
  isNumber := ⟨_, plain_digitText _ _, integerText_eq value⟩
  denotes := by
    obtain ⟨sign, isSign, signed⟩ :=
      isSign_signed (value < 0) (Decimal.digitText value.natAbs)
    have denotes := WholeLiteral.Denotes.signed isSign
      (AllDigits.digitText value.natAbs) (digitText_ne_nil value.natAbs)
    have isValue : signedValue (value < 0) value.natAbs = value := by
      by_cases negative : value < 0 <;>
        simp only [signedValue, negative, decide_true, decide_false,
          Bool.false_eq_true, ↓reduceIte] <;>
        omega
    rw [integerText, signed]
    rwa [ofDigitChars_digitText, isValue] at denotes

end Json

/-! ## Frames -/

namespace Sample

/-- What the frame of a sample is read as. -/
def pushNode (sample : Sample) : Node :=
  Schema.Present.table [
    ("coords", .sequence [Json.writtenNode sample.position.longitude,
      Json.writtenNode sample.position.latitude] true),
    ("time", .integer sample.position.timestamp.toInt)]

theorem isValue_pushTree
    (sample : Sample) :
    Json.IsValue sample.pushTree.compact sample.pushNode := by
  have low := sample.position.timestamp.le_toInt
  have high := sample.position.timestamp.toInt_lt
  have coordinates :
      Json.IsValue
        (Json.Tree.array [.number sample.position.longitude,
          .number sample.position.latitude]).compact
        (.sequence [Json.writtenNode sample.position.longitude,
          Json.writtenNode sample.position.latitude] true) :=
    Json.isValue_compact_array
      (.cons (Json.isValue_compact_double _)
        (.cons (Json.isValue_compact_double _) .nil))
  have time :
      Json.IsValue (Json.Tree.integer sample.position.timestamp.toInt).compact
        (.integer sample.position.timestamp.toInt) :=
    Json.isValue_compact_integer low (high.trans (by decide))
  exact Json.isValue_compact_object
    (.cons ⟨rfl, coordinates⟩ (.cons ⟨rfl, time⟩ .nil))

end Sample

namespace Frame

/-- The text of a frame around the texts of its three values. -/
def around (longitude latitude timestamp : List Char) : List Char :=
  "\x7b\"coords\":[".toList ++ longitude ++ ',' :: latitude ++
    "],\"time\":".toList ++ timestamp ++ ['\x7d']

theorem compact_coordinates
    (x y : Float) :
    (Json.Tree.array [.number x, .number y]).compact =
      '[' :: NumberStyle.json.text x ++ ',' :: NumberStyle.json.text y ++
        [']'] := by
  rw [Json.Tree.compact, Json.compactItems_eq]
  simp only [List.map_cons, List.map_nil, Json.rowItems]
  rw [Json.Tree.compact, Json.Tree.compact]
  simp

theorem compact_pushTree
    (sample : Sample) :
    sample.pushTree.compact =
      around (NumberStyle.json.text sample.position.longitude)
        (NumberStyle.json.text sample.position.latitude)
        (Json.integerText sample.position.timestamp.toInt) := by
  have opening :
      "\x7b\"coords\":[".toList =
        '\x7b' :: Json.quotedText "coords" ++ [':', '['] := by
    decide +kernel
  have middle :
      "],\"time\":".toList =
        ']' :: ',' :: Json.quotedText "time" ++ [':'] := by
    decide +kernel
  rw [Sample.pushTree, Json.Tree.compact, Json.compactEntries_eq]
  simp only [List.map_cons, List.map_nil, Json.rowEntries, compact_coordinates]
  rw [Json.Tree.compact]
  -- The literals are replaced before anything is compared: they are slow to
  -- evaluate where they stand.
  unfold around
  simp only [opening, middle]
  simp

/-- A text says a sample: it is one JSON object with the two coordinates and the
time, each as JSON has it. -/
structure Says (content : String) (sample : Sample) : Prop where
  values :
    ∃ longitude latitude timestamp,
      content.toList = around longitude latitude timestamp ∧
        Json.StandsFor longitude sample.position.longitude ∧
        Json.StandsFor latitude sample.position.latitude ∧
        Json.IsIntegerOf timestamp sample.position.timestamp.toInt
  isObject :
    Json.document (Utf8.encode content.toList) = (sample.pushNode, true)

theorem says_pushTree
    (sample : Sample) :
    Says sample.pushTree.toCompact sample where
  values := by
    rw [Json.Tree.toCompact, String.toList_ofList]
    exact ⟨_, _, _, compact_pushTree sample, Json.standsFor_text _,
      Json.standsFor_text _, Json.isIntegerOf_integerText _⟩
  isObject := by
    rw [Json.Tree.toCompact, String.toList_ofList]
    exact sample.isValue_pushTree.document_eq

end Frame

namespace Intake

theorem handle_eq_ok_iff
    {intake : Intake}
    {cache : Cache}
    {datagram : List UInt8}
    {sample : Sample} :
    (intake.handle cache datagram).2.2.1 = .ok sample ↔
      ∃ position,
        Record.decodePosition intake.format datagram = .ok position ∧
          sample = cache.nextSample position := by
  unfold handle
  cases Record.decodePosition intake.format datagram <;> simp [eq_comm]

/-- What comes of a datagram that is accepted: a sample that is stored and
pushed. -/
structure Publishes
    (format : WireFormat)
    (datagram : List UInt8)
    (after : Cache)
    (sample : Sample) : Prop where
  stored :
    after.latest = some sample
  /-- The position is what the fields of a record denote. -/
  denoted :
    ∃ record longitude latitude timestamp,
      Record.decode format datagram = .ok record ∧
        Position.HasFields record.text.toList longitude latitude timestamp ∧
        FloatLiteral.IsStoredAs longitude sample.position.longitude ∧
        FloatLiteral.IsStoredAs latitude sample.position.latitude ∧
        WholeLiteral.Denotes timestamp sample.position.timestamp.toInt
  /-- The frame has the coordinates and the time of the sample. -/
  pushed :
    ∃ content,
      Frame.ofSample sample = .text content ∧ Frame.Says content sample

/-- A datagram is accepted exactly if it holds a record whose text is a
position. -/
theorem exists_accepted_iff
    {intake : Intake}
    {cache : Cache}
    {datagram : List UInt8} :
    (∃ sample, (intake.handle cache datagram).2.2.1 = .ok sample) ↔
      ∃ record, Record.decode intake.format datagram = .ok record ∧
        Position.IsPosition record.text := by
  simp only [handle_eq_ok_iff]
  constructor
  · rintro ⟨_, position, decoded, _⟩
    obtain ⟨record, holds, reads⟩ := Result.bind_eq_ok_iff.mp decoded
    exact ⟨record, holds, Position.exists_read_iff.mp
      ⟨position, Result.mapError_eq_ok_iff.mp reads⟩⟩
  · rintro ⟨record, holds, isPosition⟩
    obtain ⟨position, reads⟩ := Position.exists_read_iff.mpr isPosition
    exact ⟨_, position, Result.bind_eq_ok_iff.mpr
      ⟨record, holds, Result.mapError_eq_ok_iff.mpr reads⟩, rfl⟩

theorem publishes_of_accepted
    {intake : Intake}
    {cache : Cache}
    {datagram : List UInt8}
    {sample : Sample}
    (accepted : (intake.handle cache datagram).2.2.1 = .ok sample) :
    Publishes intake.format datagram (intake.handle cache datagram).2.1
      sample := by
  obtain ⟨position, decoded, rfl⟩ := handle_eq_ok_iff.mp accepted
  obtain ⟨record, holds, reads⟩ := Result.bind_eq_ok_iff.mp decoded
  have denotes :=
    Position.read_eq_ok_iff.mp (Result.mapError_eq_ok_iff.mp reads)
  refine {
    stored := ?_
    denoted := ?_
    pushed := ⟨_, rfl, Frame.says_pushTree _⟩
  }
  · simp only [handle, decoded, Cache.latest_update]
  · cases denotes with
    | fields hasFields isLongitude longitudeRounded isLatitude latitudeRounded
        isTimestamp =>
        exact ⟨record, _, _, _, holds, hasFields,
          .rounded isLongitude longitudeRounded longitudeRounded.isFinite_iff,
          .rounded isLatitude latitudeRounded latitudeRounded.isFinite_iff,
          isTimestamp⟩

/-- In either format a datagram is accepted exactly if it holds a record whose
text is a position.  It becomes a sample, and this is pushed as it is stored: a
coordinate as a number that denotes it exactly if its field denotes a number
that is small enough, and as `null` otherwise. -/
theorem every_accepted_datagram_is_pushed
    (intake : Intake)
    (cache : Cache)
    (datagram : List UInt8) :
    ((∃ sample, (intake.handle cache datagram).2.2.1 = .ok sample) ↔
      ∃ record, Record.decode intake.format datagram = .ok record ∧
        Position.IsPosition record.text) ∧
      ∀ sample, (intake.handle cache datagram).2.2.1 = .ok sample →
        Publishes intake.format datagram (intake.handle cache datagram).2.1
          sample :=
  ⟨exists_accepted_iff, fun _ => publishes_of_accepted⟩

/-- A record from the network with a place in degrees. -/
theorem placeRecord_is_pushed :
    let datagram := Record.encode .json ⟨"gps", "place", 1, "90.5,-20.25,7", 0⟩
    let sample : Sample := ⟨⟨90.5, -20.25, 7⟩, 1⟩
    ((begin .json).handle .empty datagram).2.2.1 = .ok sample ∧
      Publishes .json datagram ((begin .json).handle .empty datagram).2.1
        sample := by
  have accepted :
      ((begin .json).handle .empty
          (Record.encode .json ⟨"gps", "place", 1, "90.5,-20.25,7", 0⟩)).2.2.1 =
        .ok ⟨⟨90.5, -20.25, 7⟩, 1⟩ := by
    decide +kernel
  exact ⟨accepted, (every_accepted_datagram_is_pushed _ _ _).2 _ accepted⟩

/-- In both formats a record gets in whose coordinates are no finite numbers,
and its frame has none. -/
theorem wildRecord_is_pushed_without_numbers :
    let record : Record := ⟨"gps", "place", 1, "nan,1e999,7", 0⟩
    let sample : Sample :=
      ⟨⟨Binary64.nan, Binary64.infinity false, 7⟩, 1⟩
    ((begin .json).handle .empty (Record.encode .json record)).2.2.1 =
        .ok sample ∧
      ((begin .bincode).handle .empty (Record.encode .bincode record)).2.2.1 =
        .ok sample ∧
      sample.position.longitude.isFinite = false ∧
      sample.position.latitude.isFinite = false ∧
      Frame.ofSample sample =
        .text "\x7b\"coords\":[null,null],\"time\":7\x7d" := by
  decide +kernel

end Intake

end PositionFeed
