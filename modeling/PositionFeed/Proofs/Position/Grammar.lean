import PositionFeed.Position
import PositionFeed.Proofs.Decimal.Grammar
import PositionFeed.Proofs.Text.Fields

namespace PositionFeed

/-!
# The texts that are positions

A text is read as a position exactly if it has two commas and, but for blanks
around them, the three fields are two literals and a whole number of 64 bits.
What is returned is what the fields denote.  A text without two commas is
refused as a whole, and otherwise the first field that is malformed is reported.
-/

/-! ## Fields -/

namespace FloatLiteral

/-- A text is a literal, whatever it denotes. -/
def IsLiteral (text : List Char) : Prop :=
  ∃ meaning, Denotes text meaning

theorem Mantissa.nonneg
    {text : List Char}
    {magnitude : ℚ}
    (isMantissa : Mantissa text magnitude) :
    0 ≤ magnitude := by
  cases isMantissa <;> positivity

/-- Whatever is denoted, there is a double that it is rounded to. -/
theorem Denotes.exists_isRoundedTo
    {text : List Char}
    {meaning : Meaning}
    (denotes : Denotes text meaning) :
    ∃ x, meaning.IsRoundedTo x := by
  cases denotes with
  | @number _ _ _ negative _ exponent _ isMantissa =>
      have nonneg := isMantissa.nonneg
      exact Binary64.exists_isNearestTo negative (by positivity)
  | infinite =>
      exact ⟨_, rfl⟩
  | nan =>
      exact ⟨_, rfl⟩

/-- Every literal is read. -/
theorem isLiteral_iff
    {text : List Char} :
    IsLiteral text ↔ ∃ x, read text = .ok x := by
  constructor
  · rintro ⟨meaning, denotes⟩
    obtain ⟨x, rounded⟩ := denotes.exists_isRoundedTo
    exact ⟨x, read_eq_ok_iff.mpr ⟨meaning, denotes, rounded⟩⟩
  · rintro ⟨x, reads⟩
    obtain ⟨meaning, denotes, _⟩ := read_eq_ok_iff.mp reads
    exact ⟨meaning, denotes⟩

end FloatLiteral

namespace WholeLiteral

/-- A text denotes a whole number of 64 bits. -/
def FitsWord (text : List Char) : Prop :=
  ∃ value,
    Denotes text value ∧ -(Word.size 63 : Int) ≤ value ∧
      value ≤ Word.greatest 63

end WholeLiteral

namespace Position

/-- A text with exactly two commas, and its three fields without the blanks
around them. -/
inductive HasFields :
    List Char → List Char → List Char → List Char → Prop where
  | commas
      {first second third longitude latitude timestamp : List Char}
      (firstAbsent : ',' ∉ first)
      (secondAbsent : ',' ∉ second)
      (thirdAbsent : ',' ∉ third)
      (isLongitude : Text.Padded longitude first)
      (isLatitude : Text.Padded latitude second)
      (isTimestamp : Text.Padded timestamp third) :
      HasFields (first ++ ',' :: (second ++ ',' :: third))
        longitude latitude timestamp

theorem hasFields_iff
    {text longitude latitude timestamp : List Char} :
    HasFields text longitude latitude timestamp ↔
      (Text.splitAt ',' text).map Text.trim =
        [longitude, latitude, timestamp] := by
  constructor
  · rintro ⟨firstAbsent, secondAbsent, thirdAbsent, isLongitude, isLatitude,
      isTimestamp⟩
    rw [Text.splitAt_append firstAbsent, Text.splitAt_append secondAbsent,
      Text.splitAt_of_notMem thirdAbsent]
    simp only [List.map_cons, List.map_nil, Text.trim_eq_iff.mpr isLongitude,
      Text.trim_eq_iff.mpr isLatitude, Text.trim_eq_iff.mpr isTimestamp]
  · intro fields
    obtain ⟨first, _, split, isLongitude, fields⟩ :=
      List.map_eq_cons_iff.mp fields
    obtain ⟨second, _, rfl, isLatitude, fields⟩ :=
      List.map_eq_cons_iff.mp fields
    obtain ⟨third, _, rfl, isTimestamp, fields⟩ :=
      List.map_eq_cons_iff.mp fields
    rw [List.map_eq_nil_iff.mp fields] at split
    have splits := Text.splitAt_eq_iff.mp split
    cases splits with
    | next firstAbsent splits =>
    cases splits with
    | next secondAbsent splits =>
    cases splits with
    | next thirdAbsent splits =>
        cases splits
    | last thirdAbsent =>
        exact .commas firstAbsent secondAbsent thirdAbsent
          (Text.trim_eq_iff.mp isLongitude) (Text.trim_eq_iff.mp isLatitude)
          (Text.trim_eq_iff.mp isTimestamp)

/-- A text has three fields exactly if it has two commas. -/
theorem exists_hasFields_iff
    {text : List Char} :
    (∃ longitude latitude timestamp,
      HasFields text longitude latitude timestamp) ↔
      text.count ',' = 2 := by
  simp only [hasFields_iff]
  have counted := (Text.splits_splitAt ',' text).length
  generalize Text.splitAt ',' text = pieces at counted
  have three :
      (∃ longitude latitude timestamp,
        pieces.map Text.trim = [longitude, latitude, timestamp]) ↔
        pieces.length = 3 := by
    rw [← List.length_map Text.trim, List.length_eq_three]
  rw [three]
  omega

/-- What a text means as a position. -/
inductive Denotes : String → Position → Prop where
  | fields
      {text : String}
      {longitude latitude timestamp : List Char}
      {east north : FloatLiteral.Meaning}
      {position : Position}
      (hasFields : HasFields text.toList longitude latitude timestamp)
      (isLongitude : FloatLiteral.Denotes longitude east)
      (longitudeRounded : east.IsRoundedTo position.longitude)
      (isLatitude : FloatLiteral.Denotes latitude north)
      (latitudeRounded : north.IsRoundedTo position.latitude)
      (isTimestamp :
        WholeLiteral.Denotes timestamp position.timestamp.toInt) :
      Denotes text position

/-- A text that is a position, whatever its fields denote. -/
inductive IsPosition : String → Prop where
  | fields
      {text : String}
      {longitude latitude timestamp : List Char}
      (hasFields : HasFields text.toList longitude latitude timestamp)
      (isLongitude : FloatLiteral.IsLiteral longitude)
      (isLatitude : FloatLiteral.IsLiteral latitude)
      (isTimestamp : WholeLiteral.FitsWord timestamp) :
      IsPosition text

/-- Why a text is no position: it has not two commas, or a field is malformed
behind fields that are not. -/
inductive Lacks : String → PositionDefect → Prop where
  | fieldCount
      {text : String}
      (count : text.toList.count ',' ≠ 2) :
      Lacks text (.fieldCount text)
  | longitude
      {text : String}
      {longitude latitude timestamp : List Char}
      {defect : NumberDefect}
      (hasFields : HasFields text.toList longitude latitude timestamp)
      (malformed : ¬ FloatLiteral.IsLiteral longitude)
      (reported : FloatLiteral.read longitude = .error defect) :
      Lacks text (.field .longitude longitude defect)
  | latitude
      {text : String}
      {longitude latitude timestamp : List Char}
      {defect : NumberDefect}
      (hasFields : HasFields text.toList longitude latitude timestamp)
      (isLongitude : FloatLiteral.IsLiteral longitude)
      (malformed : ¬ FloatLiteral.IsLiteral latitude)
      (reported : FloatLiteral.read latitude = .error defect) :
      Lacks text (.field .latitude latitude defect)
  | timestamp
      {text : String}
      {longitude latitude timestamp : List Char}
      {defect : NumberDefect}
      (hasFields : HasFields text.toList longitude latitude timestamp)
      (isLongitude : FloatLiteral.IsLiteral longitude)
      (isLatitude : FloatLiteral.IsLiteral latitude)
      (malformed : ¬ WholeLiteral.FitsWord timestamp)
      (reported :
        WholeLiteral.read (Word.size 63) (Word.greatest 63) timestamp =
          .error defect) :
      Lacks text (.field .timestamp timestamp defect)

/-! ## The reader -/

theorem inField_eq_ok_iff
    {coordinate : Coordinate}
    {field : List Char}
    {step : Except NumberDefect α}
    {value : α} :
    inField coordinate field step = .ok value ↔ step = .ok value := by
  cases step <;> simp [inField]

theorem inField_eq_error_iff
    {coordinate : Coordinate}
    {field : List Char}
    {step : Except NumberDefect α}
    {defect : PositionDefect} :
    inField coordinate field step = .error defect ↔
      ∃ reason, step = .error reason ∧
        defect = .field coordinate field reason := by
  cases step <;> simp [inField, eq_comm]

/-- A moment is read exactly if the field denotes it. -/
theorem readTimestamp_eq_ok_iff
    {field : List Char}
    {timestamp : Int64} :
    readTimestamp field = .ok timestamp ↔
      WholeLiteral.Denotes field timestamp.toInt := by
  rw [readTimestamp, inField_eq_ok_iff, Result.map_eq_ok_iff]
  constructor
  · rintro ⟨value, reads, rfl⟩
    obtain ⟨denotes, low, high⟩ :=
      (WholeLiteral.read_eq_ok_iff (by decide)).mp reads
    rwa [Int64.toInt_ofInt_of_le low (Int.lt_of_le_sub_one high)]
  · intro denotes
    refine ⟨timestamp.toInt, ?_, Int64.ofInt_toInt timestamp⟩
    rw [WholeLiteral.read_eq_ok_iff (by decide)]
    exact ⟨denotes, timestamp.le_toInt,
      Int.le_sub_one_of_lt timestamp.toInt_lt⟩

theorem fitsWord_iff
    {field : List Char} :
    WholeLiteral.FitsWord field ↔
      ∃ timestamp, readTimestamp field = .ok timestamp := by
  simp only [readTimestamp_eq_ok_iff]
  constructor
  · rintro ⟨value, denotes, low, high⟩
    refine ⟨Int64.ofInt value, ?_⟩
    rwa [Int64.toInt_ofInt_of_le low (Int.lt_of_le_sub_one high)]
  · rintro ⟨timestamp, denotes⟩
    exact ⟨timestamp.toInt, denotes, timestamp.le_toInt,
      Int.le_sub_one_of_lt timestamp.toInt_lt⟩

theorem readTimestamp_eq_error_iff
    {field : List Char}
    {defect : PositionDefect} :
    readTimestamp field = .error defect ↔
      ∃ reason,
        WholeLiteral.read (Word.size 63) (Word.greatest 63) field =
            .error reason ∧
          ¬ WholeLiteral.FitsWord field ∧
          defect = .field .timestamp field reason := by
  rw [fitsWord_iff]
  unfold readTimestamp
  cases WholeLiteral.read (Word.size 63) (Word.greatest 63) field <;>
    simp [inField, Except.map, eq_comm]

theorem readDegrees_eq_ok_iff
    {coordinate : Coordinate}
    {field : List Char}
    {x : Float} :
    readDegrees coordinate field = .ok x ↔
      ∃ meaning, FloatLiteral.Denotes field meaning ∧
        meaning.IsRoundedTo x := by
  rw [readDegrees, inField_eq_ok_iff, FloatLiteral.read_eq_ok_iff]

theorem isLiteral_iff_readDegrees
    (coordinate : Coordinate)
    {field : List Char} :
    FloatLiteral.IsLiteral field ↔
      ∃ x, readDegrees coordinate field = .ok x := by
  simp only [FloatLiteral.isLiteral_iff, readDegrees, inField_eq_ok_iff]

/-- A text with three fields is read by its fields. -/
theorem read_of_hasFields
    {text : String}
    {longitude latitude timestamp : List Char}
    (hasFields : HasFields text.toList longitude latitude timestamp) :
    read text = ofFields longitude latitude timestamp := by
  rw [read, hasFields_iff.mp hasFields]

theorem read_of_count
    {text : String}
    (count : text.toList.count ',' ≠ 2) :
    read text = .error (.fieldCount text) := by
  unfold read
  split
  · next longitude latitude timestamp fields =>
      exact absurd
        (exists_hasFields_iff.mp ⟨_, _, _, hasFields_iff.mpr fields⟩) count
  · rfl

theorem read_eq_ok_iff
    {text : String}
    {position : Position} :
    read text = .ok position ↔ Denotes text position := by
  constructor
  · intro reads
    have count : text.toList.count ',' = 2 := by
      by_contra wrong
      rw [read_of_count wrong] at reads
      cases reads
    obtain ⟨_, _, _, hasFields⟩ := exists_hasFields_iff.mpr count
    rw [read_of_hasFields hasFields, ofFields] at reads
    obtain ⟨longitude, readsLongitude, reads⟩ := Result.bind_eq_ok_iff.mp reads
    obtain ⟨latitude, readsLatitude, reads⟩ := Result.bind_eq_ok_iff.mp reads
    obtain ⟨timestamp, readsTimestamp, reads⟩ := Result.bind_eq_ok_iff.mp reads
    cases reads
    obtain ⟨_, isLongitude, longitudeRounded⟩ :=
      readDegrees_eq_ok_iff.mp readsLongitude
    obtain ⟨_, isLatitude, latitudeRounded⟩ :=
      readDegrees_eq_ok_iff.mp readsLatitude
    exact .fields hasFields isLongitude longitudeRounded isLatitude
      latitudeRounded (readTimestamp_eq_ok_iff.mp readsTimestamp)
  · intro denotes
    cases denotes with
    | fields hasFields isLongitude longitudeRounded isLatitude latitudeRounded
        isTimestamp =>
        rw [read_of_hasFields hasFields, ofFields,
          readDegrees_eq_ok_iff.mpr ⟨_, isLongitude, longitudeRounded⟩,
          readDegrees_eq_ok_iff.mpr ⟨_, isLatitude, latitudeRounded⟩,
          readTimestamp_eq_ok_iff.mpr isTimestamp]
        rfl

theorem exists_read_iff
    {text : String} :
    (∃ position, read text = .ok position) ↔ IsPosition text := by
  simp only [read_eq_ok_iff]
  constructor
  · rintro ⟨position, denotes⟩
    cases denotes with
    | fields hasFields isLongitude _ isLatitude _ isTimestamp =>
        exact .fields hasFields ⟨_, isLongitude⟩ ⟨_, isLatitude⟩
          ⟨_, isTimestamp, position.timestamp.le_toInt,
            Int.le_sub_one_of_lt position.timestamp.toInt_lt⟩
  · intro isPosition
    cases isPosition with
    | fields hasFields isLongitude isLatitude isTimestamp =>
        obtain ⟨east, isLongitude⟩ := isLongitude
        obtain ⟨north, isLatitude⟩ := isLatitude
        obtain ⟨longitude, longitudeRounded⟩ := isLongitude.exists_isRoundedTo
        obtain ⟨latitude, latitudeRounded⟩ := isLatitude.exists_isRoundedTo
        obtain ⟨timestamp, reads⟩ := fitsWord_iff.mp isTimestamp
        exact ⟨⟨longitude, latitude, timestamp⟩,
          .fields hasFields isLongitude longitudeRounded isLatitude
            latitudeRounded (readTimestamp_eq_ok_iff.mp reads)⟩

theorem readDegrees_eq_error_iff
    {coordinate : Coordinate}
    {field : List Char}
    {defect : PositionDefect} :
    readDegrees coordinate field = .error defect ↔
      ∃ reason, FloatLiteral.read field = .error reason ∧
        ¬ FloatLiteral.IsLiteral field ∧
        defect = .field coordinate field reason := by
  rw [readDegrees, inField_eq_error_iff, FloatLiteral.isLiteral_iff]
  cases FloatLiteral.read field <;> simp

theorem read_eq_error_iff
    {text : String}
    {defect : PositionDefect} :
    read text = .error defect ↔ Lacks text defect := by
  constructor
  · intro fails
    by_cases count : text.toList.count ',' = 2
    · obtain ⟨longitude, latitude, timestamp, hasFields⟩ :=
        exists_hasFields_iff.mpr count
      rw [read_of_hasFields hasFields, ofFields] at fails
      rcases Result.bind_eq_error_iff.mp fails with
        broken | ⟨east, readsLongitude, fails⟩
      · obtain ⟨reason, reported, malformed, rfl⟩ :=
          readDegrees_eq_error_iff.mp broken
        exact .longitude hasFields malformed reported
      have isLongitude :=
        (isLiteral_iff_readDegrees .longitude).mpr ⟨east, readsLongitude⟩
      rcases Result.bind_eq_error_iff.mp fails with
        broken | ⟨north, readsLatitude, fails⟩
      · obtain ⟨reason, reported, malformed, rfl⟩ :=
          readDegrees_eq_error_iff.mp broken
        exact .latitude hasFields isLongitude malformed reported
      have isLatitude :=
        (isLiteral_iff_readDegrees .latitude).mpr ⟨north, readsLatitude⟩
      rcases Result.bind_eq_error_iff.mp fails with broken | ⟨_, _, fails⟩
      · obtain ⟨reason, reported, malformed, rfl⟩ :=
          readTimestamp_eq_error_iff.mp broken
        exact .timestamp hasFields isLongitude isLatitude malformed reported
      · cases fails
    · rw [read_of_count count] at fails
      cases fails
      exact .fieldCount count
  · intro lacks
    cases lacks with
    | fieldCount count =>
        exact read_of_count count
    | longitude hasFields malformed reported =>
        rw [read_of_hasFields hasFields, ofFields, readDegrees, reported]
        rfl
    | latitude hasFields isLongitude malformed reported =>
        obtain ⟨x, reads⟩ := (isLiteral_iff_readDegrees .longitude).mp isLongitude
        rw [read_of_hasFields hasFields, ofFields, reads, readDegrees, reported]
        rfl
    | timestamp hasFields isLongitude isLatitude malformed reported =>
        obtain ⟨x, reads⟩ := (isLiteral_iff_readDegrees .longitude).mp isLongitude
        obtain ⟨y, readsLatitude⟩ :=
          (isLiteral_iff_readDegrees .latitude).mp isLatitude
        rw [read_of_hasFields hasFields, ofFields, reads, readsLatitude,
          readTimestamp, reported]
        rfl

/-- A text is read as a position exactly if its fields denote this position, and
it is read at all exactly if it has three well-formed fields.  Every other text
is refused for what it lacks.  Texts with the same three fields are read alike,
whatever blanks are around them. -/
theorem every_text_is_read_by_its_fields
    (text : String) :
    (∀ position, read text = .ok position ↔ Denotes text position) ∧
      ((∃ position, read text = .ok position) ↔ IsPosition text) ∧
      (∀ defect, read text = .error defect ↔ Lacks text defect) ∧
      ∀ (other : String) (longitude latitude timestamp : List Char),
        HasFields text.toList longitude latitude timestamp →
        HasFields other.toList longitude latitude timestamp →
        read other = read text := by
  refine ⟨fun _ => read_eq_ok_iff, exists_read_iff,
    fun _ => read_eq_error_iff, ?_⟩
  intro other longitude latitude timestamp hasFields otherHasFields
  rw [read_of_hasFields hasFields, read_of_hasFields otherHasFields]

/-- Blanks and signs do no harm. -/
theorem awkwardText_is_read :
    Denotes " +1e2,\t-.5 ,-007\n" ⟨100.0, -0.5, -7⟩ :=
  ((every_text_is_read_by_its_fields _).1 _).mp (by decide +kernel)

/-- Texts with the same two fields are refused in different words. -/
theorem blank_is_quoted :
    (Text.splitAt ',' " 1,2".toList).map Text.trim =
        (Text.splitAt ',' "1,2".toList).map Text.trim ∧
      read " 1,2" ≠ read "1,2" := by
  decide +kernel

end Position

end PositionFeed
