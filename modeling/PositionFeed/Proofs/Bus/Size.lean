import PositionFeed.Channel.Outlet
import PositionFeed.Proofs.Bus.Damage
import PositionFeed.Proofs.Bus.Record

namespace PositionFeed

/-!
# The size of published records

The text of a position has only digits, signs, points, commas and the letters
of the special values.  JSON writes such characters as they are and UTF-8 gives
each of them one byte, so in either format a published record is as long as its
text and its number, and a constant.  That is far less than the usual limit of a
bus channel and than what an intake receives whole.
-/

/-- A character of ASCII that JSON does not escape. -/
def Text.isPlainChar (c : Char) : Bool :=
  0x20 ≤ c.toNat && c.toNat < 0x80 && c != '"' && c != '\\'

/-- A text of such characters. -/
def Text.IsPlain (text : List Char) : Prop :=
  ∀ c ∈ text, isPlainChar c = true

instance (text : List Char) : Decidable (Text.IsPlain text) :=
  decidable_of_iff (text.all Text.isPlainChar = true) List.all_eq_true

/-- JSON escapes nothing but control characters, quotes and backslashes. -/
theorem Json.escaped_of_isPlainChar
    {c : Char}
    (plain : Text.isPlainChar c = true) :
    escaped c = [c] := by
  simp only [Text.isPlainChar, Bool.and_eq_true, decide_eq_true_eq, bne_iff_ne]
    at plain
  obtain ⟨⟨⟨visible, _⟩, noQuote⟩, noBackslash⟩ := plain
  unfold escaped
  split
  · exact absurd rfl noQuote
  · exact absurd rfl noBackslash
  · exact absurd visible (by decide)
  · exact absurd visible (by decide)
  · exact absurd visible (by decide)
  · exact absurd visible (by decide)
  · exact absurd visible (by decide)
  · exact if_neg (Nat.not_lt.mpr visible)

namespace Text.IsPlain

variable
  {first second text : List Char}

theorem cons
    {c : Char}
    (plain : isPlainChar c = true)
    (rest : IsPlain text) :
    IsPlain (c :: text) :=
  List.forall_mem_cons.mpr ⟨plain, rest⟩

theorem append
    (left : IsPlain first)
    (right : IsPlain second) :
    IsPlain (first ++ second) :=
  List.forall_mem_append.mpr ⟨left, right⟩

theorem of_digits
    (all : AllDigits text) :
    IsPlain text := by
  intro c member
  have range : 0x30 ≤ c.toNat ∧ c.toNat ≤ 0x39 := by
    simpa [Char.isDigit, UInt32.le_iff_toNat_le] using all c member
  have noQuote : c ≠ '"' := by
    rintro rfl
    exact absurd range (by decide)
  have noBackslash : c ≠ '\\' := by
    rintro rfl
    exact absurd range (by decide)
  have visible : 0x20 ≤ c.toNat ∧ c.toNat < 0x80 := by
    omega
  simp [isPlainChar, visible, noQuote, noBackslash]

theorem signed
    (plain : IsPlain text)
    (negative : Bool) :
    IsPlain (NumberStyle.signed negative text) := by
  cases negative with
  | true =>
      exact cons (by decide) plain
  | false =>
      exact plain

/-- JSON writes a plain text as it is. -/
theorem flatMap_escaped
    (plain : IsPlain text) :
    text.flatMap Json.escaped = text := by
  induction text with
  | nil =>
      rfl
  | cons c text inductionHypothesis =>
      obtain ⟨isPlain, rest⟩ := List.forall_mem_cons.mp plain
      rw [List.flatMap_cons, Json.escaped_of_isPlainChar isPlain,
        inductionHypothesis rest]
      rfl

/-- UTF-8 writes a plain text in one byte for each character. -/
theorem length_encode
    (plain : IsPlain text) :
    (Utf8.encode text).length = text.length := by
  induction text with
  | nil =>
      rfl
  | cons c text inductionHypothesis =>
      obtain ⟨isPlain, rest⟩ := List.forall_mem_cons.mp plain
      have ascii : c.toNat < 0x80 := by
        simp only [isPlainChar, Bool.and_eq_true, decide_eq_true_eq] at isPlain
        exact isPlain.1.1.2
      rw [Utf8.encode_cons, Utf8.encodeChar_of_ascii ascii,
        List.length_append, List.length_singleton, List.length_cons,
        inductionHypothesis rest, Nat.add_comm]

end Text.IsPlain

/-! ## The text of a position -/

theorem Rounded.isPlain_fixed
    {places : Nat}
    (positive : 0 < places)
    (x : Float) :
    Text.IsPlain (fixed places x) := by
  unfold fixed
  cases Binary64.decode x with
  | nan =>
      exact (by decide : Text.IsPlain "NaN".toList)
  | infinite negative =>
      exact Text.IsPlain.signed (by decide) negative
  | finite negative significand exponent =>
      obtain ⟨whole, fraction, shape, wholeDigits, fractionDigits, _⟩ :=
        fixedMagnitude_shape positive (unitsOf places significand exponent)
      simp only [unitsOf] at shape
      simp only [shape]
      refine Text.IsPlain.signed ?_ negative
      exact (Text.IsPlain.of_digits wholeDigits).append
        (.cons (by decide) (.of_digits fractionDigits))

theorem Position.isPlain_chars
    (position : Position) :
    Text.IsPlain position.chars := by
  have comma : Text.isPlainChar ',' = true := by
    decide
  have timestamp : Text.IsPlain (wholeText position.timestamp.toInt) :=
    (Text.IsPlain.of_digits (.digitText _)).signed _
  exact (((Rounded.isPlain_fixed places_positive _).append
    (.cons comma (Rounded.isPlain_fixed places_positive _)))).append
      (.cons comma timestamp)

/-! ## The bytes of a record -/

namespace Json

theorem length_encode_quotedText
    {text : String}
    (plain : Text.IsPlain text.toList) :
    (Utf8.encode (quotedText text)).length = text.toList.length + 2 := by
  rw [quotedText, plain.flatMap_escaped, List.cons_append, Utf8.encode_cons,
    Utf8.encode_append]
  simp only [List.length_append, plain.length_encode]
  change 1 + (text.toList.length + 1) = _
  omega

theorem length_encode_digitText
    (number : Nat) :
    (Utf8.encode (Tree.integer number).compact).length =
      (Decimal.digitText number).length := by
  have digits : (Tree.integer number).compact = Decimal.digitText number := by
    simp [Tree.compact, integerText, NumberStyle.signed]
  rw [digits]
  exact (Text.IsPlain.of_digits (.digitText number)).length_encode

/-- An entry has its key between quotes, a colon and a value, and all but the
first have a comma. -/
theorem length_compactEntries_cons
    (first : Bool)
    {key : String}
    (plain : Text.IsPlain key.toList)
    (tree : Tree)
    (rest : List (String × Tree)) :
    (Utf8.encode (compactEntries first ((key, tree) :: rest))).length =
      (if first then 0 else 1) + key.toList.length + 3 +
        (Utf8.encode tree.compact).length +
        (Utf8.encode (compactEntries false rest)).length := by
  have shape := encode_compactEntries_cons first key tree rest []
  have keyBytes := plain.length_encode
  rw [List.append_nil] at shape
  rw [shape, entryBytes, plain.flatMap_escaped]
  cases first <;> simp [keyBytes] <;> omega

end Json

namespace Record

/-- A record whose texts JSON writes as they are has one byte for each of their
characters and each digit of its numbers, and a constant. -/
theorem length_encode_json
    {record : Record}
    (sender : Text.IsPlain record.sender.toList)
    (subject : Text.IsPlain record.subject.toList)
    (text : Text.IsPlain record.text.toList) :
    (record.encode .json).length =
      record.sender.toList.length + record.subject.toList.length +
        (Decimal.digitText record.subjectNumber.toNat).length +
        record.text.toList.length +
        (Decimal.digitText record.count.toNat).length + 57 := by
  have entries :
      (Utf8.encode (Json.compactEntries true record.trees)).length =
        record.sender.toList.length + record.subject.toList.length +
          (Decimal.digitText record.subjectNumber.toNat).length +
          record.text.toList.length +
          (Decimal.digitText record.count.toNat).length + 55 := by
    rw [trees, Json.length_compactEntries_cons true (by decide),
      Json.length_compactEntries_cons false (by decide),
      Json.length_compactEntries_cons false (by decide),
      Json.length_compactEntries_cons false (by decide),
      Json.length_compactEntries_cons false (by decide)]
    simp only [Json.length_encode_digitText]
    simp only [Json.Tree.compact, Json.length_encode_quotedText sender,
      Json.length_encode_quotedText subject,
      Json.length_encode_quotedText text]
    simp [Json.compactEntries, Utf8.encode]
    omega
  have braces := Json.encode_object record.trees []
  rw [List.append_nil] at braces
  rw [encode, tree_eq, braces]
  simp only [List.length_cons, List.length_append, List.length_nil, entries]

/-- The size of the largest record that is published. -/
def longestPublished : Nat := 772

theorem isPlain_text
    (sample : Sample) :
    Text.IsPlain (ofSample sample).text.toList := by
  have text : (ofSample sample).text.toList = sample.position.chars :=
    String.toList_ofList
  rw [text]
  exact sample.position.isPlain_chars

theorem length_ofSample_le
    (format : WireFormat)
    (sample : Sample) :
    ((ofSample sample).encode format).length ≤ longestPublished := by
  have sender : (ofSample sample).sender.toList.length = 19 :=
    (by decide : publisher.toList.length = 19)
  have subject : (ofSample sample).subject.toList.length = 15 :=
    (by decide : coordinates.toList.length = 15)
  have subjectNumber :
      (Decimal.digitText (ofSample sample).subjectNumber.toNat).length = 1 :=
    (by decide : (Decimal.digitText (1 : UInt32).toNat).length = 1)
  have text : (ofSample sample).text.toList.length ≤ 660 := by
    have written : (ofSample sample).text.toList = sample.position.chars :=
      String.toList_ofList
    rw [written]
    exact sample.position.length_chars_le
  have count :
      (Decimal.digitText (ofSample sample).count.toNat).length ≤ 20 :=
    length_digitText_le (by decide)
      ((ofSample sample).count.toNat_lt.trans (by decide))
  have plainSender : Text.IsPlain (ofSample sample).sender.toList :=
    (by decide : Text.IsPlain publisher.toList)
  have plainSubject : Text.IsPlain (ofSample sample).subject.toList :=
    (by decide : Text.IsPlain coordinates.toList)
  have plainText := isPlain_text sample
  unfold longestPublished
  cases format with
  | json =>
      rw [length_encode_json plainSender plainSubject plainText]
      omega
  | bincode =>
      rw [encode, Bincode.length_encode, plainSender.length_encode,
        plainSubject.length_encode, plainText.length_encode]
      omega

end Record

/-! ## The limit of a bus channel -/

/-- Parameters that name no limit leave the usual one. -/
theorem BusTarget.largestRecord_of_unset
    {parameters : Parameters}
    {target : BusTarget}
    (isTarget : ofParameters parameters = .ok target)
    (unset : parameters.get? "max_packet_size" = none) :
    target.largestRecord = usualLargestRecord := by
  have usual : largestRecordOf parameters = usualLargestRecord := by
    rw [largestRecordOf, unset]
  unfold ofParameters at isTarget
  split at isTarget
  · split at isTarget
    · obtain ⟨format, _, made⟩ := Result.bind_eq_ok_iff.mp isTarget
      cases made
      exact usual
    · cases isTarget
  · cases isTarget

namespace BusOutlet

/-- What the limit of a bus channel means for a sample. -/
structure KeepsLimit (outlet : BusOutlet) (sample : Sample) : Prop where
  /-- The records above the limit are refused, and no others. -/
  refuses :
    (∃ fault, (outlet.payload sample).1 = .error fault) ↔
      outlet.target.largestRecord < (outlet.recordBytes sample).length
  /-- What is not refused is passed on as it is and without a notice. -/
  passes :
    (outlet.recordBytes sample).length ≤ outlet.target.largestRecord →
      outlet.payload sample = (.ok (outlet.recordBytes sample), [])
  /-- An open channel whose datagrams get out fails for no other reason. -/
  sends :
    ∀ network : Network,
      outlet.isOpen = true → network.send outlet.target.address = none →
        ((∃ fault, (outlet.send network sample).1 = .error fault) ↔
          outlet.target.largestRecord < (outlet.recordBytes sample).length)

variable
  {outlet : BusOutlet}
  {sample : Sample}

theorem payload_of_small
    (small :
      (outlet.recordBytes sample).length ≤ outlet.target.largestRecord) :
    outlet.payload sample = (.ok (outlet.recordBytes sample), []) :=
  if_neg (Nat.not_lt.mpr small)

theorem payload_of_large
    (large :
      outlet.target.largestRecord < (outlet.recordBytes sample).length) :
    ∃ fault events, outlet.payload sample = (.error fault, events) :=
  ⟨_, _, if_pos large⟩

theorem keepsLimit
    (outlet : BusOutlet)
    (sample : Sample) :
    outlet.KeepsLimit sample := by
  by_cases large :
      outlet.target.largestRecord < (outlet.recordBytes sample).length
  · obtain ⟨fault, events, refused⟩ := payload_of_large large
    exact {
      refuses := ⟨fun _ => large, fun _ => ⟨fault, by rw [refused]⟩⟩
      passes := fun small => absurd large (Nat.not_lt.mpr small)
      sends := by
        intro network _ _
        refine ⟨fun _ => large, fun _ => ⟨fault, ?_⟩⟩
        rw [send, refused]
    }
  · have passed := payload_of_small (Nat.not_lt.mp large)
    exact {
      refuses := by
        rw [passed]
        simp [large]
      passes := payload_of_small
      sends := by
        intro network isOpen getsOut
        rw [send, passed]
        simp [isOpen, getsOut, large]
    }

end BusOutlet

namespace Record

/-- What is promised about the size of the record of a sample. -/
structure FitsEverywhere (sample : Sample) (format : WireFormat) : Prop where
  short :
    ((ofSample sample).encode format).length ≤ 772
  /-- JSON writes the text as it is. -/
  unescaped :
    ∀ c ∈ (ofSample sample).text.toList, Json.escaped c = [c]
  /-- An intake receives the datagram whole. -/
  uncut :
    ((ofSample sample).encode format).take Intake.bufferSize =
      (ofSample sample).encode format
  /-- The usual limit never stands in the way. -/
  usual :
    ∀ outlet : BusOutlet,
      outlet.target.format = format →
        outlet.target.largestRecord = BusTarget.usualLargestRecord →
          outlet.payload sample = (.ok ((ofSample sample).encode format), [])
  /-- It is the limit unless parameters name another one. -/
  unset :
    ∀ parameters target,
      BusTarget.ofParameters parameters = .ok target →
        parameters.get? "max_packet_size" = none →
          target.largestRecord = BusTarget.usualLargestRecord
  /-- Any other limit stops the records above it. -/
  limited :
    ∀ outlet : BusOutlet,
      outlet.target.format = format →
        outlet.recordBytes sample = (ofSample sample).encode format ∧
          outlet.KeepsLimit sample

/-- The record of every sample is small and plain, whatever its longitude,
latitude, moment and number and in either format. -/
theorem every_published_record_fits
    (sample : Sample)
    (format : WireFormat) :
    FitsEverywhere sample format where
  short := length_ofSample_le format sample
  unescaped := by
    intro c member
    exact Json.escaped_of_isPlainChar (isPlain_text sample c member)
  uncut := by
    have short := length_ofSample_le format sample
    have room : longestPublished ≤ Intake.bufferSize := by
      decide
    exact List.take_of_length_le (short.trans room)
  usual := by
    rintro outlet rfl usual
    have short := length_ofSample_le outlet.target.format sample
    have room : longestPublished ≤ outlet.target.largestRecord := by
      rw [usual]
      decide
    exact BusOutlet.payload_of_small (short.trans room)
  unset := fun _ _ => BusTarget.largestRecord_of_unset
  limited := by
    rintro outlet rfl
    exact ⟨rfl, outlet.keepsLimit sample⟩

end Record

end PositionFeed
