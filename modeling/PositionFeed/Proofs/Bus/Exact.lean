import PositionFeed.Proofs.Bus.Binary
import PositionFeed.Proofs.Result

namespace PositionFeed

/-!
# The binary format reads nothing but records

Each field that is read is the encoding of what it is read as, so a record is
read exactly where its encoding comes first.  The other way round, a datagram
without a record is one in which some field is broken behind fields that are
whole: its number or its text is cut short, its length is beyond the bytes that
are left, or its text is not UTF-8.
-/

namespace Bincode

/-! ## Fields -/

/-- A number is read exactly where its bytes come first. -/
theorem decodeNumber_eq_ok_iff
    {width : Nat}
    {input : List UInt8}
    {value : Nat}
    {rest : List UInt8} :
    decodeNumber width input = .ok (value, rest) ↔
      value < 256 ^ width ∧ input = encodeNumber width value ++ rest := by
  constructor
  · intro reads
    induction width generalizing input value with
    | zero =>
        cases reads
        exact ⟨by decide, rfl⟩
    | succ width inductionHypothesis =>
        cases input with
        | nil =>
            cases reads
        | cons byte input =>
            rw [decodeNumber] at reads
            obtain ⟨⟨high, left⟩, readsHigh, shape⟩ :=
              Result.bind_eq_ok_iff.mp reads
            cases shape
            obtain ⟨fits, rfl⟩ := inductionHypothesis readsHigh
            have small : byte.toNat < 256 := byte.toNat_lt
            have lowest : UInt8.ofNat (byte.toNat + 256 * high) = byte := by
              rw [← UInt8.toNat_inj, UInt8.toNat_ofNat']
              omega
            have higher : (byte.toNat + 256 * high) / 256 = high := by
              omega
            constructor
            · rw [Nat.pow_succ]
              omega
            · rw [encodeNumber, lowest, higher]
              rfl
  · rintro ⟨fits, rfl⟩
    exact decodeNumber_of_lt fits rest

/-- A number is missing exactly where there are too few bytes. -/
theorem decodeNumber_eq_error_iff
    {width : Nat}
    {input : List UInt8}
    {defect : BinaryDefect} :
    decodeNumber width input = .error defect ↔
      input.length < width ∧ defect = .cutNumber := by
  induction width generalizing input with
  | zero =>
      simp [decodeNumber]
  | succ width inductionHypothesis =>
      cases input with
      | nil =>
          simp [decodeNumber, eq_comm]
      | cons byte input =>
          rw [decodeNumber, List.length_cons, Nat.add_lt_add_iff_right,
            ← inductionHypothesis]
          cases decodeNumber width input <;> simp [bind, Except.bind]

/-- A length that fits is read back. -/
theorem decodeNumber_length
    {length : Nat}
    (fits : length < Word.size 64)
    (rest : List UInt8) :
    decodeNumber 8 (encodeNumber 8 length ++ rest) = .ok (length, rest) :=
  decodeNumber_of_lt fits rest

/-- A text is read exactly where its length and its bytes come first. -/
theorem decodeText_eq_ok_iff
    {input : List UInt8}
    {text : String}
    {rest : List UInt8} :
    decodeText input = .ok (text, rest) ↔
      (Utf8.encode text.toList).length < Word.size 64 ∧
        input = encodeText text ++ rest := by
  constructor
  · intro reads
    unfold decodeText at reads
    obtain ⟨⟨length, left⟩, readsLength, readsText⟩ :=
      Result.bind_eq_ok_iff.mp reads
    obtain ⟨fits, rfl⟩ := decodeNumber_eq_ok_iff.mp readsLength
    clear reads
    dsimp only at readsText
    split at readsText
    · cases readsText
    · next enough =>
        split at readsText
        · next chars decoded =>
            cases readsText
            have content := Utf8.decode_eq_ok_iff.mp decoded
            have counted : (Utf8.encode chars).length = length := by
              rw [← content, List.length_take]
              omega
            rw [String.toList_ofList, encodeText, String.toList_ofList, counted,
              ← content, List.append_assoc, List.take_append_drop]
            exact ⟨fits, rfl⟩
        · cases readsText
  · rintro ⟨fits, rfl⟩
    exact decodeText_encodeText fits rest

/-- Why there is no text at the beginning of the bytes. -/
inductive NoText : List UInt8 → BinaryDefect → Prop where
  /-- The length itself is cut short. -/
  | cutLength
      {input : List UInt8}
      (short : input.length < 8) :
      NoText input .cutNumber
  /-- There are fewer bytes than the length says. -/
  | cutText
      {length : Nat}
      {rest : List UInt8}
      (fits : length < Word.size 64)
      (short : rest.length < length) :
      NoText (encodeNumber 8 length ++ rest) .cutText
  /-- There are as many bytes, and they are not UTF-8. -/
  | badText
      {content rest : List UInt8}
      {defect : Utf8.Defect}
      (fits : content.length < Word.size 64)
      (foreign : ∀ chars, content ≠ Utf8.encode chars)
      (blamed : Utf8.decode content = .error defect) :
      NoText (encodeNumber 8 content.length ++ (content ++ rest))
        (.badText defect)

theorem decodeText_eq_error_iff
    {input : List UInt8}
    {defect : BinaryDefect} :
    decodeText input = .error defect ↔ NoText input defect := by
  constructor
  · intro fails
    unfold decodeText at fails
    cases readsLength : decodeNumber 8 input with
    | error reason =>
        rw [readsLength] at fails
        cases fails
        obtain ⟨short, rfl⟩ := decodeNumber_eq_error_iff.mp readsLength
        exact .cutLength short
    | ok read =>
        obtain ⟨length, left⟩ := read
        rw [readsLength] at fails
        obtain ⟨fits, rfl⟩ := decodeNumber_eq_ok_iff.mp readsLength
        dsimp only [bind, Except.bind] at fails
        split at fails
        · next short =>
            cases fails
            exact .cutText fits short
        · next enough =>
            split at fails
            · cases fails
            · next reason blamed =>
                cases fails
                have counted : (left.take length).length = length := by
                  rw [List.length_take]
                  omega
                have foreign : ∀ chars, left.take length ≠ Utf8.encode chars := by
                  intro chars encodes
                  rw [Utf8.decode_eq_ok_iff.mpr encodes] at blamed
                  cases blamed
                rw [← counted] at fits
                have bad : NoText
                    (encodeNumber 8 (left.take length).length ++
                      (left.take length ++ left.drop length))
                    (.badText reason) :=
                  .badText fits foreign blamed
                rwa [counted, List.take_append_drop] at bad
  · intro missing
    cases missing with
    | cutLength short =>
        simp only [decodeText, decodeNumber_eq_error_iff.mpr ⟨short, rfl⟩]
        rfl
    | cutText fits short =>
        simp only [decodeText, decodeNumber_length fits, bind, Except.bind,
          if_pos short]
    | badText fits foreign blamed =>
        simp only [decodeText, decodeNumber_length fits, bind, Except.bind]
        simp [blamed]

/-! ## Records -/

/-- A record is read exactly where its bytes come first. -/
theorem decode_eq_ok_iff
    {input : List UInt8}
    {record : Record} :
    decode input = .ok record ↔
      record.LengthsFit ∧ encode record <+: input := by
  constructor
  · intro reads
    unfold decode at reads
    obtain ⟨⟨sender, afterSender⟩, readsSender, readsRest⟩ :=
      Result.bind_eq_ok_iff.mp reads
    obtain ⟨⟨subject, afterSubject⟩, readsSubject, readsRest⟩ :=
      Result.bind_eq_ok_iff.mp readsRest
    obtain ⟨⟨subjectNumber, afterNumber⟩, readsNumber, readsRest⟩ :=
      Result.bind_eq_ok_iff.mp readsRest
    obtain ⟨⟨text, afterText⟩, readsText, readsRest⟩ :=
      Result.bind_eq_ok_iff.mp readsRest
    obtain ⟨⟨count, afterCount⟩, readsCount, shape⟩ :=
      Result.bind_eq_ok_iff.mp readsRest
    clear reads
    cases shape
    obtain ⟨senderFits, rfl⟩ := decodeText_eq_ok_iff.mp readsSender
    obtain ⟨subjectFits, rfl⟩ := decodeText_eq_ok_iff.mp readsSubject
    obtain ⟨numberFits, rfl⟩ := decodeNumber_eq_ok_iff.mp readsNumber
    obtain ⟨textFits, rfl⟩ := decodeText_eq_ok_iff.mp readsText
    obtain ⟨countFits, rfl⟩ := decodeNumber_eq_ok_iff.mp readsCount
    have number : (UInt32.ofNat subjectNumber).toNat = subjectNumber :=
      UInt32.toNat_ofNat_of_lt' numberFits
    have counted : (UInt64.ofNat count).toNat = count :=
      UInt64.toNat_ofNat_of_lt' countFits
    refine ⟨⟨senderFits, subjectFits, textFits⟩, afterCount, ?_⟩
    simp only [encode, number, counted, List.append_assoc]
  · rintro ⟨fit, rest, rfl⟩
    exact decode_encode_append fit rest

/-- Why there is no record at the beginning of the bytes: one of its fields is
broken behind fields that are whole. -/
inductive NoRecord : List UInt8 → BinaryDefect → Prop where
  | sender
      {input : List UInt8}
      {defect : BinaryDefect}
      (broken : NoText input defect) :
      NoRecord input defect
  | subject
      {sender : String}
      {input : List UInt8}
      {defect : BinaryDefect}
      (senderFits : (Utf8.encode sender.toList).length < Word.size 64)
      (broken : NoText input defect) :
      NoRecord (encodeText sender ++ input) defect
  | subjectNumber
      {sender subject : String}
      {input : List UInt8}
      (senderFits : (Utf8.encode sender.toList).length < Word.size 64)
      (subjectFits : (Utf8.encode subject.toList).length < Word.size 64)
      (short : input.length < 4) :
      NoRecord (encodeText sender ++ (encodeText subject ++ input)) .cutNumber
  | text
      {sender subject : String}
      {subjectNumber : UInt32}
      {input : List UInt8}
      {defect : BinaryDefect}
      (senderFits : (Utf8.encode sender.toList).length < Word.size 64)
      (subjectFits : (Utf8.encode subject.toList).length < Word.size 64)
      (broken : NoText input defect) :
      NoRecord
        (encodeText sender ++ (encodeText subject ++
          (encodeNumber 4 subjectNumber.toNat ++ input)))
        defect
  | count
      {sender subject text : String}
      {subjectNumber : UInt32}
      {input : List UInt8}
      (senderFits : (Utf8.encode sender.toList).length < Word.size 64)
      (subjectFits : (Utf8.encode subject.toList).length < Word.size 64)
      (textFits : (Utf8.encode text.toList).length < Word.size 64)
      (short : input.length < 8) :
      NoRecord
        (encodeText sender ++ (encodeText subject ++
          (encodeNumber 4 subjectNumber.toNat ++ (encodeText text ++ input))))
        .cutNumber

theorem decode_eq_error_iff
    {input : List UInt8}
    {defect : BinaryDefect} :
    decode input = .error defect ↔ NoRecord input defect := by
  constructor
  · intro fails
    unfold decode at fails
    rcases Result.bind_eq_error_iff.mp fails with
      broken | ⟨⟨sender, afterSender⟩, readsSender, behindSender⟩
    · exact .sender (decodeText_eq_error_iff.mp broken)
    obtain ⟨senderFits, rfl⟩ := decodeText_eq_ok_iff.mp readsSender
    rcases Result.bind_eq_error_iff.mp behindSender with
      broken | ⟨⟨subject, afterSubject⟩, readsSubject, behindSubject⟩
    · exact .subject senderFits (decodeText_eq_error_iff.mp broken)
    obtain ⟨subjectFits, rfl⟩ := decodeText_eq_ok_iff.mp readsSubject
    rcases Result.bind_eq_error_iff.mp behindSubject with
      broken | ⟨⟨subjectNumber, afterNumber⟩, readsNumber, behindNumber⟩
    · obtain ⟨short, rfl⟩ := decodeNumber_eq_error_iff.mp broken
      exact .subjectNumber senderFits subjectFits short
    obtain ⟨numberFits, rfl⟩ := decodeNumber_eq_ok_iff.mp readsNumber
    have number : (UInt32.ofNat subjectNumber).toNat = subjectNumber :=
      UInt32.toNat_ofNat_of_lt' numberFits
    rw [← number]
    rcases Result.bind_eq_error_iff.mp behindNumber with
      broken | ⟨⟨text, afterText⟩, readsText, behindText⟩
    · exact .text senderFits subjectFits (decodeText_eq_error_iff.mp broken)
    obtain ⟨textFits, rfl⟩ := decodeText_eq_ok_iff.mp readsText
    rcases Result.bind_eq_error_iff.mp behindText with
      broken | ⟨_, _, behindCount⟩
    · obtain ⟨short, rfl⟩ := decodeNumber_eq_error_iff.mp broken
      exact .count senderFits subjectFits textFits short
    · cases behindCount
  · intro missing
    cases missing with
    | sender broken =>
        simp only [decode, decodeText_eq_error_iff.mpr broken]
        rfl
    | subject senderFits broken =>
        simp only [decode, decodeText_encodeText senderFits,
          decodeText_eq_error_iff.mpr broken, bind, Except.bind]
    | subjectNumber senderFits subjectFits short =>
        simp only [decode, decodeText_encodeText senderFits,
          decodeText_encodeText subjectFits,
          decodeNumber_eq_error_iff.mpr ⟨short, rfl⟩, bind, Except.bind]
    | @text _ _ subjectNumber _ _ senderFits subjectFits broken =>
        have numberFits : subjectNumber.toNat < 256 ^ 4 :=
          subjectNumber.toNat_lt
        simp only [decode, decodeText_encodeText senderFits,
          decodeText_encodeText subjectFits, decodeNumber_of_lt numberFits,
          decodeText_eq_error_iff.mpr broken, bind, Except.bind]
    | @count _ _ _ subjectNumber _ senderFits subjectFits textFits short =>
        have numberFits : subjectNumber.toNat < 256 ^ 4 :=
          subjectNumber.toNat_lt
        simp only [decode, decodeText_encodeText senderFits,
          decodeText_encodeText subjectFits, decodeNumber_of_lt numberFits,
          decodeText_encodeText textFits,
          decodeNumber_eq_error_iff.mpr ⟨short, rfl⟩, bind, Except.bind]

/-- Bytes in which a field is broken begin with no record. -/
theorem NoRecord.not_prefix
    {input : List UInt8}
    {defect : BinaryDefect}
    (missing : NoRecord input defect)
    {record : Record}
    (fit : record.LengthsFit) :
    ¬ encode record <+: input := by
  intro begins
  have reads := decode_eq_ok_iff.mpr ⟨fit, begins⟩
  rw [decode_eq_error_iff.mpr missing] at reads
  cases reads

/-- No bytes begin with two records. -/
theorem eq_of_prefix
    {input : List UInt8}
    {first second : Record}
    (firstFit : first.LengthsFit)
    (secondFit : second.LengthsFit)
    (beginsFirst : encode first <+: input)
    (beginsSecond : encode second <+: input) :
    first = second := by
  have readsFirst := decode_eq_ok_iff.mpr ⟨firstFit, beginsFirst⟩
  have readsSecond := decode_eq_ok_iff.mpr ⟨secondFit, beginsSecond⟩
  exact Except.ok.inj (readsFirst.symm.trans readsSecond)

end Bincode

namespace Record

/-- A binary datagram is read as a record exactly if it begins with the encoding
of this record, and as no other one.  It is refused exactly if one of its fields
is broken behind fields that are whole, and then it begins with no record.  No
record is the beginning of another one. -/
theorem every_binary_datagram_is_exact
    (datagram : List UInt8) :
    (∀ record : Record,
      decode .bincode datagram = .ok record ↔
        record.LengthsFit ∧ encode .bincode record <+: datagram) ∧
      (∀ first second : Record,
        first.LengthsFit → second.LengthsFit →
        encode .bincode first <+: datagram →
        encode .bincode second <+: datagram → first = second) ∧
      (∀ defect : RecordDefect,
        decode .bincode datagram = .error defect ↔
          ∃ reason, Bincode.NoRecord datagram reason ∧
            defect = .bincode reason) ∧
      (∀ reason, Bincode.NoRecord datagram reason →
        ∀ record : Record, record.LengthsFit →
          ¬ encode .bincode record <+: datagram) ∧
      ∀ first second : Record,
        first.LengthsFit → second.LengthsFit →
        encode .bincode first <+: encode .bincode second →
          first = second := by
  refine ⟨?reads, ?once, ?refuses, ?absent, ?prefixFree⟩
  case reads =>
    intro record
    rw [decode, Result.mapError_eq_ok_iff]
    exact Bincode.decode_eq_ok_iff
  case once =>
    intro first second firstFit secondFit
    exact Bincode.eq_of_prefix firstFit secondFit
  case refuses =>
    intro defect
    rw [decode, Result.mapError_eq_error_iff]
    constructor
    · rintro ⟨reason, fails, rfl⟩
      exact ⟨reason, Bincode.decode_eq_error_iff.mp fails, rfl⟩
    · rintro ⟨reason, missing, rfl⟩
      exact ⟨reason, Bincode.decode_eq_error_iff.mpr missing, rfl⟩
  case absent =>
    intro reason missing record fit
    exact missing.not_prefix fit
  case prefixFree =>
    intro first second firstFit secondFit begins
    exact Bincode.eq_of_prefix firstFit secondFit begins
      (List.prefix_refl _)

/-- A record in Greek, and a datagram that ends with one byte too many. -/
theorem greekRecord_is_read :
    let record : Record := ⟨"δ", "", 7, "1,2,3", 0⟩
    record.LengthsFit ∧
      decode .bincode (encode .bincode record ++ [0]) = .ok record := by
  have fit : Record.LengthsFit ⟨"δ", "", 7, "1,2,3", 0⟩ :=
    ⟨by decide +kernel, by decide +kernel, by decide +kernel⟩
  exact ⟨fit, ((every_binary_datagram_is_exact _).1 _).mpr
    ⟨fit, List.prefix_append _ _⟩⟩

end Record

end PositionFeed
