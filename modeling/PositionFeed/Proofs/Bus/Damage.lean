import PositionFeed.Bus.Intake
import PositionFeed.Proofs.Bus.Codec
import PositionFeed.Proofs.Json.Extent

namespace PositionFeed

/-!
# Damaged datagrams

A datagram is spoiled if the end of a record is missing, or if it holds a
record in the other format.  Neither format reads a spoiled datagram, so an
intake counts it as rejected and goes on as if it had not come.

In the binary format every field is found at the same place in a cut record,
so all the missing bytes would have to follow the last one.  In JSON the brace
at the end closes the one at the beginning.  A record in JSON, taken for a
binary one, begins with the length of a text that no datagram can hold, and
the length at the beginning of a binary record contains a zero byte, which
JSON does not have.
-/

/-- Fewer bytes than this are in every datagram. -/
def datagramLimit : Nat := 2 ^ 56

namespace Bincode

/-! ## Binary records that are cut -/

theorem decodeNumber_append
    {width : Nat}
    {input : List UInt8}
    {value : Nat}
    {rest : List UInt8}
    (reads : decodeNumber width input = .ok (value, rest))
    (more : List UInt8) :
    decodeNumber width (input ++ more) = .ok (value, rest ++ more) := by
  induction width generalizing input value with
  | zero =>
      cases reads
      rfl
  | succ width inductionHypothesis =>
      cases input with
      | nil =>
          cases reads
      | cons byte input =>
          rw [decodeNumber] at reads
          obtain ⟨⟨high, left⟩, readsHigh, shape⟩ :=
            Result.bind_eq_ok_iff.mp reads
          cases shape
          rw [List.cons_append, decodeNumber, inductionHypothesis readsHigh]
          rfl

theorem decodeText_append
    {input : List UInt8}
    {text : String}
    {rest : List UInt8}
    (reads : decodeText input = .ok (text, rest))
    (more : List UInt8) :
    decodeText (input ++ more) = .ok (text, rest ++ more) := by
  unfold decodeText at reads ⊢
  obtain ⟨⟨length, left⟩, readsLength, reads⟩ :=
    Result.bind_eq_ok_iff.mp reads
  rw [decodeNumber_append readsLength more]
  dsimp only [bind, Except.bind] at reads ⊢
  split at reads
  · cases reads
  · next long =>
      have within : length ≤ left.length :=
        Nat.le_of_not_lt long
      have longer : ¬ (left ++ more).length < length := by
        rw [List.length_append]
        omega
      rw [if_neg longer, List.take_append_of_le_length within,
        List.drop_append_of_le_length within]
      split at reads
      · next chars decoded =>
          cases reads
          rfl
      · cases reads

/-- What a cut input leaves behind a field is what the whole input leaves,
without the missing bytes. -/
theorem left_of_cut
    {read : List UInt8 → Except BinaryDefect (α × List UInt8)}
    (append :
      ∀ {input found rest}, read input = .ok (found, rest) →
        ∀ more, read (input ++ more) = .ok (found, rest ++ more))
    {cut missing : List UInt8}
    {value found : α}
    {later rest : List UInt8}
    (whole : read (cut ++ missing) = .ok (value, later))
    (reads : read cut = .ok (found, rest)) :
    rest ++ missing = later := by
  have same := (append reads missing).symm.trans whole
  cases same
  rfl

/-- Where a binary record can be read, nothing of it is missing. -/
theorem missing_eq_nil
    {record found : Record}
    (fit : record.LengthsFit)
    {cut missing : List UInt8}
    (shape : cut ++ missing = encode record)
    (reads : decode cut = .ok found) :
    missing = [] := by
  have subjectNumber : record.subjectNumber.toNat < 256 ^ 4 :=
    record.subjectNumber.toNat_lt
  have count : record.count.toNat < 256 ^ 8 :=
    record.count.toNat_lt
  unfold decode at reads
  obtain ⟨⟨_, afterSender⟩, readsSender, reads⟩ :=
    Result.bind_eq_ok_iff.mp reads
  obtain ⟨⟨_, afterSubject⟩, readsSubject, reads⟩ :=
    Result.bind_eq_ok_iff.mp reads
  obtain ⟨⟨_, afterNumber⟩, readsNumber, reads⟩ :=
    Result.bind_eq_ok_iff.mp reads
  obtain ⟨⟨_, afterText⟩, readsText, reads⟩ :=
    Result.bind_eq_ok_iff.mp reads
  obtain ⟨⟨_, afterCount⟩, readsCount, _⟩ :=
    Result.bind_eq_ok_iff.mp reads
  have whole :
      cut ++ missing =
        encodeText record.sender ++ (encodeText record.subject ++
          (encodeNumber 4 record.subjectNumber.toNat ++
            (encodeText record.text ++
              (encodeNumber 8 record.count.toNat ++ [])))) := by
    simp only [shape, encode, List.append_assoc, List.append_nil]
  have behindSender :=
    left_of_cut decodeText_append
      (whole ▸ decodeText_encodeText fit.sender _) readsSender
  have behindSubject :=
    left_of_cut decodeText_append
      (behindSender ▸ decodeText_encodeText fit.subject _) readsSubject
  have behindNumber :=
    left_of_cut decodeNumber_append
      (behindSubject ▸ decodeNumber_of_lt subjectNumber _) readsNumber
  have behindText :=
    left_of_cut decodeText_append
      (behindNumber ▸ decodeText_encodeText fit.text _) readsText
  have behindCount :=
    left_of_cut decodeNumber_append
      (behindText ▸ decodeNumber_of_lt count _) readsCount
  exact (List.append_eq_nil_iff.mp behindCount).2

/-! ## Binary records taken for JSON -/

/-- A number below the greatest of its width has a zero byte. -/
theorem zero_mem_encodeNumber
    {width value : Nat}
    (small : value < 256 ^ width) :
    0 ∈ encodeNumber (width + 1) value := by
  induction width generalizing value with
  | zero =>
      have zero : value = 0 :=
        Nat.lt_one_iff.mp small
      subst zero
      exact List.mem_cons_self
  | succ width inductionHypothesis =>
      have smaller : value / 256 < 256 ^ width := by
        rw [Nat.div_lt_iff_lt_mul (by decide), ← Nat.pow_succ]
        exact small
      rw [encodeNumber]
      exact List.mem_cons_of_mem _ (inductionHypothesis smaller)

theorem length_encode
    (record : Record) :
    (encode record).length =
      (Utf8.encode record.sender.toList).length +
        (Utf8.encode record.subject.toList).length +
        (Utf8.encode record.text.toList).length + 36 := by
  simp [encode, encodeText, encodeNumber]
  omega

theorem lengthsFit_of_length
    {record : Record}
    (bounded : (encode record).length < datagramLimit) :
    record.LengthsFit := by
  have room : datagramLimit ≤ Word.size 64 := by
    decide
  have fits {part : Nat} (isPart : part ≤ (encode record).length) :
      part < Word.size 64 :=
    Nat.lt_of_lt_of_le (Nat.lt_of_le_of_lt isPart bounded) room
  rw [length_encode] at fits
  exact {
    sender := fits (by omega)
    subject := fits (by omega)
    text := fits (by omega)
  }

theorem zero_mem_encode
    {record : Record}
    (bounded : (encode record).length < datagramLimit) :
    0 ∈ encode record := by
  have small : (Utf8.encode record.sender.toList).length < 256 ^ 7 := by
    rw [length_encode, datagramLimit] at bounded
    omega
  have zero := zero_mem_encodeNumber small
  simp only [encode, encodeText, List.append_assoc]
  exact List.mem_append_left _ zero

end Bincode

namespace Record

/-! ## JSON records -/

/-- A record in JSON is a table and nothing else. -/
theorem spans_json
    (record : Record) :
    Json.Spans .value (encode .json record) [] := by
  have read :=
    Json.value_object record.plainEntries?_trees (Nat.lt_succ_self _) []
  rw [List.append_nil, ← tree_eq] at read
  exact Json.spans_of_extent (congrArg Prod.snd read)

/-- So begins every record in JSON. -/
theorem encode_json_eq
    (record : Record) :
    ∃ rest,
      encode .json record =
        [0x7b, 0x22, 0x66, 0x72, 0x6f, 0x6d, 0x22, 0x3a] ++ rest := by
  have shape := Json.encode_object record.trees []
  rw [trees, Json.encode_compactEntries_cons, List.append_nil] at shape
  exact ⟨_, shape⟩

/-- The binary reader takes the beginning of a record in JSON for the length
of a text, and there are not so many bytes. -/
theorem bincode_decode_json
    {record : Record}
    (bounded : (encode .json record).length < datagramLimit) :
    Bincode.decode (encode .json record) = .error .cutText := by
  obtain ⟨rest, shape⟩ := record.encode_json_eq
  rw [shape] at bounded ⊢
  have length :
      Bincode.decodeNumber 8
          ([0x7b, 0x22, 0x66, 0x72, 0x6f, 0x6d, 0x22, 0x3a] ++ rest) =
        .ok (0x3a226d6f7266227b, rest) :=
    rfl
  have short : rest.length < 0x3a226d6f7266227b := by
    rw [List.length_append, datagramLimit] at bounded
    omega
  simp only [Bincode.decode, Bincode.decodeText, length, bind, Except.bind,
    if_pos short]

/-! ## Spoiled datagrams -/

theorem fits_of_length
    {format : WireFormat}
    {record : Record}
    (bounded : (encode format record).length < datagramLimit) :
    record.Fits format := by
  cases format with
  | json =>
      trivial
  | bincode =>
      exact Bincode.lengthsFit_of_length bounded

/-- A datagram in which the end of a record is missing, or which holds a record
in another format. -/
inductive Spoiled (format : WireFormat) : List UInt8 → Prop where
  | cut
      {record : Record}
      {bytes : List UInt8}
      (bounded : (encode format record).length < datagramLimit)
      (begins : bytes <+: encode format record)
      (isCut : bytes ≠ encode format record) :
      Spoiled format bytes
  | foreign
      {record : Record}
      {other : WireFormat}
      (bounded : (encode other record).length < datagramLimit)
      (isOther : other ≠ format) :
      Spoiled format (encode other record)

theorem decode_json_ne_ok
    {bytes : List UInt8}
    (incomplete : ¬ (Json.document bytes).2 = true)
    (found : Record) :
    decode .json bytes ≠ .ok found := by
  intro reads
  have read : Json.read ofNode bytes = .ok found :=
    Result.mapError_eq_ok_iff.mp reads
  exact incomplete (Json.complete_of_read read)

theorem ne_ok_of_cut
    {format : WireFormat}
    {record : Record}
    {bytes missing : List UInt8}
    (bounded : (encode format record).length < datagramLimit)
    (shape : bytes ++ missing = encode format record)
    (isCut : missing ≠ [])
    (found : Record) :
    decode format bytes ≠ .ok found := by
  cases format with
  | json =>
      obtain ⟨rest, begins⟩ := record.encode_json_eq
      have whole := record.spans_json
      rw [begins] at whole shape
      exact decode_json_ne_ok
        (Json.not_complete_of_cut whole shape.symm isCut) found
  | bincode =>
      intro reads
      have read : Bincode.decode bytes = .ok found :=
        Result.mapError_eq_ok_iff.mp reads
      exact isCut (Bincode.missing_eq_nil
        (Bincode.lengthsFit_of_length bounded) shape read)

theorem ne_ok_of_foreign
    {format other : WireFormat}
    {record : Record}
    (bounded : (encode other record).length < datagramLimit)
    (isOther : other ≠ format)
    (found : Record) :
    decode format (encode other record) ≠ .ok found := by
  cases format with
  | json =>
      cases other with
      | json =>
          exact (isOther rfl).elim
      | bincode =>
          refine decode_json_ne_ok ?_ found
          intro complete
          exact Json.zero_not_mem_of_complete complete
            (Bincode.zero_mem_encode bounded)
  | bincode =>
      cases other with
      | json =>
          intro reads
          have read : Bincode.decode (encode .json record) = .ok found :=
            Result.mapError_eq_ok_iff.mp reads
          rw [bincode_decode_json bounded] at read
          cases read
      | bincode =>
          exact (isOther rfl).elim

/-- No spoiled datagram is read. -/
theorem Spoiled.exists_defect
    {format : WireFormat}
    {bytes : List UInt8}
    (spoiled : Spoiled format bytes) :
    ∃ defect, decode format bytes = .error defect := by
  have unread : ∀ found, decode format bytes ≠ .ok found := by
    intro found
    cases spoiled with
    | cut bounded begins isCut =>
        obtain ⟨missing, shape⟩ := begins
        refine ne_ok_of_cut bounded shape ?_ found
        rintro rfl
        exact isCut ((List.append_nil bytes).symm.trans shape)
    | foreign bounded isOther =>
        exact ne_ok_of_foreign bounded isOther found
  cases read : decode format bytes with
  | ok found =>
      exact (unread found read).elim
  | error defect =>
      exact ⟨defect, rfl⟩

end Record

namespace Intake

/-! ## The intake -/

/-- Two intakes of one format of which the first rejected so many datagrams
that the second did not get. -/
structure RejectedMore (extra : Nat) (first second : Intake) : Prop where
  format : first.format = second.format
  received : first.counts.received = second.counts.received + extra
  accepted : first.counts.accepted = second.counts.accepted
  rejected : first.counts.rejected = second.counts.rejected + extra

namespace RejectedMore

variable
    {extra : Nat}
    {first second : Intake}

theorem count
    (more : RejectedMore extra first second)
    (valid : Bool) :
    RejectedMore extra (first.count valid) (second.count valid) where
  format := more.format
  received := by
    simp only [Intake.count, more.received]
    omega
  accepted := by
    simp only [Intake.count, more.accepted]
  rejected := by
    simp only [Intake.count, more.rejected]
    omega

theorem reject
    (more : RejectedMore extra first second) :
    RejectedMore (extra + 1) (first.count false) second where
  format := more.format
  received := congrArg Nat.succ more.received
  accepted := more.accepted
  rejected := congrArg Nat.succ more.rejected

end RejectedMore

/-- A spoiled datagram is counted and leaves no other trace. -/
theorem handle_of_spoiled
    {intake : Intake}
    {datagram : List UInt8}
    (spoiled : Record.Spoiled intake.format datagram)
    (cache : Cache) :
    ∃ defect,
      intake.handle cache datagram =
        (intake.count false, cache, .error defect,
          [.measure (.datagram false)]) := by
  obtain ⟨defect, unread⟩ := spoiled.exists_defect
  refine ⟨defect, ?_⟩
  simp only [handle, Record.decodePosition, unread]
  rfl

/-- What becomes of a datagram depends on the format of the intake only. -/
theorem RejectedMore.handle
    {extra : Nat}
    {first second : Intake}
    (more : RejectedMore extra first second)
    (cache : Cache)
    (datagram : List UInt8) :
    RejectedMore extra (first.handle cache datagram).1
        (second.handle cache datagram).1 ∧
      (first.handle cache datagram).2.1 =
        (second.handle cache datagram).2.1 := by
  unfold Intake.handle
  rw [more.format]
  split
  · exact ⟨more.count true, rfl⟩
  · exact ⟨more.count false, rfl⟩

theorem format_handle
    (intake : Intake)
    (cache : Cache)
    (datagram : List UInt8) :
    (intake.handle cache datagram).1.format = intake.format := by
  unfold handle
  split <;> rfl

theorem intake_handleAll_cons
    (intake : Intake)
    (cache : Cache)
    (datagram : List UInt8)
    (rest : List (List UInt8)) :
    (intake.handleAll cache (datagram :: rest)).1 =
      ((intake.handle cache datagram).1.handleAll
        (intake.handle cache datagram).2.1 rest).1 := rfl

theorem cache_handleAll_cons
    (intake : Intake)
    (cache : Cache)
    (datagram : List UInt8)
    (rest : List (List UInt8)) :
    (intake.handleAll cache (datagram :: rest)).2.1 =
      ((intake.handle cache datagram).1.handleAll
        (intake.handle cache datagram).2.1 rest).2.1 := rfl

/-- An intake ends as if the spoiled datagrams had not come, but for having
rejected them. -/
theorem RejectedMore.handleAll
    {extra : Nat}
    {first second : Intake}
    (more : RejectedMore extra first second)
    {datagrams : List (List UInt8)}
    {spoiled : List UInt8 → Bool}
    (isSpoiled :
      ∀ datagram ∈ datagrams, spoiled datagram = true →
        Record.Spoiled first.format datagram)
    (cache : Cache) :
    RejectedMore (extra + datagrams.countP spoiled)
        (first.handleAll cache datagrams).1
        (second.handleAll cache
          (datagrams.filter fun datagram => ! spoiled datagram)).1 ∧
      (first.handleAll cache datagrams).2.1 =
        (second.handleAll cache
          (datagrams.filter fun datagram => ! spoiled datagram)).2.1 := by
  induction datagrams generalizing extra first second cache with
  | nil =>
      exact ⟨more, rfl⟩
  | cons datagram datagrams inductionHypothesis =>
      obtain ⟨isSpoiledNow, isSpoiledLater⟩ :=
        List.forall_mem_cons.mp isSpoiled
      cases flagged : spoiled datagram with
      | true =>
          obtain ⟨defect, handled⟩ :=
            handle_of_spoiled (isSpoiledNow flagged) cache
          have later := inductionHypothesis more.reject isSpoiledLater cache
          have counted :
              extra + (datagram :: datagrams).countP spoiled =
                extra + 1 + datagrams.countP spoiled := by
            rw [List.countP_cons_of_pos flagged]
            omega
          rw [counted, List.filter_cons_of_neg (by simp [flagged]),
            intake_handleAll_cons, cache_handleAll_cons, handled]
          exact later
      | false =>
          obtain ⟨moreNow, sameCache⟩ := more.handle cache datagram
          rw [← first.format_handle cache datagram] at isSpoiledLater
          have later :=
            inductionHypothesis moreNow isSpoiledLater
              (first.handle cache datagram).2.1
          rw [List.countP_cons_of_neg (by simp [flagged]),
            List.filter_cons_of_pos (by simp [flagged])]
          simp only [intake_handleAll_cons, cache_handleAll_cons,
            ← sameCache]
          exact later

/-- A record is read in its own format, but not when its end is missing, and not
in another format.  An intake that gets such datagrams among others ends with the
cache that the others alone would have left, and rejected one datagram more for
each of them. -/
theorem every_spoiled_datagram_is_rejected
    (format : WireFormat) :
    (∀ record : Record,
      (record.encode format).length < datagramLimit →
        Record.decode format (record.encode format) = .ok record ∧
        (∀ bytes,
          bytes <+: record.encode format → bytes ≠ record.encode format →
            ∃ defect, Record.decode format bytes = .error defect) ∧
        ∀ other, other ≠ format →
          ∃ defect,
            Record.decode other (record.encode format) = .error defect) ∧
      ∀ (intake : Intake) (cache : Cache) (datagrams : List (List UInt8))
        (spoiled : List UInt8 → Bool),
        intake.format = format →
        (∀ datagram ∈ datagrams, spoiled datagram = true →
          Record.Spoiled format datagram) →
        RejectedMore (datagrams.countP spoiled)
            (intake.handleAll cache datagrams).1
            (intake.handleAll cache
              (datagrams.filter fun datagram => ! spoiled datagram)).1 ∧
          (intake.handleAll cache datagrams).2.1 =
            (intake.handleAll cache
              (datagrams.filter fun datagram => ! spoiled datagram)).2.1 := by
  refine ⟨?_, ?_⟩
  · intro record bounded
    refine
      ⟨Record.decode_encode_of_fits (Record.fits_of_length bounded), ?_, ?_⟩
    · intro bytes begins isCut
      exact (Record.Spoiled.cut bounded begins isCut).exists_defect
    · intro other isOther
      exact (Record.Spoiled.foreign bounded isOther.symm).exists_defect
  · rintro intake cache datagrams spoiled rfl isSpoiled
    have begins : RejectedMore 0 intake intake :=
      ⟨rfl, rfl, rfl, rfl⟩
    have ends := begins.handleAll isSpoiled cache
    rw [Nat.zero_add] at ends
    exact ends

/-- A record without its last byte, in the other format, and as it is. -/
def tornStream : List (List UInt8) :=
  [(Record.awkward.encode .json).dropLast, Record.awkward.encode .bincode,
    Record.awkward.encode .json]

theorem tornStream_is_rejected :
    ((Record.awkward.encode .json).length < datagramLimit ∧
      (∃ defect,
        Record.decode .json (Record.awkward.encode .json).dropLast =
          .error defect) ∧
      ∃ defect,
        Record.decode .bincode (Record.awkward.encode .json) =
          .error defect) ∧
      RejectedMore 2
          ((begin .json).handleAll .empty tornStream).1
          ((begin .json).handleAll .empty
            [Record.awkward.encode .json]).1 ∧
        ((begin .json).handleAll .empty tornStream).2.1 =
          ((begin .json).handleAll .empty
            [Record.awkward.encode .json]).2.1 := by
  have short (format : WireFormat) :
      (Record.awkward.encode format).length < datagramLimit := by
    cases format <;> decide +kernel
  have torn :
      (Record.awkward.encode .json).dropLast ≠
        Record.awkward.encode .json := by
    decide +kernel
  obtain ⟨alone, among⟩ := every_spoiled_datagram_is_rejected .json
  obtain ⟨_, cut, foreign⟩ := alone Record.awkward (short .json)
  refine ⟨⟨short .json, cut _ (List.dropLast_prefix _) torn,
    foreign .bincode nofun⟩, ?_⟩
  have whole :=
    among (begin .json) .empty tornStream
      (fun datagram => datagram != Record.awkward.encode .json) rfl ?_
  · have kept :
        (tornStream.filter fun datagram =>
          ! (datagram != Record.awkward.encode .json)) =
        [Record.awkward.encode .json] := by
      decide +kernel
    have flagged :
        (tornStream.countP fun datagram =>
          datagram != Record.awkward.encode .json) = 2 := by
      decide +kernel
    rw [kept, flagged] at whole
    exact whole
  · intro datagram member isFlagged
    simp only [tornStream, List.mem_cons, List.not_mem_nil, or_false] at member
    rcases member with rfl | rfl | rfl
    · exact .cut (short .json) (List.dropLast_prefix _) torn
    · exact .foreign (short .bincode) nofun
    · simp at isFlagged

end Intake

end PositionFeed
