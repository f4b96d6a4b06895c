import PositionFeed.Bus.Intake
import PositionFeed.Proofs.Bus.Codec
import PositionFeed.Proofs.Cache.History
import PositionFeed.Proofs.Telemetry.Recorded

namespace PositionFeed

/-!
# An intake over a stream of datagrams

Whatever bytes come in, an intake is a fold: the positions that the datagrams
carry enter the cache in order, and the others are counted and leave the cache
as it is.  The counts of the intake, the measures and the numbers of the cache
all count the same datagrams.

Of a record that can be read the intake takes the text and nothing else, so
what the sender says of itself, of the subject and of its own counting has no
effect.
-/

namespace Measure

/-- The measures of datagrams that carried a position, or of the others. -/
def isDatagram (valid : Bool) : Measure → Bool
  | .datagram found => found == valid
  | _ => false

end Measure

/-- The series that counts the datagrams that carried a position, or the
others. -/
def Series.datagrams (valid : Bool) : Series :=
  ⟨"bus_received_total", [("status", if valid then "valid" else "invalid")]⟩

/-- A recorder counts the datagrams of either kind. -/
theorem Recorded.counter_datagrams
    (valid : Bool)
    (measures : List Measure) :
    (Recorded.ofMeasures measures).counter (.datagrams valid) =
      measures.countP (Measure.isDatagram valid) := by
  refine Recorded.counter_ofMeasures (fun measure => ?_) measures
  cases measure with
  | datagram found =>
      cases found <;> cases valid <;> decide
  | _ =>
      simp [Measure.observations, Series.datagrams, Measure.isDatagram]

namespace Record

/-- The text of the record that bytes hold, if they hold one. -/
def text? (format : WireFormat) (bytes : List UInt8) : Option String :=
  (decode format bytes).toOption.map Record.text

/-- The position that bytes carry, if they carry one. -/
def position? (format : WireFormat) (bytes : List UInt8) : Option Position :=
  (decodePosition format bytes).toOption

theorem position?_eq
    (format : WireFormat)
    (bytes : List UInt8) :
    position? format bytes =
      (text? format bytes).bind fun text => (Position.read text).toOption := by
  unfold position? text? decodePosition
  cases decode format bytes with
  | error defect =>
      rfl
  | ok record =>
      have read : record.position = Position.read record.text := rfl
      cases found : Position.read record.text <;>
        simp [bind, Except.bind, Except.toOption, Except.mapError, read, found]

end Record

namespace Intake

/-- The positions that datagrams carry. -/
def carried
    (format : WireFormat)
    (datagrams : List (List UInt8)) :
    List Position :=
  datagrams.filterMap (Record.position? format)

theorem carried_concat
    (format : WireFormat)
    (datagrams : List (List UInt8))
    (datagram : List UInt8) :
    carried format (datagrams ++ [datagram]) =
      carried format datagrams ++ (Record.position? format datagram).toList := by
  cases found : Record.position? format datagram <;>
    simp [carried, found]

theorem carried_eq_of_text
    {format : WireFormat}
    {first second : List (List UInt8)}
    (sameTexts :
      first.map (Record.text? format) = second.map (Record.text? format)) :
    carried format first = carried format second := by
  have fromTexts (datagrams : List (List UInt8)) :
      carried format datagrams =
        (datagrams.map (Record.text? format)).filterMap fun text? =>
          text?.bind fun text => (Position.read text).toOption := by
    rw [List.filterMap_map]
    exact List.filterMap_congr fun datagram _ =>
      Record.position?_eq format datagram
  rw [fromTexts, fromTexts, sameTexts]

/-- Datagrams that come after others find the intake and the cache as these
left them. -/
theorem handleAll_append
    (intake : Intake)
    (cache : Cache)
    (first second : List (List UInt8)) :
    let before := intake.handleAll cache first
    let after := before.1.handleAll before.2.1 second
    intake.handleAll cache (first ++ second) =
      (after.1, after.2.1, before.2.2.1 ++ after.2.2.1,
        before.2.2.2 ++ after.2.2.2) := by
  induction first generalizing intake cache with
  | nil =>
      rfl
  | cons datagram rest inductionHypothesis =>
      simp only [List.cons_append, handleAll, inductionHypothesis,
        List.append_assoc]

theorem handleAll_concat
    (intake : Intake)
    (cache : Cache)
    (earlier : List (List UInt8))
    (datagram : List UInt8) :
    let before := intake.handleAll cache earlier
    let handled := before.1.handle before.2.1 datagram
    intake.handleAll cache (earlier ++ [datagram]) =
      (handled.1, handled.2.1, before.2.2.1 ++ [handled.2.2.1],
        before.2.2.2 ++ handled.2.2.2) := by
  simp [handleAll_append, handleAll]

theorem length_results
    (intake : Intake)
    (cache : Cache)
    (datagrams : List (List UInt8)) :
    (intake.handleAll cache datagrams).2.2.1.length = datagrams.length := by
  induction datagrams generalizing intake cache with
  | nil =>
      rfl
  | cons datagram rest inductionHypothesis =>
      simp only [handleAll, List.length_cons, inductionHypothesis]

/-- What an intake that began with nothing comes to over datagrams. -/
structure Folds
    (format : WireFormat)
    (datagrams : List (List UInt8))
    (state : Intake × Cache × List (Except RecordDefect Sample) × List Event) :
    Prop where
  formatIs :
    state.1.format = format
  received :
    state.1.counts.received = datagrams.length
  accepted :
    state.1.counts.accepted = (carried format datagrams).length
  total :
    state.1.counts.accepted + state.1.counts.rejected = datagrams.length
  cacheIs :
    state.2.1 = .ofUpdates (carried format datagrams)
  samples :
    state.2.2.1.filterMap Except.toOption =
      Cache.history (carried format datagrams)
  measured :
    (measures state.2.2.2).countP (Measure.isDatagram true) =
        state.1.counts.accepted ∧
      (measures state.2.2.2).countP (Measure.isDatagram false) =
        state.1.counts.rejected

namespace Folds

variable
  {format : WireFormat}
  {datagrams : List (List UInt8)}
  {state : Intake × Cache × List (Except RecordDefect Sample) × List Event}

theorem begin
    (format : WireFormat) :
    Folds format [] (Intake.begin format, .empty, [], []) where
  formatIs := rfl
  received := rfl
  accepted := rfl
  total := rfl
  cacheIs := rfl
  samples := rfl
  measured := ⟨rfl, rfl⟩

/-- One more datagram is folded in. -/
theorem handle
    (folds : Folds format datagrams state)
    (datagram : List UInt8) :
    let handled := state.1.handle state.2.1 datagram
    Folds format (datagrams ++ [datagram])
      (handled.1, handled.2.1, state.2.2.1 ++ [handled.2.2.1],
        state.2.2.2 ++ handled.2.2.2) := by
  intro handled
  have received := folds.received
  have accepted := folds.accepted
  have total := folds.total
  obtain ⟨valid, invalid⟩ := folds.measured
  cases read : Record.decodePosition format datagram with
  | ok position =>
      have found : Record.position? format datagram = some position := by
        rw [Record.position?, read]
        rfl
      have shape :
          handled = (state.1.count true, state.2.1.update position,
            .ok (state.2.1.nextSample position), [.measure (.datagram true)]) := by
        simp only [handled, Intake.handle, folds.formatIs, read]
      rw [shape]
      refine {
        formatIs := folds.formatIs
        received := ?_
        accepted := ?_
        total := ?_
        cacheIs := ?_
        samples := ?_
        measured := ?_
      }
      · simp [count, received]
      · simp [count, accepted, carried_concat, found]
      · simp [count]
        omega
      · simp [folds.cacheIs, carried_concat, found]
      · simp [carried_concat, found, folds.samples, folds.cacheIs,
          Except.toOption]
      · simp [measures, Measure.isDatagram, count] at valid invalid ⊢
        omega
  | error defect =>
      have found : Record.position? format datagram = none := by
        rw [Record.position?, read]
        rfl
      have shape :
          handled = (state.1.count false, state.2.1, .error defect,
            [.measure (.datagram false)]) := by
        simp only [handled, Intake.handle, folds.formatIs, read]
      rw [shape]
      refine {
        formatIs := folds.formatIs
        received := ?_
        accepted := ?_
        total := ?_
        cacheIs := ?_
        samples := ?_
        measured := ?_
      }
      · simp [count, received]
      · simp [count, accepted, carried_concat, found]
      · simp [count]
        omega
      · simp [folds.cacheIs, carried_concat, found]
      · simp [carried_concat, found, folds.samples, Except.toOption]
      · simp [measures, Measure.isDatagram, count] at valid invalid ⊢
        omega

theorem countsAre
    (folds : Folds format datagrams state) :
    state.1.counts =
      ⟨datagrams.length, (carried format datagrams).length,
        datagrams.length - (carried format datagrams).length⟩ := by
  have rejected :
      state.1.counts.rejected =
        datagrams.length - (carried format datagrams).length := by
    have total := folds.total
    rw [folds.accepted] at total
    omega
  rw [← rejected, ← folds.received, ← folds.accepted]

theorem handleAll
    (format : WireFormat)
    (datagrams : List (List UInt8)) :
    Folds format datagrams ((Intake.begin format).handleAll .empty datagrams) := by
  induction datagrams using List.reverseRecOn with
  | nil =>
      exact .begin format
  | append_singleton earlier datagram inductionHypothesis =>
      rw [handleAll_concat]
      exact inductionHypothesis.handle datagram

end Folds

/-- The answer to a datagram among others is the one of the intake that the
earlier datagrams left. -/
theorem result_at
    (intake : Intake)
    (cache : Cache)
    (earlier later : List (List UInt8))
    (datagram : List UInt8) :
    let before := intake.handleAll cache earlier
    (intake.handleAll cache (earlier ++ datagram :: later)).2.2.1[earlier.length]? =
      some (before.1.handle before.2.1 datagram).2.2.1 := by
  intro before
  have position :
      (intake.handleAll cache earlier).2.2.1.length = earlier.length :=
    intake.length_results cache earlier
  rw [handleAll_append, ← position]
  simp [handleAll, before]

/-- What is promised of a fresh intake with an empty cache over datagrams. -/
structure Receives
    (format : WireFormat)
    (datagrams : List (List UInt8)) : Prop where
  received :
    ((begin format).handleAll .empty datagrams).1.counts.received =
      datagrams.length
  /-- Each datagram is either accepted or rejected. -/
  total :
    ((begin format).handleAll .empty datagrams).1.counts.accepted +
        ((begin format).handleAll .empty datagrams).1.counts.rejected =
      datagrams.length
  /-- The measures count what the intake counts. -/
  measured :
    (Recorded.ofMeasures
        (measures ((begin format).handleAll .empty datagrams).2.2.2)).counter
          (.datagrams true) =
        ((begin format).handleAll .empty datagrams).1.counts.accepted ∧
      (Recorded.ofMeasures
        (measures ((begin format).handleAll .empty datagrams).2.2.2)).counter
          (.datagrams false) =
        ((begin format).handleAll .empty datagrams).1.counts.rejected
  /-- A datagram that carries a position is answered with the sample that the
  position became, and the cache holds it. -/
  accepts :
    ∀ earlier datagram later position,
      datagrams = earlier ++ datagram :: later →
      Record.decodePosition format datagram = .ok position →
      let before := (begin format).handleAll .empty earlier
      let after := (begin format).handleAll .empty (earlier ++ [datagram])
      let sample : Sample := ⟨position, before.1.counts.accepted + 1⟩
      ((begin format).handleAll .empty datagrams).2.2.1[earlier.length]? =
          some (.ok sample) ∧
        after.2.1.latest = some sample
  /-- A datagram that carries none is answered with the reason, and the cache
  stays as it is. -/
  rejects :
    ∀ earlier datagram later defect,
      datagrams = earlier ++ datagram :: later →
      Record.decodePosition format datagram = .error defect →
      let before := (begin format).handleAll .empty earlier
      let after := (begin format).handleAll .empty (earlier ++ [datagram])
      ((begin format).handleAll .empty datagrams).2.2.1[earlier.length]? =
          some (.error defect) ∧
        after.2.1 = before.2.1
  /-- The samples among the answers are the positions that the datagrams carry,
  numbered from one without a gap. -/
  numbered :
    ((begin format).handleAll .empty datagrams).2.2.1.filterMap
        Except.toOption =
      Cache.history (carried format datagrams)
  latestSequence :
    ((begin format).handleAll .empty datagrams).2.1.latestSequence =
      ((begin format).handleAll .empty datagrams).1.counts.accepted
  /-- The cache holds the last position that a datagram carried. -/
  latest :
    ((begin format).handleAll .empty datagrams).2.1.latest =
      (carried format datagrams).getLast?.map fun position =>
        ⟨position, ((begin format).handleAll .empty datagrams).1.counts.accepted⟩

theorem receives
    (format : WireFormat)
    (datagrams : List (List UInt8)) :
    Receives format datagrams := by
  have folds := Folds.handleAll format datagrams
  refine {
    received := folds.received
    total := folds.total
    measured := ?_
    accepts := ?_
    rejects := ?_
    numbered := folds.samples
    latestSequence := ?_
    latest := ?_
  }
  · rw [Recorded.counter_datagrams, Recorded.counter_datagrams]
    exact folds.measured
  · rintro earlier datagram later position rfl carries before after sample
    have foldsBefore := Folds.handleAll format earlier
    have handled :
        before.1.handle before.2.1 datagram =
          (before.1.count true, before.2.1.update position,
            .ok (before.2.1.nextSample position), [.measure (.datagram true)]) := by
      simp only [Intake.handle, before, foldsBefore.formatIs, carries]
    have sampleIs : before.2.1.nextSample position = sample := by
      simp only [Cache.nextSample, sample, before, foldsBefore.cacheIs,
        foldsBefore.accepted, Cache.latestSequence_ofUpdates]
    constructor
    · rw [result_at, handled, sampleIs]
    · simp only [after, handleAll_concat]
      rw [handled, ← sampleIs]
      rfl
  · rintro earlier datagram later defect rfl fails before after
    have foldsBefore := Folds.handleAll format earlier
    have handled :
        before.1.handle before.2.1 datagram =
          (before.1.count false, before.2.1, .error defect,
            [.measure (.datagram false)]) := by
      simp only [Intake.handle, before, foldsBefore.formatIs, fails]
    constructor
    · rw [result_at, handled]
    · simp only [after, handleAll_concat]
      rw [handled]
  · rw [folds.cacheIs, folds.accepted, Cache.latestSequence_ofUpdates]
  · rw [folds.cacheIs, folds.accepted, Cache.latest_ofUpdates]

/-- Two streams leave a fresh intake with the same counts and the same
cache. -/
def SameEnd
    (format : WireFormat)
    (first second : List (List UInt8)) : Prop :=
  ((begin format).handleAll .empty first).1.counts =
      ((begin format).handleAll .empty second).1.counts ∧
    ((begin format).handleAll .empty first).2.1 =
      ((begin format).handleAll .empty second).2.1

theorem sameEnd_of_text
    {format : WireFormat}
    {first second : List (List UInt8)}
    (sameTexts :
      first.map (Record.text? format) = second.map (Record.text? format)) :
    SameEnd format first second := by
  have folds := Folds.handleAll format first
  have otherFolds := Folds.handleAll format second
  have sameLength : first.length = second.length := by
    simpa using congrArg List.length sameTexts
  have sameCarried := carried_eq_of_text sameTexts
  constructor
  · rw [folds.countsAre, otherFolds.countsAre, sameLength, sameCarried]
  · rw [folds.cacheIs, otherFolds.cacheIs, sameCarried]

theorem map_text?_encode
    {format : WireFormat}
    {records : List Record}
    (fit : ∀ record ∈ records, record.Fits format) :
    (records.map (Record.encode format)).map (Record.text? format) =
      (records.map Record.text).map some := by
  rw [List.map_map, List.map_map]
  refine List.map_congr_left fun record member => ?_
  simp only [Function.comp_apply, Record.text?,
    Record.decode_encode_of_fits (fit record member)]
  rfl

/-- A fresh intake folds every stream of datagrams into its counts, its answers
and the cache, and of the records in it only the texts matter: streams whose
records have the same texts end alike, as do any records with the same texts
however else they differ. -/
theorem every_stream_is_folded
    (format : WireFormat)
    (datagrams : List (List UInt8)) :
    Receives format datagrams ∧
      (∀ others : List (List UInt8),
        datagrams.map (Record.text? format) =
            others.map (Record.text? format) →
          SameEnd format datagrams others) ∧
      ∀ first second : List Record,
        (∀ record ∈ first, record.Fits format) →
        (∀ record ∈ second, record.Fits format) →
        first.map Record.text = second.map Record.text →
          SameEnd format (first.map (Record.encode format))
            (second.map (Record.encode format)) := by
  refine ⟨receives format datagrams, ?_, ?_⟩
  · intro others sameTexts
    exact sameEnd_of_text sameTexts
  · intro first second firstFit secondFit sameTexts
    apply sameEnd_of_text
    rw [map_text?_encode firstFit, map_text?_encode secondFit, sameTexts]

/-- A record with a position. -/
def plainRecord : Record := ⟨"feed", "position", 1, "1,2,3", 4⟩

/-- A record with the same text that differs in all else. -/
def oddRecord : Record := ⟨"", "δ", 4294967295, "1,2,3", 0⟩

/-- A datagram without a record, and one with a position. -/
def plainStream : List (List UInt8) :=
  [[255, 1], plainRecord.encode .bincode]

/-- The same with another record, behind another datagram without one. -/
def oddStream : List (List UInt8) :=
  [[], oddRecord.encode .bincode]

theorem plainStream_ends_like_oddStream :
    plainStream.map (Record.text? .bincode) =
        oddStream.map (Record.text? .bincode) ∧
      Receives .bincode plainStream ∧
      SameEnd .bincode plainStream oddStream ∧
      SameEnd .json [plainRecord.encode .json] [oddRecord.encode .json] := by
  have sameTexts :
      plainStream.map (Record.text? .bincode) =
        oddStream.map (Record.text? .bincode) := by
    decide +kernel
  obtain ⟨received, ofTexts, _⟩ :=
    every_stream_is_folded .bincode plainStream
  obtain ⟨_, _, ofRecords⟩ := every_stream_is_folded .json []
  exact ⟨sameTexts, received, ofTexts oddStream sameTexts,
    ofRecords [plainRecord] [oddRecord] (fun _ _ => trivial)
      (fun _ _ => trivial) rfl⟩

end Intake

end PositionFeed
