import PositionFeed.Bus.Intake
import PositionFeed.Proofs.Bus.Record

namespace PositionFeed

/-!
# Chains of publishers and subscribers

A subscriber may publish what it received, and others may subscribe to that.
The first of them holds the position that the text of the original sample
means.  This position has the same text, so every later one holds the same
position again, in whatever formats it travelled and whatever numbers it got on
the way.
-/

/-- A subscriber that a sample reaches. -/
structure Hop where
  intake : Intake
  /-- Its cache before the sample. -/
  cache : Cache

namespace Sample

/-- What a subscriber makes of the datagram of a sample. -/
def arrive (sample : Sample) (hop : Hop) : Except RecordDefect Sample :=
  (hop.intake.handle hop.cache
    ((Record.ofSample sample).encode hop.intake.format)).2.2.1

/-- What the last of some subscribers makes of a sample that each of them
publishes to the next. -/
def travel (sample : Sample) : List Hop → Except RecordDefect Sample
  | [] => .ok sample
  | hop :: rest => do
      let arrived ← sample.arrive hop
      arrived.travel rest

theorem arrive_eq
    (sample : Sample)
    (hop : Hop) :
    sample.arrive hop = .ok (hop.cache.nextSample sample.position.reread) := by
  simp only [arrive, Intake.handle, Record.decodePosition_ofSample]

theorem travel_concat
    (sample : Sample)
    (hops : List Hop)
    (last : Hop) :
    sample.travel (hops ++ [last]) =
      .ok (last.cache.nextSample sample.position.reread) := by
  induction hops generalizing sample with
  | nil =>
      simp only [List.nil_append, travel, arrive_eq]
      rfl
  | cons hop rest inductionHypothesis =>
      simp only [List.cons_append, travel, arrive_eq]
      calc
        (hop.cache.nextSample sample.position.reread).travel
              (rest ++ [last]) =
            .ok (last.cache.nextSample sample.position.reread.reread) :=
          inductionHypothesis _
        _ = .ok (last.cache.nextSample sample.position.reread) := by
          rw [Position.reread_reread]

/-- A sample settles at a position that its record carries, and drifts no
further. -/
structure SettlesAt
    (sample : Sample)
    (position : Position) : Prop where
  /-- The record of the sample carries the position. -/
  carries :
    (Record.ofSample sample).position = .ok position
  /-- The position is of the same moment and near the one of the sample. -/
  near :
    sample.position.CarriedFrom position
  /-- The position has the text of the sample. -/
  text :
    position.text = sample.position.text
  /-- The last of any subscribers in a row holds the position. -/
  travels :
    ∀ hops last,
      sample.travel (hops ++ [last]) = .ok (last.cache.nextSample position)

/-- Every sample settles after the first subscriber, whatever its longitude,
latitude, moment and number. -/
theorem every_sample_settles
    (sample : Sample) :
    ∃ position, sample.SettlesAt position :=
  ⟨sample.position.reread, {
    carries := sample.position.read_text
    near := sample.position.carriedFrom_reread
    text := sample.position.text_reread
    travels := sample.travel_concat
  }⟩

end Sample

end PositionFeed
