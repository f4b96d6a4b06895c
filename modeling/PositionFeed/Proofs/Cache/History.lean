import Mathlib.Data.List.Induction
import PositionFeed.Cache

namespace PositionFeed

/-!
# The cache and the updates before it

The cache keeps one sample and forgets the others, so what it holds is said
here in terms of all positions that ever entered it.  The sample with number
`n` is the one that the `n`-th of these positions became.
-/

namespace Cache

/-- The cache after positions entered it one after the other. -/
def ofUpdates (positions : List Position) : Cache :=
  positions.foldl update empty

@[simp] theorem ofUpdates_concat
    (positions : List Position)
    (position : Position) :
    ofUpdates (positions ++ [position]) =
      (ofUpdates positions).update position := by
  simp [ofUpdates]

/-- Numbers count the updates. -/
@[simp] theorem latestSequence_ofUpdates
    (positions : List Position) :
    (ofUpdates positions).latestSequence = positions.length := by
  induction positions using List.reverseRecOn with
  | nil =>
      rfl
  | append_singleton positions position inductionHypothesis =>
      simp [inductionHypothesis]

/-- The cache holds the last position under the number of all positions. -/
theorem latest_ofUpdates
    (positions : List Position) :
    (ofUpdates positions).latest =
      positions.getLast?.map fun position => ⟨position, positions.length⟩ := by
  induction positions using List.reverseRecOn with
  | nil =>
      rfl
  | append_singleton positions position _ =>
      simp [nextSample]

/-- What the cache holds is the last position, numbered by the updates. -/
theorem latest_ofUpdates_eq_some_iff
    {positions : List Position}
    {sample : Sample} :
    (ofUpdates positions).latest = some sample ↔
      positions.getLast? = some sample.position ∧
        sample.sequence = positions.length := by
  rw [latest_ofUpdates, Option.map_eq_some_iff]
  constructor
  · rintro ⟨position, isLast, rfl⟩
    exact ⟨isLast, rfl⟩
  · rintro ⟨isLast, numbered⟩
    exact ⟨sample.position, isLast, by rw [← numbered]⟩

/-- The samples that positions become when they enter an empty cache one after
the other. -/
def history (positions : List Position) : List Sample :=
  positions.mapIdx fun place position => ⟨position, place + 1⟩

@[simp] theorem history_concat
    (positions : List Position)
    (position : Position) :
    history (positions ++ [position]) =
      history positions ++ [(ofUpdates positions).nextSample position] := by
  simp [history, nextSample]

/-- What a cache holds later that is newer than what it holds now. -/
def newerIn (now later : Cache) : List Sample :=
  if now.latestSequence < later.latestSequence then later.latest.toList
  else []

@[simp] theorem newerIn_self
    (cache : Cache) :
    cache.newerIn cache = [] := by
  simp [newerIn]

@[simp] theorem newerIn_update
    (cache : Cache)
    (position : Position) :
    cache.newerIn (cache.update position) = [cache.nextSample position] := by
  simp [newerIn]

end Cache

/-- A sample is one that these positions became: its number is the place of
its position among them. -/
def Sample.RecordedIn (positions : List Position) (sample : Sample) : Prop :=
  0 < sample.sequence ∧
    positions[sample.sequence - 1]? = some sample.position

namespace Sample.RecordedIn

/-- A recorded sample stays recorded when more positions follow. -/
theorem append
    {positions : List Position}
    {sample : Sample}
    (recorded : sample.RecordedIn positions)
    (later : List Position) :
    sample.RecordedIn (positions ++ later) := by
  obtain ⟨positive, found⟩ := recorded
  refine ⟨positive, ?_⟩
  obtain ⟨inBounds, _⟩ := List.getElem?_eq_some_iff.mp found
  rw [List.getElem?_append_left inBounds, found]

/-- What the cache holds is recorded. -/
theorem of_latest
    {positions : List Position}
    {sample : Sample}
    (held : (Cache.ofUpdates positions).latest = some sample) :
    sample.RecordedIn positions := by
  obtain ⟨isLast, numbered⟩ := Cache.latest_ofUpdates_eq_some_iff.mp held
  have nonempty : 0 < positions.length := by
    cases positions with
    | nil =>
        simp at isLast
    | cons first rest =>
        simp
  refine ⟨numbered ▸ nonempty, ?_⟩
  rw [numbered, ← isLast, List.getLast?_eq_getElem?]

/-- No number of a recorded sample is above the number of positions. -/
theorem sequence_le
    {positions : List Position}
    {sample : Sample}
    (recorded : sample.RecordedIn positions) :
    sample.sequence ≤ positions.length := by
  obtain ⟨positive, found⟩ := recorded
  obtain ⟨inBounds, _⟩ := List.getElem?_eq_some_iff.mp found
  omega

theorem mem_history
    {positions : List Position}
    {sample : Sample}
    (recorded : sample.RecordedIn positions) :
    sample ∈ Cache.history positions := by
  obtain ⟨positive, found⟩ := recorded
  obtain ⟨inBounds, isThere⟩ := List.getElem?_eq_some_iff.mp found
  refine List.mem_mapIdx.mpr ⟨sample.sequence - 1, inBounds, ?_⟩
  rw [isThere, Nat.sub_add_cancel positive]

end Sample.RecordedIn

end PositionFeed
