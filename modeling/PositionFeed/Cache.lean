import PositionFeed.Position

namespace PositionFeed

/-!
# The cache of the newest sample

The cache holds one sample, the newest.  Whatever enters it gets the next
number, so numbers count the updates.
-/

/-- The place of the newest sample. -/
structure Cache where
  /-- The newest sample, if there has been any. -/
  latest : Option Sample
  deriving DecidableEq

namespace Cache

/-- The cache before the first update. -/
def empty : Cache := ⟨none⟩

instance : Inhabited Cache := ⟨empty⟩

/-- Whether there has been an update. -/
def hasData (cache : Cache) : Bool :=
  cache.latest.isSome

/-- The number of the newest sample, zero before the first. -/
def latestSequence (cache : Cache) : Nat :=
  cache.latest.elim 0 Sample.sequence

/-- The sample that a position becomes when it enters the cache. -/
def nextSample (cache : Cache) (position : Position) : Sample :=
  ⟨position, cache.latestSequence + 1⟩

/-- The cache after a position entered it. -/
def update (cache : Cache) (position : Position) : Cache :=
  ⟨some (cache.nextSample position)⟩

/-- An update counts one. -/
@[simp]
theorem latestSequence_update (cache : Cache) (position : Position) :
    (cache.update position).latestSequence = cache.latestSequence + 1 := rfl

/-- After an update the newest sample is the one that was stored. -/
@[simp]
theorem latest_update (cache : Cache) (position : Position) :
    (cache.update position).latest = some (cache.nextSample position) := rfl

end Cache

end PositionFeed
