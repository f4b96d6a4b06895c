import PositionFeed.Proofs.Cache.History
import PositionFeed.Proofs.Run

namespace PositionFeed

/-!
# The cache in single steps

A cache that is updated and read in single steps, with what everybody sees of
it.  Whoever reads it gets a copy of the sample under a new ticket, and may look
at the words of the copy later.
-/

/-! ## The words of a sample -/

/-- One of the words that a sample is kept in. -/
inductive SampleWord where
  | longitude
  | latitude
  | timestamp
  | sequence
  deriving Repr, DecidableEq

namespace SampleWord

/-- What is read from a word. -/
inductive Value where
  | degrees (value : Float)
  | moment (value : Int64)
  | number (value : Nat)
  deriving DecidableEq

def all : List SampleWord :=
  [.longitude, .latitude, .timestamp, .sequence]

theorem mem_all
    (word : SampleWord) :
    word ∈ all := by
  cases word <;> decide

/-- A word of a sample. -/
def of (sample : Sample) : SampleWord → Value
  | .longitude => .degrees sample.position.longitude
  | .latitude => .degrees sample.position.latitude
  | .timestamp => .moment sample.position.timestamp
  | .sequence => .number sample.sequence

/-- A sample with one word copied from another. -/
def copied (source target : Sample) : SampleWord → Sample
  | .longitude =>
      { target with
        position.longitude := source.position.longitude }
  | .latitude =>
      { target with
        position.latitude := source.position.latitude }
  | .timestamp =>
      { target with
        position.timestamp := source.position.timestamp }
  | .sequence => { target with sequence := source.sequence }

theorem of_copied
    (source target : Sample)
    (written word : SampleWord) :
    of (copied source target written) word =
      if word = written then of source word else of target word := by
  cases written <;> cases word <;> rfl

/-- A sample is nothing but its words. -/
theorem eq_of_words
    {first second : Sample}
    (sameWords : ∀ word, of first word = of second word) :
    first = second := by
  obtain ⟨⟨longitude, latitude, timestamp⟩, sequence⟩ := first
  obtain ⟨⟨otherLongitude, otherLatitude, otherTimestamp⟩, otherSequence⟩ :=
    second
  cases sameWords .longitude
  cases sameWords .latitude
  cases sameWords .timestamp
  cases sameWords .sequence
  rfl

end SampleWord

/-! ## What is seen of a cache -/

/-- What a step shows. -/
inductive Sighting where
  /-- An update returned this sample. -/
  | returned (ticket : Nat) (sample : Sample)
  | read (reader ticket : Nat) (sample : Sample)
  | readNothing (reader : Nat)
  | hasData (reader : Nat) (answer : Bool)
  | latestSequence (reader : Nat) (answer : Nat)
  | looked (ticket : Nat) (word : SampleWord) (value : SampleWord.Value)

namespace Sighting

def returned? : Sighting → Option Sample
  | .returned _ sample => some sample
  | _ => none

/-- The sample that is given, and its ticket. -/
def given? : Sighting → Option (Nat × Sample)
  | .returned ticket sample => some (ticket, sample)
  | .read _ ticket sample => some (ticket, sample)
  | _ => none

/-- The number that somebody is shown. -/
def number? : Sighting → Option Nat
  | .returned _ sample => some sample.sequence
  | .read _ _ sample => some sample.sequence
  | .latestSequence _ answer => some answer
  | _ => none

/-- Whether somebody is shown that there is data. -/
def data? : Sighting → Option Bool
  | .returned _ _ => some true
  | .read _ _ _ => some true
  | .readNothing _ => some false
  | .hasData _ answer => some answer
  | .latestSequence _ answer => some (0 < answer)
  | .looked _ _ _ => none

/-- The reader who is answered. -/
def reader? : Sighting → Option Nat
  | .read reader _ _ => some reader
  | .readNothing reader => some reader
  | .hasData reader _ => some reader
  | .latestSequence reader _ => some reader
  | _ => none

/-- A cache shows this when it is asked. -/
def ShownBy (cache : Cache) : Sighting → Prop
  | .returned _ sample => cache.latest = some sample
  | .read _ _ sample => cache.latest = some sample
  | .readNothing _ => cache.latest = none
  | .hasData _ answer => answer = cache.hasData
  | .latestSequence _ answer => answer = cache.latestSequence
  | .looked _ _ _ => True

/-- Every number that is shown is the number of updates. -/
theorem ShownBy.number
    {positions : List Position}
    {sighting : Sighting}
    (shown : sighting.ShownBy (Cache.ofUpdates positions))
    {number : Nat}
    (isNumber : sighting.number? = some number) :
    number = positions.length := by
  cases sighting with
  | returned ticket sample | read reader ticket sample =>
      cases isNumber
      exact (Cache.latest_ofUpdates_eq_some_iff.mp shown).2
  | latestSequence reader answer =>
      cases isNumber
      exact shown.trans (Cache.latestSequence_ofUpdates positions)
  | readNothing | hasData | looked =>
      cases isNumber

/-- There is data as soon as there was an update. -/
theorem ShownBy.data
    {positions : List Position}
    {sighting : Sighting}
    (shown : sighting.ShownBy (Cache.ofUpdates positions))
    {data : Bool}
    (isData : sighting.data? = some data) :
    data = decide (0 < positions.length) := by
  have counted := Cache.latest_ofUpdates positions
  cases sighting with
  | returned ticket sample | read reader ticket sample =>
      cases isData
      cases positions with
      | nil =>
          simp [ShownBy, counted] at shown
      | cons =>
          simp
  | readNothing reader =>
      cases isData
      cases positions with
      | nil =>
          simp
      | cons =>
          simp [ShownBy, counted] at shown
  | hasData reader answer =>
      cases isData
      rw [show data = _ from shown, Cache.hasData, counted]
      cases positions <;> simp
  | latestSequence reader answer =>
      cases isData
      rw [show answer = _ from shown, Cache.latestSequence_ofUpdates]
  | looked =>
      cases isData

/-- A sample that is given is one of the updates. -/
theorem ShownBy.recorded
    {positions : List Position}
    {sighting : Sighting}
    (shown : sighting.ShownBy (Cache.ofUpdates positions))
    {given : Nat × Sample}
    (isGiven : sighting.given? = some given) :
    given.2.RecordedIn positions := by
  cases sighting with
  | returned ticket sample | read reader ticket sample =>
      cases isGiven
      exact Sample.RecordedIn.of_latest shown
  | readNothing | hasData | latestSequence | looked =>
      cases isGiven

end Sighting

/-! ## Single steps -/

/-- A cache that is updated and read in single steps. -/
structure AtomicCache where
  cache : Cache
  /-- What the last update stored, as long as it has not returned. -/
  answer : Option Sample
  /-- The copies that were given and not thrown away, by their tickets. -/
  copies : List (Nat × Sample)
  issued : Nat

/-- A step of a cache that is updated and read in single steps. -/
inductive AtomicMove where
  | update (position : Position)
  /-- The update returns. -/
  | answer
  | read (reader : Nat)
  | hasData (reader : Nat)
  | latestSequence (reader : Nat)
  | look (ticket : Nat) (word : SampleWord)
  | letGo (ticket : Nat)

namespace AtomicCache

def begin : AtomicCache := ⟨.empty, none, [], 0⟩

def copy? (atomic : AtomicCache) (ticket : Nat) : Option (Nat × Sample) :=
  atomic.copies.find? (·.1 = ticket)

def give (atomic : AtomicCache) (sample : Sample) : AtomicCache :=
  { atomic with
    copies := atomic.copies ++ [(atomic.issued, sample)]
    issued := atomic.issued + 1 }

/-- The cache after a step.  There is one writer, so an update waits for the one
before to return. -/
def move (atomic : AtomicCache) : AtomicMove → AtomicCache
  | .update position =>
      match atomic.answer with
      | none =>
          { atomic with
            cache := atomic.cache.update position
            answer := some (atomic.cache.nextSample position) }
      | some _ => atomic
  | .answer =>
      match atomic.answer with
      | some sample => { atomic.give sample with answer := none }
      | none => atomic
  | .read _ =>
      match atomic.cache.latest with
      | some sample => atomic.give sample
      | none => atomic
  | .letGo ticket =>
      { atomic with copies := atomic.copies.eraseP (·.1 = ticket) }
  | _ => atomic

def sees (atomic : AtomicCache) : AtomicMove → Option Sighting
  | .answer => atomic.answer.map (.returned atomic.issued)
  | .read reader =>
      match atomic.cache.latest with
      | some sample => some (.read reader atomic.issued sample)
      | none => some (.readNothing reader)
  | .hasData reader => some (.hasData reader atomic.cache.hasData)
  | .latestSequence reader =>
      some (.latestSequence reader atomic.cache.latestSequence)
  | .look ticket word =>
      (atomic.copy? ticket).map fun copy =>
        .looked ticket word (SampleWord.of copy.2 word)
  | _ => none

/-- The position that a step stores. -/
def stores (atomic : AtomicCache) : AtomicMove → Option Position
  | .update position =>
      match atomic.answer with
      | none => some position
      | some _ => none
  | _ => none

def moves (atomic : AtomicCache) (steps : List AtomicMove) : AtomicCache :=
  steps.foldl move atomic

def seen (atomic : AtomicCache) (steps : List AtomicMove) : List Sighting :=
  Run.yielded move (fun atomic next => (atomic.sees next).toList) atomic steps

/-- The positions that steps store, in order. -/
def positions (atomic : AtomicCache) (steps : List AtomicMove) :
    List Position :=
  Run.yielded move (fun atomic next => (atomic.stores next).toList) atomic steps

attribute [simp] move

variable {atomic : AtomicCache} {steps : List AtomicMove} {next : AtomicMove}

@[simp] theorem moves_concat :
    atomic.moves (steps ++ [next]) = (atomic.moves steps).move next := by
  simp [moves]

@[simp] theorem seen_concat :
    atomic.seen (steps ++ [next]) =
      atomic.seen steps ++ ((atomic.moves steps).sees next).toList :=
  Run.yielded_concat ..

@[simp] theorem positions_concat :
    atomic.positions (steps ++ [next]) =
      atomic.positions steps ++ ((atomic.moves steps).stores next).toList :=
  Run.yielded_concat ..

theorem filterMap_seen_concat
    (select : Sighting → Option α) :
    (atomic.seen (steps ++ [next])).filterMap select =
      (atomic.seen steps).filterMap select ++
        (((atomic.moves steps).sees next).bind select).toList := by
  rw [seen_concat, List.filterMap_append, Run.filterMap_toList]

/-! ## Steps -/

/-- A step stores the position it stores. -/
theorem cache_move :
    (atomic.move next).cache =
      (atomic.stores next).elim atomic.cache atomic.cache.update := by
  cases next with
  | update position =>
      cases answered : atomic.answer <;> simp [move, stores, answered]
  | answer =>
      cases answered : atomic.answer <;> simp [move, stores, give, answered]
  | read reader =>
      cases held : atomic.cache.latest <;> simp [move, stores, give, held]
  | hasData | latestSequence | look | letGo =>
      rfl

/-- What an update stored, it returns. -/
theorem answer_move
    (atomic : AtomicCache)
    (next : AtomicMove) :
    atomic.answer.toList ++
        ((atomic.stores next).map atomic.cache.nextSample).toList =
      ((atomic.sees next).bind Sighting.returned?).toList ++
        (atomic.move next).answer.toList := by
  cases next with
  | update position =>
      cases answered : atomic.answer <;>
        simp [move, stores, sees, answered]
  | answer =>
      cases answered : atomic.answer <;>
        simp [move, stores, sees, answered, Sighting.returned?]
  | read reader =>
      cases held : atomic.cache.latest <;>
        simp [move, stores, sees, give, held, Sighting.returned?]
  | look ticket word =>
      cases found : atomic.copy? ticket <;>
        simp [move, stores, sees, found, Sighting.returned?]
  | hasData | latestSequence | letGo =>
      simp [move, stores, sees, Sighting.returned?]

/-- Tickets are given in order. -/
theorem issued_move :
    List.range (atomic.move next).issued =
      List.range atomic.issued ++
        (((atomic.sees next).bind Sighting.given?).map Prod.fst).toList := by
  cases next with
  | update position =>
      cases answered : atomic.answer <;> simp [move, sees, answered]
  | answer =>
      cases answered : atomic.answer <;>
        simp [move, sees, give, answered, Sighting.given?, List.range_succ]
  | read reader =>
      cases held : atomic.cache.latest <;>
        simp [move, sees, give, held, Sighting.given?, List.range_succ]
  | look ticket word =>
      cases found : atomic.copy? ticket <;>
        simp [move, sees, found, Sighting.given?]
  | hasData | latestSequence | letGo =>
      simp [move, sees, Sighting.given?]

/-- Every copy was there before or is given. -/
theorem mem_copies_move
    {copy : Nat × Sample}
    (member : copy ∈ (atomic.move next).copies) :
    copy ∈ atomic.copies ∨
      (atomic.sees next).bind Sighting.given? = some copy := by
  cases next with
  | update position =>
      cases answered : atomic.answer <;>
        exact Or.inl (by simpa [move, answered] using member)
  | answer =>
      cases answered : atomic.answer with
      | none =>
          exact Or.inl (by simpa [move, answered] using member)
      | some sample =>
          simp only [move, answered, give, List.mem_append,
            List.mem_singleton] at member
          refine member.imp id ?_
          rintro rfl
          simp [sees, answered, Sighting.given?]
  | read reader =>
      cases held : atomic.cache.latest with
      | none =>
          exact Or.inl (by simpa [move, held] using member)
      | some sample =>
          simp only [move, held, give, List.mem_append,
            List.mem_singleton] at member
          refine member.imp id ?_
          rintro rfl
          simp [sees, held, Sighting.given?]
  | letGo ticket =>
      exact Or.inl (List.mem_of_mem_eraseP member)
  | hasData | latestSequence | look =>
      exact Or.inl member

/-- Whoever looks at a copy sees a word of it. -/
theorem copy_of_looked
    {ticket : Nat}
    {word : SampleWord}
    {value : SampleWord.Value}
    (looked : atomic.sees next = some (.looked ticket word value)) :
    ∃ sample,
      (ticket, sample) ∈ atomic.copies ∧ value = SampleWord.of sample word := by
  cases next with
  | look asked place =>
      obtain ⟨⟨found, sample⟩, isFound, same⟩ :=
        Option.map_eq_some_iff.mp looked
      cases same
      have sameTicket : found = ticket := by
        simpa using List.find?_some isFound
      subst sameTicket
      exact ⟨sample, List.mem_of_find?_eq_some isFound, rfl⟩
  | answer =>
      cases answered : atomic.answer <;> simp [sees, answered] at looked
  | read reader =>
      cases held : atomic.cache.latest <;> simp [sees, held] at looked
  | update | hasData | latestSequence | letGo =>
      cases looked

/-- Everybody is shown what the cache holds, and so is the caller of an update
that has yet to return. -/
theorem shownBy_sees
    (isLatest : ∀ sample ∈ atomic.answer, atomic.cache.latest = some sample)
    {sighting : Sighting}
    (isSeen : atomic.sees next = some sighting) :
    sighting.ShownBy atomic.cache := by
  cases next with
  | answer =>
      obtain ⟨sample, answered, rfl⟩ := Option.map_eq_some_iff.mp isSeen
      exact isLatest sample answered
  | read reader =>
      cases held : atomic.cache.latest <;>
        simp only [sees, held] at isSeen <;>
        cases isSeen <;>
        exact held
  | look ticket word =>
      obtain ⟨copy, _, rfl⟩ := Option.map_eq_some_iff.mp isSeen
      trivial
  | hasData | latestSequence =>
      cases isSeen
      rfl
  | update | letGo =>
      cases isSeen

/-- What has yet to be returned is what the cache holds. -/
theorem answer_isLatest_move
    (isLatest : ∀ sample ∈ atomic.answer, atomic.cache.latest = some sample) :
    ∀ sample ∈ (atomic.move next).answer,
      (atomic.move next).cache.latest = some sample := by
  intro sample answers
  cases next with
  | update position =>
      cases answered : atomic.answer with
      | none =>
          simpa [move, answered] using answers
      | some stored =>
          simp only [move, answered] at answers ⊢
          exact isLatest sample (answered ▸ answers)
  | answer =>
      cases answered : atomic.answer <;> simp [move, answered] at answers
  | read reader =>
      cases held : atomic.cache.latest <;>
        simp only [move, held, give] at answers ⊢ <;>
        simpa [held] using isLatest sample answers
  | hasData | latestSequence | look | letGo =>
      exact isLatest sample answers

/-! ## Runs -/

/-- The cache holds what was stored. -/
theorem cache_moves
    (steps : List AtomicMove) :
    (begin.moves steps).cache = Cache.ofUpdates (begin.positions steps) := by
  induction steps using List.reverseRecOn with
  | nil =>
      rfl
  | append_singleton steps next inductionHypothesis =>
      rw [moves_concat, positions_concat, cache_move, inductionHypothesis]
      cases (begin.moves steps).stores next <;> simp

theorem answer_isLatest
    (steps : List AtomicMove) :
    ∀ sample ∈ (begin.moves steps).answer,
      (begin.moves steps).cache.latest = some sample := by
  induction steps using List.reverseRecOn with
  | nil =>
      simp [moves, begin]
  | append_singleton steps next inductionHypothesis =>
      rw [moves_concat]
      exact answer_isLatest_move inductionHypothesis

/-- Updates return what positions become, and the last may have yet to. -/
theorem returned_seen
    (steps : List AtomicMove) :
    (begin.seen steps).filterMap Sighting.returned? ++
        (begin.moves steps).answer.toList =
      Cache.history (begin.positions steps) := by
  induction steps using List.reverseRecOn with
  | nil =>
      rfl
  | append_singleton steps next inductionHypothesis =>
      have step := answer_move (begin.moves steps) next
      have stored :
          Cache.history (begin.positions (steps ++ [next])) =
            Cache.history (begin.positions steps) ++
              (((begin.moves steps).stores next).map
                (begin.moves steps).cache.nextSample).toList := by
        rw [positions_concat, cache_moves]
        cases (begin.moves steps).stores next <;> simp
      rw [stored, ← inductionHypothesis, List.append_assoc, step,
        filterMap_seen_concat, moves_concat, List.append_assoc]

/-- No ticket is given twice. -/
theorem tickets_seen
    (steps : List AtomicMove) :
    ((begin.seen steps).filterMap Sighting.given?).map Prod.fst =
      List.range (begin.moves steps).issued := by
  induction steps using List.reverseRecOn with
  | nil =>
      rfl
  | append_singleton steps next inductionHypothesis =>
      rw [filterMap_seen_concat, List.map_append, inductionHypothesis,
        moves_concat, issued_move, Option.toList_map]

/-- Every copy was given. -/
theorem mem_given_of_mem_copies
    {steps : List AtomicMove}
    {copy : Nat × Sample}
    (member : copy ∈ (begin.moves steps).copies) :
    copy ∈ (begin.seen steps).filterMap Sighting.given? := by
  induction steps using List.reverseRecOn with
  | nil =>
      simp [moves, begin] at member
  | append_singleton steps next inductionHypothesis =>
      rw [filterMap_seen_concat, List.mem_append]
      rw [moves_concat] at member
      rcases mem_copies_move member with before | given
      · exact Or.inl (inductionHypothesis before)
      · exact Or.inr (by simp [given])

/-- What is seen in a copy is a word of the sample that was given. -/
theorem looked_seen
    {steps : List AtomicMove}
    {ticket : Nat}
    {word : SampleWord}
    {value : SampleWord.Value}
    (looked : .looked ticket word value ∈ begin.seen steps) :
    ∃ sample,
      (ticket, sample) ∈ (begin.seen steps).filterMap Sighting.given? ∧
        value = SampleWord.of sample word := by
  induction steps using List.reverseRecOn with
  | nil =>
      cases looked
  | append_singleton steps next inductionHypothesis =>
      rw [filterMap_seen_concat]
      rw [seen_concat, List.mem_append, Option.mem_toList] at looked
      rcases looked with before | now
      · obtain ⟨sample, given, same⟩ := inductionHypothesis before
        exact ⟨sample, List.mem_append_left _ given, same⟩
      · obtain ⟨sample, member, same⟩ := copy_of_looked now
        exact ⟨sample,
          List.mem_append_left _ (mem_given_of_mem_copies member), same⟩

/-- Whatever is seen was so after some of the updates. -/
theorem shown_seen
    {steps : List AtomicMove}
    {sighting : Sighting}
    (isSeen : sighting ∈ begin.seen steps) :
    ∃ earlier,
      earlier <+: begin.positions steps ∧
        sighting.ShownBy (Cache.ofUpdates earlier) := by
  induction steps using List.reverseRecOn with
  | nil =>
      cases isSeen
  | append_singleton steps next inductionHypothesis =>
      rw [positions_concat]
      rw [seen_concat, List.mem_append, Option.mem_toList] at isSeen
      rcases isSeen with before | now
      · obtain ⟨earlier, isEarlier, shown⟩ := inductionHypothesis before
        exact ⟨earlier, isEarlier.trans (List.prefix_append _ _), shown⟩
      · refine ⟨_, List.prefix_append _ _, ?_⟩
        rw [← cache_moves]
        exact shownBy_sees (answer_isLatest steps) now

/-- What is seen later is so after as many updates or more. -/
theorem pairwise_seen
    (steps : List AtomicMove) :
    (begin.seen steps).Pairwise fun first second =>
      ∃ earlier later : List Position,
        earlier <+: later ∧
          first.ShownBy (Cache.ofUpdates earlier) ∧
          second.ShownBy (Cache.ofUpdates later) := by
  induction steps using List.reverseRecOn with
  | nil =>
      exact List.Pairwise.nil
  | append_singleton steps next inductionHypothesis =>
      rw [seen_concat, List.pairwise_append]
      refine ⟨inductionHypothesis, ?_, ?_⟩
      · cases (begin.moves steps).sees next <;> simp
      · intro first isSeen second now
        obtain ⟨earlier, isEarlier, shown⟩ := shown_seen isSeen
        refine ⟨earlier, begin.positions steps, isEarlier, shown, ?_⟩
        rw [← cache_moves]
        exact shownBy_sees (answer_isLatest steps) (Option.mem_toList.mp now)

/-- The numbers that are seen never fall. -/
theorem numbers_ascend
    (steps : List AtomicMove) :
    ((begin.seen steps).filterMap Sighting.number?).Pairwise (· ≤ ·) := by
  rw [List.pairwise_filterMap]
  refine (pairwise_seen steps).imp ?_
  rintro first second ⟨earlier, later, isEarlier, shown, shownLater⟩
    number isNumber laterNumber isLaterNumber
  rw [shown.number isNumber, shownLater.number isLaterNumber]
  exact isEarlier.length_le

/-- Data that is seen is never missed later. -/
theorem data_stays
    (steps : List AtomicMove) :
    ((begin.seen steps).filterMap Sighting.data?).Pairwise (· ≤ ·) := by
  rw [List.pairwise_filterMap]
  refine (pairwise_seen steps).imp ?_
  rintro first second ⟨earlier, later, isEarlier, shown, shownLater⟩
    data isData laterData isLaterData
  rw [shown.data isData, shownLater.data isLaterData]
  have longer := isEarlier.length_le
  intro nonempty
  simp only [decide_eq_true_eq] at nonempty ⊢
  omega

/-- Every sample that is given is one of the updates. -/
theorem given_recorded
    {steps : List AtomicMove}
    {given : Nat × Sample}
    (isGiven : given ∈ (begin.seen steps).filterMap Sighting.given?) :
    given.2.RecordedIn (begin.positions steps) := by
  obtain ⟨sighting, isSeen, gives⟩ := List.mem_filterMap.mp isGiven
  obtain ⟨earlier, ⟨later, split⟩, shown⟩ := shown_seen isSeen
  rw [← split]
  exact (shown.recorded gives).append later

end AtomicCache

end PositionFeed
