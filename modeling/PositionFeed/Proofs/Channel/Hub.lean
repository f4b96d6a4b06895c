import PositionFeed.Proofs.Channel.Handoff
import PositionFeed.Proofs.Run

namespace PositionFeed

/-!
# Distributors around one cache

A hub is one cache with any number of distributors.  It moves when a position
enters the cache and when a distributor ticks; who listens and what a sink
answers is part of the move, so a list of moves is a run against sinks that may
do anything.

After every run each distributor has handed on samples with ascending numbers,
each of them the newest at its tick, and it is stale exactly while nothing has
entered the cache since its last handoff.
-/

/-- One cache and the distributors that read it. -/
structure Hub where
  /-- The cache. -/
  cache : Cache
  /-- The distributors. -/
  distributors : List Distributor

/-- What happens to a hub. -/
inductive HubMove where
  /-- A position enters the cache. -/
  | update (position : Position)
  /-- The distributor at a place ticks; its sink says whether anybody listens
  and what becomes of a sample. -/
  | tick (place : Nat) (audience : Bool) (now : Int64)
      (answer : Sample → Except Fault Unit)

/-- The position that a move brings into the cache. -/
def HubMove.position? : HubMove → Option Position
  | .update position => some position
  | .tick .. => none

namespace Hub

/-- A hub with an empty cache, and distributors with these names and policies
that have not ticked. -/
def begin (plans : List (String × ForwardPolicy)) : Hub where
  cache := .empty
  distributors := plans.map fun plan => Distributor.begin plan.1 plan.2

/-- What a move makes of a hub. -/
def move (hub : Hub) : HubMove → Hub
  | .update position => { hub with cache := hub.cache.update position }
  | .tick place audience now answer =>
      match hub.distributors[place]? with
      | none => hub
      | some distributor =>
          { hub with
            distributors := hub.distributors.set place
              (distributor.tick hub.cache.latest audience now answer).1 }

/-- Makes moves one after the other. -/
def moves (hub : Hub) (list : List HubMove) : Hub :=
  list.foldl move hub

/-- The positions that moves bring into the cache. -/
def updates (list : List HubMove) : List Position :=
  list.filterMap HubMove.position?

/-- The sample that the sink of the distributor at a place takes in a move. -/
def accepts (hub : Hub) (place : Nat) : HubMove → Option Sample
  | .update _ => none
  | .tick ticking audience _ answer =>
      if ticking = place then
        hub.distributors[place]?.bind fun distributor =>
          distributor.accepts hub.cache.latest audience answer
      else none

/-- The samples that the sink of the distributor at a place takes. -/
def accepted (place : Nat) (hub : Hub) (list : List HubMove) : List Sample :=
  Run.yielded move (fun hub next => (hub.accepts place next).toList) hub list

/-- Nothing has entered the cache since the sink of the distributor at a place
last took a sample, and it has taken one. -/
def CaughtUp (hub : Hub) (place : Nat) (list : List HubMove) : Prop :=
  ∃ earlier move later sample,
    list = earlier ++ move :: later ∧
      (hub.moves earlier).accepts place move = some sample ∧
      updates later = []

@[simp] theorem moves_nil (hub : Hub) : hub.moves [] = hub := rfl

@[simp] theorem moves_concat
    (hub : Hub)
    (list : List HubMove)
    (next : HubMove) :
    hub.moves (list ++ [next]) = (hub.moves list).move next := by
  simp [moves]

@[simp] theorem updates_concat
    (list : List HubMove)
    (next : HubMove) :
    updates (list ++ [next]) = updates list ++ next.position?.toList :=
  Run.filterMap_concat _ list next

/-- What a sink took in a run with one more move. -/
theorem accepted_concat
    (place : Nat)
    (hub : Hub)
    (list : List HubMove)
    (next : HubMove) :
    hub.accepted place (list ++ [next]) =
      hub.accepted place list ++
        ((hub.moves list).accepts place next).toList :=
  Run.yielded_concat _ _ hub list next

/-- The cache of a hub depends on the updates alone. -/
theorem cache_moves
    (plans : List (String × ForwardPolicy))
    (list : List HubMove) :
    ((begin plans).moves list).cache = .ofUpdates (updates list) := by
  induction list using List.reverseRecOn with
  | nil =>
      rfl
  | append_singleton list next inductionHypothesis =>
      cases next with
      | update position =>
          simp [move, HubMove.position?, inductionHypothesis]
      | tick place audience now answer =>
          cases found : ((begin plans).moves list).distributors[place]? <;>
            simp [move, found, HubMove.position?, inductionHypothesis]

/-- A move leaves a distributor where it is, or ticks it once. -/
theorem distributor_move
    {hub : Hub}
    {place : Nat}
    {distributor : Distributor}
    (found : hub.distributors[place]? = some distributor)
    (next : HubMove) :
    (hub.accepts place next = none ∧
        (hub.move next).distributors[place]? = some distributor) ∨
      ∃ audience now answer,
        next = .tick place audience now answer ∧
          hub.accepts place next =
            distributor.accepts hub.cache.latest audience answer ∧
          (hub.move next).distributors[place]? =
            some (distributor.tick hub.cache.latest audience now answer).1 := by
  obtain ⟨inBounds, _⟩ := List.getElem?_eq_some_iff.mp found
  cases next with
  | update position =>
      exact .inl ⟨rfl, found⟩
  | tick ticking audience now answer =>
      by_cases same : ticking = place
      · subst ticking
        refine .inr ⟨audience, now, answer, rfl, ?_, ?_⟩
        · simp [accepts, found]
        · simp only [move, found]
          simp [inBounds]
      · refine .inl ⟨by simp [accepts, same], ?_⟩
        cases other : hub.distributors[ticking]? with
        | none =>
            simpa [move, other] using found
        | some _ =>
            simpa [move, other, List.getElem?_set_ne same] using found

/-- Whether a distributor is caught up after one more move. -/
theorem caughtUp_concat
    (hub : Hub)
    (place : Nat)
    (list : List HubMove)
    (next : HubMove) :
    hub.CaughtUp place (list ++ [next]) ↔
      ((hub.moves list).accepts place next).isSome ∨
        (hub.CaughtUp place list ∧ next.position? = none) := by
  constructor
  · rintro ⟨earlier, move, later, sample, shape, taken, quiet⟩
    rcases List.eq_nil_or_concat' later with rfl | ⟨between, last, rfl⟩
    · obtain ⟨rfl, sameMove⟩ := List.append_inj' shape rfl
      simp only [List.cons.injEq, and_true] at sameMove
      subst sameMove
      exact .inl (by simp [taken])
    · rw [← List.cons_append, ← List.append_assoc] at shape
      obtain ⟨rfl, sameMove⟩ := List.append_inj' shape rfl
      simp only [List.cons.injEq, and_true] at sameMove
      subst sameMove
      simp only [updates_concat, List.append_eq_nil_iff] at quiet
      exact .inr ⟨⟨earlier, move, between, sample, rfl, taken, quiet.1⟩,
        by simpa using quiet.2⟩
  · rintro (taken | ⟨⟨earlier, move, later, sample, rfl, taken, quiet⟩, idle⟩)
    · obtain ⟨sample, taken⟩ := Option.isSome_iff_exists.mp taken
      exact ⟨list, next, [], sample, rfl, taken, rfl⟩
    · exact ⟨earlier, move, later ++ [next], sample, by simp, taken,
        by simp [quiet, idle]⟩

/-- What a run leaves of one distributor: a right ledger, and a cursor at the
number of updates exactly while it is caught up. -/
structure Tracks
    (hub : Hub)
    (place : Nat)
    (list : List HubMove)
    (distributor : Distributor) : Prop where
  found :
    (hub.moves list).distributors[place]? = some distributor
  ledger :
    Ledger (updates list) distributor.cursor (hub.accepted place list)
  caughtUp_iff :
    hub.CaughtUp place list ↔
      updates list ≠ [] ∧ distributor.cursor = (updates list).length

/-- A distributor that is tracked stays tracked over one more move. -/
theorem Tracks.concat
    {plans : List (String × ForwardPolicy)}
    {place : Nat}
    {list : List HubMove}
    {distributor : Distributor}
    (tracks : (begin plans).Tracks place list distributor)
    (next : HubMove) :
    ∃ after, (begin plans).Tracks place (list ++ [next]) after := by
  rcases distributor_move tracks.found next with
    ⟨taken, stays⟩ | ⟨audience, now, answer, rfl, taken, ticked⟩
  · refine ⟨distributor, by simpa using stays, ?_, ?_⟩
    · rw [accepted_concat, taken, updates_concat]
      simpa using tracks.ledger.update next.position?.toList
    · rw [caughtUp_concat, taken, tracks.caughtUp_iff, updates_concat]
      cases next.position? with
      | none =>
          simp
      | some position =>
          have := tracks.ledger.cursor_le
          simp
          omega
  · rw [cache_moves] at taken ticked
    refine ⟨_, by simpa using ticked, ?_, ?_⟩
    · rw [accepted_concat, taken, updates_concat]
      simpa [HubMove.position?] using
        tracks.ledger.tick audience now answer
    · rw [caughtUp_concat, taken, tracks.caughtUp_iff, updates_concat,
        Distributor.cursor_tick]
      cases handed : distributor.accepts
          (Cache.ofUpdates (updates list)).latest audience answer with
      | none =>
          simp [HubMove.position?]
      | some sample =>
          have decision := (Distributor.accepts_eq_some_iff.mp handed).1
          obtain ⟨held, _⟩ := Distributor.decide_eq_handOff_iff.mp decision
          obtain ⟨isLast, numbered⟩ :=
            Cache.latest_ofUpdates_eq_some_iff.mp held
          have nonempty : updates list ≠ [] := by
            intro empty
            simp [empty] at isLast
          simp [HubMove.position?, nonempty, numbered]

/-- Every distributor of a hub is tracked through every run. -/
theorem exists_tracks
    (plans : List (String × ForwardPolicy))
    (place : Fin plans.length)
    (list : List HubMove) :
    ∃ distributor, (begin plans).Tracks place list distributor := by
  induction list using List.reverseRecOn with
  | nil =>
      refine ⟨Distributor.begin plans[place].1 plans[place].2, ?_, .begin, ?_⟩
      · simp [begin]
      · simp [CaughtUp, updates]
  | append_singleton list next inductionHypothesis =>
      obtain ⟨distributor, tracks⟩ := inductionHypothesis
      exact tracks.concat next

/-- Whatever a sink takes is the newest sample at that moment. -/
theorem accepts_newest
    {plans : List (String × ForwardPolicy)}
    {place : Nat}
    {list : List HubMove}
    {next : HubMove}
    {sample : Sample}
    (taken : ((begin plans).moves list).accepts place next = some sample) :
    (updates list).getLast? = some sample.position ∧
      sample.sequence = (updates list).length := by
  cases next with
  | update position =>
      simp [accepts] at taken
  | tick ticking audience now answer =>
      by_cases same : ticking = place
      · simp only [accepts, same, ↓reduceIte, Option.bind_eq_some_iff]
          at taken
        obtain ⟨distributor, _, taken⟩ := taken
        have decision := (Distributor.accepts_eq_some_iff.mp taken).1
        obtain ⟨held, _⟩ := Distributor.decide_eq_handOff_iff.mp decision
        rw [cache_moves] at held
        exact Cache.latest_ofUpdates_eq_some_iff.mp held
      · simp [accepts, same] at taken

/-- What is promised of the distributor at a place after any run. -/
structure Delivers
    (hub : Hub)
    (place : Nat)
    (list : List HubMove)
    (distributor : Distributor) : Prop where
  /-- The numbers of the samples that its sink took ascend strictly. -/
  ascending :
    ((hub.accepted place list).map Sample.sequence).Pairwise (· < ·)
  /-- Its sink took no sample twice. -/
  once :
    (hub.accepted place list).Nodup
  /-- Each sample that its sink took was the newest at that tick: its number
  is the number of updates so far, its position the one of the last update. -/
  newest :
    ∀ earlier next later sample,
      list = earlier ++ next :: later →
      (hub.moves earlier).accepts place next = some sample →
      (hub.moves earlier).cache.latest = some sample ∧
        sample.sequence = (updates earlier).length ∧
        (updates earlier).getLast? = some sample.position
  /-- Its cursor is the number of the last sample that its sink took. -/
  cursorIsLast :
    distributor.cursor =
      (hub.accepted place list).getLast?.elim 0 Sample.sequence
  /-- Its cursor is not ahead of the cache. -/
  cursor_le :
    distributor.cursor ≤ (hub.moves list).cache.latestSequence
  /-- Its next tick answers that it forwarded a sample exactly if its sink takes
  that sample. -/
  forwarded_iff :
    ∀ audience now answer sequence,
      (distributor.tick (hub.moves list).cache.latest audience now
          answer).2.1 = .ok (.forwarded sequence) ↔
        ∃ sample,
          (hub.moves list).accepts place (.tick place audience now answer) =
              some sample ∧
            sample.sequence = sequence
  /-- Its next tick is stale exactly if there was an update and none since its
  sink last took a sample. -/
  stale_iff :
    ∀ audience now answer,
      (distributor.tick (hub.moves list).cache.latest audience now
          answer).2.1 = .ok .stale ↔
        updates list ≠ [] ∧ hub.CaughtUp place list

/-- In every run of a hub every distributor hands on newest samples, each of
them once and in order, and is stale only when there is nothing newer. -/
theorem every_run_delivers
    (plans : List (String × ForwardPolicy))
    (place : Fin plans.length)
    (list : List HubMove) :
    ∃ distributor,
      ((begin plans).moves list).distributors[place.val]? =
          some distributor ∧
        (begin plans).Delivers place list distributor := by
  obtain ⟨distributor, tracks⟩ := exists_tracks plans place list
  refine ⟨distributor, tracks.found, ?_⟩
  have ledger := tracks.ledger
  refine {
    ascending := ledger.ascending
    once := ?_
    newest := ?_
    cursorIsLast := ledger.cursorIsLast
    cursor_le := ?_
    forwarded_iff := ?_
    stale_iff := ?_
  }
  · refine List.Pairwise.of_map Sample.sequence ?_ ledger.ascending
    rintro first second below rfl
    omega
  · rintro earlier next later sample rfl taken
    obtain ⟨isLast, numbered⟩ := accepts_newest taken
    rw [cache_moves]
    exact ⟨Cache.latest_ofUpdates_eq_some_iff.mpr ⟨isLast, numbered⟩,
      numbered, isLast⟩
  · rw [cache_moves, Cache.latestSequence_ofUpdates]
    exact ledger.cursor_le
  · intro audience now answer sequence
    rw [Distributor.tick_eq_forwarded_iff]
    simp [accepts, tracks.found]
  · intro audience now answer
    have bound := ledger.cursor_le
    rw [Distributor.tick_eq_stale_iff, Distributor.decide_eq_stale_iff,
      cache_moves, tracks.caughtUp_iff, Cache.latest_ofUpdates]
    rcases List.eq_nil_or_concat' (updates list) with
      empty | ⟨before, last, shape⟩
    · simp [empty]
    · simp only [shape, List.length_append, List.length_singleton] at bound ⊢
      simp
      omega

end Hub

end PositionFeed
