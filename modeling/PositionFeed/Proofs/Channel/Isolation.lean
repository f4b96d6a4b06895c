import PositionFeed.Proofs.Channel.Hub

namespace PositionFeed

/-!
# A distributor among others

What a distributor does depends on what enters the cache and on what its own
sink says, and on nothing else.  So the moves of a hub can be cut down to the
inputs of one of its distributors: the updates, and the ticks of this
distributor with what its sink would say.  Which moves these are can be read off
the list, before anything runs.  The distributor alone, driven by its inputs,
shows the same outcomes, and the cache holds the same samples.

Two runs with the same inputs of a distributor are therefore the same to it,
whatever the others do in them, and however many others there are.  Only the
time of the day is left open: it makes the ages of samples differ, and nothing
that is shown here.
-/

namespace Distributor

/-- Two distributors of one policy with the same cursor and the same counters.
Their names and the ages of their samples may differ. -/
structure Alike (first second : Distributor) : Prop where
  policy : first.policy = second.policy
  cursor : first.cursor = second.cursor
  counters : first.counters = second.counters

namespace Alike

variable
  {first second : Distributor}

theorem decide
    (alike : Alike first second)
    (latest : Option Sample)
    (audience : Bool) :
    first.decide latest audience = second.decide latest audience := by
  unfold Distributor.decide
  rw [alike.policy, alike.cursor]

theorem restWith
    (alike : Alike first second)
    (outcome : TickOutcome) :
    Alike (first.restWith outcome) (second.restWith outcome) where
  policy := alike.policy
  cursor := alike.cursor
  counters := congrArg (·.record outcome) alike.counters

theorem refused
    (alike : Alike first second) :
    Alike first.refused second.refused where
  policy := alike.policy
  cursor := alike.cursor
  counters := congrArg Counters.fail alike.counters

theorem accepted
    (alike : Alike first second)
    (now later : Int64)
    (sample : Sample) :
    Alike (first.accepted now sample) (second.accepted later sample) where
  policy := alike.policy
  cursor := rfl
  counters :=
    congrArg (·.record (.forwarded sample.sequence)) alike.counters

end Alike

/-- What a tick shows. -/
structure TickShown where
  /-- What it came to, or why its sample was refused. -/
  result : Except Fault TickOutcome
  /-- The sample that the sink took. -/
  accepted : Option Sample
  /-- The cursor after it. -/
  cursor : Nat
  /-- The counters after it. -/
  counters : Counters

/-- What a tick of a distributor shows. -/
def tickShown
    (distributor : Distributor)
    (latest : Option Sample)
    (audience : Bool)
    (now : Int64)
    (answer : Sample → Except Fault Unit) :
    TickShown :=
  let ticked := distributor.tick latest audience now answer
  { result := ticked.2.1
    accepted := distributor.accepts latest audience answer
    cursor := ticked.1.cursor
    counters := ticked.1.counters }

end Distributor

/-- Ticks of two distributors that are alike show the same and leave them
alike, if their sinks say the same.  The time of the day does not matter. -/
theorem Distributor.Alike.tick
    {first second : Distributor}
    (alike : Alike first second)
    (latest : Option Sample)
    (audience : Bool)
    (now later : Int64)
    (answer : Sample → Except Fault Unit) :
    first.tickShown latest audience now answer =
        second.tickShown latest audience later answer ∧
      Alike (first.tick latest audience now answer).1
        (second.tick latest audience later answer).1 := by
  have decision := alike.decide latest audience
  simp only [tickShown, Distributor.tick, Distributor.accepts, ← decision]
  cases first.decide latest audience with
  | rest outcome =>
      have after := alike.restWith outcome
      exact ⟨by simp only [settleRest, after.cursor, after.counters], after⟩
  | handOff sample =>
      dsimp only
      cases answer sample with
      | ok taken =>
          have after := alike.accepted now later sample
          exact ⟨by simp only [settle, after.cursor, after.counters], after⟩
      | error fault =>
          have after := alike.refused
          exact ⟨by simp only [settle, after.cursor, after.counters], after⟩

/-- What the moves of a hub bring to one of its distributors. -/
inductive Input where
  /-- A position enters the cache. -/
  | update (position : Position)
  /-- The distributor ticks; its sink says whether anybody listens and what
  becomes of a sample. -/
  | tick (audience : Bool) (answer : Sample → Except Fault Unit)

/-- The move of a hub with one distributor that an input comes to. -/
def Input.toMove : Input → HubMove
  | .update position => .update position
  | .tick audience answer => .tick 0 audience 0 answer

/-- What a move brings to the distributor at a place. -/
def HubMove.input? (place : Nat) : HubMove → Option Input
  | .update position => some (.update position)
  | .tick ticking audience _ answer =>
      if ticking = place then some (.tick audience answer) else none

/-- What one move of a hub shows of one distributor and the cache. -/
inductive Shown where
  /-- The cache holds this sample now. -/
  | stored (sample : Sample)
  /-- The distributor ticked. -/
  | ticked (shown : Distributor.TickShown)

namespace Hub

/-- What moves bring to the distributor at a place. -/
def inputs (place : Nat) (list : List HubMove) : List Input :=
  list.filterMap (HubMove.input? place)

/-- What a move shows of the distributor at a place and of the cache. -/
def shows (hub : Hub) (place : Nat) : HubMove → Option Shown
  | .update position => some (.stored (hub.cache.nextSample position))
  | .tick ticking audience now answer =>
      if ticking = place then
        hub.distributors[place]?.map fun distributor =>
          .ticked (distributor.tickShown hub.cache.latest audience now answer)
      else none

/-- What a run shows of the distributor at a place and of the cache. -/
def shown (place : Nat) (hub : Hub) (list : List HubMove) : List Shown :=
  Run.yielded move (fun hub next => (hub.shows place next).toList) hub list

/-- A hub with only one distributor mirrors the one at a place of another
hub. -/
structure Mirrors (place : Nat) (hub alone : Hub) : Prop where
  cache :
    alone.cache = hub.cache
  distributors :
    ∃ distributor double,
      hub.distributors[place]? = some distributor ∧
        alone.distributors = [double] ∧ distributor.Alike double

namespace Mirrors

variable
  {place : Nat}
  {hub alone : Hub}

theorem begin
    (plans : List (String × ForwardPolicy))
    (place : Fin plans.length)
    {double : String × ForwardPolicy}
    (samePolicy : plans[place].2 = double.2) :
    Mirrors place (Hub.begin plans) (Hub.begin [double]) where
  cache := rfl
  distributors :=
    ⟨.begin plans[place].1 plans[place].2, .begin double.1 double.2,
      by simp [Hub.begin], rfl, ⟨samePolicy, rfl, rfl⟩⟩

/-- A move that brings nothing to the distributor leaves it mirrored. -/
theorem skip
    (mirrors : Mirrors place hub alone)
    {next : HubMove}
    (elsewhere : next.input? place = none) :
    hub.shows place next = none ∧ Mirrors place (hub.move next) alone := by
  obtain ⟨sameCache, distributor, double, found, isDouble, alike⟩ := mirrors
  cases next with
  | update position =>
      simp [HubMove.input?] at elsewhere
  | tick ticking audience now answer =>
      have other : ticking ≠ place := by
        rintro rfl
        simp [HubMove.input?] at elsewhere
      refine ⟨by simp [shows, other], ?_⟩
      cases isOther : hub.distributors[ticking]? with
      | none =>
          simp only [move, isOther]
          exact ⟨sameCache, distributor, double, found, isDouble, alike⟩
      | some _ =>
          simp only [move, isOther]
          exact ⟨sameCache, distributor, double,
            by simpa [List.getElem?_set_ne other] using found, isDouble, alike⟩

/-- A move that brings something to the distributor shows the same of its
double. -/
theorem follow
    (mirrors : Mirrors place hub alone)
    {next : HubMove}
    {input : Input}
    (brings : next.input? place = some input) :
    hub.shows place next = alone.shows 0 input.toMove ∧
      Mirrors place (hub.move next) (alone.move input.toMove) := by
  obtain ⟨sameCache, distributor, double, found, isDouble, alike⟩ := mirrors
  obtain ⟨inBounds, _⟩ := List.getElem?_eq_some_iff.mp found
  cases next with
  | update position =>
      obtain rfl : Input.update position = input := by
        simpa [HubMove.input?] using brings
      refine ⟨by simp only [shows, Input.toMove, sameCache], ?_⟩
      exact ⟨by simp only [move, Input.toMove, sameCache],
        distributor, double, found, isDouble, alike⟩
  | tick ticking audience now answer =>
      by_cases same : ticking = place
      · subst ticking
        obtain rfl : Input.tick audience answer = input := by
          simpa [HubMove.input?] using brings
        obtain ⟨sameShown, after⟩ :=
          alike.tick hub.cache.latest audience now 0 answer
        constructor
        · simp [shows, Input.toMove, found, isDouble, sameCache, sameShown]
        · refine ⟨?_, _, _, ?_, ?_, after⟩
          · simp [move, Input.toMove, found, isDouble, sameCache]
          · simp only [move, found]
            simp [inBounds]
          · simp [move, Input.toMove, isDouble, sameCache]
      · simp [HubMove.input?, same] at brings

/-- A distributor alone, driven by its inputs in a run among others, shows what
it shows there. -/
theorem run
    (mirrors : Mirrors place hub alone)
    (list : List HubMove) :
    let solo := (inputs place list).map Input.toMove
    hub.shown place list = alone.shown 0 solo ∧
      Mirrors place (hub.moves list) (alone.moves solo) := by
  induction list generalizing hub alone with
  | nil =>
      exact ⟨rfl, mirrors⟩
  | cons next rest inductionHypothesis =>
      cases brings : next.input? place with
      | none =>
          obtain ⟨nothing, after⟩ := mirrors.skip brings
          obtain ⟨sameLater, afterAll⟩ := inductionHypothesis after
          have passes : inputs place (next :: rest) = inputs place rest :=
            List.filterMap_cons_none brings
          have shown :
              hub.shown place (next :: rest) =
                (hub.move next).shown place rest := by
            simp [Hub.shown, Run.yielded, nothing]
          rw [passes, shown]
          exact ⟨sameLater, afterAll⟩
      | some input =>
          obtain ⟨sameNow, after⟩ := mirrors.follow brings
          obtain ⟨sameLater, afterAll⟩ := inductionHypothesis after
          have enters :
              inputs place (next :: rest) = input :: inputs place rest :=
            List.filterMap_cons_some brings
          have shown :
              hub.shown place (next :: rest) =
                (hub.shows place next).toList ++
                  (hub.move next).shown place rest := rfl
          rw [enters, shown, sameNow, sameLater]
          exact ⟨rfl, afterAll⟩

end Mirrors

/-- Two runs with the same updates and the same ticks of a distributor, in the
same order and with the same answers of its sink, show the same of it and leave
the same in the cache, whatever other distributors there are and whatever they
do. -/
theorem every_run_keeps_distributors_apart
    (plans others : List (String × ForwardPolicy))
    (place : Fin plans.length)
    (otherPlace : Fin others.length)
    (list otherList : List HubMove)
    (samePolicy : plans[place].2 = others[otherPlace].2)
    (sameInputs : inputs place list = inputs otherPlace otherList) :
    shown place (begin plans) list =
        shown otherPlace (begin others) otherList ∧
      ((begin plans).moves list).cache =
        ((begin others).moves otherList).cache := by
  have mirrors := Mirrors.begin plans place rfl
  have otherMirrors := Mirrors.begin others otherPlace samePolicy.symm
  obtain ⟨sameAlone, after⟩ := mirrors.run list
  obtain ⟨otherSameAlone, otherAfter⟩ := otherMirrors.run otherList
  rw [← sameInputs] at otherSameAlone otherAfter
  exact ⟨sameAlone.trans otherSameAlone.symm,
    after.cache.symm.trans otherAfter.cache⟩

/-- A distributor that waits for an audience, and another whose sink refuses
everything. -/
def troubledMoves : List HubMove :=
  [.tick 1 true 5 fun _ => .error (.other "down"),
    .update ⟨0.5, -0.25, 7⟩, .tick 0 false 8 fun _ => .ok (),
    .tick 1 true 9 fun _ => .error (.other "down"),
    .tick 0 true 10 fun _ => .error (.other "late"), .update ⟨1.5, -1.25, 17⟩,
    .tick 1 false 18 fun _ => .error (.other "down"),
    .tick 0 true 20 fun _ => .ok ()]

/-- The same without the other distributor, at other times of the day. -/
def quietMoves : List HubMove :=
  [.update ⟨0.5, -0.25, 7⟩, .tick 0 false 1 fun _ => .ok (),
    .tick 0 true 2 fun _ => .error (.other "late"), .update ⟨1.5, -1.25, 17⟩,
    .tick 0 true 3 fun _ => .ok ()]

theorem troubledMoves_kept_apart :
    let plans : List (String × ForwardPolicy) :=
      [("push", .requireAudience), ("bus", .always)]
    let others : List (String × ForwardPolicy) := [("push", .requireAudience)]
    inputs 0 troubledMoves = inputs 0 quietMoves ∧
      shown 0 (begin plans) troubledMoves =
        shown 0 (begin others) quietMoves ∧
      ((begin plans).moves troubledMoves).cache =
        ((begin others).moves quietMoves).cache := by
  intro plans others
  have same : inputs 0 troubledMoves = inputs 0 quietMoves := rfl
  exact ⟨same, every_run_keeps_distributors_apart plans others
    ⟨0, by decide⟩ ⟨0, by decide⟩ troubledMoves quietMoves rfl same⟩

end Hub

end PositionFeed
