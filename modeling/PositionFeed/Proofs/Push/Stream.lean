import PositionFeed.Channel.Basic
import PositionFeed.Proofs.Channel.Handoff
import PositionFeed.Proofs.Push.Traffic
import PositionFeed.Proofs.Run

namespace PositionFeed

/-!
# What one client sees of a push channel

A feed is a cache with one push channel.  Ticks are taken apart, because
positions enter the cache and clients come, go and read between any two of
their steps: a tick reads the cache, looks whether anybody listens, and then
carries out what it decided.

The frames that a client took, and after them the frames that wait for it, are
always those of some of the samples that were handed over, in the order in
which they were handed over.  So a client may miss samples, but it sees none
twice and none late.
-/

/-- How far a tick has come. -/
inductive TickPhase where
  /-- No tick is going on. -/
  | idle
  /-- It has read the cache. -/
  | read (latest : Option Sample)
  /-- It has decided what to do. -/
  | decided (decision : Decision)

/-- A cache with one push channel. -/
structure Feed where
  /-- The cache. -/
  cache : Cache
  /-- The channel. -/
  channel : Channel
  /-- How far its tick has come. -/
  phase : TickPhase

/-- What happens to a feed. -/
inductive FeedMove where
  /-- A position enters the cache. -/
  | update (position : Position)
  /-- A tick begins and reads the cache. -/
  | read
  /-- A tick looks whether anybody listens and decides. -/
  | decide
  /-- A tick carries out what it decided. -/
  | carryOut (network : Network) (now : Int64)
  /-- Something happens to the push server, whose stop token may be
  cancelled. -/
  | server (stopped : Bool) (move : ServerMove)

/-- The position that a move brings into the cache. -/
def FeedMove.position? : FeedMove → Option Position
  | .update position => some position
  | _ => none

namespace Feed

/-- A feed before its first move, under a name, with a policy and a server
whose stop token is a child of the given one. -/
def begin
    (name : String)
    (policy : ForwardPolicy)
    (parent : Token)
    (tokens : Tokens) : Feed where
  cache := .empty
  channel :=
    { distributor := .begin name policy
      outlet := .push ⟨name, (Server.start name parent tokens).1⟩ }
  phase := .idle

/-- What a move of its server makes of a channel. -/
def moveServer
    (stopped : Bool)
    (next : ServerMove)
    (channel : Channel) : Channel :=
  match channel.outlet with
  | .push outlet =>
      { channel with
        outlet := .push
          { outlet with server := (outlet.server.move stopped next).1 } }
  | _ => channel

/-- What a move makes of a feed.  A step of a tick that is not due changes
nothing. -/
def move (feed : Feed) : FeedMove → Feed
  | .update position => { feed with cache := feed.cache.update position }
  | .read =>
      match feed.phase with
      | .idle => { feed with phase := .read feed.cache.latest }
      | _ => feed
  | .decide =>
      match feed.phase with
      | .read latest =>
          { feed with
            phase := .decided
              (feed.channel.distributor.decide latest
                feed.channel.outlet.hasAudience) }
      | _ => feed
  | .carryOut network now =>
      match feed.phase with
      | .decided decision =>
          { feed with
            channel := (feed.channel.carryOut network now decision).1
            phase := .idle }
      | _ => feed
  | .server stopped next =>
      { feed with channel := moveServer stopped next feed.channel }

/-- Makes moves one after the other. -/
def moves (feed : Feed) (list : List FeedMove) : Feed :=
  list.foldl move feed

/-- The positions that moves bring into the cache. -/
def updates (list : List FeedMove) : List Position :=
  list.filterMap FeedMove.position?

/-- The frames that a client takes in a move. -/
def takes (feed : Feed) (number : Nat) : FeedMove → List Frame
  | .server _ next =>
      match feed.channel.outlet with
      | .push outlet => outlet.server.takes number next
      | _ => []
  | _ => []

/-- The frames that a client takes in a run. -/
def taken (number : Nat) (feed : Feed) (list : List FeedMove) : List Frame :=
  Run.yielded move (fun feed next => feed.takes number next) feed list

/-- The steps of a tick that nothing interrupts are a tick. -/
theorem moves_tick
    {feed : Feed}
    (idle : feed.phase = .idle)
    (network : Network)
    (now : Int64) :
    feed.moves [.read, .decide, .carryOut network now] =
      { feed with channel := (feed.channel.tick network now feed.cache).1 } := by
  simp [moves, move, idle, Channel.tick, Channel.decide]

@[simp] theorem moves_concat
    (feed : Feed)
    (list : List FeedMove)
    (next : FeedMove) :
    feed.moves (list ++ [next]) = (feed.moves list).move next := by
  simp [moves]

@[simp] theorem updates_concat
    (list : List FeedMove)
    (next : FeedMove) :
    updates (list ++ [next]) = updates list ++ next.position?.toList :=
  Run.filterMap_concat _ list next

theorem taken_concat
    (number : Nat)
    (feed : Feed)
    (list : List FeedMove)
    (next : FeedMove) :
    taken number feed (list ++ [next]) =
      taken number feed list ++ (feed.moves list).takes number next :=
  Run.yielded_concat _ _ feed list next

/-- What a tick in progress holds is a sample of the cache, and one that it
decided to hand over is newer than the cursor. -/
def PhaseIsCurrent
    (positions : List Position)
    (cursor : Nat) :
    TickPhase → Prop
  | .idle => True
  | .read latest => ∀ sample, latest = some sample → sample.RecordedIn positions
  | .decided (.rest _) => True
  | .decided (.handOff sample) =>
      sample.RecordedIn positions ∧ cursor < sample.sequence

/-- A feed after these positions entered its cache and a client took these
frames. -/
structure Shows
    (feed : Feed)
    (positions : List Position)
    (number : Nat)
    (seen : List Frame)
    (outlet : PushOutlet)
    (handedOver : List Sample) : Prop where
  cacheIs :
    feed.cache = .ofUpdates positions
  outletIs :
    feed.channel.outlet = .push outlet
  phaseIsCurrent :
    PhaseIsCurrent positions feed.channel.distributor.cursor feed.phase
  ledger :
    Ledger positions feed.channel.distributor.cursor handedOver
  numbered :
    outlet.server.registry.Numbered
  inOrder :
    ((seen ++ outlet.server.registry.waiting number).filter
        Frame.isPush).Sublist (handedOver.map Frame.ofSample)

namespace Shows

/-- A feed that has not moved shows nothing. -/
theorem begin
    (name : String)
    (policy : ForwardPolicy)
    (parent : Token)
    (tokens : Tokens)
    (number : Nat) :
    (Feed.begin name policy parent tokens).Shows [] number []
      ⟨name, (Server.start name parent tokens).1⟩ [] where
  cacheIs := rfl
  outletIs := rfl
  phaseIsCurrent := trivial
  ledger := .begin
  numbered := rfl
  inOrder := List.Sublist.refl _

variable
  {feed : Feed}
  {positions : List Position}
  {number : Nat}
  {seen : List Frame}
  {outlet : PushOutlet}
  {handedOver : List Sample}

/-- A position that enters the cache changes nothing for clients. -/
theorem update
    (shows : feed.Shows positions number seen outlet handedOver)
    (position : Position) :
    (feed.move (.update position)).Shows (positions ++ [position]) number seen
      outlet handedOver where
  cacheIs := by
    simp [move, shows.cacheIs]
  outletIs := shows.outletIs
  phaseIsCurrent := by
    have current := shows.phaseIsCurrent
    simp only [move]
    cases phase : feed.phase with
    | idle =>
        trivial
    | read latest =>
        rw [phase] at current
        intro sample isLatest
        exact (current sample isLatest).append [position]
    | decided decision =>
        rw [phase] at current
        cases decision with
        | rest outcome =>
            trivial
        | handOff sample =>
            exact ⟨current.1.append [position], current.2⟩
  ledger := shows.ledger.update [position]
  numbered := shows.numbered
  inOrder := shows.inOrder

/-- Reading the cache finds a recorded sample. -/
theorem read
    (shows : feed.Shows positions number seen outlet handedOver) :
    (feed.move .read).Shows positions number seen outlet handedOver := by
  simp only [move]
  split
  · refine { shows with phaseIsCurrent := ?_ }
    intro sample held
    rw [shows.cacheIs] at held
    exact .of_latest held
  · exact shows

/-- Deciding finds a recorded sample that is newer than the cursor, or
nothing. -/
theorem decide
    (shows : feed.Shows positions number seen outlet handedOver) :
    (feed.move .decide).Shows positions number seen outlet handedOver := by
  simp only [move]
  split
  · next latest phase =>
      refine { shows with phaseIsCurrent := ?_ }
      have current := shows.phaseIsCurrent
      rw [phase] at current
      cases decision : feed.channel.distributor.decide latest
          feed.channel.outlet.hasAudience with
      | rest outcome =>
          trivial
      | handOff sample =>
          obtain ⟨isLatest, newer, _⟩ :=
            Distributor.decide_eq_handOff_iff.mp decision
          exact ⟨current sample isLatest, newer⟩
  · exact shows

/-- Whatever happens to the server, clients take only frames that were handed
over, and answers. -/
theorem server
    (shows : feed.Shows positions number seen outlet handedOver)
    (stopped : Bool)
    (next : ServerMove) :
    (feed.move (.server stopped next)).Shows positions number
      (seen ++ feed.takes number (.server stopped next))
      { outlet with server := (outlet.server.move stopped next).1 }
      handedOver := by
  have becomes := outlet.server.becomes_move stopped next
  have takesFrames :
      feed.takes number (.server stopped next) =
        outlet.server.takes number next := by
    simp only [takes, shows.outletIs]
  have moved :
      (feed.move (.server stopped next)).channel =
        { feed.channel with
          outlet := .push
            { outlet with server := (outlet.server.move stopped next).1 } } := by
    simp only [move, moveServer, shows.outletIs]
  exact {
    cacheIs := shows.cacheIs
    outletIs := by rw [moved]
    phaseIsCurrent := by
      rw [moved]
      exact shows.phaseIsCurrent
    ledger := by
      rw [moved]
      exact shows.ledger
    numbered := becomes.numbered shows.numbered
    inOrder := by
      rw [takesFrames]
      exact becomes.sublist shows.numbered shows.inOrder
  }

/-- A sample that is handed over is broadcast, and counts as handed over if
anybody heard of it. -/
theorem handOff
    (shows : feed.Shows positions number seen outlet handedOver)
    {sample : Sample}
    (phase : feed.phase = .decided (.handOff sample))
    (network : Network)
    (now : Int64) :
    ∃ handedOverAfter,
      (feed.move (.carryOut network now)).Shows positions number seen
        (outlet.send sample).1 handedOverAfter := by
  obtain ⟨recorded, newer⟩ :
      sample.RecordedIn positions ∧
        feed.channel.distributor.cursor < sample.sequence := by
    simpa [phase, PhaseIsCurrent] using shows.phaseIsCurrent
  have moved :
      feed.move (.carryOut network now) =
        { feed with
          channel :=
            { distributor :=
                (feed.channel.distributor.settle now sample
                  (outlet.send sample).2.1).1
              outlet := .push (outlet.send sample).1 }
          phase := .idle } := by
    simp only [move, phase, Channel.carryOut, shows.outletIs, Outlet.send]
  rw [moved]
  have numbered :
      (outlet.send sample).1.server.registry.Numbered :=
    Registry.numbered_broadcast shows.numbered (.ofSample sample)
  by_cases unheard :
      (outlet.server.registry.broadcast (.ofSample sample)).1.audience = 0
  · have refused :
        (outlet.send sample).2.1 =
          .error (.transportSend outlet.name "no connected clients") :=
      if_pos unheard
    have unchanged :
        (outlet.send sample).1.server.registry.waiting number =
          outlet.server.registry.waiting number :=
      Registry.waiting_broadcast_of_unheard unheard number
    rw [refused]
    exact ⟨handedOver, {
      cacheIs := shows.cacheIs
      outletIs := rfl
      phaseIsCurrent := trivial
      ledger := shows.ledger
      numbered := numbered
      inOrder := by
        rw [unchanged]
        exact shows.inOrder
    }⟩
  · have accepted : (outlet.send sample).2.1 = .ok () :=
      if_neg unheard
    have inOrder :=
      Registry.sublist_move shows.numbered shows.inOrder
        (.broadcast (.ofSample sample))
    have broadcast :
        outlet.server.registry.move (.broadcast (.ofSample sample)) =
          (outlet.send sample).1.server.registry := rfl
    rw [broadcast] at inOrder
    rw [accepted]
    exact ⟨handedOver ++ [sample], {
      cacheIs := shows.cacheIs
      outletIs := rfl
      phaseIsCurrent := trivial
      ledger := shows.ledger.accept recorded newer
      numbered := numbered
      inOrder := by
        simpa [Registry.takes, RegistryMove.frame?] using inOrder
    }⟩

/-- Carrying out what a tick decided hands over at most the one sample. -/
theorem carryOut
    (shows : feed.Shows positions number seen outlet handedOver)
    (network : Network)
    (now : Int64) :
    ∃ after handedOverAfter,
      (feed.move (.carryOut network now)).Shows positions number seen after
        handedOverAfter := by
  cases phase : feed.phase with
  | idle =>
      refine ⟨outlet, handedOver, ?_⟩
      simpa [move, phase] using shows
  | read latest =>
      refine ⟨outlet, handedOver, ?_⟩
      simpa [move, phase] using shows
  | decided decision =>
      cases decision with
      | rest outcome =>
          refine ⟨outlet, handedOver, ?_⟩
          simp only [move, phase, Channel.carryOut]
          exact { shows with phaseIsCurrent := trivial }
      | handOff sample =>
          exact ⟨_, shows.handOff phase network now⟩

/-- A feed keeps showing what it should over one more move. -/
theorem move
    (shows : feed.Shows positions number seen outlet handedOver)
    (next : FeedMove) :
    ∃ after handedOverAfter,
      (feed.move next).Shows (positions ++ next.position?.toList) number
        (seen ++ feed.takes number next) after handedOverAfter := by
  cases next with
  | update position =>
      refine ⟨outlet, handedOver, ?_⟩
      simpa [takes, FeedMove.position?] using shows.update position
  | read =>
      refine ⟨outlet, handedOver, ?_⟩
      simpa [takes, FeedMove.position?] using shows.read
  | decide =>
      refine ⟨outlet, handedOver, ?_⟩
      simpa [takes, FeedMove.position?] using shows.decide
  | carryOut network now =>
      simpa [takes, FeedMove.position?] using shows.carryOut network now
  | server stopped next =>
      have served := shows.server stopped next
      rw [← List.append_nil positions] at served
      exact ⟨_, handedOver, served⟩

end Shows

/-- A feed shows what it should after every run. -/
theorem exists_shows
    (name : String)
    (policy : ForwardPolicy)
    (parent : Token)
    (tokens : Tokens)
    (number : Nat)
    (list : List FeedMove) :
    let start := begin name policy parent tokens
    ∃ outlet handedOver,
      (start.moves list).Shows (updates list) number
        (taken number start list) outlet handedOver := by
  intro start
  induction list using List.reverseRecOn with
  | nil =>
      exact ⟨_, [], .begin name policy parent tokens number⟩
  | append_singleton list next inductionHypothesis =>
      obtain ⟨outlet, handedOver, shows⟩ := inductionHypothesis
      rw [moves_concat, updates_concat, taken_concat]
      exact shows.move next

/-- In every run of a feed the pushed frames that a client takes are those of
samples with ascending numbers, each of them the sample of the update with its
number. -/
theorem every_client_reads_in_order
    (name : String)
    (policy : ForwardPolicy)
    (parent : Token)
    (tokens : Tokens)
    (list : List FeedMove)
    (number : Nat) :
    ∃ samples : List Sample,
      (taken number (begin name policy parent tokens) list).filter
          Frame.isPush = samples.map Frame.ofSample ∧
        (samples.map Sample.sequence).Pairwise (· < ·) ∧
        ∀ sample ∈ samples, sample.RecordedIn (updates list) := by
  obtain ⟨outlet, handedOver, shows⟩ :=
    exists_shows name policy parent tokens number list
  have inOrder :
      ((taken number (begin name policy parent tokens) list).filter
        Frame.isPush).Sublist (handedOver.map Frame.ofSample) :=
    ((List.sublist_append_left _ _).filter _).trans shows.inOrder
  obtain ⟨samples, among, frames⟩ := List.sublist_map_iff.mp inOrder
  refine ⟨samples, frames, ?_, ?_⟩
  · exact shows.ledger.ascending.sublist (among.map Sample.sequence)
  · intro sample member
    exact shows.ledger.recorded sample (among.subset member)

/-- A client that is there before the first sample takes it. -/
example
    (parent : Token)
    (tokens : Tokens)
    (position : Position)
    (network : Network)
    (now : Int64) :
    taken 1 (begin "feed" .requireAudience parent tokens)
      [.server false .accept,
        .server false (.connection 0 (.handshake true)),
        .update position, .read, .decide, .carryOut network now,
        .server false (.connection 0 .take)] =
      [Frame.ofSample ⟨position, 1⟩] := rfl

end Feed

end PositionFeed
