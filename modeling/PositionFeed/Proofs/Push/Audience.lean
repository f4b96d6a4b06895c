import PositionFeed.Channel.Basic
import PositionFeed.Proofs.Channel.Accounts
import PositionFeed.Proofs.Channel.Handoff
import PositionFeed.Proofs.Push.Broadcast

namespace PositionFeed

/-!
# The two looks of a push tick at its audience

A tick of a push channel meets its clients twice.  Before it hands a sample
over it looks whether any client is registered, if its policy wants to know,
and the broadcast then finds out who still receives.  In between clients come
and go.  So a sample is handed over if somebody receives at the second look,
and a tick that found only registered clients at the first one may still fail.
By then the broadcast has removed them all, and the next look finds nobody.
-/

/-- An outlet whose server has these clients. -/
def PushOutlet.facing (outlet : PushOutlet) (registry : Registry) :
    PushOutlet :=
  { outlet with server := { outlet.server with registry := registry } }

/-- A tick of a push channel, with what happens to its clients before it looks
at its audience and between this look and its broadcast. -/
structure PushTick where
  /-- What the tick begins with. -/
  distributor : Distributor
  outlet : PushOutlet
  /-- What holds the newest sample. -/
  cache : Cache
  network : Network
  /-- The moment of the tick. -/
  now : Int64
  /-- The calls before the look at the audience. -/
  earlier : List RegistryMove
  /-- The calls between this look and the broadcast. -/
  between : List RegistryMove

namespace PushTick

/-- The clients that the look at the audience finds. -/
def checked (tick : PushTick) : Registry :=
  (Registry.empty tick.outlet.name).moves tick.earlier

/-- The clients that a broadcast meets. -/
def met (tick : PushTick) : Registry :=
  tick.checked.moves tick.between

/-- What the tick finds to do. -/
def decision (tick : PushTick) : Decision :=
  Channel.decide ⟨tick.distributor, .push (tick.outlet.facing tick.checked)⟩
    tick.cache

/-- What the tick comes to. -/
def settled (tick : PushTick) : Channel × Except Fault TickOutcome × List Event :=
  Channel.carryOut tick.network tick.now tick.decision
    ⟨tick.distributor, .push (tick.outlet.facing tick.met)⟩

/-- The distributor after the tick. -/
def after (tick : PushTick) : Distributor := tick.settled.1.distributor

/-- What the tick answers. -/
def result (tick : PushTick) : Except Fault TickOutcome := tick.settled.2.1

/-- The clients that the tick leaves. -/
def left (tick : PushTick) : Registry :=
  match tick.settled.1.outlet with
  | .push outlet => outlet.server.registry
  | _ => tick.met

/-- A sample that the tick tries to hand over: it is newer than the cursor, and
somebody is registered if that is required. -/
structure IsDue (tick : PushTick) (sample : Sample) : Prop where
  isLatest : tick.cache.latest = some sample
  isNewer : tick.distributor.cursor < sample.sequence
  isAllowed :
    tick.distributor.policy = .requireAudience → tick.checked.size ≠ 0

/-- A sample is due, and of the clients that its broadcast meets somebody still
receives, with room for it or without. -/
def IsHeard (tick : PushTick) : Prop :=
  (∃ sample, tick.IsDue sample) ∧ tick.met.living ≠ []

variable
  {tick : PushTick}
  {sample : Sample}

/-- A tick that nothing interrupts is the tick of its channel. -/
theorem settled_of_uninterrupted
    (uninterrupted : tick.between = []) :
    tick.settled =
      Channel.tick tick.network tick.now tick.cache
        ⟨tick.distributor, .push (tick.outlet.facing tick.checked)⟩ := by
  have same : tick.met = tick.checked := by
    rw [met, uninterrupted]
    rfl
  rw [settled, same]
  rfl

theorem decision_eq_handOff_iff :
    tick.decision = .handOff sample ↔ tick.IsDue sample := by
  have audience :
      (tick.outlet.facing tick.checked).hasAudience = true ↔
        tick.checked.size ≠ 0 := by
    simp [PushOutlet.hasAudience, PushOutlet.facing, Registry.isEmpty]
  have decided := @Distributor.decide_eq_handOff_iff tick.distributor
    tick.cache.latest (tick.outlet.facing tick.checked).hasAudience sample
  rw [audience] at decided
  refine decided.trans ⟨?_, ?_⟩
  · rintro ⟨isLatest, isNewer, isAllowed⟩
    exact ⟨isLatest, isNewer, isAllowed⟩
  · rintro ⟨isLatest, isNewer, isAllowed⟩
    exact ⟨isLatest, isNewer, isAllowed⟩

/-- How a tick can go. -/
inductive Goes (tick : PushTick) : Prop where
  /-- It rests, and says why. -/
  | rests
      (outcome : TickOutcome)
      (nothingDue : ∀ sample, ¬ tick.IsDue sample)
      (forwardsNothing : outcome.label ≠ .forwarded)
      (after : tick.after = tick.distributor.restWith outcome)
      (result : tick.result = .ok outcome)
      (left : tick.left = tick.met)
  /-- It hands a sample over. -/
  | forwards
      (sample : Sample)
      (due : tick.IsDue sample)
      (heard : tick.met.living ≠ [])
      (after : tick.after = tick.distributor.accepted tick.now sample)
      (result : tick.result = .ok (.forwarded sample.sequence))
      (left : tick.left = (tick.met.broadcast (.ofSample sample)).2.1)
  /-- It finds nobody to hand it to. -/
  | fails
      (sample : Sample)
      (due : tick.IsDue sample)
      (unheard : tick.met.living = [])
      (after : tick.after = tick.distributor.refused)
      (result : ∃ fault, tick.result = .error fault)
      (left : tick.left = (tick.met.broadcast (.ofSample sample)).2.1)

theorem numbered_met (tick : PushTick) : tick.met.Numbered :=
  Registry.numbered_moves
    (Registry.numbered_reached tick.outlet.name tick.earlier) tick.between

/-- What a tick that tries to hand a sample over comes to. -/
theorem settled_of_handOff
    {answer : Except Fault Unit}
    (decides : tick.decision = .handOff sample)
    (answers : ((tick.outlet.facing tick.met).send sample).2.1 = answer) :
    tick.after = (tick.distributor.settle tick.now sample answer).1 ∧
      tick.result = (tick.distributor.settle tick.now sample answer).2.1 ∧
        tick.left = (tick.met.broadcast (.ofSample sample)).2.1 := by
  rw [← answers]
  simp only [after, result, left, settled, decides]
  exact ⟨rfl, rfl, rfl⟩

/-- A decision to rest is never for a sample that was forwarded. -/
theorem label_of_rest
    {outcome : TickOutcome}
    (decides : tick.decision = .rest outcome) :
    outcome.label ≠ .forwarded := by
  intro same
  rw [decision, Channel.decide] at decides
  unfold Distributor.decide at decides
  split at decides
  · cases decides
    cases same
  · split at decides
    · cases decides
      cases same
    · split at decides
      · cases decides
        cases same
      · cases decides

theorem goes (tick : PushTick) : tick.Goes := by
  cases decides : tick.decision with
  | rest outcome =>
      have settled :
          tick.settled =
            (⟨tick.distributor.restWith outcome,
                .push (tick.outlet.facing tick.met)⟩, .ok outcome,
              [.measure (.tick tick.distributor.name outcome.label)]) := by
        rw [settled, decides]
        rfl
      refine .rests outcome ?_ (label_of_rest decides) ?_ ?_ ?_
      · intro sample due
        rw [← decision_eq_handOff_iff, decides] at due
        cases due
      · rw [after, settled]
      · rw [result, settled]
      · rw [left, settled]
        rfl
  | handOff sample =>
      have due := decision_eq_handOff_iff.mp decides
      have audience :=
        Registry.audience_broadcast tick.numbered_met (.ofSample sample)
      by_cases unheard : tick.met.living = []
      · have answers :
            ((tick.outlet.facing tick.met).send sample).2.1 =
              .error (.transportSend tick.outlet.name "no connected clients") := by
          refine if_pos ?_
          exact audience.trans (List.length_eq_zero_iff.mpr unheard)
        obtain ⟨after, result, left⟩ := settled_of_handOff decides answers
        exact .fails sample due unheard after ⟨_, result⟩ left
      · have answers :
            ((tick.outlet.facing tick.met).send sample).2.1 = .ok () := by
          refine if_neg fun nobody => unheard ?_
          exact List.length_eq_zero_iff.mp (audience.symm.trans nobody)
        obtain ⟨after, result, left⟩ := settled_of_handOff decides answers
        exact .forwards sample due unheard after result left

/-! ## What stays as it is -/

/-- A tick that only counts itself. -/
structure Keeps (tick : PushTick) : Prop where
  policy : tick.after.policy = tick.distributor.policy
  cursor : tick.after.cursor = tick.distributor.cursor
  /-- How old samples were. -/
  ages : tick.after.ages = tick.distributor.ages
  /-- What waits for the clients. -/
  queues : ∀ number, tick.left.waiting number = tick.met.waiting number
  /-- One counter grows, and not the one of what was forwarded. -/
  counters :
    ∃ label : TickLabel, label ≠ .forwarded ∧
      tick.after.counters.lastForwarded =
          tick.distributor.counters.lastForwarded ∧
        ∀ other,
          tick.after.counters.endedAs other =
            tick.distributor.counters.endedAs other +
              if label = other then 1 else 0

/-- A tick that rests counts why. -/
theorem Keeps.of_rest
    {outcome : TickOutcome}
    (forwardsNothing : outcome.label ≠ .forwarded)
    (after : tick.after = tick.distributor.restWith outcome)
    (left : tick.left = tick.met) :
    tick.Keeps where
  policy := by
    rw [after]
    rfl
  cursor := by
    rw [after]
    rfl
  ages := by
    rw [after]
    rfl
  queues := by
    intro number
    rw [left]
  counters := by
    refine ⟨outcome.label, forwardsNothing, ?_, fun other => ?_⟩
    · rw [after]
      cases outcome with
      | forwarded sequence =>
          exact absurd rfl forwardsNothing
      | _ =>
          rfl
    · rw [after]
      exact Counters.endedAs_record _ outcome other

/-- A tick that fails counts that, and its broadcast reaches no queue. -/
theorem Keeps.of_failure
    (unheard : tick.met.living = [])
    (after : tick.after = tick.distributor.refused)
    (left : tick.left = (tick.met.broadcast (.ofSample sample)).2.1) :
    tick.Keeps where
  policy := by
    rw [after]
    rfl
  cursor := by
    rw [after]
    rfl
  ages := by
    rw [after]
    rfl
  queues := by
    intro number
    rw [left, Registry.waiting_broadcast_eq tick.numbered_met, unheard]
    exact List.append_nil _
  counters := by
    refine ⟨.failed, nofun, ?_, fun other => ?_⟩
    · rw [after]
      rfl
    · rw [after]
      exact Counters.endedAs_fail _ other

/-- A tick that nobody hears keeps everything. -/
theorem keeps_of_not_heard
    (unheard : ¬ tick.IsHeard) :
    tick.Keeps := by
  cases tick.goes with
  | rests outcome nothingDue forwardsNothing after result left =>
      exact .of_rest forwardsNothing after left
  | forwards sample due heard after result left =>
      exact absurd ⟨⟨sample, due⟩, heard⟩ unheard
  | fails sample due nobody after result left =>
      exact .of_failure nobody after left

/-- A tick that somebody hears hands the sample over that is due. -/
theorem after_of_heard
    (due : tick.IsDue sample)
    (heard : tick.met.living ≠ []) :
    tick.after = tick.distributor.accepted tick.now sample ∧
      tick.result = .ok (.forwarded sample.sequence) ∧
      tick.left = (tick.met.broadcast (.ofSample sample)).2.1 := by
  cases tick.goes with
  | rests outcome nothingDue forwardsNothing after result left =>
      exact absurd due (nothingDue sample)
  | forwards other otherDue heard after result left =>
      have same : other = sample :=
        Option.some.inj (otherDue.isLatest.symm.trans due.isLatest)
      subst other
      exact ⟨after, result, left⟩
  | fails other otherDue nobody after result left =>
      exact absurd nobody heard

/-- A tick fails if a sample is due and nobody receives. -/
theorem fails_iff :
    (∃ fault, tick.result = .error fault) ↔
      (∃ sample, tick.IsDue sample) ∧ tick.met.living = [] := by
  cases tick.goes with
  | rests outcome nothingDue forwardsNothing after result left =>
      rw [result]
      constructor
      · rintro ⟨fault, isError⟩
        cases isError
      · rintro ⟨⟨sample, due⟩, nobody⟩
        exact absurd due (nothingDue sample)
  | forwards sample due heard after result left =>
      rw [result]
      constructor
      · rintro ⟨fault, isError⟩
        cases isError
      · rintro ⟨_, nobody⟩
        exact absurd nobody heard
  | fails sample due nobody after result left =>
      exact iff_of_true result ⟨⟨sample, due⟩, nobody⟩

/-! ## After a handoff that failed -/

/-- Another tick of the same channel, before which no client comes. -/
structure Follows (next tick : PushTick) : Prop where
  distributor : next.distributor = tick.after
  /-- Positions may have entered the cache. -/
  cache :
    ∃ positions : List Position,
      next.cache = positions.foldl Cache.update tick.cache
  /-- Of the clients that were left, some may have gone. -/
  clients :
    ∃ later : List RegistryMove,
      .connect ∉ later ∧ next.checked = tick.left.moves later

/-- The newest sample stays as new as it is while positions enter a cache. -/
theorem exists_latest_of_updates
    {cache : Cache}
    {number : Nat}
    (holds : ∃ sample, cache.latest = some sample ∧ number < sample.sequence)
    (positions : List Position) :
    ∃ sample, (positions.foldl Cache.update cache).latest = some sample ∧
      number < sample.sequence := by
  induction positions generalizing cache with
  | nil =>
      exact holds
  | cons position rest inductionHypothesis =>
      obtain ⟨sample, isLatest, newer⟩ := holds
      refine inductionHypothesis ⟨cache.nextSample position, rfl, ?_⟩
      simp only [Cache.nextSample, Cache.latestSequence, isLatest,
        Option.elim_some]
      omega

/-- While nobody is registered, a tick that requires an audience finds none. -/
theorem result_of_nobody
    (nobody : tick.checked.size = 0)
    (requires : tick.distributor.policy = .requireAudience)
    (fresh : ∃ sample, tick.cache.latest = some sample ∧
      tick.distributor.cursor < sample.sequence) :
    tick.result = .ok .noAudience := by
  obtain ⟨sample, isLatest, isNewer⟩ := fresh
  have unheard : (tick.outlet.facing tick.checked).hasAudience = false := by
    simp [PushOutlet.hasAudience, PushOutlet.facing, Registry.isEmpty, nobody]
  have decides : tick.decision = .rest .noAudience := by
    rw [decision, Channel.decide]
    simp [Distributor.decide, isLatest, isNewer, requires, Outlet.hasAudience,
      unheard]
  rw [result, settled, decides]
  rfl

/-- What is left of a tick that failed: the same sample is due, and nobody is
registered. -/
theorem left_of_failure
    (failed : ∃ fault, tick.result = .error fault) :
    tick.left.Numbered ∧ tick.left.roster = [] := by
  cases tick.goes with
  | rests outcome nothingDue forwardsNothing after result left =>
      obtain ⟨fault, isError⟩ := failed
      rw [result] at isError
      cases isError
  | forwards sample due heard after result left =>
      obtain ⟨fault, isError⟩ := failed
      rw [result] at isError
      cases isError
  | fails sample due nobody after result left =>
      rw [left]
      refine ⟨Registry.numbered_broadcast tick.numbered_met _, ?_⟩
      rw [Registry.roster_broadcast_eq_living tick.numbered_met, nobody]
      rfl

/-- While no client comes, the tick after one that failed finds nobody. -/
theorem result_of_follows
    {next : PushTick}
    (failed : ∃ fault, tick.result = .error fault)
    (requires : tick.distributor.policy = .requireAudience)
    (follows : next.Follows tick) :
    next.result = .ok .noAudience := by
  obtain ⟨⟨sample, due⟩, nobody⟩ := fails_iff.mp failed
  obtain ⟨numbered, empty⟩ := left_of_failure failed
  obtain ⟨positions, cache⟩ := follows.cache
  obtain ⟨later, noneComes, checked⟩ := follows.clients
  have kept := keeps_of_not_heard fun heard => heard.2 nobody
  refine result_of_nobody ?_ ?_ ?_
  · rw [checked, ← Registry.length_roster,
      Registry.roster_moves_of_nobody numbered empty noneComes]
    rfl
  · rw [follows.distributor, kept.policy, requires]
  · rw [cache, follows.distributor, kept.cursor]
    exact exists_latest_of_updates ⟨sample, due.isLatest, due.isNewer⟩ positions

/-- What a tick of a push channel owes to its clients and to its accounts. -/
structure Settles (tick : PushTick) : Prop where
  /-- The cursor moves for a sample that is due while somebody receives. -/
  moves :
    tick.distributor.cursor < tick.after.cursor ↔ tick.IsHeard
  /-- The sample waits last where there was room, and nowhere else. -/
  forwards :
    ∀ sample, tick.IsDue sample → tick.met.living ≠ [] →
      tick.after.cursor = sample.sequence ∧
        tick.result = .ok (.forwarded sample.sequence) ∧
        ∀ number,
          tick.left.waiting number =
            tick.met.waiting number ++
              if number ∈ (tick.met.living.filter Client.hasRoom).map
                Client.number
              then [.ofSample sample] else []
  /-- In all other cases it only counts itself. -/
  keeps :
    ¬ tick.IsHeard → tick.Keeps
  /-- It fails if a sample is due and nobody receives. -/
  fails :
    (∃ fault, tick.result = .error fault) ↔
      (∃ sample, tick.IsDue sample) ∧ tick.met.living = []
  /-- Then no client is left. -/
  clears :
    (∃ fault, tick.result = .error fault) → tick.left.size = 0
  /-- And while none comes, a tick that requires an audience says so. -/
  next :
    (∃ fault, tick.result = .error fault) →
      tick.distributor.policy = .requireAudience →
        ∀ next : PushTick, next.Follows tick → next.result = .ok .noAudience

/-- Whatever clients come, go, read or stop reading before a tick looks at its
audience and before it broadcasts, it hands a sample over exactly when one is
due and somebody receives, and otherwise it only counts itself. -/
theorem every_tick_settles (tick : PushTick) : tick.Settles where
  moves := by
    constructor
    · intro moved
      by_contra unheard
      exact Nat.ne_of_gt moved (keeps_of_not_heard unheard).cursor
    · rintro ⟨⟨sample, due⟩, heard⟩
      rw [(after_of_heard due heard).1]
      exact due.isNewer
  forwards := by
    intro sample due heard
    obtain ⟨after, result, left⟩ := after_of_heard due heard
    refine ⟨by rw [after]; rfl, result, fun number => ?_⟩
    rw [left]
    exact Registry.waiting_broadcast_eq tick.numbered_met _ number
  keeps := keeps_of_not_heard
  fails := fails_iff
  clears := by
    intro failed
    rw [← Registry.length_roster, (left_of_failure failed).2]
    rfl
  next := fun failed requires _ follows =>
    result_of_follows failed requires follows

/-- The only client is registered when the tick looks, and stops receiving
before the broadcast. -/
example :
    let tick : PushTick :=
      { distributor := .begin "push" .requireAudience
        outlet := ⟨"push", (Server.start "push" ⟨0, []⟩ .empty).1⟩
        cache := Cache.empty.update ⟨0, 0, 0⟩
        network := .willing
        now := 0
        earlier := [.connect]
        between := [.dropReceiver 1] }
    tick.result = .error (.transportSend "push" "no connected clients") ∧
      tick.left.size = 0 := by
  decide

end PushTick

end PositionFeed
