import PositionFeed.Proofs.Pipeline.Poll

namespace PositionFeed

/-!
# One move of a pipeline

A move polls the source, polls one channel, takes a datagram, moves one push
server or triggers the stop signal; or there is nothing that it could move.
What holds of a pipeline over all moves is proved turn by turn.
-/

/-- An intake puts at most one position into the cache. -/
theorem Intake.receive_cases
    (intake : Intake)
    (cache : Cache)
    (datagram : List UInt8) :
    let received := intake.receive cache datagram
    (received.2.1 = cache ∨
        ∃ position, received.2.1 = cache.update position) ∧
      OnlyFrom .surroundings received.2.2.2 := by
  simp only [receive, handle]
  cases Record.decodePosition intake.format (datagram.take bufferSize) with
  | ok position =>
      exact ⟨.inr ⟨position, rfl⟩, by simp [OnlyFrom, measures, Measure.origin]⟩
  | error defect =>
      exact ⟨.inl rfl, by simp [OnlyFrom, measures, Measure.origin]⟩

namespace Pipeline

/-- The channel that a move polls at a position, and what it finds. -/
def pollAt
    (position : Nat)
    (pipeline : Pipeline) :
    PipelineMove → Option (RunningChannel × ChannelPoll)
  | .channel polled now clock network waits =>
      if polled = position then
        pipeline.channels[position]?.map fun running =>
          (running, ⟨pipeline.isStopping, now, clock, network, waits⟩)
      else none
  | _ => none

/-- The turns that a pipeline can take, and what is to be seen of them. -/
inductive Turn
    (wave : Wave)
    (pipeline : Pipeline) :
    PipelineMove → Pipeline → List Event → Prop where
  | idles
      {next : PipelineMove}
      (noChannel : ∀ position, pipeline.pollAt position next = none)
      (noSource : ∀ now clock loop producer,
        next = .source now clock →
          pipeline.source ≠ .producer loop producer) :
      pipeline.Turn wave next pipeline []
  | produces
      {loop : Loop}
      {producer : Producer}
      (isSource : pipeline.source = .producer loop producer)
      (due : loop.phase = .due)
      (goes : pipeline.isStopping = false)
      (now : Instant)
      (clock : Int64)
      {polled : Loop}
      {happenings : List Happening}
      (polls : loop.poll ⟨false, now, .finished (.ok ())⟩ =
        (polled, happenings)) :
      pipeline.Turn wave (.source now clock)
        { pipeline with
          cache := (producer.tick wave clock pipeline.cache).2.1
          source :=
            .producer polled (producer.tick wave clock pipeline.cache).1 }
        ((producer.tick wave clock pipeline.cache).2.2 ++
          happenings.flatMap polled.eventsOf)
  | pollsSource
      {loop : Loop}
      {producer : Producer}
      (isSource : pipeline.source = .producer loop producer)
      (waits : loop.phase = .due → pipeline.isStopping = true)
      (now : Instant)
      (clock : Int64)
      {polled : Loop}
      {happenings : List Happening}
      (polls : loop.poll ⟨pipeline.isStopping, now, .pending⟩ =
        (polled, happenings)) :
      pipeline.Turn wave (.source now clock)
        { pipeline with source := .producer polled producer }
        (happenings.flatMap polled.eventsOf)
  | pollsChannel
      {position : Nat}
      {running : RunningChannel}
      {next : PipelineMove}
      {found : ChannelPoll}
      (isThere : pipeline.channels[position]? = some running)
      (polls : pipeline.pollAt position next = some (running, found))
      (others : ∀ other, other ≠ position →
        pipeline.pollAt other next = none) :
      pipeline.Turn wave next
        { pipeline with
          channels :=
            pipeline.channels.set position
              (running.poll pipeline.cache found).1 }
        (running.poll pipeline.cache found).2
  | takes
      {address : SocketAddress}
      {intake : Intake}
      (isSource : pipeline.source = .intake address intake)
      (bytes : List UInt8) :
      pipeline.Turn wave (.datagram bytes)
        { pipeline with
          cache := (intake.receive pipeline.cache bytes).2.1
          source :=
            .intake address (intake.receive pipeline.cache bytes).1 }
        (intake.receive pipeline.cache bytes).2.2.2
  | serves
      {position : Nat}
      {running : RunningChannel}
      (isThere : pipeline.channels[position]? = some running)
      (move : ServerMove)
      (outlet : Outlet)
      {events : List Event}
      (seen : OnlyFrom .surroundings events) :
      pipeline.Turn wave (.server position move)
        { pipeline with
          channels :=
            pipeline.channels.set position
              { running with
                channel := { running.channel with outlet := outlet } } }
        events
  | stops :
      pipeline.Turn wave .stop pipeline.stop.2 []

/-- Every move is one of these turns. -/
theorem turn_move
    (wave : Wave)
    (pipeline : Pipeline)
    (next : PipelineMove) :
    pipeline.Turn wave next
      (pipeline.move wave next).1 (pipeline.move wave next).2 := by
  cases next with
  | source now clock =>
      cases isSource : pipeline.source with
      | producer loop producer =>
          by_cases ticks : loop.phase = .due ∧ ¬ pipeline.isStopping
          · obtain ⟨due, goes⟩ := ticks
            have goes : pipeline.isStopping = false := by simpa using goes
            simp only [move, pollSource, isSource, due, goes,
              Bool.false_eq_true, not_false_eq_true, and_self, ↓reduceIte]
            exact .produces isSource due goes now clock rfl
          · simp only [move, pollSource, isSource, ticks, ↓reduceIte]
            refine .pollsSource isSource (fun due => ?_) now clock rfl
            simpa [due] using ticks
      | intake address intake =>
          simp only [move, pollSource, isSource]
          refine .idles (fun _ => rfl) ?_
          intro _ _ loop producer _ isProducer
          rw [isSource] at isProducer
          cases isProducer
  | channel position now clock network waits =>
      cases isThere : pipeline.channels[position]? with
      | none =>
          simp only [move, pollChannel, isThere]
          refine .idles (fun other => ?_) nofun
          by_cases same : position = other
          · simp [pollAt, ← same, isThere]
          · simp [pollAt, same]
      | some running =>
          simp only [move, pollChannel, isThere]
          refine .pollsChannel isThere ?_ fun other differs => ?_
          · simp [pollAt, isThere]
          · simp [pollAt, differs.symm]
  | datagram bytes =>
      cases isSource : pipeline.source with
      | producer loop producer =>
          simp only [move, takeDatagram, isSource]
          exact .idles (fun _ => rfl) nofun
      | intake address intake =>
          simp only [move, takeDatagram, isSource]
          split
          · exact .idles (fun _ => rfl) nofun
          · exact .takes isSource bytes
  | server position step =>
      cases isThere : pipeline.channels[position]? with
      | none =>
          simp only [move, moveServer, isThere]
          exact .idles (fun _ => rfl) nofun
      | some running =>
          simp only [move, moveServer, isThere]
          split
          · exact .serves isThere step _ (Server.onlyFrom_move _ _ step)
          · exact .idles (fun _ => rfl) nofun
  | stop =>
      exact .stops

/-- The rates and the names of the channels. -/
def plates (pipeline : Pipeline) : List (Float × String) :=
  pipeline.channels.map fun running =>
    (running.rate, running.channel.distributor.name)

/-- A channel that changes in place keeps its plate in the row. -/
theorem plates_set
    {pipeline : Pipeline}
    {position : Nat}
    {running changed : RunningChannel}
    (isThere : pipeline.channels[position]? = some running)
    (sameRate : changed.rate = running.rate)
    (sameName :
      changed.channel.distributor.name = running.channel.distributor.name) :
    plates { pipeline with
      channels := pipeline.channels.set position changed } =
        pipeline.plates := by
  obtain ⟨inBounds, rfl⟩ := List.getElem?_eq_some_iff.mp isThere
  have hasPlate : position < pipeline.plates.length := by
    simpa [plates] using inBounds
  have samePlate :
      (changed.rate, changed.channel.distributor.name) =
        pipeline.plates[position] := by
    simp [plates, sameRate, sameName]
  simp only [plates, List.map_set] at samePlate ⊢
  rw [samePlate]
  exact List.set_getElem_self _

/-- Channels at two places have two names. -/
theorem name_ne_of_distinct
    {pipeline : Pipeline}
    (distinct : (pipeline.plates.map Prod.snd).Nodup)
    {first second : Nat}
    {running other : RunningChannel}
    (isFirst : pipeline.channels[first]? = some running)
    (isSecond : pipeline.channels[second]? = some other)
    (differ : first ≠ second) :
    running.channel.distributor.name ≠ other.channel.distributor.name := by
  have named
      {position : Nat}
      {found : RunningChannel}
      (isThere : pipeline.channels[position]? = some found) :
      (pipeline.plates.map Prod.snd)[position]? =
        some found.channel.distributor.name := by
    simp [plates, isThere]
  obtain ⟨inBounds, _⟩ := List.getElem?_eq_some_iff.mp (named isFirst)
  intro same
  refine differ ((List.getElem?_inj inBounds distinct).mp ?_)
  rw [named isFirst, named isSecond, same]

/-- Moves leave the rates and the names as they are. -/
theorem plates_move
    (wave : Wave)
    (pipeline : Pipeline)
    (next : PipelineMove) :
    (pipeline.move wave next).1.plates = pipeline.plates := by
  have turn := pipeline.turn_move wave next
  generalize (pipeline.move wave next).1 = after at turn ⊢
  generalize (pipeline.move wave next).2 = seen at turn
  cases turn with
  | @pollsChannel _ running _ found isThere polls others =>
      obtain ⟨sameName, sameRate⟩ := running.name_poll pipeline.cache found
      exact plates_set isThere sameRate sameName
  | serves isThere move outlet seen =>
      exact plates_set isThere rfl rfl
  | _ =>
      rfl

/-- A move puts at most one position into the cache. -/
theorem cache_move
    (wave : Wave)
    (pipeline : Pipeline)
    (next : PipelineMove) :
    let after := (pipeline.move wave next).1
    after.cache = pipeline.cache ∨
      ∃ position, after.cache = pipeline.cache.update position := by
  intro after
  have turn := pipeline.turn_move wave next
  change pipeline.Turn wave next after _ at turn
  clear_value after
  generalize (pipeline.move wave next).2 = seen at turn
  cases turn with
  | @produces loop producer isSource due goes now clock polled happenings polls =>
      exact .inr ⟨producer.walk.position wave clock, rfl⟩
  | @takes address intake isSource bytes =>
      exact (intake.receive_cases pipeline.cache bytes).1
  | _ =>
      exact .inl rfl

/-- A move leaves a channel as it is or changes its outlet, unless it polls
it. -/
theorem channel_move
    (wave : Wave)
    {pipeline : Pipeline}
    (distinct : (pipeline.plates.map Prod.snd).Nodup)
    {position : Nat}
    {running : RunningChannel}
    (isThere : pipeline.channels[position]? = some running)
    (next : PipelineMove) :
    let moved := pipeline.move wave next
    (∃ found,
        pipeline.pollAt position next = some (running, found) ∧
          moved.1.cache = pipeline.cache ∧
          moved.1.channels[position]? =
            some (running.poll pipeline.cache found).1 ∧
          moved.2 = (running.poll pipeline.cache found).2) ∨
      pipeline.pollAt position next = none ∧
        SilentOf (.distributor running.channel.distributor.name) moved.2 ∧
        ∃ outlet,
          moved.1.channels[position]? =
            some { running with
              channel := { running.channel with outlet := outlet } } := by
  intro moved
  have turn := pipeline.turn_move wave next
  change pipeline.Turn wave next moved.1 moved.2 at turn
  generalize moved.1 = after at turn ⊢
  generalize moved.2 = seen at turn ⊢
  have unchanged :
      ∃ outlet,
        pipeline.channels[position]? =
          some { running with
            channel := { running.channel with outlet := outlet } } :=
    ⟨running.channel.outlet, isThere⟩
  cases turn with
  | idles noChannel noSource =>
      refine .inr ⟨noChannel position, ?_, unchanged⟩
      exact (OnlyFrom.nil .surroundings).silent nofun
  | @produces loop producer isSource due goes now clock polled happenings polls =>
      refine .inr ⟨rfl, .append ?_ ?_, unchanged⟩
      · exact (producer.onlyFrom_events _).silent nofun
      · exact (Loop.onlyFrom_eventsOf _ _).silent nofun
  | pollsSource isSource waits now clock polls =>
      exact .inr ⟨rfl, (Loop.onlyFrom_eventsOf _ _).silent nofun, unchanged⟩
  | @pollsChannel polled other _ found isOther polls others =>
      by_cases same : polled = position
      · subst same
        have isSame : other = running :=
          Option.some.inj (isOther.symm.trans isThere)
        subst isSame
        refine .inl ⟨found, polls, rfl, ?_, rfl⟩
        simp [List.getElem?_set_self', isThere]
      · have otherName :
            other.channel.distributor.name ≠
              running.channel.distributor.name :=
          name_ne_of_distinct distinct isOther isThere same
        refine .inr ⟨others position (Ne.symm same), ?_, ?_⟩
        · exact RunningChannel.silent_poll (by simp)
            (by simpa using otherName) pipeline.cache found
        · rw [List.getElem?_set_ne same]
          exact unchanged
  | @takes address intake isSource bytes =>
      exact .inr ⟨rfl,
        (intake.receive_cases pipeline.cache bytes).2.silent nofun, unchanged⟩
  | @serves served other isOther move outlet _ seen =>
      refine .inr ⟨rfl, seen.silent nofun, ?_⟩
      by_cases same : served = position
      · subst same
        have isSame : other = running :=
          Option.some.inj (isOther.symm.trans isThere)
        subst isSame
        exact ⟨outlet, by simp [List.getElem?_set_self', isThere]⟩
      · rw [List.getElem?_set_ne same]
        exact unchanged
  | stops =>
      refine .inr ⟨rfl, ?_, unchanged⟩
      exact (OnlyFrom.nil .surroundings).silent nofun

end Pipeline

end PositionFeed
