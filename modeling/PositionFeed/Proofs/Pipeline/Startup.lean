import PositionFeed.Proofs.Bus.Codec
import PositionFeed.Proofs.Pipeline.Started
import PositionFeed.Proofs.Pipeline.Turn

namespace PositionFeed

/-!
# All of a pipeline or nothing

A start tries its steps in order: for every channel its rate and then its
outlet, and for the source its rate, or its address and then the socket.  What
a step comes to depends on the configuration and on what the operating system
says, not on the steps before it, so the fault of a start is that of the first
step that fails.

By then nothing runs, since the source and the channels begin to run after the
last step.  Only push servers accept clients from the moment they are built;
their tokens are cancelled.
-/

/-- A step of a start that may fail. -/
inductive StartStep where
  /-- A channel gets something that ticks at its rate. -/
  | rate (plan : ChannelPlan)
  /-- The channel at a position gets its outlet. -/
  | outlet (position : Nat) (plan : ChannelPlan)
  /-- The producer gets something that ticks at its rate. -/
  | producerRate
  /-- The address that a subscriber listens on is read. -/
  | listenAddress
  /-- A subscriber begins to listen. -/
  | listen
  /-- The socket of a subscriber says where it is. -/
  | whereabouts

/-- Why a rate makes no ticker. -/
def rateFault? (name : String) (rate : Float) : Option StartFault :=
  match Ticker.ofRate name rate with
  | .error defect => some (.rate defect)
  | .ok _ => none

/-- Why a channel gets no outlet. -/
def ChannelPlan.setupFault? (network : Network) (plan : ChannelPlan) :
    Option SetupFault :=
  match plan.kind with
  | .log => none
  | .bus =>
      match BusTarget.ofParameters plan.parameters with
      | .error defect =>
          some (.creation plan.name
            (Fault.transportSetup plan.name defect.message).message)
      | .ok target =>
          (network.bind (BusOutlet.origin target)).map fun reason =>
            .creation plan.name
              (Fault.transportSetup plan.name reason.message).message
  | .websocket =>
      match PushOutlet.addressOf plan.name plan.parameters with
      | .error reason => some reason
      | .ok address => network.listenFault? address

/-- The steps for channels, the first of which has the given position. -/
def channelSteps (position : Nat) : List ChannelPlan → List StartStep
  | [] => []
  | plan :: rest =>
      .rate plan :: .outlet position plan :: channelSteps (position + 1) rest

theorem channelSteps_cons
    (position : Nat)
    (plan : ChannelPlan)
    (rest : List ChannelPlan) :
    channelSteps position (plan :: rest) =
      channelSteps position [plan] ++ channelSteps (position + 1) rest := rfl

namespace Blueprint

/-- The steps for the source. -/
def sourceSteps (blueprint : Blueprint) : List StartStep :=
  match blueprint.role with
  | .publisher => [.producerRate]
  | .subscriber => [.listenAddress, .listen, .whereabouts]

/-- The steps of a start, in order. -/
def startSteps (blueprint : Blueprint) : List StartStep :=
  channelSteps 0 blueprint.effectiveChannels ++ blueprint.sourceSteps

/-- Why a step fails, if it does. -/
def stepFault?
    (networks : Nat → Network)
    (blueprint : Blueprint) :
    StartStep → Option StartFault
  | .rate plan => rateFault? plan.name plan.rate
  | .outlet position plan =>
      (plan.setupFault? (networks position)).map (.channel plan.name)
  | .producerRate => rateFault? Producer.name blueprint.producer.rate
  | .listenAddress =>
      let value := blueprint.intake.listenAddress
      match SocketAddress.read? value with
      | none => some (.listenAddress value)
      | some _ => none
  | .listen => do
      let address ← SocketAddress.read? blueprint.intake.listenAddress
      let reason ←
        (networks blueprint.effectiveChannels.length).listenFault? address
      return .listen reason
  | .whereabouts => do
      let address ← SocketAddress.read? blueprint.intake.listenAddress
      let reason ←
        (networks blueprint.effectiveChannels.length).locate 1 address
      return .whereabouts reason

/-- The fault of the first step that fails. -/
def firstFault?
    (networks : Nat → Network)
    (blueprint : Blueprint) : Option StartFault :=
  blueprint.startSteps.findSome? (blueprint.stepFault? networks)

/-- Of channels, the first of which has the given position, those before the
first one that has a step that fails. -/
def channelsBeforeFault
    (networks : Nat → Network)
    (blueprint : Blueprint)
    (position : Nat) :
    List ChannelPlan → List ChannelPlan
  | [] => []
  | plan :: rest =>
      if (channelSteps position [plan]).findSome?
          (blueprint.stepFault? networks) = none then
        plan :: channelsBeforeFault networks blueprint (position + 1) rest
      else []

end Blueprint

namespace StartAction

/-- Whether something begins to run. -/
def isRun : StartAction → Bool
  | .sourceRuns => true
  | .channelRuns _ => true
  | _ => false

/-- The channel that is built, and whether it has a server. -/
def built? : StartAction → Option (String × Bool)
  | .built channel token => some (channel, token.isSome)
  | _ => none

end StartAction

namespace Start

/-! ## Setting up one channel -/

/-- What is known of a channel that was built for a plan. -/
structure IsOf (built : BuiltChannel) (plan : ChannelPlan) : Prop where
  rate : built.rate = plan.rate
  ticks : Ticker.ofRate plan.name plan.rate = .ok built.ticker
  distributor :
    built.channel.distributor = .begin plan.name plan.effectivePolicy
  kind : built.channel.outlet.kind = plan.kind

/-- A channel cannot be set up for the reason that its outlet cannot, whatever
tokens there are. -/
theorem create_eq_error_iff
    {network : Network}
    {plan : ChannelPlan}
    {root : Token}
    {tokens : Tokens}
    {reason : SetupFault} :
    Channel.create network plan root tokens = .error reason ↔
      plan.setupFault? network = some reason := by
  unfold Channel.create Outlet.create ChannelPlan.setupFault?
  cases kind : plan.kind with
  | log =>
      simp [bind, Except.bind]
  | bus =>
      simp only [BusOutlet.create]
      cases BusTarget.ofParameters plan.parameters with
      | error defect =>
          simp [bind, Except.bind]
      | ok target =>
          cases refused : network.bind (BusOutlet.origin target) <;>
            simp [refused, bind, Except.bind]
  | websocket =>
      simp only [PushOutlet.create]
      cases PushOutlet.addressOf plan.name plan.parameters with
      | error reason =>
          simp [bind, Except.bind]
      | ok address =>
          cases refused : network.listenFault? address <;>
            simp [refused, bind, Except.bind]

/-- A channel that is set up has an outlet of its kind, and cancels nothing. -/
theorem of_create_eq_ok
    {network : Network}
    {plan : ChannelPlan}
    {root : Token}
    {tokens after : Tokens}
    {channel : Channel}
    {events : List Event}
    (created :
      Channel.create network plan root tokens = .ok (channel, after, events)) :
    channel.outlet.kind = plan.kind ∧
      after.cancelled = tokens.cancelled := by
  obtain ⟨made, isOutlet, same⟩ := Result.bind_eq_ok_iff.mp created
  cases same
  unfold Outlet.create at isOutlet
  cases kind : plan.kind with
  | log =>
      simp only [kind, Except.ok.injEq] at isOutlet
      subst isOutlet
      exact ⟨rfl, rfl⟩
  | bus =>
      simp only [kind] at isOutlet
      split at isOutlet
      · cases isOutlet
        exact ⟨rfl, rfl⟩
      · cases isOutlet
  | websocket =>
      simp only [kind] at isOutlet
      obtain ⟨pushed, isPush, same⟩ := Result.bind_eq_ok_iff.mp isOutlet
      cases same
      refine ⟨rfl, ?_⟩
      obtain ⟨address, _, bound⟩ := Result.bind_eq_ok_iff.mp isPush
      split at bound
      · cases bound
      · cases bound
        rfl

/-- Building a channel fails with the fault of the first of its two steps that
fails. -/
theorem findSome?_channelSteps
    (networks : Nat → Network)
    (blueprint : Blueprint)
    (position : Nat)
    (root : Token)
    (plan : ChannelPlan)
    (progress : Progress) :
    (channelSteps position [plan]).findSome? (blueprint.stepFault? networks) =
      match buildChannel (networks position) root plan progress with
      | .error fault => some fault
      | .ok _ => none := by
  simp only [channelSteps, List.findSome?_cons, List.findSome?_nil,
    Blueprint.stepFault?, rateFault?, buildChannel]
  cases Ticker.ofRate plan.name plan.rate with
  | error defect =>
      rfl
  | ok ticker =>
      cases created :
          Channel.create (networks position) plan root progress.tokens with
      | error reason =>
          simp [create_eq_error_iff.mp created]
      | ok made =>
          have willing : plan.setupFault? (networks position) = none := by
            rw [Option.eq_none_iff_forall_ne_some]
            intro reason failed
            rw [create_eq_error_iff.mpr failed] at created
            cases created
          simp [willing]

/-- What the building of a channel is remembered by. -/
def builtAction (built : BuiltChannel) : StartAction :=
  .built built.channel.distributor.name (tokenOf built.channel)

/-- A channel that is built is one more, and is remembered. -/
theorem of_buildChannel
    {network : Network}
    {root : Token}
    {plan : ChannelPlan}
    {progress after : Progress}
    (succeeds : buildChannel network root plan progress = .ok after) :
    ∃ built,
      IsOf built plan ∧
        after.channels = progress.channels ++ [built] ∧
        after.actions = progress.actions ++ [builtAction built] ∧
        after.tokens.cancelled = progress.tokens.cancelled := by
  unfold buildChannel at succeeds
  split at succeeds
  · cases succeeds
  · next ticker ticks =>
      split at succeeds
      · cases succeeds
      · next channel tokens events created =>
          cases succeeds
          obtain ⟨kind, cancelled⟩ := of_create_eq_ok created
          have distributor := (distributor_of_create created).1
          refine ⟨⟨plan.rate, ticker, channel⟩, ⟨rfl, ticks, distributor, kind⟩,
            rfl, ?_, cancelled⟩
          simp only at distributor
          simp [builtAction, distributor, Distributor.begin]

/-! ## Setting up all channels -/

/-- How far a start has come with channels from some progress, and why no
further. -/
structure Reaches
    (networks : Nat → Network)
    (blueprint : Blueprint)
    (plans : List ChannelPlan)
    (progress after : Progress)
    (failure : Option StartFault) : Prop where
  fault :
    failure =
      (channelSteps progress.channels.length plans).findSome?
        (blueprint.stepFault? networks)
  built :
    ∃ news,
      List.Forall₂ IsOf news
          (blueprint.channelsBeforeFault networks progress.channels.length
            plans) ∧
        after.channels = progress.channels ++ news ∧
        after.actions = progress.actions ++ news.map builtAction
  cancelled : after.tokens.cancelled = progress.tokens.cancelled
  complete :
    failure = none →
      blueprint.channelsBeforeFault networks progress.channels.length plans =
        plans

namespace Reaches

variable
  {networks : Nat → Network}
  {blueprint : Blueprint}
  {root : Token}
  {plan : ChannelPlan}
  {rest : List ChannelPlan}
  {progress between after : Progress}

/-- The next channel cannot be built. -/
theorem fails
    {fault : StartFault}
    (failed :
      buildChannel (networks progress.channels.length) root plan progress =
        .error fault) :
    Reaches networks blueprint (plan :: rest) progress progress
      (some fault) := by
  have first :=
    findSome?_channelSteps networks blueprint progress.channels.length root
      plan progress
  rw [failed] at first
  exact {
    fault := by
      rw [channelSteps_cons, List.findSome?_append, first]
      rfl
    built := by
      refine ⟨[], ?_, by simp, by simp⟩
      rw [Blueprint.channelsBeforeFault, first]
      exact .nil
    cancelled := rfl
    complete := fun succeeds => by cases succeeds }

/-- The next channel is built, and the start goes on from there. -/
theorem goesOn
    {failure : Option StartFault}
    (build :
      buildChannel (networks progress.channels.length) root plan progress =
        .ok between)
    (later : Reaches networks blueprint rest between after failure) :
    Reaches networks blueprint (plan :: rest) progress after failure := by
  have first :=
    findSome?_channelSteps networks blueprint progress.channels.length root
      plan progress
  rw [build] at first
  obtain ⟨built, isOf, channels, actions, cancelled⟩ := of_buildChannel build
  have length :
      between.channels.length = progress.channels.length + 1 := by
    simp [channels]
  have before :
      blueprint.channelsBeforeFault networks progress.channels.length
          (plan :: rest) =
        plan ::
          blueprint.channelsBeforeFault networks between.channels.length
            rest := by
    rw [Blueprint.channelsBeforeFault, first, length]
    rfl
  exact {
    fault := by
      rw [channelSteps_cons, List.findSome?_append, first, ← length]
      exact later.fault
    built := by
      obtain ⟨news, areOf, laterChannels, laterActions⟩ := later.built
      refine ⟨built :: news, ?_, ?_, ?_⟩
      · rw [before]
        exact .cons isOf areOf
      · rw [laterChannels, channels, List.append_assoc]
        rfl
      · rw [laterActions, actions, List.append_assoc]
        rfl
    cancelled := later.cancelled.trans cancelled
    complete := fun succeeds => by
      rw [before, later.complete succeeds] }

end Reaches

theorem reaches_buildChannels
    (networks : Nat → Network)
    (blueprint : Blueprint)
    (root : Token)
    (plans : List ChannelPlan)
    (progress : Progress) :
    Reaches networks blueprint plans progress
      (buildChannels networks root plans progress).1
      (buildChannels networks root plans progress).2 := by
  induction plans generalizing progress with
  | nil =>
      exact {
        fault := rfl
        built := ⟨[], .nil, by simp [buildChannels], by simp [buildChannels]⟩
        cancelled := rfl
        complete := fun _ => rfl }
  | cons plan rest inductionHypothesis =>
      simp only [buildChannels]
      cases build :
          buildChannel (networks progress.channels.length) root plan progress with
      | error fault =>
          exact .fails build
      | ok between =>
          exact .goesOn build (inductionHypothesis between)

/-- The source cannot be built for the fault of the first of its steps that
fails. -/
theorem findSome?_sourceSteps
    (networks : Nat → Network)
    (blueprint : Blueprint) :
    blueprint.sourceSteps.findSome? (blueprint.stepFault? networks) =
      match (buildSource (networks blueprint.effectiveChannels.length)
          blueprint).1 with
      | .error fault => some fault
      | .ok _ => none := by
  unfold Blueprint.sourceSteps buildSource
  cases blueprint.role with
  | publisher =>
      simp only [List.findSome?_cons, List.findSome?_nil,
        Blueprint.stepFault?, rateFault?]
      cases Ticker.ofRate Producer.name blueprint.producer.rate <;> rfl
  | subscriber =>
      simp only [List.findSome?_cons, List.findSome?_nil,
        Blueprint.stepFault?]
      cases SocketAddress.read? blueprint.intake.listenAddress with
      | none =>
          rfl
      | some address =>
          generalize networks blueprint.effectiveChannels.length = network
          cases refused : network.listenFault? address <;>
            cases silent : network.locate 1 address <;>
              simp [buildIntake, refused, silent]

/-! ## Undoing what was built -/

/-- A channel has a server that a token stops if clients connect to it. -/
theorem built?_builtAction
    {built : BuiltChannel}
    {plan : ChannelPlan}
    (isOf : IsOf built plan) :
    (builtAction built).built? =
      some (plan.name, decide (plan.kind = .websocket)) := by
  have name : built.channel.distributor.name = plan.name := by
    rw [isOf.distributor]
    rfl
  simp only [builtAction, StartAction.built?, name, ← isOf.kind, tokenOf]
  cases built.channel.outlet <;> rfl

theorem filterMap_built?
    {news : List BuiltChannel}
    {plans : List ChannelPlan}
    (areOf : List.Forall₂ IsOf news plans) :
    (news.map builtAction).filterMap StartAction.built? =
      plans.map fun plan => (plan.name, decide (plan.kind = .websocket)) := by
  induction areOf with
  | nil =>
      rfl
  | cons isOf _ inductionHypothesis =>
      rw [List.map_cons, List.filterMap_cons_some (built?_builtAction isOf),
        inductionHypothesis, List.map_cons]

/-- What was cancelled before other tokens stays so. -/
theorem isCancelled_foldl
    {token : Token}
    {tokens : Tokens}
    (others : List Token)
    (cancelled : tokens.isCancelled token = true) :
    (others.foldl (fun tokens other => tokens.cancel other)
      tokens).isCancelled token = true := by
  induction others generalizing tokens with
  | nil =>
      exact cancelled
  | cons other rest inductionHypothesis =>
      exact inductionHypothesis (Tokens.isCancelled_cancel cancelled other)

/-- Whatever server was built, its token is cancelled when the start is
undone. -/
theorem isCancelled_undo
    {progress : Progress}
    {token : Token}
    (member : token ∈ serverTokens progress) :
    (undo progress).tokens.isCancelled token = true := by
  obtain ⟨before, after, split⟩ := List.append_of_mem member
  rw [undo, split, List.foldl_append]
  exact isCancelled_foldl after (Tokens.isCancelled_cancel_self _ _)

end Start

/-! ## What a start comes to -/

/-- The role of a pipeline with the source. -/
def Source.role : Source → Role
  | .producer .. => .publisher
  | .intake .. => .subscriber

/-- Whether a move is one of the source of a pipeline with the role. -/
def PipelineMove.feeds : PipelineMove → Role → Bool
  | .source .., .publisher => true
  | .datagram _, .subscriber => true
  | _, _ => false

namespace Pipeline

/-- A pipeline has a source for its role, and nothing else changes its
cache. -/
structure WrittenBySource
    (wave : Wave)
    (role : Role)
    (pipeline : Pipeline) : Prop where
  source : pipeline.source.role = role
  alone :
    ∀ next : PipelineMove,
      next.feeds role = false →
        (pipeline.move wave next).1.cache = pipeline.cache

/-- Only the moves of its source change the cache of a pipeline. -/
theorem WrittenBySource.of_source
    {pipeline : Pipeline}
    {role : Role}
    (source : pipeline.source.role = role)
    (wave : Wave) :
    pipeline.WrittenBySource wave role := by
  refine ⟨source, fun next other => ?_⟩
  have turn := pipeline.turn_move wave next
  generalize (pipeline.move wave next).1 = after at turn ⊢
  generalize (pipeline.move wave next).2 = seen at turn
  cases turn with
  | produces isSource =>
      rw [isSource] at source
      subst source
      cases other
  | takes isSource =>
      rw [isSource] at source
      subst source
      cases other
  | _ =>
      rfl

/-- A source keeps its role. -/
theorem role_move
    (wave : Wave)
    (pipeline : Pipeline)
    (next : PipelineMove) :
    (pipeline.move wave next).1.source.role = pipeline.source.role := by
  have turn := pipeline.turn_move wave next
  generalize (pipeline.move wave next).1 = after at turn ⊢
  generalize (pipeline.move wave next).2 = seen at turn
  cases turn with
  | produces isSource =>
      rw [isSource]
      rfl
  | pollsSource isSource =>
      rw [isSource]
      rfl
  | takes isSource =>
      rw [isSource]
      rfl
  | _ =>
      rfl

theorem role_moves
    (wave : Wave)
    (pipeline : Pipeline)
    (list : List PipelineMove) :
    (pipeline.moves wave list).1.source.role = pipeline.source.role := by
  induction list generalizing pipeline with
  | nil =>
      rfl
  | cons next rest inductionHypothesis =>
      exact (inductionHypothesis _).trans (pipeline.role_move wave next)

/-- A producer whose loop is due writes into the cache when it is polled. -/
theorem hasData_of_due
    {pipeline : Pipeline}
    {loop : Loop}
    {producer : Producer}
    (isSource : pipeline.source = .producer loop producer)
    (due : loop.phase = .due)
    (goes : pipeline.isStopping = false)
    (wave : Wave)
    (now : Instant)
    (clock : Int64) :
    (pipeline.move wave (.source now clock)).1.cache.hasData = true := by
  simp only [move, pollSource, isSource, due, goes, Bool.false_eq_true,
    not_false_eq_true, and_self, ↓reduceIte]
  rfl

/-- A producer that has begun writes into the cache at its first deadline: the
first poll finds that it has passed, and the second one ticks. -/
theorem hasData_of_begun
    {pipeline : Pipeline}
    {ticker : Ticker}
    {producer : Producer}
    (isSource :
      pipeline.source =
        .producer (Loop.begin ticker Producer.name .origin) producer)
    (goes : pipeline.isStopping = false)
    (wave : Wave) :
    let wake := Instant.origin.after ticker.period
    (pipeline.moves wave
      [.source wake 0, .source wake 0]).1.cache.hasData = true := by
  intro wake
  let loop := Loop.begin ticker Producer.name .origin
  have isDue : (loop.poll ⟨false, wake, .pending⟩).1.phase = .due := by
    have reached : loop.schedule.deadline ≤ wake := Nat.le_refl _
    have sleeps : loop.phase = .sleeping := rfl
    simp [Loop.poll, sleeps, reached]
  have polled :
      (pipeline.move wave (.source wake 0)).1.source =
        .producer (loop.poll ⟨false, wake, .pending⟩).1 producer := by
    simp only [move, pollSource, isSource, goes]
    rfl
  have goesOn :
      (pipeline.move wave (.source wake 0)).1.isStopping = false := by
    rw [move, pollSource, isSource]
    exact goes
  exact hasData_of_due polled isDue goesOn wave wake 0

/-- In every format there is a datagram that carries a position. -/
theorem exists_datagram (format : WireFormat) :
    ∃ (bytes : List UInt8) (position : Position),
      Record.decodePosition format (bytes.take Intake.bufferSize) =
        .ok position := by
  let record : Record := ⟨"", "", 1, "1,2,3", 1⟩
  have fit : record.LengthsFit :=
    ⟨by decide +kernel, by decide +kernel, by decide +kernel⟩
  have short : (record.encode format).length ≤ Intake.bufferSize := by
    cases format <;> decide +kernel
  have readable : (Position.read record.text).toOption.isSome = true := by
    decide +kernel
  refine ⟨record.encode format, ?_⟩
  rw [List.take_of_length_le short, Record.decodePosition_encode fit]
  cases reads : Position.read record.text with
  | ok position =>
      exact ⟨position, rfl⟩
  | error defect =>
      rw [reads] at readable
      cases readable

/-- An intake writes the position of a datagram into the cache. -/
theorem hasData_of_takes
    {pipeline : Pipeline}
    {address : SocketAddress}
    {intake : Intake}
    (isSource : pipeline.source = .intake address intake)
    (goes : pipeline.isStopping = false)
    {bytes : List UInt8}
    {position : Position}
    (carries :
      Record.decodePosition intake.format
        (bytes.take Intake.bufferSize) = .ok position)
    (wave : Wave) :
    (pipeline.moves wave [.datagram bytes]).1.cache.hasData = true := by
  simp only [moves, move, takeDatagram, isSource, goes, Bool.false_eq_true,
    ↓reduceIte, Intake.receive, Intake.handle, carries]
  rfl

/-- What is known of a channel that runs as it was planned. -/
structure BegunAs
    (running : RunningChannel)
    (plan : ChannelPlan) : Prop where
  rate : running.rate = plan.rate
  loop :
    ∃ ticker,
      Ticker.ofRate plan.name plan.rate = .ok ticker ∧
        running.loop = Loop.begin ticker plan.name .origin
  distributor :
    running.channel.distributor = .begin plan.name plan.effectivePolicy
  kind : running.channel.outlet.kind = plan.kind
  idle : running.inFlight = none

/-- A start that failed has run into the first fault there is.  Nothing runs,
and every server that it built is stopped. -/
structure Undone
    (networks : Nat → Network)
    (blueprint : Blueprint)
    (fault : StartFault)
    (started : Started) : Prop where
  first : blueprint.firstFault? networks = some fault
  idle : ∀ action ∈ started.actions, action.isRun = false
  built :
    started.actions.filterMap StartAction.built? =
      (blueprint.channelsBeforeFault networks 0
        blueprint.effectiveChannels).map fun plan =>
          (plan.name, decide (plan.kind = .websocket))
  stopped :
    ∀ (name : String) (token : Token),
      .built name (some token) ∈ started.actions →
        .stopped token ∈ started.actions ∧
          started.tokens.isCancelled token = true

/-- A start that succeeded has met no fault.  The source runs and every channel
does, each once and as it was planned, and only the source ever writes into the
cache. -/
structure Whole
    (networks : Nat → Network)
    (blueprint : Blueprint)
    (pipeline : Pipeline)
    (started : Started) : Prop where
  faultless : blueprint.firstFault? networks = none
  channels :
    List.Forall₂ BegunAs pipeline.channels blueprint.effectiveChannels
  runs :
    started.actions.filter StartAction.isRun =
      .sourceRuns ::
        blueprint.effectiveChannels.map fun plan => .channelRuns plan.name
  built :
    started.actions.filterMap StartAction.built? =
      blueprint.effectiveChannels.map fun plan =>
        (plan.name, decide (plan.kind = .websocket))
  uncancelled : pipeline.tokens.cancelled = []
  written :
    ∀ (wave : Wave) (list : List PipelineMove),
      (pipeline.moves wave list).1.WrittenBySource wave blueprint.role
  writes :
    ∀ wave : Wave, ∃ list : List PipelineMove,
      (∀ next ∈ list, next.feeds blueprint.role = true) ∧
        (pipeline.moves wave list).1.cache.hasData = true

/-- What is undone after some channels were built leaves nothing running. -/
theorem undone_of_reaches
    {networks : Nat → Network}
    {blueprint : Blueprint}
    {tokens : Tokens}
    {progress : Start.Progress}
    {failure : Option StartFault}
    {fault : StartFault}
    (reaches :
      Start.Reaches networks blueprint blueprint.effectiveChannels
        ⟨[], tokens, [], []⟩ progress failure)
    (first : blueprint.firstFault? networks = some fault)
    (events : List Event) :
    Undone networks blueprint fault
      ⟨.error fault, (Start.undo progress).tokens,
        (Start.undo progress).actions, events⟩ := by
  obtain ⟨news, areOf, channels, actions⟩ := reaches.built
  rw [List.nil_append] at channels actions
  have undone :
      (Start.undo progress).actions =
        news.map Start.builtAction ++
          (Start.serverTokens progress).map .stopped := by
    rw [Start.undo, actions]
  have stopsBuildNothing (list : List Token) :
      (list.map StartAction.stopped).filterMap StartAction.built? = [] := by
    simp [StartAction.built?, List.filterMap_eq_nil_iff]
  refine {
    first := first
    idle := ?_
    built := ?_
    stopped := ?_
  }
  · simp only [undone, List.mem_append, List.mem_map]
    rintro action (⟨built, _, rfl⟩ | ⟨token, _, rfl⟩) <;> rfl
  · rw [undone, List.filterMap_append, Start.filterMap_built? areOf,
      stopsBuildNothing, List.append_nil]
    rfl
  · intro name token member
    simp only [undone, List.mem_append, List.mem_map, reduceCtorEq, and_false,
      exists_false, or_false] at member
    obtain ⟨built, isBuilt, same⟩ := member
    obtain ⟨_, hasToken⟩ := StartAction.built.inj same
    have isServer : token ∈ Start.serverTokens progress := by
      rw [Start.serverTokens, channels]
      exact List.mem_filterMap.mpr ⟨built, isBuilt, hasToken⟩
    refine ⟨?_, Start.isCancelled_undo isServer⟩
    rw [undone]
    exact List.mem_append_right _ (List.mem_map_of_mem isServer)

/-- A channel that was built for a plan is set running as it was planned. -/
theorem begunAs_runChannel
    {built : BuiltChannel}
    {plan : ChannelPlan}
    (isOf : Start.IsOf built plan) :
    BegunAs (Start.runChannel built) plan where
  rate := isOf.rate
  loop := by
    refine ⟨built.ticker, isOf.ticks, ?_⟩
    rw [Start.runChannel, isOf.distributor]
    rfl
  distributor := isOf.distributor
  kind := isOf.kind
  idle := rfl

theorem begunAs_map_runChannel
    {news : List BuiltChannel}
    {plans : List ChannelPlan}
    (areOf : List.Forall₂ Start.IsOf news plans) :
    List.Forall₂ BegunAs (news.map Start.runChannel) plans := by
  induction areOf with
  | nil =>
      exact .nil
  | cons isOf _ inductionHypothesis =>
      exact .cons (begunAs_runChannel isOf) inductionHypothesis

/-- The channels that run are named as they were planned. -/
theorem names_of_begunAs
    {channels : List RunningChannel}
    {plans : List ChannelPlan}
    (begun : List.Forall₂ BegunAs channels plans) :
    (channels.map fun running =>
        StartAction.channelRuns running.channel.distributor.name) =
      plans.map fun plan => .channelRuns plan.name := by
  induction begun with
  | nil =>
      rfl
  | cons isOf _ inductionHypothesis =>
      rw [List.map_cons, inductionHypothesis, isOf.distributor]
      rfl

/-- A source that was built for an address is an intake there. -/
theorem intake_of_buildIntake
    {network : Network}
    {format : WireFormat}
    {address : SocketAddress}
    {source : Source}
    (built : (Start.buildIntake network format address).1 = .ok source) :
    .intake address (Intake.begin format) = source := by
  unfold Start.buildIntake at built
  split at built
  · cases built
  · dsimp only at built
    split at built
    · cases built
    · exact Except.ok.inj built

/-- A source that was built is one for the role, and its moves write into the
cache of the pipeline. -/
theorem writes_of_buildSource
    {network : Network}
    {blueprint : Blueprint}
    {pipeline : Pipeline}
    (built :
      (Start.buildSource network blueprint).1 = .ok pipeline.source)
    (goes : pipeline.isStopping = false) :
    pipeline.source.role = blueprint.role ∧
      ∀ wave : Wave, ∃ list : List PipelineMove,
        (∀ next ∈ list, next.feeds blueprint.role = true) ∧
          (pipeline.moves wave list).1.cache.hasData = true := by
  unfold Start.buildSource at built
  cases role : blueprint.role with
  | publisher =>
      simp only [role] at built
      split at built
      · cases built
      · next ticker _ =>
          have isSource := (Except.ok.inj built).symm
          refine ⟨by rw [isSource]; rfl, fun wave => ⟨_, ?_,
            hasData_of_begun isSource goes wave⟩⟩
          simp [PipelineMove.feeds]
  | subscriber =>
      simp only [role] at built
      split at built
      · cases built
      · next address _ =>
          have isSource := (intake_of_buildIntake built).symm
          obtain ⟨bytes, position, carries⟩ :=
            exists_datagram blueprint.intake.format
          refine ⟨by rw [isSource]; rfl, fun wave => ⟨[.datagram bytes], ?_,
            hasData_of_takes isSource goes carries wave⟩⟩
          simp [PipelineMove.feeds]

/-- What is set running after all channels and the source were built is a whole
pipeline. -/
theorem whole_of_reaches
    {networks : Nat → Network}
    {blueprint : Blueprint}
    {tokens : Tokens}
    {progress : Start.Progress}
    {network : Network}
    {pipeline : Pipeline}
    {started : Started}
    (reaches :
      Start.Reaches networks blueprint blueprint.effectiveChannels
        ⟨[], tokens, [], []⟩ progress none)
    (untouched : tokens.cancelled = [])
    (faultless : blueprint.firstFault? networks = none)
    (source : (Start.buildSource network blueprint).1 = .ok pipeline.source)
    (sameTokens : pipeline.tokens = progress.tokens)
    (running : pipeline.channels = progress.channels.map Start.runChannel)
    (done :
      started.actions =
        progress.actions ++ .sourceRuns ::
          pipeline.channels.map fun running =>
            .channelRuns running.channel.distributor.name) :
    Whole networks blueprint pipeline started := by
  obtain ⟨news, areOf, channels, actions⟩ := reaches.built
  have complete := reaches.complete rfl
  simp only [List.length_nil] at areOf complete
  rw [complete] at areOf
  rw [List.nil_append] at channels actions
  rw [channels] at running
  have begun :
      List.Forall₂ BegunAs pipeline.channels blueprint.effectiveChannels := by
    rw [running]
    exact begunAs_map_runChannel areOf
  rw [names_of_begunAs begun, actions] at done
  have uncancelled : pipeline.tokens.cancelled = [] := by
    rw [sameTokens, reaches.cancelled]
    exact untouched
  have goes : pipeline.isStopping = false := by
    simp [isStopping, StopSignal.isTriggered, Tokens.isCancelled, uncancelled]
  obtain ⟨role, writes⟩ := writes_of_buildSource source goes
  have runsNothing :
      (news.map Start.builtAction).filter StartAction.isRun = [] := by
    simp [List.filter_eq_nil_iff, Start.builtAction, StartAction.isRun]
  exact {
    faultless := faultless
    channels := begun
    runs := by
      rw [done, List.filter_append, runsNothing]
      simp [StartAction.isRun, List.filter_cons, List.filter_map,
        Function.comp_def]
    built := by
      rw [done, List.filterMap_append, Start.filterMap_built? areOf]
      simp [StartAction.built?]
    uncancelled := uncancelled
    written := fun wave list =>
      .of_source ((role_moves wave pipeline list).trans role) wave
    writes := writes
  }

/-- Whatever is configured and whatever the operating system says, a start
either makes a whole pipeline or fails with the first fault and leaves nothing
running. -/
theorem every_start_is_whole_or_undone
    (networks : Nat → Network)
    (blueprint : Blueprint) :
    match (start networks blueprint).result with
    | .error fault =>
        Undone networks blueprint fault (start networks blueprint)
    | .ok pipeline =>
        Whole networks blueprint pipeline (start networks blueprint) := by
  have reaches :=
    Start.reaches_buildChannels networks blueprint
      (StopSignal.fresh .empty).1.token blueprint.effectiveChannels
      ⟨[], (StopSignal.fresh .empty).2, [], []⟩
  have sourceFault := Start.findSome?_sourceSteps networks blueprint
  have steps :
      blueprint.firstFault? networks =
        ((channelSteps 0 blueprint.effectiveChannels).findSome?
          (blueprint.stepFault? networks)).or
          (blueprint.sourceSteps.findSome? (blueprint.stepFault? networks)) :=
    List.findSome?_append
  unfold start
  cases built : Start.buildChannels networks (StopSignal.fresh .empty).1.token
      blueprint.effectiveChannels
      ⟨[], (StopSignal.fresh .empty).2, [], []⟩ with
  | mk progress failure =>
      rw [built] at reaches
      simp only [built]
      have channelsFault :
          (channelSteps 0 blueprint.effectiveChannels).findSome?
            (blueprint.stepFault? networks) = failure :=
        reaches.fault.symm
      rw [channelsFault] at steps
      cases failure with
      | some fault =>
          exact undone_of_reaches reaches steps _
      | none =>
          cases source : (Start.buildSource
              (networks blueprint.effectiveChannels.length) blueprint).1 with
          | error fault =>
              rw [source] at sourceFault
              exact undone_of_reaches reaches (steps.trans sourceFault) _
          | ok made =>
              rw [source] at sourceFault
              have faultless : blueprint.firstFault? networks = none :=
                steps.trans sourceFault
              exact whole_of_reaches reaches rfl faultless source rfl rfl rfl

/-- Two push channels. -/
def twoServers : Blueprint :=
  let plan (name : String) : ChannelPlan :=
    ⟨name, .websocket, 10.0, none, .ofList [("bind", "127.0.0.1:9001")]⟩
  { Blueprint.default with channels := [plan "first", plan "second"] }

/-- When the second one finds its address taken, the server of the first one is
stopped. -/
example :
    let networks (position : Nat) : Network :=
      ⟨fun _ => if position = 1 then some .addressInUse else none,
        fun _ _ => none, fun _ => none⟩
    (start networks twoServers).actions =
      [.built "first" (some ⟨1, [0]⟩), .stopped ⟨1, [0]⟩] := by
  decide +kernel

end Pipeline

end PositionFeed
