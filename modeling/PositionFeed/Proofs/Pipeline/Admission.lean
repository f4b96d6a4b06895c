import PositionFeed.Command.Basic
import PositionFeed.Proofs.Blueprint.Rules

namespace PositionFeed

/-!
# What validation admits can be built

A start computes periods from rates and addresses from texts before it asks the
operating system for anything.  None of this fails for a blueprint that keeps
the rules, so a fault of its start names what the operating system refused, and
no other kind of fault is left.

A run checks its blueprint again after it replaced settings, so all that is
said here holds of every blueprint that a run goes on with.
-/

/-- All that a channel needs can be computed from its plan. -/
structure ChannelPlan.Constructible (plan : ChannelPlan) : Prop where
  /-- Its rate has a period. -/
  ticks :
    ∃ ticker, Ticker.ofRate plan.name plan.rate = .ok ticker
  /-- If it sends to the bus, its parameters say where and how. -/
  target :
    plan.kind = .bus →
      ∃ target, BusTarget.ofParameters plan.parameters = .ok target
  /-- If clients connect to it, its parameters say where. -/
  address :
    plan.kind = .websocket →
      ∃ address, PushOutlet.addressOf plan.name plan.parameters = .ok address

/-- All that a pipeline needs can be computed from its blueprint. -/
structure Blueprint.Constructible (blueprint : Blueprint) : Prop where
  /-- Every channel that will run can be built. -/
  channels :
    ∀ plan ∈ blueprint.effectiveChannels, plan.Constructible
  /-- The rate of the producer has a period. -/
  producer :
    ∃ ticker,
      Ticker.ofRate Producer.name blueprint.producer.rate = .ok ticker
  /-- A subscriber has an address to listen on. -/
  listenAddress :
    blueprint.role = .subscriber → ∃ address,
      SocketAddress.read? blueprint.intake.listenAddress = some address

/-- The operating system does not let anything listen on an address. -/
inductive Network.Refuses
    (network : Network)
    (address : SocketAddress) : SetupFault → Prop where
  /-- The address cannot be bound. -/
  | bind
      {reason : SystemFault}
      (refused : network.bind address = some reason) :
      Refuses network address (.bind address.text reason)
  /-- The bound socket does not say where it is. -/
  | locate
      {reason : SystemFault}
      (bound : network.bind address = none)
      (silent : network.locate 0 address = some reason) :
      Refuses network address (.system reason)

theorem Network.refuses_of_listenFault
    {network : Network}
    {address : SocketAddress}
    {reason : SetupFault}
    (fault : network.listenFault? address = some reason) :
    network.Refuses address reason := by
  unfold listenFault? at fault
  split at fault
  · next refused =>
      cases fault
      exact .bind refused
  · next bound =>
      obtain ⟨cause, silent, rfl⟩ := Option.map_eq_some_iff.mp fault
      exact .locate bound silent

/-- The operating system refuses what a channel needs, and the start reports
just that. -/
inductive ChannelPlan.Refused
    (network : Network)
    (plan : ChannelPlan) : StartFault → Prop where
  /-- A bus channel cannot bind the address that it sends from. -/
  | bus
      {target : BusTarget}
      {reason : SystemFault}
      (kind : plan.kind = .bus)
      (leads : BusTarget.ofParameters plan.parameters = .ok target)
      (refused : network.bind (BusOutlet.origin target) = some reason) :
      Refused network plan
        (.channel plan.name (.creation plan.name
          (Fault.transportSetup plan.name reason.message).message))
  /-- A push channel cannot listen on the address that clients connect to. -/
  | push
      {address : SocketAddress}
      {reason : SetupFault}
      (kind : plan.kind = .websocket)
      (leads :
        PushOutlet.addressOf plan.name plan.parameters = .ok address)
      (refused : network.Refuses address reason) :
      Refused network plan (.channel plan.name reason)

/-- The operating system refuses what a start needs, and the start reports just
that. -/
inductive Blueprint.Refused
    (networks : Nat → Network)
    (blueprint : Blueprint) : StartFault → Prop where
  /-- A channel cannot use its address. -/
  | channel
      {position : Nat}
      {plan : ChannelPlan}
      {fault : StartFault}
      (found : blueprint.effectiveChannels[position]? = some plan)
      (refused : plan.Refused (networks position) fault) :
      Refused networks blueprint fault
  /-- A subscriber cannot listen on its address. -/
  | listen
      {address : SocketAddress}
      {reason : SetupFault}
      (role : blueprint.role = .subscriber)
      (leads :
        SocketAddress.read? blueprint.intake.listenAddress = some address)
      (refused :
        (networks blueprint.effectiveChannels.length).Refuses address reason) :
      Refused networks blueprint (.listen reason)
  /-- The socket of a subscriber does not say where it is. -/
  | whereabouts
      {address : SocketAddress}
      {reason : SystemFault}
      (role : blueprint.role = .subscriber)
      (leads :
        SocketAddress.read? blueprint.intake.listenAddress = some address)
      (silent :
        (networks blueprint.effectiveChannels.length).locate 1 address =
          some reason) :
      Refused networks blueprint (.whereabouts reason)

namespace Blueprint

/-- What the rules allow can be computed. -/
theorem constructible_of_validate
    {blueprint : Blueprint}
    (valid : blueprint.validate = .ok ()) :
    blueprint.Constructible := by
  obtain ⟨rates, _, _, channels, intake⟩ := validate_eq_ok_iff.mp valid
  have ticks :=
    Rules.channelRates_eq_ok_iff.mp (channelRates_effectiveChannels rates)
  have usable := (Rules.channelsFrom_eq_ok_iff.mp channels).1
  refine {
    channels := ?_
    producer := ?_
    listenAddress := Rules.intake_eq_ok_iff.mp intake
  }
  · intro plan member
    obtain ⟨_, _, address, format⟩ := usable plan member
    exact {
      ticks := ticks plan member
      target := fun kind => (Rules.bus_eq_ok_iff kind).mp ⟨address, format⟩
      address := fun kind => (Rules.push_eq_ok_iff kind).mp address
    }
  · exact (Rules.rate_eq_ok_iff Producer.name).mp
      (Rules.bind_eq_ok_iff.mp rates).1

end Blueprint

namespace Start

/-- Only a refusal keeps a channel from being set up. -/
theorem refused_of_create
    {network : Network}
    {plan : ChannelPlan}
    {root : Token}
    {tokens : Tokens}
    {reason : SetupFault}
    (constructible : plan.Constructible)
    (failed : Channel.create network plan root tokens = .error reason) :
    plan.Refused network (.channel plan.name reason) := by
  cases kind : plan.kind with
  | bus =>
      obtain ⟨target, leads⟩ := constructible.target kind
      cases refused : network.bind (BusOutlet.origin target) with
      | none =>
          simp [Channel.create, Outlet.create, kind, BusOutlet.create, leads,
            refused, bind, Except.bind] at failed
      | some cause =>
          simp only [Channel.create, Outlet.create, kind, BusOutlet.create,
            leads, refused, bind, Except.bind, Except.error.injEq] at failed
          rw [← failed]
          exact .bus kind leads refused
  | websocket =>
      obtain ⟨address, leads⟩ := constructible.address kind
      cases refused : network.listenFault? address with
      | none =>
          simp [Channel.create, Outlet.create, kind, PushOutlet.create, leads,
            refused, bind, Except.bind] at failed
      | some cause =>
          simp only [Channel.create, Outlet.create, kind, PushOutlet.create,
            leads, refused, bind, Except.bind, Except.error.injEq] at failed
          rw [← failed]
          exact .push kind leads (Network.refuses_of_listenFault refused)
  | log =>
      simp [Channel.create, Outlet.create, kind, bind, Except.bind] at failed

/-- Only a refusal keeps a channel from being built. -/
theorem refused_of_buildChannel
    {network : Network}
    {root : Token}
    {plan : ChannelPlan}
    {progress : Progress}
    {fault : StartFault}
    (constructible : plan.Constructible)
    (failed : buildChannel network root plan progress = .error fault) :
    plan.Refused network fault := by
  obtain ⟨ticker, ticks⟩ := constructible.ticks
  simp only [buildChannel, ticks] at failed
  cases created : Channel.create network plan root progress.tokens with
  | error reason =>
      rw [created] at failed
      cases failed
      exact refused_of_create constructible created
  | ok made =>
      rw [created] at failed
      cases failed

/-- A channel that is built is one more. -/
theorem length_buildChannel
    {network : Network}
    {root : Token}
    {plan : ChannelPlan}
    {progress after : Progress}
    (built : buildChannel network root plan progress = .ok after) :
    after.channels.length = progress.channels.length + 1 := by
  unfold buildChannel at built
  split at built
  · cases built
  · split at built
    · cases built
    · cases built
      simp

/-- Only a refusal keeps channels from being built, and it is that of
the channel at the place that the start had come to. -/
theorem refused_of_buildChannels
    {networks : Nat → Network}
    {root : Token}
    {plans : List ChannelPlan}
    {progress : Progress}
    {fault : StartFault}
    (constructible : ∀ plan ∈ plans, plan.Constructible)
    (failed : (buildChannels networks root plans progress).2 = some fault) :
    ∃ (position : Nat) (plan : ChannelPlan),
      plans[position]? = some plan ∧
        plan.Refused (networks (progress.channels.length + position))
          fault := by
  induction plans generalizing progress with
  | nil =>
      simp [buildChannels] at failed
  | cons first rest inductionHypothesis =>
      obtain ⟨firstConstructible, restConstructible⟩ :=
        List.forall_mem_cons.mp constructible
      simp only [buildChannels] at failed
      cases built : buildChannel (networks progress.channels.length) root first
          progress with
      | error cause =>
          rw [built] at failed
          cases failed
          exact ⟨0, first, rfl,
            refused_of_buildChannel firstConstructible built⟩
      | ok after =>
          rw [built] at failed
          obtain ⟨position, plan, found, refused⟩ :=
            inductionHypothesis restConstructible failed
          rw [length_buildChannel built, Nat.add_right_comm] at refused
          exact ⟨position + 1, plan, by simpa using found, refused⟩

/-- Only a refusal keeps a source from being built. -/
theorem refused_of_buildSource
    {networks : Nat → Network}
    {blueprint : Blueprint}
    {fault : StartFault}
    (constructible : blueprint.Constructible)
    (failed :
      (buildSource (networks blueprint.effectiveChannels.length) blueprint).1 =
        .error fault) :
    blueprint.Refused networks fault := by
  unfold buildSource at failed
  cases role : blueprint.role with
  | publisher =>
      obtain ⟨ticker, ticks⟩ := constructible.producer
      simp [role, ticks] at failed
  | subscriber =>
      obtain ⟨address, leads⟩ := constructible.listenAddress role
      simp only [role, leads, buildIntake] at failed
      split at failed
      · next refused =>
          cases failed
          exact .listen role leads (Network.refuses_of_listenFault refused)
      · dsimp only at failed
        split at failed
        · next silent =>
            cases failed
            exact .whereabouts role leads silent
        · cases failed

end Start

namespace Blueprint.Constructible

/-- Only a refusal keeps a pipeline from starting. -/
theorem refused_of_start
    {networks : Nat → Network}
    {blueprint : Blueprint}
    {fault : StartFault}
    (constructible : blueprint.Constructible)
    (failed : (Pipeline.start networks blueprint).result = .error fault) :
    blueprint.Refused networks fault := by
  unfold Pipeline.start at failed
  cases built : Start.buildChannels networks (StopSignal.fresh .empty).1.token
      blueprint.effectiveChannels
      ⟨[], (StopSignal.fresh .empty).2, [], []⟩ with
  | mk progress failure =>
      simp only [built] at failed
      cases failure with
      | some cause =>
          cases failed
          have channelFailed := congrArg Prod.snd built
          obtain ⟨position, plan, found, refused⟩ :=
            Start.refused_of_buildChannels constructible.channels channelFailed
          rw [List.length_nil, Nat.zero_add] at refused
          exact .channel found refused
      | none =>
          cases source : (Start.buildSource
              (networks blueprint.effectiveChannels.length) blueprint).1 with
          | error cause =>
              rw [source] at failed
              cases failed
              exact Start.refused_of_buildSource constructible source
          | ok made =>
              rw [source] at failed
              cases failed

/-- A pipeline starts if nothing is refused. -/
theorem exists_pipeline
    {networks : Nat → Network}
    {blueprint : Blueprint}
    (constructible : blueprint.Constructible)
    (willing : ∀ position address, (networks position).bind address = none)
    (telling :
      ∀ position count address,
        (networks position).locate count address = none) :
    ∃ pipeline, (Pipeline.start networks blueprint).result = .ok pipeline := by
  cases result : (Pipeline.start networks blueprint).result with
  | ok pipeline =>
      exact ⟨pipeline, rfl⟩
  | error fault =>
      exfalso
      have listens
          {network : Network}
          {address : SocketAddress}
          {reason : SetupFault}
          (bound : network.bind address = none)
          (told : network.locate 0 address = none) :
          ¬ network.Refuses address reason := by
        rintro (refused | ⟨_, silent⟩)
        · rw [bound] at refused
          cases refused
        · rw [told] at silent
          cases silent
      cases constructible.refused_of_start result with
      | channel found refused =>
          cases refused with
          | bus kind leads refused =>
              rw [willing] at refused
              cases refused
          | push kind leads refused =>
              exact listens (willing _ _) (telling _ _ _) refused
      | listen role leads refused =>
          exact listens (willing _ _) (telling _ _ _) refused
      | whereabouts role leads silent =>
          rw [telling] at silent
          cases silent

end Blueprint.Constructible

/-! ## Blueprints of runs -/

/-- The rules are checked whenever a configuration is loaded. -/
theorem Configuration.validate_of_loadFile
    {path : String}
    {file : FileAnswer}
    {blueprint : Blueprint}
    (loaded : loadFile path file = .ok blueprint) :
    blueprint.validate = .ok () := by
  obtain ⟨format, _, readsFile⟩ := Result.bind_eq_ok_iff.mp loaded
  obtain ⟨text, _, readsText⟩ := Result.bind_eq_ok_iff.mp readsFile
  obtain ⟨candidate, _, checks⟩ := Result.bind_eq_ok_iff.mp readsText
  obtain ⟨done, checked, same⟩ := Result.bind_eq_ok_iff.mp checks
  cases same
  exact Result.mapError_eq_ok_iff.mp checked

namespace RunOptions

/-- A run goes on with what it loaded, with its settings replaced, if that keeps
the rules. -/
theorem blueprint_eq_ok_iff
    {files : Files}
    {options : RunOptions}
    {blueprint : Blueprint} :
    options.blueprint files = .ok blueprint ↔
      ∃ loaded,
        Blueprint.ofFile files options.configuration = .ok loaded ∧
          blueprint =
            (loaded.withRole options.role).withProducerRate
              options.producerRate ∧
          blueprint.validate = .ok () := by
  unfold RunOptions.blueprint
  rw [Result.bind_eq_ok_iff]
  constructor
  · rintro ⟨loaded, isLoaded, checks⟩
    obtain ⟨done, checked, same⟩ := Result.bind_eq_ok_iff.mp checks
    cases same
    exact ⟨loaded, isLoaded, rfl,
      Result.mapError_eq_ok_iff.mp (Result.mapError_eq_ok_iff.mp checked)⟩
  · rintro ⟨loaded, isLoaded, rfl, valid⟩
    refine ⟨loaded, isLoaded, Result.bind_eq_ok_iff.mpr ⟨(), ?_, rfl⟩⟩
    exact Result.mapError_eq_ok_iff.mpr (Result.mapError_eq_ok_iff.mpr valid)

/-- A file is loaded exactly if the verdict on it says so. -/
theorem ofFile_eq_ok_iff
    {files : Files}
    {path : String}
    {blueprint : Blueprint} :
    Blueprint.ofFile files (some path) = .ok blueprint ↔
      (Verdict.ofFile path (files path)).finding = .accepted blueprint := by
  by_cases missing : files path = .missing
  · simp [Blueprint.ofFile, Verdict.ofFile, missing]
  · simp only [Blueprint.ofFile, Verdict.ofFile, missing, ↓reduceIte,
      Result.mapError_eq_ok_iff]
    cases Configuration.loadFile path (files path) <;> simp

/-- Whatever is loaded keeps the rules. -/
theorem validate_of_ofFile
    {files : Files}
    {configuration : Option String}
    {blueprint : Blueprint}
    (loaded : Blueprint.ofFile files configuration = .ok blueprint) :
    blueprint.validate = .ok () := by
  cases configuration with
  | none =>
      cases loaded
      rfl
  | some path =>
      by_cases missing : files path = .missing
      · simp [Blueprint.ofFile, missing] at loaded
      · simp only [Blueprint.ofFile, missing, ↓reduceIte,
          Result.mapError_eq_ok_iff] at loaded
        exact Configuration.validate_of_loadFile loaded

end RunOptions

/-- What is promised of a blueprint that goes on to a start. -/
structure Blueprint.Admitted (blueprint : Blueprint) : Prop where
  /-- All that does not ask the operating system succeeds. -/
  constructible :
    blueprint.Constructible
  /-- A start that fails was refused something. -/
  onlyRefused :
    ∀ networks fault,
      (Pipeline.start networks blueprint).result = .error fault →
        blueprint.Refused networks fault
  /-- A start that is refused nothing succeeds. -/
  starts :
    ∀ networks : Nat → Network,
      (∀ position address, (networks position).bind address = none) →
        (∀ position count address,
          (networks position).locate count address = none) →
          ∃ pipeline,
            (Pipeline.start networks blueprint).result = .ok pipeline

theorem Blueprint.Constructible.admitted
    {blueprint : Blueprint}
    (constructible : blueprint.Constructible) :
    blueprint.Admitted where
  constructible := constructible
  onlyRefused _ _ := constructible.refused_of_start
  starts _ := constructible.exists_pipeline

/-- What is promised of runs and validations. -/
structure Admits
    (files : Files)
    (options : RunOptions) : Prop where
  /-- Every blueprint that keeps the rules can be built. -/
  validated :
    ∀ blueprint : Blueprint, blueprint.validate = .ok () → blueprint.Admitted
  /-- Every blueprint that a run goes on with can be built. -/
  resolved :
    ∀ blueprint,
      options.blueprint files = .ok blueprint → blueprint.Admitted
  /-- It is the loaded one, but for the settings that the run replaces. -/
  overridden :
    ∀ blueprint,
      options.blueprint files = .ok blueprint →
        ∃ loaded,
          Blueprint.ofFile files options.configuration = .ok loaded ∧
            blueprint =
              { loaded with
                role := options.role.getD loaded.role
                producer :=
                  { loaded.producer with
                    rate :=
                      options.producerRate.getD loaded.producer.rate } }
  /-- A run that replaces nothing goes on with a file exactly if the verdict on
  the file accepts it, and with the same blueprint. -/
  agrees :
    ∀ path blueprint,
      options.configuration = some path →
      options.role = none →
      options.producerRate = none →
        (options.blueprint files = .ok blueprint ↔
          (Verdict.ofFile path (files path)).finding = .accepted blueprint)
  /-- The validation of the file succeeds exactly if such a run goes on. -/
  validates :
    ∀ path json,
      options.configuration = some path →
      options.role = none →
      options.producerRate = none →
        ((∃ blueprint, options.blueprint files = .ok blueprint) ↔
          (ValidateOptions.outcome files ⟨path, json⟩).failure = none)

namespace RunOptions

theorem blueprint_eq_ok_iff_accepted
    {files : Files}
    {options : RunOptions}
    {path : String}
    (configuration : options.configuration = some path)
    (role : options.role = none)
    (producerRate : options.producerRate = none)
    {blueprint : Blueprint} :
    options.blueprint files = .ok blueprint ↔
      (Verdict.ofFile path (files path)).finding = .accepted blueprint := by
  rw [blueprint_eq_ok_iff, ← ofFile_eq_ok_iff, configuration, role,
    producerRate]
  constructor
  · rintro ⟨loaded, isLoaded, rfl, _⟩
    exact isLoaded
  · intro isLoaded
    exact ⟨blueprint, isLoaded, rfl, validate_of_ofFile isLoaded⟩

/-- Whatever files hold and whatever a run replaces, what it goes on with can be
built, and if it replaces nothing it agrees with the validation of its file. -/
theorem every_run_admits
    (files : Files)
    (options : RunOptions) :
    Admits files options := by
  refine {
    validated := ?_
    resolved := ?_
    overridden := ?_
    agrees := ?_
    validates := ?_
  }
  · intro blueprint valid
    exact (Blueprint.constructible_of_validate valid).admitted
  · intro blueprint resolved
    obtain ⟨loaded, _, _, valid⟩ := blueprint_eq_ok_iff.mp resolved
    exact (Blueprint.constructible_of_validate valid).admitted
  · intro blueprint resolved
    obtain ⟨loaded, isLoaded, rfl, _⟩ := blueprint_eq_ok_iff.mp resolved
    exact ⟨loaded, isLoaded, rfl⟩
  · intro path blueprint configuration role producerRate
    exact blueprint_eq_ok_iff_accepted configuration role producerRate
  · intro path json configuration role producerRate
    simp only [blueprint_eq_ok_iff_accepted configuration role producerRate]
    cases finding : (Verdict.ofFile path (files path)).finding <;>
      simp [ValidateOptions.outcome, Verdict.isValid, finding]

/-- Without a configuration a run may take either role, and with it the usual
channels of that role. -/
example
    (files : Files)
    (role : Role) :
    RunOptions.blueprint files
        { configuration := none
          role := some role
          producerRate := none
          duration := 0
          metricsPort := 0
          dryRun := true } =
      .ok { Blueprint.default with role := role } := by
  cases role <;> rfl

end RunOptions

end PositionFeed
