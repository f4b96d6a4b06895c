import PositionFeed.Blueprint.Rules
import PositionFeed.Bus.Target
import PositionFeed.Channel.Outlet
import PositionFeed.Proofs.Result
import PositionFeed.Schedule.Deadline

namespace PositionFeed

/-!
# What the rules allow

The rules ask the questions that the parts of a pipeline ask again when they are
built.  Each rule is matched here with the part that relies on it: a rate with
the ticker, the parameters of a channel with its outlet, and an address with
whatever listens on it.  The rules keep to the channels that will run, except
that rates are only checked where they are configured; those of the usual
channels are right as they stand.
-/

namespace Rules

theorem bind_eq_ok_iff
    {first : Check}
    {second : Unit → Check} :
    (first >>= second) = .ok () ↔ first = .ok () ∧ second () = .ok () := by
  rw [Result.bind_eq_ok_iff]
  constructor
  · rintro ⟨_, ended, rest⟩
    exact ⟨ended, rest⟩
  · rintro ⟨ended, rest⟩
    exact ⟨(), ended, rest⟩

/-- A rate is allowed exactly if a ticker can be made for it. -/
theorem rate_eq_ok_iff
    (name : String)
    {field : String}
    {value : Float} :
    rate field value = .ok () ↔
      ∃ ticker, Ticker.ofRate name value = .ok ticker := by
  unfold rate Ticker.ofRate Ticker.ofPeriod
  cases positive : isPositiveRate value with
  | false =>
      simp
  | true =>
      cases Span.ofRate? value with
      | none =>
          simp
      | some period =>
          by_cases nothing : period.nanos = 0 <;> simp [nothing]

theorem channelRates_eq_ok_iff
    {plans : List ChannelPlan} :
    channelRates plans = .ok () ↔
      ∀ plan ∈ plans, ∃ ticker,
        Ticker.ofRate plan.name plan.rate = .ok ticker := by
  induction plans with
  | nil =>
      simp [channelRates]
  | cons plan rest inductionHypothesis =>
      rw [channelRates, bind_eq_ok_iff, inductionHypothesis,
        rate_eq_ok_iff plan.name, List.forall_mem_cons]

/-- A text is allowed as an address exactly if it is one. -/
theorem address_eq_ok_iff
    {field value : String} :
    address field value = .ok () ↔
      ∃ read, SocketAddress.read? value = some read := by
  unfold address
  cases SocketAddress.read? value <;> simp

/-- The parameters of a bus channel are allowed exactly if they name a
target. -/
theorem bus_eq_ok_iff
    {plan : ChannelPlan}
    (kind : plan.kind = .bus) :
    (channelAddress plan = .ok () ∧ channelFormat plan = .ok ()) ↔
      ∃ target, BusTarget.ofParameters plan.parameters = .ok target := by
  unfold channelAddress channelFormat BusTarget.ofParameters BusTarget.formatOf
  simp only [kind, neededParameter]
  cases plan.parameters.get? "addr" with
  | none =>
      simp
  | some value =>
      simp only [address_eq_ok_iff]
      cases SocketAddress.read? value with
      | none =>
          simp
      | some read =>
          cases plan.parameters.get? "format" with
          | none =>
              simp [bind, Except.bind]
          | some format =>
              cases named : WireFormat.ofParameter? format <;>
                simp [named, bind, Except.bind]

/-- The address of a push channel is allowed exactly if it can be bound to. -/
theorem push_eq_ok_iff
    {plan : ChannelPlan}
    (kind : plan.kind = .websocket) :
    channelAddress plan = .ok () ↔
      ∃ address, PushOutlet.addressOf plan.name plan.parameters =
        .ok address := by
  unfold channelAddress PushOutlet.addressOf
  simp only [kind, neededParameter]
  cases plan.parameters.get? "bind" with
  | none =>
      simp
  | some value =>
      rw [address_eq_ok_iff]
      cases isRead : SocketAddress.read? value <;> simp [isRead]

theorem channelsFrom_cons
    (index : Nat)
    (seen : List String)
    (plan : ChannelPlan)
    (rest : List ChannelPlan) :
    channelsFrom index seen (plan :: rest) =
      if plan.name = "" then .error (.emptyName index)
      else if plan.name ∈ seen then .error (.duplicateName plan.name)
      else (do
        channelAddress plan
        channelFormat plan
        channelsFrom (index + 1) (plan.name :: seen) rest) := by
  rw [channelsFrom]
  split
  · rfl
  · split <;> rfl

/-- Channels are allowed exactly if they have distinct names that were not seen
before, and each of them has usable parameters. -/
theorem channelsFrom_eq_ok_iff
    {index : Nat}
    {seen : List String}
    {plans : List ChannelPlan} :
    channelsFrom index seen plans = .ok () ↔
      (∀ plan ∈ plans,
        plan.name ≠ "" ∧ plan.name ∉ seen ∧
          channelAddress plan = .ok () ∧ channelFormat plan = .ok ()) ∧
        (plans.map ChannelPlan.name).Nodup := by
  induction plans generalizing index seen with
  | nil =>
      simp [channelsFrom]
  | cons plan rest inductionHypothesis =>
      rw [channelsFrom_cons, List.forall_mem_cons, List.map_cons,
        List.nodup_cons]
      by_cases nameless : plan.name = ""
      · simp [nameless]
      · by_cases again : plan.name ∈ seen
        · simp [nameless, again]
        · rw [if_neg nameless, if_neg again, bind_eq_ok_iff, bind_eq_ok_iff,
            inductionHypothesis]
          constructor
          · rintro ⟨address, format, usable, distinct⟩
            refine ⟨⟨⟨nameless, again, address, format⟩, ?_⟩, ?_, distinct⟩
            · intro other member
              obtain ⟨named, unseen, parameters⟩ := usable other member
              exact ⟨named, fun isSeen =>
                unseen (List.mem_cons_of_mem _ isSeen), parameters⟩
            · intro repeated
              obtain ⟨other, member, sameName⟩ := List.mem_map.mp repeated
              apply (usable other member).2.1
              rw [sameName]
              exact List.mem_cons_self
          · rintro ⟨⟨⟨_, _, address, format⟩, usable⟩, fresh, distinct⟩
            refine ⟨address, format, ?_, distinct⟩
            intro other member
            obtain ⟨named, unseen, parameters⟩ := usable other member
            refine ⟨named, ?_, parameters⟩
            intro isSeen
            rcases List.mem_cons.mp isSeen with same | before
            · exact fresh (List.mem_map.mpr ⟨other, member, same⟩)
            · exact unseen before

/-- An address is asked for only where somebody listens on it. -/
theorem intake_eq_ok_iff
    {blueprint : Blueprint} :
    intake blueprint = .ok () ↔
      (blueprint.role = .subscriber → ∃ address,
        SocketAddress.read? blueprint.intake.listenAddress = some address) := by
  unfold intake
  cases blueprint.role with
  | publisher =>
      simp
  | subscriber =>
      simp [address_eq_ok_iff]

/-- The rates of the usual channels are right as they stand. -/
theorem channelRates_usualChannels
    (role : Role) :
    channelRates role.usualChannels = .ok () := by
  cases role <;> rfl

end Rules

namespace Blueprint

/-- A blueprint is accepted exactly if all groups of rules accept it. -/
theorem validate_eq_ok_iff
    {blueprint : Blueprint} :
    blueprint.validate = .ok () ↔
      Rules.rates blueprint = .ok () ∧
        Rules.fieldBounds blueprint = .ok () ∧
        Rules.trajectory blueprint = .ok () ∧
        Rules.channels blueprint = .ok () ∧
        Rules.intake blueprint = .ok () := by
  simp only [validate, Rules.bind_eq_ok_iff]

/-- The channels that will run have distinct names. -/
theorem distinct_of_validate
    {blueprint : Blueprint}
    (valid : blueprint.validate = .ok ()) :
    (blueprint.effectiveChannels.map ChannelPlan.name).Nodup := by
  obtain ⟨_, _, _, channels, _⟩ := validate_eq_ok_iff.mp valid
  exact (Rules.channelsFrom_eq_ok_iff.mp channels).2

/-- The channels that will run tick at rates that were allowed. -/
theorem channelRates_effectiveChannels
    {blueprint : Blueprint}
    (allowed : Rules.rates blueprint = .ok ()) :
    Rules.channelRates blueprint.effectiveChannels = .ok () := by
  unfold effectiveChannels
  split
  · exact Rules.channelRates_usualChannels blueprint.role
  · exact (Rules.bind_eq_ok_iff.mp allowed).2

end Blueprint

end PositionFeed
