import PositionFeed.Proofs.Blueprint.Rules
import PositionFeed.Proofs.Schedule.Period

namespace PositionFeed

/-!
# The verdict on a blueprint

What each group of rules asks of a blueprint is said here without the checks.
A group finds nothing exactly if the blueprint keeps to it, and otherwise it
reports a rule that the blueprint really breaks.  The groups are asked in order,
so what is reported comes from the first group that is broken.
-/

/-- A group of rules. -/
inductive RuleGroup where
  | rates
  | fieldBounds
  | trajectory
  | channels
  | intake
  deriving Repr, DecidableEq

/-- The groups as they are asked. -/
def RuleGroup.inOrder : List RuleGroup :=
  [.rates, .fieldBounds, .trajectory, .channels, .intake]

/-- The check of a group. -/
def RuleGroup.check : RuleGroup → Blueprint → Rules.Check
  | .rates => Rules.rates
  | .fieldBounds => Rules.fieldBounds
  | .trajectory => Rules.trajectory
  | .channels => Rules.channels
  | .intake => Rules.intake

/-! ## What the rules ask -/

namespace Binary64

/-- A finite number between two bounds. -/
structure Between (least greatest : ℚ) (x : Float) : Prop where
  finite :
    x.isFinite = true
  least_le :
    least ≤ (decode x).number
  le_greatest :
    (decode x).number ≤ greatest

/-- A finite number that is not negative. -/
structure NonNegative (x : Float) : Prop where
  finite :
    x.isFinite = true
  nonneg :
    0 ≤ (decode x).number

end Binary64

/-- A text that can be read as an address. -/
def IsAddress (text : String) : Prop :=
  ∃ address, SocketAddress.read? text = some address

namespace ChannelPlan

/-- A channel has an address where its kind needs one. -/
def HasAddress (plan : ChannelPlan) : Prop :=
  ∀ key, Rules.neededParameter plan.kind = some key →
    ∃ value, plan.parameters.get? key = some value ∧ IsAddress value

/-- A channel names no format that does not exist. -/
def HasFormat (plan : ChannelPlan) : Prop :=
  ∀ value, plan.parameters.get? "format" = some value →
    ∃ format, WireFormat.ofParameter? value = some format

end ChannelPlan

namespace Blueprint

/-- The rates of a blueprint, each with the field where it stands. -/
def rateFields (blueprint : Blueprint) : List (String × Float) :=
  ("producer.rate_hz", blueprint.producer.rate) ::
    blueprint.channels.map fun plan =>
      ("channels[" ++ plan.name ++ "].rate_hz", plan.rate)

/-- A blueprint keeps to a group of rules. -/
def KeepsTo (blueprint : Blueprint) : RuleGroup → Prop
  | .rates =>
      KeptRate blueprint.producer.rate ∧
        ∀ plan ∈ blueprint.channels, KeptRate plan.rate
  | .fieldBounds =>
      1 ≤ blueprint.producer.logEvery ∧
        ∀ plan ∈ blueprint.channels, plan.name ≠ ""
  | .trajectory =>
      Binary64.Between (-180) 180 blueprint.trajectory.centreLongitude ∧
        Binary64.Between (-90) 90 blueprint.trajectory.centreLatitude ∧
        Binary64.NonNegative blueprint.trajectory.amplitude ∧
        blueprint.trajectory.angularStep.isFinite = true
  | .channels =>
      (∀ plan ∈ blueprint.effectiveChannels,
        plan.name ≠ "" ∧ plan.HasAddress ∧ plan.HasFormat) ∧
        (blueprint.effectiveChannels.map ChannelPlan.name).Nodup
  | .intake =>
      blueprint.role = .subscriber →
        IsAddress blueprint.intake.listenAddress

end Blueprint

/-! ## What is reported -/

/-- A violation is about a rule of a group that the blueprint breaks. -/
inductive Violation.Breaks (blueprint : Blueprint) :
    RuleGroup → Violation → Prop where
  | rateNotPositive
      {field : String}
      {value : Float}
      (stands : (field, value) ∈ blueprint.rateFields)
      (broken : ¬ (value.isFinite = true ∧ 0 < (Binary64.decode value).number)) :
      Breaks blueprint .rates (.rateNotPositive field value)
  | rateWithoutPeriod
      {field : String}
      {value : Float}
      (stands : (field, value) ∈ blueprint.rateFields)
      (finite : value.isFinite = true)
      (positive : 0 < (Binary64.decode value).number)
      (broken : ¬ KeptRate value) :
      Breaks blueprint .rates (.rateWithoutPeriod field value)
  /-- Exactly the channels without names are reported, and the progress log
  exactly if it is broken. -/
  | fieldBounds
      {nameless : List Nat}
      {logEveryZero : Bool}
      (positions : ∀ index, index ∈ nameless ↔
        ∃ plan, blueprint.channels[index]? = some plan ∧ plan.name = "")
      (logEvery : logEveryZero = true ↔ blueprint.producer.logEvery = 0)
      (broken : nameless ≠ [] ∨ logEveryZero = true) :
      Breaks blueprint .fieldBounds (.fieldBounds nameless logEveryZero)
  | longitude
      (broken : ¬ Binary64.Between (-180) 180
        blueprint.trajectory.centreLongitude) :
      Breaks blueprint .trajectory
        (.longitude blueprint.trajectory.centreLongitude)
  | latitude
      (broken : ¬ Binary64.Between (-90) 90
        blueprint.trajectory.centreLatitude) :
      Breaks blueprint .trajectory
        (.latitude blueprint.trajectory.centreLatitude)
  | amplitude
      (broken : ¬ Binary64.NonNegative blueprint.trajectory.amplitude) :
      Breaks blueprint .trajectory (.amplitude blueprint.trajectory.amplitude)
  | angularStep
      (broken : blueprint.trajectory.angularStep.isFinite = false) :
      Breaks blueprint .trajectory .angularStep
  | emptyName
      {index : Nat}
      {plan : ChannelPlan}
      (stands : blueprint.effectiveChannels[index]? = some plan)
      (broken : plan.name = "") :
      Breaks blueprint .channels (.emptyName index)
  | duplicateName
      {first second : Nat}
      {plan again : ChannelPlan}
      (before : first < second)
      (stands : blueprint.effectiveChannels[first]? = some plan)
      (standsAgain : blueprint.effectiveChannels[second]? = some again)
      (broken : plan.name = again.name) :
      Breaks blueprint .channels (.duplicateName again.name)
  | missingParameter
      {plan : ChannelPlan}
      {key : String}
      (runs : plan ∈ blueprint.effectiveChannels)
      (needed : Rules.neededParameter plan.kind = some key)
      (broken : plan.parameters.get? key = none) :
      Breaks blueprint .channels (.missingParameter plan.name key)
  | channelAddress
      {plan : ChannelPlan}
      {key value : String}
      (runs : plan ∈ blueprint.effectiveChannels)
      (needed : Rules.neededParameter plan.kind = some key)
      (configured : plan.parameters.get? key = some value)
      (broken : ¬ IsAddress value) :
      Breaks blueprint .channels
        (.invalidAddress ("channels[" ++ plan.name ++ "].params." ++ key) value)
  | unknownFormat
      {plan : ChannelPlan}
      {value : String}
      (runs : plan ∈ blueprint.effectiveChannels)
      (configured : plan.parameters.get? "format" = some value)
      (broken : WireFormat.ofParameter? value = none) :
      Breaks blueprint .channels (.unknownFormat plan.name value)
  | listenAddress
      (receives : blueprint.role = .subscriber)
      (broken : ¬ IsAddress blueprint.intake.listenAddress) :
      Breaks blueprint .intake
        (.invalidAddress "subscriber.listen_addr"
          blueprint.intake.listenAddress)

/-- Whoever breaks a rule does not keep to its group. -/
theorem Violation.Breaks.not_keepsTo
    {blueprint : Blueprint}
    {group : RuleGroup}
    {violation : Violation}
    (breaks : Breaks blueprint group violation) :
    ¬ blueprint.KeepsTo group := by
  have keptRate
      {field : String}
      {value : Float}
      (stands : (field, value) ∈ blueprint.rateFields)
      (keeps : blueprint.KeepsTo .rates) :
      KeptRate value := by
    obtain ⟨producer, channels⟩ := keeps
    rcases List.mem_cons.mp stands with same | stands
    · cases same
      exact producer
    · obtain ⟨plan, member, same⟩ := List.mem_map.mp stands
      cases same
      exact channels plan member
  intro keeps
  cases breaks with
  | rateNotPositive stands broken =>
      have kept := keptRate stands keeps
      exact broken ⟨kept.finite, kept.positive⟩
  | rateWithoutPeriod stands _ _ broken =>
      exact broken (keptRate stands keeps)
  | fieldBounds positions logEvery broken =>
      obtain ⟨atLeastOne, named⟩ := keeps
      rcases broken with nameless | isZero
      · obtain ⟨index, rest, rfl⟩ := List.exists_cons_of_ne_nil nameless
        obtain ⟨plan, stands, noName⟩ :=
          (positions index).mp List.mem_cons_self
        exact named plan (List.mem_of_getElem? stands) noName
      · have none := logEvery.mp isZero
        omega
  | longitude broken =>
      exact broken keeps.1
  | latitude broken =>
      exact broken keeps.2.1
  | amplitude broken =>
      exact broken keeps.2.2.1
  | angularStep broken =>
      have finite := keeps.2.2.2
      rw [broken] at finite
      cases finite
  | emptyName stands broken =>
      exact (keeps.1 _ (List.mem_of_getElem? stands)).1 broken
  | @duplicateName first second plan again before stands standsAgain broken =>
      have inside : second < blueprint.effectiveChannels.length :=
        (List.getElem?_eq_some_iff.mp standsAgain).1
      apply List.nodup_iff_getElem?_ne_getElem?.mp keeps.2 first second before
      · rwa [List.length_map]
      · rw [List.getElem?_map, List.getElem?_map, stands, standsAgain,
          Option.map_some, Option.map_some, broken]
  | missingParameter runs needed broken =>
      obtain ⟨_, configured, _⟩ := (keeps.1 _ runs).2.1 _ needed
      rw [broken] at configured
      cases configured
  | channelAddress runs needed configured broken =>
      obtain ⟨value, isValue, isAddress⟩ := (keeps.1 _ runs).2.1 _ needed
      rw [configured] at isValue
      cases isValue
      exact broken isAddress
  | unknownFormat runs configured broken =>
      obtain ⟨format, named⟩ := (keeps.1 _ runs).2.2 _ configured
      rw [broken] at named
      cases named
  | listenAddress receives broken =>
      exact broken (keeps receives)

/-! ## What the checks find -/

namespace Rules

theorem rate_eq_ok_iff_keptRate
    {field : String}
    {value : Float} :
    rate field value = .ok () ↔ KeptRate value := by
  rw [keptRate_iff]
  unfold rate
  cases isPositiveRate value with
  | false =>
      simp
  | true =>
      cases Span.ofRate? value with
      | none =>
          simp
      | some period =>
          by_cases nothing : period.nanos = 0 <;> simp [nothing]

theorem keepsTo_of_rates
    {blueprint : Blueprint}
    (allowed : rates blueprint = .ok ()) :
    blueprint.KeepsTo .rates := by
  obtain ⟨producer, channels⟩ := bind_eq_ok_iff.mp allowed
  refine ⟨rate_eq_ok_iff_keptRate.mp producer, ?_⟩
  revert channels
  induction blueprint.channels with
  | nil =>
      simp
  | cons plan rest inductionHypothesis =>
      intro channels
      obtain ⟨first, later⟩ := bind_eq_ok_iff.mp channels
      rw [List.forall_mem_cons]
      exact ⟨rate_eq_ok_iff_keptRate.mp first, inductionHypothesis later⟩

theorem breaks_of_rate
    {blueprint : Blueprint}
    {field : String}
    {value : Float}
    {violation : Violation}
    (stands : (field, value) ∈ blueprint.rateFields)
    (fails : rate field value = .error violation) :
    violation.Breaks blueprint .rates := by
  have broken : ¬ KeptRate value := by
    intro kept
    rw [rate_eq_ok_iff_keptRate.mpr kept] at fails
    cases fails
  unfold rate at fails
  cases positive : isPositiveRate value with
  | false =>
      rw [positive] at fails
      cases fails
      refine .rateNotPositive stands ?_
      rw [← isPositiveRate_eq_true_iff, positive]
      exact Bool.false_ne_true
  | true =>
      obtain ⟨finite, above⟩ := isPositiveRate_eq_true_iff.mp positive
      have blamed : violation = .rateWithoutPeriod field value := by
        rw [positive] at fails
        revert fails
        cases Span.ofRate? value with
        | none =>
            rintro ⟨⟩
            rfl
        | some period =>
            by_cases nothing : period.nanos = 0
            · simp [nothing, eq_comm]
            · simp [nothing]
      rw [blamed]
      exact .rateWithoutPeriod stands finite above broken

theorem exists_rate_of_channelRates
    {plans : List ChannelPlan}
    {violation : Violation}
    (fails : channelRates plans = .error violation) :
    ∃ plan ∈ plans,
      rate ("channels[" ++ plan.name ++ "].rate_hz") plan.rate =
        .error violation := by
  induction plans with
  | nil =>
      cases fails
  | cons plan rest inductionHypothesis =>
      rcases Result.bind_eq_error_iff.mp fails with first | ⟨_, _, later⟩
      · exact ⟨plan, List.mem_cons_self, first⟩
      · obtain ⟨other, member, broken⟩ := inductionHypothesis later
        exact ⟨other, List.mem_cons_of_mem plan member, broken⟩

theorem breaks_of_rates
    {blueprint : Blueprint}
    {violation : Violation}
    (fails : rates blueprint = .error violation) :
    violation.Breaks blueprint .rates := by
  rcases Result.bind_eq_error_iff.mp fails with producer | ⟨_, _, channels⟩
  · exact breaks_of_rate List.mem_cons_self producer
  · obtain ⟨plan, member, broken⟩ := exists_rate_of_channelRates channels
    refine breaks_of_rate (List.mem_cons_of_mem _ ?_) broken
    exact List.mem_map.mpr ⟨plan, member, rfl⟩

/-- The positions of the channels without names, counted from the first one. -/
theorem mem_namelessFrom_iff
    {start index : Nat}
    {plans : List ChannelPlan} :
    index ∈ namelessFrom start plans ↔
      ∃ offset plan, index = start + offset ∧ plans[offset]? = some plan ∧
        plan.name = "" := by
  induction plans generalizing start with
  | nil =>
      simp [namelessFrom]
  | cons plan rest inductionHypothesis =>
      rw [← Nat.or_exists_add_one]
      have later :
          index ∈ namelessFrom (start + 1) rest ↔
            ∃ offset other, index = start + (offset + 1) ∧
              (plan :: rest)[offset + 1]? = some other ∧ other.name = "" := by
        rw [inductionHypothesis]
        simp only [List.getElem?_cons_succ, Nat.add_comm 1, Nat.add_assoc]
      rw [← later, namelessFrom]
      by_cases nameless : plan.name = ""
      · simp [nameless]
      · simp [nameless]

theorem mem_nameless_iff
    {index : Nat}
    {plans : List ChannelPlan} :
    index ∈ namelessFrom 0 plans ↔
      ∃ plan, plans[index]? = some plan ∧ plan.name = "" := by
  rw [mem_namelessFrom_iff]
  simp only [Nat.zero_add]
  constructor
  · rintro ⟨_, plan, rfl, stands, noName⟩
    exact ⟨plan, stands, noName⟩
  · rintro ⟨plan, stands, noName⟩
    exact ⟨index, plan, rfl, stands, noName⟩

theorem keepsTo_of_fieldBounds
    {blueprint : Blueprint}
    (allowed : fieldBounds blueprint = .ok ()) :
    blueprint.KeepsTo .fieldBounds := by
  unfold fieldBounds at allowed
  dsimp only at allowed
  split at allowed
  · next fine =>
      obtain ⟨noneNameless, notZero⟩ := fine
      constructor
      · have some : blueprint.producer.logEvery ≠ 0 := by
          simpa using notZero
        omega
      · intro plan member noName
        obtain ⟨index, stands⟩ := List.mem_iff_getElem?.mp member
        have nameless := mem_nameless_iff.mpr ⟨plan, stands, noName⟩
        rw [List.isEmpty_iff.mp noneNameless] at nameless
        cases nameless
  · cases allowed

theorem breaks_of_fieldBounds
    {blueprint : Blueprint}
    {violation : Violation}
    (fails : fieldBounds blueprint = .error violation) :
    violation.Breaks blueprint .fieldBounds := by
  unfold fieldBounds at fails
  dsimp only at fails
  split at fails
  · cases fails
  · next broken =>
      cases fails
      refine .fieldBounds (fun _ => mem_nameless_iff) beq_iff_eq ?_
      by_contra fine
      simp_all

theorem within_eq_true_iff
    {least greatest value : Float}
    {low high : ℚ}
    (isLow : Binary64.Means least low)
    (isHigh : Binary64.Means greatest high) :
    within least greatest value = true ↔ Binary64.Between low high value := by
  obtain ⟨leastFinite, rfl⟩ := isLow
  obtain ⟨greatestFinite, rfl⟩ := isHigh
  rw [within, Bool.and_eq_true_iff, decide_eq_true_iff, decide_eq_true_iff]
  constructor
  · rintro ⟨least_le, le_greatest⟩
    have finite := Binary64.isFinite_of_le leastFinite greatestFinite least_le
      le_greatest
    exact ⟨finite, (Binary64.le_iff leastFinite finite).mp least_le,
      (Binary64.le_iff finite greatestFinite).mp le_greatest⟩
  · rintro ⟨finite, least_le, le_greatest⟩
    exact ⟨(Binary64.le_iff leastFinite finite).mpr least_le,
      (Binary64.le_iff finite greatestFinite).mpr le_greatest⟩

/-- The bounds of the centre are the degrees that they are written as. -/
theorem means_bounds :
    (Binary64.Means (-180.0) (-180) ∧ Binary64.Means 180.0 180) ∧
      Binary64.Means (-90.0) (-90) ∧ Binary64.Means 90.0 90 := by
  decide +kernel

theorem longitude_iff
    {value : Float} :
    within (-180.0) 180.0 value = true ↔ Binary64.Between (-180) 180 value :=
  within_eq_true_iff means_bounds.1.1 means_bounds.1.2

theorem latitude_iff
    {value : Float} :
    within (-90.0) 90.0 value = true ↔ Binary64.Between (-90) 90 value :=
  within_eq_true_iff means_bounds.2.1 means_bounds.2.2

theorem amplitude_iff
    {value : Float} :
    (¬ value.isFinite = true ∨ value < 0.0) ↔
      ¬ Binary64.NonNegative value := by
  obtain ⟨zeroFinite, zero⟩ := Binary64.means_zero
  by_cases finite : value.isFinite = true
  · rw [Binary64.lt_iff finite zeroFinite, zero]
    constructor
    · rintro (notFinite | below) ⟨_, nonneg⟩
      · exact notFinite finite
      · exact absurd nonneg (not_le.mpr below)
    · intro broken
      exact .inr (not_le.mp fun nonneg => broken ⟨finite, nonneg⟩)
  · exact iff_of_true (.inl finite) fun fine => finite fine.finite

theorem keepsTo_of_trajectory
    {blueprint : Blueprint}
    (allowed : trajectory blueprint = .ok ()) :
    blueprint.KeepsTo .trajectory := by
  unfold trajectory at allowed
  dsimp only at allowed
  split at allowed
  · cases allowed
  next longitude =>
  split at allowed
  · cases allowed
  next latitude =>
  split at allowed
  · cases allowed
  next amplitude =>
  split at allowed
  · cases allowed
  next step =>
  exact ⟨longitude_iff.mp (not_not.mp longitude),
    latitude_iff.mp (not_not.mp latitude),
    not_not.mp (mt amplitude_iff.mpr amplitude), not_not.mp step⟩

theorem breaks_of_trajectory
    {blueprint : Blueprint}
    {violation : Violation}
    (fails : trajectory blueprint = .error violation) :
    violation.Breaks blueprint .trajectory := by
  unfold trajectory at fails
  dsimp only at fails
  split at fails
  · next broken =>
      cases fails
      exact .longitude (mt longitude_iff.mpr broken)
  split at fails
  · next broken =>
      cases fails
      exact .latitude (mt latitude_iff.mpr broken)
  split at fails
  · next broken =>
      cases fails
      exact .amplitude (amplitude_iff.mp broken)
  split at fails
  · next broken =>
      cases fails
      exact .angularStep (Bool.eq_false_iff.mpr broken)
  · cases fails

theorem address_eq_error_iff
    {field value : String}
    {violation : Violation} :
    address field value = .error violation ↔
      ¬ IsAddress value ∧ violation = .invalidAddress field value := by
  unfold address IsAddress
  cases SocketAddress.read? value <;> simp [eq_comm]

theorem channelAddress_eq_ok_iff
    {plan : ChannelPlan} :
    channelAddress plan = .ok () ↔ plan.HasAddress := by
  unfold channelAddress ChannelPlan.HasAddress
  cases neededParameter plan.kind with
  | none =>
      simp
  | some key =>
      cases configured : plan.parameters.get? key with
      | none =>
          simp [configured]
      | some value =>
          simp [configured, address_eq_ok_iff, IsAddress]

theorem channelFormat_eq_ok_iff
    {plan : ChannelPlan} :
    channelFormat plan = .ok () ↔ plan.HasFormat := by
  unfold channelFormat ChannelPlan.HasFormat
  cases plan.parameters.get? "format" with
  | none =>
      simp
  | some value =>
      cases named : WireFormat.ofParameter? value <;> simp [named]

theorem breaks_of_channelAddress
    {blueprint : Blueprint}
    {plan : ChannelPlan}
    {violation : Violation}
    (runs : plan ∈ blueprint.effectiveChannels)
    (fails : channelAddress plan = .error violation) :
    violation.Breaks blueprint .channels := by
  unfold channelAddress at fails
  split at fails
  · cases fails
  next key needed =>
  split at fails
  · next missing =>
      cases fails
      exact .missingParameter runs needed missing
  · next value configured =>
      obtain ⟨broken, rfl⟩ := address_eq_error_iff.mp fails
      exact .channelAddress runs needed configured broken

theorem breaks_of_channelFormat
    {blueprint : Blueprint}
    {plan : ChannelPlan}
    {violation : Violation}
    (runs : plan ∈ blueprint.effectiveChannels)
    (fails : channelFormat plan = .error violation) :
    violation.Breaks blueprint .channels := by
  unfold channelFormat at fails
  split at fails
  · cases fails
  next value configured =>
  split at fails
  · cases fails
  · next unknown =>
      cases fails
      exact .unknownFormat runs configured unknown

theorem keepsTo_of_channels
    {blueprint : Blueprint}
    (allowed : channels blueprint = .ok ()) :
    blueprint.KeepsTo .channels := by
  obtain ⟨usable, distinct⟩ := channelsFrom_eq_ok_iff.mp allowed
  refine ⟨?_, distinct⟩
  intro plan runs
  obtain ⟨named, _, address, format⟩ := usable plan runs
  exact ⟨named, channelAddress_eq_ok_iff.mp address,
    channelFormat_eq_ok_iff.mp format⟩

/-- What is reported while the rest of the channels is checked, if all names
that were seen are names of earlier channels. -/
theorem breaks_of_channelsFrom
    {blueprint : Blueprint}
    {seen : List String}
    {before plans : List ChannelPlan}
    {violation : Violation}
    (all : blueprint.effectiveChannels = before ++ plans)
    (known : ∀ name ∈ seen, ∃ plan ∈ before, plan.name = name)
    (fails : channelsFrom before.length seen plans = .error violation) :
    violation.Breaks blueprint .channels := by
  induction plans generalizing before seen with
  | nil =>
      cases fails
  | cons plan rest inductionHypothesis =>
      have stands :
          blueprint.effectiveChannels[before.length]? = some plan := by
        rw [all]
        simp
      have runs := List.mem_of_getElem? stands
      rw [channelsFrom_cons] at fails
      split at fails
      · next nameless =>
          cases fails
          exact .emptyName stands nameless
      split at fails
      · next again =>
          cases fails
          obtain ⟨earlier, member, sameName⟩ := known plan.name again
          obtain ⟨index, isEarlier⟩ := List.mem_iff_getElem?.mp member
          have inside : index < before.length :=
            (List.getElem?_eq_some_iff.mp isEarlier).1
          have standsBefore :
              blueprint.effectiveChannels[index]? = some earlier := by
            rw [all, List.getElem?_append_left inside, isEarlier]
          exact .duplicateName inside standsBefore stands sameName
      rcases Result.bind_eq_error_iff.mp fails with address | ⟨_, _, fails⟩
      · exact breaks_of_channelAddress runs address
      rcases Result.bind_eq_error_iff.mp fails with format | ⟨_, _, later⟩
      · exact breaks_of_channelFormat runs format
      have allAgain :
          blueprint.effectiveChannels = (before ++ [plan]) ++ rest := by
        rw [all, List.append_assoc, List.singleton_append]
      have knownNow :
          ∀ name ∈ plan.name :: seen,
            ∃ earlier ∈ before ++ [plan], earlier.name = name := by
        intro name member
        rcases List.mem_cons.mp member with rfl | isSeen
        · exact ⟨plan, by simp, rfl⟩
        · obtain ⟨earlier, isBefore, sameName⟩ := known name isSeen
          exact ⟨earlier, List.mem_append_left _ isBefore, sameName⟩
      apply inductionHypothesis allAgain knownNow
      rwa [List.length_append]

theorem breaks_of_channels
    {blueprint : Blueprint}
    {violation : Violation}
    (fails : channels blueprint = .error violation) :
    violation.Breaks blueprint .channels :=
  breaks_of_channelsFrom (List.nil_append _).symm
    (List.forall_mem_nil _) fails

theorem keepsTo_of_intake
    {blueprint : Blueprint}
    (allowed : intake blueprint = .ok ()) :
    blueprint.KeepsTo .intake :=
  intake_eq_ok_iff.mp allowed

theorem breaks_of_intake
    {blueprint : Blueprint}
    {violation : Violation}
    (fails : intake blueprint = .error violation) :
    violation.Breaks blueprint .intake := by
  unfold intake at fails
  split at fails
  · cases fails
  · next receives =>
      obtain ⟨broken, rfl⟩ := address_eq_error_iff.mp fails
      exact .listenAddress receives broken

end Rules

/-! ## The verdict -/

namespace RuleGroup

/-- What a group reports is a rule of it that is broken. -/
theorem breaks_of_check
    {group : RuleGroup}
    {blueprint : Blueprint}
    {violation : Violation}
    (fails : group.check blueprint = .error violation) :
    violation.Breaks blueprint group := by
  cases group with
  | rates =>
      exact Rules.breaks_of_rates fails
  | fieldBounds =>
      exact Rules.breaks_of_fieldBounds fails
  | trajectory =>
      exact Rules.breaks_of_trajectory fails
  | channels =>
      exact Rules.breaks_of_channels fails
  | intake =>
      exact Rules.breaks_of_intake fails

/-- A group finds nothing exactly if the blueprint keeps to it. -/
theorem check_eq_ok_iff
    {group : RuleGroup}
    {blueprint : Blueprint} :
    group.check blueprint = .ok () ↔ blueprint.KeepsTo group := by
  constructor
  · intro allowed
    cases group with
    | rates =>
        exact Rules.keepsTo_of_rates allowed
    | fieldBounds =>
        exact Rules.keepsTo_of_fieldBounds allowed
    | trajectory =>
        exact Rules.keepsTo_of_trajectory allowed
    | channels =>
        exact Rules.keepsTo_of_channels allowed
    | intake =>
        exact Rules.keepsTo_of_intake allowed
  · intro keeps
    cases found : group.check blueprint with
    | ok nothing =>
        rfl
    | error violation =>
        exact absurd keeps (breaks_of_check found).not_keepsTo

end RuleGroup

namespace Blueprint

theorem validate_eq
    (blueprint : Blueprint) :
    blueprint.validate =
      forM RuleGroup.inOrder fun group => group.check blueprint := by
  simp only [validate, RuleGroup.inOrder, RuleGroup.check, List.forM_cons,
    List.forM_nil, bind_pure_unit]

/-- A blueprint is accepted exactly if it keeps to all groups. -/
theorem validate_eq_ok_iff_keepsTo
    {blueprint : Blueprint} :
    blueprint.validate = .ok () ↔ ∀ group, blueprint.KeepsTo group := by
  rw [validate_eq_ok_iff]
  constructor
  · rintro ⟨rates, bounds, trajectory, channels, intake⟩ group
    rw [← RuleGroup.check_eq_ok_iff]
    cases group <;> assumption
  · intro keeps
    have allowed (group : RuleGroup) : group.check blueprint = .ok () :=
      RuleGroup.check_eq_ok_iff.mpr (keeps group)
    exact ⟨allowed .rates, allowed .fieldBounds, allowed .trajectory,
      allowed .channels, allowed .intake⟩

/-- A blueprint is refused for a rule that it breaks, and it keeps to all groups
before the one of this rule. -/
theorem exists_breaks_of_validate
    {blueprint : Blueprint}
    {violation : Violation}
    (fails : blueprint.validate = .error violation) :
    ∃ before group after,
      RuleGroup.inOrder = before ++ group :: after ∧
        (∀ earlier ∈ before, blueprint.KeepsTo earlier) ∧
        violation.Breaks blueprint group := by
  rw [validate_eq] at fails
  obtain ⟨before, group, after, order, allowed, found⟩ :=
    Result.exists_first_of_forM fails
  refine ⟨before, group, after, order, ?_, RuleGroup.breaks_of_check found⟩
  intro earlier member
  exact RuleGroup.check_eq_ok_iff.mp (allowed earlier member)

/-- A blueprint with its channels in another order. -/
def withChannels (blueprint : Blueprint) (plans : List ChannelPlan) :
    Blueprint :=
  { blueprint with channels := plans }

theorem effectiveChannels_perm
    {blueprint : Blueprint}
    {plans : List ChannelPlan}
    (shuffled : plans.Perm blueprint.channels) :
    (blueprint.withChannels plans).effectiveChannels.Perm
      blueprint.effectiveChannels := by
  unfold effectiveChannels withChannels
  rw [shuffled.isEmpty_eq]
  split
  · exact .rfl
  · exact shuffled

theorem KeepsTo.perm
    {blueprint : Blueprint}
    {plans : List ChannelPlan}
    (shuffled : plans.Perm blueprint.channels)
    (group : RuleGroup) :
    (blueprint.withChannels plans).KeepsTo group ↔
      blueprint.KeepsTo group := by
  have effective := effectiveChannels_perm shuffled
  cases group with
  | rates =>
      exact and_congr_right fun _ => forall_congr' fun _ =>
        imp_congr_left shuffled.mem_iff
  | fieldBounds =>
      exact and_congr_right fun _ => forall_congr' fun _ =>
        imp_congr_left shuffled.mem_iff
  | trajectory =>
      exact Iff.rfl
  | channels =>
      exact and_congr
        (forall_congr' fun _ => imp_congr_left effective.mem_iff)
        (effective.map _).nodup_iff
  | intake =>
      exact Iff.rfl

/-- A blueprint is accepted exactly if it keeps to all rules, in whichever order
its channels stand.  Otherwise the first group that is broken reports a rule
that is really broken. -/
theorem every_verdict_is_right
    (blueprint : Blueprint) :
    (blueprint.validate = .ok () ↔ ∀ group, blueprint.KeepsTo group) ∧
      (∀ violation, blueprint.validate = .error violation →
        ∃ before group after,
          RuleGroup.inOrder = before ++ group :: after ∧
            (∀ earlier ∈ before, blueprint.KeepsTo earlier) ∧
            ¬ blueprint.KeepsTo group ∧
            violation.Breaks blueprint group) ∧
      ∀ plans : List ChannelPlan, plans.Perm blueprint.channels →
        ((blueprint.withChannels plans).validate = .ok () ↔
          blueprint.validate = .ok ()) := by
  refine ⟨validate_eq_ok_iff_keepsTo, ?_, ?_⟩
  · intro violation fails
    obtain ⟨before, group, after, order, keeps, breaks⟩ :=
      exists_breaks_of_validate fails
    exact ⟨before, group, after, order, keeps, breaks.not_keepsTo, breaks⟩
  · intro plans shuffled
    rw [validate_eq_ok_iff_keepsTo, validate_eq_ok_iff_keepsTo]
    exact forall_congr' (KeepsTo.perm shuffled)

/-- Two channels of one name, and nowhere to listen. -/
def withTwins : Blueprint where
  version := .first
  role := .subscriber
  producer := .default
  trajectory := .default
  intake := { IntakePlan.default with listenAddress := "nowhere" }
  channels := [.plain "log" .log 10.0, .plain "log" .log 5.0]

/-- The second name is reported, and the address behind it is not. -/
theorem withTwins_is_refused :
    withTwins.validate = .error (.duplicateName "log") ∧
      ∃ before group after,
        RuleGroup.inOrder = before ++ group :: after ∧
          (∀ earlier ∈ before, withTwins.KeepsTo earlier) ∧
          ¬ withTwins.KeepsTo group ∧
          (Violation.duplicateName "log").Breaks withTwins group := by
  have refused : withTwins.validate = .error (.duplicateName "log") := by
    decide +kernel
  exact ⟨refused, (every_verdict_is_right withTwins).2.1 _ refused⟩

end Blueprint

end PositionFeed
