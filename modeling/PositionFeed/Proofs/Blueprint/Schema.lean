import Mathlib.Data.List.Forall2
import Mathlib.Data.List.Nodup
import PositionFeed.Configuration
import PositionFeed.Proofs.Document.Schema

namespace PositionFeed

/-!
# Blueprints read back

The fields of a blueprint are read as this blueprint, whatever their order and
whichever format they come from.  A channel that names no policy has no field
for it.
-/

open Schema

/-- A name out of a list is written as a text in both formats. -/
def Schema.Dialect.ReadsNames (dialect : Dialect) : Prop :=
  ∀ names name, dialect.variant names (.text name) = knownName names name

theorem json_readsNames : json.ReadsNames :=
  fun _ _ => rfl

theorem toml_readsNames : toml.ReadsNames :=
  fun _ _ => rfl

section Names

variable
  {dialect : Dialect}
  (readsNames : dialect.ReadsNames)

include readsNames

theorem named_text
    {names : List String}
    {ofName? : String → Option α}
    {name : String}
    {value : α}
    (known : name ∈ names)
    (isName : ofName? name = some value)
    (default : α) :
    named dialect names ofName? default (.text name) = .ok value := by
  rw [named, readsNames, knownName, if_pos known]
  change Except.ok ((ofName? name).getD default) = _
  rw [isName, Option.getD_some]

theorem Version.decode_name
    (version : Version) :
    Version.decode dialect (.text version.name) = .ok version := by
  cases version
  exact named_text readsNames (by decide) (by rfl) _

theorem Role.decode_name
    (role : Role) :
    Role.decode dialect (.text role.name) = .ok role := by
  cases role <;> exact named_text readsNames (by decide) (by rfl) _

theorem WireFormat.decode_name
    (format : WireFormat) :
    WireFormat.decode dialect (.text format.name) = .ok format := by
  cases format <;> exact named_text readsNames (by decide) (by rfl) _

theorem ChannelKind.decode_name
    (kind : ChannelKind) :
    ChannelKind.decode dialect (.text kind.name) = .ok kind := by
  cases kind <;> exact named_text readsNames (by decide) (by rfl) _

theorem ForwardPolicy.decode_name
    (policy : ForwardPolicy) :
    ForwardPolicy.decode dialect (.text policy.name) = .ok policy := by
  cases policy <;> exact named_text readsNames (by decide) (by rfl) _

end Names

/-! ## Parameters -/

namespace Parameters

/-- The greatest key goes to the end. -/
theorem insertEntry_append
    {key value : String}
    {entries : List (String × String)}
    (greatest : ∀ entry ∈ entries, entry.1 < key) :
    insertEntry key value entries = entries ++ [(key, value)] := by
  induction entries with
  | nil =>
      rfl
  | cons entry rest inductionHypothesis =>
      have below := greatest entry List.mem_cons_self
      have notAbove : ¬ key < entry.1 := fun above =>
        String.lt_irrefl _ (String.lt_trans above below)
      have different : key ≠ entry.1 := by
        rintro rfl
        exact String.lt_irrefl _ below
      rw [insertEntry, if_neg notAbove, if_neg different,
        inductionHypothesis fun other member =>
          greatest other (List.mem_cons_of_mem _ member)]
      rfl

/-- Parameters are made again of their entries. -/
theorem ofList_entries
    (parameters : Parameters) :
    ofList parameters.entries = parameters := by
  suffices onto :
      ∀ (rest : List (String × String)) (before : Parameters),
        (before.entries ++ rest).Pairwise
            (fun first second => first.1 < second.1) →
          (rest.foldl (fun parameters entry =>
            parameters.insert entry.1 entry.2) before).entries =
            before.entries ++ rest by
    have same : (ofList parameters.entries).entries = parameters.entries :=
      onto parameters.entries empty parameters.ascending
    cases made : ofList parameters.entries
    cases parameters
    simp_all
  intro rest
  induction rest with
  | nil =>
      simp
  | cons entry rest inductionHypothesis =>
      intro before ascending
      have greatest : ∀ other ∈ before.entries, other.1 < entry.1 :=
        fun other member =>
          (List.pairwise_append.mp ascending).2.2 other member entry
            List.mem_cons_self
      have inserted : (before.insert entry.1 entry.2).entries =
          before.entries ++ [entry] :=
        insertEntry_append greatest
      rw [List.foldl_cons, inductionHypothesis, inserted]
      · simp
      · simpa [inserted] using ascending

theorem insertEntry_comm
    {first second : String × String}
    (different : first.1 ≠ second.1)
    (entries : List (String × String)) :
    insertEntry first.1 first.2 (insertEntry second.1 second.2 entries) =
      insertEntry second.1 second.2
        (insertEntry first.1 first.2 entries) := by
  induction entries with
  | nil =>
      grind [insertEntry]
  | cons entry rest inductionHypothesis =>
      grind [insertEntry]

/-- Texts under distinct keys make the same parameters in any order. -/
theorem ofList_perm
    {first second : List (String × String)}
    (distinct : (first.map Prod.fst).Nodup)
    (perm : first.Perm second) :
    ofList first = ofList second := by
  refine perm.foldl_eq' ?_ _
  intro entry member other otherMember parameters
  by_cases same : entry.1 = other.1
  · rw [List.inj_on_of_nodup_map distinct member otherMember same]
  · simp only [insert, insertEntry_comm same]

/-- Keys that ascend are distinct. -/
theorem nodup_of_ascending
    {entries : List (String × α)}
    (ascending : entries.Pairwise fun first second => first.1 < second.1) :
    (entries.map Prod.fst).Nodup := by
  rw [List.Nodup, List.pairwise_map]
  exact ascending.imp Std.ne_of_lt

/-- Parameters are made again of their entries in any order. -/
theorem ofList_of_perm
    {parameters : Parameters}
    {entries : List (String × String)}
    (perm : entries.Perm parameters.entries) :
    ofList entries = parameters := by
  rw [← ofList_perm (nodup_of_ascending parameters.ascending) perm.symm,
    ofList_entries]

/-- The table that texts are read from. -/
def node (entries : List (String × String)) : Node :=
  .table (entries.map fun entry => (some entry.1, .text entry.2)) true

theorem textMap_node
    (entries : List (String × String)) :
    textMap (node entries) = .ok entries := by
  have areRead (list : List (String × String)) :
      textEntries (list.map fun entry => (some entry.1, .text entry.2)) =
        .ok list := by
    induction list with
    | nil =>
        rfl
    | cons entry rest inductionHypothesis =>
        rw [List.map_cons, textEntries, inductionHypothesis]
        rfl
  rw [node, textMap, areRead]
  rfl

end Parameters

/-- The order leaves no parameter of the channels out and adds none. -/
def ParameterOrder.Arranges
    (order : ParameterOrder)
    (plans : List ChannelPlan) : Prop :=
  ∀ plan ∈ plans, (order plan).Perm plan.parameters.entries

theorem ParameterOrder.byKey_arranges
    (plans : List ChannelPlan) :
    byKey.Arranges plans :=
  fun _ _ => .refl _

/-! ## Sections -/

/-- A field whose value can be read passes its check. -/
theorem Schema.Fits.of_read
    {record : List Field}
    {name : String}
    {required : Bool}
    {read : Node → Reading α}
    {node : Node}
    {value : α}
    (found : record.find? (·.name == name) = some (.of name required read))
    (isRead : read node = .ok value) :
    Fits record (name, node) := by
  refine ⟨_, found, ?_⟩
  change (read node).map _ = _
  rw [isRead]
  rfl

section Found

variable
  {present : Present}
  {name : String}
  {node : Node}
  {read : Node → Reading α}
  {value : α}

theorem Schema.Present.orDefault_eq
    (found : present.lookup name = some node)
    (isRead : read node = .ok value)
    (default : α) :
    present.orDefault name read default = .ok value := by
  rw [orDefault, found, ← isRead]

theorem Schema.Present.wanted_eq
    (found : present.lookup name = some node)
    (isRead : read node = .ok value) :
    present.wanted name read = .ok value := by
  rw [wanted, found, ← isRead]

end Found

theorem Schema.number_fraction
    (value : Float) :
    number (.fraction value) = .ok value :=
  rfl

theorem Schema.text_text
    (value : String) :
    text (.text value) = .ok value :=
  rfl

theorem Schema.natural64_integer
    {value : Nat}
    (bounded : value ≤ Word.greatest 64) :
    natural64 (.integer value) = .ok value := by
  have within : 0 ≤ (value : Int) ∧ (value : Int) ≤ Word.greatest 64 :=
    ⟨Int.natCast_nonneg _, by exact_mod_cast bounded⟩
  simp only [natural64, natural, if_pos within, Int.toNat_natCast]

/-- The fields of a producer section. -/
def ProducerPlan.fields (plan : ProducerPlan) : Present :=
  [("rate_hz", .fraction plan.rate), ("log_every", .integer plan.logEvery)]

theorem ProducerPlan.decode_holds
    (dialect : Dialect)
    {plan : ProducerPlan}
    (bounded : plan.logEvery ≤ Word.greatest 64)
    {node : Node}
    (holds : Holds plan.fields node) :
    decode dialect node = .ok plan := by
  have fits :
      ∀ entry ∈ plan.fields,
        Fits [.of "rate_hz" false number, .of "log_every" false natural64]
          entry := by
    simp only [fields, List.forall_mem_cons]
    exact ⟨.of_read rfl rfl, .of_read rfl (natural64_integer bounded),
      List.forall_mem_nil _⟩
  obtain ⟨present, read, found⟩ :=
    record_holds dialect "ProducerConfig" holds (by simp [fields]) fits
  rw [decode, read]
  dsimp only [bind, Except.bind]
  rw [Present.orDefault_eq (found "rate_hz") (number_fraction _),
    Present.orDefault_eq (found "log_every") (natural64_integer bounded)]

/-- The fields of a trajectory section. -/
def Trajectory.fields (shape : Trajectory) : Present :=
  [("center_lon", .fraction shape.centreLongitude),
    ("center_lat", .fraction shape.centreLatitude),
    ("amplitude", .fraction shape.amplitude),
    ("angular_step", .fraction shape.angularStep)]

theorem Trajectory.decode_holds
    (dialect : Dialect)
    {shape : Trajectory}
    {node : Node}
    (holds : Holds shape.fields node) :
    decode dialect node = .ok shape := by
  have fits :
      ∀ entry ∈ shape.fields,
        Fits [.of "center_lon" false number, .of "center_lat" false number,
          .of "amplitude" false number, .of "angular_step" false number]
          entry := by
    simp only [fields, List.forall_mem_cons]
    exact ⟨.of_read rfl rfl, .of_read rfl rfl, .of_read rfl rfl,
      .of_read rfl rfl, List.forall_mem_nil _⟩
  obtain ⟨present, read, found⟩ :=
    record_holds dialect "TrajectoryConfig" holds (by simp [fields]) fits
  rw [decode, read]
  dsimp only [bind, Except.bind]
  rw [Present.orDefault_eq (found "center_lon") (number_fraction _),
    Present.orDefault_eq (found "center_lat") (number_fraction _),
    Present.orDefault_eq (found "amplitude") (number_fraction _),
    Present.orDefault_eq (found "angular_step") (number_fraction _)]

/-- The fields of a subscriber section. -/
def IntakePlan.fields (plan : IntakePlan) : Present :=
  [("listen_addr", .text plan.listenAddress),
    ("format", .text plan.format.name)]

theorem IntakePlan.decode_holds
    {dialect : Dialect}
    (readsNames : dialect.ReadsNames)
    {plan : IntakePlan}
    {node : Node}
    (holds : Holds plan.fields node) :
    decode dialect node = .ok plan := by
  have format := WireFormat.decode_name readsNames plan.format
  have fits :
      ∀ entry ∈ plan.fields,
        Fits [.of "listen_addr" false text,
          .of "format" false (WireFormat.decode dialect)] entry := by
    simp only [fields, List.forall_mem_cons]
    exact ⟨.of_read rfl rfl, .of_read rfl format, List.forall_mem_nil _⟩
  obtain ⟨present, read, found⟩ :=
    record_holds dialect "SubscriberConfig" holds (by simp [fields]) fits
  rw [decode, read]
  dsimp only [bind, Except.bind]
  rw [Present.orDefault_eq (found "listen_addr") (text_text _),
    Present.orDefault_eq (found "format") format]

/-! ## Channels -/

/-- The field of a policy that is named. -/
def policyFields : Option ForwardPolicy → Present
  | some policy => [("policy", .text policy.name)]
  | none => []

/-- The fields of a channel, with these entries for its parameters. -/
def ChannelPlan.fields (plan : ChannelPlan)
    (entries : List (String × String)) : Present :=
  [("name", .text plan.name), ("kind", .text plan.kind.name),
    ("rate_hz", .fraction plan.rate)] ++
    policyFields plan.policy ++
    [("params", Parameters.node entries)]

/-- A node is a table of a channel, with its parameters in some order. -/
inductive ChannelPlan.HeldBy (plan : ChannelPlan) (node : Node) : Prop where
  | intro
      {entries : List (String × String)}
      (perm : entries.Perm plan.parameters.entries)
      (held : Holds (plan.fields entries) node)

theorem ChannelPlan.decode_heldBy
    {dialect : Dialect}
    (readsNames : dialect.ReadsNames)
    {plan : ChannelPlan}
    {node : Node}
    (heldBy : plan.HeldBy node) :
    decode dialect node = .ok plan := by
  obtain @⟨entries, perm, holds⟩ := heldBy
  have kind := ChannelKind.decode_name readsNames plan.kind
  have parameters := Parameters.textMap_node entries
  have isPolicy (policy : ForwardPolicy) :
      optional (ForwardPolicy.decode dialect) (.text policy.name) =
        .ok (some policy) :=
    congrArg (Except.map some) (ForwardPolicy.decode_name readsNames policy)
  have distinct : ((plan.fields entries).map Prod.fst).Nodup := by
    unfold fields
    cases plan.policy <;> simp [policyFields]
  have fits :
      ∀ entry ∈ plan.fields entries,
        Fits [.of "name" true text,
          .of "kind" true (ChannelKind.decode dialect),
          .of "rate_hz" true number,
          .of "policy" false (optional (ForwardPolicy.decode dialect)),
          .of "params" false textMap] entry := by
    simp only [fields, List.forall_mem_append, List.forall_mem_cons]
    refine ⟨⟨⟨.of_read rfl rfl, .of_read rfl kind, .of_read rfl rfl,
      List.forall_mem_nil _⟩, ?_⟩, .of_read rfl parameters,
      List.forall_mem_nil _⟩
    cases plan.policy with
    | none =>
        exact List.forall_mem_nil _
    | some policy =>
        rw [policyFields, List.forall_mem_singleton]
        exact .of_read rfl (isPolicy policy)
  obtain ⟨present, read, found⟩ :=
    record_holds dialect "ChannelConfig" holds distinct fits
  have policy :
      present.orDefault "policy" (optional (ForwardPolicy.decode dialect))
        none = .ok plan.policy := by
    have isFound := found "policy"
    rw [fields] at isFound
    cases isNamed : plan.policy with
    | none =>
        rw [isNamed] at isFound
        have absent : present.lookup "policy" = none := isFound
        rw [Present.orDefault, absent]
    | some policy =>
        rw [isNamed] at isFound
        exact Present.orDefault_eq isFound (isPolicy policy) none
  have parametersFound :
      present.lookup "params" = some (Parameters.node entries) := by
    rw [found, fields]
    cases plan.policy <;> rfl
  rw [decode, read]
  dsimp only [bind, Except.bind]
  rw [Present.wanted_eq (found "name") (text_text _),
    Present.wanted_eq (found "kind") kind,
    Present.wanted_eq (found "rate_hz") (number_fraction _), policy,
    Present.orDefault_eq parametersFound parameters]
  dsimp only
  rw [Parameters.ofList_of_perm perm]

theorem sequence_heldBy
    {dialect : Dialect}
    (readsNames : dialect.ReadsNames)
    {plans : List ChannelPlan}
    {nodes : List Node}
    (held : List.Forall₂ ChannelPlan.HeldBy plans nodes) :
    Schema.sequence (ChannelPlan.decode dialect) (.sequence nodes true) =
      .ok plans := by
  suffices read : items (ChannelPlan.decode dialect) nodes = .ok plans by
    rw [Schema.sequence, read]
    rfl
  induction held with
  | nil =>
      rfl
  | cons holds _ inductionHypothesis =>
      rw [items, ChannelPlan.decode_heldBy readsNames holds,
        inductionHypothesis]
      rfl

/-! ## Blueprints -/

namespace Blueprint

/-- The fields of a blueprint with these nodes for its sections. -/
def fields (blueprint : Blueprint) (producer trajectory intake : Node)
    (channels : List Node) : Present :=
  [("version", .text blueprint.version.name),
    ("role", .text blueprint.role.name), ("producer", producer),
    ("trajectory", trajectory), ("subscriber", intake),
    ("channels", .sequence channels true)]

/-- A node is a table of the sections of a blueprint. -/
inductive HeldBy (blueprint : Blueprint) (node : Node) : Prop where
  | intro
      {producer trajectory intake : Node}
      {channels : List Node}
      (producerHeld : Holds blueprint.producer.fields producer)
      (trajectoryHeld : Holds blueprint.trajectory.fields trajectory)
      (intakeHeld : Holds blueprint.intake.fields intake)
      (channelsHeld :
        List.Forall₂ ChannelPlan.HeldBy blueprint.channels channels)
      (held : Holds (blueprint.fields producer trajectory intake channels) node)

/-- A table of the sections of a blueprint is read as this blueprint. -/
theorem decode_heldBy
    {dialect : Dialect}
    (readsNames : dialect.ReadsNames)
    {blueprint : Blueprint}
    (bounded : blueprint.producer.logEvery ≤ Word.greatest 64)
    {node : Node}
    (heldBy : blueprint.HeldBy node) :
    decode dialect node = .ok blueprint := by
  obtain @⟨producerNode, trajectoryNode, intakeNode, channelNodes,
    producerHeld, trajectoryHeld, intakeHeld, channelsHeld, held⟩ := heldBy
  have version := Version.decode_name readsNames blueprint.version
  have role := Role.decode_name readsNames blueprint.role
  have producer := ProducerPlan.decode_holds dialect bounded producerHeld
  have trajectory := Trajectory.decode_holds dialect trajectoryHeld
  have intake := IntakePlan.decode_holds readsNames intakeHeld
  have channels := sequence_heldBy readsNames channelsHeld
  have fits :
      ∀ entry ∈ blueprint.fields producerNode trajectoryNode intakeNode
          channelNodes,
        Fits [.of "version" false (Version.decode dialect),
          .of "role" false (Role.decode dialect),
          .of "producer" false (ProducerPlan.decode dialect),
          .of "trajectory" false (Trajectory.decode dialect),
          .of "subscriber" false (IntakePlan.decode dialect),
          .of "channels" false (sequence (ChannelPlan.decode dialect))]
          entry := by
    simp only [fields, List.forall_mem_cons]
    exact ⟨.of_read rfl version, .of_read rfl role, .of_read rfl producer,
      .of_read rfl trajectory, .of_read rfl intake, .of_read rfl channels,
      List.forall_mem_nil _⟩
  obtain ⟨present, read, found⟩ :=
    record_holds dialect "PipelineBlueprint" held (by simp [fields]) fits
  rw [decode, read]
  dsimp only [bind, Except.bind]
  rw [Present.orDefault_eq (found "version") version,
    Present.orDefault_eq (found "role") role,
    Present.orDefault_eq (found "producer") producer,
    Present.orDefault_eq (found "trajectory") trajectory,
    Present.orDefault_eq (found "subscriber") intake,
    Present.orDefault_eq (found "channels") channels]

end Blueprint

/-- A configuration is loaded if it is read as a blueprint that the rules
accept. -/
theorem Configuration.load_eq_ok_iff
    {format : ConfigurationFormat}
    {text : List Char}
    {blueprint : Blueprint} :
    load format text = .ok blueprint ↔
      parse format text = .ok blueprint ∧ blueprint.validate = .ok () := by
  rw [load, Result.bind_eq_ok_iff]
  constructor
  · rintro ⟨parsed, isParsed, checked⟩
    obtain ⟨_, accepted, same⟩ := Result.bind_eq_ok_iff.mp checked
    cases same
    exact ⟨isParsed, Result.mapError_eq_ok_iff.mp accepted⟩
  · rintro ⟨isParsed, valid⟩
    refine ⟨blueprint, isParsed, Result.bind_eq_ok_iff.mpr ⟨(), ?_, rfl⟩⟩
    exact Result.mapError_eq_ok_iff.mpr valid

end PositionFeed
