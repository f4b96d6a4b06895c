import Mathlib.Data.List.Perm.Basic
import Mathlib.Logic.Relation
import PositionFeed.Proofs.Blueprint.Schema
import PositionFeed.Proofs.Document.Record

namespace PositionFeed

/-!
# Partial configurations

A configuration says what differs from the usual and leaves out the rest.  What
is left out has its default, wherever it is left out: a field of a section, or
a section with all its fields.  So a configuration means the same when a
default is written out, and also when keys without a meaning are added to it or
keys change their places.

Sections are nested, and an edit of one is an edit of those around it that
replaces one value.  That the two values are read alike goes from the inside to
the outside.
-/

open Schema

/-- A part of a configuration with parts of its own. -/
inductive Section where
  /-- The configuration as a whole. -/
  | whole
  | producer
  | trajectory
  /-- Where positions are received. -/
  | intake
  /-- The list of the channels. -/
  | channels
  /-- One of them. -/
  | channel
  /-- The parameters of a channel. -/
  | parameters
  deriving Repr, DecidableEq

/-- Reads the parameters of a channel. -/
def Parameters.decode (node : Node) : Reading Parameters :=
  (textMap node).map Parameters.ofList

namespace Section

/-- What a section is read as. -/
def Value : Section → Type
  | .whole => Blueprint
  | .producer => ProducerPlan
  | .trajectory => Trajectory
  | .intake => IntakePlan
  | .channels => List ChannelPlan
  | .channel => ChannelPlan
  | .parameters => Parameters

/-- How a section is read. -/
def read (dialect : Dialect) : (part : Section) → Node → Reading part.Value
  | .whole => Blueprint.decode dialect
  | .producer => ProducerPlan.decode dialect
  | .trajectory => Trajectory.decode dialect
  | .intake => IntakePlan.decode dialect
  | .channels => sequence (ChannelPlan.decode dialect)
  | .channel => ChannelPlan.decode dialect
  | .parameters => Parameters.decode

/-- The keys that a section has a use for. -/
def keys : Section → List String
  | .whole =>
      ["version", "role", "producer", "trajectory", "subscriber", "channels"]
  | .producer => ["rate_hz", "log_every"]
  | .trajectory => ["center_lon", "center_lat", "amplitude", "angular_step"]
  | .intake => ["listen_addr", "format"]
  | .channel => ["name", "kind", "rate_hz", "policy", "params"]
  | .channels => []
  | .parameters => []

/-- The keys that a section cannot do without. -/
def required : Section → List String
  | .channel => ["name", "kind", "rate_hz"]
  | _ => []

/-- Whether a section has a use for a key; parameters may have any. -/
def Declares (part : Section) (key : String) : Prop :=
  part = .parameters ∨ key ∈ part.keys

/-- The sections inside a section, by their keys. -/
def parts : Section → List (String × Section)
  | .whole =>
      [("producer", .producer), ("trajectory", .trajectory),
        ("subscriber", .intake), ("channels", .channels)]
  | .channel => [("params", .parameters)]
  | _ => []

/-- How the default of each key can be written that a section can do without:
as whatever is read as the default. -/
def defaults (dialect : Dialect) : Section → List (String × (Node → Prop))
  | .whole =>
      [("version", fun node =>
          Version.decode dialect node = .ok Blueprint.default.version),
        ("role", fun node =>
          Role.decode dialect node = .ok Blueprint.default.role),
        ("producer", fun node =>
          ProducerPlan.decode dialect node = .ok Blueprint.default.producer),
        ("trajectory", fun node =>
          Trajectory.decode dialect node = .ok Blueprint.default.trajectory),
        ("subscriber", fun node =>
          IntakePlan.decode dialect node = .ok Blueprint.default.intake),
        ("channels", fun node =>
          sequence (ChannelPlan.decode dialect) node =
            .ok Blueprint.default.channels)]
  | .producer =>
      [("rate_hz", fun node =>
          number node = .ok Blueprint.default.producer.rate),
        ("log_every", fun node =>
          natural64 node = .ok Blueprint.default.producer.logEvery)]
  | .trajectory =>
      [("center_lon", fun node =>
          number node = .ok Blueprint.default.trajectory.centreLongitude),
        ("center_lat", fun node =>
          number node = .ok Blueprint.default.trajectory.centreLatitude),
        ("amplitude", fun node =>
          number node = .ok Blueprint.default.trajectory.amplitude),
        ("angular_step", fun node =>
          number node = .ok Blueprint.default.trajectory.angularStep)]
  | .intake =>
      [("listen_addr", fun node =>
          text node = .ok Blueprint.default.intake.listenAddress),
        ("format", fun node =>
          WireFormat.decode dialect node =
            .ok Blueprint.default.intake.format)]
  | .channel =>
      [("policy", fun node =>
          optional (ForwardPolicy.decode dialect) node = .ok none),
        ("params", fun node =>
          Parameters.decode node = .ok Parameters.empty)]
  | .channels => []
  | .parameters => []

/-- Whether a node writes out the default of a key. -/
def IsDefault (dialect : Dialect) (part : Section) (key : String)
    (node : Node) : Prop :=
  ∃ spells, (part.defaults dialect).lookup key = some spells ∧ spells node

/-- Whether two nodes under a key are sections that are read alike. -/
def Similar (dialect : Dialect) (part : Section) (key : String)
    (node other : Node) : Prop :=
  ∃ inner, part.parts.lookup key = some inner ∧
    Agree (inner.read dialect) node other

end Section

/-- An edit of a section, or of a section inside it, that changes nothing. -/
inductive Alters (dialect : Dialect) : Section → Node → Node → Prop where
  /-- A default is written out. -/
  | completed
      {part : Section}
      {before after : Keyed}
      {key : String}
      {node : Node}
      {closed : Bool}
      (absent : some key ∉ (before ++ after).map Prod.fst)
      (spells : part.IsDefault dialect key node) :
      Alters dialect part (.table (before ++ after) closed)
        (.table (before ++ (some key, node) :: after) closed)
  /-- A key is added that the section has no use for. -/
  | extended
      {part : Section}
      {before after : Keyed}
      {key : String}
      {node : Node}
      {closed : Bool}
      (undeclared : ¬ part.Declares key)
      (ignorable : node.ignorable = true) :
      Alters dialect part (.table (before ++ after) closed)
        (.table (before ++ (some key, node) :: after) closed)
  /-- Keys change their places. -/
  | reordered
      {part : Section}
      {first second : Keyed}
      {closed : Bool}
      (distinct : (first.map Prod.fst).Nodup)
      (perm : first.Perm second) :
      Alters dialect part (.table first closed) (.table second closed)
  /-- A section inside is edited. -/
  | inside
      {part inner : Section}
      {before after : Keyed}
      {key : String}
      {node other : Node}
      {closed : Bool}
      (contains : part.parts.lookup key = some inner)
      (alters : Alters dialect inner node other) :
      Alters dialect part (.table (before ++ (some key, node) :: after) closed)
        (.table (before ++ (some key, other) :: after) closed)
  /-- A channel of the list is edited. -/
  | item
      {earlier later : List Node}
      {node other : Node}
      {closed : Bool}
      (alters : Alters dialect .channel node other) :
      Alters dialect .channels (.sequence (earlier ++ node :: later) closed)
        (.sequence (earlier ++ other :: later) closed)

/-! ## What is read from tables -/

section Tables

variable
  {dialect : Dialect}
  {entries : Keyed}
  {closed : Bool}

/-- The fields of a producer section. -/
def ProducerPlan.record : List Field :=
  [.of "rate_hz" false number, .of "log_every" false natural64]

/-- A producer section with each field from a table or its default. -/
@[mk_iff]
structure ProducerPlan.IsReadFrom (entries : Keyed) (plan : ProducerPlan) :
    Prop where
  rate : ValueOf entries "rate_hz" number (some default.rate) plan.rate
  logEvery :
    ValueOf entries "log_every" natural64 (some default.logEvery) plan.logEvery

theorem ProducerPlan.decode_table_iff
    {plan : ProducerPlan} :
    decode dialect (.table entries closed) = .ok plan ↔
      Admitted record entries closed ∧ plan.IsReadFrom entries := by
  obtain ⟨rate, logEvery⟩ := plan
  rw [decode, record_bind_table_eq_ok_iff, isReadFrom_iff]
  refine and_congr_right' ?_
  simp (disch := simp [Field.of]) only [Result.bind_eq_ok_iff,
    orDefault_given_iff]
  simp

/-- The fields of a trajectory section. -/
def Trajectory.record : List Field :=
  [.of "center_lon" false number, .of "center_lat" false number,
    .of "amplitude" false number, .of "angular_step" false number]

/-- A trajectory section with each field from a table or its default. -/
@[mk_iff]
structure Trajectory.IsReadFrom (entries : Keyed) (shape : Trajectory) :
    Prop where
  centreLongitude :
    ValueOf entries "center_lon" number (some default.centreLongitude)
      shape.centreLongitude
  centreLatitude :
    ValueOf entries "center_lat" number (some default.centreLatitude)
      shape.centreLatitude
  amplitude :
    ValueOf entries "amplitude" number (some default.amplitude) shape.amplitude
  angularStep :
    ValueOf entries "angular_step" number (some default.angularStep)
      shape.angularStep

theorem Trajectory.decode_table_iff
    {shape : Trajectory} :
    decode dialect (.table entries closed) = .ok shape ↔
      Admitted record entries closed ∧ shape.IsReadFrom entries := by
  obtain ⟨longitude, latitude, amplitude, step⟩ := shape
  rw [decode, record_bind_table_eq_ok_iff, isReadFrom_iff]
  refine and_congr_right' ?_
  simp (disch := simp [Field.of]) only [Result.bind_eq_ok_iff,
    orDefault_given_iff]
  simp

/-- The fields of a subscriber section. -/
def IntakePlan.record (dialect : Dialect) : List Field :=
  [.of "listen_addr" false text,
    .of "format" false (WireFormat.decode dialect)]

/-- A subscriber section with each field from a table or its default. -/
@[mk_iff]
structure IntakePlan.IsReadFrom (dialect : Dialect) (entries : Keyed)
    (plan : IntakePlan) : Prop where
  listenAddress :
    ValueOf entries "listen_addr" text (some default.listenAddress)
      plan.listenAddress
  format :
    ValueOf entries "format" (WireFormat.decode dialect) (some default.format)
      plan.format

theorem IntakePlan.decode_table_iff
    {plan : IntakePlan} :
    decode dialect (.table entries closed) = .ok plan ↔
      Admitted (record dialect) entries closed ∧
        plan.IsReadFrom dialect entries := by
  obtain ⟨address, format⟩ := plan
  rw [decode, record_bind_table_eq_ok_iff, isReadFrom_iff]
  refine and_congr_right' ?_
  simp (disch := simp [Field.of]) only [Result.bind_eq_ok_iff,
    orDefault_given_iff]
  simp

/-- The fields of a channel. -/
def ChannelPlan.record (dialect : Dialect) : List Field :=
  [.of "name" true text, .of "kind" true (ChannelKind.decode dialect),
    .of "rate_hz" true number,
    .of "policy" false (optional (ForwardPolicy.decode dialect)),
    .of "params" false textMap]

/-- A channel with each field from a table or, if it may be left out, its
default. -/
@[mk_iff]
structure ChannelPlan.IsReadFrom (dialect : Dialect) (entries : Keyed)
    (plan : ChannelPlan) : Prop where
  name : ValueOf entries "name" text none plan.name
  kind : ValueOf entries "kind" (ChannelKind.decode dialect) none plan.kind
  rate : ValueOf entries "rate_hz" number none plan.rate
  policy :
    ValueOf entries "policy" (optional (ForwardPolicy.decode dialect))
      (some none) plan.policy
  parameters :
    ValueOf entries "params" Parameters.decode (some .empty) plan.parameters

theorem ChannelPlan.decode_table_iff
    {plan : ChannelPlan} :
    decode dialect (.table entries closed) = .ok plan ↔
      Admitted (record dialect) entries closed ∧
        plan.IsReadFrom dialect entries := by
  obtain ⟨name, kind, rate, policy, parameters⟩ := plan
  have made :
      ValueOf entries "params" Parameters.decode (some .empty) parameters ↔
        ∃ list, ValueOf entries "params" textMap (some []) list ∧
          Parameters.ofList list = parameters :=
    valueOf_map_iff textMap Parameters.ofList (some [])
  rw [decode, record_bind_table_eq_ok_iff, isReadFrom_iff, made]
  refine and_congr_right' ?_
  simp (disch := simp [Field.of]) only [Result.bind_eq_ok_iff,
    orDefault_given_iff, wanted_given_iff]
  simp

/-- The fields of a blueprint. -/
def Blueprint.record (dialect : Dialect) : List Field :=
  [.of "version" false (Version.decode dialect),
    .of "role" false (Role.decode dialect),
    .of "producer" false (ProducerPlan.decode dialect),
    .of "trajectory" false (Trajectory.decode dialect),
    .of "subscriber" false (IntakePlan.decode dialect),
    .of "channels" false (sequence (ChannelPlan.decode dialect))]

/-- A blueprint with each field from a table or its default. -/
@[mk_iff]
structure Blueprint.IsReadFrom (dialect : Dialect) (entries : Keyed)
    (blueprint : Blueprint) : Prop where
  version :
    ValueOf entries "version" (Version.decode dialect) (some default.version)
      blueprint.version
  role :
    ValueOf entries "role" (Role.decode dialect) (some default.role)
      blueprint.role
  producer :
    ValueOf entries "producer" (ProducerPlan.decode dialect)
      (some default.producer) blueprint.producer
  trajectory :
    ValueOf entries "trajectory" (Trajectory.decode dialect)
      (some default.trajectory) blueprint.trajectory
  intake :
    ValueOf entries "subscriber" (IntakePlan.decode dialect)
      (some default.intake) blueprint.intake
  channels :
    ValueOf entries "channels" (sequence (ChannelPlan.decode dialect))
      (some default.channels) blueprint.channels

theorem Blueprint.decode_table_iff
    {blueprint : Blueprint} :
    decode dialect (.table entries closed) = .ok blueprint ↔
      Admitted (record dialect) entries closed ∧
        blueprint.IsReadFrom dialect entries := by
  rw [decode, record_bind_table_eq_ok_iff, isReadFrom_iff]
  refine and_congr_right' ?_
  simp (disch := simp [Field.of]) only [Result.bind_eq_ok_iff,
    orDefault_given_iff]
  constructor
  · rintro ⟨_, version, _, role, _, producer, _, trajectory, _, intake, _,
      channels, ⟨⟩⟩
    exact ⟨version, role, producer, trajectory, intake, channels⟩
  · rintro ⟨version, role, producer, trajectory, intake, channels⟩
    exact ⟨_, version, _, role, _, producer, _, trajectory, _, intake, _,
      channels, rfl⟩

end Tables

/-! ## Edits of sections -/

namespace Section

variable
  {dialect : Dialect}

/-- An edit of the entries of a section. -/
abbrev Edits (dialect : Dialect) (part : Section) : Keyed → Keyed → Prop :=
  Edit part.Declares (part.IsDefault dialect) (part.Similar dialect)

/-- A field of a section that edits keep. -/
abbrev Keeps (dialect : Dialect) (part : Section) (key : String)
    (read : Node → Reading α) (default : Option α) : Prop :=
  Kept part.Declares (part.IsDefault dialect) (part.Similar dialect) key read
    default

/-- What writes out a default is read as it. -/
theorem exists_usual_of_row
    {part : Section}
    {key : String}
    {read : Node → Reading α}
    {default : Option α}
    (row : (part.defaults dialect).lookup key =
      default.map fun usual node => read node = .ok usual)
    {node : Node}
    (isDefault : part.IsDefault dialect key node) :
    ∃ usual, default = some usual ∧ read node = .ok usual := by
  obtain ⟨spells, isRow, spelled⟩ := isDefault
  obtain ⟨usual, isUsual, rfl⟩ :=
    Option.map_eq_some_iff.mp (row.symm.trans isRow)
  exact ⟨usual, isUsual, spelled⟩

/-- A field without fields of its own, which may have a default. -/
theorem keeps_leaf
    {part : Section}
    {key : String}
    {read : Node → Reading α}
    {default : Option α}
    (declared : key ∈ part.keys)
    (row : (part.defaults dialect).lookup key =
      default.map fun usual node => read node = .ok usual)
    (leaf : part.parts.lookup key = none) :
    part.Keeps dialect key read default where
  declared := .inr declared
  spelled _ := exists_usual_of_row row
  agrees node other := by
    rintro ⟨inner, isPart, _⟩
    cases leaf.symm.trans isPart

/-- A section inside a section. -/
theorem keeps_section
    {part : Section}
    {key : String}
    (inner : Section)
    {usual : inner.Value}
    (declared : key ∈ part.keys)
    (row : (part.defaults dialect).lookup key =
      some fun node => inner.read dialect node = .ok usual)
    (contains : part.parts.lookup key = some inner) :
    part.Keeps dialect key (inner.read dialect) (some usual) where
  declared := .inr declared
  spelled _ := exists_usual_of_row row
  agrees node other := by
    rintro ⟨found, isPart, agree⟩
    cases contains.symm.trans isPart
    exact agree

theorem defaults_subset_keys
    (dialect : Dialect)
    (part : Section) :
    (part.defaults dialect).map Prod.fst ⊆ part.keys := by
  cases part <;> simp [defaults, keys]

theorem parts_subset_keys
    (part : Section) :
    part.parts.map Prod.fst ⊆ part.keys := by
  cases part <;> simp [parts, keys]

/-- A section declares the keys of its record. -/
theorem declares_iff_of_names
    {part : Section}
    (ordinary : part ≠ .parameters)
    {fields : List Field}
    (names : fields.map (·.name) = part.keys)
    (key : String) :
    part.Declares key ↔ (fields.find? (·.name == key)).isSome = true := by
  rw [Declares, ← names]
  simp [ordinary]

/-- A record with the keys of a section is kept if its checks are. -/
theorem keptRecord_of
    {part : Section}
    (ordinary : part ≠ .parameters)
    {fields : List Field}
    (names : fields.map (·.name) = part.keys)
    (checks : ∀ field ∈ fields,
      KeptCheck (part.IsDefault dialect) (part.Similar dialect) field) :
    KeptRecord part.Declares (part.IsDefault dialect) (part.Similar dialect)
      fields where
  declares_iff := declares_iff_of_names ordinary names
  declaresDefault _ _ := fun ⟨_, row, _⟩ =>
    .inr (defaults_subset_keys dialect part (mem_keys_of_lookup row))
  declaresAlike _ _ _ := fun ⟨_, row, _⟩ =>
    .inr (parts_subset_keys part (mem_keys_of_lookup row))
  checks := checks

variable
  {first second : Keyed}
  {closed : Bool}

theorem agree_producer
    (edit : producer.Edits dialect first second) :
    Agree (ProducerPlan.decode dialect) (.table first closed)
      (.table second closed) := by
  have rate :
      producer.Keeps dialect "rate_hz" number
        (some ProducerPlan.default.rate) :=
    keeps_leaf (by decide) rfl rfl
  have logEvery :
      producer.Keeps dialect "log_every" natural64
        (some ProducerPlan.default.logEvery) :=
    keeps_leaf (by decide) rfl rfl
  have kept : KeptRecord _ _ _ ProducerPlan.record :=
    keptRecord_of (nofun : producer ≠ .parameters) rfl <| by
      simp only [ProducerPlan.record, List.forall_mem_cons]
      exact ⟨rate.check _, logEvery.check _, List.forall_mem_nil _⟩
  refine agree_of_kept (fun _ _ _ => ProducerPlan.decode_table_iff) kept edit ?_
  intro plan
  simp only [ProducerPlan.isReadFrom_iff, valueOf_edit_iff edit rate,
    valueOf_edit_iff edit logEvery]

theorem agree_trajectory
    (edit : trajectory.Edits dialect first second) :
    Agree (Trajectory.decode dialect) (.table first closed)
      (.table second closed) := by
  have longitude :
      trajectory.Keeps dialect "center_lon" number
        (some Trajectory.default.centreLongitude) :=
    keeps_leaf (by decide) rfl rfl
  have latitude :
      trajectory.Keeps dialect "center_lat" number
        (some Trajectory.default.centreLatitude) :=
    keeps_leaf (by decide) rfl rfl
  have amplitude :
      trajectory.Keeps dialect "amplitude" number
        (some Trajectory.default.amplitude) :=
    keeps_leaf (by decide) rfl rfl
  have step :
      trajectory.Keeps dialect "angular_step" number
        (some Trajectory.default.angularStep) :=
    keeps_leaf (by decide) rfl rfl
  have kept : KeptRecord _ _ _ Trajectory.record :=
    keptRecord_of (nofun : trajectory ≠ .parameters) rfl <| by
      simp only [Trajectory.record, List.forall_mem_cons]
      exact ⟨longitude.check _, latitude.check _, amplitude.check _,
        step.check _, List.forall_mem_nil _⟩
  refine agree_of_kept (fun _ _ _ => Trajectory.decode_table_iff) kept edit ?_
  intro shape
  simp only [Trajectory.isReadFrom_iff, valueOf_edit_iff edit longitude,
    valueOf_edit_iff edit latitude, valueOf_edit_iff edit amplitude,
    valueOf_edit_iff edit step]

theorem agree_intake
    (edit : intake.Edits dialect first second) :
    Agree (IntakePlan.decode dialect) (.table first closed)
      (.table second closed) := by
  have address :
      intake.Keeps dialect "listen_addr" text
        (some IntakePlan.default.listenAddress) :=
    keeps_leaf (by decide) rfl rfl
  have format :
      intake.Keeps dialect "format" (WireFormat.decode dialect)
        (some IntakePlan.default.format) :=
    keeps_leaf (by decide) rfl rfl
  have kept : KeptRecord _ _ _ (IntakePlan.record dialect) :=
    keptRecord_of (nofun : intake ≠ .parameters) rfl <| by
      simp only [IntakePlan.record, List.forall_mem_cons]
      exact ⟨address.check _, format.check _, List.forall_mem_nil _⟩
  refine agree_of_kept (fun _ _ _ => IntakePlan.decode_table_iff) kept edit ?_
  intro plan
  simp only [IntakePlan.isReadFrom_iff, valueOf_edit_iff edit address,
    valueOf_edit_iff edit format]

theorem agree_channel
    (edit : channel.Edits dialect first second) :
    Agree (ChannelPlan.decode dialect) (.table first closed)
      (.table second closed) := by
  have name : channel.Keeps dialect "name" text none :=
    keeps_leaf (by decide) rfl rfl
  have kind :
      channel.Keeps dialect "kind" (ChannelKind.decode dialect) none :=
    keeps_leaf (by decide) rfl rfl
  have rate : channel.Keeps dialect "rate_hz" number none :=
    keeps_leaf (by decide) rfl rfl
  have policy :
      channel.Keeps dialect "policy"
        (optional (ForwardPolicy.decode dialect)) (some none) :=
    keeps_leaf (by decide) rfl rfl
  have parameters :
      channel.Keeps dialect "params" Parameters.decode
        (some Parameters.empty) :=
    keeps_section .parameters (by decide) rfl rfl
  have sameCheck :
      Field.of "params" false Parameters.decode =
        .of "params" false textMap :=
    Field.of_map textMap Parameters.ofList
  have kept : KeptRecord _ _ _ (ChannelPlan.record dialect) :=
    keptRecord_of (nofun : channel ≠ .parameters) rfl <| by
      simp only [ChannelPlan.record, List.forall_mem_cons]
      exact ⟨name.check _, kind.check _, rate.check _, policy.check _,
        sameCheck ▸ parameters.check _, List.forall_mem_nil _⟩
  refine agree_of_kept (fun _ _ _ => ChannelPlan.decode_table_iff) kept edit ?_
  intro plan
  simp only [ChannelPlan.isReadFrom_iff, valueOf_edit_iff edit name,
    valueOf_edit_iff edit kind, valueOf_edit_iff edit rate,
    valueOf_edit_iff edit policy, valueOf_edit_iff edit parameters]

theorem agree_whole
    (edit : whole.Edits dialect first second) :
    Agree (Blueprint.decode dialect) (.table first closed)
      (.table second closed) := by
  have version :
      whole.Keeps dialect "version" (Version.decode dialect)
        (some Blueprint.default.version) :=
    keeps_leaf (by decide) rfl rfl
  have role :
      whole.Keeps dialect "role" (Role.decode dialect)
        (some Blueprint.default.role) :=
    keeps_leaf (by decide) rfl rfl
  have producer :
      whole.Keeps dialect "producer" (ProducerPlan.decode dialect)
        (some Blueprint.default.producer) :=
    keeps_section .producer (by decide) rfl rfl
  have trajectory :
      whole.Keeps dialect "trajectory" (Trajectory.decode dialect)
        (some Blueprint.default.trajectory) :=
    keeps_section .trajectory (by decide) rfl rfl
  have intake :
      whole.Keeps dialect "subscriber" (IntakePlan.decode dialect)
        (some Blueprint.default.intake) :=
    keeps_section .intake (by decide) rfl rfl
  have channels :
      whole.Keeps dialect "channels" (sequence (ChannelPlan.decode dialect))
        (some Blueprint.default.channels) :=
    keeps_section .channels (by decide) rfl rfl
  have kept : KeptRecord _ _ _ (Blueprint.record dialect) :=
    keptRecord_of (nofun : whole ≠ .parameters) rfl <| by
      simp only [Blueprint.record, List.forall_mem_cons]
      exact ⟨version.check _, role.check _, producer.check _,
        trajectory.check _, intake.check _, channels.check _,
        List.forall_mem_nil _⟩
  refine agree_of_kept (fun _ _ _ => Blueprint.decode_table_iff) kept edit ?_
  intro blueprint
  simp only [Blueprint.isReadFrom_iff, valueOf_edit_iff edit version,
    valueOf_edit_iff edit role, valueOf_edit_iff edit producer,
    valueOf_edit_iff edit trajectory, valueOf_edit_iff edit intake,
    valueOf_edit_iff edit channels]

end Section

/-! ## Parameters in any order -/

namespace Parameters

/-- Entries that are read as texts, each under its key. -/
theorem textEntries_eq_ok_iff
    {entries : Keyed}
    {list : List (String × String)} :
    textEntries entries = .ok list ↔
      List.Forall₂
        (fun entry pair => entry.1 = some pair.1 ∧ text entry.2 = .ok pair.2)
        entries list := by
  induction entries generalizing list with
  | nil =>
      rw [textEntries, Except.ok.injEq, List.forall₂_nil_left_iff, eq_comm]
  | cons entry rest inductionHypothesis =>
      obtain ⟨_ | key, node⟩ := entry
      · simp [textEntries, List.forall₂_cons_left_iff]
      · simp only [textEntries, Result.bind_eq_ok_iff, inductionHypothesis,
          List.forall₂_cons_left_iff, Except.ok.injEq, Prod.exists,
          Option.some.injEq]
        constructor
        · rintro ⟨value, isRead, others, areRead, rfl⟩
          exact ⟨key, value, others, ⟨rfl, isRead⟩, areRead, rfl⟩
        · rintro ⟨_, value, others, ⟨rfl, isRead⟩, areRead, rfl⟩
          exact ⟨value, isRead, others, areRead, rfl⟩

theorem decode_table_iff
    {entries : Keyed}
    {closed : Bool}
    {parameters : Parameters} :
    decode (.table entries closed) = .ok parameters ↔
      closed = true ∧
        ∃ list, textEntries entries = .ok list ∧ ofList list = parameters := by
  rw [decode, Result.map_eq_ok_iff]
  simp only [textMap, Result.bind_eq_ok_iff]
  cases closed <;> simp

theorem keys_of_textEntries
    {entries : Keyed}
    {list : List (String × String)}
    (areRead : textEntries entries = .ok list) :
    entries.map Prod.fst = (list.map Prod.fst).map some := by
  have areTexts := textEntries_eq_ok_iff.mp areRead
  clear areRead
  induction areTexts with
  | nil =>
      rfl
  | cons isPair _ inductionHypothesis =>
      rw [List.map_cons, isPair.1, inductionHypothesis]
      rfl

/-- Distinct keys in another order are read as the same parameters. -/
theorem decode_perm
    {first second : Keyed}
    {closed : Bool}
    {parameters : Parameters}
    (distinct : (first.map Prod.fst).Nodup)
    (perm : first.Perm second)
    (isRead : decode (.table first closed) = .ok parameters) :
    decode (.table second closed) = .ok parameters := by
  obtain ⟨isClosed, list, areRead, rfl⟩ := decode_table_iff.mp isRead
  obtain ⟨other, otherRead, sameTexts⟩ :=
    List.perm_comp_forall₂ perm.symm (textEntries_eq_ok_iff.mp areRead)
  rw [keys_of_textEntries areRead] at distinct
  refine decode_table_iff.mpr
    ⟨isClosed, other, textEntries_eq_ok_iff.mpr otherRead, ?_⟩
  exact (ofList_perm distinct.of_map sameTexts.symm).symm

end Parameters

/-! ## Edits inside -/

theorem Section.agree_parameters
    {dialect : Dialect}
    {first second : Keyed}
    (edit : Section.parameters.Edits dialect first second)
    {closed : Bool} :
    Agree Parameters.decode (.table first closed) (.table second closed) := by
  cases edit with
  | completed absent spells =>
      obtain ⟨_, row, _⟩ := spells
      cases row
  | extended undeclared ignorable =>
      exact absurd (.inl rfl) undeclared
  | reordered distinct perm =>
      have distinctAfter := (perm.map Prod.fst).nodup_iff.mp distinct
      exact fun parameters =>
        ⟨Parameters.decode_perm distinct perm,
          Parameters.decode_perm distinctAfter perm.symm⟩
  | replaced similar =>
      obtain ⟨_, row, _⟩ := similar
      cases row

/-- No list is read from a table. -/
theorem Section.agree_channels
    {dialect : Dialect}
    {first second : Keyed}
    {closed : Bool} :
    Agree (sequence (ChannelPlan.decode dialect)) (.table first closed)
      (.table second closed) :=
  fun _ => ⟨nofun, nofun⟩

/-- An edit of the entries of a section changes nothing of what is read. -/
theorem Section.agree_of_edits
    {dialect : Dialect}
    {part : Section}
    {first second : Keyed}
    (edit : part.Edits dialect first second)
    (closed : Bool) :
    Agree (part.read dialect) (.table first closed) (.table second closed) := by
  cases part with
  | whole => exact agree_whole edit
  | producer => exact agree_producer edit
  | trajectory => exact agree_trajectory edit
  | intake => exact agree_intake edit
  | channels => exact agree_channels
  | channel => exact agree_channel edit
  | parameters => exact agree_parameters edit

/-- An edit of a section, or of one inside it, changes nothing of what is
read. -/
theorem Alters.agree
    {dialect : Dialect}
    {part : Section}
    {first second : Node}
    (alters : Alters dialect part first second) :
    Agree (part.read dialect) first second := by
  induction alters with
  | completed absent spells =>
      exact Section.agree_of_edits (.completed absent spells) _
  | extended undeclared ignorable =>
      exact Section.agree_of_edits (.extended undeclared ignorable) _
  | reordered distinct perm =>
      exact Section.agree_of_edits (.reordered distinct perm) _
  | inside contains _ inductionHypothesis =>
      exact Section.agree_of_edits
        (.replaced ⟨_, contains, inductionHypothesis⟩) _
  | item _ inductionHypothesis =>
      exact agree_sequence inductionHypothesis

end PositionFeed
