import PositionFeed.Proofs.Blueprint.Schema
import PositionFeed.Proofs.Blueprint.Verdict
import PositionFeed.Proofs.Json.Pretty

namespace PositionFeed

/-!
# Blueprints in JSON read back

A blueprint in JSON is read as its own fields, but for the doubles: each of them
is what the reader makes of its digits, and that can be the double beside it.
So a blueprint is loaded from its own text exactly if the reader gets every one
of its doubles right.  Texts, names, whole numbers and the order of the channels
always come back, in whatever order the parameters of a channel were written.
-/

open Schema

/-! ## Doubles -/

namespace ProducerPlan

def mapRate (change : Float → Float) (plan : ProducerPlan) : ProducerPlan :=
  { plan with rate := change plan.rate }

/-- What the section of a producer in JSON is read as. -/
def jsonFields (plan : ProducerPlan) : Present :=
  [("rate_hz", Json.doubleNode plan.rate),
    ("log_every", .integer plan.logEvery)]

end ProducerPlan

namespace Trajectory

def numbers (shape : Trajectory) : List Float :=
  [shape.centreLongitude, shape.centreLatitude, shape.amplitude,
    shape.angularStep]

def mapNumbers (change : Float → Float) (shape : Trajectory) : Trajectory where
  centreLongitude := change shape.centreLongitude
  centreLatitude := change shape.centreLatitude
  amplitude := change shape.amplitude
  angularStep := change shape.angularStep

/-- What the section of a trajectory in JSON is read as. -/
def jsonFields (shape : Trajectory) : Present :=
  [("center_lon", Json.doubleNode shape.centreLongitude),
    ("center_lat", Json.doubleNode shape.centreLatitude),
    ("amplitude", Json.doubleNode shape.amplitude),
    ("angular_step", Json.doubleNode shape.angularStep)]

end Trajectory

namespace ChannelPlan

def mapRate (change : Float → Float) (plan : ChannelPlan) : ChannelPlan :=
  { plan with rate := change plan.rate }

theorem mapRate_eq_self_iff
    {change : Float → Float}
    {plan : ChannelPlan} :
    plan.mapRate change = plan ↔ change plan.rate = plan.rate := by
  cases plan
  simp [mapRate]

/-- What a channel in JSON is read as. -/
def jsonFields (order : ParameterOrder) (plan : ChannelPlan) : Present :=
  [("name", .text plan.name), ("kind", .text plan.kind.name),
    ("rate_hz", Json.doubleNode plan.rate)] ++
    policyFields plan.policy ++
    [("params", Parameters.node (order plan))]

end ChannelPlan

namespace Blueprint

/-- The doubles of a blueprint. -/
def numbers (blueprint : Blueprint) : List Float :=
  blueprint.producer.rate ::
    (blueprint.trajectory.numbers ++ blueprint.channels.map ChannelPlan.rate)

/-- A blueprint with other doubles and everything else as it was. -/
def mapNumbers (change : Float → Float) (blueprint : Blueprint) : Blueprint :=
  { blueprint with
    producer := blueprint.producer.mapRate change
    trajectory := blueprint.trajectory.mapNumbers change
    channels := blueprint.channels.map (ChannelPlan.mapRate change) }

theorem mapNumbers_eq_self_iff
    {change : Float → Float}
    {blueprint : Blueprint} :
    blueprint.mapNumbers change = blueprint ↔
      ∀ x ∈ blueprint.numbers, change x = x := by
  have channels (plans : List ChannelPlan) :
      plans.map (ChannelPlan.mapRate change) = plans ↔
        ∀ x ∈ plans.map ChannelPlan.rate, change x = x := by
    rw [List.forall_mem_map]
    conv_lhs => rw [← List.map_id plans, List.map_map, List.map_inj_left]
    simp [ChannelPlan.mapRate_eq_self_iff]
  obtain ⟨version, role, producer, trajectory, intake, plans⟩ := blueprint
  obtain ⟨rate, logEvery⟩ := producer
  obtain ⟨longitude, latitude, amplitude, step⟩ := trajectory
  simp [mapNumbers, numbers, ProducerPlan.mapRate, Trajectory.mapNumbers,
    Trajectory.numbers, channels]
  tauto

/-- What a blueprint in JSON is read as. -/
def jsonFields (order : ParameterOrder) (blueprint : Blueprint) : Present :=
  blueprint.fields blueprint.producer.jsonFields.table
    blueprint.trajectory.jsonFields.table blueprint.intake.fields.table
    (blueprint.channels.map fun plan => (plan.jsonFields order).table)

end Blueprint

/-! ## Text -/

namespace Json

variable
  (level : Nat)

theorem isValue_parameters
    (entries : List (String × String)) :
    IsValue ((Blueprint.parametersTree entries).pretty level)
      (Parameters.node entries) := by
  have shape : Parameters.node entries =
      Present.table (entries.map fun entry => (entry.1, .text entry.2)) := by
    rw [Parameters.node, Present.table, List.map_map]
    rfl
  rw [shape]
  apply isValue_object
  rw [AreEntries, List.forall₂_map_left_iff, List.forall₂_map_right_iff,
    List.forall₂_same]
  exact fun entry _ => ⟨rfl, isValue_text _ entry.2⟩

variable
  (order : ParameterOrder)

theorem isValue_channel
    {plan : ChannelPlan}
    (finite : plan.rate.isFinite = true) :
    IsValue ((Blueprint.channelTree order plan).pretty level)
      (plan.jsonFields order).table := by
  apply isValue_object
  have named :
      AreEntries (level + 1)
        [("name", .text plan.name), ("kind", .text plan.kind.name),
          ("rate_hz", .number plan.rate)]
        [("name", .text plan.name), ("kind", .text plan.kind.name),
          ("rate_hz", doubleNode plan.rate)] :=
    .cons ⟨rfl, isValue_text _ plan.name⟩
      (.cons ⟨rfl, isValue_text _ plan.kind.name⟩
        (.cons ⟨rfl, isValue_double _ finite⟩ .nil))
  have parameters :
      AreEntries (level + 1)
        [("params", Blueprint.parametersTree (order plan))]
        [("params", Parameters.node (order plan))] :=
    .cons ⟨rfl, isValue_parameters _ (order plan)⟩ .nil
  rw [ChannelPlan.jsonFields]
  cases plan.policy with
  | none =>
      exact List.rel_append (List.rel_append named .nil) parameters
  | some policy =>
      have policy := isValue_text (level + 1) policy.name
      exact List.rel_append (List.rel_append named (.cons ⟨rfl, policy⟩ .nil))
        parameters

theorem isValue_producer
    {plan : ProducerPlan}
    (finite : plan.rate.isFinite = true)
    (bounded : plan.logEvery < Word.size 64) :
    IsValue
      ((Tree.object [("rate_hz", .number plan.rate),
        ("log_every", .integer plan.logEvery)]).pretty level)
      plan.jsonFields.table :=
  isValue_object
    (.cons ⟨rfl, isValue_double _ finite⟩
      (.cons ⟨rfl, isValue_natural _ bounded⟩ .nil))

theorem isValue_trajectory
    {shape : Trajectory}
    (finite : ∀ x ∈ shape.numbers, x.isFinite = true) :
    IsValue
      ((Tree.object [("center_lon", .number shape.centreLongitude),
        ("center_lat", .number shape.centreLatitude),
        ("amplitude", .number shape.amplitude),
        ("angular_step", .number shape.angularStep)]).pretty level)
      shape.jsonFields.table := by
  simp only [Trajectory.numbers, List.forall_mem_cons] at finite
  obtain ⟨longitude, latitude, amplitude, step, _⟩ := finite
  exact isValue_object
    (.cons ⟨rfl, isValue_double _ longitude⟩
      (.cons ⟨rfl, isValue_double _ latitude⟩
        (.cons ⟨rfl, isValue_double _ amplitude⟩
          (.cons ⟨rfl, isValue_double _ step⟩ .nil))))

theorem isValue_intake
    (plan : IntakePlan) :
    IsValue
      ((Tree.object [("listen_addr", .text plan.listenAddress),
        ("format", .text plan.format.name)]).pretty level)
      plan.fields.table :=
  isValue_object
    (.cons ⟨rfl, isValue_text _ plan.listenAddress⟩
      (.cons ⟨rfl, isValue_text _ plan.format.name⟩ .nil))

/-- A blueprint is read as its fields, with what the reader makes of its
doubles. -/
theorem isValue_blueprint
    {blueprint : Blueprint}
    (finite : ∀ x ∈ blueprint.numbers, x.isFinite = true)
    (bounded : blueprint.producer.logEvery ≤ Word.greatest 64) :
    IsValue ((blueprint.tree order).pretty level)
      (blueprint.jsonFields order).table := by
  simp only [Blueprint.numbers, List.forall_mem_cons, List.forall_mem_append,
    List.forall_mem_map] at finite
  obtain ⟨rate, trajectory, rates⟩ := finite
  have channels :
      AreValues (level + 2)
        (blueprint.channels.map (Blueprint.channelTree order))
        (blueprint.channels.map fun plan => (plan.jsonFields order).table) := by
    rw [AreValues, List.forall₂_map_left_iff, List.forall₂_map_right_iff,
      List.forall₂_same]
    exact fun plan member => isValue_channel _ order (rates plan member)
  exact isValue_object
    (.cons ⟨rfl, isValue_text _ blueprint.version.name⟩
      (.cons ⟨rfl, isValue_text _ blueprint.role.name⟩
        (.cons ⟨rfl, isValue_producer _ rate
            (Nat.lt_of_le_of_lt bounded (by decide))⟩
          (.cons ⟨rfl, isValue_trajectory _ trajectory⟩
            (.cons ⟨rfl, isValue_intake _ blueprint.intake⟩
              (.cons ⟨rfl, isValue_array channels⟩ .nil))))))

end Json

/-! ## Reading -/

namespace Json

/-- The double that a text is read as, or the double that was written if the
reader refuses the text. -/
def reread (x : Float) : Float :=
  (reread? x).getD x

theorem doubleNode_eq
    {x : Float}
    (isRead : (reread? x).isSome) :
    doubleNode x = .fraction (reread x) := by
  obtain ⟨value, again⟩ := Option.isSome_iff_exists.mp isRead
  rw [doubleNode, reread, again]
  rfl

theorem reread?_eq_some_self_iff
    {x : Float} :
    reread? x = some x ↔ (reread? x).isSome ∧ reread x = x := by
  rw [reread]
  cases reread? x <;> simp

/-- A double that the reader refuses is no number. -/
theorem isSome_reread_of_number
    {x value : Float}
    (isNumber : number (doubleNode x) = .ok value) :
    (reread? x).isSome := by
  rw [doubleNode] at isNumber
  cases again : reread? x with
  | none =>
      rw [again] at isNumber
      cases isNumber
  | some _ =>
      rfl

end Json

open Json

theorem ProducerPlan.jsonFields_eq
    {plan : ProducerPlan}
    (isRead : (reread? plan.rate).isSome) :
    plan.jsonFields = (plan.mapRate reread).fields := by
  rw [jsonFields, doubleNode_eq isRead]
  rfl

theorem Trajectory.jsonFields_eq
    {shape : Trajectory}
    (areRead : ∀ x ∈ shape.numbers, (reread? x).isSome) :
    shape.jsonFields = (shape.mapNumbers reread).fields := by
  simp only [numbers, List.forall_mem_cons] at areRead
  obtain ⟨longitude, latitude, amplitude, step, _⟩ := areRead
  rw [jsonFields, doubleNode_eq longitude, doubleNode_eq latitude,
    doubleNode_eq amplitude, doubleNode_eq step]
  rfl

section Order

variable
  {order : ParameterOrder}

theorem ChannelPlan.jsonFields_eq
    {plan : ChannelPlan}
    (isRead : (reread? plan.rate).isSome) :
    plan.jsonFields order = (plan.mapRate reread).fields (order plan) := by
  rw [jsonFields, doubleNode_eq isRead]
  rfl

namespace Blueprint

/-- What a blueprint in JSON is read as holds the blueprint with its doubles as
they are read. -/
theorem heldBy_jsonFields
    {blueprint : Blueprint}
    (arranges : order.Arranges blueprint.channels)
    (areRead : ∀ x ∈ blueprint.numbers, (reread? x).isSome) :
    (blueprint.mapNumbers reread).HeldBy
      (blueprint.jsonFields order).table := by
  simp only [numbers, List.forall_mem_cons, List.forall_mem_append,
    List.forall_mem_map] at areRead
  obtain ⟨rate, trajectory, rates⟩ := areRead
  have channels :
      List.Forall₂ ChannelPlan.HeldBy
        (blueprint.channels.map (ChannelPlan.mapRate reread))
        (blueprint.channels.map fun plan => (plan.jsonFields order).table) := by
    rw [List.forall₂_map_left_iff, List.forall₂_map_right_iff,
      List.forall₂_same]
    intro plan member
    rw [ChannelPlan.jsonFields_eq (rates plan member)]
    exact .intro (arranges plan member) (holds_table _)
  refine .intro ?_ ?_ (holds_table _) channels (holds_table _)
  · rw [ProducerPlan.jsonFields_eq rate]
    exact holds_table _
  · rw [Trajectory.jsonFields_eq trajectory]
    exact holds_table _

end Blueprint

/-! ## Doubles that are refused -/

/-- A record with a double that the reader refuses is refused. -/
theorem Json.isSome_reread_of_record
    {record : List Field}
    {typeName : String}
    {fields present : Present}
    (isRecord : Schema.record json typeName record fields.table = .ok present)
    {name : String}
    {x : Float}
    (member : (name, doubleNode x) ∈ fields)
    {required : Bool}
    (found :
      record.find? (·.name == name) = some (.of name required number)) :
    (reread? x).isSome := by
  obtain ⟨_, isNumber⟩ := exists_value_of_record isRecord member found
  exact isSome_reread_of_number isNumber

theorem ProducerPlan.isSome_reread_of_decode
    {plan again : ProducerPlan}
    (decoded : decode json plan.jsonFields.table = .ok again) :
    (reread? plan.rate).isSome := by
  obtain ⟨_, isRecord, _⟩ := Result.bind_eq_ok_iff.mp decoded
  have rate : ("rate_hz", doubleNode plan.rate) ∈ plan.jsonFields := by
    simp [jsonFields]
  exact isSome_reread_of_record isRecord rate rfl

theorem Trajectory.isSome_reread_of_decode
    {shape again : Trajectory}
    (decoded : decode json shape.jsonFields.table = .ok again) :
    ∀ x ∈ shape.numbers, (reread? x).isSome := by
  obtain ⟨_, isRecord, _⟩ := Result.bind_eq_ok_iff.mp decoded
  have members :
      ("center_lon", doubleNode shape.centreLongitude) ∈ shape.jsonFields ∧
        ("center_lat", doubleNode shape.centreLatitude) ∈ shape.jsonFields ∧
        ("amplitude", doubleNode shape.amplitude) ∈ shape.jsonFields ∧
        ("angular_step", doubleNode shape.angularStep) ∈ shape.jsonFields := by
    simp [jsonFields]
  obtain ⟨longitude, latitude, amplitude, step⟩ := members
  simp only [numbers, List.forall_mem_cons]
  exact ⟨isSome_reread_of_record isRecord longitude rfl,
    isSome_reread_of_record isRecord latitude rfl,
    isSome_reread_of_record isRecord amplitude rfl,
    isSome_reread_of_record isRecord step rfl, List.forall_mem_nil _⟩

theorem ChannelPlan.isSome_reread_of_decode
    {plan again : ChannelPlan}
    (decoded : decode json (plan.jsonFields order).table = .ok again) :
    (reread? plan.rate).isSome := by
  obtain ⟨_, isRecord, _⟩ := Result.bind_eq_ok_iff.mp decoded
  have rate : ("rate_hz", doubleNode plan.rate) ∈ plan.jsonFields order := by
    simp [jsonFields]
  exact isSome_reread_of_record isRecord rate rfl

namespace Blueprint

/-- A blueprint is only read if all of its doubles are. -/
theorem isSome_reread_of_decode
    {blueprint again : Blueprint}
    (decoded : decode json (blueprint.jsonFields order).table = .ok again) :
    ∀ x ∈ blueprint.numbers, (reread? x).isSome := by
  -- A record checks its fields before it reads them, so the check of a section
  -- is already a reading of it.
  obtain ⟨_, isRecord, _⟩ := Result.bind_eq_ok_iff.mp decoded
  have members :
      ("producer", blueprint.producer.jsonFields.table) ∈
          blueprint.jsonFields order ∧
        ("trajectory", blueprint.trajectory.jsonFields.table) ∈
          blueprint.jsonFields order ∧
        ("channels", .sequence (blueprint.channels.map fun plan =>
          (plan.jsonFields order).table) true) ∈
            blueprint.jsonFields order := by
    simp [jsonFields, fields]
  obtain ⟨producerField, trajectoryField, channelsField⟩ := members
  obtain ⟨_, producer⟩ := exists_value_of_record isRecord producerField rfl
  obtain ⟨_, trajectory⟩ := exists_value_of_record isRecord trajectoryField rfl
  obtain ⟨_, channels⟩ := exists_value_of_record isRecord channelsField rfl
  obtain ⟨_, plans, _⟩ := Result.bind_eq_ok_iff.mp channels
  simp only [numbers, List.forall_mem_cons, List.forall_mem_append,
    List.forall_mem_map]
  refine ⟨ProducerPlan.isSome_reread_of_decode producer,
    Trajectory.isSome_reread_of_decode trajectory, ?_⟩
  intro plan member
  obtain ⟨_, channel⟩ :=
    exists_value_of_items plans (List.mem_map_of_mem member)
  exact ChannelPlan.isSome_reread_of_decode channel

/-- A blueprint in JSON is read as itself with other doubles, or not at all. -/
theorem decode_jsonFields_eq_ok_iff
    {blueprint again : Blueprint}
    (arranges : order.Arranges blueprint.channels)
    (bounded : blueprint.producer.logEvery ≤ Word.greatest 64) :
    decode json (blueprint.jsonFields order).table = .ok again ↔
      (∀ x ∈ blueprint.numbers, (reread? x).isSome) ∧
        again = blueprint.mapNumbers reread := by
  have isRead (areRead : ∀ x ∈ blueprint.numbers, (reread? x).isSome) :
      decode json (blueprint.jsonFields order).table =
        .ok (blueprint.mapNumbers reread) :=
    have sameBound :
        (blueprint.mapNumbers reread).producer.logEvery ≤ Word.greatest 64 :=
      bounded
    decode_heldBy json_readsNames sameBound
      (heldBy_jsonFields arranges areRead)
  constructor
  · intro decoded
    have areRead := isSome_reread_of_decode decoded
    exact ⟨areRead, Except.ok.inj (decoded.symm.trans (isRead areRead))⟩
  · rintro ⟨areRead, rfl⟩
    exact isRead areRead

end Blueprint

end Order

/-! ## Blueprints that the rules accept -/

/-- Every double of a blueprint that the rules accept is finite. -/
theorem Blueprint.isFinite_of_validate
    {blueprint : Blueprint}
    (valid : blueprint.validate = .ok ()) :
    ∀ x ∈ blueprint.numbers, x.isFinite = true := by
  have keeps := validate_eq_ok_iff_keepsTo.mp valid
  obtain ⟨producer, channels⟩ := keeps .rates
  obtain ⟨longitude, latitude, amplitude, step⟩ := keeps .trajectory
  simp only [numbers, Trajectory.numbers, List.forall_mem_cons,
    List.forall_mem_append, List.forall_mem_map]
  exact ⟨producer.finite,
    ⟨longitude.finite, latitude.finite, amplitude.finite, step,
      List.forall_mem_nil _⟩,
    fun plan runs => (channels plan runs).finite⟩

namespace Configuration

/-- In whatever order the parameters of its channels are written, a blueprint
comes back with every double as the reader makes it. -/
theorem parse_toJsonIn
    {order : ParameterOrder}
    {blueprint again : Blueprint}
    (arranges : order.Arranges blueprint.channels)
    (valid : blueprint.validate = .ok ())
    (bounded : blueprint.producer.logEvery ≤ Word.greatest 64) :
    parse .json (blueprint.toJsonIn order).toList = .ok again ↔
      (∀ x ∈ blueprint.numbers, (reread? x).isSome) ∧
        again = blueprint.mapNumbers reread := by
  have isValue := isValue_blueprint 0 order
    (blueprint.isFinite_of_validate valid) bounded
  rw [parse, Result.mapError_eq_ok_iff, Blueprint.toJsonIn, Tree.toPretty,
    String.toList_ofList, read_of_isValue isValue,
    Blueprint.decode_jsonFields_eq_ok_iff arranges bounded]

theorem parse_toJson
    {blueprint again : Blueprint}
    (valid : blueprint.validate = .ok ())
    (bounded : blueprint.producer.logEvery ≤ Word.greatest 64) :
    parse .json blueprint.toJson.toList = .ok again ↔
      (∀ x ∈ blueprint.numbers, (reread? x).isSome) ∧
        again = blueprint.mapNumbers reread :=
  parse_toJsonIn (ParameterOrder.byKey_arranges _) valid bounded

/-- A blueprint that the rules accept comes back from its own text in JSON with
every double as the reader makes it, and with nothing else changed.  So it is
loaded as it was exactly if the reader gets all of its doubles right. -/
theorem every_json_export_is_reread
    {blueprint : Blueprint}
    (valid : blueprint.validate = .ok ())
    (bounded : blueprint.producer.logEvery ≤ Word.greatest 64) :
    (∀ again,
      parse .json blueprint.toJson.toList = .ok again ↔
        (∀ x ∈ blueprint.numbers, (reread? x).isSome) ∧
          again = blueprint.mapNumbers reread) ∧
      (load .json blueprint.toJson.toList = .ok blueprint ↔
        ∀ x ∈ blueprint.numbers, reread? x = some x) := by
  refine ⟨fun _ => parse_toJson valid bounded, ?_⟩
  rw [load_eq_ok_iff, and_iff_left valid, parse_toJson valid bounded,
    eq_comm, Blueprint.mapNumbers_eq_self_iff, ← forall₂_and]
  exact forall₂_congr fun x _ => reread?_eq_some_self_iff.symm

/-- A blueprint with usual numbers, among them the greatest whole one. -/
def roundBlueprint : Blueprint where
  version := .first
  role := .publisher
  producer := ⟨50.0, 18446744073709551615⟩
  trajectory := ⟨107.02243, -20.763, 0.05, 1e-7⟩
  intake := .default
  channels :=
    [(ChannelPlan.plain "C:\\ \"π\"" .bus 20.0).withParameter "addr"
        "127.0.0.1:1",
      { ChannelPlan.plain "log\n" .log 0.3 with policy := some .always }]

theorem roundBlueprint_is_reread :
    roundBlueprint.validate = .ok () ∧
      roundBlueprint.producer.logEvery ≤ Word.greatest 64 ∧
      load .json roundBlueprint.toJson.toList = .ok roundBlueprint :=
  have valid : roundBlueprint.validate = .ok () := by
    decide +kernel
  have exact : ∀ x ∈ roundBlueprint.numbers, reread? x = some x := by
    decide +kernel
  ⟨valid, by decide,
    (every_json_export_is_reread valid (by decide)).2.mpr exact⟩

/-- The usual blueprint about another centre. -/
def blueprintAt (centreLongitude : Float) : Blueprint :=
  { Blueprint.default with
    trajectory := { Trajectory.default with centreLongitude } }

/-- A third of a degree comes back as a neighbour of itself. -/
theorem blueprintAt_third_drifts :
    (blueprintAt 90.33333333333333).validate = .ok () ∧
      load .json (blueprintAt 90.33333333333333).toJson.toList =
        .ok (blueprintAt 90.33333333333331) ∧
      blueprintAt 90.33333333333331 ≠ blueprintAt 90.33333333333333 := by
  have valid : (blueprintAt 90.33333333333333).validate = .ok () := by
    decide +kernel
  have again :
      (∀ x ∈ (blueprintAt 90.33333333333333).numbers, (reread? x).isSome) ∧
        blueprintAt 90.33333333333331 =
          (blueprintAt 90.33333333333333).mapNumbers reread := by
    decide +kernel
  have againValid : (blueprintAt 90.33333333333331).validate = .ok () := by
    decide +kernel
  refine ⟨valid, load_eq_ok_iff.mpr ⟨?_, againValid⟩, by decide +kernel⟩
  exact (parse_toJson valid (by decide)).mpr again

end Configuration

end PositionFeed
