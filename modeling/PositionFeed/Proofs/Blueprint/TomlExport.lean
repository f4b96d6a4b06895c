import PositionFeed.Proofs.Blueprint.Schema
import PositionFeed.Proofs.Toml.Lines

namespace PositionFeed

/-!
# Blueprints in TOML read back

A blueprint in TOML is a few lines, three sections, and two sections for each
channel.  Read line by line it comes to tables whose sorted entries are the
fields of the blueprint.  So a blueprint that the rules accept is loaded from
its own text, with every double bit for bit and every text as it was.  Entries
are sorted, so it does not matter in which order the parameters of a channel
were written.
-/

open Schema Toml

/-! ## Finished tables -/

theorem Toml.tableNode_holds
    (entries : Present) :
    Holds entries (tableNode entries) :=
  ⟨sortEntries entries, List.mergeSort_perm _ _, rfl⟩

/-- Entries end up in the order of their keys, whatever order they come in. -/
theorem Toml.tableNode_of_perm
    {entries sorted : Present}
    (ascending : sorted.Pairwise fun first second => first.1 < second.1)
    (perm : entries.Perm sorted) :
    tableNode entries =
      .table (sorted.map fun entry => (some entry.1, entry.2)) true := by
  have sortedPerm : (sortEntries entries).Perm sorted :=
    (List.mergeSort_perm _ _).trans perm
  have distinct := Parameters.nodup_of_ascending ascending
  have areSorted : (sortEntries entries).Pairwise fun first second =>
      decide (first.1 ≤ second.1) = true :=
    List.pairwise_mergeSort (by grind) (by grind) entries
  have same : sortEntries entries = sorted := by
    refine sortedPerm.eq_of_pairwise ?_ areSorted
      (ascending.imp fun below => decide_eq_true (Std.le_of_lt below))
    intro first second isFirst isSecond below above
    have sameKey : first.1 = second.1 :=
      Std.le_antisymm (of_decide_eq_true below) (of_decide_eq_true above)
    exact List.inj_on_of_nodup_map distinct (sortedPerm.subset isFirst) isSecond
      sameKey
  rw [tableNode, same]

/-! ## Channels -/

namespace ChannelPlan

variable
  (order : ParameterOrder)

def policyRows : Option ForwardPolicy → List Row
  | some policy => [.ofText "policy" policy.name]
  | none => []

/-- The lines of a channel before its parameters. -/
def rows (plan : ChannelPlan) : List Row :=
  [.ofText "name" plan.name, .ofText "kind" plan.kind.name,
    .ofNumber "rate_hz" plan.rate] ++
    policyRows plan.policy

def parameterRows (plan : ChannelPlan) : List Row :=
  (order plan).map fun entry => .ofText entry.1 entry.2

/-- The table that a channel's lines come to. -/
def entries (plan : ChannelPlan) : Entries :=
  valueItems (plan.rows.map Row.pair) ++
    [("params",
      .table .header (valueItems ((plan.parameterRows order).map Row.pair)))]

theorem channelText_eq
    (plan : ChannelPlan) :
    Blueprint.channelText order plan =
      elementText "channels" plan.rows ++
        tableText ["channels", "params"] (plan.parameterRows order) := by
  have parametersText :
      (order plan).flatMap
          (fun entry => Blueprint.textLine entry.1 entry.2) =
        (plan.parameterRows order).flatMap Row.line := by
    rw [parameterRows, List.flatMap_map]
    rfl
  rw [Blueprint.channelText, parametersText, rows]
  cases plan.policy <;>
    simp [elementText, tableText, dotted, Blueprint.sectionHead, policyRows,
      Row.line, Row.ofText, Row.ofNumber, Blueprint.textLine,
      Blueprint.numberLine]

theorem rows_distinct
    (plan : ChannelPlan) :
    (plan.rows.map Row.key).Nodup ∧ "params" ∉ plan.rows.map Row.key := by
  unfold rows
  cases plan.policy <;> simp [policyRows, Row.ofText, Row.ofNumber]

variable
  {order}

theorem parameterRows_distinct
    {plan : ChannelPlan}
    (perm : (order plan).Perm plan.parameters.entries) :
    ((plan.parameterRows order).map Row.key).Nodup := by
  have keys :
      (plan.parameterRows order).map Row.key = (order plan).map Prod.fst := by
    rw [parameterRows, List.map_map]
    rfl
  rw [keys]
  exact (perm.map Prod.fst).nodup_iff.mpr
    (Parameters.nodup_of_ascending plan.parameters.ascending)

/-- The finished table of parameters is the same for every order. -/
theorem parameterRows_node
    {plan : ChannelPlan}
    (perm : (order plan).Perm plan.parameters.entries) :
    tableNode ((plan.parameterRows order).map Row.pair) =
      Parameters.node plan.parameters.entries := by
  let pair (entry : String × String) : String × Node :=
    (entry.1, .text entry.2)
  have pairs :
      (plan.parameterRows order).map Row.pair = (order plan).map pair := by
    rw [parameterRows, List.map_map]
    rfl
  have ascending :
      (plan.parameters.entries.map pair).Pairwise fun first second =>
        first.1 < second.1 := by
    rw [List.pairwise_map]
    exact plan.parameters.ascending
  rw [pairs, tableNode_of_perm ascending (perm.map pair), Parameters.node,
    List.map_map]
  rfl

/-- The finished table of a channel holds this channel. -/
theorem heldBy_entries
    {plan : ChannelPlan}
    (perm : (order plan).Perm plan.parameters.entries) :
    plan.HeldBy (tableNode (entryNodes (plan.entries order))) := by
  have nodes :
      entryNodes (plan.entries order) =
        plan.fields plan.parameters.entries := by
    rw [entries, entryNodes_append, entryNodes_valueItems]
    simp only [entryNodes, Item.node, entryNodes_valueItems,
      parameterRows_node perm]
    rw [rows, fields]
    cases plan.policy <;> rfl
  rw [nodes]
  exact .intro (.refl _) (tableNode_holds _)

end ChannelPlan

/-! ## Blueprints -/

namespace Blueprint

variable
  (order : ParameterOrder)
  (blueprint : Blueprint)

/-- The lines before the first header. -/
def topRows : List Row :=
  [.ofText "version" blueprint.version.name,
    .ofText "role" blueprint.role.name] ++
    if blueprint.channels.isEmpty then [.ofNothing "channels"] else []

def trajectoryRows : List Row :=
  [.ofNumber "center_lon" blueprint.trajectory.centreLongitude,
    .ofNumber "center_lat" blueprint.trajectory.centreLatitude,
    .ofNumber "amplitude" blueprint.trajectory.amplitude,
    .ofNumber "angular_step" blueprint.trajectory.angularStep]

def intakeRows : List Row :=
  [.ofText "listen_addr" blueprint.intake.listenAddress,
    .ofText "format" blueprint.intake.format.name]

def producerRows (bounded : blueprint.producer.logEvery ≤ Word.greatest 64) :
    List Row :=
  [.ofNumber "rate_hz" blueprint.producer.rate,
    .ofWhole "log_every" blueprint.producer.logEvery
      (Nat.lt_of_le_of_lt bounded (by decide))]

theorem tomlText_eq
    (bounded : blueprint.producer.logEvery ≤ Word.greatest 64) :
    blueprint.tomlText order =
      blueprint.topRows.flatMap Row.line ++
        (tableText ["producer"] (blueprint.producerRows bounded) ++
          (tableText ["trajectory"] blueprint.trajectoryRows ++
            (tableText ["subscriber"] blueprint.intakeRows ++
              blueprint.channels.flatMap (channelText order)))) := by
  rw [tomlText, topRows]
  cases blueprint.channels.isEmpty <;>
    simp [tableText, dotted, sectionHead, producerRows, trajectoryRows,
      intakeRows, Row.line, Row.ofText, Row.ofNumber, Row.ofWhole,
      Row.ofNothing, textLine, numberLine]

/-- The tables before those of the channels. -/
def sectionEntries (bounded : blueprint.producer.logEvery ≤ Word.greatest 64) :
    Entries :=
  valueItems (blueprint.topRows.map Row.pair) ++
    [("producer", .table .header
      (valueItems ((blueprint.producerRows bounded).map Row.pair)))] ++
    [("trajectory", .table .header
      (valueItems (blueprint.trajectoryRows.map Row.pair)))] ++
    [("subscriber", .table .header
      (valueItems (blueprint.intakeRows.map Row.pair)))]

theorem isBare_of
    {key : String}
    (bare : ¬ key.toList.isEmpty ∧ key.toList.all isKeyChar) :
    IsBare key :=
  ⟨by simpa using bare.1, List.all_eq_true.mp bare.2⟩

/-- The channels come one after the other. -/
theorem reads_channels
    {before : Entries}
    (absent : before.lookup "channels" = none)
    {plans : List ChannelPlan}
    (arranges : order.Arranges plans)
    (path : List String)
    (tables : List Entries) :
    Reads path (withTables "channels" tables before)
      (plans.flatMap (channelText order))
      (withTables "channels" (tables ++ plans.map (ChannelPlan.entries order))
        before) := by
  induction plans generalizing path tables with
  | nil =>
      simpa using Reads.nil path (withTables "channels" tables before)
  | cons plan rest inductionHypothesis =>
      obtain ⟨perm, restArranges⟩ := List.forall_mem_cons.mp arranges
      obtain ⟨distinct, insideFree⟩ := plan.rows_distinct
      have later := inductionHypothesis restArranges ["channels", "params"]
        (tables ++ [plan.entries order])
      rw [List.append_assoc, List.singleton_append, ← List.map_cons] at later
      rw [List.flatMap_cons, plan.channelText_eq order, List.append_assoc]
      exact .elementSection (isBare_of (by decide)) (isBare_of (by decide))
        absent distinct insideFree (ChannelPlan.parameterRows_distinct perm)
        later

/-- Line by line a blueprint comes to the tables of its sections and of its
channels. -/
theorem reads_tomlText
    (arranges : order.Arranges blueprint.channels)
    (bounded : blueprint.producer.logEvery ≤ Word.greatest 64) :
    Reads [] [] (blueprint.tomlText order)
      (withTables "channels"
        (blueprint.channels.map (ChannelPlan.entries order))
        (blueprint.sectionEntries bounded)) := by
  have channels :
      Reads ["subscriber"] (blueprint.sectionEntries bounded)
        (blueprint.channels.flatMap (channelText order))
        (withTables "channels"
          (blueprint.channels.map (ChannelPlan.entries order))
          (blueprint.sectionEntries bounded)) := by
    cases plans : blueprint.channels with
    | nil =>
        exact Reads.nil _ _
    | cons plan rest =>
        have absent :
            List.lookup "channels" (blueprint.sectionEntries bounded) =
              none := by
          simp only [sectionEntries, topRows, plans]
          rfl
        rw [plans] at arranges
        exact reads_channels order absent arranges ["subscriber"] []
  have distinct : (blueprint.topRows.map Row.key).Nodup := by
    unfold topRows
    cases blueprint.channels.isEmpty <;> simp [Row.ofText, Row.ofNothing]
  have absent (key : String)
      (isNew : key ∉ ["version", "role", "channels"]) :
      List.lookup key (valueItems (blueprint.topRows.map Row.pair)) = none := by
    apply lookup_valueItems
    unfold topRows
    cases blueprint.channels.isEmpty <;>
      simp_all [Row.ofText, Row.ofNothing, Row.pair]
  rw [tomlText_eq order blueprint bounded]
  refine Reads.rowLines Focus.here distinct (fun _ _ => rfl) ?_
  refine .tableSection (isBare_of (by decide)) (absent "producer" (by decide))
    (by simp [producerRows, Row.ofNumber, Row.ofWhole]) ?_
  refine .tableSection (isBare_of (by decide)) ?trajectoryAbsent
    (by simp [trajectoryRows, Row.ofNumber]) ?_
  case trajectoryAbsent =>
    rw [Entries.lookup_append, List.nil_append, absent _ (by decide)]
    rfl
  refine .tableSection (isBare_of (by decide)) ?intakeAbsent
    (by simp [intakeRows, Row.ofText]) channels
  case intakeAbsent =>
    rw [Entries.lookup_append, Entries.lookup_append, List.nil_append,
      absent _ (by decide)]
    rfl

/-- The finished tables of the channels hold these channels. -/
theorem heldBy_channelTables
    {plans : List ChannelPlan}
    (arranges : order.Arranges plans) :
    List.Forall₂ ChannelPlan.HeldBy plans
      ((plans.map (ChannelPlan.entries order)).map fun entries =>
        tableNode (entryNodes entries)) := by
  rw [List.map_map, List.forall₂_map_right_iff, List.forall₂_same]
  exact fun plan member => ChannelPlan.heldBy_entries (arranges plan member)

/-- The finished tables are the fields of the blueprint. -/
theorem entryNodes_perm
    (bounded : blueprint.producer.logEvery ≤ Word.greatest 64) :
    (entryNodes
        (withTables "channels"
          (blueprint.channels.map (ChannelPlan.entries order))
          (blueprint.sectionEntries bounded))).Perm
      (blueprint.fields (tableNode blueprint.producer.fields)
        (tableNode blueprint.trajectory.fields)
        (tableNode blueprint.intake.fields)
        ((blueprint.channels.map (ChannelPlan.entries order)).map
          fun entries => tableNode (entryNodes entries))) := by
  have sections : entryNodes (blueprint.sectionEntries bounded) =
      blueprint.topRows.map Row.pair ++
        [("producer", tableNode blueprint.producer.fields),
          ("trajectory", tableNode blueprint.trajectory.fields),
          ("subscriber", tableNode blueprint.intake.fields)] := by
    simp only [sectionEntries, entryNodes_append, entryNodes_valueItems,
      entryNodes, Item.node, List.append_assoc]
    rfl
  cases plans : blueprint.channels with
  | nil =>
      -- The empty array stands before the sections.
      have nothing : withTables "channels"
          ([].map (ChannelPlan.entries order))
          (blueprint.sectionEntries bounded) =
            blueprint.sectionEntries bounded :=
        rfl
      rw [nothing, sections, topRows, plans]
      exact ((List.perm_append_singleton _ _).symm.cons _).cons _
  | cons plan rest =>
      rw [entryNodes_withTables (by simp), sections, topRows, plans]
      exact .refl _

/-- A blueprint in TOML is a document whose tree holds this blueprint. -/
theorem document?_tomlText
    (arranges : order.Arranges blueprint.channels)
    (bounded : blueprint.producer.logEvery ≤ Word.greatest 64) :
    ∃ node,
      document? (blueprint.tomlText order) = some node ∧
        blueprint.HeldBy node := by
  have noMark : (blueprint.tomlText order).head? ≠ some '\ufeff' := by
    obtain ⟨c, tail, shape, start⟩ := writeKey_eq_cons "version"
    have notMark :=
      notOf_keyStart start '\ufeff' (by decide) (by decide)
    simpa [tomlText, textLine, writePair, shape] using notMark
  obtain ⟨entries, perm, table⟩ := tableNode_holds
    (entryNodes
      (withTables "channels"
        (blueprint.channels.map (ChannelPlan.entries order))
        (blueprint.sectionEntries bounded)))
  refine ⟨_,
    document?_eq noMark (reads_tomlText order blueprint arranges bounded),
    .intro (tableNode_holds _) (tableNode_holds _) (tableNode_holds _)
      (heldBy_channelTables order arranges)
      ⟨entries, perm.trans (entryNodes_perm order blueprint bounded), table⟩⟩

end Blueprint

namespace Configuration

/-- In whatever order the parameters of its channels are written, a blueprint is
loaded from its own text in TOML. -/
theorem load_toTomlIn
    {order : ParameterOrder}
    {blueprint : Blueprint}
    (arranges : order.Arranges blueprint.channels)
    (valid : blueprint.validate = .ok ())
    (bounded : blueprint.producer.logEvery ≤ Word.greatest 64) :
    load .toml (blueprint.toTomlIn order).toList = .ok blueprint := by
  obtain ⟨node, document, heldBy⟩ :=
    Blueprint.document?_tomlText order blueprint arranges bounded
  have decoded := Blueprint.decode_heldBy toml_readsNames bounded heldBy
  have parsed :
      parse .toml (blueprint.toTomlIn order).toList = .ok blueprint := by
    rw [Blueprint.toTomlIn, String.toList_ofList, parse, Toml.read, document]
    dsimp only
    rw [decoded]
    rfl
  exact load_eq_ok_iff.mpr ⟨parsed, valid⟩

/-- A blueprint that the rules accept is loaded from its own text in TOML: no
number, text, name, parameter or channel is lost or changed. -/
theorem every_toml_export_reads_back
    {blueprint : Blueprint}
    (valid : blueprint.validate = .ok ())
    (bounded : blueprint.producer.logEvery ≤ Word.greatest 64) :
    load .toml blueprint.toToml.toList = .ok blueprint :=
  load_toTomlIn (ParameterOrder.byKey_arranges _) valid bounded

/-- A blueprint whose texts need every form, with numbers of many digits. -/
def awkwardBlueprint : Blueprint where
  version := .first
  role := .subscriber
  producer := ⟨0.1, 9223372036854775807⟩
  trajectory := ⟨90.33333333333333, -0.0, 5e-324, 1e300⟩
  intake := ⟨"[::1]:7400", .bincode⟩
  channels :=
    [(ChannelPlan.plain "\"\"\"'''\\\n" .log 3.3).withParameter "" "\r\x7f",
      { ChannelPlan.plain "C:\\ 'π'" .bus 1e-7 with
        policy := some .requireAudience
        parameters := (Parameters.empty.insert "addr" "127.0.0.1:1").insert
          "a.b\n" "''\n\"" }]

theorem awkwardBlueprint_reads_back :
    awkwardBlueprint.validate = .ok () ∧
      awkwardBlueprint.producer.logEvery ≤ Word.greatest 64 ∧
      load .toml awkwardBlueprint.toToml.toList = .ok awkwardBlueprint :=
  have valid : awkwardBlueprint.validate = .ok () := by
    decide +kernel
  ⟨valid, by decide, every_toml_export_reads_back valid (by decide)⟩

end Configuration

end PositionFeed
