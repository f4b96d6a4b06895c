import PositionFeed.Proofs.Blueprint.Partial
import PositionFeed.Proofs.Json.Ignored

namespace PositionFeed

/-!
# Configurations that leave something out

A text is loaded by way of its tree, so an edit of the text that only alters
the tree in ways that no section notices is not noticed either.  What is loaded
has every field from the text or, where the text has none, from the default
blueprint.

What is added must still be readable.  A complete JSON document holds nothing
that cannot be passed over; a TOML document has no tree at all if its values
are nested too deeply, and its numbers are wrong if they are out of bounds.
-/

open Schema

namespace ConfigurationFormat

/-- What is special about documents in a format. -/
def dialect : ConfigurationFormat → Dialect
  | .toml => Schema.toml
  | .json => Schema.json

/-- The tree of a text, if it is a document of the format. -/
def tree? (format : ConfigurationFormat) (text : List Char) : Option Node :=
  match format with
  | .toml => Toml.document? text
  | .json =>
      let (node, complete) := Json.document (Utf8.encode text)
      if complete then some node else none

theorem readsNames
    (format : ConfigurationFormat) :
    format.dialect.ReadsNames := by
  cases format with
  | toml => exact toml_readsNames
  | json => exact json_readsNames

end ConfigurationFormat

/-- A section that has no value for a key that it cannot do without. -/
inductive Section.IsIncomplete (part : Section) : Node → Prop where
  /-- A table without the key. -/
  | keyed
      {entries : Keyed}
      {key : String}
      {closed : Bool}
      (needed : key ∈ part.required)
      (absent : some key ∉ entries.map Prod.fst) :
      IsIncomplete part (.table entries closed)
  /-- The values in their order, of which there are too few. -/
  | listed
      {items : List Node}
      {closed : Bool}
      (short : items.length < part.required.length) :
      IsIncomplete part (.sequence items closed)

/-- A blueprint with each field of each of its sections from a table or its
default. -/
structure Blueprint.Completes (dialect : Dialect) (entries : Keyed)
    (blueprint : Blueprint) : Prop where
  whole : blueprint.IsReadFrom dialect entries
  producer : ∀ inner closed,
    entries.lookup (some "producer") = some (.table inner closed) →
      blueprint.producer.IsReadFrom inner
  trajectory : ∀ inner closed,
    entries.lookup (some "trajectory") = some (.table inner closed) →
      blueprint.trajectory.IsReadFrom inner
  intake : ∀ inner closed,
    entries.lookup (some "subscriber") = some (.table inner closed) →
      blueprint.intake.IsReadFrom dialect inner
  channels : ∀ items closed,
    entries.lookup (some "channels") = some (.sequence items closed) →
      List.Forall₂
        (fun item plan => ∀ inner closed,
          item = .table inner closed → plan.IsReadFrom dialect inner)
        items blueprint.channels

/-- What a partial configuration means in a format. -/
structure ConfigurationFormat.FillsIn (format : ConfigurationFormat) :
    Prop where
  /-- Edits that no section notices change nothing of what is loaded, whatever
  their number. -/
  unnoticed : ∀ first second tree other,
    format.tree? first = some tree → format.tree? second = some other →
      Relation.EqvGen (Alters format.dialect .whole) tree other →
        ∀ blueprint,
          Configuration.load format first = .ok blueprint ↔
            Configuration.load format second = .ok blueprint
  /-- Every key that can be left out has a default that can be written, but for
  the policy of a channel in TOML, which has no text for its absence. -/
  spelled : ∀ part : Section, ∀ key ∈ part.keys, key ∉ part.required →
    (format = .toml → key ≠ "policy") →
      ∃ node, part.IsDefault format.dialect key node ∧
        (format = .toml → node ≠ .null)
  /-- In JSON anything can be added under a key without a meaning. -/
  ignored : format = .json → ∀ text tree,
    format.tree? text = some tree → tree.ignorable = true
  /-- What is added is noticed if it cannot be passed over: it is an error. -/
  unreadable : ∀ text entries closed key node,
    format.tree? text = some (.table entries closed) →
      (some key, node) ∈ entries → ¬ Section.whole.Declares key →
        node.ignorable = false →
          ∃ refusal,
            Configuration.load format text = .error (.refused format refusal)
  /-- Every field that is loaded was written or has its default. -/
  completed : ∀ text entries closed blueprint,
    format.tree? text = some (.table entries closed) →
      Configuration.load format text = .ok blueprint →
        blueprint.Completes format.dialect entries
  /-- A channel without a name, a kind or a rate is not loaded. -/
  required : ∀ text entries closed items itemsClosed channel,
    format.tree? text = some (.table entries closed) →
      (some "channels", .sequence items itemsClosed) ∈ entries →
        channel ∈ items → Section.channel.IsIncomplete channel →
          ∃ refusal,
            Configuration.load format text = .error (.refused format refusal)

theorem Toml.read_eq_ok_iff
    {schema : Node → Except Refusal α}
    {text : List Char}
    {value : α} :
    Toml.read schema text = .ok value ↔
      ∃ tree, Toml.document? text = some tree ∧ schema tree = .ok value := by
  rw [Toml.read]
  cases Toml.document? text with
  | none =>
      simp
  | some tree =>
      simp only [Option.some.injEq, exists_eq_left']
      cases schema tree with
      | ok result =>
          rfl
      | error reason =>
          cases Toml.isPlain tree <;> simp

/-- The fields that a record written as a sequence does not reach can be left
out. -/
theorem Schema.not_required_of_sequenceFields
    {dialect : Dialect}
    {expected : String}
    {closed : Bool}
    {index : Nat}
    {fields : List Field}
    {nodes : List Node}
    {present : Present}
    (isRead :
      sequenceFields dialect expected closed index fields nodes = .ok present) :
    ∀ field ∈ fields.drop nodes.length, field.required = false := by
  induction fields generalizing index nodes present with
  | nil =>
      simp
  | cons field fields inductionHypothesis =>
      cases nodes with
      | nil =>
          rw [sequenceFields] at isRead
          split at isRead
          · cases isRead
          · split at isRead
            · cases isRead
            · next optional =>
                have others := inductionHypothesis isRead
                rw [List.length_nil, List.drop_zero] at others ⊢
                exact List.forall_mem_cons.mpr
                  ⟨Bool.eq_false_iff.mpr optional, others⟩
      | cons node nodes =>
          rw [sequenceFields] at isRead
          obtain ⟨_, _, isRead⟩ := Result.bind_eq_ok_iff.mp isRead
          obtain ⟨_, othersRead, _⟩ := Result.bind_eq_ok_iff.mp isRead
          exact inductionHypothesis othersRead

namespace Configuration

variable
  {format : ConfigurationFormat}
  {text : List Char}
  {tree : Node}

/-- A text is read as its tree is. -/
theorem parse_eq_ok_iff
    {blueprint : Blueprint} :
    parse format text = .ok blueprint ↔
      ∃ tree, format.tree? text = some tree ∧
        Blueprint.decode format.dialect tree = .ok blueprint := by
  cases format with
  | toml =>
      exact Result.mapError_eq_ok_iff.trans Toml.read_eq_ok_iff
  | json =>
      rw [parse, Result.mapError_eq_ok_iff, Json.read,
        Result.bind_eq_ok_iff]
      simp only [ConfigurationFormat.tree?, ConfigurationFormat.dialect]
      cases (Json.document (Utf8.encode text)).2 <;> simp

/-- A text is refused whose tree is not read. -/
theorem exists_refused_of_tree
    (isTree : format.tree? text = some tree)
    (unread : ∀ blueprint,
      Blueprint.decode format.dialect tree ≠ .ok blueprint) :
    ∃ refusal, load format text = .error (.refused format refusal) := by
  cases parsed : parse format text with
  | ok blueprint =>
      obtain ⟨other, isOther, isRead⟩ := parse_eq_ok_iff.mp parsed
      cases isTree.symm.trans isOther
      exact absurd isRead (unread blueprint)
  | error defect =>
      obtain ⟨refusal, _, rfl⟩ := Result.mapError_eq_error_iff.mp parsed
      refine ⟨refusal, ?_⟩
      rw [load, parsed]
      rfl

/-- A text is loaded as its tree is read, if the rules accept what is read. -/
theorem load_iff_of_tree
    (isTree : format.tree? text = some tree)
    {blueprint : Blueprint} :
    load format text = .ok blueprint ↔
      Blueprint.decode format.dialect tree = .ok blueprint ∧
        blueprint.validate = .ok () := by
  rw [load_eq_ok_iff, parse_eq_ok_iff, isTree]
  simp only [Option.some.injEq, exists_eq_left']

/-- Trees that differ in edits only are read alike. -/
theorem agree_of_eqvGen
    {dialect : Dialect}
    {part : Section}
    {first second : Node}
    (edits : Relation.EqvGen (Alters dialect part) first second) :
    Agree (part.read dialect) first second := by
  induction edits with
  | rel _ _ alters =>
      exact alters.agree
  | refl =>
      exact fun _ => Iff.rfl
  | symm _ _ _ inductionHypothesis =>
      exact fun value => (inductionHypothesis value).symm
  | trans _ _ _ _ _ earlier later =>
      exact fun value => (earlier value).trans (later value)

/-- A channel that lacks a name, a kind or a rate has no value. -/
theorem not_decode_of_isIncomplete
    {dialect : Dialect}
    {channel : Node}
    (incomplete : Section.channel.IsIncomplete channel)
    (plan : ChannelPlan) :
    ChannelPlan.decode dialect channel ≠ .ok plan := by
  intro isRead
  cases incomplete with
  | @keyed entries key closed needed absent =>
      obtain ⟨_, fields⟩ := ChannelPlan.decode_table_iff.mp isRead
      have noEntry := lookup_eq_none absent
      simp only [Section.required, List.mem_cons, List.not_mem_nil,
        or_false] at needed
      rcases needed with rfl | rfl | rfl
      · cases (valueOf_none_iff noEntry).mp fields.name
      · cases (valueOf_none_iff noEntry).mp fields.kind
      · cases (valueOf_none_iff noEntry).mp fields.rate
  | @listed items closed short =>
      obtain ⟨_, isPresent, _⟩ := Result.bind_eq_ok_iff.mp isRead
      have noRate :
          Field.of "rate_hz" true number ∉
            (ChannelPlan.record dialect).drop items.length := fun member =>
        Bool.noConfusion (not_required_of_sequenceFields isPresent _ member)
      have position : items.length + (2 - items.length) = 2 :=
        Nat.add_sub_of_le (Nat.le_of_lt_succ short)
      refine noRate (List.mem_of_getElem? (i := 2 - items.length) ?_)
      rw [List.getElem?_drop, position]
      rfl

/-- What is read from a keyed section is read from its entries. -/
theorem completes_of_decode
    {dialect : Dialect}
    {entries : Keyed}
    {closed : Bool}
    {blueprint : Blueprint}
    (isRead :
      Blueprint.decode dialect (.table entries closed) = .ok blueprint) :
    blueprint.Completes dialect entries := by
  obtain ⟨_, fields⟩ := Blueprint.decode_table_iff.mp isRead
  refine ⟨fields, ?_, ?_, ?_, ?_⟩
  · intro inner innerClosed found
    exact (ProducerPlan.decode_table_iff.mp
      ((valueOf_some_iff found).mp fields.producer)).2
  · intro inner innerClosed found
    exact (Trajectory.decode_table_iff.mp
      ((valueOf_some_iff found).mp fields.trajectory)).2
  · intro inner innerClosed found
    exact (IntakePlan.decode_table_iff.mp
      ((valueOf_some_iff found).mp fields.intake)).2
  · intro items itemsClosed found
    obtain ⟨_, areRead⟩ :=
      sequence_eq_ok_iff.mp ((valueOf_some_iff found).mp fields.channels)
    refine areRead.imp ?_
    rintro item plan itemRead inner innerClosed rfl
    exact (ChannelPlan.decode_table_iff.mp itemRead).2

/-- A channel that cannot be read is in no list of channels that is read. -/
theorem not_decode_of_channel
    {dialect : Dialect}
    {entries : Keyed}
    {closed itemsClosed : Bool}
    {items : List Node}
    {channel : Node}
    (isEntry : (some "channels", .sequence items itemsClosed) ∈ entries)
    (isItem : channel ∈ items)
    (unread : ∀ plan, ChannelPlan.decode dialect channel ≠ .ok plan)
    (blueprint : Blueprint) :
    Blueprint.decode dialect (.table entries closed) ≠ .ok blueprint := by
  intro isRead
  obtain ⟨admitted, _⟩ := Blueprint.decode_table_iff.mp isRead
  have passes :=
    (admits_field_iff rfl).mp (admitted.admits _ isEntry)
  obtain ⟨plans, areRead⟩ := check_of_iff.mp passes
  obtain ⟨_, areItems⟩ := sequence_eq_ok_iff.mp areRead
  obtain ⟨plan, itemRead⟩ :=
    exists_value_of_items (items_eq_ok_iff.mpr areItems) isItem
  exact unread plan itemRead

/-- Everything in a JSON document can be passed over. -/
theorem ignorable_of_tree
    (isTree : ConfigurationFormat.json.tree? text = some tree) :
    tree.ignorable = true := by
  rw [ConfigurationFormat.tree?] at isTree
  cases read : Json.document (Utf8.encode text) with
  | mk node complete =>
      rw [read] at isTree
      cases complete with
      | true =>
          cases isTree
          exact Json.ignorable_of_complete read
      | false =>
          cases isTree

/-- Every key that can be left out has a default that can be written, and it takes
nothing that only JSON can write, but for a policy. -/
theorem exists_isDefault
    {dialect : Dialect}
    (readsNames : dialect.ReadsNames)
    {part : Section}
    {key : String}
    (isKey : key ∈ part.keys)
    (optional : key ∉ part.required) :
    ∃ node, part.IsDefault dialect key node ∧
      (key ≠ "policy" → node ≠ .null) := by
  cases part <;>
    simp only [Section.keys, List.mem_cons, List.not_mem_nil, or_false] at isKey
  case whole =>
    rcases isKey with rfl | rfl | rfl | rfl | rfl | rfl
    · exact ⟨_, ⟨_, rfl, Version.decode_name readsNames _⟩, by simp⟩
    · exact ⟨_, ⟨_, rfl, Role.decode_name readsNames _⟩, by simp⟩
    · exact ⟨_, ⟨_, rfl,
        ProducerPlan.decode_holds dialect (by decide) (holds_table _)⟩,
        by simp [Present.table]⟩
    · exact ⟨_, ⟨_, rfl, Trajectory.decode_holds dialect (holds_table _)⟩,
        by simp [Present.table]⟩
    · exact ⟨_, ⟨_, rfl, IntakePlan.decode_holds readsNames (holds_table _)⟩,
        by simp [Present.table]⟩
    · exact ⟨_, ⟨_, rfl, sequence_heldBy readsNames .nil⟩, by simp⟩
  case producer =>
    rcases isKey with rfl | rfl
    · exact ⟨_, ⟨_, rfl, number_fraction _⟩, by simp⟩
    · exact ⟨_, ⟨_, rfl, natural64_integer (by decide)⟩, by simp⟩
  case trajectory =>
    rcases isKey with rfl | rfl | rfl | rfl <;>
      exact ⟨_, ⟨_, rfl, number_fraction _⟩, by simp⟩
  case intake =>
    rcases isKey with rfl | rfl
    · exact ⟨_, ⟨_, rfl, text_text _⟩, by simp⟩
    · exact ⟨_, ⟨_, rfl, WireFormat.decode_name readsNames _⟩, by simp⟩
  case channel =>
    rcases isKey with rfl | rfl | rfl | rfl | rfl
    · exact absurd (by decide) optional
    · exact absurd (by decide) optional
    · exact absurd (by decide) optional
    · exact ⟨.null, ⟨_, rfl, rfl⟩, fun isOther => (isOther rfl).elim⟩
    · exact ⟨Parameters.node [], ⟨_, rfl, rfl⟩, by simp [Parameters.node]⟩

/-- A blueprint is not read from a table with a key without a meaning whose
value cannot be passed over. -/
theorem not_decode_of_unreadable
    {dialect : Dialect}
    {entries : Keyed}
    {closed : Bool}
    {key : String}
    {node : Node}
    (isEntry : (some key, node) ∈ entries)
    (undeclared : ¬ Section.whole.Declares key)
    (unreadable : node.ignorable = false)
    (blueprint : Blueprint) :
    Blueprint.decode dialect (.table entries closed) ≠ .ok blueprint := by
  intro isRead
  obtain ⟨admitted, _⟩ := Blueprint.decode_table_iff.mp isRead
  have declares :=
    Section.declares_iff_of_names (nofun : Section.whole ≠ .parameters)
      (rfl : (Blueprint.record dialect).map (·.name) = _) key
  have unknown := mt declares.mpr undeclared
  rw [Option.not_isSome_iff_eq_none] at unknown
  have ignorable := (admits_other_iff unknown).mp (admitted.admits _ isEntry)
  exact Bool.noConfusion (unreadable.symm.trans ignorable)

/-- A partial configuration means the one with every default written out. -/
theorem every_partial_configuration_is_filled_in
    (format : ConfigurationFormat) :
    format.FillsIn where
  unnoticed first second tree other isTree isOther edits blueprint := by
    rw [load_iff_of_tree isTree, load_iff_of_tree isOther]
    exact and_congr_left' (agree_of_eqvGen edits blueprint)
  spelled part key isKey optional unspelled := by
    obtain ⟨node, isDefault, spelled⟩ :=
      exists_isDefault format.readsNames isKey optional
    exact ⟨node, isDefault, fun isToml => spelled (unspelled isToml)⟩
  ignored isJson text tree isTree := by
    subst isJson
    exact ignorable_of_tree isTree
  unreadable text entries closed key node isTree isEntry undeclared
      unreadable :=
    exists_refused_of_tree isTree
      (not_decode_of_unreadable isEntry undeclared unreadable)
  completed text entries closed blueprint isTree loaded :=
    completes_of_decode ((load_iff_of_tree isTree).mp loaded).1
  required text entries closed items itemsClosed channel isTree isEntry isItem
      incomplete :=
    exists_refused_of_tree isTree
      (not_decode_of_channel isEntry isItem
        (not_decode_of_isIncomplete incomplete))

/-- A key without a meaning is passed over, also with a number that is out of
bounds, and a default may be written out. -/
example :
    load .json
        "\x7b\"x\": [1e999], \"role\": \"publisher\"\x7d".toList =
      .ok .default := by
  decide +kernel

/-- A key without a meaning that holds arrays inside each other. -/
def deepText : List Char :=
  "x = ".toList ++ List.replicate 300 '[' ++ List.replicate 300 ']'

/-- Without the limit of the nesting the value could be read, and nobody asks
for it; yet it is noticed. -/
theorem deep_value_is_noticed :
    load .toml [] = .ok .default ∧
      ¬ Section.whole.Declares "x" ∧
        (Toml.value 300 1000 (deepText.drop 4)).isSome = true ∧
          load .toml deepText = .error (.refused .toml .malformed) := by
  refine ⟨by decide +kernel, ?_, by decide +kernel, by decide +kernel⟩
  simp [Section.Declares, Section.keys]

end Configuration

end PositionFeed
