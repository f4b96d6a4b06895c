import Mathlib.Data.List.Forall2
import Mathlib.Data.List.Nodup
import PositionFeed.Proofs.Document.Schema

namespace PositionFeed

/-!
# What a record takes from a table

A record is read from a table entry by entry, but what comes of it has no
order: the table is accepted if every entry is and no field comes twice, and
each field then has the value under its key, or its default if there is none.

So some edits of a table change nothing: writing out a default, adding a key
that names no field, changing the order of distinct keys, and replacing the
value of a field by one that reads alike.
-/

namespace Schema

/-- The entries of a table in a document. -/
abbrev Keyed := List (Option String × Node)

/-- Two nodes that are read alike: with the same value, or not at all. -/
def Agree (read : Node → Reading α) (first second : Node) : Prop :=
  ∀ value, read first = .ok value ↔ read second = .ok value

/-- An entry that a record with these fields accepts. -/
inductive Admits (fields : List Field) : Option String × Node → Prop where
  /-- A field whose value passes its check. -/
  | field
      {key : String}
      {node : Node}
      {field : Field}
      (found : fields.find? (·.name == key) = some field)
      (passes : field.check node = .ok ()) :
      Admits fields (some key, node)
  /-- A value that nobody asked for. -/
  | other
      {key : String}
      {node : Node}
      (unknown : fields.find? (·.name == key) = none)
      (ignorable : node.ignorable = true) :
      Admits fields (some key, node)

/-- The field that an entry gives a value to. -/
def given? (fields : List Field) (entry : Option String × Node) :
    Option (String × Node) :=
  match entry with
  | (some key, node) =>
      if (fields.find? (·.name == key)).isSome then some (key, node) else none
  | (none, _) => none

/-- The fields that a table gives values to, in its order. -/
def given (fields : List Field) (entries : Keyed) : Present :=
  entries.filterMap (given? fields)

/-- A table that a record with these fields accepts. -/
@[mk_iff]
structure Admitted (fields : List Field) (entries : Keyed) (closed : Bool) :
    Prop where
  closed : closed = true
  admits : ∀ entry ∈ entries, Admits fields entry
  /-- No field comes twice. -/
  distinct : ((given fields entries).map Prod.fst).Nodup

/-- The value of a field: what stands under its key, or else its default, if it
has one. -/
inductive ValueOf
    (entries : Keyed)
    (key : String)
    (read : Node → Reading α)
    (default : Option α)
    (value : α) : Prop where
  /-- It is read from the entry of the field. -/
  | written
      (node : Node)
      (found : entries.lookup (some key) = some node)
      (isRead : read node = .ok value)
  /-- There is no entry. -/
  | missing
      (absent : entries.lookup (some key) = none)
      (isDefault : default = some value)

section Table

variable
  {fields : List Field}
  {closed : Bool}
  {entries : Keyed}
  {key : String}
  {node : Node}

theorem given_cons_field
    {field : Field}
    (found : fields.find? (·.name == key) = some field) :
    given fields ((some key, node) :: entries) =
      (key, node) :: given fields entries := by
  simp [given, given?, found]

theorem given_cons_other
    (unknown : fields.find? (·.name == key) = none) :
    given fields ((some key, node) :: entries) = given fields entries := by
  simp [given, given?, unknown]

theorem admits_field_iff
    {field : Field}
    (found : fields.find? (·.name == key) = some field) :
    Admits fields (some key, node) ↔ field.check node = .ok () := by
  constructor
  · intro admits
    cases admits with
    | field isFound passes =>
        cases found.symm.trans isFound
        exact passes
    | other unknown =>
        cases found.symm.trans unknown
  · exact .field found

theorem admits_other_iff
    (unknown : fields.find? (·.name == key) = none) :
    Admits fields (some key, node) ↔ node.ignorable = true := by
  constructor
  · intro admits
    cases admits with
    | field isFound passes =>
        cases unknown.symm.trans isFound
    | other unknown ignorable =>
        exact ignorable
  · exact .other unknown

theorem tableFields_eq_ok_iff
    {before after : Present}
    (distinct : (before.map Prod.fst).Nodup) :
    tableFields fields closed before entries = .ok after ↔
      closed = true ∧ (∀ entry ∈ entries, Admits fields entry) ∧
        ((before ++ given fields entries).map Prod.fst).Nodup ∧
          before ++ given fields entries = after := by
  induction entries generalizing before with
  | nil =>
      cases closed <;> simp [tableFields, given, distinct]
  | cons entry rest inductionHypothesis =>
      obtain ⟨_ | key, node⟩ := entry
      · have refused : ¬ Admits fields (none, node) := by
          intro admits
          cases admits
        simp [tableFields, refused]
      · rw [List.forall_mem_cons]
        cases found : fields.find? (·.name == key) with
        | none =>
            rw [tableFields, found, admits_other_iff found,
              given_cons_other found]
            cases node.ignorable
            · simp
            · simpa using inductionHypothesis distinct
        | some field =>
            rw [tableFields, found, admits_field_iff found,
              given_cons_field found]
            by_cases twice : key ∈ before.map Prod.fst
            · have isTwice : before.any (·.1 == key) = true := by
                simpa using twice
              have notDistinct :
                  ¬ ((before ++ (key, node) :: given fields rest).map
                    Prod.fst).Nodup := by
                rw [List.map_append, List.nodup_append]
                rintro ⟨_, _, apart⟩
                exact apart key twice key (by simp) rfl
              refine iff_of_false ?_ fun accepted => notDistinct accepted.2.2.1
              simp [isTwice, refuse]
            · have isNew : before.any (·.1 == key) = false := by
                rw [List.any_eq_false]
                intro other member same
                rw [beq_iff_eq] at same
                exact twice (same ▸ List.mem_map_of_mem member)
              have distinctAfter :
                  ((before ++ [(key, node)]).map Prod.fst).Nodup := by
                rw [List.map_append, List.nodup_append]
                refine ⟨distinct, by simp, ?_⟩
                rintro other member _ isKey rfl
                have isOther := List.mem_singleton.mp isKey
                exact twice (by simpa [isOther] using member)
              have later := inductionHypothesis distinctAfter
              rw [List.append_assoc, List.singleton_append] at later
              cases passes : field.check node with
              | error refusal =>
                  simp [isNew, passes, bind, Except.bind]
              | ok =>
                  simpa [isNew, passes, bind, Except.bind] using later

/-- A record is read from a table that it accepts, as the fields that the table
gives values to. -/
theorem record_table_eq_ok_iff
    {dialect : Dialect}
    {typeName : String}
    {present : Present} :
    record dialect typeName fields (.table entries closed) = .ok present ↔
      Admitted fields entries closed ∧ given fields entries = present := by
  have begin : (List.map Prod.fst ([] : Present)).Nodup := List.nodup_nil
  refine (tableFields_eq_ok_iff begin).trans ?_
  rw [List.nil_append]
  constructor
  · rintro ⟨closed, admits, distinct, isPresent⟩
    exact ⟨⟨closed, admits, distinct⟩, isPresent⟩
  · rintro ⟨⟨closed, admits, distinct⟩, isPresent⟩
    exact ⟨closed, admits, distinct, isPresent⟩

/-- A value is read from a record in a table if the table is accepted and the
value is read from the fields that it gives values to. -/
theorem record_bind_table_eq_ok_iff
    {dialect : Dialect}
    {typeName : String}
    {next : Present → Reading α}
    {value : α} :
    (record dialect typeName fields (.table entries closed) >>= next) =
        .ok value ↔
      Admitted fields entries closed ∧
        next (given fields entries) = .ok value := by
  simp only [Result.bind_eq_ok_iff, record_table_eq_ok_iff, and_assoc,
    exists_and_left, exists_eq_left']

/-- A field is found in what a table gives as it is found in the table. -/
theorem lookup_given
    (declared : (fields.find? (·.name == key)).isSome = true)
    (entries : Keyed) :
    (given fields entries).lookup key = entries.lookup (some key) := by
  induction entries with
  | nil =>
      rfl
  | cons entry rest inductionHypothesis =>
      obtain ⟨_ | other, node⟩ := entry
      · have skipped :
            given fields ((none, node) :: rest) = given fields rest := rfl
        rw [skipped, inductionHypothesis]
        simp [List.lookup_cons]
      · cases found : fields.find? (·.name == other) with
        | none =>
            have different : (some key == some other) = false := by
              rw [beq_eq_false_iff_ne]
              rintro same
              cases same
              simp [found] at declared
            rw [given_cons_other found, inductionHypothesis, List.lookup_cons,
              different]
        | some field =>
            rw [given_cons_field found, List.lookup_cons, List.lookup_cons,
              inductionHypothesis]
            simp

variable
  {read : Node → Reading α}
  {value : α}

theorem orDefault_given_iff
    {default : α}
    (declared : (fields.find? (·.name == key)).isSome = true) :
    (given fields entries).orDefault key read default = .ok value ↔
      ValueOf entries key read (some default) value := by
  rw [Present.orDefault, lookup_given declared]
  constructor
  · intro isRead
    split at isRead
    · next node found =>
        exact .written node found isRead
    · next absent =>
        cases isRead
        exact .missing absent rfl
  · rintro (⟨node, found, isRead⟩ | ⟨absent, isDefault⟩)
    · rw [found]
      exact isRead
    · rw [absent]
      exact congrArg Except.ok (Option.some.inj isDefault)

theorem wanted_given_iff
    (declared : (fields.find? (·.name == key)).isSome = true) :
    (given fields entries).wanted key read = .ok value ↔
      ValueOf entries key read none value := by
  rw [Present.wanted, lookup_given declared]
  constructor
  · intro isRead
    split at isRead
    · next node found =>
        exact .written node found isRead
    · cases isRead
  · rintro (⟨node, found, isRead⟩ | ⟨absent, isDefault⟩)
    · rw [found]
      exact isRead
    · cases isDefault

end Table

/-! ## Edits that change nothing -/

/-- An edit of a table that no reader should notice. -/
inductive Edit
    (declares : String → Prop)
    (isDefault : String → Node → Prop)
    (alike : String → Node → Node → Prop) :
    Keyed → Keyed → Prop where
  /-- A default is written out. -/
  | completed
      {before after : Keyed}
      {key : String}
      {node : Node}
      (absent : some key ∉ (before ++ after).map Prod.fst)
      (spells : isDefault key node) :
      Edit declares isDefault alike (before ++ after)
        (before ++ (some key, node) :: after)
  /-- A value is added that nobody asks for. -/
  | extended
      {before after : Keyed}
      {key : String}
      {node : Node}
      (undeclared : ¬ declares key)
      (ignorable : node.ignorable = true) :
      Edit declares isDefault alike (before ++ after)
        (before ++ (some key, node) :: after)
  /-- Entries change their places. -/
  | reordered
      {first second : Keyed}
      (distinct : (first.map Prod.fst).Nodup)
      (perm : first.Perm second) :
      Edit declares isDefault alike first second
  /-- A value is replaced by one that is read alike. -/
  | replaced
      {before after : Keyed}
      {key : String}
      {node other : Node}
      (similar : alike key node other) :
      Edit declares isDefault alike (before ++ (some key, node) :: after)
        (before ++ (some key, other) :: after)

section Kept

variable
  (declares : String → Prop)
  (isDefault : String → Node → Prop)
  (alike : String → Node → Node → Prop)

/-- A field that edits keep: what they write out for it is its default, and
what they replace reads alike. -/
structure Kept
    (name : String)
    (read : Node → Reading α)
    (default : Option α) : Prop where
  declared : declares name
  spelled : ∀ node, isDefault name node →
    ∃ usual, default = some usual ∧ read node = .ok usual
  agrees : ∀ node other, alike name node other → Agree read node other

/-- A field whose check edits keep. -/
structure KeptCheck (field : Field) : Prop where
  spelled : ∀ node, isDefault field.name node → field.check node = .ok ()
  agrees : ∀ node other, alike field.name node other →
    (field.check node = .ok () ↔ field.check other = .ok ())

end Kept

section Lookups

variable
  {before after : Keyed}
  {key name : String}
  {node other : Node}

theorem lookup_insert_of_ne
    (different : name ≠ key) :
    (before ++ (some key, node) :: after).lookup (some name) =
      (before ++ after).lookup (some name) := by
  have skipped : (some name == some key) = false := by
    simpa using different
  rw [List.lookup_append, List.lookup_append, List.lookup_cons, skipped]

theorem lookup_before
    (absent : some key ∉ (before ++ after).map Prod.fst) :
    before.lookup (some key) = none := by
  refine lookup_eq_none fun member => absent ?_
  rw [List.map_append]
  exact List.mem_append_left _ member

theorem lookup_insert_self
    (absent : some key ∉ (before ++ after).map Prod.fst) :
    (before ++ (some key, node) :: after).lookup (some key) = some node := by
  rw [List.lookup_append, lookup_before absent, List.lookup_cons_self]
  rfl

end Lookups

section Values

variable
  {key name : String}
  {read : Node → Reading α}
  {default : Option α}
  {value : α}

/-- A value is that of its entry. -/
theorem valueOf_congr
    {first second : Keyed}
    (same : first.lookup (some name) = second.lookup (some name)) :
    ValueOf first name read default value ↔
      ValueOf second name read default value := by
  constructor
  · rintro (⟨node, found, isRead⟩ | ⟨absent, isDefault⟩)
    · exact .written node (same ▸ found) isRead
    · exact .missing (same ▸ absent) isDefault
  · rintro (⟨node, found, isRead⟩ | ⟨absent, isDefault⟩)
    · exact .written node (same ▸ found) isRead
    · exact .missing (same ▸ absent) isDefault

theorem valueOf_some_iff
    {entries : Keyed}
    {node : Node}
    (found : entries.lookup (some name) = some node) :
    ValueOf entries name read default value ↔ read node = .ok value := by
  constructor
  · rintro (⟨other, isFound, isRead⟩ | ⟨absent, _⟩)
    · cases found.symm.trans isFound
      exact isRead
    · cases found.symm.trans absent
  · exact .written node found

theorem valueOf_none_iff
    {entries : Keyed}
    (absent : entries.lookup (some name) = none) :
    ValueOf entries name read default value ↔ default = some value := by
  constructor
  · rintro (⟨node, found, _⟩ | ⟨_, isDefault⟩)
    · cases absent.symm.trans found
    · exact isDefault
  · exact .missing absent

/-- What is made of a value is what is made of its entry or of its default. -/
theorem valueOf_map_iff
    {entries : Keyed}
    (read : Node → Reading α)
    (change : α → β)
    (default : Option α)
    {result : β} :
    ValueOf entries name (fun node => (read node).map change)
        (default.map change) result ↔
      ∃ value, ValueOf entries name read default value ∧
        change value = result := by
  constructor
  · rintro (⟨node, found, isMade⟩ | ⟨absent, isMade⟩)
    · obtain ⟨value, isRead, rfl⟩ := Result.map_eq_ok_iff.mp isMade
      exact ⟨value, .written node found isRead, rfl⟩
    · obtain ⟨value, isDefault, rfl⟩ := Option.map_eq_some_iff.mp isMade
      exact ⟨value, .missing absent isDefault, rfl⟩
  · rintro ⟨value, ⟨node, found, isRead⟩ | ⟨absent, isDefault⟩, rfl⟩
    · exact .written node found (Result.map_eq_ok_iff.mpr ⟨value, isRead, rfl⟩)
    · exact .missing absent (Option.map_eq_some_iff.mpr ⟨value, isDefault, rfl⟩)

/-- An edit keeps the values of the fields that edits keep. -/
theorem valueOf_edit_iff
    {declares : String → Prop}
    {isDefault : String → Node → Prop}
    {alike : String → Node → Node → Prop}
    {first second : Keyed}
    (edit : Edit declares isDefault alike first second)
    (kept : Kept declares isDefault alike name read default)
    (value : α) :
    ValueOf first name read default value ↔
      ValueOf second name read default value := by
  cases edit with
  | @completed before after key node absent spells =>
      by_cases same : name = key
      · subst same
        obtain ⟨usual, rfl, isRead⟩ := kept.spelled node spells
        rw [valueOf_none_iff (lookup_eq_none absent),
          valueOf_some_iff (lookup_insert_self absent), isRead,
          Option.some.injEq, Except.ok.injEq]
      · exact valueOf_congr (lookup_insert_of_ne same).symm
  | extended undeclared ignorable =>
      refine valueOf_congr (lookup_insert_of_ne ?_).symm
      rintro rfl
      exact undeclared kept.declared
  | reordered distinct perm =>
      exact valueOf_congr (lookup_perm perm distinct _)
  | @replaced before after key node other similar =>
      by_cases same : name = key
      · subst same
        cases earlier : before.lookup (some name) with
        | some found =>
            exact valueOf_congr (by simp [List.lookup_append, earlier])
        | none =>
            have isNode (node : Node) :
                (before ++ (some name, node) :: after).lookup (some name) =
                  some node := by
              simp [List.lookup_append, earlier]
            rw [valueOf_some_iff (isNode node), valueOf_some_iff (isNode other)]
            exact kept.agrees node other similar value
      · refine valueOf_congr ?_
        rw [lookup_insert_of_ne same, lookup_insert_of_ne same]

end Values

section Acceptance

variable
  {fields : List Field}
  {closed : Bool}
  {before after : Keyed}
  {key : String}
  {node other : Node}

theorem given_append
    (first second : Keyed) :
    given fields (first ++ second) =
      given fields first ++ given fields second :=
  List.filterMap_append

/-- What a table gives stands under the keys of the table. -/
theorem mem_keys_of_given
    {entries : Keyed}
    (member : key ∈ (given fields entries).map Prod.fst) :
    some key ∈ entries.map Prod.fst := by
  obtain ⟨⟨_, node⟩, isGiven, rfl⟩ := List.mem_map.mp member
  obtain ⟨⟨_ | name, value⟩, isEntry, gives⟩ := List.mem_filterMap.mp isGiven
  · cases gives
  · simp only [given?] at gives
    split at gives
    · cases gives
      exact List.mem_map.mpr ⟨_, isEntry, rfl⟩
    · cases gives

theorem admitted_insert_field
    {field : Field}
    (absent : some key ∉ (before ++ after).map Prod.fst)
    (found : fields.find? (·.name == key) = some field)
    (passes : field.check node = .ok ()) :
    Admitted fields (before ++ after) closed ↔
      Admitted fields (before ++ (some key, node) :: after) closed := by
  have isNew :
      key ∉ (given fields before).map Prod.fst ++
        (given fields after).map Prod.fst := by
    rw [← List.map_append, ← given_append]
    exact fun member => absent (mem_keys_of_given member)
  simp only [admitted_iff, given_append, given_cons_field found,
    List.forall_mem_append, List.forall_mem_cons, admits_field_iff found,
    passes, List.map_append, List.map_cons, List.nodup_middle, List.nodup_cons, isNew,
    not_false_eq_true, true_and]

theorem admitted_insert_other
    (unknown : fields.find? (·.name == key) = none)
    (ignorable : node.ignorable = true) :
    Admitted fields (before ++ after) closed ↔
      Admitted fields (before ++ (some key, node) :: after) closed := by
  simp only [admitted_iff, given_append, given_cons_other unknown,
    List.forall_mem_append, List.forall_mem_cons, admits_other_iff unknown,
    ignorable, true_and]

theorem admitted_perm
    {first second : Keyed}
    (perm : first.Perm second) :
    Admitted fields first closed ↔ Admitted fields second closed := by
  have distinct := ((perm.filterMap (given? fields)).map Prod.fst).nodup_iff
  simp only [admitted_iff, perm.mem_iff]
  exact and_congr_right' (and_congr_right' distinct)

theorem admitted_replace
    {field : Field}
    (found : fields.find? (·.name == key) = some field)
    (checks : field.check node = .ok () ↔ field.check other = .ok ()) :
    Admitted fields (before ++ (some key, node) :: after) closed ↔
      Admitted fields (before ++ (some key, other) :: after) closed := by
  simp only [admitted_iff, given_append, given_cons_field found,
    List.forall_mem_append, List.forall_mem_cons, admits_field_iff found,
    checks, List.map_append, List.map_cons]

/-- A field is checked by reading it. -/
theorem check_of_iff
    {name : String}
    {required : Bool}
    {read : Node → Reading α} :
    (Field.of name required read).check node = .ok () ↔
      ∃ value, read node = .ok value := by
  change (read node).map _ = _ ↔ _
  rw [Result.map_eq_ok_iff]
  simp

section Checks

variable
  {declares : String → Prop}
  {isDefault : String → Node → Prop}
  {alike : String → Node → Node → Prop}

/-- The check of a field that is read is kept with its value. -/
theorem Kept.check
    {name : String}
    {read : Node → Reading α}
    {default : Option α}
    (kept : Kept declares isDefault alike name read default)
    (required : Bool) :
    KeptCheck isDefault alike (.of name required read) where
  spelled node spells := by
    obtain ⟨usual, _, isRead⟩ := kept.spelled node spells
    exact check_of_iff.mpr ⟨usual, isRead⟩
  agrees node other similar := by
    rw [check_of_iff, check_of_iff]
    exact exists_congr (kept.agrees node other similar)

/-- What a record declares, and what of it edits keep. -/
structure KeptRecord
    (declares : String → Prop)
    (isDefault : String → Node → Prop)
    (alike : String → Node → Node → Prop)
    (fields : List Field) : Prop where
  declares_iff : ∀ key,
    declares key ↔ (fields.find? (·.name == key)).isSome = true
  declaresDefault : ∀ key node, isDefault key node → declares key
  declaresAlike : ∀ key node other, alike key node other → declares key
  checks : ∀ field ∈ fields, KeptCheck isDefault alike field

theorem KeptRecord.exists_field
    (kept : KeptRecord declares isDefault alike fields)
    (declared : declares key) :
    ∃ field, fields.find? (·.name == key) = some field ∧ field.name = key ∧
      KeptCheck isDefault alike field := by
  obtain ⟨field, found⟩ :=
    Option.isSome_iff_exists.mp ((kept.declares_iff key).mp declared)
  have isName : field.name = key := by
    simpa using List.find?_some found
  have isField := List.mem_of_find?_eq_some found
  exact ⟨field, found, isName, kept.checks field isField⟩

/-- What is made of a value that was read is not checked. -/
theorem Field.of_map
    {name : String}
    {required : Bool}
    (read : Node → Reading α)
    (change : α → β) :
    Field.of name required (fun node => (read node).map change) =
      .of name required read := by
  rw [Field.of, Field.of, Field.mk.injEq]
  refine ⟨rfl, rfl, funext fun node => ?_⟩
  cases read node <;> rfl

/-- An edit keeps what a record accepts whose checks edits keep. -/
theorem admitted_edit_iff
    {first second : Keyed}
    (edit : Edit declares isDefault alike first second)
    (kept : KeptRecord declares isDefault alike fields)
    (closed : Bool) :
    Admitted fields first closed ↔ Admitted fields second closed := by
  cases edit with
  | completed absent spells =>
      obtain ⟨field, found, rfl, check⟩ :=
        kept.exists_field (kept.declaresDefault _ _ spells)
      exact admitted_insert_field absent found (check.spelled _ spells)
  | extended undeclared ignorable =>
      have unknown := mt (kept.declares_iff _).mpr undeclared
      rw [Option.not_isSome_iff_eq_none] at unknown
      exact admitted_insert_other unknown ignorable
  | reordered distinct perm =>
      exact admitted_perm perm
  | replaced similar =>
      obtain ⟨field, found, rfl, check⟩ :=
        kept.exists_field (kept.declaresAlike _ _ _ similar)
      exact admitted_replace found (check.agrees _ _ similar)

/-- A record is read alike before and after an edit that keeps its checks and
the values of its fields. -/
theorem agree_of_kept
    {read : Node → Reading α}
    {reads : Keyed → α → Prop}
    (decodes : ∀ entries closed value,
      read (.table entries closed) = .ok value ↔
        Admitted fields entries closed ∧ reads entries value)
    (kept : KeptRecord declares isDefault alike fields)
    {first second : Keyed}
    (edit : Edit declares isDefault alike first second)
    (same : ∀ value, reads first value ↔ reads second value) :
    Agree read (.table first closed) (.table second closed) := by
  intro value
  rw [decodes, decodes, admitted_edit_iff edit kept, same]

end Checks

end Acceptance

/-! ## Sequences -/

section Sequences

variable
  {read : Node → Reading α}
  {closed : Bool}

theorem items_eq_ok_iff
    {nodes : List Node}
    {values : List α} :
    items read nodes = .ok values ↔
      List.Forall₂ (fun node value => read node = .ok value) nodes values := by
  induction nodes generalizing values with
  | nil =>
      rw [items, Except.ok.injEq, List.forall₂_nil_left_iff, eq_comm]
  | cons node rest inductionHypothesis =>
      simp only [items, Result.bind_eq_ok_iff, inductionHypothesis,
        List.forall₂_cons_left_iff, Except.ok.injEq]
      constructor
      · rintro ⟨value, isRead, others, areRead, rfl⟩
        exact ⟨value, others, isRead, areRead, rfl⟩
      · rintro ⟨value, others, isRead, areRead, rfl⟩
        exact ⟨value, isRead, others, areRead, rfl⟩

/-- A sequence is read item by item, if it ends well. -/
theorem sequence_eq_ok_iff
    {nodes : List Node}
    {values : List α} :
    sequence read (.sequence nodes closed) = .ok values ↔
      closed = true ∧
        List.Forall₂ (fun node value => read node = .ok value) nodes
          values := by
  rw [sequence, Result.bind_eq_ok_iff, ← items_eq_ok_iff]
  cases closed <;> simp

/-- An item of a sequence is replaced by one that is read alike. -/
theorem agree_sequence
    {earlier later : List Node}
    {node other : Node}
    (agree : Agree read node other) :
    Agree (sequence read) (.sequence (earlier ++ node :: later) closed)
      (.sequence (earlier ++ other :: later) closed) := by
  intro values
  rw [sequence_eq_ok_iff, sequence_eq_ok_iff]
  refine and_congr_right' ?_
  induction earlier generalizing values with
  | nil =>
      simp only [List.nil_append, List.forall₂_cons_left_iff, agree _]
  | cons item rest inductionHypothesis =>
      simp only [List.cons_append, List.forall₂_cons_left_iff,
        inductionHypothesis]

end Sequences

end Schema

end PositionFeed
