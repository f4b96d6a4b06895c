import PositionFeed.Document.Schema
import PositionFeed.Proofs.Result

namespace PositionFeed

/-!
# Records read back

A table with distinct keys, each of which is a field that passes its check, is
read as the fields that stand in it, in any order.  The two formats differ in
the order, so a node is said to hold fields up to it.
-/

namespace Schema

section Lookup

variable
  {κ β : Type}
  [BEq κ]
  [LawfulBEq κ]

theorem lookup_of_mem
    {present : List (κ × β)}
    (distinct : (present.map Prod.fst).Nodup)
    {key : κ}
    {node : β}
    (member : (key, node) ∈ present) :
    present.lookup key = some node := by
  induction present with
  | nil =>
      cases member
  | cons entry rest inductionHypothesis =>
      rw [List.map_cons, List.nodup_cons] at distinct
      rcases List.mem_cons.mp member with isEntry | inRest
      · rw [← isEntry]
        simp
      · have other : (key == entry.1) = false := by
          rw [beq_eq_false_iff_ne]
          rintro rfl
          exact distinct.1 (List.mem_map.mpr ⟨_, inRest, rfl⟩)
        rw [List.lookup_cons, other]
        exact inductionHypothesis distinct.2 inRest

theorem lookup_eq_none
    {present : List (κ × β)}
    {key : κ}
    (absent : key ∉ present.map Prod.fst) :
    present.lookup key = none := by
  rw [List.lookup_eq_none_iff]
  intro entry member
  rw [bne_iff_ne]
  rintro rfl
  exact absent (List.mem_map_of_mem member)

theorem mem_keys_of_lookup
    {present : List (κ × β)}
    {key : κ}
    {node : β}
    (found : present.lookup key = some node) :
    key ∈ present.map Prod.fst := by
  refine Classical.byContradiction fun absent => ?_
  cases (lookup_eq_none absent).symm.trans found

/-- The order of distinct keys does not matter. -/
theorem lookup_perm
    {first second : List (κ × β)}
    (perm : first.Perm second)
    (distinct : (first.map Prod.fst).Nodup)
    (key : κ) :
    first.lookup key = second.lookup key := by
  have keys := perm.map Prod.fst
  by_cases member : key ∈ second.map Prod.fst
  · obtain ⟨⟨_, node⟩, entry, rfl⟩ := List.mem_map.mp member
    rw [lookup_of_mem distinct (perm.mem_iff.mpr entry),
      lookup_of_mem (keys.nodup_iff.mp distinct) entry]
  · rw [lookup_eq_none member,
      lookup_eq_none fun other => member (keys.mem_iff.mp other)]

end Lookup

/-- A node is a table with these fields and nothing else, in some order. -/
def Holds (fields : Present) (node : Node) : Prop :=
  ∃ entries : Present,
    entries.Perm fields ∧
      node = .table (entries.map fun entry => (some entry.1, entry.2)) true

/-- The table of these fields in their order. -/
def Present.table (fields : Present) : Node :=
  .table (fields.map fun field => (some field.1, field.2)) true

theorem holds_table
    (fields : Present) :
    Holds fields fields.table :=
  ⟨fields, .refl _, rfl⟩

/-- A field has a name out of a record and a value that passes its check. -/
def Fits (record : List Field) (entry : String × Node) : Prop :=
  ∃ field, record.find? (·.name == entry.1) = some field ∧
    field.check entry.2 = .ok ()

theorem tableFields_eq
    {record : List Field}
    {entries present : Present}
    (distinct : ((present ++ entries).map Prod.fst).Nodup)
    (fits : ∀ entry ∈ entries, Fits record entry) :
    tableFields record true present
        (entries.map fun entry => (some entry.1, entry.2)) =
      .ok (present ++ entries) := by
  induction entries generalizing present with
  | nil =>
      simp [tableFields]
  | cons entry rest inductionHypothesis =>
      obtain ⟨field, found, passes⟩ := fits entry List.mem_cons_self
      have isNew : present.any (·.1 == entry.1) = false := by
        rw [List.any_eq_false]
        intro other member same
        rw [List.map_append, List.nodup_append] at distinct
        exact distinct.2.2 other.1 (List.mem_map_of_mem member) entry.1
          (by simp) (by simpa using same)
      have keys : ((present ++ [entry] ++ rest).map Prod.fst).Nodup := by
        simpa using distinct
      have later := inductionHypothesis keys
        fun other member => fits other (List.mem_cons_of_mem _ member)
      rw [List.map_cons, tableFields, found]
      dsimp only
      rw [isNew, passes]
      change tableFields record true (present ++ [entry]) _ = _
      rw [later, List.append_assoc, List.singleton_append]

/-- A table with fields that pass their checks is read as these fields. -/
theorem record_holds
    (dialect : Dialect)
    (typeName : String)
    {record : List Field}
    {fields : Present}
    {node : Node}
    (holds : Holds fields node)
    (distinct : (fields.map Prod.fst).Nodup)
    (fits : ∀ entry ∈ fields, Fits record entry) :
    ∃ present : Present,
      Schema.record dialect typeName record node = .ok present ∧
        ∀ key, present.lookup key = fields.lookup key := by
  obtain ⟨entries, perm, rfl⟩ := holds
  have keys : (entries.map Prod.fst).Nodup :=
    (perm.map Prod.fst).nodup_iff.mpr distinct
  refine ⟨entries, ?_, lookup_perm perm keys⟩
  exact tableFields_eq keys fun entry member =>
    fits entry (perm.mem_iff.mp member)

/-! ## Records that were read -/

theorem check_of_tableFields
    {record : List Field}
    {closed : Bool}
    {present whole : Present}
    {entries : List (Option String × Node)}
    (read : tableFields record closed present entries = .ok whole)
    {key : String}
    {node : Node}
    (member : (some key, node) ∈ entries)
    {field : Field}
    (found : record.find? (·.name == key) = some field) :
    field.check node = .ok () := by
  induction entries generalizing present with
  | nil =>
      cases member
  | cons entry rest inductionHypothesis =>
      obtain ⟨_ | first, value⟩ := entry
      · cases read
      · rw [tableFields] at read
        rcases List.mem_cons.mp member with isEntry | inRest
        · cases isEntry
          rw [found] at read
          dsimp only at read
          split at read
          · cases read
          · obtain ⟨_, passes, _⟩ := Result.bind_eq_ok_iff.mp read
            exact passes
        · split at read
          · split at read
            · cases read
            · obtain ⟨_, _, later⟩ := Result.bind_eq_ok_iff.mp read
              exact inductionHypothesis later inRest
          · split at read
            · exact inductionHypothesis read inRest
            · cases read

/-- A field of a record that was read has a value. -/
theorem exists_value_of_record
    {dialect : Dialect}
    {typeName : String}
    {record : List Field}
    {fields present : Present}
    (isRead : Schema.record dialect typeName record fields.table = .ok present)
    {name : String}
    {node : Node}
    (member : (name, node) ∈ fields)
    {required : Bool}
    {read : Node → Reading α}
    (found : record.find? (·.name == name) = some (.of name required read)) :
    ∃ value, read node = .ok value := by
  have passes := check_of_tableFields isRead
    (List.mem_map.mpr ⟨_, member, rfl⟩) found
  change (read node).map _ = _ at passes
  cases outcome : read node with
  | error refusal =>
      rw [outcome] at passes
      cases passes
  | ok value =>
      exact ⟨value, rfl⟩

/-- Every item of a sequence that was read has a value. -/
theorem exists_value_of_items
    {read : Node → Reading α}
    {nodes : List Node}
    {values : List α}
    (areRead : items read nodes = .ok values)
    {node : Node}
    (member : node ∈ nodes) :
    ∃ value, read node = .ok value := by
  induction nodes generalizing values with
  | nil =>
      cases member
  | cons first rest inductionHypothesis =>
      obtain ⟨value, firstRead, areRead⟩ := Result.bind_eq_ok_iff.mp areRead
      obtain ⟨_, restRead, _⟩ := Result.bind_eq_ok_iff.mp areRead
      rcases List.mem_cons.mp member with rfl | inRest
      · exact ⟨value, firstRead⟩
      · exact inductionHypothesis restRead inRest

end Schema

end PositionFeed
