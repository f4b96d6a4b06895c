import PositionFeed.Toml.Tree

namespace PositionFeed

/-!
# Tables under construction

An edit at the end of a path is an edit of the table there, and `Focus` says so
for tables whose last entry the path leads into.  A section with distinct keys
puts its values after those that the table has.
-/

namespace Toml

namespace Entries

variable
  {key : String}
  {item : Item}
  {entries : Entries}

theorem lookup_cons_of_ne
    {entry : String × Item}
    (other : entry.1 ≠ key)
    (rest : Entries) :
    List.lookup key (entry :: rest) = List.lookup key rest := by
  have different : (key == entry.1) = false := by
    simpa using other.symm
  rw [List.lookup_cons, different]

theorem lookup_append
    (key : String)
    (first second : Entries) :
    (first ++ second).lookup key =
      (first.lookup key).or (second.lookup key) := by
  induction first with
  | nil =>
      rfl
  | cons entry first inductionHypothesis =>
      rw [List.cons_append, List.lookup_cons, List.lookup_cons,
        inductionHypothesis]
      cases key == entry.1 <;> rfl

theorem replace_of_lookup
    (absent : entries.lookup key = none) :
    entries.replace key item = entries := by
  induction entries with
  | nil =>
      rfl
  | cons entry rest inductionHypothesis =>
      have other : entry.1 ≠ key := by
        rintro rfl
        simp at absent
      rw [lookup_cons_of_ne other] at absent
      have later := inductionHypothesis absent
      unfold replace at later ⊢
      rw [List.map_cons, later, if_neg other]

theorem replace_append
    (absent : entries.lookup key = none)
    (first second : Item) :
    (entries ++ [(key, first)]).replace key second =
      entries ++ [(key, second)] := by
  have kept : entries.replace key second = entries :=
    replace_of_lookup absent
  unfold replace at kept ⊢
  rw [List.map_append, kept]
  simp

theorem lookup_append_self
    (absent : entries.lookup key = none)
    (item : Item) :
    List.lookup key (entries ++ [(key, item)]) = some item := by
  rw [lookup_append, absent]
  simp

end Entries

/-- The table at the end of a path stands in these tables, and an edit of it
leaves the others as they are. -/
def Focus (path : List String) (whole : Entries → Entries) : Prop :=
  ∀ edit inner, (whole inner).enter edit path = (edit inner).map whole

namespace Focus

variable
  {path : List String}
  {whole : Entries → Entries}
  {before : Entries}
  {key : String}

theorem here :
    Focus [] fun inner => inner := by
  intro edit inner
  simp [Entries.enter]

/-- A table under a key. -/
theorem table
    (focus : Focus path whole)
    (absent : before.lookup key = none)
    (origin : Origin) :
    Focus (key :: path)
      (fun inner => before ++ [(key, .table origin (whole inner))]) := by
  intro edit inner
  rw [Entries.enter, Entries.lookup_append_self absent]
  dsimp only
  rw [focus]
  cases edit inner with
  | none =>
      rfl
  | some after =>
      simp only [Option.map_some, Entries.replace_append absent]

/-- The last table of an array. -/
theorem tables
    (focus : Focus path whole)
    (absent : before.lookup key = none)
    (earlier : List Entries) :
    Focus (key :: path)
      (fun inner => before ++ [(key, .tables earlier (whole inner))]) := by
  intro edit inner
  rw [Entries.enter, Entries.lookup_append_self absent]
  dsimp only
  rw [focus]
  cases edit inner with
  | none =>
      rfl
  | some after =>
      simp only [Option.map_some, Entries.replace_append absent]

end Focus

/-- The items of values under their keys. -/
def valueItems (pairs : List (String × Node)) : Entries :=
  pairs.map fun pair => (pair.1, .value pair.2)

theorem lookup_valueItems
    {key : String}
    {pairs : List (String × Node)}
    (absent : key ∉ pairs.map Prod.fst) :
    List.lookup key (valueItems pairs) = none := by
  induction pairs with
  | nil =>
      rfl
  | cons pair rest inductionHypothesis =>
      rw [List.map_cons, List.mem_cons, not_or] at absent
      rw [valueItems, List.map_cons,
        Entries.lookup_cons_of_ne (Ne.symm absent.1)]
      exact inductionHypothesis absent.2

/-- The tables of an array after what stands before it, where the last of them
may still grow. -/
def withTables (key : String) (tables : List Entries) (before : Entries) :
    Entries :=
  match tables.getLast? with
  | none => before
  | some last => before ++ [(key, .tables tables.dropLast last)]

section Tables

variable
  {key : String}
  {before : Entries}

theorem withTables_append
    (tables : List Entries)
    (last : Entries) :
    withTables key (tables ++ [last]) before =
      before ++ [(key, .tables tables last)] := by
  simp [withTables]

theorem openElement_withTables
    (absent : before.lookup key = none)
    (tables : List Entries) :
    (withTables key tables before).openElement key =
      some (withTables key (tables ++ [[]]) before) := by
  rcases List.eq_nil_or_concat tables with rfl | ⟨earlier, last, rfl⟩
  · simp [withTables, Entries.openElement, absent]
  · rw [List.concat_eq_append, withTables_append, withTables_append,
      Entries.openElement, Entries.lookup_append_self absent]
    simp only [Entries.replace_append absent]

end Tables

theorem entryNodes_append
    (first second : Entries) :
    entryNodes (first ++ second) = entryNodes first ++ entryNodes second := by
  induction first with
  | nil =>
      rfl
  | cons entry first inductionHypothesis =>
      simp [entryNodes, inductionHypothesis]

theorem entryNodes_valueItems
    (pairs : List (String × Node)) :
    entryNodes (valueItems pairs) = pairs := by
  induction pairs with
  | nil =>
      rfl
  | cons pair rest inductionHypothesis =>
      unfold valueItems at inductionHypothesis ⊢
      simp [entryNodes, Item.node, inductionHypothesis]

theorem tableNodes_eq
    (tables : List Entries) :
    tableNodes tables =
      tables.map fun entries => tableNode (entryNodes entries) := by
  induction tables with
  | nil =>
      rfl
  | cons entries rest inductionHypothesis =>
      simp [tableNodes, inductionHypothesis]

/-- The finished form of an array that has tables. -/
theorem entryNodes_withTables
    {key : String}
    {tables : List Entries}
    (nonempty : tables ≠ [])
    (before : Entries) :
    entryNodes (withTables key tables before) =
      entryNodes before ++
        [(key, .sequence
          (tables.map fun entries => tableNode (entryNodes entries)) true)] := by
  obtain ⟨earlier, last, rfl⟩ :=
    (List.eq_nil_or_concat tables).resolve_left nonempty
  rw [List.concat_eq_append, withTables_append, entryNodes_append]
  simp [entryNodes, Item.node, tableNodes_eq]

end Toml

end PositionFeed
