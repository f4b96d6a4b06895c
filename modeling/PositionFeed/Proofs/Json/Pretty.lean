import PositionFeed.Proofs.Json.Double
import PositionFeed.Proofs.Json.Rows

namespace PositionFeed

/-!
# Documents over several lines in JSON read back

The gaps of a document over several lines are line ends, and a space follows
every colon.
-/

namespace Json

theorem isValue_text
    (level : Nat)
    (content : String) :
    IsValue ((Tree.text content).pretty level) (.text content) := by
  rw [Tree.pretty]
  exact isValue_quotedText content

theorem isValue_natural
    (level : Nat)
    {number : Nat}
    (bounded : number < Word.size 64) :
    IsValue ((Tree.integer number).pretty level) (.integer number) := by
  rw [Tree.pretty]
  exact isValue_digitText bounded

theorem isValue_double
    (level : Nat)
    {x : Float}
    (finite : x.isFinite = true) :
    IsValue ((Tree.number x).pretty level) (doubleNode x) := by
  obtain ⟨number, text, plain, node⟩ := spelling_double finite
  rw [Tree.pretty, text, ← node]
  exact isValue_number plain

/-- Values in a row are read as nodes in a row. -/
abbrev AreValues (level : Nat) : List Tree → List Node → Prop :=
  List.Forall₂ fun tree node => IsValue (tree.pretty level) node

/-- Entries in a row are read as fields in a row. -/
abbrev AreEntries (level : Nat) :
    List (String × Tree) → Schema.Present → Prop :=
  List.Forall₂ fun entry field =>
    entry.1 = field.1 ∧ IsValue (entry.2.pretty level) field.2

theorem prettyItems_eq
    (level : Nat)
    (first : Bool)
    (items : List Tree) :
    prettyItems level first items =
      rowItems (newLine level) first (items.map (Tree.pretty level)) := by
  induction items generalizing first with
  | nil =>
      rw [prettyItems, List.map_nil, rowItems]
  | cons item items inductionHypothesis =>
      rw [prettyItems, List.map_cons, rowItems, inductionHypothesis]

theorem prettyEntries_eq
    (level : Nat)
    (first : Bool)
    (entries : List (String × Tree)) :
    prettyEntries level first entries =
      rowEntries (newLine level) [' '] first
        (entries.map fun entry => (entry.1, entry.2.pretty level)) := by
  induction entries generalizing first with
  | nil =>
      rw [prettyEntries, List.map_nil, rowEntries]
  | cons entry entries inductionHypothesis =>
      simp [prettyEntries, rowEntries, inductionHypothesis]

/-- An object is read as the table of what its entries are read as. -/
theorem isValue_object
    {level : Nat}
    {entries : List (String × Tree)}
    {fields : Schema.Present}
    (areEntries : AreEntries (level + 1) entries fields) :
    IsValue ((Tree.object entries).pretty level) fields.table := by
  have isSpace : IsGap [' '] := by
    simp [IsGap]
  have areRead : AreReadUnder
      (entries.map fun entry => (entry.1, entry.2.pretty (level + 1)))
      fields :=
    List.forall₂_map_left_iff.mpr areEntries
  -- Without entries nothing is put on a line of its own.
  by_cases nonempty : entries = []
  · subst nonempty
    exact isValue_rowEntries isGap_nil isSpace isGap_nil areRead
  · rw [Tree.pretty.eq_4 _ _ nonempty, prettyEntries_eq]
    have isValue := isValue_rowEntries (isGap_newLine (level + 1)) isSpace
      (isGap_newLine level) areRead
    simpa using isValue

/-- An array is read as the sequence of what its items are read as. -/
theorem isValue_array
    {level : Nat}
    {items : List Tree}
    {nodes : List Node}
    (areValues : AreValues (level + 1) items nodes) :
    IsValue ((Tree.array items).pretty level) (.sequence nodes true) := by
  have areRead : AreRead (items.map (Tree.pretty (level + 1))) nodes :=
    List.forall₂_map_left_iff.mpr areValues
  by_cases nonempty : items = []
  · subst nonempty
    exact isValue_rowItems isGap_nil isGap_nil areRead
  · rw [Tree.pretty.eq_2 _ _ nonempty, prettyItems_eq]
    have isValue := isValue_rowItems (isGap_newLine (level + 1))
      (isGap_newLine level) areRead
    simpa using isValue

end Json

end PositionFeed
