import PositionFeed.Proofs.Json.Double
import PositionFeed.Proofs.Json.Rows

namespace PositionFeed

/-!
# Documents without blanks in JSON read back

Frames are written without any gaps.
-/

namespace Json

theorem isValue_null :
    IsValue Tree.null.compact .null where
  begins := ⟨_, _, rfl, by decide⟩
  reads := by
    intro fuel rest enough _
    obtain ⟨fuel, rfl⟩ : ∃ less, fuel = less + 1 := ⟨fuel - 1, by omega⟩
    rfl

/-- What JSON cannot write is written as nothing. -/
theorem text_of_not_isFinite
    {x : Float}
    (special : x.isFinite = false) :
    NumberStyle.json.text x = "null".toList := by
  rw [Binary64.isFinite_eq] at special
  rw [NumberStyle.text]
  cases meaning : Binary64.decode x with
  | nan =>
      rfl
  | infinite negative =>
      rfl
  | finite =>
      rw [meaning] at special
      cases special

/-- What the text of a double is read as. -/
def writtenNode (x : Float) : Node :=
  if x.isFinite then doubleNode x else .null

theorem isValue_compact_double
    (x : Float) :
    IsValue (Tree.number x).compact (writtenNode x) := by
  rw [Tree.compact, writtenNode]
  split
  · next finite =>
      obtain ⟨number, text, plain, node⟩ := spelling_double finite
      rw [text, ← node]
      exact isValue_number plain
  · next special =>
      rw [text_of_not_isFinite (Bool.eq_false_iff.mpr special)]
      exact isValue_null

/-- A negative number of 64 bits is read as what it is. -/
theorem numberNode_negative
    {number : Nat}
    (positive : 0 < number)
    (bounded : number ≤ Word.size 63) :
    numberNode ⟨true, Decimal.digitText number, none, none⟩ =
      .integer (-(number : Int)) := by
  have within :
      Nat.ofDigitChars 10 (Decimal.digitText number) 0 ≤ significandLimit := by
    rw [ofDigitChars_digitText]
    exact bounded.trans (by decide)
  simp [numberNode, Spelling.value,
    gather_eq (AllDigits.digitText number) within, positive, bounded]

theorem isValue_compact_integer
    {value : Int}
    (low : -(Word.size 63 : Int) ≤ value)
    (high : value < Word.size 64) :
    IsValue (Tree.integer value).compact (.integer value) := by
  rw [Tree.compact]
  rcases lt_or_ge value 0 with negative | natural
  · obtain ⟨number, rfl⟩ : ∃ number : Nat, value = -(number : Int) :=
      ⟨value.natAbs, by omega⟩
    have positive : 0 < number := by
      omega
    have minus : decide (-(number : Int) < 0) = true := by
      simpa using positive
    rw [integerText_eq, minus, Int.natAbs_neg, Int.natAbs_natCast,
      ← numberNode_negative positive (by omega)]
    exact isValue_number (plain_digitText true number)
  · obtain ⟨number, rfl⟩ := Int.eq_ofNat_of_zero_le natural
    exact isValue_digitText (by exact_mod_cast high)

/-- Values in a row are read as nodes in a row. -/
abbrev AreCompact : List Tree → List Node → Prop :=
  List.Forall₂ fun tree node => IsValue tree.compact node

/-- Entries in a row are read as fields in a row. -/
abbrev AreCompactUnder : List (String × Tree) → Schema.Present → Prop :=
  List.Forall₂ fun entry field =>
    entry.1 = field.1 ∧ IsValue entry.2.compact field.2

theorem compactItems_eq
    (first : Bool)
    (items : List Tree) :
    compactItems first items = rowItems [] first (items.map Tree.compact) := by
  induction items generalizing first with
  | nil =>
      rw [compactItems, List.map_nil, rowItems]
  | cons item items inductionHypothesis =>
      rw [compactItems, List.map_cons, rowItems, inductionHypothesis,
        List.append_nil]

theorem compactEntries_eq
    (first : Bool)
    (entries : List (String × Tree)) :
    compactEntries first entries =
      rowEntries [] [] first
        (entries.map fun entry => (entry.1, entry.2.compact)) := by
  induction entries generalizing first with
  | nil =>
      rw [compactEntries, List.map_nil, rowEntries]
  | cons entry entries inductionHypothesis =>
      simp [compactEntries, rowEntries, inductionHypothesis]

/-- An object is read as the table of what its entries are read as. -/
theorem isValue_compact_object
    {entries : List (String × Tree)}
    {fields : Schema.Present}
    (areCompact : AreCompactUnder entries fields) :
    IsValue (Tree.object entries).compact fields.table := by
  have areRead : AreReadUnder
      (entries.map fun entry => (entry.1, entry.2.compact)) fields :=
    List.forall₂_map_left_iff.mpr areCompact
  have isValue :=
    isValue_rowEntries isGap_nil isGap_nil isGap_nil areRead
  rw [Tree.compact, compactEntries_eq]
  simpa using isValue

/-- An array is read as the sequence of what its items are read as. -/
theorem isValue_compact_array
    {items : List Tree}
    {nodes : List Node}
    (areCompact : AreCompact items nodes) :
    IsValue (Tree.array items).compact (.sequence nodes true) := by
  have areRead : AreRead (items.map Tree.compact) nodes :=
    List.forall₂_map_left_iff.mpr areCompact
  have isValue := isValue_rowItems isGap_nil isGap_nil areRead
  rw [Tree.compact, compactItems_eq]
  simpa using isValue

end Json

end PositionFeed
