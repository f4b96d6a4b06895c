import Mathlib.Data.List.Forall2
import PositionFeed.Proofs.Document.Schema
import PositionFeed.Proofs.Json.Object

namespace PositionFeed

/-!
# Values in a row

`IsValue` says that a text is read as a node, whatever follows it that is not
more of a number.  There is one rule for each kind of value, so a nested
document is read back from the inside out, without a walk over all trees.

The writer puts values in a row with a comma between them and a gap before each
of them, which is empty or a line end.  The reader skips all gaps, so one proof
serves both.
-/

namespace Json

/-- A text is read as a node. -/
structure IsValue (text : List Char) (node : Node) : Prop where
  /-- It begins with none of the bytes that stand between values. -/
  begins : ∃ byte tail,
    Utf8.encode text = byte :: tail ∧
      byte ∉ [0x20, 0x0a, 0x09, 0x0d, 0x2c, 0x5d, 0x7d]
  reads :
    ∀ {fuel : Nat} {rest : List UInt8},
      text.length < fuel → EndsNumber rest →
        value fuel (Utf8.encode text ++ rest) = (node, some rest)

/-- There is something of every value. -/
theorem IsValue.length_positive
    {text : List Char}
    {node : Node}
    (isValue : IsValue text node) :
    0 < text.length := by
  obtain ⟨byte, tail, shape, _⟩ := isValue.begins
  cases text with
  | nil =>
      cases shape
  | cons c text =>
      exact Nat.succ_pos _

/-- A text that is a value is a document. -/
theorem IsValue.document_eq
    {text : List Char}
    {node : Node}
    (isValue : IsValue text node) :
    document (Utf8.encode text) = (node, true) := by
  have enough : text.length < 2 * (Utf8.encode text).length + 2 := by
    have shorter := Utf8.length_le_length_encode text
    omega
  have found := isValue.reads enough endsNumber_nil
  rw [List.append_nil] at found
  rw [document, found]
  rfl

theorem read_of_isValue
    {text : List Char}
    {node : Node}
    (isValue : IsValue text node)
    (schema : Node → Except Refusal α) :
    read schema (Utf8.encode text) = schema node := by
  simp only [read]
  rw [isValue.document_eq]
  cases schema node <;> rfl

/-! ## Single values -/

theorem isValue_quotedText
    (content : String) :
    IsValue (quotedText content) (.text content) where
  begins := by
    have shape := encode_quotedText content []
    rw [List.append_nil] at shape
    exact ⟨_, _, shape, by decide⟩
  reads := by
    intro fuel rest enough _
    obtain ⟨fuel, rfl⟩ : ∃ less, fuel = less + 1 := ⟨fuel - 1, by omega⟩
    exact value_quotedText content fuel rest

/-- A number is read as the node of its spelling. -/
theorem isValue_number
    {number : Spelling}
    (plain : number.IsPlain) :
    IsValue number.text (numberNode number) := by
  obtain ⟨byte, tail, shape, start⟩ := encode_text_eq_cons plain
  refine
    { begins := ⟨byte, tail, shape, ?_⟩
      reads := ?_ }
  · intro between
    rcases start with rfl | digit
    · revert between
      decide
    · simp only [List.mem_cons, List.not_mem_nil, or_false] at between
      rcases between with rfl | rfl | rfl | rfl | rfl | rfl | rfl <;>
        cases digit
  · intro fuel rest enough ends
    obtain ⟨fuel, rfl⟩ : ∃ less, fuel = less + 1 := ⟨fuel - 1, by omega⟩
    have spelled := spelling_text plain ends
    rw [shape, List.cons_append] at spelled ⊢
    exact value_of_start start spelled fuel

/-- The text of a natural number is spelled by its digits. -/
theorem isValue_digitText
    {number : Nat}
    (bounded : number < Word.size 64) :
    IsValue (integerText number) (.integer number) := by
  have natural : decide ((number : Int) < 0) = false := by
    simp
  rw [integerText_eq, natural, Int.natAbs_natCast,
    ← numberNode_digitText bounded]
  exact isValue_number (plain_digitText false number)

/-! ## Gaps -/

/-- A text of the blanks that the writer puts between values. -/
def IsGap (gap : List Char) : Prop :=
  ∀ c ∈ gap, c = ' ' ∨ c = '\n'

theorem isGap_nil :
    IsGap [] :=
  List.forall_mem_nil _

theorem isGap_newLine
    (level : Nat) :
    IsGap (newLine level) := by
  intro c member
  rcases List.mem_cons.mp member with same | inSpaces
  · exact .inr same
  · exact .inl (List.eq_of_mem_replicate inSpaces)

theorem skipBlanks_cons
    {byte : UInt8}
    (noBlank : byte ∉ [0x20, 0x0a, 0x09, 0x0d])
    (rest : List UInt8) :
    skipBlanks (byte :: rest) = byte :: rest := by
  rw [skipBlanks, if_neg]
  simpa using noBlank

theorem skipBlanks_gap
    {gap : List Char}
    (isGap : IsGap gap)
    (rest : List UInt8) :
    skipBlanks (Utf8.encode gap ++ rest) = skipBlanks rest := by
  induction gap with
  | nil =>
      rfl
  | cons c gap inductionHypothesis =>
      obtain ⟨blank, later⟩ := List.forall_mem_cons.mp isGap
      rw [Utf8.encode_cons, ← inductionHypothesis later]
      rcases blank with rfl | rfl <;> rfl

theorem value_gap
    {gap : List Char}
    (isGap : IsGap gap)
    (fuel : Nat)
    (rest : List UInt8) :
    value fuel (Utf8.encode gap ++ rest) = value fuel rest := by
  cases fuel with
  | zero =>
      rfl
  | succ fuel =>
      rw [value, value, skipBlanks_gap isGap]

/-- A gap ends a number if what follows it does. -/
theorem endsNumber_gap
    {gap : List Char}
    (isGap : IsGap gap)
    {rest : List UInt8}
    (ends : EndsNumber rest) :
    EndsNumber (Utf8.encode gap ++ rest) := by
  cases gap with
  | nil =>
      exact ends
  | cons c gap =>
      rcases isGap c List.mem_cons_self with rfl | rfl <;>
        · rintro byte ⟨⟩
          decide

/-! ## Items -/

/-- Values in a row, each behind a gap. -/
def rowItems (gap : List Char) : Bool → List (List Char) → List Char
  | _, [] => []
  | first, text :: rest =>
      (if first then [] else [',']) ++ gap ++ text ++ rowItems gap false rest

theorem encode_rowItems_cons
    (gap : List Char)
    (first : Bool)
    (text : List Char)
    (texts : List (List Char))
    (rest : List UInt8) :
    Utf8.encode (rowItems gap first (text :: texts)) ++ rest =
      (if first then [] else [0x2c]) ++
        (Utf8.encode gap ++
          (Utf8.encode text ++
            (Utf8.encode (rowItems gap false texts) ++ rest))) := by
  cases first with
  | true =>
      simp [rowItems]
  | false =>
      simp [rowItems, Utf8.encode_cons]
      rfl

/-- Values in a row are read as nodes in a row. -/
abbrev AreRead : List (List Char) → List Node → Prop :=
  List.Forall₂ IsValue

/-- After a value comes another one or the gap before the bracket. -/
theorem endsNumber_rowItems
    (gap : List Char)
    {outer : List Char}
    (isOuter : IsGap outer)
    (texts : List (List Char))
    (rest : List UInt8) :
    EndsNumber
      (Utf8.encode (rowItems gap false texts) ++
        (Utf8.encode outer ++ 0x5d :: rest)) := by
  cases texts with
  | nil =>
      refine endsNumber_gap isOuter ?_
      rintro byte ⟨⟩
      decide
  | cons text texts =>
      rw [encode_rowItems_cons]
      exact endsNumber_comma _

section Items

variable
  {gap outer : List Char}
  (isGap : IsGap gap)
  (isOuter : IsGap outer)

include isGap isOuter

/-- Values are read back up to the bracket. -/
theorem elements_rowItems
    {texts : List (List Char)}
    {nodes : List Node}
    (areRead : AreRead texts nodes)
    (first : Bool)
    (rest : List UInt8)
    {fuel : Nat}
    (enough : (rowItems gap first texts).length + 1 < fuel) :
    elements fuel first
        (Utf8.encode (rowItems gap first texts) ++
          (Utf8.encode outer ++ 0x5d :: rest)) =
      (nodes, some rest) := by
  induction areRead generalizing first fuel with
  | nil =>
      obtain ⟨fuel, rfl⟩ : ∃ less, fuel = less + 1 := ⟨fuel - 1, by omega⟩
      rw [elements]
      simp [rowItems, skipBlanks_gap isOuter, skipBlanks]
  | @cons text node texts nodes isValue _ inductionHypothesis =>
      obtain ⟨fuel, rfl⟩ : ∃ less, fuel = less + 1 := ⟨fuel - 1, by omega⟩
      have something := isValue.length_positive
      have counted :
          text.length + (rowItems gap false texts).length + 1 ≤ fuel := by
        cases first <;> simp [rowItems] at enough <;> omega
      have later := inductionHypothesis false (show _ < fuel by omega)
      have read := isValue.reads (show text.length < fuel by omega)
        (endsNumber_rowItems gap isOuter texts rest)
      -- The reader looks for a bracket or a comma before it reads a value.
      obtain ⟨byte, tail, begins, between⟩ := isValue.begins
      rw [encode_rowItems_cons]
      rw [begins, List.cons_append] at read ⊢
      simp only [List.mem_cons, List.not_mem_nil, or_false, not_or] at between
      have blanks := skipBlanks_cons
        (show byte ∉ [0x20, 0x0a, 0x09, 0x0d] by simp [between])
        (tail ++ (Utf8.encode (rowItems gap false texts) ++
          (Utf8.encode outer ++ 0x5d :: rest)))
      rw [elements]
      cases first with
      | true =>
          simp [skipBlanks_gap isGap, blanks, between, read, later]
      | false =>
          simp [skipBlanks_gap isGap, skipBlanks_cons, blanks, between, read,
            later]

/-- An array is read as the sequence of what its items are read as. -/
theorem isValue_rowItems
    {texts : List (List Char)}
    {nodes : List Node}
    (areRead : AreRead texts nodes) :
    IsValue ('[' :: (rowItems gap true texts ++ (outer ++ [']'])))
      (.sequence nodes true) := by
  have shape (rest : List UInt8) :
      Utf8.encode ('[' :: (rowItems gap true texts ++ (outer ++ [']']))) ++
          rest =
        0x5b :: (Utf8.encode (rowItems gap true texts) ++
          (Utf8.encode outer ++ 0x5d :: rest)) := by
    simp [Utf8.encode_cons]
    rfl
  refine
    { begins := ?_
      reads := ?_ }
  · have bytes := shape []
    rw [List.append_nil] at bytes
    exact ⟨_, _, bytes, by decide⟩
  · intro fuel rest enough _
    obtain ⟨fuel, rfl⟩ : ∃ less, fuel = less + 1 := ⟨fuel - 1, by omega⟩
    have read := elements_rowItems isGap isOuter areRead true rest
      (show _ < fuel by simp at enough; omega)
    rw [shape, value]
    simp [skipBlanks, read]

end Items

/-! ## Entries -/

/-- Values in a row under keys, each key behind a gap. -/
def rowEntries (gap space : List Char) :
    Bool → List (String × List Char) → List Char
  | _, [] => []
  | first, (key, text) :: rest =>
      (if first then [] else [',']) ++ gap ++ quotedText key ++
        ':' :: space ++ text ++ rowEntries gap space false rest

theorem encode_rowEntries_cons
    (gap space : List Char)
    (first : Bool)
    (key : String)
    (text : List Char)
    (texts : List (String × List Char))
    (rest : List UInt8) :
    Utf8.encode (rowEntries gap space first ((key, text) :: texts)) ++ rest =
      (if first then [] else [0x2c]) ++
        (Utf8.encode gap ++
          0x22 :: (Utf8.encode (key.toList.flatMap escaped) ++
            0x22 :: 0x3a :: (Utf8.encode space ++ (Utf8.encode text ++
              (Utf8.encode (rowEntries gap space false texts) ++ rest))))) := by
  cases first <;>
    simp [rowEntries, quotedText, Utf8.encode_cons] <;>
    rfl

/-- Entries in a row are read as fields in a row. -/
abbrev AreReadUnder : List (String × List Char) → Schema.Present → Prop :=
  List.Forall₂ fun entry field =>
    entry.1 = field.1 ∧ IsValue entry.2 field.2

/-- After an entry comes another one or the gap before the brace. -/
theorem endsNumber_rowEntries
    (gap space : List Char)
    {outer : List Char}
    (isOuter : IsGap outer)
    (texts : List (String × List Char))
    (rest : List UInt8) :
    EndsNumber
      (Utf8.encode (rowEntries gap space false texts) ++
        (Utf8.encode outer ++ 0x7d :: rest)) := by
  cases texts with
  | nil =>
      refine endsNumber_gap isOuter ?_
      rintro byte ⟨⟩
      decide
  | cons entry texts =>
      rw [encode_rowEntries_cons]
      exact endsNumber_comma _

section Entries

variable
  {gap space outer : List Char}
  (isGap : IsGap gap)
  (isSpace : IsGap space)
  (isOuter : IsGap outer)

include isGap isSpace isOuter

/-- Entries are read back up to the brace. -/
theorem members_rowEntries
    {texts : List (String × List Char)}
    {fields : Schema.Present}
    (areRead : AreReadUnder texts fields)
    (first : Bool)
    (rest : List UInt8)
    {fuel : Nat}
    (enough : (rowEntries gap space first texts).length < fuel) :
    members fuel first
        (Utf8.encode (rowEntries gap space first texts) ++
          (Utf8.encode outer ++ 0x7d :: rest)) =
      (fields.map fun field => (some field.1, field.2), some rest) := by
  induction areRead generalizing first fuel with
  | nil =>
      obtain ⟨fuel, rfl⟩ : ∃ less, fuel = less + 1 := ⟨fuel - 1, by omega⟩
      rw [members]
      simp [rowEntries, skipBlanks_gap isOuter, skipBlanks]
  | @cons entry field texts fields isEntry _ inductionHypothesis =>
      obtain ⟨key, text⟩ := entry
      obtain ⟨rfl, isValue⟩ := isEntry
      obtain ⟨fuel, rfl⟩ : ∃ less, fuel = less + 1 := ⟨fuel - 1, by omega⟩
      have later := inductionHypothesis false (show _ < fuel by
        simp [rowEntries] at enough
        omega)
      have read := isValue.reads
        (show text.length < fuel by
          simp [rowEntries] at enough
          omega)
        (endsNumber_rowEntries gap space isOuter texts rest)
      have quoted := pieces_quoted field.1.toList
        (0x3a :: (Utf8.encode space ++ (Utf8.encode text ++
          (Utf8.encode (rowEntries gap space false texts) ++
            (Utf8.encode outer ++ 0x7d :: rest)))))
      rw [encode_rowEntries_cons, members]
      cases first <;>
        simp [skipBlanks_gap isGap, skipBlanks_cons, quoted,
          value_gap isSpace, read, later]

/-- An object is read as the table of what its entries are read as. -/
theorem isValue_rowEntries
    {texts : List (String × List Char)}
    {fields : Schema.Present}
    (areRead : AreReadUnder texts fields) :
    IsValue
      ('\x7b' :: (rowEntries gap space true texts ++ (outer ++ ['\x7d'])))
      fields.table := by
  have shape (rest : List UInt8) :
      Utf8.encode
            ('\x7b' ::
              (rowEntries gap space true texts ++ (outer ++ ['\x7d']))) ++
          rest =
        0x7b :: (Utf8.encode (rowEntries gap space true texts) ++
          (Utf8.encode outer ++ 0x7d :: rest)) := by
    simp [Utf8.encode_cons]
    rfl
  refine
    { begins := ?_
      reads := ?_ }
  · have bytes := shape []
    rw [List.append_nil] at bytes
    exact ⟨_, _, bytes, by decide⟩
  · intro fuel rest enough _
    obtain ⟨fuel, rfl⟩ : ∃ less, fuel = less + 1 := ⟨fuel - 1, by omega⟩
    have read := members_rowEntries isGap isSpace isOuter areRead true rest
      (show _ < fuel by simp at enough; omega)
    rw [shape, value]
    simp [skipBlanks, read, Schema.Present.table]

end Entries

end Json

end PositionFeed
