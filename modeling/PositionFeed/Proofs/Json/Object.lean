import PositionFeed.Proofs.Json.Number
import PositionFeed.Proofs.Json.Text

namespace PositionFeed

/-!
# Objects in JSON read back

An object of texts and natural numbers is read back entry after entry.  The
reader spends one step on each, and there are more bytes than entries.
-/

namespace Json

/-- What a text or a natural number of 64 bits is read as. -/
def Tree.plainNode? : Tree → Option Node
  | .text value => some (.text value)
  | .integer value =>
      if 0 ≤ value ∧ value < Word.size 64 then some (.integer value) else none
  | _ => none

@[simp] theorem plainNode?_text
    (content : String) :
    (Tree.text content).plainNode? = some (.text content) := rfl

theorem plainNode?_natural
    {number : Nat}
    (bounded : number < Word.size 64) :
    (Tree.integer number).plainNode? = some (.integer number) := by
  have within : 0 ≤ (number : Int) ∧ (number : Int) < Word.size 64 :=
    ⟨Int.natCast_nonneg number, by exact_mod_cast bounded⟩
  rw [Tree.plainNode?, if_pos within]

/-- What entries of texts and natural numbers are read as. -/
def plainEntries? :
    List (String × Tree) → Option (List (Option String × Node))
  | [] => some []
  | (key, tree) :: rest => do
      let node ← tree.plainNode?
      let nodes ← plainEntries? rest
      some ((some key, node) :: nodes)

/-- A text or a natural number is read back. -/
theorem value_plain
    {tree : Tree}
    {node : Node}
    (plain : tree.plainNode? = some node)
    (fuel : Nat)
    {rest : List UInt8}
    (ends : EndsNumber rest) :
    value (fuel + 1) (Utf8.encode tree.compact ++ rest) =
      (node, some rest) := by
  cases tree with
  | text content =>
      cases plain
      rw [Tree.compact]
      exact value_quotedText content fuel rest
  | integer number =>
      simp only [Tree.plainNode?, Option.ite_none_right_eq_some,
        Option.some.injEq] at plain
      obtain ⟨⟨natural, bounded⟩, rfl⟩ := plain
      obtain ⟨digits, rfl⟩ := Int.eq_ofNat_of_zero_le natural
      have shape :
          (Tree.integer digits).compact = Decimal.digitText digits := by
        simp [Tree.compact, integerText, NumberStyle.signed]
      rw [shape]
      exact value_digitText (by exact_mod_cast bounded) fuel ends
  | _ =>
      cases plain

theorem endsNumber_comma
    (rest : List UInt8) :
    EndsNumber (0x2c :: rest) := by
  rintro byte ⟨⟩
  decide

theorem endsNumber_brace
    (rest : List UInt8) :
    EndsNumber (0x7d :: rest) := by
  rintro byte ⟨⟩
  decide

/-- After an entry comes another one or the closing brace. -/
theorem endsNumber_entries
    (entries : List (String × Tree))
    (rest : List UInt8) :
    EndsNumber
      (Utf8.encode (compactEntries false entries) ++ 0x7d :: rest) := by
  cases entries with
  | nil =>
      exact endsNumber_brace rest
  | cons entry entries =>
      exact endsNumber_comma _

/-- The bytes of an entry, without the comma before it. -/
def entryBytes (key : String) (tree : Tree) (rest : List UInt8) : List UInt8 :=
  0x22 :: (Utf8.encode (key.toList.flatMap escaped) ++
    0x22 :: 0x3a :: (Utf8.encode tree.compact ++ rest))

theorem encode_compactEntries_cons
    (first : Bool)
    (key : String)
    (tree : Tree)
    (entries : List (String × Tree))
    (rest : List UInt8) :
    Utf8.encode (compactEntries first ((key, tree) :: entries)) ++ rest =
      (if first then [] else [0x2c]) ++
        entryBytes key tree
          (Utf8.encode (compactEntries false entries) ++ rest) := by
  cases first <;>
    simp [compactEntries, quotedText, entryBytes, Utf8.encode_cons] <;>
    rfl

/-- One entry is read, and the reader goes on behind it. -/
theorem members_entry
    (first : Bool)
    (key : String)
    {tree : Tree}
    {node : Node}
    (plain : tree.plainNode? = some node)
    (fuel : Nat)
    {rest : List UInt8}
    (ends : EndsNumber rest) :
    members (fuel + 2) first
        ((if first then [] else [0x2c]) ++ entryBytes key tree rest) =
      (((some key, node) :: (members (fuel + 1) false rest).1),
        (members (fuel + 1) false rest).2) := by
  have quoted :=
    pieces_quoted key.toList (0x3a :: (Utf8.encode tree.compact ++ rest))
  have read := value_plain plain fuel ends
  cases first with
  | true =>
      rw [members]
      simp [entryBytes, skipBlanks, quoted, read]
  | false =>
      rw [members]
      simp [entryBytes, skipBlanks, quoted, read]

/-- Entries of texts and natural numbers are read back up to the brace. -/
theorem members_compactEntries
    {entries : List (String × Tree)}
    {nodes : List (Option String × Node)}
    (plain : plainEntries? entries = some nodes)
    (first : Bool)
    {fuel : Nat}
    (enough : entries.length < fuel)
    (rest : List UInt8) :
    members fuel first
        (Utf8.encode (compactEntries first entries) ++ 0x7d :: rest) =
      (nodes, some rest) := by
  induction entries generalizing nodes first fuel with
  | nil =>
      cases plain
      obtain ⟨fuel, rfl⟩ : ∃ less, fuel = less + 1 := ⟨fuel - 1, by omega⟩
      rw [members]
      simp [compactEntries, Utf8.encode, skipBlanks]
  | cons entry entries inductionHypothesis =>
      obtain ⟨key, tree⟩ := entry
      simp only [plainEntries?, Option.bind_eq_bind,
        Option.bind_eq_some_iff, Option.some.injEq] at plain
      obtain ⟨node, plainNode, others, plainEntries, rfl⟩ := plain
      obtain ⟨fuel, rfl⟩ : ∃ less, fuel = less + 2 :=
        ⟨fuel - 2, by simp at enough; omega⟩
      have enoughLater : entries.length < fuel + 1 := by
        simp at enough
        omega
      have later := inductionHypothesis plainEntries false enoughLater
      rw [encode_compactEntries_cons,
        members_entry first key plainNode fuel (endsNumber_entries _ _),
        later]

theorem encode_object
    (entries : List (String × Tree))
    (rest : List UInt8) :
    Utf8.encode (Tree.object entries).compact ++ rest =
      0x7b :: (Utf8.encode (compactEntries true entries) ++
        0x7d :: rest) := by
  simp only [Tree.compact, Utf8.encode_cons, Utf8.encode_append,
    List.append_assoc]
  rfl

/-- An object of texts and natural numbers is read back. -/
theorem value_object
    {entries : List (String × Tree)}
    {nodes : List (Option String × Node)}
    (plain : plainEntries? entries = some nodes)
    {fuel : Nat}
    (enough : entries.length < fuel)
    (rest : List UInt8) :
    value (fuel + 1) (Utf8.encode (Tree.object entries).compact ++ rest) =
      (.table nodes true, some rest) := by
  have read := members_compactEntries plain true enough rest
  rw [encode_object, value]
  simp [skipBlanks, read]

/-- There are no more entries than bytes. -/
theorem length_le_length_compactEntries
    (first : Bool)
    (entries : List (String × Tree)) :
    entries.length ≤
      (Utf8.encode (compactEntries first entries)).length := by
  induction entries generalizing first with
  | nil =>
      simp
  | cons entry entries inductionHypothesis =>
      have later := inductionHypothesis false
      have shape :=
        encode_compactEntries_cons first entry.1 entry.2 entries []
      simp only [List.append_nil] at shape
      rw [shape]
      simp only [entryBytes, List.length_cons, List.length_append]
      omega

/-- A document that is an object of texts and natural numbers is read back. -/
theorem read_object
    {entries : List (String × Tree)}
    {nodes : List (Option String × Node)}
    (plain : plainEntries? entries = some nodes)
    (schema : Node → Except Refusal α) :
    read schema (Utf8.encode (Tree.object entries).compact) =
      schema (.table nodes true) := by
  let input := Utf8.encode (Tree.object entries).compact
  have enough : entries.length < 2 * input.length + 1 := by
    have shorter := length_le_length_compactEntries true entries
    have shape :
        input = 0x7b :: (Utf8.encode (compactEntries true entries) ++ [0x7d]) :=
      (List.append_nil input).symm.trans (encode_object entries [])
    simp only [shape, List.length_cons, List.length_append]
    omega
  have whole : document input = (.table nodes true, true) := by
    have found := value_object plain enough []
    rw [List.append_nil] at found
    simp only [document, input]
    rw [found]
    rfl
  simp only [read]
  rw [whole]
  cases schema (.table nodes true) <;> rfl

end Json

end PositionFeed
