import PositionFeed.Json.Reader

namespace PositionFeed

/-!
# Values that nobody asks for

A value under a key without a meaning is passed over, which takes no more than
that the reader finds its end.  So whatever a complete document holds can be
passed over, also texts and numbers that nothing can hold.
-/

namespace Json

/-- What the reader finds the end of within these steps can be passed over. -/
structure PassesOver (fuel : Nat) : Prop where
  value : ∀ {input node rest},
    value fuel input = (node, some rest) → node.ignorable = true
  elements : ∀ {first input nodes rest},
    elements fuel first input = (nodes, some rest) →
      Node.allIgnorable nodes = true
  members : ∀ {first input entries rest},
    members fuel first input = (entries, some rest) →
      Node.entriesIgnorable entries = true

theorem ignorable_numberNode
    (number : Spelling) :
    (numberNode number).ignorable = true := by
  unfold numberNode
  split <;> rfl

theorem ignorable_word
    {letters input rest : List UInt8}
    {node read : Node}
    (ignorable : node.ignorable = true)
    (reads : word letters node input = (read, some rest)) :
    read.ignorable = true := by
  unfold word at reads
  split at reads
  · cases reads
    exact ignorable
  · cases reads

section Step

-- One step of the reader, when fewer steps leave what can be passed over.
variable
  {fuel : Nat}
  (passes : PassesOver fuel)

include passes

theorem ignorable_value
    {input rest : List UInt8}
    {node : Node}
    (reads : value (fuel + 1) input = (node, some rest)) :
    node.ignorable = true := by
  rw [value] at reads
  split at reads
  · cases reads
  · next inner begins =>
      cases read : members fuel true inner with
      | mk entries after =>
          rw [read] at reads
          cases reads
          simp [Node.ignorable, passes.members read]
  · next inner begins =>
      cases read : elements fuel true inner with
      | mk nodes after =>
          rw [read] at reads
          cases reads
          simp [Node.ignorable, passes.elements read]
  · split at reads
    · cases reads
    · split at reads <;> cases reads <;> rfl
  · exact ignorable_word rfl reads
  · exact ignorable_word rfl reads
  · exact ignorable_word rfl reads
  · split at reads
    · cases reads
      exact ignorable_numberNode _
    · cases reads

theorem ignorable_element
    {input rest : List UInt8}
    {nodes : List Node}
    (reads :
      (match value fuel input with
        | (node, none) => ([node], none)
        | (node, some rest) =>
            (node :: (elements fuel false rest).1,
              (elements fuel false rest).2)) = (nodes, some rest)) :
    Node.allIgnorable nodes = true := by
  split at reads
  · cases reads
  · next node middle item =>
      obtain ⟨rfl, others⟩ := Prod.mk.inj reads
      rw [Node.allIgnorable, passes.value item,
        passes.elements (Prod.ext rfl others)]
      rfl

theorem ignorable_elements
    {first : Bool}
    {input rest : List UInt8}
    {nodes : List Node}
    (reads : elements (fuel + 1) first input = (nodes, some rest)) :
    Node.allIgnorable nodes = true := by
  rw [elements] at reads
  dsimp only at reads
  split at reads
  · cases reads
    rfl
  · cases first with
    | true =>
        cases reads
    | false =>
        rw [if_neg Bool.false_ne_true] at reads
        split at reads
        · cases reads
        · cases reads
        · exact ignorable_element passes reads
  · cases first with
    | true =>
        exact ignorable_element passes reads
    | false =>
        cases reads

theorem ignorable_entry
    {input rest : List UInt8}
    {entries : List (Option String × Node)}
    (reads :
      (match input with
        | 0x22 :: key =>
            match pieces key with
            | none => ([], none)
            | some (parts, afterKey) =>
                match skipBlanks afterKey with
                | 0x3a :: inner =>
                    match value fuel inner with
                    | (node, none) => ([(pieceText parts, node)], none)
                    | (node, some middle) =>
                        ((pieceText parts, node) ::
                            (members fuel false middle).1,
                          (members fuel false middle).2)
                | _ => ([(pieceText parts, .broken)], none)
        | _ => ([], none)) = (entries, some rest)) :
    Node.entriesIgnorable entries = true := by
  split at reads
  · split at reads
    · cases reads
    · split at reads
      · split at reads
        · cases reads
        · next node middle item =>
            obtain ⟨rfl, others⟩ := Prod.mk.inj reads
            rw [Node.entriesIgnorable, passes.value item,
              passes.members (Prod.ext rfl others)]
            rfl
      · cases reads
  · cases reads

theorem ignorable_members
    {first : Bool}
    {input rest : List UInt8}
    {entries : List (Option String × Node)}
    (reads : members (fuel + 1) first input = (entries, some rest)) :
    Node.entriesIgnorable entries = true := by
  rw [members] at reads
  dsimp only at reads
  split at reads
  · cases reads
    rfl
  · cases first with
    | true =>
        cases reads
    | false =>
        exact ignorable_entry passes reads
  · cases first with
    | true =>
        exact ignorable_entry passes reads
    | false =>
        cases reads

end Step

theorem passesOver
    (fuel : Nat) :
    PassesOver fuel := by
  induction fuel with
  | zero =>
      constructor <;> nofun
  | succ fuel inductionHypothesis =>
      exact ⟨ignorable_value inductionHypothesis,
        ignorable_elements inductionHypothesis,
        ignorable_members inductionHypothesis⟩

/-- Everything in a complete document can be passed over. -/
theorem ignorable_of_complete
    {input : List UInt8}
    {node : Node}
    (complete : document input = (node, true)) :
    node.ignorable = true := by
  cases read : value (2 * input.length + 2) input with
  | mk found rest =>
      rw [document, read] at complete
      cases rest with
      | none =>
          cases complete
      | some rest =>
          obtain ⟨rfl, _⟩ := Prod.mk.inj complete
          exact (passesOver _).value read

end Json

end PositionFeed
