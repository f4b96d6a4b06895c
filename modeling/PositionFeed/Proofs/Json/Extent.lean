import PositionFeed.Proofs.Json.Scan
import PositionFeed.Proofs.Result

namespace PositionFeed

/-!
# How far a JSON value reaches

Which bytes the reader takes for a value does not depend on what it makes of
them.  `Spans` says so by the grammar alone, and the steps that the reader
allows itself are enough to find every value.  Two facts about the grammar
follow by induction on it: what comes after a value does not change how far it
reaches, unless the value is a number at the end of the input, and no value
reaches over a zero byte.
-/

namespace Json

/-! ## The grammar -/

/-- What the reader is in the middle of. -/
inductive Part where
  | value
  /-- The values of a sequence, before the first one or after another. -/
  | elements (first : Bool)
  /-- The entries of a table, likewise. -/
  | members (first : Bool)

/-- What the reader leaves behind a part. -/
def extent (fuel : Nat) (part : Part) (input : List UInt8) : Rest :=
  match part with
  | .value => (value fuel input).2
  | .elements first => (elements fuel first input).2
  | .members first => (members fuel first input).2

/-- The literal words, each with its first letter apart. -/
def words : List (UInt8 × List UInt8) :=
  [(0x6e, [0x75, 0x6c, 0x6c]), (0x74, [0x72, 0x75, 0x65]),
    (0x66, [0x61, 0x6c, 0x73, 0x65])]

theorem initial_of_word :
    ∀ word ∈ words,
      word.1 ≠ 0 ∧ 0 ∉ word.2 ∧
        word.1 ≠ 0x7b ∧ word.1 ≠ 0x5d ∧ word.1 ≠ 0x2c := by
  decide

/-- Before the first item of a collection there are blanks, and before every
other one a comma between blanks. -/
inductive Reaches : Bool → List UInt8 → List UInt8 → Prop where
  | first
      {input : List UInt8} :
      Reaches true input (skipBlanks input)
  | later
      {input after : List UInt8}
      (comma : skipBlanks input = 0x2c :: after) :
      Reaches false input (skipBlanks after)

/-- A part at the beginning of the input reaches up to the rest. -/
inductive Spans : Part → List UInt8 → List UInt8 → Prop where
  | table
      {input inner rest : List UInt8}
      (begins : skipBlanks input = 0x7b :: inner)
      (entries : Spans (.members true) inner rest) :
      Spans .value input rest
  | sequence
      {input inner rest : List UInt8}
      (begins : skipBlanks input = 0x5b :: inner)
      (items : Spans (.elements true) inner rest) :
      Spans .value input rest
  | text
      {input inner rest : List UInt8}
      {parts : List Piece}
      (begins : skipBlanks input = 0x22 :: inner)
      (closes : pieces inner = some (parts, rest)) :
      Spans .value input rest
  | word
      {input letters rest : List UInt8}
      {initial : UInt8}
      (known : (initial, letters) ∈ words)
      (begins : skipBlanks input = initial :: (letters ++ rest)) :
      Spans .value input rest
  | number
      {input rest : List UInt8}
      {number : Spelling}
      (spells : spelling (skipBlanks input) = some (number, rest)) :
      Spans .value input rest
  | sequenceEnd
      {first : Bool}
      {input rest : List UInt8}
      (ends : skipBlanks input = 0x5d :: rest) :
      Spans (.elements first) input rest
  | element
      {first : Bool}
      {input next middle rest : List UInt8}
      (reaches : Reaches first input next)
      (item : Spans .value next middle)
      (others : Spans (.elements false) middle rest) :
      Spans (.elements first) input rest
  | tableEnd
      {first : Bool}
      {input rest : List UInt8}
      (ends : skipBlanks input = 0x7d :: rest) :
      Spans (.members first) input rest
  | entry
      {first : Bool}
      {input key afterKey inner middle rest : List UInt8}
      {parts : List Piece}
      (reaches : Reaches first input (0x22 :: key))
      (closes : pieces key = some (parts, afterKey))
      (colon : skipBlanks afterKey = 0x3a :: inner)
      (item : Spans .value inner middle)
      (others : Spans (.members false) middle rest) :
      Spans (.members first) input rest

/-! ## The reader finds what the grammar says -/

theorem spans_of_word
    {initial : UInt8}
    {letters input inner rest : List UInt8}
    {node : Node}
    (known : (initial, letters) ∈ words)
    (begins : skipBlanks input = initial :: inner)
    (reads : (word letters node inner).2 = some rest) :
    Spans .value input rest := by
  unfold word at reads
  split at reads
  · next drops =>
      cases reads
      rw [dropWord_eq_some_iff] at drops
      subst drops
      exact .word known begins
  · cases reads

section Sound

-- One step of the reader, when fewer steps leave what the grammar leaves.
variable
    {fuel : Nat}
    (sound :
      ∀ part {input rest}, extent fuel part input = some rest →
        Spans part input rest)

include sound

theorem spans_of_value
    {input rest : List UInt8}
    (reads : (value (fuel + 1) input).2 = some rest) :
    Spans .value input rest := by
  rw [value] at reads
  split at reads
  · cases reads
  · next inner begins =>
      exact .table begins (sound (.members true) reads)
  · next inner begins =>
      exact .sequence begins (sound (.elements true) reads)
  · next inner begins =>
      split at reads
      · cases reads
      · next closes =>
          split at reads <;>
            cases reads <;>
            exact .text begins closes
  · next begins =>
      exact spans_of_word (by decide) begins reads
  · next begins =>
      exact spans_of_word (by decide) begins reads
  · next begins =>
      exact spans_of_word (by decide) begins reads
  · split at reads
    · next spells =>
        cases reads
        exact .number spells
    · cases reads

theorem spans_of_element
    {first : Bool}
    {input next rest : List UInt8}
    (reaches : Reaches first input next)
    (reads :
      (match value fuel next with
        | (node, none) => ([node], none)
        | (node, some rest) =>
            (node :: (elements fuel false rest).1,
              (elements fuel false rest).2)).2 = some rest) :
    Spans (.elements first) input rest := by
  split at reads
  · cases reads
  · next node middle item =>
      have read : extent fuel .value next = some middle :=
        congrArg Prod.snd item
      exact .element reaches (sound .value read)
        (sound (.elements false) reads)

theorem spans_of_elements
    {first : Bool}
    {input rest : List UInt8}
    (reads : (elements (fuel + 1) first input).2 = some rest) :
    Spans (.elements first) input rest := by
  rw [elements] at reads
  dsimp only at reads
  split at reads
  · next inner ends =>
      cases reads
      exact .sequenceEnd ends
  · next inner comma =>
      cases first with
      | true =>
          cases reads
      | false =>
          rw [if_neg Bool.false_ne_true] at reads
          split at reads
          · cases reads
          · cases reads
          · exact spans_of_element sound (.later comma) reads
  · cases first with
    | true =>
        exact spans_of_element sound .first reads
    | false =>
        cases reads

theorem spans_of_entry
    {first : Bool}
    {input next rest : List UInt8}
    (reaches : Reaches first input next)
    (reads :
      (match next with
        | 0x22 :: key =>
            match pieces key with
            | none => ([], none)
            | some (parts, afterKey) =>
                match skipBlanks afterKey with
                | 0x3a :: inner =>
                    match value fuel inner with
                    | (node, none) => ([(pieceText parts, node)], none)
                    | (node, some middle) =>
                        ((pieceText parts, node) ::
                            (members fuel false middle).1,
                          (members fuel false middle).2)
                | _ => ([(pieceText parts, .broken)], none)
        | _ => ([], none)).2 = some rest) :
    Spans (.members first) input rest := by
  split at reads
  · split at reads
    · cases reads
    · next closes =>
        split at reads
        · next colon =>
            split at reads
            · cases reads
            · next node middle item =>
                have read : extent fuel .value _ = some middle :=
                  congrArg Prod.snd item
                exact .entry reaches closes colon (sound .value read)
                  (sound (.members false) reads)
        · cases reads
  · cases reads

theorem spans_of_members
    {first : Bool}
    {input rest : List UInt8}
    (reads : (members (fuel + 1) first input).2 = some rest) :
    Spans (.members first) input rest := by
  rw [members] at reads
  dsimp only at reads
  split at reads
  · next inner ends =>
      cases reads
      exact .tableEnd ends
  · next inner comma =>
      cases first with
      | true =>
          cases reads
      | false =>
          exact spans_of_entry sound (.later comma) reads
  · cases first with
    | true =>
        exact spans_of_entry sound .first reads
    | false =>
        cases reads

end Sound

/-- What the reader leaves behind a part is what the grammar leaves. -/
theorem spans_of_extent
    {fuel : Nat}
    {part : Part}
    {input rest : List UInt8}
    (reads : extent fuel part input = some rest) :
    Spans part input rest := by
  induction fuel generalizing part input rest with
  | zero =>
      cases part <;> cases reads
  | succ fuel inductionHypothesis =>
      cases part with
      | value =>
          exact spans_of_value (fun _ => inductionHypothesis) reads
      | elements first =>
          exact spans_of_elements (fun _ => inductionHypothesis) reads
      | members first =>
          exact spans_of_members (fun _ => inductionHypothesis) reads

/-! ## What a part goes over -/

/-- The rest is left behind at least one byte. -/
structure Takes (input rest : List UInt8) : Prop where
  goesOver : GoesOver input rest
  shorter : rest.length < input.length

theorem Takes.behind_blanks
    {input inner rest : List UInt8}
    {byte : UInt8}
    (begins : skipBlanks input = byte :: inner)
    (noZero : byte ≠ 0)
    (later : GoesOver inner rest) :
    Takes input rest := by
  have blanks := goesOver_skipBlanks input
  rw [begins] at blanks
  exact {
    goesOver := blanks.trans (.cons noZero later)
    shorter := Nat.lt_of_le_of_lt later.length_le blanks.length_le
  }

theorem Takes.between
    {input middle rest last : List UInt8}
    (before : GoesOver input middle)
    (takes : Takes middle rest)
    (after : GoesOver rest last) :
    Takes input last where
  goesOver := (before.trans takes.goesOver).trans after
  shorter :=
    Nat.lt_of_le_of_lt after.length_le
      (Nat.lt_of_lt_of_le takes.shorter before.length_le)

theorem Reaches.goesOver
    {first : Bool}
    {input next : List UInt8}
    (reaches : Reaches first input next) :
    GoesOver input next := by
  cases reaches with
  | first =>
      exact goesOver_skipBlanks input
  | later comma =>
      exact (Takes.behind_blanks comma (by decide)
        (goesOver_skipBlanks _)).goesOver

theorem takes_number
    {input : List UInt8}
    {number : Spelling}
    {rest : List UInt8}
    (spells : spelling input = some (number, rest)) :
    Takes input rest where
  goesOver := scans_spelling.goesOver spells
  shorter := by
    obtain ⟨byte, inner, rfl, _, shorter⟩ := spelling_begins spells
    exact Nat.lt_succ_of_le shorter

/-- A part goes over at least one byte, and over no zero. -/
theorem Spans.takes
    {part : Part}
    {input rest : List UInt8}
    (spans : Spans part input rest) :
    Takes input rest := by
  induction spans with
  | table begins entries inductionHypothesis =>
      exact .behind_blanks begins (by decide) inductionHypothesis.goesOver
  | sequence begins items inductionHypothesis =>
      exact .behind_blanks begins (by decide) inductionHypothesis.goesOver
  | text begins closes =>
      exact .behind_blanks begins (by decide) (goesOver_pieces closes)
  | word known begins =>
      obtain ⟨noZeroInitial, noZero, _⟩ := initial_of_word _ known
      exact .behind_blanks begins noZeroInitial ⟨_, rfl, noZero⟩
  | number spells =>
      exact .between (goesOver_skipBlanks _) (takes_number spells) (.refl _)
  | sequenceEnd ends =>
      exact .behind_blanks ends (by decide) (.refl _)
  | element reaches item others itemTakes othersTake =>
      exact .between reaches.goesOver itemTakes othersTake.goesOver
  | tableEnd ends =>
      exact .behind_blanks ends (by decide) (.refl _)
  | entry reaches closes colon item others itemTakes othersTake =>
      have separator :=
        Takes.behind_blanks colon (by decide) (.refl _)
      have key :=
        (goesOver_pieces closes).trans separator.goesOver
      exact .between (reaches.goesOver.trans (.cons (by decide) key))
        itemTakes othersTake.goesOver

/-! ## What follows a part -/

theorem Reaches.append
    {first : Bool}
    {input next : List UInt8}
    (reaches : Reaches first input next)
    (goesOn : next ≠ [])
    (more : List UInt8) :
    Reaches first (input ++ more) (next ++ more) := by
  obtain ⟨byte, rest, begins⟩ := List.exists_cons_of_ne_nil goesOn
  cases reaches with
  | first =>
      have later : Reaches true (input ++ more) _ :=
        .first
      rw [skipBlanks_append begins more] at later
      rw [begins]
      exact later
  | later comma =>
      have later := Reaches.later (skipBlanks_append comma more)
      rw [skipBlanks_append begins more] at later
      rw [begins]
      exact later

theorem Spans.append
    {part : Part}
    {input rest : List UInt8}
    (spans : Spans part input rest)
    (goesOn : part = .value → rest ≠ [])
    (more : List UInt8) :
    Spans part (input ++ more) (rest ++ more) := by
  induction spans with
  | table begins entries inductionHypothesis =>
      exact .table (skipBlanks_append begins more) (inductionHypothesis nofun)
  | sequence begins items inductionHypothesis =>
      exact .sequence (skipBlanks_append begins more)
        (inductionHypothesis nofun)
  | text begins closes =>
      exact .text (skipBlanks_append begins more) (pieces_append closes more)
  | word known begins =>
      refine .word known ?_
      rw [← List.append_assoc]
      exact skipBlanks_append begins more
  | @number input number rest spells =>
      obtain ⟨byte, inner, begins, _, _⟩ := spelling_begins spells
      have later := scans_spelling.append spells (goesOn rfl) more
      rw [begins, List.cons_append, ← skipBlanks_append begins] at later
      exact .number later
  | sequenceEnd ends =>
      exact .sequenceEnd (skipBlanks_append ends more)
  | element reaches item others appendItem appendOthers =>
      have itemEnds : _ ≠ [] :=
        List.ne_nil_of_length_pos (Nat.zero_lt_of_lt others.takes.shorter)
      have itemBegins : _ ≠ [] :=
        List.ne_nil_of_length_pos (Nat.zero_lt_of_lt item.takes.shorter)
      exact .element (reaches.append itemBegins more)
        (appendItem fun _ => itemEnds) (appendOthers nofun)
  | tableEnd ends =>
      exact .tableEnd (skipBlanks_append ends more)
  | entry reaches closes colon item others appendItem appendOthers =>
      have itemEnds : _ ≠ [] :=
        List.ne_nil_of_length_pos (Nat.zero_lt_of_lt others.takes.shorter)
      exact .entry (reaches.append (List.cons_ne_nil _ _) more)
        (pieces_append closes more) (skipBlanks_append colon more)
        (appendItem fun _ => itemEnds) (appendOthers nofun)

/-! ## The steps are enough -/

/-- So many steps are enough for a part of the given input.  A sequence spends
one before it reads its first value, which may begin at the same byte, so each
byte is worth two. -/
def Part.steps (input : List UInt8) : Part → Nat
  | .value => 2 * input.length
  | .elements _ => 2 * input.length + 1
  | .members _ => 2 * input.length + 1

theorem extent_word
    {initial : UInt8}
    {letters input rest : List UInt8}
    (known : (initial, letters) ∈ words)
    (begins : skipBlanks input = initial :: (letters ++ rest))
    (fuel : Nat) :
    extent (fuel + 1) .value input = some rest := by
  have drops : dropWord letters (letters ++ rest) = some rest :=
    dropWord_eq_some_iff.mpr rfl
  simp only [words, List.mem_cons, Prod.mk.injEq, List.not_mem_nil,
    or_false] at known
  rw [extent, value, begins]
  rcases known with ⟨rfl, rfl⟩ | ⟨rfl, rfl⟩ | ⟨rfl, rfl⟩
  · simp only [word, drops]
  · simp only [word, drops]
  · simp only [word, drops]

/-- No number begins like another value, the end of a sequence or a comma. -/
theorem noNumber :
    ∀ byte ∈ [0x7b, 0x5b, 0x22, 0x6e, 0x74, 0x66, 0x5d, 0x2c],
      ¬ (byte = 0x2d ∨ isDigitByte byte = true) := by
  simp [isDigitByte]

theorem extent_number
    {input : List UInt8}
    {number : Spelling}
    {rest : List UInt8}
    (spells : spelling (skipBlanks input) = some (number, rest))
    (fuel : Nat) :
    extent (fuel + 1) .value input = some rest := by
  obtain ⟨byte, inner, begins, initial, _⟩ := spelling_begins spells
  rw [begins] at spells
  have noWord : byte ∉ [0x7b, 0x5b, 0x22, 0x6e, 0x74, 0x66, 0x5d, 0x2c] :=
    fun member => noNumber byte member initial
  rw [extent, value, begins]
  split <;> simp_all

theorem extent_table
    {input inner : List UInt8}
    (begins : skipBlanks input = 0x7b :: inner)
    (fuel : Nat) :
    extent (fuel + 1) .value input = extent fuel (.members true) inner := by
  rw [extent, value, begins]
  rfl

theorem extent_sequence
    {input inner : List UInt8}
    (begins : skipBlanks input = 0x5b :: inner)
    (fuel : Nat) :
    extent (fuel + 1) .value input = extent fuel (.elements true) inner := by
  rw [extent, value, begins]
  rfl

@[simp] theorem skipBlanks_skipBlanks
    (input : List UInt8) :
    skipBlanks (skipBlanks input) = skipBlanks input := by
  induction input with
  | nil =>
      rfl
  | cons byte input inductionHypothesis =>
      by_cases blank : byte = 0x20 ∨ byte = 0x0a ∨ byte = 0x09 ∨ byte = 0x0d
      · simp only [skipBlanks, if_pos blank, inductionHypothesis]
      · simp only [skipBlanks, if_neg blank]

theorem Reaches.skipBlanks
    {first : Bool}
    {input next : List UInt8}
    (reaches : Reaches first input next) :
    skipBlanks next = next := by
  cases reaches with
  | first =>
      exact skipBlanks_skipBlanks input
  | later comma =>
      exact skipBlanks_skipBlanks _

/-- A value does not begin like the end of a sequence or like a comma. -/
theorem Spans.begins
    {input rest : List UInt8}
    (spans : Spans .value input rest) :
    ∃ byte inner,
      skipBlanks input = byte :: inner ∧ byte ≠ 0x5d ∧ byte ≠ 0x2c := by
  cases spans with
  | table begins =>
      exact ⟨_, _, begins, by decide⟩
  | sequence begins =>
      exact ⟨_, _, begins, by decide⟩
  | text begins =>
      exact ⟨_, _, begins, by decide⟩
  | word known begins =>
      obtain ⟨_, _, _, noEnd, noComma⟩ := initial_of_word _ known
      exact ⟨_, _, begins, noEnd, noComma⟩
  | number spells =>
      obtain ⟨byte, inner, begins, initial, _⟩ := spelling_begins spells
      refine ⟨byte, inner, begins, ?_, ?_⟩ <;>
        rintro rfl <;>
        exact noNumber _ (by decide) initial

theorem extent_element
    {first : Bool}
    {input next middle rest : List UInt8}
    (reaches : Reaches first input next)
    (item : Spans .value next rest)
    {fuel : Nat}
    (reads : extent fuel .value next = some middle) :
    extent (fuel + 1) (.elements first) input =
      extent fuel (.elements false) middle := by
  obtain ⟨byte, inner, begins, noEnd, noComma⟩ := item.begins
  rw [reaches.skipBlanks] at begins
  obtain ⟨node, read⟩ : ∃ node, value fuel next = (node, some middle) :=
    ⟨_, Prod.ext rfl reads⟩
  rw [extent, elements]
  dsimp only
  cases reaches with
  | first =>
      rw [begins] at read ⊢
      split
      · next same =>
          cases same
          exact (noEnd rfl).elim
      · next same =>
          cases same
          exact (noComma rfl).elim
      · rw [if_pos rfl, read]
        rfl
  | later comma =>
      simp only [comma, if_neg Bool.false_ne_true]
      rw [begins] at read ⊢
      split
      · next same =>
          cases same
      · next same =>
          cases same
          exact (noEnd rfl).elim
      · rw [read]
        rfl

theorem extent_entry
    {first : Bool}
    {input key afterKey inner middle : List UInt8}
    {parts : List Piece}
    (reaches : Reaches first input (0x22 :: key))
    (closes : pieces key = some (parts, afterKey))
    (colon : skipBlanks afterKey = 0x3a :: inner)
    {fuel : Nat}
    (reads : extent fuel .value inner = some middle) :
    extent (fuel + 1) (.members first) input =
      extent fuel (.members false) middle := by
  obtain ⟨node, read⟩ : ∃ node, value fuel inner = (node, some middle) :=
    ⟨_, Prod.ext rfl reads⟩
  rw [extent, members]
  dsimp only
  generalize place : 0x22 :: key = next at reaches
  cases reaches with
  | first =>
      simp [← place, closes, colon, read, extent]
  | later comma =>
      simp [comma, ← place, closes, colon, read, extent]

theorem Spans.exists_succ
    {part : Part}
    {input rest : List UInt8}
    (spans : Spans part input rest)
    {fuel : Nat}
    (enough : part.steps input ≤ fuel) :
    ∃ less, fuel = less + 1 := by
  have shorter := spans.takes.shorter
  refine ⟨fuel - 1, ?_⟩
  cases part <;>
    simp only [Part.steps] at enough <;>
    omega

/-- The steps are enough for every part that the grammar allows. -/
theorem extent_of_spans
    {part : Part}
    {input rest : List UInt8}
    (spans : Spans part input rest)
    {fuel : Nat}
    (enough : part.steps input ≤ fuel) :
    extent fuel part input = some rest := by
  induction spans generalizing fuel with
  | @table input inner rest begins entries inductionHypothesis =>
      obtain ⟨fuel, rfl⟩ := (Spans.table begins entries).exists_succ enough
      have inside : inner.length < input.length :=
        (Takes.behind_blanks begins (by decide) (.refl _)).shorter
      rw [extent_table begins fuel]
      exact inductionHypothesis (by simp only [Part.steps] at *; omega)
  | @sequence input inner rest begins items inductionHypothesis =>
      obtain ⟨fuel, rfl⟩ := (Spans.sequence begins items).exists_succ enough
      have inside : inner.length < input.length :=
        (Takes.behind_blanks begins (by decide) (.refl _)).shorter
      rw [extent_sequence begins fuel]
      exact inductionHypothesis (by simp only [Part.steps] at *; omega)
  | text begins closes =>
      obtain ⟨fuel, rfl⟩ := (Spans.text begins closes).exists_succ enough
      rw [extent, value, begins]
      simp only [closes]
      split <;> rfl
  | word known begins =>
      obtain ⟨fuel, rfl⟩ := (Spans.word known begins).exists_succ enough
      exact extent_word known begins fuel
  | number spells =>
      obtain ⟨fuel, rfl⟩ := (Spans.number spells).exists_succ enough
      exact extent_number spells fuel
  | sequenceEnd ends =>
      obtain ⟨fuel, rfl⟩ := (Spans.sequenceEnd ends).exists_succ enough
      rw [extent, elements]
      simp only [ends]
  | @element first input next middle rest reaches item others itemReads
      othersRead =>
      obtain ⟨fuel, rfl⟩ :=
        (Spans.element reaches item others).exists_succ enough
      have inside := reaches.goesOver.length_le
      have after := item.takes.shorter
      simp only [Part.steps] at enough itemReads othersRead
      rw [extent_element reaches item (itemReads (by omega))]
      exact othersRead (by omega)
  | tableEnd ends =>
      obtain ⟨fuel, rfl⟩ := (Spans.tableEnd ends).exists_succ enough
      rw [extent, members]
      simp only [ends]
  | @entry first input key afterKey inner middle rest parts reaches closes
      colon item others itemReads othersRead =>
      obtain ⟨fuel, rfl⟩ :=
        (Spans.entry reaches closes colon item others).exists_succ enough
      have inside := reaches.goesOver.length_le
      have behindKey := (goesOver_pieces closes).length_le
      have behindColon : inner.length < afterKey.length :=
        (Takes.behind_blanks colon (by decide) (.refl _)).shorter
      have after := item.takes.shorter
      simp only [Part.steps, List.length_cons] at *
      rw [extent_entry reaches closes colon (itemReads (by omega))]
      exact othersRead (by omega)

/-! ## Whole documents -/

/-- A part reaches only up to one place. -/
theorem Spans.unique
    {part : Part}
    {input rest other : List UInt8}
    (spans : Spans part input rest)
    (spansOther : Spans part input other) :
    rest = other := by
  have read := extent_of_spans spans (Nat.le_refl _)
  have readOther := extent_of_spans spansOther (Nat.le_refl _)
  exact Option.some.inj (read.symm.trans readOther)

/-- A document is complete if nothing but blanks follows the value at its
beginning. -/
theorem document_complete_iff
    {input : List UInt8} :
    (document input).2 = true ↔
      ∃ rest, Spans .value input rest ∧ skipBlanks rest = [] := by
  have reads :
      (document input).2 = true ↔
        ∃ rest,
          extent (2 * input.length + 2) .value input = some rest ∧
            skipBlanks rest = [] := by
    simp only [document, extent]
    cases (value (2 * input.length + 2) input).2 <;>
      simp
  rw [reads]
  constructor
  · rintro ⟨rest, read, blank⟩
    exact ⟨rest, spans_of_extent read, blank⟩
  · rintro ⟨rest, spans, blank⟩
    exact ⟨rest, extent_of_spans spans (Nat.le_add_right _ 2), blank⟩

/-- There is no zero byte in a complete document. -/
theorem zero_not_mem_of_complete
    {input : List UInt8}
    (complete : (document input).2 = true) :
    0 ∉ input := by
  obtain ⟨rest, spans, blank⟩ := document_complete_iff.mp complete
  intro zero
  have left :=
    (goesOver_skipBlanks rest).zero_mem (spans.takes.goesOver.zero_mem zero)
  rw [blank] at left
  cases left

theorem Spans.members_of_value
    {inner rest : List UInt8}
    (spans : Spans .value (0x7b :: inner) rest) :
    Spans (.members true) inner rest := by
  have brace : skipBlanks (0x7b :: inner) = 0x7b :: inner :=
    rfl
  cases spans with
  | table begins entries =>
      cases begins
      exact entries
  | word known begins =>
      obtain ⟨_, _, noBrace, _⟩ := initial_of_word _ known
      cases begins
      exact (noBrace rfl).elim
  | number spells =>
      obtain ⟨byte, _, begins, initial, _⟩ := spelling_begins spells
      cases brace.symm.trans begins
      exact (noNumber _ (by decide) initial).elim
  | _ begins =>
      cases begins

/-- A table that is cut anywhere is no complete document. -/
theorem not_complete_of_cut
    {inner cut missing : List UInt8}
    (whole : Spans .value (0x7b :: inner) [])
    (shape : 0x7b :: inner = cut ++ missing)
    (isCut : missing ≠ []) :
    ¬ (document cut).2 = true := by
  rw [document_complete_iff]
  rintro ⟨rest, spans, _⟩
  obtain ⟨byte, cut, rfl⟩ :=
    List.exists_cons_of_length_pos (Nat.zero_lt_of_lt spans.takes.shorter)
  cases shape
  have entries := spans.members_of_value.append nofun missing
  have reaches : Spans .value (0x7b :: (cut ++ missing)) (rest ++ missing) :=
    .table rfl entries
  have nothing := whole.unique reaches
  exact isCut (List.append_eq_nil_iff.mp nothing.symm).2

theorem complete_of_read
    {schema : Node → Except Refusal α}
    {input : List UInt8}
    {result : α}
    (reads : read schema input = .ok result) :
    (document input).2 = true := by
  unfold read at reads
  dsimp only at reads
  obtain ⟨value, _, ended⟩ := Result.bind_eq_ok_iff.mp reads
  by_cases complete : (document input).2 = true
  · exact complete
  · rw [if_neg complete] at ended
    cases ended

end Json

end PositionFeed
