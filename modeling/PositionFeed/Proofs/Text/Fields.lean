import PositionFeed.Proofs.Decimal.Digits
import PositionFeed.Text.Blank

namespace PositionFeed

/-!
# Fields between commas

A field without a comma and without blanks is found again between commas, and
trimming leaves it as it is.  Of any text, the pieces are what stands between
the separators, and trimming leaves what stands between the blanks at the ends.
-/

namespace Text

/-- A text without a comma and without blanks. -/
def IsField (text : List Char) : Prop :=
  ∀ c ∈ text, c ≠ ',' ∧ isBlank c = false

namespace IsField

theorem cons
    {c : Char}
    {text : List Char}
    (noComma : c ≠ ',')
    (noBlank : isBlank c = false)
    (rest : IsField text) :
    IsField (c :: text) :=
  List.forall_mem_cons.mpr ⟨⟨noComma, noBlank⟩, rest⟩

theorem append
    {first second : List Char}
    (left : IsField first)
    (right : IsField second) :
    IsField (first ++ second) :=
  List.forall_mem_append.mpr ⟨left, right⟩

theorem of_digits
    {digits : List Char}
    (all : AllDigits digits) :
    IsField digits := by
  intro c member
  have digit := all c member
  have range : 0x30 ≤ c.toNat ∧ c.toNat ≤ 0x39 := by
    simpa [Char.isDigit, UInt32.le_iff_toNat_le] using digit
  constructor
  · rintro rfl
    cases digit
  · simp [isBlank]
    omega

theorem signed
    {text : List Char}
    (field : IsField text)
    (negative : Bool) :
    IsField (if negative then '-' :: text else text) := by
  cases negative with
  | true =>
      exact cons (by decide) (by decide) field
  | false =>
      exact field

theorem comma_notMem
    {text : List Char}
    (field : IsField text) :
    ',' ∉ text := by
  intro member
  exact (field ',' member).1 rfl

end IsField

theorem splitAt_of_notMem
    {separator : Char}
    {text : List Char}
    (absent : separator ∉ text) :
    splitAt separator text = [text] := by
  induction text with
  | nil =>
      rfl
  | cons c text inductionHypothesis =>
      obtain ⟨different, absent⟩ := List.ne_and_not_mem_of_not_mem_cons absent
      rw [splitAt, if_neg different.symm, inductionHypothesis absent]

theorem splitAt_append
    {separator : Char}
    {text : List Char}
    (absent : separator ∉ text)
    (rest : List Char) :
    splitAt separator (text ++ separator :: rest) =
      text :: splitAt separator rest := by
  induction text with
  | nil =>
      simp [splitAt]
  | cons c text inductionHypothesis =>
      obtain ⟨different, absent⟩ := List.ne_and_not_mem_of_not_mem_cons absent
      rw [List.cons_append, splitAt, if_neg different.symm,
        inductionHypothesis absent]

/-- The pieces of a text, in which the separator is only between them. -/
inductive Splits (separator : Char) : List Char → List (List Char) → Prop where
  | last
      {text : List Char}
      (absent : separator ∉ text) :
      Splits separator text [text]
  | next
      {piece text : List Char}
      {pieces : List (List Char)}
      (absent : separator ∉ piece)
      (rest : Splits separator text pieces) :
      Splits separator (piece ++ separator :: text) (piece :: pieces)

theorem splits_splitAt
    (separator : Char)
    (text : List Char) :
    Splits separator text (splitAt separator text) := by
  induction text with
  | nil =>
      exact .last List.not_mem_nil
  | cons c text inductionHypothesis =>
      rw [splitAt]
      split
      · next same =>
          rw [same]
          exact .next List.not_mem_nil inductionHypothesis
      · next different =>
          have absentFrom
              {piece : List Char}
              (absent : separator ∉ piece) :
              separator ∉ c :: piece :=
            List.not_mem_cons_of_ne_of_not_mem (Ne.symm different) absent
          revert inductionHypothesis
          generalize splitAt separator text = pieces
          rintro (⟨absent⟩ | ⟨absent, rest⟩)
          · exact .last (absentFrom absent)
          · exact .next (absentFrom absent) rest

/-- A text is split into its pieces and into no others. -/
theorem splitAt_eq_iff
    {separator : Char}
    {text : List Char}
    {pieces : List (List Char)} :
    splitAt separator text = pieces ↔ Splits separator text pieces := by
  constructor
  · rintro rfl
    exact splits_splitAt separator text
  · intro splits
    induction splits with
    | last absent =>
        exact splitAt_of_notMem absent
    | next absent rest inductionHypothesis =>
        rw [splitAt_append absent, inductionHypothesis]

theorem Splits.length
    {separator : Char}
    {text : List Char}
    {pieces : List (List Char)}
    (splits : Splits separator text pieces) :
    pieces.length = text.count separator + 1 := by
  induction splits with
  | last absent =>
      rw [List.count_eq_zero_of_not_mem absent]
      rfl
  | next absent rest inductionHypothesis =>
      rw [List.length_cons, inductionHypothesis, List.count_append,
        List.count_eq_zero_of_not_mem absent, List.count_cons_self]
      omega

/-- A text with blanks at its ends and what stands between them. -/
inductive Padded : List Char → List Char → Prop where
  | between
      {before core after : List Char}
      (blankBefore : ∀ c ∈ before, isBlank c = true)
      (blankAfter : ∀ c ∈ after, isBlank c = true)
      (first : ∀ c ∈ core.head?, isBlank c = false)
      (last : ∀ c ∈ core.getLast?, isBlank c = false) :
      Padded core (before ++ (core ++ after))

/-- What is left at the front is not blank. -/
theorem isBlank_of_head?_dropWhile
    {text : List Char}
    {c : Char}
    (isFirst : (text.dropWhile isBlank).head? = some c) :
    isBlank c = false := by
  have noBlank := List.head?_dropWhile_not isBlank text
  rw [isFirst] at noBlank
  simpa using noBlank

theorem dropWhile_isBlank
    {text : List Char}
    (first : ∀ c ∈ text.head?, isBlank c = false) :
    text.dropWhile isBlank = text := by
  cases text with
  | nil =>
      rfl
  | cons c text =>
      simp [first c rfl]

theorem padded_trim
    (text : List Char) :
    Padded (trim text) text := by
  let middle := text.dropWhile isBlank
  let after := (middle.reverse.takeWhile isBlank).reverse
  have isMiddle : middle = trim text ++ after := by
    have whole : middle.reverse.takeWhile isBlank ++
        middle.reverse.dropWhile isBlank = middle.reverse :=
      List.takeWhile_append_dropWhile
    have reversed := congrArg List.reverse whole
    rw [List.reverse_append, List.reverse_reverse] at reversed
    exact reversed.symm
  have isText : text.takeWhile isBlank ++ (trim text ++ after) = text := by
    rw [← isMiddle]
    exact List.takeWhile_append_dropWhile
  have allTaken (other : List Char) :
      ∀ c ∈ other.takeWhile isBlank, isBlank c = true :=
    List.all_eq_true.mp List.all_takeWhile
  have first : ∀ c ∈ (trim text).head?, isBlank c = false := by
    intro c isFirst
    obtain ⟨rest, shape⟩ := List.head?_eq_some_iff.mp isFirst
    have isFirstLeft : middle.head? = some c := by
      rw [isMiddle, shape]
      rfl
    exact isBlank_of_head?_dropWhile isFirstLeft
  have last : ∀ c ∈ (trim text).getLast?, isBlank c = false := by
    intro c isLast
    rw [trim, trimEnd, List.getLast?_reverse] at isLast
    exact isBlank_of_head?_dropWhile isLast
  have padded : Padded (trim text)
      (text.takeWhile isBlank ++ (trim text ++ after)) :=
    .between (allTaken text)
      (fun c member => allTaken _ c (List.mem_reverse.mp member)) first last
  rwa [isText] at padded

/-- Trimming leaves what stands between the blanks. -/
theorem trim_eq_iff
    {text core : List Char} :
    trim text = core ↔ Padded core text := by
  constructor
  · rintro rfl
    exact padded_trim text
  · intro padded
    obtain @⟨before, _, after, blankBefore, blankAfter, first, last⟩ := padded
    have ends : trimEnd (core ++ after) = core := by
      rw [trimEnd, List.reverse_append, List.dropWhile_append_of_pos,
        dropWhile_isBlank, List.reverse_reverse]
      · intro c isFirst
        rw [List.head?_reverse] at isFirst
        exact last c isFirst
      · intro c member
        exact blankAfter c (List.mem_reverse.mp member)
    rw [trim, List.dropWhile_append_of_pos blankBefore]
    cases core with
    | nil =>
        have nothing : after.dropWhile isBlank = [] := by
          rw [← List.append_nil after,
            List.dropWhile_append_of_pos blankAfter]
          rfl
        rw [List.nil_append, nothing]
        rfl
    | cons c core =>
        rw [List.cons_append, dropWhile_isBlank, ← List.cons_append, ends]
        exact first

/-- Trimming leaves a field as it is. -/
theorem trim_eq
    {text : List Char}
    (field : IsField text) :
    trim text = text := by
  have noBlank : ∀ c ∈ text, isBlank c = false :=
    fun c member => (field c member).2
  have padded : Padded text ([] ++ (text ++ [])) :=
    .between (List.forall_mem_nil _) (List.forall_mem_nil _)
      (fun c isFirst => noBlank c (List.mem_of_mem_head? isFirst))
      (fun c isLast => noBlank c (List.mem_of_getLast? isLast))
  rw [List.nil_append, List.append_nil] at padded
  exact trim_eq_iff.mpr padded

/-- Three fields are found again between two commas. -/
theorem splitAt_three
    {first second third : List Char}
    (isFirst : IsField first)
    (isSecond : IsField second)
    (isThird : IsField third) :
    (splitAt ',' (first ++ ',' :: second ++ ',' :: third)).map trim =
      [first, second, third] := by
  rw [List.append_assoc, List.cons_append,
    splitAt_append isFirst.comma_notMem, splitAt_append isSecond.comma_notMem,
    splitAt_of_notMem isThird.comma_notMem]
  simp [trim_eq isFirst, trim_eq isSecond, trim_eq isThird]

end Text

end PositionFeed
