import PositionFeed.Proofs.Decimal.Digits
import PositionFeed.Proofs.Decimal.Rounding
import PositionFeed.Proofs.Result

namespace PositionFeed

/-!
# The grammar of numbers

What the readers accept is said here by parts: a sign, digits with at most one
point, and a power of ten.  A text that has these parts denotes a number, and
the reader returns the double nearest to it.  No text is accepted otherwise,
except the words for infinities and for not-a-number.
-/

/-- A text that stands for a sign. -/
inductive IsSign : List Char → Bool → Prop where
  | none : IsSign [] false
  | plus : IsSign ['+'] false
  | minus : IsSign ['-'] true

/-- The number with a sign. -/
def signedValue (negative : Bool) (value : Nat) : Int :=
  if negative then -(value : Int) else value

/-- A text that cannot be taken for one with a sign. -/
def BeginsUnsigned (text : List Char) : Prop :=
  ∀ c ∈ text.head?, c ≠ '+' ∧ c ≠ '-'

/-- Without a sign, the text that is left cannot be taken for one with a
sign. -/
theorem isSign_splitSign
    (text : List Char) :
    ∃ sign,
      IsSign sign (splitSign text).1 ∧
        text = sign ++ (splitSign text).2 ∧
        (sign = [] → BeginsUnsigned (splitSign text).2) := by
  unfold splitSign
  split
  · exact ⟨_, .minus, rfl, fun none => nomatch none⟩
  · exact ⟨_, .plus, rfl, fun none => nomatch none⟩
  · next noMinus noPlus =>
      refine ⟨_, .none, rfl, fun _ c isFirst => ?_⟩
      obtain ⟨rest, rfl⟩ := List.head?_eq_some_iff.mp isFirst
      constructor
      · rintro rfl
        exact noPlus rest rfl
      · rintro rfl
        exact noMinus rest rfl

theorem splitSign_append
    {sign rest : List Char}
    {negative : Bool}
    (isSign : IsSign sign negative)
    (unsigned : BeginsUnsigned rest) :
    splitSign (sign ++ rest) = (negative, rest) := by
  cases isSign with
  | none =>
      rw [List.nil_append]
      unfold splitSign
      split
      · exact absurd rfl (unsigned '-' rfl).2
      · exact absurd rfl (unsigned '+' rfl).1
      · rfl
  | plus =>
      rfl
  | minus =>
      rfl

theorem AllDigits.beginsUnsigned
    {digits : List Char}
    (all : AllDigits digits) :
    BeginsUnsigned digits := by
  intro c isFirst
  have digit := all c (List.mem_of_mem_head? isFirst)
  constructor <;> rintro rfl <;> cases digit

theorem allDigits_of_all
    {digits : List Char}
    (all : digits.all isDigit = true) :
    AllDigits digits := by
  intro c member
  rw [← isDigit_eq]
  exact List.all_eq_true.mp all c member

theorem allDigits_takeWhile
    (text : List Char) :
    AllDigits (text.takeWhile isDigit) :=
  allDigits_of_all List.all_takeWhile

/-! ## Whole numbers -/

namespace WholeLiteral

/-- A text denotes a whole number: a sign and at least one digit. -/
inductive Denotes : List Char → Int → Prop where
  | signed
      {sign digits : List Char}
      {negative : Bool}
      (isSign : IsSign sign negative)
      (all : AllDigits digits)
      (some : digits ≠ []) :
      Denotes (sign ++ digits)
        (signedValue negative (Nat.ofDigitChars 10 digits 0))

theorem magnitude_eq_ok_iff
    {limit : Nat}
    {overflow : NumberDefect}
    {start value : Nat}
    {digits : List Char}
    (inside : start ≤ limit) :
    magnitude limit overflow start digits = .ok value ↔
      AllDigits digits ∧ value = Nat.ofDigitChars 10 digits start ∧
        value ≤ limit := by
  constructor
  · intro reads
    induction digits generalizing start with
    | nil =>
        cases reads
        exact ⟨List.forall_mem_nil _, by simp, inside⟩
    | cons c digits inductionHypothesis =>
        unfold magnitude at reads
        cases digit : c.isDigit with
        | false =>
            rw [digitValue?_eq_none digit] at reads
            cases reads
        | true =>
            rw [digitValue?_of_isDigit digit] at reads
            dsimp only at reads
            split at reads
            · cases reads
            · next bounded =>
                obtain ⟨all, isValue, notAbove⟩ :=
                  inductionHypothesis (not_lt.mp bounded) reads
                rw [ofDigitChars_cons]
                exact ⟨AllDigits.cons_iff.mpr ⟨digit, all⟩, isValue, notAbove⟩
  · rintro ⟨all, rfl, notAbove⟩
    exact magnitude_eq all notAbove

theorem read_minus
    {below above : Nat}
    {digits : List Char}
    (some : digits ≠ [])
    (negatives : 0 < below) :
    read below above ('-' :: digits) =
      (magnitude below .tooSmall 0 digits).map (signedValue true) := by
  obtain ⟨c, rest, rfl⟩ := List.exists_cons_of_ne_nil some
  simp only [read, if_neg (Nat.ne_of_gt negatives)]
  cases magnitude below .tooSmall 0 (c :: rest) <;> rfl

theorem read_plus
    {below above : Nat}
    {digits : List Char}
    (some : digits ≠ []) :
    read below above ('+' :: digits) =
      (magnitude above .tooLarge 0 digits).map Int.ofNat := by
  obtain ⟨c, rest, rfl⟩ := List.exists_cons_of_ne_nil some
  rfl

theorem read_unsigned
    {below above : Nat}
    {digits : List Char}
    (some : digits ≠ [])
    (unsigned : BeginsUnsigned digits) :
    read below above digits =
      (magnitude above .tooLarge 0 digits).map Int.ofNat := by
  obtain ⟨c, rest, rfl⟩ := List.exists_cons_of_ne_nil some
  obtain ⟨noPlus, noMinus⟩ := unsigned c rfl
  unfold read
  split <;> simp_all

/-- What the reader makes of a sign and at least one more character. -/
theorem read_signed
    {below above : Nat}
    {sign digits : List Char}
    {negative : Bool}
    (isSign : IsSign sign negative)
    (some : digits ≠ [])
    (unsigned : sign = [] → BeginsUnsigned digits)
    (negatives : 0 < below) :
    read below above (sign ++ digits) =
      (magnitude (if negative then below else above)
        (if negative then .tooSmall else .tooLarge) 0 digits).map
        (signedValue negative) := by
  cases isSign with
  | none =>
      exact read_unsigned some (unsigned rfl)
  | plus =>
      exact read_plus some
  | minus =>
      exact read_minus some negatives

/-- A whole number is read exactly if the text denotes it and it is inside the
bounds. -/
theorem read_eq_ok_iff
    {below above : Nat}
    (negatives : 0 < below)
    {text : List Char}
    {value : Int} :
    read below above text = .ok value ↔
      Denotes text value ∧ -(below : Int) ≤ value ∧ value ≤ above := by
  have bounds (negative : Bool) (count : Nat) :
      count ≤ (if negative then below else above) ↔
        -(below : Int) ≤ signedValue negative count ∧
          signedValue negative count ≤ above := by
    cases negative with
    | true =>
        simp only [signedValue, ↓reduceIte]
        omega
    | false =>
        simp only [signedValue, Bool.false_eq_true, ↓reduceIte]
        omega
  constructor
  · intro reads
    obtain ⟨sign, isSign, shape, unsigned⟩ := isSign_splitSign text
    generalize (splitSign text).1 = negative at isSign
    generalize (splitSign text).2 = digits at shape unsigned
    subst shape
    by_cases nothing : digits = []
    · subst nothing
      cases isSign <;> cases reads
    rw [read_signed isSign nothing unsigned negatives] at reads
    obtain ⟨count, gathers, rfl⟩ := Result.map_eq_ok_iff.mp reads
    obtain ⟨all, rfl, inside⟩ :=
      (magnitude_eq_ok_iff (Nat.zero_le _)).mp gathers
    exact ⟨.signed isSign all nothing, (bounds _ _).mp inside⟩
  · rintro ⟨⟨isSign, all, some⟩, notBelow, notAbove⟩
    rw [read_signed isSign some (fun _ => all.beginsUnsigned) negatives,
      (magnitude_eq_ok_iff (Nat.zero_le _)).mpr
        ⟨all, rfl, (bounds _ _).mpr ⟨notBelow, notAbove⟩⟩]
    rfl

end WholeLiteral

/-! ## Floating point -/

namespace FloatLiteral

open Binary64

/-- An exponent is read exactly if it is a whole number. -/
theorem exponent?_eq_some_iff
    {text : List Char}
    {value : Int} :
    exponent? text = some value ↔ WholeLiteral.Denotes text value := by
  unfold exponent?
  constructor
  · intro reads
    obtain ⟨sign, isSign, shape, _⟩ := isSign_splitSign text
    generalize splitSign text = split at reads isSign shape
    obtain ⟨negative, digits⟩ := split
    dsimp only at reads isSign shape
    split at reads
    · cases reads
    · next fine =>
        obtain ⟨some, all⟩ := not_or.mp fine
        have digitsAll := allDigits_of_all (not_not.mp all)
        rw [digitsValue_eq digitsAll] at reads
        cases reads
        rw [shape]
        exact .signed isSign digitsAll (mt List.isEmpty_iff.mpr some)
  · rintro ⟨isSign, all, some⟩
    rw [splitSign_append isSign all.beginsUnsigned]
    have digits : ∀ c ∈ _, isDigit c = true := fun c member => by
      rw [isDigit_eq]
      exact all c member
    rw [← digitsValue_eq all]
    simp [some, List.all_eq_true.mpr digits, signedValue]

/-- Digits with at most one point, and the number that they denote. -/
inductive Mantissa : List Char → ℚ → Prop where
  | whole
      {digits : List Char}
      (all : AllDigits digits)
      (some : digits ≠ []) :
      Mantissa digits (Nat.ofDigitChars 10 digits 0)
  | point
      {whole fraction : List Char}
      (wholeDigits : AllDigits whole)
      (fractionDigits : AllDigits fraction)
      (some : whole ≠ [] ∨ fraction ≠ []) :
      Mantissa (whole ++ '.' :: fraction)
        (Nat.ofDigitChars 10 (whole ++ fraction) 0 / 10 ^ fraction.length)

/-- A power of ten behind its mark, or nothing. -/
inductive Power : List Char → Int → Prop where
  | none : Power [] 0
  | marked
      {mark : Char}
      {text : List Char}
      {exponent : Int}
      (isMark : mark = 'e' ∨ mark = 'E')
      (denotes : WholeLiteral.Denotes text exponent) :
      Power (mark :: text) exponent

/-- What a literal denotes. -/
inductive Meaning where
  | nan
  | infinite (negative : Bool)
  /-- A number with a sign, which zero has, too. -/
  | number (negative : Bool) (magnitude : ℚ)

/-- The double that a meaning is rounded to. -/
def Meaning.IsRoundedTo : Meaning → Float → Prop
  | .nan, x => x = Binary64.nan
  | .infinite negative, x => x = infinity negative
  | .number negative magnitude, x => IsNearestTo negative magnitude x

/-- A word in any case. -/
def IsWord (word : String) (text : List Char) : Prop :=
  text.map Char.toLower = word.toList

/-- What a text denotes as a literal. -/
inductive Denotes : List Char → Meaning → Prop where
  | number
      {sign mantissa power : List Char}
      {negative : Bool}
      {magnitude : ℚ}
      {exponent : Int}
      (isSign : IsSign sign negative)
      (isMantissa : Mantissa mantissa magnitude)
      (isPower : Power power exponent) :
      Denotes (sign ++ (mantissa ++ power))
        (.number negative (magnitude * 10 ^ exponent))
  | infinite
      {sign text : List Char}
      {negative : Bool}
      (isSign : IsSign sign negative)
      (isWord : IsWord "inf" text ∨ IsWord "infinity" text) :
      Denotes (sign ++ text) (.infinite negative)
  | nan
      {sign text : List Char}
      {negative : Bool}
      (isSign : IsSign sign negative)
      (isWord : IsWord "nan" text) :
      Denotes (sign ++ text) .nan

/-! ## The parts of a literal -/

/-- What follows digits is no digit. -/
theorem takeWhile_digits
    {digits rest : List Char}
    (all : AllDigits digits)
    (ends : ∀ c ∈ rest.head?, c.isDigit = false) :
    (digits ++ rest).takeWhile isDigit = digits ∧
      (digits ++ rest).dropWhile isDigit = rest := by
  rw [takeWhile_isDigit all, dropWhile_isDigit all]
  cases rest with
  | nil =>
      simp
  | cons c rest =>
      have noDigit : isDigit c = false := by
        rw [isDigit_eq]
        exact ends c rfl
      simp [noDigit]

theorem Power.ends
    {text : List Char}
    {exponent : Int}
    (isPower : Power text exponent) :
    ∀ c ∈ text.head?, c.isDigit = false ∧ c ≠ '.' := by
  intro c isFirst
  cases isPower with
  | none =>
      cases isFirst
  | marked isMark denotes =>
      cases isFirst
      rcases isMark with rfl | rfl <;> decide

/-- What the reader makes of digits and of what follows them. -/
def scaled? (negative : Bool) (digits : Nat) (places : Nat) :
    List Char → Option Float
  | [] => some (ofScientific negative digits (-(places : Int)))
  | mark :: rest =>
      if mark = 'e' ∨ mark = 'E' then
        (exponent? rest).map fun power =>
          ofScientific negative digits (power - places)
      else none

/-- A power of ten is read behind its mark, and nothing else may follow. -/
theorem scaled?_eq_some_iff
    {negative : Bool}
    {digits places : Nat}
    {text : List Char}
    {x : Float} :
    scaled? negative digits places text = some x ↔
      ∃ exponent, Power text exponent ∧
        x = ofScientific negative digits (exponent - places) := by
  cases text with
  | nil =>
      constructor
      · intro reads
        cases reads
        exact ⟨0, .none, by rw [Int.zero_sub]⟩
      · rintro ⟨_, ⟨⟩, rfl⟩
        rw [scaled?, Int.zero_sub]
  | cons mark rest =>
      constructor
      · intro reads
        rw [scaled?] at reads
        split at reads
        · next isMark =>
            obtain ⟨exponent, isRead, rfl⟩ := Option.map_eq_some_iff.mp reads
            exact ⟨exponent, .marked isMark (exponent?_eq_some_iff.mp isRead),
              rfl⟩
        · cases reads
      · rintro ⟨exponent, isPower, rfl⟩
        cases isPower with
        | marked isMark denotes =>
        rw [scaled?, if_pos isMark, exponent?_eq_some_iff.mpr denotes]
        rfl

/-- The digits behind a point, and what follows them. -/
def fractionOf : List Char → List Char × List Char
  | '.' :: rest => (rest.takeWhile isDigit, rest.dropWhile isDigit)
  | text => ([], text)

theorem fractionOf_of_noPoint
    {text : List Char}
    (noPoint : ∀ rest, text ≠ '.' :: rest) :
    fractionOf text = ([], text) := by
  unfold fractionOf
  split
  · next rest =>
      exact absurd rfl (noPoint rest)
  · rfl

theorem magnitude?_eq
    (negative : Bool)
    (text : List Char) :
    magnitude? negative text =
      let whole := text.takeWhile isDigit
      let behind := fractionOf (text.dropWhile isDigit)
      if whole.isEmpty ∧ behind.1.isEmpty then none
      else scaled? negative (digitsValue (whole ++ behind.1))
        behind.1.length behind.2 := by
  unfold magnitude?
  dsimp only
  generalize text.dropWhile isDigit = after
  split
  · rfl
  · next noPoint =>
      rw [fractionOf_of_noPoint noPoint]
      rfl

/-- The two parts of a mantissa, of which one has a digit. -/
structure Mantissa.Parts (whole fraction : List Char) (magnitude : ℚ) :
    Prop where
  wholeDigits :
    AllDigits whole
  fractionDigits :
    AllDigits fraction
  some :
    whole ≠ [] ∨ fraction ≠ []
  denotes :
    magnitude =
      Nat.ofDigitChars 10 (whole ++ fraction) 0 / 10 ^ fraction.length

theorem Mantissa.Parts.isNearestTo
    {whole fraction : List Char}
    {magnitude : ℚ}
    (parts : Parts whole fraction magnitude)
    (negative : Bool)
    (exponent : Int) :
    IsNearestTo negative (magnitude * 10 ^ exponent)
      (ofScientific negative (digitsValue (whole ++ fraction))
        (exponent - fraction.length)) := by
  have sameNumber :
      magnitude * 10 ^ exponent =
        digitsValue (whole ++ fraction) *
          10 ^ (exponent - fraction.length) := by
    rw [parts.denotes,
      digitsValue_eq (parts.wholeDigits.append parts.fractionDigits),
      zpow_sub₀ (by norm_num), zpow_natCast]
    ring
  rw [sameNumber]
  exact isNearestTo_ofScientific negative _ _

/-- A text that begins like a number is a mantissa and what follows it. -/
theorem exists_mantissa
    (text : List Char)
    (some : text.takeWhile isDigit ≠ [] ∨
      (fractionOf (text.dropWhile isDigit)).1 ≠ []) :
    ∃ mantissa magnitude,
      text = mantissa ++ (fractionOf (text.dropWhile isDigit)).2 ∧
        Mantissa mantissa magnitude ∧
        Mantissa.Parts (text.takeWhile isDigit)
          (fractionOf (text.dropWhile isDigit)).1 magnitude := by
  have shape : text.takeWhile isDigit ++ text.dropWhile isDigit = text :=
    List.takeWhile_append_dropWhile
  have wholeDigits := allDigits_takeWhile text
  generalize text.takeWhile isDigit = whole at some shape wholeDigits
  generalize text.dropWhile isDigit = after at some shape
  subst shape
  unfold fractionOf at some ⊢
  split at some
  · next rest =>
      have fractionDigits := allDigits_takeWhile rest
      refine ⟨whole ++ '.' :: rest.takeWhile isDigit, _, ?_,
        .point wholeDigits fractionDigits some,
        ⟨wholeDigits, fractionDigits, some, rfl⟩⟩
      simp
  · have someWhole : whole ≠ [] := by
      simpa using some
    refine ⟨whole, _, rfl, .whole wholeDigits someWhole,
      ⟨wholeDigits, List.forall_mem_nil _, some, ?_⟩⟩
    simp

/-- A mantissa in front of a power of ten is found again. -/
theorem parts_of_mantissa
    {mantissa power : List Char}
    {magnitude : ℚ}
    {exponent : Int}
    (isMantissa : Mantissa mantissa magnitude)
    (isPower : Power power exponent) :
    Mantissa.Parts ((mantissa ++ power).takeWhile isDigit)
        (fractionOf ((mantissa ++ power).dropWhile isDigit)).1 magnitude ∧
      (fractionOf ((mantissa ++ power).dropWhile isDigit)).2 = power := by
  have noDigit : ∀ c ∈ power.head?, c.isDigit = false :=
    fun c isFirst => (isPower.ends c isFirst).1
  cases isMantissa with
  | whole all some =>
      obtain ⟨taken, dropped⟩ := takeWhile_digits all noDigit
      have noPoint : ∀ rest, power ≠ '.' :: rest := by
        rintro rest rfl
        exact (isPower.ends '.' rfl).2 rfl
      rw [taken, dropped, fractionOf_of_noPoint noPoint]
      exact ⟨⟨all, List.forall_mem_nil _, .inl some, by simp⟩, rfl⟩
  | @point whole fraction wholeDigits fractionDigits some =>
      have point : ∀ c ∈ ('.' :: (fraction ++ power)).head?,
          c.isDigit = false := by
        rintro c ⟨⟩
        rfl
      obtain ⟨taken, dropped⟩ := takeWhile_digits wholeDigits point
      obtain ⟨fractionTaken, fractionDropped⟩ :=
        takeWhile_digits fractionDigits noDigit
      rw [List.append_assoc, List.cons_append, taken, dropped, fractionOf,
        fractionTaken, fractionDropped]
      exact ⟨⟨wholeDigits, fractionDigits, some, rfl⟩, rfl⟩

/-- A number without sign is read exactly if it is a mantissa and a power of
ten, and then as the double nearest to it. -/
theorem magnitude?_eq_some_iff
    {negative : Bool}
    {text : List Char}
    {x : Float} :
    magnitude? negative text = some x ↔
      ∃ mantissa power magnitude exponent,
        text = mantissa ++ power ∧ Mantissa mantissa magnitude ∧
          Power power exponent ∧
          IsNearestTo negative (magnitude * 10 ^ exponent) x := by
  rw [magnitude?_eq]
  dsimp only
  constructor
  · intro reads
    split at reads
    · cases reads
    · next fine =>
        have some : text.takeWhile isDigit ≠ [] ∨
            (fractionOf (text.dropWhile isDigit)).1 ≠ [] := by
          rw [List.isEmpty_iff, List.isEmpty_iff] at fine
          exact not_and_or.mp fine
        obtain ⟨mantissa, magnitude, shape, isMantissa, parts⟩ :=
          exists_mantissa text some
        obtain ⟨exponent, isPower, rfl⟩ := scaled?_eq_some_iff.mp reads
        exact ⟨mantissa, _, magnitude, exponent, shape, isMantissa, isPower,
          parts.isNearestTo negative exponent⟩
  · rintro ⟨mantissa, power, magnitude, exponent, rfl, isMantissa, isPower,
      nearest⟩
    obtain ⟨parts, rest⟩ := parts_of_mantissa isMantissa isPower
    rw [if_neg, rest, scaled?_eq_some_iff]
    · exact ⟨exponent, isPower,
        nearest.unique (parts.isNearestTo negative exponent)⟩
    · rw [List.isEmpty_iff, List.isEmpty_iff]
      exact not_and_or.mpr parts.some

/-! ## Literals -/

theorem isWord_iff
    {word : String}
    {text : List Char} :
    IsWord word text ↔ String.ofList (text.map Char.toLower) = word := by
  rw [IsWord, ← String.toList_inj, String.toList_ofList]

theorem word?_eq_some_iff
    {negative : Bool}
    {text : List Char}
    {x : Float} :
    word? negative text = some x ↔
      (IsWord "inf" text ∨ IsWord "infinity" text) ∧ x = infinity negative ∨
        IsWord "nan" text ∧ x = Binary64.nan := by
  simp only [isWord_iff, word?]
  generalize String.ofList (text.map Char.toLower) = lower
  split
  · next isInfinity =>
      have noNan : lower ≠ "nan" := by
        rcases isInfinity with rfl | rfl <;> decide
      simp [isInfinity, noNan, eq_comm]
  · next noInfinity =>
      split
      · next isNan =>
          simp [isNan, eq_comm]
      · next noNan =>
          simp [noInfinity, noNan]

/-- Words begin with letters. -/
theorem IsWord.isAlpha
    {word : String}
    {text : List Char}
    (isWord : IsWord word text)
    (letter : word.toList.head?.all Char.isLower = true) :
    ∀ c ∈ text.head?, c.isAlpha = true := by
  intro c isFirst
  rw [← isWord, List.head?_map, isFirst] at letter
  rwa [← Char.isLower_toLower_eq_isAlpha]

theorem beginsUnsigned_of_isAlpha
    {text : List Char}
    (letter : ∀ c ∈ text.head?, c.isAlpha = true) :
    BeginsUnsigned text := by
  intro c isFirst
  have isAlpha := letter c isFirst
  constructor <;> rintro rfl <;> cases isAlpha

/-- A text that begins with a letter is no number. -/
theorem magnitude?_of_isAlpha
    {text : List Char}
    (letter : ∀ c ∈ text.head?, c.isAlpha = true)
    (negative : Bool) :
    magnitude? negative text = none := by
  have noDigit : ∀ c ∈ text.head?, c.isDigit = false := by
    intro c isFirst
    have isAlpha := letter c isFirst
    cases digit : c.isDigit with
    | false =>
        rfl
    | true =>
        rw [isAlpha_of_isDigit digit] at isAlpha
        cases isAlpha
  have noPoint : ∀ rest, text ≠ '.' :: rest := by
    rintro rest rfl
    cases letter '.' rfl
  obtain ⟨taken, dropped⟩ :=
    takeWhile_digits (List.forall_mem_nil _) noDigit
  rw [List.nil_append] at taken dropped
  rw [magnitude?_eq, taken, dropped, fractionOf_of_noPoint noPoint]
  rfl

theorem Mantissa.beginsUnsigned
    {mantissa : List Char}
    {magnitude : ℚ}
    (isMantissa : Mantissa mantissa magnitude)
    (power : List Char) :
    BeginsUnsigned (mantissa ++ power) := by
  have ofDigits
      {digits rest : List Char}
      (all : AllDigits digits)
      (some : digits ≠ []) :
      BeginsUnsigned (digits ++ rest) := by
    obtain ⟨c, others, rfl⟩ := List.exists_cons_of_ne_nil some
    exact all.beginsUnsigned
  cases isMantissa with
  | whole all some =>
      exact ofDigits all some
  | @point whole fraction wholeDigits =>
      by_cases nothing : whole = []
      · subst nothing
        rintro c ⟨⟩
        decide
      · rw [List.append_assoc]
        exact ofDigits wholeDigits nothing

/-- A text that denotes something is read as the double that it is rounded to,
and every other text is refused. -/
theorem read?_eq_some_iff
    {text : List Char}
    {x : Float} :
    read? text = some x ↔
      ∃ meaning, Denotes text meaning ∧ meaning.IsRoundedTo x := by
  constructor
  · intro reads
    obtain ⟨sign, isSign, shape, _⟩ := isSign_splitSign text
    unfold read? at reads
    generalize splitSign text = split at reads isSign shape
    obtain ⟨negative, rest⟩ := split
    dsimp only at reads isSign shape
    subst shape
    split at reads
    · next number =>
        cases reads
        obtain ⟨mantissa, power, magnitude, exponent, rfl, isMantissa, isPower,
          nearest⟩ := magnitude?_eq_some_iff.mp number
        exact ⟨_, .number isSign isMantissa isPower, nearest⟩
    · rcases word?_eq_some_iff.mp reads with ⟨isWord, same⟩ | ⟨isWord, same⟩
      · exact ⟨_, .infinite isSign isWord, same⟩
      · exact ⟨_, .nan isSign isWord, same⟩
  · rintro ⟨meaning, denotes, rounded⟩
    have ofWord
        {sign rest : List Char}
        {negative : Bool}
        (isSign : IsSign sign negative)
        (letter : ∀ c ∈ rest.head?, c.isAlpha = true) :
        read? (sign ++ rest) = word? negative rest := by
      rw [read?, splitSign_append isSign (beginsUnsigned_of_isAlpha letter)]
      dsimp only
      rw [magnitude?_of_isAlpha letter]
    cases denotes with
    | number isSign isMantissa isPower =>
        rw [read?, splitSign_append isSign (isMantissa.beginsUnsigned _)]
        dsimp only
        rw [magnitude?_eq_some_iff.mpr ⟨_, _, _, _, rfl, isMantissa, isPower,
          rounded⟩]
    | @infinite _ text _ isSign isWord =>
        have letter : ∀ c ∈ text.head?, c.isAlpha = true := by
          rcases isWord with isWord | isWord <;> exact isWord.isAlpha (by decide)
        rw [ofWord isSign letter]
        exact word?_eq_some_iff.mpr (.inl ⟨isWord, rounded⟩)
    | nan isSign isWord =>
        rw [ofWord isSign (isWord.isAlpha (by decide))]
        exact word?_eq_some_iff.mpr (.inr ⟨isWord, rounded⟩)

theorem read_eq_ok_iff
    {text : List Char}
    {x : Float} :
    read text = .ok x ↔
      ∃ meaning, Denotes text meaning ∧ meaning.IsRoundedTo x := by
  rw [← read?_eq_some_iff]
  unfold read
  cases text with
  | nil =>
      constructor
      · intro reads
        cases reads
      · intro reads
        cases reads
  | cons c rest =>
      rw [List.isEmpty_cons, if_neg Bool.false_ne_true]
      cases read? (c :: rest) <;> simp

end FloatLiteral

end PositionFeed
