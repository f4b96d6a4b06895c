import PositionFeed.Proofs.Decimal.Positional
import PositionFeed.Toml.Scalar
import PositionFeed.Toml.Writer

namespace PositionFeed

/-!
# Numbers in TOML read back

A run of scalar characters is tried as a truth value, as a whole number, as a
number with a fraction and as a date, in this order.  The text of a double has
a point or is one of two words, so it is none of the first two and is found
with the third.  The digits of a whole number are found with the second.
-/

namespace Toml

/-! ## Digits -/

/-- Whatever has digits in groups consists of them and of underscores. -/
theorem mem_of_ungroup
    {isMember : Char → Bool}
    {text digits : List Char}
    (grouped : ungroup isMember text = some digits) :
    ∀ c ∈ text, isMember c = true ∨ c = '_' := by
  fun_induction ungroup generalizing digits with
  | case1 =>
      simp
  | case2 c member =>
      simp [member]
  | case3 =>
      cases grouped
  | case4 c rest member inductionHypothesis =>
      obtain ⟨_, later, _⟩ := Option.map_eq_some_iff.mp grouped
      simpa [member] using inductionHypothesis later
  | case5 =>
      cases grouped
  | case6 c rest _ _ member inductionHypothesis =>
      obtain ⟨_, later, _⟩ := Option.map_eq_some_iff.mp grouped
      simpa [member] using inductionHypothesis later
  | case7 =>
      cases grouped

/-- Digits without underscores stay as they are. -/
theorem ungroup_digits
    {digits : List Char}
    (all : AllDigits digits)
    (nonempty : digits ≠ []) :
    ungroup isDigit digits = some digits := by
  fun_induction ungroup isDigit digits with
  | case1 =>
      exact (nonempty rfl).elim
  | case2 =>
      rfl
  | case3 c noDigit =>
      rw [isDigit_eq] at noDigit
      exact (noDigit (AllDigits.cons_iff.mp all).1).elim
  | case4 c rest _ inductionHypothesis =>
      exact absurd (all '_' (by simp)) (by decide)
  | case5 c rest noDigit =>
      exact absurd (all '_' (by simp)) (by decide)
  | case6 c rest isSome _ _ inductionHypothesis =>
      have more : rest ≠ [] := fun none => isSome (by rw [none])
      rw [inductionHypothesis (AllDigits.cons_iff.mp all).2 more]
      rfl
  | case7 c rest _ _ noDigit =>
      rw [isDigit_eq] at noDigit
      exact (noDigit (AllDigits.cons_iff.mp all).1).elim

theorem decimalDigits?_eq
    {digits : List Char}
    (all : AllDigits digits)
    (nonempty : digits ≠ [])
    (plain : digits.length = 1 ∨ digits.head? ≠ some '0') :
    decimalDigits? digits = some digits := by
  have noZero : ¬ (1 < digits.length ∧ digits.head? = some '0') := by
    rintro ⟨long, zero⟩
    rcases plain with short | other
    · omega
    · exact other zero
  simp [decimalDigits?, ungroup_digits all nonempty, noZero]

/-- A point is not part of a whole number. -/
theorem decimalDigits?_point
    (whole fraction : List Char) :
    decimalDigits? (whole ++ '.' :: fraction) = none := by
  cases grouped : ungroup isDigit (whole ++ '.' :: fraction) with
  | none =>
      simp [decimalDigits?, grouped]
  | some digits =>
      have := mem_of_ungroup grouped '.' (by simp)
      exact absurd this (by decide)

/-- A text without letters is not marked as a number in another base. -/
theorem whole?_eq
    {text : List Char}
    (noLetter : ∀ c ∈ text, c.isAlpha = false) :
    whole? text = (decimalDigits? (splitSign text).2).map fun digits =>
      if (splitSign text).1 then -(digitsValue digits : Int)
      else digitsValue digits := by
  unfold whole?
  split
  · exact absurd (noLetter 'x' (by simp)) (by decide)
  · exact absurd (noLetter 'o' (by simp)) (by decide)
  · exact absurd (noLetter 'b' (by simp)) (by decide)
  · obtain ⟨negative, rest⟩ := splitSign text
    change (decimalDigits? rest).bind _ = _
    cases decimalDigits? rest <;> rfl

/-! ## Numbers with a fraction -/

theorem exponentMark_of_isDigit
    {c : Char}
    (digit : c.isDigit = true) :
    (! (c == 'e' || c == 'E')) = true := by
  have noLower : c ≠ 'e' := by
    rintro rfl
    cases digit
  have noUpper : c ≠ 'E' := by
    rintro rfl
    cases digit
  simp [noLower, noUpper]

/-- Digits with a point in them are read as they are. -/
theorem fractionText?_point
    {whole fraction : List Char}
    (wholeDigits : AllDigits whole)
    (fractionDigits : AllDigits fraction)
    (wholeSome : whole ≠ [])
    (fractionSome : fraction ≠ [])
    (plain : whole.length = 1 ∨ whole.head? ≠ some '0') :
    fractionText? (whole ++ '.' :: fraction) =
      some (whole ++ '.' :: fraction) := by
  have noMark : ∀ c ∈ whole ++ '.' :: fraction,
      (! (c == 'e' || c == 'E')) = true := by
    intro c member
    rcases List.mem_append.mp member with inWhole | later
    · exact exponentMark_of_isDigit (wholeDigits c inWhole)
    · rcases List.mem_cons.mp later with rfl | inFraction
      · rfl
      · exact exponentMark_of_isDigit (fractionDigits c inFraction)
  have noPoint : ∀ c ∈ whole, (c != '.') = true := by
    intro c member
    rw [bne_iff_ne]
    rintro rfl
    exact absurd (wholeDigits '.' member) (by decide)
  have mantissa := List.takeWhile_eq_self_iff.mpr noMark
  have power := List.dropWhile_eq_nil_iff.mpr noMark
  have wholeTaken :
      (whole ++ '.' :: fraction).takeWhile (· != '.') = whole := by
    rw [List.takeWhile_append_of_pos noPoint]
    simp
  have wholeDropped :
      (whole ++ '.' :: fraction).dropWhile (· != '.') = '.' :: fraction := by
    rw [List.dropWhile_append_of_pos noPoint]
    simp
  simp only [fractionText?, mantissa, power, wholeTaken, wholeDropped,
    decimalDigits?_eq wholeDigits wholeSome plain,
    ungroup_digits fractionDigits fractionSome]
  simp

/-- A finite double that is spelled with a point is read from its text. -/
theorem fraction?_point
    {negative : Bool}
    {whole fraction : List Char}
    {value : Float}
    (wholeDigits : AllDigits whole)
    (fractionDigits : AllDigits fraction)
    (wholeSome : whole ≠ [])
    (fractionSome : fraction ≠ [])
    (plain : whole.length = 1 ∨ whole.head? ≠ some '0')
    (read :
      FloatLiteral.magnitude? negative (whole ++ '.' :: fraction) =
        some value)
    (finite : value.isFinite = true) :
    fraction? (NumberStyle.signed negative (whole ++ '.' :: fraction)) =
      some (.fraction value) := by
  have noWord :
      ∀ word : List Char, '.' ∉ word → whole ++ '.' :: fraction ≠ word := by
    rintro word absent rfl
    exact absent (by simp)
  have noInfinity := noWord "inf".toList (by decide)
  have noNan := noWord "nan".toList (by decide)
  simp only [fraction?, Rounded.splitSign_signed negative wholeDigits wholeSome,
    if_neg noInfinity, if_neg noNan,
    fractionText?_point wholeDigits fractionDigits wholeSome fractionSome plain]
  simp [read, finite]

/-! ## Runs of scalar characters -/

theorem isScalarChar_of_isDigit
    {c : Char}
    (digit : c.isDigit = true) :
    isScalarChar c = true := by
  simp [isScalarChar, Char.isAlphanum, digit]

/-- A number with a point is made of scalar characters, and none of them is a
letter. -/
theorem scalarChars_point
    (negative : Bool)
    {whole fraction : List Char}
    (wholeDigits : AllDigits whole)
    (fractionDigits : AllDigits fraction) :
    ∀ c ∈ NumberStyle.signed negative (whole ++ '.' :: fraction),
      isScalarChar c = true ∧ c.isAlpha = false := by
  have ofDigit {c : Char} (digit : c.isDigit = true) :
      isScalarChar c = true ∧ c.isAlpha = false :=
    ⟨isScalarChar_of_isDigit digit, isAlpha_of_isDigit digit⟩
  have unsigned : ∀ c ∈ whole ++ '.' :: fraction,
      isScalarChar c = true ∧ c.isAlpha = false := by
    intro c member
    rcases List.mem_append.mp member with inWhole | later
    · exact ofDigit (wholeDigits c inWhole)
    · rcases List.mem_cons.mp later with rfl | inFraction
      · decide
      · exact ofDigit (fractionDigits c inFraction)
  cases negative with
  | false =>
      exact unsigned
  | true =>
      intro c member
      rcases List.mem_cons.mp member with rfl | later
      · decide
      · exact unsigned c later

/-- A run of scalar characters up to the end of a line is tried as a whole. -/
theorem scalar_line
    {run : List Char}
    (all : ∀ c ∈ run, isScalarChar c = true)
    (rest : List Char) :
    scalar (run ++ '\n' :: rest) =
      (scalar? run).map fun node => (node, '\n' :: rest) := by
  have taken : (run ++ '\n' :: rest).takeWhile isScalarChar = run := by
    rw [List.takeWhile_append_of_pos all]
    simp [isScalarChar]
  have dropped :
      (run ++ '\n' :: rest).dropWhile isScalarChar = '\n' :: rest := by
    rw [List.dropWhile_append_of_pos all]
    simp [isScalarChar]
  rw [scalar, taken, dropped]
  split
  · next shape =>
      cases shape
  · rfl

/-- The text of a double denotes this double. -/
theorem scalar?_writeNumber
    (value : Float) :
    (∀ c ∈ writeNumber value, isScalarChar c = true) ∧
      scalar? (writeNumber value) = some (.fraction value) := by
  simp only [writeNumber, NumberStyle.text]
  cases shape : Binary64.decode value with
  | nan =>
      rw [Binary64.eq_nan_of_decode shape]
      exact ⟨by simp [NumberStyle.toml, isScalarChar], rfl⟩
  | infinite negative =>
      rw [Binary64.eq_infinity_of_decode shape]
      cases negative <;>
        exact ⟨by simp [NumberStyle.toml, NumberStyle.signed, isScalarChar],
          rfl⟩
  | finite negative significand exponent =>
      have isFinite : value.isFinite = true := by
        rw [Binary64.isFinite_eq, shape]
        rfl
      obtain ⟨bits, small, isValue, rfl, rfl⟩ :=
        Binary64.exists_bits_of_decode shape
      obtain ⟨_, _, plain⟩ :=
        Shortest.decimal_bounds NumberStyle.toml.tie negative small
      obtain ⟨whole, fraction, text, spells⟩ := Decimal.exists_spells plain
      have magnitude :
          NumberStyle.toml.magnitude _ _ = whole ++ '.' :: fraction := text
      have chars :=
        scalarChars_point negative spells.wholeDigits spells.fractionDigits
      have read := spells.magnitude?_eq small
      rw [← isValue] at read
      simp only [magnitude]
      refine ⟨fun c member => (chars c member).1, ?_⟩
      have noWhole :
          whole? (NumberStyle.signed negative (whole ++ '.' :: fraction)) =
            none := by
        rw [whole?_eq fun c member => (chars c member).2,
          Rounded.splitSign_signed negative spells.wholeDigits
            spells.wholeSome,
          decimalDigits?_point]
        rfl
      have noWord :
          ∀ word : List Char, '.' ∉ word →
            NumberStyle.signed negative (whole ++ '.' :: fraction) ≠ word := by
        rintro word absent rfl
        exact absent (by cases negative <;> simp [NumberStyle.signed])
      simp only [scalar?, if_neg (noWord "true".toList (by decide)),
        if_neg (noWord "false".toList (by decide)), noWhole,
        fraction?_point spells.wholeDigits spells.fractionDigits
          spells.wholeSome spells.fractionSome spells.plain read isFinite]

/-- The digits of a natural number denote this number. -/
theorem scalar?_digitText
    {number : Nat}
    (bounded : number < Word.size 128) :
    scalar? (Decimal.digitText number) = some (.integer number) := by
  have all := AllDigits.digitText number
  have noLetter : ∀ c ∈ Decimal.digitText number, c.isAlpha = false :=
    fun c member => isAlpha_of_isDigit (all c member)
  have sign : splitSign (Decimal.digitText number) =
      (false, Decimal.digitText number) := by
    have unsigned :
        splitSign
            (NumberStyle.signed false (Decimal.digitText number ++ [])) =
          (false, Decimal.digitText number ++ []) :=
      Rounded.splitSign_signed false all (digitText_ne_nil number)
    simpa [NumberStyle.signed] using unsigned
  have plain : (Decimal.digitText number).length = 1 ∨
      (Decimal.digitText number).head? ≠ some '0' := by
    rcases Nat.eq_zero_or_pos number with rfl | positive
    · exact .inl rfl
    · exact .inr (head?_digitText positive)
  have noTrue : Decimal.digitText number ≠ "true".toList := by
    intro same
    exact absurd (noLetter 't' (by simp [same])) (by decide)
  have noFalse : Decimal.digitText number ≠ "false".toList := by
    intro same
    exact absurd (noLetter 'f' (by simp [same])) (by decide)
  have fits : Word.leastSigned 128 ≤ (number : Int) ∧
      (number : Int) < Word.size 128 := by
    exact ⟨by simp [Word.leastSigned], by exact_mod_cast bounded⟩
  simp only [scalar?, if_neg noTrue, if_neg noFalse, whole?_eq noLetter, sign,
    decimalDigits?_eq all (digitText_ne_nil number) plain, Option.map_some,
    Bool.false_eq_true, if_false, digitsValue_eq all, ofDigitChars_digitText,
    wholeNode, if_pos fits]

end Toml

end PositionFeed
