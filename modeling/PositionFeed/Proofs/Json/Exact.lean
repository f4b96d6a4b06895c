import PositionFeed.Proofs.Decimal.Grammar
import PositionFeed.Proofs.Decimal.Positional

namespace PositionFeed

/-!
# Doubles in JSON are exact

The text of a finite double in JSON denotes a number to which no other double
is nearer, with or without an exponent.  A reader that rounds once gets this
double back.
-/

namespace FloatLiteral

/-- A power of ten as the writer puts it down. -/
theorem power_digitText
    (exponent : Int) :
    Power
      ('e' :: (if exponent < 0 then '-' else '+') ::
        Decimal.digitText exponent.natAbs)
      exponent := by
  have all := AllDigits.digitText exponent.natAbs
  have some := digitText_ne_nil exponent.natAbs
  refine .marked (.inl rfl) ?_
  by_cases negative : exponent < 0
  · have denotes := WholeLiteral.Denotes.signed .minus all some
    have isExponent : signedValue true exponent.natAbs = exponent := by
      simp only [signedValue, ↓reduceIte]
      omega
    rw [ofDigitChars_digitText, isExponent] at denotes
    rwa [if_pos negative]
  · have denotes := WholeLiteral.Denotes.signed .plus all some
    have isExponent : signedValue false exponent.natAbs = exponent := by
      simp only [signedValue, Bool.false_eq_true, ↓reduceIte]
      omega
    rw [ofDigitChars_digitText, isExponent] at denotes
    rwa [if_neg negative]

/-- One digit before the point, and the others behind it, if there are any. -/
theorem mantissa_cons
    {first : Char}
    {places : List Char}
    (all : AllDigits (first :: places)) :
    Mantissa (first :: (if places.isEmpty then [] else '.' :: places))
      (Nat.ofDigitChars 10 (first :: places) 0 / 10 ^ places.length) := by
  obtain ⟨firstDigit, placesDigits⟩ := AllDigits.cons_iff.mp all
  have single : AllDigits [first] :=
    AllDigits.cons_iff.mpr ⟨firstDigit, List.forall_mem_nil _⟩
  cases places with
  | nil =>
      rw [List.length_nil, pow_zero, div_one]
      exact .whole single (List.cons_ne_nil _ _)
  | cons second more =>
      exact .point single placesDigits (.inl (List.cons_ne_nil _ _))

/-- A text with an exponent denotes its digits times the power of ten. -/
theorem denotes_exponentText
    {sign : List Char}
    {negative : Bool}
    (isSign : IsSign sign negative)
    (digits : Nat)
    (exponent : Int) :
    Denotes
      (sign ++ Decimal.exponentText (Decimal.digitText digits) exponent)
      (.number negative (digits * 10 ^ exponent)) := by
  obtain ⟨first, places, shape⟩ :=
    List.exists_cons_of_ne_nil (digitText_ne_nil digits)
  have all := AllDigits.digitText digits
  have value := ofDigitChars_digitText digits
  rw [shape] at all value ⊢
  have sameNumber :
      (digits : ℚ) * 10 ^ exponent =
        Nat.ofDigitChars 10 (first :: places) 0 / 10 ^ places.length *
          10 ^ (exponent + (places.length : Int)) := by
    rw [value, zpow_add₀ (by norm_num), zpow_natCast]
    have tens : (10 : ℚ) ^ places.length ≠ 0 := by
      positivity
    field_simp
  rw [sameNumber]
  have denotes := Denotes.number isSign (mantissa_cons all)
    (power_digitText (exponent + (places.length : Int)))
  simpa [Decimal.exponentText] using denotes

/-- A text with a point denotes the decimal that it spells. -/
theorem denotes_spells
    {sign : List Char}
    {negative : Bool}
    (isSign : IsSign sign negative)
    {whole fraction : List Char}
    {digits : Nat}
    {exponent : Int}
    (spells : Decimal.Spells whole fraction digits exponent) :
    Denotes (sign ++ (whole ++ '.' :: fraction))
      (.number negative (digits * 10 ^ exponent)) := by
  have denotes := Denotes.number isSign
    (.point spells.wholeDigits spells.fractionDigits (.inl spells.wholeSome))
    .none
  rw [List.append_nil, zpow_zero, mul_one] at denotes
  rwa [← spells.same, zpow_neg, zpow_natCast, ← div_eq_mul_inv]

end FloatLiteral

namespace Json

open Binary64

theorem isSign_signed
    (negative : Bool)
    (text : List Char) :
    ∃ sign, IsSign sign negative ∧
      NumberStyle.signed negative text = sign ++ text := by
  cases negative with
  | true =>
      exact ⟨_, .minus, rfl⟩
  | false =>
      exact ⟨_, .none, rfl⟩

/-- The text of a finite double denotes a number that it is the nearest double
to. -/
theorem denotes_text
    {x : Float}
    (finite : x.isFinite = true) :
    ∃ meaning, FloatLiteral.Denotes (NumberStyle.json.text x) meaning ∧
      meaning.IsRoundedTo x := by
  rw [isFinite_eq] at finite
  cases meaning : decode x with
  | nan =>
      rw [meaning] at finite
      cases finite
  | infinite negative =>
      rw [meaning] at finite
      cases finite
  | finite negative significand exponent =>
      obtain ⟨bits, small, isDouble, rfl, rfl⟩ := exists_bits_of_decode meaning
      obtain ⟨notAbove, notBelow, plain⟩ :=
        Shortest.decimal_bounds NumberStyle.json.tie negative small
      obtain ⟨whole, fraction, positional, spells⟩ :=
        Decimal.exists_spells plain
      let decimal :=
        Shortest.decimal NumberStyle.json.tie negative (significandOf bits)
          (exponentOf bits)
      have rounded : IsNearestTo negative
          (decimal.digits * 10 ^ decimal.exponent) x := by
        have nearest := isNearestTo_ofScientific negative decimal.digits
          decimal.exponent
        rwa [Shortest.ofScientific_decimal NumberStyle.json.tie negative small
          (by omega) notAbove rfl, ← isDouble] at nearest
      obtain ⟨sign, isSign, signed⟩ :=
        isSign_signed negative
          (NumberStyle.json.magnitude decimal.digits decimal.exponent)
      refine ⟨.number negative (decimal.digits * 10 ^ decimal.exponent), ?_,
        rounded⟩
      rw [NumberStyle.text, meaning]
      change FloatLiteral.Denotes (NumberStyle.signed negative _) _
      rw [signed]
      rcases NumberStyle.json_magnitude positional with point | power
      · rw [point]
        exact FloatLiteral.denotes_spells isSign spells
      · rw [power]
        exact FloatLiteral.denotes_exponentText isSign _ _

end Json

end PositionFeed
