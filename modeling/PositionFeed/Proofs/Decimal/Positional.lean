import PositionFeed.Proofs.Decimal.Shortest

namespace PositionFeed

/-!
# Numbers without an exponent

A double that is written without an exponent is a text of digits, a point and
more digits, of which none is needless before the point.  With the zeros that
fill it up to the point it spells the same number as the shortest decimal, so
it is read as the same double.
-/

/-- Digits around a point that spell the decimal `digits * 10 ^ exponent`. -/
structure Decimal.Spells
    (whole fraction : List Char)
    (digits : Nat)
    (exponent : Int) : Prop where
  wholeDigits : AllDigits whole
  fractionDigits : AllDigits fraction
  wholeSome : whole ≠ []
  fractionSome : fraction ≠ []
  /-- There are no needless zeros before the point. -/
  plain : whole.length = 1 ∨ whole.head? ≠ some '0'
  /-- There are not too many places after it. -/
  places : (fraction.length : Int) ≤ max 1 (-exponent)
  same :
    (Nat.ofDigitChars 10 (whole ++ fraction) 0 : ℚ) *
        10 ^ (-(fraction.length : Int)) =
      digits * 10 ^ exponent

namespace Decimal

/-- Digits with zeros up to the point, and one after it. -/
theorem spells_whole
    {digits : Nat}
    (zeros : Nat)
    (plain : 0 < digits ∨ zeros = 0) :
    Spells (digitText digits ++ List.replicate zeros '0') ['0'] digits
      (Int.ofNat zeros) where
  wholeDigits := (AllDigits.digitText digits).append (AllDigits.zeros zeros)
  fractionDigits := AllDigits.zeros 1
  wholeSome := by simp
  fractionSome := by simp
  plain := by
    rcases Nat.eq_zero_or_pos digits with zero | positive
    · have noZeros : zeros = 0 := by
        omega
      left
      rw [zero, noZeros]
      rfl
    · right
      obtain ⟨first, rest, shape⟩ :=
        List.exists_cons_of_ne_nil (digitText_ne_nil digits)
      have head := head?_digitText positive
      rw [shape] at head ⊢
      exact head
  places := by simp
  same := by
    have value :
        Nat.ofDigitChars 10
            (digitText digits ++ List.replicate zeros '0' ++ ['0']) 0 =
          digits * 10 ^ zeros * 10 := by
      rw [Nat.ofDigitChars_append, Nat.ofDigitChars_append,
        ofDigitChars_digitText, Nat.ofDigitChars_replicate_zero]
      simp [ofDigitChars_cons, mul_comm]
    rw [value]
    simp

/-- Digits with a point among them. -/
theorem spells_inside
    {digits places : Nat}
    (some : 0 < places)
    (inside : places < (digitText digits).length) :
    let kept := (digitText digits).length - places
    Spells ((digitText digits).take kept) ((digitText digits).drop kept) digits
      (-(places : Int)) := by
  intro kept
  have all := AllDigits.digitText digits
  have count : ((digitText digits).drop kept).length = places := by
    rw [List.length_drop]
    omega
  have someKept : 0 < kept := by
    omega
  refine
    { wholeDigits := all.of_sublist (List.take_sublist _ _)
      fractionDigits := all.of_sublist (List.drop_sublist _ _)
      wholeSome := ?_
      fractionSome := ?_
      plain := .inr ?_
      places := ?_
      same := ?_ }
  · exact List.ne_nil_of_length_pos (by rw [List.length_take]; omega)
  · exact List.ne_nil_of_length_pos (by omega)
  · have positive : 0 < digits := by
      by_contra zero
      have isZero : digits = 0 := by
        omega
      have single : (digitText digits).length = 1 := by
        rw [isZero]
        rfl
      omega
    rw [List.head?_take, if_neg (Nat.ne_of_gt someKept)]
    exact head?_digitText positive
  · rw [count]
    omega
  · rw [List.take_append_drop, ofDigitChars_digitText, count]

/-- Digits after a point, with the zeros between them. -/
theorem spells_behind
    {digits places : Nat}
    (behind : (digitText digits).length ≤ places) :
    Spells ['0']
      (List.replicate (places - (digitText digits).length) '0' ++
        digitText digits)
      digits (-(places : Int)) := by
  have count :
      (List.replicate (places - (digitText digits).length) '0' ++
        digitText digits).length = places := by
    rw [List.length_append, List.length_replicate]
    omega
  refine
    { wholeDigits := AllDigits.zeros 1
      fractionDigits := (AllDigits.zeros _).append (.digitText digits)
      wholeSome := by simp
      fractionSome := by simp
      plain := .inl rfl
      places := ?_
      same := ?_ }
  · rw [count]
    omega
  · have value :
        Nat.ofDigitChars 10
            (['0'] ++
              (List.replicate (places - (digitText digits).length) '0' ++
                digitText digits)) 0 =
          digits := by
      rw [Nat.ofDigitChars_append, Nat.ofDigitChars_append,
        Nat.ofDigitChars_replicate_zero]
      simp [ofDigitChars_cons]
    rw [value, count]

/-- A text of digits with a point in or before them. -/
theorem spells_fraction
    (digits more : Nat) :
    ∃ whole fraction,
      positionalText (digitText digits) (Int.negSucc more) =
          whole ++ '.' :: fraction ∧
        Spells whole fraction digits (Int.negSucc more) := by
  by_cases inside : more + 1 < (digitText digits).length
  · refine ⟨_, _, ?_, spells_inside (Nat.succ_pos more) inside⟩
    simp only [positionalText]
    exact if_pos inside
  · refine ⟨_, _, ?_, spells_behind (Nat.not_lt.mp inside)⟩
    simp only [positionalText]
    exact if_neg inside

/-- A decimal without an exponent has a point, given that one follows a whole
number. -/
theorem exists_spells
    {digits : Nat}
    {exponent : Int}
    (plain : 0 < digits ∨ exponent = 0) :
    ∃ whole fraction,
      positionalText (digitText digits) exponent ++
            (if 0 ≤ exponent then ".0".toList else []) =
          whole ++ '.' :: fraction ∧
        Spells whole fraction digits exponent := by
  cases exponent with
  | ofNat zeros =>
      refine ⟨digitText digits ++ List.replicate zeros '0', ['0'], rfl, ?_⟩
      exact spells_whole zeros (plain.imp id Int.ofNat.inj)
  | negSucc more =>
      obtain ⟨whole, fraction, shape, spells⟩ := spells_fraction digits more
      refine ⟨whole, fraction, ?_, spells⟩
      rw [if_neg (by omega), List.append_nil, shape]

end Decimal

/-- In JSON a number has a point, or one digit before the point and an
exponent. -/
theorem NumberStyle.json_magnitude
    {digits : Nat}
    {exponent : Int}
    {whole fraction : List Char}
    (positional :
      Decimal.positionalText (Decimal.digitText digits) exponent ++
          (if 0 ≤ exponent then ".0".toList else []) =
        whole ++ '.' :: fraction) :
    json.magnitude digits exponent = whole ++ '.' :: fraction ∨
      json.magnitude digits exponent =
        Decimal.exponentText (Decimal.digitText digits) exponent := by
  rw [← positional]
  simp only [magnitude, json]
  split
  · exact .inl rfl
  · exact .inr rfl

open Binary64

/-- A shortest decimal is within reach of the readers, and only zero has no
digits. -/
theorem Shortest.decimal_bounds
    (tie : Tie)
    (negative : Bool)
    {bits : Nat}
    (finite : bits < infinityBits) :
    let shortest :=
      decimal tie negative (significandOf bits) (exponentOf bits)
    shortest.exponent ≤ 400 ∧ -500 ≤ shortest.exponent ∧
      (0 < shortest.digits ∨ shortest.exponent = 0) := by
  rcases Nat.eq_zero_or_pos bits with zero | positive
  · subst zero
    simp [decimal, significandOf]
  · have units := significandOf_positive positive
    obtain ⟨has, notBelow, notAbove⟩ := find_spec positive finite tie
    simp only [decimal, if_neg (Nat.ne_of_gt units)]
    refine ⟨notAbove, notBelow, .inl (Nat.pos_of_ne_zero ?_)⟩
    intro noDigits
    rw [noDigits, Nat.cast_zero, zero_mul] at has
    have low :
        0 < (interval (significandOf bits) (exponentOf bits)).low := by
      simp only [interval]
      split <;> omega
    have above :
        (0 : ℚ) < (interval (significandOf bits) (exponentOf bits)).low *
          2 ^ (interval (significandOf bits) (exponentOf bits)).exponent := by
      positivity
    exact absurd has.between.1 (not_le.mpr above)

/-- A text that spells the shortest decimal of a magnitude is read as this
magnitude. -/
theorem Decimal.Spells.magnitude?_eq
    {whole fraction : List Char}
    {bits : Nat}
    {tie : Shortest.Tie}
    {negative : Bool}
    (finite : bits < infinityBits)
    (spells :
      let shortest :=
        Shortest.decimal tie negative (significandOf bits) (exponentOf bits)
      Spells whole fraction shortest.digits shortest.exponent) :
    FloatLiteral.magnitude? negative (whole ++ '.' :: fraction) =
      some (withSign negative bits) := by
  obtain ⟨_, notBelow, _⟩ := Shortest.decimal_bounds tie negative finite
  have few := spells.places
  rw [Rounded.magnitude?_point negative spells.wholeDigits
    spells.fractionDigits spells.wholeSome]
  congr 1
  exact Shortest.ofScientific_decimal tie negative finite (by omega) (by omega)
    spells.same

end PositionFeed
