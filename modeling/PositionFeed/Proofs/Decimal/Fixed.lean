import PositionFeed.Position
import PositionFeed.Proofs.Decimal.Digits
import PositionFeed.Proofs.Decimal.Nearest

namespace PositionFeed

/-!
# Counted places read back

A double that is written with eight places and read again moves twice by at
most half a unit of the last place: when it is rounded to eight places, and
when the double nearest to these is taken, since the double that was written
is no nearer than that one.  Special values come back as they are.
-/

namespace Rounded

open Binary64

/-- So many units of the last written place make one. -/
def unit (places : Nat) : Nat := Nat.pow 10 places

/-- The units of the last place that a magnitude is written as. -/
def unitsOf (places significand : Nat) (exponent : Int) : Nat :=
  let scaled := tenfold significand exponent places
  roundDiv scaled.1 scaled.2

/-- What a double becomes when it is written with so many places and read
again. -/
def reread (places : Nat) (x : Float) : Float :=
  match decode x with
  | .nan => nan
  | .infinite negative => infinity negative
  | .finite negative significand exponent =>
      nearest negative (unitsOf places significand exponent) (unit places)

/-! ## The text -/

/-- A magnitude is written as digits, a point, and so many digits. -/
theorem fixedMagnitude_shape
    {places : Nat}
    (positive : 0 < places)
    (units : Nat) :
    ∃ whole fraction,
      fixedMagnitude places units = whole ++ '.' :: fraction ∧
        AllDigits whole ∧ AllDigits fraction ∧ whole ≠ [] ∧
        fraction.length = places ∧
        Nat.ofDigitChars 10 (whole ++ fraction) 0 = units := by
  let digits := Decimal.digitText units
  let padded :=
    List.replicate (places + 1 - digits.length) '0' ++ digits
  have all : AllDigits padded :=
    (AllDigits.zeros _).append (AllDigits.digitText units)
  have long : places < padded.length := by
    simp only [padded, List.length_append, List.length_replicate]
    omega
  refine ⟨padded.take (padded.length - places),
    padded.drop (padded.length - places), ?_, ?_, ?_, ?_, ?_, ?_⟩
  · simp only [fixedMagnitude, if_neg (Nat.ne_of_gt positive)]
    rfl
  · exact all.of_sublist (List.take_sublist _ _)
  · exact all.of_sublist (List.drop_sublist _ _)
  · intro empty
    have := congrArg List.length empty
    simp at this
    omega
  · rw [List.length_drop]
    omega
  · rw [List.take_append_drop, Nat.ofDigitChars_append]
    simp [digits]

/-- A magnitude that is read is the double nearest to its units. -/
theorem ofScientific_places
    (negative : Bool)
    (digits : Nat)
    {places : Nat}
    (positive : 0 < places)
    (few : places ≤ 400) :
    FloatLiteral.ofScientific negative digits (-(places : Int)) =
      nearest negative digits (unit places) := by
  obtain ⟨less, rfl⟩ : ∃ less, places = less + 1 := ⟨places - 1, by omega⟩
  by_cases zero : digits = 0
  · simp [FloatLiteral.ofScientific, nearest, zero]
  · have notInfinite : ¬ FloatLiteral.decimalReach < -((less + 1 : Nat) : Int) := by
      rw [FloatLiteral.decimalReach]
      omega
    have notZero :
        ¬ -((less + 1 : Nat) : Int) + (digits.log2 + 1 : Nat) <
          -FloatLiteral.decimalReach * 4 := by
      rw [FloatLiteral.decimalReach]
      omega
    unfold FloatLiteral.ofScientific
    rw [if_neg zero, if_neg notInfinite, if_neg notZero]
    rfl

theorem magnitude?_point
    (negative : Bool)
    {whole fraction : List Char}
    (wholeDigits : AllDigits whole)
    (fractionDigits : AllDigits fraction)
    (nonempty : whole ≠ []) :
    FloatLiteral.magnitude? negative (whole ++ '.' :: fraction) =
      some (FloatLiteral.ofScientific negative
        (Nat.ofDigitChars 10 (whole ++ fraction) 0)
        (-(fraction.length : Int))) := by
  have wholeTaken :
      (whole ++ '.' :: fraction).takeWhile isDigit = whole := by
    rw [takeWhile_isDigit wholeDigits]
    exact List.append_nil _
  have wholeDropped :
      (whole ++ '.' :: fraction).dropWhile isDigit = '.' :: fraction := by
    rw [dropWhile_isDigit wholeDigits]
    rfl
  have fractionTaken : fraction.takeWhile isDigit = fraction := by
    simpa using takeWhile_isDigit fractionDigits []
  have fractionDropped : fraction.dropWhile isDigit = [] := by
    simpa using dropWhile_isDigit fractionDigits []
  simp [FloatLiteral.magnitude?, wholeTaken, wholeDropped, fractionTaken,
    fractionDropped, nonempty,
    digitsValue_eq (wholeDigits.append fractionDigits)]

/-- A sign before digits is split off again. -/
theorem splitSign_signed
    (negative : Bool)
    {whole rest : List Char}
    (digits : AllDigits whole)
    (nonempty : whole ≠ []) :
    splitSign (NumberStyle.signed negative (whole ++ rest)) =
      (negative, whole ++ rest) := by
  cases negative with
  | true =>
      rfl
  | false =>
      obtain ⟨c, text, rfl⟩ := List.exists_cons_of_ne_nil nonempty
      have digit := (AllDigits.cons_iff.mp digits).1
      simp only [NumberStyle.signed, Bool.false_eq_true, ↓reduceIte,
        List.cons_append]
      unfold splitSign
      split
      · next shape =>
          cases shape
          cases digit
      · next shape =>
          cases shape
          cases digit
      · rfl

/-- A double that is written with counted places is read as what it becomes. -/
theorem read_fixed
    {places : Nat}
    (positive : 0 < places)
    (few : places ≤ 400)
    (x : Float) :
    FloatLiteral.read (fixed places x) = .ok (reread places x) := by
  unfold fixed reread
  cases decode x with
  | nan =>
      rfl
  | infinite negative =>
      cases negative <;> rfl
  | finite negative significand exponent =>
      obtain ⟨whole, fraction, shape, wholeDigits, fractionDigits, nonempty,
        count, units⟩ :=
        fixedMagnitude_shape positive (unitsOf places significand exponent)
      have read :
          FloatLiteral.read?
              (NumberStyle.signed negative (whole ++ '.' :: fraction)) =
            some (nearest negative (unitsOf places significand exponent)
              (unit places)) := by
        rw [FloatLiteral.read?, splitSign_signed negative wholeDigits nonempty]
        simp only [magnitude?_point negative wholeDigits fractionDigits
          nonempty, units, count, ofScientific_places negative _ positive few]
      have notEmpty :
          (NumberStyle.signed negative (whole ++ '.' :: fraction)).isEmpty =
            false := by
        cases negative <;> simp [NumberStyle.signed]
      simp only [unitsOf] at shape read
      simp only [shape, FloatLiteral.read, notEmpty, read, unitsOf]
      rfl

/-! ## The distance -/

theorem tenfold_positive
    (significand : Nat)
    (exponent tens : Int) :
    0 < (tenfold significand exponent tens).2 := by
  have positive := scaleDown_positive significand Nat.one_pos (-exponent)
  cases tens with
  | ofNat power =>
      exact positive
  | negSucc power =>
      exact Nat.mul_pos positive (Nat.pow_pos (by decide))

/-- A tenfold is what its name says. -/
theorem tenfold_eq
    (significand : Nat)
    (exponent tens : Int) :
    ((tenfold significand exponent tens).1 : ℚ) /
        (tenfold significand exponent tens).2 =
      significand * 2 ^ exponent * 10 ^ tens := by
  have scaled := scaleDown_eq significand 1 (-exponent)
  rw [Nat.cast_one, div_one, zpow_neg, div_inv_eq_mul] at scaled
  cases tens with
  | ofNat power =>
      simp only [tenfold, Nat.pow_eq, Int.ofNat_eq_natCast, zpow_natCast]
      push_cast
      rw [mul_div_right_comm, scaled]
  | negSucc power =>
      simp only [tenfold, Nat.pow_eq, zpow_negSucc]
      push_cast
      rw [← div_div, scaled, div_eq_mul_inv]

/-- The units of a magnitude are off by at most one half. -/
theorem unitsOf_half
    (places significand : Nat)
    (exponent : Int) :
    |(unitsOf places significand exponent : ℚ) -
        significand * 2 ^ exponent * 10 ^ places| ≤ 1 / 2 := by
  have half :=
    roundDiv_half (tenfold significand exponent places).1
      (tenfold_positive significand exponent places)
  rw [tenfold_eq, zpow_natCast] at half
  exact half

/-- No finite magnitude has more units than the largest one. -/
theorem unitsOf_le
    (places : Nat)
    {bits : Nat}
    (finite : bits < infinityBits) :
    unitsOf places (significandOf bits) (exponentOf bits) ≤
      largest * 10 ^ places := by
  refine roundDiv_le (tenfold_positive _ _ _) ?_
  rw [tenfold_eq, zpow_natCast]
  push_cast
  exact mul_le_mul_of_nonneg_right (magnitude_le finite) (by positivity)

theorem unit_positive (places : Nat) :
    0 < unit places :=
  Nat.pow_pos (by decide)

/-- The units of a finite magnitude are read as a finite magnitude. -/
theorem nearestBits_unitsOf_lt
    {places bits : Nat}
    (finite : bits < infinityBits)
    (positive : 0 < unitsOf places (significandOf bits) (exponentOf bits)) :
    nearestBits (unitsOf places (significandOf bits) (exponentOf bits))
        (unit places) < infinityBits := by
  refine nearestBits_lt positive (unit_positive places) ?_
  have below :
      (unitsOf places (significandOf bits) (exponentOf bits) : ℚ) ≤
        largest * 10 ^ places := by
    exact_mod_cast unitsOf_le places finite
  rw [unit, Nat.pow_eq]
  push_cast
  rw [div_le_iff₀ (by positivity)]
  exact below

/-- The number that a magnitude is written as. -/
def written (places bits : Nat) : ℚ :=
  unitsOf places (significandOf bits) (exponentOf bits) / 10 ^ places

/-- A magnitude is within half a unit of the last place of what it is written
as. -/
theorem written_half
    (places bits : Nat) :
    |magnitude bits - written places bits| * 10 ^ places ≤ 1 / 2 := by
  have tens : (0 : ℚ) < 10 ^ places := by
    positivity
  have half := unitsOf_half places (significandOf bits) (exponentOf bits)
  rw [abs_sub_comm] at half
  rw [← abs_of_pos tens, ← abs_mul, sub_mul, written,
    div_mul_cancel₀ _ tens.ne']
  exact half

/-- A magnitude that is written and read again is a finite magnitude, and no
farther from what was written than before. -/
theorem exists_bits_nearest
    (places : Nat)
    (negative : Bool)
    {bits : Nat}
    (finite : bits < infinityBits) :
    ∃ after < infinityBits,
      nearest negative (unitsOf places (significandOf bits) (exponentOf bits))
          (unit places) = withSign negative after ∧
        |magnitude after - written places bits| ≤
          |magnitude bits - written places bits| := by
  rcases Nat.eq_zero_or_pos
      (unitsOf places (significandOf bits) (exponentOf bits)) with
    zero | positive
  · have nothing : magnitude 0 = 0 := by
      simp [magnitude, significandOf]
    refine ⟨0, by decide, ?_, ?_⟩
    · rw [nearest, if_pos zero]
    · rw [written, zero, nothing]
      simp
  · have small := nearestBits_unitsOf_lt finite positive
    have noFarther :=
      magnitude_nearestBits_le positive (unit_positive places) small bits
    have unitIs : ((unit places : Nat) : ℚ) = 10 ^ places := by
      rw [unit, Nat.pow_eq]
      push_cast
      rfl
    rw [unitIs] at noFarther
    refine ⟨_, small, ?_, noFarther⟩
    rw [nearest, if_neg (Nat.ne_of_gt positive)]

/-- What a finite double becomes when it is written and read again. -/
theorem exists_bits_reread
    (places : Nat)
    (negative : Bool)
    {bits : Nat}
    (finite : bits < infinityBits) :
    ∃ after < infinityBits,
      reread places (withSign negative bits) = withSign negative after ∧
        |magnitude after - written places bits| ≤
          |magnitude bits - written places bits| := by
  rw [reread, decode_withSign negative finite]
  exact exists_bits_nearest places negative finite

/-- A finite double stays finite, and stays within one unit of the last
place. -/
theorem reread_close
    (places : Nat)
    {x : Float}
    (finite : (decode x).isFinite = true) :
    (decode (reread places x)).isFinite = true ∧
      |(decode (reread places x)).number - (decode x).number| ≤
        1 / 10 ^ places := by
  cases shape : decode x with
  | nan =>
      simp [shape, Value.isFinite] at finite
  | infinite negative =>
      simp [shape, Value.isFinite] at finite
  | finite negative significand exponent =>
      obtain ⟨bits, small, rfl, rfl, rfl⟩ := exists_bits_of_decode shape
      obtain ⟨after, afterSmall, becomes, noFarther⟩ :=
        exists_bits_reread places negative small
      have half := written_half places bits
      have tens : (0 : ℚ) < 10 ^ places := by
        positivity
      rw [becomes, ← shape, number_withSign negative small,
        number_withSign negative afterSmall, abs_sub_signFactor]
      refine ⟨by rw [decode_withSign negative afterSmall]; rfl, ?_⟩
      calc
        |magnitude after - magnitude bits| ≤
            |magnitude after - written places bits| +
              |written places bits - magnitude bits| := abs_sub_le _ _ _
        _ ≤ |magnitude bits - written places bits| +
              |magnitude bits - written places bits| := by
          rw [abs_sub_comm (written places bits)]
          exact add_le_add noFarther le_rfl
        _ ≤ 1 / 10 ^ places := by
          rw [le_div_iff₀ tens]
          linarith

/-! ## The length -/

theorem length_signed_le
    (negative : Bool)
    (text : List Char) :
    (NumberStyle.signed negative text).length ≤ text.length + 1 := by
  cases negative <;> simp [NumberStyle.signed]

theorem length_fixedMagnitude_le
    {places count units : Nat}
    (positive : 0 < places)
    (counted : 0 < count)
    (bounded : units < 10 ^ (count + places)) :
    (fixedMagnitude places units).length ≤ count + places + 1 := by
  have short : (Decimal.digitText units).length ≤ count + places :=
    length_digitText_le (by omega) bounded
  simp only [fixedMagnitude, if_neg (Nat.ne_of_gt positive),
    List.length_append, List.length_cons, List.length_take, List.length_drop,
    List.length_replicate]
  omega

theorem largest_lt : largest < (10 ^ 103) ^ 3 := by
  decide +kernel

/-- The longest text is that of a largest magnitude with a sign. -/
theorem length_fixed_le
    {places : Nat}
    (positive : 0 < places)
    (x : Float) :
    (fixed places x).length ≤ places + 311 := by
  cases shape : decode x with
  | nan =>
      simp [fixed, shape]
  | infinite negative =>
      have short := length_signed_le negative "inf".toList
      simp only [fixed, shape]
      exact short.trans (by simp)
  | finite negative significand exponent =>
      obtain ⟨bits, small, rfl, rfl, rfl⟩ := exists_bits_of_decode shape
      have bounded :
          unitsOf places (significandOf bits) (exponentOf bits) <
            10 ^ (103 * 3 + places) := by
        rw [pow_add, pow_mul]
        exact (unitsOf_le places small).trans_lt
          (Nat.mul_lt_mul_of_pos_right largest_lt (by positivity))
      have short := length_fixedMagnitude_le positive (by decide) bounded
      have signed := length_signed_le negative (fixedMagnitude places
        (unitsOf places (significandOf bits) (exponentOf bits)))
      simp only [unitsOf] at short signed
      simp only [fixed, shape]
      omega

end Rounded

end PositionFeed
