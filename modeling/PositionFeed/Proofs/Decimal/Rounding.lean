import PositionFeed.Proofs.Decimal.Order

namespace PositionFeed

/-!
# Correct rounding

The double nearest to a number is the one that no other double is nearer than,
and the even one of two that are equally near.  Infinity takes part with the
power of two that would come behind the largest finite double, so a number is
rounded to infinity from half way to that power.  This describes at most one
double, and the conversions from decimal digits return it.
-/

namespace Binary64

/-- The magnitude of a pattern is the nearest one to a number, where the pattern
of infinity stands for the next power of two. -/
structure IsNearest (x : ℚ) (bits : Nat) : Prop where
  le_infinity :
    bits ≤ infinityBits
  nearest :
    ∀ other ≤ infinityBits,
      |magnitude bits - x| ≤ |magnitude other - x|
  even :
    ∀ other ≤ infinityBits, other ≠ bits →
      |magnitude other - x| = |magnitude bits - x| → bits % 2 = 0

namespace IsNearest

variable
  {x : ℚ}
  {first second bits : Nat}

theorem le
    (isFirst : IsNearest x first)
    (isSecond : IsNearest x second) :
    second ≤ first := by
  by_contra above
  have before : first < second := Nat.lt_of_not_le above
  have tie : |magnitude second - x| = |magnitude first - x| :=
    le_antisymm (isSecond.nearest first isFirst.le_infinity)
      (isFirst.nearest second isSecond.le_infinity)
  have firstEven :=
    isFirst.even second isSecond.le_infinity before.ne' tie
  have secondEven :=
    isSecond.even first isFirst.le_infinity before.ne tie.symm
  -- Both are even, so there is a pattern between them, and it is nearer.
  have between : first + 1 < second := by
    omega
  have nearest := isFirst.nearest (first + 1)
    (between.le.trans isSecond.le_infinity)
  have low := magnitude_lt (Nat.lt_succ_self first)
  have high := magnitude_lt between
  have middle : x - magnitude first = magnitude second - x := by
    rcases abs_eq_abs.mp tie with same | opposite
    · linarith
    · linarith
  rw [abs_of_nonpos (by linarith), neg_sub] at nearest
  rcases abs_cases (magnitude (first + 1) - x) with
    ⟨isAbs, _⟩ | ⟨isAbs, _⟩ <;> linarith

/-- No two doubles are the nearest one. -/
theorem unique
    (isFirst : IsNearest x first)
    (isSecond : IsNearest x second) :
    first = second :=
  Nat.le_antisymm (isSecond.le isFirst) (isFirst.le isSecond)

end IsNearest

/-! ## The conversion of a quotient -/

theorem roundsTo_units
    (numerator : Nat)
    {denominator : Nat}
    (positive : 0 < denominator) :
    RoundsTo (numerator / denominator / 2 ^ placeOf numerator denominator)
      (unitsOf numerator denominator) := by
  rw [← scaleDown_eq]
  exact roundsTo_roundDiv _ (scaleDown_positive _ positive _)

/-- Two whole numbers that are equally near are half a unit away or more. -/
theorem half_le_of_tie
    {x : ℚ}
    {first second : Nat}
    (different : second ≠ first)
    (tie : |(second : ℚ) - x| = |(first : ℚ) - x|) :
    1 / 2 ≤ |(first : ℚ) - x| := by
  have apart : (1 : ℚ) ≤ |(first : ℚ) - second| := by
    have notZero : (first : Int) - second ≠ 0 := by
      omega
    exact_mod_cast Int.one_le_abs notZero
  have triangle : |(first : ℚ) - second| ≤ |(first : ℚ) - x| + |x - second| :=
    abs_sub_le _ _ _
  rw [abs_sub_comm x, tie] at triangle
  linarith

section Quotient

variable
  {numerator denominator : Nat}
  (numeratorPositive : 0 < numerator)
  (denominatorPositive : 0 < denominator)

include numeratorPositive denominatorPositive

/-- Where two patterns are equally near to a quotient, its own one is even. -/
theorem freeBits_even
    {other : Nat}
    (different : other ≠ freeBits numerator denominator)
    (tie :
      |magnitude other - numerator / denominator| =
        |magnitude (freeBits numerator denominator) -
          numerator / denominator|) :
    freeBits numerator denominator % 2 = 0 := by
  let place := placeOf numerator denominator
  let scaled : ℚ := numerator / denominator / 2 ^ place
  have positive := two_zpow_pos place
  have units := magnitude_freeBits numeratorPositive denominatorPositive
  have otherShape :
      magnitude other = magnitude other / 2 ^ place * 2 ^ place :=
    (div_mul_cancel₀ _ positive.ne').symm
  have scaledTie :
      |magnitude other / 2 ^ place - scaled| =
        |(unitsOf numerator denominator : ℚ) - scaled| := by
    rw [units, otherShape, abs_sub_place, abs_sub_place] at tie
    exact mul_right_cancel₀ positive.ne' tie
  have rounds := roundsTo_units numerator denominatorPositive
  rcases whole_or_farther numeratorPositive denominatorPositive other with
    ⟨whole, isWhole⟩ | farther
  · have apart : whole ≠ unitsOf numerator denominator := by
      rintro rfl
      refine different (magnitude_strictMono.injective ?_)
      rw [units, otherShape, isWhole]
    rw [isWhole] at scaledTie
    have even : unitsOf numerator denominator % 2 = 0 :=
      rounds.even (le_antisymm rounds.half (half_le_of_tie apart scaledTie))
    unfold freeBits
    omega
  · exact absurd scaledTie farther.ne'

/-- A quotient is converted to the double nearest to it. -/
theorem isNearest_nearestBits :
    IsNearest (numerator / denominator)
      (nearestBits numerator denominator) := by
  have nearest :=
    magnitude_freeBits_le numeratorPositive denominatorPositive
  rw [nearestBits_eq]
  rcases le_or_gt (freeBits numerator denominator) infinityBits with
    inside | beyond
  · rw [min_eq_left inside]
    exact ⟨inside, fun other _ => nearest other,
      fun _ _ => freeBits_even numeratorPositive denominatorPositive⟩
  · rw [min_eq_right beyond.le]
    -- The quotient is above the pattern of infinity, because one that is above
    -- it is nearer.
    have above : magnitude infinityBits < numerator / denominator := by
      have higher := magnitude_lt beyond
      by_contra notAbove
      have nearer := nearest infinityBits
      rw [abs_of_nonneg (by linarith), abs_of_nonneg (by linarith)] at nearer
      linarith
    refine ⟨Nat.le_refl _, ?_, ?_⟩
    · intro other bounded
      have lower := magnitude_strictMono.monotone bounded
      rw [abs_of_nonpos (by linarith), abs_of_nonpos (by linarith)]
      linarith
    · intro other bounded different tie
      have lower :=
        magnitude_lt (Nat.lt_of_le_of_ne bounded different)
      rw [abs_of_nonpos (by linarith), abs_of_nonpos (by linarith)] at tie
      linarith

end Quotient

/-! ## Overflow -/

/-- The patterns of the coarsest last place. -/
theorem magnitude_coarsest
    {units : Nat}
    (fits : units ≤ 2 ^ 53)
    (full : 2 ^ 52 ≤ units) :
    magnitude (2045 * 2 ^ 52 + units) = units * 2 ^ (971 : Int) :=
  magnitude_place fits (.inr full)

/-- Half a unit of the coarsest last place. -/
def halfUnit : ℚ := 2 ^ (970 : Int)

theorem halfUnit_positive :
    0 < halfUnit :=
  two_zpow_pos 970

theorem coarsest_unit :
    (2 : ℚ) ^ (971 : Int) = 2 * halfUnit := by
  rw [halfUnit, mul_comm, ← zpow_add_one₀ (by norm_num)]
  rfl

theorem magnitude_infinityBits :
    magnitude infinityBits = largest + 2 * halfUnit := by
  have coarsest : infinityBits = 2045 * 2 ^ 52 + 2 ^ 53 := rfl
  rw [coarsest, magnitude_coarsest (Nat.le_refl _) (by decide), largest_eq,
    coarsest_unit]
  push_cast
  ring

theorem magnitude_largest :
    magnitude (infinityBits - 1) = largest := by
  have coarsest : infinityBits - 1 = 2045 * 2 ^ 52 + (2 ^ 53 - 1) := rfl
  rw [coarsest, magnitude_coarsest (by decide) (by decide), largest_eq,
    coarsest_unit]
  norm_num

/-- The least number that is rounded to infinity. -/
def overflow : ℚ := largest + halfUnit

theorem isNearest_infinityBits
    {x : ℚ}
    (large : overflow ≤ x) :
    IsNearest x infinityBits where
  le_infinity := Nat.le_refl _
  nearest other bounded := by
    rcases bounded.eq_or_lt with rfl | finite
    · exact le_refl _
    · have notAbove := magnitude_le finite
      have infinity := magnitude_infinityBits
      have unit := halfUnit_positive
      rw [overflow] at large
      have away : x - magnitude other ≤ |magnitude other - x| := by
        rw [abs_sub_comm]
        exact le_abs_self _
      refine le_trans (abs_le.mpr ⟨?_, ?_⟩) away <;> linarith
  even _ _ _ _ := rfl

/-- A number is rounded to a finite double exactly if it is below half way to the
next power of two. -/
theorem IsNearest.lt_infinityBits_iff
    {x : ℚ}
    {bits : Nat}
    (isNearest : IsNearest x bits) :
    bits < infinityBits ↔ x < overflow := by
  constructor
  · intro finite
    by_contra large
    have infinite := isNearest_infinityBits (not_lt.mp large)
    exact finite.ne (isNearest.unique infinite)
  · intro small
    refine Nat.lt_of_le_of_ne isNearest.le_infinity ?_
    rintro rfl
    have nearest :=
      isNearest.nearest (infinityBits - 1) (Nat.sub_le _ _)
    rw [magnitude_largest, magnitude_infinityBits] at nearest
    rw [overflow] at small
    have unit := halfUnit_positive
    rw [abs_of_nonneg (by linarith)] at nearest
    rcases abs_cases ((largest : ℚ) - x) with ⟨isAbs, _⟩ | ⟨isAbs, _⟩ <;>
      linarith

theorem isNearest_zero
    {x : ℚ}
    (nonneg : 0 ≤ x)
    (small : x ≤ 2 ^ (-1075 : Int)) :
    IsNearest x 0 where
  le_infinity := Nat.zero_le _
  nearest other _ := by
    rcases Nat.eq_zero_or_pos other with rfl | positive
    · exact le_refl _
    · have least : magnitude 1 = 2 ^ (-1075 : Int) * 2 := by
        rw [← zpow_add_one₀ (by norm_num)]
        simp [magnitude, significandOf, exponentOf, leastExponent]
      have atLeast := magnitude_strictMono.monotone positive
      rw [magnitude_zero, zero_sub, abs_neg, abs_of_nonneg nonneg]
      refine le_trans ?_ (le_abs_self _)
      linarith
  even _ _ _ _ := rfl

/-! ## Decimal digits -/

theorem overflow_le :
    overflow ≤ 10 ^ (401 : Int) := by
  have whole : largest + 2 ^ 970 ≤ 10 ^ 401 := by
    decide +kernel
  rw [overflow, halfUnit, show (970 : Int) = (970 : Nat) from rfl,
    show (401 : Int) = (401 : Nat) from rfl, zpow_natCast, zpow_natCast]
  exact_mod_cast whole

/-- Below this power of ten all numbers are rounded to zero. -/
theorem tiny_le :
    (10 : ℚ) ^ (-1600 : Int) ≤ 2 ^ (-1075 : Int) := by
  calc
    (10 : ℚ) ^ (-1600 : Int) ≤ 10 ^ (-1075 : Int) :=
      zpow_le_zpow_right₀ (by norm_num) (by norm_num)
    _ ≤ 2 ^ (-1075 : Int) := by
      rw [zpow_neg, zpow_neg]
      refine inv_anti₀ (two_zpow_pos 1075) ?_
      exact zpow_le_zpow_left₀ (by norm_num) (by norm_num) (by norm_num)

/-- Digits are fewer than the power of ten with as many zeros as they have
bits. -/
theorem digits_lt
    (digits : Nat) :
    (digits : ℚ) < 10 ^ ((digits.log2 + 1 : Nat) : Int) := by
  have binary : digits < 2 ^ (digits.log2 + 1) := Nat.lt_log2_self
  have decimal : 2 ^ (digits.log2 + 1) ≤ 10 ^ (digits.log2 + 1) :=
    Nat.pow_le_pow_left (by decide) _
  rw [zpow_natCast]
  exact_mod_cast binary.trans_le decimal

/-- A double is the nearest one to a number with a sign. -/
def IsNearestTo (negative : Bool) (number : ℚ) (x : Float) : Prop :=
  ∃ bits, IsNearest number bits ∧ x = withSign negative bits

theorem IsNearestTo.unique
    {negative : Bool}
    {number : ℚ}
    {x y : Float}
    (isFirst : IsNearestTo negative number x)
    (isSecond : IsNearestTo negative number y) :
    x = y := by
  obtain ⟨first, nearestFirst, rfl⟩ := isFirst
  obtain ⟨second, nearestSecond, rfl⟩ := isSecond
  rw [nearestFirst.unique nearestSecond]

theorem isFinite_infinity
    (negative : Bool) :
    (infinity negative).isFinite = false := by
  cases negative <;> decide +kernel

/-- A number is rounded to a finite double exactly if it is small enough. -/
theorem IsNearestTo.isFinite_iff
    {negative : Bool}
    {number : ℚ}
    {x : Float}
    (isNearestTo : IsNearestTo negative number x) :
    x.isFinite = true ↔ number < overflow := by
  obtain ⟨bits, isNearest, rfl⟩ := isNearestTo
  rw [← isNearest.lt_infinityBits_iff]
  constructor
  · intro finite
    refine Nat.lt_of_le_of_ne isNearest.le_infinity ?_
    rintro rfl
    rw [← infinity, isFinite_infinity] at finite
    cases finite
  · intro small
    rw [isFinite_eq, decode_withSign negative small]
    rfl

theorem isNearestTo_nearest
    (negative : Bool)
    (numerator : Nat)
    {denominator : Nat}
    (positive : 0 < denominator) :
    IsNearestTo negative (numerator / denominator)
      (nearest negative numerator denominator) := by
  unfold nearest
  split
  · next nothing =>
      refine ⟨0, isNearest_zero ?_ ?_, rfl⟩ <;> simp [nothing]
  · next something =>
      exact ⟨_, isNearest_nearestBits (Nat.pos_of_ne_zero something) positive,
        rfl⟩

/-- There is a double nearest to every number. -/
theorem exists_isNearestTo
    (negative : Bool)
    {number : ℚ}
    (nonneg : 0 ≤ number) :
    ∃ x, IsNearestTo negative number x := by
  have converted :=
    isNearestTo_nearest negative number.num.toNat number.den_pos
  rw [num_div_den_of_nonneg nonneg] at converted
  exact ⟨_, converted⟩

/-- Digits with a power of ten are read as the double nearest to them. -/
theorem isNearestTo_ofScientific
    (negative : Bool)
    (digits : Nat)
    (exponent : Int) :
    IsNearestTo negative (digits * 10 ^ exponent)
      (FloatLiteral.ofScientific negative digits exponent) := by
  unfold FloatLiteral.ofScientific
  split
  · next nothing =>
      refine ⟨0, isNearest_zero ?_ ?_, rfl⟩ <;> simp [nothing]
  next something =>
  have atLeastOne : (1 : ℚ) ≤ digits :=
    Nat.one_le_cast.mpr (Nat.pos_of_ne_zero something)
  split
  · next large =>
      refine ⟨infinityBits, isNearest_infinityBits ?_, rfl⟩
      calc
        overflow ≤ 10 ^ (401 : Int) := overflow_le
        _ ≤ 10 ^ exponent := zpow_le_zpow_right₀ (by norm_num) large
        _ ≤ digits * 10 ^ exponent :=
          le_mul_of_one_le_left (by positivity) atLeastOne
  split
  · next small =>
      refine ⟨0, isNearest_zero (by positivity) ?_, rfl⟩
      calc
        (digits : ℚ) * 10 ^ exponent ≤
            10 ^ ((digits.log2 + 1 : Nat) : Int) * 10 ^ exponent :=
          mul_le_mul_of_nonneg_right (digits_lt digits).le (by positivity)
        _ = 10 ^ (exponent + (digits.log2 + 1 : Nat)) := by
          rw [← zpow_add₀ (by norm_num), Int.add_comm]
        _ ≤ 10 ^ (-1600 : Int) :=
          zpow_le_zpow_right₀ (by norm_num) (Int.le_of_lt small)
        _ ≤ 2 ^ (-1075 : Int) := tiny_le
  · cases exponent with
    | ofNat power =>
        have quotient := isNearestTo_nearest negative
          (digits * Nat.pow 10 power) Nat.one_pos
        rw [Nat.cast_one, div_one, Nat.cast_mul, Nat.pow_eq, Nat.cast_pow]
          at quotient
        exact quotient
    | negSucc power =>
        have tens : 0 < Nat.pow 10 (power + 1) := Nat.pow_pos (by decide)
        have quotient := isNearestTo_nearest negative digits tens
        rw [zpow_negSucc, ← div_eq_mul_inv]
        exact_mod_cast quotient

end Binary64

end PositionFeed
