import PositionFeed.Proofs.Decimal.Shift

namespace PositionFeed

/-!
# Sums and products of doubles

The sum and the product of two finite doubles are the doubles nearest to the
exact sum and product.  So what is known of the numbers carries over to the
doubles: rounding takes no number past a double, and it leaves the finite
doubles only from half way behind the largest one.

What is not finite never becomes finite again in a sum, and a product or sum
with not-a-number is not a number.
-/

namespace Binary64

open Float.Model Float.Model.UnpackedFloat

/-! ## Nearest magnitudes -/

theorem magnitude_nonneg
    (bits : Nat) :
    0 ≤ magnitude bits :=
  mul_nonneg (Nat.cast_nonneg _) (two_zpow_pos _).le

/-- A finite magnitude is the nearest one to itself. -/
theorem isNearest_magnitude
    {bits : Nat}
    (finite : bits < infinityBits) :
    IsNearest (magnitude bits) bits where
  le_infinity := finite.le
  nearest other _ := by
    rw [sub_self, abs_zero]
    exact abs_nonneg _
  even other _ different tie := by
    rw [sub_self, abs_zero, abs_eq_zero, sub_eq_zero] at tie
    exact absurd (magnitude_strictMono.injective tie) different

namespace IsNearest

variable
  {x : ℚ}
  {bits bound : Nat}

/-- Rounding takes no number past a magnitude. -/
theorem le_of_le
    (isNearest : IsNearest x bits)
    (bounded : bound ≤ infinityBits)
    (below : x ≤ magnitude bound) :
    bits ≤ bound := by
  by_contra above
  have higher := magnitude_lt (Nat.lt_of_not_le above)
  have nearest := isNearest.nearest bound bounded
  rw [abs_of_nonneg (by linarith), abs_of_nonneg (by linarith)] at nearest
  linarith

/-- Nor past an even one from half way behind it. -/
theorem le_of_le_halfWay
    (isNearest : IsNearest x bits)
    (finite : bound < infinityBits)
    (even : bound % 2 = 0)
    (below : 2 * x ≤ magnitude bound + magnitude (bound + 1)) :
    bits ≤ bound := by
  rcases le_total x (magnitude bound) with inside | beyond
  · exact isNearest.le_of_le finite.le inside
  by_contra above
  have next := magnitude_lt (Nat.lt_succ_self bound)
  have notLower :=
    magnitude_strictMono.monotone (Nat.succ_le_of_lt (Nat.lt_of_not_le above))
  have behind : |magnitude bound - x| = x - magnitude bound := by
    rw [abs_of_nonpos (by linarith), neg_sub]
  have before : |magnitude bits - x| = magnitude bits - x :=
    abs_of_nonneg (by linarith)
  have nearest := isNearest.nearest bound finite.le
  rw [behind, before] at nearest
  -- So the number lies half way, and the next magnitude is the odd one.
  have isNext : bits = bound + 1 :=
    magnitude_strictMono.injective (by linarith)
  have tie : |magnitude bound - x| = |magnitude bits - x| := by
    rw [behind, before]
    linarith
  have nextEven := isNearest.even bound finite.le (by omega) tie
  omega

end IsNearest

/-- The next magnitude is one unit of the last place larger. -/
theorem magnitude_succ
    (bits : Nat) :
    magnitude (bits + 1) = magnitude bits + 2 ^ exponentOf bits := by
  have shape := Shortest.bits_eq bits
  have least := leastExponent_le bits
  have place :
      leastExponent + ((exponentOf bits - leastExponent).toNat : Int) =
        exponentOf bits := by
    omega
  have full :
      (exponentOf bits - leastExponent).toNat = 0 ∨
        2 ^ 52 ≤ significandOf bits + 1 := by
    by_cases isLeast : exponentOf bits = leastExponent
    · exact .inl (by omega)
    · exact .inr (Nat.le_succ_of_le (Shortest.le_significandOf isLeast))
  have next := magnitude_place (significandOf_lt bits) full
  rw [place, Nat.succ_eq_add_one, ← Nat.add_assoc, ← shape] at next
  rw [next, magnitude]
  push_cast
  ring

theorem magnitude_succ_le
    {bits : Nat}
    (finite : bits < infinityBits) :
    magnitude (bits + 1) ≤ magnitude bits + 2 * halfUnit := by
  have coarsest : exponentOf bits ≤ 971 := by
    rw [infinityBits_eq] at finite
    rw [exponentOf, leastExponent]
    omega
  rw [magnitude_succ, ← coarsest_unit]
  exact add_le_add_right (zpow_le_zpow_right₀ (by norm_num) coarsest) _

/-- More than half a unit of the coarsest last place takes every magnitude
further. -/
theorem IsNearest.lt_of_halfUnit_lt
    {bits after : Nat}
    {step : ℚ}
    (isNearest : IsNearest (magnitude bits + step) after)
    (finite : bits < infinityBits)
    (large : halfUnit < step) :
    bits < after := by
  by_contra notAbove
  have lower := magnitude_strictMono.monotone (Nat.le_of_not_lt notAbove)
  have gap := magnitude_succ_le finite
  have further := magnitude_lt (Nat.lt_succ_self bits)
  have unit := halfUnit_positive
  have nearest := isNearest.nearest (bits + 1) finite
  rw [abs_of_nonpos (by linarith)] at nearest
  rcases abs_cases (magnitude (bits + 1) - (magnitude bits + step)) with
    ⟨isAbs, _⟩ | ⟨isAbs, _⟩ <;> linarith

/-! ## Rounded numbers -/

/-- A double is the nearest one to a number, and has its sign unless the number
is zero. -/
def IsRounded (number : ℚ) (x : Float) : Prop :=
  ∃ negative, signFactor negative * |number| = number ∧
    IsNearestTo negative |number| x

theorem isRounded_zero
    (negative : Bool) :
    IsRounded 0 (withSign negative 0) :=
  ⟨negative, by simp, 0, isNearest_zero (by simp) (by simp), rfl⟩

theorem abs_signFactor_mul
    (negative : Bool)
    {size : ℚ}
    (nonneg : 0 ≤ size) :
    |signFactor negative * size| = size := by
  rw [abs_mul, abs_signFactor, one_mul, abs_of_nonneg nonneg]

theorem abs_number_withSign
    (negative : Bool)
    {bits : Nat}
    (finite : bits < infinityBits) :
    |(decode (withSign negative bits)).number| = magnitude bits := by
  rw [number_withSign negative finite,
    abs_signFactor_mul negative (magnitude_nonneg bits)]

/-- A number with a sign is rounded as its size. -/
theorem isRounded_signFactor
    {negative : Bool}
    {size : ℚ}
    {x : Float}
    (nonneg : 0 ≤ size)
    (isNearestTo : IsNearestTo negative size x) :
    IsRounded (signFactor negative * size) x := by
  have isSize := abs_signFactor_mul negative nonneg
  refine ⟨negative, ?_, ?_⟩
  · rw [isSize]
  · rw [isSize]
    exact isNearestTo

/-- A finite double is the nearest one to the number that it means. -/
theorem isRounded_self
    {x : Float}
    (finite : x.isFinite = true) :
    IsRounded (decode x).number x := by
  obtain ⟨negative, bits, small, rfl⟩ := exists_withSign finite
  rw [number_withSign negative small]
  exact isRounded_signFactor (magnitude_nonneg bits)
    ⟨bits, isNearest_magnitude small, rfl⟩

namespace IsRounded

variable
  {number : ℚ}
  {x : Float}

/-- Rounding leaves the finite doubles only from half way behind the largest
one. -/
theorem isFinite_iff
    (isRounded : IsRounded number x) :
    x.isFinite = true ↔ |number| < overflow := by
  obtain ⟨_, _, isNearestTo⟩ := isRounded
  exact isNearestTo.isFinite_iff

/-- The size of a rounded number is the nearest magnitude to the size of the
number. -/
theorem exists_magnitude
    (isRounded : IsRounded number x)
    (finite : x.isFinite = true) :
    ∃ bits, IsNearest |number| bits ∧
      |(decode x).number| = magnitude bits := by
  obtain ⟨negative, _, isNearestTo⟩ := isRounded
  have small := isNearestTo.isFinite_iff.mp finite
  obtain ⟨bits, isNearest, rfl⟩ := isNearestTo
  have inside := isNearest.lt_infinityBits_iff.mpr small
  exact ⟨bits, isNearest, abs_number_withSign negative inside⟩

/-- Rounding takes no number past a finite magnitude. -/
theorem abs_le
    (isRounded : IsRounded number x)
    {bound : Nat}
    (finite : bound < infinityBits)
    (below : |number| ≤ magnitude bound) :
    x.isFinite = true ∧ |(decode x).number| ≤ magnitude bound := by
  have isFinite : x.isFinite = true := by
    rw [isRounded.isFinite_iff]
    calc
      |number| ≤ magnitude bound := below
      _ ≤ largest := magnitude_le finite
      _ < overflow := lt_add_of_pos_right _ halfUnit_positive
  obtain ⟨bits, isNearest, isSize⟩ := isRounded.exists_magnitude isFinite
  refine ⟨isFinite, ?_⟩
  rw [isSize]
  exact magnitude_strictMono.monotone (isNearest.le_of_le finite.le below)

/-- A number with a sign is rounded to a magnitude with the same sign. -/
theorem exists_bits
    {negative : Bool}
    {size : ℚ}
    (isRounded : IsRounded (signFactor negative * size) x)
    (positive : 0 < size) :
    ∃ bits, IsNearest size bits ∧ x = withSign negative bits := by
  obtain ⟨otherNegative, sameNumber, bits, isNearest, rfl⟩ := isRounded
  rw [abs_signFactor_mul negative positive.le] at sameNumber isNearest
  have sameFactor := mul_right_cancel₀ positive.ne' sameNumber
  have same : otherNegative = negative := by
    cases negative <;> cases otherNegative <;>
      first
      | rfl
      | norm_num [signFactor] at sameFactor
  rw [same]
  exact ⟨bits, isNearest, rfl⟩

end IsRounded

/-! ## What finite doubles are unpacked to -/

/-- A finite double is unpacked to a zero, or to a significand with a power of
two, which fills all its bits or has the least place. -/
inductive Unpacks : UnpackedFloat → ℚ → Prop where
  | zero
      (negative : Bool) :
      Unpacks (.zero (signOf negative)) 0
  | finite
      (negative : Bool)
      {significand : Nat}
      {exponent : Int}
      (positive : 0 < significand)
      (full : exponent = leastExponent ∨ 2 ^ 52 ≤ significand) :
      Unpacks (.finite (signOf negative) significand exponent positive)
        (signFactor negative * (significand * 2 ^ exponent))

theorem unpacks_unpack
    {x : Float}
    (finite : x.isFinite = true) :
    Unpacks x.toModel.unpack (decode x).number := by
  obtain ⟨negative, bits, small, rfl⟩ := exists_withSign finite
  rw [unpack_withSign negative small, number_withSign negative small]
  rcases Nat.eq_zero_or_pos (significandOf bits) with zero | positive
  · rw [dif_neg (by omega), magnitude_of_zero zero, mul_zero]
    exact .zero negative
  · rw [dif_pos positive]
    refine .finite negative positive ?_
    by_cases isLeast : exponentOf bits = leastExponent
    · exact .inl isLeast
    · exact .inr (Shortest.le_significandOf isLeast)

/-- A double is packed as it was unpacked. -/
theorem pack_unpack
    (x : Float) :
    Float.ofModel (.pack x.toModel.unpack) = x :=
  Float.ofBits_toBits x

theorem isRounded_pack_unpack
    {x : Float}
    (finite : x.isFinite = true) :
    IsRounded (decode x).number (.ofModel (.pack x.toModel.unpack)) := by
  rw [pack_unpack]
  exact isRounded_self finite

/-! ## Sums -/

/-- A whole number of units is rounded to the nearest double. -/
theorem isRounded_normalize
    (units exponent : Int) :
    IsRounded (units * 2 ^ exponent)
      (.ofModel (.pack
        (UnpackedFloat.normalize Format.binary64 units exponent
          .positive))) := by
  have unit := two_zpow_pos exponent
  rcases lt_trichotomy units 0 with below | rfl | above
  · have isBelow : compare units 0 = .lt := compare_lt_iff_lt.mpr below
    have size : (((-units).toNat : Nat) : ℚ) = -units := by
      exact_mod_cast Int.toNat_of_nonneg (by omega : 0 ≤ -units)
    have number :
        (units : ℚ) * 2 ^ exponent =
          signFactor true * ((-units).toNat * 2 ^ exponent) := by
      rw [size, signFactor, if_pos rfl]
      ring
    rw [number, UnpackedFloat.normalize, isBelow]
    exact isRounded_signFactor (by positivity)
      (isNearestTo_round true (by omega) exponent)
  · rw [Int.cast_zero, zero_mul]
    exact isRounded_zero false
  · have isAbove : compare units 0 = .gt := compare_gt_iff_gt.mpr above
    have size : ((units.toNat : Nat) : ℚ) = units := by
      exact_mod_cast Int.toNat_of_nonneg above.le
    have number :
        (units : ℚ) * 2 ^ exponent =
          signFactor false * (units.toNat * 2 ^ exponent) := by
      rw [size, signFactor, if_neg Bool.false_ne_true, one_mul]
    rw [number, UnpackedFloat.normalize, isAbove]
    exact isRounded_signFactor (by positivity)
      (isNearestTo_round false (by omega) exponent)

/-- A significand keeps its number when it is written in units of a finer
place. -/
theorem apply_decreaseExponent
    (negative : Bool)
    (significand : Nat)
    {exponent place : Int}
    (finer : place ≤ exponent) :
    (((signOf negative).apply
        (decreaseExponent significand exponent place).1 : Int) : ℚ) *
        2 ^ place =
      signFactor negative * (significand * 2 ^ exponent) := by
  obtain ⟨shift, isShift⟩ := Int.eq_ofNat_of_zero_le (sub_nonneg.mpr finer)
  have coarser : exponent = shift + place := by
    omega
  have decreased :
      (decreaseExponent significand exponent place).1 =
        significand * 2 ^ shift := by
    rw [decreaseExponent, isShift]
    exact Nat.shiftLeft_eq _ _
  rw [decreased, coarser, zpow_add₀ (by norm_num), zpow_natCast]
  cases negative with
  | false =>
      simp only [signOf, signFactor, Sign.apply, Bool.false_eq_true,
        ↓reduceIte]
      push_cast
      ring
  | true =>
      simp only [signOf, signFactor, Sign.apply, ↓reduceIte]
      push_cast
      ring

/-- The sum of two finite doubles is the one nearest to the exact sum. -/
theorem isRounded_add
    {x y : Float}
    (finite : x.isFinite = true)
    (otherFinite : y.isFinite = true) :
    IsRounded ((decode x).number + (decode y).number) (x + y) := by
  have sum :
      x + y =
        .ofModel (.pack
          (UnpackedFloat.add Format.binary64 x.toModel.unpack
            y.toModel.unpack)) := rfl
  have unpacks := unpacks_unpack finite
  have otherUnpacks := unpacks_unpack otherFinite
  have itself := isRounded_pack_unpack finite
  have otherItself := isRounded_pack_unpack otherFinite
  rw [sum]
  generalize x.toModel.unpack = unpacked at unpacks itself ⊢
  generalize (decode x).number = number at unpacks itself ⊢
  generalize y.toModel.unpack = otherUnpacked at otherUnpacks otherItself ⊢
  generalize (decode y).number = otherNumber at otherUnpacks otherItself ⊢
  cases unpacks with
  | zero negative =>
      rw [zero_add]
      cases otherUnpacks with
      | zero otherNegative =>
          cases negative <;> cases otherNegative
          · exact isRounded_zero false
          · exact isRounded_zero false
          · exact isRounded_zero false
          · exact isRounded_zero true
      | finite =>
          exact otherItself
  | @finite negative significand exponent =>
      cases otherUnpacks with
      | zero =>
          rw [add_zero]
          exact itself
      | @finite otherNegative otherSignificand otherExponent =>
          rw [← apply_decreaseExponent negative significand
              (min_le_left exponent otherExponent),
            ← apply_decreaseExponent otherNegative otherSignificand
              (min_le_right exponent otherExponent),
            ← add_mul, ← Int.cast_add]
          exact isRounded_normalize _ _

theorem abs_number_le_largest
    {x : Float}
    (finite : x.isFinite = true) :
    |(decode x).number| ≤ largest := by
  obtain ⟨negative, bits, small, rfl⟩ := exists_withSign finite
  rw [abs_number_withSign negative small]
  exact magnitude_le small

/-- Less than half a unit of the coarsest last place takes no finite double to
infinity. -/
theorem isFinite_add_of_lt
    {x y : Float}
    (finite : x.isFinite = true)
    (small : |(decode x).number| < halfUnit)
    (otherFinite : y.isFinite = true) :
    (x + y).isFinite = true := by
  rw [(isRounded_add finite otherFinite).isFinite_iff]
  calc
    |(decode x).number + (decode y).number| ≤
        |(decode x).number| + |(decode y).number| := abs_add_le _ _
    _ < halfUnit + largest :=
      add_lt_add_of_lt_of_le small (abs_number_le_largest otherFinite)
    _ = overflow := add_comm _ _

/-! ## Products -/

theorem signOf_mul
    (negative otherNegative : Bool) :
    signOf negative * signOf otherNegative =
      signOf (negative ^^ otherNegative) := by
  cases negative <;> cases otherNegative <;> rfl

theorem signFactor_mul
    (negative otherNegative : Bool) :
    signFactor negative * signFactor otherNegative =
      signFactor (negative ^^ otherNegative) := by
  cases negative <;> cases otherNegative <;> simp [signFactor]

/-- The places of two significands come to no more than the last place of their
product. -/
theorem add_le_lastPlace
    {significand otherSignificand : Nat}
    {exponent otherExponent : Int}
    (positive : 0 < significand)
    (otherPositive : 0 < otherSignificand)
    (full : exponent = leastExponent ∨ 2 ^ 52 ≤ significand)
    (otherFull : otherExponent = leastExponent ∨ 2 ^ 52 ≤ otherSignificand) :
    exponent + otherExponent ≤
      lastPlace (significand * otherSignificand)
        (exponent + otherExponent) := by
  have product := Nat.mul_pos positive otherPositive
  have of_large (large : 2 ^ 52 ≤ significand * otherSignificand) :
      exponent + otherExponent ≤
        lastPlace (significand * otherSignificand)
          (exponent + otherExponent) := by
    have wide := (Nat.le_log2 product.ne').mpr large
    rw [lastPlace]
    omega
  rcases full with least | large
  · rcases otherFull with otherLeast | otherLarge
    · rw [lastPlace, least, otherLeast, leastExponent]
      omega
    · exact of_large
        (otherLarge.trans (Nat.le_mul_of_pos_left _ positive))
  · exact of_large (large.trans (Nat.le_mul_of_pos_right _ otherPositive))

/-- The product of two finite doubles is the one nearest to the exact
product. -/
theorem isRounded_mul
    {x y : Float}
    (finite : x.isFinite = true)
    (otherFinite : y.isFinite = true) :
    IsRounded ((decode x).number * (decode y).number) (x * y) := by
  have product :
      x * y =
        .ofModel (.pack
          (UnpackedFloat.mul Format.binary64 x.toModel.unpack
            y.toModel.unpack)) := rfl
  have nothing (negative otherNegative : Bool) :
      IsRounded 0
        (.ofModel
          (.pack (.zero (signOf negative * signOf otherNegative)))) := by
    rw [signOf_mul, pack_zero]
    exact isRounded_zero _
  have unpacks := unpacks_unpack finite
  have otherUnpacks := unpacks_unpack otherFinite
  rw [product]
  generalize x.toModel.unpack = unpacked at unpacks ⊢
  generalize (decode x).number = number at unpacks ⊢
  generalize y.toModel.unpack = otherUnpacked at otherUnpacks ⊢
  generalize (decode y).number = otherNumber at otherUnpacks ⊢
  cases unpacks with
  | zero negative =>
      rw [zero_mul]
      cases otherUnpacks with
      | zero otherNegative =>
          exact nothing negative otherNegative
      | finite otherNegative =>
          exact nothing negative otherNegative
  | @finite negative significand exponent positive full =>
      cases otherUnpacks with
      | zero otherNegative =>
          rw [mul_zero]
          exact nothing negative otherNegative
      | @finite otherNegative otherSignificand otherExponent otherPositive
          otherFull =>
          have number :
              signFactor negative * ((significand : ℚ) * 2 ^ exponent) *
                  (signFactor otherNegative *
                    (otherSignificand * 2 ^ otherExponent)) =
                signFactor (negative ^^ otherNegative) *
                  ((significand * otherSignificand : Nat) *
                    2 ^ (exponent + otherExponent)) := by
            rw [← signFactor_mul, zpow_add₀ (by norm_num)]
            push_cast
            ring
          have rounds :=
            isNearestTo_roundWithAccuracy (negative ^^ otherNegative)
              (Nat.mul_pos positive otherPositive)
              (add_le_lastPlace positive otherPositive full otherFull)
          rw [← signOf_mul] at rounds
          rw [number]
          exact isRounded_signFactor (by positivity) rounds

/-! ## Special values -/

theorem isFinite_pack_of_special
    {unpacked : UnpackedFloat}
    (special : unpacked.isFinite = false) :
    (Float.ofModel (.pack unpacked)).isFinite = false := by
  cases unpacked with
  | notANumber =>
      decide
  | infinity sign =>
      cases sign <;> decide
  | zero =>
      cases special
  | finite =>
      cases special

/-- What is not finite does not become finite in a sum. -/
theorem isFinite_add_of_special
    {x : Float}
    (special : x.isFinite = false)
    (y : Float) :
    (x + y).isFinite = false := by
  have isSpecial : x.toModel.unpack.isFinite = false := special
  change
    (Float.ofModel (.pack
      (UnpackedFloat.add Format.binary64 x.toModel.unpack
        y.toModel.unpack))).isFinite = false
  apply isFinite_pack_of_special
  generalize x.toModel.unpack = unpacked at isSpecial ⊢
  cases unpacked with
  | notANumber =>
      rfl
  | infinity sign =>
      cases y.toModel.unpack with
      | infinity =>
          simp only [UnpackedFloat.add]
          split <;> rfl
      | _ =>
          rfl
  | zero =>
      cases isSpecial
  | finite =>
      cases isSpecial

theorem unpack_nan :
    nan.toModel.unpack = .notANumber := rfl

theorem nan_mul
    (x : Float) :
    nan * x = nan := by
  change
    Float.ofModel (.pack
      (UnpackedFloat.mul Format.binary64 nan.toModel.unpack
        x.toModel.unpack)) = nan
  rw [unpack_nan]
  rfl

theorem mul_nan
    (x : Float) :
    x * nan = nan := by
  change
    Float.ofModel (.pack
      (UnpackedFloat.mul Format.binary64 x.toModel.unpack
        nan.toModel.unpack)) = nan
  rw [unpack_nan]
  cases x.toModel.unpack <;> rfl

theorem add_nan
    (x : Float) :
    x + nan = nan := by
  change
    Float.ofModel (.pack
      (UnpackedFloat.add Format.binary64 x.toModel.unpack
        nan.toModel.unpack)) = nan
  rw [unpack_nan]
  cases x.toModel.unpack <;> rfl

end Binary64

end PositionFeed
