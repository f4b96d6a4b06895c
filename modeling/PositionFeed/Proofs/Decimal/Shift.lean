import PositionFeed.Proofs.Decimal.Rounding

namespace PositionFeed

/-!
# How a significand is rounded

A calculation comes to a significand with a power of two.  The significand is
shifted until its last place is one that a double can have.  A shift drops
digits and keeps two bits of them: the first one, and whether any of the others
was set.  That is enough to know on which side of one half the dropped part
lies, so the significand is rounded as if nothing had been dropped, and the
double that is packed is the nearest one to the number.
-/

namespace Binary64

open Float.Model Float.Model.UnpackedFloat

/-! ## Shifting -/

/-- A number lies over a shifted significand where the two bits say: on it, or
below, at or above the half way to the next one. -/
def LiesOver (shifted : ExtendedMantissa) (x : ℚ) : Prop :=
  match shifted.roundBit, shifted.stickyBit with
  | false, false => x = shifted.mantissa
  | false, true => shifted.mantissa < x ∧ x < shifted.mantissa + 1 / 2
  | true, false => x = shifted.mantissa + 1 / 2
  | true, true => shifted.mantissa + 1 / 2 < x ∧ x < shifted.mantissa + 1

theorem liesOver_exact
    (significand : Nat) :
    LiesOver (.ofMantissaAndAccuracy significand .exact) significand := rfl

namespace LiesOver

variable
  {shifted : ExtendedMantissa}
  {x : ℚ}

theorem shiftOne
    (lies : LiesOver shifted x) :
    LiesOver shifted.shiftRightOne (x / 2) := by
  obtain ⟨significand, roundBit, stickyBit⟩ := shifted
  have whole :
      ((significand % 2 : Nat) : ℚ) + 2 * (significand / 2 : Nat) =
        significand := by
    exact_mod_cast Nat.mod_add_div significand 2
  -- The digit that is dropped becomes the first bit, and the two bits before
  -- it become the second one.
  rcases Nat.mod_two_eq_zero_or_one significand with even | odd
  · rw [even, Nat.cast_zero, zero_add] at whole
    cases roundBit <;> cases stickyBit <;>
      simp only [LiesOver, ExtendedMantissa.shiftRightOne, even,
        bne_self_eq_false, Bool.or_false, Bool.or_true] at lies ⊢
    · linarith
    · constructor <;> linarith
    · constructor <;> linarith
    · constructor <;> linarith
  · have isSet : ((1 : Nat) != 0) = true := rfl
    rw [odd, Nat.cast_one] at whole
    cases roundBit <;> cases stickyBit <;>
      simp only [LiesOver, ExtendedMantissa.shiftRightOne, odd, isSet,
        Bool.or_false, Bool.or_true] at lies ⊢
    · linarith
    · constructor <;> linarith
    · constructor <;> linarith
    · constructor <;> linarith

theorem shift
    (lies : LiesOver shifted x)
    (count : Nat) :
    LiesOver (shifted >>> count) (x / 2 ^ count) := by
  induction count with
  | zero =>
      rw [pow_zero, div_one]
      exact lies
  | succ count inductionHypothesis =>
      rw [pow_succ, ← div_div]
      exact inductionHypothesis.shiftOne

end LiesOver

namespace RoundsTo

variable
  {x : ℚ}
  {whole bound : Nat}

theorem of_abs_lt
    (near : |(whole : ℚ) - x| < 1 / 2) :
    RoundsTo x whole :=
  ⟨near.le, fun halfWay => absurd halfWay near.ne⟩

theorem le_of_le
    (rounds : RoundsTo x whole)
    (below : x ≤ bound) :
    whole ≤ bound := by
  by_contra above
  have past : (bound : ℚ) + 1 ≤ whole := by
    exact_mod_cast Nat.lt_of_not_le above
  have half := (abs_le.mp rounds.half).2
  linarith

theorem le_of_ge
    (rounds : RoundsTo x whole)
    (above : bound ≤ x) :
    bound ≤ whole := by
  by_contra below
  have short : (whole : ℚ) + 1 ≤ bound := by
    exact_mod_cast Nat.lt_of_not_le below
  have half := (abs_le.mp rounds.half).1
  linarith

end RoundsTo

/-- The two bits are enough to round what lies over a significand. -/
theorem LiesOver.roundsTo
    {shifted : ExtendedMantissa}
    {x : ℚ}
    (lies : LiesOver shifted x) :
    RoundsTo x shifted.roundedMantissa := by
  obtain ⟨significand, roundBit, stickyBit⟩ := shifted
  cases roundBit <;> cases stickyBit
  case false.false =>
    have exactly : x = significand := lies
    change RoundsTo x significand
    rw [exactly]
    apply RoundsTo.of_abs_lt
    norm_num
  case false.true =>
    obtain ⟨above, below⟩ :
        (significand : ℚ) < x ∧ x < significand + 1 / 2 := lies
    change RoundsTo x significand
    exact .of_abs_lt (abs_lt.mpr ⟨by linarith, by linarith⟩)
  case true.false =>
    have halfWay : x = significand + 1 / 2 := lies
    change RoundsTo x (significand + significand % 2)
    refine ⟨?_, fun _ => by omega⟩
    rw [halfWay, abs_le]
    rcases Nat.mod_two_eq_zero_or_one significand with even | odd
    · rw [even]
      push_cast
      constructor <;> linarith
    · rw [odd]
      push_cast
      constructor <;> linarith
  case true.true =>
    obtain ⟨above, below⟩ :
        (significand : ℚ) + 1 / 2 < x ∧ x < significand + 1 := lies
    change RoundsTo x (significand + 1)
    apply RoundsTo.of_abs_lt
    rw [abs_lt]
    push_cast
    constructor <;> linarith

/-! ## Places -/

/-- The last place that a significand with a power of two is rounded to. -/
def lastPlace (significand : Nat) (exponent : Int) : Int :=
  max (significand.log2 + exponent - 52) leastExponent

theorem targetExponent_eq
    (significand : Nat)
    (exponent : Int) :
    Format.binary64.targetExponent (totalExponent significand exponent) =
      lastPlace significand exponent := by
  have least : Format.binary64.minExponent = leastExponent := rfl
  have width : Format.binary64.mantissaBits = 53 := rfl
  rw [Format.targetExponent, totalExponent, least, width, lastPlace]
  omega

/-- The places that doubles can have are counted from the least one. -/
theorem exists_lastPlace
    (significand : Nat)
    (exponent : Int) :
    ∃ place : Nat,
      lastPlace significand exponent = leastExponent + place := by
  have least : leastExponent ≤ lastPlace significand exponent :=
    le_max_right _ _
  obtain ⟨place, isPlace⟩ := Int.eq_ofNat_of_zero_le (sub_nonneg.mpr least)
  exact ⟨place, by omega⟩

section Bounds

variable
  {significand : Nat}
  (positive : 0 < significand)
  {exponent : Int}
  {place : Nat}
  (isPlace : lastPlace significand exponent = leastExponent + place)

include positive isPlace

/-- In units of its last place a number has at most fifty-three bits. -/
theorem significand_lt_lastPlace :
    (significand : ℚ) * 2 ^ exponent <
      2 ^ (53 + (leastExponent + (place : Int))) := by
  rw [lastPlace] at isPlace
  calc
    (significand : ℚ) * 2 ^ exponent <
        2 ^ ((significand.log2 : Int) + 1) * 2 ^ exponent :=
      mul_lt_mul_of_pos_right (log2_bounds positive).2 (two_zpow_pos _)
    _ = 2 ^ ((significand.log2 : Int) + 1 + exponent) :=
      (zpow_add₀ (by norm_num) _ _).symm
    _ ≤ 2 ^ (53 + (leastExponent + (place : Int))) :=
      zpow_le_zpow_right₀ (by norm_num) (by omega)

/-- Unless its last place is the least one, a number fills all its bits. -/
theorem lastPlace_le_significand
    (notLeast : place ≠ 0) :
    (2 : ℚ) ^ (52 + (leastExponent + (place : Int))) ≤
      significand * 2 ^ exponent := by
  rw [lastPlace] at isPlace
  calc
    (2 : ℚ) ^ (52 + (leastExponent + (place : Int))) ≤
        2 ^ ((significand.log2 : Int) + exponent) :=
      zpow_le_zpow_right₀ (by norm_num) (by omega)
    _ = 2 ^ (significand.log2 : Int) * 2 ^ exponent :=
      zpow_add₀ (by norm_num) _ _
    _ ≤ significand * 2 ^ exponent :=
      mul_le_mul_of_nonneg_right (log2_bounds positive).1
        (two_zpow_pos _).le

end Bounds

/-- A significand is shifted to its last place, where the number that it means
lies over it. -/
theorem liesOver_shiftToTargetExponent
    {significand : Nat}
    {exponent : Int}
    (notCoarser : exponent ≤ lastPlace significand exponent) :
    let shifted :=
      shiftToTargetExponent Format.binary64 significand exponent .exact
    shifted.2 = lastPlace significand exponent ∧
      LiesOver shifted.1
        (significand * 2 ^ exponent /
          2 ^ lastPlace significand exponent) := by
  intro shifted
  obtain ⟨count, isCount⟩ :=
    Int.eq_ofNat_of_zero_le (sub_nonneg.mpr notCoarser)
  have isPlace : lastPlace significand exponent = exponent + count := by
    omega
  have shape :
      shifted =
        (ExtendedMantissa.ofMantissaAndAccuracy significand .exact >>> count,
          exponent + count) := by
    simp only [shifted, shiftToTargetExponent, shiftToExponent,
      targetExponent_eq, isCount]
    rfl
  have inUnits :
      (significand : ℚ) * 2 ^ exponent / 2 ^ lastPlace significand exponent =
        significand / 2 ^ count := by
    rw [isPlace, zpow_add₀ (by norm_num), zpow_natCast, mul_comm,
      mul_div_mul_left _ _ (two_zpow_pos exponent).ne']
  rw [inUnits, shape]
  exact ⟨isPlace.symm, (liesOver_exact significand).shift count⟩

/-! ## Packing -/

theorem toNat_packComponents
    (negative : Bool)
    (exponent : BitVec 11)
    (fraction : BitVec 52) :
    (packComponents Format.binary64 (signOf negative) exponent
        fraction).toNat =
      signedBits negative (exponent.toNat * 2 ^ 52 + fraction.toNat) := by
  have shape :
      (packComponents Format.binary64 (signOf negative) exponent
          fraction).toNat =
        ((signOf negative).toBitVec.toNat <<< 11 ||| exponent.toNat) <<< 52 |||
          fraction.toNat := by
    simp only [packComponents, BitVec.toNat_append]
  rw [shape, ← Nat.shiftLeft_add_eq_or_of_lt fraction.isLt,
    ← Nat.shiftLeft_add_eq_or_of_lt exponent.isLt]
  cases negative with
  | false =>
      simp [signOf, Sign.toBitVec, signedBits, Nat.shiftLeft_eq]
  | true =>
      simp only [signOf, Sign.toBitVec, signedBits, Nat.shiftLeft_eq,
        ↓reduceIte, BitVec.toNat_ofNat]
      ring

/-- A double is known by its pattern. -/
theorem eq_withSign_of_toNat
    {packed : Float.Model}
    {negative : Bool}
    {bits : Nat}
    (bounded : bits ≤ infinityBits)
    (isPattern : packed.toBits.toNat = signedBits negative bits) :
    Float.ofModel packed = withSign negative bits := by
  have same :
      (Float.ofModel packed).toBits = (withSign negative bits).toBits := by
    apply UInt64.toNat_inj.mp
    rw [toBits_withSign negative bounded]
    exact isPattern
  calc
    Float.ofModel packed = .ofBits (Float.ofModel packed).toBits :=
      (Float.ofBits_toBits _).symm
    _ = withSign negative bits := by
      rw [same, Float.ofBits_toBits]

theorem pack_zero
    (negative : Bool) :
    Float.ofModel (.pack (.zero (signOf negative))) = withSign negative 0 := by
  cases negative <;> rfl

/-- Units of a place are packed as the magnitude with these units, or as
infinity if the place is too coarse. -/
theorem pack_finite
    (negative : Bool)
    {units place : Nat}
    (positive : 0 < units)
    (fits : units < 2 ^ 53)
    (full : place = 0 ∨ 2 ^ 52 ≤ units) :
    Float.ofModel
        (.pack (.finite (signOf negative) units (leastExponent + place)
          positive)) =
      withSign negative (min (place * 2 ^ 52 + units) infinityBits) := by
  have infinity := infinityBits_eq
  have range : 2 ^ Format.binary64.exponentBits = 2048 := rfl
  have width : Format.binary64.mantissaBits = 53 := rfl
  have biased :
      (leastExponent + place + Format.binary64.exponentBias +
        Format.binary64.mantissaBitsWithoutImplicit).toNat = place + 1 := by
    have bias : (Format.binary64.exponentBias : Int) = 1023 := rfl
    rw [bias, leastExponent]
    change (-1074 + (place : Int) + 1023 + 52).toNat = _
    omega
  apply eq_withSign_of_toNat (Nat.min_le_right _ _)
  change (UnpackedFloat.pack Format.binary64 _).toNat = _
  simp only [UnpackedFloat.pack, biased, range, width]
  split
  · next beyond =>
      rw [packedInfinity, toNat_packComponents, min_eq_right (by omega)]
      rfl
  next inside =>
  split
  · next normal =>
      have isWidth : units.log2 = 52 := by
        omega
      have filled : 2 ^ 52 ≤ units := by
        rw [← isWidth]
        exact Nat.log2_self_le positive.ne'
      rw [toNat_packComponents, min_eq_left (by omega)]
      refine congrArg (signedBits negative) ?_
      rw [BitVec.toNat_ofNat, BitVec.toNat_ofNat]
      omega
  · next subnormal =>
      have narrow := (Nat.log2_lt positive.ne').mpr fits
      have short : units < 2 ^ 52 :=
        (Nat.log2_lt positive.ne').mp (by omega)
      rw [toNat_packComponents, min_eq_left (by omega)]
      refine congrArg (signedBits negative) ?_
      rw [BitVec.toNat_ofNat, BitVec.toNat_ofNat]
      omega

/-- Rounded units are packed as the magnitude with these units, also when there
is one too many of them and they are carried to the next place. -/
theorem pack_units
    (negative : Bool)
    {units place : Nat}
    (fits : units ≤ 2 ^ 53)
    (full : place = 0 ∨ 2 ^ 52 ≤ units) :
    let carried :=
      shiftToTargetExponent Format.binary64 units (leastExponent + place)
        .exact
    Float.ofModel
        (.pack
          (if nothing : carried.1.mantissa = 0 then .zero (signOf negative)
          else
            .finite (signOf negative) carried.1.mantissa carried.2
              (Nat.pos_of_ne_zero nothing))) =
      withSign negative (min (place * 2 ^ 52 + units) infinityBits) := by
  intro carried
  rcases fits.lt_or_eq with short | rfl
  · have few : units.log2 ≤ 52 := by
      rcases Nat.eq_zero_or_pos units with rfl | positive
      · decide
      · exact Nat.le_of_lt_succ ((Nat.log2_lt positive.ne').mpr short)
    have stays :
        lastPlace units (leastExponent + place) - (leastExponent + place) ≤
          0 := by
      rw [lastPlace]
      omega
    have shape :
        carried = (⟨units, false, false⟩, leastExponent + place) := by
      simp only [carried, shiftToTargetExponent, shiftToExponent,
        targetExponent_eq]
      rw [Int.toNat_of_nonpos stays, Nat.cast_zero, add_zero]
      rfl
    rw [shape]
    dsimp only
    split
    · next nothing =>
        have noPlace : place = 0 := by
          omega
        rw [nothing, noPlace]
        exact pack_zero negative
    · next something =>
        exact pack_finite negative (Nat.pos_of_ne_zero something) short full
  · have width : (2 ^ 53 : Nat).log2 = 53 := Nat.log2_two_pow
    have carries :
        lastPlace (2 ^ 53) (leastExponent + place) - (leastExponent + place) =
          (1 : Nat) := by
      rw [lastPlace, width]
      omega
    have shape :
        carried =
          (⟨2 ^ 52, false, false⟩, leastExponent + (place + 1 : Nat)) := by
      simp only [carried, shiftToTargetExponent, shiftToExponent,
        targetExponent_eq]
      rw [carries, Int.toNat_natCast, Nat.cast_add, ← add_assoc]
      rfl
    have next :
        place * 2 ^ 52 + 2 ^ 53 = (place + 1) * 2 ^ 52 + 2 ^ 52 := by
      omega
    have something : 0 < 2 ^ 52 := by
      decide
    rw [shape, next]
    exact pack_finite negative something (by decide) (.inr (Nat.le_refl _))

/-! ## Rounding -/

/-- The nearest magnitude to a number has the units that the number is rounded
to in its last place. -/
theorem isNearest_of_roundsTo
    {x : ℚ}
    (positive : 0 < x)
    {place units : Nat}
    (below : x < 2 ^ (53 + (leastExponent + (place : Int))))
    (above :
      place ≠ 0 → (2 : ℚ) ^ (52 + (leastExponent + (place : Int))) ≤ x)
    (rounds : RoundsTo (x / 2 ^ (leastExponent + (place : Int))) units) :
    IsNearest x (min (place * 2 ^ 52 + units) infinityBits) := by
  have quotient := num_div_den_of_nonneg positive.le
  have numeratorPositive : 0 < x.num.toNat := by
    have numerator := Rat.num_pos.mpr positive
    omega
  rw [← quotient] at below above rounds
  have isPlace :=
    Shortest.placeOf_eq numeratorPositive x.den_pos (by omega) below
      fun notLeast => above (by omega)
  have sameBits :=
    Shortest.nearestBits_of_roundsTo x.den_pos isPlace rounds
  have samePlace :
      (leastExponent + place - leastExponent).toNat = place := by
    omega
  have isNearest := isNearest_nearestBits numeratorPositive x.den_pos
  rwa [sameBits, samePlace, quotient] at isNearest

theorem roundWithAccuracy_eq
    (sign : Sign)
    (significand : Nat)
    (exponent : Int) :
    roundWithAccuracy Format.binary64 sign significand exponent .exact =
      let shifted :=
        shiftToTargetExponent Format.binary64 significand exponent .exact
      let carried :=
        shiftToTargetExponent Format.binary64 shifted.1.roundedMantissa
          shifted.2 .exact
      if nothing : carried.1.mantissa = 0 then .zero sign
      else
        .finite sign carried.1.mantissa carried.2
          (Nat.pos_of_ne_zero nothing) := rfl

/-- A significand with a power of two is rounded to the nearest double. -/
theorem isNearestTo_roundWithAccuracy
    (negative : Bool)
    {significand : Nat}
    (positive : 0 < significand)
    {exponent : Int}
    (notCoarser : exponent ≤ lastPlace significand exponent) :
    IsNearestTo negative (significand * 2 ^ exponent)
      (.ofModel (.pack
        (roundWithAccuracy Format.binary64 (signOf negative) significand
          exponent .exact))) := by
  obtain ⟨place, isPlace⟩ := exists_lastPlace significand exponent
  have below := significand_lt_lastPlace positive isPlace
  have above := lastPlace_le_significand positive isPlace
  have shifts := liesOver_shiftToTargetExponent notCoarser
  rw [isPlace] at shifts
  have rounds := shifts.2.roundsTo
  have unit := two_zpow_pos (leastExponent + place)
  have fits :
      (shiftToTargetExponent Format.binary64 significand exponent
        .exact).1.roundedMantissa ≤ 2 ^ 53 := by
    apply rounds.le_of_le
    rw [zpow_add₀ (by norm_num)] at below
    rw [div_le_iff₀ unit]
    exact_mod_cast below.le
  have full :
      place = 0 ∨
        2 ^ 52 ≤
          (shiftToTargetExponent Format.binary64 significand exponent
            .exact).1.roundedMantissa := by
    refine or_iff_not_imp_left.mpr fun notLeast => rounds.le_of_ge ?_
    have filled := above notLeast
    rw [zpow_add₀ (by norm_num)] at filled
    rw [le_div_iff₀ unit]
    exact_mod_cast filled
  have value : 0 < (significand : ℚ) * 2 ^ exponent :=
    mul_pos (Nat.cast_pos.mpr positive) (two_zpow_pos exponent)
  refine ⟨_, isNearest_of_roundsTo value below above rounds, ?_⟩
  rw [roundWithAccuracy_eq]
  dsimp only
  rw [shifts.1]
  exact pack_units negative fits full

theorem log2_mul_two_pow
    {value : Nat}
    (positive : 0 < value)
    (shift : Nat) :
    (value * 2 ^ shift).log2 = value.log2 + shift := by
  have power := Nat.two_pow_pos shift
  rw [Nat.log2_eq_iff (Nat.mul_pos positive power).ne', Nat.add_right_comm,
    pow_add, pow_add]
  exact ⟨Nat.mul_le_mul_right _ (Nat.log2_self_le positive.ne'),
    Nat.mul_lt_mul_of_pos_right Nat.lt_log2_self power⟩

/-- The same with any power of two: a place that is too coarse is refined
first. -/
theorem isNearestTo_round
    (negative : Bool)
    {significand : Nat}
    (positive : 0 < significand)
    (exponent : Int) :
    IsNearestTo negative (significand * 2 ^ exponent)
      (.ofModel (.pack
        (round Format.binary64 (signOf negative) significand exponent))) := by
  have refined :
      round Format.binary64 (signOf negative) significand exponent =
        let shift := (exponent - lastPlace significand exponent).toNat
        roundWithAccuracy Format.binary64 (signOf negative)
          (significand <<< shift) (exponent - shift) .exact := by
    rw [← targetExponent_eq]
    rfl
  rw [refined]
  dsimp only
  generalize isShift : (exponent - lastPlace significand exponent).toNat = shift
  have shifted : significand <<< shift = significand * 2 ^ shift :=
    Nat.shiftLeft_eq _ _
  have sameNumber :
      (significand : ℚ) * 2 ^ exponent =
        (significand * 2 ^ shift : Nat) * 2 ^ (exponent - shift) := by
    rw [zpow_sub₀ (by norm_num), zpow_natCast]
    push_cast
    field_simp
  have notCoarser :
      exponent - shift ≤
        lastPlace (significand * 2 ^ shift) (exponent - shift) := by
    rw [lastPlace] at isShift
    rw [lastPlace, log2_mul_two_pow positive]
    omega
  rw [shifted, sameNumber]
  exact isNearestTo_roundWithAccuracy negative
    (Nat.mul_pos positive (Nat.two_pow_pos shift)) notCoarser

end Binary64

end PositionFeed
