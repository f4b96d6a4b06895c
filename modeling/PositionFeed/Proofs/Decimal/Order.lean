import PositionFeed.Proofs.Decimal.Shortest

namespace PositionFeed

/-!
# Doubles are compared as numbers

A larger bit pattern means a larger magnitude, because a pattern is the last
place of its magnitude followed by the units of it.  Finite doubles are compared
by the same two parts, so they are compared as the numbers that they mean.
-/

namespace Binary64

open Float.Model Float.Model.UnpackedFloat

/-! ## Magnitudes -/

/-- A coarser last place or more units of the same one make a larger pattern. -/
theorem place_lt_of_lt
    {first second : Nat}
    (less : first < second) :
    exponentOf first < exponentOf second ∨
      exponentOf first = exponentOf second ∧
        significandOf first < significandOf second := by
  unfold exponentOf significandOf
  split <;> split <;> omega

theorem magnitude_lt
    {first second : Nat}
    (less : first < second) :
    magnitude first < magnitude second := by
  rcases place_lt_of_lt less with coarser | ⟨same, more⟩
  · have least := leastExponent_le first
    have full : ((2 ^ 52 : Nat) : ℚ) ≤ significandOf second :=
      Nat.cast_le.mpr (Shortest.le_significandOf (by omega))
    calc
      magnitude first < (2 ^ 52 : Nat) * 2 ^ exponentOf second :=
        magnitude_lt_of_finer coarser
      _ ≤ magnitude second :=
        mul_le_mul_of_nonneg_right full (two_zpow_pos _).le
  · unfold magnitude
    rw [same]
    exact mul_lt_mul_of_pos_right (Nat.cast_lt.mpr more) (two_zpow_pos _)

theorem magnitude_strictMono :
    StrictMono magnitude :=
  fun _ _ => magnitude_lt

@[simp] theorem magnitude_zero :
    magnitude 0 = 0 := by
  simp [magnitude, significandOf]

/-- Patterns are compared by their last places, and then by the units of
them. -/
theorem compare_places
    (first second : Nat) :
    (compare (exponentOf first) (exponentOf second)).then
        (compare (significandOf first) (significandOf second)) =
      compare (magnitude first) (magnitude second) := by
  rcases Nat.lt_trichotomy first second with less | rfl | greater
  · have isLess := compare_lt_iff_lt.mpr (magnitude_lt less)
    rcases place_lt_of_lt less with coarser | ⟨same, more⟩
    · rw [isLess, compare_lt_iff_lt.mpr coarser]
      rfl
    · rw [isLess, compare_eq_iff_eq.mpr same, compare_lt_iff_lt.mpr more]
      rfl
  · simp
  · have isGreater := compare_gt_iff_gt.mpr (magnitude_lt greater)
    rcases place_lt_of_lt greater with coarser | ⟨same, more⟩
    · rw [isGreater, compare_gt_iff_gt.mpr coarser]
      rfl
    · rw [isGreater, compare_eq_iff_eq.mpr same.symm,
        compare_gt_iff_gt.mpr more]
      rfl

/-! ## Doubles -/

/-- The sign of a number as the comparison knows it. -/
def signOf (negative : Bool) : Sign :=
  if negative then .negative else .positive

theorem toNat_unpackSign
    (bits : BitVec Format.binary64.numBits) :
    (unpackSign bits).toNat = bits.toNat / 2 ^ 63 % 2 := by
  simp [unpackSign, BitVec.extractLsb, Nat.shiftRight_eq_div_pow]

theorem ofBitVec_unpackSign
    {negative : Bool}
    {pattern : BitVec Format.binary64.numBits}
    (sign : pattern.toNat / 2 ^ 63 % 2 = if negative then 1 else 0) :
    Sign.ofBitVec (unpackSign pattern) = signOf negative := by
  rw [← toNat_unpackSign] at sign
  have isSign : unpackSign pattern = if negative then 1#1 else 0#1 := by
    apply BitVec.eq_of_toNat_eq
    rw [sign]
    cases negative <;> rfl
  rw [isSign]
  cases negative <;> rfl

/-- The three fields of the pattern of a finite double. -/
structure Fields
    (pattern : BitVec Format.binary64.numBits)
    (negative : Bool)
    (bits : Nat) : Prop where
  sign :
    Sign.ofBitVec (unpackSign pattern) = signOf negative
  exponent :
    (unpackExponent pattern).toNat = bits / 2 ^ 52
  mantissa :
    (unpackMantissa pattern).toNat = bits % 2 ^ 52
  notSpecial :
    ¬ unpackExponent pattern = -1#11

theorem fields_withSign
    (negative : Bool)
    {bits : Nat}
    (finite : bits < infinityBits) :
    Fields (withSign negative bits).toBits.toBitVec negative bits := by
  have value :
      (withSign negative bits).toBits.toBitVec.toNat =
        signedBits negative bits :=
    toBits_withSign negative (Nat.le_of_lt finite)
  have unsigned := signedBits_mod negative bits
  rw [infinityBits_eq] at finite
  refine {
    sign := ofBitVec_unpackSign ?_
    exponent := ?_
    mantissa := ?_
    notSpecial := ?_
  }
  · rw [value]
    cases negative <;> simp [signedBits] <;> omega
  · rw [toNat_unpackExponent, value]
    omega
  · rw [toNat_unpackMantissa, value]
    omega
  · rw [unpackExponent_eq_iff, value]
    omega

/-- What the comparison sees of a subnormal double. -/
theorem Fields.unpack_subnormal
    {pattern : BitVec Format.binary64.numBits}
    {negative : Bool}
    {bits : Nat}
    (fields : Fields pattern negative bits)
    (subnormal : bits / 2 ^ 52 = 0) :
    UnpackedFloat.unpack Format.binary64 pattern =
      if positive : 0 < significandOf bits then
        .finite (signOf negative) (significandOf bits) (exponentOf bits)
          positive
      else .zero (signOf negative) := by
  have noExponent : unpackExponent pattern = 0#11 := by
    rw [← BitVec.toNat_inj, fields.exponent, subnormal]
    rfl
  have noMantissa :
      unpackMantissa pattern = 0#52 ↔ bits % 2 ^ 52 = 0 := by
    rw [← BitVec.toNat_inj, fields.mantissa]
    rfl
  have significand : significandOf bits = bits % 2 ^ 52 := by
    rw [significandOf, if_pos subnormal]
    omega
  simp only [UnpackedFloat.unpack, if_neg fields.notSpecial, fields.sign]
  rw [if_pos noExponent]
  by_cases zero : bits % 2 ^ 52 = 0
  · rw [dif_pos (noMantissa.mpr zero), dif_neg (by omega)]
  · rw [dif_neg (mt noMantissa.mp zero), dif_pos (by omega)]
    congr 1
    · rw [fields.mantissa, significand]
    · rw [fields.exponent, exponentOf, leastExponent, subnormal]
      rfl

/-- What the comparison sees of a normal double. -/
theorem Fields.unpack_normal
    {pattern : BitVec Format.binary64.numBits}
    {negative : Bool}
    {bits : Nat}
    (fields : Fields pattern negative bits)
    (normal : ¬ bits / 2 ^ 52 = 0) :
    UnpackedFloat.unpack Format.binary64 pattern =
      if positive : 0 < significandOf bits then
        .finite (signOf negative) (significandOf bits) (exponentOf bits)
          positive
      else .zero (signOf negative) := by
  have someExponent : ¬ unpackExponent pattern = 0#11 := by
    rw [← BitVec.toNat_inj, fields.exponent]
    exact normal
  have significand : significandOf bits = bits % 2 ^ 52 + 2 ^ 52 :=
    if_neg normal
  simp only [UnpackedFloat.unpack, if_neg fields.notSpecial, fields.sign]
  rw [if_neg someExponent, dif_pos (by omega)]
  congr 1
  · have short : (unpackMantissa pattern).toNat < 2 ^ 52 :=
      (unpackMantissa pattern).isLt
    have whole := Nat.shiftLeft_add_eq_or_of_lt short 1
    rw [BitVec.toNat_append, significand, ← fields.mantissa]
    change 1 <<< 52 ||| _ = _
    rw [← whole]
    omega
  · rw [fields.exponent, exponentOf, leastExponent]
    change (_ : Int) - (1023 + 52) = _
    omega

/-- What the comparison sees of a finite double. -/
theorem unpack_withSign
    (negative : Bool)
    {bits : Nat}
    (finite : bits < infinityBits) :
    (withSign negative bits).toModel.unpack =
      if positive : 0 < significandOf bits then
        .finite (signOf negative) (significandOf bits) (exponentOf bits)
          positive
      else .zero (signOf negative) := by
  have fields := fields_withSign negative finite
  by_cases subnormal : bits / 2 ^ 52 = 0
  · exact fields.unpack_subnormal subnormal
  · exact fields.unpack_normal subnormal

theorem magnitude_of_zero
    {bits : Nat}
    (zero : significandOf bits = 0) :
    magnitude bits = 0 := by
  simp [magnitude, zero]

theorem magnitude_positive
    {bits : Nat}
    (positive : 0 < significandOf bits) :
    0 < magnitude bits :=
  mul_pos (Nat.cast_pos.mpr positive) (two_zpow_pos _)

/-- A finite double is a finite magnitude with a sign. -/
theorem exists_withSign
    {x : Float}
    (finite : x.isFinite = true) :
    ∃ negative bits, bits < infinityBits ∧ x = withSign negative bits := by
  rw [isFinite_eq] at finite
  cases meaning : decode x with
  | nan =>
      rw [meaning] at finite
      cases finite
  | infinite negative =>
      rw [meaning] at finite
      cases finite
  | finite negative significand exponent =>
      obtain ⟨bits, small, shape, _⟩ := exists_bits_of_decode meaning
      exact ⟨negative, bits, small, shape⟩

theorem compare_neg
    (first second : ℚ) :
    compare (-first) (-second) = (compare first second).swap := by
  rcases lt_trichotomy first second with less | rfl | greater
  · rw [compare_lt_iff_lt.mpr less, compare_gt_iff_gt.mpr (neg_lt_neg less)]
    rfl
  · simp
  · rw [compare_gt_iff_gt.mpr greater,
      compare_lt_iff_lt.mpr (neg_lt_neg greater)]
    rfl

/-- Finite doubles are compared as the numbers that they mean. -/
theorem compare_eq
    {x y : Float}
    (finite : x.isFinite = true)
    (otherFinite : y.isFinite = true) :
    x.toModel.unpack.compare y.toModel.unpack =
      some (compare (decode x).number (decode y).number) := by
  obtain ⟨negative, bits, small, rfl⟩ := exists_withSign finite
  obtain ⟨otherNegative, other, otherSmall, rfl⟩ :=
    exists_withSign otherFinite
  rw [unpack_withSign negative small, unpack_withSign otherNegative otherSmall,
    number_withSign negative small, number_withSign otherNegative otherSmall]
  rcases Nat.eq_zero_or_pos (significandOf bits) with zero | positive <;>
    rcases Nat.eq_zero_or_pos (significandOf other) with
      otherZero | otherPositive
  · rw [dif_neg (by omega), dif_neg (by omega), magnitude_of_zero zero,
      magnitude_of_zero otherZero]
    simp [UnpackedFloat.compare]
  · have otherAbove := magnitude_positive otherPositive
    rw [dif_neg (by omega), dif_pos otherPositive, magnitude_of_zero zero,
      mul_zero]
    cases otherNegative
    · rw [compare_lt_iff_lt.mpr (by simpa [signFactor] using otherAbove)]
      rfl
    · rw [compare_gt_iff_gt.mpr (by simpa [signFactor] using otherAbove)]
      rfl
  · have above := magnitude_positive positive
    rw [dif_pos positive, dif_neg (by omega), magnitude_of_zero otherZero,
      mul_zero]
    cases negative
    · rw [compare_gt_iff_gt.mpr (by simpa [signFactor] using above)]
      rfl
    · rw [compare_lt_iff_lt.mpr (by simpa [signFactor] using above)]
      rfl
  · have above := magnitude_positive positive
    have otherAbove := magnitude_positive otherPositive
    rw [dif_pos positive, dif_pos otherPositive]
    cases negative <;> cases otherNegative <;>
      simp only [signOf, signFactor, UnpackedFloat.compare,
        Bool.false_eq_true, ↓reduceIte, one_mul, neg_one_mul,
        compare_places, compare_neg]
    · rw [compare_gt_iff_gt.mpr (by linarith)]
    · rw [compare_lt_iff_lt.mpr (by linarith)]

theorem le_iff_compare
    {x y : Float} :
    x ≤ y ↔
      (x.toModel.unpack.compare y.toModel.unpack).any (·.isLE) = true :=
  decide_eq_true_iff

theorem le_iff
    {x y : Float}
    (finite : x.isFinite = true)
    (otherFinite : y.isFinite = true) :
    x ≤ y ↔ (decode x).number ≤ (decode y).number := by
  rw [le_iff_compare, compare_eq finite otherFinite, Option.any_some,
    Ordering.isLE_iff_ne_gt]
  exact compare_le_iff_le

theorem lt_iff
    {x y : Float}
    (finite : x.isFinite = true)
    (otherFinite : y.isFinite = true) :
    x < y ↔ (decode x).number < (decode y).number := by
  have model : x < y ↔
      (x.toModel.unpack.compare y.toModel.unpack == some .lt) = true :=
    decide_eq_true_iff
  rw [model, compare_eq finite otherFinite]
  simp [compare_lt_iff_lt]

/-! ## Bounds -/

/-- A finite double is below infinity and above its opposite. -/
theorem compare_infinity
    {x : Float}
    (finite : x.isFinite = true) :
    (infinity false).toModel.unpack.compare x.toModel.unpack = some .gt ∧
      x.toModel.unpack.compare (infinity true).toModel.unpack = some .gt := by
  have above : (infinity false).toModel.unpack = .infinity .positive := by
    rfl
  have below : (infinity true).toModel.unpack = .infinity .negative := by
    rfl
  obtain ⟨negative, bits, small, rfl⟩ := exists_withSign finite
  rw [above, below, unpack_withSign negative small]
  split <;> cases negative <;> exact ⟨rfl, rfl⟩

/-- What lies between finite doubles is finite. -/
theorem isFinite_of_le
    {least greatest x : Float}
    (leastFinite : least.isFinite = true)
    (greatestFinite : greatest.isFinite = true)
    (least_le : least ≤ x)
    (le_greatest : x ≤ greatest) :
    x.isFinite = true := by
  rw [le_iff_compare] at least_le le_greatest
  rw [isFinite_eq]
  cases meaning : decode x with
  | nan =>
      have unpacked : nan.toModel.unpack = .notANumber := by
        rfl
      rw [eq_nan_of_decode meaning, unpacked] at le_greatest
      cases le_greatest
  | infinite negative =>
      rw [eq_infinity_of_decode meaning] at least_le le_greatest
      cases negative with
      | false =>
          rw [(compare_infinity greatestFinite).1] at le_greatest
          cases le_greatest
      | true =>
          rw [(compare_infinity leastFinite).2] at least_le
          cases least_le
  | finite =>
      rfl

/-- A finite double that means a number. -/
abbrev Means (x : Float) (number : ℚ) : Prop :=
  x.isFinite = true ∧ (decode x).number = number

theorem means_zero :
    Means 0.0 0 := by
  decide +kernel

end Binary64

end PositionFeed
