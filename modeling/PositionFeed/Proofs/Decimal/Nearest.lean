import PositionFeed.Proofs.Decimal.Bits

namespace PositionFeed

/-!
# The nearest double

`Binary64.nearest` scales a quotient so that one unit is the last place of the
result, and rounds it to a whole number of units.  Doubles with the same or a
coarser last place are whole numbers of these units, and a finer last place
belongs only to doubles that are too small to matter, so no double is nearer.
-/

namespace Binary64

/-! ## Rounding to whole numbers -/

theorem roundDiv_cases
    (numerator denominator : Nat) :
    (roundDiv numerator denominator = numerator / denominator ∧
        2 * (numerator % denominator) ≤ denominator) ∨
      (roundDiv numerator denominator = numerator / denominator + 1 ∧
        denominator ≤ 2 * (numerator % denominator)) := by
  simp only [roundDiv]
  split
  · next below =>
      exact .inl ⟨rfl, Nat.le_of_lt below⟩
  · split
    · next above =>
        exact .inr ⟨rfl, Nat.le_of_lt above⟩
    · split
      · exact .inl ⟨rfl, by omega⟩
      · exact .inr ⟨rfl, by omega⟩

/-- Rounding moves a quotient by at most one half. -/
theorem roundDiv_half
    (numerator : Nat)
    {denominator : Nat}
    (positive : 0 < denominator) :
    |(roundDiv numerator denominator : ℚ) - numerator / denominator| ≤
      1 / 2 := by
  have positive' : (0 : ℚ) < denominator := by
    exact_mod_cast positive
  have whole :
      (numerator : ℚ) =
        denominator * (numerator / denominator : Nat) +
          (numerator % denominator : Nat) := by
    exact_mod_cast (Nat.div_add_mod numerator denominator).symm
  have restNonneg : (0 : ℚ) ≤ (numerator % denominator : Nat) := by
    positivity
  have restBound :
      ((numerator % denominator : Nat) : ℚ) < denominator := by
    exact_mod_cast Nat.mod_lt numerator positive
  rw [sub_div' positive'.ne', abs_div, abs_of_pos positive',
    div_le_iff₀ positive', abs_le]
  rcases roundDiv_cases numerator denominator with
    ⟨rounded, half⟩ | ⟨rounded, half⟩
  · have half' :
        (2 * (numerator % denominator : Nat) : ℚ) ≤ denominator := by
      exact_mod_cast half
    rw [rounded]
    constructor <;> linarith
  · have half' :
        (denominator : ℚ) ≤ 2 * (numerator % denominator : Nat) := by
      exact_mod_cast half
    rw [rounded]
    push_cast
    constructor <;> linarith

/-- No whole number is nearer than one that is nearer than one half. -/
theorem nearest_of_half
    {x : ℚ}
    {whole : Int}
    (half : |(whole : ℚ) - x| ≤ 1 / 2)
    (other : Int) :
    |(whole : ℚ) - x| ≤ |(other : ℚ) - x| := by
  by_cases same : other = whole
  · rw [same]
  · have apart : (1 : ℚ) ≤ |(other : ℚ) - whole| := by
      exact_mod_cast Int.one_le_abs (sub_ne_zero.mpr same)
    have between :
        |(other : ℚ) - whole| ≤ |(other : ℚ) - x| + |(whole : ℚ) - x| := by
      calc
        |(other : ℚ) - whole| = |((other : ℚ) - x) - (whole - x)| := by
          ring_nf
        _ ≤ |(other : ℚ) - x| + |(whole : ℚ) - x| := abs_sub _ _
    linarith

theorem roundDiv_le
    {numerator denominator bound : Nat}
    (positive : 0 < denominator)
    (below : (numerator : ℚ) / denominator ≤ bound) :
    roundDiv numerator denominator ≤ bound := by
  by_contra above
  have half := roundDiv_half numerator positive
  have past : (bound : ℚ) + 1 ≤ roundDiv numerator denominator := by
    exact_mod_cast Nat.lt_of_not_le above
  rw [abs_le] at half
  linarith

theorem le_roundDiv
    {numerator denominator bound : Nat}
    (positive : 0 < denominator)
    (above : (bound : ℚ) ≤ numerator / denominator) :
    bound ≤ roundDiv numerator denominator := by
  by_contra below
  have half := roundDiv_half numerator positive
  have short : (roundDiv numerator denominator : ℚ) + 1 ≤ bound := by
    exact_mod_cast Nat.lt_of_not_le below
  rw [abs_le] at half
  linarith

/-- A number that is not negative is a quotient of natural numbers. -/
theorem num_div_den_of_nonneg
    {x : ℚ}
    (nonneg : 0 ≤ x) :
    ((x.num.toNat : Nat) : ℚ) / x.den = x := by
  have numerator : ((x.num.toNat : Nat) : ℚ) = x.num := by
    exact_mod_cast Int.toNat_of_nonneg (Rat.num_nonneg.mpr nonneg)
  rw [numerator, Rat.num_div_den]

/-! ## Scaling -/

theorem scaleDown_positive
    (numerator : Nat)
    {denominator : Nat}
    (positive : 0 < denominator)
    (exponent : Int) :
    0 < (scaleDown numerator denominator exponent).2 := by
  cases exponent with
  | ofNat exponent =>
      exact Nat.mul_pos positive (Nat.two_pow_pos exponent)
  | negSucc exponent =>
      exact positive

/-- Scaling divides a quotient by a power of two. -/
theorem scaleDown_eq
    (numerator denominator : Nat)
    (exponent : Int) :
    ((scaleDown numerator denominator exponent).1 : ℚ) /
        (scaleDown numerator denominator exponent).2 =
      numerator / denominator / 2 ^ exponent := by
  cases exponent with
  | ofNat exponent =>
      simp only [scaleDown, Nat.pow_eq, Int.ofNat_eq_natCast, zpow_natCast]
      push_cast
      rw [div_div]
  | negSucc exponent =>
      simp only [scaleDown, Nat.pow_eq, zpow_negSucc]
      push_cast
      rw [div_inv_eq_mul, div_mul_eq_mul_div]

theorem two_zpow_pos (exponent : Int) : (0 : ℚ) < 2 ^ exponent :=
  zpow_pos (by norm_num) exponent

theorem log2_bounds
    {value : Nat}
    (positive : 0 < value) :
    (2 : ℚ) ^ (value.log2 : Int) ≤ value ∧
      (value : ℚ) < 2 ^ ((value.log2 : Int) + 1) := by
  constructor
  · exact_mod_cast Nat.log2_self_le (Nat.ne_of_gt positive)
  · exact_mod_cast Nat.lt_log2_self

/-- The logarithm bounds a positive quotient from below and from above. -/
theorem floorLog2_bounds
    {numerator denominator : Nat}
    (numeratorPositive : 0 < numerator)
    (denominatorPositive : 0 < denominator) :
    (2 : ℚ) ^ floorLog2 numerator denominator ≤ numerator / denominator ∧
      (numerator : ℚ) / denominator <
        2 ^ (floorLog2 numerator denominator + 1) := by
  obtain ⟨numeratorLow, numeratorHigh⟩ := log2_bounds numeratorPositive
  obtain ⟨denominatorLow, denominatorHigh⟩ := log2_bounds denominatorPositive
  have positive : (0 : ℚ) < denominator := by
    exact_mod_cast denominatorPositive
  let guess : Int := (numerator.log2 : Int) - denominator.log2
  have low : (2 : ℚ) ^ (guess - 1) < numerator / denominator := by
    rw [lt_div_iff₀ positive]
    calc
      (2 : ℚ) ^ (guess - 1) * denominator <
          2 ^ (guess - 1) * 2 ^ ((denominator.log2 : Int) + 1) :=
        mul_lt_mul_of_pos_left denominatorHigh (two_zpow_pos _)
      _ = 2 ^ (numerator.log2 : Int) := by
        rw [← zpow_add₀ (by norm_num)]
        congr 1
        simp only [guess]
        ring
      _ ≤ numerator := numeratorLow
  have high : (numerator : ℚ) / denominator < 2 ^ (guess + 1) := by
    rw [div_lt_iff₀ positive]
    calc
      (numerator : ℚ) < 2 ^ ((numerator.log2 : Int) + 1) := numeratorHigh
      _ = 2 ^ (guess + 1) * 2 ^ (denominator.log2 : Int) := by
        rw [← zpow_add₀ (by norm_num)]
        congr 1
        simp only [guess]
        ring
      _ ≤ 2 ^ (guess + 1) * denominator :=
        mul_le_mul_of_nonneg_left denominatorLow (two_zpow_pos _).le
  have scaled := scaleDown_eq numerator denominator guess
  have scaledPositive :
      (0 : ℚ) < (scaleDown numerator denominator guess).2 := by
    exact_mod_cast scaleDown_positive numerator denominatorPositive guess
  simp only [floorLog2]
  split
  · next reaches =>
      have atLeastOne :
          (1 : ℚ) ≤ numerator / denominator / 2 ^ guess := by
        rw [← scaled, one_le_div scaledPositive]
        exact Nat.cast_le.mpr reaches
      refine ⟨?_, high⟩
      rwa [one_le_div (two_zpow_pos guess)] at atLeastOne
  · next short =>
      have belowOne :
          (numerator : ℚ) / denominator / 2 ^ guess < 1 := by
        rw [← scaled, div_lt_one scaledPositive]
        exact Nat.cast_lt.mpr (Nat.lt_of_not_le short)
      refine ⟨low.le, ?_⟩
      rw [div_lt_one (two_zpow_pos guess)] at belowOne
      rwa [sub_add_cancel]

/-! ## Magnitudes as numbers -/

/-- The largest finite magnitude. -/
def largest : Nat := (2 ^ 53 - 1) * 2 ^ 971

/-- The number that a finite magnitude means. -/
def magnitude (bits : Nat) : ℚ :=
  significandOf bits * 2 ^ exponentOf bits

theorem significandOf_lt
    (bits : Nat) :
    significandOf bits < 2 ^ 53 := by
  unfold significandOf
  split <;> omega

theorem leastExponent_le
    (bits : Nat) :
    leastExponent ≤ exponentOf bits := by
  unfold exponentOf
  omega

/-- A magnitude with a finer last place is less than the least one that fills a
significand. -/
theorem magnitude_lt_of_finer
    {bits : Nat}
    {place : Int}
    (finer : exponentOf bits < place) :
    magnitude bits < (2 ^ 52 : Nat) * 2 ^ place :=
  calc
    (significandOf bits : ℚ) * 2 ^ exponentOf bits <
        (2 ^ 53 : Nat) * 2 ^ exponentOf bits :=
      mul_lt_mul_of_pos_right (Nat.cast_lt.mpr (significandOf_lt bits))
        (two_zpow_pos _)
    _ ≤ (2 ^ 53 : Nat) * 2 ^ (place - 1) :=
      mul_le_mul_of_nonneg_left
        (zpow_le_zpow_right₀ (by norm_num) (by omega)) (by positivity)
    _ = (2 ^ 52 : Nat) * 2 ^ place := by
      rw [zpow_sub_one₀ (by norm_num)]
      push_cast
      ring

/-- The magnitude of so many units of a last place, carried if need be. -/
theorem magnitude_place
    {place units : Nat}
    (fits : units ≤ 2 ^ 53)
    (full : place = 0 ∨ 2 ^ 52 ≤ units) :
    magnitude (place * 2 ^ 52 + units) =
      units * 2 ^ (leastExponent + place) := by
  unfold magnitude
  rcases Nat.lt_or_ge units (2 ^ 52) with subnormal | normal
  · have noPlace : place = 0 := by
      omega
    have significand :
        significandOf (place * 2 ^ 52 + units) = units := by
      rw [significandOf, if_pos (by omega), noPlace]
      omega
    have exponent :
        exponentOf (place * 2 ^ 52 + units) = leastExponent + place := by
      rw [exponentOf]
      omega
    rw [significand, exponent]
  · rcases Nat.lt_or_ge units (2 ^ 53) with short | carried
    · have significand :
          significandOf (place * 2 ^ 52 + units) = units := by
        rw [significandOf, if_neg (by omega)]
        omega
      have exponent :
          exponentOf (place * 2 ^ 52 + units) = leastExponent + place := by
        rw [exponentOf]
        omega
      rw [significand, exponent]
    · have whole : units = 2 ^ 53 := by
        omega
      have significand :
          significandOf (place * 2 ^ 52 + units) = 2 ^ 52 := by
        rw [significandOf, if_neg (by omega)]
        omega
      have exponent :
          exponentOf (place * 2 ^ 52 + units) =
            leastExponent + place + 1 := by
        rw [exponentOf]
        omega
      rw [significand, exponent, whole, zpow_add_one₀ (by norm_num)]
      push_cast
      ring

/-! ## The nearest magnitude -/

/-- The exponent of the last place of the double nearest to a quotient. -/
def placeOf (numerator denominator : Nat) : Int :=
  max leastExponent (floorLog2 numerator denominator - fractionBits)

/-- How many units of the last place the nearest double has, before a carry. -/
def unitsOf (numerator denominator : Nat) : Nat :=
  let scaled :=
    scaleDown numerator denominator (placeOf numerator denominator)
  roundDiv scaled.1 scaled.2

/-- The pattern of the double nearest to a quotient, if there were a double for
every pattern. -/
def freeBits (numerator denominator : Nat) : Nat :=
  (placeOf numerator denominator - leastExponent).toNat * 2 ^ 52 +
    unitsOf numerator denominator

theorem nearestBits_eq
    (numerator denominator : Nat) :
    nearestBits numerator denominator =
      min (freeBits numerator denominator) infinityBits := rfl

variable
  {numerator denominator : Nat}
  (numeratorPositive : 0 < numerator)
  (denominatorPositive : 0 < denominator)

include numeratorPositive denominatorPositive

/-- In units of its last place a quotient has at most fifty-three bits. -/
theorem quotient_lt_place :
    (numerator : ℚ) / denominator / 2 ^ placeOf numerator denominator <
      (2 ^ 53 : Nat) := by
  have high :=
    (floorLog2_bounds numeratorPositive denominatorPositive).2
  rw [div_lt_iff₀ (two_zpow_pos _)]
  calc
    (numerator : ℚ) / denominator <
        2 ^ (floorLog2 numerator denominator + 1) := high
    _ ≤ 2 ^ (53 + placeOf numerator denominator) := by
      refine zpow_le_zpow_right₀ (by norm_num) ?_
      simp only [placeOf, fractionBits]
      omega
    _ = (2 ^ 53 : Nat) * 2 ^ placeOf numerator denominator := by
      rw [zpow_add₀ (by norm_num)]
      norm_num

/-- Unless its last place is the least one, a quotient fills all its bits. -/
theorem place_le_quotient
    (notLeast : placeOf numerator denominator ≠ leastExponent) :
    ((2 ^ 52 : Nat) : ℚ) ≤
      (numerator : ℚ) / denominator / 2 ^ placeOf numerator denominator := by
  have low :=
    (floorLog2_bounds numeratorPositive denominatorPositive).1
  rw [le_div_iff₀ (two_zpow_pos _)]
  calc
    ((2 ^ 52 : Nat) : ℚ) * 2 ^ placeOf numerator denominator =
        2 ^ (52 + placeOf numerator denominator) := by
      rw [zpow_add₀ (by norm_num)]
      norm_num
    _ ≤ 2 ^ floorLog2 numerator denominator := by
      refine zpow_le_zpow_right₀ (by norm_num) ?_
      simp only [placeOf, fractionBits] at notLeast ⊢
      omega
    _ ≤ numerator / denominator := low

theorem unitsOf_le :
    unitsOf numerator denominator ≤ 2 ^ 53 := by
  refine roundDiv_le (scaleDown_positive _ denominatorPositive _) ?_
  rw [scaleDown_eq]
  exact (quotient_lt_place numeratorPositive denominatorPositive).le

theorem le_unitsOf
    (notLeast : placeOf numerator denominator ≠ leastExponent) :
    2 ^ 52 ≤ unitsOf numerator denominator := by
  refine le_roundDiv (scaleDown_positive _ denominatorPositive _) ?_
  rw [scaleDown_eq]
  exact place_le_quotient numeratorPositive denominatorPositive notLeast

omit numeratorPositive in
theorem unitsOf_half :
    |(unitsOf numerator denominator : ℚ) -
        numerator / denominator / 2 ^ placeOf numerator denominator| ≤
      1 / 2 := by
  rw [← scaleDown_eq]
  exact roundDiv_half _ (scaleDown_positive _ denominatorPositive _)

/-- The nearest magnitude is a whole number of units of its last place. -/
theorem magnitude_freeBits :
    magnitude (freeBits numerator denominator) =
      unitsOf numerator denominator * 2 ^ placeOf numerator denominator := by
  have least : leastExponent ≤ placeOf numerator denominator :=
    le_max_left _ _
  have place :
      leastExponent +
          ((placeOf numerator denominator - leastExponent).toNat : Nat) =
        placeOf numerator denominator := by
    omega
  have full :
      (placeOf numerator denominator - leastExponent).toNat = 0 ∨
        2 ^ 52 ≤ unitsOf numerator denominator := by
    by_cases isLeast : placeOf numerator denominator = leastExponent
    · exact .inl (by omega)
    · exact .inr (le_unitsOf numeratorPositive denominatorPositive isLeast)
  rw [freeBits, magnitude_place
    (unitsOf_le numeratorPositive denominatorPositive) full, place]

omit numeratorPositive denominatorPositive in
/-- A distance in units of a last place. -/
theorem abs_sub_place
    (units quotient : ℚ)
    (place : Int) :
    |units * 2 ^ place - quotient| =
      |units - quotient / 2 ^ place| * 2 ^ place := by
  have positive := two_zpow_pos place
  rw [← abs_of_pos positive, ← abs_mul, abs_of_pos positive, sub_mul,
    div_mul_cancel₀ _ positive.ne']

/-- In units of the last place of a quotient another magnitude is a whole
number, or it is farther from the quotient than the nearest one. -/
theorem whole_or_farther
    (other : Nat) :
    (∃ whole : Nat,
      magnitude other / 2 ^ placeOf numerator denominator = whole) ∨
      |(unitsOf numerator denominator : ℚ) -
          numerator / denominator / 2 ^ placeOf numerator denominator| <
        |magnitude other / 2 ^ placeOf numerator denominator -
          numerator / denominator / 2 ^ placeOf numerator denominator| := by
  let place := placeOf numerator denominator
  let scaled : ℚ := numerator / denominator / 2 ^ place
  have half :
      |(((unitsOf numerator denominator : Nat) : Int) : ℚ) - scaled| ≤
        1 / 2 :=
    unitsOf_half denominatorPositive
  have positive := two_zpow_pos place
  rcases le_or_gt place (exponentOf other) with coarser | finer
  · obtain ⟨shift, shape⟩ := Int.eq_ofNat_of_zero_le
      (sub_nonneg.mpr coarser)
    refine .inl ⟨significandOf other * 2 ^ shift, ?_⟩
    rw [magnitude, mul_div_assoc, ← zpow_sub₀ (by norm_num), shape]
    push_cast
    rfl
  · have notLeast : place ≠ leastExponent := by
      have := leastExponent_le other
      omega
    have large : ((2 ^ 52 : Nat) : ℚ) ≤ scaled :=
      place_le_quotient numeratorPositive denominatorPositive notLeast
    have small : magnitude other / 2 ^ place < (2 ^ 52 : Nat) :=
      (div_lt_iff₀ positive).mpr (magnitude_lt_of_finer finer)
    have fromBelow :
        |(unitsOf numerator denominator : ℚ) - scaled| ≤
          |((2 ^ 52 : Nat) : ℚ) - scaled| := by
      exact_mod_cast nearest_of_half half (2 ^ 52 : Nat)
    refine .inr ?_
    calc
      |(unitsOf numerator denominator : ℚ) - scaled| ≤
          |((2 ^ 52 : Nat) : ℚ) - scaled| := fromBelow
      _ = scaled - (2 ^ 52 : Nat) := by
        rw [abs_sub_comm, abs_of_nonneg (sub_nonneg.mpr large)]
      _ < scaled - magnitude other / 2 ^ place := by
        linarith
      _ ≤ |magnitude other / 2 ^ place - scaled| := by
        rw [abs_sub_comm]
        exact le_abs_self _

/-- No magnitude is nearer to a quotient than the nearest one. -/
theorem magnitude_freeBits_le
    (other : Nat) :
    |magnitude (freeBits numerator denominator) -
        numerator / denominator| ≤
      |magnitude other - numerator / denominator| := by
  let place := placeOf numerator denominator
  let scaled : ℚ := numerator / denominator / 2 ^ place
  have half :
      |(((unitsOf numerator denominator : Nat) : Int) : ℚ) - scaled| ≤
        1 / 2 :=
    unitsOf_half denominatorPositive
  have positive := two_zpow_pos place
  rw [magnitude_freeBits numeratorPositive denominatorPositive, abs_sub_place]
  suffices distance :
      |(unitsOf numerator denominator : ℚ) - scaled| ≤
        |magnitude other / 2 ^ place - scaled| by
    have otherShape :
        magnitude other = magnitude other / 2 ^ place * 2 ^ place :=
      (div_mul_cancel₀ _ positive.ne').symm
    rw [otherShape, abs_sub_place]
    exact mul_le_mul_of_nonneg_right distance positive.le
  rcases whole_or_farther numeratorPositive denominatorPositive other with
    ⟨whole, isWhole⟩ | farther
  · rw [isWhole]
    exact nearest_of_half half whole
  · exact farther.le

/-- As long as the nearest magnitude is finite, no other one is nearer. -/
theorem magnitude_nearestBits_le
    (finite : nearestBits numerator denominator < infinityBits)
    (other : Nat) :
    |magnitude (nearestBits numerator denominator) -
        numerator / denominator| ≤
      |magnitude other - numerator / denominator| := by
  have free :
      nearestBits numerator denominator = freeBits numerator denominator := by
    rw [nearestBits_eq] at finite ⊢
    omega
  rw [free]
  exact magnitude_freeBits_le numeratorPositive denominatorPositive other

omit numeratorPositive denominatorPositive in
theorem largest_eq :
    (largest : ℚ) = (2 ^ 53 - 1) * 2 ^ (971 : Int) := by
  rw [largest, show (971 : Int) = (971 : Nat) from rfl, zpow_natCast]
  generalize 971 = place
  push_cast
  norm_num

omit numeratorPositive denominatorPositive in
/-- No finite magnitude is above the largest one. -/
theorem magnitude_le
    {bits : Nat}
    (finite : bits < infinityBits) :
    magnitude bits ≤ largest := by
  rw [infinityBits_eq] at finite
  have significand : ((significandOf bits : Nat) : ℚ) ≤ 2 ^ 53 - 1 := by
    have below := significandOf_lt bits
    have : ((significandOf bits : Nat) : ℚ) + 1 ≤ 2 ^ 53 := by
      exact_mod_cast below
    linarith
  have exponent : exponentOf bits ≤ 971 := by
    rw [exponentOf, leastExponent]
    omega
  rw [largest_eq]
  refine mul_le_mul significand ?_ (two_zpow_pos _).le (by norm_num)
  exact zpow_le_zpow_right₀ (by norm_num) exponent

/-- A quotient that is not above the largest finite magnitude is rounded to a
finite magnitude. -/
theorem nearestBits_lt
    (bounded : (numerator : ℚ) / denominator ≤ largest) :
    nearestBits numerator denominator < infinityBits := by
  by_contra infinite
  let place := placeOf numerator denominator
  let scaled : ℚ := numerator / denominator / 2 ^ place
  have half :
      |(unitsOf numerator denominator : ℚ) - scaled| ≤ 1 / 2 :=
    unitsOf_half denominatorPositive
  have units := unitsOf_le numeratorPositive denominatorPositive
  have least : leastExponent ≤ place := le_max_left _ _
  have bits :
      2047 * 2 ^ 52 ≤
        (place - leastExponent).toNat * 2 ^ 52 +
          unitsOf numerator denominator := by
    rw [nearestBits_eq, freeBits, infinityBits_eq] at infinite
    omega
  have quotient :
      (numerator : ℚ) / denominator = scaled * 2 ^ place :=
    (div_mul_cancel₀ _ (two_zpow_pos place).ne').symm
  rw [quotient, largest_eq] at bounded
  rw [leastExponent] at least bits
  rcases eq_or_lt_of_le (show (971 : Int) ≤ place by omega) with same | beyond
  · have full :
        ((2 ^ 53 : Nat) : ℚ) ≤ unitsOf numerator denominator := by
      exact Nat.cast_le.mpr (by omega)
    rw [← same] at bounded
    have notAbove : scaled ≤ 2 ^ 53 - 1 :=
      le_of_mul_le_mul_right bounded (two_zpow_pos 971)
    rw [abs_le] at half
    push_cast at full
    linarith only [full, notAbove, half.2]
  · have large : ((2 ^ 52 : Nat) : ℚ) ≤ scaled :=
      place_le_quotient numeratorPositive denominatorPositive
        (by rw [leastExponent]; omega)
    have above :
        (2 : ℚ) ^ 53 * 2 ^ (971 : Int) ≤ scaled * 2 ^ place := by
      calc
        (2 : ℚ) ^ 53 * 2 ^ (971 : Int) = (2 ^ 52 : Nat) * 2 ^ (972 : Int) := by
          rw [show (972 : Int) = 971 + 1 from rfl, zpow_add_one₀ (by norm_num)]
          generalize (2 : ℚ) ^ (971 : Int) = unit
          push_cast
          ring
        _ ≤ scaled * 2 ^ place := by
          refine mul_le_mul large ?_ (two_zpow_pos _).le
            ((Nat.cast_nonneg _).trans large)
          exact zpow_le_zpow_right₀ (by norm_num) beyond
    have positive := two_zpow_pos 971
    have contradicted := above.trans bounded
    generalize (2 : ℚ) ^ (971 : Int) = unit at contradicted positive
    linarith only [contradicted, positive]

/-! ## Doubles as numbers -/

omit numeratorPositive denominatorPositive

/-- The factor that a sign stands for. -/
def signFactor (negative : Bool) : ℚ :=
  if negative then -1 else 1

/-- The number that a finite double means; zero for the special values. -/
def Value.number : Value → ℚ
  | .finite negative significand exponent =>
      signFactor negative * (significand * 2 ^ exponent)
  | _ => 0

theorem abs_signFactor
    (negative : Bool) :
    |signFactor negative| = 1 := by
  cases negative <;> simp [signFactor]

/-- Numbers of one sign are as far apart as their magnitudes. -/
theorem abs_sub_signFactor
    (negative : Bool)
    (first second : ℚ) :
    |signFactor negative * first - signFactor negative * second| =
      |first - second| := by
  rw [← mul_sub, abs_mul, abs_signFactor, one_mul]

/-- The number that a finite magnitude with a sign means. -/
theorem number_withSign
    (negative : Bool)
    {bits : Nat}
    (finite : bits < infinityBits) :
    (decode (withSign negative bits)).number =
      signFactor negative * magnitude bits := by
  rw [decode_withSign negative finite]
  rfl

end Binary64

end PositionFeed
