import PositionFeed.Decimal.Shortest
import PositionFeed.Proofs.Decimal.Settled

namespace PositionFeed

/-!
# The shortest decimal reads back

The interval around a double holds only numbers whose nearest double this one
is.  The search for a short decimal stops at a point of the interval: the last
grid that it tries is finer than half of the interval, so at least that one has
a point inside.  Whatever digits spell this point, and with however many zeros
at the end, they are read as the double again.
-/

namespace Shortest

open Binary64

/-- A number lies in the interval of a double. -/
def Interval.Has (range : Interval) (x : ℚ) : Prop :=
  if range.closed then
    range.low * 2 ^ range.exponent ≤ x ∧ x ≤ range.high * 2 ^ range.exponent
  else
    range.low * 2 ^ range.exponent < x ∧ x < range.high * 2 ^ range.exponent

theorem Interval.Has.between
    {range : Interval}
    {x : ℚ}
    (has : range.Has x) :
    range.low * 2 ^ range.exponent ≤ x ∧
      x ≤ range.high * 2 ^ range.exponent := by
  unfold Has at has
  split at has
  · exact has
  · exact ⟨has.1.le, has.2.le⟩

theorem Interval.Has.of_strict
    {range : Interval}
    {x : ℚ}
    (above : range.low * 2 ^ range.exponent < x)
    (below : x < range.high * 2 ^ range.exponent) :
    range.Has x := by
  unfold Has
  split
  · exact ⟨above.le, below.le⟩
  · exact ⟨above, below⟩

theorem ten_zpow_pos (exponent : Int) : (0 : ℚ) < 10 ^ exponent :=
  zpow_pos (by norm_num) exponent

section Grid

variable
  (quarters point : Nat)
  (exponent grid : Int)

theorem overGrid_eq :
    ((overGrid quarters exponent grid).1 : ℚ) /
        (overGrid quarters exponent grid).2 =
      quarters * 2 ^ exponent / 10 ^ grid := by
  rw [overGrid, Rounded.tenfold_eq, zpow_neg, div_eq_mul_inv]

theorem overGrid_positive :
    0 < (overGrid quarters exponent grid).2 :=
  Rounded.tenfold_positive quarters exponent (-grid)

theorem overGrid_le_iff :
    (overGrid quarters exponent grid).1 ≤
        point * (overGrid quarters exponent grid).2 ↔
      (quarters : ℚ) * 2 ^ exponent ≤ point * 10 ^ grid := by
  have positive : (0 : ℚ) < (overGrid quarters exponent grid).2 := by
    exact_mod_cast overGrid_positive quarters exponent grid
  rw [← div_le_iff₀ (ten_zpow_pos grid), ← overGrid_eq, div_le_iff₀ positive]
  exact_mod_cast Iff.rfl

theorem le_overGrid_iff :
    point * (overGrid quarters exponent grid).2 ≤
        (overGrid quarters exponent grid).1 ↔
      point * 10 ^ grid ≤ (quarters : ℚ) * 2 ^ exponent := by
  have positive : (0 : ℚ) < (overGrid quarters exponent grid).2 := by
    exact_mod_cast overGrid_positive quarters exponent grid
  rw [← le_div_iff₀ (ten_zpow_pos grid), ← overGrid_eq, le_div_iff₀ positive]
  exact_mod_cast Iff.rfl

end Grid

/-- The points that an interval contains are those that lie in it. -/
theorem Interval.contains_iff
    (range : Interval)
    (grid : Int)
    (point : Nat) :
    range.contains grid point = true ↔ range.Has (point * 10 ^ grid) := by
  unfold contains Has
  cases range.closed with
  | true =>
      simp [overGrid_le_iff, le_overGrid_iff]
  | false =>
      simp only [Bool.false_eq_true, if_false, Bool.and_eq_true,
        decide_eq_true_eq, ← not_le, overGrid_le_iff, le_overGrid_iff]

/-! ## What is read as one double -/

/-- A finite magnitude is its last place and so many units of it. -/
theorem bits_eq
    (bits : Nat) :
    bits = (exponentOf bits - leastExponent).toNat * 2 ^ 52 +
      significandOf bits := by
  unfold exponentOf significandOf
  split <;> omega

/-- Unless its last place is the least one, a magnitude fills all its bits. -/
theorem le_significandOf
    {bits : Nat}
    (notLeast : exponentOf bits ≠ leastExponent) :
    2 ^ 52 ≤ significandOf bits := by
  unfold exponentOf at notLeast
  unfold significandOf
  split <;> omega

theorem significandOf_positive
    {bits : Nat}
    (positive : 0 < bits) :
    0 < significandOf bits := by
  unfold significandOf
  split <;> omega

/-- The last place of the nearest double, told by the size of a quotient. -/
theorem placeOf_eq
    {numerator denominator : Nat}
    (numeratorPositive : 0 < numerator)
    (denominatorPositive : 0 < denominator)
    {place : Int}
    (least : leastExponent ≤ place)
    (below : (numerator : ℚ) / denominator < 2 ^ (53 + place))
    (above :
      place ≠ leastExponent →
        (2 : ℚ) ^ (52 + place) ≤ numerator / denominator) :
    placeOf numerator denominator = place := by
  obtain ⟨low, high⟩ :=
    floorLog2_bounds numeratorPositive denominatorPositive
  have notFiner : floorLog2 numerator denominator < 53 + place :=
    (zpow_lt_zpow_iff_right₀ (by norm_num : (1 : ℚ) < 2)).mp
      (low.trans_lt below)
  simp only [placeOf, fractionBits]
  by_cases isLeast : place = leastExponent
  · omega
  · have notCoarser :
        52 + place < floorLog2 numerator denominator + 1 :=
      (zpow_lt_zpow_iff_right₀ (by norm_num : (1 : ℚ) < 2)).mp
        ((above isLeast).trans_lt high)
    omega

/-- The units of a quotient, told by its place and by what it is rounded to. -/
theorem nearestBits_of_roundsTo
    {numerator denominator : Nat}
    (denominatorPositive : 0 < denominator)
    {place : Int}
    {units : Nat}
    (isPlace : placeOf numerator denominator = place)
    (rounds : RoundsTo ((numerator : ℚ) / denominator / 2 ^ place) units) :
    nearestBits numerator denominator =
      min ((place - leastExponent).toNat * 2 ^ 52 + units) infinityBits := by
  have isRounded :=
    roundsTo_roundDiv
      (scaleDown numerator denominator place).1
      (scaleDown_positive numerator denominatorPositive place)
  rw [scaleDown_eq] at isRounded
  rw [nearestBits_eq, freeBits, Binary64.unitsOf, isPlace, isRounded.unique rounds]

/-- The interval of a magnitude in units of its last place: half a unit on
both sides, and less below a power of two. -/
theorem units_of_has
    {bits : Nat}
    {x : ℚ}
    (has : (interval (significandOf bits) (exponentOf bits)).Has x) :
    |(significandOf bits : ℚ) - x / 2 ^ exponentOf bits| ≤ 1 / 2 ∧
      (|(significandOf bits : ℚ) - x / 2 ^ exponentOf bits| = 1 / 2 →
        significandOf bits % 2 = 0) ∧
      (significandOf bits = 2 ^ 52 ∧ exponentOf bits ≠ leastExponent →
        (significandOf bits : ℚ) - 1 / 4 ≤ x / 2 ^ exponentOf bits) := by
  let range := interval (significandOf bits) (exponentOf bits)
  let units := significandOf bits
  let scaled := x / 2 ^ exponentOf bits
  have positive := two_zpow_pos (exponentOf bits)
  have isScaled : x = scaled * 2 ^ exponentOf bits :=
    (div_mul_cancel₀ _ positive.ne').symm
  have inUnits (quarters : ℚ) :
      quarters * 2 ^ range.exponent =
        quarters / 4 * 2 ^ exponentOf bits := by
    have shape : range.exponent = exponentOf bits - 2 := rfl
    rw [shape, zpow_sub₀ (by norm_num)]
    ring
  have high : ((range.high : Nat) : ℚ) = 4 * units + 2 := by
    simp [range, interval, units]
  have low : 4 * (units : ℚ) - 2 ≤ (range.low : Nat) := by
    have notAbove : 4 * units ≤ range.low + 2 := by
      simp only [range, interval]
      split <;> omega
    have : (4 * units : ℚ) ≤ (range.low : Nat) + 2 := by
      exact_mod_cast notAbove
    linarith
  obtain ⟨above, below⟩ := has.between
  rw [inUnits, isScaled] at above below
  have above := le_of_mul_le_mul_right above positive
  have below := le_of_mul_le_mul_right below positive
  rw [high] at below
  refine ⟨abs_le.mpr ⟨by linarith, by linarith⟩, ?even, ?quarter⟩
  case even =>
    intro halfWay
    by_contra odd
    unfold Interval.Has at has
    rw [if_neg (by simpa [interval] using odd), inUnits, inUnits,
      isScaled] at has
    have above := lt_of_mul_lt_mul_right has.1 positive.le
    have below := lt_of_mul_lt_mul_right has.2 positive.le
    rw [high] at below
    have inside : |(units : ℚ) - scaled| < 1 / 2 :=
      abs_lt.mpr ⟨by linarith, by linarith⟩
    exact inside.ne halfWay
  case quarter =>
    rintro ⟨isPower, notLeast⟩
    have least := leastExponent_le bits
    have closer : range.low = 4 * units - 1 := by
      simp only [range, interval]
      exact if_pos ⟨isPower, by omega⟩
    have : (4 * units : ℚ) ≤ (range.low : Nat) + 1 := by
      exact_mod_cast (by omega : 4 * units ≤ range.low + 1)
    linarith

/-- A number just below a power of two is rounded up to it. -/
theorem nearestBits_below_power
    {numerator denominator bits : Nat}
    (numeratorPositive : 0 < numerator)
    (denominatorPositive : 0 < denominator)
    (finite : bits < infinityBits)
    (isPower : significandOf bits = 2 ^ 52)
    (notLeast : exponentOf bits ≠ leastExponent)
    {scaled : ℚ}
    (quotient : (numerator : ℚ) / denominator = scaled * 2 ^ exponentOf bits)
    (near : (2 : ℚ) ^ 52 - 1 / 4 ≤ scaled)
    (short : scaled < 2 ^ 52) :
    nearestBits numerator denominator = bits := by
  let place := exponentOf bits
  have least : leastExponent ≤ place := leastExponent_le bits
  change (numerator : ℚ) / denominator = scaled * 2 ^ place at quotient
  have finer :
      (numerator : ℚ) / denominator / 2 ^ (place - 1) = 2 * scaled := by
    rw [zpow_sub_one₀ (by norm_num), quotient]
    field_simp
  have inFiner :
      (numerator : ℚ) / denominator = 2 * scaled * 2 ^ (place - 1) := by
    rw [← finer, div_mul_cancel₀ _ (two_zpow_pos _).ne']
  have isPlace : placeOf numerator denominator = place - 1 := by
    refine placeOf_eq numeratorPositive denominatorPositive (by omega) ?_ ?_
    · rw [inFiner, zpow_add₀ (by norm_num)]
      refine mul_lt_mul_of_pos_right ?_ (two_zpow_pos _)
      norm_num
      linarith
    · intro _
      rw [inFiner, zpow_add₀ (by norm_num)]
      refine mul_le_mul_of_nonneg_right ?_ (two_zpow_pos _).le
      norm_num
      linarith
  have rounds :
      RoundsTo ((numerator : ℚ) / denominator / 2 ^ (place - 1))
        (2 ^ 53) := by
    rw [finer]
    refine ⟨abs_le.mpr ⟨?_, ?_⟩, fun _ => by norm_num⟩
    · push_cast
      linarith
    · push_cast
      linarith
  have shape := bits_eq bits
  rw [nearestBits_of_roundsTo denominatorPositive isPlace rounds]
  rw [isPower] at shape
  simp only [place]
  omega

/-- Every number of the interval around a double is nearest to it. -/
theorem nearestBits_of_has
    {numerator denominator bits : Nat}
    (numeratorPositive : 0 < numerator)
    (denominatorPositive : 0 < denominator)
    (finite : bits < infinityBits)
    (has :
      (interval (significandOf bits) (exponentOf bits)).Has
        (numerator / denominator)) :
    nearestBits numerator denominator = bits := by
  let place := exponentOf bits
  let units := significandOf bits
  let scaled : ℚ := numerator / denominator / 2 ^ place
  obtain ⟨half, even, quarter⟩ := units_of_has has
  have whole : (units : ℚ) + 1 ≤ 2 ^ 53 := by
    exact_mod_cast significandOf_lt bits
  have least : leastExponent ≤ place := leastExponent_le bits
  have quotient : (numerator : ℚ) / denominator = scaled * 2 ^ place :=
    (div_mul_cancel₀ _ (two_zpow_pos place).ne').symm
  have inUnits (power : Nat) :
      (2 : ℚ) ^ ((power : Int) + place) = 2 ^ power * 2 ^ place := by
    rw [zpow_add₀ (by norm_num), zpow_natCast]
  obtain ⟨low, high⟩ := abs_le.mp half
  have below : (numerator : ℚ) / denominator < 2 ^ (53 + place) := by
    rw [quotient, show (53 : Int) = (53 : Nat) from rfl, inUnits]
    exact mul_lt_mul_of_pos_right (by linarith) (two_zpow_pos place)
  by_cases fills : place ≠ leastExponent → (2 : ℚ) ^ 52 ≤ scaled
  · have isPlace : placeOf numerator denominator = place := by
      refine placeOf_eq numeratorPositive denominatorPositive least below ?_
      intro notLeast
      rw [quotient, show (52 : Int) = (52 : Nat) from rfl, inUnits]
      exact mul_le_mul_of_nonneg_right (fills notLeast) (two_zpow_pos place).le
    rw [nearestBits_of_roundsTo denominatorPositive isPlace ⟨half, even⟩,
      ← bits_eq]
    exact Nat.min_eq_left (Nat.le_of_lt finite)
  · -- Only a power of two has numbers of a finer last place in its interval.
    push Not at fills
    obtain ⟨notLeast, short⟩ := fills
    have isPower : units = 2 ^ 52 := by
      have notBelow := le_significandOf notLeast
      have notAbove : (units : ℚ) < 2 ^ 52 + 1 := by
        linarith
      have : units < 2 ^ 52 + 1 := by
        exact_mod_cast notAbove
      omega
    have near : (2 : ℚ) ^ 52 - 1 / 4 ≤ scaled := by
      have near : (units : ℚ) - 1 / 4 ≤ scaled := quarter ⟨isPower, notLeast⟩
      rw [isPower] at near
      exact_mod_cast near
    exact nearestBits_below_power numeratorPositive denominatorPositive finite
      isPower notLeast quotient near short

/-! ## The search -/

/-- A point that a grid gives lies in the interval. -/
theorem Interval.contains_of_onGrid?
    {range : Interval}
    {tie : Tie}
    {grid : Int}
    {point : Nat}
    (onGrid : range.onGrid? tie grid = some point) :
    range.contains grid point = true := by
  simp only [onGrid?] at onGrid
  split at onGrid
  · cases onGrid
  · next isBelow _ =>
      cases onGrid
      exact isBelow
  · next _ isAbove =>
      cases onGrid
      exact isAbove
  · next isBelow isAbove =>
      split at onGrid
      · cases onGrid
        exact isBelow
      · split at onGrid
        · cases onGrid
          exact isAbove
        · cases tie with
          | up =>
              cases onGrid
              exact isAbove
          | toEven =>
              cases onGrid
              split
              · exact isBelow
              · exact isAbove

/-- A grid that is finer than the upper half of an interval has a point in
it. -/
theorem Interval.onGrid?_ne_none
    {range : Interval}
    (ordered : range.low < range.centre)
    {grid : Int}
    (fine :
      (10 : ℚ) ^ grid <
        ((range.high : ℚ) - range.centre) * 2 ^ range.exponent)
    (tie : Tie) :
    range.onGrid? tie grid ≠ none := by
  let centre := overGrid range.centre range.exponent grid
  let below := centre.1 / centre.2
  have positive : 0 < centre.2 :=
    overGrid_positive range.centre range.exponent grid
  have tens := ten_zpow_pos grid
  have twos := two_zpow_pos range.exponent
  -- The next point above the centre is at most one step away.
  have reached :
      ((below : Nat) : ℚ) * 10 ^ grid ≤ range.centre * 2 ^ range.exponent := by
    rw [← le_overGrid_iff]
    exact Nat.div_mul_le_self _ _
  have passed :
      (range.centre : ℚ) * 2 ^ range.exponent <
        ((below + 1 : Nat) : ℚ) * 10 ^ grid := by
    rw [← not_le, ← le_overGrid_iff, not_le]
    exact Nat.lt_mul_of_div_lt (Nat.lt_succ_self _) positive
  have above : range.contains grid (below + 1) = true := by
    rw [contains_iff]
    refine .of_strict ?_ ?_
    · refine lt_of_le_of_lt ?_ passed
      exact mul_le_mul_of_nonneg_right (by exact_mod_cast ordered.le) twos.le
    · push_cast
      linarith
  simp only [onGrid?]
  simp only [below, centre] at above
  rw [above]
  cases range.contains grid
      ((overGrid range.centre range.exponent grid).1 /
        (overGrid range.centre range.exponent grid).2) with
  | false =>
      simp
  | true =>
      simp only
      split
      · simp
      · split
        · simp
        · cases tie <;> simp

/-- A search that ends with a grid that is fine enough finds a point of the
interval. -/
theorem Interval.scan_spec
    {range : Interval}
    (ordered : range.low < range.centre)
    (tie : Tie)
    (fuel : Nat)
    {grid : Int}
    (fine :
      (10 : ℚ) ^ (grid - fuel) <
        ((range.high : ℚ) - range.centre) * 2 ^ range.exponent) :
    let found := range.scan tie (fuel + 1) grid
    range.contains found.2 found.1 = true ∧
      grid - fuel ≤ found.2 ∧ found.2 ≤ grid := by
  induction fuel generalizing grid with
  | zero =>
      simp only [Nat.cast_zero, sub_zero] at fine
      simp only [scan]
      cases onGrid : range.onGrid? tie grid with
      | none =>
          exact (onGrid?_ne_none ordered fine tie onGrid).elim
      | some point =>
          refine ⟨contains_of_onGrid? onGrid, ?_, ?_⟩ <;> simp
  | succ fuel inductionHypothesis =>
      unfold scan
      cases onGrid : range.onGrid? tie grid with
      | none =>
          have finer :
              (10 : ℚ) ^ (grid - 1 - fuel) <
                ((range.high : ℚ) - range.centre) * 2 ^ range.exponent := by
            rw [sub_sub, add_comm (1 : Int)]
            exact_mod_cast fine
          obtain ⟨contained, low, high⟩ := inductionHypothesis finer
          refine ⟨contained, ?_, ?_⟩
          · push_cast
            omega
          · exact high.trans (by omega)
      | some point =>
          refine ⟨contains_of_onGrid? onGrid, ?_, ?_⟩
          · push_cast
            omega
          · exact le_rfl

/-- A power of ten that is told by a power of two is not much above it. -/
theorem ten_zpow_le
    {tens twos : Int}
    (told : tens * 100000 ≤ twos * 30103)
    (notAbove : twos ≤ 1100)
    (notBelow : -1100 ≤ twos) :
    (10 : ℚ) ^ tens ≤ 2 ^ (twos + 5) := by
  rcases le_or_gt 0 tens with nonneg | negative
  · -- Three powers of ten are at most ten powers of two.
    have cubes : ((10 : ℚ) ^ tens) ^ 3 ≤ (2 ^ (twos + 5)) ^ 3 := by
      calc
        ((10 : ℚ) ^ tens) ^ 3 = ((10 : ℚ) ^ 3) ^ tens := by
          rw [← zpow_natCast, ← zpow_natCast, ← zpow_mul, ← zpow_mul, mul_comm]
        _ ≤ ((2 : ℚ) ^ 10) ^ tens :=
          zpow_le_zpow_left₀ nonneg (by norm_num) (by norm_num)
        _ = 2 ^ (10 * tens) := by
          rw [zpow_mul]
          norm_num
        _ ≤ 2 ^ ((twos + 5) * 3) :=
          zpow_le_zpow_right₀ (by norm_num) (by omega)
        _ = (2 ^ (twos + 5)) ^ 3 := by
          rw [zpow_mul]
          norm_num
    exact le_of_pow_le_pow_left₀ (by decide) (two_zpow_pos _).le cubes
  · -- Thirteen powers of ten are at least forty-three powers of two.
    have powers : ((10 : ℚ) ^ tens) ^ 13 ≤ (2 ^ (twos + 5)) ^ 13 := by
      calc
        ((10 : ℚ) ^ tens) ^ 13 = ((10 : ℚ) ^ 13) ^ tens := by
          rw [← zpow_natCast, ← zpow_natCast, ← zpow_mul, ← zpow_mul, mul_comm]
        _ = (((10 : ℚ) ^ 13) ^ (-tens))⁻¹ := by
          rw [zpow_neg, inv_inv]
        _ ≤ (((2 : ℚ) ^ 43) ^ (-tens))⁻¹ := by
          refine inv_anti₀ (zpow_pos (by norm_num) _) ?_
          exact zpow_le_zpow_left₀ (by omega) (by norm_num) (by norm_num)
        _ = 2 ^ (43 * tens) := by
          rw [zpow_neg, inv_inv, zpow_mul]
          norm_num
        _ ≤ 2 ^ ((twos + 5) * 13) :=
          zpow_le_zpow_right₀ (by norm_num) (by omega)
        _ = (2 ^ (twos + 5)) ^ 13 := by
          rw [zpow_mul]
          norm_num
    exact le_of_pow_le_pow_left₀ (by decide) (two_zpow_pos _).le powers

/-- The first grid of the search, and the last one. -/
theorem topGrid_spec
    {bits : Nat}
    (positive : 0 < bits)
    (finite : bits < infinityBits) :
      let top := topGrid (significandOf bits) (exponentOf bits)
    top ≤ 400 ∧ -400 ≤ top ∧
      (10 : ℚ) ^ (top - 21) < 2 * 2 ^ (exponentOf bits - 2) := by
  intro top
  have log : (significandOf bits).log2 < 53 :=
    (Nat.log2_lt (Nat.ne_of_gt (significandOf_positive positive))).mpr
      (significandOf_lt bits)
  have least := leastExponent_le bits
  have greatest : exponentOf bits ≤ 971 := by
    rw [infinityBits_eq] at finite
    rw [exponentOf, leastExponent]
    omega
  rw [leastExponent] at least
  let twos : Int := (significandOf bits).log2 + 1 + exponentOf bits
  have isTop : top = (twos * 30103).fdiv 100000 + 1 := rfl
  have tens : (top - 1) * 100000 ≤ twos * 30103 ∧
      twos * 30103 < top * 100000 := by
    rw [isTop, Int.fdiv_eq_ediv_of_nonneg _ (by decide)]
    omega
  have twosBounds : -1073 ≤ twos ∧ twos ≤ 1024 := by
    omega
  refine ⟨by omega, by omega, ?_⟩
  calc
    (10 : ℚ) ^ (top - 21) = 10 ^ (top - 1) * 10 ^ (-20 : Int) := by
      rw [← zpow_add₀ (by norm_num)]
      congr 1
      ring
    _ ≤ 2 ^ (twos + 5) * 10 ^ (-20 : Int) :=
      mul_le_mul_of_nonneg_right
        (ten_zpow_le tens.1 (by omega) (by omega)) (ten_zpow_pos _).le
    _ < 2 ^ (twos + 5) * 2 ^ (-60 : Int) := by
      refine mul_lt_mul_of_pos_left ?_ (two_zpow_pos _)
      norm_num
    _ = 2 ^ (twos - 55) := by
      rw [← zpow_add₀ (by norm_num)]
      congr 1
      ring
    _ ≤ 2 ^ (1 + (exponentOf bits - 2)) :=
      zpow_le_zpow_right₀ (by norm_num) (by omega)
    _ = 2 * 2 ^ (exponentOf bits - 2) := by
      rw [zpow_add₀ (by norm_num), zpow_one]

/-- The shortest decimal of a magnitude lies in its interval. -/
theorem find_spec
    {bits : Nat}
    (positive : 0 < bits)
    (finite : bits < infinityBits)
    (tie : Tie) :
    let found := find tie (significandOf bits) (exponentOf bits)
    (interval (significandOf bits) (exponentOf bits)).Has
        (found.1 * 10 ^ found.2) ∧
      -500 ≤ found.2 ∧ found.2 ≤ 400 := by
  intro found
  let range := interval (significandOf bits) (exponentOf bits)
  obtain ⟨high, low, fine⟩ := topGrid_spec positive finite
  have units := significandOf_positive positive
  have ordered : range.low < range.centre := by
    simp only [range, interval]
    split <;> omega
  have width : ((range.high : Nat) : ℚ) - (range.centre : Nat) = 2 := by
    simp [range, interval]
  obtain ⟨contained, notBelow, notAbove⟩ :=
    Interval.scan_spec ordered tie 21 (by rw [width]; exact_mod_cast fine)
  refine ⟨(Interval.contains_iff _ _ _).mp contained, ?_, ?_⟩
  · exact le_trans (by push_cast; omega) notBelow
  · exact notAbove.trans high

/-! ## Reading -/

/-- A decimal in the interval of a magnitude is read as this magnitude. -/
theorem ofScientific_of_has
    (negative : Bool)
    {bits digits : Nat}
    {exponent : Int}
    (positive : 0 < bits)
    (finite : bits < infinityBits)
    (notBelow : -1000 ≤ exponent)
    (notAbove : exponent ≤ 400)
    (has :
      (interval (significandOf bits) (exponentOf bits)).Has
        (digits * 10 ^ exponent)) :
    FloatLiteral.ofScientific negative digits exponent =
      withSign negative bits := by
  have digitsPositive : 0 < digits := by
    rcases Nat.eq_zero_or_pos digits with zero | notZero
    · have units := significandOf_positive positive
      have low :
          0 < (interval (significandOf bits) (exponentOf bits)).low := by
        simp only [interval]
        split <;> omega
      have above := has.between.1
      rw [zero, Nat.cast_zero, zero_mul] at above
      have : (0 : ℚ) <
          (interval (significandOf bits) (exponentOf bits)).low *
            2 ^ (interval (significandOf bits) (exponentOf bits)).exponent :=
        mul_pos (by exact_mod_cast low) (two_zpow_pos _)
      exact absurd above this.not_ge
    · exact notZero
  have notZero : ¬ digits = 0 := Nat.ne_of_gt digitsPositive
  have notInfinite : ¬ FloatLiteral.decimalReach < exponent := by
    rw [FloatLiteral.decimalReach]
    omega
  have notNothing :
      ¬ exponent + (digits.log2 + 1 : Nat) < -FloatLiteral.decimalReach * 4 := by
    rw [FloatLiteral.decimalReach]
    omega
  unfold FloatLiteral.ofScientific
  rw [if_neg notZero, if_neg notInfinite, if_neg notNothing]
  cases exponent with
  | ofNat power =>
      have tens : 0 < digits * Nat.pow 10 power :=
        Nat.mul_pos digitsPositive (Nat.pow_pos (by decide))
      have quotient :
          ((digits * Nat.pow 10 power : Nat) : ℚ) / (1 : Nat) =
            digits * 10 ^ Int.ofNat power := by
        simp [zpow_natCast]
      rw [← quotient] at has
      simp only [nearest, if_neg (Nat.ne_of_gt tens),
        nearestBits_of_has tens Nat.one_pos finite has]
  | negSucc power =>
      have tens : 0 < Nat.pow 10 (power + 1) := Nat.pow_pos (by decide)
      have quotient :
          (digits : ℚ) / (Nat.pow 10 (power + 1) : Nat) =
            digits * 10 ^ Int.negSucc power := by
        rw [zpow_negSucc, div_eq_mul_inv]
        simp
      rw [← quotient] at has
      simp only [nearest, if_neg notZero,
        nearestBits_of_has digitsPositive tens finite has]

/-- Digits that spell the shortest decimal of a magnitude, with zeros after
them or not, are read as this magnitude. -/
theorem ofScientific_decimal
    (tie : Tie)
    (negative : Bool)
    {bits digits : Nat}
    {exponent : Int}
    (finite : bits < infinityBits)
    (notBelow : -1000 ≤ exponent)
    (notAbove : exponent ≤ 400)
    (same :
      let shortest :=
        decimal tie negative (significandOf bits) (exponentOf bits)
      (digits : ℚ) * 10 ^ exponent =
        shortest.digits * 10 ^ shortest.exponent) :
    FloatLiteral.ofScientific negative digits exponent =
      withSign negative bits := by
  rcases Nat.eq_zero_or_pos bits with zero | positive
  · have isZero : digits = 0 := by
      subst zero
      simp only [decimal, significandOf, Nat.zero_div, if_pos, Nat.cast_zero,
        zero_mul, mul_eq_zero, (ten_zpow_pos exponent).ne', or_false] at same
      exact_mod_cast same
    simp [FloatLiteral.ofScientific, isZero, zero]
  · have notZero : significandOf bits ≠ 0 :=
      Nat.ne_of_gt (significandOf_positive positive)
    simp only [decimal, if_neg notZero] at same
    refine ofScientific_of_has negative positive finite notBelow notAbove ?_
    rw [same]
    exact (find_spec positive finite tie).1

end Shortest

end PositionFeed
