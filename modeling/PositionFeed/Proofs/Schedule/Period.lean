import PositionFeed.Proofs.Decimal.Order
import PositionFeed.Time.Span

namespace PositionFeed

/-!
# Which rates have a period

The period of a rate is its reciprocal as a double, rounded to nanoseconds.  It
can be held unless it has too many seconds, and it is nothing unless it is
longer than half a nanosecond, because one half is rounded to the even
neighbour.
-/

namespace Binary64

/-- Every number that is not negative is rounded to a whole number. -/
theorem exists_roundsTo
    {x : ℚ}
    (nonneg : 0 ≤ x) :
    ∃ whole, RoundsTo x whole := by
  have rounds := roundsTo_roundDiv x.num.toNat x.den_pos
  rw [num_div_den_of_nonneg nonneg] at rounds
  exact ⟨_, rounds⟩

/-- Only what is more than one half is rounded to more than nothing. -/
theorem RoundsTo.ne_zero_iff
    {x : ℚ}
    {whole : Nat}
    (rounds : RoundsTo x whole) :
    whole ≠ 0 ↔ 1 / 2 < x := by
  have half := abs_le.mp rounds.half
  constructor
  · intro something
    have one : (1 : ℚ) ≤ whole :=
      Nat.one_le_cast.mpr (Nat.one_le_iff_ne_zero.mpr something)
    by_contra notAbove
    -- The number is one half, and then one would have to be even.
    have isHalf : x = 1 / 2 := by
      linarith
    have isOne : (whole : ℚ) = 1 := by
      linarith
    have even : whole % 2 = 0 := by
      apply rounds.even
      rw [isOne, isHalf]
      norm_num
    rw [Nat.cast_eq_one.mp isOne] at even
    cases even
  · rintro above rfl
    rw [Nat.cast_zero] at half
    linarith

/-- A finite value is negative exactly if it has a minus sign and is not zero. -/
theorem Value.number_neg_iff
    {negative : Bool}
    {significand : Nat}
    {exponent : Int} :
    (Value.finite negative significand exponent).number < 0 ↔
      negative = true ∧ 0 < significand := by
  have power : (0 : ℚ) < 2 ^ exponent := two_zpow_pos exponent
  cases negative with
  | false =>
      have nonneg : (0 : ℚ) ≤ significand * 2 ^ exponent := by
        positivity
      simpa [Value.number, signFactor] using nonneg
  | true =>
      simp [Value.number, signFactor, power]

theorem Value.number_of_nonneg
    {negative : Bool}
    {significand : Nat}
    {exponent : Int}
    (nonneg : ¬ (negative = true ∧ 0 < significand)) :
    (Value.finite negative significand exponent).number =
      significand * 2 ^ exponent := by
  cases negative with
  | false =>
      simp [Value.number, signFactor]
  | true =>
      have nothing : significand = 0 := by
        simpa using nonneg
      simp [Value.number, nothing]

/-- A significand with a power of two as a quotient of natural numbers. -/
theorem scaleDown_one
    (significand : Nat)
    (exponent : Int) :
    ((scaleDown significand 1 (-exponent)).1 : ℚ) /
        (scaleDown significand 1 (-exponent)).2 =
      significand * 2 ^ exponent := by
  rw [scaleDown_eq]
  simp

end Binary64

open Binary64

namespace Span

theorem secondBound_le_iff
    (numerator : Nat)
    {denominator : Nat}
    (positive : 0 < denominator) :
    secondBound * denominator ≤ numerator ↔
      (secondBound : ℚ) ≤ numerator / denominator := by
  rw [le_div_iff₀ (Nat.cast_pos.mpr positive)]
  exact_mod_cast Iff.rfl

theorem roundsTo_nanos
    (numerator : Nat)
    {denominator : Nat}
    (positive : 0 < denominator) :
    RoundsTo ((numerator : ℚ) / denominator * perSecond)
      (roundDiv (numerator * perSecond) denominator) := by
  rw [div_mul_eq_mul_div, ← Nat.cast_mul]
  exact roundsTo_roundDiv _ positive

/-- A span is made of every number of seconds that is not negative and not
beyond the longest span, and of no other. -/
theorem nearest?_eq_some_iff
    {seconds : Float}
    {span : Span} :
    nearest? seconds = some span ↔
      seconds.isFinite = true ∧
        0 ≤ (decode seconds).number ∧
        (decode seconds).number < secondBound ∧
        RoundsTo ((decode seconds).number * perSecond) span.nanos := by
  rw [isFinite_eq, nearest?]
  cases decode seconds with
  | nan =>
      simp [Value.isFinite]
  | infinite negative =>
      simp [Value.isFinite]
  | finite negative significand exponent =>
      simp only [Value.isFinite, true_and]
      have positive := scaleDown_positive significand Nat.one_pos (-exponent)
      have scaled := scaleDown_one significand exponent
      revert positive scaled
      generalize scaleDown significand 1 (-exponent) = value
      obtain ⟨numerator, denominator⟩ := value
      intro positive scaled
      dsimp only at positive scaled ⊢
      by_cases below : negative = true ∧ 0 < significand
      · rw [if_pos below]
        simp [not_le.mpr (Value.number_neg_iff.mpr below)]
      · have nonneg :
            0 ≤ (Value.finite negative significand exponent).number :=
          not_lt.mp (mt Value.number_neg_iff.mp below)
        have bounded := secondBound_le_iff numerator positive
        have rounds := roundsTo_nanos numerator positive
        rw [if_neg below]
        rw [Value.number_of_nonneg below, ← scaled] at nonneg ⊢
        by_cases long : secondBound * denominator ≤ numerator
        · rw [if_pos long]
          simp [not_lt.mpr (bounded.mp long)]
        · rw [if_neg long]
          have short := not_le.mp (mt bounded.mpr long)
          simp only [nonneg, short, true_and, Option.some.injEq]
          constructor
          · rintro rfl
            exact rounds
          · intro alsoRounds
            cases span
            rw [rounds.unique alsoRounds]

end Span

/-- A rate that can be kept: a positive number whose reciprocal is more than
half a nanosecond and less than what a span can hold. -/
structure KeptRate (rate : Float) : Prop where
  finite :
    rate.isFinite = true
  positive :
    0 < (decode rate).number
  periodFinite :
    (1.0 / rate).isFinite = true
  periodSome :
    1 / 2 < (decode (1.0 / rate)).number * Span.perSecond
  periodHeld :
    (decode (1.0 / rate)).number < Span.secondBound

/-- Whether a rate is positive is asked of the number that it means. -/
theorem isPositiveRate_eq_true_iff
    {rate : Float} :
    isPositiveRate rate = true ↔
      rate.isFinite = true ∧ 0 < (decode rate).number := by
  unfold isPositiveRate
  rw [Bool.and_eq_true_iff]
  apply and_congr_right
  intro finite
  obtain ⟨zeroFinite, zero⟩ := means_zero
  rw [Bool.not_eq_true', decide_eq_false_iff_not, le_iff finite zeroFinite,
    zero, not_le]

/-- A rate can be kept exactly if it is positive and has a period that is not
nothing. -/
theorem keptRate_iff
    {rate : Float} :
    KeptRate rate ↔
      isPositiveRate rate = true ∧
        ∃ period, Span.ofRate? rate = some period ∧ period.nanos ≠ 0 := by
  rw [isPositiveRate_eq_true_iff]
  constructor
  · intro kept
    have nonneg : 0 ≤ (decode (1.0 / rate)).number := by
      have some := kept.periodSome
      rw [Span.perSecond] at some
      norm_num at some
      linarith
    have perSecondNonneg : (0 : ℚ) ≤ Span.perSecond := by
      positivity
    obtain ⟨nanos, rounds⟩ :=
      exists_roundsTo (mul_nonneg nonneg perSecondNonneg)
    refine ⟨⟨kept.finite, kept.positive⟩, ⟨nanos⟩, ?_,
      rounds.ne_zero_iff.mpr kept.periodSome⟩
    exact Span.nearest?_eq_some_iff.mpr
      ⟨kept.periodFinite, nonneg, kept.periodHeld, rounds⟩
  · rintro ⟨⟨finite, positive⟩, period, made, something⟩
    obtain ⟨periodFinite, _, held, rounds⟩ := Span.nearest?_eq_some_iff.mp made
    exact ⟨finite, positive, periodFinite, rounds.ne_zero_iff.mp something,
      held⟩

end PositionFeed
