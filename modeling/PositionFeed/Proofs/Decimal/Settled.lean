import PositionFeed.Proofs.Decimal.Fixed

namespace PositionFeed

/-!
# Counted places written again

A double that was written with counted places and read again is written as the
same text.  The double that is read is no farther from the text than the one
that was written.  So it is rounded to the same units, and where it lies half
way between two of them, so did the other one: the units are even, and the
second rounding chooses them again.
-/

namespace Binary64

/-- A whole number is nearest to a number, and even if it is half way from the
next one. -/
structure RoundsTo (x : ℚ) (whole : Nat) : Prop where
  half :
    |(whole : ℚ) - x| ≤ 1 / 2
  even :
    |(whole : ℚ) - x| = 1 / 2 → whole % 2 = 0

theorem roundDiv_of_tie
    {numerator denominator : Nat}
    (tie : 2 * (numerator % denominator) = denominator) :
    roundDiv numerator denominator % 2 = 0 := by
  simp only [roundDiv, tie, lt_irrefl, ↓reduceIte]
  split
  · next even =>
      exact even
  · next odd =>
      omega

/-- Rounding moves a quotient by one half only in a tie. -/
theorem tie_of_roundDiv
    {numerator denominator : Nat}
    (positive : 0 < denominator)
    (halfWay :
      |(roundDiv numerator denominator : ℚ) - numerator / denominator| =
        1 / 2) :
    2 * (numerator % denominator) = denominator := by
  have positive' : (0 : ℚ) < denominator := by
    exact_mod_cast positive
  have whole :
      (numerator : ℚ) =
        denominator * (numerator / denominator : Nat) +
          (numerator % denominator : Nat) := by
    exact_mod_cast (Nat.div_add_mod numerator denominator).symm
  have restNonneg : (0 : ℚ) ≤ (numerator % denominator : Nat) := by
    positivity
  have restBound :
      ((numerator % denominator : Nat) : ℚ) < denominator := by
    exact_mod_cast Nat.mod_lt numerator positive
  rw [sub_div' positive'.ne', abs_div, abs_of_pos positive',
    div_eq_iff positive'.ne'] at halfWay
  suffices exactly :
      (2 * (numerator % denominator : Nat) : ℚ) = denominator by
    exact_mod_cast exactly
  rcases roundDiv_cases numerator denominator with
    ⟨rounded, _⟩ | ⟨rounded, _⟩
  · rw [rounded, abs_of_nonpos (by linarith)] at halfWay
    linarith
  · rw [rounded, abs_of_nonneg (by push_cast; linarith)] at halfWay
    push_cast at halfWay
    linarith

theorem roundsTo_roundDiv
    (numerator : Nat)
    {denominator : Nat}
    (positive : 0 < denominator) :
    RoundsTo (numerator / denominator) (roundDiv numerator denominator) where
  half := roundDiv_half numerator positive
  even halfWay := roundDiv_of_tie (tie_of_roundDiv positive halfWay)

namespace RoundsTo

variable
  {x y : ℚ}
  {whole first second : Nat}

theorem le
    (isFirst : RoundsTo x first)
    (isSecond : RoundsTo x second) :
    second ≤ first := by
  by_contra above
  have apart : (first : ℚ) + 1 ≤ second := by
    exact_mod_cast Nat.lt_of_not_le above
  obtain ⟨low, _⟩ := abs_le.mp isFirst.half
  obtain ⟨_, high⟩ := abs_le.mp isSecond.half
  -- The two are neighbours, and the number lies half way between them.
  have firstEven : first % 2 = 0 := by
    apply isFirst.even
    rw [abs_of_nonpos (by linarith)]
    linarith
  have secondEven : second % 2 = 0 := by
    apply isSecond.even
    rw [abs_of_nonneg (by linarith)]
    linarith
  have neighbours : second ≤ first + 1 := by
    have : (second : ℚ) ≤ first + 1 := by
      linarith
    exact_mod_cast this
  omega

/-- No two whole numbers are what a number is rounded to. -/
theorem unique
    (isFirst : RoundsTo x first)
    (isSecond : RoundsTo x second) :
    first = second :=
  Nat.le_antisymm (isSecond.le isFirst) (isFirst.le isSecond)

/-- A number that is no farther away is rounded to the same whole number. -/
theorem of_noFarther
    (rounds : RoundsTo x whole)
    (noFarther : |(whole : ℚ) - y| ≤ |(whole : ℚ) - x|) :
    RoundsTo y whole where
  half := noFarther.trans rounds.half
  even := by
    intro halfWay
    rw [halfWay] at noFarther
    exact rounds.even (le_antisymm rounds.half noFarther)

end RoundsTo

end Binary64

namespace Rounded

open Binary64

/-- The units that a magnitude is written as are what it is rounded to. -/
theorem roundsTo_unitsOf
    (places bits : Nat) :
    RoundsTo (magnitude bits * 10 ^ places)
      (unitsOf places (significandOf bits) (exponentOf bits)) := by
  have rounds :=
    roundsTo_roundDiv
      (tenfold (significandOf bits) (exponentOf bits) places).1
      (tenfold_positive (significandOf bits) (exponentOf bits) places)
  rw [tenfold_eq, zpow_natCast] at rounds
  exact rounds

/-- A magnitude that is no farther from what another one is written as is
written as the same units. -/
theorem unitsOf_eq_of_noFarther
    {places bits after : Nat}
    (noFarther :
      |magnitude after - written places bits| ≤
        |magnitude bits - written places bits|) :
    unitsOf places (significandOf after) (exponentOf after) =
      unitsOf places (significandOf bits) (exponentOf bits) := by
  have tens : (0 : ℚ) < 10 ^ places := by
    positivity
  have inUnits (other : Nat) :
      |(unitsOf places (significandOf bits) (exponentOf bits) : ℚ) -
          magnitude other * 10 ^ places| =
        |magnitude other - written places bits| * 10 ^ places := by
    rw [abs_sub_comm, ← abs_of_pos tens, ← abs_mul, abs_of_pos tens, sub_mul,
      written, div_mul_cancel₀ _ tens.ne']
  have rounds : RoundsTo (magnitude after * 10 ^ places)
      (unitsOf places (significandOf bits) (exponentOf bits)) := by
    refine (roundsTo_unitsOf places bits).of_noFarther ?_
    rw [inUnits, inUnits]
    exact mul_le_mul_of_nonneg_right noFarther tens.le
  exact (roundsTo_unitsOf places after).unique rounds

/-- What a double becomes when it is written and read again is written as the
same text. -/
theorem fixed_reread
    (places : Nat)
    (x : Float) :
    fixed places (reread places x) = fixed places x := by
  cases shape : decode x with
  | nan =>
      have same : decode nan = .nan := by
        decide
      simp only [fixed, reread, shape, same]
  | infinite negative =>
      have same : decode (infinity negative) = .infinite negative := by
        cases negative <;> decide
      simp only [fixed, reread, shape, same]
  | finite negative significand exponent =>
      obtain ⟨bits, small, rfl, rfl, rfl⟩ := exists_bits_of_decode shape
      obtain ⟨after, afterSmall, becomes, noFarther⟩ :=
        exists_bits_reread places negative small
      have units := unitsOf_eq_of_noFarther noFarther
      simp only [unitsOf] at units
      rw [becomes]
      simp only [fixed, shape, decode_withSign negative afterSmall, units]

end Rounded

end PositionFeed
