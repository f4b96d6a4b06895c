import Mathlib.Logic.Function.Iterate
import PositionFeed.Producer.Walk
import PositionFeed.Proofs.Decimal.Arithmetic

namespace PositionFeed

/-!
# The phase of a walk

A walk adds its step to its phase again and again and takes nothing off.  Where
the phase has grown large it swallows small steps: from `2 ^ 1023` on the
doubles are `2 ^ 971` apart, and a step of half of that or less takes no phase
past this point.  A larger step takes every phase further.  There are only so
many finite doubles, so it leaves them after so many positions, and no step
brings the phase back.
-/

/-! ## Steps that are added again and again -/

namespace Binary64

/-- The pattern of the double from which on the last place is the coarsest
one. -/
def turningPoint : Nat := 2046 * 2 ^ 52

theorem halfUnit_eq :
    halfUnit = 2 ^ 970 :=
  zpow_natCast 2 970

theorem magnitude_turningPoint_succ :
    magnitude (turningPoint + 1) =
      magnitude turningPoint + 2 * halfUnit := by
  rw [magnitude_succ, ← coarsest_unit]
  rfl

/-- A small step takes no phase past the turning point. -/
theorem add_inside
    {x step : Float}
    (finite : x.isFinite = true)
    (inside : |(decode x).number| ≤ magnitude turningPoint)
    (stepFinite : step.isFinite = true)
    (small : |(decode step).number| ≤ halfUnit) :
    (x + step).isFinite = true ∧
      |(decode (x + step)).number| ≤ magnitude turningPoint := by
  have isRounded := isRounded_add finite stepFinite
  have sum :
      |(decode x).number + (decode step).number| ≤
        magnitude turningPoint + halfUnit :=
    (abs_add_le _ _).trans (add_le_add inside small)
  have next := magnitude_turningPoint_succ
  have isFinite : (x + step).isFinite = true := by
    have room : magnitude (turningPoint + 1) ≤ largest :=
      magnitude_le (by decide)
    have unit := halfUnit_positive
    rw [isRounded.isFinite_iff, overflow]
    linarith
  obtain ⟨bits, isNearest, isSize⟩ := isRounded.exists_magnitude isFinite
  refine ⟨isFinite, ?_⟩
  rw [isSize]
  -- The sum lies at most half way to the next double, which is the odd one.
  refine magnitude_strictMono.monotone
    (isNearest.le_of_le_halfWay (by decide) (by decide) ?_)
  linarith

/-- Steps in one direction have come as far as a magnitude. -/
structure Reached (negative : Bool) (bits : Nat) (x : Float) : Prop where
  finite :
    x.isFinite = true
  number :
    (decode x).number = signFactor negative * magnitude bits
  inside :
    bits < infinityBits

theorem reached_zero
    (negative : Bool) :
    Reached negative 0 0.0 where
  finite := means_zero.1
  number := by
    rw [means_zero.2, magnitude_zero, mul_zero]
  inside := by
    decide

/-- A large step takes every phase further that stays finite. -/
theorem Reached.add
    {negative : Bool}
    {bits : Nat}
    {x step : Float}
    (reached : Reached negative bits x)
    (stepFinite : step.isFinite = true)
    {size : ℚ}
    (isStep : (decode step).number = signFactor negative * size)
    (large : halfUnit < size)
    (finite : (x + step).isFinite = true) :
    ∃ after, bits < after ∧ Reached negative after (x + step) := by
  have isRounded := isRounded_add reached.finite stepFinite
  rw [reached.number, isStep, ← mul_add] at isRounded
  have positive : 0 < magnitude bits + size := by
    linarith [magnitude_nonneg bits, halfUnit_positive]
  obtain ⟨after, isNearest, shape⟩ := isRounded.exists_bits positive
  have isNearestTo : IsNearestTo negative (magnitude bits + size) (x + step) :=
    ⟨after, isNearest, shape⟩
  have inside : after < infinityBits :=
    isNearest.lt_infinityBits_iff.mpr (isNearestTo.isFinite_iff.mp finite)
  refine ⟨after, isNearest.lt_of_halfUnit_lt reached.inside large, finite, ?_,
    inside⟩
  rw [shape, number_withSign negative inside]

theorem exists_signFactor
    (number : ℚ) :
    ∃ negative, number = signFactor negative * |number| := by
  rcases le_total 0 number with nonneg | nonpos
  · exact ⟨false, by simp [signFactor, abs_of_nonneg nonneg]⟩
  · exact ⟨true, by simp [signFactor, abs_of_nonpos nonpos]⟩

end Binary64

open Binary64

/-! ## Walks -/

/-- The step of a trajectory is small enough to be added any number of times. -/
def Trajectory.IsSteady (trajectory : Trajectory) : Prop :=
  |(Binary64.decode trajectory.angularStep).number| ≤ 2 ^ 970

theorem Trajectory.isSteady_iff
    {trajectory : Trajectory} :
    trajectory.IsSteady ↔
      |(Binary64.decode trajectory.angularStep).number| ≤ halfUnit := by
  rw [IsSteady, halfUnit_eq]

/-- What is asked of a walk. -/
inductive WalkMove where
  /-- The next position, at this time of the day. -/
  | next (timestamp : Int64)
  /-- To go back to the beginning. -/
  | reset

namespace Walk

def move (walk : Walk) : WalkMove → Walk
  | .next _ => walk.advance
  | .reset => walk.reset

/-- Makes moves one after the other. -/
def moves (walk : Walk) (list : List WalkMove) : Walk :=
  list.foldl move walk

@[simp] theorem trajectory_moves
    (walk : Walk)
    (list : List WalkMove) :
    (walk.moves list).trajectory = walk.trajectory := by
  induction list generalizing walk with
  | nil =>
      rfl
  | cons next rest inductionHypothesis =>
      refine (inductionHypothesis (walk.move next)).trans ?_
      cases next <;> rfl

/-- The phase of a walk has not passed the turning point. -/
structure Inside (trajectory : Trajectory) (walk : Walk) : Prop where
  same :
    walk.trajectory = trajectory
  finite :
    walk.phase.isFinite = true
  inside :
    |(Binary64.decode walk.phase).number| ≤ magnitude turningPoint

theorem inside_begin
    (trajectory : Trajectory) :
    (begin trajectory).Inside trajectory where
  same := rfl
  finite := means_zero.1
  inside := by
    rw [begin, means_zero.2, abs_zero]
    exact magnitude_nonneg _

section Steady

variable
  {trajectory : Trajectory}
  (stepFinite : trajectory.angularStep.isFinite = true)
  (steady : trajectory.IsSteady)
  {walk : Walk}
  (inside : walk.Inside trajectory)

include stepFinite steady inside

theorem Inside.move
    (next : WalkMove) :
    (walk.move next).Inside trajectory := by
  cases next with
  | next timestamp =>
      have small := Trajectory.isSteady_iff.mp steady
      obtain ⟨finite, bounded⟩ :=
        add_inside inside.finite inside.inside stepFinite small
      rw [← inside.same] at finite bounded
      exact ⟨inside.same, finite, bounded⟩
  | reset =>
      have atZero := inside_begin trajectory
      exact ⟨inside.same, atZero.finite, atZero.inside⟩

/-- A steady walk stays inside whatever is asked of it. -/
theorem Inside.moves
    (list : List WalkMove) :
    (walk.moves list).Inside trajectory := by
  induction list generalizing walk with
  | nil =>
      exact inside
  | cons next rest inductionHypothesis =>
      exact inductionHypothesis (inside.move stepFinite steady next)

end Steady

/-! ## Walks that are lost -/

@[simp] theorem trajectory_iterate_advance
    (trajectory : Trajectory)
    (count : Nat) :
    (advance^[count] (begin trajectory)).trajectory = trajectory := by
  induction count with
  | zero =>
      rfl
  | succ count inductionHypothesis =>
      rw [Function.iterate_succ_apply']
      exact inductionHypothesis

theorem phase_iterate_succ
    (trajectory : Trajectory)
    (count : Nat) :
    (advance^[count + 1] (begin trajectory)).phase =
      (advance^[count] (begin trajectory)).phase +
        trajectory.angularStep := by
  rw [Function.iterate_succ_apply', advance, trajectory_iterate_advance]

/-- A phase that is lost stays lost. -/
theorem isFinite_iterate_of_le
    {trajectory : Trajectory}
    {count later : Nat}
    (notBefore : count ≤ later)
    (lost : (advance^[count] (begin trajectory)).phase.isFinite = false) :
    (advance^[later] (begin trajectory)).phase.isFinite = false := by
  induction later, notBefore using Nat.le_induction with
  | base =>
      exact lost
  | succ later _ inductionHypothesis =>
      rw [phase_iterate_succ]
      exact isFinite_add_of_special inductionHypothesis _

theorem moves_replicate_next
    (walk : Walk)
    (count : Nat) :
    walk.moves (.replicate count (.next 0)) = advance^[count] walk := by
  induction count generalizing walk with
  | zero =>
      rfl
  | succ count inductionHypothesis =>
      rw [List.replicate_succ, Function.iterate_succ_apply]
      exact inductionHypothesis walk.advance

section Unsteady

variable
  {trajectory : Trajectory}
  (stepFinite : trajectory.angularStep.isFinite = true)

include stepFinite

/-- As long as the phase is finite it passes one double or more with every large
step. -/
theorem exists_reached
    {negative : Bool}
    {size : ℚ}
    (isStep :
      (Binary64.decode trajectory.angularStep).number =
        signFactor negative * size)
    (large : halfUnit < size)
    (count : Nat)
    (finite : (advance^[count] (begin trajectory)).phase.isFinite = true) :
    ∃ bits, count ≤ bits ∧
      Reached negative bits (advance^[count] (begin trajectory)).phase := by
  induction count with
  | zero =>
      exact ⟨0, Nat.le_refl 0, reached_zero negative⟩
  | succ count inductionHypothesis =>
      have before :
          (advance^[count] (begin trajectory)).phase.isFinite = true := by
        by_contra lost
        have stillLost :=
          isFinite_iterate_of_le (Nat.le_succ count)
            (Bool.eq_false_iff.mpr lost)
        rw [stillLost] at finite
        cases finite
      obtain ⟨bits, atLeast, reached⟩ := inductionHypothesis before
      rw [phase_iterate_succ] at finite ⊢
      obtain ⟨after, further, reachedAfter⟩ :=
        reached.add stepFinite isStep large finite
      exact ⟨after, Nat.lt_of_le_of_lt atLeast further, reachedAfter⟩

/-- A walk that is not steady loses its phase after so many positions. -/
theorem exists_lost
    (unsteady : ¬ trajectory.IsSteady) :
    ∃ count, ∀ later, count ≤ later →
      (advance^[later] (begin trajectory)).phase.isFinite = false := by
  rw [Trajectory.isSteady_iff, not_le] at unsteady
  obtain ⟨negative, isStep⟩ :=
    exists_signFactor (Binary64.decode trajectory.angularStep).number
  refine ⟨infinityBits, fun later notBefore => ?_⟩
  refine isFinite_iterate_of_le notBefore (Bool.eq_false_iff.mpr ?_)
  intro finite
  obtain ⟨bits, atLeast, reached⟩ :=
    exists_reached stepFinite isStep unsteady infinityBits finite
  exact absurd reached.inside (Nat.not_lt_of_le atLeast)

/-- Exactly the steady walks keep a finite phase. -/
theorem forall_isFinite_iff :
    (∀ list, ((begin trajectory).moves list).phase.isFinite = true) ↔
      trajectory.IsSteady := by
  constructor
  · intro finite
    by_contra unsteady
    obtain ⟨count, lost⟩ := exists_lost stepFinite unsteady
    have notLost := finite (.replicate count (.next 0))
    rw [moves_replicate_next, lost count (Nat.le_refl count)] at notLost
    cases notLost
  · intro steady list
    exact ((inside_begin trajectory).moves stepFinite steady list).finite

end Unsteady

end Walk

end PositionFeed
