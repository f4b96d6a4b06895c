import Mathlib.Analysis.Complex.Trigonometric
import PositionFeed.Proofs.Blueprint.Verdict
import PositionFeed.Proofs.Pipeline.Accounts
import PositionFeed.Proofs.Producer.Phase

namespace PositionFeed

/-!
# Which walks stay finite

The rules ask of a trajectory that its step is a finite number, and not that the
phase stays one.  What they ask of the centre and of the width is enough: at a
finite phase every position is finite.  So the steps decide.  With a step of at
most `2 ^ 970` no run of a walk and no cache of a pipeline ever has a position
that is not finite.  With any larger step that the rules allow the phase is lost
after so many positions, and every position after that with it.
-/

/-! ## Numbers -/

namespace Binary64

theorem Between.abs_number_le
    {bound : ℚ}
    {x : Float}
    (between : Between (-bound) bound x) :
    |(decode x).number| ≤ bound :=
  abs_le.mpr ⟨between.least_le, between.le_greatest⟩

/-- A product with a number between minus one and one is finite and not
larger. -/
theorem mul_of_between
    {x y : Float}
    (finite : x.isFinite = true)
    (between : Between (-1) 1 y) :
    (x * y).isFinite = true ∧
      |(decode (x * y)).number| ≤ |(decode x).number| := by
  have isRounded := isRounded_mul finite between.finite
  have notLarger :
      |(decode x).number * (decode y).number| ≤ |(decode x).number| := by
    rw [abs_mul]
    exact mul_le_of_le_one_right (abs_nonneg _) between.abs_number_le
  obtain ⟨negative, bits, small, shape⟩ := exists_withSign finite
  have size : |(decode x).number| = magnitude bits := by
    rw [shape, abs_number_withSign negative small]
  -- The size of `x` is a magnitude itself, and rounding goes past none.
  rw [size] at notLarger ⊢
  exact isRounded.abs_le small notLarger

theorem Between.lt_halfUnit
    {bound : ℚ}
    {x : Float}
    (between : Between (-bound) bound x)
    (few : bound ≤ 180) :
    |(decode x).number| < halfUnit := by
  have far : (180 : ℚ) < halfUnit := by
    rw [halfUnit_eq]
    calc
      (180 : ℚ) < 2 ^ 8 := by norm_num
      _ ≤ 2 ^ 970 := pow_le_pow_right₀ (by norm_num) (by norm_num)
  calc
    |(decode x).number| ≤ bound := between.abs_number_le
    _ ≤ 180 := few
    _ < halfUnit := far

/-! ### Functions of real numbers -/

theorem magnitude_one :
    magnitude (1023 * 2 ^ 52) = 1 := by
  norm_num [magnitude, significandOf, exponentOf, leastExponent]

/-- The double nearest to a real number that is cut off after so many binary
places. -/
noncomputable def cutOff (places : Nat) (x : ℝ) : Float :=
  let units := ⌊x * 2 ^ places⌋
  nearest (decide (units < 0)) units.natAbs (2 ^ places)

theorem natAbs_floor_le
    (places : Nat)
    {x : ℝ}
    (short : |x| ≤ 1) :
    ⌊x * 2 ^ places⌋.natAbs ≤ 2 ^ places := by
  obtain ⟨least, greatest⟩ := abs_le.mp short
  have positive : (0 : ℝ) < 2 ^ places := by
    positivity
  have above : -(2 ^ places : Nat) ≤ ⌊x * 2 ^ places⌋ := by
    rw [Int.le_floor]
    push_cast
    nlinarith
  have below : ⌊x * 2 ^ places⌋ ≤ (2 ^ places : Nat) := by
    rw [Int.floor_le_iff]
    push_cast
    nlinarith
  omega

theorem between_cutOff
    (places : Nat)
    {x : ℝ}
    (short : |x| ≤ 1) :
    Between (-1) 1 (cutOff places x) := by
  have few := natAbs_floor_le places short
  unfold cutOff
  generalize ⌊x * 2 ^ places⌋ = units at few ⊢
  have isRounded :=
    isRounded_signFactor (by positivity)
      (isNearestTo_nearest (decide (units < 0)) units.natAbs
        (Nat.two_pow_pos places))
  have size :
      |signFactor (decide (units < 0)) *
        (units.natAbs / (2 ^ places : Nat) : ℚ)| ≤
          magnitude (1023 * 2 ^ 52) := by
    rw [abs_signFactor_mul _ (by positivity), magnitude_one,
      div_le_one (by positivity)]
    exact_mod_cast few
  -- One is a double, so no rounding goes past it either.
  obtain ⟨finite, bounded⟩ := isRounded.abs_le (by decide) size
  rw [magnitude_one] at bounded
  exact ⟨finite, (abs_le.mp bounded).1, (abs_le.mp bounded).2⟩

/-- A function of real numbers as a function of doubles.  No finite double has
more than 1100 binary places. -/
noncomputable def onNumbers (function : ℝ → ℝ) (x : Float) : Float :=
  if x.isFinite then cutOff 1100 (function (decode x).number) else nan

theorem between_onNumbers
    {function : ℝ → ℝ}
    (short : ∀ number, |function number| ≤ 1)
    {x : Float}
    (finite : x.isFinite = true) :
    Between (-1) 1 (onNumbers function x) := by
  rw [onNumbers, if_pos finite]
  exact between_cutOff 1100 (short _)

end Binary64

open Binary64

/-! ## Waves -/

/-- Sine and cosine of every finite angle lie between minus one and one. -/
structure Wave.Swings (wave : Wave) : Prop where
  sine :
    ∀ angle, angle.isFinite = true → Between (-1) 1 (wave.sine angle)
  cosine :
    ∀ angle, angle.isFinite = true → Between (-1) 1 (wave.cosine angle)

/-- An angle that is not finite has no sine. -/
def Wave.IsLostBeyond (wave : Wave) : Prop :=
  ∀ angle, angle.isFinite = false → wave.sine angle = nan

/-- The sine and the cosine of the number that an angle means. -/
noncomputable def Wave.trigonometric : Wave :=
  ⟨onNumbers Real.sin, onNumbers Real.cos⟩

theorem Wave.swings_trigonometric :
    trigonometric.Swings where
  sine _ finite := between_onNumbers Real.abs_sin_le_one finite
  cosine _ finite := between_onNumbers Real.abs_cos_le_one finite

theorem Wave.isLostBeyond_trigonometric :
    trigonometric.IsLostBeyond := by
  intro angle notFinite
  exact if_neg (Bool.eq_false_iff.mp notFinite)

/-! ## Positions -/

/-- Both degrees of a position are finite. -/
structure Position.IsFinite (position : Position) : Prop where
  longitude :
    position.longitude.isFinite = true
  latitude :
    position.latitude.isFinite = true

namespace Walk

/-- The positions that a walk gives in a move. -/
def draws (wave : Wave) (walk : Walk) : WalkMove → List Position
  | .next timestamp => [walk.position wave timestamp]
  | .reset => []

/-- The positions that a walk gives one after the other. -/
def drawn
    (wave : Wave)
    (walk : Walk)
    (list : List WalkMove) :
    List Position :=
  Run.yielded move (draws wave) walk list

/-- Without a sine a position is not a number. -/
theorem position_of_lost
    {wave : Wave}
    {walk : Walk}
    (lost : wave.sine walk.phase = nan)
    (timestamp : Int64) :
    walk.position wave timestamp = ⟨nan, nan, timestamp⟩ := by
  simp only [position, lost, mul_nan, nan_mul, add_nan]

section Kept

variable
  {blueprint : Blueprint}
  (kept : blueprint.KeepsTo .trajectory)
  {wave : Wave}
  (swings : wave.Swings)

include kept swings

/-- At a finite phase the next position is finite. -/
theorem isFinite_position
    {walk : Walk}
    (same : walk.trajectory = blueprint.trajectory)
    (finite : walk.phase.isFinite = true)
    (timestamp : Int64) :
    (walk.position wave timestamp).IsFinite := by
  obtain ⟨longitude, latitude, amplitude, _⟩ := kept
  have east := mul_of_between amplitude.finite (swings.sine _ finite)
  have north := mul_of_between east.1 (swings.cosine _ finite)
  rw [← same] at longitude latitude east north
  exact {
    longitude :=
      isFinite_add_of_lt longitude.finite
        (longitude.lt_halfUnit (le_refl _)) east.1
    latitude :=
      isFinite_add_of_lt latitude.finite
        (latitude.lt_halfUnit (by norm_num)) north.1
  }

/-- A steady walk gives finite positions only. -/
theorem isFinite_drawn
    (steady : blueprint.trajectory.IsSteady)
    {walk : Walk}
    (inside : walk.Inside blueprint.trajectory)
    (list : List WalkMove) :
    ∀ position ∈ walk.drawn wave list, position.IsFinite := by
  induction list generalizing walk with
  | nil =>
      intro position member
      cases member
  | cons next rest inductionHypothesis =>
      intro position member
      rcases List.mem_append.mp member with now | later
      · cases next with
        | next timestamp =>
            rw [List.mem_singleton.mp now]
            exact isFinite_position kept swings inside.same inside.finite
              timestamp
        | reset =>
            cases now
      · exact inductionHypothesis
          (inside.move kept.2.2.2 steady next) position later

end Kept

end Walk

/-! ## The cache -/

/-- What the cache of a publisher holds is a point of its walk, and its number
says which. -/
theorem Pipeline.Produces.exists_advance
    {wave : Wave}
    {trajectory : Trajectory}
    {clocks : List Int64}
    {samples : List Sample}
    {events : List Event}
    {happenings : List Happening}
    {pipeline : Pipeline}
    (produces :
      pipeline.Produces wave trajectory clocks samples events happenings)
    {sample : Sample}
    (held : pipeline.cache.latest = some sample) :
    ∃ before clock,
      sample.sequence = before + 1 ∧
        sample.position =
          (Walk.advance^[before] (.begin trajectory)).position wave clock := by
  rw [produces.cacheIs, Cache.latest_ofUpdates_eq_some_iff,
    Walk.length_points] at held
  obtain ⟨isLast, numbered⟩ := held
  rcases List.eq_nil_or_concat clocks with rfl | ⟨earlier, clock, rfl⟩
  · cases isLast
  · rw [List.concat_eq_append] at isLast numbered
    rw [Walk.points_concat, List.getLast?_append] at isLast
    refine ⟨earlier.length, clock, ?_, (Option.some.inj isLast).symm⟩
    rw [numbered, List.length_append, List.length_singleton]

namespace Blueprint

/-- Some run of a pipeline of the blueprint leaves the sample in the cache. -/
def ComesToHold
    (wave : Wave)
    (blueprint : Blueprint)
    (sample : Sample) :
    Prop :=
  ∃ networks pipeline list,
    (Pipeline.start networks blueprint).result = .ok pipeline ∧
      (pipeline.moves wave list).1.cache.latest = some sample

theorem exists_advance_of_comesToHold
    {wave : Wave}
    {blueprint : Blueprint}
    (role : blueprint.role = .publisher)
    {sample : Sample}
    (held : blueprint.ComesToHold wave sample) :
    ∃ before clock,
      sample.sequence = before + 1 ∧
        sample.position =
          (Walk.advance^[before] (.begin blueprint.trajectory)).position wave
            clock := by
  obtain ⟨networks, pipeline, list, started, held⟩ := held
  have produces := (Pipeline.begun_of_start started).produces role wave list
  exact produces.exists_advance held

/-! ## Finite and lost walks -/

/-- The walk of a blueprint is lost after so many positions: no later one is a
number. -/
structure LostAfter
    (wave : Wave)
    (blueprint : Blueprint)
    (count : Nat) : Prop where
  phase :
    ∀ later, count ≤ later →
      (Walk.advance^[later] (.begin blueprint.trajectory)).phase.isFinite =
        false
  position :
    wave.IsLostBeyond →
      ∀ later timestamp, count ≤ later →
        (Walk.advance^[later] (.begin blueprint.trajectory)).position wave
          timestamp = ⟨nan, nan, timestamp⟩
  /-- Not even in the cache. -/
  cache :
    wave.IsLostBeyond → blueprint.role = .publisher →
      ∀ sample, blueprint.ComesToHold wave sample → count < sample.sequence →
        sample.position = ⟨nan, nan, sample.position.timestamp⟩

/-- What becomes of the walk of a blueprint. -/
structure Course (wave : Wave) (blueprint : Blueprint) : Prop where
  /-- Exactly the steady walks keep a finite phase, whatever is asked of
  them. -/
  phase :
    (∀ list,
      ((Walk.begin blueprint.trajectory).moves list).phase.isFinite = true) ↔
      blueprint.trajectory.IsSteady
  /-- At a finite phase the next position is finite. -/
  position :
    ∀ list timestamp,
      let walk := (Walk.begin blueprint.trajectory).moves list
      walk.phase.isFinite = true → (walk.position wave timestamp).IsFinite
  /-- A steady walk gives finite positions only. -/
  drawn :
    blueprint.trajectory.IsSteady →
      ∀ list, ∀ position ∈ (Walk.begin blueprint.trajectory).drawn wave list,
        position.IsFinite
  /-- Its pipeline never has another position in its cache. -/
  cache :
    blueprint.trajectory.IsSteady → blueprint.role = .publisher →
      ∀ sample, blueprint.ComesToHold wave sample → sample.position.IsFinite
  /-- Any other walk is lost. -/
  lost :
    ¬ blueprint.trajectory.IsSteady → ∃ count, blueprint.LostAfter wave count

theorem lostAfter_of_phase
    (wave : Wave)
    {blueprint : Blueprint}
    {count : Nat}
    (lost :
      ∀ later, count ≤ later →
        (Walk.advance^[later] (.begin blueprint.trajectory)).phase.isFinite =
          false) :
    blueprint.LostAfter wave count := by
  have position
      (lostBeyond : wave.IsLostBeyond)
      (later : Nat)
      (timestamp : Int64)
      (notBefore : count ≤ later) :
      (Walk.advance^[later] (.begin blueprint.trajectory)).position wave
        timestamp = ⟨nan, nan, timestamp⟩ :=
    Walk.position_of_lost (lostBeyond _ (lost later notBefore)) timestamp
  refine ⟨lost, position, ?_⟩
  -- A sample is numbered one higher than the steps before its position.
  intro lostBeyond role sample held late
  obtain ⟨before, clock, numbered, isPosition⟩ :=
    exists_advance_of_comesToHold role held
  rw [isPosition, position lostBeyond before clock (by omega)]

/-- For every blueprint that the rules allow: the walk stays finite exactly if
its step is at most `2 ^ 970`. -/
theorem every_accepted_walk_is_finite_while_steady
    {blueprint : Blueprint}
    (accepted : blueprint.validate = .ok ())
    {wave : Wave}
    (swings : wave.Swings) :
    blueprint.Course wave := by
  have kept := validate_eq_ok_iff_keepsTo.mp accepted .trajectory
  have stepFinite : blueprint.trajectory.angularStep.isFinite = true :=
    kept.2.2.2
  have phase := Walk.forall_isFinite_iff stepFinite
  refine {
    phase := phase
    position := ?position
    drawn := ?drawn
    cache := ?cache
    lost := ?lost
  }
  case position =>
    intro list timestamp walk finite
    exact Walk.isFinite_position kept swings (Walk.trajectory_moves _ list)
      finite timestamp
  case drawn =>
    intro steady list
    exact Walk.isFinite_drawn kept swings steady (Walk.inside_begin _) list
  case cache =>
    intro steady role sample held
    obtain ⟨before, clock, _, isPosition⟩ :=
      exists_advance_of_comesToHold role held
    rw [isPosition, ← Walk.moves_replicate_next]
    exact Walk.isFinite_position kept swings (Walk.trajectory_moves _ _)
      (phase.mpr steady _) clock
  case lost =>
    intro unsteady
    obtain ⟨count, lost⟩ := Walk.exists_lost stepFinite unsteady
    exact ⟨count, lostAfter_of_phase wave lost⟩

/-- The usual blueprint with another figure and other steps on it. -/
def striding (amplitude angularStep : Float) : Blueprint :=
  { Blueprint.default with
    trajectory := { Trajectory.default with amplitude, angularStep } }

/-- The widest step that a walk can take again and again. -/
theorem isSteady_widest :
    (striding 0.05 9.979201547673599e291).trajectory.IsSteady := by
  have means :
      Binary64.decode 9.979201547673599e291 = .finite false (2 ^ 52) 918 := by
    decide +kernel
  have number : (Binary64.decode 9.979201547673599e291).number = 2 ^ 970 := by
    rw [means]
    calc
      signFactor false * ((2 ^ 52 : Nat) * 2 ^ (918 : Int)) =
          2 ^ 52 * 2 ^ 918 := by
        rw [show signFactor false = 1 from rfl, one_mul, Nat.cast_pow,
          Nat.cast_ofNat]
        rfl
      _ = 2 ^ 970 := (pow_add 2 52 918).symm
  change |(Binary64.decode 9.979201547673599e291).number| ≤ 2 ^ 970
  rw [number, abs_of_nonneg (by positivity)]

/-- With the real sine and the real cosine. -/
theorem striding_widest_is_finite :
    (striding 0.05 9.979201547673599e291).validate = .ok () ∧
      Wave.trigonometric.Swings ∧ Wave.trigonometric.IsLostBeyond ∧
      (striding 0.05 9.979201547673599e291).trajectory.IsSteady ∧
      (striding 0.05 9.979201547673599e291).Course .trigonometric := by
  have accepted :
      (striding 0.05 9.979201547673599e291).validate = .ok () := by
    decide +kernel
  exact ⟨accepted, Wave.swings_trigonometric,
    Wave.isLostBeyond_trigonometric, isSteady_widest,
    every_accepted_walk_is_finite_while_steady accepted
      Wave.swings_trigonometric⟩

/-- Two steps of which the rules allow each, and where they lead. -/
def strideTwice : Walk :=
  (Walk.begin (striding 0.0 1e308).trajectory).moves [.next 0, .next 20]

/-- The rules allow a walk whose third point is not a number, and the producer
puts it into the cache. -/
theorem striding_further_is_lost :
    (striding 0.0 1e308).validate = .ok () ∧
      strideTwice.phase = infinity false ∧
        ∀ wave : Wave, wave.IsLostBeyond →
          strideTwice.position wave 40 = ⟨nan, nan, 40⟩ ∧
            ∀ producer : Producer, producer.walk = strideTwice →
              ∀ cache, (producer.tick wave 40 cache).2.1.latest =
                some ⟨⟨nan, nan, 40⟩, cache.latestSequence + 1⟩ := by
  have phase : strideTwice.phase = infinity false := by
    decide +kernel
  have lost : strideTwice.phase.isFinite = false := by
    rw [phase, isFinite_infinity]
  refine ⟨by decide +kernel, phase, fun wave lostBeyond => ?_⟩
  have position := Walk.position_of_lost (lostBeyond _ lost) 40
  refine ⟨position, fun producer isWalk cache => ?_⟩
  rw [Producer.tick, isWalk, Cache.latest_update, position]
  rfl

end Blueprint

end PositionFeed
