import Mathlib.Algebra.Order.BigOperators.Group.List
import Mathlib.Algebra.Order.Field.Rat
import Mathlib.Data.List.Induction
import Mathlib.Order.Bounds.Basic
import Mathlib.Tactic.FieldSimp
import Mathlib.Tactic.Linarith
import Mathlib.Tactic.Ring
import PositionFeed.Telemetry.RunningStatistics

namespace PositionFeed

/-!
# Running statistics of exact numbers

Statistics are kept in one pass: with every value the mean moves a little, and
a product of the distances from the old and from the new mean joins the sum of
the squares.  Over the rational numbers this comes to the same as looking at all
the values twice, first for their mean and then for their distances from it.

What is looked up twice does not depend on the order of the values, so neither
do the statistics.
-/

instance : Quantity ℚ where
  nought := 0
  ofCount count := count
  smaller := min
  larger := max

/-! ## The moments of a list -/

/-- The arithmetic mean of values, nought if there are none. -/
def meanOf (values : List ℚ) : ℚ :=
  if values = [] then 0 else values.sum / values.length

/-- The sum of the squares of the distances from a point. -/
def spreadAround (centre : ℚ) (values : List ℚ) : ℚ :=
  (values.map fun value => (value - centre) ^ 2).sum

/-- The sum of the squares of the distances from the mean. -/
def spreadOf (values : List ℚ) : ℚ :=
  spreadAround (meanOf values) values

theorem meanOf_mul_length
    (values : List ℚ) :
    meanOf values * values.length = values.sum := by
  unfold meanOf
  split
  · next nothing =>
      simp [nothing]
  · next something =>
      have positive : (values.length : ℚ) ≠ 0 := by
        simpa using something
      exact div_mul_cancel₀ _ positive

/-- A mean is known by its product with the number of the values. -/
theorem eq_meanOf
    {values : List ℚ}
    {mean : ℚ}
    (something : values ≠ [])
    (balanced : mean * values.length = values.sum) :
    mean = meanOf values := by
  have positive : (values.length : ℚ) ≠ 0 := by
    simpa using something
  exact mul_right_cancel₀ positive
    (balanced.trans (meanOf_mul_length values).symm)

theorem spreadAround_append
    (centre : ℚ)
    (earlier later : List ℚ) :
    spreadAround centre (earlier ++ later) =
      spreadAround centre earlier + spreadAround centre later := by
  simp [spreadAround]

theorem spreadAround_nonneg
    (centre : ℚ)
    (values : List ℚ) :
    0 ≤ spreadAround centre values := by
  refine List.sum_nonneg fun square member => ?_
  obtain ⟨value, _, rfl⟩ := List.mem_map.mp member
  exact sq_nonneg _

/-- Around another point the squares add up to more, by the square of its
distance from the mean for each value. -/
theorem spreadAround_eq
    (centre : ℚ)
    (values : List ℚ) :
    spreadAround centre values =
      spreadOf values + values.length * (centre - meanOf values) ^ 2 := by
  -- Both sides are the same polynomial in the sums of the values and of their
  -- squares, since the mean is known from the first of these.
  have expanded (point : ℚ) :
      spreadAround point values =
        (values.map (· ^ 2)).sum - 2 * point * values.sum +
          values.length * point ^ 2 := by
    induction values with
    | nil =>
        simp [spreadAround]
    | cons value rest inductionHypothesis =>
        simp only [spreadAround, List.map_cons, List.sum_cons,
          List.length_cons, Nat.cast_add, Nat.cast_one] at *
        rw [inductionHypothesis]
        ring
  rw [spreadOf, expanded, expanded, ← meanOf_mul_length values]
  ring

/-! ## One value more -/

/-- The mean moves towards a new value, by its share of the distance. -/
theorem meanOf_concat
    (values : List ℚ)
    (value : ℚ) :
    meanOf (values ++ [value]) =
      meanOf values + (value - meanOf values) / (values.length + 1) := by
  have positive : (values.length + 1 : ℚ) ≠ 0 := by
    positivity
  refine (eq_meanOf (by simp) ?_).symm
  have total := meanOf_mul_length values
  simp only [List.length_append, List.length_singleton, Nat.cast_add,
    Nat.cast_one, List.sum_append, List.sum_singleton, ← total]
  field_simp
  ring

/-- The squares grow by the product of the distances from both means. -/
theorem spreadOf_concat
    (values : List ℚ)
    (value : ℚ) :
    spreadOf (values ++ [value]) =
      spreadOf values +
        (value - meanOf values) *
          (value - meanOf (values ++ [value])) := by
  have positive : (values.length + 1 : ℚ) ≠ 0 := by
    positivity
  have alone (centre : ℚ) :
      spreadAround centre [value] = (value - centre) ^ 2 := by
    simp [spreadAround]
  rw [spreadOf, spreadAround_append, spreadAround_eq, alone, meanOf_concat]
  field_simp
  ring

attribute [ext] RunningStatistics

namespace RunningStatistics

/-! ## Statistics of values -/

/-- Statistics that were kept of values. -/
structure KeptOf
    (statistics : RunningStatistics ℚ)
    (values : List ℚ) : Prop where
  count : statistics.count = values.length
  mean : statistics.mean = meanOf values
  squares : statistics.squares = spreadOf values
  least : values ≠ [] → IsLeast {value | value ∈ values} statistics.least
  greatest :
    values ≠ [] → IsGreatest {value | value ∈ values} statistics.greatest

theorem keptOf_empty :
    KeptOf empty [] where
  count := rfl
  mean := by
    simp [empty, meanOf, Quantity.nought]
  squares := by
    simp [empty, spreadOf, spreadAround, Quantity.nought]
  least nothing := absurd rfl nothing
  greatest nothing := absurd rfl nothing

theorem setOf_mem_concat
    (values : List ℚ)
    (value : ℚ) :
    {other | other ∈ values ++ [value]} =
      {other | other ∈ values} ∪ {value} := by
  ext other
  simp [or_comm]

/-- The least of more values is the new one, if it is smaller. -/
theorem least_concat
    {values : List ℚ}
    {least : ℚ}
    (isLeast : IsLeast {value | value ∈ values} least)
    (value : ℚ) :
    IsLeast {other | other ∈ values ++ [value]} (min least value) := by
  rw [setOf_mem_concat]
  exact isLeast.union isLeast_singleton

/-- The greatest of more values is the new one, if it is larger. -/
theorem greatest_concat
    {values : List ℚ}
    {greatest : ℚ}
    (isGreatest : IsGreatest {value | value ∈ values} greatest)
    (value : ℚ) :
    IsGreatest {other | other ∈ values ++ [value]} (max greatest value) := by
  rw [setOf_mem_concat]
  exact isGreatest.union isGreatest_singleton

/-- The statistics of one value. -/
theorem keptOf_first
    {statistics : RunningStatistics ℚ}
    (kept : statistics.KeptOf [])
    (value : ℚ) :
    (statistics.push value).KeptOf [value] := by
  have pushed :
      statistics.push value = ⟨1, value, 0, value, value⟩ :=
    if_pos kept.count
  have mean : meanOf [value] = value := by
    simp [meanOf]
  rw [pushed]
  exact {
    count := rfl
    mean := mean.symm
    squares := by simp [spreadOf, spreadAround, mean]
    least := fun _ => by simp
    greatest := fun _ => by simp }

/-- One value more is taken into the statistics. -/
theorem keptOf_push
    {statistics : RunningStatistics ℚ}
    {values : List ℚ}
    (kept : statistics.KeptOf values)
    (value : ℚ) :
    (statistics.push value).KeptOf (values ++ [value]) := by
  by_cases nothing : values = []
  · subst nothing
    exact keptOf_first kept value
  have something : statistics.count ≠ 0 := by
    rw [kept.count]
    exact mt List.length_eq_zero_iff.mp nothing
  have mean :
      (statistics.push value).mean = meanOf (values ++ [value]) := by
    rw [meanOf_concat, ← kept.mean, ← kept.count]
    simp [push, something, Quantity.ofCount]
  exact {
    count := by
      simp [push, ← kept.count, something]
    mean := mean
    squares := by
      rw [spreadOf_concat, ← mean, ← kept.squares, ← kept.mean]
      simp [push, something]
    least := fun _ => by
      simpa [push, something, Quantity.smaller] using
        least_concat (kept.least nothing) value
    greatest := fun _ => by
      simpa [push, something, Quantity.larger] using
        greatest_concat (kept.greatest nothing) value }

/-- Statistics of a list are kept of its values. -/
theorem keptOf_ofList
    (values : List ℚ) :
    (ofList values).KeptOf values := by
  induction values using List.reverseRecOn with
  | nil =>
      exact keptOf_empty
  | append_singleton earlier value inductionHypothesis =>
      have last :
          ofList (earlier ++ [value]) = (ofList earlier).push value := by
        simp [ofList]
      rw [last]
      exact keptOf_push inductionHypothesis value

/-! ## What statistics say -/

section Kept

variable
  {statistics : RunningStatistics ℚ}
  {values : List ℚ}

theorem KeptOf.average
    (kept : statistics.KeptOf values) :
    statistics.average = meanOf values := by
  unfold RunningStatistics.average
  split
  · next nothing =>
      have empty : values = [] := by
        rw [← List.length_eq_zero_iff, ← kept.count, nothing]
      simp [empty, meanOf, Quantity.nought]
  · exact kept.mean

theorem KeptOf.variance
    (kept : statistics.KeptOf values) :
    statistics.variance =
      if values.length < 2 then 0
      else spreadOf values / (values.length - 1 : ℕ) := by
  unfold RunningStatistics.variance
  rw [kept.count, kept.squares]
  rfl

theorem KeptOf.least_le_mean
    (kept : statistics.KeptOf values)
    (something : values ≠ []) :
    statistics.least ≤ meanOf values := by
  have positive : (0 : ℚ) < values.length := by
    simpa [List.length_pos_iff] using something
  have below : values.length • statistics.least ≤ values.sum :=
    List.card_nsmul_le_sum values statistics.least
      (kept.least something).2
  rw [nsmul_eq_mul, ← meanOf_mul_length, mul_comm] at below
  exact le_of_mul_le_mul_right below positive

theorem KeptOf.mean_le_greatest
    (kept : statistics.KeptOf values)
    (something : values ≠ []) :
    meanOf values ≤ statistics.greatest := by
  have positive : (0 : ℚ) < values.length := by
    simpa [List.length_pos_iff] using something
  have above : values.sum ≤ values.length • statistics.greatest :=
    List.sum_le_card_nsmul values statistics.greatest
      (kept.greatest something).2
  rw [nsmul_eq_mul, ← meanOf_mul_length, mul_comm _ statistics.greatest]
    at above
  exact le_of_mul_le_mul_right above positive

end Kept

/-! ## The order of the values -/

theorem meanOf_perm
    {values others : List ℚ}
    (reordered : others.Perm values) :
    meanOf others = meanOf values := by
  have sameEmptiness : others = [] ↔ values = [] := by
    rw [← List.length_eq_zero_iff, reordered.length_eq,
      List.length_eq_zero_iff]
  simp only [meanOf, sameEmptiness, reordered.sum_eq, reordered.length_eq]

theorem spreadOf_perm
    {values others : List ℚ}
    (reordered : others.Perm values) :
    spreadOf others = spreadOf values := by
  rw [spreadOf, spreadOf, meanOf_perm reordered]
  exact (reordered.map _).sum_eq

/-- Values in another order have the same statistics. -/
theorem ofList_perm
    {values others : List ℚ}
    (reordered : others.Perm values) :
    ofList others = ofList values := by
  by_cases nothing : values = []
  · subst nothing
    rw [reordered.eq_nil]
  have something : others ≠ [] := by
    rintro rfl
    exact nothing reordered.symm.eq_nil
  have sameValues :
      {value | value ∈ others} = {value | value ∈ values} := by
    ext value
    exact reordered.mem_iff
  have left := keptOf_ofList others
  have right := keptOf_ofList values
  have least := left.least something
  have greatest := left.greatest something
  rw [sameValues] at least greatest
  ext1
  · rw [left.count, right.count, reordered.length_eq]
  · rw [left.mean, right.mean, meanOf_perm reordered]
  · rw [left.squares, right.squares, spreadOf_perm reordered]
  · exact least.unique (right.least nothing)
  · exact greatest.unique (right.greatest nothing)

/-- What the statistics of values come to. -/
structure Describes (values : List ℚ) : Prop where
  count : (ofList values).count = values.length
  average : (ofList values).average = meanOf values
  squares : (ofList values).squares = spreadOf values
  variance :
    (ofList values).variance =
      if values.length < 2 then 0
      else spreadOf values / (values.length - 1 : ℕ)
  variance_nonneg : 0 ≤ (ofList values).variance
  least :
    values ≠ [] → IsLeast {value | value ∈ values} (ofList values).least
  greatest :
    values ≠ [] → IsGreatest {value | value ∈ values} (ofList values).greatest
  /-- The mean lies between the least and the greatest value. -/
  between :
    values ≠ [] →
      (ofList values).least ≤ (ofList values).average ∧
        (ofList values).average ≤ (ofList values).greatest
  /-- The order in which the values come makes no difference. -/
  unordered : ∀ others, others.Perm values → ofList others = ofList values

/-- Of all lists of values the statistics are those that are found by going
through the values twice, in any order. -/
theorem every_list_is_described
    (values : List ℚ) :
    Describes values where
  count := (keptOf_ofList values).count
  average := (keptOf_ofList values).average
  squares := (keptOf_ofList values).squares
  variance := (keptOf_ofList values).variance
  variance_nonneg := by
    rw [(keptOf_ofList values).variance]
    split
    · exact le_rfl
    · exact div_nonneg (spreadAround_nonneg _ _) (Nat.cast_nonneg _)
  least := (keptOf_ofList values).least
  greatest := (keptOf_ofList values).greatest
  between something := by
    rw [(keptOf_ofList values).average]
    exact ⟨(keptOf_ofList values).least_le_mean something,
      (keptOf_ofList values).mean_le_greatest something⟩
  unordered _ reordered := ofList_perm reordered

/-- Two of the five values are the same, and the mean is none of them. -/
example :
    let statistics := ofList [3, -1, 4, -1, (1 / 2 : ℚ)]
    statistics.average = 11 / 10 ∧ statistics.variance = 106 / 20 ∧
      statistics.least = -1 ∧ statistics.greatest = 4 := by
  decide +kernel

end RunningStatistics

end PositionFeed
