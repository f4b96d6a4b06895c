namespace PositionFeed

/-!
# Runs

A run is the list of the moves that a system makes, and what a run yields is
what its moves yield one after the other, each from the state that it finds.
-/

namespace Run

/-- What the moves of a run yield. -/
def yielded
    (move : σ → μ → σ)
    (yields : σ → μ → List α)
    (state : σ) :
    List μ → List α
  | [] => []
  | next :: rest =>
      yields state next ++ yielded move yields (move state next) rest

/-- Later moves yield what they do from the state that the earlier ones
leave. -/
theorem yielded_append
    (move : σ → μ → σ)
    (yields : σ → μ → List α)
    (state : σ)
    (earlier later : List μ) :
    yielded move yields state (earlier ++ later) =
      yielded move yields state earlier ++
        yielded move yields (earlier.foldl move state) later := by
  induction earlier generalizing state with
  | nil =>
      rfl
  | cons first rest inductionHypothesis =>
      simp [yielded, inductionHypothesis]

/-- The last move yields what it does from the state that the others leave. -/
theorem yielded_concat
    (move : σ → μ → σ)
    (yields : σ → μ → List α)
    (state : σ)
    (list : List μ)
    (next : μ) :
    yielded move yields state (list ++ [next]) =
      yielded move yields state list ++
        yields (list.foldl move state) next := by
  simp [yielded_append, yielded]

theorem filterMap_concat
    (select : μ → Option α)
    (list : List μ)
    (next : μ) :
    (list ++ [next]).filterMap select =
      list.filterMap select ++ (select next).toList := by
  cases selected : select next <;> simp [selected]

theorem filterMap_toList
    (select : μ → Option α)
    (next : Option μ) :
    next.toList.filterMap select = (next.bind select).toList := by
  cases next with
  | none =>
      rfl
  | some move =>
      cases selected : select move <;> simp [selected]

end Run

end PositionFeed
