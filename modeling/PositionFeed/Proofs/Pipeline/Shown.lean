import PositionFeed.Pipeline.Statistics
import PositionFeed.Proofs.Pipeline.Started
import PositionFeed.Proofs.Pipeline.Turn
import PositionFeed.Proofs.Run

namespace PositionFeed

/-!
# What a run of a pipeline shows

A run is seen from several sides: by the samples that enter the cache, by the
times at which the generator is asked for a point, by what each outlet is handed
and answers, and by what happens in each loop.
-/

namespace Pipeline

/-- What a move makes of a pipeline. -/
def after
    (wave : Wave)
    (pipeline : Pipeline)
    (next : PipelineMove) :
    Pipeline :=
  (pipeline.move wave next).1

/-- The sample that enters the cache in a move, if one does. -/
def enters
    (wave : Wave)
    (pipeline : Pipeline)
    (next : PipelineMove) :
    List Sample :=
  pipeline.cache.newerIn (pipeline.after wave next).cache

/-- The time of the day at which a move asks the generator for a point. -/
def asks (pipeline : Pipeline) : PipelineMove → List Int64
  | .source _ clock =>
      match pipeline.source with
      | .producer loop _ =>
          if loop.phase = .due ∧ ¬ pipeline.isStopping then [clock] else []
      | .intake .. => []
  | _ => []

/-- What happens in the loop of the source over a move. -/
def sourceHappens (pipeline : Pipeline) : PipelineMove → List Happening
  | .source now _ =>
      match pipeline.source with
      | .producer loop _ =>
          let answer : TaskAnswer :=
            if loop.phase = .due ∧ ¬ pipeline.isStopping then
              .finished (.ok ())
            else .pending
          (loop.poll ⟨pipeline.isStopping, now, answer⟩).2
      | .intake .. => []
  | _ => []

/-- What the outlet at a position is handed in a move, and what it answers. -/
def handsOver
    (position : Nat)
    (pipeline : Pipeline)
    (next : PipelineMove) :
    List Handoff :=
  match pipeline.pollAt position next with
  | none => []
  | some (running, found) => running.handsOver pipeline.cache found

/-- What happens in the loop of the channel at a position over a move. -/
def happens
    (position : Nat)
    (pipeline : Pipeline)
    (next : PipelineMove) :
    List Happening :=
  match pipeline.pollAt position next with
  | none => []
  | some (running, found) => running.happens pipeline.cache found

section Runs

variable
  (wave : Wave)
  (pipeline : Pipeline)
  (list : List PipelineMove)

/-- The samples that enter the cache in a run. -/
def entered : List Sample :=
  Run.yielded (after wave) (enters wave) pipeline list

/-- The times of the day at which the generator is asked for points. -/
def asked : List Int64 :=
  Run.yielded (after wave) asks pipeline list

/-- What happens in the loop of the source over a run. -/
def sourceHappenings : List Happening :=
  Run.yielded (after wave) sourceHappens pipeline list

/-- What the outlet at a position is handed in a run, and what it answers. -/
def handoffs (position : Nat) : List Handoff :=
  Run.yielded (after wave) (handsOver position) pipeline list

/-- What happens in the loop of the channel at a position over a run. -/
def happenings (position : Nat) : List Happening :=
  Run.yielded (after wave) (happens position) pipeline list

/-- A run is made move by move, and what is seen of it is what is seen of its
moves. -/
theorem moves_eq :
    pipeline.moves wave list =
      (list.foldl (after wave) pipeline,
        Run.yielded (after wave) (fun pipeline next =>
          (pipeline.move wave next).2) pipeline list) := by
  induction list generalizing pipeline with
  | nil =>
      rfl
  | cons next rest inductionHypothesis =>
      simp only [moves, inductionHypothesis]
      rfl

theorem moves_concat
    (next : PipelineMove) :
    let before := pipeline.moves wave list
    let moved := before.1.move wave next
    pipeline.moves wave (list ++ [next]) =
      (moved.1, before.2 ++ moved.2) := by
  intro before moved
  simp only [moved, before, moves_eq, Run.yielded_concat, List.foldl_append]
  rfl

/-- What a run with one more move shows is what the last move shows from where
the others lead. -/
theorem yielded_moves
    (yields : Pipeline → PipelineMove → List α)
    (next : PipelineMove) :
    Run.yielded (after wave) yields pipeline (list ++ [next]) =
      Run.yielded (after wave) yields pipeline list ++
        yields (pipeline.moves wave list).1 next := by
  rw [Run.yielded_concat, moves_eq]

end Runs

/-! ## The cache -/

/-- The cache of a pipeline holds the last of these samples, which are numbered
from one. -/
structure Remembers
    (samples : List Sample)
    (pipeline : Pipeline) : Prop where
  cacheIs :
    pipeline.cache = .ofUpdates (samples.map Sample.position)
  numbered :
    samples = Cache.history (samples.map Sample.position)

theorem Remembers.move
    {samples : List Sample}
    {pipeline : Pipeline}
    (remembers : pipeline.Remembers samples)
    (wave : Wave)
    (next : PipelineMove) :
    (pipeline.move wave next).1.Remembers
      (samples ++ pipeline.enters wave next) := by
  rw [enters, after]
  rcases pipeline.cache_move wave next with same | ⟨position, updated⟩
  · rw [same, Cache.newerIn_self, List.append_nil]
    exact ⟨same.trans remembers.cacheIs, remembers.numbered⟩
  · rw [updated, Cache.newerIn_update]
    refine ⟨?_, ?_⟩
    · rw [updated, remembers.cacheIs, List.map_append]
      exact (Cache.ofUpdates_concat _ _).symm
    · rw [List.map_append, remembers.cacheIs]
      exact
        (congrArg (· ++ _) remembers.numbered).trans
          (Cache.history_concat _ _).symm

/-- The cache of a pipeline is right after every run. -/
theorem Begun.remembers
    {blueprint : Blueprint}
    {pipeline : Pipeline}
    {events : List Event}
    (begun : pipeline.Begun blueprint events)
    (wave : Wave)
    (list : List PipelineMove) :
    (pipeline.moves wave list).1.Remembers (pipeline.entered wave list) := by
  induction list using List.reverseRecOn with
  | nil =>
      exact ⟨begun.cache, rfl⟩
  | append_singleton list next inductionHypothesis =>
      rw [moves_concat, entered, yielded_moves]
      exact inductionHypothesis.move wave next

end Pipeline

end PositionFeed
