import PositionFeed.Proofs.Cache.Refinement

namespace PositionFeed

/-!
# Whole samples in every interleaving

However the steps of the writer, of readers and of others fall between each
other, what is seen is what a cache shows that is updated in single steps.  So
updates are numbered one after the other, nobody is ever given anything but the
whole sample of one update, nothing that is seen goes back, and a sample keeps
its words as long as somebody holds it.
-/

/-- The reader who asks for something. -/
def SharedMove.reader? : SharedMove → Option Nat
  | .read reader => some reader
  | .hasData reader => some reader
  | .latestSequence reader => some reader
  | _ => none

namespace SharedCache

variable {shared : SharedCache} {atomic : AtomicCache}

/-! ## Runs -/

theorem seen_append
    (earlier later : List SharedMove) :
    shared.seen (earlier ++ later) =
      shared.seen earlier ++ (shared.moves earlier).seen later :=
  Run.yielded_append ..

theorem moves_append
    (earlier later : List SharedMove) :
    shared.moves (earlier ++ later) = (shared.moves earlier).moves later :=
  List.foldl_append

@[simp] theorem singles_concat
    (list : List SharedMove)
    (next : SharedMove) :
    shared.singles (list ++ [next]) =
      shared.singles list ++ ((shared.moves list).single next).toList :=
  Run.yielded_concat ..

/-- Steps come to their single steps. -/
theorem Refines.run
    (refines : shared.Refines atomic)
    (list : List SharedMove) :
    (shared.moves list).Refines (atomic.moves (shared.singles list)) := by
  induction list using List.reverseRecOn with
  | nil =>
      exact refines
  | append_singleton list next inductionHypothesis =>
      rw [moves_concat, singles_concat]
      have step := inductionHypothesis.move next
      cases single : (shared.moves list).single next with
      | none =>
          simpa [single] using step
      | some atomicNext =>
          simpa [single] using step

/-- Steps show what their single steps show. -/
theorem Refines.seen_run
    (refines : shared.Refines atomic)
    (list : List SharedMove) :
    shared.seen list = atomic.seen (shared.singles list) := by
  induction list using List.reverseRecOn with
  | nil =>
      rfl
  | append_singleton list next inductionHypothesis =>
      rw [seen_concat, singles_concat, (refines.run list).sees next,
        inductionHypothesis]
      cases (shared.moves list).single next <;> simp

theorem refines_moves
    (memory : Nat → Sample)
    (list : List SharedMove) :
    ((begin memory).moves list).Refines
      (AtomicCache.begin.moves ((begin memory).singles list)) :=
  (refines_begin memory).run list

/-- What the writer is called with is stored, but for what is pending. -/
theorem called_eq
    (memory : Nat → Sample)
    (list : List SharedMove) :
    (begin memory).called list =
      AtomicCache.begin.positions ((begin memory).singles list) ++
        ((begin memory).moves list).writing.pending := by
  induction list using List.reverseRecOn with
  | nil =>
      rfl
  | append_singleton list next inductionHypothesis =>
      have step := (refines_moves memory list).pending next
      rw [called_concat, inductionHypothesis, List.append_assoc, step,
        moves_concat, singles_concat, ← List.append_assoc]
      cases ((begin memory).moves list).single next <;> simp

/-- Either a position waits to be stored or a sample to be returned. -/
theorem Refines.underway
    (refines : shared.Refines atomic) :
    atomic.answer.toList.length + shared.writing.pending.length ≤ 1 := by
  rcases writing : shared.writing with _ | _ | _ | _
  case idle =>
    have unanswered : atomic.answer = none := (refines.inPhase writing).2
    simp [unanswered, Writing.pending]
  case swapped =>
    cases atomic.answer <;> simp [Writing.pending]
  all_goals
    have unanswered := (refines.inPhase writing).2.1
    simp [unanswered, Writing.pending]

/-- Whoever asks is answered. -/
theorem reader_sees
    (shared : SharedCache)
    (next : SharedMove) :
    (shared.sees next).bind Sighting.reader? = next.reader? := by
  cases next with
  | read reader =>
      cases slot : shared.slot <;>
        simp [sees, slot, Sighting.reader?, SharedMove.reader?]
  | finish =>
      rcases writing : shared.writing with _ | _ | _ | ⟨address, _ | _⟩ <;>
        simp [sees, writing, Sighting.reader?, SharedMove.reader?]
  | look ticket word =>
      cases found : shared.handle? ticket <;>
        simp [sees, found, Sighting.reader?, SharedMove.reader?]
  | load | allocate | write | swap | release | hasData | latestSequence
  | letGo | scribble =>
      rfl

theorem reader_seen
    (shared : SharedCache)
    (list : List SharedMove) :
    (shared.seen list).filterMap Sighting.reader? =
      list.filterMap SharedMove.reader? := by
  induction list using List.reverseRecOn with
  | nil =>
      rfl
  | append_singleton list next inductionHypothesis =>
      rw [seen_concat, List.filterMap_append, Run.filterMap_toList,
        Run.filterMap_concat, inductionHypothesis, reader_sees]

/-! ## Samples that are held -/

/-- Nobody writes where somebody can read. -/
theorem Refines.memory_move
    (refines : shared.Refines atomic)
    {place : Nat}
    (isVisible : place ∈ shared.visible)
    (next : SharedMove) :
    (shared.move next).memory place = shared.memory place := by
  cases next with
  | write word =>
      rcases writing : shared.writing with _ | _ | ⟨sample, address, _⟩ | _
      case building =>
        have apart := (refines.inPhase writing).2.2.2.1
        have other : place ≠ address := fun same => apart (same ▸ isVisible)
        simp only [SharedCache.move, writing, stored_of_ne other]
      all_goals
        simp only [SharedCache.move, writing]
  | scribble address sample =>
      by_cases free : shared.owners address = 0
      · have absent := refines.counted.notMem_of_free free
        have other : place ≠ address := by
          rintro rfl
          exact absent (List.mem_append_right _ isVisible)
        simp only [SharedCache.move, free, ↓reduceIte, stored_of_ne other]
      · simp only [SharedCache.move, free, ↓reduceIte]
  | allocate address =>
      simp only [SharedCache.move]
      split
      · split <;> rfl
      · rfl
  | load | swap | release | finish | read | letGo =>
      simp only [SharedCache.move]
      split <;> rfl
  | hasData | latestSequence | look =>
      rfl

/-- Only who lets go of a handle loses it. -/
theorem mem_handles_move
    {handle : Handle}
    (holds : handle ∈ shared.handles)
    {next : SharedMove}
    (kept : next ≠ .letGo handle.ticket) :
    handle ∈ (shared.move next).handles := by
  cases next with
  | finish | read =>
      simp only [move]
      split
      · exact List.mem_append_left _ holds
      · exact holds
  | letGo ticket =>
      have other : handle.ticket ≠ ticket :=
        fun same => kept (congrArg _ same.symm)
      simp only [move]
      split
      · exact (List.mem_eraseP_of_neg (by simpa using other)).mpr holds
      · exact holds
  | allocate address =>
      simp only [move]
      split
      · split <;> exact holds
      · exact holds
  | load | write | swap | release | scribble =>
      simp only [move]
      split <;> exact holds
  | hasData | latestSequence | look =>
      exact holds

/-- A handle and what it is on stay until it is let go. -/
theorem Refines.held_run
    (refines : shared.Refines atomic)
    {handle : Handle}
    (holds : handle ∈ shared.handles)
    {list : List SharedMove}
    (kept : .letGo handle.ticket ∉ list) :
    handle ∈ (shared.moves list).handles ∧
      (shared.moves list).memory handle.address =
        shared.memory handle.address := by
  induction list using List.reverseRecOn with
  | nil =>
      exact ⟨holds, rfl⟩
  | append_singleton list next inductionHypothesis =>
      rw [List.mem_append, not_or, List.mem_singleton] at kept
      obtain ⟨stillHolds, same⟩ := inductionHypothesis kept.1
      have isVisible : handle.address ∈ (shared.moves list).visible :=
        List.mem_append_right _ (List.mem_map_of_mem stillHolds)
      rw [moves_concat]
      exact ⟨mem_handles_move stillHolds (Ne.symm kept.2),
        ((refines.run list).memory_move isVisible next).trans same⟩

/-! ## Updates that nobody interrupts -/

/-- The steps of an update up to the moment in which it could return. -/
def uninterrupted (position : Position) (address : Nat) : List SharedMove :=
  [.load position, .allocate address] ++
    SampleWord.all.map SharedMove.write ++
    [.swap, .release]

/-- The writer is not in the middle of an update. -/
def Settled (shared : SharedCache) : Prop :=
  shared.writing = .idle ∨ ∃ address, shared.writing = .swapped address none

theorem singles_uninterrupted
    (isIdle : shared.writing = .idle)
    {address : Nat}
    (free : shared.owners address = 0)
    (position : Position) :
    shared.singles (uninterrupted position address) = [.update position] ∧
      (shared.moves (uninterrupted position address)).Settled := by
  rcases slot : shared.slot with _ | previous <;>
    simp [uninterrupted, SampleWord.all, singles, moves, Run.yielded, move,
      single, Settled, isIdle, free, slot]

/-- Steps that come to one single step show what it shows. -/
theorem Refines.of_singles_eq
    (refines : shared.Refines atomic)
    {list : List SharedMove}
    {next : AtomicMove}
    (isNext : shared.singles list = [next]) :
    shared.seen list = (atomic.sees next).toList ∧
      (shared.moves list).Refines (atomic.move next) := by
  have sameSeen := refines.seen_run list
  have sameState := refines.run list
  rw [isNext] at sameSeen sameState
  exact ⟨by simpa [AtomicCache.seen, Run.yielded] using sameSeen, sameState⟩

/-- Every single step is what some steps come to. -/
theorem Refines.exists_steps
    (refines : shared.Refines atomic)
    (settled : shared.Settled)
    (next : AtomicMove) :
    ∃ list,
      (shared.seen list = (atomic.sees next).toList ∧
        (shared.moves list).Refines (atomic.move next)) ∧
        (shared.moves list).Settled := by
  cases next with
  | update position =>
      rcases settled with isIdle | ⟨address, writing⟩
      · obtain ⟨address, free⟩ := refines.counted.exists_free
        obtain ⟨isUpdate, staysSettled⟩ :=
          singles_uninterrupted isIdle free position
        exact ⟨_, refines.of_singles_eq isUpdate, staysSettled⟩
      · have answered : atomic.answer = some (shared.memory address) :=
          (refines.inPhase writing).2
        refine ⟨[], ⟨rfl, ?_⟩, Or.inr ⟨address, writing⟩⟩
        simpa [AtomicCache.move, answered, moves] using refines
  | answer =>
      rcases settled with isIdle | ⟨address, writing⟩
      · have unanswered : atomic.answer = none := (refines.inPhase isIdle).2
        refine ⟨[], ⟨?_, ?_⟩, Or.inl isIdle⟩
        · simp [AtomicCache.sees, unanswered, seen, Run.yielded]
        · simpa [AtomicCache.move, unanswered, moves] using refines
      · refine ⟨[.finish], refines.of_singles_eq ?_, Or.inl ?_⟩
        · simp [singles, Run.yielded, single, writing]
        · simp [moves, SharedCache.move, writing]
  | read reader =>
      refine ⟨[.read reader], refines.of_singles_eq rfl, ?_⟩
      rcases slot : shared.slot with _ | address <;>
        simpa [moves, SharedCache.move, slot, give, Settled] using settled
  | letGo ticket =>
      refine ⟨[.letGo ticket], refines.of_singles_eq rfl, ?_⟩
      rcases found : shared.handle? ticket with _ | handle <;>
        simpa [moves, SharedCache.move, found, Settled] using settled
  | hasData reader =>
      exact ⟨[.hasData reader], refines.of_singles_eq rfl, settled⟩
  | latestSequence reader =>
      exact ⟨[.latestSequence reader], refines.of_singles_eq rfl, settled⟩
  | look ticket word =>
      exact ⟨[.look ticket word], refines.of_singles_eq rfl, settled⟩

/-- Whatever single steps show, some steps show. -/
theorem exists_interleaving
    (memory : Nat → Sample)
    (steps : List AtomicMove) :
    ∃ list,
      (begin memory).seen list = AtomicCache.begin.seen steps ∧
        ((begin memory).moves list).Refines (AtomicCache.begin.moves steps) ∧
        ((begin memory).moves list).Settled := by
  induction steps using List.reverseRecOn with
  | nil =>
      exact ⟨[], rfl, refines_begin memory, Or.inl rfl⟩
  | append_singleton steps next inductionHypothesis =>
      obtain ⟨list, sameSeen, refines, settled⟩ := inductionHypothesis
      obtain ⟨more, ⟨sameStep, refinesAfter⟩, settledAfter⟩ :=
        refines.exists_steps settled next
      refine ⟨list ++ more, ?_, ?_, ?_⟩
      · rw [seen_append, sameSeen, sameStep, AtomicCache.seen_concat]
      · rw [moves_append, AtomicCache.moves_concat]
        exact refinesAfter
      · rw [moves_append]
        exact settledAfter

/-! ## What is kept to -/

/-- What a shared cache keeps to over steps. -/
structure ServesWholeSamples
    (memory : Nat → Sample)
    (list : List SharedMove) : Prop where
  /-- What is seen is what is seen if every update is a single step. -/
  asSingleSteps :
    (begin memory).seen list =
      AtomicCache.begin.seen ((begin memory).singles list)
  /-- These single steps store what the writer is called with, in order, but
  for the last call as long as it is under way. -/
  stored :
    ∃ underway,
      underway.length ≤ 1 ∧
        (begin memory).called list =
          AtomicCache.begin.positions ((begin memory).singles list) ++ underway
  /-- The slot holds what they store. -/
  view :
    ((begin memory).moves list).view =
      Cache.ofUpdates
        (AtomicCache.begin.positions ((begin memory).singles list))
  /-- Whoever asks is answered. -/
  answered :
    ((begin memory).seen list).filterMap Sighting.reader? =
      list.filterMap SharedMove.reader?
  /-- Call after call returns its position under its own number. -/
  returned :
    ∃ underway,
      underway.length ≤ 1 ∧
        ((begin memory).seen list).filterMap Sighting.returned? ++ underway =
          Cache.history ((begin memory).called list)
  /-- Every sample that is given is in all its words that of one call. -/
  whole :
    ∀ given ∈ ((begin memory).seen list).filterMap Sighting.given?,
      given.2.RecordedIn ((begin memory).called list)
  /-- Whoever sees a number, nobody sees a smaller one later. -/
  numbersAscend :
    (((begin memory).seen list).filterMap Sighting.number?).Pairwise (· ≤ ·)
  /-- Once somebody sees data, nobody misses it later. -/
  dataStays :
    (((begin memory).seen list).filterMap Sighting.data?).Pairwise (· ≤ ·)
  /-- No ticket is given twice. -/
  ticketsNodup :
    ((((begin memory).seen list).filterMap Sighting.given?).map
      Prod.fst).Nodup
  /-- Whoever looks at a sample sees the words that were given. -/
  looked :
    ∀ ticket word value,
      .looked ticket word value ∈ (begin memory).seen list →
        ∃ sample,
          (ticket, sample) ∈
              ((begin memory).seen list).filterMap Sighting.given? ∧
            value = SampleWord.of sample word
  /-- A sample stays where it is and as it is until it is let go. -/
  held :
    ∀ earlier later handle,
      list = earlier ++ later →
        handle ∈ ((begin memory).moves earlier).handles →
          .letGo handle.ticket ∉ later →
            handle ∈ ((begin memory).moves list).handles ∧
              ((begin memory).moves list).memory handle.address =
                ((begin memory).moves earlier).memory handle.address

/-- The calls become their numbered samples, of which some are returned. -/
theorem returned_called
    (memory : Nat → Sample)
    (list : List SharedMove) :
    ∃ underway,
      underway.length ≤ 1 ∧
        ((begin memory).seen list).filterMap Sighting.returned? ++ underway =
          Cache.history ((begin memory).called list) := by
  have refines := refines_moves memory list
  have atMostOne := refines.underway
  have returned := AtomicCache.returned_seen ((begin memory).singles list)
  rw [← (refines_begin memory).seen_run list] at returned
  rw [called_eq]
  rcases pending : ((begin memory).moves list).writing.pending with
    _ | ⟨position, rest⟩
  · rw [List.append_nil, ← returned]
    exact ⟨_, by omega, rfl⟩
  · rw [pending, List.length_cons] at atMostOne
    have isLast : rest = [] := List.length_eq_zero_iff.mp (by omega)
    have unanswered :
        (AtomicCache.begin.moves
          ((begin memory).singles list)).answer.toList = [] :=
      List.length_eq_zero_iff.mp (by omega)
    rw [unanswered, List.append_nil] at returned
    rw [isLast, Cache.history_concat, ← returned]
    exact ⟨_, le_refl 1, rfl⟩

/-- However the steps of one writer, of readers and of others fall between each
other, a shared cache keeps to its promises, and it shows no less than a cache
that is updated in single steps. -/
theorem every_interleaving_serves_whole_samples
    (memory : Nat → Sample) :
    (∀ list, ServesWholeSamples memory list) ∧
      ∀ steps, ∃ list,
        (begin memory).seen list = AtomicCache.begin.seen steps := by
  refine ⟨fun list => ?_, fun steps => ?_⟩
  · have refines := refines_moves memory list
    have sameSeen := (refines_begin memory).seen_run list
    have called := called_eq memory list
    have atMostOne := refines.underway
    exact {
      asSingleSteps := sameSeen
      stored := ⟨_, by omega, called⟩
      view := refines.view.trans (AtomicCache.cache_moves _)
      answered := reader_seen (begin memory) list
      returned := returned_called memory list
      whole := by
        intro given isGiven
        rw [sameSeen] at isGiven
        rw [called]
        exact (AtomicCache.given_recorded isGiven).append _
      numbersAscend := by
        rw [sameSeen]
        exact AtomicCache.numbers_ascend _
      dataStays := by
        rw [sameSeen]
        exact AtomicCache.data_stays _
      ticketsNodup := by
        rw [sameSeen, AtomicCache.tickets_seen]
        exact List.nodup_range
      looked := by
        intro ticket word value isLooked
        rw [sameSeen] at isLooked ⊢
        exact AtomicCache.looked_seen isLooked
      held := by
        rintro earlier later handle rfl holds kept
        rw [moves_append]
        exact (refines_moves memory earlier).held_run holds kept }
  · obtain ⟨list, sameSeen, _⟩ := exists_interleaving memory steps
    exact ⟨list, sameSeen⟩

end SharedCache

end PositionFeed
