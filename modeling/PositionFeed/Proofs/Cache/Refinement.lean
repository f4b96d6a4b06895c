import PositionFeed.Proofs.Cache.Sharing

namespace PositionFeed

/-!
# Interleaved updates are single steps

A shared cache shows whatever a cache shows that is updated in single steps.
An update takes place in the moment in which the slot is swapped.  Until then
the new sample stands where nobody can read, and from then on nobody writes
there as long as the sample has an owner.
-/

/-- The single step that a step comes to. -/
def SharedCache.single (shared : SharedCache) : SharedMove → Option AtomicMove
  | .swap =>
      match shared.writing with
      | .building sample _ [] => some (.update sample.position)
      | _ => none
  | .finish =>
      match shared.writing with
      | .swapped _ none => some .answer
      | _ => none
  | .read reader => some (.read reader)
  | .hasData reader => some (.hasData reader)
  | .latestSequence reader => some (.latestSequence reader)
  | .look ticket word => some (.look ticket word)
  | .letGo ticket => some (.letGo ticket)
  | _ => none

/-- The single steps that steps come to. -/
def SharedCache.singles (shared : SharedCache) (list : List SharedMove) :
    List AtomicMove :=
  Run.yielded move (fun shared next => (shared.single next).toList) shared list

/-- The position that the writer was called with and has not stored. -/
def Writing.pending : Writing → List Position
  | .loaded position _ => [position]
  | .building sample _ _ => [sample.position]
  | _ => []

/-- How far the writer is agrees with a cache that is updated in single
steps. -/
def Writing.Agrees
    (memory : Nat → Sample)
    (visible : List Nat)
    (atomic : AtomicCache) :
    Writing → Prop
  | .idle => atomic.answer = none
  | .loaded _ newest =>
      atomic.answer = none ∧ newest = atomic.cache.latestSequence
  | .building sample address missing =>
      atomic.answer = none ∧
        sample = atomic.cache.nextSample sample.position ∧
        address ∉ visible ∧
        ∀ word, word ∉ missing →
          SampleWord.of (memory address) word = SampleWord.of sample word
  | .swapped address _ => atomic.answer = some (memory address)

namespace Writing.Agrees

variable {memory : Nat → Sample} {visible later : List Nat}
  {atomic next : AtomicCache} {writing : Writing}

/-- The writer does not mind that less can be read, or what copies are
given. -/
theorem mono
    (agrees : writing.Agrees memory visible atomic)
    (less : ∀ address ∈ later, address ∈ visible)
    (sameCache : next.cache = atomic.cache)
    (sameAnswer : next.answer = atomic.answer) :
    writing.Agrees memory later next := by
  cases writing with
  | idle | loaded | swapped =>
      simpa only [Writing.Agrees, sameCache, sameAnswer] using agrees
  | building sample address missing =>
      obtain ⟨unanswered, numbered, apart, written⟩ := agrees
      exact ⟨sameAnswer.trans unanswered, sameCache ▸ numbered,
        fun member => apart (less address member), written⟩

/-- The writer does not mind what happens to memory that it does not own. -/
theorem stored
    (agrees : writing.Agrees memory visible atomic)
    {address : Nat}
    (absent : address ∉ writing.held)
    (sample : Sample) :
    writing.Agrees (stored memory address sample) visible atomic := by
  cases writing with
  | idle | loaded =>
      exact agrees
  | building built own missing =>
      have other : own ≠ address :=
        fun same => absent (by simp [Writing.held, same])
      simpa only [Writing.Agrees, stored_of_ne other] using agrees
  | swapped own previous =>
      have other : own ≠ address :=
        fun same => absent (by simp [Writing.held, same])
      simpa only [Writing.Agrees, stored_of_ne other] using agrees

end Writing.Agrees

namespace SharedCache

attribute [simp] move

/-- What somebody has who holds a handle. -/
def copy (shared : SharedCache) (handle : Handle) : Nat × Sample :=
  (handle.ticket, shared.memory handle.address)

/-- A shared cache stands as a cache that is updated in single steps. -/
structure Refines (shared : SharedCache) (atomic : AtomicCache) : Prop where
  view : shared.view = atomic.cache
  copies : shared.handles.map shared.copy = atomic.copies
  issued : shared.issued = atomic.issued
  counted : Counts shared.owners shared.held
  agrees : shared.writing.Agrees shared.memory shared.visible atomic

theorem refines_begin
    (memory : Nat → Sample) :
    (begin memory).Refines .begin where
  view := rfl
  copies := rfl
  issued := rfl
  counted := fun _ => rfl
  agrees := rfl

variable {shared : SharedCache} {atomic : AtomicCache}

/-- What stands where nobody can read is not missed. -/
theorem view_stored
    {address : Nat}
    (absent : address ∉ shared.visible)
    (sample : Sample) :
    { shared with memory := stored shared.memory address sample }.view =
      shared.view := by
  rcases slot : shared.slot with _ | own
  · simp [view, slot]
  · have other : own ≠ address :=
      fun same => absent (by simp [visible, slot, same])
    simp [view, slot, stored_of_ne other]

theorem copies_stored
    {address : Nat}
    (absent : address ∉ shared.visible)
    (sample : Sample) :
    shared.handles.map
        { shared with memory := stored shared.memory address sample }.copy =
      shared.handles.map shared.copy := by
  refine List.map_congr_left ?_
  intro handle member
  have other : handle.address ≠ address := by
    rintro rfl
    exact absent (List.mem_append_right _ (List.mem_map_of_mem member))
  simp [copy, stored_of_ne other]

namespace Refines

theorem latest
    (refines : shared.Refines atomic) :
    atomic.cache.latest = shared.slot.map shared.memory := by
  rw [← refines.view]
  rfl

/-- The writer is so far as it is. -/
theorem inPhase
    (refines : shared.Refines atomic)
    {phase : Writing}
    (isPhase : shared.writing = phase) :
    Counts shared.owners (phase.held ++ shared.visible) ∧
      phase.Agrees shared.memory shared.visible atomic := by
  subst isPhase
  exact ⟨refines.counted, refines.agrees⟩

/-! ## Steps of the writer -/

theorem load
    (refines : shared.Refines atomic)
    (position : Position) :
    (shared.move (.load position)).Refines atomic := by
  rcases writing : shared.writing with _ | _ | _ | _
  case idle =>
    obtain ⟨counted, unanswered⟩ := refines.inPhase writing
    simp only [move, writing]
    exact {
      view := refines.view
      copies := refines.copies
      issued := refines.issued
      counted := counted
      agrees := ⟨unanswered, congrArg _ refines.view⟩ }
  all_goals
    simpa only [move, writing] using refines

theorem allocate
    (refines : shared.Refines atomic)
    (address : Nat) :
    (shared.move (.allocate address)).Refines atomic := by
  rcases writing : shared.writing with _ | ⟨position, newest⟩ | _ | _
  case loaded =>
    obtain ⟨counted, unanswered, sameNewest⟩ := refines.inPhase writing
    by_cases free : shared.owners address = 0
    · simp only [move, writing, free, ↓reduceIte]
      exact {
        view := refines.view
        copies := refines.copies
        issued := refines.issued
        counted := counted.gain (List.Perm.refl _)
        agrees :=
          ⟨unanswered, by rw [sameNewest]; rfl,
            counted.notMem_of_free free,
            fun word absent => absurd (SampleWord.mem_all word) absent⟩ }
    · simpa only [move, writing, free, ↓reduceIte] using refines
  all_goals
    simpa only [move, writing] using refines

theorem write
    (refines : shared.Refines atomic)
    (word : SampleWord) :
    (shared.move (.write word)).Refines atomic := by
  rcases writing : shared.writing with _ | _ | ⟨sample, address, missing⟩ | _
  case building =>
    obtain ⟨counted, unanswered, numbered, apart, written⟩ :=
      refines.inPhase writing
    have writtenNow :
        ∀ place, place ∉ missing.erase word →
          SampleWord.of
              (SampleWord.copied sample (shared.memory address) word) place =
            SampleWord.of sample place := by
      intro place notMissing
      rw [SampleWord.of_copied]
      by_cases isWord : place = word
      · rw [if_pos isWord]
      · rw [if_neg isWord]
        refine written place fun member => notMissing ?_
        exact (List.mem_erase_of_ne isWord).mpr member
    simp only [move, writing]
    exact {
      view := (view_stored apart _).trans refines.view
      copies := (copies_stored apart _).trans refines.copies
      issued := refines.issued
      counted := counted
      agrees :=
        ⟨unanswered, numbered, apart,
          by simpa only [stored_self] using writtenNow⟩ }
  all_goals
    simpa only [move, writing] using refines

/-- The swap is the update.  The sample was written in full, so the slot gets
what the update stores. -/
theorem swap
    (refines : shared.Refines atomic)
    {sample : Sample}
    {address : Nat}
    (writing : shared.writing = .building sample address []) :
    (shared.move .swap).Refines (atomic.move (.update sample.position)) := by
  obtain ⟨counted, unanswered, numbered, _, written⟩ :=
    refines.inPhase writing
  have whole : shared.memory address = sample :=
    SampleWord.eq_of_words fun word => written word List.not_mem_nil
  simp only [move, writing, AtomicCache.move, unanswered]
  exact {
    view := by
      rw [Cache.update, ← numbered]
      exact congrArg (fun stored => Cache.mk (some stored)) whole
    copies := refines.copies
    issued := refines.issued
    counted := by
      refine counted.gain (List.perm_iff_count.mpr fun place => ?_)
      simp only [held, visible, Writing.held, List.count_append,
        List.count_cons, Option.toList_some, List.count_nil]
      omega
    agrees := by
      rw [Writing.Agrees, ← numbered, whole] }

theorem release
    (refines : shared.Refines atomic) :
    (shared.move .release).Refines atomic := by
  rcases writing : shared.writing with
    _ | _ | _ | ⟨address, previous | previous⟩
  case swapped.some =>
    obtain ⟨counted, answered⟩ := refines.inPhase writing
    simp only [move, writing]
    exact {
      view := refines.view
      copies := refines.copies
      issued := refines.issued
      counted := counted.lose (List.Perm.swap previous address _)
      agrees := answered }
  all_goals
    simpa only [move, writing] using refines

theorem finish
    (refines : shared.Refines atomic)
    {address : Nat}
    (writing : shared.writing = .swapped address none) :
    (shared.move .finish).Refines (atomic.move .answer) := by
  obtain ⟨counted, answered⟩ := refines.inPhase writing
  rw [Writing.Agrees] at answered
  simp only [move, writing, AtomicCache.move, answered]
  exact {
    view := refines.view
    copies := by
      simp only [give, AtomicCache.give, List.map_append, List.map_cons,
        List.map_nil, ← refines.copies, ← refines.issued]
      rfl
    issued := congrArg (· + 1) refines.issued
    counted := by
      refine counted.perm (List.perm_iff_count.mpr fun place => ?_)
      simp only [give, held, visible, Writing.held, List.map_append,
        List.map_cons, List.map_nil, List.count_append, List.count_cons,
        Option.toList_none, List.count_nil]
      omega
    agrees := rfl }

/-! ## Steps of others -/

theorem read
    (refines : shared.Refines atomic)
    (reader : Nat) :
    (shared.move (.read reader)).Refines (atomic.move (.read reader)) := by
  have latest := refines.latest
  rcases slot : shared.slot with _ | address
  · rw [slot, Option.map_none] at latest
    simpa only [move, slot, AtomicCache.move, latest] using refines
  · rw [slot, Option.map_some] at latest
    simp only [move, slot, AtomicCache.move, latest]
    exact {
      view := refines.view
      copies := by
        simp only [give, AtomicCache.give, List.map_append, List.map_cons,
          List.map_nil, ← refines.copies, ← refines.issued]
        rfl
      issued := congrArg (· + 1) refines.issued
      counted := by
        refine refines.counted.gain (List.perm_iff_count.mpr fun place => ?_)
        simp only [give, held, visible, List.map_append, List.map_cons,
          List.map_nil, List.count_append, List.count_cons, List.count_nil]
        omega
      agrees := by
        refine refines.agrees.mono ?_ rfl rfl
        intro place member
        simp only [visible, give, List.map_append, List.mem_append] at member
        simp only [visible, List.mem_append]
        rcases member with inSlot | held | given
        · exact Or.inl inSlot
        · exact Or.inr held
        · exact Or.inl (by simpa [slot, eq_comm] using given) }

theorem letGo
    (refines : shared.Refines atomic)
    (ticket : Nat) :
    (shared.move (.letGo ticket)).Refines (atomic.move (.letGo ticket)) := by
  have sameCopies :
      (shared.handles.eraseP (·.ticket = ticket)).map shared.copy =
        atomic.copies.eraseP (·.1 = ticket) := by
    rw [← refines.copies, List.eraseP_map]
    rfl
  rcases found : shared.handle? ticket with _ | handle
  · have stays : shared.handles.eraseP (·.ticket = ticket) = shared.handles :=
      List.eraseP_of_forall_not (by simpa [handle?] using found)
    rw [stays] at sameCopies
    simp only [move, found, AtomicCache.move, ← sameCopies, refines.copies]
    exact refines
  · obtain ⟨isTicket, before, after, split, others⟩ :=
      List.find?_eq_some_iff_append.mp found
    have erased :
        shared.handles.eraseP (·.ticket = ticket) = before ++ after := by
      rw [split, List.eraseP_append_right _ (by simpa using others),
        List.eraseP_cons_of_pos (by simpa using isTicket)]
    have addresses :
        (shared.handles.map Handle.address).Perm
          (handle.address ::
            (shared.handles.eraseP (·.ticket = ticket)).map
              Handle.address) := by
      rw [erased, split, ← List.map_cons]
      exact List.perm_middle.map _
    simp only [move, found, AtomicCache.move]
    exact {
      view := refines.view
      copies := sameCopies
      issued := refines.issued
      counted := by
        refine refines.counted.lose (List.perm_iff_count.mpr fun place => ?_)
        have counts := addresses.count_eq place
        simp only [held, visible, List.count_append, List.count_cons]
          at counts ⊢
        omega
      agrees := by
        refine refines.agrees.mono ?_ rfl rfl
        intro place member
        rcases List.mem_append.mp member with inSlot | inHandles
        · exact List.mem_append_left _ inSlot
        · exact List.mem_append_right _
            ((List.eraseP_sublist.map _).subset inHandles) }

theorem scribble
    (refines : shared.Refines atomic)
    (address : Nat)
    (sample : Sample) :
    (shared.move (.scribble address sample)).Refines atomic := by
  by_cases free : shared.owners address = 0
  · have absent := refines.counted.notMem_of_free free
    rw [held, List.mem_append, not_or] at absent
    simp only [move, free, ↓reduceIte]
    exact {
      view := (view_stored absent.2 sample).trans refines.view
      copies := (copies_stored absent.2 sample).trans refines.copies
      issued := refines.issued
      counted := refines.counted
      agrees := refines.agrees.stored absent.1 sample }
  · simpa only [move, free, ↓reduceIte] using refines

/-! ## All steps -/

/-- Every step comes to its single step or to none. -/
theorem move
    (refines : shared.Refines atomic)
    (next : SharedMove) :
    (shared.move next).Refines
      ((shared.single next).elim atomic atomic.move) := by
  cases next with
  | load position =>
      exact refines.load position
  | allocate address =>
      exact refines.allocate address
  | write word =>
      exact refines.write word
  | swap =>
      rcases writing : shared.writing with _ | _ | ⟨sample, address, _ | _⟩ | _
      case building.nil =>
        simpa only [single, writing, Option.elim] using refines.swap writing
      all_goals
        simpa only [SharedCache.move, single, writing, Option.elim]
          using refines
  | release =>
      exact refines.release
  | finish =>
      rcases writing : shared.writing with _ | _ | _ | ⟨address, _ | _⟩
      case swapped.none =>
        simpa only [single, writing, Option.elim] using refines.finish writing
      all_goals
        simpa only [SharedCache.move, single, writing, Option.elim]
          using refines
  | read reader =>
      exact refines.read reader
  | letGo ticket =>
      exact refines.letGo ticket
  | scribble address sample =>
      exact refines.scribble address sample
  | hasData | latestSequence | look =>
      exact refines

/-- A step shows what its single step shows. -/
theorem sees
    (refines : shared.Refines atomic)
    (next : SharedMove) :
    shared.sees next = (shared.single next).bind atomic.sees := by
  cases next with
  | finish =>
      rcases writing : shared.writing with _ | _ | _ | ⟨address, _ | _⟩
      case swapped.none =>
        have answered := (refines.inPhase writing).2
        rw [Writing.Agrees] at answered
        simp [SharedCache.sees, single, writing, AtomicCache.sees, answered,
          refines.issued]
      all_goals
        simp [SharedCache.sees, single, writing]
  | read reader =>
      have latest := refines.latest
      rcases slot : shared.slot with _ | address <;>
        simp [SharedCache.sees, single, slot, AtomicCache.sees, latest,
          refines.issued]
  | hasData | latestSequence =>
      simp [SharedCache.sees, single, AtomicCache.sees, refines.view]
  | look ticket word =>
      have sameCopy :
          atomic.copy? ticket = (shared.handle? ticket).map shared.copy := by
        rw [AtomicCache.copy?, ← refines.copies, List.find?_map]
        rfl
      simp only [SharedCache.sees, single, Option.bind_some, AtomicCache.sees,
        sameCopy, Option.map_map]
      rfl
  | swap =>
      rcases writing : shared.writing with
        _ | _ | ⟨sample, address, _ | _⟩ | _ <;>
        simp [SharedCache.sees, single, writing, AtomicCache.sees]
  | load | allocate | write | release | letGo | scribble =>
      rfl

/-- The position of a call is pending until its single step stores it. -/
theorem pending
    (refines : shared.Refines atomic)
    (next : SharedMove) :
    shared.writing.pending ++ (shared.calls next).toList =
      ((shared.single next).bind atomic.stores).toList ++
        (shared.move next).writing.pending := by
  cases next with
  | load position =>
      rcases writing : shared.writing with _ | _ | _ | _ <;>
        simp [SharedCache.move, calls, single, writing, Writing.pending]
  | allocate address =>
      by_cases free : shared.owners address = 0 <;>
        rcases writing : shared.writing with _ | ⟨position, newest⟩ | _ | _ <;>
        simp [SharedCache.move, calls, single, writing, free, Writing.pending]
  | write word =>
      rcases writing : shared.writing with _ | _ | _ | _ <;>
        simp [SharedCache.move, calls, single, writing, Writing.pending]
  | swap =>
      rcases writing : shared.writing with _ | _ | ⟨sample, address, _ | _⟩ | _
      case building.nil =>
        have unanswered := (refines.inPhase writing).2.1
        simp [SharedCache.move, calls, single, writing, Writing.pending,
          AtomicCache.stores, unanswered]
      all_goals
        simp [SharedCache.move, calls, single, writing, Writing.pending]
  | release | finish =>
      rcases writing : shared.writing with _ | _ | _ | ⟨address, _ | _⟩ <;>
        simp [SharedCache.move, calls, single, writing, Writing.pending,
          AtomicCache.stores]
  | read reader =>
      rcases slot : shared.slot with _ | address <;>
        simp [SharedCache.move, calls, single, slot, give, AtomicCache.stores]
  | letGo ticket =>
      rcases found : shared.handle? ticket with _ | handle <;>
        simp [SharedCache.move, calls, single, found, AtomicCache.stores]
  | scribble address sample =>
      by_cases free : shared.owners address = 0 <;>
        simp [SharedCache.move, calls, single, free]
  | hasData | latestSequence | look =>
      simp [SharedCache.move, calls, single, AtomicCache.stores]

end Refines

end SharedCache

end PositionFeed
