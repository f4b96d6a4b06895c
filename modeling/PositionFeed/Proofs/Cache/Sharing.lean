import Mathlib.Data.Fintype.EquivFin
import PositionFeed.Proofs.Cache.Atomic

namespace PositionFeed

/-!
# The cache among threads

One writer and any number of readers share a cache.  The slot holds no sample
but the address of one, and so does everybody who has read it: whoever holds an
address owns a part of what stands there, and the last owner to let go frees it.

An update takes its real steps.  The writer looks up the newest number while it
holds the lock for reading, gets a free address, writes the new sample there
word by word, swaps the slot while it holds the lock for writing, and lets the
sample go that the slot held before.  Readers do what they do anywhere between
these steps, and anybody may write into memory that is free.
-/

/-- A part of a sample in memory that somebody owns. -/
structure Handle where
  /-- The number of the handle.  None is given twice. -/
  ticket : Nat
  address : Nat
  deriving Repr, DecidableEq

/-- How far the writer is with an update. -/
inductive Writing where
  | idle
  /-- It knows the newest number. -/
  | loaded (position : Position) (newest : Nat)
  /-- It owns an address and has words of the new sample to write there. -/
  | building (sample : Sample) (address : Nat) (missing : List SampleWord)
  /-- The slot holds the new sample, and the writer what the slot held until it
  lets go of it. -/
  | swapped (address : Nat) (previous : Option Nat)

/-- A cache that is shared, as it stands in memory. -/
structure SharedCache where
  /-- What stands at an address, free or not. -/
  memory : Nat → Sample
  /-- How many owners the sample at an address has. -/
  owners : Nat → Nat
  slot : Option Nat
  writing : Writing
  /-- What readers have read, and callers were given, and have not let go. -/
  handles : List Handle
  /-- How many handles were given. -/
  issued : Nat

/-- One step of the writer, of a reader or of somebody else. -/
inductive SharedMove where
  /-- The writer is called with a position and looks up the newest number. -/
  | load (position : Position)
  | allocate (address : Nat)
  | write (word : SampleWord)
  | swap
  /-- The writer lets the previous sample go. -/
  | release
  /-- The writer returns the new sample. -/
  | finish
  | read (reader : Nat)
  | hasData (reader : Nat)
  | latestSequence (reader : Nat)
  /-- A word of a sample is looked at through a handle. -/
  | look (ticket : Nat) (word : SampleWord)
  | letGo (ticket : Nat)
  /-- Somebody else writes into free memory. -/
  | scribble (address : Nat) (sample : Sample)

/-- Everything but one address stays. -/
def stored (memory : Nat → α) (address : Nat) (value : α) : Nat → α :=
  fun place => if place = address then value else memory place

@[simp] theorem stored_self
    (memory : Nat → α)
    (address : Nat)
    (value : α) :
    stored memory address value address = value :=
  if_pos rfl

@[simp] theorem stored_of_ne
    {memory : Nat → α}
    {address place : Nat}
    {value : α}
    (other : place ≠ address) :
    stored memory address value place = memory place :=
  if_neg other

namespace SharedCache

/-- A cache before its first update, in memory where anything may stand. -/
def begin (memory : Nat → Sample) : SharedCache where
  memory := memory
  owners := fun _ => 0
  slot := none
  writing := .idle
  handles := []
  issued := 0

/-- What the slot holds. -/
def view (shared : SharedCache) : Cache :=
  ⟨shared.slot.map shared.memory⟩

def handle? (shared : SharedCache) (ticket : Nat) : Option Handle :=
  shared.handles.find? (·.ticket = ticket)

/-- An address has one owner more. -/
def gain (shared : SharedCache) (address : Nat) : Nat → Nat :=
  stored shared.owners address (shared.owners address + 1)

/-- An address has one owner less, and is free without any. -/
def lose (shared : SharedCache) (address : Nat) : Nat → Nat :=
  stored shared.owners address (shared.owners address - 1)

/-- A new handle on an address. -/
def give (shared : SharedCache) (address : Nat) : SharedCache :=
  { shared with
    handles := shared.handles ++ [⟨shared.issued, address⟩]
    issued := shared.issued + 1 }

/-- The cache after a step.  A step that its party cannot take changes
nothing. -/
def move (shared : SharedCache) : SharedMove → SharedCache
  | .load position =>
      match shared.writing with
      | .idle =>
          { shared with
            writing := .loaded position shared.view.latestSequence }
      | _ => shared
  | .allocate address =>
      match shared.writing with
      | .loaded position newest =>
          if shared.owners address = 0 then
            { shared with
              owners := shared.gain address
              writing :=
                .building ⟨position, newest + 1⟩ address SampleWord.all }
          else shared
      | _ => shared
  | .write word =>
      match shared.writing with
      | .building sample address missing =>
          { shared with
            memory := stored shared.memory address
              (SampleWord.copied sample (shared.memory address) word)
            writing := .building sample address (missing.erase word) }
      | _ => shared
  | .swap =>
      match shared.writing with
      | .building _ address [] =>
          { shared with
            owners := shared.gain address
            slot := some address
            writing := .swapped address shared.slot }
      | _ => shared
  | .release =>
      match shared.writing with
      | .swapped address (some previous) =>
          { shared with
            owners := shared.lose previous
            writing := .swapped address none }
      | _ => shared
  | .finish =>
      match shared.writing with
      | .swapped address none => { shared.give address with writing := .idle }
      | _ => shared
  | .read _ =>
      match shared.slot with
      | some address =>
          { shared.give address with owners := shared.gain address }
      | none => shared
  | .letGo ticket =>
      match shared.handle? ticket with
      | some handle =>
          { shared with
            owners := shared.lose handle.address
            handles := shared.handles.eraseP (·.ticket = ticket) }
      | none => shared
  | .scribble address sample =>
      if shared.owners address = 0 then
        { shared with memory := stored shared.memory address sample }
      else shared
  | _ => shared

/-- What a step shows. -/
def sees (shared : SharedCache) : SharedMove → Option Sighting
  | .finish =>
      match shared.writing with
      | .swapped address none =>
          some (.returned shared.issued (shared.memory address))
      | _ => none
  | .read reader =>
      match shared.slot with
      | some address =>
          some (.read reader shared.issued (shared.memory address))
      | none => some (.readNothing reader)
  | .hasData reader => some (.hasData reader shared.view.hasData)
  | .latestSequence reader =>
      some (.latestSequence reader shared.view.latestSequence)
  | .look ticket word =>
      (shared.handle? ticket).map fun handle =>
        .looked ticket word (SampleWord.of (shared.memory handle.address) word)
  | _ => none

def moves (shared : SharedCache) (list : List SharedMove) : SharedCache :=
  list.foldl move shared

/-- What is seen over steps. -/
def seen (shared : SharedCache) (list : List SharedMove) : List Sighting :=
  Run.yielded move (fun shared next => (shared.sees next).toList) shared list

/-- The position that the writer is called with in a step. -/
def calls (shared : SharedCache) : SharedMove → Option Position
  | .load position =>
      match shared.writing with
      | .idle => some position
      | _ => none
  | _ => none

/-- The positions that the writer is called with, in order. -/
def called (shared : SharedCache) (list : List SharedMove) : List Position :=
  Run.yielded move (fun shared next => (shared.calls next).toList) shared list

variable {shared : SharedCache} {list : List SharedMove} {next : SharedMove}

@[simp] theorem moves_concat :
    shared.moves (list ++ [next]) = (shared.moves list).move next := by
  simp [moves]

@[simp] theorem seen_concat :
    shared.seen (list ++ [next]) =
      shared.seen list ++ ((shared.moves list).sees next).toList :=
  Run.yielded_concat ..

@[simp] theorem called_concat :
    shared.called (list ++ [next]) =
      shared.called list ++ ((shared.moves list).calls next).toList :=
  Run.yielded_concat ..

end SharedCache

/-! ## Owners -/

/-- The addresses that the writer owns. -/
def Writing.held : Writing → List Nat
  | .building _ address _ => [address]
  | .swapped address previous => address :: previous.toList
  | _ => []

namespace SharedCache

/-- The addresses that somebody can read at. -/
def visible (shared : SharedCache) : List Nat :=
  shared.slot.toList ++ shared.handles.map Handle.address

/-- The addresses that are owned, once for each owner. -/
def held (shared : SharedCache) : List Nat :=
  shared.writing.held ++ shared.visible

/-- The owners of every address are counted. -/
def Counts (owners : Nat → Nat) (held : List Nat) : Prop :=
  ∀ address, owners address = held.count address

variable {shared : SharedCache} {held later : List Nat} {address : Nat}

theorem Counts.perm
    (counted : Counts shared.owners held)
    (same : later.Perm held) :
    Counts shared.owners later :=
  fun place => (counted place).trans (same.count_eq place).symm

theorem Counts.gain
    (counted : Counts shared.owners held)
    (same : later.Perm (address :: held)) :
    Counts (shared.gain address) later := by
  intro place
  rw [same.count_eq, SharedCache.gain]
  by_cases isAddress : place = address
  · subst isAddress
    rw [stored_self, counted, List.count_cons_self]
  · rw [stored_of_ne isAddress, counted,
      List.count_cons_of_ne (Ne.symm isAddress)]

theorem Counts.lose
    (counted : Counts shared.owners held)
    (same : held.Perm (address :: later)) :
    Counts (shared.lose address) later := by
  intro place
  have before := counted place
  rw [same.count_eq] at before
  rw [SharedCache.lose]
  by_cases isAddress : place = address
  · subst isAddress
    rw [stored_self, before, List.count_cons_self, Nat.add_sub_cancel]
  · rw [stored_of_ne isAddress, before,
      List.count_cons_of_ne (Ne.symm isAddress)]

/-- Nobody owns what is free. -/
theorem Counts.notMem_of_free
    (counted : Counts shared.owners held)
    (free : shared.owners address = 0) :
    address ∉ held :=
  List.count_eq_zero.mp ((counted address).symm.trans free)

/-- There is always free memory. -/
theorem Counts.exists_free
    (counted : Counts shared.owners held) :
    ∃ address, shared.owners address = 0 := by
  obtain ⟨address, absent⟩ := Infinite.exists_notMem_finset held.toFinset
  refine ⟨address, (counted address).trans ?_⟩
  rw [List.count_eq_zero, ← List.mem_toFinset]
  exact absent

end SharedCache

end PositionFeed
