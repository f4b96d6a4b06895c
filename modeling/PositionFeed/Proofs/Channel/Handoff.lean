import Mathlib.Data.List.Perm.Subperm
import PositionFeed.Channel.Distributor
import PositionFeed.Proofs.Cache.History

namespace PositionFeed

/-!
# What a distributor hands over

A tick hands a sample over when it finds one to hand on and the sink takes it.
Everything else about a tick is said in terms of that sample: the cursor moves
exactly when there is one, and then to its number.

A `Ledger` holds what a distributor that started with nothing has handed over
in all, against the positions that entered the cache meanwhile.
-/

namespace Distributor

/-- The sample that the sink takes in a tick, if it takes one. -/
def accepts
    (distributor : Distributor)
    (latest : Option Sample)
    (audience : Bool)
    (answer : Sample → Except Fault Unit) :
    Option Sample :=
  match distributor.decide latest audience with
  | .rest _ => none
  | .handOff sample =>
      match answer sample with
      | .ok () => some sample
      | .error _ => none

/-- A tick hands on the newest sample if it is newer than the cursor and the
policy allows it. -/
theorem decide_eq_handOff_iff
    {distributor : Distributor}
    {latest : Option Sample}
    {audience : Bool}
    {sample : Sample} :
    distributor.decide latest audience = .handOff sample ↔
      latest = some sample ∧
        distributor.cursor < sample.sequence ∧
        (distributor.policy = .requireAudience → audience = true) := by
  cases latest with
  | none =>
      simp [decide]
  | some newest =>
      by_cases notNewer : newest.sequence ≤ distributor.cursor
      · simp only [decide, notNewer, ↓reduceIte, reduceCtorEq,
          Option.some.injEq, false_iff]
        rintro ⟨rfl, newer, _⟩
        omega
      · by_cases unheard :
            distributor.policy = .requireAudience ∧ ¬ audience
        · simp only [decide, notNewer, if_pos unheard, ↓reduceIte,
            reduceCtorEq, Option.some.injEq, false_iff]
          rintro ⟨_, _, allowed⟩
          exact unheard.2 (allowed unheard.1)
        · simp only [decide, notNewer, if_neg unheard, ↓reduceIte,
            Decision.handOff.injEq, Option.some.injEq]
          constructor
          · rintro rfl
            refine ⟨rfl, by omega, fun required => ?_⟩
            simpa [required] using unheard
          · exact fun found => found.1

/-- A tick is stale when the newest sample is not newer than the cursor. -/
theorem decide_eq_stale_iff
    {distributor : Distributor}
    {latest : Option Sample}
    {audience : Bool} :
    distributor.decide latest audience = .rest .stale ↔
      ∃ sample, latest = some sample ∧
        sample.sequence ≤ distributor.cursor := by
  cases latest with
  | none =>
      simp [decide]
  | some newest =>
      by_cases notNewer : newest.sequence ≤ distributor.cursor
      · simp [decide, notNewer]
      · by_cases unheard :
            distributor.policy = .requireAudience ∧ ¬ audience
        · simp [decide, notNewer, unheard.1, unheard.2]
        · simp only [decide, notNewer, if_neg unheard, ↓reduceIte]
          simpa using notNewer

/-- The sink takes only the newest sample, and only one above the cursor. -/
theorem accepts_eq_some_iff
    {distributor : Distributor}
    {latest : Option Sample}
    {audience : Bool}
    {answer : Sample → Except Fault Unit}
    {sample : Sample} :
    distributor.accepts latest audience answer = some sample ↔
      distributor.decide latest audience = .handOff sample ∧
        answer sample = .ok () := by
  unfold accepts
  cases decision : distributor.decide latest audience with
  | rest outcome =>
      simp
  | handOff offered =>
      simp only [Decision.handOff.injEq]
      cases answered : answer offered with
      | ok taken =>
          simp only [Option.some.injEq]
          constructor
          · rintro rfl
            exact ⟨rfl, answered⟩
          · exact fun found => found.1
      | error fault =>
          simp only [reduceCtorEq, false_iff]
          rintro ⟨rfl, taken⟩
          simp [answered] at taken

/-- A tick moves the cursor to what the sink took, and nowhere else. -/
theorem cursor_tick
    (distributor : Distributor)
    (latest : Option Sample)
    (audience : Bool)
    (now : Int64)
    (answer : Sample → Except Fault Unit) :
    (distributor.tick latest audience now answer).1.cursor =
      (distributor.accepts latest audience answer).elim
        distributor.cursor Sample.sequence := by
  unfold tick accepts
  cases distributor.decide latest audience with
  | rest outcome =>
      rfl
  | handOff sample =>
      simp only [settle]
      cases answer sample <;> rfl

/-- A tick answers that it forwarded a sample exactly when the sink took
it. -/
theorem tick_eq_forwarded_iff
    {distributor : Distributor}
    {latest : Option Sample}
    {audience : Bool}
    {now : Int64}
    {answer : Sample → Except Fault Unit}
    {sequence : Nat} :
    (distributor.tick latest audience now answer).2.1 =
        .ok (.forwarded sequence) ↔
      ∃ sample, distributor.accepts latest audience answer = some sample ∧
        sample.sequence = sequence := by
  unfold tick accepts
  cases decision : distributor.decide latest audience with
  | rest outcome =>
      simp only [settleRest, reduceCtorEq, false_and, exists_false,
        Except.ok.injEq, iff_false]
      rintro rfl
      cases latest with
      | none =>
          simp [decide] at decision
      | some newest =>
          simp only [decide] at decision
          split at decision
          · cases decision
          · split at decision <;> cases decision
  | handOff sample =>
      simp only [settle]
      cases answer sample <;> simp

/-- A tick answers that it is stale exactly when it decides so. -/
theorem tick_eq_stale_iff
    {distributor : Distributor}
    {latest : Option Sample}
    {audience : Bool}
    {now : Int64}
    {answer : Sample → Except Fault Unit} :
    (distributor.tick latest audience now answer).2.1 = .ok .stale ↔
      distributor.decide latest audience = .rest .stale := by
  unfold tick
  cases distributor.decide latest audience with
  | rest outcome =>
      simp [settleRest]
  | handOff sample =>
      simp only [settle, reduceCtorEq, iff_false]
      cases answer sample <;> simp

end Distributor

/-- What a distributor with the given cursor has handed over since its
beginning, while these positions entered the cache. -/
structure Ledger
    (positions : List Position)
    (cursor : Nat)
    (accepted : List Sample) : Prop where
  ascending :
    (accepted.map Sample.sequence).Pairwise (· < ·)
  cursorIsLast :
    cursor = accepted.getLast?.elim 0 Sample.sequence
  recorded :
    ∀ sample ∈ accepted, sample.RecordedIn positions

namespace Ledger

/-- The ledger of a distributor that has not begun. -/
theorem begin : Ledger [] 0 [] where
  ascending := .nil
  cursorIsLast := rfl
  recorded := by simp

/-- No number in a ledger is above the cursor. -/
theorem sequence_le_cursor
    {positions : List Position}
    {cursor : Nat}
    {accepted : List Sample}
    (ledger : Ledger positions cursor accepted)
    {sample : Sample}
    (member : sample ∈ accepted) :
    sample.sequence ≤ cursor := by
  obtain ⟨earlier, last, rfl⟩ :=
    (List.eq_nil_or_concat' accepted).resolve_left
      (List.ne_nil_of_mem member)
  have cursorShape : cursor = last.sequence := by
    simpa using ledger.cursorIsLast
  rcases List.mem_append.mp member with inEarlier | isLast
  · have below := ledger.ascending
    rw [List.map_append, List.pairwise_append] at below
    have := below.2.2 sample.sequence
      (List.mem_map_of_mem inEarlier) last.sequence (by simp)
    omega
  · have same : sample.sequence = cursor := by
      rw [List.mem_singleton.mp isLast, cursorShape]
    exact Nat.le_of_eq same

/-- The cursor never exceeds the number of positions. -/
theorem cursor_le
    {positions : List Position}
    {cursor : Nat}
    {accepted : List Sample}
    (ledger : Ledger positions cursor accepted) :
    cursor ≤ positions.length := by
  rw [ledger.cursorIsLast]
  cases last : accepted.getLast? with
  | none =>
      simp
  | some sample =>
      exact (ledger.recorded sample
        (List.mem_of_getLast? last)).sequence_le

/-- No more samples are in a ledger than the cursor says. -/
theorem length_le_cursor
    {positions : List Position}
    {cursor : Nat}
    {accepted : List Sample}
    (ledger : Ledger positions cursor accepted) :
    accepted.length ≤ cursor := by
  have distinct : (accepted.map Sample.sequence).Nodup :=
    ledger.ascending.imp Nat.ne_of_lt
  have numbers :
      accepted.map Sample.sequence ⊆ List.range' 1 cursor := by
    intro number member
    obtain ⟨sample, isThere, rfl⟩ := List.mem_map.mp member
    have positive := (ledger.recorded sample isThere).1
    have bounded := ledger.sequence_le_cursor isThere
    rw [List.mem_range'_1]
    omega
  simpa using (List.subperm_of_subset distinct numbers).length_le

/-- A ledger stays right while positions enter the cache. -/
theorem update
    {positions : List Position}
    {cursor : Nat}
    {accepted : List Sample}
    (ledger : Ledger positions cursor accepted)
    (later : List Position) :
    Ledger (positions ++ later) cursor accepted where
  ascending := ledger.ascending
  cursorIsLast := ledger.cursorIsLast
  recorded sample member :=
    (ledger.recorded sample member).append later

/-- A ledger stays right when a newer recorded sample is handed over. -/
theorem accept
    {positions : List Position}
    {cursor : Nat}
    {accepted : List Sample}
    (ledger : Ledger positions cursor accepted)
    {sample : Sample}
    (recorded : sample.RecordedIn positions)
    (newer : cursor < sample.sequence) :
    Ledger positions sample.sequence (accepted ++ [sample]) where
  ascending := by
    rw [List.map_append, List.pairwise_append]
    refine ⟨ledger.ascending, by simp, ?_⟩
    intro earlier earlierMember last lastMember
    obtain ⟨before, beforeMember, rfl⟩ := List.mem_map.mp earlierMember
    have lastShape : last = sample.sequence := by
      simpa using lastMember
    have := ledger.sequence_le_cursor beforeMember
    omega
  cursorIsLast := by
    simp
  recorded other member := by
    rcases List.mem_append.mp member with inAccepted | isNew
    · exact ledger.recorded other inAccepted
    · rw [List.mem_singleton.mp isNew]
      exact recorded

/-- A ledger stays right over a tick against the cache. -/
theorem tick
    {positions : List Position}
    {accepted : List Sample}
    {distributor : Distributor}
    (ledger : Ledger positions distributor.cursor accepted)
    (audience : Bool)
    (now : Int64)
    (answer : Sample → Except Fault Unit) :
    let latest := (Cache.ofUpdates positions).latest
    Ledger positions
      (distributor.tick latest audience now answer).1.cursor
      (accepted ++ (distributor.accepts latest audience answer).toList) := by
  intro latest
  rw [distributor.cursor_tick]
  cases taken : distributor.accepts latest audience answer with
  | none =>
      simpa using ledger
  | some sample =>
      have decision := (Distributor.accepts_eq_some_iff.mp taken).1
      obtain ⟨held, newer, _⟩ :=
        Distributor.decide_eq_handOff_iff.mp decision
      exact ledger.accept (.of_latest held) newer

end Ledger

end PositionFeed
