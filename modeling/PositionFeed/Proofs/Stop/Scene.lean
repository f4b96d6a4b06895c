import Mathlib.Data.List.Induction
import Mathlib.Data.List.Nodup
import PositionFeed.Channel.Outlet
import PositionFeed.Stop.Signal

namespace PositionFeed

/-!
# Stop signals among their callers

Signals are shared: a clone is another way to the same signal.  Callers come
through any clone, and a trigger call takes two steps, between which others do
as they like.  Push servers are started with a signal and stopped or dropped at
any time.

Whatever happens, the flag of a signal is up as soon as a call has begun, one
call found it down, and the tokens that are cancelled are those of the signals
that calls have returned from and those of the servers that have ended.
-/

/-- A trigger call that has begun. -/
structure TriggerCall where
  /-- The position of the signal. -/
  signal : Nat
  /-- What the call will return: whether it found the flag down. -/
  first : Bool
  /-- Whether it has returned. -/
  returned : Bool
  deriving Repr, DecidableEq

/-- A push server and the signal that it was started with. -/
structure Serving where
  /-- The position of the signal. -/
  signal : Nat
  outlet : PushOutlet
  /-- Whether the server was stopped or dropped. -/
  halted : Bool
  deriving Repr, DecidableEq

namespace Serving

/-- The token that stops the server. -/
def token (serving : Serving) : Token := serving.outlet.server.token

end Serving

/-- Signals with all that is around them. -/
structure StopScene where
  tokens : Tokens
  signals : List StopSignal
  /-- For every clone the position of the signal that it shares. -/
  clones : List Nat
  /-- The trigger calls, in the order in which they began. -/
  calls : List TriggerCall
  /-- The push servers, in the order in which they were started. -/
  servings : List Serving
  deriving Repr, DecidableEq

/-- What happens in a scene. -/
inductive StopMove where
  /-- A new signal, with one clone. -/
  | create
  /-- A clone is cloned. -/
  | clone (original : Nat)
  /-- A trigger call through a clone takes its first step. -/
  | raise (clone : Nat)
  /-- A trigger call takes its second step and returns. -/
  | cancel (call : Nat)
  /-- A push server starts with the signal of a clone. -/
  | serve (clone : Nat) (name : String)
  /-- A push server is stopped. -/
  | stop (serving : Nat)
  /-- A push server is dropped. -/
  | drop (serving : Nat)
  deriving Repr, DecidableEq

namespace StopScene

/-- Nothing was made so far. -/
def begin : StopScene := ⟨.empty, [], [], [], []⟩

/-- The signal that a clone shares, with its position. -/
def shared? (scene : StopScene) (clone : Nat) : Option (Nat × StopSignal) := do
  let position ← scene.clones[clone]?
  let signal ← scene.signals[position]?
  return (position, signal)

/-- Whether a clone says that its signal was triggered. -/
def isTriggered (scene : StopScene) (clone : Nat) : Bool :=
  (scene.shared? clone).any fun shared =>
    shared.2.isTriggered scene.tokens

/-- The scene after a push server ended with these tokens. -/
def halt
    (scene : StopScene)
    (position : Nat)
    (serving : Serving)
    (tokens : Tokens) : StopScene :=
  { scene with
    tokens := tokens
    servings :=
      scene.servings.set position { serving with halted := true } }

/-- What a move makes of a scene.  A move that is not possible changes
nothing. -/
def move (scene : StopScene) : StopMove → StopScene
  | .create =>
      let (signal, tokens) := StopSignal.fresh scene.tokens
      { scene with
        tokens := tokens
        signals := scene.signals ++ [signal]
        clones := scene.clones ++ [scene.signals.length] }
  | .clone original =>
      match scene.clones[original]? with
      | none => scene
      | some position => { scene with clones := scene.clones ++ [position] }
  | .raise clone =>
      match scene.shared? clone with
      | none => scene
      | some (position, signal) =>
          let (first, signal) := signal.raise
          { scene with
            signals := scene.signals.set position signal
            calls := scene.calls ++ [⟨position, first, false⟩] }
  | .cancel call =>
      match scene.calls[call]? with
      | some ⟨position, first, false⟩ =>
          match scene.signals[position]? with
          | none => scene
          | some signal =>
              { scene with
                tokens := signal.cancel scene.tokens
                calls := scene.calls.set call ⟨position, first, true⟩ }
      | _ => scene
  | .serve clone name =>
      match scene.shared? clone with
      | none => scene
      | some (position, signal) =>
          let (server, tokens, _) :=
            Server.start name signal.token scene.tokens
          { scene with
            tokens := tokens
            servings := scene.servings ++ [⟨position, ⟨name, server⟩, false⟩] }
  | .stop position =>
      match scene.servings[position]? with
      | none => scene
      | some serving =>
          let (outlet, tokens, _) := serving.outlet.close scene.tokens
          scene.halt position { serving with outlet := outlet } tokens
  | .drop position =>
      match scene.servings[position]? with
      | none => scene
      | some serving =>
          scene.halt position serving (scene.tokens.cancel serving.token)

/-- Makes moves one after the other. -/
def moves (scene : StopScene) (list : List StopMove) : StopScene :=
  list.foldl move scene

theorem moves_append
    (scene : StopScene)
    (earlier later : List StopMove) :
    scene.moves (earlier ++ later) = (scene.moves earlier).moves later :=
  List.foldl_append

theorem moves_concat
    (scene : StopScene)
    (list : List StopMove)
    (next : StopMove) :
    scene.moves (list ++ [next]) = (scene.moves list).move next := by
  simp [moves]

end StopScene

/-- A push server keeps its token. -/
theorem Server.token_move
    (server : Server)
    (stopped : Bool)
    (next : ServerMove) :
    (server.move stopped next).1.token = server.token := by
  cases next with
  | connection position step =>
      simp only [move, moveConnection]
      split
      · rfl
      · split <;> rfl
  | _ =>
      simp only [move]
      split <;> rfl

theorem Server.token_moves
    (server : Server)
    (stopped : Bool)
    (list : List ServerMove) :
    (server.moves stopped list).1.token = server.token := by
  induction list generalizing server with
  | nil =>
      rfl
  | cons next rest inductionHypothesis =>
      simp only [moves, inductionHypothesis, token_move]

namespace StopScene

/-! ## What a scene keeps -/

/-- How many trigger calls of a signal found its flag down. -/
def firsts (scene : StopScene) (position : Nat) : Nat :=
  (scene.calls.map fun call => (call.signal, call.first)).count
    (position, true)

/-- How many trigger calls of a signal returned that they were first. -/
def winners (scene : StopScene) (position : Nat) : Nat :=
  scene.calls.countP fun call =>
    call.signal = position ∧ call.first ∧ call.returned

/-- The numbers of the tokens of signals and servers. -/
def numbers (scene : StopScene) : List Nat :=
  scene.signals.map (·.token.number) ++
    scene.servings.map (·.token.number)

/-- Whether a trigger call of a signal has returned. -/
def Returned (scene : StopScene) (position : Nat) : Prop :=
  ∃ call ∈ scene.calls, call.signal = position ∧ call.returned = true

/-- The order that flags, calls and tokens are in. -/
structure Sound (scene : StopScene) : Prop where
  /-- No token belongs to two. -/
  distinct : scene.numbers.Nodup
  made : ∀ number ∈ scene.numbers, number < scene.tokens.made
  roots : ∀ signal ∈ scene.signals, signal.token.parents = []
  /-- The token of a server is a child of the token of its signal. -/
  children :
    ∀ serving ∈ scene.servings,
      ∃ signal,
        scene.signals[serving.signal]? = some signal ∧
          serving.token.parents = [signal.token.number]
  shares : ∀ position ∈ scene.clones, position < scene.signals.length
  /-- The flag is up if a call has begun, and one call put it up. -/
  flags :
    ∀ position signal,
      scene.signals[position]? = some signal →
        scene.firsts position = if signal.raised then 1 else 0
  raised :
    ∀ call ∈ scene.calls,
      ∃ signal,
        scene.signals[call.signal]? = some signal ∧ signal.raised = true
  /-- A token of a signal is cancelled by the calls that have returned. -/
  triggered :
    ∀ position signal,
      scene.signals[position]? = some signal →
        (signal.token.number ∈ scene.tokens.cancelled ↔
          scene.Returned position)
  /-- A token of a server is cancelled when the server ends. -/
  halted :
    ∀ serving ∈ scene.servings,
      (serving.token.number ∈ scene.tokens.cancelled ↔
        serving.halted = true)
  /-- Nothing is cancelled before it is made. -/
  past : ∀ number ∈ scene.tokens.cancelled, number < scene.tokens.made

theorem sound_begin : begin.Sound where
  distinct := List.nodup_nil
  made := by simp [begin, numbers]
  roots := by simp [begin]
  children := by simp [begin]
  shares := by simp [begin]
  flags := by simp [begin]
  raised := by simp [begin]
  triggered := by simp [begin]
  halted := by simp [begin]
  past := by simp [begin, Tokens.empty]

/-! ## Lists in which one item changes -/

/-- Where an item is replaced by one that looks the same, the list looks the
same. -/
theorem map_set_of_same
    {list : List α}
    {position : Nat}
    {old new : α}
    {view : α → β}
    (found : list[position]? = some old)
    (same : view new = view old) :
    (list.set position new).map view = list.map view := by
  refine List.ext_getElem? fun place => ?_
  simp only [List.getElem?_map, List.getElem?_set]
  split
  · next here =>
      subst here
      split
      · simp [found, same]
      · next outside =>
          simp [List.getElem?_eq_none (Nat.le_of_not_lt outside)]
  · rfl

/-- What is found after an item was replaced by one that looks the same looks
like what was there. -/
theorem exists_before_set
    {α : Type u}
    {β : Type v}
    {list : List α}
    {position place : Nat}
    {old new item : α}
    {view : α → β}
    (found : list[position]? = some old)
    (same : view new = view old)
    (now : (list.set position new)[place]? = some item) :
    ∃ before, list[place]? = some before ∧ view item = view before := by
  have looks : (list.map view)[place]? = some (view item) := by
    rw [← map_set_of_same found same, List.getElem?_map, now]
    rfl
  rw [List.getElem?_map] at looks
  obtain ⟨before, there, alike⟩ := Option.map_eq_some_iff.mp looks
  exact ⟨before, there, alike.symm⟩

/-- What was there before an item was replaced by one that looks the same looks
like what is found then. -/
theorem exists_after_set
    {α : Type u}
    {β : Type v}
    {list : List α}
    {position place : Nat}
    {old new before : α}
    {view : α → β}
    (found : list[position]? = some old)
    (same : view new = view old)
    (there : list[place]? = some before) :
    ∃ item,
      (list.set position new)[place]? = some item ∧
        view item = view before := by
  have looks :
      ((list.set position new).map view)[place]? = some (view before) := by
    rw [map_set_of_same found same, List.getElem?_map, there]
    rfl
  rw [List.getElem?_map] at looks
  exact Option.map_eq_some_iff.mp looks

/-- Where no two items look the same, one that looks like another is it. -/
theorem position_unique
    {list : List α}
    {view : α → β}
    (distinct : (list.map view).Nodup)
    {position other : Nat}
    {item found : α}
    (here : list[position]? = some item)
    (there : list[other]? = some found)
    (same : view found = view item) :
    other = position := by
  have inside : other < (list.map view).length := by
    simpa using (List.getElem?_eq_some_iff.mp there).1
  refine (List.getElem?_inj inside distinct).mp ?_
  rw [List.getElem?_map, List.getElem?_map, here, there]
  exact congrArg some same

/-- What was found at a position after one more joined the list. -/
theorem getElem?_concat
    {list : List α}
    {last item : α}
    {position : Nat}
    (found : (list ++ [last])[position]? = some item) :
    list[position]? = some item ∨
      position = list.length ∧ item = last := by
  rcases Nat.lt_trichotomy position list.length with inside | here | outside
  · rw [List.getElem?_append_left inside] at found
    exact .inl found
  · subst here
    simp at found
    exact .inr ⟨rfl, found.symm⟩
  · rw [List.getElem?_eq_none (by simp; omega)] at found
    cases found

/-! ## What a move keeps -/

/-- A clone shares a signal that is there. -/
theorem shared?_eq_some_iff
    {scene : StopScene}
    {clone position : Nat}
    {signal : StopSignal} :
    scene.shared? clone = some (position, signal) ↔
      scene.clones[clone]? = some position ∧
        scene.signals[position]? = some signal := by
  simp only [shared?, Option.pure_def, Option.bind_eq_bind,
    Option.bind_eq_some_iff, Option.some.injEq, Prod.mk.injEq]
  constructor
  · rintro ⟨_, shares, _, found, rfl, rfl⟩
    exact ⟨shares, found⟩
  · rintro ⟨shares, found⟩
    exact ⟨_, shares, _, found, rfl, rfl⟩

/-- A call that begins is a first one or not. -/
theorem firsts_concat
    (scene : StopScene)
    (signals : List StopSignal)
    (position : Nat)
    (first : Bool)
    (other : Nat) :
    firsts
        { scene with
          signals := signals
          calls := scene.calls ++ [⟨position, first, false⟩] }
        other =
      scene.firsts other + if position = other ∧ first then 1 else 0 := by
  simp only [firsts, List.map_append, List.map_cons, List.map_nil,
    List.count_append]
  cases first <;> simp [List.count_singleton]

section Return

variable
  {scene : StopScene}
  {call position : Nat}
  {first : Bool}
  (begun : scene.calls[call]? = some ⟨position, first, false⟩)
  (tokens : Tokens)
  (other : Nat)

include begun

/-- A call that returns was a first one or not before. -/
theorem firsts_set :
    firsts
        { scene with
          tokens := tokens
          calls := scene.calls.set call ⟨position, first, true⟩ }
        other =
      scene.firsts other :=
  congrArg (List.count (other, true)) (map_set_of_same begun rfl)

/-- Once a call returns, a call of its signal has returned. -/
theorem returned_set :
    Returned
        { scene with
          tokens := tokens
          calls := scene.calls.set call ⟨position, first, true⟩ }
        other ↔
      other = position ∨ scene.Returned other := by
  constructor
  · rintro ⟨done, member, rfl, isDone⟩
    rcases List.mem_or_eq_of_mem_set member with earlier | rfl
    · exact .inr ⟨done, earlier, rfl, isDone⟩
    · exact .inl rfl
  · rintro (rfl | ⟨done, member, rfl, isDone⟩)
    · refine ⟨⟨other, first, true⟩, ?_, rfl, rfl⟩
      exact List.mem_set (List.getElem?_eq_some_iff.mp begun).1 _
    · refine ⟨done, ?_, rfl, isDone⟩
      obtain ⟨place, there⟩ := List.getElem?_of_mem member
      have different : call ≠ place := by
        rintro rfl
        rw [begun] at there
        cases there
        cases isDone
      exact List.mem_of_getElem?
        ((List.getElem?_set_ne different).trans there)

end Return

namespace Sound

variable
  {scene : StopScene}

/-- A call belongs to a signal that is there. -/
theorem call_lt
    (sound : scene.Sound)
    {call : TriggerCall}
    (begun : call ∈ scene.calls) :
    call.signal < scene.signals.length := by
  obtain ⟨_, found, _⟩ := sound.raised call begun
  exact (List.getElem?_eq_some_iff.mp found).1

/-- A signal that is not there has no calls. -/
theorem firsts_eq_zero
    (sound : scene.Sound)
    {position : Nat}
    (absent : scene.signals.length ≤ position) :
    scene.firsts position = 0 := by
  refine List.count_eq_zero.mpr fun member => ?_
  obtain ⟨call, begun, same⟩ := List.mem_map.mp member
  have known := sound.call_lt begun
  have here : call.signal = position := congrArg Prod.fst same
  omega

theorem notReturned
    (sound : scene.Sound)
    {position : Nat}
    (absent : scene.signals.length ≤ position) :
    ¬ scene.Returned position := by
  rintro ⟨call, begun, rfl, _⟩
  exact absurd (sound.call_lt begun) (Nat.not_lt.mpr absent)

/-- The number of the next token is nobody's. -/
theorem made_notMem_numbers
    (sound : scene.Sound) :
    scene.tokens.made ∉ scene.numbers := fun member =>
  absurd (sound.made _ member) (Nat.lt_irrefl _)

theorem made_notMem_cancelled
    (sound : scene.Sound) :
    scene.tokens.made ∉ scene.tokens.cancelled := fun member =>
  absurd (sound.past _ member) (Nat.lt_irrefl _)

theorem create
    (sound : scene.Sound) :
    (scene.move .create).Sound := by
  have old
      {position : Nat}
      {signal : StopSignal}
      (found : scene.signals[position]? = some signal) :
      (scene.signals ++
        [(StopSignal.fresh scene.tokens).1])[position]? = some signal := by
    rw [List.getElem?_append_left
      (List.getElem?_eq_some_iff.mp found).1, found]
  exact {
    distinct := by
      simp only [numbers, move, StopSignal.fresh, Tokens.fresh,
        List.map_append, List.map_cons, List.map_nil, List.append_assoc,
        List.singleton_append]
      exact List.nodup_middle.mpr
        (List.nodup_cons.mpr ⟨sound.made_notMem_numbers, sound.distinct⟩)
    made := by
      intro number member
      have known : number = scene.tokens.made ∨ number ∈ scene.numbers := by
        simp only [numbers, move, StopSignal.fresh, Tokens.fresh,
          List.map_append, List.map_cons, List.map_nil, List.mem_append,
          List.mem_singleton] at member ⊢
        tauto
      rcases known with rfl | earlier
      · exact Nat.lt_succ_self _
      · exact Nat.lt_succ_of_lt (sound.made number earlier)
    roots := by
      intro signal member
      rcases List.mem_append.mp member with earlier | last
      · exact sound.roots signal earlier
      · rw [List.mem_singleton.mp last]
    children := by
      intro serving member
      obtain ⟨signal, found, child⟩ := sound.children serving member
      exact ⟨signal, old found, child⟩
    shares := by
      intro position member
      simp only [move, List.length_append, List.length_singleton]
      rcases List.mem_append.mp member with earlier | last
      · exact Nat.lt_succ_of_lt (sound.shares position earlier)
      · rw [List.mem_singleton.mp last]
        exact Nat.lt_succ_self _
    flags := by
      intro position signal found
      rcases getElem?_concat found with earlier | ⟨rfl, rfl⟩
      · exact sound.flags position signal earlier
      · exact sound.firsts_eq_zero (Nat.le_refl _)
    raised := by
      intro call begun
      obtain ⟨signal, found, up⟩ := sound.raised call begun
      exact ⟨signal, old found, up⟩
    triggered := by
      intro position signal found
      rcases getElem?_concat found with earlier | ⟨rfl, rfl⟩
      · exact sound.triggered position signal earlier
      · exact iff_of_false sound.made_notMem_cancelled
          (sound.notReturned (Nat.le_refl _))
    halted := sound.halted
    past := fun number member =>
      Nat.lt_succ_of_lt (sound.past number member) }

theorem clone
    (sound : scene.Sound)
    (original : Nat) :
    (scene.move (.clone original)).Sound := by
  simp only [move]
  split
  · exact sound
  · next position found =>
      exact { sound with
        shares := by
          intro other member
          rcases List.mem_append.mp member with earlier | last
          · exact sound.shares other earlier
          · rw [List.mem_singleton.mp last]
            exact sound.shares position (List.mem_of_getElem? found) }

/-- A call that begins puts the flag up, and is the first one if the flag was
down. -/
theorem raise
    (sound : scene.Sound)
    (clone : Nat) :
    (scene.move (.raise clone)).Sound := by
  cases shared : scene.shared? clone with
  | none =>
      simpa only [move, shared] using sound
  | some pair =>
      obtain ⟨position, signal⟩ := pair
      obtain ⟨_, found⟩ := shared?_eq_some_iff.mp shared
      simp only [move, shared, StopSignal.raise]
      let up : StopSignal := { signal with raised := true }
      have here : (scene.signals.set position up)[position]? = some up := by
        simp [(List.getElem?_eq_some_iff.mp found).1]
      have elsewhere
          {other : Nat}
          (different : other ≠ position) :
          (scene.signals.set position up)[other]? = scene.signals[other]? :=
        List.getElem?_set_ne different.symm
      -- The tokens stay where they are, only a flag goes up.
      have sameToken : up.token = signal.token := rfl
      have sameNumbers :
          (scene.signals.set position { signal with raised := true }).map
              (·.token.number) =
            scene.signals.map (·.token.number) :=
        map_set_of_same found rfl
      exact {
        distinct := by
          simpa only [numbers, sameNumbers] using sound.distinct
        made := by
          simpa only [numbers, sameNumbers] using sound.made
        roots := by
          intro changed member
          obtain ⟨other, now⟩ := List.getElem?_of_mem member
          obtain ⟨before, earlier, same⟩ :=
            exists_before_set found sameToken now
          rw [same]
          exact sound.roots before (List.mem_of_getElem? earlier)
        children := by
          intro serving member
          obtain ⟨parent, known, child⟩ := sound.children serving member
          obtain ⟨now, there, same⟩ := exists_after_set found sameToken known
          exact ⟨now, there, by rw [same, child]⟩
        shares := by
          simpa using sound.shares
        flags := by
          intro other changed now
          rw [firsts_concat]
          by_cases same : other = position
          · subst same
            rw [here] at now
            cases now
            rw [sound.flags other signal found]
            cases signal.raised <;> simp [up]
          · rw [elsewhere same] at now
            have apart :
                ¬ (position = other ∧ (! signal.raised) = true) :=
              fun both => same both.1.symm
            rw [if_neg apart, Nat.add_zero, sound.flags other changed now]
        raised := by
          intro call member
          rcases List.mem_append.mp member with earlier | last
          · obtain ⟨before, known, isUp⟩ := sound.raised call earlier
            by_cases same : call.signal = position
            · exact ⟨up, by rw [same, here], rfl⟩
            · exact ⟨before, by rw [elsewhere same, known], isUp⟩
          · rw [List.mem_singleton.mp last]
            exact ⟨up, here, rfl⟩
        triggered := by
          intro other changed now
          obtain ⟨before, earlier, same⟩ :=
            exists_before_set found sameToken now
          rw [same, sound.triggered other before earlier]
          simp [Returned]
        halted := sound.halted
        past := sound.past }

/-- Signals with the same token are one. -/
theorem signal_unique
    (sound : scene.Sound)
    {position other : Nat}
    {signal found : StopSignal}
    (here : scene.signals[position]? = some signal)
    (there : scene.signals[other]? = some found)
    (same : found.token.number = signal.token.number) :
    other = position := by
  have distinct : (scene.signals.map (·.token.number)).Nodup :=
    (List.nodup_append.mp sound.distinct).1
  exact position_unique distinct here there same

/-- A server has no token of a signal. -/
theorem apart
    (sound : scene.Sound)
    {signal : StopSignal}
    {serving : Serving}
    (isSignal : signal ∈ scene.signals)
    (isServing : serving ∈ scene.servings) :
    serving.token.number ≠ signal.token.number := by
  intro same
  exact (List.nodup_append.mp sound.distinct).2.2 _
    (List.mem_map_of_mem isSignal) _ (List.mem_map_of_mem isServing) same.symm

/-- Servers with the same token are one. -/
theorem serving_unique
    (sound : scene.Sound)
    {position other : Nat}
    {serving found : Serving}
    (here : scene.servings[position]? = some serving)
    (there : scene.servings[other]? = some found)
    (same : found.token.number = serving.token.number) :
    other = position := by
  have distinct : (scene.servings.map (·.token.number)).Nodup :=
    (List.nodup_append.mp sound.distinct).2.1
  exact position_unique distinct here there same

/-- Whoever returns has cancelled the token of the signal, first or not. -/
theorem cancel
    (sound : scene.Sound)
    (call : Nat) :
    (scene.move (.cancel call)).Sound := by
  simp only [move]
  split
  · next position first begun =>
      split
      · exact sound
      · next signal found =>
          have isSignal := List.mem_of_getElem? found
          exact { sound with
            flags := by
              intro other signal found
              rw [firsts_set begun]
              exact sound.flags other signal found
            raised := by
              intro done member
              rcases List.mem_or_eq_of_mem_set member with earlier | rfl
              · exact sound.raised done earlier
              · exact sound.raised ⟨position, first, false⟩
                  (List.mem_of_getElem? begun)
            triggered := by
              intro other changed now
              rw [returned_set begun, ← sound.triggered other changed now]
              have same :
                  changed.token.number = signal.token.number ↔
                    other = position := by
                constructor
                · exact sound.signal_unique found now
                · rintro rfl
                  rw [found] at now
                  cases now
                  rfl
              simp [StopSignal.cancel, Tokens.cancel, same]
            halted := by
              intro serving member
              have other := sound.apart isSignal member
              simpa [StopSignal.cancel, Tokens.cancel, other] using
                sound.halted serving member
            past := by
              intro number member
              rcases List.mem_cons.mp member with rfl | earlier
              · exact sound.made _
                  (List.mem_append_left _ (List.mem_map_of_mem isSignal))
              · exact sound.past number earlier }
  · exact sound

theorem serve
    (sound : scene.Sound)
    (clone : Nat)
    (name : String) :
    (scene.move (.serve clone name)).Sound := by
  cases shared : scene.shared? clone with
  | none =>
      simpa only [move, shared] using sound
  | some pair =>
      obtain ⟨position, signal⟩ := pair
      obtain ⟨_, found⟩ := shared?_eq_some_iff.mp shared
      have root := sound.roots signal (List.mem_of_getElem? found)
      simp only [move, shared, Server.start, Tokens.child]
      exact { sound with
        distinct := by
          simp only [numbers, List.map_append, List.map_cons, List.map_nil,
            ← List.append_assoc]
          refine List.nodup_append.mpr ⟨sound.distinct, by simp, ?_⟩
          intro number member other fresh same
          rw [same, List.mem_singleton.mp fresh] at member
          exact sound.made_notMem_numbers member
        made := by
          intro number member
          simp only [numbers, List.map_append, List.map_cons, List.map_nil,
            ← List.append_assoc] at member
          rcases List.mem_append.mp member with earlier | last
          · exact Nat.lt_succ_of_lt (sound.made number earlier)
          · rw [List.mem_singleton.mp last]
            exact Nat.lt_succ_self _
        children := by
          intro serving member
          rcases List.mem_append.mp member with earlier | last
          · exact sound.children serving earlier
          · rw [List.mem_singleton.mp last]
            exact ⟨signal, found, by simp [Serving.token, root]⟩
        halted := by
          intro serving member
          rcases List.mem_append.mp member with earlier | last
          · exact sound.halted serving earlier
          · rw [List.mem_singleton.mp last]
            exact iff_of_false sound.made_notMem_cancelled (by simp)
        past := fun number member =>
          Nat.lt_succ_of_lt (sound.past number member) }

/-- A server that ends cancels its own token. -/
theorem halt
    (sound : scene.Sound)
    {position : Nat}
    {serving ended : Serving}
    (found : scene.servings[position]? = some serving)
    (sameToken : ended.token = serving.token)
    (sameSignal : ended.signal = serving.signal) :
    (scene.halt position ended (scene.tokens.cancel serving.token)).Sound := by
  have isServing := List.mem_of_getElem? found
  have sameNumbers :
      (scene.servings.set position { ended with halted := true }).map
          (·.token.number) =
        scene.servings.map (·.token.number) :=
    map_set_of_same found (congrArg Token.number sameToken)
  exact { sound with
    distinct := by
      simpa only [numbers, StopScene.halt, sameNumbers] using sound.distinct
    made := by
      intro number member
      rw [numbers, StopScene.halt, sameNumbers] at member
      exact sound.made number member
    children := by
      intro other member
      rcases List.mem_or_eq_of_mem_set member with earlier | rfl
      · exact sound.children other earlier
      · obtain ⟨signal, known, child⟩ := sound.children serving isServing
        refine ⟨signal, sameSignal ▸ known, ?_⟩
        rw [← child, ← sameToken]
        rfl
    triggered := by
      intro other signal known
      have different :=
        sound.apart (List.mem_of_getElem? known) isServing
      change signal.token.number ∈
          serving.token.number :: scene.tokens.cancelled ↔
        scene.Returned other
      rw [List.mem_cons, or_iff_right different.symm]
      exact sound.triggered other signal known
    halted := by
      intro other member
      obtain ⟨place, there⟩ := List.getElem?_of_mem member
      by_cases same : place = position
      · subst same
        have ends : other = { ended with halted := true } := by
          have inside := (List.getElem?_eq_some_iff.mp found).1
          simpa [StopScene.halt, inside] using there.symm
        rw [ends]
        refine iff_of_true ?_ rfl
        exact List.mem_cons.mpr (.inl (congrArg Token.number sameToken))
      · have before : scene.servings[place]? = some other :=
          (List.getElem?_set_ne (fun equal => same equal.symm)).symm.trans
            there
        have different : other.token.number ≠ serving.token.number :=
          fun equal => same (sound.serving_unique found before equal)
        simpa [StopScene.halt, Tokens.cancel, different] using
          sound.halted other (List.mem_of_getElem? before)
    past := by
      intro number member
      rcases List.mem_cons.mp member with rfl | earlier
      · exact sound.made _
          (List.mem_append_right _ (List.mem_map_of_mem isServing))
      · exact sound.past number earlier }

/-- Flags, calls and tokens stay in order whatever happens. -/
theorem move
    (sound : scene.Sound)
    (next : StopMove) :
    (scene.move next).Sound := by
  cases next with
  | create =>
      exact sound.create
  | clone original =>
      exact sound.clone original
  | raise clone =>
      exact sound.raise clone
  | cancel call =>
      exact sound.cancel call
  | serve clone name =>
      exact sound.serve clone name
  | stop position =>
      simp only [StopScene.move]
      split
      · exact sound
      · next serving found =>
          exact sound.halt found
            (Server.token_moves serving.outlet.server true Server.quietStop) rfl
  | drop position =>
      simp only [StopScene.move]
      split
      · exact sound
      · next serving found =>
          exact sound.halt found rfl rfl

end Sound

theorem sound_moves
    (list : List StopMove) :
    (begin.moves list).Sound := by
  induction list using List.reverseRecOn with
  | nil =>
      exact sound_begin
  | append_singleton earlier next inductionHypothesis =>
      rw [moves_concat]
      exact inductionHypothesis.move next

end StopScene

end PositionFeed
