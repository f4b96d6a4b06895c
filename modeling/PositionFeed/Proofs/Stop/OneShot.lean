import PositionFeed.Proofs.Stop.Scene

namespace PositionFeed

/-!
# One trigger among many

The first step of a trigger call decides who was first, because only one caller
finds the flag down.  The second step is taken by every caller, the ones that
came late included, so whoever has returned may rely on the token.  The token
is cancelled by nothing else: a server that ends cancels one of its own.
-/

namespace StopScene

/-! ## Who was first, and who may rely on the token -/

namespace Sound

variable
  {scene : StopScene}

theorem firsts_le_one
    (sound : scene.Sound)
    (position : Nat) :
    scene.firsts position ≤ 1 := by
  cases found : scene.signals[position]? with
  | none =>
      rw [sound.firsts_eq_zero (List.getElem?_eq_none_iff.mp found)]
      exact Nat.zero_le 1
  | some signal =>
      rw [sound.flags position signal found]
      split <;> decide

/-- If a call has begun then one found the flag down. -/
theorem firsts_eq_one
    (sound : scene.Sound)
    {call : TriggerCall}
    (begun : call ∈ scene.calls) :
    scene.firsts call.signal = 1 := by
  obtain ⟨signal, found, up⟩ := sound.raised call begun
  rw [sound.flags _ signal found, up]
  rfl

/-- A clone says that its signal was triggered as soon as one call has
returned, and not before. -/
theorem isTriggered_iff
    (sound : scene.Sound)
    {clone position : Nat}
    (shares : scene.clones[clone]? = some position) :
    scene.isTriggered clone = true ↔ scene.Returned position := by
  have inside := sound.shares position (List.mem_of_getElem? shares)
  have found : scene.signals[position]? = some scene.signals[position] :=
    List.getElem?_eq_getElem inside
  have root := sound.roots _ (List.mem_of_getElem? found)
  rw [← sound.triggered position _ found, isTriggered,
    shared?_eq_some_iff.mpr ⟨shares, found⟩]
  simp [StopSignal.isTriggered, Tokens.isCancelled, root]

/-- The token of a server is cancelled if the server ended or a trigger of its
signal has returned, and in no other case. -/
theorem isCancelled_iff
    (sound : scene.Sound)
    {serving : Serving}
    (isServing : serving ∈ scene.servings) :
    scene.tokens.isCancelled serving.token = true ↔
      serving.halted = true ∨ scene.Returned serving.signal := by
  obtain ⟨signal, found, child⟩ := sound.children serving isServing
  rw [← sound.halted serving isServing,
    ← sound.triggered serving.signal signal found]
  simp [Tokens.isCancelled, child]

theorem winners_le_firsts
    (scene : StopScene)
    (position : Nat) :
    scene.winners position ≤ scene.firsts position := by
  rw [winners, firsts, List.count, List.countP_map]
  refine List.countP_mono_left fun call _ wins => ?_
  simp_all

/-- Once every call has returned, so has the first one. -/
theorem winners_eq_firsts
    {position : Nat}
    (returned :
      ∀ call ∈ scene.calls,
        call.signal = position → call.returned = true) :
    scene.winners position = scene.firsts position := by
  rw [winners, firsts, List.count, List.countP_map]
  refine List.countP_congr fun call begun => ?_
  have isDone := returned call begun
  simp_all

/-- A call that has begun can return, and returns what its first step found. -/
theorem returns
    (sound : scene.Sound)
    {place : Nat}
    {call : TriggerCall}
    (begun : scene.calls[place]? = some call) :
    (scene.move (.cancel place)).calls[place]? =
      some { call with returned := true } := by
  obtain ⟨position, first, returned⟩ := call
  obtain ⟨signal, found, _⟩ := sound.raised _ (List.mem_of_getElem? begun)
  cases returned with
  | true =>
      simp [StopScene.move, begun]
  | false =>
      simp only [StopScene.move, begun, found]
      exact List.getElem?_set_self (List.getElem?_eq_some_iff.mp begun).1

/-! ## Nothing is taken back -/

theorem returned_move
    {position : Nat}
    (returned : scene.Returned position)
    (next : StopMove) :
    (scene.move next).Returned position := by
  obtain ⟨call, begun, here, isDone⟩ := returned
  have kept : call ∈ (scene.move next).calls := by
    cases next with
    | create =>
        exact begun
    | clone original =>
        simp only [StopScene.move]
        split <;> exact begun
    | raise clone =>
        simp only [StopScene.move]
        split
        · exact begun
        · exact List.mem_append_left _ begun
    | cancel other =>
        simp only [StopScene.move]
        split
        · next waiting =>
            split
            · exact begun
            · obtain ⟨place, there⟩ := List.getElem?_of_mem begun
              have different : other ≠ place := by
                rintro rfl
                rw [waiting] at there
                cases there
                cases isDone
              exact List.mem_of_getElem?
                ((List.getElem?_set_ne different).trans there)
        · exact begun
    | serve clone name =>
        simp only [StopScene.move]
        split <;> exact begun
    | stop serving =>
        simp only [StopScene.move]
        split <;> exact begun
    | drop serving =>
        simp only [StopScene.move]
        split <;> exact begun
  exact ⟨call, kept, here, isDone⟩

theorem clones_move
    {clone position : Nat}
    (shares : scene.clones[clone]? = some position)
    (next : StopMove) :
    (scene.move next).clones[clone]? = some position := by
  have inside := (List.getElem?_eq_some_iff.mp shares).1
  have kept (more : Nat) :
      (scene.clones ++ [more])[clone]? = some position := by
    rw [List.getElem?_append_left inside, shares]
  cases next with
  | create =>
      exact kept _
  | clone original =>
      simp only [StopScene.move]
      split
      · exact shares
      · exact kept _
  | cancel call =>
      simp only [StopScene.move]
      split
      · split <;> exact shares
      · exact shares
  | _ =>
      simp only [StopScene.move]
      split <;> exact shares

/-- A signal that was triggered stays so. -/
theorem isTriggered_move
    (sound : scene.Sound)
    {clone : Nat}
    (triggered : scene.isTriggered clone = true)
    (next : StopMove) :
    (scene.move next).isTriggered clone = true := by
  cases shared : scene.shared? clone with
  | none =>
      simp [isTriggered, shared] at triggered
  | some pair =>
      have shares := (shared?_eq_some_iff.mp shared).1
      refine
        ((sound.move next).isTriggered_iff (clones_move shares next)).mpr ?_
      exact returned_move ((sound.isTriggered_iff shares).mp triggered) next

theorem isTriggered_moves
    (sound : scene.Sound)
    {clone : Nat}
    (triggered : scene.isTriggered clone = true)
    (list : List StopMove) :
    (scene.moves list).isTriggered clone = true := by
  induction list generalizing scene with
  | nil =>
      exact triggered
  | cons next rest inductionHypothesis =>
      exact inductionHypothesis (sound.move next)
        (sound.isTriggered_move triggered next)

end Sound

/-! ## What the end of a server reaches -/

/-- The end of a server cancels its own token, which is neither that of a
signal nor that of another server. -/
structure EndsAlone (scene : StopScene) (place : Nat) (after : StopScene) :
    Prop where
  own :
    ∀ serving,
      scene.servings[place]? = some serving →
        after.tokens.isCancelled serving.token = true
  signals : ∀ clone, after.isTriggered clone = scene.isTriggered clone
  others :
    ∀ other serving,
      other ≠ place →
        scene.servings[other]? = some serving →
          after.tokens.isCancelled serving.token =
            scene.tokens.isCancelled serving.token

theorem EndsAlone.of_absent
    {scene : StopScene}
    {place : Nat}
    (absent : scene.servings[place]? = none) :
    EndsAlone scene place scene where
  own serving found := by
    rw [absent] at found
    cases found
  signals _ := rfl
  others _ _ _ _ := rfl

theorem Sound.endsAlone
    {scene : StopScene}
    (sound : scene.Sound)
    {place : Nat}
    {serving ended : Serving}
    (found : scene.servings[place]? = some serving) :
    EndsAlone scene place
      (scene.halt place ended (scene.tokens.cancel serving.token)) where
  own ending same := by
    rw [found] at same
    cases same
    exact Tokens.isCancelled_cancel_self _ _
  signals clone := by
    have sameShare :
        (scene.halt place ended
          (scene.tokens.cancel serving.token)).shared? clone =
            scene.shared? clone := rfl
    rw [isTriggered, isTriggered, sameShare]
    cases shared : scene.shared? clone with
    | none =>
        rfl
    | some pair =>
        have isSignal :=
          List.mem_of_getElem? (shared?_eq_some_iff.mp shared).2
        have root := sound.roots pair.2 isSignal
        have different := sound.apart isSignal (List.mem_of_getElem? found)
        simp [StopScene.halt, StopSignal.isTriggered, Tokens.isCancelled,
          Tokens.cancel, root, different.symm]
  others other neighbour different there := by
    obtain ⟨signal, known, child⟩ :=
      sound.children neighbour (List.mem_of_getElem? there)
    have notOwn : neighbour.token.number ≠ serving.token.number :=
      fun same => different (sound.serving_unique found there same)
    have notRoot :=
      sound.apart (List.mem_of_getElem? known) (List.mem_of_getElem? found)
    simp [StopScene.halt, Tokens.isCancelled, Tokens.cancel, child, notOwn,
      notRoot.symm]

/-- What holds of signals, their clones and their servers in a run from the
beginning. -/
structure StopsOnce (list : List StopMove) : Prop where
  /-- No two calls return that they were first. -/
  once : ∀ position, (begin.moves list).winners position ≤ 1
  /-- When all calls have returned, one of them has returned that it was
  first. -/
  someone :
    ∀ call ∈ (begin.moves list).calls,
      (∀ other ∈ (begin.moves list).calls,
        other.signal = call.signal → other.returned = true) →
      (begin.moves list).winners call.signal = 1
  /-- Every call can return. -/
  returns :
    ∀ place call,
      (begin.moves list).calls[place]? = some call →
        ((begin.moves list).move (.cancel place)).calls[place]? =
          some { call with returned := true }
  /-- A call that nobody interrupts is a trigger of the signal. -/
  whole :
    ∀ clone position signal,
      (begin.moves list).shared? clone = some (position, signal) →
        let triggered := signal.trigger (begin.moves list).tokens
        begin.moves
            (list ++ [.raise clone, .cancel (begin.moves list).calls.length]) =
          { begin.moves list with
            tokens := triggered.2.2
            signals := (begin.moves list).signals.set position triggered.2.1
            calls :=
              (begin.moves list).calls ++ [⟨position, triggered.1, true⟩] }
  /-- All clones say that a signal was triggered when a call has returned,
  first or not, and at no other time. -/
  triggered :
    ∀ clone position,
      (begin.moves list).clones[clone]? = some position →
        ((begin.moves list).isTriggered clone = true ↔
          (begin.moves list).Returned position)
  /-- The token of a server is cancelled when a trigger call of its signal has
  returned or the server has ended, and at no other time. -/
  cancelled :
    ∀ serving ∈ (begin.moves list).servings,
      ((begin.moves list).tokens.isCancelled serving.token = true ↔
        serving.halted = true ∨
          (begin.moves list).Returned serving.signal)
  /-- What was triggered stays so. -/
  lasting :
    ∀ later clone,
      (begin.moves list).isTriggered clone = true →
        (begin.moves (list ++ later)).isTriggered clone = true
  /-- A server that is stopped cancels its own token and no other. -/
  stopped :
    ∀ place,
      (begin.moves list).EndsAlone place ((begin.moves list).move (.stop place))
  /-- So does a server that is dropped. -/
  dropped :
    ∀ place,
      (begin.moves list).EndsAlone place ((begin.moves list).move (.drop place))

/-- A trigger call that nobody interrupts is a trigger of the signal. -/
theorem moves_raise_cancel
    {scene : StopScene}
    {clone position : Nat}
    {signal : StopSignal}
    (shared : scene.shared? clone = some (position, signal)) :
    scene.moves [.raise clone, .cancel scene.calls.length] =
      { scene with
        tokens := (signal.trigger scene.tokens).2.2
        signals :=
          scene.signals.set position (signal.trigger scene.tokens).2.1
        calls :=
          scene.calls ++
            [⟨position, (signal.trigger scene.tokens).1, true⟩] } := by
  have found := (shared?_eq_some_iff.mp shared).2
  have inside := (List.getElem?_eq_some_iff.mp found).1
  simp [moves, move, shared, StopSignal.trigger, inside]

/-- In every run at most one trigger call of a signal returns that it was
first, and when all have returned exactly one has.  Whoever has returned finds
the signal triggered through every clone and the servers stopped, and nothing
else triggers it: a server that ends keeps that to itself. -/
theorem every_run_stops_once
    (list : List StopMove) :
    StopsOnce list where
  once position :=
    Nat.le_trans (Sound.winners_le_firsts _ position)
      ((sound_moves list).firsts_le_one position)
  someone call begun returned := by
    rw [Sound.winners_eq_firsts returned]
    exact (sound_moves list).firsts_eq_one begun
  returns _ _ begun := (sound_moves list).returns begun
  triggered _ _ shares := (sound_moves list).isTriggered_iff shares
  cancelled _ isServing := (sound_moves list).isCancelled_iff isServing
  whole clone position signal shared := by
    rw [moves_append]
    exact moves_raise_cancel shared
  lasting later clone triggered := by
    rw [moves_append]
    exact (sound_moves list).isTriggered_moves triggered later
  stopped place := by
    simp only [move]
    split
    · next absent =>
        exact .of_absent absent
    · next serving found =>
        exact (sound_moves list).endsAlone found
  dropped place := by
    simp only [move]
    split
    · next absent =>
        exact .of_absent absent
    · next serving found =>
        exact (sound_moves list).endsAlone found

/-- A caller that was not first returns before the first one has cancelled
anything, and may rely on the signal all the same.  The server that was stopped
before had told nobody. -/
example :
    let before :=
      begin.moves
        [.create, .clone 0, .serve 0 "map", .serve 1 "log", .stop 0,
          .raise 0, .raise 1]
    let after := before.move (.cancel 1)
    before.isTriggered 0 = false ∧
      before.servings.map (before.tokens.isCancelled ·.token) =
        [true, false] ∧
      after.calls = [⟨0, true, false⟩, ⟨0, false, true⟩] ∧
      after.isTriggered 0 = true ∧ after.isTriggered 1 = true ∧
      after.servings.map (after.tokens.isCancelled ·.token) =
        [true, true] := by
  decide

end StopScene

end PositionFeed
