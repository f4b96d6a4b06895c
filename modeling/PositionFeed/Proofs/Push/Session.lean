import PositionFeed.Proofs.Push.Isolation
import PositionFeed.Push.Connection

namespace PositionFeed

/-!
# One connection among others

A session is a connection with the registry that it shares.  Between two of its
moves others call the registry as they like: clients come and go, frames are
broadcast, and other connections serve their own clients.  All that they do not
do is to name the client of this session.

Of a run one can see the texts that the client sends, what joins its queue,
the frames that the writer puts on the socket, and the clients that the
connection registers.  The invariant ties these together.  While the writer
runs, the frames that were put, the one that is being sent and those that wait
are the frames that joined the queue.
-/

/-- What joins the queue of a client. -/
inductive Entry where
  /-- A frame for everybody. -/
  | pushed (frame : Frame)
  /-- The answer to a text. -/
  | answer (text : String)
  /-- The end of the connection. -/
  | farewell
  deriving DecidableEq

/-- The frame that a client finds in its queue. -/
def Entry.frame : Entry → Frame
  | .pushed frame => frame
  | .answer text => .text ("Server received: " ++ text)
  | .farewell => .goingAway

@[simp] theorem Entry.frame_answer
    (text : String) :
    (Entry.answer text).frame = .echo text := rfl

@[simp] theorem Entry.frame_pushed
    (frame : Frame) :
    (Entry.pushed frame).frame = frame := rfl

@[simp] theorem Entry.frame_farewell :
    Entry.farewell.frame = .goingAway := rfl

/-- The text that an entry answers. -/
def Entry.text? : Entry → Option String
  | .answer text => some text
  | _ => none

/-- A connection and the registry that it shares with others. -/
structure Session where
  connection : Connection
  registry : Registry

/-- What happens in a session. -/
inductive SessionMove where
  /-- The connection moves. -/
  | own (move : ConnectionMove)
  /-- Somebody else calls the registry. -/
  | around (call : RegistryMove)

/-- Whether others may make a call, given the client of a session: it names
another client, or none. -/
def RegistryMove.isForeign (client : Option Nat) (call : RegistryMove) : Bool :=
  match client.bind call.callOn? with
  | none => true
  | some (.broadcast _) => true
  | some _ => false

namespace Session

/-- A connection that was just accepted, and a registry without clients. -/
def begin (channel : String) : Session :=
  ⟨Connection.fresh, Registry.empty channel⟩

/-- What a move makes of a session.  A call that others may not make is not
made. -/
def move (session : Session) : SessionMove → Session
  | .own next =>
      let moved := session.connection.move next session.registry
      ⟨moved.1, moved.2.1⟩
  | .around call =>
      if call.isForeign session.connection.client then
        { session with registry := session.registry.move call }
      else session

/-- Makes moves one after the other. -/
def moves (session : Session) (list : List SessionMove) : Session :=
  list.foldl move session

/-- The text that a move brings to a reader that waits for it. -/
def asks (session : Session) : SessionMove → List String
  | .own (.text content) =>
      if session.connection.reader = .reading then [content] else []
  | _ => []

/-- What a move offers to the client with a number. -/
def offers (session : Session) (number : Nat) : SessionMove → Option Entry
  | .own (.text content) =>
      if session.connection.reader = .reading then some (.answer content)
      else none
  | .own .closeQueued =>
      if session.connection.reader = .closing then some .farewell else none
  | .around (.broadcast frame) =>
      if session.registry.isMember number then some (.pushed frame) else none
  | _ => none

/-- What joins the queue of the client in a move: what it is offered, if it
takes it. -/
def enters (session : Session) (next : SessionMove) : List Entry :=
  (session.connection.client.bind fun number =>
    (session.offers number next).filter fun entry =>
      (session.registry.offer number entry.frame).1 = some .queued).toList

/-- The frame that a move puts on the socket. -/
def sends (session : Session) : SessionMove → List Frame
  | .own (.sent true) => session.connection.outgoing.toList
  | _ => []

/-- The clients that a move of the connection adds to the registry. -/
def joins (session : Session) : SessionMove → List Nat
  | .own next =>
      ((session.move (.own next)).registry.clients.drop
        session.registry.clients.length).map Client.number
  | .around _ => []

/-- The texts that a run brings to a reader that waits for them. -/
def asked (session : Session) (list : List SessionMove) : List String :=
  Run.yielded move asks session list

/-- What joins the queue of the client in a run. -/
def entered (session : Session) (list : List SessionMove) : List Entry :=
  Run.yielded move enters session list

/-- The frames that a run puts on the socket. -/
def sent (session : Session) (list : List SessionMove) : List Frame :=
  Run.yielded move sends session list

/-- The clients that the connection adds to the registry in a run. -/
def joined (session : Session) (list : List SessionMove) : List Nat :=
  Run.yielded move joins session list

theorem moves_concat
    (session : Session)
    (list : List SessionMove)
    (next : SessionMove) :
    session.moves (list ++ [next]) = (session.moves list).move next := by
  simp [moves]

end Session

/-! ## The client of a session -/

/-- How a connection and its client hang together with what was seen of them,
once the client is registered. -/
structure Connection.Inside
    (connection : Connection)
    (client : Client)
    (asked : List String)
    (entered : List Entry)
    (sent : List Frame) : Prop where
  started : connection.reader ≠ .handshaking
  /-- The writer holds the receiver of the queue. -/
  receives : client.receiving = connection.writing
  holds : connection.outgoing.isSome = true → connection.writing = true
  /-- While the writer runs, nothing that joined the queue is lost. -/
  waits :
    connection.writing = true →
      sent ++ connection.outgoing.toList ++ client.queue =
        entered.map Entry.frame
  inOrder : sent <+: entered.map Entry.frame
  /-- A writer that runs has not sent a close frame. -/
  goesOn :
    connection.writing = true →
      ∀ frame ∈ sent, Connection.endsConnection frame = false
  endsOnce :
    ∀ frame ∈ sent.dropLast, Connection.endsConnection frame = false
  answers : (entered.filterMap Entry.text?).Sublist asked
  left :
    connection.reader = .draining ∨ connection.reader = .done →
      client.registered = false

namespace Connection.Inside

variable
  {connection : Connection}
  {client : Client}
  {asked : List String}
  {entered : List Entry}
  {sent : List Frame}

/-- The reader goes on to another phase. -/
theorem turns
    (inside : connection.Inside client asked entered sent)
    {reader : ReaderPhase}
    (started : reader ≠ .handshaking)
    (left : reader = .draining ∨ reader = .done → client.registered = false) :
    Connection.Inside { connection with reader := reader } client asked entered
      sent :=
  { inside with started, left }

/-- The client is removed. -/
theorem removed
    (inside : connection.Inside client asked entered sent) :
    connection.Inside client.removed asked entered sent :=
  { inside with left := fun _ => rfl }

/-- Something joins the queue, which answers at most the text that was just
read. -/
theorem enters
    (inside : connection.Inside client asked entered sent)
    (entry : Entry)
    {said : List String}
    (answersSaid : entry.text?.toList.Sublist said) :
    connection.Inside
      { client with queue := client.queue ++ [entry.frame] }
      (asked ++ said) (entered ++ [entry]) sent where
  started := inside.started
  receives := inside.receives
  holds := inside.holds
  waits := by
    intro writing
    simp [← inside.waits writing]
  inOrder := by
    rw [List.map_append]
    exact inside.inOrder.trans (List.prefix_append _ _)
  goesOn := inside.goesOn
  endsOnce := inside.endsOnce
  answers := by
    rw [Run.filterMap_concat]
    exact inside.answers.append answersSaid
  left := inside.left

/-- The client is offered something, which answers at most the text that was
just read. -/
theorem offered
    (inside : connection.Inside client asked entered sent)
    (entry : Entry)
    {said : List String}
    (answersSaid : entry.text?.toList.Sublist said) :
    connection.Inside (client.offered entry.frame) (asked ++ said)
      (entered ++ if client.offer = .queued then [entry] else []) sent := by
  unfold Client.offered
  split
  · next queued =>
      rw [if_pos queued]
      exact inside.enters entry answersSaid
  · next refused =>
      rw [if_neg refused, List.append_nil]
      exact { inside with
        answers := inside.answers.trans (List.sublist_append_left _ _) }

/-- The client hears a broadcast. -/
theorem heard
    (inside : connection.Inside client asked entered sent)
    (frame : Frame) :
    connection.Inside (client.heard frame) asked
      (entered ++
        if client.registered ∧ client.offer = .queued then [.pushed frame]
        else []) sent := by
  unfold Client.heard
  split
  · next registered =>
      split
      · have offered := inside.offered (.pushed frame) (List.Sublist.refl [])
        simpa [registered] using offered
      · next gone =>
          have refused : client.offer ≠ .queued := by
            simp [Client.offer, gone]
          simpa [refused] using inside.removed
  · next removed =>
      simpa [removed] using inside

/-- The writer takes the next frame. -/
theorem takes
    (inside : connection.Inside client asked entered sent)
    {frame : Frame}
    {rest : List Frame}
    (writing : connection.writing = true)
    (free : connection.outgoing = none)
    (queue : client.queue = frame :: rest) :
    Connection.Inside { connection with outgoing := some frame }
      { client with queue := rest } asked entered sent :=
  { inside with
    holds := fun _ => writing
    waits := by
      intro _
      have waits := inside.waits writing
      rw [free, queue] at waits
      simpa using waits }

/-- What was sent, the frame that is being sent and the frames that wait are
the frames that joined the queue. -/
theorem sending_waits
    (inside : connection.Inside client asked entered sent)
    {frame : Frame}
    (sending : connection.outgoing = some frame) :
    connection.writing = true ∧
      sent ++ [frame] ++ client.queue = entered.map Entry.frame := by
  have writing := inside.holds (by simp [sending])
  exact ⟨writing, by simpa [sending] using inside.waits writing⟩

/-- The writer has sent a frame and goes on. -/
theorem sends
    (inside : connection.Inside client asked entered sent)
    {frame : Frame}
    (sending : connection.outgoing = some frame)
    (more : Connection.endsConnection frame = false) :
    Connection.Inside { connection with outgoing := none } client asked entered
      (sent ++ [frame]) := by
  obtain ⟨writing, waits⟩ := inside.sending_waits sending
  exact { inside with
    holds := by simp
    waits := fun _ => by simpa using waits
    inOrder := by simp [← waits]
    goesOn := by
      intro _ other member
      rcases List.mem_append.mp member with before | last
      · exact inside.goesOn writing other before
      · rw [List.mem_singleton.mp last]
        exact more
    endsOnce := by simpa using inside.goesOn writing }

/-- The writer ends. -/
theorem ends
    (inside : connection.Inside client asked entered sent) :
    Connection.Inside { connection with writing := false, outgoing := none }
      client.dropReceiver asked entered sent :=
  { inside with
    receives := rfl
    holds := by simp
    waits := by simp
    goesOn := by simp }

/-- The writer has sent its last frame. -/
theorem sendsLast
    (inside : connection.Inside client asked entered sent)
    {frame : Frame}
    (sending : connection.outgoing = some frame) :
    Connection.Inside { connection with writing := false, outgoing := none }
      client.dropReceiver asked entered (sent ++ [frame]) := by
  obtain ⟨writing, waits⟩ := inside.sending_waits sending
  exact { inside.ends with
    waits := by simp
    inOrder := by simp [← waits]
    goesOn := by simp
    endsOnce := by simpa using inside.goesOn writing }

end Connection.Inside

namespace Session

/-- A session whose client is registered under a number. -/
structure Serves
    (session : Session)
    (number : Nat)
    (client : Client)
    (asked : List String)
    (entered : List Entry)
    (sent : List Frame) : Prop where
  numbered : session.registry.Numbered
  isClient : session.connection.client = some number
  known : session.registry.client? number = some client
  inside : session.connection.Inside client asked entered sent

/-- A connection that has a client leaves it to others to register more. -/
theorem length_clients_moveClient
    {registry : Registry}
    (numbered : registry.Numbered)
    (connection : Connection)
    (next : ConnectionMove)
    (number : Nat) :
    (connection.moveClient next number registry).2.1.clients.length =
      registry.clients.length := by
  have call
      {registry : Registry}
      (numbered : registry.Numbered)
      (call : RegistryMove)
      (joinsNobody : registry.hands call = []) :
      (registry.move call).clients.length = registry.clients.length := by
    rw [Registry.length_clients_move numbered, joinsNobody]
    rfl
  have taken :
      (connection.take number registry).2.clients.length =
        registry.clients.length := by
    unfold Connection.take
    split
    · split
      · next frame after received =>
          have moved : registry.move (.receive number) = after :=
            congrArg Prod.snd received
          rw [← moved]
          exact call numbered (.receive number) rfl
      · rfl
    · rfl
  have sent (succeeds : Bool) :
      (connection.sent succeeds number registry).2.clients.length =
        registry.clients.length := by
    unfold Connection.sent
    split
    · split
      · rfl
      · exact call numbered (.dropReceiver number) rfl
    · rfl
  unfold Connection.moveClient
  split
  · next content _ =>
      exact call numbered (.offer number (.echo content)) rfl
  · exact call numbered (.disconnect number) rfl
  · rfl
  · split
    · rfl
    · next after _ offered =>
        have moved : registry.move (.offer number .goingAway) = after :=
          congrArg Prod.snd offered
        rw [← moved]
        exact call numbered (.offer number .goingAway) rfl
  · exact call numbered (.disconnect number) rfl
  · exact call numbered (.disconnect number) rfl
  · split <;> rfl
  · exact taken
  · exact sent _
  · split
    · exact call numbered (.dropReceiver number) rfl
    · rfl
  · split <;> rfl
  · rfl

namespace Serves

variable
  {session : Session}
  {number : Nat}
  {client : Client}
  {asked : List String}
  {entered : List Entry}
  {sent : List Frame}

/-- What the client is offered joins its queue if the client says so. -/
theorem enters_eq
    (serves : session.Serves number client asked entered sent)
    (next : SessionMove) :
    session.enters next =
      if client.offer = .queued then (session.offers number next).toList
      else [] := by
  have told (entry : Entry) :
      (session.registry.offer number entry.frame).1 = some client.offer := by
    simp [Registry.offer, serves.known]
  simp only [enters, serves.isClient, Option.bind_some, told]
  cases session.offers number next <;> cases client.offer <;> rfl

/-- A move of the connection is a move of a connection with a client. -/
theorem move_own
    (serves : session.Serves number client asked entered sent)
    (next : ConnectionMove) :
    session.move (.own next) =
      ⟨(session.connection.moveClient next number session.registry).1,
        (session.connection.moveClient next number session.registry).2.1⟩ := by
  simp only [move, Connection.move, serves.isClient]

/-- A call to the registry that concerns the client, and with it a change of
the connection. -/
theorem called
    (serves : session.Serves number client asked entered sent)
    {connection : Connection}
    (isClient : connection.client = some number)
    {call : RegistryMove}
    {meaning : ClientCall}
    (means : call.callOn? number = some meaning)
    {askedNow : List String}
    {enteredNow : List Entry}
    {sentNow : List Frame}
    (inside :
      connection.Inside (client.call meaning) askedNow enteredNow sentNow) :
    Serves ⟨connection, session.registry.move call⟩ number
      (client.call meaning) askedNow enteredNow sentNow where
  numbered := Registry.numbered_move serves.numbered call
  isClient := isClient
  known := by
    rw [Registry.client?_move_of_some serves.numbered serves.known, means]
    rfl
  inside := inside

/-- The reader removes its client. -/
theorem departs
    (serves : session.Serves number client asked entered sent) :
    Serves
      ⟨(session.connection.depart number session.registry).1,
        (session.connection.depart number session.registry).2.1⟩
      number client.removed asked entered sent := by
  have means :
      (RegistryMove.disconnect number).callOn? number = some .remove :=
    if_pos rfl
  exact serves.called (by exact serves.isClient) means
    (serves.inside.removed.turns (by simp) (fun _ => rfl))

/-- The reader offers something to its client. -/
theorem offers
    (serves : session.Serves number client asked entered sent)
    (entry : Entry)
    {said : List String}
    (answersSaid : entry.text?.toList.Sublist said) :
    Serves
      ⟨session.connection,
        (session.registry.offer number entry.frame).2⟩
      number (client.offered entry.frame) (asked ++ said)
      (entered ++ if client.offer = .queued then [entry] else []) sent := by
  have means :
      (RegistryMove.offer number entry.frame).callOn? number =
        some (.offer entry.frame) :=
    if_pos rfl
  exact serves.called serves.isClient means
    (serves.inside.offered entry answersSaid)

/-- The reader goes on to another phase. -/
theorem turns
    (serves : session.Serves number client asked entered sent)
    {reader : ReaderPhase}
    (started : reader ≠ .handshaking)
    (left : reader = .draining ∨ reader = .done → client.registered = false) :
    Serves
      ⟨{ session.connection with reader := reader }, session.registry⟩
      number client asked entered sent :=
  { serves with inside := serves.inside.turns started left }

/-- The writer takes the next frame, if there is one. -/
theorem takes
    (serves : session.Serves number client asked entered sent) :
    ∃ later,
      Serves
        ⟨(session.connection.take number session.registry).1,
          (session.connection.take number session.registry).2⟩
        number later asked entered sent := by
  unfold Connection.take
  split
  · next ready =>
      obtain ⟨writing, free⟩ := ready
      have receives : client.receiving = true := by
        rw [serves.inside.receives, writing]
      have means :
          (RegistryMove.receive number).callOn? number = some .receive :=
        if_pos rfl
      cases queue : client.queue with
      | nil =>
          have nothing :
              ∀ frame, (session.registry.receive number).1 ≠ .frame frame := by
            intro frame
            cases registered : client.registered <;>
              simp [Registry.receive, serves.known, Client.receive, receives,
                queue, registered]
          split
          · next frame registry received =>
              exact (nothing frame (by rw [received])).elim
          · exact ⟨client, serves⟩
      | cons frame rest =>
          have taken :
              client.receive = (.frame frame, { client with queue := rest }) := by
            simp [Client.receive, receives, queue]
          have received :
              (session.registry.receive number).1 = .frame frame := by
            simp only [Registry.receive, serves.known, taken]
          have shape :
              session.registry.receive number =
                (.frame frame, session.registry.move (.receive number)) := by
            rw [← received]
            rfl
          rw [shape]
          refine ⟨_, serves.called (by exact serves.isClient) means ?_⟩
          rw [Client.call, taken]
          exact serves.inside.takes writing free queue
  · exact ⟨client, serves⟩

/-- The writer ends without sending more. -/
theorem ends
    (serves : session.Serves number client asked entered sent) :
    Serves
      ⟨(session.connection.endWriter number session.registry).1,
        (session.connection.endWriter number session.registry).2⟩
      number client.dropReceiver asked entered sent := by
  have means :
      (RegistryMove.dropReceiver number).callOn? number =
        some .dropReceiver :=
    if_pos rfl
  exact serves.called (by exact serves.isClient) means serves.inside.ends

/-- The writer sends its last frame. -/
theorem sendsLast
    (serves : session.Serves number client asked entered sent)
    {frame : Frame}
    (sending : session.connection.outgoing = some frame) :
    Serves
      ⟨(session.connection.endWriter number session.registry).1,
        (session.connection.endWriter number session.registry).2⟩
      number client.dropReceiver asked entered (sent ++ [frame]) :=
  { serves.ends with inside := serves.inside.sendsLast sending }

/-- The writer is done with a frame. -/
theorem sends
    (serves : session.Serves number client asked entered sent)
    (succeeds : Bool) :
    ∃ later,
      Serves
        ⟨(session.connection.sent succeeds number session.registry).1,
          (session.connection.sent succeeds number session.registry).2⟩
        number later asked entered
        (sent ++ session.sends (.own (.sent succeeds))) := by
  cases sending : session.connection.outgoing with
  | none =>
      refine ⟨client, ?_⟩
      cases succeeds <;>
        simpa [Connection.sent, Session.sends, sending] using serves
  | some frame =>
      cases succeeds with
      | false =>
          refine ⟨client.dropReceiver, ?_⟩
          simpa [Connection.sent, Session.sends, sending] using serves.ends
      | true =>
          cases last : Connection.endsConnection frame with
          | false =>
              have goesOn :
                  Serves
                    ⟨{ session.connection with outgoing := none },
                      session.registry⟩
                    number client asked entered (sent ++ [frame]) :=
                { serves with inside := serves.inside.sends sending last }
              refine ⟨client, ?_⟩
              simpa [Connection.sent, Session.sends, sending, last] using goesOn
          | true =>
              refine ⟨client.dropReceiver, ?_⟩
              simpa [Connection.sent, Session.sends, sending, last] using
                serves.sendsLast sending

/-- The reader queues the close frame, unless the queue is full. -/
theorem closes
    (serves : session.Serves number client asked entered sent)
    (closing : session.connection.reader = .closing) :
    ∃ later,
      (session.move (.own .closeQueued)).Serves number later asked
        (entered ++ session.enters (.own .closeQueued)) sent := by
  have queued := serves.offers .farewell (List.Sublist.refl [])
  obtain ⟨after, shape⟩ :
      ∃ after,
        session.registry.offer number .goingAway =
          (some client.offer, after) := by
    simp [Registry.offer, serves.known]
  have offered :
      session.offers number (.own .closeQueued) = some .farewell := by
    simp [Session.offers, closing]
  rw [serves.move_own, serves.enters_eq, offered]
  simp only [Entry.frame_farewell, List.append_nil, shape] at queued
  simp only [Connection.moveClient, closing, shape]
  have started : ReaderPhase.leaving ≠ .handshaking := by simp
  have left (client : Client) :
      ReaderPhase.leaving = .draining ∨ ReaderPhase.leaving = .done →
        client.registered = false := by
    simp
  cases offer : client.offer with
  | full =>
      exact ⟨client, by simpa using serves⟩
  | queued =>
      exact ⟨_, by simpa [offer] using queued.turns started (left _)⟩
  | gone =>
      exact ⟨_, by simpa [offer] using queued.turns started (left _)⟩

/-- The connection moves. -/
theorem own
    (serves : session.Serves number client asked entered sent)
    (next : ConnectionMove) :
    ∃ later,
      (session.move (.own next)).Serves number later
        (asked ++ session.asks (.own next))
        (entered ++ session.enters (.own next))
        (sent ++ session.sends (.own next)) := by
  -- Most moves bring no text, offer nothing and send nothing.
  have unseen
      (unasked : session.asks (.own next) = [])
      (unoffered : session.offers number (.own next) = none)
      (unsent : session.sends (.own next) = [])
      {moved : Session}
      (moves : ∃ later, moved.Serves number later asked entered sent) :
      ∃ later,
        moved.Serves number later (asked ++ session.asks (.own next))
          (entered ++ session.enters (.own next))
          (sent ++ session.sends (.own next)) := by
    rw [unasked, serves.enters_eq, unoffered, unsent]
    simpa using moves
  -- The three that are seen are set apart before the cases of the definition.
  by_cases reads :
      session.connection.reader = .reading ∧ ∃ content, next = .text content
  · obtain ⟨reading, content, rfl⟩ := reads
    have offered :=
      serves.offers (.answer content) (List.Sublist.refl [content])
    refine ⟨client.offered (.echo content), ?_⟩
    rw [serves.move_own, serves.enters_eq]
    simpa [Connection.moveClient, reading, asks, Session.offers,
      Session.sends] using offered
  by_cases closes :
      session.connection.reader = .closing ∧ next = .closeQueued
  · obtain ⟨closing, rfl⟩ := closes
    simpa [asks, Session.sends] using serves.closes closing
  have unasked : session.asks (.own next) = [] := by
    cases next <;> simp_all [asks]
  have unoffered : session.offers number (.own next) = none := by
    cases next <;> simp_all [Session.offers]
  by_cases sends : ∃ succeeds, next = .sent succeeds
  · obtain ⟨succeeds, rfl⟩ := sends
    obtain ⟨later, moved⟩ := serves.sends succeeds
    refine ⟨later, ?_⟩
    rw [serves.move_own, serves.enters_eq, unasked, unoffered]
    cases place : session.connection.reader <;>
      simpa [Connection.moveClient, place] using moved
  have unsent : session.sends (.own next) = [] := by
    cases next <;> simp_all [Session.sends]
  refine unseen unasked unoffered unsent ?_
  rw [serves.move_own]
  unfold Connection.moveClient
  split
  · simp_all
  · exact ⟨_, serves.departs⟩
  · exact ⟨_, serves.turns (by simp) (by simp)⟩
  · simp_all
  · exact ⟨_, serves.departs⟩
  · exact ⟨_, serves.departs⟩
  · next draining =>
      split
      · exact ⟨_, serves⟩
      · exact ⟨_, serves.turns (by simp)
          (fun _ => serves.inside.left (.inl draining))⟩
  · exact serves.takes
  · simp_all
  · split
    · exact ⟨_, serves.ends⟩
    · exact ⟨_, serves⟩
  · split
    · exact ⟨_, serves.turns (by simp) (by simp)⟩
    · exact ⟨_, serves⟩
  · exact ⟨_, serves⟩

/-- Others call the registry. -/
theorem around
    (serves : session.Serves number client asked entered sent)
    (call : RegistryMove) :
    ∃ later,
      (session.move (.around call)).Serves number later
        (asked ++ session.asks (.around call))
        (entered ++ session.enters (.around call))
        (sent ++ session.sends (.around call)) := by
  have unasked : session.asks (.around call) = [] := rfl
  have unsent : session.sends (.around call) = [] := rfl
  have known :=
    Registry.client?_move_of_some serves.numbered serves.known call
  have numbered := Registry.numbered_move serves.numbered call
  rw [unasked, unsent, serves.enters_eq, List.append_nil, List.append_nil]
  by_cases broadcasts : ∃ frame, call = .broadcast frame
  · obtain ⟨frame, rfl⟩ := broadcasts
    have member : session.registry.isMember number = client.registered := by
      simp [Registry.isMember, serves.known]
    have moved :
        session.move (.around (.broadcast frame)) =
          ⟨session.connection,
            session.registry.move (.broadcast frame)⟩ := by
      simp [move, RegistryMove.isForeign, RegistryMove.callOn?,
        serves.isClient]
    rw [moved]
    refine ⟨client.heard frame, numbered, serves.isClient, known, ?_⟩
    have heard := serves.inside.heard frame
    simp only [Session.offers, member]
    cases registered : client.registered <;>
      cases offer : client.offer <;> simpa [registered, offer] using heard
  have unoffered : session.offers number (.around call) = none := by
    cases call <;> simp_all [Session.offers]
  rw [unoffered]
  refine ⟨client, ?_⟩
  cases foreign : call.isForeign session.connection.client with
  | false =>
      simpa [move, foreign] using serves
  | true =>
      have unnamed : call.callOn? number = none := by
        cases call <;>
          simp_all [RegistryMove.isForeign, RegistryMove.callOn?,
            serves.isClient] <;>
          split at foreign <;> simp_all
      rw [unnamed] at known
      have goesOn :
          Serves ⟨session.connection, session.registry.move call⟩ number client
            asked entered sent :=
        { serves with numbered, known }
      simpa [move, foreign] using goesOn

/-- A connection that has a client registers no other. -/
theorem joins_eq
    (serves : session.Serves number client asked entered sent)
    (next : SessionMove) :
    session.joins next = [] := by
  cases next with
  | around call =>
      rfl
  | own next =>
      have size :=
        length_clients_moveClient serves.numbered session.connection next number
      rw [joins, serves.move_own, ← size]
      simp

end Serves

/-- How a session stands after a run, of which the given was seen. -/
inductive Stands (session : Session) :
    List String → List Entry → List Frame → List Nat → Prop where
  /-- The connection has no client. -/
  | outside
      (numbered : session.registry.Numbered)
      (noClient : session.connection.client = none)
      (notReading : session.connection.reader ≠ .reading)
      (idle : session.connection.outgoing = none) :
      Stands session [] [] [] []
  /-- The connection has registered its client. -/
  | inside
      {number : Nat}
      {client : Client}
      {asked : List String}
      {entered : List Entry}
      {sent : List Frame}
      (serves : session.Serves number client asked entered sent) :
      Stands session asked entered sent [number]

theorem stands_begin
    (channel : String) :
    (begin channel).Stands [] [] [] [] :=
  .outside rfl rfl (by simp [begin, Connection.fresh]) rfl

variable
  {session : Session}
  {asked : List String}
  {entered : List Entry}
  {sent : List Frame}
  {joined : List Nat}

/-- A handshake that succeeds registers the client. -/
theorem stands_handshake
    (numbered : session.registry.Numbered)
    (idle : session.connection.outgoing = none) :
    let moved := session.connection.handshake true session.registry
    Stands ⟨moved.1, moved.2.1⟩ [] [] []
      ((moved.2.1.clients.drop session.registry.clients.length).map
        Client.number) := by
  have known := Registry.client?_connect numbered
  have joins :
      (session.registry.connect.2.1.clients.drop
          session.registry.clients.length).map Client.number =
        [session.registry.nextNumber] := by
    simp [Registry.connect, Client.fresh]
  simp only [Connection.handshake, if_pos]
  rw [joins]
  exact .inside
    { numbered := Registry.numbered_move numbered .connect
      isClient := rfl
      known := known
      inside :=
        { started := by simp
          receives := rfl
          holds := by simp
          waits := by simp [idle, Client.fresh]
          inOrder := List.nil_prefix
          goesOn := by simp
          endsOnce := by simp
          answers := List.Sublist.refl _
          left := by simp } }

/-- A connection without a client stays without one, or registers it. -/
theorem Stands.move_outside
    (numbered : session.registry.Numbered)
    (noClient : session.connection.client = none)
    (notReading : session.connection.reader ≠ .reading)
    (idle : session.connection.outgoing = none)
    (next : SessionMove) :
    (session.move next).Stands (session.asks next) (session.enters next)
      (session.sends next) (session.joins next) := by
  have unasked : session.asks next = [] := by
    unfold asks
    split <;> simp [notReading]
  have unentered : session.enters next = [] := by
    simp [enters, noClient]
  have unsent : session.sends next = [] := by
    unfold sends
    split <;> simp [idle]
  rw [unasked, unentered, unsent]
  cases next with
  | around call =>
      have moved :
          session.move (.around call) =
            ⟨session.connection, session.registry.move call⟩ := by
        simp [move, RegistryMove.isForeign, noClient]
      rw [moved]
      exact .outside (Registry.numbered_move numbered call) noClient notReading
        idle
  | own next =>
      have nobody
          {connection : Connection}
          (noClient : connection.client = none)
          (notReading : connection.reader ≠ .reading)
          (idle : connection.outgoing = none) :
          Stands ⟨connection, session.registry⟩ [] [] []
            ((session.registry.clients.drop
              session.registry.clients.length).map Client.number) := by
        have outside :
            Stands ⟨connection, session.registry⟩ [] [] [] [] :=
          .outside numbered noClient notReading idle
        simpa using outside
      simp only [move, joins, Connection.move, noClient]
      split
      · next succeeds _ =>
          cases succeeds with
          | false =>
              refine nobody ?_ ?_ idle
              · exact noClient
              · simp [Connection.handshake]
          | true =>
              exact stands_handshake numbered idle
      · exact nobody rfl (by simp) idle
      · exact nobody rfl (by simp) idle
      · exact nobody noClient notReading idle

theorem Stands.move
    (stands : session.Stands asked entered sent joined)
    (next : SessionMove) :
    (session.move next).Stands (asked ++ session.asks next)
      (entered ++ session.enters next) (sent ++ session.sends next)
      (joined ++ session.joins next) := by
  cases stands with
  | outside numbered noClient notReading idle =>
      exact Stands.move_outside numbered noClient notReading idle next
  | inside serves =>
      rw [serves.joins_eq, List.append_nil]
      cases next with
      | own next =>
          obtain ⟨later, moved⟩ := serves.own next
          exact .inside moved
      | around call =>
          obtain ⟨later, moved⟩ := serves.around call
          exact .inside moved

/-- A session keeps to its invariant in every run. -/
theorem stands_moves
    (channel : String)
    (list : List SessionMove) :
    ((begin channel).moves list).Stands ((begin channel).asked list)
      ((begin channel).entered list) ((begin channel).sent list)
      ((begin channel).joined list) := by
  induction list using List.reverseRecOn with
  | nil =>
      exact stands_begin channel
  | append_singleton list next inductionHypothesis =>
      have moved := inductionHypothesis.move next
      rw [moves_concat]
      simp only [Session.asked, Session.entered, Session.sent, Session.joined,
        Run.yielded_concat] at moved ⊢
      exact moved

end Session

/-! ## After the stop signal -/

/-- Whether a connection neither reads texts nor ever will. -/
def Connection.Deaf (connection : Connection) : Prop :=
  connection.reader ≠ .reading ∧
    (connection.client = none → connection.reader ≠ .handshaking)

/-- A connection keeps its client, and does not begin to read again. -/
theorem Connection.keeps_moveClient
    (connection : Connection)
    (next : ConnectionMove)
    (number : Nat)
    (registry : Registry) :
    (connection.moveClient next number registry).1.client =
        connection.client ∧
      ((connection.moveClient next number registry).1.reader = .reading →
        connection.reader = .reading) := by
  have take :
      (connection.take number registry).1.client = connection.client ∧
        (connection.take number registry).1.reader = connection.reader := by
    unfold Connection.take
    split
    · split <;> exact ⟨rfl, rfl⟩
    · exact ⟨rfl, rfl⟩
  have sent (succeeds : Bool) :
      (connection.sent succeeds number registry).1.client =
          connection.client ∧
        (connection.sent succeeds number registry).1.reader =
          connection.reader := by
    unfold Connection.sent
    split
    · split <;> exact ⟨rfl, rfl⟩
    · exact ⟨rfl, rfl⟩
  unfold Connection.moveClient
  split
  · simp
  · simp [depart]
  · simp
  · split <;> simp
  · simp [depart]
  · simp [depart]
  · split <;> simp
  · exact ⟨take.1, fun reading => take.2 ▸ reading⟩
  · exact ⟨(sent _).1, fun reading => (sent _).2 ▸ reading⟩
  · split <;> simp [endWriter]
  · split <;> simp
  · simp

/-- A reader that does not read does not begin to. -/
theorem Connection.Deaf.move
    {connection : Connection}
    (deaf : connection.Deaf)
    (next : ConnectionMove)
    (registry : Registry) :
    (connection.move next registry).1.Deaf := by
  obtain ⟨notReading, started⟩ := deaf
  unfold Connection.move
  split
  · next number isClient =>
      obtain ⟨keeps, stays⟩ :=
        connection.keeps_moveClient next number registry
      refine ⟨fun reading => notReading (stays reading), ?_⟩
      rw [keeps, isClient]
      simp
  · next noClient =>
      have notHandshaking := started noClient
      split
      · contradiction
      · contradiction
      · contradiction
      · exact ⟨notReading, started⟩

namespace Session

variable
  {session : Session}
  {asked : List String}
  {entered : List Entry}
  {sent : List Frame}
  {joined : List Nat}

/-- A reader that sees the stop signal reads no more. -/
theorem Stands.deaf
    (stands : session.Stands asked entered sent joined) :
    (session.move (.own .stop)).connection.Deaf := by
  cases stands with
  | outside numbered noClient notReading idle =>
      simp only [Session.move, Connection.move, noClient]
      cases place : session.connection.reader <;>
        simp_all [Connection.Deaf]
  | inside serves =>
      rw [serves.move_own]
      have started := serves.inside.started
      have isClient := serves.isClient
      cases place : session.connection.reader <;>
        simp_all [Connection.moveClient, Connection.Deaf]

theorem Deaf.move
    (deaf : session.connection.Deaf)
    (next : SessionMove) :
    (session.move next).connection.Deaf := by
  cases next with
  | own next =>
      exact deaf.move next session.registry
  | around call =>
      simp only [Session.move]
      split <;> exact deaf

/-- A reader that does not read answers nothing. -/
theorem answer_notMem_enters
    (deaf : session.connection.Deaf)
    (next : SessionMove)
    (text : String) :
    .answer text ∉ session.enters next := by
  have unoffered (number : Nat) :
      session.offers number next ≠ some (.answer text) := by
    unfold offers
    split <;> simp [deaf.1]
  simp only [enters, Option.mem_toList, Option.bind_eq_some_iff,
    Option.filter_eq_some_iff]
  rintro ⟨number, _, offered, _⟩
  exact unoffered number offered

theorem answer_notMem_entered
    (deaf : session.connection.Deaf)
    (list : List SessionMove)
    (text : String) :
    .answer text ∉ session.entered list := by
  induction list generalizing session with
  | nil =>
      simp [Session.entered, Run.yielded]
  | cons next rest inductionHypothesis =>
      have later := inductionHypothesis (Deaf.move deaf next)
      intro member
      rcases List.mem_append.mp member with now | after
      · exact answer_notMem_enters deaf next text now
      · exact later after

/-- What was sent is what joined the queue first. -/
theorem Stands.inOrder
    (stands : session.Stands asked entered sent joined) :
    ∃ taken,
      taken <+: entered ∧ sent = taken.map Entry.frame ∧
        (taken.filterMap Entry.text?).Sublist asked := by
  cases stands with
  | outside =>
      exact ⟨[], List.nil_prefix, rfl, List.Sublist.refl _⟩
  | inside serves =>
      obtain ⟨taken, before, same⟩ :=
        List.prefix_map_iff.mp serves.inside.inOrder
      exact ⟨taken, before, same,
        (before.sublist.filterMap _).trans serves.inside.answers⟩

/-- Nothing is sent after a close frame. -/
theorem Stands.closesOnce
    (stands : session.Stands asked entered sent joined) :
    ∀ frame ∈ sent.dropLast, Connection.endsConnection frame = false := by
  cases stands with
  | outside =>
      simp
  | inside serves =>
      exact serves.inside.endsOnce

theorem Stands.registers
    (stands : session.Stands asked entered sent joined) :
    joined = session.connection.client.toList := by
  cases stands with
  | outside _ noClient =>
      simp [noClient]
  | inside serves =>
      simp [serves.isClient]

/-- Nobody but the client joins. -/
theorem Stands.joined_eq
    (stands : session.Stands asked entered sent joined)
    {number : Nat}
    (joins : number ∈ joined) :
    joined = [number] := by
  cases stands with
  | outside =>
      cases joins
  | inside serves =>
      rw [List.mem_singleton.mp joins]

/-- A handshake that succeeds registers a client. -/
theorem Stands.joins_handshake
    (stands : session.Stands asked entered sent joined)
    (starts : session.connection.reader = .handshaking) :
    ∃ number,
      session.joins (.own (.handshake true)) = [number] ∧
        (session.move (.own (.handshake true))).registry.isMember number =
          true := by
  cases stands with
  | inside serves =>
      exact (serves.inside.started starts).elim
  | outside numbered noClient _ _ =>
      have moved :
          (session.move (.own (.handshake true))).registry =
            session.registry.move .connect := by
        simp [Session.move, Connection.move, noClient, starts,
          Connection.handshake, Registry.move]
      refine ⟨session.registry.nextNumber, ?_, ?_⟩
      · rw [joins, moved]
        simp [Registry.move, Registry.connect, Client.fresh]
      · rw [moved, Registry.isMember, Registry.client?_connect numbered]
        rfl

theorem Stands.removes
    (stands : session.Stands asked entered sent joined)
    (done : session.connection.reader = .done) :
    ∀ number ∈ joined, session.registry.isMember number = false := by
  cases stands with
  | outside =>
      simp
  | inside serves =>
      simp [Registry.isMember, serves.known, serves.inside.left (.inr done)]

/-- What a session owes its client and the registry in a run from its
beginning. -/
structure Keeps (channel : String) (list : List SessionMove) : Prop where
  /-- What was sent is what joined the queue first, in the same order, and the
  answers in it are answers to some of the texts, in the same order. -/
  inOrder :
    ∃ taken,
      taken <+: (begin channel).entered list ∧
        (begin channel).sent list = taken.map Entry.frame ∧
        (taken.filterMap Entry.text?).Sublist ((begin channel).asked list)
  /-- Nothing is sent after a close frame. -/
  closesOnce :
    ∀ frame ∈ ((begin channel).sent list).dropLast,
      Connection.endsConnection frame = false
  /-- After the stop signal no answer joins the queue. -/
  silent :
    ∀ before after,
      list = before ++ .own .stop :: after →
        ∀ text,
          .answer text ∉
            ((begin channel).moves (before ++ [.own .stop])).entered after
  /-- A connection registers its client and no other. -/
  registers :
    (begin channel).joined list =
      ((begin channel).moves list).connection.client.toList
  /-- If its handshake succeeds it registers its client, then and never
  again. -/
  registersOnce :
    ∀ before after,
      list = before ++ .own (.handshake true) :: after →
        ((begin channel).moves before).connection.reader = .handshaking →
          ∃ number,
            (begin channel).joined list = [number] ∧
              ((begin channel).moves
                (before ++ [.own (.handshake true)])).registry.isMember
                  number = true
  /-- A connection that is done has removed its client. -/
  removes :
    ((begin channel).moves list).connection.reader = .done →
      ∀ number ∈ (begin channel).joined list,
        ((begin channel).moves list).registry.isMember number = false

/-- In every run a connection sends in order what joined the queue, ends with
the first close frame, answers each text at most once and none after the stop
signal, and when it is done it has removed the one client that it registered. -/
theorem every_run_keeps
    (channel : String)
    (list : List SessionMove) :
    Keeps channel list where
  inOrder := (stands_moves channel list).inOrder
  closesOnce := (stands_moves channel list).closesOnce
  silent := by
    rintro before after rfl text
    rw [moves_concat]
    exact answer_notMem_entered (stands_moves channel before).deaf after text
  registers := (stands_moves channel list).registers
  registersOnce := by
    rintro before after rfl starts
    obtain ⟨number, joins, isMember⟩ :=
      (stands_moves channel before).joins_handshake starts
    have member :
        number ∈
          (begin channel).joined
            (before ++ .own (.handshake true) :: after) := by
      rw [joined, Run.yielded_append, Run.yielded]
      refine List.mem_append_right _ (List.mem_append_left _ ?_)
      exact joins ▸ List.mem_singleton.mpr rfl
    rw [moves_concat]
    exact ⟨number, (stands_moves channel _).joined_eq member, isMember⟩
  removes := (stands_moves channel list).removes

/-- A frame that is queued behind the close frame is not sent any more. -/
example :
    let list : List SessionMove :=
      [.own (.handshake true), .own (.text "ping"), .own .stop,
        .own (.text "too late"), .own .closeQueued,
        .around (.broadcast (.text "position")), .own .depart, .own .take,
        .own (.sent true), .own .take, .own (.sent true), .own .take,
        .own .finish]
    (begin "push").entered list =
        [.answer "ping", .farewell, .pushed (.text "position")] ∧
      (begin "push").sent list =
        [.text "Server received: ping", .goingAway] ∧
      (begin "push").joined list = [1] := by
  decide

end Session

end PositionFeed
