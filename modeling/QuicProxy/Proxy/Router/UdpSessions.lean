import QuicProxy.Data.Machine
import QuicProxy.Data.Pool
import QuicProxy.Proxy.TargetAddr

namespace QuicProxy

/-! The UDP sessions of an inbound (`start_udp_loop` and
`send_to_existing_udp_session` in `src/proxy/router.rs`): one loop that receives
packets, and a task for each session. -/

namespace UdpLoop

abbrev SessionKey := SourceAddr × TargetAddr

abbrev Packet := SessionKey × Bytes

def udpSessionQueueCapacity : Nat := 16

/-- How far a session is: its receiver is still with the loop, `dispatch_packet` runs or has
quit, the receiver is dropped, the entry has been cleaned up. -/
inductive Phase where
  | held
  | serving
  | quit
  | closed
  | finished
deriving DecidableEq

def Phase.hasReceiver : Phase → Bool
  | held | serving | quit => true
  | closed | finished => false

/-- `dispatch_packet` has not quit. -/
def Phase.live : Phase → Bool
  | held | serving => true
  | quit | closed | finished => false

structure Session where
  key : SessionKey
  first : Bytes
  queue : List Bytes
  taken : List Bytes
  phase : Phase
deriving DecidableEq

/-- Where the loop is; a sender is the number of the session at its other end. -/
inductive Loop where
  | receiving
  | received (key : SessionKey) (payload : Bytes)
  | sending (key : SessionKey) (tx : Nat) (payload : Bytes)
  | recovered (key : SessionKey) (tx : Nat) (payload : Bytes)
  | opening (key : SessionKey) (payload : Bytes)
  | spawning (key : SessionKey) (tx : Nat) (payload : Bytes)
  | stopped

def Loop.inHand : Loop → List Packet
  | receiving | stopped => []
  | received key payload | opening key payload => [(key, payload)]
  | sending key _ payload | recovered key _ payload | spawning key _ payload => [(key, payload)]

def Loop.sendsTo : Loop → Option Nat
  | sending _ tx _ => some tx
  | receiving | received _ _ | recovered _ _ _ | opening _ _ | spawning _ _ _ | stopped => none

/-- What became of a packet; `queued` has the phase of the session at that time. -/
inductive Fate where
  | queued (packet : Packet) (tx : Nat) (phase : Phase)
  | first (packet : Packet) (tx : Nat)
deriving DecidableEq

namespace Fate

def packet : Fate → Packet
  | queued packet _ _ | first packet _ => packet

def tx : Fate → Nat
  | queued _ tx _ | first _ tx => tx

/-- The payload, where it was queued to that session. -/
def queuedTo (tx : Nat) : Fate → Option Bytes
  | queued packet target _ => if target = tx then some packet.2 else none
  | first _ _ => none

end Fate

structure State where
  sessions : SessionKey → Option Nat
  tasks : List Session
  loop : Loop
  received : List Packet
  fates : List Fate

inductive Event where
  | recvFrom (packet : Packet)
  | recvError
  | get
  | send
  | remove
  | insert
  | spawn
  | take (tx count : Nat)
  | quit (tx : Nat)
  | drop (tx : Nat)
  | cleanUp (tx : Nat)

namespace State

def initial : State := ⟨fun _ => none, [], .receiving, [], []⟩

def isClosed (state : State) (tx : Nat) : Bool :=
  match state.tasks[tx]? with
  | some session => !session.phase.hasReceiver
  | none => true

def setTask (state : State) (tx : Nat) (session : Session) : State :=
  { state with tasks := state.tasks.set tx session }

def settle (state : State) (fate : Fate) : State :=
  { state with
    loop := .receiving
    fates := state.fates ++ [fate] }

/-- `remove_if`, on the sender that is found. -/
def removeIf (state : State) (key : SessionKey) (test : Nat → Bool) : State :=
  match state.sessions key with
  | some tx =>
      if test tx then { state with sessions := Function.update state.sessions key none } else state
  | none => state

/-- `tx.send`: it waits for room, and gives the payload back without a receiver. -/
def send (state : State) (key : SessionKey) (tx : Nat) (payload : Bytes) (session : Session) :
    Option State :=
  if session.phase.hasReceiver then
    if session.queue.length < udpSessionQueueCapacity then
      some ((state.setTask tx { session with queue := session.queue ++ [payload] }).settle
        (.queued (key, payload) tx session.phase))
    else none
  else some { state with loop := .recovered key tx payload }

def move (state : State) (tx : Nat) (before after : Phase) : Option State :=
  state.tasks[tx]?.bind fun session =>
    if session.phase = before then some (state.setTask tx { session with phase := after })
    else none

def step (state : State) : Event → Option State
  | .recvFrom (key, payload) =>
      match state.loop with
      | .receiving =>
          some { state with
            loop := .received key payload
            received := state.received ++ [(key, payload)] }
      | _ => none
  | .recvError =>
      match state.loop with
      | .receiving => some { state with loop := .stopped }
      | _ => none
  | .get =>
      match state.loop with
      | .received key payload =>
          match state.sessions key with
          | some tx => some { state with loop := .sending key tx payload }
          | none => some { state with loop := .opening key payload }
      | _ => none
  | .send =>
      match state.loop with
      | .sending key tx payload => state.tasks[tx]?.bind (state.send key tx payload)
      | _ => none
  | .remove =>
      match state.loop with
      | .recovered key tx payload =>
          some { state.removeIf key (fun active => active = tx ∧ state.isClosed active) with
            loop := .opening key payload }
      | _ => none
  | .insert =>
      match state.loop with
      | .opening key payload =>
          some { state with
            sessions := Function.update state.sessions key (some state.tasks.length)
            tasks := state.tasks ++ [⟨key, payload, [], [], .held⟩]
            loop := .spawning key state.tasks.length payload }
      | _ => none
  | .spawn =>
      match state.loop with
      | .spawning key tx payload =>
          (state.move tx .held .serving).map (·.settle (.first (key, payload) tx))
      | _ => none
  | .take tx count =>
      state.tasks[tx]?.bind fun session =>
        if session.phase = .serving then
          some (state.setTask tx { session with
            queue := session.queue.drop count
            taken := session.taken ++ session.queue.take count })
        else none
  | .quit tx => state.move tx .serving .quit
  | .drop tx => state.move tx .quit .closed
  | .cleanUp tx =>
      state.tasks[tx]?.bind fun session =>
        (state.move tx .closed .finished).map fun state =>
          state.removeIf session.key state.isClosed

/-- What each event finds, and the state that it leaves. -/
inductive Steps (state : State) : Event → State → Prop
  | recvFrom {key : SessionKey} {payload : Bytes} (loop : state.loop = .receiving) :
      Steps state (.recvFrom (key, payload))
        { state with
          loop := .received key payload
          received := state.received ++ [(key, payload)] }
  | recvError (loop : state.loop = .receiving) :
      Steps state .recvError { state with loop := .stopped }
  | known {key : SessionKey} {tx : Nat} {payload : Bytes}
      (loop : state.loop = .received key payload) (entry : state.sessions key = some tx) :
      Steps state .get { state with loop := .sending key tx payload }
  | unknown {key : SessionKey} {payload : Bytes} (loop : state.loop = .received key payload)
      (entry : state.sessions key = none) :
      Steps state .get { state with loop := .opening key payload }
  | queued {key : SessionKey} {tx : Nat} {payload : Bytes} {session : Session}
      (loop : state.loop = .sending key tx payload) (found : state.tasks[tx]? = some session)
      (open_ : session.phase.hasReceiver = true) :
      Steps state .send
        ((state.setTask tx { session with queue := session.queue ++ [payload] }).settle
          (.queued (key, payload) tx session.phase))
  | recovered {key : SessionKey} {tx : Nat} {payload : Bytes} {session : Session}
      (loop : state.loop = .sending key tx payload) (found : state.tasks[tx]? = some session)
      (gone : ¬ session.phase.hasReceiver = true) :
      Steps state .send { state with loop := .recovered key tx payload }
  | remove {key : SessionKey} {tx : Nat} {payload : Bytes}
      (loop : state.loop = .recovered key tx payload) :
      Steps state .remove
        { state.removeIf key (fun active => active = tx ∧ state.isClosed active) with
          loop := .opening key payload }
  | insert {key : SessionKey} {payload : Bytes} (loop : state.loop = .opening key payload) :
      Steps state .insert
        { state with
          sessions := Function.update state.sessions key (some state.tasks.length)
          tasks := state.tasks ++ [⟨key, payload, [], [], .held⟩]
          loop := .spawning key state.tasks.length payload }
  | spawn {key : SessionKey} {tx : Nat} {payload : Bytes} {session : Session}
      (loop : state.loop = .spawning key tx payload) (found : state.tasks[tx]? = some session)
      (held : session.phase = .held) :
      Steps state .spawn
        ((state.setTask tx { session with phase := .serving }).settle (.first (key, payload) tx))
  | take {tx count : Nat} {session : Session} (found : state.tasks[tx]? = some session)
      (serving : session.phase = .serving) :
      Steps state (.take tx count)
        (state.setTask tx { session with
          queue := session.queue.drop count
          taken := session.taken ++ session.queue.take count })
  | quit {tx : Nat} {session : Session} (found : state.tasks[tx]? = some session)
      (serving : session.phase = .serving) :
      Steps state (.quit tx) (state.setTask tx { session with phase := .quit })
  | drop {tx : Nat} {session : Session} (found : state.tasks[tx]? = some session)
      (quit : session.phase = .quit) :
      Steps state (.drop tx) (state.setTask tx { session with phase := .closed })
  | cleanUp {tx : Nat} {session : Session} (found : state.tasks[tx]? = some session)
      (closed : session.phase = .closed) :
      Steps state (.cleanUp tx)
        ((state.setTask tx { session with phase := .finished }).removeIf session.key
          (state.setTask tx { session with phase := .finished }).isClosed)

variable {state next : State} {tx : Nat} {session changed : Session} {key : SessionKey}
  {payload : Bytes}

theorem move_cases {before after : Phase} (moved : state.move tx before after = some next) :
    ∃ session, state.tasks[tx]? = some session ∧ session.phase = before ∧
      next = state.setTask tx { session with phase := after } := by
  obtain ⟨session, found, moved⟩ := Option.bind_eq_some_iff.mp moved
  split at moved
  · next phase =>
      cases moved
      exact ⟨session, found, phase, rfl⟩
  · cases moved

theorem steps_of_send (loop : state.loop = .sending key tx payload)
    (found : state.tasks[tx]? = some session)
    (sent : state.send key tx payload session = some next) : Steps state .send next := by
  unfold State.send at sent
  split at sent
  · next open_ =>
      split at sent
      · cases sent
        exact .queued loop found open_
      · cases sent
  · next gone =>
      cases sent
      exact .recovered loop found gone

theorem steps_of_step {event : Event} (taken : state.step event = some next) :
    Steps state event next := by
  cases event with
  | recvFrom packet =>
      simp only [State.step] at taken
      split at taken
      · next loop =>
          cases taken
          exact .recvFrom loop
      · cases taken
  | recvError =>
      simp only [State.step] at taken
      split at taken
      · next loop =>
          cases taken
          exact .recvError loop
      · cases taken
  | get =>
      simp only [State.step] at taken
      split at taken
      · next key payload loop =>
          split at taken
          · next tx entry =>
              cases taken
              exact .known loop entry
          · next entry =>
              cases taken
              exact .unknown loop entry
      · cases taken
  | send =>
      simp only [State.step] at taken
      split at taken
      · next key tx payload loop =>
          obtain ⟨session, found, sent⟩ := Option.bind_eq_some_iff.mp taken
          exact steps_of_send loop found sent
      · cases taken
  | remove =>
      simp only [State.step] at taken
      split at taken
      · next key tx payload loop =>
          cases taken
          exact .remove loop
      · cases taken
  | insert =>
      simp only [State.step] at taken
      split at taken
      · next key payload loop =>
          cases taken
          exact .insert loop
      · cases taken
  | spawn =>
      simp only [State.step] at taken
      split at taken
      · next key tx payload loop =>
          obtain ⟨moved, done, rfl⟩ := Option.map_eq_some_iff.mp taken
          obtain ⟨session, found, held, rfl⟩ := move_cases done
          exact .spawn loop found held
      · cases taken
  | take tx count =>
      obtain ⟨session, found, taken⟩ := Option.bind_eq_some_iff.mp taken
      split at taken
      · next serving =>
          cases taken
          exact .take found serving
      · cases taken
  | quit tx =>
      obtain ⟨session, found, serving, rfl⟩ := move_cases taken
      exact .quit found serving
  | drop tx =>
      obtain ⟨session, found, quit, rfl⟩ := move_cases taken
      exact .drop found quit
  | cleanUp tx =>
      obtain ⟨session, found, taken⟩ := Option.bind_eq_some_iff.mp taken
      obtain ⟨moved, done, rfl⟩ := Option.map_eq_some_iff.mp taken
      obtain ⟨there, before, closed, rfl⟩ := move_cases done
      cases found.symm.trans before
      exact .cleanUp found closed

/-! What holds whenever the loop and the tasks have taken steps. -/

def Vacant (tasks : List Session) (key : SessionKey) : Prop :=
  ∀ (tx : Nat) (session : Session), tasks[tx]? = some session →
    session.phase.hasReceiver = true → session.key ≠ key

/-- The map leads to every session that has its receiver. -/
structure Mapped (sessions : SessionKey → Option Nat) (tasks : List Session) : Prop where
  entry : ∀ (tx : Nat) (session : Session), tasks[tx]? = some session →
    session.phase.hasReceiver = true → sessions session.key = some tx
  known : ∀ key tx, sessions key = some tx →
    ∃ session, tasks[tx]? = some session ∧ session.key = key

/-- What the loop knows of the session it is about. -/
def Knows (tasks : List Session) : Loop → Prop
  | .receiving | .received _ _ | .stopped => True
  | .sending key tx _ =>
      (∃ session, tasks[tx]? = some session ∧ session.key = key) ∧
        ∀ (other : Nat) (session : Session), tasks[other]? = some session →
          session.phase.hasReceiver = true → session.key = key → other = tx
  | .recovered key _ _ | .opening key _ => Vacant tasks key
  | .spawning key tx payload =>
      ∃ session, tasks[tx]? = some session ∧ session.key = key ∧ session.first = payload ∧
        session.phase = .held

/-- Queued to a session of its key that had its receiver, or the first of one. -/
def Suits (session : Session) : Fate → Prop
  | .queued packet _ phase => session.key = packet.1 ∧ phase.hasReceiver = true
  | .first packet _ => session.key = packet.1 ∧ session.first = packet.2

def Taken (tasks : List Session) (fate : Fate) : Prop :=
  ∃ session, tasks[fate.tx]? = some session ∧ Suits session fate

structure Sound (state : State) : Prop where
  mapped : Mapped state.sessions state.tasks
  knows : Knows state.tasks state.loop
  accounted : state.received = state.fates.map Fate.packet ++ state.loop.inHand
  taken : ∀ fate ∈ state.fates, Taken state.tasks fate
  queues : ∀ (tx : Nat) (session : Session), state.tasks[tx]? = some session →
    session.taken ++ session.queue = state.fates.filterMap (Fate.queuedTo tx)

theorem sound_initial : initial.Sound where
  mapped := ⟨fun _ _ found => (by cases found), fun _ _ entry => (by cases entry)⟩
  knows := trivial
  accounted := rfl
  taken := fun _ member => absurd member List.not_mem_nil
  queues := fun _ _ found => (by cases found)

/-- A session changes without getting a receiver that it did not have. -/
structure Follows (session changed : Session) : Prop where
  key : changed.key = session.key
  first : changed.first = session.first
  receiver : changed.phase.hasReceiver = true → session.phase.hasReceiver = true

section Changes

variable {tasks : List Session} {tx : Nat} {session changed : Session}
  (found : tasks[tx]? = some session) (follows : Follows session changed)

include found

theorem found_after {other : Nat} {there : Session}
    (after : (tasks.set tx changed)[other]? = some there) :
    (other = tx ∧ there = changed) ∨ (other ≠ tx ∧ tasks[other]? = some there) := by
  rw [Pool.getElem?_set_of_some found] at after
  split at after
  · next same =>
      cases after
      exact .inl ⟨same, rfl⟩
  · next differs => exact .inr ⟨differs, after⟩

include follows

theorem found_before {other : Nat} {there : Session} (before : tasks[other]? = some there) :
    ∃ kept, (tasks.set tx changed)[other]? = some kept ∧ kept.key = there.key ∧
      kept.first = there.first := by
  rw [Pool.getElem?_set_of_some found]
  split
  · next here =>
      subst here
      cases found.symm.trans before
      exact ⟨changed, rfl, follows.key, follows.first⟩
  · exact ⟨there, before, rfl, rfl⟩

theorem receiver_before {other : Nat} {there : Session}
    (after : (tasks.set tx changed)[other]? = some there) (open_ : there.phase.hasReceiver = true) :
    ∃ earlier, tasks[other]? = some earlier ∧ earlier.phase.hasReceiver = true ∧
      there.key = earlier.key := by
  rcases found_after found after with ⟨rfl, rfl⟩ | ⟨_, before⟩
  · exact ⟨session, found, follows.receiver open_, follows.key⟩
  · exact ⟨there, before, open_, rfl⟩

theorem Mapped.set {sessions : SessionKey → Option Nat} (mapped : Mapped sessions tasks) :
    Mapped sessions (tasks.set tx changed) where
  entry other there after open_ := by
    obtain ⟨earlier, before, openBefore, same⟩ := receiver_before found follows after open_
    rw [same]
    exact mapped.entry other earlier before openBefore
  known key other entry := by
    obtain ⟨there, before, own⟩ := mapped.known key other entry
    obtain ⟨kept, after, same, _⟩ := found_before found follows before
    exact ⟨kept, after, same.trans own⟩

theorem Vacant.set {key : SessionKey} (vacant : Vacant tasks key) :
    Vacant (tasks.set tx changed) key := by
  intro other there after open_
  obtain ⟨earlier, before, openBefore, same⟩ := receiver_before found follows after open_
  rw [same]
  exact vacant other earlier before openBefore

theorem Knows.set {loop : Loop} (knows : Knows tasks loop)
    (held : session.phase = .held → changed.phase = .held) : Knows (tasks.set tx changed) loop := by
  cases loop with
  | receiving => trivial
  | received key payload => trivial
  | stopped => trivial
  | sending key target payload =>
      obtain ⟨⟨there, before, own⟩, only⟩ := knows
      obtain ⟨kept, after, same, _⟩ := found_before found follows before
      refine ⟨⟨kept, after, same.trans own⟩, ?_⟩
      intro other there after open_ own
      obtain ⟨earlier, before, openBefore, same⟩ := receiver_before found follows after open_
      exact only other earlier before openBefore (same.symm.trans own)
  | recovered key target payload => exact Vacant.set found follows knows
  | opening key payload => exact Vacant.set found follows knows
  | spawning key target payload =>
      obtain ⟨there, before, own, first, phase⟩ := knows
      rw [Knows, Pool.getElem?_set_of_some found]
      split
      · next here =>
          subst here
          cases found.symm.trans before
          exact ⟨changed, rfl, follows.key.trans own, follows.first.trans first, held phase⟩
      · exact ⟨there, before, own, first, phase⟩

theorem Taken.set {fate : Fate} (taken : Taken tasks fate) : Taken (tasks.set tx changed) fate := by
  obtain ⟨there, before, suits⟩ := taken
  obtain ⟨kept, after, same, first⟩ := found_before found follows before
  refine ⟨kept, after, ?_⟩
  cases fate with
  | queued packet target phase => exact ⟨same.trans suits.1, suits.2⟩
  | first packet target => exact ⟨same.trans suits.1, first.trans suits.2⟩

end Changes

theorem Sound.setTask (sound : state.Sound) (found : state.tasks[tx]? = some session)
    (follows : Follows session changed) (held : session.phase = .held → changed.phase = .held)
    (same : changed.taken ++ changed.queue = session.taken ++ session.queue) :
    (state.setTask tx changed).Sound where
  mapped := sound.mapped.set found follows
  knows := sound.knows.set found follows held
  accounted := sound.accounted
  taken := fun fate member => (sound.taken fate member).set found follows
  queues := by
    intro other there after
    rcases found_after found after with ⟨rfl, rfl⟩ | ⟨_, before⟩
    · rw [same]
      exact sound.queues other session found
    · exact sound.queues other there before

theorem Sound.settle (sound : state.Sound) (found : state.tasks[tx]? = some session)
    (follows : Follows session changed) {fate : Fate} (suits : Suits session fate)
    (inHand : state.loop.inHand = [fate.packet]) (target : fate.tx = tx)
    (contents : changed.taken ++ changed.queue =
      session.taken ++ session.queue ++ (fate.queuedTo tx).toList) :
    ((state.setTask tx changed).settle fate).Sound where
  mapped := sound.mapped.set found follows
  knows := trivial
  accounted := by
    have accounted := sound.accounted
    rw [inHand] at accounted
    change state.received = (state.fates ++ [fate]).map Fate.packet ++ []
    rw [accounted, List.map_append, List.append_nil]
    rfl
  taken := by
    intro other member
    rcases List.mem_append.mp member with earlier | now
    · exact (sound.taken other earlier).set found follows
    · rw [List.mem_singleton.mp now]
      subst target
      exact Taken.set found follows ⟨session, found, suits⟩
  queues := by
    intro other there after
    change _ = (state.fates ++ [fate]).filterMap _
    rw [List.filterMap_append]
    rcases found_after found after with ⟨rfl, rfl⟩ | ⟨differs, before⟩
    · rw [contents, sound.queues other session found]
      cases queued : fate.queuedTo other <;> simp [queued]
    · have elsewhere : fate.queuedTo other = none := by
        cases fate with
        | first packet tx => rfl
        | queued packet tx' phase => exact if_neg fun same => differs (same.symm.trans target)
      rw [sound.queues other there before]
      simp [elsewhere]

theorem Sound.changePhase (sound : state.Sound) (found : state.tasks[tx]? = some session)
    {after : Phase} (notHeld : session.phase ≠ .held)
    (receiver : after.hasReceiver = true → session.phase.hasReceiver = true) :
    (state.setTask tx { session with phase := after }).Sound :=
  sound.setTask found ⟨rfl, rfl, receiver⟩ (fun held => absurd held notHeld) rfl

theorem Sound.known (sound : state.Sound) (loop : state.loop = .received key payload)
    (entry : state.sessions key = some tx) :
    ({ state with loop := .sending key tx payload } : State).Sound := by
  have accounted := sound.accounted
  rw [loop] at accounted
  refine ⟨sound.mapped, ⟨sound.mapped.known key tx entry, ?_⟩, accounted, sound.taken, sound.queues⟩
  intro other session found open_ own
  have there := sound.mapped.entry other session found open_
  rw [own, entry] at there
  exact (Option.some.inj there).symm

theorem Sound.unknown (sound : state.Sound) (loop : state.loop = .received key payload)
    (entry : state.sessions key = none) :
    ({ state with loop := .opening key payload } : State).Sound := by
  have accounted := sound.accounted
  rw [loop] at accounted
  refine ⟨sound.mapped, ?_, accounted, sound.taken, sound.queues⟩
  intro other session found open_ own
  have there := sound.mapped.entry other session found open_
  rw [own, entry] at there
  cases there

theorem Sound.queued (sound : state.Sound) (loop : state.loop = .sending key tx payload)
    (found : state.tasks[tx]? = some session) (open_ : session.phase.hasReceiver = true) :
    ((state.setTask tx { session with queue := session.queue ++ [payload] }).settle
      (.queued (key, payload) tx session.phase)).Sound := by
  have knows := sound.knows
  rw [loop] at knows
  obtain ⟨⟨there, before, own⟩, _⟩ := knows
  cases found.symm.trans before
  have inHand : state.loop.inHand = [(key, payload)] := by rw [loop]; rfl
  have suits : Suits session (.queued (key, payload) tx session.phase) := ⟨own, open_⟩
  have follows : Follows session { session with queue := session.queue ++ [payload] } :=
    ⟨rfl, rfl, id⟩
  refine sound.settle found follows suits inHand rfl ?_
  simp [Fate.queuedTo]

theorem Sound.recovered (sound : state.Sound) (loop : state.loop = .sending key tx payload)
    (found : state.tasks[tx]? = some session) (gone : ¬ session.phase.hasReceiver = true) :
    ({ state with loop := .recovered key tx payload } : State).Sound := by
  have accounted := sound.accounted
  have knows := sound.knows
  rw [loop] at accounted knows
  refine ⟨sound.mapped, ?_, accounted, sound.taken, sound.queues⟩
  intro other there before open_ own
  cases knows.2 other there before open_ own
  cases found.symm.trans before
  exact gone open_

theorem Mapped.insert {sessions : SessionKey → Option Nat} {tasks : List Session}
    (mapped : Mapped sessions tasks) (vacant : Vacant tasks key) (own : session.key = key) :
    Mapped (Function.update sessions key (some tasks.length)) (tasks ++ [session]) where
  entry other there found open_ := by
    rcases Pool.getElem?_concat_cases found with before | ⟨rfl, rfl⟩
    · rw [Function.update_of_ne (vacant other there before open_)]
      exact mapped.entry other there before open_
    · rw [own]
      exact Function.update_self ..
  known other tx entry := by
    by_cases same : other = key
    · subst same
      rw [Function.update_self] at entry
      cases entry
      exact ⟨session, List.getElem?_concat_length, own⟩
    · rw [Function.update_of_ne same] at entry
      obtain ⟨there, found, owned⟩ := mapped.known other tx entry
      exact ⟨there, Pool.getElem?_start found, owned⟩

theorem Sound.insert (sound : state.Sound) (loop : state.loop = .opening key payload) :
    ({ state with
        sessions := Function.update state.sessions key (some state.tasks.length)
        tasks := state.tasks ++ [⟨key, payload, [], [], .held⟩]
        loop := .spawning key state.tasks.length payload } : State).Sound := by
  have accounted := sound.accounted
  have vacant := sound.knows
  rw [loop] at accounted vacant
  refine ⟨sound.mapped.insert vacant rfl, ?_, accounted, ?_, ?_⟩
  · exact ⟨_, List.getElem?_concat_length, rfl, rfl, rfl⟩
  · intro fate member
    obtain ⟨session, found, suits⟩ := sound.taken fate member
    exact ⟨session, Pool.getElem?_start found, suits⟩
  · intro other session found
    rcases Pool.getElem?_concat_cases found with before | ⟨rfl, rfl⟩
    · exact sound.queues other session before
    · symm
      apply List.filterMap_eq_nil_iff.mpr
      intro fate member
      obtain ⟨session, found, _⟩ := sound.taken fate member
      obtain ⟨bound, _⟩ := List.getElem?_eq_some_iff.mp found
      cases fate with
      | first packet tx => rfl
      | queued packet tx phase => exact if_neg (Nat.ne_of_lt bound)

theorem Sound.spawn (sound : state.Sound) (loop : state.loop = .spawning key tx payload)
    (found : state.tasks[tx]? = some session) (held : session.phase = .held) :
    ((state.setTask tx { session with phase := .serving }).settle
      (.first (key, payload) tx)).Sound := by
  have knows := sound.knows
  rw [loop] at knows
  obtain ⟨there, before, own, first, _⟩ := knows
  cases found.symm.trans before
  have inHand : state.loop.inHand = [(key, payload)] := by rw [loop]; rfl
  have suits : Suits session (.first (key, payload) tx) := ⟨own, first⟩
  have follows : Follows session { session with phase := .serving } :=
    ⟨rfl, rfl, fun _ => by rw [held]; rfl⟩
  refine sound.settle found follows suits inHand rfl ?_
  simp [Fate.queuedTo]

theorem not_hasReceiver_of_isClosed (found : state.tasks[tx]? = some session)
    (closed : state.isClosed tx = true) : session.phase.hasReceiver = false := by
  simpa [isClosed, found] using closed

theorem Sound.removeIf (sound : state.Sound) (key : SessionKey) {test : Nat → Bool}
    (closed : ∀ tx, test tx = true → state.isClosed tx = true) :
    (state.removeIf key test).Sound := by
  unfold State.removeIf
  split
  · next tx there =>
      split
      · next passes =>
          refine ⟨⟨?_, ?_⟩, sound.knows, sound.accounted, sound.taken, sound.queues⟩
          · intro other session found open_
            have entry := sound.mapped.entry other session found open_
            have differs : session.key ≠ key := by
              intro same
              rw [same, there] at entry
              cases entry
              rw [not_hasReceiver_of_isClosed found (closed tx passes)] at open_
              cases open_
            change Function.update state.sessions key none session.key = some other
            rw [Function.update_of_ne differs]
            exact entry
          · intro other found entry
            change Function.update state.sessions key none other = some found at entry
            by_cases same : other = key
            · rw [same, Function.update_self] at entry
              cases entry
            · rw [Function.update_of_ne same] at entry
              exact sound.mapped.known other found entry
      · exact sound
  · exact sound

theorem removeIf_kept (state : State) (key : SessionKey) (test : Nat → Bool) :
    (state.removeIf key test).loop = state.loop ∧ (state.removeIf key test).tasks = state.tasks ∧
      (state.removeIf key test).fates = state.fates := by
  unfold removeIf
  split
  · split <;> exact ⟨rfl, rfl, rfl⟩
  · exact ⟨rfl, rfl, rfl⟩

theorem Sound.remove (sound : state.Sound) (loop : state.loop = .recovered key tx payload) :
    ({ state.removeIf key (fun active => active = tx ∧ state.isClosed active) with
        loop := .opening key payload } : State).Sound := by
  have removed : (state.removeIf key
      (fun active => active = tx ∧ state.isClosed active)).Sound :=
    sound.removeIf key fun active passes => (of_decide_eq_true passes).2
  obtain ⟨sameLoop, _, _⟩ := removeIf_kept state key
    (fun active => active = tx ∧ state.isClosed active)
  have accounted := removed.accounted
  have knows := removed.knows
  rw [sameLoop, loop] at accounted knows
  exact ⟨removed.mapped, knows, accounted, removed.taken, removed.queues⟩

theorem Sound.step {event : Event} (sound : state.Sound) (taken : state.step event = some next) :
    next.Sound := by
  have accounted := sound.accounted
  cases steps_of_step taken with
  | recvFrom loop =>
      rw [loop] at accounted
      refine ⟨sound.mapped, trivial, ?_, sound.taken, sound.queues⟩
      rw [accounted, Loop.inHand, List.append_nil]
      rfl
  | recvError loop =>
      rw [loop] at accounted
      exact ⟨sound.mapped, trivial, accounted, sound.taken, sound.queues⟩
  | known loop entry => exact sound.known loop entry
  | unknown loop entry => exact sound.unknown loop entry
  | queued loop found open_ => exact sound.queued loop found open_
  | recovered loop found gone => exact sound.recovered loop found gone
  | remove loop => exact sound.remove loop
  | insert loop => exact sound.insert loop
  | spawn loop found held => exact sound.spawn loop found held
  | take found serving => exact sound.setTask found ⟨rfl, rfl, id⟩ id (by simp)
  | quit found serving =>
      apply sound.changePhase found <;> rw [serving]
      · decide
      · exact id
  | drop found quit =>
      apply sound.changePhase found <;> rw [quit]
      · decide
      · exact fun _ => rfl
  | cleanUp found closed =>
      refine Sound.removeIf ?_ _ fun _ => id
      apply sound.changePhase found <;> rw [closed]
      · decide
      · exact id

/-! Sessions that have quit and still have their receiver. -/

/-- No packet is queued to a session between its end and the drop of its receiver. -/
def Undisturbed (state : State) : Event → Prop
  | .send => ∀ tx ∈ state.loop.sendsTo, ∀ session ∈ state.tasks[tx]?, session.phase ≠ .quit
  | _ => True

instance (state : State) : (event : Event) → Decidable (Undisturbed state event)
  | .send =>
      inferInstanceAs (Decidable (∀ tx ∈ state.loop.sendsTo,
        ∀ session ∈ state.tasks[tx]?, session.phase ≠ .quit))
  | .recvFrom _ | .recvError | .get | .remove | .insert | .spawn | .take _ _ | .quit _ | .drop _
  | .cleanUp _ => isTrue trivial

def Live : Fate → Prop
  | .queued _ _ phase => phase.live = true
  | .first _ _ => True

theorem live_of_hasReceiver {phase : Phase} (open_ : phase.hasReceiver = true)
    (going : phase ≠ .quit) : phase.live = true := by
  cases phase with
  | held => rfl
  | serving => rfl
  | quit => exact absurd rfl going
  | closed => cases open_
  | finished => cases open_

theorem fates_step {event : Event} (taken : state.step event = some next) :
    next.fates = state.fates ∨ (∃ packet tx, next.fates = state.fates ++ [.first packet tx]) ∨
      ∃ key tx payload session, event = .send ∧ state.loop = .sending key tx payload ∧
        state.tasks[tx]? = some session ∧ session.phase.hasReceiver = true ∧
          next.fates = state.fates ++ [.queued (key, payload) tx session.phase] := by
  cases steps_of_step taken with
  | queued loop found open_ => exact .inr (.inr ⟨_, _, _, _, rfl, loop, found, open_, rfl⟩)
  | spawn loop found held => exact .inr (.inl ⟨_, _, rfl⟩)
  | remove loop => exact .inl (removeIf_kept ..).2.2
  | cleanUp found closed => exact .inl (removeIf_kept ..).2.2
  | recvFrom loop => exact .inl rfl
  | recvError loop => exact .inl rfl
  | known loop entry => exact .inl rfl
  | unknown loop entry => exact .inl rfl
  | recovered loop found gone => exact .inl rfl
  | insert loop => exact .inl rfl
  | take found serving => exact .inl rfl
  | quit found serving => exact .inl rfl
  | drop found quit => exact .inl rfl

theorem live_step {event : Event} (live : ∀ fate ∈ state.fates, Live fate)
    (undisturbed : Undisturbed state event) (taken : state.step event = some next) :
    ∀ fate ∈ next.fates, Live fate := by
  rcases fates_step taken with same | ⟨packet, tx, same⟩ |
    ⟨key, tx, payload, session, rfl, loop, found, open_, same⟩
  · rw [same]
    exact live
  · rw [same]
    intro fate member
    rcases List.mem_append.mp member with earlier | now
    · exact live fate earlier
    · rw [List.mem_singleton.mp now]
      trivial
  · rw [same]
    intro fate member
    rcases List.mem_append.mp member with earlier | now
    · exact live fate earlier
    · rw [List.mem_singleton.mp now]
      have sends : state.loop.sendsTo = some tx := by rw [loop]; rfl
      exact live_of_hasReceiver open_ (undisturbed tx sends session found)

def WaitsForRoom (state : State) : Prop :=
  ∃ key tx payload session, state.loop = .sending key tx payload ∧
    state.tasks[tx]? = some session ∧ session.phase.hasReceiver = true ∧
      udpSessionQueueCapacity ≤ session.queue.length

theorem Sound.moves (sound : state.Sound) (inHand : state.loop.inHand ≠ []) :
    state.WaitsForRoom ∨
      ∃ event ∈ [Event.get, .send, .remove, .insert, .spawn], (state.step event).isSome := by
  have knows := sound.knows
  cases loop : state.loop with
  | receiving =>
      rw [loop] at inHand
      exact absurd rfl inHand
  | stopped =>
      rw [loop] at inHand
      exact absurd rfl inHand
  | received key payload =>
      refine .inr ⟨.get, by simp, ?_⟩
      simp only [State.step, loop]
      cases state.sessions key <;> rfl
  | sending key tx payload =>
      rw [loop] at knows
      obtain ⟨⟨session, found, _⟩, _⟩ := knows
      by_cases open_ : session.phase.hasReceiver = true
      · rcases Nat.lt_or_ge session.queue.length udpSessionQueueCapacity with room | full
        · refine .inr ⟨.send, by simp, ?_⟩
          simp [State.step, loop, found, State.send, open_, room]
        · exact .inl ⟨key, tx, payload, session, loop, found, open_, full⟩
      · refine .inr ⟨.send, by simp, ?_⟩
        simp [State.step, loop, found, State.send, open_]
  | recovered key tx payload =>
      refine .inr ⟨.remove, by simp, ?_⟩
      simp only [State.step, loop, Option.isSome_some]
  | opening key payload =>
      refine .inr ⟨.insert, by simp, ?_⟩
      simp only [State.step, loop, Option.isSome_some]
  | spawning key tx payload =>
      rw [loop] at knows
      obtain ⟨session, found, _, _, phase⟩ := knows
      refine .inr ⟨.spawn, by simp, ?_⟩
      simp [State.step, loop, State.move, found, phase]

/-- Every packet received is in the loop's hands or was handed on once, to a session of its key
that had its receiver or as the first of one; the loop goes on with the one in hand; and every
session that has its receiver is in the map. -/
structure HandedOn (state : State) : Prop where
  accounted : state.received = state.fates.map Fate.packet ++ state.loop.inHand
  taken : ∀ fate ∈ state.fates, Taken state.tasks fate
  queues : ∀ (tx : Nat) (session : Session), state.tasks[tx]? = some session →
    session.taken ++ session.queue = state.fates.filterMap (Fate.queuedTo tx)
  moves : state.loop.inHand ≠ [] → state.WaitsForRoom ∨
    ∃ event ∈ [Event.get, .send, .remove, .insert, .spawn], (state.step event).isSome
  kept : ∀ (tx : Nat) (session : Session), state.tasks[tx]? = some session →
    session.phase.hasReceiver = true → state.sessions session.key = some tx

theorem run_handedOn {events : List Event} {final : State}
    (ran : Machine.run step initial events = some final) :
    final.HandedOn ∧
      (Machine.Within step Undisturbed initial events → ∀ fate ∈ final.fates, Live fate) := by
  have sound : final.Sound :=
    Machine.run_invariant Sound (fun sound taken => sound.step taken) sound_initial ran
  refine ⟨⟨sound.accounted, sound.taken, sound.queues, sound.moves, sound.mapped.entry⟩, ?_⟩
  intro within
  let allLive (state : State) : Prop := ∀ fate ∈ state.fates, Live fate
  refine Machine.run_within_invariant allLive ?_ ?_ within ran
  · exact fun live undisturbed taken => live_step live undisturbed taken
  · exact fun fate member => absurd member List.not_mem_nil

def resolverKey : SessionKey := (.ip (.v4 ⟨10, 0, 0, 2⟩ 4000), .ip (.v4 ⟨1, 1, 1, 1⟩ 53))

/-- A session is opened, and opened anew for the packet that finds it closed. -/
def reopened : List Event :=
  [.recvFrom (resolverKey, [1]), .get, .insert, .spawn, .recvFrom (resolverKey, [2]), .get, .quit 0,
    .drop 0, .send, .remove, .insert, .cleanUp 0, .spawn]

theorem reopened_handedOn : ∃ final, Machine.run step initial reopened = some final ∧
    final.HandedOn ∧ final.fates = [.first (resolverKey, [1]) 0, .first (resolverKey, [2]) 1] ∧
      ∀ fate ∈ final.fates, Live fate := by
  have ran : ∃ final, Machine.run step initial reopened = some final ∧
      final.fates = [.first (resolverKey, [1]) 0, .first (resolverKey, [2]) 1] := ⟨_, rfl, rfl⟩
  obtain ⟨final, ran, fates⟩ := ran
  obtain ⟨handedOn, live⟩ := run_handedOn ran
  exact ⟨final, ran, handedOn, fates, live (by decide)⟩

/-- The second packet is queued to a session that has quit, and goes with its receiver. -/
def quitBeforeSend : List Event :=
  [.recvFrom (resolverKey, [1]), .get, .insert, .spawn, .recvFrom (resolverKey, [2]), .get,
    .quit 0, .send, .drop 0, .cleanUp 0]

theorem queued_after_quit : ∃ final, Machine.run step initial quitBeforeSend = some final ∧
    final.fates = [.first (resolverKey, [1]) 0, .queued (resolverKey, [2]) 0 .quit] ∧
      final.tasks = [⟨resolverKey, [1], [[2]], [], .finished⟩] ∧
        final.sessions resolverKey = none ∧ ¬∀ fate ∈ final.fates, Live fate := by
  refine ⟨_, rfl, rfl, rfl, rfl, fun live => ?_⟩
  have queued := live (.queued (resolverKey, [2]) 0 .quit) (by decide)
  cases queued

end State

end UdpLoop

end QuicProxy
