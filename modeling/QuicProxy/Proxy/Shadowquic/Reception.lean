import QuicProxy.Proxy.Shadowquic.Registry

namespace QuicProxy

/-! The receiving half of a ShadowQUIC connection (`src/proxy/shadowquic_udp.rs`):
the datagram loop with the buffer of the contexts that have no receiver yet, the
unistream workers and the receive queues, over the registry. -/

def udpReceiveQueueCapacity : Nat := 64

def waitingDatagramQueueCapacity : Nat := 8

def maxWaitingDatagramContexts : Nat := 1024

/-- The place of `start_datagram_loop` in `handle_datagram` and `feed_datagram`. -/
inductive DatagramLoop where
  | reading
  | routing (id : UInt16) (payload : Bytes)
  | feeding (receiver : Nat) (id : UInt16) (payload : Bytes)
  | sending (receiver : Nat) (target : TargetAddr) (payload : Bytes)
  | checking (id : UInt16) (payload : Bytes)
  | counting (id : UInt16) (payload : Bytes)
  | entering (id : UInt16) (payload : Bytes)
  | queueing (id : UInt16) (payload : Bytes) (isNew : Bool)
  | spawning (id : UInt16)
deriving DecidableEq

/-- The place of the task that hands over the datagrams of a waiting context. -/
inductive ContextHandler where
  | unspawned
  /-- In `get_receiver`. -/
  | searching
  /-- In `select!`. -/
  | draining (receiver : Nat)
  | feeding (receiver : Nat) (payload : Bytes)
  | sending (receiver : Nat) (target : TargetAddr) (payload : Bytes)
  | leaving
deriving DecidableEq

/-- The task can leave before it has handed over what it holds. -/
def ContextHandler.Stops : ContextHandler → Prop
  | searching | draining _ | feeding _ _ => True
  | unspawned | sending _ _ _ | leaving => False

/-- An entry of `waiting_datagram_buffer` with its task.  The entry has its own
`Sender`, so its `recv` never returns `None`. -/
structure WaitingContext where
  id : UInt16
  queue : List Bytes
  handler : ContextHandler
deriving DecidableEq

/-- The place of the task of an accepted unistream. -/
inductive UniWorker where
  | accepted
  | searching (id : UInt16)
  | found (receiver : Nat) (id : UInt16)
  | reading (receiver : Nat) (id : UInt16) (remoteSrc : TargetAddr)
  | holding (receiver : Nat) (id : UInt16) (remoteSrc : TargetAddr) (data : Bytes)
  | ended
deriving DecidableEq

structure UdpReception where
  registry : UdpConfig
  received : Nat → List (TargetAddr × Bytes)
  waiting : List WaitingContext
  loop : DatagramLoop
  workers : List UniWorker
  /-- What `recv_from` and `recv_many` have returned, with the receiver. -/
  yielded : List (Nat × TargetAddr × Bytes)

inductive UdpInput where
  /-- `read_datagram` returns. -/
  | datagram (datagram : Bytes)
  | arrive
  | handler (id : UInt16) (stop : Bool)
  /-- The control stream of a receiver has been read up to a message. -/
  | control (receiver : Nat) (target : TargetAddr) (id : UInt16)
  | clean (receiver : Nat)
  | call (index : Nat)
  | accept
  | header (index : Nat) (id : UInt16)
  | worker (index : Nat) (stop : Bool)
  | packet (index : Nat) (data : Bytes)
  /-- One packet: `recv_many` takes up to ten. -/
  | recv (receiver : Nat)
  | close (receiver : Nat)

namespace UdpReception

def new : UdpReception := ⟨UdpRegistry.new, fun _ => [], [], .reading, [], []⟩

def lookup (state : UdpReception) (id : UInt16) : Option Nat :=
  state.registry.shared.udpRecvMap id

def target (state : UdpReception) (receiver : Nat) (id : UInt16) : Option TargetAddr :=
  (state.registry.shared.bindedContextId receiver).lookup id

def closed (state : UdpReception) (receiver : Nat) : Bool := state.registry.shared.closed receiver

def context (state : UdpReception) (id : UInt16) : Option WaitingContext :=
  state.waiting.find? fun context => context.id = id

def setContext (state : UdpReception) (context : WaitingContext) : UdpReception :=
  { state with
    waiting := state.waiting.map fun other => if other.id = context.id then context else other }

/-- `try_send` on the receive queue; a packet for a full one is dropped. -/
def trySend (state : UdpReception) (receiver : Nat) (target : TargetAddr) (payload : Bytes) :
    UdpReception :=
  if (state.received receiver).length < udpReceiveQueueCapacity then
    { state with
      received := Function.update state.received receiver
        (state.received receiver ++ [(target, payload)]) }
  else state

/-- A step of `handle_datagram`. -/
def arrive (state : UdpReception) : Option UdpReception :=
  match state.loop with
  | .reading => none
  | .routing id payload =>
      if UdpRegistry.Locked state.registry id then none
      else
        match state.lookup id with
        | some receiver => some { state with loop := .feeding receiver id payload }
        | none => some { state with loop := .checking id payload }
  | .feeding receiver id payload =>
      match state.target receiver id with
      | some target => some { state with loop := .sending receiver target payload }
      | none => some { state with loop := .reading }
  | .sending receiver target payload =>
      some { state.trySend receiver target payload with loop := .reading }
  | .checking id payload =>
      match state.context id with
      | some _ => some { state with loop := .entering id payload }
      | none => some { state with loop := .counting id payload }
  | .counting id payload =>
      if maxWaitingDatagramContexts ≤ state.waiting.length then
        some { state with loop := .reading }
      else some { state with loop := .entering id payload }
  | .entering id payload =>
      match state.context id with
      | some _ => some { state with loop := .queueing id payload false }
      | none =>
          some { state with
            waiting := state.waiting ++ [⟨id, [], .unspawned⟩]
            loop := .queueing id payload true }
  | .queueing id payload isNew =>
      match state.context id with
      -- the entry has left the map since, with its task
      | none => some { state with loop := .reading }
      | some context =>
          if context.queue.length < waitingDatagramQueueCapacity then
            some { state.setContext { context with queue := context.queue ++ [payload] } with
              loop := if isNew then .spawning id else .reading }
          else some { state with loop := .reading }
  | .spawning id =>
      match state.context id with
      | none => some { state with loop := .reading }
      | some context =>
          some { state.setContext { context with handler := .searching } with loop := .reading }

/-- A step of the task of a context; `stop` is the timeout of `get_receiver` and
the closer's branch of `select!`. -/
def handle (state : UdpReception) (context : WaitingContext) (stop : Bool) : Option UdpReception :=
  match context.handler with
  | .unspawned => none
  | .searching =>
      if stop then some (state.setContext { context with handler := .leaving })
      else if UdpRegistry.Locked state.registry context.id then none
      else
        (state.lookup context.id).map fun receiver =>
          state.setContext { context with handler := .draining receiver }
  | .draining receiver =>
      if stop then
        if state.closed receiver then some (state.setContext { context with handler := .leaving })
        else none
      else
        match context.queue with
        | [] => none
        | payload :: queue =>
            some (state.setContext ⟨context.id, queue, .feeding receiver payload⟩)
  | .feeding receiver payload =>
      match state.target receiver context.id with
      | some target =>
          some (state.setContext { context with handler := .sending receiver target payload })
      | none => some (state.setContext { context with handler := .leaving })
  | .sending receiver target payload =>
      some ((state.trySend receiver target payload).setContext
        { context with handler := .draining receiver })
  | .leaving => some { state with waiting := state.waiting.filter (·.id ≠ context.id) }

def request (state : UdpReception) (request : UdpRequest) : UdpReception :=
  { state with
    registry := ⟨state.registry.shared, state.registry.calls ++ [UdpCall.start request]⟩ }

def setWorker (state : UdpReception) (index : Nat) (worker : UniWorker) : UdpReception :=
  { state with workers := state.workers.set index worker }

/-- A step of the task of a unistream; `stop` is a timeout of its setup, the
closer, or the end of the stream. -/
def work (state : UdpReception) (index : Nat) (stop : Bool) : UniWorker → Option UdpReception
  | .accepted => if stop then some (state.setWorker index .ended) else none
  | .searching id =>
      if stop then some (state.setWorker index .ended)
      else if UdpRegistry.Locked state.registry id then none
      else (state.lookup id).map fun receiver => state.setWorker index (.found receiver id)
  | .found receiver id =>
      match state.target receiver id with
      | some remoteSrc => some (state.setWorker index (.reading receiver id remoteSrc))
      | none => some (state.setWorker index .ended)
  | .reading receiver id _ =>
      if stop then some ((state.setWorker index .ended).request (.exit receiver id)) else none
  | .holding receiver id remoteSrc data =>
      if stop then
        if state.closed receiver then
          some ((state.setWorker index .ended).request (.exit receiver id))
        else none
      else if (state.received receiver).length < udpReceiveQueueCapacity then
        some ((state.trySend receiver remoteSrc data).setWorker index
          (.reading receiver id remoteSrc))
      else none
  | .ended => none

def step (state : UdpReception) : UdpInput → Option UdpReception
  | .datagram datagram =>
      match state.loop, datagram with
      | .reading, high :: low :: payload =>
          some { state with loop := .routing (u16FromBe high low) payload }
      | .reading, _ => some state
      | _, _ => none
  | .arrive => state.arrive
  | .handler id stop => (state.context id).bind (state.handle · stop)
  | .control receiver target id => some (state.request (.bind receiver target id))
  | .clean receiver => some (state.request (.clean receiver))
  | .call index =>
      (UdpRegistry.program.step state.registry (.advance index ())).map fun registry =>
        { state with registry }
  | .accept => some { state with workers := state.workers ++ [.accepted] }
  | .header index id =>
      match state.workers[index]? with
      | some .accepted => some (state.setWorker index (.searching id))
      | _ => none
  | .worker index stop => state.workers[index]?.bind (state.work index stop)
  | .packet index data =>
      match state.workers[index]? with
      | some (.reading receiver id remoteSrc) =>
          some (state.setWorker index (.holding receiver id remoteSrc data))
      | _ => none
  | .recv receiver =>
      match state.received receiver with
      | [] => none
      | packet :: rest =>
          some { state with
            received := Function.update state.received receiver rest
            yielded := state.yielded ++ [(receiver, packet)] }
  | .close receiver =>
      some { state with
        registry := ⟨state.registry.shared.close receiver, state.registry.calls⟩ }

variable {state next : UdpReception} {context other : WaitingContext} {id : UInt16}

theorem mem_of_context (found : state.context id = some context) : context ∈ state.waiting :=
  List.mem_of_find?_eq_some found

theorem id_of_context (found : state.context id = some context) : context.id = id := by
  simpa using List.find?_some found

theorem id_ne_of_context (missing : state.context id = none) (member : context ∈ state.waiting) :
    context.id ≠ id := by
  have absent := List.find?_eq_none.mp missing context member
  simpa using absent

theorem mem_setContext (member : other ∈ (state.setContext context).waiting) :
    other = context ∨ other ∈ state.waiting ∧ other.id ≠ context.id := by
  obtain ⟨old, before, replaced⟩ := List.mem_map.mp member
  split at replaced
  · exact .inl replaced.symm
  · next elsewhere =>
      subst replaced
      exact .inr ⟨before, elsewhere⟩

theorem self_mem_setContext (found : other ∈ state.waiting) (same : other.id = context.id) :
    context ∈ (state.setContext context).waiting :=
  List.mem_map.mpr ⟨other, found, if_pos same⟩

section TrySend

variable {receiver : Nat} {target : TargetAddr} {payload : Bytes}

@[simp] theorem registry_trySend :
    (state.trySend receiver target payload).registry = state.registry := by
  unfold trySend
  split <;> rfl

@[simp] theorem waiting_trySend :
    (state.trySend receiver target payload).waiting = state.waiting := by
  unfold trySend
  split <;> rfl

@[simp] theorem loop_trySend : (state.trySend receiver target payload).loop = state.loop := by
  unfold trySend
  split <;> rfl

@[simp] theorem workers_trySend :
    (state.trySend receiver target payload).workers = state.workers := by
  unfold trySend
  split <;> rfl

@[simp] theorem yielded_trySend :
    (state.trySend receiver target payload).yielded = state.yielded := by
  unfold trySend
  split <;> rfl

theorem mem_received_trySend {owner : Nat} {packet : TargetAddr × Bytes}
    (member : packet ∈ (state.trySend receiver target payload).received owner) :
    packet ∈ state.received owner ∨ owner = receiver ∧ packet = (target, payload) := by
  unfold trySend at member
  split at member
  · change packet ∈ Function.update state.received receiver _ owner at member
    rw [Function.update_apply] at member
    split at member
    · next own =>
        subst own
        simpa using member
    · exact .inl member
  · exact .inl member

end TrySend

inductive Arrives (state : UdpReception) : UdpReception → Prop
  | routed {id : UInt16} {payload : Bytes} {receiver : Nat}
      (place : state.loop = .routing id payload)
      (owns : state.lookup id = some receiver) :
      Arrives state { state with loop := .feeding receiver id payload }
  | missed {id : UInt16} {payload : Bytes} (place : state.loop = .routing id payload)
      (vacant : state.lookup id = none) : Arrives state { state with loop := .checking id payload }
  | fed {receiver : Nat} {id : UInt16} {payload : Bytes} {target : TargetAddr}
      (place : state.loop = .feeding receiver id payload)
      (bound : state.target receiver id = some target) :
      Arrives state { state with loop := .sending receiver target payload }
  | unbound {receiver : Nat} {id : UInt16} {payload : Bytes}
      (place : state.loop = .feeding receiver id payload)
      (unbound : state.target receiver id = none) : Arrives state { state with loop := .reading }
  | sent {receiver : Nat} {target : TargetAddr} {payload : Bytes}
      (place : state.loop = .sending receiver target payload) :
      Arrives state { state.trySend receiver target payload with loop := .reading }
  | present {id : UInt16} {payload : Bytes} {context : WaitingContext}
      (place : state.loop = .checking id payload) (found : state.context id = some context) :
      Arrives state { state with loop := .entering id payload }
  | absent {id : UInt16} {payload : Bytes} (place : state.loop = .checking id payload)
      (missing : state.context id = none) :
      Arrives state { state with loop := .counting id payload }
  | refused {id : UInt16} {payload : Bytes} (place : state.loop = .counting id payload)
      (many : maxWaitingDatagramContexts ≤ state.waiting.length) :
      Arrives state { state with loop := .reading }
  | admitted {id : UInt16} {payload : Bytes} (place : state.loop = .counting id payload)
      (few : ¬maxWaitingDatagramContexts ≤ state.waiting.length) :
      Arrives state { state with loop := .entering id payload }
  | entered {id : UInt16} {payload : Bytes} {context : WaitingContext}
      (place : state.loop = .entering id payload) (found : state.context id = some context) :
      Arrives state { state with loop := .queueing id payload false }
  | opened {id : UInt16} {payload : Bytes} (place : state.loop = .entering id payload)
      (missing : state.context id = none) :
      Arrives state { state with
        waiting := state.waiting ++ [⟨id, [], .unspawned⟩]
        loop := .queueing id payload true }
  | orphaned {id : UInt16} {payload : Bytes} {isNew : Bool}
      (place : state.loop = .queueing id payload isNew) (missing : state.context id = none) :
      Arrives state { state with loop := .reading }
  | queued {id : UInt16} {payload : Bytes} {isNew : Bool} {context : WaitingContext}
      (place : state.loop = .queueing id payload isNew) (found : state.context id = some context) :
      Arrives state { state.setContext { context with queue := context.queue ++ [payload] } with
        loop := if isNew then .spawning id else .reading }
  | full {id : UInt16} {payload : Bytes} {isNew : Bool} {context : WaitingContext}
      (place : state.loop = .queueing id payload isNew) (found : state.context id = some context)
      (full : ¬context.queue.length < waitingDatagramQueueCapacity) :
      Arrives state { state with loop := .reading }
  | gone {id : UInt16} (place : state.loop = .spawning id) (missing : state.context id = none) :
      Arrives state { state with loop := .reading }
  | spawned {id : UInt16} {context : WaitingContext} (place : state.loop = .spawning id)
      (found : state.context id = some context) :
      Arrives state
        { state.setContext { context with handler := .searching } with loop := .reading }

theorem arrives (arrived : state.arrive = some next) : Arrives state next := by
  unfold arrive at arrived
  split at arrived
  · cases arrived
  · next place =>
      split at arrived
      · cases arrived
      · split at arrived <;> cases arrived
        · next owns => exact .routed place owns
        · next vacant => exact .missed place vacant
  · next place =>
      split at arrived <;> cases arrived
      · next bound => exact .fed place bound
      · next unbound => exact .unbound place unbound
  · next place =>
      cases arrived
      exact .sent place
  · next place =>
      split at arrived <;> cases arrived
      · next found => exact .present place found
      · next missing => exact .absent place missing
  · next place =>
      split at arrived <;> cases arrived
      · next many => exact .refused place many
      · next few => exact .admitted place few
  · next place =>
      split at arrived <;> cases arrived
      · next found => exact .entered place found
      · next missing => exact .opened place missing
  · next place =>
      split at arrived
      · next missing =>
          cases arrived
          exact .orphaned place missing
      · next found =>
          split at arrived <;> cases arrived
          · exact .queued place found
          · next full => exact .full place found full
  · next place =>
      split at arrived <;> cases arrived
      · next missing => exact .gone place missing
      · next found => exact .spawned place found

inductive Handles (state : UdpReception) (context : WaitingContext) : UdpReception → Prop
  | stopped (stops : context.handler.Stops) :
      Handles state context (state.setContext { context with handler := .leaving })
  | found {receiver : Nat} (place : context.handler = .searching)
      (owns : state.lookup context.id = some receiver) :
      Handles state context (state.setContext { context with handler := .draining receiver })
  | took {receiver : Nat} {payload : Bytes} {queue : List Bytes}
      (place : context.handler = .draining receiver) (buffered : context.queue = payload :: queue) :
      Handles state context (state.setContext ⟨context.id, queue, .feeding receiver payload⟩)
  | fed {receiver : Nat} {payload : Bytes} {target : TargetAddr}
      (place : context.handler = .feeding receiver payload)
      (bound : state.target receiver context.id = some target) :
      Handles state context
        (state.setContext { context with handler := .sending receiver target payload })
  | sent {receiver : Nat} {target : TargetAddr} {payload : Bytes}
      (place : context.handler = .sending receiver target payload) :
      Handles state context ((state.trySend receiver target payload).setContext
        { context with handler := .draining receiver })
  | left (place : context.handler = .leaving) :
      Handles state context { state with waiting := state.waiting.filter (·.id ≠ context.id) }

theorem handles {stop : Bool} (handled : state.handle context stop = some next) :
    Handles state context next := by
  unfold handle at handled
  split at handled
  · cases handled
  · next place =>
      split at handled
      · cases handled
        exact .stopped (place ▸ trivial)
      · split at handled
        · cases handled
        · obtain ⟨receiver, owns, rfl⟩ := Option.map_eq_some_iff.mp handled
          exact .found place owns
  · next place =>
      split at handled
      · split at handled <;> cases handled
        exact .stopped (place ▸ trivial)
      · split at handled <;> cases handled
        next buffered => exact .took place buffered
  · next place =>
      split at handled <;> cases handled
      · next bound => exact .fed place bound
      · exact .stopped (place ▸ trivial)
  · next place =>
      cases handled
      exact .sent place
  · next place =>
      cases handled
      exact .left place

inductive Works (state : UdpReception) (index : Nat) : UniWorker → UdpReception → Prop
  | gaveUp {worker : UniWorker} : Works state index worker (state.setWorker index .ended)
  | found {id : UInt16} {receiver : Nat} (owns : state.lookup id = some receiver) :
      Works state index (.searching id) (state.setWorker index (.found receiver id))
  | bound {receiver : Nat} {id : UInt16} {remoteSrc : TargetAddr}
      (bound : state.target receiver id = some remoteSrc) :
      Works state index (.found receiver id)
        (state.setWorker index (.reading receiver id remoteSrc))
  | exited {worker : UniWorker} {receiver : Nat} {id : UInt16} :
      Works state index worker ((state.setWorker index .ended).request (.exit receiver id))
  | delivered {receiver : Nat} {id : UInt16} {remoteSrc : TargetAddr} {data : Bytes} :
      Works state index (.holding receiver id remoteSrc data)
        ((state.trySend receiver remoteSrc data).setWorker index
          (.reading receiver id remoteSrc))

theorem works {index : Nat} {stop : Bool} {worker : UniWorker}
    (worked : state.work index stop worker = some next) : Works state index worker next := by
  cases worker with
  | accepted =>
      simp only [work] at worked
      split at worked <;> cases worked
      exact .gaveUp
  | searching id =>
      simp only [work] at worked
      split at worked
      · cases worked
        exact .gaveUp
      · split at worked
        · cases worked
        · obtain ⟨receiver, owns, rfl⟩ := Option.map_eq_some_iff.mp worked
          exact .found owns
  | found receiver id =>
      simp only [work] at worked
      split at worked <;> cases worked
      · next bound => exact .bound bound
      · exact .gaveUp
  | reading receiver id remoteSrc =>
      simp only [work] at worked
      split at worked <;> cases worked
      exact .exited
  | holding receiver id remoteSrc data =>
      simp only [work] at worked
      split at worked
      · split at worked <;> cases worked
        exact .exited
      · split at worked <;> cases worked
        exact .delivered
  | ended => cases worked

theorem Works.frame {index : Nat} {worker : UniWorker} (works : Works state index worker next) :
    next.waiting = state.waiting ∧ next.loop = state.loop ∧
      next.registry.shared = state.registry.shared := by
  cases works with
  | gaveUp | found | bound | exited => exact ⟨rfl, rfl, rfl⟩
  | delivered =>
      exact ⟨waiting_trySend, loop_trySend, congrArg Pool.Config.shared registry_trySend⟩

end UdpReception

end QuicProxy
