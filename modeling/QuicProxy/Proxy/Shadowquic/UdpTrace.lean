import QuicProxy.Proxy.Shadowquic.Reception

namespace QuicProxy

/-! What the receiving half of a ShadowQUIC connection makes of what comes in: it
keeps every payload with the id it came under, and every id with its address. -/

/-- What may be told of the ids and packets of a receiving half: which id a
receiver may bind to which address, which payload may come under which id, and
which packets a receiver may have. -/
structure UdpTrace where
  Bound : UInt16 → Nat → TargetAddr → Prop
  Fed : UInt16 → Bytes → Prop
  Received : Nat → TargetAddr → Bytes → Prop
  receives : ∀ {id receiver target payload}, Bound id receiver target → Fed id payload →
    Received receiver target payload

namespace UdpTrace

variable (trace : UdpTrace)

def Call : UdpCall → Prop
  | .binding receiver target id | .inserting receiver target id => trace.Bound id receiver target
  | _ => True

def Loop : DatagramLoop → Prop
  | .routing id payload | .feeding _ id payload | .checking id payload | .counting id payload
  | .entering id payload | .queueing id payload _ => trace.Fed id payload
  | .sending receiver target payload => trace.Received receiver target payload
  | .reading | .spawning _ => True

def Handler (id : UInt16) : ContextHandler → Prop
  | .feeding _ payload => trace.Fed id payload
  | .sending receiver target payload => trace.Received receiver target payload
  | .unspawned | .searching | .draining _ | .leaving => True

def Context (context : WaitingContext) : Prop :=
  (∀ payload ∈ context.queue, trace.Fed context.id payload) ∧
    trace.Handler context.id context.handler

def Worker : UniWorker → Prop
  | .reading receiver id remoteSrc => trace.Bound id receiver remoteSrc
  | .holding receiver id remoteSrc data =>
      trace.Bound id receiver remoteSrc ∧ trace.Received receiver remoteSrc data
  | .accepted | .searching _ | .found _ _ | .ended => True

structure Holds (state : UdpReception) : Prop where
  calls : ∀ call ∈ state.registry.calls, trace.Call call
  bound : ∀ receiver, ∀ entry ∈ state.registry.shared.bindedContextId receiver,
    trace.Bound entry.1 receiver entry.2
  received : ∀ receiver, ∀ packet ∈ state.received receiver,
    trace.Received receiver packet.1 packet.2
  waiting : ∀ context ∈ state.waiting, trace.Context context
  loop : trace.Loop state.loop
  workers : ∀ worker ∈ state.workers, trace.Worker worker
  yielded : ∀ packet ∈ state.yielded, trace.Received packet.1 packet.2.1 packet.2.2

end UdpTrace

def UniWorker.contextId : UniWorker → Option UInt16
  | searching id | found _ id | reading _ id _ | holding _ id _ _ => some id
  | accepted | ended => none

namespace UdpTrace

variable {trace : UdpTrace} {state next : UdpReception} {context : WaitingContext} {id : UInt16}

/-- What comes from the network is what it may be. -/
def Input (trace : UdpTrace) (state : UdpReception) : UdpInput → Prop
  | .control receiver target id => trace.Bound id receiver target
  | .datagram datagram => ∀ high low payload, datagram = high :: low :: payload →
      trace.Fed (u16FromBe high low) payload
  | .packet index data => ∀ worker ∈ state.workers[index]?, ∀ id ∈ worker.contextId,
      trace.Fed id data
  | _ => True

theorem holds_new : trace.Holds .new := ⟨nofun, nofun, nofun, nofun, trivial, nofun, nofun⟩

theorem Holds.target (holds : trace.Holds state) {receiver : Nat} {target : TargetAddr}
    (bound : state.target receiver id = some target) : trace.Bound id receiver target := by
  obtain ⟨_, _, entry, _⟩ := List.lookup_eq_some_iff.mp bound
  have member : (id, target) ∈ state.registry.shared.bindedContextId receiver := by
    rw [entry]
    exact List.mem_append_right _ (List.mem_cons_self ..)
  exact holds.bound receiver _ member

theorem Holds.ofContext (holds : trace.Holds state) (found : state.context id = some context) :
    trace.Context context :=
  holds.waiting context (UdpReception.mem_of_context found)

theorem Holds.setContext (holds : trace.Holds state) (own : trace.Context context) :
    trace.Holds (state.setContext context) where
  __ := holds
  waiting other member := by
    rcases UdpReception.mem_setContext member with rfl | ⟨before, -⟩
    · exact own
    · exact holds.waiting other before

theorem Holds.trySend (holds : trace.Holds state) {receiver : Nat} {target : TargetAddr}
    {payload : Bytes} (own : trace.Received receiver target payload) :
    trace.Holds (state.trySend receiver target payload) where
  calls := by
    rw [UdpReception.registry_trySend]
    exact holds.calls
  bound := by
    rw [UdpReception.registry_trySend]
    exact holds.bound
  received owner packet member := by
    rcases UdpReception.mem_received_trySend member with before | ⟨rfl, rfl⟩
    · exact holds.received owner packet before
    · exact own
  waiting := by
    rw [UdpReception.waiting_trySend]
    exact holds.waiting
  loop := by
    rw [UdpReception.loop_trySend]
    exact holds.loop
  workers := by
    rw [UdpReception.workers_trySend]
    exact holds.workers
  yielded := by
    rw [UdpReception.yielded_trySend]
    exact holds.yielded

theorem Holds.setLoop (holds : trace.Holds state) {loop : DatagramLoop} (own : trace.Loop loop) :
    trace.Holds { state with loop } where
  __ := holds
  loop := own

theorem Holds.setWorker (holds : trace.Holds state) {index : Nat} {worker : UniWorker}
    (own : trace.Worker worker) : trace.Holds (state.setWorker index worker) where
  __ := holds
  workers other member := by
    rcases List.mem_or_eq_of_mem_set member with before | rfl
    · exact holds.workers other before
    · exact own

theorem Holds.request (holds : trace.Holds state) {request : UdpRequest}
    (own : trace.Call (UdpCall.start request)) : trace.Holds (state.request request) where
  __ := holds
  calls := Pool.forall_start holds.calls own

theorem Holds.arrive (holds : trace.Holds state) (arrives : UdpReception.Arrives state next) :
    trace.Holds next := by
  have loop := holds.loop
  cases arrives with
  | routed place | missed place | absent place | present place | admitted place | entered place =>
      rw [place] at loop
      exact holds.setLoop loop
  | fed place bound =>
      rw [place] at loop
      exact holds.setLoop (trace.receives (holds.target bound) loop)
  | unbound | refused | orphaned | full | gone => exact holds.setLoop trivial
  | sent place =>
      rw [place] at loop
      exact (holds.trySend loop).setLoop trivial
  | opened place missing =>
      rw [place] at loop
      exact {
        holds with
        waiting := Pool.forall_start holds.waiting ⟨nofun, trivial⟩
        loop := loop }
  | @queued id payload isNew context place found =>
      rw [place] at loop
      have own := holds.ofContext found
      have same := UdpReception.id_of_context found
      have queued : trace.Context { context with queue := context.queue ++ [payload] } :=
        ⟨Pool.forall_start own.1 (same.symm ▸ loop), own.2⟩
      refine (holds.setContext queued).setLoop ?_
      split <;> trivial
  | @spawned id context place found =>
      have own : trace.Context { context with handler := .searching } :=
        ⟨(holds.ofContext found).1, trivial⟩
      exact (holds.setContext own).setLoop trivial

theorem Holds.handle (holds : trace.Holds state) (found : context ∈ state.waiting)
    (handles : UdpReception.Handles state context next) : trace.Holds next := by
  obtain ⟨queue, handler⟩ := holds.waiting context found
  cases handles with
  | stopped => exact holds.setContext ⟨queue, trivial⟩
  | found => exact holds.setContext ⟨queue, trivial⟩
  | took place buffered =>
      rw [buffered] at queue
      obtain ⟨first, rest⟩ := List.forall_mem_cons.mp queue
      exact holds.setContext ⟨rest, first⟩
  | fed place bound =>
      rw [place] at handler
      exact holds.setContext ⟨queue, trace.receives (holds.target bound) handler⟩
  | sent place =>
      rw [place] at handler
      exact (holds.trySend handler).setContext ⟨queue, trivial⟩
  | left =>
      exact { holds with
        waiting := fun other member => holds.waiting other (List.mem_filter.mp member).1 }

theorem Holds.work (holds : trace.Holds state) {index : Nat} {worker : UniWorker}
    (own : trace.Worker worker) (works : UdpReception.Works state index worker next) :
    trace.Holds next := by
  cases works with
  | gaveUp => exact holds.setWorker trivial
  | found => exact holds.setWorker trivial
  | bound bound => exact holds.setWorker (holds.target bound)
  | exited =>
      have ended : trace.Worker .ended := trivial
      exact (holds.setWorker ended).request trivial
  | delivered => exact (holds.trySend own.2).setWorker own.1

theorem bound_removeBinded {registry : UdpRegistry}
    (bound : ∀ receiver, ∀ entry ∈ registry.bindedContextId receiver,
      trace.Bound entry.1 receiver entry.2) {owner : Nat} :
    ∀ receiver, ∀ entry ∈ (registry.removeBinded owner id).bindedContextId receiver,
      trace.Bound entry.1 receiver entry.2 := by
  intro receiver entry member
  simp only [UdpRegistry.removeBinded, Function.update_apply] at member
  split at member
  · next own =>
      subst own
      exact bound receiver entry (List.mem_filter.mp member).1
  · exact bound receiver entry member

theorem bound_insertBinded {registry : UdpRegistry}
    (bound : ∀ receiver, ∀ entry ∈ registry.bindedContextId receiver,
      trace.Bound entry.1 receiver entry.2) {owner : Nat} {target : TargetAddr}
    (new : trace.Bound id owner target) :
    ∀ receiver, ∀ entry ∈ (registry.insertBinded owner id target).bindedContextId receiver,
      trace.Bound entry.1 receiver entry.2 := by
  intro receiver entry member
  simp only [UdpRegistry.insertBinded, Function.update_apply] at member
  split at member
  · next own =>
      subst own
      rcases List.mem_cons.mp member with rfl | before
      · exact new
      · exact bound receiver entry (List.mem_filter.mp before).1
  · exact bound receiver entry member

theorem Holds.call (holds : trace.Holds state) {registry : UdpConfig} {index : Nat}
    (moved : UdpRegistry.program.step state.registry (.advance index ()) = some registry) :
    trace.Holds { state with registry } := by
  rcases Pool.Program.step_cases moved with
    ⟨_, ⟨⟩, -⟩ | ⟨before, call, after, ⟨⟩, shared, place, ⟨⟩, shape, acted, rfl⟩
  have calls := holds.calls
  have bound := holds.bound
  rw [shape] at calls
  have own := calls call (List.mem_append_right _ (List.mem_cons_self ..))
  suffices kept : trace.Call place ∧ ∀ receiver, ∀ entry ∈ shared.bindedContextId receiver,
      trace.Bound entry.1 receiver entry.2 from
    { holds with
      calls := Pool.forall_act calls (fun _ => kept.1) fun _ => id
      bound := kept.2 }
  change UdpRegistry.act state.registry call () = some (shared, place) at acted
  cases call with
  | binding receiver target id =>
      simp only [UdpRegistry.act] at acted
      split at acted
      · cases acted
      · split at acted <;> cases acted
        · exact ⟨own, bound⟩
        · exact ⟨trivial, bound⟩
  | inserting receiver target id =>
      cases acted
      exact ⟨trivial, bound_insertBinded bound own⟩
  | publishing | collecting =>
      cases acted
      exact ⟨trivial, bound⟩
  | removing receiver ids worker =>
      cases ids with
      | nil =>
          cases acted
          refine ⟨trivial, ?_⟩
          split <;> exact bound
      | cons id ids =>
          cases acted
          exact ⟨trivial, bound_removeBinded bound⟩
  | unmapping receiver id =>
      simp only [UdpRegistry.act] at acted
      split at acted
      · cases acted
      · cases acted
        refine ⟨trivial, ?_⟩
        unfold UdpRegistry.unmap
        split <;> exact bound
  | bound | alreadyBound | cleaned => cases acted

theorem Holds.step {input : UdpInput} (holds : trace.Holds state) (given : trace.Input state input)
    (taken : state.step input = some next) : trace.Holds next := by
  cases input with
  | datagram datagram =>
      simp only [UdpReception.step] at taken
      split at taken <;> cases taken
      · exact holds.setLoop (given _ _ _ rfl)
      · exact holds
  | arrive => exact holds.arrive (UdpReception.arrives taken)
  | handler id stop =>
      obtain ⟨context, found, handled⟩ := Option.bind_eq_some_iff.mp taken
      exact holds.handle (UdpReception.mem_of_context found) (UdpReception.handles handled)
  | control receiver target id =>
      cases taken
      exact holds.request given
  | clean receiver =>
      cases taken
      exact holds.request trivial
  | call index =>
      obtain ⟨registry, moved, rfl⟩ := Option.map_eq_some_iff.mp taken
      exact holds.call moved
  | accept =>
      cases taken
      exact { holds with workers := Pool.forall_start holds.workers trivial }
  | header index id =>
      simp only [UdpReception.step] at taken
      split at taken <;> cases taken
      exact holds.setWorker trivial
  | worker index stop =>
      obtain ⟨worker, found, worked⟩ := Option.bind_eq_some_iff.mp taken
      exact holds.work (holds.workers worker (List.mem_of_getElem? found))
        (UdpReception.works worked)
  | packet index data =>
      simp only [UdpReception.step] at taken
      split at taken <;> cases taken
      next receiver id remoteSrc found =>
        have bound := holds.workers _ (List.mem_of_getElem? found)
        exact holds.setWorker ⟨bound, trace.receives bound (given _ found id rfl)⟩
  | recv receiver =>
      simp only [UdpReception.step] at taken
      split at taken <;> cases taken
      next packet rest queued =>
        have queue := holds.received receiver
        rw [queued] at queue
        obtain ⟨first, later⟩ := List.forall_mem_cons.mp queue
        refine { holds with received := ?_, yielded := Pool.forall_start holds.yielded first }
        intro owner packet member
        simp only [Function.update_apply] at member
        split at member
        · next own =>
            subst own
            exact later packet member
        · exact holds.received owner packet member
  | close receiver =>
      cases taken
      exact { holds with }

theorem Holds.mono {more : UdpTrace} (holds : trace.Holds state)
    (bound : ∀ {id receiver target}, trace.Bound id receiver target → more.Bound id receiver target)
    (fed : ∀ {id payload}, trace.Fed id payload → more.Fed id payload)
    (received : ∀ {receiver target payload}, trace.Received receiver target payload →
      more.Received receiver target payload) : more.Holds state where
  calls call member := by
    have own := holds.calls call member
    cases call with
    | binding | inserting => exact bound own
    | publishing | bound | alreadyBound | collecting | removing | unmapping | cleaned => trivial
  bound receiver entry member := bound (holds.bound receiver entry member)
  received receiver packet member := received (holds.received receiver packet member)
  waiting context member := by
    obtain ⟨queue, handler⟩ := holds.waiting context member
    refine ⟨fun payload queued => fed (queue payload queued), ?_⟩
    cases place : context.handler with
    | feeding =>
        rw [place] at handler
        exact fed handler
    | sending =>
        rw [place] at handler
        exact received handler
    | unspawned | searching | draining | leaving => trivial
  loop := by
    have own := holds.loop
    cases place : state.loop with
    | routing | feeding | checking | counting | entering | queueing =>
        rw [place] at own
        exact fed own
    | sending =>
        rw [place] at own
        exact received own
    | reading | spawning => trivial
  workers worker member := by
    have own := holds.workers worker member
    cases worker with
    | reading => exact bound own
    | holding => exact own.imp bound received
    | accepted | searching | found | ended => trivial
  yielded packet member := received (holds.yielded packet member)

end UdpTrace

end QuicProxy
