import QuicProxy.Proxy.Shadowquic.Reception

namespace QuicProxy

/-! Which entries of `waiting_datagram_buffer` outlive the datagrams that were
buffered in them, and when they leave no room for others. -/

namespace WaitingContext

/-- The datagrams have been handed over, and the task waits for more of them. -/
def HandedOver (registry : UdpRegistry) (context : WaitingContext) : Prop :=
  match context.handler with
  | .draining receiver => context.queue = [] ∧ registry.closed receiver = false
  | _ => False

/-- The last of the datagrams is next to be handed over. -/
def AtLast (registry : UdpRegistry) (context : WaitingContext) : Prop :=
  match context.handler with
  | .sending receiver _ _ => context.queue = [] ∧ registry.closed receiver = false
  | _ => False

instance (registry : UdpRegistry) :
    (context : WaitingContext) → Decidable (context.HandedOver registry)
  | ⟨_, queue, .draining receiver⟩ =>
      inferInstanceAs (Decidable (queue = [] ∧ registry.closed receiver = false))
  | ⟨_, _, .unspawned⟩ | ⟨_, _, .searching⟩ | ⟨_, _, .feeding _ _⟩ | ⟨_, _, .sending _ _ _⟩
  | ⟨_, _, .leaving⟩ => inferInstanceAs (Decidable False)

instance (registry : UdpRegistry) : (context : WaitingContext) → Decidable (context.AtLast registry)
  | ⟨_, queue, .sending receiver _ _⟩ =>
      inferInstanceAs (Decidable (queue = [] ∧ registry.closed receiver = false))
  | ⟨_, _, .unspawned⟩ | ⟨_, _, .searching⟩ | ⟨_, _, .draining _⟩ | ⟨_, _, .feeding _ _⟩
  | ⟨_, _, .leaving⟩ => inferInstanceAs (Decidable False)

theorem HandedOver.mono {registry later : UdpRegistry} {context : WaitingContext}
    (opens : ∀ receiver, later.closed receiver = false → registry.closed receiver = false)
    (handedOver : context.HandedOver later) : context.HandedOver registry := by
  obtain ⟨id, queue, handler⟩ := context
  cases handler with
  | draining receiver => exact handedOver.imp_right (opens receiver)
  | unspawned | searching | feeding | sending | leaving => exact handedOver

end WaitingContext

namespace DatagramLoop

/-- The loop is not at an entry that it has just opened. -/
def Settled : DatagramLoop → Prop
  | queueing _ _ true | spawning _ => False
  | _ => True

end DatagramLoop

namespace UdpCall

def publishes : UdpCall → Option UInt16
  | publishing _ id => some id
  | _ => none

end UdpCall

namespace UdpRegistry

variable {config : UdpConfig} {call moved : UdpCall} {registry : UdpRegistry}
  {id : UInt16}

theorem open_of_close {receiver owner : Nat}
    (isOpen : (registry.close receiver).closed owner = false) :
    registry.closed owner = false := by
  change Function.update registry.closed receiver true owner = false at isOpen
  rw [Function.update_apply] at isOpen
  split at isOpen
  · cases isOpen
  · exact isOpen

theorem open_of_act (acted : act config call () = some (registry, moved)) {receiver : Nat}
    (isOpen : registry.closed receiver = false) : config.shared.closed receiver = false := by
  cases call with
  | binding | unmapping =>
      simp only [act] at acted
      split at acted
      · cases acted
      · first
        | cases acted
          unfold unmap at isOpen
          split at isOpen <;> exact isOpen
        | split at acted <;> cases acted <;> exact isOpen
  | inserting | publishing | collecting =>
      cases acted
      exact isOpen
  | removing owner ids worker =>
      cases ids with
      | nil =>
          cases acted
          split at isOpen
          · exact open_of_close isOpen
          · exact isOpen
      | cons id ids =>
          cases acted
          exact isOpen
  | bound | alreadyBound | cleaned => cases acted

theorem vacant_of_act (acted : act config call () = some (registry, moved))
    (vacant : config.shared.udpRecvMap id = none) (other : call.publishes ≠ some id) :
    registry.udpRecvMap id = none := by
  cases call with
  | binding =>
      simp only [act] at acted
      split at acted
      · cases acted
      · split at acted <;> cases acted <;> exact vacant
  | inserting | collecting =>
      cases acted
      exact vacant
  | publishing receiver key =>
      cases acted
      have elsewhere : id ≠ key := fun same => other (congrArg some same.symm)
      exact publish_apply.trans ((if_neg elsewhere).trans vacant)
  | removing receiver ids worker =>
      cases ids with
      | nil =>
          cases acted
          split <;> exact vacant
      | cons key ids =>
          cases acted
          exact vacant
  | unmapping receiver key =>
      simp only [act] at acted
      split at acted
      · cases acted
      · cases acted
        cases owner : (config.shared.unmap receiver key).udpRecvMap id with
        | none => rfl
        | some owner' =>
            have owns := (unmap_eq_some_iff.mp owner).1
            cases vacant.symm.trans owns
  | bound | alreadyBound | cleaned => cases acted

end UdpRegistry

namespace UdpReception

/-- No entry is left of a context that has a receiver and has been handed its
datagrams. -/
def Clean (state : UdpReception) : Prop :=
  ∀ context ∈ state.waiting, context.HandedOver state.registry.shared →
    state.lookup context.id = none

/-- The last datagram of a context is handed over only if the context has no
receiver or its session has been closed, and no context gets a receiver that has
an entry left. -/
def NothingLeft (state : UdpReception) : UdpInput → Prop
  | .handler id _ =>
      ∀ context ∈ state.context id, context.AtLast state.registry.shared → state.lookup id = none
  | .call index =>
      ∀ call ∈ state.registry.calls[index]?, ∀ id ∈ call.publishes,
        ∀ context ∈ state.waiting, context.id = id → ¬context.HandedOver state.registry.shared
  | _ => True

instance (state : UdpReception) : (event : UdpInput) → Decidable (state.NothingLeft event)
  | .handler _ _ => inferInstanceAs (Decidable (∀ _ ∈ _, _ → _))
  | .call _ => inferInstanceAs (Decidable (∀ _ ∈ _, ∀ _ ∈ _, _))
  | .datagram _ | .arrive | .control _ _ _ | .clean _ | .accept | .header _ _ | .worker _ _
  | .packet _ _ | .recv _ | .close _ => inferInstanceAs (Decidable True)

/-- A full buffer, which is what the first datagram of a new context is dropped for, is
full of contexts that have no receiver. -/
def Roomy (state : UdpReception) : Prop :=
  maxWaitingDatagramContexts ≤ state.waiting.length →
    ∀ context ∈ state.waiting, state.lookup context.id = none

/-- The loop does not open the last entry while a context with an entry has a receiver. -/
def LeavesRoom (state : UdpReception) : DatagramLoop → Prop
  | .entering id _ => state.context id = none →
      maxWaitingDatagramContexts ≤ state.waiting.length + 1 →
        (∀ context ∈ state.waiting, state.lookup context.id = none) ∧ state.lookup id = none
  | _ => True

/-- Nor does a context with an entry get a receiver while the buffer is full. -/
def KeepsRoom (state : UdpReception) : UdpInput → Prop
  | .arrive => state.LeavesRoom state.loop
  | .call index =>
      ∀ call ∈ state.registry.calls[index]?, ∀ id ∈ call.publishes,
        maxWaitingDatagramContexts ≤ state.waiting.length →
          ∀ context ∈ state.waiting, context.id ≠ id
  | _ => True

instance (state : UdpReception) : (loop : DatagramLoop) → Decidable (state.LeavesRoom loop)
  | .entering _ _ => inferInstanceAs (Decidable (_ → _ → _ ∧ _))
  | .reading | .routing _ _ | .feeding _ _ _ | .sending _ _ _ | .checking _ _ | .counting _ _
  | .queueing _ _ _ | .spawning _ => inferInstanceAs (Decidable True)

instance (state : UdpReception) : (event : UdpInput) → Decidable (state.KeepsRoom event)
  | .arrive => inferInstanceAs (Decidable (state.LeavesRoom state.loop))
  | .call _ => inferInstanceAs (Decidable (∀ _ ∈ _, ∀ _ ∈ _, _ → _))
  | .datagram _ | .handler _ _ | .control _ _ _ | .clean _ | .accept | .header _ _ | .worker _ _
  | .packet _ _ | .recv _ | .close _ => inferInstanceAs (Decidable True)

variable {state next : UdpReception} {event : UdpInput} {context other : WaitingContext}
  {id : UInt16}

/-- Why an entry whose task has yet to look for the receiver has a datagram. -/
structure Filled (waiting : List WaitingContext) (loop : DatagramLoop) : Prop where
  searching : ∀ context ∈ waiting, context.handler = .searching → context.queue ≠ []
  unspawned : ∀ context ∈ waiting, context.handler = .unspawned →
    (∃ payload, loop = .queueing context.id payload true) ∨ loop = .spawning context.id
  queueing : ∀ id payload, loop = .queueing id payload true → ∀ context ∈ waiting,
    context.id = id → context = ⟨id, [], .unspawned⟩
  spawning : ∀ id, loop = .spawning id → ∀ context ∈ waiting, context.id = id →
    context.handler = .unspawned ∧ context.queue ≠ []

theorem filled_new : Filled new.waiting new.loop := ⟨nofun, nofun, nofun, nofun⟩

section Filled

variable {waiting : List WaitingContext} {loop moved : DatagramLoop} {payload : Bytes}

theorem Filled.spawned (filled : Filled waiting loop) (settled : loop.Settled)
    (member : context ∈ waiting) : context.handler ≠ .unspawned := by
  intro fresh
  rcases filled.unspawned context member fresh with ⟨payload, rfl⟩ | rfl
  · exact settled
  · exact settled

theorem Filled.settle (filled : Filled waiting loop)
    (spawned : ∀ context ∈ waiting, context.handler ≠ .unspawned) (settled : moved.Settled) :
    Filled waiting moved where
  searching := filled.searching
  unspawned context member fresh := absurd fresh (spawned context member)
  queueing id payload opened := by
    subst opened
    exact settled.elim
  spawning id spawning := by
    subst spawning
    exact settled.elim

theorem Filled.move (filled : Filled waiting loop) (settled : loop.Settled)
    (stays : moved.Settled) : Filled waiting moved :=
  filled.settle (fun _ member => filled.spawned settled member) stays

theorem Filled.open (filled : Filled waiting loop) (settled : loop.Settled)
    (missing : ∀ context ∈ waiting, context.id ≠ id) :
    Filled (waiting ++ [⟨id, [], .unspawned⟩]) (.queueing id payload true) where
  searching := Pool.forall_start filled.searching nofun
  unspawned := Pool.forall_start
    (fun context member fresh => absurd fresh (filled.spawned settled member))
    fun _ => .inl ⟨payload, rfl⟩
  queueing := by
    rintro _ _ ⟨⟩
    exact Pool.forall_start (fun context member same => absurd same (missing context member))
      fun _ => rfl
  spawning := nofun

theorem Filled.set (filled : Filled state.waiting state.loop) (found : context ∈ state.waiting)
    (spawned : context.handler ≠ .unspawned) (same : other.id = context.id)
    (stays : other.handler ≠ .unspawned)
    (seeks : other.handler = .searching → other.queue ≠ []) :
    Filled (state.setContext other).waiting state.loop where
  searching replaced member seeking := by
    rcases mem_setContext member with rfl | ⟨before, -⟩
    · exact seeks seeking
    · exact filled.searching replaced before seeking
  unspawned replaced member fresh := by
    rcases mem_setContext member with rfl | ⟨before, -⟩
    · exact absurd fresh stays
    · exact filled.unspawned replaced before fresh
  queueing id payload opening replaced member owns := by
    rcases mem_setContext member with rfl | ⟨before, -⟩
    · have opened := filled.queueing id payload opening context found (same ▸ owns)
      exact absurd (congrArg WaitingContext.handler opened) spawned
    · exact filled.queueing id payload opening replaced before owns
  spawning id spawning replaced member owns := by
    rcases mem_setContext member with rfl | ⟨before, -⟩
    · exact absurd (filled.spawning id spawning context found (same ▸ owns)).1 spawned
    · exact filled.spawning id spawning replaced before owns

theorem Filled.remove (filled : Filled waiting loop) {keeps : WaitingContext → Bool} :
    Filled (waiting.filter keeps) loop where
  searching context member := filled.searching context (List.mem_filter.mp member).1
  unspawned context member := filled.unspawned context (List.mem_filter.mp member).1
  queueing id payload opening context member :=
    filled.queueing id payload opening context (List.mem_filter.mp member).1
  spawning id spawning context member :=
    filled.spawning id spawning context (List.mem_filter.mp member).1

theorem Filled.queue (filled : Filled state.waiting (.queueing id payload true)) :
    Filled (state.setContext ⟨id, [payload], .unspawned⟩).waiting (.spawning id) where
  searching replaced member seeking := by
    rcases mem_setContext member with rfl | ⟨before, -⟩
    · cases seeking
    · exact filled.searching replaced before seeking
  unspawned replaced member fresh := by
    rcases mem_setContext member with rfl | ⟨before, elsewhere⟩
    · exact .inr rfl
    · rcases filled.unspawned replaced before fresh with ⟨_, opening⟩ | spawning
      · cases opening
        exact absurd rfl elsewhere
      · cases spawning
  queueing := nofun
  spawning := by
    rintro _ ⟨⟩ replaced member owns
    rcases mem_setContext member with rfl | ⟨-, elsewhere⟩
    · exact ⟨rfl, List.cons_ne_nil _ _⟩
    · exact absurd owns elsewhere

theorem Filled.spawn (filled : Filled state.waiting (.spawning id))
    (found : state.context id = some context) :
    Filled (state.setContext { context with handler := .searching }).waiting .reading where
  searching replaced member seeking := by
    rcases mem_setContext member with rfl | ⟨before, -⟩
    · exact (filled.spawning id rfl context (mem_of_context found) (id_of_context found)).2
    · exact filled.searching replaced before seeking
  unspawned replaced member fresh := by
    rcases mem_setContext member with rfl | ⟨before, elsewhere⟩
    · cases fresh
    · rcases filled.unspawned replaced before fresh with ⟨_, opening⟩ | spawning
      · cases opening
      · cases spawning
        exact absurd (id_of_context found).symm elsewhere
  queueing := nofun
  spawning := nofun

theorem Filled.arrive (filled : Filled state.waiting state.loop) (arrives : Arrives state next) :
    Filled next.waiting next.loop := by
  cases arrives with
  | routed place | missed place | fed place | unbound place | present place | absent place
  | refused place | admitted place | entered place =>
      rw [place] at filled
      exact filled.move trivial trivial
  | sent place =>
      rw [place] at filled
      rw [waiting_trySend]
      exact filled.move trivial trivial
  | opened place missing =>
      rw [place] at filled
      exact filled.open trivial fun _ => id_ne_of_context missing
  | orphaned place missing =>
      refine filled.settle (fun context member fresh => ?_) trivial
      have elsewhere := id_ne_of_context missing member
      rcases filled.unspawned context member fresh with ⟨_, opening⟩ | spawning
      · cases place.symm.trans opening
        exact elsewhere rfl
      · cases place.symm.trans spawning
  | @queued id payload isNew context place found =>
      have member := mem_of_context found
      cases isNew with
      | true =>
          obtain rfl := filled.queueing id payload place context member (id_of_context found)
          rw [place] at filled
          exact filled.queue
      | false =>
          have settled : state.loop.Settled := place ▸ trivial
          have spawned := filled.spawned settled member
          have queued : Filled
              (state.setContext { context with queue := context.queue ++ [payload] }).waiting
              state.loop :=
            filled.set member spawned rfl spawned fun _ => by simp
          exact queued.move settled trivial
  | @full id payload isNew context place found full =>
      cases isNew with
      | true =>
          obtain rfl := filled.queueing id payload place context (mem_of_context found)
            (id_of_context found)
          exact absurd (Nat.zero_lt_succ 7) full
      | false =>
          rw [place] at filled
          exact filled.move trivial trivial
  | gone place missing =>
      refine filled.settle (fun context member fresh => ?_) trivial
      have elsewhere := id_ne_of_context missing member
      rcases filled.unspawned context member fresh with ⟨_, opening⟩ | spawning
      · cases place.symm.trans opening
      · cases place.symm.trans spawning
        exact elsewhere rfl
  | spawned place found =>
      rw [place] at filled
      exact filled.spawn found

theorem Filled.handle (filled : Filled state.waiting state.loop) (found : context ∈ state.waiting)
    (handles : Handles state context next) : Filled next.waiting next.loop := by
  cases handles with
  | stopped stops =>
      refine filled.set found (fun unspawned => ?_) rfl nofun nofun
      rw [unspawned] at stops
      exact stops
  | found place | took place | fed place =>
      exact filled.set found (by simp [place]) rfl nofun nofun
  | @sent receiver target payload place =>
      have sent : Filled (state.trySend receiver target payload).waiting
          (state.trySend receiver target payload).loop := by
        rw [waiting_trySend, loop_trySend]
        exact filled
      have there : context ∈ (state.trySend receiver target payload).waiting := by
        rw [waiting_trySend]
        exact found
      exact sent.set there (by simp [place]) rfl nofun nofun
  | left => exact filled.remove

end Filled

theorem Arrives.waiting (arrives : Arrives state next) : next.registry = state.registry ∧
    ∀ context ∈ next.waiting, context ∈ state.waiting ∨
      ¬context.HandedOver state.registry.shared := by
  cases arrives with
  | routed | missed | fed | unbound | present | absent | refused | admitted | entered | orphaned
  | full | gone => exact ⟨rfl, fun _ => .inl⟩
  | sent => exact ⟨registry_trySend, fun _ member => .inl (waiting_trySend ▸ member)⟩
  | opened => exact ⟨rfl, Pool.forall_start (fun _ => .inl) (.inr not_false)⟩
  | @queued id payload isNew context =>
      refine ⟨rfl, fun replaced member => ?_⟩
      rcases mem_setContext member with rfl | ⟨before, -⟩
      · refine .inr fun handedOver => ?_
        unfold WaitingContext.HandedOver at handedOver
        split at handedOver
        · exact absurd handedOver.1 (by simp)
        · exact handedOver
      · exact .inl before
  | spawned =>
      refine ⟨rfl, fun replaced member => ?_⟩
      rcases mem_setContext member with rfl | ⟨before, -⟩
      · exact .inr not_false
      · exact .inl before

theorem clean_setContext_iff {queue : List Bytes} {handler : ContextHandler} (clean : Clean state)
    (found : context ∈ state.waiting) : Clean (state.setContext ⟨context.id, queue, handler⟩) ↔
      (WaitingContext.HandedOver state.registry.shared ⟨context.id, queue, handler⟩ →
        state.lookup context.id = none) := by
  constructor
  · exact fun after => after _ (self_mem_setContext found rfl)
  · intro own replaced member handedOver
    rcases mem_setContext member with rfl | ⟨before, -⟩
    · exact own handedOver
    · exact clean replaced before handedOver

theorem Clean.handle (clean : Clean state) (filled : Filled state.waiting state.loop)
    (found : context ∈ state.waiting) (handles : Handles state context next) :
    Clean next ↔ (context.AtLast state.registry.shared → state.lookup context.id = none) := by
  cases handles with
  | stopped stops =>
      refine (clean_setContext_iff clean found).trans ⟨fun _ last => ?_, fun _ => False.elim⟩
      unfold WaitingContext.AtLast at last
      split at last
      · next sending =>
          rw [sending] at stops
          exact stops.elim
      · exact last.elim
  | @found receiver place =>
      have filled := filled.searching context found place
      refine (clean_setContext_iff clean found).trans ⟨fun _ last => ?_, fun _ => ?_⟩
      · simp only [WaitingContext.AtLast, place] at last
      · exact fun handedOver => absurd handedOver.1 filled
  | took place | fed place =>
      refine (clean_setContext_iff clean found).trans ⟨fun _ last => ?_, fun _ => False.elim⟩
      simp only [WaitingContext.AtLast, place] at last
  | @sent receiver target payload place =>
      have sent : Clean (state.trySend receiver target payload) := by
        unfold trySend
        split <;> exact clean
      have there : context ∈ (state.trySend receiver target payload).waiting := by
        rw [waiting_trySend]
        exact found
      refine (clean_setContext_iff sent there).trans ?_
      rw [registry_trySend, lookup, registry_trySend]
      simp only [WaitingContext.HandedOver, WaitingContext.AtLast, place, lookup]
  | left place =>
      refine ⟨fun _ last => ?_, fun _ other member => clean other (List.mem_filter.mp member).1⟩
      simp only [WaitingContext.AtLast, place] at last

theorem Clean.call (clean : Clean state) {registry : UdpConfig} {index : Nat}
    (moved : UdpRegistry.program.step state.registry (.advance index ()) = some registry) :
    Clean { state with registry } ↔ NothingLeft state (.call index) := by
  rcases Pool.Program.step_cases moved with
    ⟨_, ⟨⟩, -⟩ | ⟨before, call, after, ⟨⟩, shared, place, ⟨⟩, shape, acted, rfl⟩
  have found : state.registry.calls[before.length]? = some call := by
    rw [shape]
    exact Pool.getElem?_moved
  constructor
  · intro clear other member id publishes context present same handedOver
    cases found.symm.trans member
    subst same
    cases call with
    | publishing receiver key =>
        cases publishes
        cases acted
        have vacant := clear context present handedOver
        exact absurd vacant (by simp [lookup, UdpRegistry.publish_apply])
    | binding | inserting | bound | alreadyBound | collecting | removing | unmapping | cleaned =>
        cases publishes
  · intro nothing context member handedOver
    have earlier := handedOver.mono fun receiver => UdpRegistry.open_of_act acted
    refine UdpRegistry.vacant_of_act acted (clean context member earlier) fun publishes => ?_
    exact nothing call found context.id publishes context member rfl earlier

theorem Filled.step (filled : Filled state.waiting state.loop)
    (taken : state.step event = some next) : Filled next.waiting next.loop := by
  cases event with
  | datagram datagram =>
      simp only [step] at taken
      split at taken <;> cases taken
      · next place =>
          rw [place] at filled
          exact filled.move trivial trivial
      · exact filled
  | arrive => exact filled.arrive (arrives taken)
  | handler id stop =>
      obtain ⟨context, found, handled⟩ := Option.bind_eq_some_iff.mp taken
      exact filled.handle (mem_of_context found) (handles handled)
  | call index =>
      obtain ⟨registry, -, rfl⟩ := Option.map_eq_some_iff.mp taken
      exact filled
  | control | clean | accept | close =>
      cases taken
      exact filled
  | header | packet | recv =>
      simp only [step] at taken
      split at taken <;> cases taken
      exact filled
  | worker index stop =>
      obtain ⟨worker, -, worked⟩ := Option.bind_eq_some_iff.mp taken
      obtain ⟨waiting, loop, -⟩ := (works worked).frame
      rw [waiting, loop]
      exact filled

theorem clean_step_iff (filled : Filled state.waiting state.loop) (clean : Clean state)
    (taken : state.step event = some next) : Clean next ↔ NothingLeft state event := by
  cases event with
  | datagram datagram =>
      refine iff_of_true ?_ trivial
      simp only [step] at taken
      split at taken <;> cases taken <;> exact clean
  | arrive =>
      refine iff_of_true (fun context member handedOver => ?_) trivial
      obtain ⟨same, kept⟩ := (arrives taken).waiting
      rw [lookup, same]
      rw [same] at handedOver
      rcases kept context member with before | notHandedOver
      · exact clean context before handedOver
      · exact absurd handedOver notHandedOver
  | handler id stop =>
      obtain ⟨context, found, handled⟩ := Option.bind_eq_some_iff.mp taken
      refine (clean.handle filled (mem_of_context found) (handles handled)).trans ?_
      rw [id_of_context found]
      constructor
      · intro last other same
        cases found.symm.trans same
        exact last
      · exact fun nothing => nothing context found
  | call index =>
      obtain ⟨registry, moved, rfl⟩ := Option.map_eq_some_iff.mp taken
      exact clean.call moved
  | control | clean | accept =>
      cases taken
      exact iff_of_true clean trivial
  | close receiver =>
      cases taken
      refine iff_of_true (fun context member handedOver => ?_) trivial
      exact clean context member (handedOver.mono fun _ => UdpRegistry.open_of_close)
  | header | packet | recv =>
      refine iff_of_true ?_ trivial
      simp only [step] at taken
      split at taken <;> cases taken
      exact clean
  | worker index stop =>
      obtain ⟨worker, -, worked⟩ := Option.bind_eq_some_iff.mp taken
      obtain ⟨waiting, -, shared⟩ := (works worked).frame
      refine iff_of_true (fun context member handedOver => ?_) trivial
      rw [lookup, shared]
      exact clean context (waiting ▸ member) (shared ▸ handedOver)

/-! Room in the buffer. -/

theorem ids_setContext (state : UdpReception) (context : WaitingContext) :
    (state.setContext context).waiting.map (·.id) = state.waiting.map (·.id) := by
  rw [setContext, List.map_map]
  refine List.map_congr_left fun other _ => ?_
  rw [Function.comp_apply]
  split
  · next same => exact same.symm
  · rfl

theorem roomy_iff_ids : Roomy state ↔
    (maxWaitingDatagramContexts ≤ (state.waiting.map (·.id)).length →
      ∀ id ∈ state.waiting.map (·.id), state.lookup id = none) := by
  simp only [Roomy, List.length_map, List.forall_mem_map]

theorem lookup_congr (shared : next.registry.shared = state.registry.shared) :
    next.lookup = state.lookup := by
  funext id
  rw [lookup, shared, lookup]

theorem roomy_congr (ids : next.waiting.map (·.id) = state.waiting.map (·.id))
    (shared : next.registry.shared = state.registry.shared) : Roomy next ↔ Roomy state := by
  rw [roomy_iff_ids, roomy_iff_ids, ids, lookup_congr shared]

theorem Arrives.ids (arrives : Arrives state next) :
    next.waiting.map (·.id) = state.waiting.map (·.id) ∨
      ∃ id payload, state.loop = .entering id payload ∧ state.context id = none ∧
        next.waiting = state.waiting ++ [⟨id, [], .unspawned⟩] := by
  cases arrives with
  | routed | missed | fed | unbound | present | absent | refused | admitted | entered | orphaned
  | full | gone => exact .inl rfl
  | sent =>
      refine .inl ?_
      rw [waiting_trySend]
  | opened place missing => exact .inr ⟨_, _, place, missing, rfl⟩
  | queued => exact .inl (ids_setContext ..)
  | spawned => exact .inl (ids_setContext ..)

theorem Roomy.handle (roomy : Roomy state) (handles : Handles state context next) :
    Roomy next := by
  cases handles with
  | stopped | found | took | fed => exact (roomy_congr (ids_setContext ..) rfl).mpr roomy
  | sent =>
      refine (roomy_congr ((ids_setContext ..).trans ?_) ?_).mpr roomy
      · rw [waiting_trySend]
      · rw [setContext, registry_trySend]
  | left =>
      intro full other member
      have fewer := List.length_filter_le (fun other => decide (other.id ≠ context.id))
        state.waiting
      exact roomy (Nat.le_trans full fewer) other (List.mem_filter.mp member).1

theorem Roomy.arrive (roomy : Roomy state) (arrives : Arrives state next) :
    Roomy next ↔ KeepsRoom state .arrive := by
  have shared : next.registry.shared = state.registry.shared := by rw [arrives.waiting.1]
  rw [KeepsRoom]
  rcases arrives.ids with ids | ⟨id, payload, place, missing, waiting⟩
  · refine iff_of_true ((roomy_congr ids shared).mpr roomy) ?_
    -- A loop that is about to open an entry opens it.
    cases arrives with
    | opened => simp at ids
    | entered place found =>
        rw [place]
        exact fun missing => nomatch found.symm.trans missing
    | routed place | missed place | fed place | unbound place | sent place | present place
    | absent place | refused place | admitted place | orphaned place | queued place | full place
    | gone place | spawned place =>
        rw [place]
        trivial
  · rw [roomy_iff_ids, waiting, lookup_congr shared, place, LeavesRoom]
    simp only [List.length_map, List.length_append, List.length_singleton, List.map_append,
      List.map_cons, List.map_nil, List.forall_mem_append, List.forall_mem_map,
      List.forall_mem_singleton]
    exact ⟨fun room _ => room, fun keeps => keeps missing⟩

theorem Roomy.call (roomy : Roomy state) {registry : UdpConfig} {index : Nat}
    (moved : UdpRegistry.program.step state.registry (.advance index ()) = some registry) :
    Roomy { state with registry } ↔ KeepsRoom state (.call index) := by
  rcases Pool.Program.step_cases moved with
    ⟨_, ⟨⟩, -⟩ | ⟨before, call, after, ⟨⟩, shared, place, ⟨⟩, shape, acted, rfl⟩
  have found : state.registry.calls[before.length]? = some call := by
    rw [shape]
    exact Pool.getElem?_moved
  constructor
  · intro room other member id publishes full context present same
    cases found.symm.trans member
    subst same
    have vacant := room full context present
    cases call with
    | publishing receiver key =>
        cases publishes
        cases acted
        simp [lookup, UdpRegistry.publish_apply] at vacant
    | binding | inserting | bound | alreadyBound | collecting | removing | unmapping | cleaned =>
        cases publishes
  · intro keeps full context member
    refine UdpRegistry.vacant_of_act acted (roomy full context member) fun publishes => ?_
    exact keeps call found context.id publishes full context member rfl

theorem roomy_step_iff (roomy : Roomy state) (taken : state.step event = some next) :
    Roomy next ↔ KeepsRoom state event := by
  cases event with
  | arrive => exact roomy.arrive (arrives taken)
  | call index =>
      obtain ⟨registry, moved, rfl⟩ := Option.map_eq_some_iff.mp taken
      exact roomy.call moved
  | handler id stop =>
      obtain ⟨context, -, handled⟩ := Option.bind_eq_some_iff.mp taken
      exact iff_of_true (roomy.handle (handles handled)) trivial
  | datagram | header | packet | recv =>
      refine iff_of_true ?_ trivial
      simp only [step] at taken
      split at taken <;> cases taken <;> exact roomy
  | control | clean | accept | close =>
      cases taken
      exact iff_of_true roomy trivial
  | worker index stop =>
      obtain ⟨worker, -, worked⟩ := Option.bind_eq_some_iff.mp taken
      obtain ⟨waiting, -, shared⟩ := (works worked).frame
      refine iff_of_true ((roomy_congr ?_ shared).mpr roomy) trivial
      rw [waiting]

theorem roomy_new : Roomy new := fun _ _ => nofun

/-- The buffer keeps no entry of a context that has a receiver and has been
handed its datagrams, exactly in the runs of which no step leaves one over; and contexts
that have a receiver have no part in filling it, exactly in the runs of which no step
takes the last place with one of them among the entries, or makes it one of them. -/
theorem waiting_clean_iff {events : List UdpInput} {final : UdpReception}
    (ran : Machine.run step new events = some final) :
    (Machine.Throughout step Clean new events ↔ Machine.Within step NothingLeft new events) ∧
      (Machine.Throughout step Roomy new events ↔ Machine.Within step KeepsRoom new events) := by
  constructor
  · exact Machine.throughout_iff_within (fun state => Filled state.waiting state.loop) Clean
      (fun filled _ taken => filled.step taken) clean_step_iff filled_new nofun ran
  · exact Machine.throughout_iff_within (fun _ => True) Roomy (fun _ _ _ => trivial)
      (fun _ => roomy_step_iff) trivial roomy_new ran

def earlyDatagram : List UdpInput :=
  [.datagram [0, 7, 1], .arrive, .arrive, .arrive, .arrive, .arrive, .arrive]

theorem waiting_clean_timeout :
    Machine.Throughout step Clean new (earlyDatagram ++ [.handler 7 true, .handler 7 false]) ∧
      Machine.Throughout step Roomy new (earlyDatagram ++ [.handler 7 true, .handler 7 false]) :=
  ⟨(waiting_clean_iff rfl).1.mpr (by decide), (waiting_clean_iff rfl).2.mpr (by decide)⟩

/-- The receiver is bound and is handed the datagram; the entry stays. -/
theorem entry_left : ∃ final, Machine.run step new (earlyDatagram ++
      [.control 0 .dummy 7, .call 0, .call 0, .call 0,
        .handler 7 false, .handler 7 false, .handler 7 false, .handler 7 false]) = some final ∧
    final.received 0 = [(.dummy, [1])] ∧ ¬Clean final := by
  refine ⟨_, rfl, rfl, fun clean => ?_⟩
  have vacant := clean _ (List.mem_singleton.mpr rfl) ⟨rfl, rfl⟩
  cases vacant

end UdpReception

end QuicProxy
