import Mathlib.Logic.Function.Basic
import QuicProxy.Data.Bytes
import QuicProxy.Data.Notify
import QuicProxy.Data.Pool

namespace QuicProxy

/-! The UDP sessions of a Hysteria2 connection, with the close signal and the
routes they share (`src/proxy/outbound/hysteria2/mod.rs`). -/

namespace Hysteria2

def udpRawQueueCapacity : Nat := 16

def firstSessionId : UInt32 := 1

/-- The place of a session's worker.  A `SessionCloser` keeps its signal, so its
`wait` is the flag. -/
inductive UdpWorker where
  | looping
  /-- In `select!`, with the future of `closed.notified()`. -/
  | waiting (ticket : Nat)
  | processing (raw : Bytes)
  | leaving
  /-- The route is removed, and the worker's own reference to the session is not. -/
  | releasing
  | ended
deriving DecidableEq

/-- A `Hy2UdpSession`; `handles` are the references to it other than its worker's. -/
structure Hy2UdpSession where
  sessionId : UInt32
  handles : Nat
  closer : Bool
  raw : List Bytes
  worker : UdpWorker
deriving DecidableEq

/-- The place of `run_datagram_listener`. -/
inductive DatagramListener where
  | looping
  | waiting (ticket : Nat)
  | routing (data : Bytes)
  | notifying
  | ended
deriving DecidableEq

structure Hy2ConnState where
  nextSessionId : UInt32
  datagramRoutes : UInt32 → Option Nat
  closed : Notify
  connClosed : Bool
  /-- How many `close` calls have notified and have yet to close the connection. -/
  closing : Nat
  listener : DatagramListener
  sessions : List Hy2UdpSession

inductive Hy2Event where
  | connectPacket
  | clone (index : Nat)
  | drop (index : Nat)
  | closeSession (index : Nat)
  | close
  | closeConn
  | loseConn
  | datagram (data : Bytes)
  | listener
  | abort
  | work (index : Nat) (stop : Bool)
deriving DecidableEq

namespace Hy2ConnState

def new : Hy2ConnState := ⟨firstSessionId, fun _ => none, .new, false, 0, .looping, []⟩

def setSession (state : Hy2ConnState) (index : Nat) (session : Hy2UdpSession) : Hy2ConnState :=
  { state with sessions := state.sessions.set index session }

def removeRoute (state : Hy2ConnState) (id : UInt32) : Hy2ConnState :=
  { state with datagramRoutes := Function.update state.datagramRoutes id none }

/-- `Drop` of a session, with its last reference. -/
def dropSession (state : Hy2ConnState) (index : Nat) (session : Hy2UdpSession) : Hy2ConnState :=
  (state.setSession index { session with closer := true }).removeRoute session.sessionId

/-- The body of the listener's loop; a datagram for a full queue is dropped. -/
def route (state : Hy2ConnState) (data : Bytes) : Hy2ConnState :=
  match data.take 4 with
  | [a, b, c, d] =>
      match state.datagramRoutes (u32FromBe a b c d) with
      | none => state
      | some index =>
          match state.sessions[index]? with
          | none => state
          | some session =>
              if session.raw.length < udpRawQueueCapacity then
                state.setSession index { session with raw := session.raw ++ [data] }
              else state
  | _ => state

/-- A step of the worker; `stop` takes a branch of `select!` that ends the loop. -/
def work (state : Hy2ConnState) (index : Nat) (session : Hy2UdpSession) (stop : Bool) :
    Option Hy2ConnState :=
  match session.worker with
  | .looping =>
      some (state.setSession index { session with worker := .waiting state.closed.enable })
  | .waiting ticket =>
      if stop then
        if session.closer = true ∨ state.closed.Woken ticket ∨
            (session.raw = [] ∧ state.datagramRoutes session.sessionId ≠ some index) then
          some (state.setSession index { session with worker := .leaving })
        else none
      else
        match session.raw with
        | [] => none
        | raw :: rest =>
            some (state.setSession index { session with raw := rest, worker := .processing raw })
  | .processing _ => some (state.setSession index { session with worker := .looping })
  | .leaving =>
      some ((state.setSession index { session with worker := .releasing }).removeRoute
        session.sessionId)
  | .releasing =>
      some (if session.handles = 0 then
          state.dropSession index { session with worker := .ended }
        else state.setSession index { session with worker := .ended })
  | .ended => none

def listen (state : Hy2ConnState) : Option Hy2ConnState :=
  match state.listener with
  | .looping => some { state with listener := .waiting state.closed.enable }
  | .waiting ticket =>
      if state.closed.Woken ticket ∨ state.connClosed = true then
        some { state with listener := .notifying }
      else none
  | .routing data => some { state.route data with listener := .looping }
  | .notifying => some { state with closed := state.closed.notifyWaiters, listener := .ended }
  | .ended => none

def dropHandle (state : Hy2ConnState) (index : Nat) (session : Hy2UdpSession) :
    Option Hy2ConnState :=
  match session.handles with
  | 0 => none
  | 1 =>
      some (if session.worker = .ended then
          state.dropSession index { session with handles := 0 }
        else state.setSession index { session with handles := 0 })
  | handles + 2 => some (state.setSession index { session with handles := handles + 1 })

def step (state : Hy2ConnState) : Hy2Event → Option Hy2ConnState
  | .connectPacket =>
      if state.nextSessionId = 4294967295 then none
      else
        some { state with
          nextSessionId := state.nextSessionId + 1
          datagramRoutes := Function.update state.datagramRoutes state.nextSessionId
            (some state.sessions.length)
          sessions := state.sessions ++ [⟨state.nextSessionId, 1, false, [], .looping⟩] }
  | .clone index =>
      state.sessions[index]?.bind fun session =>
        if session.handles = 0 then none
        else some (state.setSession index { session with handles := session.handles + 1 })
  | .drop index => state.sessions[index]?.bind (state.dropHandle index)
  | .closeSession index =>
      state.sessions[index]?.map fun session =>
        state.setSession index { session with closer := true }
  | .close =>
      some { state with closed := state.closed.notifyWaiters, closing := state.closing + 1 }
  | .closeConn =>
      match state.closing with
      | 0 => none
      | closing + 1 => some { state with closing, connClosed := true }
  | .loseConn => some { state with connClosed := true }
  | .datagram data =>
      match state.listener with
      | .waiting _ => some { state with listener := .routing data }
      | _ => none
  | .listener => state.listen
  | .abort =>
      if state.connClosed = true then
        match state.listener with
        | .looping | .waiting _ => some { state with listener := .ended }
        | _ => none
      else none
  | .work index stop => state.sessions[index]?.bind (state.work index · stop)

/-- The worker waits, and nothing that it waits for is there. -/
def Blocked (state : Hy2ConnState) (index : Nat) (session : Hy2UdpSession) : Prop :=
  match session.worker with
  | .waiting ticket =>
      ¬state.closed.Woken ticket ∧ session.closer = false ∧ session.raw = [] ∧
        state.datagramRoutes session.sessionId = some index
  | _ => False

def NoneBlocked (state : Hy2ConnState) : Prop :=
  ∀ (index : Nat) session, state.sessions[index]? = some session → ¬state.Blocked index session

/-- The connection is closed, and nothing under way is going to notify `closed`. -/
def Over (state : Hy2ConnState) : Prop :=
  state.connClosed = true ∧ state.closing = 0 ∧ state.listener = .ended

/-- The routes are those of sessions with a handle other than the worker's. -/
def Routed (state : Hy2ConnState) : Prop :=
  ∀ id index, state.datagramRoutes id = some index →
    ∃ session, state.sessions[index]? = some session ∧ 0 < session.handles

/-- A closed connection leaves no task behind that waits for good. -/
structure ReachesAll (state : Hy2ConnState) : Prop where
  worker : Over state → NoneBlocked state
  listener : state.connClosed = true → ∀ ticket, state.listener = .waiting ticket →
    state.listen ≠ none

/-- The worker enters `select!`, and no branch of it is ready. -/
def EntersSelect (state : Hy2ConnState) : Hy2Event → Prop
  | .work index _ => ∃ session ∈ state.sessions[index]?, session.worker = .looping ∧
      session.closer = false ∧ session.raw = [] ∧
        state.datagramRoutes session.sessionId = some index
  | _ => False

/-- The event notifies `closed`. -/
def Notifies (state : Hy2ConnState) : Hy2Event → Prop
  | .close => True
  | .listener => state.listener = .notifying
  | _ => False

/-- The last handle is dropped after the route has been removed. -/
def DropsLast (state : Hy2ConnState) : Hy2Event → Prop
  | .drop index => ∀ session ∈ state.sessions[index]?, session.handles = 1 →
      session.worker = .ended ∨ state.datagramRoutes session.sessionId ≠ some index
  | _ => True

instance (state : Hy2ConnState) (index : Nat) :
    (session : Hy2UdpSession) → Decidable (state.Blocked index session)
  | ⟨_, _, _, _, .waiting _⟩ => inferInstanceAs (Decidable (_ ∧ _))
  | ⟨_, _, _, _, .looping⟩ | ⟨_, _, _, _, .processing _⟩ | ⟨_, _, _, _, .leaving⟩
  | ⟨_, _, _, _, .releasing⟩ | ⟨_, _, _, _, .ended⟩ => inferInstanceAs (Decidable False)

theorem noneBlocked_iff (state : Hy2ConnState) : state.NoneBlocked ↔
    ∀ index < state.sessions.length, ∀ session ∈ state.sessions[index]?,
      ¬state.Blocked index session := by
  refine ⟨fun none index _ => none index, fun none index session found => ?_⟩
  obtain ⟨bound, -⟩ := List.getElem?_eq_some_iff.mp found
  exact none index bound session found

instance (state : Hy2ConnState) : Decidable state.NoneBlocked :=
  decidable_of_iff _ state.noneBlocked_iff.symm

instance (state : Hy2ConnState) : Decidable state.Over := inferInstanceAs (Decidable (_ ∧ _ ∧ _))

instance (state : Hy2ConnState) : (event : Hy2Event) → Decidable (state.EntersSelect event)
  | .work _ _ => inferInstanceAs (Decidable (∃ _ ∈ _, _))
  | .connectPacket | .clone _ | .drop _ | .closeSession _ | .close | .closeConn | .loseConn
  | .datagram _ | .listener | .abort => inferInstanceAs (Decidable False)

instance (state : Hy2ConnState) : (event : Hy2Event) → Decidable (state.Notifies event)
  | .close => inferInstanceAs (Decidable True)
  | .listener => inferInstanceAs (Decidable (_ = _))
  | .connectPacket | .clone _ | .drop _ | .closeSession _ | .closeConn | .loseConn
  | .datagram _ | .abort | .work _ _ => inferInstanceAs (Decidable False)

instance (state : Hy2ConnState) : (event : Hy2Event) → Decidable (state.DropsLast event)
  | .drop _ => inferInstanceAs (Decidable (∀ _ ∈ _, _ → _))
  | .connectPacket | .clone _ | .closeSession _ | .close | .closeConn | .loseConn
  | .datagram _ | .listener | .abort | .work _ _ => inferInstanceAs (Decidable True)

/-- Tickets have been given out, and a route is under the id of its session. -/
structure Sound (state : Hy2ConnState) : Prop where
  issued : ∀ session ∈ state.sessions, ∀ ticket, session.worker = .waiting ticket →
    state.closed.Issued ticket
  keyed : ∀ id index, state.datagramRoutes id = some index →
    ∃ session, state.sessions[index]? = some session ∧ session.sessionId = id

theorem sound_new : Sound new := ⟨nofun, nofun⟩

variable {state next : Hy2ConnState} {event : Hy2Event} {index : Nat}
  {session changed : Hy2UdpSession}

/-- A step that leaves the signal, the connection and the listener alone, and
replaces one session and perhaps removes a route. -/
structure Changes (state : Hy2ConnState) (index : Nat) (session changed : Hy2UdpSession)
    (next : Hy2ConnState) : Prop where
  found : state.sessions[index]? = some session
  sessions : next.sessions = state.sessions.set index changed
  sessionId : changed.sessionId = session.sessionId
  routes : ∀ id key, next.datagramRoutes id = some key → state.datagramRoutes id = some key
  closed : next.closed = state.closed
  connClosed : next.connClosed = state.connClosed
  closing : next.closing = state.closing
  listener : next.listener = state.listener

theorem Changes.getElem? (changes : Changes state index session changed next) (other : Nat) :
    next.sessions[other]? = if other = index then some changed else state.sessions[other]? := by
  rw [changes.sessions]
  exact Pool.getElem?_set_of_some changes.found changed other

theorem Changes.sound (changes : Changes state index session changed next) (sound : Sound state)
    (issued : ∀ ticket, changed.worker = .waiting ticket → state.closed.Issued ticket) :
    Sound next where
  issued other member ticket waits := by
    rw [changes.closed]
    rw [changes.sessions] at member
    rcases List.mem_or_eq_of_mem_set member with before | rfl
    · exact sound.issued other before ticket waits
    · exact issued ticket waits
  keyed id key owns := by
    obtain ⟨owner, found, same⟩ := sound.keyed id key (changes.routes id key owns)
    rw [changes.getElem?]
    split
    · next here =>
        subst here
        cases found.symm.trans changes.found
        exact ⟨changed, rfl, changes.sessionId.trans same⟩
    · exact ⟨owner, found, same⟩

theorem Changes.blocked (changes : Changes state index session changed next) {other : Nat}
    {waiter : Hy2UdpSession} (blocked : next.Blocked other waiter) :
    state.Blocked other waiter := by
  obtain ⟨id, handles, closer, raw, worker⟩ := waiter
  cases worker with
  | waiting ticket =>
      obtain ⟨unwoken, isOpen, empty, routed⟩ := blocked
      rw [changes.closed] at unwoken
      exact ⟨unwoken, isOpen, empty, changes.routes _ _ routed⟩
  | looping | processing | leaving | releasing | ended => exact blocked

theorem Changes.noneBlocked (changes : Changes state index session changed next)
    (none : state.NoneBlocked) (own : next.Blocked index changed → state.Blocked index session) :
    next.NoneBlocked := by
  intro other waiter found blocked
  rw [changes.getElem?] at found
  split at found
  · next here =>
      cases found
      exact none index session changes.found (own (here ▸ blocked))
  · exact none other waiter found (changes.blocked blocked)

theorem Changes.routed (changes : Changes state index session changed next) (routed : Routed state)
    (kept : (∃ id, next.datagramRoutes id = some index) → 0 < session.handles →
      0 < changed.handles) : Routed next := by
  intro id key owns
  obtain ⟨owner, found, live⟩ := routed id key (changes.routes id key owns)
  rw [changes.getElem?]
  split
  · next here =>
      subst here
      cases found.symm.trans changes.found
      exact ⟨changed, rfl, kept ⟨id, owns⟩ live⟩
  · exact ⟨owner, found, live⟩

theorem changes_setSession (changed : Hy2UdpSession)
    (found : state.sessions[index]? = some session)
    (same : changed.sessionId = session.sessionId) :
    Changes state index session changed (state.setSession index changed) :=
  ⟨found, rfl, same, fun _ _ => id, rfl, rfl, rfl, rfl⟩

theorem Changes.removeRoute (changes : Changes state index session changed next) {id : UInt32} :
    Changes state index session changed (next.removeRoute id) where
  __ := changes
  routes key owner owns := by
    simp only [Hy2ConnState.removeRoute, Function.update_apply] at owns
    split at owns
    · cases owns
    · exact changes.routes key owner owns

theorem listen_ne_none (closed : state.connClosed = true) {ticket : Nat}
    (waits : state.listener = .waiting ticket) : state.listen ≠ none := by
  simp [listen, waits, closed]

theorem changes_dropSession (changed : Hy2UdpSession)
    (found : state.sessions[index]? = some session)
    (same : changed.sessionId = session.sessionId) :
    Changes state index session { changed with closer := true }
      (state.dropSession index changed) :=
  (changes_setSession { changed with closer := true } found same).removeRoute

theorem changes_work {stop : Bool} (found : state.sessions[index]? = some session)
    (worked : state.work index session stop = some next) (busy : session.worker ≠ .looping) :
    ∃ changed, Changes state index session changed next ∧ changed.handles = session.handles ∧
      ∀ ticket, changed.worker ≠ .waiting ticket := by
  unfold work at worked
  split at worked
  · next place => exact absurd place busy
  · split at worked
    · split at worked <;> cases worked
      exact ⟨_, changes_setSession { session with worker := .leaving } found rfl, rfl, nofun⟩
    · split at worked <;> cases worked
      next raw rest _ =>
        exact ⟨_,
          changes_setSession { session with raw := rest, worker := .processing raw } found rfl,
          rfl, nofun⟩
  · cases worked
    exact ⟨_, changes_setSession { session with worker := .looping } found rfl, rfl, nofun⟩
  · cases worked
    have released := changes_setSession { session with worker := .releasing } found rfl
    exact ⟨_, released.removeRoute, rfl, nofun⟩
  · cases worked
    split
    · exact ⟨_, changes_dropSession { session with worker := .ended } found rfl, rfl, nofun⟩
    · exact ⟨_, changes_setSession { session with worker := .ended } found rfl, rfl, nofun⟩
  · cases worked

theorem not_blocked_of_ne_waiting (moves : ∀ ticket, changed.worker ≠ .waiting ticket) :
    ¬next.Blocked index changed := by
  intro blocked
  unfold Blocked at blocked
  split at blocked
  · next ticket waits => exact moves ticket waits
  · exact blocked

/-- What a step of a worker changes; the ones that come to `select!` are the ones that
may be blocked then. -/
theorem work_noneBlocked {stop : Bool} (none : state.NoneBlocked)
    (found : state.sessions[index]? = some session)
    (worked : state.work index session stop = some next)
    (ready : ¬state.EntersSelect (.work index stop)) : next.NoneBlocked := by
  by_cases looping : session.worker = .looping
  · simp only [work, looping] at worked
    cases worked
    have changes :=
      changes_setSession { session with worker := .waiting state.closed.enable } found rfl
    refine changes.noneBlocked none ?_
    rintro ⟨-, isOpen, empty, route⟩
    exact absurd ⟨session, found, looping, isOpen, empty, route⟩ ready
  · obtain ⟨changed, changes, -, moves⟩ := changes_work found worked looping
    exact changes.noneBlocked none fun blocked => absurd blocked (not_blocked_of_ne_waiting moves)

theorem work_routed {stop : Bool} (routed : Routed state)
    (found : state.sessions[index]? = some session)
    (worked : state.work index session stop = some next) : Routed next := by
  by_cases looping : session.worker = .looping
  · simp only [work, looping] at worked
    cases worked
    exact (changes_setSession { session with worker := .waiting state.closed.enable } found
      rfl).routed routed fun _ live => live
  · obtain ⟨changed, changes, handles, -⟩ := changes_work found worked looping
    exact changes.routed routed fun _ live => handles ▸ live

theorem dropHandle_noneBlocked (none : state.NoneBlocked)
    (found : state.sessions[index]? = some session)
    (dropped : state.dropHandle index session = some next) : next.NoneBlocked := by
  unfold dropHandle at dropped
  split at dropped
  · cases dropped
  · split at dropped <;> cases dropped
    · next ended =>
        refine (changes_dropSession { session with handles := 0 } found rfl).noneBlocked none ?_
        refine fun blocked => absurd blocked (not_blocked_of_ne_waiting fun ticket waits => ?_)
        exact nomatch ended.symm.trans waits
    · exact (changes_setSession { session with handles := 0 } found rfl).noneBlocked none id
  · next handles _ =>
      cases dropped
      exact (changes_setSession { session with handles := handles + 1 } found rfl).noneBlocked
        none id

/-- The last handle takes its route along exactly if the worker is gone from it. -/
theorem dropHandle_routed_iff (sound : Sound state) (routed : Routed state)
    (found : state.sessions[index]? = some session)
    (dropped : state.dropHandle index session = some next) :
    Routed next ↔ DropsLast state (.drop index) := by
  unfold dropHandle at dropped
  split at dropped
  · cases dropped
  · next last =>
      split at dropped <;> cases dropped
      · next ended =>
          have changes := changes_dropSession { session with handles := 0 } found rfl
          refine iff_of_true (changes.routed routed ?_) fun other member _ => ?_
          · rintro ⟨id, owns⟩ -
            simp only [dropSession, Hy2ConnState.removeRoute, Function.update_apply] at owns
            split at owns
            · cases owns
            · next other =>
                obtain ⟨owner, there, same⟩ := sound.keyed id index owns
                cases found.symm.trans there
                exact absurd same.symm other
          · cases found.symm.trans member
            exact .inl ended
      · next working =>
          have changes := changes_setSession { session with handles := 0 } found rfl
          constructor
          · intro after other member _
            cases found.symm.trans member
            refine .inr fun owns => ?_
            obtain ⟨owner, there, live⟩ := after session.sessionId index owns
            rw [changes.getElem?, if_pos rfl] at there
            cases there
            exact Nat.lt_irrefl 0 live
          · intro drops
            refine changes.routed routed ?_
            rintro ⟨id, owns⟩ -
            obtain ⟨owner, there, rfl⟩ := sound.keyed id index owns
            cases found.symm.trans there
            rcases drops session found last with ended | unrouted
            · exact absurd ended working
            · exact absurd owns unrouted
  · next handles many =>
      cases dropped
      have changes := changes_setSession { session with handles := handles + 1 } found rfl
      refine iff_of_true (changes.routed routed fun _ _ => Nat.succ_pos _) ?_
      intro other member last
      cases found.symm.trans member
      omega

theorem route_cases (state : Hy2ConnState) (data : Bytes) : state.route data = state ∨
    ∃ index session, Changes state index session
      { session with raw := session.raw ++ [data] } (state.route data) := by
  unfold route
  split
  · split
    · exact .inl rfl
    · split
      · exact .inl rfl
      · next session found =>
          split
          · exact .inr ⟨_, session, changes_setSession _ found rfl⟩
          · exact .inl rfl
  · exact .inl rfl

theorem Sound.route (sound : Sound state) (data : Bytes) : Sound (state.route data) := by
  rcases route_cases state data with same | ⟨index, session, changes⟩
  · exact same.symm ▸ sound
  · exact changes.sound sound fun ticket waits =>
      sound.issued session (List.mem_of_getElem? changes.found) ticket waits

theorem route_noneBlocked (none : state.NoneBlocked) (data : Bytes) :
    (state.route data).NoneBlocked := by
  rcases route_cases state data with same | ⟨index, session, changes⟩
  · exact same.symm ▸ none
  · refine changes.noneBlocked none fun blocked => ?_
    unfold Blocked at blocked
    split at blocked
    · exact absurd blocked.2.2.1 (List.append_ne_nil_of_right_ne_nil _ (List.cons_ne_nil _ _))
    · exact blocked.elim

theorem routed_route (routed : Routed state) (data : Bytes) : Routed (state.route data) := by
  rcases route_cases state data with same | ⟨index, session, changes⟩
  · exact same.symm ▸ routed
  · exact changes.routed routed fun _ => id

theorem Sound.noneBlocked_notify (sound : Sound state) {listener : DatagramListener} :
    NoneBlocked { state with closed := state.closed.notifyWaiters, listener } := by
  intro index session found blocked
  unfold Blocked at blocked
  split at blocked
  · next ticket waits =>
      exact blocked.1 (sound.issued session (List.mem_of_getElem? found) ticket waits).woken
  · exact blocked

theorem listen_noneBlocked (sound : Sound state) (none : state.NoneBlocked)
    (listened : state.listen = some next) : next.NoneBlocked := by
  unfold listen at listened
  split at listened
  · cases listened
    exact none
  · split at listened <;> cases listened
    exact none
  · next data _ =>
      cases listened
      exact route_noneBlocked none data
  · cases listened
    exact sound.noneBlocked_notify
  · cases listened

theorem listen_routed (routed : Routed state) (listened : state.listen = some next) :
    Routed next := by
  unfold listen at listened
  split at listened
  · cases listened
    exact routed
  · split at listened <;> cases listened
    exact routed
  · next data _ =>
      cases listened
      exact routed_route routed data
  · cases listened
    exact routed
  · cases listened

theorem Sound.listen (sound : Sound state) (listened : state.listen = some next) : Sound next := by
  unfold Hy2ConnState.listen at listened
  split at listened
  · cases listened
    exact ⟨sound.issued, sound.keyed⟩
  · split at listened <;> cases listened
    exact ⟨sound.issued, sound.keyed⟩
  · next data _ =>
      cases listened
      exact ⟨(sound.route data).issued, (sound.route data).keyed⟩
  · cases listened
    exact ⟨fun session member ticket waits =>
      (sound.issued session member ticket waits).notifyWaiters,
      sound.keyed⟩
  · cases listened

theorem Sound.work {stop : Bool} (sound : Sound state)
    (found : state.sessions[index]? = some session)
    (worked : state.work index session stop = some next) : Sound next := by
  by_cases looping : session.worker = .looping
  · simp only [Hy2ConnState.work, looping] at worked
    cases worked
    refine
      (changes_setSession { session with worker := .waiting state.closed.enable } found rfl).sound
      sound ?_
    rintro _ ⟨⟩
    exact Notify.issued_enable _
  · obtain ⟨changed, changes, -, moves⟩ := changes_work found worked looping
    exact changes.sound sound fun ticket waits => absurd waits (moves ticket)

theorem Sound.dropHandle (sound : Sound state) (found : state.sessions[index]? = some session)
    (dropped : state.dropHandle index session = some next) : Sound next := by
  have issued := sound.issued session (List.mem_of_getElem? found)
  unfold Hy2ConnState.dropHandle at dropped
  split at dropped
  · cases dropped
  · split at dropped <;> cases dropped
    · exact (changes_dropSession { session with handles := 0 } found rfl).sound sound issued
    · exact (changes_setSession { session with handles := 0 } found rfl).sound sound issued
  · next handles _ =>
      cases dropped
      exact
        (changes_setSession { session with handles := handles + 1 } found rfl).sound sound issued

theorem Sound.step (sound : Sound state) (taken : state.step event = some next) : Sound next := by
  cases event with
  | connectPacket =>
      simp only [Hy2ConnState.step] at taken
      split at taken <;> cases taken
      refine ⟨Pool.forall_start sound.issued nofun, fun id index owns => ?_⟩
      simp only [Function.update_apply] at owns
      split at owns
      · next same =>
          cases owns
          exact ⟨_, List.getElem?_concat_length, same.symm⟩
      · obtain ⟨owner, found, same⟩ := sound.keyed id index owns
        exact ⟨owner, Pool.getElem?_start found, same⟩
  | clone index =>
      obtain ⟨session, found, cloned⟩ := Option.bind_eq_some_iff.mp taken
      split at cloned <;> cases cloned
      exact (changes_setSession { session with handles := session.handles + 1 } found rfl).sound
        sound (sound.issued session (List.mem_of_getElem? found))
  | drop index =>
      obtain ⟨session, found, dropped⟩ := Option.bind_eq_some_iff.mp taken
      exact sound.dropHandle found dropped
  | closeSession index =>
      obtain ⟨session, found, rfl⟩ := Option.map_eq_some_iff.mp taken
      exact (changes_setSession { session with closer := true } found rfl).sound sound
        (sound.issued session (List.mem_of_getElem? found))
  | close =>
      cases taken
      exact ⟨fun session member ticket waits =>
        (sound.issued session member ticket waits).notifyWaiters, sound.keyed⟩
  | closeConn | datagram =>
      simp only [Hy2ConnState.step] at taken
      split at taken <;> cases taken
      exact ⟨sound.issued, sound.keyed⟩
  | loseConn =>
      cases taken
      exact ⟨sound.issued, sound.keyed⟩
  | listener => exact sound.listen taken
  | abort =>
      simp only [Hy2ConnState.step] at taken
      split at taken
      · split at taken <;> cases taken <;> exact ⟨sound.issued, sound.keyed⟩
      · cases taken
  | work index stop =>
      obtain ⟨session, found, worked⟩ := Option.bind_eq_some_iff.mp taken
      exact sound.work found worked

theorem connect_noneBlocked (none : state.NoneBlocked)
    (taken : state.step .connectPacket = some next) : next.NoneBlocked := by
  simp only [step] at taken
  split at taken <;> cases taken
  intro index session found blocked
  rcases Pool.getElem?_concat_cases found with earlier | ⟨rfl, rfl⟩
  · refine none index session earlier ?_
    obtain ⟨key, handles, closer, raw, worker⟩ := session
    cases worker with
    | waiting ticket =>
        obtain ⟨unwoken, isOpen, empty, routed⟩ := blocked
        refine ⟨unwoken, isOpen, empty, ?_⟩
        simp only [Function.update_apply] at routed
        split at routed
        · cases routed
          obtain ⟨bound, -⟩ := List.getElem?_eq_some_iff.mp earlier
          exact absurd bound (Nat.lt_irrefl _)
        · exact routed
    | looping | processing | leaving | releasing | ended => exact blocked
  · exact blocked

theorem connect_routed (routed : Routed state) (taken : state.step .connectPacket = some next) :
    Routed next := by
  simp only [step] at taken
  split at taken <;> cases taken
  intro id index owns
  simp only [Function.update_apply] at owns
  split at owns
  · cases owns
    exact ⟨_, List.getElem?_concat_length, Nat.one_pos⟩
  · obtain ⟨owner, found, live⟩ := routed id index owns
    exact ⟨owner, Pool.getElem?_start found, live⟩

theorem noneBlocked_of_notifies (sound : Sound state) (notifies : state.Notifies event)
    (taken : state.step event = some next) : next.NoneBlocked := by
  cases event with
  | close =>
      cases taken
      exact @Sound.noneBlocked_notify state sound state.listener
  | listener =>
      change state.listen = some next at taken
      rw [listen, show state.listener = .notifying from notifies] at taken
      cases taken
      exact sound.noneBlocked_notify
  | connectPacket | clone | drop | closeSession | closeConn | loseConn | datagram | abort | work =>
      cases notifies

theorem noneBlocked_step (sound : Sound state) (none : state.NoneBlocked)
    (ready : ¬state.EntersSelect event) (taken : state.step event = some next) :
    next.NoneBlocked := by
  cases event with
  | connectPacket => exact connect_noneBlocked none taken
  | clone index =>
      obtain ⟨session, found, cloned⟩ := Option.bind_eq_some_iff.mp taken
      split at cloned <;> cases cloned
      exact (changes_setSession { session with handles := session.handles + 1 } found
        rfl).noneBlocked none id
  | drop index =>
      obtain ⟨session, found, dropped⟩ := Option.bind_eq_some_iff.mp taken
      exact dropHandle_noneBlocked none found dropped
  | closeSession index =>
      obtain ⟨session, found, rfl⟩ := Option.map_eq_some_iff.mp taken
      refine (changes_setSession { session with closer := true } found rfl).noneBlocked none
        fun blocked => ?_
      unfold Blocked at blocked
      split at blocked
      · cases blocked.2.1
      · exact blocked.elim
  | close =>
      have notifies : state.Notifies .close := trivial
      exact noneBlocked_of_notifies sound notifies taken
  | closeConn | datagram =>
      simp only [step] at taken
      split at taken <;> cases taken
      exact none
  | loseConn =>
      cases taken
      exact none
  | listener => exact listen_noneBlocked sound none taken
  | abort =>
      simp only [step] at taken
      split at taken
      · split at taken <;> cases taken <;> exact none
      · cases taken
  | work index stop =>
      obtain ⟨session, found, worked⟩ := Option.bind_eq_some_iff.mp taken
      exact work_noneBlocked none found worked ready

theorem routed_step_iff (sound : Sound state) (routed : Routed state)
    (taken : state.step event = some next) : Routed next ↔ DropsLast state event := by
  cases event with
  | connectPacket => exact iff_of_true (connect_routed routed taken) trivial
  | clone index =>
      obtain ⟨session, found, cloned⟩ := Option.bind_eq_some_iff.mp taken
      split at cloned <;> cases cloned
      have changes :=
        changes_setSession { session with handles := session.handles + 1 } found rfl
      exact iff_of_true (changes.routed routed fun _ _ => Nat.succ_pos _) trivial
  | drop index =>
      obtain ⟨session, found, dropped⟩ := Option.bind_eq_some_iff.mp taken
      exact dropHandle_routed_iff sound routed found dropped
  | closeSession index =>
      obtain ⟨session, found, rfl⟩ := Option.map_eq_some_iff.mp taken
      have changes := changes_setSession { session with closer := true } found rfl
      exact iff_of_true (changes.routed routed fun _ => id) trivial
  | close | loseConn =>
      cases taken
      exact iff_of_true routed trivial
  | closeConn | datagram =>
      simp only [step] at taken
      split at taken <;> cases taken
      exact iff_of_true routed trivial
  | listener => exact iff_of_true (listen_routed routed taken) trivial
  | abort =>
      refine iff_of_true ?_ trivial
      simp only [step] at taken
      split at taken
      · split at taken <;> cases taken <;> exact routed
      · cases taken
  | work index stop =>
      obtain ⟨session, found, worked⟩ := Option.bind_eq_some_iff.mp taken
      exact iff_of_true (work_routed routed found worked) trivial

theorem noneBlocked_new : NoneBlocked new := fun _ _ => nofun

theorem routed_new : Routed new := nofun

/-- In every run in which `closed` is notified again after a worker has entered
`select!`, before the connection is closed and nothing is left that could notify it, the
close reaches every task; and a route goes with the last handle exactly in the runs that
drop the last handle of a session after its route. -/
theorem close_reachesAll {events : List Hy2Event} {final : Hy2ConnState}
    (ran : Machine.run step new events = some final) :
    (Machine.Answered step EntersSelect Notifies Over new events →
      Machine.Throughout step ReachesAll new events) ∧
    (Machine.Throughout step Routed new events ↔ Machine.Within step DropsLast new events) := by
  constructor
  · intro answered
    have reaches := Machine.throughout_of_answered Sound
      (fun sound taken => sound.step taken)
      (fun sound notifies taken => noneBlocked_of_notifies sound notifies taken)
      (fun sound none ready taken => noneBlocked_step sound none ready taken) sound_new
      (.inl noneBlocked_new) answered
    exact Machine.throughout_mono (fun worker => ⟨worker, fun closed _ => listen_ne_none closed⟩)
      reaches
  · exact Machine.throughout_iff_within Sound Routed (fun sound _ taken => sound.step taken)
      routed_step_iff sound_new routed_new ran

/-- A session whose worker is waiting when the connection is closed; its handle is
dropped after the worker has left. -/
def closedInTime : List Hy2Event :=
  [.connectPacket, .work 0 true, .listener, .close, .closeConn, .work 0 true, .work 0 true,
    .listener, .listener, .work 0 true, .drop 0]

theorem close_closedInTime :
    Machine.Throughout step ReachesAll new closedInTime ∧
      Machine.Throughout step Routed new closedInTime :=
  ⟨(close_reachesAll rfl).1 (by decide), (close_reachesAll rfl).2.mpr (by decide)⟩

/-- The worker has not come to wait yet when `closed` is notified for the last
time, and then waits for good; and the last handle is dropped while the worker
waits, and the route stays. -/
theorem close_missed :
    (∃ final, Machine.run step new
        [.connectPacket, .listener, .close, .closeConn, .listener, .listener, .work 0 true] =
          some final ∧ final.Over ∧ ¬final.NoneBlocked) ∧
      ∃ final, Machine.run step new [.connectPacket, .work 0 true, .drop 0] = some final ∧
        ¬final.Routed := by
  refine ⟨⟨_, rfl, by decide, by decide⟩, _, rfl, fun routed => ?_⟩
  obtain ⟨session, found, live⟩ := routed 1 0 rfl
  cases found
  exact Nat.lt_irrefl 0 live

end Hy2ConnState

end Hysteria2

end QuicProxy
