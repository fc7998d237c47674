import QuicProxy.Proxy.Anytls.Registry

namespace QuicProxy

/-! Who the entries in the table of a client session belong to, and when a
session that is not shared is finished. -/

/-- A client session with its `is_dead`, which only `finish` sets. -/
structure Lifetime where
  session : Session
  isDead : Bool

namespace Session

def closesWhenIdle (session : Session) : Bool :=
  match session.side with
  | .client idle => idle
  | .server => false

/-- The steps of a client that run `finish`. -/
def finishes (session : Session) : Event → Bool
  | .readTaskEnd => true
  | .writeTaskEnd => true
  | .finish => true
  | .drop handle =>
      session.closesWhenIdle && (session.user handle).any fun stream =>
        (session.dropped handle stream).streams.entries.isEmpty
  | _ => false

/-- Every entry is that of a live object, or of a connect that is running. -/
def Owned (session : Session) : Prop :=
  ∀ streamId state, session.streams.lookup streamId = some state →
    ∃ handle stream, state = .active handle ∧ session.handles[handle]? = some stream ∧
      stream.streamId = streamId ∧ stream.live = true

/-- A stream was opened, and nothing of any stream is left. -/
def Deserted (session : Session) : Prop :=
  session.handles ≠ [] ∧ ∀ (handle : Nat) (stream : StreamHandle),
    session.handles[handle]? = some stream → stream.live = false

/-- The same, but for this one. -/
def DesertedBut (session : Session) (handle : Nat) : Prop :=
  ∀ (other : Nat) (stream : StreamHandle), session.handles[other]? = some stream →
    other ≠ handle → stream.live = false

end Session

namespace Lifetime

def start (idle : Bool) (settings : Bytes) : Lifetime := ⟨.start (.client idle) settings, false⟩

def step (lifetime : Lifetime) (event : Session.Event) : Option Lifetime :=
  (lifetime.session.step event).map fun session =>
    ⟨session, lifetime.isDead || lifetime.session.finishes event⟩

/-- Registrations are owned, and a session that closes when idle is finished
once all of its streams are gone. -/
structure Orderly (lifetime : Lifetime) : Prop where
  owned : lifetime.session.Owned
  finished : lifetime.session.closesWhenIdle = true → lifetime.session.Deserted →
    lifetime.isDead = true

/-- Whoever goes without an object has lost its entry before, and does not leave
an unfinished session without streams. -/
structure Released (lifetime : Lifetime) (handle : Nat) : Prop where
  gone : ∀ stream, lifetime.session.handles[handle]? = some stream →
    lifetime.session.streams.lookup stream.streamId ≠ some (.active handle)
  finished : lifetime.session.closesWhenIdle = true → lifetime.session.DesertedBut handle →
    lifetime.isDead = true

/-- The condition on a step: a connect that is cancelled, or whose send fails
because the write loop is gone, is released. -/
def EndsReleased (lifetime : Lifetime) : Session.Event → Prop
  | .connectCancel handle => lifetime.Released handle
  | .connectSend handle => lifetime.session.writeLoop.Running ∨ lifetime.Released handle
  | _ => True

end Lifetime

namespace Session

theorem owned_of_found {session next : Session} (owned : session.Owned)
    (entries : ∀ {streamId state}, next.streams.lookup streamId = some state →
      session.streams.lookup streamId = some state)
    (found : ∀ {handle : Nat} {stream : StreamHandle}, session.handles[handle]? = some stream →
      stream.live = true → next.streams.lookup stream.streamId = some (.active handle) →
        ∃ other : StreamHandle, next.handles[handle]? = some other ∧
          other.streamId = stream.streamId ∧ other.live = true) : next.Owned := by
  intro streamId state registered
  obtain ⟨handle, stream, rfl, was, rfl, live⟩ := owned streamId state (entries registered)
  obtain ⟨other, there, same, lives⟩ := found was live registered
  exact ⟨handle, other, rfl, there, same, lives⟩

theorem Sheds.owned {session next : Session} (sheds : Sheds session next)
    (owned : session.Owned) : next.Owned := by
  refine owned_of_found owned sheds.entries fun was live _ => ?_
  obtain ⟨other, there, same⟩ := sheds.kept was
  exact ⟨other, there, congrArg (·.1) same.core, (congrArg (·.2.2.1) same.core).trans live⟩

theorem Sheds.deserted {session next : Session} (sheds : Sheds session next)
    (deserted : next.Deserted) : session.Deserted := by
  obtain ⟨nonempty, dead⟩ := deserted
  refine ⟨fun nothing => ?_, fun handle stream was => ?_⟩
  · have cores := sheds.cores
    rw [nothing] at cores
    exact nonempty (List.map_eq_nil_iff.mp cores)
  · obtain ⟨other, there, same⟩ := sheds.kept was
    exact (congrArg (·.2.2.1) same.core).symm.trans (dead handle other there)

theorem Sheds.closesWhenIdle {session next : Session} (sheds : Sheds session next) :
    next.closesWhenIdle = session.closesWhenIdle := by
  unfold Session.closesWhenIdle
  rw [sheds.side]

theorem not_deserted_of_live {session : Session} {handle : Nat} {stream : StreamHandle}
    (found : session.handles[handle]? = some stream) (live : stream.live = true) :
    ¬session.Deserted := by
  intro deserted
  rw [deserted.2 handle stream found] at live
  cases live

theorem found_kill {session : Session} {handle : Nat} {stream : StreamHandle}
    (found : session.handles[handle]? = some stream) :
    (session.kill handle).handles[handle]? = some { stream with live := false } := by
  simp [kill, modifyHandle, found]

theorem found_kill_ne {session : Session} {handle other : Nat} {stream : StreamHandle}
    (different : other ≠ handle) (found : session.handles[other]? = some stream) :
    (session.kill handle).handles[other]? = some stream := by
  simp [kill, modifyHandle, found, different.symm]

end Session

namespace Lifetime

open Session

theorem orderly_of_kept {lifetime : Lifetime} {next : Session} {isDead : Bool}
    (orderly : lifetime.Orderly) (still : lifetime.isDead = true → isDead = true)
    (entries : ∀ {streamId state}, next.streams.lookup streamId = some state →
      lifetime.session.streams.lookup streamId = some state)
    (kept : ∀ {handle : Nat} {stream : StreamHandle},
      lifetime.session.handles[handle]? = some stream →
        ∃ other : StreamHandle, next.handles[handle]? = some other ∧
          other.streamId = stream.streamId ∧ other.live = stream.live)
    (side : next.side = lifetime.session.side)
    (length : next.handles.length = lifetime.session.handles.length) :
    Orderly ⟨next, isDead⟩ := by
  constructor
  · refine owned_of_found orderly.owned entries fun was live _ => ?_
    obtain ⟨other, there, streamId, lives⟩ := kept was
    exact ⟨other, there, streamId, lives.trans live⟩
  · intro closes deserted
    refine still (orderly.finished ?_ ⟨fun nothing => ?_, fun handle stream was => ?_⟩)
    · unfold closesWhenIdle
      rw [← side]
      exact closes
    · rw [nothing] at length
      exact deserted.1 (List.length_eq_zero_iff.mp length)
    · obtain ⟨other, there, -, lives⟩ := kept was
      exact lives.symm.trans (deserted.2 handle other there)

theorem orderly_of_sheds {lifetime : Lifetime} {next : Session} {isDead : Bool}
    (orderly : lifetime.Orderly) (sheds : Sheds lifetime.session next)
    (still : lifetime.isDead = true → isDead = true) : Orderly ⟨next, isDead⟩ := by
  refine orderly_of_kept orderly still sheds.entries (fun was => ?_) sheds.side ?_
  · obtain ⟨other, there, same⟩ := sheds.kept was
    exact ⟨other, there, congrArg (·.1) same.core, congrArg (·.2.2.1) same.core⟩
  · have lengths := congrArg List.length sheds.cores
    rwa [List.length_map, List.length_map] at lengths

/-- A connect that ends leaves its session orderly exactly when it is released. -/
theorem orderly_kill_iff {lifetime : Lifetime} (orderly : lifetime.Orderly) {handle : Nat}
    {stream : StreamHandle} (connecting : lifetime.session.Connecting handle stream) :
    Orderly ⟨lifetime.session.kill handle, lifetime.isDead⟩ ↔ lifetime.Released handle := by
  have killed := found_kill connecting.found
  constructor
  · intro after
    refine ⟨fun other found registered => ?_, fun idle deserted => ?_⟩
    · obtain ⟨owner, other, same, there, -, live⟩ := after.owned _ _ registered
      cases same
      cases killed.symm.trans there
      cases live
    · refine after.finished idle ⟨fun nothing => ?_, fun other before there => ?_⟩
      · change (lifetime.session.kill handle).handles = [] at nothing
        rw [nothing] at killed
        cases killed
      · rcases found_modifyHandle there with ⟨rfl, before, -, rfl⟩ | ⟨different, was⟩
        · rfl
        · exact deserted other before was different
  · intro released
    refine ⟨?_, fun idle deserted => ?_⟩
    · refine owned_of_found orderly.owned id fun {other before} was live registered => ?_
      have different : other ≠ handle := by
        rintro rfl
        exact released.gone before was registered
      exact ⟨before, found_kill_ne different was, rfl, live⟩
    · refine released.finished idle fun other before was different => ?_
      exact deserted.2 other before (found_kill_ne different was)

theorem owned_openStream {session : Session} (owned : session.Owned) {stream : StreamHandle}
    (live : stream.live = true) : (session.openStream stream).Owned := by
  intro streamId state registered
  rcases lookup_openStream registered with ⟨rfl, rfl⟩ | ⟨-, old⟩
  · exact ⟨_, stream, rfl, opened_openStream session stream, rfl, live⟩
  · obtain ⟨handle, before, rfl, was, rfl, lives⟩ := owned _ _ old
    obtain ⟨other, there, same⟩ := kept_openStream stream was
    exact ⟨handle, other, rfl, there, congrArg (·.1) same.core,
      (congrArg (·.2.2.1) same.core).trans lives⟩

theorem orderly_openStream {session : Session} (owned : session.Owned) {stream : StreamHandle}
    (live : stream.live = true) (isDead : Bool) :
    Orderly ⟨session.openStream stream, isDead⟩ := by
  refine ⟨owned_openStream owned live, fun _ deserted => ?_⟩
  exact absurd deserted (not_deserted_of_live (opened_openStream session stream) live)

theorem lookup_dropped {session : Session} {handle : Nat} {stream : StreamHandle}
    (found : session.handles[handle]? = some stream) {streamId : UInt32} {state : StreamState}
    (registered : (session.dropped handle stream).streams.lookup streamId = some state) :
    streamId ≠ stream.streamId ∧ session.streams.lookup streamId = some state := by
  have sent := sendFin_same session stream
  have killed : ((session.sendFin stream).kill handle).handles[handle]? =
      some { stream with live := false } := found_kill (sent.2 ▸ found)
  unfold dropped removeOwn at registered
  rw [killed] at registered
  have streams : ((session.sendFin stream).kill handle).streams = session.streams := sent.1
  dsimp only at registered
  split at registered
  · rw [← streams]
    exact lookup_erase_eq_some registered
  · obtain ⟨different, old⟩ := lookup_erase_eq_some registered
    rw [← streams]
    exact ⟨different, (sheds_supersede _ stream.streamId).entries old⟩

theorem isEmpty_of_lookup {streams : AList fun _ : UInt32 => StreamState}
    (empty : ∀ streamId, streams.lookup streamId = none) : streams.entries.isEmpty = true := by
  cases shape : streams.entries with
  | nil => rfl
  | cons entry entries =>
      have member : entry.1 ∈ streams := by
        rw [AList.mem_keys, AList.keys, shape]
        exact List.mem_cons_self ..
      exact absurd member (AList.lookup_eq_none.mp (empty entry.1))

/-- The drop of an object takes its entry along, and finishes the session when it
was the last one. -/
theorem orderly_dropHandle {lifetime : Lifetime} (orderly : lifetime.Orderly) {handle : Nat}
    {stream : StreamHandle} (user : lifetime.session.user handle = some stream) :
    Orderly ⟨lifetime.session.dropHandle handle stream,
      lifetime.isDead || lifetime.session.finishes (.drop handle)⟩ := by
  obtain ⟨session, isDead⟩ := lifetime
  have found : session.handles[handle]? = some stream := found_of_user user
  have owned : (session.dropped handle stream).Owned := by
    intro streamId state registered
    obtain ⟨different, old⟩ := lookup_dropped found registered
    obtain ⟨owner, before, rfl, was, rfl, live⟩ := orderly.owned _ _ old
    have other : owner ≠ handle := by
      rintro rfl
      exact different (congrArg StreamHandle.streamId (Option.some.inj (was.symm.trans found)))
    have killed : ((session.sendFin stream).kill handle).handles[owner]? = some before :=
      found_kill_ne other ((sendFin_same session stream).2 ▸ was)
    obtain ⟨after, there, same⟩ := (sheds_removeOwn _ handle stream.streamId).kept killed
    exact ⟨owner, after, rfl, there, congrArg (·.1) same.core,
      (congrArg (·.2.2.1) same.core).trans live⟩
  have idles := sheds_closeIfIdle (session.dropped handle stream)
  rw [dropHandle_eq]
  refine ⟨idles.owned owned, fun closes deserted => ?_⟩
  have empty : ∀ streamId, (session.dropped handle stream).streams.lookup streamId = none := by
    intro streamId
    cases registered : (session.dropped handle stream).streams.lookup streamId with
    | none => rfl
    | some state =>
        obtain ⟨owner, other, -, there, -, live⟩ := owned _ _ registered
        exact absurd (idles.deserted deserted) (not_deserted_of_live there live)
  have removed : (session.dropped handle stream).closesWhenIdle =
      ((session.sendFin stream).kill handle).closesWhenIdle :=
    (sheds_removeOwn _ handle stream.streamId).closesWhenIdle
  have sent : ((session.sendFin stream).kill handle).closesWhenIdle = session.closesWhenIdle :=
    (sheds_sendFin session stream).closesWhenIdle
  have finishes : session.finishes (.drop handle) = true := by
    rw [Session.finishes, ← sent, ← removed, ← idles.closesWhenIdle, user]
    exact Bool.and_eq_true_iff.mpr ⟨closes, isEmpty_of_lookup empty⟩
  change (isDead || session.finishes (.drop handle)) = true
  rw [finishes, Bool.or_true]

theorem orderly_step_iff {lifetime next : Lifetime} {event : Session.Event} {idle : Bool}
    (client : lifetime.session.side = .client idle) (orderly : lifetime.Orderly)
    (taken : lifetime.step event = some next) :
    next.Orderly ↔ lifetime.EndsReleased event := by
  obtain ⟨session, moved, rfl⟩ := Option.map_eq_some_iff.mp taken
  obtain ⟨after, rfl, step⟩ := clientStep_cases client moved
  have failed {isDead : Bool} :
      Orderly ⟨{ after with
          failed := lifetime.session.failed || lifetime.session.fails event }, isDead⟩ ↔
        Orderly ⟨after, isDead⟩ :=
    ⟨fun orderly => ⟨orderly.owned, orderly.finished⟩,
      fun orderly => ⟨orderly.owned, orderly.finished⟩⟩
  rw [failed]
  cases event with
  | connect udp target =>
      cases step
      have numbered : Session.Owned { lifetime.session with
          nextStreamId := lifetime.session.nextStreamId + 1 } := orderly.owned
      exact iff_of_true (orderly_openStream numbered rfl _) trivial
  | connectSend handle =>
      change Orderly ⟨after, lifetime.isDead || false⟩ ↔ _
      rw [Bool.or_false]
      obtain ⟨stream, connecting, ⟨running, frame, rest, -, rfl⟩ | ⟨stopped, rfl⟩⟩ :=
        connectNext_cases step
      · refine iff_of_true ?_ (Or.inl running)
        refine orderly_of_kept orderly id id (fun was => ?_) rfl (List.length_modify ..)
        refine ⟨_, kept_modifyHandle handle _ was, ?_⟩
        split <;> exact ⟨rfl, rfl⟩
      · rw [orderly_kill_iff orderly connecting]
        exact ⟨Or.inr, fun either => either.resolve_left stopped⟩
  | connectCancel handle =>
      change Orderly ⟨after, lifetime.isDead || false⟩ ↔ _
      rw [Bool.or_false]
      obtain ⟨stream, connecting, rfl⟩ := connectDrop_cases step
      exact orderly_kill_iff orderly connecting
  | drop handle =>
      obtain ⟨stream, user, rfl⟩ := step
      exact iff_of_true (orderly_dropHandle orderly user) trivial
  | _ =>
      refine iff_of_true (orderly_of_sheds orderly step fun dead => ?_) trivial
      rw [dead, Bool.true_or]

/-- Every registration is owned, and an idle session finished, throughout exactly
the runs in which connects that end without an object are released. -/
theorem orderly_iff (idle : Bool) (settings : Bytes) (events : List Session.Event)
    (final : Lifetime) (ran : Machine.run step (start idle settings) events = some final) :
    Machine.Throughout step Orderly (start idle settings) events ↔
      Machine.Within step EndsReleased (start idle settings) events := by
  refine Machine.throughout_iff_within (fun lifetime => lifetime.session.side = .client idle)
    Orderly ?_ (fun client orderly taken => orderly_step_iff client orderly taken) rfl ?_ ran
  · intro lifetime event next client _ taken
    obtain ⟨session, moved, rfl⟩ := Option.map_eq_some_iff.mp taken
    exact side_step client moved
  · refine ⟨fun streamId state registered => ?_, fun _ deserted => absurd rfl deserted.1⟩
    have empty : (start idle settings).session.streams.lookup streamId = none :=
      AList.lookup_empty streamId
    rw [empty] at registered
    cases registered

def connectThenDrop : List Session.Event :=
  [.connect false (.ip (.v4 ⟨192, 0, 2, 1⟩ 443)), .connectSend 0, .connectSend 0, .drop 0]

theorem orderly_dropped :
    ∃ final, Machine.run step (start true []) connectThenDrop = some final ∧
      final.isDead = true ∧ Machine.Throughout step Orderly (start true []) connectThenDrop := by
  refine ⟨_, rfl, rfl, (orderly_iff true [] connectThenDrop _ rfl).mpr ?_⟩
  refine (Machine.within_cons_iff rfl).mpr ⟨trivial, ?_⟩
  refine (Machine.within_cons_iff rfl).mpr ⟨Or.inl trivial, ?_⟩
  refine (Machine.within_cons_iff rfl).mpr ⟨Or.inl trivial, ?_⟩
  exact (Machine.within_cons_iff rfl).mpr ⟨trivial, trivial⟩

/-- A connect that is cancelled, or that finds the write loop gone, leaves its
entry behind; a session that is not shared then never finishes. -/
theorem connect_leaks_entry :
    (∃ final, Machine.run step (start true [])
        [.connect false (.ip (.v4 ⟨192, 0, 2, 1⟩ 443)), .connectSend 0, .connectCancel 0] =
          some final ∧
      ¬final.session.Owned ∧ final.session.Deserted ∧ final.isDead = false) ∧
    ∃ final, Machine.run step (start false [])
        [.finish, .writeCloser, .writeTaskEnd,
          .connect false (.ip (.v4 ⟨192, 0, 2, 1⟩ 443)), .connectSend 0] = some final ∧
      ¬final.session.Owned := by
  constructor
  · refine ⟨_, rfl, fun owned => ?_, ⟨List.cons_ne_nil _ _, ?_⟩, rfl⟩
    · obtain ⟨handle, stream, same, found, -, live⟩ := owned 1 _ rfl
      cases same
      cases found
      cases live
    · intro handle stream found
      match handle with
      | 0 =>
          cases found
          rfl
      | handle + 1 => cases found
  · refine ⟨_, rfl, fun owned => ?_⟩
    obtain ⟨handle, stream, same, found, -, live⟩ := owned 1 _ rfl
    cases same
    cases found
    cases live

end Lifetime

end QuicProxy
