import QuicProxy.Proxy.Anytls.Session

namespace QuicProxy

/-! The invariant of an AnyTLS session that has not failed, and the operations
that keep it. -/

structure StreamHandle.Quiet (stream : StreamHandle) : Prop where
  data : ∀ event ∈ stream.queue, ∃ bytes, event = .data bytes
  notFin : stream.finReceived = false

def ReadLoop.Running : ReadLoop → Prop
  | reading => True
  | delivering _ _ _ => True
  | _ => False

def WriteLoop.Running : WriteLoop → Prop
  | running _ _ => True
  | _ => False

namespace Session

/-- A stream that somebody uses, and that has not ended by itself. -/
structure InUse (session : Session) (handle : Nat) (stream : StreamHandle) : Prop where
  found : session.handles[handle]? = some stream
  live : stream.live = true
  open' : stream.ended = false

theorem InUse.of_handles {session next : Session} {handle : Nat} {stream : StreamHandle}
    (inUse : next.InUse handle stream) (same : next.handles = session.handles) :
    session.InUse handle stream :=
  ⟨same ▸ inUse.found, inUse.live, inUse.open'⟩

def Foreign (session : Session) (handle : Nat) (streamId : UInt32) : Prop :=
  ∃ other stream, other ≠ handle ∧ session.InUse other stream ∧
    session.streams.lookup streamId = some (.active other)

/-! The invariant. -/

/-- A session that has not failed: streams in use are registered and quiet, and
both loops run until the closer is closed, which leaves no stream in use. -/
structure Sound (session : Session) : Prop where
  registered : ∀ handle stream, session.InUse handle stream →
    session.streams.lookup stream.streamId = some (.active handle)
  quiet : ∀ handle stream, session.InUse handle stream → stream.Quiet
  idle : session.closed = true → ∀ handle stream, ¬session.InUse handle stream
  reading : session.closed = false → session.readLoop.Running
  writing : session.closed = false → session.writeLoop.Running

/-- Every stream in use is one that was in use before, with its id, still quiet
and still registered. -/
structure Calm (session next : Session) : Prop where
  streams : ∀ handle stream', next.InUse handle stream' →
    ∃ stream, session.InUse handle stream ∧ stream'.streamId = stream.streamId ∧
      (stream.Quiet → stream'.Quiet) ∧
        (session.streams.lookup stream.streamId = some (.active handle) →
          next.streams.lookup stream.streamId = some (.active handle))
  closed : next.closed = session.closed
  reading : session.readLoop.Running → next.readLoop.Running
  writing : session.writeLoop.Running → next.writeLoop.Running

theorem Calm.refl (session : Session) : Calm session session where
  streams _ stream inUse := ⟨stream, inUse, rfl, id, id⟩
  closed := rfl
  reading := id
  writing := id

theorem Calm.trans {first second third : Session} (before : Calm first second)
    (after : Calm second third) : Calm first third where
  streams handle stream'' inUse'' := by
    obtain ⟨stream', inUse', id', quiet', registered'⟩ := after.streams handle stream'' inUse''
    obtain ⟨stream, inUse, id, quiet, registered⟩ := before.streams handle stream' inUse'
    rw [id] at registered'
    exact ⟨stream, inUse, id'.trans id, quiet' ∘ quiet, registered' ∘ registered⟩
  closed := after.closed.trans before.closed
  reading := after.reading ∘ before.reading
  writing := after.writing ∘ before.writing

theorem Calm.sound {session next : Session} (calm : Calm session next)
    (sound : session.Sound) : next.Sound where
  registered handle stream' inUse' := by
    obtain ⟨stream, inUse, id, _, registered⟩ := calm.streams handle stream' inUse'
    rw [id]
    exact registered (sound.registered handle stream inUse)
  quiet handle stream' inUse' := by
    obtain ⟨stream, inUse, _, quiet, _⟩ := calm.streams handle stream' inUse'
    exact quiet (sound.quiet handle stream inUse)
  idle closed handle stream' inUse' := by
    obtain ⟨stream, inUse, _⟩ := calm.streams handle stream' inUse'
    exact sound.idle (calm.closed ▸ closed) handle stream inUse
  reading open' := calm.reading (sound.reading (calm.closed ▸ open'))
  writing open' := calm.writing (sound.writing (calm.closed ▸ open'))

/-! Calm operations. -/

theorem calm_of_same {session next : Session} (streams : next.streams = session.streams)
    (handles : next.handles = session.handles) (closed : next.closed = session.closed)
    (reading : session.readLoop.Running → next.readLoop.Running)
    (writing : session.writeLoop.Running → next.writeLoop.Running) :
    Calm session next where
  streams _ stream inUse :=
    ⟨stream, inUse.of_handles handles, rfl, id, fun found => streams ▸ found⟩
  closed := closed
  reading := reading
  writing := writing

theorem calm_modifyHandle (session : Session) (handle : Nat)
    {change : StreamHandle → StreamHandle}
    (keeps : ∀ stream, session.handles[handle]? = some stream →
      (change stream).live = true → (change stream).ended = false →
        stream.live = true ∧ stream.ended = false ∧
          (change stream).streamId = stream.streamId ∧
            (stream.Quiet → (change stream).Quiet)) :
    Calm session (session.modifyHandle handle change) where
  streams other stream' inUse' := by
    obtain ⟨found, live, open'⟩ := inUse'
    simp only [modifyHandle, List.getElem?_modify] at found
    obtain ⟨stream, there, same⟩ := Option.map_eq_some_iff.mp found
    split at same
    · next equal =>
        subst equal same
        obtain ⟨wasLive, wasOpen, sameId, quiet⟩ := keeps stream there live open'
        exact ⟨stream, ⟨there, wasLive, wasOpen⟩, sameId, quiet, id⟩
    · subst same
      exact ⟨stream, ⟨there, live, open'⟩, rfl, id, id⟩
  closed := rfl
  reading := id
  writing := id

theorem trySend_same (session : Session) (frame : Frame) :
    (session.trySend frame).streams = session.streams ∧
      (session.trySend frame).handles = session.handles := by
  unfold trySend
  split
  · split <;> exact ⟨rfl, rfl⟩
  · exact ⟨rfl, rfl⟩

theorem calm_trySend (session : Session) (frame : Frame) :
    Calm session (session.trySend frame) := by
  unfold trySend
  split
  · split
    · exact calm_of_same rfl rfl rfl id id
    · exact .refl session
  · exact .refl session

theorem calm_removeStream {session : Session} {streamId : UInt32}
    (free : ∀ handle stream, session.InUse handle stream →
      session.streams.lookup streamId ≠ some (.active handle)) :
    Calm session (session.removeStream streamId) where
  streams handle stream inUse := by
    have was : session.InUse handle stream := inUse.of_handles rfl
    refine ⟨stream, was, rfl, id, fun registered => ?_⟩
    have other : stream.streamId ≠ streamId := by
      intro same
      exact free handle stream was (same ▸ registered)
    exact (AList.lookup_erase_ne other).trans registered
  closed := rfl
  reading := id
  writing := id

theorem calm_ended (session : Session) (handle : Nat) :
    Calm session (session.modifyHandle handle fun stream => { stream with ended := true }) := by
  apply calm_modifyHandle
  intro stream _ _ open'
  cases open'

theorem calm_supersede (session : Session) (streamId : UInt32) :
    Calm session (session.supersede streamId) := by
  unfold supersede
  split
  · exact calm_ended session _
  · exact .refl session

theorem not_inUse_modifyHandle {session : Session} {handle : Nat}
    {change : StreamHandle → StreamHandle} (ends : ∀ stream, (change stream).ended = true)
    (stream : StreamHandle) : ¬(session.modifyHandle handle change).InUse handle stream := by
  rintro ⟨found, _, open'⟩
  simp only [modifyHandle, List.getElem?_modify] at found
  obtain ⟨before, _, rfl⟩ := Option.map_eq_some_iff.mp found
  simp [ends] at open'

theorem free_supersede (session : Session) (streamId : UInt32) :
    ∀ handle stream, (session.supersede streamId).InUse handle stream →
      (session.supersede streamId).streams.lookup streamId ≠ some (.active handle) := by
  intro handle stream inUse registered
  cases found : session.streams.lookup streamId with
  | none =>
      simp only [supersede, found] at registered
      cases registered
  | some state =>
      cases state with
      | pending | waitingUotRequest =>
          simp only [supersede, found] at registered
          cases registered
      | active other =>
          simp only [supersede, found] at inUse registered
          cases found.symm.trans registered
          exact not_inUse_modifyHandle (fun _ => rfl) stream inUse

theorem calm_insertStream (session : Session) (streamId : UInt32) (state : StreamState) :
    Calm session (session.insertStream streamId state) := by
  refine (calm_supersede session streamId).trans ⟨?_, rfl, id, id⟩
  intro handle stream inUse
  have was : (session.supersede streamId).InUse handle stream := inUse.of_handles rfl
  refine ⟨stream, was, rfl, id, fun registered => ?_⟩
  have other : stream.streamId ≠ streamId := by
    intro same
    exact free_supersede session streamId handle stream was (same ▸ registered)
  exact (AList.lookup_insert_ne other).trans registered

theorem calm_refuseStream (session : Session) (streamId : UInt32)
    (free : ∀ handle, session.streams.lookup streamId ≠ some (.active handle)) :
    Calm session (session.refuseStream streamId) := by
  refine (calm_trySend session ⟨streamId, .fin, []⟩).trans (calm_removeStream ?_)
  intro handle stream _
  rw [(trySend_same session _).1]
  exact free handle

theorem calm_endStream (session : Session) (streamId : UInt32)
    (event : Option StreamEvent) : Calm session (session.endStream streamId event) := by
  cases found : session.streams.lookup streamId with
  | none =>
      simp only [endStream, found]
      exact calm_removeStream fun handle stream _ registered => by
        rw [found] at registered; cases registered
  | some state =>
      cases state with
      | pending | waitingUotRequest =>
          simp only [endStream, found]
          exact calm_removeStream fun handle stream _ registered => by
            rw [found] at registered; cases registered
      | active handle =>
          simp only [endStream, found]
          have ends : ∀ stream : StreamHandle,
              (if stream.queue.length < streamQueueCapacity then
                { stream with queue := stream.queue ++ event.toList, ended := true }
              else { stream with ended := true }).ended = true := by
            intro stream
            split <;> rfl
          refine (calm_modifyHandle session handle ?_).trans (calm_removeStream ?_)
          · intro stream _ _ open'
            rw [ends] at open'
            cases open'
          · intro other stream inUse registered
            cases found.symm.trans registered
            exact not_inUse_modifyHandle ends stream inUse

theorem calm_removeOwn {session : Session} {handle : Nat} {streamId : UInt32}
    (own : ∀ stream, session.handles[handle]? = some stream →
      stream.live = false ∧ (stream.udp = true → ¬session.Foreign handle streamId)) :
    Calm session (session.removeOwn handle streamId) := by
  unfold removeOwn
  split
  · next stream found =>
      obtain ⟨dead, alone⟩ := own stream found
      split
      · next udp =>
          refine calm_removeStream fun other inUseStream inUse registered => ?_
          refine alone udp ⟨other, inUseStream, ?_, inUse, registered⟩
          rintro rfl
          cases found.symm.trans inUse.found
          exact absurd inUse.live (by simp [dead])
      · exact (calm_supersede session streamId).trans
          (calm_removeStream (free_supersede session streamId))
  · exact .refl session

theorem calm_sendData {session : Session} {streamId : UInt32} {handle : Nat}
    (alone : ∀ stream, session.handles[handle]? = some stream → stream.udp = true →
      ¬session.Foreign handle streamId) (data : Bytes) :
    Calm session (session.sendData streamId handle data) := by
  unfold sendData
  split
  · exact .refl session
  · next stream found =>
      split
      · split
        · apply calm_modifyHandle
          intro stream _ live open'
          refine ⟨live, open', rfl, fun quiet => ⟨?_, quiet.notFin⟩⟩
          intro event member
          rcases List.mem_append.mp member with old | new
          · exact quiet.data event old
          · exact ⟨data, List.mem_singleton.mp new⟩
        · exact calm_of_same rfl rfl rfl (fun _ => trivial) id
      · next dead =>
          apply calm_removeOwn
          intro other there
          cases found.symm.trans there
          exact ⟨by simpa using dead, alone stream found⟩

theorem sound_of_idle {session : Session} (closed : session.closed = true)
    (none : ∀ handle stream, ¬session.InUse handle stream) : session.Sound where
  registered handle stream inUse := absurd inUse (none handle stream)
  quiet handle stream inUse := absurd inUse (none handle stream)
  idle _ := none
  reading open' := absurd (closed.symm.trans open') (by decide)
  writing open' := absurd (closed.symm.trans open') (by decide)

theorem Sound.openStream {session : Session} (sound : session.Sound)
    (open' : session.closed = false) {stream : StreamHandle} (quiet : stream.Quiet) :
    (session.openStream stream).Sound := by
  have calm := calm_insertStream session stream.streamId (.active session.handles.length)
  have inserted := calm.sound sound
  have length : (session.insertStream stream.streamId
      (.active session.handles.length)).handles.length = session.handles.length := by
    simp only [insertStream, supersede]
    split
    · exact List.length_modify ..
    · rfl
  have either : ∀ handle other, (session.openStream stream).InUse handle other →
      (session.insertStream stream.streamId (.active session.handles.length)).InUse handle
          other ∨ handle = session.handles.length ∧ other = stream := by
    rintro handle other ⟨found, live, notOver⟩
    simp only [Session.openStream] at found
    rcases Nat.lt_or_ge handle session.handles.length with old | new
    · rw [List.getElem?_append_left (by rw [length]; exact old)] at found
      exact .inl ⟨found, live, notOver⟩
    · rw [List.getElem?_append_right (by rw [length]; exact new), length] at found
      obtain ⟨index, rfl⟩ := List.getElem?_eq_some_iff.mp found
      simp only [List.length_cons, List.length_nil] at index
      have : handle = session.handles.length := by omega
      subst this
      simp
  have stillOpen : (session.openStream stream).closed = false := calm.closed.trans open'
  refine ⟨?_, ?_, ?_, fun _ => ?_, fun _ => ?_⟩
  · intro handle other inUse
    rcases either handle other inUse with old | ⟨rfl, rfl⟩
    · exact inserted.registered handle other old
    · exact AList.lookup_insert _
  · intro handle other inUse
    rcases either handle other inUse with old | ⟨rfl, rfl⟩
    · exact inserted.quiet handle other old
    · exact quiet
  · intro closed
    exact absurd (stillOpen.symm.trans closed) (by decide)
  · exact calm.reading (sound.reading open')
  · exact calm.writing (sound.writing open')

/-! Reads. -/

def ReadResult.Ended : ReadResult → Prop
  | closed _ => True
  | refused _ => True
  | _ => False

theorem recvLoop_quiet (side : SessionSide) (isConnect : Bool) {events : List StreamEvent}
    (data : ∀ event ∈ events, ∃ bytes, event = .data bytes) (buf : Bytes) :
    ¬(recvLoop side isConnect true events buf).1.Ended ∧
      (recvLoop side isConnect true events buf).2.2 ⊆ events := by
  induction events generalizing buf with
  | nil =>
      simp only [recvLoop]
      split
      · exact ⟨id, List.Subset.refl _⟩
      · exact ⟨id, List.Subset.refl _⟩
      · exact ⟨id, List.Subset.refl _⟩
  | cons event events ih =>
      obtain ⟨bytes, rfl⟩ := data event (List.mem_cons_self ..)
      simp only [recvLoop]
      split
      · exact ⟨id, List.Subset.refl _⟩
      · exact ⟨id, List.Subset.refl _⟩
      · next buf _ =>
          obtain ⟨goesOn, fewer⟩ :=
            ih (fun event member => data event (List.mem_cons_of_mem _ member)) (buf ++ bytes)
          exact ⟨goesOn, List.Subset.trans fewer (List.subset_cons_self ..)⟩

theorem readTcp_quiet {stream : StreamHandle} (quiet : stream.Quiet) (size : Nat) :
    ¬(readTcp true size stream).1.Ended ∧ (readTcp true size stream).2.Quiet := by
  unfold readTcp
  split
  · rw [if_neg (by rw [quiet.notFin]; decide)]
    split
    · next bytes queue shape =>
        refine ⟨id, fun event member => quiet.data event ?_, quiet.notFin⟩
        rw [shape]
        exact List.mem_cons_of_mem _ member
    · next queue shape =>
        obtain ⟨_, wrong⟩ := quiet.data .fin (shape ▸ List.mem_cons_self ..)
        cases wrong
    · next message queue shape =>
        obtain ⟨_, wrong⟩ := quiet.data (.synAckError message) (shape ▸ List.mem_cons_self ..)
        cases wrong
    · exact ⟨id, quiet⟩
  · exact ⟨id, quiet.data, quiet.notFin⟩

theorem readHandle_quiet (side : SessionSide) {stream : StreamHandle} (quiet : stream.Quiet)
    (size : Nat) :
    ¬(readHandle side true size stream).1.Ended ∧ (readHandle side true size stream).2.Quiet := by
  unfold readHandle
  split
  · obtain ⟨goesOn, fewer⟩ :=
      recvLoop_quiet side stream.isConnect quiet.data stream.readBuffer
    exact ⟨goesOn, fun event member => quiet.data event (fewer member), quiet.notFin⟩
  · exact readTcp_quiet quiet size

theorem readHandle_same (side : SessionSide) (sender : Bool) (size : Nat)
    (stream : StreamHandle) :
    (readHandle side sender size stream).2.streamId = stream.streamId ∧
      (readHandle side sender size stream).2.live = stream.live ∧
        (readHandle side sender size stream).2.ended = stream.ended := by
  unfold readHandle
  split
  · exact ⟨rfl, rfl, rfl⟩
  · unfold readTcp
    split
    · split
      · exact ⟨rfl, rfl, rfl⟩
      · split
        · exact ⟨rfl, rfl, rfl⟩
        · exact ⟨rfl, rfl, rfl⟩
        · exact ⟨rfl, rfl, rfl⟩
        · split <;> exact ⟨rfl, rfl, rfl⟩
    · exact ⟨rfl, rfl, rfl⟩

theorem Sound.hasSender {session : Session} (sound : session.Sound) {handle : Nat}
    {stream : StreamHandle} (inUse : session.InUse handle stream) :
    session.hasSender handle stream = true := by
  unfold Session.hasSender
  rw [sound.registered handle stream inUse]
  simp

end Session

end QuicProxy
