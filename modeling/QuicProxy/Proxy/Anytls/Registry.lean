import QuicProxy.Proxy.Anytls.Isolation

namespace QuicProxy

/-! The table of streams of a client session: which steps register a stream, and
which can only lose entries. -/

/-- What the table depends on in a stream object. -/
def StreamHandle.core (stream : StreamHandle) : UInt32 × Bool × Bool × List Frame :=
  (stream.streamId, stream.udp, stream.live, stream.connect)

/-- The object is still the same one, and has not forgotten a Fin that it sent. -/
structure StreamHandle.Ages (stream other : StreamHandle) : Prop where
  core : other.core = stream.core
  finSent : stream.finSent = true → other.finSent = true

/-- The object goes on, or is gone. -/
structure StreamHandle.Continues (stream other : StreamHandle) : Prop where
  streamId : other.streamId = stream.streamId
  udp : other.udp = stream.udp
  finSent : stream.finSent = true → other.finSent = true
  live : other.live = true → stream.live = true

theorem StreamHandle.Ages.continues {stream other : StreamHandle} (ages : stream.Ages other) :
    stream.Continues other where
  streamId := congrArg (·.1) ages.core
  udp := congrArg (·.2.1) ages.core
  finSent := ages.finSent
  live := fun live => (congrArg (·.2.2.1) ages.core).symm.trans live

theorem StreamHandle.Continues.trans_ages {stream other third : StreamHandle}
    (before : stream.Continues other) (after : other.Ages third) : stream.Continues third where
  streamId := after.continues.streamId.trans before.streamId
  udp := after.continues.udp.trans before.udp
  finSent := after.finSent ∘ before.finSent
  live := before.live ∘ after.continues.live

namespace Session

/-- The table has lost entries at most, all of them if the write loop has just
finished, and the objects are as alive as before. -/
structure Sheds (session next : Session) : Prop where
  entries : ∀ {streamId state}, next.streams.lookup streamId = some state →
    session.streams.lookup streamId = some state
  cores : next.handles.map StreamHandle.core = session.handles.map StreamHandle.core
  finSent : ∀ {handle : Nat} {stream other : StreamHandle},
    session.handles[handle]? = some stream → next.handles[handle]? = some other →
      stream.finSent = true → other.finSent = true
  side : next.side = session.side
  finished : next.writeLoop = .finished →
    session.writeLoop = .finished ∨ ∀ streamId, next.streams.lookup streamId = none

namespace Sheds

variable {session next : Session}

theorem kept (sheds : Sheds session next) {handle : Nat} {stream : StreamHandle}
    (there : session.handles[handle]? = some stream) :
    ∃ other, next.handles[handle]? = some other ∧ stream.Ages other := by
  have cores := congrArg (·[handle]?) sheds.cores
  simp only [List.getElem?_map, there] at cores
  obtain ⟨other, found, core⟩ := Option.map_eq_some_iff.mp cores
  exact ⟨other, found, core, sheds.finSent there found⟩

theorem found (sheds : Sheds session next) {handle : Nat} {other : StreamHandle}
    (there : next.handles[handle]? = some other) :
    ∃ stream, session.handles[handle]? = some stream ∧ stream.Ages other := by
  have cores := congrArg (·[handle]?) sheds.cores
  simp only [List.getElem?_map, there] at cores
  obtain ⟨stream, found, core⟩ := Option.map_eq_some_iff.mp cores.symm
  exact ⟨stream, found, core.symm, sheds.finSent found there⟩

theorem of_same (streams : next.streams = session.streams)
    (handles : next.handles = session.handles) (side : next.side = session.side)
    (finished : next.writeLoop = .finished → session.writeLoop = .finished) :
    Sheds session next := by
  refine ⟨fun found => streams ▸ found, congrArg _ handles, fun was there => ?_, side,
    fun ended => Or.inl (finished ended)⟩
  rw [handles, was] at there
  cases there
  exact id

theorem refl (session : Session) : Sheds session session := of_same rfl rfl rfl id

theorem trans {third : Session} (before : Sheds session next) (after : Sheds next third) :
    Sheds session third := by
  refine ⟨fun found => before.entries (after.entries found), after.cores.trans before.cores,
    fun was there sent => ?_, after.side.trans before.side, fun finished => ?_⟩
  · obtain ⟨middle, found, ages⟩ := before.kept was
    exact after.finSent found there (ages.finSent sent)
  rcases after.finished finished with earlier | empty
  · refine (before.finished earlier).imp_right fun empty streamId => ?_
    cases found : third.streams.lookup streamId with
    | none => rfl
    | some state =>
        have there := after.entries found
        rw [empty] at there
        cases there
  · exact Or.inr empty

end Sheds

theorem lookup_erase_eq_some {streams : AList fun _ : UInt32 => StreamState}
    {streamId other : UInt32} {state : StreamState}
    (found : (streams.erase streamId).lookup other = some state) :
    other ≠ streamId ∧ streams.lookup other = some state := by
  rcases eq_or_ne other streamId with same | different
  · rw [same, AList.lookup_erase] at found
    cases found
  · rw [AList.lookup_erase_ne different] at found
    exact ⟨different, found⟩

theorem kept_modifyHandle {session : Session} (handle : Nat) {other : Nat}
    (change : StreamHandle → StreamHandle) {stream : StreamHandle}
    (found : session.handles[other]? = some stream) :
    (session.modifyHandle handle change).handles[other]? =
      some (if handle = other then change stream else stream) := by
  simp only [modifyHandle, List.getElem?_modify, found]
  rfl

theorem sheds_modifyHandle (session : Session) (handle : Nat)
    {change : StreamHandle → StreamHandle}
    (ages : ∀ stream, session.handles[handle]? = some stream → stream.Ages (change stream)) :
    Sheds session (session.modifyHandle handle change) := by
  refine ⟨id, ?_, fun {other stream after} was there => ?_, rfl, Or.inl⟩
  · apply List.ext_getElem?
    intro other
    simp only [List.getElem?_map]
    cases was : session.handles[other]? with
    | none =>
        simp only [modifyHandle, List.getElem?_modify, was]
        rfl
    | some stream =>
        rw [kept_modifyHandle handle change was]
        simp only [Option.map_some]
        split
        · next same =>
            subst same
            exact congrArg some (ages stream was).core
        · rfl
  · rw [kept_modifyHandle handle change was] at there
    cases there
    split
    · next same =>
        subst same
        exact (ages stream was).finSent
    · exact id

theorem sheds_trySend (session : Session) (frame : Frame) :
    Sheds session (session.trySend frame) := by
  unfold trySend
  split
  · split <;> exact .of_same rfl rfl rfl id
  · exact .refl session

theorem sheds_removeStream (session : Session) (streamId : UInt32) :
    Sheds session (session.removeStream streamId) :=
  ⟨fun found => (lookup_erase_eq_some found).2, rfl, (Sheds.refl session).finSent, rfl, Or.inl⟩

theorem sheds_supersede (session : Session) (streamId : UInt32) :
    Sheds session (session.supersede streamId) := by
  unfold supersede
  split
  · exact sheds_modifyHandle session _ fun _ _ => ⟨rfl, id⟩
  · exact .refl session

theorem sheds_removeOwn (session : Session) (handle : Nat) (streamId : UInt32) :
    Sheds session (session.removeOwn handle streamId) := by
  unfold removeOwn
  split
  · split
    · exact sheds_removeStream session streamId
    · exact (sheds_supersede session streamId).trans (sheds_removeStream _ streamId)
  · exact .refl session

theorem sheds_endStream (session : Session) (streamId : UInt32) (event : Option StreamEvent) :
    Sheds session (session.endStream streamId event) := by
  unfold endStream
  refine Sheds.trans ?_ (sheds_removeStream _ streamId)
  split
  · refine sheds_modifyHandle session _ fun stream _ => ?_
    split <;> exact ⟨rfl, id⟩
  · exact .refl session

theorem sheds_finish (session : Session) : Sheds session session.finish := by
  refine ⟨fun found => ?_, rfl, (Sheds.refl session).finSent, rfl, Or.inl⟩
  rw [show session.finish.streams = ∅ from rfl, AList.lookup_empty] at found
  cases found

theorem sheds_sendData (session : Session) (streamId : UInt32) (handle : Nat) (data : Bytes) :
    Sheds session (session.sendData streamId handle data) := by
  unfold sendData
  split
  · exact .refl session
  · split
    · split
      · exact sheds_modifyHandle session handle fun _ _ => ⟨rfl, id⟩
      · exact .of_same rfl rfl rfl id
    · exact sheds_removeOwn session handle streamId

theorem sheds_endStreams (session : Session) (event : Option StreamEvent)
    (streamIds : List UInt32) :
    Sheds session
      (streamIds.foldl (fun session streamId => session.endStream streamId event) session) := by
  induction streamIds generalizing session with
  | nil => exact .refl session
  | cons streamId streamIds ih => exact (sheds_endStream session streamId event).trans (ih _)

theorem sheds_clientFrame (session : Session) (frame : Frame) :
    Sheds session (session.clientFrame frame) := by
  unfold clientFrame
  split
  · split
    · exact sheds_sendData ..
    · exact .refl session
  · exact sheds_endStream ..
  · split
    · exact .refl session
    · exact sheds_endStream ..
  · exact (sheds_endStreams session _ _).trans (.of_same rfl rfl rfl id)
  · exact sheds_trySend ..
  · exact .refl session

theorem sheds_closeIfIdle (session : Session) : Sheds session session.closeIfIdle := by
  unfold closeIfIdle
  split
  · split
    · exact sheds_finish session
    · exact .refl session
  · exact .refl session

theorem sheds_sendFin (session : Session) (stream : StreamHandle) :
    Sheds session (session.sendFin stream) := by
  unfold sendFin
  split
  · exact .refl session
  · exact sheds_trySend ..

theorem sheds_deliverData {session next : Session} (taken : session.deliverData = some next) :
    Sheds session next := by
  unfold deliverData at taken
  split at taken
  · next streamId handle data loop =>
      obtain ⟨stream, there, goes⟩ := Option.bind_eq_some_iff.mp taken
      split at goes
      · cases goes
      · cases goes
        have resumed : Sheds session { session with readLoop := .reading } :=
          .of_same rfl rfl rfl id
        exact resumed.trans (sheds_sendData _ streamId handle data)
  · cases taken

theorem sheds_takeFrame {session next : Session} (taken : session.takeFrame = some next) :
    Sheds session next := by
  unfold takeFrame at taken
  split at taken
  · split at taken
    · split at taken
      · cases taken
        exact .of_same rfl rfl rfl nofun
      · cases taken
        exact .of_same rfl rfl rfl nofun
    · cases taken
  · cases taken

theorem sheds_flushBuffer {session next : Session} {ok : Bool}
    (taken : session.flushBuffer ok = some next) : Sheds session next := by
  unfold flushBuffer at taken
  split at taken
  · split at taken
    · cases taken
      exact .of_same rfl rfl rfl nofun
    · cases taken
      exact .of_same rfl rfl rfl nofun
  · cases taken

theorem sheds_writeTaskEnd (session : Session) :
    Sheds session { session.finish with writeLoop := .finished } :=
  ⟨(sheds_finish session).entries, rfl, (Sheds.refl session).finSent, rfl,
    fun _ => Or.inr fun streamId =>
    AList.lookup_empty streamId⟩

theorem sheds_taskStep {session next : Session} {event : Event} {idle : Bool}
    (client : session.side = .client idle) (taken : session.taskStep event = some next) :
    Sheds session next := by
  unfold taskStep at taken
  split at taken
  · split at taken
    · cases taken
      exact sheds_clientFrame ..
    · next server =>
        rw [client] at server
        cases server
    · cases taken
  · exact sheds_deliverData taken
  · split at taken
    · cases taken
      exact .of_same rfl rfl rfl id
    · cases taken
  · split at taken
    · split at taken
      · cases taken
        exact .of_same rfl rfl rfl id
      · cases taken
    · cases taken
  · split at taken
    · cases taken
      exact (sheds_finish session).trans (.of_same rfl rfl rfl id)
    · cases taken
  · exact sheds_takeFrame taken
  · exact sheds_flushBuffer taken
  · split at taken
    · split at taken
      · cases taken
        exact .of_same rfl rfl rfl nofun
      · cases taken
    · cases taken
  · split at taken
    · cases taken
      exact sheds_writeTaskEnd session
    · next server =>
        rw [client] at server
        cases server
    · cases taken
  · cases taken

theorem readHandle_ages (side : SessionSide) (sender : Bool) (size : Nat)
    (stream : StreamHandle) :
    stream.Ages (readHandle side sender size stream).2 := by
  unfold readHandle
  split
  · exact ⟨rfl, id⟩
  · unfold readTcp
    split
    · split
      · exact ⟨rfl, id⟩
      · split
        · exact ⟨rfl, id⟩
        · exact ⟨rfl, id⟩
        · exact ⟨rfl, id⟩
        · split <;> exact ⟨rfl, id⟩
    · exact ⟨rfl, id⟩

/-- A step of a client, seen from the table: a connect registers a stream and
goes on, someone goes, or entries are lost. -/
def ClientStep (session : Session) (event : Event) (after : Session) : Prop :=
  match event with
  | .connect udp target => after = session.connectStream udp target
  | .connectSend handle => session.connectNext handle = some after
  | .connectCancel handle => session.connectDrop handle = some after
  | .drop handle => ∃ stream, session.user handle = some stream ∧
      after = session.dropHandle handle stream
  | _ => Sheds session after

theorem clientStep_of_task {session after : Session} {event : Event}
    (taken : session.taskStep event = some after) (sheds : Sheds session after) :
    session.ClientStep event after := by
  cases event with
  | connect | connectSend | connectCancel | drop => cases taken
  | _ => exact sheds

theorem clientStep_of_user {session after : Session} {event : Event}
    (taken : session.userStep event = some after) : session.ClientStep event after := by
  cases event with
  | connect udp target =>
      simp only [userStep] at taken
      split at taken
      · cases taken
        exact rfl
      · cases taken
  | connectSend handle => exact taken
  | connectCancel handle => exact taken
  | read handle size =>
      obtain ⟨stream, user, rfl⟩ := Option.map_eq_some_iff.mp taken
      refine sheds_modifyHandle session handle fun other there => ?_
      cases (found_of_user user).symm.trans there
      exact readHandle_ages ..
  | write handle data =>
      obtain ⟨stream, -, written⟩ := Option.bind_eq_some_iff.mp taken
      split at written
      · cases written
        exact Sheds.of_same rfl rfl rfl id
      · cases written
      · cases written
        exact Sheds.refl session
  | shutdown handle =>
      obtain ⟨stream, -, shut⟩ := Option.bind_eq_some_iff.mp taken
      split at shut
      · cases shut
      · split at shut
        · cases shut
          have queued (writeTx : List Frame) : Sheds session { session with writeTx } :=
            .of_same rfl rfl rfl id
          exact (queued _).trans (sheds_modifyHandle _ handle fun _ _ => ⟨rfl, fun _ => rfl⟩)
        · cases shut
        · cases shut
          exact Sheds.refl session
  | close handle =>
      obtain ⟨stream, -, closed⟩ := Option.bind_eq_some_iff.mp taken
      split at closed
      · cases closed
        have closing : Sheds session { session with closed := true } := .of_same rfl rfl rfl id
        exact closing.trans (sheds_modifyHandle _ handle fun _ _ => ⟨rfl, id⟩)
      · cases closed
  | drop handle =>
      obtain ⟨stream, user, rfl⟩ := Option.map_eq_some_iff.mp taken
      exact ⟨stream, user, rfl⟩
  | finish =>
      simp only [userStep] at taken
      split at taken
      · cases taken
        exact sheds_finish session
      · cases taken
  | frame | deliver | readError | readCloser | readTaskEnd | take | flush | writeCloser |
    writeTaskEnd => cases taken

theorem clientStep_cases {session next : Session} {event : Event} {idle : Bool}
    (client : session.side = .client idle) (taken : session.step event = some next) :
    ∃ after, next = { after with failed := session.failed || session.fails event } ∧
      session.ClientStep event after := by
  obtain ⟨after, moved, rfl⟩ := Option.map_eq_some_iff.mp taken
  refine ⟨after, rfl, ?_⟩
  rcases Option.or_eq_some_iff.mp moved with task | ⟨-, user⟩
  · exact clientStep_of_task task (sheds_taskStep client task)
  · exact clientStep_of_user user

theorem sheds_failed (session : Session) (failed : Bool) :
    Sheds session { session with failed } :=
  .of_same rfl rfl rfl id

/-! Opening a stream. -/

theorem lookup_openStream {session : Session} {stream : StreamHandle} {streamId : UInt32}
    {state : StreamState}
    (found : (session.openStream stream).streams.lookup streamId = some state) :
    streamId = stream.streamId ∧ state = .active session.handles.length ∨
      streamId ≠ stream.streamId ∧ session.streams.lookup streamId = some state := by
  have streams : (session.openStream stream).streams =
      (session.supersede stream.streamId).streams.insert stream.streamId
        (.active session.handles.length) := rfl
  rw [streams] at found
  rcases eq_or_ne streamId stream.streamId with same | different
  · rw [same, AList.lookup_insert] at found
    exact Or.inl ⟨same, (Option.some.inj found).symm⟩
  · rw [AList.lookup_insert_ne different] at found
    exact Or.inr ⟨different, (sheds_supersede session stream.streamId).entries found⟩

theorem handles_openStream (session : Session) (stream : StreamHandle) :
    (session.openStream stream).handles =
      (session.supersede stream.streamId).handles ++ [stream] := rfl

theorem length_supersede (session : Session) (streamId : UInt32) :
    (session.supersede streamId).handles.length = session.handles.length := by
  have lengths := congrArg List.length (sheds_supersede session streamId).cores
  rwa [List.length_map, List.length_map] at lengths

theorem opened_openStream (session : Session) (stream : StreamHandle) :
    (session.openStream stream).handles[session.handles.length]? = some stream := by
  rw [handles_openStream, List.getElem?_append_right (by rw [length_supersede]),
    length_supersede, Nat.sub_self]
  rfl

theorem found_openStream {session : Session} {stream other : StreamHandle} {handle : Nat}
    (found : (session.openStream stream).handles[handle]? = some other) :
    handle = session.handles.length ∧ other = stream ∨
      ∃ before, session.handles[handle]? = some before ∧ before.Ages other := by
  rcases Nat.lt_trichotomy handle session.handles.length with old | rfl | new
  · rw [handles_openStream,
      List.getElem?_append_left (by rw [length_supersede]; exact old)] at found
    exact Or.inr ((sheds_supersede session stream.streamId).found found)
  · rw [opened_openStream] at found
    exact Or.inl ⟨rfl, (Option.some.inj found).symm⟩
  · have short := (List.getElem?_eq_some_iff.mp found).1
    rw [handles_openStream, List.length_append, length_supersede, List.length_singleton] at short
    omega

theorem kept_openStream (stream : StreamHandle) {session : Session} {before : StreamHandle}
    {handle : Nat} (found : session.handles[handle]? = some before) :
    ∃ other, (session.openStream stream).handles[handle]? = some other ∧
      before.Ages other := by
  obtain ⟨other, there, same⟩ := (sheds_supersede session stream.streamId).kept found
  refine ⟨other, ?_, same⟩
  rw [handles_openStream, List.getElem?_append_left (List.getElem?_eq_some_iff.mp there).1]
  exact there

/-! A change of one object. -/

theorem found_modifyHandle {session : Session} {handle other : Nat}
    {change : StreamHandle → StreamHandle} {stream : StreamHandle}
    (found : (session.modifyHandle handle change).handles[other]? = some stream) :
    other = handle ∧ (∃ before, session.handles[handle]? = some before ∧ stream = change before) ∨
      other ≠ handle ∧ session.handles[other]? = some stream := by
  simp only [modifyHandle, List.getElem?_modify] at found
  obtain ⟨before, there, same⟩ := Option.map_eq_some_iff.mp found
  rcases eq_or_ne handle other with equal | different
  · rw [if_pos equal] at same
    subst equal
    exact Or.inl ⟨rfl, before, there, same.symm⟩
  · rw [if_neg different] at same
    exact Or.inr ⟨different.symm, there.trans (congrArg some same)⟩

/-! A connect that goes on, or ends. -/

theorem sendFrame_cases (session : Session) (error : String) (frame : Frame) :
    session.writeLoop.Running ∧
        (session.sendFrame error frame = .sent frame ∧
            session.writeTx.length < sessionQueueCapacity ∨
          session.sendFrame error frame = .pending) ∨
      ¬session.writeLoop.Running ∧ session.sendFrame error frame = .brokenPipe error := by
  unfold sendFrame
  cases session.writeLoop with
  | running buffering buffer =>
      refine Or.inl ⟨trivial, ?_⟩
      dsimp only
      split
      · next room => exact Or.inl ⟨rfl, room⟩
      · exact Or.inr rfl
  | returned => exact Or.inr ⟨id, rfl⟩
  | finished => exact Or.inr ⟨id, rfl⟩

structure Connecting (session : Session) (handle : Nat) (stream : StreamHandle) : Prop where
  found : session.handles[handle]? = some stream
  live : stream.live = true
  connect : stream.connect ≠ []

/-- Whoever is behind the handle is gone. -/
def kill (session : Session) (handle : Nat) : Session :=
  session.modifyHandle handle fun stream => { stream with live := false }

theorem connectNext_cases {session next : Session} {handle : Nat}
    (taken : session.connectNext handle = some next) :
    ∃ stream, session.Connecting handle stream ∧
      (session.writeLoop.Running ∧
          (∃ frame rest, stream.connect = frame :: rest ∧
            next = { session with writeTx := session.writeTx ++ [frame] }.modifyHandle handle
              fun stream => { stream with connect := rest }) ∨
        ¬session.writeLoop.Running ∧ next = session.kill handle) := by
  unfold connectNext at taken
  split at taken
  · cases taken
  · next stream found =>
      split at taken
      · next live =>
          split at taken
          · cases taken
          · next frame rest shape =>
              refine ⟨stream, ⟨found, live, by rw [shape]; exact List.cons_ne_nil _ _⟩, ?_⟩
              rcases sendFrame_cases session "session write channel closed" frame with
                ⟨running, ⟨sent, -⟩ | pending⟩ | ⟨stopped, broken⟩
              · rw [sent] at taken
                cases taken
                exact Or.inl ⟨running, frame, rest, shape, rfl⟩
              · rw [pending] at taken
                cases taken
              · rw [broken] at taken
                cases taken
                exact Or.inr ⟨stopped, rfl⟩
      · cases taken

theorem connectDrop_cases {session next : Session} {handle : Nat}
    (taken : session.connectDrop handle = some next) :
    ∃ stream, session.Connecting handle stream ∧ next = session.kill handle := by
  unfold connectDrop at taken
  split at taken
  · cases taken
  · next stream found =>
      split at taken
      · next running =>
          cases taken
          obtain ⟨live, connect⟩ := Bool.and_eq_true_iff.mp running
          refine ⟨stream, ⟨found, live, fun nothing => ?_⟩, rfl⟩
          rw [nothing] at connect
          cases connect
      · cases taken

/-- The drop of an object, up to the end of `unregister_stream`. -/
def dropped (session : Session) (handle : Nat) (stream : StreamHandle) : Session :=
  ((session.sendFin stream).kill handle).removeOwn handle stream.streamId

theorem dropHandle_eq (session : Session) (handle : Nat) (stream : StreamHandle) :
    session.dropHandle handle stream = (session.dropped handle stream).closeIfIdle := rfl

theorem side_step {session next : Session} {event : Event} {idle : Bool}
    (client : session.side = .client idle) (taken : session.step event = some next) :
    next.side = .client idle := by
  obtain ⟨after, rfl, step⟩ := clientStep_cases client taken
  rw [← client]
  change after.side = session.side
  cases event with
  | connect udp target =>
      cases step
      exact (sheds_supersede { session with nextStreamId := session.nextStreamId + 1 } _).side
  | connectSend handle =>
      obtain ⟨stream, -, ⟨-, frame, rest, -, rfl⟩ | ⟨-, rfl⟩⟩ := connectNext_cases step
      · rfl
      · rfl
  | connectCancel handle =>
      obtain ⟨stream, -, rfl⟩ := connectDrop_cases step
      rfl
  | drop handle =>
      obtain ⟨stream, -, rfl⟩ := step
      have removed := (sheds_removeOwn ((session.sendFin stream).kill handle) handle
        stream.streamId).side
      exact (sheds_closeIfIdle _).side.trans (removed.trans (sheds_sendFin session stream).side)
  | _ => exact step.side

/-- The objects of the next state go on from the ones before, but for a new one. -/
structure Continues (session next : Session) : Prop where
  found : ∀ {handle : Nat} {other : StreamHandle}, next.handles[handle]? = some other →
    handle = session.handles.length ∨
      ∃ stream, session.handles[handle]? = some stream ∧ stream.Continues other
  length : session.handles.length ≤ next.handles.length

theorem Sheds.continues {session next : Session} (sheds : Sheds session next) :
    Continues session next where
  found := fun there => by
    obtain ⟨stream, was, ages⟩ := sheds.found there
    exact Or.inr ⟨stream, was, ages.continues⟩
  length := by
    have lengths := congrArg List.length sheds.cores
    rw [List.length_map, List.length_map] at lengths
    exact Nat.le_of_eq lengths.symm

theorem continues_modifyHandle (session : Session) (handle : Nat)
    (change : StreamHandle → StreamHandle)
    (each : ∀ stream : StreamHandle, stream.Continues (change stream)) :
    Continues session (session.modifyHandle handle change) where
  found := fun there => by
    rcases found_modifyHandle there with ⟨rfl, before, was, rfl⟩ | ⟨-, was⟩
    · exact Or.inr ⟨before, was, each before⟩
    · exact Or.inr ⟨_, was, rfl, rfl, id, id⟩
  length := Nat.le_of_eq (List.length_modify ..).symm

theorem continues_kill (session : Session) (handle : Nat) :
    Continues session (session.kill handle) :=
  continues_modifyHandle session handle (fun stream => { stream with live := false })
    fun _ => ⟨rfl, rfl, id, nofun⟩

theorem Continues.trans_sheds {session next third : Session} (before : Continues session next)
    (after : Sheds next third) : Continues session third where
  found := fun there => by
    obtain ⟨other, was, ages⟩ := after.found there
    refine (before.found was).imp_right fun earlier => ?_
    obtain ⟨stream, first, continues⟩ := earlier
    exact ⟨stream, first, continues.trans_ages ages⟩
  length := Nat.le_trans before.length after.continues.length

theorem continues_step {session next : Session} {event : Event} {idle : Bool}
    (client : session.side = .client idle) (taken : session.step event = some next) :
    Continues session next := by
  obtain ⟨after, rfl, step⟩ := clientStep_cases client taken
  refine Continues.trans_sheds ?_ (sheds_failed after _)
  cases event with
  | connect udp target =>
      cases step
      constructor
      · intro handle other there
        refine (found_openStream there).imp And.left fun earlier => ?_
        obtain ⟨before, was, ages⟩ := earlier
        exact ⟨before, was, ages.continues⟩
      · rw [connectStream, handles_openStream, List.length_append, length_supersede]
        exact Nat.le_add_right ..
  | connectSend handle =>
      obtain ⟨stream, -, ⟨-, frame, rest, -, rfl⟩ | ⟨-, rfl⟩⟩ := connectNext_cases step
      · have queued := continues_modifyHandle { session with
          writeTx := session.writeTx ++ [frame] } handle
          (fun stream => { stream with connect := rest }) fun _ => ⟨rfl, rfl, id, id⟩
        exact ⟨queued.found, queued.length⟩
      · exact continues_kill session handle
  | connectCancel handle =>
      obtain ⟨stream, -, rfl⟩ := connectDrop_cases step
      exact continues_kill session handle
  | drop handle =>
      obtain ⟨stream, -, rfl⟩ := step
      have sent := (sendFin_same session stream).2
      have killed : Continues session ((session.sendFin stream).kill handle) := by
        have killed := continues_kill (session.sendFin stream) handle
        exact ⟨sent ▸ killed.found, sent ▸ killed.length⟩
      exact (killed.trans_sheds (sheds_removeOwn ..)).trans_sheds (sheds_closeIfIdle _)
  | _ => exact step.continues

end Session

end QuicProxy
