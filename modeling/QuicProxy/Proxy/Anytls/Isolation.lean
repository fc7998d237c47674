import QuicProxy.Proxy.Anytls.Sound

namespace QuicProxy

/-! What the end of one UDP-over-TCP stream does to the other streams of its
session. -/

namespace Session

/-- As long as the session has not failed, no stream in use reads its end, or
gets an error from a write it has not shut down itself. -/
def StreamsUsable (session : Session) : Prop :=
  session.failed = false → ∀ handle stream, session.InUse handle stream →
    (∀ size, ¬(readHandle session.side (session.hasSender handle stream) size stream).1.Ended) ∧
      (stream.finSent = false → ∀ data error,
        session.writeHandle stream data ≠ .brokenPipe error)

def OpensStream (session : Session) : Event → Prop
  | .connect _ _ => True
  | .frame frame =>
      frame.cmd = .psh ∧
        match session.streams.lookup frame.streamId with
        | some .pending =>
            match Anytls.parseTargetFromSyn frame.data with
            | some (.ok (.domain name _)) => name ≠ udpOverTcpTarget
            | some (.ok (.ip _)) => True
            | _ => False
        | some (.waitingUotRequest _) =>
            ∃ stream, uotRequest frame.streamId frame.data = some stream
        | _ => False
  | _ => False

/-- The condition under which streams are isolated from each other: a packet
closer is closed only when no other stream is in use, no stream is opened after
that, and a UDP object goes only while no other stream has its id. -/
def EndsAlone (session : Session) (event : Event) : Prop :=
  (session.OpensStream event → session.closed = false) ∧
    match event with
    | .close handle => ∀ other stream, session.InUse other stream → other = handle
    | .drop handle =>
        ∀ stream, session.handles[handle]? = some stream → stream.udp = true →
          ¬session.Foreign handle stream.streamId
    | .deliver =>
        ∀ streamId handle data stream, session.readLoop = .delivering streamId handle data →
          session.handles[handle]? = some stream → stream.udp = true →
            ¬session.Foreign handle streamId
    | _ => True

theorem Sound.usable {session : Session} (sound : session.Sound) :
    session.StreamsUsable := by
  intro _ handle stream inUse
  have open' : session.closed = false := by
    cases closed : session.closed with
    | false => rfl
    | true => exact absurd inUse (sound.idle closed handle stream)
  constructor
  · intro size
    rw [sound.hasSender inUse]
    exact (readHandle_quiet session.side (sound.quiet handle stream inUse) size).1
  · intro notShut data error
    have sends : ∀ text frame, session.sendFrame text frame ≠ .brokenPipe error := by
      intro text frame
      have running := sound.writing open'
      unfold sendFrame
      cases loop : session.writeLoop with
      | running buffering buffer =>
          simp only
          split <;> simp
      | returned | finished => rw [loop] at running; exact running.elim
    unfold writeHandle
    split
    · exact sends _ _
    · split
      · simp
      · rw [notShut]
        split
        · next shut => cases shut
        · exact sends _ _

/-! Steps of the tasks. -/

theorem not_foreign_of_registered {session : Session} {handle : Nat} {streamId : UInt32}
    (found : session.streams.lookup streamId = some (.active handle)) :
    ¬session.Foreign handle streamId := by
  rintro ⟨other, _, ne, _, registered⟩
  cases found.symm.trans registered
  exact ne rfl

theorem calm_clientFrame {session : Session} {frame : Frame}
    (survives : session.fails (.frame frame) = false) :
    Calm session (session.clientFrame frame) := by
  unfold clientFrame
  split
  · split
    · next handle found =>
        exact calm_sendData (fun _ _ _ => not_foreign_of_registered found) frame.data
    · exact .refl session
  · exact calm_endStream ..
  · split
    · exact .refl session
    · exact calm_endStream ..
  · next alert => simp [fails, alert] at survives
  · exact calm_trySend ..
  · exact .refl session

theorem quiet_inboundHandle (streamId : UInt32) (udp isConnect : Bool)
    (queue : List StreamEvent) (data : ∀ event ∈ queue, ∃ bytes, event = .data bytes) :
    (inboundHandle streamId udp isConnect queue).Quiet :=
  ⟨data, rfl⟩

theorem quiet_uotRequest {streamId : UInt32} {data : Bytes} {stream : StreamHandle}
    (made : uotRequest streamId data = some stream) : stream.Quiet := by
  unfold uotRequest at made
  split at made
  · cases made
  · split at made
    · cases made
    · cases made
      refine quiet_inboundHandle _ _ _ _ fun event member => ?_
      split at member
      · cases member
      · exact ⟨_, List.mem_singleton.mp member⟩

theorem handleFirstPsh_cases {session : Session} (frame : Frame) (cmd : frame.cmd = .psh)
    (pending : session.streams.lookup frame.streamId = some .pending)
    (parses : Anytls.parseTargetFromSyn frame.data ≠ none) :
    Calm session (session.handleFirstPsh frame.streamId frame.data) ∨
      session.OpensStream (.frame frame) ∧ ∃ stream, stream.Quiet ∧
        session.handleFirstPsh frame.streamId frame.data = session.openStream stream := by
  have tcp := quiet_inboundHandle frame.streamId false false [] (by simp)
  unfold handleFirstPsh
  split
  · next panics => exact absurd panics parses
  · refine .inl (calm_refuseStream session _ fun handle registered => ?_)
    rw [pending] at registered
    cases registered
  · next name port parsed =>
      split
      · exact .inl (calm_insertStream ..)
      · next other =>
          refine .inr ⟨⟨cmd, ?_⟩, _, tcp, rfl⟩
          simpa only [pending, parsed] using other
  · next addr parsed =>
      refine .inr ⟨⟨cmd, ?_⟩, _, tcp, rfl⟩
      simp only [pending, parsed]

theorem serverFrame_cases {session : Session} {frame : Frame} (server : session.side = .server)
    (survives : session.fails (.frame frame) = false) :
    Calm session (session.serverFrame frame) ∨
      session.OpensStream (.frame frame) ∧ ∃ stream, stream.Quiet ∧
        session.serverFrame frame = session.openStream stream := by
  unfold serverFrame
  split
  · exact .inl ((calm_insertStream ..).trans (calm_trySend ..))
  · next cmd =>
      split
      · next pending =>
          refine handleFirstPsh_cases frame cmd pending fun panics => ?_
          simp [fails, cmd, server, pending, panics] at survives
      · next target waiting =>
          unfold handleUotRequest
          split
          · refine .inl (calm_refuseStream session _ fun handle registered => ?_)
            rw [waiting] at registered
            cases registered
          · next stream made =>
              refine .inr ⟨⟨cmd, ?_⟩, stream, quiet_uotRequest made, rfl⟩
              simp only [waiting]
              exact ⟨stream, made⟩
      · next handle found =>
          exact .inl (calm_sendData (fun _ _ _ => not_foreign_of_registered found) frame.data)
      · exact .inl (.refl session)
  · exact .inl (calm_endStream ..)
  · exact .inl (calm_trySend ..)
  · next alert => simp [fails, alert] at survives
  · exact .inl (.refl session)

theorem calm_deliverData {session next : Session} (alone : session.EndsAlone .deliver)
    (taken : session.deliverData = some next) :
    Calm session next := by
  unfold deliverData at taken
  split at taken
  · next streamId handle data delivering =>
      obtain ⟨stream, found, rest⟩ := Option.bind_eq_some_iff.mp taken
      split at rest
      · cases rest
      · cases rest
        have same : Calm session { session with readLoop := .reading } :=
          calm_of_same rfl rfl rfl (fun _ => trivial) id
        refine same.trans (calm_sendData ?_ data)
        rintro stream found udp ⟨other, stream', ne, inUse, registered⟩
        exact alone.2 streamId handle data stream delivering found udp
          ⟨other, stream', ne, inUse.of_handles rfl, registered⟩
  · cases taken

theorem calm_takeFrame {session next : Session} (survives : session.fails .take = false)
    (taken : session.takeFrame = some next) : Calm session next := by
  unfold takeFrame at taken
  split at taken
  · next buffering buffer frame rest _ queue =>
      split at taken
      · have fits : frame.Fits := by simpa [fails, queue] using survives
        rw [appendFrame_of_fits fits] at taken
        cases taken
        exact calm_of_same rfl rfl rfl id fun _ => trivial
      · cases taken
  · cases taken

theorem calm_flushBuffer {session next : Session} (taken : session.flushBuffer true = some next) :
    Calm session next := by
  unfold flushBuffer at taken
  split at taken
  · cases taken
    exact calm_of_same rfl rfl rfl id fun _ => trivial
  · cases taken

theorem Sound.closed_of_not {session : Session} {running : Prop}
    (runs : session.closed = false → running) (stopped : ¬running) : session.closed = true := by
  cases closed : session.closed with
  | true => rfl
  | false => exact absurd (runs closed) stopped

theorem Sound.after_close {session next : Session} (sound : session.Sound)
    (closed : session.closed = true) (still : next.closed = true)
    (handles : next.handles = session.handles) : next.Sound :=
  sound_of_idle still fun handle stream inUse =>
    sound.idle closed handle stream (inUse.of_handles handles)

theorem Sound.taskStep {session next : Session} {event : Event} (sound : session.Sound)
    (survives : session.fails event = false) (alone : session.EndsAlone event)
    (taken : session.taskStep event = some next) : next.Sound := by
  cases event with
  | frame frame =>
      simp only [Session.taskStep] at taken
      split at taken
      · cases taken
        exact (calm_clientFrame survives).sound sound
      · next server =>
          cases taken
          rcases serverFrame_cases server survives with calm | ⟨opens, stream, quiet, same⟩
          · exact calm.sound sound
          · rw [same]
            exact sound.openStream (alone.1 opens) quiet
      · cases taken
  | deliver => exact (calm_deliverData alone taken).sound sound
  | readError => cases survives
  | readCloser =>
      simp only [Session.taskStep] at taken
      split at taken
      · split at taken
        · next closed =>
            cases taken
            exact sound.after_close closed closed rfl
        · cases taken
      · cases taken
  | readTaskEnd =>
      simp only [Session.taskStep] at taken
      split at taken
      · next returned =>
          -- In a sound session, a loop returns only after the closer was closed.
          cases taken
          exact sound.after_close (closed_of_not sound.reading (by rw [returned]; exact id))
            rfl rfl
      · cases taken
  | take => exact (calm_takeFrame survives taken).sound sound
  | flush ok =>
      cases ok with
      | true => exact (calm_flushBuffer taken).sound sound
      | false => cases survives
  | writeCloser =>
      simp only [Session.taskStep] at taken
      split at taken
      · split at taken
        · next both =>
            cases taken
            have closed : session.closed = true := (Bool.and_eq_true_iff.mp both).1
            exact sound.after_close closed closed rfl
        · cases taken
      · cases taken
  | writeTaskEnd =>
      have closed (returned : session.writeLoop = .returned) : session.closed = true :=
        closed_of_not sound.writing (by rw [returned]; exact id)
      simp only [Session.taskStep] at taken
      split at taken
      · next returned _ =>
          cases taken
          exact sound.after_close (closed returned) rfl rfl
      · next returned _ =>
          cases taken
          exact sound.after_close (closed returned) rfl rfl
      · cases taken
  | connect | connectSend | connectCancel | read | write | shutdown | close | drop | finish =>
      cases taken

/-! Steps of the users. -/

theorem found_of_user {session : Session} {handle : Nat} {stream : StreamHandle}
    (user : session.user handle = some stream) : session.handles[handle]? = some stream :=
  (Option.filter_eq_some_iff.mp user).1

theorem calm_queue (session : Session) (writeTx : List Frame) :
    Calm session { session with writeTx := writeTx } :=
  calm_of_same rfl rfl rfl id id

theorem calm_kill (session : Session) (handle : Nat) :
    Calm session (session.modifyHandle handle fun stream => { stream with live := false }) := by
  apply calm_modifyHandle
  intro stream _ live
  cases live

theorem calm_connectNext {session next : Session} {handle : Nat}
    (taken : session.connectNext handle = some next) : Calm session next := by
  unfold connectNext at taken
  split at taken
  · cases taken
  · split at taken
    · split at taken
      · cases taken
      · split at taken
        · cases taken
          refine (calm_queue session _).trans (calm_modifyHandle _ handle ?_)
          intro stream _ live open'
          exact ⟨live, open', rfl, fun quiet => ⟨quiet.data, quiet.notFin⟩⟩
        · cases taken
          exact calm_kill session handle
        · cases taken
    · cases taken

theorem calm_connectDrop {session next : Session} {handle : Nat}
    (taken : session.connectDrop handle = some next) : Calm session next := by
  unfold connectDrop at taken
  split at taken
  · cases taken
  · split at taken
    · cases taken
      exact calm_kill session handle
    · cases taken

theorem Sound.calm_read {session : Session} (sound : session.Sound) {handle : Nat}
    {stream : StreamHandle} (found : session.handles[handle]? = some stream) (size : Nat) :
    Calm session (session.modifyHandle handle fun _ =>
      (readHandle session.side (session.hasSender handle stream) size stream).2) := by
  obtain ⟨sameId, sameLive, sameEnd⟩ :=
    readHandle_same session.side (session.hasSender handle stream) size stream
  apply calm_modifyHandle
  intro other there live open'
  cases found.symm.trans there
  rw [sameLive] at live
  rw [sameEnd] at open'
  refine ⟨live, open', sameId, fun quiet => ?_⟩
  rw [sound.hasSender ⟨found, live, open'⟩]
  exact (readHandle_quiet session.side quiet size).2

theorem calm_shutdown (session : Session) (handle : Nat) :
    Calm session
      (session.modifyHandle handle fun stream => { stream with finSent := true }) := by
  apply calm_modifyHandle
  intro stream _ live open'
  exact ⟨live, open', rfl, fun quiet => ⟨quiet.data, quiet.notFin⟩⟩

theorem sound_close {session : Session} {handle : Nat}
    (alone : ∀ other stream, session.InUse other stream → other = handle) :
    ({ session with closed := true }.modifyHandle handle
      fun stream => { stream with ended := true }).Sound := by
  refine sound_of_idle rfl fun other stream inUse => ?_
  obtain ⟨before, was, _⟩ :=
    (calm_ended { session with closed := true } handle).streams other stream inUse
  obtain rfl := alone other before (was.of_handles rfl)
  exact not_inUse_modifyHandle (fun _ => rfl) stream inUse

theorem sendFin_same (session : Session) (stream : StreamHandle) :
    (session.sendFin stream).streams = session.streams ∧
      (session.sendFin stream).handles = session.handles := by
  unfold sendFin
  split
  · exact ⟨rfl, rfl⟩
  · exact trySend_same ..

theorem calm_sendFin (session : Session) (stream : StreamHandle) :
    Calm session (session.sendFin stream) := by
  unfold sendFin
  split
  · exact .refl session
  · exact calm_trySend ..

theorem Sound.closeIfIdle {session : Session} (sound : session.Sound) :
    session.closeIfIdle.Sound := by
  unfold Session.closeIfIdle
  split
  · split
    · next empty =>
        refine sound_of_idle rfl fun handle stream inUse => ?_
        have registered := sound.registered handle stream (inUse.of_handles rfl)
        have missing : session.streams.lookup stream.streamId = none := by
          rw [AList.lookup_eq_none, AList.mem_keys, AList.keys, List.isEmpty_iff.mp empty]
          exact List.not_mem_nil
        rw [missing] at registered
        cases registered
    · exact sound
  · exact sound

theorem Sound.dropHandle {session : Session} (sound : session.Sound) {handle : Nat}
    {stream : StreamHandle} (found : session.handles[handle]? = some stream)
    (alone : stream.udp = true → ¬session.Foreign handle stream.streamId) :
    (session.dropHandle handle stream).Sound := by
  obtain ⟨sameStreams, sameHandles⟩ := sendFin_same session stream
  have calm := (calm_sendFin session stream).trans (calm_kill _ handle)
  refine Sound.closeIfIdle ((calm.trans (calm_removeOwn ?_)).sound sound)
  intro dead there
  simp only [modifyHandle, List.getElem?_modify, sameHandles, found] at there
  cases there
  refine ⟨by simp, fun udp => ?_⟩
  rintro ⟨other, inUseStream, ne, inUse, registered⟩
  obtain ⟨before, was, _⟩ := calm.streams other inUseStream inUse
  exact alone (by simpa using udp) ⟨other, before, ne, was, sameStreams ▸ registered⟩

theorem Sound.userStep {session next : Session} {event : Event} (sound : session.Sound)
    (survives : session.fails event = false) (alone : session.EndsAlone event)
    (taken : session.userStep event = some next) : next.Sound := by
  cases event with
  | connect udp target =>
      simp only [Session.userStep] at taken
      split at taken
      · cases taken
        have notClosed : session.closed = false := alone.1 trivial
        have calm : Calm session { session with nextStreamId := session.nextStreamId + 1 } :=
          calm_of_same rfl rfl rfl id id
        exact (calm.sound sound).openStream notClosed ⟨by simp, rfl⟩
      · cases taken
  | connectSend handle => exact (calm_connectNext taken).sound sound
  | connectCancel handle => exact (calm_connectDrop taken).sound sound
  | read handle size =>
      obtain ⟨stream, user, rfl⟩ := Option.map_eq_some_iff.mp taken
      exact (sound.calm_read (found_of_user user) size).sound sound
  | write handle data =>
      obtain ⟨stream, _, written⟩ := Option.bind_eq_some_iff.mp taken
      split at written
      · cases written
        exact (calm_queue session _).sound sound
      · cases written
      · cases written
        exact sound
  | shutdown handle =>
      obtain ⟨stream, _, shut⟩ := Option.bind_eq_some_iff.mp taken
      split at shut
      · cases shut
      · split at shut
        · cases shut
          exact ((calm_queue session _).trans (calm_shutdown _ handle)).sound sound
        · cases shut
        · cases shut
          exact sound
  | close handle =>
      obtain ⟨stream, _, closed⟩ := Option.bind_eq_some_iff.mp taken
      split at closed
      · cases closed
        exact sound_close alone.2
      · cases closed
  | drop handle =>
      obtain ⟨stream, user, rfl⟩ := Option.map_eq_some_iff.mp taken
      have found := found_of_user user
      exact sound.dropHandle found (alone.2 stream found)
  | finish => cases survives
  | frame | deliver | readError | readCloser | readTaskEnd | take | flush | writeCloser |
    writeTaskEnd => cases taken

theorem sound_start (side : SessionSide) (settings : Bytes) : (start side settings).Sound where
  registered handle stream inUse := by cases inUse.found
  quiet handle stream inUse := by cases inUse.found
  idle closed := by cases closed
  reading _ := trivial
  writing _ := by cases side <;> trivial

theorem Sound.step {session next : Session} {event : Event}
    (kept : session.failed = true ∨ session.Sound)
    (alone : session.failed = false → session.EndsAlone event)
    (taken : session.step event = some next) : next.failed = true ∨ next.Sound := by
  obtain ⟨after, moved, rfl⟩ := Option.map_eq_some_iff.mp taken
  cases failed : session.failed with
  | true => exact .inl rfl
  | false =>
      cases fails : session.fails event with
      | true => exact .inl rfl
      | false =>
          have sound : session.Sound := kept.resolve_left (by simp [failed])
          have same : Calm after { after with failed := false || false } :=
            calm_of_same rfl rfl rfl id id
          refine .inr (same.sound ?_)
          rcases Option.or_eq_some_iff.mp moved with task | ⟨_, user⟩
          · exact sound.taskStep fails (alone failed) task
          · exact sound.userStep fails (alone failed) user

/-- In every run whose steps end streams alone as long as the session has not
failed, the streams in use stay usable. -/
theorem streamsUsable_of_endsAlone (side : SessionSide) (settings : Bytes)
    (events : List Event) (final : Session)
    (ran : Machine.run step (start side settings) events = some final)
    (alone : Machine.Within step
      (fun session event => session.failed = false → session.EndsAlone event)
      (start side settings) events) :
    final.StreamsUsable := by
  -- A session that has failed stays so; until then every step keeps it sound.
  have sound : final.failed = true ∨ final.Sound := by
    refine Machine.run_within_invariant (fun session => session.failed = true ∨ session.Sound)
      ?_ (.inr (sound_start side settings)) alone ran
    intro session event next kept allowed taken
    exact Sound.step kept allowed taken
  rcases sound with failed | sound
  · exact fun open' => absurd (failed.symm.trans open') (by decide)
  · exact sound.usable

def twoStreams : List Event :=
  [.connect false (.ip (.v4 ⟨192, 0, 2, 1⟩ 443)), .connectSend 0, .connectSend 0,
    .connect true (.ip (.v4 ⟨8, 8, 8, 8⟩ 53)), .connectSend 1, .connectSend 1, .connectSend 1]

theorem streamsUsable_dropped :
    ∃ final, Machine.run step (start (.client false) []) (twoStreams ++ [.drop 1]) =
        some final ∧
      final.failed = false ∧ (∃ stream, final.InUse 0 stream) ∧ final.StreamsUsable := by
  refine ⟨_, rfl, rfl, ⟨_, rfl, rfl, rfl⟩,
    streamsUsable_of_endsAlone (.client false) [] (twoStreams ++ [.drop 1]) _ rfl ?_⟩
  refine (Machine.within_cons_iff rfl).mpr ⟨fun _ => ⟨fun _ => rfl, trivial⟩, ?_⟩
  iterate 2
    refine (Machine.within_cons_iff rfl).mpr ⟨fun _ => ⟨False.elim, trivial⟩, ?_⟩
  refine (Machine.within_cons_iff rfl).mpr ⟨fun _ => ⟨fun _ => rfl, trivial⟩, ?_⟩
  iterate 3
    refine (Machine.within_cons_iff rfl).mpr ⟨fun _ => ⟨False.elim, trivial⟩, ?_⟩
  refine (Machine.within_cons_iff rfl).mpr ⟨fun _ => ⟨False.elim, ?_⟩, trivial⟩
  rintro stream found _ ⟨other, _, ne, _, registered⟩
  cases found
  injection registered with registered
  injection registered with same
  exact ne same.symm

def twoInboundStreams : List Event :=
  [.frame ⟨1, .syn, []⟩, .frame ⟨1, .psh, [1, 192, 0, 2, 1, 1, 187]⟩, .frame ⟨2, .syn, []⟩,
    .frame ⟨2, .psh, (TargetAddr.domain udpOverTcpTarget 53).toBytes⟩,
    .frame ⟨2, .psh, [0, 1, 8, 8, 8, 8, 0, 53]⟩]

theorem close_ends_other_stream :
    (∃ final, Machine.run step (start (.client false) [])
        (twoStreams ++ [.close 1, .readCloser, .readTaskEnd]) = some final ∧
      final.failed = false ∧
        ∃ stream, final.InUse 0 stream ∧ stream.udp = false ∧
          (readHandle final.side (final.hasSender 0 stream) 1 stream).1 = .closed none ∧
            ¬final.StreamsUsable) ∧
    ∃ final, Machine.run step (start .server [])
        (twoInboundStreams ++ [.close 1, .readCloser, .readTaskEnd]) = some final ∧
      final.failed = false ∧
        ∃ stream, final.InUse 0 stream ∧ stream.udp = false ∧
          (readHandle final.side (final.hasSender 0 stream) 1 stream).1 = .closed none ∧
            ¬final.StreamsUsable := by
  constructor
  · refine ⟨_, rfl, rfl, _, ⟨rfl, rfl, rfl⟩, rfl, rfl, fun usable => ?_⟩
    exact (usable rfl 0 _ ⟨rfl, rfl, rfl⟩).1 1 trivial
  · refine ⟨_, rfl, rfl, _, ⟨rfl, rfl, rfl⟩, rfl, rfl, fun usable => ?_⟩
    exact (usable rfl 0 _ ⟨rfl, rfl, rfl⟩).1 1 trivial

end Session

end QuicProxy
