import QuicProxy.Proxy.Anytls.Registry

namespace QuicProxy

/-! The queue of a client session and the buffer of its write loop: which frames
each step adds, and which TCP stream they are of. -/

namespace Session

def isWriting (session : Session) : Bool :=
  match session.writeLoop with
  | .running _ _ => true
  | _ => false

def tcpUser (session : Session) (handle : Nat) : Option StreamHandle :=
  (session.user handle).filter fun stream => !stream.udp

/-- The TCP stream that writes, is shut down or is dropped. -/
def actor (session : Session) : Event → Option (Nat × StreamHandle)
  | .write handle _ => (session.tcpUser handle).map (handle, ·)
  | .shutdown handle => (session.tcpUser handle).map (handle, ·)
  | .drop handle => (session.tcpUser handle).map (handle, ·)
  | _ => none

def reports (session : Session) : Event → Bytes
  | .write handle data =>
      match (session.tcpUser handle).map (session.writeHandle · data) with
      | some (.sent frame) => data.take frame.data.length
      | _ => []
  | _ => []

/-- A Fin is due: the stream is shut down or dropped while the write loop runs,
and was not shut down before. -/
def owesFin (session : Session) : Event → Bool
  | .shutdown handle => session.isWriting && (session.tcpUser handle).any (!·.finSent)
  | .drop handle => session.isWriting && (session.tcpUser handle).any (!·.finSent)
  | _ => false

/-- The stream that owes the Fin is dropped without a shutdown. -/
def dropsOwing (session : Session) : Event → Bool
  | .drop handle => session.owesFin (.drop handle)
  | _ => false

/-- How many frames the step gives to `write_with_padding`. -/
def handsOver (session : Session) : Event → Nat
  | .flush true =>
      match session.writeLoop with
      | .running _ buffer => buffer.length
      | _ => 0
  | _ => 0

/-- The events on which `write_loop` returns: a frame does not fit, a write
fails, the loop selects its `closer`. -/
def stopsWriting (session : Session) : Event → Bool
  | .take => session.writeTx.head?.any fun frame => !decide frame.Fits
  | .flush ok => !ok
  | .writeCloser => true
  | _ => false

/-! Which steps queue frames. -/

/-- The queue and the write loop are as they were, but for these frames. -/
structure Queues (session next : Session) (added : List Frame) : Prop where
  writeTx : next.writeTx = session.writeTx ++ added
  writeLoop : next.writeLoop = session.writeLoop

namespace Queues

variable {session next third : Session} {added : List Frame}

theorem of_same (writeTx : next.writeTx = session.writeTx)
    (writeLoop : next.writeLoop = session.writeLoop) : Queues session next [] :=
  ⟨by rw [writeTx, List.append_nil], writeLoop⟩

theorem refl (session : Session) : Queues session session [] := of_same rfl rfl

theorem trans (before : Queues session next added) (after : Queues next third []) :
    Queues session third added :=
  ⟨by rw [after.writeTx, before.writeTx, List.append_nil],
    after.writeLoop.trans before.writeLoop⟩

theorem isWriting (queues : Queues session next added) : next.isWriting = session.isWriting := by
  unfold Session.isWriting
  rw [queues.writeLoop]

end Queues

theorem queues_supersede (session : Session) (streamId : UInt32) :
    Queues session (session.supersede streamId) [] := by
  unfold supersede
  split
  · exact .of_same rfl rfl
  · exact .refl session

theorem queues_removeOwn (session : Session) (handle : Nat) (streamId : UInt32) :
    Queues session (session.removeOwn handle streamId) [] := by
  unfold removeOwn
  split
  · split
    · exact .of_same rfl rfl
    · exact (queues_supersede session streamId).trans (.of_same rfl rfl)
  · exact .refl session

theorem queues_endStream (session : Session) (streamId : UInt32) (event : Option StreamEvent) :
    Queues session (session.endStream streamId event) [] := by
  unfold endStream
  split
  · exact .of_same rfl rfl
  · exact .of_same rfl rfl

theorem queues_endStreams (session : Session) (event : Option StreamEvent)
    (streamIds : List UInt32) :
    Queues session
      (streamIds.foldl (fun session streamId => session.endStream streamId event) session) [] := by
  induction streamIds generalizing session with
  | nil => exact .refl session
  | cons streamId streamIds ih => exact (queues_endStream session streamId event).trans (ih _)

theorem queues_sendData (session : Session) (streamId : UInt32) (handle : Nat) (data : Bytes) :
    Queues session (session.sendData streamId handle data) [] := by
  unfold sendData
  split
  · exact .refl session
  · split
    · split
      · exact .of_same rfl rfl
      · exact .of_same rfl rfl
    · exact queues_removeOwn session handle streamId

theorem queues_closeIfIdle (session : Session) : Queues session session.closeIfIdle [] := by
  unfold closeIfIdle
  split
  · split
    · exact .of_same rfl rfl
    · exact .refl session
  · exact .refl session

/-- `try_send` queues the frame exactly when the loop runs and there is room. -/
theorem queues_trySend (session : Session) (frame : Frame) :
    Queues session (session.trySend frame)
      (if session.isWriting = true ∧ session.writeTx.length < sessionQueueCapacity then [frame]
        else []) := by
  unfold trySend isWriting
  cases loop : session.writeLoop with
  | running buffering buffer =>
      dsimp only
      split
      · next room =>
          rw [if_pos ⟨rfl, room⟩]
          exact ⟨rfl, loop.symm⟩
      · next full =>
          rw [if_neg fun both => full both.2]
          exact .refl session
  | returned => exact .refl session
  | finished => exact .refl session

theorem queues_clientFrame (session : Session) (frame : Frame) :
    ∃ added, Queues session (session.clientFrame frame) added := by
  unfold clientFrame
  split
  · split
    · exact ⟨[], queues_sendData ..⟩
    · exact ⟨[], .refl session⟩
  · exact ⟨[], queues_endStream ..⟩
  · split
    · exact ⟨[], .refl session⟩
    · exact ⟨[], queues_endStream ..⟩
  · exact ⟨[], (queues_endStreams session _ _).trans (.of_same rfl rfl)⟩
  · exact ⟨_, queues_trySend ..⟩
  · exact ⟨[], .refl session⟩

theorem queues_deliverData {session next : Session} (taken : session.deliverData = some next) :
    Queues session next [] := by
  unfold deliverData at taken
  split at taken
  · next streamId handle data loop =>
      obtain ⟨stream, there, goes⟩ := Option.bind_eq_some_iff.mp taken
      split at goes
      · cases goes
      · cases goes
        have resumed : Queues session { session with readLoop := .reading } [] := .of_same rfl rfl
        exact resumed.trans (queues_sendData _ streamId handle data)
  · cases taken

theorem queues_dropHandle_of_sendFin {session : Session} {handle : Nat} {stream : StreamHandle}
    {added : List Frame} (sent : Queues session (session.sendFin stream) added) :
    Queues session (session.dropHandle handle stream) added := by
  have killed : Queues (session.sendFin stream) ((session.sendFin stream).kill handle) [] :=
    .of_same rfl rfl
  rw [dropHandle_eq]
  exact ((sent.trans killed).trans (queues_removeOwn ..)).trans (queues_closeIfIdle _)

theorem queues_dropHandle (session : Session) (handle : Nat) (stream : StreamHandle) :
    ∃ added, Queues session (session.dropHandle handle stream) added := by
  have sent : ∃ added, Queues session (session.sendFin stream) added := by
    unfold sendFin
    split
    · exact ⟨[], .refl session⟩
    · exact ⟨_, queues_trySend ..⟩
  obtain ⟨added, sent⟩ := sent
  exact ⟨added, queues_dropHandle_of_sendFin sent⟩

theorem queues_dropHandle_tcp (session : Session) (handle : Nat) {stream : StreamHandle}
    (tcp : stream.udp = false) :
    Queues session (session.dropHandle handle stream)
      (if stream.finSent = false ∧ session.isWriting = true ∧
        session.writeTx.length < sessionQueueCapacity then [⟨stream.streamId, .fin, []⟩]
        else []) := by
  apply queues_dropHandle_of_sendFin
  unfold sendFin
  rw [tcp]
  cases finSent : stream.finSent with
  | true =>
      simp only [Bool.not_false, Bool.and_self, if_true, Bool.true_eq_false, false_and, if_false]
      exact .refl session
  | false =>
      simp only [Bool.and_false, Bool.false_eq_true, if_false, true_and]
      exact queues_trySend session _

/-- What a TCP stream queues in a step: frames with what its write reports, and
its Fin when it owes one and there is room. -/
structure Adds (session : Session) (event : Event) (stream : StreamHandle)
    (added : List Frame) : Prop where
  frames : ∃ pushes : List Bytes, pushes.flatten = session.reports event ∧ [] ∉ pushes ∧
    (stream.finSent = true → pushes = []) ∧
      added = pushes.map (⟨stream.streamId, .psh, ·⟩) ++
        if session.owesFin event = true ∧ session.writeTx.length < sessionQueueCapacity then
          [⟨stream.streamId, .fin, []⟩] else []
  writing : session.isWriting = false → added = []
  owes : session.owesFin event = true → stream.finSent = false
  room : session.owesFin event = true → (∀ handle, event ≠ .drop handle) →
    session.writeTx.length < sessionQueueCapacity

/-- What a step does to the queue and the buffer of the write loop. -/
inductive WriteStep (session : Session) (event : Event) (next : Session) : Prop
  | queues (added : List Frame) (appends : Queues session next added)
      (owned : ∀ handle stream, session.actor event = some (handle, stream) →
        session.Adds event stream added)
      (keeps : session.handsOver event = 0)
  | takes (frame : Frame) (buffering buffering' : Bool) (buffer : List Frame)
      (loop : session.writeLoop = .running buffering buffer)
      (head : session.writeTx = frame :: next.writeTx)
      (loop' : next.writeLoop = .running buffering' (buffer ++ [frame]))
      (task : session.actor event = none) (keeps : session.handsOver event = 0)
  | flushes (buffering : Bool) (buffer : List Frame)
      (loop : session.writeLoop = .running buffering buffer)
      (writeTx : next.writeTx = session.writeTx) (loop' : next.writeLoop = .running false [])
      (task : session.actor event = none) (hands : session.handsOver event = buffer.length)
  | ends (stopped : next.isWriting = false) (fewer : next.writeTx.length ≤ session.writeTx.length)
      (cause : session.isWriting = true → session.stopsWriting event = true)
      (task : session.actor event = none) (keeps : session.handsOver event = 0)

theorem writeStep_same {session next : Session} {event : Event}
    (same : Queues session next []) (task : session.actor event = none)
    (keeps : session.handsOver event = 0) : session.WriteStep event next := by
  refine .queues [] same (fun handle stream actor => ?_) keeps
  rw [task] at actor
  cases actor

theorem writeStep_take {session next : Session} (taken : session.takeFrame = some next) :
    session.WriteStep .take next := by
  unfold takeFrame at taken
  split at taken
  · next buffering buffer frame rest loop head =>
      split at taken
      · rcases Decidable.em frame.Fits with fits | large
        · rw [appendFrame_of_fits fits] at taken
          cases taken
          exact .takes frame buffering _ buffer loop head rfl rfl rfl
        · rw [appendFrame_of_not_fits large] at taken
          cases taken
          refine .ends rfl (Nat.zero_le _) (fun _ => ?_) rfl rfl
          rw [stopsWriting, head, List.head?_cons, Option.any_some, decide_eq_false large]
          rfl
      · cases taken
  · cases taken

theorem writeStep_flush {session next : Session} {ok : Bool}
    (taken : session.flushBuffer ok = some next) : session.WriteStep (.flush ok) next := by
  unfold flushBuffer at taken
  split at taken
  · next frame rest loop =>
      cases ok with
      | true =>
          cases taken
          refine .flushes false (frame :: rest) loop rfl rfl rfl ?_
          rw [handsOver, loop]
      | false =>
          cases taken
          exact .ends rfl (Nat.zero_le _) (fun _ => rfl) rfl rfl
  · cases taken

theorem writeStep_taskStep {session next : Session} {event : Event} {idle : Bool}
    (client : session.side = .client idle) (taken : session.taskStep event = some next) :
    session.WriteStep event next := by
  unfold taskStep at taken
  split at taken
  · split at taken
    · cases taken
      obtain ⟨added, appends⟩ := queues_clientFrame session _
      exact .queues added appends nofun rfl
    · next server =>
        rw [client] at server
        cases server
    · cases taken
  · exact writeStep_same (queues_deliverData taken) rfl rfl
  · split at taken
    · cases taken
      exact writeStep_same (.of_same rfl rfl) rfl rfl
    · cases taken
  · split at taken
    · split at taken
      · cases taken
        exact writeStep_same (.of_same rfl rfl) rfl rfl
      · cases taken
    · cases taken
  · split at taken
    · cases taken
      exact writeStep_same (.of_same rfl rfl) rfl rfl
    · cases taken
  · exact writeStep_take taken
  · exact writeStep_flush taken
  · split at taken
    · split at taken
      · cases taken
        exact .ends rfl (Nat.zero_le _) (fun _ => rfl) rfl rfl
      · cases taken
    · cases taken
  · split at taken
    · next loop _ =>
        cases taken
        refine .ends rfl (Nat.le_refl _) (fun writing => ?_) rfl rfl
        rw [isWriting, loop] at writing
        cases writing
    · next server =>
        rw [client] at server
        cases server
    · cases taken
  · cases taken

/-! The steps of the TCP streams. -/

theorem tcpUser_cases {session : Session} {handle other : Nat} {acting stream : StreamHandle}
    (user : session.user handle = some stream)
    (actor : (session.tcpUser handle).map (handle, ·) = some (other, acting)) :
    other = handle ∧ acting = stream ∧ stream.udp = false ∧
      session.tcpUser handle = some stream := by
  obtain ⟨found, filtered, same⟩ := Option.map_eq_some_iff.mp actor
  cases same
  obtain ⟨user', tcp⟩ := Option.filter_eq_some_iff.mp filtered
  cases user.symm.trans user'
  exact ⟨rfl, rfl, by simpa using tcp, filtered⟩

theorem isWriting_of_running {session : Session} (running : session.writeLoop.Running) :
    session.isWriting = true := by
  unfold isWriting
  cases loop : session.writeLoop with
  | running buffering buffer => rfl
  | returned | finished =>
      rw [loop] at running
      exact running.elim

theorem isWriting_of_not_running {session : Session} (stopped : ¬session.writeLoop.Running) :
    session.isWriting = false := by
  unfold isWriting
  cases loop : session.writeLoop with
  | running buffering buffer =>
      rw [loop] at stopped
      exact absurd trivial stopped
  | returned | finished => rfl

theorem sendFrame_sent {session : Session} {error : String} {frame sent : Frame}
    (result : session.sendFrame error frame = .sent sent) :
    sent = frame ∧ session.isWriting = true ∧
      session.writeTx.length < sessionQueueCapacity := by
  rcases sendFrame_cases session error frame with ⟨running, ⟨same, room⟩ | pending⟩ | ⟨-, broken⟩
  · rw [same] at result
    cases result
    exact ⟨rfl, isWriting_of_running running, room⟩
  · rw [pending] at result
    cases result
  · rw [broken] at result
    cases result

theorem isWriting_of_not_sent {session : Session} {error : String} {frame : Frame}
    (nothing : ∀ sent, session.sendFrame error frame ≠ .sent sent)
    (pending : session.sendFrame error frame ≠ .pending) : session.isWriting = false := by
  rcases sendFrame_cases session error frame with ⟨-, ⟨sent, -⟩ | waits⟩ | ⟨stopped, -⟩
  · exact absurd sent (nothing frame)
  · exact absurd waits pending
  · exact isWriting_of_not_running stopped

/-- The frame of `poll_write` holds the bytes that it reports, and there are
some. -/
theorem writeHandle_sent {session : Session} {stream : StreamHandle} {data : Bytes}
    {frame : Frame} {idle : Bool} (client : session.side = .client idle)
    (tcp : stream.udp = false) (result : session.writeHandle stream data = .sent frame) :
    ∃ chunk, frame = ⟨stream.streamId, .psh, chunk⟩ ∧ chunk ≠ [] ∧
      data.take chunk.length = chunk ∧ stream.finSent = false ∧ session.isWriting = true := by
  unfold writeHandle at result
  rw [tcp, client, if_neg Bool.false_ne_true] at result
  split at result
  · cases result
  · next nonempty =>
      split at result
      · cases result
      · next others =>
          obtain ⟨rfl, writing, -⟩ := sendFrame_sent result
          have open' : stream.finSent = false := by
            cases finSent : stream.finSent with
            | false => rfl
            | true => exact absurd finSent (others idle rfl)
          refine ⟨data.take 65535, rfl, fun nothing => ?_, ?_, open', writing⟩
          · rcases List.take_eq_nil_iff.mp nothing with zero | empty
            · cases zero
            · exact nonempty (List.isEmpty_iff.mpr empty)
          · rw [List.length_take, ← List.take_eq_take_min]

theorem writeStep_write {session next : Session} {handle : Nat} {data : Bytes} {idle : Bool}
    (client : session.side = .client idle)
    (taken : session.userStep (.write handle data) = some next) :
    session.WriteStep (.write handle data) next := by
  obtain ⟨stream, user, written⟩ := Option.bind_eq_some_iff.mp taken
  split at written
  · next frame result =>
      cases written
      refine .queues [frame] ⟨rfl, rfl⟩ (fun other acting actor => ?_) rfl
      obtain ⟨rfl, rfl, tcp, filtered⟩ := tcpUser_cases user actor
      obtain ⟨chunk, rfl, nonempty, same, open', writing⟩ := writeHandle_sent client tcp result
      refine ⟨⟨[chunk], ?_, ?_, fun sent => ?_, rfl⟩, fun stopped => ?_, nofun, nofun⟩
      · rw [reports, filtered, Option.map_some, result]
        exact (List.append_nil chunk).trans same.symm
      · rw [List.mem_singleton]
        exact nonempty.symm
      · rw [open'] at sent
        cases sent
      · rw [writing] at stopped
        cases stopped
  · cases written
  · next nothing _ =>
      cases written
      refine .queues [] (.refl _) (fun other acting actor => ?_) rfl
      obtain ⟨rfl, rfl, tcp, filtered⟩ := tcpUser_cases user actor
      refine ⟨⟨[], ?_, List.not_mem_nil, fun _ => rfl, rfl⟩, fun _ => rfl, nofun, nofun⟩
      rw [reports, filtered, Option.map_some]
      split
      · next frame sent => exact absurd (Option.some.inj sent) (nothing frame)
      · rfl

theorem owesFin_of_user {session : Session} {handle : Nat} {stream : StreamHandle}
    (filtered : session.tcpUser handle = some stream) :
    (session.isWriting && (session.tcpUser handle).any (!·.finSent)) =
      (session.isWriting && !stream.finSent) := by
  rw [filtered, Option.any_some]

theorem writeStep_shutdown {session next : Session} {handle : Nat}
    (taken : session.userStep (.shutdown handle) = some next) :
    session.WriteStep (.shutdown handle) next := by
  obtain ⟨stream, user, shut⟩ := Option.bind_eq_some_iff.mp taken
  split at shut
  · cases shut
  · next fresh =>
      have open' : stream.finSent = false := by
        rw [Bool.not_eq_true, Bool.or_eq_false_iff] at fresh
        exact fresh.2
      split at shut
      · next frame result =>
          cases shut
          obtain ⟨rfl, writing, room⟩ := sendFrame_sent result
          refine .queues [_] ⟨rfl, rfl⟩ (fun other acting actor => ?_) rfl
          obtain ⟨rfl, rfl, tcp, filtered⟩ := tcpUser_cases user actor
          refine ⟨⟨[], rfl, List.not_mem_nil, fun _ => rfl, ?_⟩, fun stopped => ?_,
            fun _ => open', fun _ _ => room⟩
          · rw [owesFin, owesFin_of_user filtered, writing, open', if_pos ⟨rfl, room⟩]
            rfl
          · rw [writing] at stopped
            cases stopped
      · cases shut
      · next nothing pending =>
          cases shut
          have stopped := isWriting_of_not_sent nothing pending
          refine .queues [] (.refl _) (fun other acting actor => ?_) rfl
          obtain ⟨rfl, rfl, tcp, filtered⟩ := tcpUser_cases user actor
          have none : session.owesFin (.shutdown other) = false := by
            rw [owesFin, stopped]
            rfl
          refine ⟨⟨[], rfl, List.not_mem_nil, fun _ => rfl, ?_⟩, fun _ => rfl, fun _ => open', ?_⟩
          · rw [none]
            rfl
          · rw [none]
            exact nofun

theorem writeStep_drop {session next : Session} {handle : Nat}
    (taken : session.userStep (.drop handle) = some next) :
    session.WriteStep (.drop handle) next := by
  obtain ⟨stream, user, rfl⟩ := Option.map_eq_some_iff.mp taken
  cases tcp : stream.udp with
  | true =>
      obtain ⟨added, appends⟩ := queues_dropHandle session handle stream
      refine .queues added appends (fun other acting actor => ?_) rfl
      obtain ⟨-, -, tcp', -⟩ := tcpUser_cases user actor
      rw [tcp] at tcp'
      cases tcp'
  | false =>
      refine .queues _ (queues_dropHandle_tcp session handle tcp) (fun other acting actor => ?_) rfl
      obtain ⟨rfl, rfl, -, filtered⟩ := tcpUser_cases user actor
      refine ⟨⟨[], rfl, List.not_mem_nil, fun _ => rfl, ?_⟩, fun stopped => ?_, fun due => ?_,
        fun _ notDrop => absurd rfl (notDrop _)⟩
      · rw [owesFin, owesFin_of_user filtered, List.map_nil, List.nil_append]
        refine if_congr ?_ rfl rfl
        rw [Bool.and_eq_true, Bool.not_eq_true', and_assoc]
        exact and_left_comm
      · rw [if_neg]
        rintro ⟨-, writing, -⟩
        rw [stopped] at writing
        cases writing
      · rw [owesFin, owesFin_of_user filtered, Bool.and_eq_true, Bool.not_eq_true'] at due
        exact due.2

theorem writeStep_userStep {session next : Session} {event : Event} {idle : Bool}
    (client : session.side = .client idle) (taken : session.userStep event = some next) :
    session.WriteStep event next := by
  cases event with
  | connect udp target =>
      simp only [userStep] at taken
      split at taken
      · cases taken
        have superseded := queues_supersede
          { session with nextStreamId := session.nextStreamId + 1 } session.nextStreamId
        exact writeStep_same ⟨superseded.writeTx, superseded.writeLoop⟩ rfl rfl
      · cases taken
  | connectSend handle =>
      obtain ⟨stream, -, ⟨-, frame, rest, -, rfl⟩ | ⟨-, rfl⟩⟩ := connectNext_cases taken
      · refine .queues [frame] ⟨rfl, rfl⟩ (fun _ _ actor => ?_) rfl
        cases actor
      · exact writeStep_same (.of_same rfl rfl) rfl rfl
  | connectCancel handle =>
      obtain ⟨stream, -, rfl⟩ := connectDrop_cases taken
      exact writeStep_same (.of_same rfl rfl) rfl rfl
  | read handle size =>
      obtain ⟨stream, -, rfl⟩ := Option.map_eq_some_iff.mp taken
      exact writeStep_same (.of_same rfl rfl) rfl rfl
  | write handle data => exact writeStep_write client taken
  | shutdown handle => exact writeStep_shutdown taken
  | close handle =>
      obtain ⟨stream, -, closed⟩ := Option.bind_eq_some_iff.mp taken
      split at closed
      · cases closed
        exact writeStep_same (.of_same rfl rfl) rfl rfl
      · cases closed
  | drop handle => exact writeStep_drop taken
  | finish =>
      simp only [userStep] at taken
      split at taken
      · cases taken
        exact writeStep_same (.of_same rfl rfl) rfl rfl
      · cases taken
  | frame | deliver | readError | readCloser | readTaskEnd | take | flush | writeCloser |
    writeTaskEnd => cases taken

theorem WriteStep.failed {session next : Session} {event : Event} (failed : Bool)
    (step : session.WriteStep event next) : session.WriteStep event { next with failed } := by
  cases step with
  | queues added appends owned keeps =>
      exact .queues added ⟨appends.writeTx, appends.writeLoop⟩ owned keeps
  | takes frame buffering buffering' buffer loop head loop' task keeps =>
      exact .takes frame buffering buffering' buffer loop head loop' task keeps
  | flushes buffering buffer loop writeTx loop' task hands =>
      exact .flushes buffering buffer loop writeTx loop' task hands
  | ends stopped fewer cause task keeps => exact .ends stopped fewer cause task keeps

theorem writeStep_step {session next : Session} {event : Event} {idle : Bool}
    (client : session.side = .client idle) (taken : session.step event = some next) :
    session.WriteStep event next := by
  obtain ⟨after, moved, rfl⟩ := Option.map_eq_some_iff.mp taken
  rcases Option.or_eq_some_iff.mp moved with task | ⟨-, user⟩
  · exact (writeStep_taskStep client task).failed _
  · exact (writeStep_userStep client user).failed _

theorem stopped_of_stopsWriting {session next : Session} {event : Event}
    (taken : session.step event = some next) (stops : session.stopsWriting event = true) :
    next.isWriting = false ∧ session.handsOver event = 0 := by
  obtain ⟨after, moved, rfl⟩ := Option.map_eq_some_iff.mp taken
  rcases Option.or_eq_some_iff.mp moved with task | ⟨-, user⟩
  · unfold stopsWriting at stops
    split at stops
    · have took : session.takeFrame = some after := task
      unfold takeFrame at took
      split at took
      · next buffering buffer frame rest loop head =>
          rw [head, List.head?_cons, Option.any_some, Bool.not_eq_true', decide_eq_false_iff_not]
            at stops
          split at took
          · rw [appendFrame_of_not_fits stops] at took
            cases took
            exact ⟨rfl, rfl⟩
          · cases took
      · cases took
    · next ok =>
        cases ok with
        | true => cases stops
        | false =>
            have flushed : session.flushBuffer false = some after := task
            unfold flushBuffer at flushed
            split at flushed
            · cases flushed
              exact ⟨rfl, rfl⟩
            · cases flushed
    · simp only [taskStep] at task
      split at task
      · split at task
        · cases task
          exact ⟨rfl, rfl⟩
        · cases task
      · cases task
    · cases stops
  · cases event with
    | take | flush | writeCloser => cases user
    | _ => cases stops

theorem shut_of_owesFin {session next : Session} {event : Event} {handle : Nat}
    {stream other : StreamHandle} (taken : session.step event = some next)
    (actor : session.actor event = some (handle, stream))
    (owes : session.owesFin event = true) (there : next.handles[handle]? = some other) :
    other.finSent = true ∨ other.live = false := by
  obtain ⟨after, moved, rfl⟩ := Option.map_eq_some_iff.mp taken
  change after.handles[handle]? = some other at there
  cases event with
  | shutdown target =>
      have shut : session.userStep (.shutdown target) = some after := moved
      obtain ⟨acting, user, goes⟩ := Option.bind_eq_some_iff.mp shut
      obtain ⟨rfl, rfl, -, -⟩ := tcpUser_cases user actor
      split at goes
      · cases goes
      · split at goes
        · cases goes
          rcases found_modifyHandle there with ⟨-, before, -, rfl⟩ | ⟨different, -⟩
          · exact Or.inl rfl
          · exact absurd rfl different
        · cases goes
        · next nothing pending =>
            rw [owesFin, isWriting_of_not_sent nothing pending] at owes
            cases owes
  | drop target =>
      have drops : session.userStep (.drop target) = some after := moved
      obtain ⟨acting, user, rfl⟩ := Option.map_eq_some_iff.mp drops
      obtain ⟨rfl, rfl, -, -⟩ := tcpUser_cases user actor
      have sheds := (sheds_removeOwn ((session.sendFin stream).kill handle) handle
        stream.streamId).trans (sheds_closeIfIdle _)
      obtain ⟨before, was, ages⟩ := sheds.found there
      rcases found_modifyHandle was with ⟨-, earlier, -, rfl⟩ | ⟨different, -⟩
      · exact Or.inr (congrArg (·.2.2.1) ages.core)
      · exact absurd rfl different
  | _ => cases owes

end Session

end QuicProxy
