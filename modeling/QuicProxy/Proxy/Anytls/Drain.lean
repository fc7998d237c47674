import QuicProxy.Proxy.Anytls.Registry

namespace QuicProxy

/-! What the streams of a client session read once both of its loops have
ended. -/

namespace Uot

theorem cutPacket_shorter {headerLen : Nat} {data packet rest : Bytes}
    (cut : cutPacket headerLen data = (some packet, rest)) : rest.length < data.length := by
  unfold cutPacket at cut
  split at cut
  · next high low tail shape =>
      dsimp only at cut
      split at cut
      · cases cut
      · cases cut
        rw [List.length_drop]
        omega
  · cases cut

theorem cutPacket_none {headerLen : Nat} {data rest : Bytes}
    (cut : cutPacket headerLen data = (none, rest)) : rest = data := by
  unfold cutPacket at cut
  split at cut
  · dsimp only at cut
    split at cut
    · cases cut
      rfl
    · cases cut
  · cases cut
    rfl

theorem nextPacket_shorter {isConnect : Bool} {data packet rest : Bytes}
    (next : nextPacket isConnect data = .ok (some packet, rest)) :
    rest.length < data.length := by
  unfold nextPacket at next
  split at next
  · exact cutPacket_shorter (Except.ok.inj next)
  · split at next
    · cases next
    · cases next
    · exact cutPacket_shorter (Except.ok.inj next)

theorem nextPacket_none {isConnect : Bool} {data rest : Bytes}
    (next : nextPacket isConnect data = .ok (none, rest)) : rest = data := by
  unfold nextPacket at next
  split at next
  · exact cutPacket_none (Except.ok.inj next)
  · split at next
    · cases next
    · cases next
      rfl
    · exact cutPacket_none (Except.ok.inj next)

end Uot

namespace Session

/-! Reading a stream again and again. -/

/-- The read has found the end of the stream, or fails. -/
def ReadResult.isEnd : ReadResult → Bool
  | .ready _ => false
  | .pending => false
  | .closed _ => true
  | .refused _ => true
  | .malformed _ => true

def ReadResult.data : ReadResult → Bytes
  | .ready bytes => bytes
  | _ => []

theorem ReadResult.data_of_isEnd {result : ReadResult} (isEnd : result.isEnd = true) :
    result.data = [] := by
  cases result with
  | ready bytes => cases isEnd
  | pending | closed | refused | malformed => rfl

def readAll (side : SessionSide) (sender : Bool) : List Nat → StreamHandle → List ReadResult
  | [], _ => []
  | size :: sizes, stream =>
      (readHandle side sender size stream).1 ::
        readAll side sender sizes (readHandle side sender size stream).2

def queuedData : List StreamEvent → Bytes
  | .data bytes :: queue => bytes ++ queuedData queue
  | _ => []

/-- The data that a TCP stream has in front of its end. -/
def unread (stream : StreamHandle) : Bytes :=
  stream.readBuffer ++ if stream.finReceived then [] else queuedData stream.queue

def queueWeight (queue : List StreamEvent) : Nat :=
  (queue.map fun
    | .data bytes => bytes.length + 1
    | _ => 1).sum

def unreadWeight (stream : StreamHandle) : Nat :=
  stream.readBuffer.length + queueWeight stream.queue

/-- What a read does without a sender: it gives data and gets closer to the end,
or finds it. -/
structure Drained (stream : StreamHandle) (after : ReadResult × StreamHandle) : Prop where
  answered : after.1 ≠ .pending
  udp : after.2.udp = stream.udp
  closer : after.1.isEnd = false → unreadWeight after.2 < unreadWeight stream
  unread : stream.udp = false → after.1.data ++ (if after.1.isEnd then [] else unread after.2) =
    unread stream

theorem drained_readTcp (stream : StreamHandle) {size : Nat} (room : 0 < size) :
    Drained stream (readTcp false size stream) := by
  unfold readTcp
  split
  · next empty =>
      have nothing : stream.readBuffer = [] := List.isEmpty_iff.mp empty
      split
      · next ended =>
          refine ⟨nofun, rfl, nofun, fun _ => ?_⟩
          simp [unread, nothing, ended, ReadResult.data, ReadResult.isEnd]
      · next open' =>
          split
          · next bytes queue shape =>
              refine ⟨nofun, rfl, fun _ => ?_, fun _ => ?_⟩
              · have weight : unreadWeight stream = 0 + (bytes.length + 1 + queueWeight queue) := by
                  rw [unreadWeight, nothing, shape]
                  rfl
                rw [weight]
                change (bytes.drop size).length + queueWeight queue < _
                rw [List.length_drop]
                omega
              · have notEnded : stream.finReceived = false := by simpa using open'
                simp only [unread, notEnded, nothing, shape, queuedData, ReadResult.data,
                  ReadResult.isEnd, Bool.false_eq_true, if_false, List.nil_append]
                rw [← List.append_assoc, List.take_append_drop]
          · next queue shape =>
              refine ⟨nofun, rfl, nofun, fun _ => ?_⟩
              simp [unread, nothing, open', shape, queuedData, ReadResult.data, ReadResult.isEnd]
          · next message queue shape =>
              refine ⟨nofun, rfl, nofun, fun _ => ?_⟩
              simp [unread, nothing, open', shape, queuedData, ReadResult.data, ReadResult.isEnd]
          · next shape =>
              refine ⟨nofun, rfl, nofun, fun _ => ?_⟩
              simp [unread, nothing, open', shape, queuedData, ReadResult.data, ReadResult.isEnd]
  · next nonempty =>
      have positive : 0 < stream.readBuffer.length := by
        rw [List.length_pos_iff]
        exact fun nothing => nonempty (List.isEmpty_iff.mpr nothing)
      refine ⟨nofun, rfl, fun _ => ?_, fun _ => ?_⟩
      · change (stream.readBuffer.drop size).length + queueWeight stream.queue <
          stream.readBuffer.length + queueWeight stream.queue
        rw [List.length_drop]
        omega
      · simp only [unread, ReadResult.data, ReadResult.isEnd, Bool.false_eq_true, if_false]
        rw [← List.append_assoc, List.take_append_drop]

theorem recvLoop_drains (side : SessionSide) (isConnect : Bool) (queue : List StreamEvent)
    (buf : Bytes) :
    (recvLoop side isConnect false queue buf).1 ≠ .pending ∧
      ((recvLoop side isConnect false queue buf).1.isEnd = false →
        (recvLoop side isConnect false queue buf).2.1.length +
            queueWeight (recvLoop side isConnect false queue buf).2.2 <
          buf.length + queueWeight queue) := by
  induction queue generalizing buf with
  | nil =>
      simp only [recvLoop]
      split
      · exact ⟨by simp, by simp [ReadResult.isEnd]⟩
      · next packet rest cut =>
          have shorter := Uot.nextPacket_shorter cut
          exact ⟨by simp, fun _ => by dsimp only; omega⟩
      · exact ⟨by simp, by simp [ReadResult.isEnd]⟩
  | cons event queue ih =>
      simp only [recvLoop]
      split
      · exact ⟨by simp, by simp [ReadResult.isEnd]⟩
      · next packet rest cut =>
          have shorter := Uot.nextPacket_shorter cut
          exact ⟨by simp, fun _ => by dsimp only; omega⟩
      · next rest cut =>
          have same := Uot.nextPacket_none cut
          subst same
          split
          · next bytes =>
              obtain ⟨answered, closer⟩ := ih (rest ++ bytes)
              refine ⟨answered, fun notEnd => ?_⟩
              have later := closer notEnd
              have weight : queueWeight (.data bytes :: queue) =
                  bytes.length + 1 + queueWeight queue := rfl
              rw [List.length_append] at later
              omega
          · exact ⟨by simp, by simp [ReadResult.isEnd]⟩
          · exact ⟨by simp, by simp [ReadResult.isEnd]⟩

theorem drained_readHandle (side : SessionSide) (stream : StreamHandle) {size : Nat}
    (room : 0 < size) : Drained stream (readHandle side false size stream) := by
  unfold readHandle
  split
  · next udp =>
      obtain ⟨answered, closer⟩ :=
        recvLoop_drains side stream.isConnect stream.queue stream.readBuffer
      refine ⟨answered, rfl, closer, fun tcp => ?_⟩
      rw [tcp] at udp
      cases udp
  · exact drained_readTcp stream room

/-- Without a sender, reads with room never wait, and find the end of the stream
after at most so many of them; what they give before is what was in front of
it. -/
theorem readAll_drains (side : SessionSide) {sizes : List Nat} (room : ∀ size ∈ sizes, 0 < size)
    (stream : StreamHandle) :
    .pending ∉ readAll side false sizes stream ∧
      (unreadWeight stream < sizes.length →
        (∃ result ∈ readAll side false sizes stream, result.isEnd = true) ∧
          (stream.udp = false →
            ((readAll side false sizes stream).takeWhile fun result => !result.isEnd).flatMap
              ReadResult.data = unread stream)) := by
  induction sizes generalizing stream with
  | nil => exact ⟨List.not_mem_nil, fun enough => absurd enough (Nat.not_lt_zero _)⟩
  | cons size sizes ih =>
      obtain ⟨first, later⟩ := List.forall_mem_cons.mp room
      have drained := drained_readHandle side stream first
      obtain ⟨answered, ends⟩ := ih later (readHandle side false size stream).2
      refine ⟨?_, fun enough => ?_⟩
      · rw [readAll, List.mem_cons, not_or]
        exact ⟨drained.answered.symm, answered⟩
      · rw [readAll]
        cases isEnd : (readHandle side false size stream).1.isEnd with
        | true =>
            refine ⟨⟨_, List.mem_cons_self .., isEnd⟩, fun tcp => ?_⟩
            have unread := drained.unread tcp
            rw [isEnd, if_pos rfl, ReadResult.data_of_isEnd isEnd] at unread
            rw [List.takeWhile_cons_of_neg (by rw [isEnd]; decide), List.flatMap_nil, ← unread]
            rfl
        | false =>
            have closer := drained.closer isEnd
            rw [List.length_cons] at enough
            obtain ⟨⟨result, member, found⟩, gives⟩ := ends (by omega)
            refine ⟨⟨result, List.mem_cons_of_mem _ member, found⟩, fun tcp => ?_⟩
            have unread := drained.unread tcp
            rw [isEnd, if_neg Bool.false_ne_true] at unread
            rw [List.takeWhile_cons_of_pos (by rw [isEnd]; rfl), List.flatMap_cons,
              gives (drained.udp.trans tcp), unread]

/-! Which streams have a sender when the loops have ended. -/

/-- Once the write loop has finished, the registered streams are those of
connects that are still running, and these cannot succeed any more. -/
def Unstranded (session : Session) : Prop :=
  session.writeLoop = .finished → ∀ handle stream, session.handles[handle]? = some stream →
    session.streams.lookup stream.streamId = some (.active handle) → stream.connect ≠ []

theorem Unstranded.of_found {session next : Session} (unstranded : session.Unstranded)
    (finished : next.writeLoop = .finished →
      session.writeLoop = .finished ∨ ∀ streamId, next.streams.lookup streamId = none)
    (entries : ∀ {streamId state}, next.streams.lookup streamId = some state →
      session.streams.lookup streamId = some state)
    (found : ∀ {handle : Nat} {other : StreamHandle}, next.handles[handle]? = some other →
      ∃ stream : StreamHandle, session.handles[handle]? = some stream ∧
        other.streamId = stream.streamId ∧ other.connect = stream.connect) : next.Unstranded := by
  intro ended handle other there registered
  obtain ⟨stream, was, streamId, connect⟩ := found there
  rcases finished ended with earlier | empty
  · rw [connect]
    rw [streamId] at registered
    exact unstranded earlier handle stream was (entries registered)
  · rw [empty] at registered
    cases registered

theorem Sheds.unstranded {session next : Session} (sheds : Sheds session next)
    (unstranded : session.Unstranded) : next.Unstranded := by
  refine unstranded.of_found sheds.finished sheds.entries fun there => ?_
  obtain ⟨stream, found, same⟩ := sheds.found there
  exact ⟨stream, found, congrArg (·.1) same.core, congrArg (·.2.2.2) same.core⟩

theorem unstranded_kill {session : Session} (unstranded : session.Unstranded) (handle : Nat) :
    (session.kill handle).Unstranded := by
  refine unstranded.of_found Or.inl id fun there => ?_
  rcases found_modifyHandle there with ⟨rfl, before, was, rfl⟩ | ⟨-, was⟩
  · exact ⟨before, was, rfl, rfl⟩
  · exact ⟨_, was, rfl, rfl⟩

theorem unstranded_openStream {session : Session} (unstranded : session.Unstranded)
    {stream : StreamHandle} (connecting : stream.connect ≠ []) :
    (session.openStream stream).Unstranded := by
  intro ended handle other there registered
  have writeLoop : (session.supersede stream.streamId).writeLoop = session.writeLoop := by
    unfold supersede
    split <;> rfl
  rcases found_openStream there with ⟨rfl, rfl⟩ | ⟨before, was, same⟩
  · exact connecting
  · have streamId : other.streamId = before.streamId := congrArg (·.1) same.core
    have connect : other.connect = before.connect := congrArg (·.2.2.2) same.core
    rw [connect]
    rcases lookup_openStream registered with ⟨-, new⟩ | ⟨-, old⟩
    · cases new
      exact absurd (List.getElem?_eq_some_iff.mp was).1 (Nat.lt_irrefl _)
    · rw [streamId] at old
      exact unstranded (writeLoop.symm.trans ended) handle before was old

theorem unstranded_step {session next : Session} {event : Event} {idle : Bool}
    (client : session.side = .client idle) (unstranded : session.Unstranded)
    (taken : session.step event = some next) : next.Unstranded := by
  obtain ⟨after, rfl, step⟩ := clientStep_cases client taken
  refine (sheds_failed after _).unstranded ?_
  cases event with
  | connect udp target =>
      cases step
      have numbered :
          Session.Unstranded { session with nextStreamId := session.nextStreamId + 1 } :=
        unstranded
      refine unstranded_openStream numbered ?_
      unfold connectFrames
      split <;> exact List.cons_ne_nil _ _
  | connectSend handle =>
      -- A connect that sends its last frame has a running write loop before it.
      obtain ⟨stream, -, ⟨running, frame, rest, -, rfl⟩ | ⟨-, rfl⟩⟩ := connectNext_cases step
      · intro (ended : session.writeLoop = .finished)
        rw [ended] at running
        exact running.elim
      · exact unstranded_kill unstranded handle
  | connectCancel handle =>
      obtain ⟨stream, -, rfl⟩ := connectDrop_cases step
      exact unstranded_kill unstranded handle
  | drop handle =>
      obtain ⟨stream, -, rfl⟩ := step
      have sent := (sheds_sendFin session stream).unstranded unstranded
      have removed := (sheds_removeOwn _ handle stream.streamId).unstranded
        (unstranded_kill sent handle)
      exact (sheds_closeIfIdle _).unstranded removed
  | _ => exact step.unstranded unstranded

/-- Once both loops of a client have ended, a stream that a connect has returned
has no sender: its reads give what is queued and then its end or an error, and
never wait. -/
theorem stream_drains (idle : Bool) (settings : Bytes) (events : List Event) (final : Session)
    (ran : Machine.run step (start (.client idle) settings) events = some final)
    (readEnded : final.readLoop = .finished) (writeEnded : final.writeLoop = .finished)
    (handle : Nat) (stream : StreamHandle) (found : final.handles[handle]? = some stream)
    (returned : stream.connect = []) :
    final.hasSender handle stream = false ∧
      ∀ sizes, (∀ size ∈ sizes, 0 < size) →
        .pending ∉ readAll final.side (final.hasSender handle stream) sizes stream ∧
          (unreadWeight stream < sizes.length →
            (∃ result ∈ readAll final.side (final.hasSender handle stream) sizes stream,
              result.isEnd = true) ∧
              (stream.udp = false →
                ((readAll final.side (final.hasSender handle stream) sizes stream).takeWhile
                  fun result => !result.isEnd).flatMap ReadResult.data = unread stream)) := by
  have unstranded : final.side = .client idle ∧ final.Unstranded := by
    refine Machine.run_invariant (fun session => session.side = .client idle ∧ session.Unstranded)
      (fun known taken => ⟨side_step known.1 taken, unstranded_step known.1 known.2 taken⟩)
      ⟨rfl, nofun⟩ ran
  have unregistered : final.hasSender handle stream = false := by
    unfold hasSender
    rw [readEnded, Bool.or_false, decide_eq_false_iff_not]
    intro registered
    exact unstranded.2 writeEnded handle stream found registered returned
  refine ⟨unregistered, fun sizes room => ?_⟩
  rw [unregistered]
  exact readAll_drains final.side room stream

def connectedThenFinished : List Event :=
  [.connect false (.ip (.v4 ⟨192, 0, 2, 1⟩ 443)), .connectSend 0, .connectSend 0,
    .frame ⟨1, .psh, [7]⟩, .finish, .writeCloser, .writeTaskEnd, .readCloser, .readTaskEnd]

theorem stream_drains_finished :
    ∃ final stream,
      Machine.run step (start (.client false) []) connectedThenFinished = some final ∧
        final.handles[0]? = some stream ∧ unread stream = [7] ∧
          final.hasSender 0 stream = false ∧
            .pending ∉ readAll final.side (final.hasSender 0 stream) [1, 1, 1] stream := by
  refine ⟨_, _, rfl, rfl, rfl, ?_⟩
  have drains := stream_drains false [] connectedThenFinished _ rfl rfl rfl 0 _ rfl rfl
  exact ⟨drains.1, (drains.2 [1, 1, 1] (by decide)).1⟩

end Session

end QuicProxy
