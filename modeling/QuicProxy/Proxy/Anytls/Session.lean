import Mathlib.Data.List.AList
import QuicProxy.Data.Machine
import QuicProxy.Proxy.Anytls.Packet
import QuicProxy.Proxy.Inbound

namespace QuicProxy

/-! AnyTLS sessions and the streams they multiplex: `Session`
(`src/proxy/outbound/anytls.rs`) and `InboundSession`
(`src/proxy/inbound/anytls.rs`), whose tasks and stream objects take turns in
any order. -/

def sessionQueueCapacity : Nat := 256

def streamQueueCapacity : Nat := 16

def sessionWriteBatchBytes : Nat := 256 * 1024

def udpOverTcpTarget : String := "sp.v2.udp-over-tcp.arpa"

/-- `StreamState`; an active stream is the index of its object.  A client
session only has active ones. -/
inductive StreamState where
  | pending
  | waitingUotRequest (target : TargetAddr)
  | active (handle : Nat)
deriving DecidableEq

/-- A stream object with its channel: `AnytlsProxyStream` or `AnytlsUdpSocket`
at a client, `AnytlsInboundStream` or `AnytlsInboundUdp` at a server. -/
structure StreamHandle where
  streamId : UInt32
  udp : Bool
  isConnect : Bool
  /-- The frames that a running `connect_stream` or `connect_packet` still has
  to send. -/
  connect : List Frame
  queue : List StreamEvent
  readBuffer : Bytes
  finReceived : Bool
  finSent : Bool
  /-- The object, or the connect that is going to make it, has not been dropped. -/
  live : Bool
  /-- Whether the stream's end is its own affair: it was closed, its Fin or
  error frame came, or another stream took its entry. -/
  ended : Bool

inductive ReadLoop where
  | reading
  /-- A full queue keeps the loop in `tx.send`. -/
  | delivering (streamId : UInt32) (handle : Nat) (data : Bytes)
  | returned
  | finished

inductive WriteLoop where
  | running (buffering : Bool) (buffer : List Frame)
  | returned
  | finished

inductive SessionSide where
  | client (closeWhenIdle : Bool)
  | server

/-- A session; `failed` records that something has happened that ends it by
itself. -/
structure Session where
  side : SessionSide
  streams : AList fun _ : UInt32 => StreamState
  handles : List StreamHandle
  nextStreamId : UInt32
  writeTx : List Frame
  closed : Bool
  readLoop : ReadLoop
  writeLoop : WriteLoop
  failed : Bool

namespace Session

def start (side : SessionSide) (settings : Bytes) : Session where
  side := side
  streams := ∅
  handles := []
  nextStreamId := 1
  writeTx :=
    match side with
    | .client _ => [⟨0, .settings, settings⟩]
    | .server => []
  closed := false
  readLoop := .reading
  writeLoop :=
    match side with
    | .client _ => .running true []
    | .server => .running false []
  failed := false

/-! The table of streams and the channels. -/

def modifyHandle (session : Session) (handle : Nat) (change : StreamHandle → StreamHandle) :
    Session :=
  { session with handles := session.handles.modify handle change }

/-- `write_tx.try_send`, whose result no caller looks at. -/
def trySend (session : Session) (frame : Frame) : Session :=
  match session.writeLoop with
  | .running _ _ =>
      if session.writeTx.length < sessionQueueCapacity then
        { session with writeTx := session.writeTx ++ [frame] }
      else session
  | _ => session

/-- The stream under an id loses its entry to something other than the end of a
UDP stream. -/
def supersede (session : Session) (streamId : UInt32) : Session :=
  match session.streams.lookup streamId with
  | some (.active handle) => session.modifyHandle handle fun stream => { stream with ended := true }
  | _ => session

def insertStream (session : Session) (streamId : UInt32) (state : StreamState) : Session :=
  let session := session.supersede streamId
  { session with streams := session.streams.insert streamId state }

def removeStream (session : Session) (streamId : UInt32) : Session :=
  { session with streams := session.streams.erase streamId }

/-- `streams.remove` on behalf of the object `handle`, which may have lost the
entry to another stream. -/
def removeOwn (session : Session) (handle : Nat) (streamId : UInt32) : Session :=
  match session.handles[handle]? with
  | some stream =>
      if stream.udp then session.removeStream streamId
      else (session.supersede streamId).removeStream streamId
  | none => session

def endStream (session : Session) (streamId : UInt32) (event : Option StreamEvent) : Session :=
  let session :=
    match session.streams.lookup streamId with
    | some (.active handle) =>
        session.modifyHandle handle fun stream =>
          if stream.queue.length < streamQueueCapacity then
            { stream with queue := stream.queue ++ event.toList, ended := true }
          else { stream with ended := true }
    | _ => session
  session.removeStream streamId

/-- `closer.close` and `streams.clear`: `finish` of a client, and the end of the
read task of a server. -/
def finish (session : Session) : Session :=
  { session with closed := true, streams := ∅ }

def hasSender (session : Session) (handle : Nat) (stream : StreamHandle) : Bool :=
  session.streams.lookup stream.streamId = some (.active handle) ||
    match session.readLoop with
    | .delivering _ other _ => other == handle
    | _ => false

def sendData (session : Session) (streamId : UInt32) (handle : Nat) (data : Bytes) : Session :=
  match session.handles[handle]? with
  | none => session
  | some stream =>
      if stream.live then
        if stream.queue.length < streamQueueCapacity then
          session.modifyHandle handle fun stream =>
            { stream with queue := stream.queue ++ [.data data] }
        else { session with readLoop := .delivering streamId handle data }
      else session.removeOwn handle streamId

/-! Frames at a client. -/

/-- One round of `Session::read_loop`. -/
def clientFrame (session : Session) (frame : Frame) : Session :=
  match frame.cmd with
  | .psh =>
      match session.streams.lookup frame.streamId with
      | some (.active handle) => session.sendData frame.streamId handle frame.data
      | _ => session
  | .fin => session.endStream frame.streamId (some .fin)
  | .synAck =>
      if frame.data.isEmpty then session
      else session.endStream frame.streamId (some (.synAckError frame.data))
  | .alert =>
      let message := asBytes ("server alert: " ++ fromUtf8Lossy frame.data)
      let session := session.streams.keys.foldl
        (fun session streamId => session.endStream streamId (some (.synAckError message)))
        session
      { session with readLoop := .returned }
  | .heartRequest => session.trySend ⟨0, .heartResponse, []⟩
  | _ => session

/-! Frames at a server. -/

def openStream (session : Session) (stream : StreamHandle) : Session :=
  let session := session.insertStream stream.streamId (.active session.handles.length)
  { session with handles := session.handles ++ [stream] }

def inboundHandle (streamId : UInt32) (udp isConnect : Bool) (queue : List StreamEvent) :
    StreamHandle :=
  ⟨streamId, udp, isConnect, [], queue, [], false, false, true, false⟩

def refuseStream (session : Session) (streamId : UInt32) : Session :=
  (session.trySend ⟨streamId, .fin, []⟩).removeStream streamId

def uotRequest (streamId : UInt32) : Bytes → Option StreamHandle
  | [] => none
  | mode :: data =>
      match TargetAddr.readFrom data with
      | .error _ => none
      | .ok (_, remaining) =>
          some (inboundHandle streamId true (mode ≠ 0)
            (if remaining.isEmpty then [] else [.data remaining]))

def handleUotRequest (session : Session) (streamId : UInt32) (data : Bytes) : Session :=
  match uotRequest streamId data with
  | none => session.refuseStream streamId
  | some stream => session.openStream stream

def handleFirstPsh (session : Session) (streamId : UInt32) (data : Bytes) : Session :=
  match Anytls.parseTargetFromSyn data with
  -- The panic ends the task without closing anything.
  | none => { session with readLoop := .finished }
  | some (.error _) => session.refuseStream streamId
  | some (.ok (.domain name port)) =>
      if name = udpOverTcpTarget then
        session.insertStream streamId (.waitingUotRequest (.domain name port))
      else session.openStream (inboundHandle streamId false false [])
  | some (.ok (.ip _)) => session.openStream (inboundHandle streamId false false [])

/-- One round of `InboundSession::read_loop`. -/
def serverFrame (session : Session) (frame : Frame) : Session :=
  match frame.cmd with
  | .syn =>
      (session.insertStream frame.streamId .pending).trySend ⟨frame.streamId, .synAck, []⟩
  | .psh =>
      match session.streams.lookup frame.streamId with
      | some .pending => session.handleFirstPsh frame.streamId frame.data
      | some (.waitingUotRequest _) => session.handleUotRequest frame.streamId frame.data
      | some (.active handle) => session.sendData frame.streamId handle frame.data
      | none => session
  | .fin => session.endStream frame.streamId none
  | .heartRequest => session.trySend ⟨0, .heartResponse, []⟩
  | .alert => { session with readLoop := .returned }
  | _ => session

/-! Stream objects. -/

inductive ReadResult where
  | ready (data : Bytes)
  | pending
  | closed (error : Option String)
  | refused (message : Bytes)
  | malformed (error : String)
deriving DecidableEq

def udpReadClosed : SessionSide → String
  | .client _ => "UDP stream channel closed"
  | .server => "UDP stream closed"

/-- The loop of `read_next_msg`; `sender` says that the channel has a sender. -/
def recvLoop (side : SessionSide) (isConnect sender : Bool) :
    List StreamEvent → Bytes → ReadResult × Bytes × List StreamEvent
  | [], buf =>
      match Uot.nextPacket isConnect buf with
      | .error error => (.malformed error, buf, [])
      | .ok (some packet, buf) => (.ready packet, buf, [])
      | .ok (none, buf) =>
          (if sender then .pending else .closed (some (udpReadClosed side)), buf, [])
  | event :: events, buf =>
      match Uot.nextPacket isConnect buf with
      | .error error => (.malformed error, buf, event :: events)
      | .ok (some packet, buf) => (.ready packet, buf, event :: events)
      | .ok (none, buf) =>
          match event with
          | .data bytes => recvLoop side isConnect sender events (buf ++ bytes)
          | .fin => (.closed (some "UDP stream closed by remote"), buf, events)
          | .synAckError message => (.refused message, buf, events)

def readTcp (sender : Bool) (size : Nat) (stream : StreamHandle) :
    ReadResult × StreamHandle :=
  if stream.readBuffer.isEmpty then
    if stream.finReceived then (.closed none, stream)
    else
      match stream.queue with
      | .data bytes :: queue =>
          (.ready (bytes.take size),
            { stream with queue := queue, readBuffer := bytes.drop size })
      | .fin :: queue => (.closed none, { stream with queue := queue, finReceived := true })
      | .synAckError message :: queue => (.refused message, { stream with queue := queue })
      | [] =>
          if sender then (.pending, stream)
          else (.closed none, { stream with finReceived := true })
  else
    (.ready (stream.readBuffer.take size),
      { stream with readBuffer := stream.readBuffer.drop size })

def readHandle (side : SessionSide) (sender : Bool) (size : Nat) (stream : StreamHandle) :
    ReadResult × StreamHandle :=
  if stream.udp then
    match recvLoop side stream.isConnect sender stream.queue stream.readBuffer with
    | (result, buffer, queue) =>
        (result, { stream with readBuffer := buffer, queue := queue })
  else readTcp sender size stream

inductive WriteResult where
  | nothing
  | sent (frame : Frame)
  | pending
  | brokenPipe (error : String)
deriving DecidableEq

/-- A send that waits for room in the session's queue; `error` is what the
caller makes of a closed one. -/
def sendFrame (session : Session) (error : String) (frame : Frame) : WriteResult :=
  match session.writeLoop with
  | .running _ _ =>
      if session.writeTx.length < sessionQueueCapacity then .sent frame else .pending
  | _ => .brokenPipe error

def udpWriteClosed : SessionSide → String
  | .client _ => "UDP write channel closed"
  | .server => "UDP write closed"

/-- A write of a stream object: `poll_write` takes at most 65535 bytes, `send_to`
the whole packet. -/
def writeHandle (session : Session) (stream : StreamHandle) (data : Bytes) : WriteResult :=
  if stream.udp then
    session.sendFrame (udpWriteClosed session.side) ⟨stream.streamId, .psh, data⟩
  else if data.isEmpty then .nothing
  else
    match session.side, stream.finSent with
    | .client _, true => .brokenPipe "stream already closed"
    | _, _ => session.sendFrame "session closed" ⟨stream.streamId, .psh, data.take 65535⟩

def connectFrames (streamId : UInt32) (udp : Bool) (target : TargetAddr) : List Frame :=
  if udp then
    [⟨streamId, .syn, []⟩,
      ⟨streamId, .psh, (TargetAddr.domain udpOverTcpTarget target.port).toBytes⟩,
      ⟨streamId, .psh, 0 :: target.toBytes⟩]
  else [⟨streamId, .syn, []⟩, ⟨streamId, .psh, target.toBytes⟩]

def sendFin (session : Session) (stream : StreamHandle) : Session :=
  if !stream.udp && stream.finSent then session
  else session.trySend ⟨stream.streamId, .fin, []⟩

/-- The end of `unregister_stream`. -/
def closeIfIdle (session : Session) : Session :=
  match session.side with
  | .client true => if session.streams.entries.isEmpty then session.finish else session
  | _ => session

/-- The drop of a stream object; at a client it ends in `unregister_stream`. -/
def dropHandle (session : Session) (handle : Nat) (stream : StreamHandle) : Session :=
  (((session.sendFin stream).modifyHandle handle fun stream =>
    { stream with live := false }).removeOwn handle stream.streamId).closeIfIdle

/-! Steps. -/

inductive Event where
  | frame (frame : Frame)
  /-- A blocked `tx.send` of the read loop goes on. -/
  | deliver
  | readError
  | readCloser
  | readTaskEnd
  | take
  | flush (ok : Bool)
  | writeCloser
  | writeTaskEnd
  | connect (udp : Bool) (target : TargetAddr)
  | connectSend (handle : Nat)
  | connectCancel (handle : Nat)
  | read (handle size : Nat)
  | write (handle : Nat) (data : Bytes)
  | shutdown (handle : Nat)
  /-- `close` on the `closer` of a packet object. -/
  | close (handle : Nat)
  | drop (handle : Nat)
  | finish

def user (session : Session) (handle : Nat) : Option StreamHandle :=
  session.handles[handle]?.filter fun stream => stream.live && stream.connect.isEmpty

def connectStream (session : Session) (udp : Bool) (target : TargetAddr) : Session :=
  let streamId := session.nextStreamId
  let session := { session with nextStreamId := streamId + 1 }
  session.openStream
    ⟨streamId, udp, false, connectFrames streamId udp target, [], [], false, false, true, false⟩

def connectNext (session : Session) (handle : Nat) : Option Session :=
  match session.handles[handle]? with
  | none => none
  | some stream =>
      if stream.live then
        match stream.connect with
        | [] => none
        | frame :: rest =>
            match session.sendFrame "session write channel closed" frame with
            | .sent frame =>
                some ({ session with writeTx := session.writeTx ++ [frame] }.modifyHandle handle
                  fun stream => { stream with connect := rest })
            | .brokenPipe _ =>
                some (session.modifyHandle handle fun stream => { stream with live := false })
            | _ => none
      else none

def connectDrop (session : Session) (handle : Nat) : Option Session :=
  match session.handles[handle]? with
  | none => none
  | some stream =>
      if stream.live && !stream.connect.isEmpty then
        some (session.modifyHandle handle fun stream => { stream with live := false })
      else none

def takesMore (side : SessionSide) (buffering : Bool) (buffer : List Frame) : Bool :=
  match side with
  | .client _ =>
      buffering || decide ((buffer.flatMap Frame.toBytes).length < sessionWriteBatchBytes)
  | .server => buffer.isEmpty

def takeFrame (session : Session) : Option Session :=
  match session.writeLoop, session.writeTx with
  | .running buffering buffer, frame :: rest =>
      if takesMore session.side buffering buffer then
        match appendFrame [] frame with
        | .error _ => some { session with writeTx := [], writeLoop := .returned }
        | .ok _ =>
            some { session with
              writeTx := rest
              writeLoop := .running (buffering && frame.cmd ≠ .psh) (buffer ++ [frame]) }
      else none
  | _, _ => none

def flushBuffer (session : Session) (ok : Bool) : Option Session :=
  match session.writeLoop with
  | .running false (_ :: _) =>
      if ok then some { session with writeLoop := .running false [] }
      else some { session with writeTx := [], writeLoop := .returned }
  | _ => none

def deliverData (session : Session) : Option Session :=
  match session.readLoop with
  | .delivering streamId handle data =>
      session.handles[handle]?.bind fun stream =>
        if stream.live && decide (stream.queue.length ≥ streamQueueCapacity) then none
        else
          some (({ session with readLoop := .reading } : Session).sendData streamId handle data)
  | _ => none

def taskStep (session : Session) : Event → Option Session
  | .frame frame =>
      match session.readLoop, session.side with
      | .reading, .client _ => some (session.clientFrame frame)
      | .reading, .server => some (session.serverFrame frame)
      | _, _ => none
  | .deliver => session.deliverData
  | .readError =>
      match session.readLoop with
      | .reading => some { session with readLoop := .returned }
      | _ => none
  | .readCloser =>
      match session.readLoop with
      | .reading => if session.closed then some { session with readLoop := .returned } else none
      | _ => none
  | .readTaskEnd =>
      match session.readLoop with
      | .returned => some { session.finish with readLoop := .finished }
      | _ => none
  | .take => session.takeFrame
  | .flush ok => session.flushBuffer ok
  | .writeCloser =>
      match session.writeLoop with
      | .running buffering buffer =>
          if session.closed && (buffering || buffer.isEmpty) then
            some { session with writeTx := [], writeLoop := .returned }
          else none
      | _ => none
  | .writeTaskEnd =>
      match session.writeLoop, session.side with
      | .returned, .client _ => some { session.finish with writeLoop := .finished }
      | .returned, .server => some { session with closed := true, writeLoop := .finished }
      | _, _ => none
  | _ => none

def userStep (session : Session) : Event → Option Session
  | .connect udp target =>
      match session.side with
      | .client _ => some (session.connectStream udp target)
      | .server => none
  | .connectSend handle => session.connectNext handle
  | .connectCancel handle => session.connectDrop handle
  | .read handle size =>
      (session.user handle).map fun stream =>
        session.modifyHandle handle fun _ =>
          (readHandle session.side (session.hasSender handle stream) size stream).2
  | .write handle data =>
      (session.user handle).bind fun stream =>
        match session.writeHandle stream data with
        | .sent frame => some { session with writeTx := session.writeTx ++ [frame] }
        | .pending => none
        | _ => some session
  | .shutdown handle =>
      (session.user handle).bind fun stream =>
        if stream.udp || stream.finSent then none
        else
          match session.sendFrame "session closed" ⟨stream.streamId, .fin, []⟩ with
          | .sent frame =>
              some ({ session with writeTx := session.writeTx ++ [frame] }.modifyHandle handle
                fun stream => { stream with finSent := true })
          | .pending => none
          | _ => some session
  | .close handle =>
      session.handles[handle]?.bind fun stream =>
        if stream.udp && stream.connect.isEmpty then
          some ({ session with closed := true }.modifyHandle handle
            fun stream => { stream with ended := true })
        else none
  | .drop handle => (session.user handle).map fun stream => session.dropHandle handle stream
  | .finish =>
      match session.side with
      | .client _ => some session.finish
      | .server => none
  | _ => none

/-- The events that end a session by themselves: a failure of the transport, a
frame that neither side can go on after, a frame that does not fit, and the
owner's `finish`. -/
def fails (session : Session) : Event → Bool
  | .frame frame =>
      match frame.cmd, session.side, session.streams.lookup frame.streamId with
      | .alert, _, _ => true
      | .psh, .server, some .pending => (Anytls.parseTargetFromSyn frame.data).isNone
      | _, _, _ => false
  | .readError => true
  | .take => session.writeTx.head?.any fun frame => !decide frame.Fits
  | .flush ok => !ok
  | .finish => true
  | _ => false

def step (session : Session) (event : Event) : Option Session :=
  ((session.taskStep event).or (session.userStep event)).map fun next =>
    { next with failed := session.failed || session.fails event }

end Session

end QuicProxy
