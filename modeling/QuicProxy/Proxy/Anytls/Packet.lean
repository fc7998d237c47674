import QuicProxy.Proxy.Anytls.Frame
import QuicProxy.Proxy.Anytls.Uot

namespace QuicProxy

/-! The two ends of a UDP-over-TCP stream: `AnytlsUdpSocket`
(`src/proxy/outbound/anytls.rs`) and `AnytlsInboundUdp`
(`src/proxy/inbound/anytls.rs`). -/

inductive StreamEvent where
  | data (bytes : Bytes)
  | fin
  | synAckError (message : Bytes)
deriving DecidableEq

/-- The client end.  `eventRx` is what its channel is going to give before it
is closed. -/
structure AnytlsUdpSocket where
  streamId : UInt32
  isConnect : Bool
  eventRx : List StreamEvent
  readBuffer : Bytes

namespace AnytlsUdpSocket

def readEvents (isConnect : Bool) :
    List StreamEvent → Bytes → Except String Bytes × Bytes × List StreamEvent
  | [], buf =>
      match Uot.nextPacket isConnect buf with
      | .error error => (.error error, buf, [])
      | .ok (some packet, buf) => (.ok packet, buf, [])
      | .ok (none, buf) => (.error "UDP stream channel closed", buf, [])
  | event :: events, buf =>
      match Uot.nextPacket isConnect buf with
      | .error error => (.error error, buf, event :: events)
      | .ok (some packet, buf) => (.ok packet, buf, event :: events)
      | .ok (none, buf) =>
          match event with
          | .data bytes => readEvents isConnect events (buf ++ bytes)
          | .fin => (.error "UDP stream closed by remote", buf, events)
          | .synAckError message =>
              (.error ("UDP stream error: " ++ fromUtf8Lossy message), buf, events)

def readNextMsg (socket : AnytlsUdpSocket) : Except String Bytes × AnytlsUdpSocket :=
  match readEvents socket.isConnect socket.eventRx socket.readBuffer with
  | (result, buf, events) => (result, { socket with eventRx := events, readBuffer := buf })

/-- `send_to` on an open write queue: the frame it queues and its result. -/
def sendTo (socket : AnytlsUdpSocket) (buf : Bytes) (_source : SourceAddr)
    (target : TargetAddr) : Except String (Frame × Nat) :=
  (Uot.encodePacket buf (if socket.isConnect then none else some target)).map
    fun packet => (⟨socket.streamId, .psh, packet⟩, buf.length)

def recvFrom (socket : AnytlsUdpSocket) : Except String PacketInfo × AnytlsUdpSocket :=
  match socket.readNextMsg with
  | (.error error, socket) => (.error error, socket)
  | (.ok data, socket) =>
      ((Uot.decodePacket data socket.isConnect).map fun (target, payload) =>
        (TargetAddr.dummy, target.getD TargetAddr.dummy, payload), socket)

end AnytlsUdpSocket

/-- The server end.  `dataRx` is what its channel is going to give before it is
closed. -/
structure AnytlsInboundUdp where
  streamId : UInt32
  clientAddr : TargetAddr
  isConnect : Bool
  realTarget : TargetAddr
  dataRx : List Bytes
  readBuf : Bytes

namespace AnytlsInboundUdp

def readData (isConnect : Bool) :
    List Bytes → Bytes → Except String Bytes × Bytes × List Bytes
  | [], buf =>
      match Uot.nextPacket isConnect buf with
      | .error error => (.error error, buf, [])
      | .ok (some packet, buf) => (.ok packet, buf, [])
      | .ok (none, buf) => (.error "UDP stream closed", buf, [])
  | data :: rest, buf =>
      match Uot.nextPacket isConnect buf with
      | .error error => (.error error, buf, data :: rest)
      | .ok (some packet, buf) => (.ok packet, buf, data :: rest)
      | .ok (none, buf) => readData isConnect rest (buf ++ data)

def sendTo (udp : AnytlsInboundUdp) (buf : Bytes) (_source : SourceAddr)
    (target : TargetAddr) : Except String (Frame × Nat) :=
  (Uot.encodePacket buf (if udp.isConnect then none else some target)).map
    fun packet => (⟨udp.streamId, .psh, packet⟩, packet.length)

def recvFrom (udp : AnytlsInboundUdp) : Except String PacketInfo × AnytlsInboundUdp :=
  match readData udp.isConnect udp.dataRx udp.readBuf with
  | (result, buf, data) =>
      ((result.bind (Uot.decodePacket · udp.isConnect)).map fun (target, payload) =>
        (udp.clientAddr, target.getD udp.realTarget, payload),
        { udp with dataRx := data, readBuf := buf })

end AnytlsInboundUdp

/-! A packet cut into events. -/

theorem AnytlsUdpSocket.readEvents_of_split {payload : Bytes}
    (fits : payload.length ≤ 65535) {target : Option TargetAddr}
    (short : ∀ addr ∈ target, addr.ShortName) {pieces : List Bytes} {buf rest : Bytes}
    (later : List StreamEvent)
    (split : buf ++ pieces.flatten = Uot.packetBytes payload target ++ rest) :
    ∃ buf' events, readEvents target.isNone (pieces.map .data ++ later) buf =
      (.ok (Uot.packetBytes payload target), buf', events) := by
  -- Once the packet is buffered, it is returned whatever events follow.
  have whole (more : Bytes) (events : List StreamEvent) :
      readEvents target.isNone events (Uot.packetBytes payload target ++ more) =
        (.ok (Uot.packetBytes payload target), more, events) := by
    cases events <;> simp only [readEvents, Uot.nextPacket_append fits short]
  induction pieces generalizing buf with
  | nil =>
      rw [List.flatten_nil, List.append_nil] at split
      rw [split]
      exact ⟨_, _, whole rest _⟩
  | cons piece pieces ih =>
      rw [List.flatten_cons] at split
      rcases Nat.lt_or_ge buf.length (Uot.packetBytes payload target).length with
        part | full
      · have taken := take_of_append_eq split (Nat.le_of_lt part)
        have incomplete := Uot.nextPacket_take fits short part
        rw [taken] at incomplete
        rw [← List.append_assoc] at split
        obtain ⟨buf', events, read⟩ := ih split
        refine ⟨buf', events, ?_⟩
        simp only [List.map_cons, List.cons_append, readEvents, incomplete, read]
      · obtain ⟨more, rfl, _⟩ := exists_append_of_length_le split full
        exact ⟨_, _, whole more _⟩

theorem AnytlsUdpSocket.recvFrom_of_split {payload : Bytes}
    (fits : payload.length ≤ 65535) (target : Option TargetAddr)
    (short : ∀ addr ∈ target, addr.ShortName) {pieces : List Bytes} {buf rest : Bytes}
    (streamId : UInt32) (later : List StreamEvent)
    (split : buf ++ pieces.flatten = Uot.packetBytes payload target ++ rest) :
    ∃ socket, recvFrom ⟨streamId, target.isNone, pieces.map .data ++ later, buf⟩ =
      (.ok (TargetAddr.dummy, (target.map Uot.decoded).getD TargetAddr.dummy, payload),
        socket) := by
  obtain ⟨buf', events, read⟩ := readEvents_of_split fits short later split
  refine ⟨⟨streamId, target.isNone, events, buf'⟩, ?_⟩
  simp only [recvFrom, readNextMsg, read, Uot.decodePacket_packetBytes fits short]
  rfl

/-! Replies from the server end to the client end. -/

/-- The payloads of the PSH frames of one stream, as the client's read loop
hands them to the stream. -/
def pshPayloads (streamId : UInt32) (frames : List Frame) : List Bytes :=
  frames.filterMap fun frame =>
    if frame.streamId = streamId ∧ frame.cmd = .psh then some frame.data else none

/-- The reply `buf` from `source` reaches the client with its source and its
payload, in whatever frames the server's packet arrives, whatever is buffered,
and however the frames are cut on the wire. -/
def ReplyKeepsSource (server : AnytlsInboundUdp) (buf : Bytes) (source : SourceAddr)
    (peer : SocketAddr) : Prop :=
  ∃ packet count, server.sendTo buf source (.ip peer) = .ok (packet, count) ∧
    ∀ (frames : List Frame) (stream : List PollRead) (buffered rest : Bytes)
      (later : List StreamEvent) (streamId : UInt32),
      (∀ frame ∈ frames, frame.Fits) →
      buffered ++ (pshPayloads streamId frames).flatten = packet.data ++ rest →
      ReadAhead.Feeds stream (frames.flatMap Frame.toBytes) →
        ∃ out destination socket, FrameReader.Reads stream [] out [] ∧
          AnytlsUdpSocket.recvFrom ⟨streamId, server.isConnect,
            (pshPayloads streamId out).map .data ++ later, buffered⟩ =
              (.ok (source, destination, buf), socket)

theorem AnytlsInboundUdp.sendTo_of_le {server : AnytlsInboundUdp} {buf : Bytes}
    (mode : server.isConnect = false) (fits : buf.length ≤ 65535) (source : SourceAddr)
    (target : TargetAddr) :
    ∃ count, server.sendTo buf source target =
      .ok (⟨server.streamId, .psh, Uot.packetBytes buf (some target)⟩, count) := by
  refine ⟨(Uot.packetBytes buf (some target)).length, ?_⟩
  simp only [sendTo, mode, Bool.false_eq_true, if_false, Uot.encodePacket_of_le fits]
  rfl

theorem source_of_replyKeepsSource {server : AnytlsInboundUdp} {buf : Bytes}
    (mode : server.isConnect = false) {source : SourceAddr} {peer : SocketAddr}
    (kept : ReplyKeepsSource server buf source peer) : source = TargetAddr.dummy := by
  obtain ⟨packet, count, sent, receives⟩ := kept
  simp only [AnytlsInboundUdp.sendTo, mode, Bool.false_eq_true, if_false] at sent
  cases encoded : Uot.encodePacket buf (some (.ip peer)) with
  | error error => rw [encoded] at sent; cases sent
  | ok bytes =>
      rw [encoded] at sent
      cases sent
      obtain ⟨fits, rfl⟩ := Uot.encodePacket_eq_ok encoded
      -- The whole packet is already buffered.
      obtain ⟨stream, feeds⟩ := ReadAhead.exists_feeds []
      obtain ⟨out, destination, socket, _, received⟩ :=
        receives [] stream (Uot.packetBytes buf (some (.ip peer))) [] [] 0 (by simp)
          rfl feeds
      have split : Uot.packetBytes buf (some (.ip peer)) ++ (pshPayloads 0 out).flatten =
          Uot.packetBytes buf (some (.ip peer)) ++ (pshPayloads 0 out).flatten := rfl
      obtain ⟨socket', received'⟩ := AnytlsUdpSocket.recvFrom_of_split fits
        (some (.ip peer)) (by rintro _ ⟨⟩; trivial) 0 [] split
      rw [mode] at received
      rw [Option.isNone_some] at received'
      rw [received] at received'
      cases received'
      rfl

theorem replyKeepsSource_iff (server : AnytlsInboundUdp)
    (mode : server.isConnect = false) (buf : Bytes) (fits : buf.length ≤ 65535)
    (source : SourceAddr) (peer : SocketAddr) :
    ReplyKeepsSource server buf source peer ↔ source = TargetAddr.dummy := by
  refine ⟨source_of_replyKeepsSource mode, ?_⟩
  rintro rfl
  obtain ⟨count, sent⟩ :=
    AnytlsInboundUdp.sendTo_of_le mode fits TargetAddr.dummy (.ip peer)
  refine ⟨_, count, sent, ?_⟩
  intro frames stream buffered rest later streamId framesFit split feeds
  obtain ⟨socket, received⟩ := AnytlsUdpSocket.recvFrom_of_split fits
    (some (.ip peer)) (by rintro _ ⟨⟩; trivial) streamId later split
  rw [mode]
  exact ⟨frames, _, socket, FrameReader.reads_of_feeds framesFit feeds rfl, received⟩

theorem replyKeepsSource_dummy :
    ReplyKeepsSource ⟨1, .dummy, false, .dummy, [], []⟩ [104, 105] .dummy
      (.v4 ⟨203, 0, 113, 7⟩ 40000) :=
  (replyKeepsSource_iff _ rfl _ (by decide) _ _).mpr rfl

theorem not_replyKeepsSource_resolver :
    ¬ReplyKeepsSource ⟨1, .ip (.v4 ⟨203, 0, 113, 7⟩ 40000), false, .dummy, [], []⟩
      [104, 105] (.ip (.v4 ⟨8, 8, 8, 8⟩ 53)) (.v4 ⟨203, 0, 113, 7⟩ 40000) := by
  intro kept
  have := source_of_replyKeepsSource rfl kept
  revert this
  decide

end QuicProxy
