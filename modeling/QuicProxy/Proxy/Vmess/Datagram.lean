import QuicProxy.Data.Datagrams
import QuicProxy.Proxy.Vmess.Fidelity

namespace QuicProxy

/-! UDP over a VMess connection: `VmessUdpSocket` on top of an
`OutboundDatagramVmess` (`src/proxy/outbound/vmess/mod.rs`,
`src/proxy/outbound/vmess/vmess_impl/datagram.rs`) and `VmessInboundPacket`
(`src/proxy/inbound/vmess.rs`). -/

namespace Vmess

def receiveRoom : Nat := 65535

/-- The sink, apart from the stream under it. -/
structure OutboundDatagramVmess where
  written : Option Nat
  flushed : Bool
  pkt : Option Bytes
deriving DecidableEq

namespace OutboundDatagramVmess

def new : OutboundDatagramVmess := ⟨none, true, none⟩

variable {Inner : Type} (outlet : Framed.Outlet Inner)

/-- `poll_flush` once it is known how much of the packet was written. -/
def pollWritten (sink : OutboundDatagramVmess) (inner : Inner) (data : Bytes) (written : Nat) :
    Poll (Except String Unit) × OutboundDatagramVmess × Inner :=
  match outlet.pollFlush inner with
  | (.pending, inner) => (.pending, { sink with written := some written }, inner)
  | (.ready (.error error), inner) =>
      (.ready (.error error), { sink with written := some written }, inner)
  | (.ready (.ok ()), inner) =>
      (.ready (if written = data.length then .ok ()
        else .error ("failed to write entire datagram, written: " ++ toString written)),
        { written := none, flushed := true, pkt := none }, inner)

def pollFlush (sink : OutboundDatagramVmess) (inner : Inner) :
    Option (Poll (Except String Unit) × OutboundDatagramVmess × Inner) :=
  if sink.flushed then some (.ready (.ok ()), sink, inner)
  else
    match sink.pkt, sink.written with
    | none, _ => some (.ready (.error "no packet to send"), sink, inner)
    | some data, some written => some (sink.pollWritten outlet inner data written)
    | some data, none =>
        (outlet.pollWrite inner data).map fun
          | (.pending, inner) => (.pending, sink, inner)
          | (.ready (.error error), inner) => (.ready (.error error), sink, inner)
          | (.ready (.ok written), inner) => sink.pollWritten outlet inner data written

def pollReady (sink : OutboundDatagramVmess) (inner : Inner) :
    Option (Poll (Except String Unit) × OutboundDatagramVmess × Inner) :=
  if sink.flushed then some (.ready (.ok ()), sink, inner) else sink.pollFlush outlet inner

def startSend (sink : OutboundDatagramVmess) (item : Bytes) : OutboundDatagramVmess :=
  { sink with pkt := some item, flushed := false }

/-- `poll_next`, after what a read into the buffer has given. -/
def pollNext : PollRead → Poll (Option Bytes)
  | .pending => .pending
  | .ready bytes => .ready (if bytes = [] then none else some bytes)
  | .failed _ => .ready none

end OutboundDatagramVmess

/-- `futures::stream::SplitSink`: a slot for an item in front of a sink. -/
structure SplitSink where
  slot : Option Bytes
  sink : OutboundDatagramVmess
deriving DecidableEq

namespace SplitSink

variable {Inner : Type} (outlet : Framed.Outlet Inner)

def pollFlushSlot (split : SplitSink) (inner : Inner) :
    Option (Poll (Except String Unit) × SplitSink × Inner) :=
  match split.slot with
  | none => some (.ready (.ok ()), split, inner)
  | some item =>
      (split.sink.pollReady outlet inner).map fun
        | (.ready (.ok ()), sink, inner) => (.ready (.ok ()), ⟨none, sink.startSend item⟩, inner)
        | (result, sink, inner) => (result, { split with sink }, inner)

def pollFlush (split : SplitSink) (inner : Inner) :
    Option (Poll (Except String Unit) × SplitSink × Inner) :=
  (split.pollFlushSlot outlet inner).bind fun
    | (.ready (.ok ()), split, inner) =>
        (split.sink.pollFlush outlet inner).map fun (result, sink, inner) =>
          (result, { split with sink }, inner)
    | stopped => some stopped

/-- A loop that is over as soon as the slot is empty. -/
def pollReady (split : SplitSink) (inner : Inner) :
    Option (Poll (Except String Unit) × SplitSink × Inner) := split.pollFlushSlot outlet inner

end SplitSink

/-- A `send_to` of the client: the item that it has not handed to the sink. -/
structure SocketSend where
  item : Option Bytes
  len : Nat
deriving DecidableEq

namespace VmessUdpSocket

variable {Inner : Type} (outlet : Framed.Outlet Inner)

/-- What the flush at the end of `SinkExt::send` means for the call. -/
def answered (future : SocketSend) : Poll (Except String Unit) × SplitSink × Inner →
    Poll (Except String Nat) × SplitSink × SocketSend × Inner
  | (.pending, split, inner) => (.pending, split, future, inner)
  | (.ready (.error error), split, inner) =>
      (.ready (.error ("vmess udp send: " ++ error)), split, future, inner)
  | (.ready (.ok ()), split, inner) => (.ready (.ok future.len), split, future, inner)

def pollSendTo (split : SplitSink) (future : SocketSend) (inner : Inner) :
    Option (Poll (Except String Nat) × SplitSink × SocketSend × Inner) :=
  match future.item with
  | none => (split.pollFlush outlet inner).map (answered future)
  | some item =>
      (split.pollReady outlet inner).bind fun
        | (.pending, split, inner) => some (.pending, split, future, inner)
        | (.ready (.error error), split, inner) =>
            some (.ready (.error ("vmess udp send: " ++ error)), split, future, inner)
        | (.ready (.ok ()), split, inner) =>
            ({ split with slot := some item }.pollFlush outlet inner).map
              (answered { future with item := none })

def sender : Framed.Sender SplitSink SocketSend where
  sendTo buf := ⟨some buf, buf.length⟩
  poll outlet split future inner := pollSendTo outlet split future inner

def recvFrom (read : PollRead) : Poll (Except String Bytes) :=
  match OutboundDatagramVmess.pollNext read with
  | .pending => .pending
  | .ready (some data) => .ready (.ok data)
  | .ready none => .ready (.error "vmess udp stream closed")

end VmessUdpSocket

/-- A `send_to` of the server: what its `write_all` has not written. -/
structure PacketSend where
  rest : Bytes
  len : Nat
deriving DecidableEq

namespace VmessInboundPacket

variable {Inner : Type} (outlet : Framed.Outlet Inner)

/-- `write_all`, polled once; taking more than there is would panic. -/
def pollWriteAll (inner : Inner) (rest : Bytes) :
    Option (Poll (Except String Unit) × Bytes × Inner) :=
  if rest = [] then some (.ready (.ok ()), [], inner)
  else
    match outlet.pollWrite inner rest with
    | none => none
    | some (.pending, inner) => some (.pending, rest, inner)
    | some (.ready (.error error), inner) => some (.ready (.error error), rest, inner)
    | some (.ready (.ok count), inner) =>
        if rest.length < count then none
        else if count = 0 then some (.ready (.error "write zero"), rest, inner)
        else pollWriteAll inner (rest.drop count)
termination_by rest.length
decreasing_by
  next nonempty _ _ =>
    have := List.length_pos_iff.mpr nonempty
    rw [List.length_drop]
    omega

/-- `flush`, after `write_all`. -/
def pollWritten (future : PacketSend) (inner : Inner) :
    Poll (Except String Nat) × Unit × PacketSend × Inner :=
  match outlet.pollFlush inner with
  | (.pending, inner) => (.pending, (), future, inner)
  | (.ready (.error error), inner) => (.ready (.error error), (), future, inner)
  | (.ready (.ok ()), inner) => (.ready (.ok future.len), (), future, inner)

def pollSendTo (future : PacketSend) (inner : Inner) :
    Option (Poll (Except String Nat) × Unit × PacketSend × Inner) :=
  (pollWriteAll outlet inner future.rest).map fun
    | (.pending, rest, inner) => (.pending, (), { future with rest }, inner)
    | (.ready (.error error), rest, inner) =>
        (.ready (.error error), (), { future with rest }, inner)
    | (.ready (.ok ()), rest, inner) => pollWritten outlet { future with rest } inner

def sender : Framed.Sender Unit PacketSend where
  sendTo buf := ⟨buf, buf.length⟩
  poll outlet _ future inner := pollSendTo outlet future inner

def recvFrom : PollRead → Poll (Except String Bytes)
  | .pending => .pending
  | .ready bytes =>
      .ready (if bytes = [] then .error "vmess udp stream closed" else .ok bytes)
  | .failed error => .ready (.error error)

end VmessInboundPacket

/-! The client's sends. -/

namespace VmessUdpSocket

/-- A datagram is handed to one write, which is repeated until it is over. -/
inductive At : Framed.SendStage → SplitSink → Option SocketSend → Prop
  | idle : At .idle ⟨none, .new⟩ none
  | fresh (datagram : Bytes) :
      At (.writing datagram) ⟨none, .new⟩ (some ⟨some datagram, datagram.length⟩)
  | writing (datagram : Bytes) (len : Nat) :
      At (.writing datagram) ⟨none, ⟨none, false, some datagram⟩⟩ (some ⟨none, len⟩)
  | flushing (datagram : Bytes) (len : Nat) :
      At (.flushing datagram) ⟨none, ⟨some datagram.length, false, some datagram⟩⟩
        (some ⟨none, len⟩)

variable {Inner : Type}

theorem pollSendTo_fresh (outlet : Framed.Outlet Inner) (datagram : Bytes) (len : Nat)
    (inner : Inner) :
    pollSendTo outlet ⟨none, .new⟩ ⟨some datagram, len⟩ inner =
      pollSendTo outlet ⟨none, ⟨none, false, some datagram⟩⟩ ⟨none, len⟩ inner := rfl

def afterWritten (outlet : Framed.Outlet Inner) (datagram : Bytes) (len written : Nat)
    (inner : Inner) : Poll (Except String Nat) × SplitSink × SocketSend × Inner :=
  match OutboundDatagramVmess.pollWritten outlet ⟨some written, false, some datagram⟩ inner datagram
    written with
  | (result, sink, inner) => answered ⟨none, len⟩ (result, ⟨none, sink⟩, inner)

theorem finishes_pollSendTo (outlet : Framed.Outlet Inner) (inner : Inner) (datagram : Bytes)
    (len : Nat) :
    Framed.Finishes At datagram (outlet.pollFlush inner)
      (pollSendTo outlet ⟨none, ⟨some datagram.length, false, some datagram⟩⟩ ⟨none, len⟩
        inner) := by
  have written : pollSendTo outlet ⟨none, ⟨some datagram.length, false, some datagram⟩⟩ ⟨none, len⟩
      inner = some (afterWritten outlet datagram len datagram.length inner) := rfl
  rw [written, afterWritten, OutboundDatagramVmess.pollWritten]
  generalize outlet.pollFlush inner = flushed
  match flushed with
  | (.pending, inner) => exact .waits (.flushing datagram len)
  | (.ready (.error error), inner) => exact .fails
  | (.ready (.ok ()), inner) =>
      rw [if_pos rfl]
      exact .done len .idle

theorem goes_pollSendTo (outlet : Framed.Outlet Inner) {inner : Inner} {datagram : Bytes}
    {wrote : Poll (Except String Nat) × Inner} (len : Nat)
    (written : outlet.pollWrite inner datagram = some wrote)
    (whole : ∀ count, wrote.1 = .ready (.ok count) → count = datagram.length) :
    Framed.Goes At outlet datagram wrote
      (pollSendTo outlet ⟨none, ⟨none, false, some datagram⟩⟩ ⟨none, len⟩ inner) := by
  change Framed.Goes At outlet datagram wrote
    (Option.map _ (Option.map _ (Option.map _ (outlet.pollWrite inner datagram))))
  rw [written]
  match wrote with
  | (.pending, inner) => exact .waits (.writing datagram len)
  | (.ready (.error error), inner) => exact .fails
  | (.ready (.ok count), inner) =>
      obtain rfl := whole count rfl
      exact .writes (finishes_pollSendTo outlet inner datagram len)

theorem sends_sender : sender.Sends At where
  sendTo := by
    intro state datagram here some_bytes
    cases here
    exact .fresh datagram
  writing := by
    intro state future datagram Inner outlet inner wrote here some_bytes written whole
    change Framed.Goes At outlet datagram wrote (pollSendTo outlet state future inner)
    cases here with
    | fresh =>
        rw [pollSendTo_fresh]
        exact goes_pollSendTo outlet _ written whole
    | writing datagram len => exact goes_pollSendTo outlet len written whole
  flushing := by
    intro state future datagram Inner outlet inner here
    cases here with
    | flushing datagram len => exact finishes_pollSendTo outlet inner datagram len

end VmessUdpSocket

/-! The server's. -/

namespace VmessInboundPacket

inductive At : Framed.SendStage → Unit → Option PacketSend → Prop
  | idle : At .idle () none
  | writing (datagram : Bytes) (len : Nat) : At (.writing datagram) () (some ⟨datagram, len⟩)
  | flushing (datagram : Bytes) (len : Nat) : At (.flushing datagram) () (some ⟨[], len⟩)

variable {Inner : Type}

theorem finishes_pollSendTo (outlet : Framed.Outlet Inner) (inner : Inner) (datagram : Bytes)
    (len : Nat) :
    Framed.Finishes At datagram (outlet.pollFlush inner) (pollSendTo outlet ⟨[], len⟩ inner) := by
  rw [pollSendTo, pollWriteAll, if_pos rfl, Option.map_some]
  dsimp only
  rw [pollWritten]
  generalize outlet.pollFlush inner = flushed
  match flushed with
  | (.pending, inner) => exact .waits (.flushing datagram len)
  | (.ready (.error error), inner) => exact .fails
  | (.ready (.ok ()), inner) => exact .done len .idle

theorem sends_sender : sender.Sends At where
  sendTo := by
    intro state datagram here some_bytes
    exact .writing datagram datagram.length
  writing := by
    intro state future datagram Inner outlet inner wrote here some_bytes written whole
    change Framed.Goes At outlet datagram wrote (pollSendTo outlet future inner)
    cases here with
    | writing datagram len =>
        rw [pollSendTo, pollWriteAll, if_neg some_bytes, written]
        match wrote with
        | (.pending, inner) => exact .waits (.writing datagram len)
        | (.ready (.error error), inner) => exact .fails
        | (.ready (.ok count), inner) =>
            obtain rfl := whole count rfl
            have positive := List.length_pos_iff.mpr some_bytes
            dsimp only
            rw [if_neg (Nat.lt_irrefl _), if_neg (Nat.ne_of_gt positive), List.drop_length]
            exact .writes (finishes_pollSendTo outlet inner datagram len)
  flushing := by
    intro state future datagram Inner outlet inner here
    cases here with
    | flushing datagram len => exact finishes_pollSendTo outlet inner datagram len

end VmessInboundPacket

/-! Both directions. -/

/-- The requests go up, the responses come down. -/
structure UdpTunnel (Up Down : Type) where
  up : Framed.Flow ChunkWriter ChunkReader Up SplitSink SocketSend
  down : Framed.Flow ChunkWriter VmessReader Down Unit PacketSend

inductive UdpEvent where
  | up (event : Framed.FlowEvent)
  | down (event : Framed.FlowEvent)
deriving DecidableEq

namespace UdpTunnel

variable {Up Down : Type} (crypto : Crypto) (up : AsyncWrite Up) (down : AsyncWrite Down)

def upEnds : Framed.Ends ChunkWriter ChunkReader Up SplitSink SocketSend where
  io := up
  pollWrite := pollWrite crypto up
  sender := VmessUdpSocket.sender
  pollRead := VmessServerStream.pollRead crypto
  room := receiveRoom
  recvFrom := VmessInboundPacket.recvFrom

def downEnds : Framed.Ends ChunkWriter VmessReader Down Unit PacketSend where
  io := down
  pollWrite := pollWrite crypto down
  sender := VmessInboundPacket.sender
  pollRead := pollRead crypto
  room := receiveRoom
  recvFrom := VmessUdpSocket.recvFrom

def step (tunnel : UdpTunnel Up Down) : UdpEvent → Option (UdpTunnel Up Down)
  | .up event => (tunnel.up.step (upEnds crypto up) event).map fun up => { tunnel with up }
  | .down event =>
      (tunnel.down.step (downEnds crypto down) event).map fun down => { tunnel with down }

def start (client : VmessStream) (server : VmessServerStream) (upSink : Up) (downSink : Down) :
    UdpTunnel Up Down :=
  let links := Tunnel.start crypto client server upSink downSink
  ⟨.start links.up ⟨none, .new⟩, .start links.down ()⟩

structure Keeps (tunnel : UdpTunnel Up Down) : Prop where
  up : tunnel.up.Keeps (upEnds crypto up)
  down : tunnel.down.Keeps (downEnds crypto down)

def bound (client : VmessStream) : Nat := chunkSize - overheadLen client.writer.cipher

def Fits (bound : Nat) (tunnel : UdpTunnel Up Down) : UdpEvent → Prop
  | .up event => tunnel.up.Fits bound event
  | .down event => tunnel.down.Fits bound event

instance (bound : Nat) (tunnel : UdpTunnel Up Down) : DecidablePred (tunnel.Fits bound)
  | .up event => inferInstanceAs (Decidable (tunnel.up.Fits bound event))
  | .down event => inferInstanceAs (Decidable (tunnel.down.Fits bound event))

/-! The two ends do what a flow needs, over streams whose flush does not fail. -/

variable {crypto up down}

theorem bound_le (cipher : Option AeadCipher) : chunkSize - overheadLen cipher ≤ receiveRoom := by
  have fits : chunkSize ≤ receiveRoom := by decide
  omega

theorem lawful_upEnds (inverts : crypto.Inverts) (flushes : up.FlushSucceeds)
    (cipher : Option AeadCipher) :
    (upEnds crypto up).Lawful (requests crypto) ChunkReader.view ChunkWriter.At ChunkWriter.limit
      VmessUdpSocket.At (chunkSize - overheadLen cipher) where
  reads := ChunkReader.reads_pollRead
  writes := ChunkWriter.writes_pollWrite inverts up
  sends := VmessUdpSocket.sends_sender
  flushes := flushes
  room := bound_le cipher
  some_room := Nat.zero_lt_succ 65534
  waits := rfl
  gives := by
    intro bytes some_bytes
    change Poll.ready (if bytes = [] then _ else _) = _
    rw [if_neg some_bytes]
  closes := by
    intro read stops
    cases read with
    | pending => cases stops
    | ready bytes =>
        obtain rfl : bytes = [] := List.isEmpty_iff.mp stops
        exact ⟨_, rfl⟩
    | failed error => exact ⟨_, rfl⟩

theorem lawful_downEnds (inverts : crypto.Inverts) (flushes : down.FlushSucceeds)
    (keys : ResponseKeys) (cipher : Option AeadCipher) :
    (downEnds crypto down).Lawful (VmessReader.responses crypto keys)
      (VmessReader.view crypto keys) ChunkWriter.At ChunkWriter.limit VmessInboundPacket.At
        (chunkSize - overheadLen cipher) where
  reads := VmessReader.reads_pollRead
  writes := ChunkWriter.writes_pollWrite inverts down
  sends := VmessInboundPacket.sends_sender
  flushes := flushes
  room := bound_le cipher
  some_room := Nat.zero_lt_succ 65534
  waits := rfl
  gives := by
    intro bytes some_bytes
    change VmessUdpSocket.recvFrom (.ready bytes) = _
    rw [VmessUdpSocket.recvFrom, OutboundDatagramVmess.pollNext, if_neg some_bytes]
  closes := by
    intro read stops
    cases read with
    | pending => cases stops
    | ready bytes =>
        obtain rfl : bytes = [] := List.isEmpty_iff.mp stops
        exact ⟨_, rfl⟩
    | failed error => exact ⟨_, rfl⟩

structure Carried (crypto : Crypto) (keys : ResponseKeys) (bound : Nat)
    (tunnel : UdpTunnel Up Down) : Prop where
  up : tunnel.up.Carried (requests crypto) ChunkReader.view ChunkWriter.At ChunkWriter.limit
    VmessUdpSocket.At bound
  down : tunnel.down.Carried (VmessReader.responses crypto keys) (VmessReader.view crypto keys)
    ChunkWriter.At ChunkWriter.limit VmessInboundPacket.At bound

theorem Carried.step (inverts : crypto.Inverts) (upFlushes : up.FlushSucceeds)
    (downFlushes : down.FlushSucceeds) {keys : ResponseKeys} {cipher : Option AeadCipher}
    {tunnel next : UdpTunnel Up Down} {event : UdpEvent}
    (carried : tunnel.Carried crypto keys (chunkSize - overheadLen cipher))
    (fits : tunnel.Fits (chunkSize - overheadLen cipher) event)
    (taken : tunnel.step crypto up down event = some next) :
    next.Carried crypto keys (chunkSize - overheadLen cipher) := by
  cases event with
  | up event =>
      obtain ⟨flow, moved, rfl⟩ := Option.map_eq_some_iff.mp taken
      exact ⟨carried.up.step (lawful_upEnds inverts upFlushes cipher) fits moved, carried.down⟩
  | down event =>
      obtain ⟨flow, moved, rfl⟩ := Option.map_eq_some_iff.mp taken
      exact ⟨carried.up, carried.down.step (lawful_downEnds inverts downFlushes keys cipher) fits
        moved⟩

theorem Carried.keeps (inverts : crypto.Inverts) (upFlushes : up.FlushSucceeds)
    (downFlushes : down.FlushSucceeds) {keys : ResponseKeys} {cipher : Option AeadCipher}
    {tunnel : UdpTunnel Up Down}
    (carried : tunnel.Carried crypto keys (chunkSize - overheadLen cipher)) :
    tunnel.Keeps crypto up down :=
  ⟨carried.up.keeps (lawful_upEnds inverts upFlushes cipher),
    carried.down.keeps (lawful_downEnds inverts downFlushes keys cipher)⟩

theorem overheadLen_eq {keys : BodyKeys} {security : UInt8} {ciphers : BodyCiphers}
    (supported : clientCiphers crypto keys security = .ok ciphers) :
    overheadLen ciphers.response = overheadLen ciphers.request := by
  unfold clientCiphers at supported
  split at supported
  · cases supported
    rfl
  · split at supported
    · cases supported
      rfl
    · split at supported
      · cases supported
        rfl
      · cases supported

/-- In every run in which only datagrams that fit are handed over, in both
directions and over every stream whose flush does not fail. -/
theorem keeps_of_fits (inverts : crypto.Inverts) (upFlushes : up.FlushSucceeds)
    (downFlushes : down.FlushSucceeds) {reqBodyKey reqBodyIv : Vector UInt8 16}
    {respV security : UInt8} {client : VmessStream}
    (agreed : VmessStream.new crypto reqBodyKey reqBodyIv respV security true = .ok client)
    (upSink : Up) (downSink : Down) (events : List UdpEvent) :
    let begun := start crypto client
      (VmessServerStream.new crypto reqBodyKey reqBodyIv respV security) upSink downSink
    Machine.Within (step crypto up down) (Fits (bound client)) begun events →
      Machine.Throughout (step crypto up down) (Keeps crypto up down) begun events := by
  obtain ⟨keys, ciphers, supported, rfl, server⟩ := new_eq agreed
  dsimp only
  rw [server]
  intro fits
  have opened : (ChunkReader.new ciphers.request).state ≠ .closed := nofun
  have opened' : (ChunkReader.new ciphers.response).state ≠ .closed := nofun
  have ready := carries_up crypto ciphers.request upSink
  have begun_up := Framed.Flow.Carried.start ready opened rfl VmessUdpSocket.At.idle
  have begun_down := Framed.Flow.Carried.start (carries_down inverts keys ciphers.response downSink)
    opened' rfl VmessInboundPacket.At.idle
  rw [ChunkWriter.limit, Phase.cipher, overheadLen_eq supported] at begun_down
  refine Machine.throughout_mono (fun here => here.keeps inverts upFlushes downFlushes)
    (Machine.throughout_of_within
      (UdpTunnel.Carried crypto keys (chunkSize - overheadLen ciphers.request))
      (fun here allowed taken => here.step inverts upFlushes downFlushes allowed taken) ?_ fits)
  exact ⟨begun_up, begun_down⟩

/-! A tunnel without encryption, over streams that take three bytes at every
other poll. -/

def plainClient : VmessStream :=
  ⟨⟨true, ⟨.replicate 16 0, .replicate 16 0, 3⟩, .waitingHeaderSize, .new none⟩, .new none⟩

def plain : UdpTunnel Bool Bool :=
  start markingCrypto plainClient
    (.new markingCrypto (.replicate 16 1) (.replicate 16 2) 3 securityNone) true true

def twoDatagrams : List UdpEvent :=
  [.up (.send [104]), .up .poll, .up (.send [105, 106]), .up .poll, .up .poll, .up .poll,
    .up (.arrive (.ready [0, 1, 104, 0, 2, 105])), .up .receive, .up .receive,
    .up (.arrive (.ready [106])), .up .receive]

theorem keeps_twoDatagrams :
    ∃ final, Machine.run (step markingCrypto slowWrite slowWrite) plain twoDatagrams = some final ∧
      final.up.received = [[104], [105, 106]] ∧ final.Keeps markingCrypto slowWrite slowWrite := by
  have agreed : VmessStream.new markingCrypto (.replicate 16 1) (.replicate 16 2) 3 securityNone
      true = .ok plainClient := rfl
  have flushes : slowWrite.FlushSucceeds := fun _ _ => nofun
  have fits : Machine.Within (step markingCrypto slowWrite slowWrite) (Fits (bound plainClient))
      plain twoDatagrams := by
    decide +kernel
  have received : (Machine.run (step markingCrypto slowWrite slowWrite) plain twoDatagrams).map
      (·.up.received) = some [[104], [105, 106]] := by
    decide +kernel
  obtain ⟨final, ran, same⟩ := Option.map_eq_some_iff.mp received
  have keeps :=
    keeps_of_fits inverts_markingCrypto flushes flushes agreed true true twoDatagrams fits
  exact ⟨final, ran, same, keeps.final ran⟩

def emptyUp : List UdpEvent :=
  [.up (.send []), .up .poll, .up (.arrive (.ready [0, 0])), .up .receive]

def emptyDown : List UdpEvent :=
  [.down (.send []), .down .poll, .down (.send [104]), .down .poll,
    .down (.arrive (.ready (plain.down.link.inFlight ++ [0, 1, 104]))), .down .receive]

/-- The server takes an empty datagram for the end; the client never gets one. -/
theorem empty_is_not_received :
    (∃ final, Machine.run (step markingCrypto slowWrite slowWrite) plain emptyUp = some final ∧
      final.up.accepted = [[]] ∧ final.up.received = [] ∧ final.up.closed = true ∧
        ¬final.Keeps markingCrypto slowWrite slowWrite) ∧
    ∃ final, Machine.run (step markingCrypto slowWrite slowWrite) plain emptyDown = some final ∧
      final.down.accepted = [[], [104]] ∧ final.down.received = [[104]] ∧
        ¬final.Keeps markingCrypto slowWrite slowWrite := by
  constructor
  · have ended : (Machine.run (step markingCrypto slowWrite slowWrite) plain emptyUp).map
        (fun final => (final.up.accepted, final.up.received, final.up.closed, final.up.stopped)) =
          some ([[]], [], true, false) := by
      decide +kernel
    obtain ⟨final, ran, same⟩ := Option.map_eq_some_iff.mp ended
    obtain ⟨accepted, received, closed, stopped⟩ : final.up.accepted = [[]] ∧
        final.up.received = [] ∧ final.up.closed = true ∧ final.up.stopped = false := by
      simpa only [Prod.mk.injEq] using same
    refine ⟨final, ran, accepted, received, closed, fun keeps => ?_⟩
    cases (keeps.up.opened closed).symm.trans stopped
  · have skipped : (Machine.run (step markingCrypto slowWrite slowWrite) plain emptyDown).map
        (fun final => (final.down.accepted, final.down.received, final.down.current.isNone)) =
          some ([[], [104]], [[104]], true) := by
      decide +kernel
    obtain ⟨final, ran, same⟩ := Option.map_eq_some_iff.mp skipped
    obtain ⟨accepted, received, idle⟩ : final.down.accepted = [[], [104]] ∧
        final.down.received = [[104]] ∧ final.down.current.isNone = true := by
      simpa only [Prod.mk.injEq] using same
    refine ⟨final, ran, accepted, received, fun keeps => ?_⟩
    have order := keeps.down.order
    rw [accepted, received, Option.isNone_iff_eq_none.mp idle] at order
    exact absurd order (by decide)

end UdpTunnel

end Vmess

end QuicProxy
