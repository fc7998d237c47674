import QuicProxy.Data.Machine
import QuicProxy.Proxy.Router.Relay

namespace QuicProxy

/-! The datagrams of a SOCKS5 association, from the socket of a client
(`src/proxy/outbound/socks5.rs`) over a network to the relay of a server
(`src/proxy/inbound/socks5.rs`). -/

structure Socks5InboundPacket where
  clientTcpAddr : SocketAddr
  clientUdpAddr : Option SocketAddr

/-- One round of the loop of `recv_from`. -/
def Socks5InboundPacket.receive (packet : Socks5InboundPacket) (data : Bytes) (src : SocketAddr) :
    Socks5InboundPacket × Option PacketInfo :=
  if src.ip ≠ packet.clientTcpAddr.ip then (packet, none)
  else if data.length < 4 then (packet, none)
  else
    let packet := { packet with clientUdpAddr := some src }
    match TargetAddr.readFrom (data.drop 3) with
    | .ok (target, buf) => (packet, some (.ip src, target, buf))
    | .error _ => (packet, none)

namespace Socks5Relay

/-- A datagram on its way to the relay, and what the client was given for it. -/
structure Arrival where
  src : SocketAddr
  data : Bytes
  origin : Option (TargetAddr × Bytes)

/-- The network may lose a datagram, hold it back, and deliver it again.  The packets
that the relay accepts are in order, and so are those of the client that are
delivered. -/
structure State where
  client : SocketAddr
  aborted : Bool
  packet : Socks5InboundPacket
  toServer : List Arrival
  toClient : List ClientDatagram
  delivered : List (TargetAddr × Bytes)
  accepted : List PacketInfo

inductive Event where
  | send (env : SendEnv) (buf : Bytes) (target : TargetAddr)
  | deliver (index : Nat)
  /-- Somebody else sends to the relay. -/
  | inject (src : SocketAddr) (data : Bytes)
  | reply (transport : Except String Unit) (buf : Bytes) (target : TargetAddr)
      (source : SourceAddr)
  /-- The control stream closes. -/
  | abort

def initial (client clientTcpAddr : SocketAddr) : State :=
  ⟨client, false, ⟨clientTcpAddr, none⟩, [], [], [], []⟩

namespace State

variable (state : State)

def send (env : SendEnv) (buf : Bytes) (target : TargetAddr) : State :=
  match Socks5UdpSocket.sendTo state.aborted env buf target with
  | .ok (.socks5 data) =>
      { state with toServer := state.toServer ++ [⟨state.client, data, some (target, buf)⟩] }
  | _ => state

def receive (arrival : Arrival) : State :=
  let (packet, info) := state.packet.receive arrival.data arrival.src
  { state with
    packet := packet
    delivered := state.delivered ++ arrival.origin.toList
    accepted := state.accepted ++ info.toList }

def reply (transport : Except String Unit) (buf : Bytes) (target : TargetAddr)
    (source : SourceAddr) : State :=
  match Socks5InboundPacket.sendTo ⟨state.packet.clientUdpAddr, transport⟩ buf target source with
  | .ok datagram => { state with toClient := state.toClient ++ [datagram] }
  | .error _ => state

def step : Event → Option State
  | .send env buf target => some (state.send env buf target)
  | .deliver index => state.toServer[index]?.map state.receive
  | .inject src data => some { state with toServer := state.toServer ++ [⟨src, data, none⟩] }
  | .reply transport buf target source => some (state.reply transport buf target source)
  | .abort => some { state with aborted := true }

end State

/-! What every event keeps. -/

/-- What the relay makes of a packet of the client. -/
def relayed (client : SocketAddr) (entry : TargetAddr × Bytes) : PacketInfo :=
  (.ip client, entry.1.decoded, entry.2)

structure Sound (client clientTcpAddr : SocketAddr) (state : State) : Prop where
  own : state.client = client
  tcp : state.packet.clientTcpAddr = clientTcpAddr
  same : state.client.ip = clientTcpAddr.ip
  sent : ∀ arrival ∈ state.toServer, ∀ target buf, arrival.origin = some (target, buf) →
    target.ShortName ∧ arrival.src = state.client ∧
      arrival.data = [0, 0, 0] ++ target.writeTo ++ buf
  foreign : ∀ arrival ∈ state.toServer, arrival.origin = none →
    arrival.src.ip ≠ clientTcpAddr.ip
  heard : ∀ addr, state.packet.clientUdpAddr = some addr → addr = state.client
  replies : ∀ datagram ∈ state.toClient, datagram.destination = state.client
  accepted : state.accepted = state.delivered.map (relayed state.client)

section

variable {client clientTcpAddr : SocketAddr} {state next : State} {event : Event}

theorem receive_foreign {packet : Socks5InboundPacket} {src : SocketAddr} (data : Bytes)
    (foreign : src.ip ≠ packet.clientTcpAddr.ip) : packet.receive data src = (packet, none) :=
  if_pos foreign

theorem encodedLen_pos (target : TargetAddr) : 0 < target.encodedLen := by
  match target with
  | .ip (.v4 _ _) => exact Nat.succ_pos _
  | .ip (.v6 _ _ _ _) => exact Nat.succ_pos _
  | .domain name port =>
      simp only [TargetAddr.encodedLen]
      omega

theorem receive_sent {packet : Socks5InboundPacket} {src : SocketAddr} {target : TargetAddr}
    (short : target.ShortName) (same : src.ip = packet.clientTcpAddr.ip) (buf : Bytes) :
    packet.receive ([0, 0, 0] ++ target.writeTo ++ buf) src =
      ({ packet with clientUdpAddr := some src }, some (.ip src, target.decoded, buf)) := by
  have long : ¬([0, 0, 0] ++ target.writeTo ++ buf).length < 4 := by
    have header := encodedLen_pos target
    simp only [List.length_append, List.length_cons, List.length_nil, TargetAddr.length_writeTo]
    omega
  have read := TargetAddr.readFrom_writeTo short buf
  rw [Socks5InboundPacket.receive, if_neg (not_not.mpr same), if_neg long]
  simp only [List.cons_append, List.nil_append, List.drop_succ_cons, List.drop_zero, read]

theorem sound_initial (same : client.ip = clientTcpAddr.ip) :
    Sound client clientTcpAddr (initial client clientTcpAddr) := by
  refine ⟨rfl, rfl, same, ?_, ?_, ?_, ?_, rfl⟩
  · rintro arrival ⟨⟩
  · rintro arrival ⟨⟩
  · rintro addr ⟨⟩
  · rintro datagram ⟨⟩

theorem sent_cases {aborted : Bool} {env : SendEnv} {buf data : Bytes} {target : TargetAddr}
    (sent : Socks5UdpSocket.sendTo aborted env buf target = .ok (.socks5 data)) :
    target.ShortName ∧ data = [0, 0, 0] ++ target.writeTo ++ buf := by
  unfold Socks5UdpSocket.sendTo at sent
  split at sent
  · cases sent
  · split at sent
    · rename_i short
      obtain ⟨_, -, same⟩ := ok_of_map sent
      cases same
      exact ⟨short, rfl⟩
    · cases sent

theorem Sound.send (sound : Sound client clientTcpAddr state) (env : SendEnv) (buf : Bytes)
    (target : TargetAddr) : Sound client clientTcpAddr (state.send env buf target) := by
  unfold State.send
  split
  · rename_i data sent
    obtain ⟨short, rfl⟩ := sent_cases sent
    refine { sound with sent := ?_, foreign := ?_ }
    · intro arrival member other payload given
      rcases List.mem_append.mp member with old | new
      · exact sound.sent arrival old other payload given
      · obtain rfl := List.mem_singleton.mp new
        cases given
        exact ⟨short, rfl, rfl⟩
    · intro arrival member nothing
      rcases List.mem_append.mp member with old | new
      · exact sound.foreign arrival old nothing
      · obtain rfl := List.mem_singleton.mp new
        cases nothing
  · exact sound

theorem Sound.receive (sound : Sound client clientTcpAddr state) {arrival : Arrival}
    (member : arrival ∈ state.toServer) : Sound client clientTcpAddr (state.receive arrival) := by
  obtain ⟨src, data, origin⟩ := arrival
  cases origin with
  | none =>
      have foreign := sound.foreign _ member rfl
      rw [← sound.tcp] at foreign
      rw [State.receive, receive_foreign data foreign]
      simp only [Option.toList_none, List.append_nil]
      exact sound
  | some entry =>
      obtain ⟨target, buf⟩ := entry
      obtain ⟨short, rfl, rfl⟩ := sound.sent _ member target buf rfl
      have same : state.client.ip = state.packet.clientTcpAddr.ip := by
        rw [sound.tcp, sound.same]
      rw [State.receive, receive_sent short same buf]
      refine { sound with heard := ?_, accepted := ?_ }
      · rintro addr ⟨⟩
        rfl
      · simp only [Option.toList_some, List.map_append, sound.accepted]
        rfl

theorem Sound.reply (sound : Sound client clientTcpAddr state) (transport : Except String Unit)
    (buf : Bytes) (target : TargetAddr) (source : SourceAddr) :
    Sound client clientTcpAddr (state.reply transport buf target source) := by
  unfold State.reply
  split
  · rename_i datagram sent
    refine { sound with replies := ?_ }
    intro other member
    rcases List.mem_append.mp member with old | new
    · exact sound.replies other old
    · obtain rfl := List.mem_singleton.mp new
      unfold Socks5InboundPacket.sendTo at sent
      split at sent
      · cases sent
      · rename_i addr known
        obtain ⟨_, -, rfl⟩ := ok_of_map sent
        exact sound.heard addr known
  · exact sound

/-- Nobody else has the address of the client. -/
def Outside (clientTcpAddr : SocketAddr) : Event → Prop
  | .inject src _ => src.ip ≠ clientTcpAddr.ip
  | _ => True

instance (clientTcpAddr : SocketAddr) : (event : Event) → Decidable (Outside clientTcpAddr event)
  | .inject _ _ => inferInstanceAs (Decidable (_ ≠ _))
  | .send _ _ _ | .deliver _ | .reply _ _ _ _ | .abort => isTrue trivial

theorem Sound.step (sound : Sound client clientTcpAddr state)
    (outside : Outside clientTcpAddr event) (taken : state.step event = some next) :
    Sound client clientTcpAddr next := by
  cases event with
  | send env buf target =>
      cases taken
      exact sound.send env buf target
  | deliver index =>
      obtain ⟨arrival, found, rfl⟩ := Option.map_eq_some_iff.mp taken
      exact sound.receive (List.mem_of_getElem? found)
  | inject src data =>
      cases taken
      refine { sound with sent := ?_, foreign := ?_ }
      · intro arrival member target buf given
        rcases List.mem_append.mp member with old | new
        · exact sound.sent arrival old target buf given
        · obtain rfl := List.mem_singleton.mp new
          cases given
      · intro arrival member nothing
        rcases List.mem_append.mp member with old | new
        · exact sound.foreign arrival old nothing
        · obtain rfl := List.mem_singleton.mp new
          exact outside
  | reply transport buf target source =>
      cases taken
      exact sound.reply transport buf target source
  | abort =>
      cases taken
      exact { sound with }

/-- Whatever the network loses, holds back or repeats, and whatever others send to the
relay: it hands on exactly the packets of the client that reach it, each to where the
client sent it, and all of its replies go to the client. -/
theorem run_relayed {events : List Event}
    (same : client.ip = clientTcpAddr.ip) (outside : ∀ event ∈ events, Outside clientTcpAddr event)
    (ran : Machine.run State.step (initial client clientTcpAddr) events = some state) :
    state.accepted = state.delivered.map (relayed client) ∧
      ∀ datagram ∈ state.toClient, datagram.destination = client := by
  have within : Machine.Within State.step (fun _ event => Outside clientTcpAddr event)
      (initial client clientTcpAddr) events :=
    Machine.within_of_forall (fun event member _ => outside event member) _
  have sound := Machine.run_within_invariant (Sound client clientTcpAddr)
    (fun here outside taken => here.step outside taken) (sound_initial same) within ran
  obtain ⟨rfl, -, -, -, -, -, replies, accepted⟩ := sound
  exact ⟨accepted, replies⟩

def exampleClient : SocketAddr := .v4 ⟨192, 0, 2, 7⟩ 4000

def exampleControl : SocketAddr := .v4 ⟨192, 0, 2, 7⟩ 3000

def examplePackets : List Event :=
  [.send .plain [1] secondResolver, .send .plain [2] (.domain "example.org" 53),
    .inject (.v4 ⟨198, 51, 100, 1⟩ 9) [0, 0, 0, 1, 8, 8, 8, 8, 0, 53, 3], .deliver 1, .deliver 2,
    .deliver 0, .deliver 1, .reply (.ok ()) [4] .dummy secondResolver]

/-- The second packet comes first, and once more in the end; a stranger's is dropped. -/
theorem run_relayed_examplePackets :
    ∃ state,
      Machine.run State.step (initial exampleClient exampleControl) examplePackets = some state ∧
      state.delivered = [(.domain "example.org" 53, [2]), (secondResolver, [1]),
        (.domain "example.org" 53, [2])] ∧
      state.accepted = state.delivered.map (relayed exampleClient) := by
  obtain ⟨state, ran, delivered⟩ : ∃ state,
      Machine.run State.step (initial exampleClient exampleControl) examplePackets =
        some state ∧ state.delivered = [(.domain "example.org" 53, [2]), (secondResolver, [1]),
          (.domain "example.org" 53, [2])] :=
    ⟨_, rfl, by decide +kernel⟩
  have same : exampleClient.ip = exampleControl.ip := rfl
  exact ⟨state, ran, delivered, (run_relayed same (by decide) ran).1⟩

end

end Socks5Relay

end QuicProxy
