import QuicProxy.Proxy.Anytls.Packet

namespace QuicProxy

/-! How the UDP side of each outbound addresses the packets it is given
(`send_to` of the packet objects under `src/proxy/outbound` and in
`src/proxy/shadowquic_udp.rs`). -/

/-- What the network and the libraries answer during one `send_to`. -/
structure SendEnv where
  resolve : TargetAddr → Except String SocketAddr
  transport : Except String Unit
  maxDatagramSize : Option Nat
  packetId : UInt16
  /-- Context ids that other sessions of the connection have taken meanwhile. -/
  otherContexts : Nat
  /-- How often the peer stops the stream that is written to. -/
  stops : Nat

structure UdpMessage where
  sessionId : UInt32
  packetId : UInt16
  fragId : UInt8
  fragCount : UInt8
  destination : String
  payload : Bytes

/-- A packet as an outbound hands it on; `dropped` is a success that sends
nothing. -/
inductive Handed where
  | udp (destination : SocketAddr) (payload : Bytes)
  | dnsQuery (answeredAs : TargetAddr) (query : Bytes)
  | socks5 (datagram : Bytes)
  | trojan (packet : Bytes)
  | vmess (payload : Bytes)
  | shadowsocks (host : String) (port : UInt16) (payload : Bytes)
  | hysteria2 (messages : List UdpMessage)
  | anytls (frame : Frame)
  | shadowQuic (contextId : UInt16) (payload : Bytes)
  | dropped

/-! The direct outbound. -/

structure DirectUdpOutbound where
  resolved : List (TargetAddr × SocketAddr)

namespace DirectUdpOutbound

def address (socket : DirectUdpOutbound) (env : SendEnv) (target : TargetAddr) :
    Except String (SocketAddr × DirectUdpOutbound) :=
  match target with
  | .ip addr => .ok (addr, socket)
  | .domain name port =>
      match socket.resolved.lookup (.domain name port) with
      | some addr => .ok (addr, socket)
      | none =>
          (env.resolve (.domain name port)).map fun addr =>
            (addr, ⟨(.domain name port, addr) :: socket.resolved⟩)

def sendTo (socket : DirectUdpOutbound) (env : SendEnv) (buf : Bytes)
    (target : TargetAddr) : Except String (Handed × DirectUdpOutbound) :=
  match socket.address env target with
  | .error error => .error error
  | .ok (addr, socket) => env.transport.map fun _ => (.udp addr buf, socket)

end DirectUdpOutbound

/-! The SOCKS5 and Trojan outbounds. -/

instance (target : TargetAddr) : Decidable target.ShortName :=
  match target with
  | .ip _ => .isTrue trivial
  | .domain _ _ => inferInstanceAs (Decidable (_ ≤ _))

def Socks5UdpSocket.sendTo (aborted : Bool) (env : SendEnv) (buf : Bytes)
    (target : TargetAddr) : Except String Handed :=
  if aborted then .error "Control stream closed"
  else if target.ShortName then
    env.transport.map fun _ => .socks5 ([0, 0, 0] ++ target.writeTo ++ buf)
  else .error "Domain name too long"

def TrojanUdpSocket.sendTo (env : SendEnv) (buf : Bytes) (target : TargetAddr) :
    Except String Handed :=
  env.transport.map fun _ =>
    .trojan (target.writeTo ++ u16ToBe (castU16 buf.length) ++ [13, 10] ++ buf)

/-! The Hysteria2 outbound. -/

namespace Hy2UdpSession

def varintLen (value : Nat) : Nat :=
  if value ≤ 63 then 1
  else if value ≤ 16383 then 2
  else if value ≤ 1073741823 then 4
  else 8

def udpHeaderSize (destination : String) : Nat :=
  8 + varintLen (asBytes destination).length + (asBytes destination).length

/-- The loop that cuts a payload; every round takes at least one byte, so its
length is enough fuel. -/
def cutPayload (perFragment : Nat) : Nat → Bytes → List Bytes
  | 0, _ => []
  | fuel + 1, rest =>
      if rest.isEmpty then []
      else rest.take perFragment :: cutPayload perFragment fuel (rest.drop perFragment)

def payloadChunks (destination : String) (payload : Bytes) (maxSize : Nat) : List Bytes :=
  let headerSize := udpHeaderSize destination
  if payload.length + headerSize ≤ maxSize then [payload]
  else cutPayload (max (maxSize - headerSize) 1) payload.length payload

def fragmentUdpPayload (sessionId : UInt32) (packetId : UInt16) (destination : String)
    (payload : Bytes) (maxSize : Nat) : Option (List UdpMessage) :=
  let chunks := payloadChunks destination payload maxSize
  if chunks.length ≤ 255 then
    some (chunks.mapIdx fun index chunk =>
      ⟨sessionId, packetId, castU8 index, castU8 chunks.length, destination, chunk⟩)
  else none

def sendTo (sessionId : UInt32) (env : SendEnv) (buf : Bytes) (target : TargetAddr) :
    Except String Handed :=
  if buf.length > 65535 then .ok .dropped
  else
    match env.maxDatagramSize with
    | none => .error "hy2 peer does not support QUIC datagrams"
    | some maxSize =>
        match fragmentUdpPayload sessionId env.packetId (String.ofList target.toText) buf
            maxSize with
        | none => .ok .dropped
        | some messages => env.transport.map fun _ => .hysteria2 messages

end Hy2UdpSession

/-! The ShadowQUIC outbound. -/

/-- `ShadowQuicUdpPacket` of a client.  `control` holds the bindings written to
the control stream, each an address and a context id. -/
structure ShadowQuicUdpPacket where
  isOverUnistream : Bool
  senderMap : List (TargetAddr × UInt16)
  control : List (TargetAddr × UInt16)
  nextContextId : Nat

namespace ShadowQuicUdpPacket

def getSendContextId (packet : ShadowQuicUdpPacket) (env : SendEnv) (target : TargetAddr) :
    Except String (UInt16 × ShadowQuicUdpPacket) :=
  match packet.senderMap.lookup target with
  | some contextId => .ok (contextId, packet)
  | none =>
      let contextId := packet.nextContextId + env.otherContexts
      if contextId ≥ 65536 then .error "ShadowQUIC context id exhausted"
      else
        -- `create_sender` binds the id on the control stream.
        env.transport.map fun _ =>
          (castU16 contextId,
            { packet with
              senderMap := (target, castU16 contextId) :: packet.senderMap
              control := (target, castU16 contextId) :: packet.control
              nextContextId := contextId + 1 })

def removeSender (packet : ShadowQuicUdpPacket) (target : TargetAddr) :
    ShadowQuicUdpPacket :=
  { packet with senderMap := packet.senderMap.filter (·.1 ≠ target) }

/-- The attempts of `send_to` over a stream, of which the peer stops the first
`stops`. -/
def sendStream (env : SendEnv) (buf : Bytes) (target : TargetAddr) :
    (attempts stops : Nat) → ShadowQuicUdpPacket →
      Except String (Handed × ShadowQuicUdpPacket)
  | 0, _, _ => .error "ShadowQUIC unistream sender keeps getting stopped by peer"
  | attempts + 1, stops, packet =>
      match packet.getSendContextId env target with
      | .error error => .error error
      | .ok (contextId, packet) =>
          if buf.length > 65535 then
            .error "ShadowQUIC UDP payload exceeds the u16 stream length limit"
          else if stops = 0 then .ok (.shadowQuic contextId buf, packet)
          else sendStream env buf target attempts (stops - 1) (packet.removeSender target)

def sendTo (packet : ShadowQuicUdpPacket) (env : SendEnv) (buf : Bytes)
    (target : TargetAddr) : Except String (Handed × ShadowQuicUdpPacket) :=
  if packet.isOverUnistream then sendStream env buf target 2 env.stops packet
  else
    match packet.getSendContextId env target with
    | .error error => .error error
    | .ok (contextId, packet) =>
        if env.maxDatagramSize.any (2 + buf.length > ·) then .ok (.dropped, packet)
        else env.transport.map fun _ => (.shadowQuic contextId buf, packet)

end ShadowQuicUdpPacket

/-! All outbounds. -/

inductive OutPacket where
  | direct (socket : DirectUdpOutbound)
  | dns
  | socks5 (aborted : Bool)
  | trojan
  /-- `VmessUdpSocket`, with the target its stream was opened for. -/
  | vmess (target : TargetAddr)
  | shadowsocks
  | hysteria2 (sessionId : UInt32)
  | anytls (socket : AnytlsUdpSocket)
  | shadowQuic (packet : ShadowQuicUdpPacket)

namespace OutPacket

def sendTo (packet : OutPacket) (env : SendEnv) (buf : Bytes) (source : SourceAddr)
    (target : TargetAddr) : Except String (Handed × OutPacket) :=
  match packet with
  | direct socket =>
      (socket.sendTo env buf target).map fun (handed, socket) => (handed, direct socket)
  | dns => .ok (.dnsQuery target buf, packet)
  | socks5 aborted => (Socks5UdpSocket.sendTo aborted env buf target).map (·, packet)
  | trojan => (TrojanUdpSocket.sendTo env buf target).map (·, packet)
  | vmess _ => env.transport.map fun _ => (.vmess buf, packet)
  | shadowsocks =>
      env.transport.map fun _ => (.shadowsocks target.host target.port buf, packet)
  | hysteria2 sessionId => (Hy2UdpSession.sendTo sessionId env buf target).map (·, packet)
  | anytls socket =>
      (socket.sendTo buf source target).map fun (frame, _) => (.anytls frame, packet)
  | shadowQuic inner =>
      (inner.sendTo env buf target).map fun (handed, inner) => (handed, shadowQuic inner)

end OutPacket

inductive OutboundKind where
  | direct
  | dns
  | socks5
  | trojan
  | vmess
  | shadowsocks
  | hysteria2
  | anytls
  | shadowQuic
deriving DecidableEq

/-- `connect_packet`; `number` is the session, stream or next context id that
the connection gives out. -/
def OutboundKind.connectPacket (kind : OutboundKind) (env : SendEnv) (number : Nat)
    (overUnistream : Bool) (target : TargetAddr) : Except String OutPacket :=
  match kind with
  | direct => (env.resolve target).map fun _ => .direct ⟨[]⟩
  | dns => .ok .dns
  | socks5 => env.transport.map fun _ => .socks5 false
  | trojan => env.transport.map fun _ => .trojan
  | vmess => env.transport.map fun _ => .vmess target
  | shadowsocks => env.transport.map fun _ => .shadowsocks
  | hysteria2 => env.transport.map fun _ => .hysteria2 (UInt32.ofNat number)
  | anytls => env.transport.map fun _ => .anytls ⟨UInt32.ofNat number, false, [], []⟩
  | shadowQuic =>
      (ShadowQuicUdpPacket.getSendContextId ⟨overUnistream, [], [], number⟩ env target).map
        fun (_, packet) => .shadowQuic packet

/-! The destination of what is handed on. -/

/-- The packet is handed on with `payload` and addressed to `target`: in the
outbound's own format, over a stream opened for `target`, under a context id
bound to `target` only, or to an address that `target` resolved to. -/
def Handed.AddressedTo (after : OutPacket) (envs : List SendEnv) (payload : Bytes)
    (target : TargetAddr) : Handed → Prop
  | udp destination data =>
      data = payload ∧
        (target = .ip destination ∨ ∃ env ∈ envs, env.resolve target = .ok destination)
  | dnsQuery answeredAs query => query = payload ∧ answeredAs = target
  | socks5 datagram => datagram = [0, 0, 0] ++ target.writeTo ++ payload
  | trojan packet =>
      packet = target.writeTo ++ u16ToBe (castU16 payload.length) ++ [13, 10] ++ payload
  | vmess data => data = payload ∧ after = .vmess target
  | shadowsocks host port data => data = payload ∧ host = target.host ∧ port = target.port
  | hysteria2 messages =>
      (messages.map (·.payload)).flatten = payload ∧
        ∀ message ∈ messages, message.destination = String.ofList target.toText
  | anytls frame => frame.cmd = .psh ∧ frame.data = Uot.packetBytes payload (some target)
  | shadowQuic contextId data =>
      data = payload ∧ ∃ inner, after = .shadowQuic inner ∧
        (target, contextId) ∈ inner.control ∧
          ∀ other, (other, contextId) ∈ inner.control → other = target
  | dropped => False

structure ShadowQuicUdpPacket.Bound (packet : ShadowQuicUdpPacket) : Prop where
  sender : ∀ entry ∈ packet.senderMap, entry ∈ packet.control
  allocated : ∀ entry ∈ packet.control, entry.2.toNat < packet.nextContextId
  single : ∀ first second contextId, (first, contextId) ∈ packet.control →
    (second, contextId) ∈ packet.control → first = second

/-- What a packet object remembers about its destinations is true. -/
def OutPacket.Consistent (envs : List SendEnv) : OutPacket → Prop
  | direct socket =>
      ∀ entry ∈ socket.resolved, ∃ env ∈ envs, env.resolve entry.1 = .ok entry.2
  | anytls socket => socket.isConnect = false
  | shadowQuic packet => packet.Bound
  | _ => True

theorem ShadowQuicUdpPacket.Bound.removeSender {packet : ShadowQuicUdpPacket}
    (bound : packet.Bound) (target : TargetAddr) : (packet.removeSender target).Bound where
  sender entry member := bound.sender entry (List.mem_of_mem_filter member)
  allocated := bound.allocated
  single := bound.single

theorem mem_of_lookup {α β : Type} [BEq α] [LawfulBEq α] {table : List (α × β)} {key : α}
    {value : β} (found : table.lookup key = some value) : (key, value) ∈ table := by
  induction table with
  | nil => cases found
  | cons entry table ih =>
      obtain ⟨first, second⟩ := entry
      rw [List.lookup_cons] at found
      split at found
      · next same =>
          cases found
          rw [eq_of_beq same]
          exact List.mem_cons_self ..
      · exact List.mem_cons_of_mem _ (ih found)

theorem ShadowQuicUdpPacket.getSendContextId_bound {packet after : ShadowQuicUdpPacket}
    (bound : packet.Bound) {env : SendEnv} {target : TargetAddr} {contextId : UInt16}
    (found : packet.getSendContextId env target = .ok (contextId, after)) :
    after.Bound ∧ (target, contextId) ∈ after.control := by
  simp only [getSendContextId] at found
  split at found
  · next known =>
      cases found
      exact ⟨bound, bound.sender _ (mem_of_lookup known)⟩
  · split at found
    · cases found
    · next small =>
        cases written : env.transport with
        | error error => rw [written] at found; cases found
        | ok _ =>
            rw [written] at found
            cases found
            have value : (castU16 (packet.nextContextId + env.otherContexts)).toNat =
                packet.nextContextId + env.otherContexts := by
              rw [toNat_castU16]
              omega
            have fresh : ∀ other, (other,
                castU16 (packet.nextContextId + env.otherContexts)) ∉ packet.control := by
              intro other member
              have := bound.allocated _ member
              simp only [value] at this
              omega
            refine ⟨⟨?_, ?_, ?_⟩, List.mem_cons_self ..⟩
            · refine List.forall_mem_cons.mpr ⟨List.mem_cons_self .., ?_⟩
              exact fun entry member => List.mem_cons_of_mem _ (bound.sender entry member)
            · refine List.forall_mem_cons.mpr ⟨?_, fun entry member => ?_⟩
              · simp only [value]
                omega
              · have := bound.allocated entry member
                simp only
                omega
            · rintro first second contextId (_ | ⟨_, firstMember⟩)
                (_ | ⟨_, secondMember⟩)
              · rfl
              · exact absurd secondMember (fresh second)
              · exact absurd firstMember (fresh first)
              · exact bound.single first second contextId firstMember secondMember

theorem ok_of_map {ε α β : Type} {result : Except ε α} {change : α → β} {value : β}
    (mapped : result.map change = .ok value) :
    ∃ inner, result = .ok inner ∧ change inner = value := by
  cases result with
  | error error => cases mapped
  | ok inner => exact ⟨inner, rfl, Except.ok.inj mapped⟩

def Handed.Faithful (after : OutPacket) (envs : List SendEnv) (payload : Bytes)
    (target : TargetAddr) (handed : Handed) : Prop :=
  handed = .dropped ∨ handed.AddressedTo after envs payload target

theorem DirectUdpOutbound.sendTo_faithful {socket after : DirectUdpOutbound}
    {envs : List SendEnv} (consistent : (OutPacket.direct socket).Consistent envs)
    {env : SendEnv} (member : env ∈ envs) {buf : Bytes} {target : TargetAddr}
    {handed : Handed} (sent : socket.sendTo env buf target = .ok (handed, after)) :
    (OutPacket.direct after).Consistent envs ∧
      handed.AddressedTo (.direct after) envs buf target := by
  unfold sendTo at sent
  split at sent
  · cases sent
  · next addr next found =>
      obtain ⟨_, _, same⟩ := ok_of_map sent
      cases same
      unfold address at found
      split at found
      · cases found
        exact ⟨consistent, rfl, .inl rfl⟩
      · split at found
        · next known =>
            cases found
            exact ⟨consistent, rfl, .inr (consistent _ (mem_of_lookup known))⟩
        · obtain ⟨answer, resolved, same⟩ := ok_of_map found
          cases same
          refine ⟨?_, rfl, .inr ⟨env, member, resolved⟩⟩
          exact List.forall_mem_cons.mpr ⟨⟨env, member, resolved⟩, consistent⟩

theorem Hy2UdpSession.flatten_cutPayload {perFragment : Nat} (positive : 0 < perFragment)
    {fuel : Nat} {payload : Bytes} (enough : payload.length ≤ fuel) :
    (cutPayload perFragment fuel payload).flatten = payload := by
  induction fuel generalizing payload with
  | zero =>
      rw [List.length_eq_zero_iff.mp (Nat.le_zero.mp enough)]
      rfl
  | succ fuel ih =>
      simp only [cutPayload]
      split
      · next empty => rw [List.isEmpty_iff.mp empty]; rfl
      · next full =>
          have : 0 < payload.length := by
            rw [List.length_pos_iff]
            exact fun empty => full (List.isEmpty_iff.mpr empty)
          rw [List.flatten_cons, ih (by rw [List.length_drop]; omega),
            List.take_append_drop]

theorem Hy2UdpSession.flatten_payloadChunks (destination : String) (payload : Bytes)
    (maxSize : Nat) : (payloadChunks destination payload maxSize).flatten = payload := by
  simp only [payloadChunks]
  split
  · exact List.append_nil payload
  · exact flatten_cutPayload (by omega) (Nat.le_refl _)

theorem Hy2UdpSession.sendTo_faithful {sessionId : UInt32} {env : SendEnv} {buf : Bytes}
    {target : TargetAddr} {handed : Handed} (after : OutPacket) (envs : List SendEnv)
    (sent : sendTo sessionId env buf target = .ok handed) :
    handed.Faithful after envs buf target := by
  unfold sendTo at sent
  split at sent
  · cases sent
    exact .inl rfl
  split at sent
  · cases sent
  split at sent
  · cases sent
    exact .inl rfl
  · next maxSize _ messages fragmented =>
      obtain ⟨_, _, same⟩ := ok_of_map sent
      cases same
      simp only [fragmentUdpPayload] at fragmented
      split at fragmented
      · cases fragmented
        refine .inr ⟨?_, ?_⟩
        · rw [List.mapIdx_eq_zipIdx_map, List.map_map]
          refine Eq.trans (congrArg List.flatten (List.zipIdx_map_fst 0 _)) ?_
          exact flatten_payloadChunks ..
        · intro message found
          obtain ⟨index, bound, rfl⟩ := List.mem_mapIdx.mp found
          rfl
      · cases fragmented

theorem ShadowQuicUdpPacket.sendStream_faithful {env : SendEnv} {buf : Bytes}
    {target : TargetAddr} {attempts stops : Nat} {packet after : ShadowQuicUdpPacket}
    (bound : packet.Bound) {handed : Handed} (envs : List SendEnv)
    (sent : sendStream env buf target attempts stops packet = .ok (handed, after)) :
    after.Bound ∧ handed.AddressedTo (.shadowQuic after) envs buf target := by
  induction attempts generalizing stops packet with
  | zero => cases sent
  | succ attempts ih =>
      simp only [sendStream] at sent
      split at sent
      · cases sent
      · next contextId next found =>
          obtain ⟨nextBound, bind⟩ := getSendContextId_bound bound found
          split at sent
          · cases sent
          split at sent
          · cases sent
            exact ⟨nextBound, rfl, after, rfl, bind,
              fun other member => nextBound.single other target _ member bind⟩
          · exact ih (nextBound.removeSender target) sent

theorem ShadowQuicUdpPacket.sendTo_faithful {packet after : ShadowQuicUdpPacket}
    (bound : packet.Bound) {env : SendEnv} {buf : Bytes} {target : TargetAddr}
    {handed : Handed} (envs : List SendEnv)
    (sent : packet.sendTo env buf target = .ok (handed, after)) :
    after.Bound ∧ handed.Faithful (.shadowQuic after) envs buf target := by
  unfold sendTo at sent
  split at sent
  · obtain ⟨afterBound, addressed⟩ := sendStream_faithful bound envs sent
    exact ⟨afterBound, .inr addressed⟩
  split at sent
  · cases sent
  · next contextId next found =>
      obtain ⟨nextBound, bind⟩ := getSendContextId_bound bound found
      split at sent
      · cases sent
        exact ⟨nextBound, .inl rfl⟩
      · obtain ⟨_, _, same⟩ := ok_of_map sent
        cases same
        exact ⟨nextBound, .inr ⟨rfl, after, rfl, bind,
          fun other member => nextBound.single other target _ member bind⟩⟩

namespace OutPacket

theorem sendTo_faithful {packet after : OutPacket} {envs : List SendEnv}
    (consistent : packet.Consistent envs) (notVmess : ∀ opened, packet ≠ .vmess opened)
    {env : SendEnv} (member : env ∈ envs) {buf : Bytes} {source : SourceAddr}
    {target : TargetAddr} {handed : Handed}
    (sent : packet.sendTo env buf source target = .ok (handed, after)) :
    after.Consistent envs ∧ (∀ opened, after ≠ .vmess opened) ∧
      handed.Faithful after envs buf target := by
  cases packet with
  | direct socket =>
      obtain ⟨⟨inner, next⟩, done, same⟩ := ok_of_map sent
      cases same
      obtain ⟨nextConsistent, addressed⟩ :=
        DirectUdpOutbound.sendTo_faithful consistent member done
      exact ⟨nextConsistent, by simp, .inr addressed⟩
  | dns =>
      cases sent
      exact ⟨trivial, by simp, .inr ⟨rfl, rfl⟩⟩
  | socks5 aborted =>
      obtain ⟨inner, done, same⟩ := ok_of_map sent
      cases same
      unfold Socks5UdpSocket.sendTo at done
      split at done
      · cases done
      split at done
      · obtain ⟨_, _, rfl⟩ := ok_of_map done
        exact ⟨trivial, by simp, .inr rfl⟩
      · cases done
  | trojan =>
      obtain ⟨inner, done, same⟩ := ok_of_map sent
      cases same
      obtain ⟨_, _, rfl⟩ := ok_of_map done
      exact ⟨trivial, by simp, .inr rfl⟩
  | vmess opened => exact absurd rfl (notVmess opened)
  | shadowsocks =>
      obtain ⟨_, _, same⟩ := ok_of_map sent
      cases same
      exact ⟨trivial, by simp, .inr ⟨rfl, rfl, rfl⟩⟩
  | hysteria2 sessionId =>
      obtain ⟨inner, done, same⟩ := ok_of_map sent
      cases same
      exact ⟨trivial, by simp, Hy2UdpSession.sendTo_faithful _ envs done⟩
  | anytls socket =>
      obtain ⟨⟨frame, count⟩, done, same⟩ := ok_of_map sent
      cases same
      have mode : socket.isConnect = false := consistent
      unfold AnytlsUdpSocket.sendTo at done
      obtain ⟨bytes, encoded, same⟩ := ok_of_map done
      cases same
      rw [mode] at encoded
      obtain ⟨_, rfl⟩ := Uot.encodePacket_eq_ok encoded
      exact ⟨consistent, by simp, .inr ⟨rfl, rfl⟩⟩
  | shadowQuic inner =>
      obtain ⟨⟨innerHanded, next⟩, done, same⟩ := ok_of_map sent
      cases same
      have innerBound : inner.Bound := consistent
      obtain ⟨bound, faithful⟩ := ShadowQuicUdpPacket.sendTo_faithful innerBound envs done
      exact ⟨bound, by simp, faithful⟩

theorem sendTo_vmess {opened : TargetAddr} {after : OutPacket} {env : SendEnv}
    {buf : Bytes} {source : SourceAddr} {target : TargetAddr} {handed : Handed}
    (sent : (vmess opened).sendTo env buf source target = .ok (handed, after)) :
    after = .vmess opened ∧
      ∀ envs expected, handed.Faithful after envs buf expected ↔ expected = opened := by
  obtain ⟨_, _, same⟩ := ok_of_map sent
  cases same
  refine ⟨rfl, fun envs expected => ⟨?_, ?_⟩⟩
  · rintro (dropped | ⟨_, same⟩)
    · cases dropped
    · cases same
      rfl
  · rintro rfl
    exact .inr ⟨rfl, rfl⟩

end OutPacket

theorem OutboundKind.connectPacket_consistent {kind : OutboundKind} {env : SendEnv}
    {number : Nat} {overUnistream : Bool} {target : TargetAddr} {packet : OutPacket}
    (opened : kind.connectPacket env number overUnistream target = .ok packet)
    (envs : List SendEnv) :
    packet.Consistent envs ∧
      (kind = .vmess ∧ packet = .vmess target ∨
        kind ≠ .vmess ∧ ∀ other, packet ≠ .vmess other) := by
  cases kind with
  | dns =>
      cases opened
      exact ⟨trivial, .inr ⟨by decide, by simp⟩⟩
  | vmess =>
      obtain ⟨_, _, rfl⟩ := ok_of_map opened
      exact ⟨trivial, .inl ⟨rfl, rfl⟩⟩
  | direct =>
      obtain ⟨_, _, rfl⟩ := ok_of_map opened
      exact ⟨by simp [OutPacket.Consistent], .inr ⟨by decide, by simp⟩⟩
  | anytls =>
      obtain ⟨_, _, rfl⟩ := ok_of_map opened
      exact ⟨rfl, .inr ⟨by decide, by simp⟩⟩
  | shadowQuic =>
      obtain ⟨_, found, rfl⟩ := ok_of_map opened
      have bound : ShadowQuicUdpPacket.Bound ⟨overUnistream, [], [], number⟩ :=
        ⟨by simp, by simp, by simp⟩
      exact ⟨(ShadowQuicUdpPacket.getSendContextId_bound bound found).1,
        .inr ⟨by decide, by simp⟩⟩
  | socks5 | trojan | shadowsocks | hysteria2 =>
      obtain ⟨_, _, rfl⟩ := ok_of_map opened
      exact ⟨trivial, .inr ⟨by decide, by simp⟩⟩

end QuicProxy
