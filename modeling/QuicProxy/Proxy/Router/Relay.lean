import QuicProxy.Proxy.Outbound

namespace QuicProxy

/-! The two forwarding futures of a UDP session (`src/proxy/router.rs`) and the
SOCKS5 end of one (`src/proxy/inbound/socks5.rs`). -/

/-- A packet of the inbound that `send_to` has accepted, what was handed on for
it, and the outbound's packet object after that. -/
structure Forwarded where
  packet : PacketInfo
  handed : Handed
  after : OutPacket

def translateTarget (originalTarget finalTarget target : TargetAddr) : TargetAddr :=
  if target = originalTarget then finalTarget else target

/-- `forward_udp_inbound_once` on the packets it has received, one environment
for each; the first failed send ends it. -/
def forwardUdpInboundOnce (source : SourceAddr) (originalTarget finalTarget : TargetAddr) :
    OutPacket → List (PacketInfo × SendEnv) → List Forwarded × Except String OutPacket
  | out, [] => ([], .ok out)
  | out, ((origin, target, buf), env) :: rest =>
      match out.sendTo env buf source (translateTarget originalTarget finalTarget target) with
      | .error _ => ([], .error "send outbound UDP packet")
      | .ok (handed, after) =>
          let (sent, result) := forwardUdpInboundOnce source originalTarget finalTarget after rest
          (⟨(origin, target, buf), handed, after⟩ :: sent, result)

def translateSource (originalTarget finalTarget : TargetAddr) (origin : SourceAddr) :
    SourceAddr :=
  if origin = finalTarget then originalTarget else origin

structure Replied (Sent : Type) where
  packet : PacketInfo
  sent : Sent

/-- `forward_udp_outbound_once` on the replies it has received, one environment
for each; `sendTo` is that of the inbound's packet object. -/
def forwardUdpOutboundOnce {Env Sent : Type}
    (sendTo : Env → Bytes → SourceAddr → TargetAddr → Except String Sent)
    (source : SourceAddr) (originalTarget finalTarget : TargetAddr) :
    List (PacketInfo × Env) → List (Replied Sent) × Except String Unit
  | [] => ([], .ok ())
  | ((origin, target, buf), env) :: rest =>
      match sendTo env buf (translateSource originalTarget finalTarget origin) source with
      | .error _ => ([], .error "send inbound UDP packet")
      | .ok sent =>
          let (more, result) :=
            forwardUdpOutboundOnce sendTo source originalTarget finalTarget rest
          (⟨(origin, target, buf), sent⟩ :: more, result)

theorem forwardUdpOutboundOnce_all {Env Sent : Type}
    {sendTo : Env → Bytes → SourceAddr → TargetAddr → Except String Sent}
    {source : SourceAddr} {originalTarget finalTarget : TargetAddr}
    {holds : Replied Sent → Prop}
    (each : ∀ {env origin target buf sent},
      sendTo env buf (translateSource originalTarget finalTarget origin) source = .ok sent →
        holds ⟨(origin, target, buf), sent⟩)
    (replies : List (PacketInfo × Env)) :
    ∀ entry ∈ (forwardUdpOutboundOnce sendTo source originalTarget finalTarget replies).1,
      holds entry := by
  induction replies with
  | nil => simp [forwardUdpOutboundOnce]
  | cons reply replies ih =>
      obtain ⟨⟨origin, target, buf⟩, env⟩ := reply
      simp only [forwardUdpOutboundOnce]
      split
      · simp
      · next sent accepted =>
          exact List.forall_mem_cons.mpr ⟨each accepted, ih⟩

/-! Packets towards the outbound. -/

/-- The packet went where it says: to the final target when it names the
original one, and to the target it names otherwise. -/
def Forwarded.Faithful (envs : List SendEnv) (originalTarget finalTarget : TargetAddr)
    (entry : Forwarded) : Prop :=
  entry.handed.Faithful entry.after envs entry.packet.2.2
    (translateTarget originalTarget finalTarget entry.packet.2.1)

theorem translateTarget_eq_final_iff {originalTarget finalTarget target : TargetAddr} :
    translateTarget originalTarget finalTarget target = finalTarget ↔
      target = originalTarget ∨ target = finalTarget := by
  unfold translateTarget
  split
  · next same => exact ⟨fun _ => .inl same, fun _ => rfl⟩
  · next other => exact ⟨.inr, fun either => either.resolve_left other⟩

theorem forwardUdpInboundOnce_faithful {source : SourceAddr}
    {originalTarget finalTarget : TargetAddr} {envs : List SendEnv} {out : OutPacket}
    {packets : List (PacketInfo × SendEnv)} (consistent : out.Consistent envs)
    (notVmess : ∀ opened, out ≠ .vmess opened) (known : ∀ entry ∈ packets, entry.2 ∈ envs) :
    ∀ entry ∈ (forwardUdpInboundOnce source originalTarget finalTarget out packets).1,
      entry.Faithful envs originalTarget finalTarget := by
  induction packets generalizing out with
  | nil => simp [forwardUdpInboundOnce]
  | cons packet packets ih =>
      obtain ⟨⟨origin, target, buf⟩, env⟩ := packet
      simp only [forwardUdpInboundOnce]
      split
      · simp
      · next handed after sent =>
          obtain ⟨afterConsistent, afterNotVmess, faithful⟩ :=
            OutPacket.sendTo_faithful consistent notVmess
              (known _ (List.mem_cons_self ..)) sent
          refine List.forall_mem_cons.mpr ⟨faithful, ih afterConsistent afterNotVmess ?_⟩
          exact fun entry member => known entry (List.mem_cons_of_mem _ member)

theorem forwardUdpInboundOnce_vmess (source : SourceAddr)
    (originalTarget finalTarget opened : TargetAddr) (envs : List SendEnv)
    (packets : List (PacketInfo × SendEnv)) :
    ∀ entry ∈ (forwardUdpInboundOnce source originalTarget finalTarget (.vmess opened)
        packets).1,
      entry.Faithful envs originalTarget finalTarget ↔
        translateTarget originalTarget finalTarget entry.packet.2.1 = opened := by
  induction packets with
  | nil => simp [forwardUdpInboundOnce]
  | cons packet packets ih =>
      obtain ⟨⟨origin, target, buf⟩, env⟩ := packet
      simp only [forwardUdpInboundOnce]
      split
      · simp
      · next handed after sent =>
          obtain ⟨rfl, faithful⟩ := OutPacket.sendTo_vmess sent
          exact List.forall_mem_cons.mpr ⟨faithful envs _, ih⟩

theorem forwardUdpInboundOnce_vmess_packets (source : SourceAddr)
    (originalTarget finalTarget opened : TargetAddr) (packets : List (PacketInfo × SendEnv)) :
    (forwardUdpInboundOnce source originalTarget finalTarget (.vmess opened)
        packets).1.map (·.packet) =
      (packets.takeWhile (·.2.transport.isOk)).map (·.1) := by
  induction packets with
  | nil => rfl
  | cons packet packets ih =>
      obtain ⟨⟨origin, target, buf⟩, env⟩ := packet
      simp only [forwardUdpInboundOnce, OutPacket.sendTo]
      cases written : env.transport with
      | error error => simp [written, Except.map, Except.isOk, Except.toBool]
      | ok _ =>
          rw [List.takeWhile_cons_of_pos (by simp [written, Except.isOk, Except.toBool])]
          simp only [Except.map, List.map_cons, ih]

/-- In every session and for every sequence of packets, each accepted packet
goes where it says exactly when the outbound is not VMess or the packets up to
the first failed write all name the destination of the session. -/
theorem forwarded_faithful_iff (kind : OutboundKind) (env : SendEnv) (number : Nat)
    (overUnistream : Bool) (source : SourceAddr) (originalTarget finalTarget : TargetAddr)
    (out : OutPacket)
    (opened : kind.connectPacket env number overUnistream finalTarget = .ok out)
    (packets : List (PacketInfo × SendEnv)) :
    (∀ entry ∈ (forwardUdpInboundOnce source originalTarget finalTarget out packets).1,
      entry.Faithful (packets.map (·.2)) originalTarget finalTarget) ↔
      (kind = .vmess → ∀ entry ∈ packets.takeWhile (·.2.transport.isOk),
        entry.1.2.1 = originalTarget ∨ entry.1.2.1 = finalTarget) := by
  obtain ⟨consistent, ⟨rfl, rfl⟩ | ⟨notVmess, noStream⟩⟩ :=
    kind.connectPacket_consistent opened (packets.map (·.2))
  · have each := forwardUdpInboundOnce_vmess source originalTarget finalTarget finalTarget
      (packets.map (·.2)) packets
    have accepted := forwardUdpInboundOnce_vmess_packets source originalTarget finalTarget
      finalTarget packets
    constructor
    · intro faithful _ entry member
      have packet : entry.1 ∈ _ := accepted ▸ List.mem_map_of_mem member
      obtain ⟨forwarded, found, same⟩ := List.mem_map.mp packet
      rw [← same]
      exact translateTarget_eq_final_iff.mp
        ((each forwarded found).mp (faithful forwarded found))
    · intro named forwarded found
      have packet : forwarded.packet ∈ _ := accepted ▸ List.mem_map_of_mem found
      obtain ⟨entry, member, same⟩ := List.mem_map.mp packet
      refine (each forwarded found).mpr (translateTarget_eq_final_iff.mpr ?_)
      rw [← same]
      exact named rfl entry member
  · refine ⟨fun _ vmess => absurd vmess notVmess, fun _ => ?_⟩
    exact forwardUdpInboundOnce_faithful consistent noStream
      fun entry member => List.mem_map_of_mem member

def SendEnv.plain : SendEnv where
  resolve
    | .ip addr => .ok addr
    | .domain _ _ => .error "no such name"
  transport := .ok ()
  maxDatagramSize := some 1200
  packetId := 0
  otherContexts := 0
  stops := 0

def firstResolver : TargetAddr := .ip (.v4 ⟨1, 1, 1, 1⟩ 53)

def secondResolver : TargetAddr := .ip (.v4 ⟨8, 8, 8, 8⟩ 53)

def twoResolvers : List (PacketInfo × SendEnv) :=
  [((.dummy, firstResolver, [1]), .plain), ((.dummy, secondResolver, [2]), .plain)]

theorem forwarded_faithful_trojan :
    ∃ entry ∈ (forwardUdpInboundOnce .dummy firstResolver firstResolver .trojan
        twoResolvers).1,
      entry.packet.2.1 = secondResolver ∧
        entry.Faithful (twoResolvers.map (·.2)) firstResolver firstResolver := by
  have faithful := (forwarded_faithful_iff .trojan .plain 0 false .dummy firstResolver
    firstResolver .trojan rfl twoResolvers).mpr (fun vmess => by cases vmess)
  refine ⟨_, List.mem_cons_of_mem _ (List.mem_cons_self ..), rfl, faithful _ ?_⟩
  exact List.mem_cons_of_mem _ (List.mem_cons_self ..)

theorem forwarded_vmess_misdelivered :
    ∃ out, OutboundKind.vmess.connectPacket .plain 0 false firstResolver = .ok out ∧
      ∃ entry ∈ (forwardUdpInboundOnce .dummy firstResolver firstResolver out
          twoResolvers).1,
        entry.packet.2.1 = secondResolver ∧
          entry.handed.AddressedTo entry.after (twoResolvers.map (·.2)) [2] firstResolver ∧
          ¬ entry.Faithful (twoResolvers.map (·.2)) firstResolver firstResolver := by
  refine ⟨.vmess firstResolver, rfl,
    ⟨(.dummy, secondResolver, [2]), .vmess [2], .vmess firstResolver⟩, ?_, rfl, ⟨rfl, rfl⟩,
    ?_⟩
  · exact List.mem_cons_of_mem _ (List.mem_cons_self ..)
  · rintro (dropped | ⟨_, same⟩)
    · cases dropped
    · injection same with same
      revert same
      decide

/-! Replies towards a SOCKS5 client. -/

/-- The address a SOCKS5 association has last heard its client from, and the
result of the write on the UDP socket. -/
structure ReplyEnv where
  clientUdpAddr : Option SocketAddr
  transport : Except String Unit

structure ClientDatagram where
  destination : SocketAddr
  data : Bytes

/-- `Socks5InboundPacket::send_to`, with its parameters in the order the source
names them. -/
def Socks5InboundPacket.sendTo (env : ReplyEnv) (buf : Bytes) (_target : TargetAddr)
    (source : SourceAddr) : Except String ClientDatagram :=
  match env.clientUdpAddr with
  | none => .error "No client UDP address known yet"
  | some clientAddr =>
      env.transport.map fun _ => ⟨clientAddr, [0, 0, 0] ++ source.writeTo ++ buf⟩

def UdpHandler.sendTo {Sent : Type}
    (udpTx : Bytes → SourceAddr → TargetAddr → Except String Sent) (buf : Bytes)
    (source : SourceAddr) (target : TargetAddr) : Except String Sent :=
  udpTx buf source target

def socks5Replies (peer : SocketAddr) (originalTarget finalTarget : TargetAddr)
    (replies : List (PacketInfo × ReplyEnv)) : List (Replied ClientDatagram) :=
  (forwardUdpOutboundOnce (fun env => UdpHandler.sendTo (Socks5InboundPacket.sendTo env))
    (.ip peer) originalTarget finalTarget replies).1

def HeaderNames (datagram : Bytes) (addr : TargetAddr) : Prop :=
  ∃ used, TargetAddr.decode (datagram.drop 3) = .ok (some (addr, used))

def FramesReply (datagram : Bytes) (source : SourceAddr) (buf : Bytes) : Prop :=
  datagram.take 3 = [0, 0, 0] ∧
    ∃ used, TargetAddr.decode (datagram.drop 3) = .ok (some (source, used)) ∧
      datagram.drop (3 + used) = buf

/-- The reply is framed for the endpoint it comes from, and does not name the
client. -/
def Replied.Framed (peer : SocketAddr) (originalTarget finalTarget : TargetAddr)
    (entry : Replied ClientDatagram) : Prop :=
  FramesReply entry.sent.data (translateSource originalTarget finalTarget entry.packet.1)
      entry.packet.2.2 ∧
    ¬HeaderNames entry.sent.data (.ip peer.unscoped)

theorem decode_of_socks5Reply {env : ReplyEnv} {buf : Bytes} {source : SourceAddr}
    {peer : SocketAddr} {sent : ClientDatagram}
    (written : UdpHandler.sendTo (Socks5InboundPacket.sendTo env) buf source (.ip peer) =
      .ok sent) :
    sent.data.take 3 = [0, 0, 0] ∧
      TargetAddr.decode (sent.data.drop 3) =
          .ok (some (.ip peer.unscoped, (TargetAddr.ip peer).writeTo.length)) ∧
        sent.data.drop (3 + (TargetAddr.ip peer).writeTo.length) = buf := by
  simp only [UdpHandler.sendTo, Socks5InboundPacket.sendTo] at written
  split at written
  · cases written
  · obtain ⟨_, _, rfl⟩ := ok_of_map written
    have short : (TargetAddr.ip peer).ShortName := trivial
    refine ⟨rfl, TargetAddr.decode_writeTo short buf, ?_⟩
    rw [← List.drop_drop]
    exact List.drop_left

/-- In every session of a SOCKS5 client, every reply that is written names the
client itself, so none is framed as it should be; its header is that of the
endpoint the reply comes from only when this is the client. -/
theorem socks5Replies_not_framed (peer : SocketAddr) (originalTarget finalTarget : TargetAddr)
    (replies : List (PacketInfo × ReplyEnv)) :
    ∀ entry ∈ socks5Replies peer originalTarget finalTarget replies,
      ¬entry.Framed peer originalTarget finalTarget ∧
        (FramesReply entry.sent.data
            (translateSource originalTarget finalTarget entry.packet.1) entry.packet.2.2 ↔
          translateSource originalTarget finalTarget entry.packet.1 = .ip peer.unscoped) := by
  refine forwardUdpOutboundOnce_all ?_ replies
  intro env origin target buf sent written
  obtain ⟨zeros, decoded, dropped⟩ := decode_of_socks5Reply written
  refine ⟨fun framed => framed.2 ⟨_, decoded⟩, ?_, ?_⟩
  · rintro ⟨_, used, named, _⟩
    rw [decoded] at named
    exact (congrArg Prod.fst (Option.some.inj (Except.ok.inj named))).symm
  · intro same
    rw [same]
    exact ⟨zeros, _, decoded, dropped⟩

def localClient : SocketAddr := .v4 ⟨127, 0, 0, 1⟩ 50000

def resolverReply : List (PacketInfo × ReplyEnv) :=
  [((secondResolver, .dummy, [104, 105]), ⟨some localClient, .ok ()⟩)]

theorem resolverReply_not_framed :
    ∃ entry ∈ socks5Replies localClient secondResolver secondResolver resolverReply,
      ¬entry.Framed localClient secondResolver secondResolver := by
  have framed := socks5Replies_not_framed localClient secondResolver secondResolver
    resolverReply
  refine ⟨_, List.mem_cons_self .., (framed _ ?_).1⟩
  exact List.mem_cons_self ..

theorem resolverReply_names_client :
    ∃ entry ∈ socks5Replies localClient secondResolver secondResolver resolverReply,
      entry.sent = ⟨localClient, [0, 0, 0, 1, 127, 0, 0, 1, 195, 80, 104, 105]⟩ ∧
        ¬FramesReply entry.sent.data secondResolver [104, 105] ∧
          ¬entry.Framed localClient secondResolver secondResolver := by
  have other : ¬FramesReply [0, 0, 0, 1, 127, 0, 0, 1, 195, 80, 104, 105] secondResolver
      [104, 105] := by
    rintro ⟨_, used, named, _⟩
    injection named with named
    injection named with named
    injection named with named
    revert named
    decide
  refine ⟨_, List.mem_cons_self .., rfl, other, ?_⟩
  exact fun framed => other framed.1

end QuicProxy
