import QuicProxy.Proxy.Outbound
import QuicProxy.Proxy.Router.ObservedStream

namespace QuicProxy

/-! The `ObservedPacket` of each UDP session (`src/proxy/router/observe.rs`) over
the packet object of an outbound.  It counts what the `send_to` under it returns. -/

/-- What `send_to` returns with what it hands on: the sockets of the direct and
the SOCKS5 outbound give the bytes that they have sent, the others the length of
`buf`. -/
def Handed.returned (buf : Bytes) : Handed → Nat
  | udp _ payload => payload.length
  | socks5 datagram => datagram.length
  | dropped => 0
  | _ => buf.length

theorem TargetAddr.encodedLen_le {target : TargetAddr} (short : target.ShortName) :
    target.encodedLen ≤ 259 := by
  match target with
  | ip (.v4 _ _) | ip (.v6 _ _ _ _) =>
      simp only [encodedLen]
      omega
  | domain name _ =>
      have : (asBytes name).length ≤ 255 := short
      simp only [encodedLen]
      omega

def Handed.isDropped : Handed → Bool
  | dropped => true
  | _ => false

namespace OutPacket

/-- A SOCKS5 outbound takes the packet. -/
def socks5Sends (packet : OutPacket) (env : SendEnv) (target : TargetAddr) : Bool :=
  match packet with
  | socks5 aborted => !aborted && decide target.ShortName && env.transport.isOk
  | _ => false

/-- The packet does not fit the datagrams of the connection. -/
def tooLarge (packet : OutPacket) (env : SendEnv) (buf : Bytes) (target : TargetAddr) : Bool :=
  match packet with
  | hysteria2 sessionId =>
      decide (buf.length > 65535) || env.maxDatagramSize.any fun maxSize =>
        (Hy2UdpSession.fragmentUdpPayload sessionId env.packetId (String.ofList target.toText)
          buf maxSize).isNone
  | shadowQuic inner =>
      !inner.isOverUnistream && env.maxDatagramSize.any (2 + buf.length > ·) &&
        (inner.getSendContextId env target).isOk
  | _ => false

variable {packet after : OutPacket} {env : SendEnv} {buf : Bytes} {source : SourceAddr}
  {target : TargetAddr} {handed : Handed}

theorem hysteria2_returned {sessionId : UInt32}
    (sent : Hy2UdpSession.sendTo sessionId env buf target = .ok handed) :
    (hysteria2 sessionId).tooLarge env buf target = handed.isDropped ∧
      (handed.isDropped = false → handed.returned buf = buf.length) := by
  unfold Hy2UdpSession.sendTo at sent
  split at sent
  · next long =>
      cases sent
      exact ⟨by simp [tooLarge, long, Handed.isDropped], nofun⟩
  · next short =>
      split at sent
      · cases sent
      · next maxSize size =>
          split at sent
          · next fragmented =>
              cases sent
              exact ⟨by simp [tooLarge, size, fragmented, Handed.isDropped], nofun⟩
          · next messages fragmented =>
              obtain ⟨_, _, rfl⟩ := ok_of_map sent
              exact ⟨by simp [tooLarge, short, size, fragmented, Handed.isDropped], fun _ => rfl⟩

theorem sendStream_returned {attempts stops : Nat} {inner next : ShadowQuicUdpPacket}
    (sent : ShadowQuicUdpPacket.sendStream env buf target attempts stops inner =
      .ok (handed, next)) : ∃ contextId, handed = .shadowQuic contextId buf := by
  induction attempts generalizing stops inner with
  | zero => cases sent
  | succ attempts ih =>
      simp only [ShadowQuicUdpPacket.sendStream] at sent
      split at sent
      · cases sent
      · split at sent
        · cases sent
        split at sent
        · cases sent
          exact ⟨_, rfl⟩
        · exact ih sent

theorem shadowQuic_returned {inner next : ShadowQuicUdpPacket}
    (sent : inner.sendTo env buf target = .ok (handed, next)) :
    (shadowQuic inner).tooLarge env buf target = handed.isDropped ∧
      (handed.isDropped = false → handed.returned buf = buf.length) := by
  unfold ShadowQuicUdpPacket.sendTo at sent
  split at sent
  · next unistream =>
      obtain ⟨contextId, rfl⟩ := sendStream_returned sent
      exact ⟨by simp [tooLarge, unistream, Handed.isDropped], fun _ => rfl⟩
  · next unistream =>
      split at sent
      · cases sent
      · next contextId bound found =>
          split at sent
          · next large =>
              cases sent
              exact ⟨by simp [tooLarge, unistream, large, found, Except.isOk, Except.toBool,
                Handed.isDropped], nofun⟩
          · next fits =>
              obtain ⟨_, _, same⟩ := ok_of_map sent
              cases same
              exact ⟨by simp [tooLarge, unistream, fits, Handed.isDropped], fun _ => rfl⟩

theorem sendTo_returned (sent : packet.sendTo env buf source target = .ok (handed, after)) :
    packet.tooLarge env buf target = handed.isDropped ∧
      (handed.isDropped = false → handed.returned buf =
        buf.length + if packet.socks5Sends env target then 3 + target.encodedLen else 0) := by
  cases packet with
  | direct socket =>
      obtain ⟨⟨inner, next⟩, done, same⟩ := ok_of_map sent
      cases same
      unfold DirectUdpOutbound.sendTo at done
      split at done
      · cases done
      · obtain ⟨_, _, same⟩ := ok_of_map done
        cases same
        exact ⟨rfl, fun _ => rfl⟩
  | dns =>
      cases sent
      exact ⟨rfl, fun _ => rfl⟩
  | socks5 aborted =>
      obtain ⟨inner, done, same⟩ := ok_of_map sent
      cases same
      unfold Socks5UdpSocket.sendTo at done
      split at done
      · cases done
      split at done
      · next on short =>
          obtain ⟨_, written, rfl⟩ := ok_of_map done
          refine ⟨rfl, fun _ => ?_⟩
          simp [Handed.returned, socks5Sends, on, short, written, Except.isOk, Except.toBool]
          omega
      · cases done
  | trojan =>
      obtain ⟨inner, done, same⟩ := ok_of_map sent
      cases same
      obtain ⟨_, _, rfl⟩ := ok_of_map done
      exact ⟨rfl, fun _ => rfl⟩
  | vmess opened | shadowsocks =>
      obtain ⟨_, _, same⟩ := ok_of_map sent
      cases same
      exact ⟨rfl, fun _ => rfl⟩
  | hysteria2 sessionId =>
      obtain ⟨inner, done, same⟩ := ok_of_map sent
      cases same
      exact hysteria2_returned done
  | anytls socket =>
      obtain ⟨inner, done, same⟩ := ok_of_map sent
      cases same
      exact ⟨rfl, fun _ => rfl⟩
  | shadowQuic inner =>
      obtain ⟨inner, done, same⟩ := ok_of_map sent
      cases same
      exact shadowQuic_returned done

theorem shortName_of_socks5Sends (sends : packet.socks5Sends env target = true) :
    target.ShortName := by
  cases packet with
  | socks5 aborted =>
      simp only [socks5Sends, Bool.and_eq_true, decide_eq_true_eq] at sends
      exact sends.1.2
  | direct socket | dns | trojan | vmess opened | shadowsocks | hysteria2 sessionId
  | anytls socket | shadowQuic inner => cases sends

theorem socks5Sends_of_tooLarge (large : packet.tooLarge env buf target = true) :
    packet.socks5Sends env target = false := by
  cases packet with
  | hysteria2 sessionId | shadowQuic inner => rfl
  | direct socket | dns | socks5 aborted | trojan | vmess opened | shadowsocks | anytls socket =>
      cases large

theorem error_of_map {ε α β : Type} {result : Except ε α} {change : α → β} {error : ε}
    (mapped : result.map change = .error error) : result = .error error := by
  cases result with
  | error other => cases mapped; rfl
  | ok inner => cases mapped

theorem hysteria2_error {sessionId : UInt32} {error : String}
    (failed : Hy2UdpSession.sendTo sessionId env buf target = .error error) :
    (hysteria2 sessionId).tooLarge env buf target = false := by
  unfold Hy2UdpSession.sendTo at failed
  split at failed
  · cases failed
  · next short =>
      split at failed
      · next size => simp [tooLarge, short, size]
      · next maxSize size =>
          split at failed
          · cases failed
          · next messages fragmented => simp [tooLarge, short, size, fragmented]

theorem shadowQuic_error {inner : ShadowQuicUdpPacket} {error : String}
    (failed : inner.sendTo env buf target = .error error) :
    (shadowQuic inner).tooLarge env buf target = false := by
  unfold ShadowQuicUdpPacket.sendTo at failed
  split at failed
  · next unistream => simp [tooLarge, unistream]
  · split at failed
    · next found => simp [tooLarge, found, Except.isOk, Except.toBool]
    · split at failed
      · cases failed
      · next fits => simp [tooLarge, fits]

theorem sendTo_error {error : String}
    (failed : packet.sendTo env buf source target = .error error) :
    packet.socks5Sends env target = false ∧ packet.tooLarge env buf target = false := by
  cases packet with
  | direct socket | dns | trojan | vmess opened | shadowsocks | anytls socket => exact ⟨rfl, rfl⟩
  | socks5 aborted =>
      refine ⟨?_, rfl⟩
      by_contra sends
      simp only [socks5Sends, Bool.not_eq_false, Bool.and_eq_true, Bool.not_eq_true',
        decide_eq_true_eq] at sends
      obtain ⟨⟨on, short⟩, written⟩ := sends
      cases transport : env.transport with
      | error error => rw [transport] at written; cases written
      | ok _ => simp [sendTo, Socks5UdpSocket.sendTo, on, short, transport, Except.map] at failed
  | hysteria2 sessionId => exact ⟨rfl, hysteria2_error (error_of_map failed)⟩
  | shadowQuic inner => exact ⟨rfl, shadowQuic_error (error_of_map failed)⟩

end OutPacket

structure ObservedPacket where
  outboundStats : Option StatsRef
  extraStats : Option StatsRef
  inboundStats : Option StatsRef
  userStats : Option StatsRef

namespace ObservedPacket

/-- The wrapper that `_dispatch_packet` makes. -/
def new (tags : NodeTags) (routed : RoutedStream) : ObservedPacket :=
  let outboundTags := routed.outbound.activeTags
  let trackerTag := routed.outbound.tag
  let statsTag := outboundTags.getLast?.getD trackerTag
  let extraOutboundTag := if trackerTag ≠ statsTag then some trackerTag else none
  { outboundStats := tags.getOutboundStats statsTag
    extraStats := extraOutboundTag.bind tags.getOutboundStats
    inboundStats := tags.getInboundStats routed.inboundTag
    userStats := routed.user.map .user }

def opened (packet : ObservedPacket) (all : AllStats) : AllStats :=
  let all := all.modifyOption packet.inboundStats .incActiveUdp
  let all := all.modifyOption packet.outboundStats .incActiveUdp
  let all := all.modifyOption packet.extraStats .incActiveUdp
  all.modifyOption packet.userStats .incActiveUdp

/-- `Drop`. -/
def closed (packet : ObservedPacket) (all : AllStats) : AllStats :=
  let all := all.modifyOption packet.outboundStats .decActiveUdp
  let all := all.modifyOption packet.inboundStats .decActiveUdp
  let all := all.modifyOption packet.extraStats .decActiveUdp
  all.modifyOption packet.userStats .decActiveUdp

/-- What `send_to`, `recv_from` and `recv_many` do with the number of bytes. -/
def count (packet : ObservedPacket) (way : TrafficWay) (n : Nat) (all : AllStats) : AllStats :=
  let all := all.modifyOption packet.outboundStats (.addWay way n)
  let all := all.modifyOption packet.inboundStats (.addWay way n)
  let all := all.modifyOption packet.extraStats (.addWay way n)
  let all := all.modify .global (.addWay way n)
  all.modifyOption packet.userStats (.inc way n)

def countedRefs (packet : ObservedPacket) : List StatsRef :=
  packet.outboundStats.toList ++ packet.inboundStats.toList ++ packet.extraStats.toList ++
    .global :: packet.userStats.toList

variable {packet : ObservedPacket} {all : AllStats} {tags : NodeTags} {routed : RoutedStream}

theorem count_eq {way : TrafficWay} {n : Nat} :
    packet.count way n all = all.modifyAll packet.countedRefs (.inc way n) := by
  have same : Stats.addWay way n = Stats.inc way n := funext (Stats.addWay_eq_inc way n)
  unfold count countedRefs
  simp only [same, AllStats.modifyOption_eq, AllStats.modifyAll_append]
  rfl

theorem bytes_opened (ref : StatsRef) (way : TrafficWay) :
    (packet.opened all ref).bytes way = (all ref).bytes way := by
  have same := (Stats.bytes_incActiveUdp · way)
  unfold opened
  simp only [AllStats.modifyOption_eq, AllStats.bytes_modifyAll same]

theorem bytes_closed (ref : StatsRef) (way : TrafficWay) :
    (packet.closed all ref).bytes way = (all ref).bytes way := by
  have same := (Stats.bytes_decActiveUdp · way)
  unfold closed
  simp only [AllStats.modifyOption_eq, AllStats.bytes_modifyAll same]

theorem new_eq : new tags routed =
    { outboundStats := tags.getOutboundStats routed.outbound.effectiveTag
      extraStats :=
        if routed.outbound.tag ≠ routed.outbound.effectiveTag then
          tags.getOutboundStats routed.outbound.tag
        else none
      inboundStats := tags.getInboundStats routed.inboundTag
      userStats := routed.user.map .user } := by
  have leaf : routed.outbound.activeTags.getLast?.getD routed.outbound.tag =
      routed.outbound.effectiveTag := by
    rw [OutboundNode.getLast?_activeTags]
    rfl
  unfold new
  simp only [leaf]
  split <;> rfl

theorem nodup_countedRefs : (new tags routed).countedRefs.Nodup := by
  rw [new_eq]
  unfold countedRefs NodeTags.getInboundStats NodeTags.getOutboundStats
  by_cases differs : routed.outbound.tag = routed.outbound.effectiveTag
  · rw [if_neg (not_not_intro differs)]
    cases routed.user with
    | none | some account => split <;> split <;> simp
  · rw [if_pos differs]
    cases routed.user with
    | none | some account => split <;> split <;> split <;> simp [Ne.symm differs]

theorem mem_countedRefs {ref : StatsRef} (known : tags.Known ref) :
    ref ∈ (new tags routed).countedRefs ↔
      routed.Counts true ref ∨ routed.Counts false ref := by
  rw [new_eq]
  unfold countedRefs
  simp only [List.mem_append, List.mem_cons, Option.mem_toList,
    NodeTags.getOutboundStats_iff known, NodeTags.getInboundStats_iff known]
  by_cases differs : routed.outbound.tag = routed.outbound.effectiveTag
  · rw [if_neg (not_not_intro differs)]
    cases ref with
    | inbound | outbound | user | global | detached =>
        simp [RoutedStream.Counts, RoutedStream.InboundCounts, RoutedStream.OutboundCounts, differs]
  · rw [if_pos differs, NodeTags.getOutboundStats_iff known]
    cases ref with
    | inbound | outbound | user | global | detached =>
        simp [RoutedStream.Counts, RoutedStream.InboundCounts, RoutedStream.OutboundCounts]

end ObservedPacket

/-! All UDP sessions of a server, whose sends and receives take turns in any
order. -/

/-- A session with the payload bytes of the packets sent, dropped and received so
far. -/
structure ObservedSession where
  routed : RoutedStream
  packet : ObservedPacket
  inner : OutPacket
  tracker : TrackedBytes
  live : Bool
  sent : Nat
  dropped : Nat
  received : Nat

namespace ObservedSession

/-- The payload bytes of each direction, with or without those of packets that
were dropped. -/
def payload (session : ObservedSession) (evenDropped : Bool) : TrafficWay → Nat
  | .upload => session.sent + if evenDropped then session.dropped else 0
  | .download => session.received

def addSend (session : ObservedSession) (buf : Bytes) (handed : Handed) : ObservedSession :=
  if handed.isDropped then { session with dropped := session.dropped + buf.length }
  else { session with sent := session.sent + buf.length }

def addReceived (session : ObservedSession) (payloads : List Bytes) : ObservedSession :=
  { session with received := session.received + (payloads.map List.length).sum }

def adds (session : ObservedSession) (evenDropped : Bool) (way : TrafficWay) (ref : StatsRef) :
    Nat :=
  if session.routed.Counts true ref ∨ session.routed.Counts false ref then
    session.payload evenDropped way
  else 0

end ObservedSession

structure UdpTraffic where
  stats : AllStats
  sessions : List ObservedSession

namespace UdpTraffic

/-- A receive is given with the payloads that the packet object has. -/
inductive Event where
  | open (routed : RoutedStream) (inner : OutPacket)
  | send (index : Nat) (env : SendEnv) (buf : Bytes) (source : SourceAddr) (target : TargetAddr)
  | recv (index : Nat) (result : Except String (List Bytes))
  | drop (index : Nat)

variable (tags : NodeTags)

def start (stats : AllStats) : UdpTraffic := ⟨stats, []⟩

def count (traffic : UdpTraffic) (index : Nat) (session : ObservedSession) (way : TrafficWay)
    (n : Nat) : UdpTraffic :=
  ⟨session.packet.count way n traffic.stats,
    traffic.sessions.set index { session with tracker := session.tracker.inc way n }⟩

def step (traffic : UdpTraffic) : Event → Option UdpTraffic
  | .open routed inner =>
      let packet := ObservedPacket.new tags routed
      some ⟨packet.opened traffic.stats,
        traffic.sessions ++ [⟨routed, packet, inner, ⟨0, 0⟩, true, 0, 0, 0⟩]⟩
  | .send index env buf source target =>
      traffic.sessions[index]?.bind fun session =>
        -- No buffer in memory is longer.
        if session.live ∧ buf.length < 18446744073709551616 then
          match session.inner.sendTo env buf source target with
          | .error _ => some traffic
          | .ok (handed, inner) =>
              some (traffic.count index { session.addSend buf handed with inner } .upload
                (handed.returned buf))
        else none
  | .recv index result =>
      traffic.sessions[index]?.bind fun session =>
        if session.live then
          match result with
          | .error _ => some traffic
          | .ok payloads =>
              some (traffic.count index (session.addReceived payloads) .download
                (payloads.map List.length).sum)
        else none
  | .drop index =>
      traffic.sessions[index]?.bind fun session =>
        if session.live then
          some ⟨session.packet.closed traffic.stats,
            traffic.sessions.set index { session with live := false }⟩
        else none

/-- Every counter has grown by the payload bytes of the packets and by no others. -/
structure CountsPayload (evenDropped : Bool) (before : AllStats) (traffic : UdpTraffic) :
    Prop where
  stats : ∀ ref, tags.Known ref → ∀ way, (traffic.stats ref).bytes way =
    (before ref).bytes way + .ofNat (total (·.adds evenDropped way ref) traffic.sessions)
  tracker : ∀ session ∈ traffic.sessions, ∀ way,
    session.tracker.bytes way = .ofNat (session.payload evenDropped way)

/-- The packet does not go out through a SOCKS5 outbound and, where the dropped
ones are to be counted, is not dropped, unless it is empty. -/
def PlainSend (evenDropped : Bool) (traffic : UdpTraffic) : Event → Prop
  | .send index env buf _ target => ∀ session ∈ traffic.sessions[index]?,
      session.inner.socks5Sends env target = false ∧
        (evenDropped = true → session.inner.tooLarge env buf target = true → buf = [])
  | _ => True

/-- The wrappers are those that the router makes. -/
def Wired (traffic : UdpTraffic) : Prop :=
  ∀ session ∈ traffic.sessions, session.packet = ObservedPacket.new tags session.routed

variable {tags} {evenDropped : Bool} {before : AllStats} {traffic next : UdpTraffic}
  {event : Event}

theorem Wired.set (wired : Wired tags traffic) {index : Nat} {session new : ObservedSession}
    {stats : AllStats} (found : traffic.sessions[index]? = some session)
    (packet : new.packet = session.packet) (routed : new.routed = session.routed) :
    Wired tags ⟨stats, traffic.sessions.set index new⟩ := by
  intro other member
  rcases List.mem_or_eq_of_mem_set member with earlier | rfl
  · exact wired other earlier
  · rw [packet, routed]
    exact wired session (List.mem_of_getElem? found)

theorem Wired.step (wired : Wired tags traffic) (stepped : step tags traffic event = some next) :
    Wired tags next := by
  cases event with
  | «open» routed inner =>
      obtain rfl := Option.some.inj stepped
      intro session member
      rcases List.mem_append.mp member with earlier | opened
      · exact wired session earlier
      · obtain rfl := List.mem_singleton.mp opened
        rfl
  | send index env buf source target =>
      obtain ⟨session, found, stepped⟩ := Option.bind_eq_some_iff.mp stepped
      obtain ⟨-, stepped⟩ := Option.ite_none_right_eq_some.mp stepped
      split at stepped
      · obtain rfl := Option.some.inj stepped
        exact wired
      · obtain rfl := Option.some.inj stepped
        apply wired.set found <;> (unfold ObservedSession.addSend; split <;> rfl)
  | recv index result =>
      obtain ⟨session, found, stepped⟩ := Option.bind_eq_some_iff.mp stepped
      obtain ⟨-, stepped⟩ := Option.ite_none_right_eq_some.mp stepped
      split at stepped
      · obtain rfl := Option.some.inj stepped
        exact wired
      · obtain rfl := Option.some.inj stepped
        exact wired.set found rfl rfl
  | drop index =>
      obtain ⟨session, found, stepped⟩ := Option.bind_eq_some_iff.mp stepped
      obtain ⟨-, stepped⟩ := Option.ite_none_right_eq_some.mp stepped
      obtain rfl := Option.some.inj stepped
      exact wired.set found rfl rfl

/-- A session counts `n` bytes and has `m` bytes of payload more: the counters
keep up exactly if the two are the same. -/
theorem CountsPayload.count_iff (counted : CountsPayload tags evenDropped before traffic)
    (wired : Wired tags traffic) {index : Nat} {session : ObservedSession}
    (found : traffic.sessions[index]? = some session) (new : ObservedSession)
    (routed : new.routed = session.routed)
    (packet : new.packet = session.packet) (tracker : new.tracker = session.tracker)
    {way : TrafficWay} {n m : Nat}
    (payload : ∀ other, new.payload evenDropped other =
      session.payload evenDropped other + if other = way then m else 0) :
    CountsPayload tags evenDropped before (traffic.count index new way n) ↔
      UInt64.ofNat n = .ofNat m := by
  have member := List.mem_of_getElem? found
  have refs : new.packet = .new tags session.routed := packet.trans (wired session member)
  have grown : ∀ ref other, new.adds evenDropped other ref = session.adds evenDropped other ref +
      if (session.routed.Counts true ref ∨ session.routed.Counts false ref) ∧ other = way then m
      else 0 := by
    intro ref other
    simp only [ObservedSession.adds, routed, payload other, ite_and]
    split <;> rfl
  have stats : ∀ ref, tags.Known ref → ∀ other,
      (((traffic.count index new way n).stats ref).bytes other = (before ref).bytes other +
        .ofNat (total (·.adds evenDropped other ref) (traffic.count index new way n).sessions) ↔
      UInt64.ofNat (if (session.routed.Counts true ref ∨ session.routed.Counts false ref) ∧
          other = way then n else 0) =
        .ofNat (if (session.routed.Counts true ref ∨ session.routed.Counts false ref) ∧
          other = way then m else 0)) := by
    intro ref known other
    unfold count
    rw [ObservedPacket.count_eq, refs,
      AllStats.bytes_modifyAll_inc ObservedPacket.nodup_countedRefs,
      total_set_add found (grown ref other), counted.stats ref known other, UInt64.ofNat_add,
      ← UInt64.add_assoc, UInt64.add_right_inj]
    simp only [ObservedPacket.mem_countedRefs known]
  constructor
  · intro holds
    have here := (stats .global trivial way).mp (holds.stats .global trivial way)
    rwa [if_pos ⟨.inl trivial, rfl⟩, if_pos ⟨.inl trivial, rfl⟩] at here
  · intro same
    refine ⟨fun ref known other => (stats ref known other).mpr ?_, fun other member => ?_⟩
    · split
      · exact same
      · rfl
    · rcases List.mem_or_eq_of_mem_set member with earlier | rfl
      · exact counted.tracker other earlier
      · intro other
        change (new.tracker.inc way n).bytes other = .ofNat (new.payload evenDropped other)
        rw [TrackedBytes.bytes_inc, tracker, payload other,
          counted.tracker session (List.mem_of_getElem? found), UInt64.ofNat_add]
        split
        · rw [same]
        · rfl

theorem CountsPayload.opened (counted : CountsPayload tags evenDropped before traffic)
    (packet : ObservedPacket) {routed : RoutedStream} {inner : OutPacket} :
    CountsPayload tags evenDropped before ⟨packet.opened traffic.stats,
      traffic.sessions ++ [⟨routed, packet, inner, ⟨0, 0⟩, true, 0, 0, 0⟩]⟩ := by
  have nothing : ∀ way, ObservedSession.payload ⟨routed, packet, inner, ⟨0, 0⟩, true, 0, 0, 0⟩
      evenDropped way = 0 := by
    intro way
    cases way with
    | upload => exact (Nat.zero_add _).trans (ite_self _)
    | download => rfl
  refine ⟨fun ref known way => ?_, fun session member way => ?_⟩
  · rw [ObservedPacket.bytes_opened, total_concat, counted.stats ref known way]
    simp only [ObservedSession.adds, nothing, ite_self, Nat.add_zero]
  · rcases List.mem_append.mp member with earlier | opened
    · exact counted.tracker session earlier way
    · obtain rfl := List.mem_singleton.mp opened
      rw [nothing]
      cases way <;> rfl

theorem CountsPayload.closed (counted : CountsPayload tags evenDropped before traffic)
    {index : Nat} {session : ObservedSession} (found : traffic.sessions[index]? = some session) :
    CountsPayload tags evenDropped before ⟨session.packet.closed traffic.stats,
      traffic.sessions.set index { session with live := false }⟩ := by
  refine ⟨fun ref known way => ?_, fun other member => ?_⟩
  · rw [ObservedPacket.bytes_closed, counted.stats ref known way, total_set_same found]
    rfl
  · rcases List.mem_or_eq_of_mem_set member with earlier | rfl
    · exact counted.tracker other earlier
    · exact counted.tracker session (List.mem_of_getElem? found)

theorem payload_addSend {session : ObservedSession} {buf : Bytes} {handed : Handed}
    (way : TrafficWay) : (session.addSend buf handed).payload evenDropped way =
      session.payload evenDropped way + if way = .upload then
        if handed.isDropped then if evenDropped then buf.length else 0 else buf.length
      else 0 := by
  unfold ObservedSession.addSend
  cases way with
  | upload => cases handed.isDropped <;> cases evenDropped <;>
      simp [ObservedSession.payload, Nat.add_assoc, Nat.add_comm, Nat.add_left_comm]
  | download => split <;> rfl

theorem ofNat_inj_of_lt {first second : Nat} (firstFits : first < 18446744073709551616)
    (secondFits : second < 18446744073709551616) :
    UInt64.ofNat first = .ofNat second ↔ first = second := by
  rw [← UInt64.toNat_inj, UInt64.toNat_ofNat', UInt64.toNat_ofNat',
    Nat.mod_eq_of_lt firstFits, Nat.mod_eq_of_lt secondFits]

/-- The number that is returned for a packet is that of its payload bytes exactly
when the packet is sent plainly. -/
theorem returned_iff {packet after : OutPacket} {env : SendEnv} {buf : Bytes}
    {source : SourceAddr} {target : TargetAddr} {handed : Handed}
    (fits : buf.length < 18446744073709551616)
    (sent : packet.sendTo env buf source target = .ok (handed, after)) :
    UInt64.ofNat (handed.returned buf) = .ofNat
        (if handed.isDropped then if evenDropped then buf.length else 0 else buf.length) ↔
      packet.socks5Sends env target = false ∧
        (evenDropped = true → packet.tooLarge env buf target = true → buf = []) := by
  obtain ⟨large, returned⟩ := OutPacket.sendTo_returned sent
  rw [large]
  cases dropped : handed.isDropped with
  | true =>
      have none : handed.returned buf = 0 := by
        cases handed <;> first | rfl | cases dropped
      have other := OutPacket.socks5Sends_of_tooLarge (large.trans dropped)
      rw [none, other, if_pos rfl]
      cases evenDropped with
      | false => simp
      | true =>
          rw [if_pos rfl, ofNat_inj_of_lt (by decide) fits]
          simp [eq_comm]
  | false =>
      simp only [returned dropped, Bool.false_eq_true, if_false, UInt64.ofNat_add]
      refine UInt64.add_eq_left.trans ?_
      cases sends : packet.socks5Sends env target with
      | false => simp
      | true =>
          have short := packet.shortName_of_socks5Sends sends
          have long := TargetAddr.encodedLen_le short
          have counted : UInt64.ofNat (3 + target.encodedLen) = .ofNat 0 ↔ _ :=
            ofNat_inj_of_lt (by omega) (by decide)
          refine iff_of_false (fun same => ?_) nofun
          have := counted.mp same
          omega

theorem step_counts (wired : Wired tags traffic)
    (counted : CountsPayload tags evenDropped before traffic)
    (stepped : step tags traffic event = some next) :
    CountsPayload tags evenDropped before next ↔ PlainSend evenDropped traffic event := by
  cases event with
  | «open» routed inner =>
      obtain rfl := Option.some.inj stepped
      exact iff_of_true (counted.opened _) trivial
  | send index env buf source target =>
      obtain ⟨session, found, stepped⟩ := Option.bind_eq_some_iff.mp stepped
      obtain ⟨⟨-, fits⟩, stepped⟩ := Option.ite_none_right_eq_some.mp stepped
      have plain : PlainSend evenDropped traffic (.send index env buf source target) ↔
          session.inner.socks5Sends env target = false ∧
            (evenDropped = true → session.inner.tooLarge env buf target = true → buf = []) := by
        simp [PlainSend, found]
      rw [plain]
      split at stepped
      · next failed =>
          obtain rfl := Option.some.inj stepped
          obtain ⟨other, fit⟩ := OutPacket.sendTo_error failed
          exact iff_of_true counted ⟨other, fun _ large => nomatch fit.symm.trans large⟩
      · next handed inner sent =>
          obtain rfl := Option.some.inj stepped
          rw [← returned_iff fits sent]
          apply counted.count_iff wired found { session.addSend buf handed with inner }
          · unfold ObservedSession.addSend
            split <;> rfl
          · unfold ObservedSession.addSend
            split <;> rfl
          · unfold ObservedSession.addSend
            split <;> rfl
          · exact payload_addSend
  | recv index result =>
      obtain ⟨session, found, stepped⟩ := Option.bind_eq_some_iff.mp stepped
      obtain ⟨-, stepped⟩ := Option.ite_none_right_eq_some.mp stepped
      split at stepped
      · obtain rfl := Option.some.inj stepped
        exact iff_of_true counted trivial
      · obtain rfl := Option.some.inj stepped
        refine iff_of_true
          ((counted.count_iff wired found (session.addReceived _) rfl rfl rfl ?_).mpr rfl) trivial
        intro way
        cases way <;> rfl
  | drop index =>
      obtain ⟨session, found, stepped⟩ := Option.bind_eq_some_iff.mp stepped
      obtain ⟨-, stepped⟩ := Option.ite_none_right_eq_some.mp stepped
      obtain rfl := Option.some.inj stepped
      exact iff_of_true (counted.closed found) trivial

theorem wired_start : Wired tags (start before) := fun _ opened => (List.not_mem_nil opened).elim

theorem countsPayload_start : CountsPayload tags evenDropped before (start before) :=
  ⟨fun _ _ _ => (UInt64.add_zero _).symm, fun _ opened => (List.not_mem_nil opened).elim⟩

/-- The counters count the payload bytes throughout exactly the runs whose packets
are all sent plainly. -/
theorem payload_counted {events : List Event} {final : UdpTraffic}
    (ran : Machine.run (step tags) (start before) events = some final) :
    Machine.Throughout (step tags) (CountsPayload tags evenDropped before) (start before) events ↔
      Machine.Within (step tags) (PlainSend evenDropped) (start before) events :=
  Machine.throughout_iff_within (Wired tags) (CountsPayload tags evenDropped before)
    (fun wired _ stepped => wired.step stepped) step_counts wired_start countsPayload_start ran

def exampleEnv : SendEnv := ⟨fun _ => .error "no address", .ok (), some 1200, 0, 0, 0⟩

def exampleTags : NodeTags := ⟨["in"], ["out"]⟩

def exampleEvents (inner : OutPacket) : List Event :=
  [.open ⟨"in", .leaf "out", none⟩ inner,
    .send 0 exampleEnv [7] (.ip (.v4 ⟨10, 0, 0, 1⟩ 5353)) (.ip (.v4 ⟨1, 1, 1, 1⟩ 53))]

theorem payload_counted_trojan :
    Machine.Throughout (step exampleTags) (CountsPayload exampleTags true fun _ => .empty)
      (start fun _ => .empty) (exampleEvents .trojan) := by
  refine (payload_counted rfl).mpr ⟨trivial, fun next opened => ?_⟩
  obtain rfl := Option.some.inj opened
  refine ⟨fun session found => ?_, fun _ _ => trivial⟩
  obtain rfl := Option.some.inj found
  exact ⟨rfl, fun _ large => nomatch large⟩

theorem socks5_counts_header : ∃ final,
    Machine.run (step exampleTags) (start fun _ => .empty) (exampleEvents (.socks5 false)) =
        some final ∧
      (final.stats .global).uploadBytes = 11 ∧
      ∀ evenDropped, ¬ CountsPayload exampleTags evenDropped (fun _ => .empty) final := by
  refine ⟨_, rfl, by decide, fun evenDropped counted => ?_⟩
  have upload := counted.stats .global trivial .upload
  cases evenDropped with
  | false | true => exact absurd upload (by decide)

end UdpTraffic

end QuicProxy
