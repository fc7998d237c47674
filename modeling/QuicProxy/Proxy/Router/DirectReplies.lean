import QuicProxy.Proxy.Router.Relay

namespace QuicProxy

/-! Whom the replies of a session through the direct outbound are reported from
(`src/proxy/outbound/direct.rs`, with `forward_udp_outbound_once` of
`src/proxy/router.rs` behind it). -/

/-- Both maps of the packet object, last insertion first. -/
structure DirectUdp where
  resolved : List (TargetAddr × SocketAddr)
  reverse : List (SocketAddr × TargetAddr)

namespace DirectUdp

def connectPacket : DirectUdp := ⟨[], []⟩

def reverseOf (udp : DirectUdp) (ip : SocketAddr) : TargetAddr :=
  match udp.reverse.lookup ip with
  | some target => target
  | none => .ip ip

def address (udp : DirectUdp) (env : SendEnv) (target : TargetAddr) :
    Except String (SocketAddr × DirectUdp) :=
  match target with
  | .ip addr => .ok (addr, udp)
  | .domain name port =>
      match udp.resolved.lookup (.domain name port) with
      | some addr => .ok (addr, udp)
      | none =>
          (env.resolve (.domain name port)).map fun addr =>
            (addr, { resolved := (.domain name port, addr) :: udp.resolved
                     reverse := (addr, .domain name port) :: udp.reverse })

/-- A failed write leaves what was inserted for it. -/
def sendTo (udp : DirectUdp) (env : SendEnv) (buf : Bytes) (target : TargetAddr) :
    DirectUdp × Except String Handed :=
  match udp.address env target with
  | .error error => (udp, .error error)
  | .ok (addr, udp) => (udp, env.transport.map fun _ => .udp addr buf)

def recvMany (udp : DirectUdp) (datagrams : List (SocketAddr × Bytes)) : List PacketInfo :=
  datagrams.map fun (addr, data) => (udp.reverseOf addr, .dummy, data)

/-- What a send may do: nothing to the maps, or an entry in both for a domain that had
none. -/
theorem address_cases {udp after : DirectUdp} {env : SendEnv} {target : TargetAddr}
    {addr : SocketAddr} (found : udp.address env target = .ok (addr, after)) :
    (after = udp ∧ (target = .ip addr ∨ udp.resolved.lookup target = some addr)) ∨
      (udp.resolved.lookup target = none ∧
        after = ⟨(target, addr) :: udp.resolved, (addr, target) :: udp.reverse⟩) := by
  cases target with
  | ip literal =>
      cases found
      exact .inl ⟨rfl, .inl rfl⟩
  | domain name port =>
      simp only [address] at found
      split at found
      · next known =>
          cases found
          exact .inl ⟨rfl, .inr known⟩
      · next unknown =>
          obtain ⟨answer, _, same⟩ := ok_of_map found
          cases same
          exact .inr ⟨unknown, rfl⟩

end DirectUdp

/-! Sessions. -/

/-- A datagram as `recv_many` reports it, with what the session had done before. -/
structure DirectReply where
  addr : SocketAddr
  packet : PacketInfo
  uses : List (TargetAddr × SocketAddr)
  resolved : List (TargetAddr × SocketAddr)

/-- `uses` are the addresses that `send_to` has taken for its targets. -/
structure DirectSession where
  udp : DirectUdp
  uses : List (TargetAddr × SocketAddr)
  replies : List DirectReply

namespace DirectSession

inductive Event where
  | sendTo (env : SendEnv) (buf : Bytes) (target : TargetAddr)
  | recvMany (datagrams : List (SocketAddr × Bytes))

def start : DirectSession := ⟨.connectPacket, [], []⟩

def step (session : DirectSession) : Event → DirectSession
  | .sendTo env buf target =>
      { session with
        udp := (session.udp.sendTo env buf target).1
        uses :=
          match session.udp.address env target with
          | .error _ => session.uses
          | .ok (addr, _) => (target, addr) :: session.uses }
  | .recvMany datagrams =>
      { session with
        replies := session.replies ++
          (datagrams.zip (session.udp.recvMany datagrams)).map fun (datagram, packet) =>
            ⟨datagram.1, packet, session.uses, session.udp.resolved⟩ }

def run (events : List Event) : DirectSession := events.foldl step start

/-- The maps are each other's reverse, and an address that was used is its target's
own or was resolved for it. -/
structure Consistent (session : DirectSession) : Prop where
  reverse : session.udp.reverse = session.udp.resolved.map Prod.swap
  resolved_used : ∀ entry ∈ session.udp.resolved, entry ∈ session.uses
  used_resolved : ∀ target addr, (target, addr) ∈ session.uses →
    target = .ip addr ∨ (target, addr) ∈ session.udp.resolved

end DirectSession

/-- The domain that was resolved to the address last. -/
def lastResolved (resolved : List (TargetAddr × SocketAddr)) (addr : SocketAddr) : TargetAddr :=
  match resolved.find? (·.2 = addr) with
  | some (target, _) => target
  | none => .ip addr

/-- A target that has the address for itself is what the reply is reported from; of several
it is the one resolved last. -/
structure DirectReply.Attributed (reply : DirectReply) : Prop where
  own : ∀ target, (target, reply.addr) ∈ reply.uses →
    (∀ other, (other, reply.addr) ∈ reply.uses → other = target) → reply.packet.1 = target
  shared : reply.packet.1 = lastResolved reply.resolved reply.addr

namespace DirectSession

theorem lookup_swap (resolved : List (TargetAddr × SocketAddr)) (addr : SocketAddr) :
    (resolved.map Prod.swap).lookup addr = (resolved.find? (·.2 = addr)).map Prod.fst := by
  induction resolved with
  | nil => rfl
  | cons entry resolved ih =>
      obtain ⟨target, known⟩ := entry
      simp only [List.map_cons, Prod.swap_prod_mk, List.lookup_cons, List.find?_cons]
      by_cases same : known = addr
      · simp [same]
      · have differs : (addr == known) = false := beq_false_of_ne (Ne.symm same)
        simp only [differs, decide_eq_false same, ih]

theorem Consistent.reverseOf {session : DirectSession} (consistent : session.Consistent)
    (addr : SocketAddr) : session.udp.reverseOf addr = lastResolved session.udp.resolved addr := by
  rw [DirectUdp.reverseOf, consistent.reverse, lookup_swap, lastResolved]
  cases session.udp.resolved.find? (·.2 = addr) <;> rfl

theorem Consistent.own {session : DirectSession} (consistent : session.Consistent)
    {target : TargetAddr} {addr : SocketAddr} (used : (target, addr) ∈ session.uses)
    (alone : ∀ other, (other, addr) ∈ session.uses → other = target) :
    lastResolved session.udp.resolved addr = target := by
  rw [lastResolved]
  split
  · next last known found =>
      have same : known = addr := by simpa using List.find?_some found
      subst same
      exact alone last (consistent.resolved_used _ (List.mem_of_find?_eq_some found))
  · next nothing =>
      rcases consistent.used_resolved target addr used with literal | resolved
      · exact literal.symm
      · exact absurd (List.find?_eq_none.mp nothing _ resolved) (by simp)

theorem consistent_start : start.Consistent where
  reverse := rfl
  resolved_used := fun _ member => absurd member List.not_mem_nil
  used_resolved := fun _ _ member => absurd member List.not_mem_nil

theorem Consistent.step {session : DirectSession} (consistent : session.Consistent)
    (event : Event) : (session.step event).Consistent := by
  cases event with
  | recvMany datagrams => exact ⟨consistent.1, consistent.2, consistent.3⟩
  | sendTo env buf target =>
      cases found : session.udp.address env target with
      | error error =>
          simp only [DirectSession.step, DirectUdp.sendTo, found]
          exact ⟨consistent.1, consistent.2, consistent.3⟩
      | ok result =>
          obtain ⟨addr, after⟩ := result
          simp only [DirectSession.step, DirectUdp.sendTo, found]
          rcases DirectUdp.address_cases found with ⟨rfl, known⟩ | ⟨_, rfl⟩
          · refine ⟨consistent.reverse, ?_, ?_⟩
            · exact fun entry member =>
                List.mem_cons_of_mem _ (consistent.resolved_used entry member)
            · intro other used member
              rcases List.mem_cons.mp member with same | earlier
              · cases same
                exact known.imp_right mem_of_lookup
              · exact consistent.used_resolved other used earlier
          · refine ⟨?_, ?_, ?_⟩
            · simp [consistent.reverse]
            · intro entry member
              rcases List.mem_cons.mp member with rfl | earlier
              · exact List.mem_cons_self
              · exact List.mem_cons_of_mem _ (consistent.resolved_used entry earlier)
            · intro other used member
              rcases List.mem_cons.mp member with same | earlier
              · cases same
                exact .inr List.mem_cons_self
              · exact (consistent.used_resolved other used earlier).imp_right
                  (List.mem_cons_of_mem _)

theorem attributed_step {session : DirectSession} (consistent : session.Consistent)
    (attributed : ∀ reply ∈ session.replies, reply.Attributed) (event : Event) :
    ∀ reply ∈ (session.step event).replies, reply.Attributed := by
  cases event with
  | sendTo env buf target => exact attributed
  | recvMany datagrams =>
      intro reply member
      rcases List.mem_append.mp member with earlier | now
      · exact attributed reply earlier
      · rw [DirectUdp.recvMany, ← List.map_prod_left_eq_zip, List.map_map] at now
        obtain ⟨⟨addr, data⟩, _, rfl⟩ := List.mem_map.mp now
        have reported := consistent.reverseOf addr
        exact ⟨fun target used alone => reported.trans (consistent.own used alone), reported⟩

theorem attributed_run (events : List Event) :
    ∀ reply ∈ (run events).replies, reply.Attributed := by
  have all : ∀ session : DirectSession, session.Consistent →
      (∀ reply ∈ session.replies, reply.Attributed) →
        ∀ reply ∈ (events.foldl DirectSession.step session).replies, reply.Attributed := by
    induction events with
    | nil => exact fun _ _ attributed => attributed
    | cons event events ih =>
        intro session consistent attributed
        exact ih (session.step event) (consistent.step event)
          (attributed_step consistent attributed event)
  exact all start consistent_start fun reply member => absurd member List.not_mem_nil

/-- Every datagram is reported from the one target that used its address, or from the domain
resolved to it last, and reaches the client from there; only the final target is renamed. -/
theorem replies_attributed (events : List Event) {Env Sent : Type}
    (sendTo : Env → Bytes → SourceAddr → TargetAddr → Except String Sent)
    (source : SourceAddr) (originalTarget finalTarget : TargetAddr)
    (replies : List (PacketInfo × Env)) :
    (∀ reply ∈ (run events).replies, reply.Attributed) ∧
    ∀ entry ∈ (forwardUdpOutboundOnce sendTo source originalTarget finalTarget replies).1,
      ∃ env, sendTo env entry.packet.2.2
        (if entry.packet.1 = finalTarget then originalTarget else entry.packet.1) source =
          .ok entry.sent := by
  refine ⟨attributed_run events, ?_⟩
  apply forwardUdpOutboundOnce_all
  exact fun accepted => ⟨_, accepted⟩

def sharedAddr : SocketAddr := .v4 ⟨192, 0, 2, 1⟩ 53

def sharedEnv : SendEnv := { SendEnv.plain with resolve := fun _ => .ok sharedAddr }

theorem shared_confused :
    ∃ reply ∈ (run [.sendTo sharedEnv [1] (.domain "a.example" 53),
        .sendTo sharedEnv [2] (.domain "b.example" 53),
        .sendTo sharedEnv [3] (.domain "a.example" 53), .recvMany [(sharedAddr, [4])]]).replies,
      reply.uses.head? = some (.domain "a.example" 53, sharedAddr) ∧
        reply.packet = (.domain "b.example" 53, .dummy, [4]) := by
  refine ⟨_, List.mem_cons_self, ?_, ?_⟩ <;> rfl

end DirectSession

end QuicProxy
