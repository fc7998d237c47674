import QuicProxy.Data.Locking
import QuicProxy.Data.Machine
import QuicProxy.Proxy.Outbound

namespace QuicProxy

open Locking

/-! The async mutexes of the packet objects, and the two forwarding futures of
`dispatch_packet` (`src/proxy/router.rs`) that run over them. -/

/-- The mutexes of a packet object, under the names of its fields; `senderCell`
is the permit of a `OnceCell`, `uniSend` the mutex in a `SenderMapItem`. -/
inductive PacketLock where
  | udpRx
  | clientUdpAddr
  | rx
  | tx
  | stream
  | sink
  | inner
  | lastBuf
  | dataRx
  | readBuf
  | recv
  | recveiver
  | senderCell
  | controlStream
  | uniSend
deriving DecidableEq

structure CallPath where
  /-- How many more messages it takes to complete a packet. -/
  rounds : Nat
  /-- The channel of the DNS answers is closed. -/
  closed : Bool
  /-- For each attempt of a ShadowQUIC send, whether its sender is new. -/
  fresh : List Bool

/-- The locks around `recv_many` (or the `recv_from` it calls) and `send_to`. -/
structure PacketLocks where
  recv : CallPath → List (Op PacketLock)
  send : CallPath → List (Op PacketLock)

namespace PacketLocks

def udpHandler : PacketLocks where
  recv _ := [.acquire .udpRx, .await]
  send _ := [.acquire .clientUdpAddr, .release .clientUdpAddr, .work]

def trojan : PacketLocks where
  recv path := .acquire .rx :: List.replicate path.rounds .await
  send _ := [.acquire .tx, .work]

def vmessInbound : PacketLocks where
  recv _ := [.acquire .stream, .await]
  send _ := [.acquire .stream, .work]

def vmess : PacketLocks where
  recv _ := [.acquire .stream, .await]
  send _ := [.acquire .sink, .work]

def anytlsRound : List (Op PacketLock) :=
  [.acquire .readBuf, .release .readBuf, .acquire .dataRx, .await, .acquire .readBuf,
    .release .readBuf, .release .dataRx]

/-- `AnytlsInboundUdp`, and `AnytlsUdpSocket`, which calls the two mutexes
`event_rx` and `read_buffer`. -/
def anytls : PacketLocks where
  recv path :=
    (List.replicate path.rounds anytlsRound).flatten ++
      [.acquire .readBuf, .release .readBuf]
  send _ := [.work]

def createSender (isOverUnistream : Bool) : List (Op PacketLock) :=
  [.acquire .senderCell, .acquire .controlStream, .work, .release .controlStream] ++
    (if isOverUnistream then [.work, .acquire .uniSend, .work, .release .uniSend] else []) ++
      [.release .senderCell]

def shadowQuic (isOverUnistream : Bool) : PacketLocks where
  recv _ := [.acquire .recveiver, .await]
  send path :=
    if isOverUnistream then
      (path.fresh.take 2).flatMap fun new =>
        (if new then createSender true else []) ++
          [.acquire .uniSend, .work, .release .uniSend]
    else (if path.fresh.headD false then createSender false else []) ++ [.work]

def direct : PacketLocks where
  recv _ := [.await]
  send _ := [.work]

def dns : PacketLocks where
  recv path := [.acquire .rx, .await] ++ if path.closed then [.acquire .lastBuf] else []
  send _ := [.acquire .lastBuf, .release .lastBuf]

def socks5 : PacketLocks where
  recv path := List.replicate (path.rounds + 1) .await
  send _ := [.work]

def shadowsocks : PacketLocks where
  recv _ := [.acquire .inner, .await]
  send _ := [.acquire .inner, .work]

def hysteria2 : PacketLocks where
  recv _ := [.acquire .recv, .await]
  send _ := [.work]

end PacketLocks

inductive InboundPacketKind where
  | socks5
  | trojan
  | vmess
  | anytls
  | shadowQuic
deriving DecidableEq

def InboundPacketKind.locks (isOverUnistream : Bool) : InboundPacketKind → PacketLocks
  | socks5 => .udpHandler
  | trojan => .trojan
  | vmess => .vmessInbound
  | anytls => .anytls
  | shadowQuic => .shadowQuic isOverUnistream

/-- Whether an inbound passes a first payload along: a SOCKS5 session starts
with one, an AnyTLS session may. -/
def InboundPacketKind.OpensWith : InboundPacketKind → Option CallPath → Prop
  | socks5, payload => payload ≠ none
  | anytls, _ => True
  | trojan, payload | vmess, payload | shadowQuic, payload => payload = none

def OutboundKind.locks (isOverUnistream : Bool) : OutboundKind → PacketLocks
  | direct => .direct
  | dns => .dns
  | socks5 => .socks5
  | trojan => .trojan
  | vmess => .vmess
  | shadowsocks => .shadowsocks
  | hysteria2 => .hysteria2
  | anytls => .anytls
  | shadowQuic => .shadowQuic isOverUnistream

/-! The forwarding futures. -/

/-- A forwarding future: it receives a batch of packets from one packet object
and sends them to the other; `more` packets of the batch come after the one it
sends. -/
inductive Forwarding where
  | receiving (call : Call PacketLock)
  | sending (call : Call PacketLock) (more : Nat)

inductive ForwardEvent where
  | advance
  | received (count : Nat) (path : CallPath)
  | sent (path : CallPath)

namespace Forwarding

/-- The locks that the other future's call holds on the object this one calls:
that is the case when one of them receives and the other sends. -/
def taken (own other : Forwarding) : List PacketLock :=
  match own, other with
  | receiving _, sending call _ => call.held
  | sending _ _, receiving call => call.held
  | _, _ => []

def step (source target : PacketLocks) (own other : Forwarding) :
    ForwardEvent → Option Forwarding
  | .advance =>
      match own with
      | receiving call => (call.advance (own.taken other)).map receiving
      | sending call more => (call.advance (own.taken other)).map (sending · more)
  | .received count path =>
      match own with
      | receiving ⟨_, []⟩ =>
          match count with
          | 0 => some (receiving (.start (source.recv path)))
          | more + 1 => some (sending (.start (target.send path)) more)
      | _ => none
  | .sent path =>
      match own with
      | sending ⟨_, []⟩ 0 => some (receiving (.start (source.recv path)))
      | sending ⟨_, []⟩ (more + 1) => some (sending (.start (target.send path)) more)
      | _ => none

def Waiting : Forwarding → Prop
  | receiving call => call.Waiting
  | sending _ _ => False

def Sending : Forwarding → Prop
  | receiving _ => False
  | sending call _ => call.rest ≠ []

end Forwarding

inductive Direction where
  | inbound
  | outbound

/-- `dispatch_packet` after the outbound is connected: the first payload is
sent, then both futures run until one of the session's ends drops them. -/
inductive RelaySession where
  | opening (payload : Call PacketLock)
  | running (inboundForward outboundForward : Forwarding)
  | ended

inductive RelayEvent where
  | payload
  | begin (inboundPath outboundPath : CallPath)
  | forward (direction : Direction) (event : ForwardEvent)
  | quit

namespace RelaySession

variable (inPacket outPacket : PacketLocks)

def loop (inboundPath outboundPath : CallPath) : RelaySession :=
  running (.receiving (.start (inPacket.recv inboundPath)))
    (.receiving (.start (outPacket.recv outboundPath)))

def start (payload : Option CallPath) (inboundPath outboundPath : CallPath) :
    RelaySession :=
  match payload with
  | some path => opening (.start (outPacket.send path))
  | none => loop inPacket outPacket inboundPath outboundPath

def step : RelaySession → RelayEvent → Option RelaySession
  | opening call, .payload => (call.advance []).map opening
  | opening ⟨_, []⟩, .begin inboundPath outboundPath =>
      some (loop inPacket outPacket inboundPath outboundPath)
  | running inboundForward outboundForward, .forward .inbound event =>
      (inboundForward.step inPacket outPacket outboundForward event).map
        (running · outboundForward)
  | running inboundForward outboundForward, .forward .outbound event =>
      (outboundForward.step outPacket inPacket inboundForward event).map
        (running inboundForward ·)
  | opening _, .quit => some ended
  | running _ _, .quit => some ended
  | _, _ => none

def futures : RelaySession → Direction → Option (Forwarding × Forwarding)
  | running inboundForward outboundForward, .inbound =>
      some (inboundForward, outboundForward)
  | running inboundForward outboundForward, .outbound =>
      some (outboundForward, inboundForward)
  | _, _ => none

/-- A future that sends can go on while the other one waits to receive. -/
def SendsUnblocked (session : RelaySession) : Prop :=
  ∀ direction own other, session.futures direction = some (own, other) →
    own.Sending → other.Waiting →
      ∃ next, session.step inPacket outPacket (.forward direction .advance) = some next

end RelaySession

/-! Objects whose sends no waiting receive can block. -/

/-- No lock held during a wait of a receive is one a send takes, and no send
takes a lock twice. -/
structure PacketLocks.Separate (object : PacketLocks) : Prop where
  apart : ∀ recvPath sendPath, ∀ lock ∈ awaitLocks [] (object.recv recvPath),
    lock ∉ acquires (object.send sendPath)
  once : ∀ path, NoReentry [] (object.send path)

def Forwarding.Runs (source target : PacketLocks) : Forwarding → Prop
  | receiving call =>
      ∃ path, awaitLocks call.held call.rest ⊆ awaitLocks [] (source.recv path)
  | sending call _ =>
      (∃ path, acquires call.rest ⊆ acquires (target.send path)) ∧
        NoReentry call.held call.rest

namespace Forwarding

variable {source target : PacketLocks}

theorem runs_recv (path : CallPath) :
    (receiving (.start (source.recv path))).Runs source target :=
  ⟨path, List.Subset.refl _⟩

theorem runs_send (separate : target.Separate) (path : CallPath) (more : Nat) :
    (sending (.start (target.send path)) more).Runs source target :=
  ⟨⟨path, List.Subset.refl _⟩, separate.once path⟩

theorem Runs.step {other own next : Forwarding} {event : ForwardEvent}
    (runs : own.Runs source target) (separate : target.Separate)
    (taken : own.step source target other event = some next) :
    next.Runs source target := by
  cases event with
  | advance =>
      cases own with
      | receiving call =>
          obtain ⟨after, advanced, rfl⟩ := Option.map_eq_some_iff.mp taken
          obtain ⟨path, awaited⟩ := runs
          exact ⟨path, List.Subset.trans (Call.advance_cases advanced).1 awaited⟩
      | sending call more =>
          obtain ⟨after, advanced, rfl⟩ := Option.map_eq_some_iff.mp taken
          obtain ⟨⟨path, acquired⟩, once⟩ := runs
          obtain ⟨_, fewer, noReentry⟩ := Call.advance_cases advanced
          exact ⟨⟨path, List.Subset.trans fewer acquired⟩, noReentry once⟩
  | received count path =>
      simp only [Forwarding.step] at taken
      split at taken
      · split at taken
        · cases taken
          exact runs_recv path
        · cases taken
          exact runs_send separate path _
      · cases taken
  | sent path =>
      simp only [Forwarding.step] at taken
      split at taken
      · cases taken
        exact runs_recv path
      · cases taken
        exact runs_send separate path _
      · cases taken

theorem advance_of_runs {other own : Forwarding} (separate : target.Separate)
    (runs : own.Runs source target) (otherRuns : other.Runs target source)
    (sends : own.Sending) (waits : other.Waiting) :
    ∃ next, own.step source target other .advance = some next := by
  cases own with
  | receiving call => exact sends.elim
  | sending call more =>
      cases other with
      | sending call more => exact waits.elim
      | receiving waiting =>
          obtain ⟨⟨sendPath, acquired⟩, once⟩ := runs
          obtain ⟨recvPath, awaited⟩ := otherRuns
          have free : ∀ lock ∈ waiting.held, lock ∉ acquires call.rest :=
            fun lock member found => separate.apart recvPath sendPath lock
              (awaited (Call.Waiting.held_subset waits member)) (acquired found)
          obtain ⟨next, advanced⟩ := Call.advance_of_free sends free once
          exact ⟨sending next more, by simp only [Forwarding.step, taken, advanced]; rfl⟩

end Forwarding

namespace RelaySession

variable {inPacket outPacket : PacketLocks}

def Runs (inPacket outPacket : PacketLocks) : RelaySession → Prop
  | running inboundForward outboundForward =>
      inboundForward.Runs inPacket outPacket ∧ outboundForward.Runs outPacket inPacket
  | _ => True

theorem runs_loop (inboundPath outboundPath : CallPath) :
    (loop inPacket outPacket inboundPath outboundPath).Runs inPacket outPacket :=
  ⟨Forwarding.runs_recv _, Forwarding.runs_recv _⟩

theorem Runs.step {session next : RelaySession} {event : RelayEvent}
    (inSeparate : inPacket.Separate) (outSeparate : outPacket.Separate)
    (runs : session.Runs inPacket outPacket)
    (taken : session.step inPacket outPacket event = some next) :
    next.Runs inPacket outPacket := by
  unfold RelaySession.step at taken
  split at taken
  · obtain ⟨_, _, rfl⟩ := Option.map_eq_some_iff.mp taken
    trivial
  · cases taken
    exact runs_loop ..
  · obtain ⟨after, moved, rfl⟩ := Option.map_eq_some_iff.mp taken
    exact ⟨runs.1.step outSeparate moved, runs.2⟩
  · obtain ⟨after, moved, rfl⟩ := Option.map_eq_some_iff.mp taken
    exact ⟨runs.1, runs.2.step inSeparate moved⟩
  · cases taken
    trivial
  · cases taken
    trivial
  · cases taken

theorem sendsUnblocked_of_runs {session : RelaySession} (inSeparate : inPacket.Separate)
    (outSeparate : outPacket.Separate) (runs : session.Runs inPacket outPacket) :
    session.SendsUnblocked inPacket outPacket := by
  intro direction own other futures sends waits
  cases session with
  | opening payload => cases direction <;> cases futures
  | ended => cases direction <;> cases futures
  | running inboundForward outboundForward =>
      cases direction with
      | inbound =>
          cases futures
          obtain ⟨next, moved⟩ :=
            Forwarding.advance_of_runs outSeparate runs.1 runs.2 sends waits
          exact ⟨_, by simp only [RelaySession.step, moved]; rfl⟩
      | outbound =>
          cases futures
          obtain ⟨next, moved⟩ :=
            Forwarding.advance_of_runs inSeparate runs.2 runs.1 sends waits
          exact ⟨_, by simp only [RelaySession.step, moved]; rfl⟩

theorem sendsUnblocked_of_separate (inSeparate : inPacket.Separate)
    (outSeparate : outPacket.Separate) (payload : Option CallPath)
    (inboundPath outboundPath : CallPath) {events : List RelayEvent} {final : RelaySession}
    (ran : Machine.run (step inPacket outPacket)
      (start inPacket outPacket payload inboundPath outboundPath) events = some final) :
    final.SendsUnblocked inPacket outPacket := by
  refine sendsUnblocked_of_runs inSeparate outSeparate
    (Machine.run_invariant (Runs inPacket outPacket) ?_ ?_ ran)
  · intro session event next runs taken
    exact runs.step inSeparate outSeparate taken
  · cases payload with
    | none => exact runs_loop ..
    | some path => trivial

end RelaySession

namespace PacketLocks

theorem separate_of_no_locks {object : PacketLocks} (send : ∀ path, object.send path = [.work]) :
    object.Separate where
  apart recvPath sendPath lock _ := by
    rw [send]
    exact List.not_mem_nil
  once path := by
    rw [send]
    trivial

theorem acquires_replicate_await (count : Nat) :
    acquires (List.replicate count (.await : Op PacketLock)) = [] := by
  induction count with
  | zero => rfl
  | succ count ih => exact ih

theorem separate_trojan : trojan.Separate where
  apart recvPath sendPath lock member := by
    have := awaitLocks_subset [PacketLock.rx] (List.replicate recvPath.rounds .await) member
    rw [acquires_replicate_await] at this
    cases List.mem_singleton.mp this
    change PacketLock.rx ∉ [PacketLock.tx]
    decide
  once path := ⟨by decide, trivial⟩

theorem separate_udpHandler : udpHandler.Separate where
  apart recvPath sendPath := by
    simp only [udpHandler]
    decide
  once path := ⟨by decide, trivial⟩

theorem separate_vmess : vmess.Separate where
  apart recvPath sendPath := by
    simp only [vmess]
    decide
  once path := ⟨by decide, trivial⟩

theorem separate_dns : dns.Separate where
  apart recvPath sendPath := by
    simp only [dns]
    cases recvPath.closed with
    | false => decide
    | true => decide
  once path := ⟨by decide, trivial⟩

def freshAttempts : List (List Bool) :=
  [[], [false], [true], [false, false], [false, true], [true, false], [true, true]]

theorem shadowQuic_send (isOverUnistream : Bool) (path : CallPath) :
    ∃ fresh ∈ freshAttempts, (shadowQuic isOverUnistream).send path =
      (shadowQuic isOverUnistream).send ⟨0, false, fresh⟩ := by
  obtain ⟨rounds, closed, fresh⟩ := path
  match fresh with
  | [] => exact ⟨[], by decide, rfl⟩
  | [first] => exact ⟨[first], by cases first <;> decide, rfl⟩
  | first :: second :: rest =>
      exact ⟨[first, second], by cases first <;> cases second <;> decide, rfl⟩

theorem separate_shadowQuic (isOverUnistream : Bool) :
    (shadowQuic isOverUnistream).Separate where
  apart recvPath sendPath := by
    have all : ∀ isOverUnistream, ∀ fresh ∈ freshAttempts, PacketLock.recveiver ∉
        acquires ((shadowQuic isOverUnistream).send ⟨0, false, fresh⟩) := by
      decide
    obtain ⟨fresh, member, same⟩ := shadowQuic_send isOverUnistream sendPath
    intro lock held
    cases List.mem_singleton.mp held
    rw [same]
    exact all isOverUnistream fresh member
  once path := by
    have all : ∀ isOverUnistream, ∀ fresh ∈ freshAttempts,
        NoReentry [] ((shadowQuic isOverUnistream).send ⟨0, false, fresh⟩) := by
      decide
    obtain ⟨fresh, member, same⟩ := shadowQuic_send isOverUnistream path
    rw [same]
    exact all isOverUnistream fresh member

end PacketLocks

theorem InboundPacketKind.separate_locks {kind : InboundPacketKind} (other : kind ≠ .vmess)
    (isOverUnistream : Bool) : (kind.locks isOverUnistream).Separate := by
  cases kind with
  | socks5 => exact PacketLocks.separate_udpHandler
  | trojan => exact PacketLocks.separate_trojan
  | vmess => exact absurd rfl other
  | anytls => exact PacketLocks.separate_of_no_locks fun _ => rfl
  | shadowQuic => exact PacketLocks.separate_shadowQuic isOverUnistream

theorem OutboundKind.separate_locks {kind : OutboundKind} (other : kind ≠ .shadowsocks)
    (isOverUnistream : Bool) : (kind.locks isOverUnistream).Separate := by
  cases kind with
  | direct | socks5 | hysteria2 | anytls =>
      exact PacketLocks.separate_of_no_locks fun _ => rfl
  | dns => exact PacketLocks.separate_dns
  | trojan => exact PacketLocks.separate_trojan
  | vmess => exact PacketLocks.separate_vmess
  | shadowsocks => exact absurd rfl other
  | shadowQuic => exact PacketLocks.separate_shadowQuic isOverUnistream

/-! Sessions in which a waiting receive blocks a send. -/

def Forwarding.waitsWith (lock : PacketLock) : Forwarding := receiving ⟨[lock], [.await]⟩

def Forwarding.sendsWith (lock : PacketLock) : Forwarding :=
  sending ⟨[], [.acquire lock, .work]⟩ 0

theorem Forwarding.waitsWith_blocks (source target : PacketLocks) (lock : PacketLock) :
    (sendsWith lock).step source target (waitsWith lock) .advance = none := by
  simp [sendsWith, waitsWith, Forwarding.step, taken, Call.advance]

theorem RelaySession.not_sendsUnblocked_outbound (inPacket outPacket : PacketLocks)
    (lock : PacketLock) :
    ¬(running (.waitsWith lock) (.sendsWith lock)).SendsUnblocked inPacket outPacket := by
  intro unblocked
  obtain ⟨next, moved⟩ :=
    unblocked .outbound _ _ rfl (by simp [Forwarding.sendsWith, Forwarding.Sending]) ⟨_, rfl⟩
  simp [step, Forwarding.waitsWith_blocks] at moved

theorem RelaySession.not_sendsUnblocked_inbound (inPacket outPacket : PacketLocks)
    (lock : PacketLock) :
    ¬(running (.sendsWith lock) (.waitsWith lock)).SendsUnblocked inPacket outPacket := by
  intro unblocked
  obtain ⟨next, moved⟩ :=
    unblocked .inbound _ _ rfl (by simp [Forwarding.sendsWith, Forwarding.Sending]) ⟨_, rfl⟩
  simp [step, Forwarding.waitsWith_blocks] at moved

def CallPath.prompt : CallPath := ⟨0, false, []⟩

/-- The future in direction `waits` takes its lock and waits; the other one
receives a packet, in `count` operations, and starts to send it. -/
def blockingEvents (waits receives : Direction) (count : Nat) : List RelayEvent :=
  .forward waits .advance ::
    (List.replicate count (.forward receives .advance) ++
      [.forward receives (.received 1 .prompt)])

theorem vmessInbound_blocks (kind : OutboundKind) (isOverUnistream : Bool) :
    Machine.run (RelaySession.step .vmessInbound (kind.locks isOverUnistream))
      (.loop .vmessInbound (kind.locks isOverUnistream) .prompt .prompt)
      (blockingEvents .inbound .outbound
        ((kind.locks isOverUnistream).recv .prompt).length) =
        some (.running (.waitsWith .stream) (.sendsWith .stream)) := by
  cases kind <;> rfl

theorem shadowsocks_blocks (kind : InboundPacketKind) (isOverUnistream : Bool) :
    Machine.run (RelaySession.step (kind.locks isOverUnistream) .shadowsocks)
      (.loop (kind.locks isOverUnistream) .shadowsocks .prompt .prompt)
      (blockingEvents .outbound .inbound
        ((kind.locks isOverUnistream).recv .prompt).length) =
        some (.running (.sendsWith .inner) (.waitsWith .inner)) := by
  cases kind <;> rfl

theorem shadowsocks_opens (inPacket : PacketLocks) (events : List RelayEvent) :
    Machine.run (RelaySession.step inPacket .shadowsocks)
        (.start inPacket .shadowsocks (some .prompt) .prompt .prompt)
        ([.payload, .payload, .begin .prompt .prompt] ++ events) =
      Machine.run (RelaySession.step inPacket .shadowsocks)
        (.loop inPacket .shadowsocks .prompt .prompt) events :=
  rfl

theorem exists_shadowsocks_blocks (kind : InboundPacketKind) (isOverUnistream : Bool) :
    ∃ payload events, kind.OpensWith payload ∧
      Machine.run (RelaySession.step (kind.locks isOverUnistream) .shadowsocks)
        (.start (kind.locks isOverUnistream) .shadowsocks payload .prompt .prompt) events =
          some (.running (.sendsWith .inner) (.waitsWith .inner)) := by
  have blocks := shadowsocks_blocks kind isOverUnistream
  cases kind with
  | socks5 =>
      exact ⟨some .prompt, _, nofun, (shadowsocks_opens .udpHandler _).trans blocks⟩
  | anytls => exact ⟨none, _, trivial, blocks⟩
  | trojan | vmess | shadowQuic => exact ⟨none, _, rfl, blocks⟩

/-- In every state that some order of polls reaches, a send can go on while the
other future waits to receive, exactly when the inbound is not VMess and the
outbound is not Shadowsocks. -/
theorem sendsUnblocked_iff (inbound : InboundPacketKind) (outbound : OutboundKind)
    (inboundUnistream outboundUnistream : Bool) :
    (∀ payload inboundPath outboundPath events final, inbound.OpensWith payload →
      Machine.run
          (RelaySession.step (inbound.locks inboundUnistream) (outbound.locks outboundUnistream))
          (.start (inbound.locks inboundUnistream) (outbound.locks outboundUnistream) payload
            inboundPath outboundPath) events = some final →
        final.SendsUnblocked (inbound.locks inboundUnistream)
          (outbound.locks outboundUnistream)) ↔
      inbound ≠ .vmess ∧ outbound ≠ .shadowsocks := by
  constructor
  · intro unblocked
    constructor
    · rintro rfl
      exact RelaySession.not_sendsUnblocked_outbound _ _ .stream
        (unblocked none _ _ _ _ rfl (vmessInbound_blocks outbound outboundUnistream))
    · rintro rfl
      obtain ⟨payload, events, opens, blocks⟩ :=
        exists_shadowsocks_blocks inbound inboundUnistream
      exact RelaySession.not_sendsUnblocked_inbound _ _ .inner
        (unblocked payload _ _ _ _ opens blocks)
  · rintro ⟨notVmess, notShadowsocks⟩ payload inboundPath outboundPath events final _ ran
    exact RelaySession.sendsUnblocked_of_separate
      (inbound.separate_locks notVmess inboundUnistream)
      (outbound.separate_locks notShadowsocks outboundUnistream) payload inboundPath
      outboundPath ran

theorem waitingReceive_blocks_send :
    (∃ events final, Machine.run (RelaySession.step .vmessInbound .direct)
        (.start .vmessInbound .direct none .prompt .prompt) events = some final ∧
      ¬final.SendsUnblocked .vmessInbound .direct) ∧
    ∃ events final, Machine.run (RelaySession.step .udpHandler .shadowsocks)
        (.start .udpHandler .shadowsocks (some .prompt) .prompt .prompt) events = some final ∧
      ¬final.SendsUnblocked .udpHandler .shadowsocks :=
  ⟨⟨_, _, vmessInbound_blocks .direct false,
      RelaySession.not_sendsUnblocked_outbound _ _ .stream⟩,
    _, _, (shadowsocks_opens .udpHandler _).trans (shadowsocks_blocks .socks5 false),
      RelaySession.not_sendsUnblocked_inbound _ _ .inner⟩

end QuicProxy
