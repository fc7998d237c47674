import QuicProxy.Data.Machine
import QuicProxy.Proxy.TargetAddr
import QuicProxy.Utils.ReadAhead

namespace QuicProxy

/-! The datagram sink of the Shadowsocks outbound
(`src/proxy/outbound/shadowsocks/datagram.rs`). -/

/-- The fields of `UdpSocketControlData` that identify a packet. -/
structure UdpSocketControlData where
  clientSessionId : UInt64
  packetId : UInt64
deriving DecidableEq

structure OutboundDatagramShadowsocks where
  flushed : Bool
  pkt : Option (TargetAddr × Bytes)
  ssControl : UdpSocketControlData

structure SocketCall where
  host : String
  port : UInt16
  control : UdpSocketControlData
  payload : Bytes

namespace OutboundDatagramShadowsocks

/-- `new`; `sessionId` is the random number it draws. -/
def new (sessionId : UInt64) : OutboundDatagramShadowsocks :=
  ⟨true, none, ⟨sessionId, 0⟩⟩

def startSend (sink : OutboundDatagramShadowsocks) (item : TargetAddr × Bytes) :
    OutboundDatagramShadowsocks :=
  { sink with pkt := some item, flushed := false }

/-- `poll_flush`: its result, the sink after it, and the call it makes to the
socket, which answers with `sent`. -/
def pollFlush (sink : OutboundDatagramShadowsocks) (sent : Poll (Except String Nat)) :
    Poll (Except String Unit) × OutboundDatagramShadowsocks × Option SocketCall :=
  if sink.flushed then (.ready (.ok ()), sink, none)
  else
    match sink.pkt with
    | none => (.ready (.error "no packet to send"), sink, none)
    | some (target, payload) =>
        let call := some ⟨target.host, target.port, sink.ssControl, payload⟩
        match sent with
        | .pending => (.pending, sink, call)
        | .ready (.error error) => (.ready (.error error), sink, call)
        | .ready (.ok count) =>
            let result := if count = payload.length then .ok ()
              else .error s!"failed to write entire datagram, written: {count}"
            (.ready result, { sink with pkt := none, flushed := true }, call)

def pollReady (sink : OutboundDatagramShadowsocks) (sent : Poll (Except String Nat)) :
    Poll (Except String Unit) × OutboundDatagramShadowsocks × Option SocketCall :=
  if sink.flushed then (.ready (.ok ()), sink, none) else sink.pollFlush sent

def pollClose (sink : OutboundDatagramShadowsocks) (sent : Poll (Except String Nat)) :
    Poll (Except String Unit) × OutboundDatagramShadowsocks × Option SocketCall :=
  sink.pollFlush sent

end OutboundDatagramShadowsocks

/-! Runs of the sink. -/

inductive SinkEvent where
  | pollReady (sent : Poll (Except String Nat))
  | startSend (item : TargetAddr × Bytes)
  | pollFlush (sent : Poll (Except String Nat))
  | pollClose (sent : Poll (Except String Nat))

/-- The sink, how many packets were started, and all calls to the socket with
the number of the packet they are for. -/
structure SinkRun where
  sink : OutboundDatagramShadowsocks
  started : Nat
  calls : List (Nat × SocketCall)

namespace SinkRun

def start (sessionId : UInt64) : SinkRun := ⟨.new sessionId, 0, []⟩

def polled (run : SinkRun)
    (outcome : Poll (Except String Unit) × OutboundDatagramShadowsocks × Option SocketCall) :
    SinkRun where
  sink := outcome.2.1
  started := run.started
  calls := (outcome.2.2.map (run.started, ·)).toList ++ run.calls

def step (run : SinkRun) : SinkEvent → Option SinkRun
  | .pollReady sent => some (run.polled (run.sink.pollReady sent))
  | .startSend item =>
      some { run with sink := run.sink.startSend item, started := run.started + 1 }
  | .pollFlush sent => some (run.polled (run.sink.pollFlush sent))
  | .pollClose sent => some (run.polled (run.sink.pollClose sent))

/-- Packet ids grow from packet to packet, so that no two packets have the same
identity. -/
def Identified (run : SinkRun) : Prop :=
  ∀ first ∈ run.calls, ∀ second ∈ run.calls, first.1 < second.1 →
    first.2.control ≠ second.2.control ∧
      first.2.control.packetId < second.2.control.packetId

/-- A poll hands a packet to the socket only if all calls so far were for that
packet. -/
def FirstPacket (run : SinkRun) : SinkEvent → Prop
  | .startSend _ => True
  | _ => run.sink.flushed = false → run.sink.pkt.isSome →
      ∀ call ∈ run.calls, call.1 = run.started

def OnePacket (run : SinkRun) : Prop :=
  ∀ first ∈ run.calls, ∀ second ∈ run.calls, first.1 = second.1

theorem pollFlush_cases (sink : OutboundDatagramShadowsocks)
    (sent : Poll (Except String Nat)) :
    (sink.pollFlush sent).2.1.ssControl = sink.ssControl ∧
      (((sink.pollFlush sent).2.2 = none ∧ ¬(sink.flushed = false ∧ sink.pkt.isSome)) ∨
        ∃ call, (sink.pollFlush sent).2.2 = some call ∧ call.control = sink.ssControl ∧
          sink.flushed = false ∧ sink.pkt.isSome) := by
  unfold OutboundDatagramShadowsocks.pollFlush
  cases flushed : sink.flushed with
  | true => exact ⟨rfl, .inl ⟨rfl, by simp⟩⟩
  | false =>
      cases held : sink.pkt with
      | none => exact ⟨rfl, .inl ⟨rfl, by simp⟩⟩
      | some item =>
          match sent with
          | .pending | .ready (.error _) | .ready (.ok _) =>
              exact ⟨rfl, .inr ⟨_, rfl, rfl, rfl, rfl⟩⟩

theorem step_cases {run next : SinkRun} {event : SinkEvent}
    (taken : run.step event = some next) :
    next.sink.ssControl = run.sink.ssControl ∧
      (next.calls = run.calls ∧ run.FirstPacket event ∨
        ∃ call, next.calls = (run.started, call) :: run.calls ∧
          call.control = run.sink.ssControl ∧
            (run.FirstPacket event ↔ ∀ call ∈ run.calls, call.1 = run.started)) := by
  -- `poll_ready` and `poll_close` call the socket through `poll_flush`.
  have flush (sent : Poll (Except String Nat))
      (taken : run.polled (run.sink.pollFlush sent) = next) :
      next.sink.ssControl = run.sink.ssControl ∧
        (next.calls = run.calls ∧ run.FirstPacket (.pollFlush sent) ∨
          ∃ call, next.calls = (run.started, call) :: run.calls ∧
            call.control = run.sink.ssControl ∧
              (run.FirstPacket (.pollFlush sent) ↔
                ∀ call ∈ run.calls, call.1 = run.started)) := by
    obtain ⟨control, ⟨noCall, idle⟩ | ⟨call, called, same, open', held⟩⟩ :=
      pollFlush_cases run.sink sent
    · subst taken
      simp only [polled, noCall]
      exact ⟨control, .inl ⟨rfl, fun flushed held => absurd ⟨flushed, held⟩ idle⟩⟩
    · subst taken
      simp only [polled, called]
      exact ⟨control, .inr ⟨call, rfl, same, fun first => first open' held,
        fun first _ _ => first⟩⟩
  cases event with
  | startSend item =>
      cases taken
      exact ⟨rfl, .inl ⟨rfl, trivial⟩⟩
  | pollFlush sent => exact flush sent (Option.some.inj taken)
  | pollClose sent => exact flush sent (Option.some.inj taken)
  | pollReady sent =>
      have polled := Option.some.inj taken
      unfold OutboundDatagramShadowsocks.pollReady at polled
      split at polled
      · next flushed =>
          cases polled
          refine ⟨rfl, .inl ⟨rfl, fun open' => ?_⟩⟩
          rw [flushed] at open'
          cases open'
      · exact flush sent polled

theorem control_of_run {sessionId : UInt64} {events : List SinkEvent} {final : SinkRun}
    (ran : Machine.run step (start sessionId) events = some final) :
    ∀ call ∈ final.calls, call.2.control = ⟨sessionId, 0⟩ := by
  have kept : final.sink.ssControl = ⟨sessionId, 0⟩ ∧
      ∀ call ∈ final.calls, call.2.control = ⟨sessionId, 0⟩ := by
    refine Machine.run_invariant (fun run => run.sink.ssControl = ⟨sessionId, 0⟩ ∧
      ∀ call ∈ run.calls, call.2.control = ⟨sessionId, 0⟩) ?_ ⟨rfl, by simp [start]⟩ ran
    rintro run event next ⟨control, calls⟩ taken
    obtain ⟨same, ⟨sameCalls, _⟩ | ⟨call, added, carried, _⟩⟩ := step_cases taken
    · exact ⟨same.trans control, sameCalls ▸ calls⟩
    · refine ⟨same.trans control, ?_⟩
      rw [added]
      exact List.forall_mem_cons.mpr ⟨carried.trans control, calls⟩
  exact kept.2

theorem calls_subset_of_run {run final : SinkRun} {events : List SinkEvent}
    (ran : Machine.run step run events = some final) : run.calls ⊆ final.calls := by
  refine Machine.run_invariant (fun later => run.calls ⊆ later.calls) ?_
    (List.Subset.refl _) ran
  intro later event next subset taken
  obtain ⟨_, ⟨sameCalls, _⟩ | ⟨call, added, _⟩⟩ := step_cases taken
  · exact sameCalls ▸ subset
  · exact added ▸ List.Subset.trans subset (List.subset_cons_self ..)

theorem onePacket_cons {run next : SinkRun} {call : SocketCall}
    (added : next.calls = (run.started, call) :: run.calls)
    (all : ∀ call ∈ run.calls, call.1 = run.started) : next.OnePacket := by
  have allNext : ∀ call ∈ next.calls, call.1 = run.started := by
    rw [added]
    exact List.forall_mem_cons.mpr ⟨rfl, all⟩
  intro first firstMember second secondMember
  rw [allNext first firstMember, allNext second secondMember]

theorem onePacket_iff_within {run final : SinkRun} {events : List SinkEvent}
    (one : run.OnePacket) (ran : Machine.run step run events = some final) :
    final.OnePacket ↔ Machine.Within step FirstPacket run events := by
  induction events generalizing run with
  | nil =>
      cases ran
      exact ⟨fun _ => trivial, fun _ => one⟩
  | cons event events ih =>
      obtain ⟨next, taken, ran⟩ := Machine.run_cons ran
      rw [Machine.within_cons_iff taken]
      obtain ⟨_, ⟨sameCalls, first⟩ | ⟨call, added, _, first⟩⟩ := step_cases taken
      · have nextOne : next.OnePacket := by
          unfold OnePacket
          rw [sameCalls]
          exact one
        rw [ih nextOne ran]
        exact ⟨fun rest => ⟨first, rest⟩, And.right⟩
      · rw [first]
        constructor
        · intro finalOne
          -- Calls are never taken back, so those of this step are among the last ones.
          have all : ∀ call ∈ run.calls, call.1 = run.started := by
            have subset := calls_subset_of_run ran
            rw [added] at subset
            intro other member
            exact finalOne other (subset (List.mem_cons_of_mem _ member))
              (run.started, call) (subset (List.mem_cons_self ..))
          exact ⟨all, (ih (onePacket_cons added all) ran).mp finalOne⟩
        · rintro ⟨all, later⟩
          exact (ih (onePacket_cons added all) ran).mpr later

theorem identified_iff_onePacket {run : SinkRun} {control : UdpSocketControlData}
    (fixed : ∀ call ∈ run.calls, call.2.control = control) :
    run.Identified ↔ run.OnePacket := by
  constructor
  · intro identified first firstMember second secondMember
    have same : first.2.control = second.2.control :=
      (fixed first firstMember).trans (fixed second secondMember).symm
    rcases Nat.lt_trichotomy first.1 second.1 with less | equal | greater
    · exact absurd same (identified first firstMember second secondMember less).1
    · exact equal
    · exact absurd same.symm (identified second secondMember first firstMember greater).1
  · intro one first firstMember second secondMember less
    have := one first firstMember second secondMember
    omega

theorem nodup_control_iff {run : SinkRun} {control : UdpSocketControlData}
    (fixed : ∀ call ∈ run.calls, call.2.control = control) :
    (run.calls.map (·.2.control)).Nodup ↔ run.calls.length ≤ 1 := by
  have replicated : run.calls.map (·.2.control) =
      List.replicate run.calls.length control := by
    rw [List.eq_replicate_iff, List.length_map]
    refine ⟨rfl, fun value member => ?_⟩
    obtain ⟨call, found, rfl⟩ := List.mem_map.mp member
    exact fixed call found
  rw [replicated, List.nodup_replicate]

/-- In every run of a sink, packets keep their own identity exactly as long as
only one packet reaches the socket; the identities of the single calls are
distinct exactly when there is at most one call. -/
theorem identified_iff (sessionId : UInt64) (events : List SinkEvent) (final : SinkRun)
    (ran : Machine.run step (start sessionId) events = some final) :
    (final.Identified ↔ Machine.Within step FirstPacket (start sessionId) events) ∧
      ((final.calls.map (·.2.control)).Nodup ↔ final.calls.length ≤ 1) := by
  have fixed := control_of_run ran
  have one : (start sessionId).OnePacket := by
    intro first member
    cases member
  exact ⟨(identified_iff_onePacket fixed).trans (onePacket_iff_within one ran),
    nodup_control_iff fixed⟩

def onePacketEvents : List SinkEvent :=
  [.pollReady .pending, .startSend (.dummy, [1]), .pollFlush .pending,
    .pollFlush (.ready (.ok 1))]

theorem identified_onePacket :
    ∃ final, Machine.run step (start 7) onePacketEvents = some final ∧
      final.calls.length = 2 ∧ final.Identified := by
  refine ⟨_, rfl, rfl, (identified_iff 7 onePacketEvents _ rfl).1.mpr ?_⟩
  have one : (start 7).OnePacket := by simp [OnePacket, start]
  refine (onePacket_iff_within one rfl).mp ?_
  unfold OnePacket
  decide

def twoPacketEvents : List SinkEvent :=
  [.pollReady .pending, .startSend (.ip (.v4 ⟨1, 1, 1, 1⟩ 53), [1]),
    .pollFlush (.ready (.ok 1)), .pollReady .pending,
    .startSend (.ip (.v4 ⟨8, 8, 8, 8⟩ 53), [2]), .pollFlush (.ready (.ok 1))]

theorem twoPackets_not_identified :
    ∃ final, Machine.run step (start 7) twoPacketEvents = some final ∧
      final.calls.map (·.2.control) = [⟨7, 0⟩, ⟨7, 0⟩] ∧ ¬final.Identified := by
  refine ⟨_, rfl, rfl, ?_⟩
  intro identified
  exact (identified _ (List.mem_cons_of_mem _ (List.mem_cons_self ..)) _
    (List.mem_cons_self ..) (by decide)).1 rfl

end SinkRun

end QuicProxy
