import QuicProxy.Data.Future
import QuicProxy.Proxy.TargetAddr

namespace QuicProxy

/-! The task of a VMess connection (`src/proxy/inbound/vmess.rs`):
`handle_client` under the timeout of `VmessInbound::listen`. -/

namespace Vmess

/-- What `accept` gives once the response header is sent. -/
structure Accepted where
  dst : TargetAddr
  isUdp : Bool

/-- The futures that `handle_client` awaits: `accept`, and `dispatch_packet` or
`dispatch_stream`, which is started with the target. -/
structure Client (Accepting Packets Streams Input : Type) where
  accept : Accepting → Input → Poll (Except String Accepted) × Accepting
  packets : TargetAddr → Packets
  dispatchPacket : Packets → Input → Poll (Except String Unit) × Packets
  streams : TargetAddr → Streams
  dispatchStream : Streams → Input → Poll (Except String Unit) × Streams

namespace Client

variable {Accepting Packets Streams Input : Type}
variable (client : Client Accepting Packets Streams Input)

def startRelay (accepted : Accepted) : Packets ⊕ Streams :=
  if accepted.isUdp then .inl (client.packets accepted.dst)
  else .inr (client.streams accepted.dst)

def relay : Packets ⊕ Streams → Input → Poll (Except String Unit) × (Packets ⊕ Streams)
  | .inl session, input =>
      let (result, session) := client.dispatchPacket session input
      (result, .inl session)
  | .inr session, input =>
      let (result, session) := client.dispatchStream session input
      (result, .inr session)

def handleClient : Accepting ⊕ (Packets ⊕ Streams) → Input →
    Poll (Except String Unit) × (Accepting ⊕ (Packets ⊕ Streams)) :=
  Future.andThen client.accept client.startRelay client.relay

/-- `Duration::from_secs(10)`, in milliseconds. -/
def timeoutMillis : Nat := 10000

abbrev Task (Accepting Packets Streams : Type) :=
  Future.Timed (Accepting ⊕ (Packets ⊕ Streams)) (Except String Unit)

/-- A poll of the task of a connection that came in at `accepted`. -/
def poll (accepted : Nat) :
    Task Accepting Packets Streams → Nat × Input → Option (Task Accepting Packets Streams) :=
  Future.Timed.step (accepted + timeoutMillis) client.handleClient

/-- The handshake is over. -/
def Relaying : Accepting ⊕ (Packets ⊕ Streams) → Prop
  | .inl _ => False
  | .inr _ => True

/-- "VMess handshake timeout" has not ended a relay. -/
def SparesRelay (task : Task Accepting Packets Streams) : Prop :=
  ∀ session, task = .ended session none → ¬Relaying session

/-- When the task is polled ten seconds after the connection came in, or later, a
session whose handshake is over has ended. -/
def EndsInTime (accepted : Nat) : Task Accepting Packets Streams → Nat × Input → Prop
  | .running session, (now, input) =>
      accepted + timeoutMillis ≤ now → Relaying (client.handleClient session input).2 →
        (client.handleClient session input).1 ≠ .pending
  | .ended _ _, _ => True

theorem endsInTime_iff (accepted : Nat) (task : Task Accepting Packets Streams)
    (event : Nat × Input) :
    client.EndsInTime accepted task event ↔
      task.InTime (accepted + timeoutMillis) client.handleClient Relaying event := by
  cases task with
  | running session => exact imp_congr_right fun _ => imp_not_comm
  | ended session result => exact Iff.rfl

/-- In every run, on either branch: the timer spares the relay exactly when the
session ends in time. -/
theorem sparesRelay_iff_endsInTime (accepted : Nat) (accepting : Accepting)
    (polls : List (Nat × Input)) {final : Task Accepting Packets Streams}
    (ran : Machine.run (client.poll accepted) (.running (.inl accepting)) polls = some final) :
    SparesRelay final ↔
      Machine.Within (client.poll accepted) (client.EndsInTime accepted)
        (.running (.inl accepting)) polls := by
  have spared := Future.Timed.spared_iff_inTime Relaying ran
  refine spared.trans (Machine.within_congr (fun _ => True) (fun _ => ?_) (fun _ _ _ => trivial)
    trivial)
  exact (client.endsInTime_iff accepted _ _).symm

end Client

/-- A client whose handshake takes one poll, and whose relays go on until they
are told to end. -/
def client : Client Bool Unit Unit Bool where
  accept udp _ := (.ready (.ok ⟨.domain "example.com" 443, udp⟩), udp)
  packets _ := ()
  dispatchPacket _ done := (if done then .ready (.ok ()) else .pending, ())
  streams _ := ()
  dispatchStream _ done := (if done then .ready (.ok ()) else .pending, ())

theorem sparesRelay_short :
    Machine.run (client.poll 0) (.running (.inl false)) [(40, false), (9000, true)] =
      some (.ended (.inr (.inr ())) (some (.ok ()))) ∧
    Client.SparesRelay (.ended (.inr (.inr ())) (some (.ok ())) : Client.Task Bool Unit Unit) := by
  refine ⟨rfl, (client.sparesRelay_iff_endsInTime 0 false [(40, false), (9000, true)] rfl).mpr ?_⟩
  refine ⟨nofun, fun next taken => ?_⟩
  cases taken
  exact ⟨fun late => absurd late (by decide), fun _ _ => trivial⟩

/-- Both branches: a relay that lasts for ten seconds is cut. -/
theorem relay_is_cut :
    Machine.run (client.poll 0) (.running (.inl false)) [(40, false), (10000, false)] =
      some (.ended (.inr (.inr ())) none) ∧
    Machine.run (client.poll 0) (.running (.inl true)) [(40, false), (10000, false)] =
      some (.ended (.inr (.inl ())) none) ∧
    ¬Client.SparesRelay (.ended (.inr (.inr ())) none : Client.Task Bool Unit Unit) ∧
    ¬Client.SparesRelay (.ended (.inr (.inl ())) none : Client.Task Bool Unit Unit) :=
  ⟨rfl, rfl, fun spares => spares _ rfl trivial, fun spares => spares _ rfl trivial⟩

end Vmess

end QuicProxy
