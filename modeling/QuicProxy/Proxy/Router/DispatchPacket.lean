import QuicProxy.Data.Machine

namespace QuicProxy

/-! `Router::dispatch_packet` (`src/proxy/router.rs`): one UDP session, from the
connection of its outbound to its return. -/

/-- The `SessionCloser` of a packet object; `called` says that the session itself
has called `close` on it. -/
structure Closer where
  closed : Bool
  called : Bool
deriving DecidableEq

def Closer.close (_ : Closer) : Closer := ⟨true, true⟩

inductive DispatchPhase where
  | connecting
  | sending
  | forwarding (lastActivity checkTimer : Nat)
  | returned (result : Except String Unit)

/-- The closers are `none` where the packet object has none. -/
structure DispatchPacket where
  timeoutDuration : Nat
  hasPayload : Bool
  hasReset : Bool
  outCloser : Option Closer
  inCloser : Option Closer
  /-- The outbound packet object has been obtained. -/
  obtained : Bool
  phase : DispatchPhase

inductive DispatchEvent where
  /-- `_dispatch_packet` ends; the packet object has a closer, which may be closed. -/
  | connected (now : Nat) (result : Except String (Option Bool))
  /-- The `send_to` of the first payload ends. -/
  | sent (now : Nat) (result : Except String Nat)
  | inboundForwarded (now : Nat) (result : Except String Unit)
  | outboundForwarded (now : Nat) (result : Except String Unit)
  | checkTimer (now : Nat)
  | outPacketClosed
  | inPacketClosed
  | resetNotified
  /-- Somebody else closes the packet object. -/
  | closeOut
  | closeIn

namespace DispatchPacket

def start (timeoutDuration : Nat) (hasPayload hasReset : Bool) (inCloser : Option Bool) :
    DispatchPacket where
  timeoutDuration := timeoutDuration
  hasPayload := hasPayload
  hasReset := hasReset
  outCloser := none
  inCloser := inCloser.map (⟨·, false⟩)
  obtained := false
  phase := .connecting

def forward (session : DispatchPacket) (now : Nat) : DispatchPacket :=
  { session with phase := .forwarding now (now + session.timeoutDuration) }

def finish (session : DispatchPacket) : DispatchPacket :=
  { session with
    outCloser := session.outCloser.map Closer.close
    inCloser := session.inCloser.map Closer.close
    phase := .returned (.ok ()) }

/-- A branch of the loop whose future has ended with a result. -/
def forwarded (session : DispatchPacket) (now timer : Nat) :
    Except String Unit → DispatchPacket
  | .ok () => { session with phase := .forwarding now timer }
  | .error _ => session.finish

def closedBy (closer : Option Closer) : Bool := closer.any (·.closed)

def select (session : DispatchPacket) (lastActivity timer : Nat) :
    DispatchEvent → Option DispatchPacket
  | .inboundForwarded now result | .outboundForwarded now result =>
      some (session.forwarded now timer result)
  | .checkTimer now =>
      if now < timer then none
      else if now - lastActivity ≥ session.timeoutDuration then some session.finish
      else
        some { session with
          phase := .forwarding lastActivity (lastActivity + session.timeoutDuration) }
  | .outPacketClosed => if closedBy session.outCloser then some session.finish else none
  | .inPacketClosed => if closedBy session.inCloser then some session.finish else none
  | .resetNotified => if session.hasReset then some session.finish else none
  | .connected _ _ | .sent _ _ | .closeOut | .closeIn => none

def step (session : DispatchPacket) (event : DispatchEvent) : Option DispatchPacket :=
  match event, session.phase with
  | .closeOut, _ =>
      some { session with outCloser := session.outCloser.map ({ · with closed := true }) }
  | .closeIn, _ =>
      some { session with inCloser := session.inCloser.map ({ · with closed := true }) }
  | .connected _ (.error error), .connecting =>
      some { session with phase := .returned (.error error) }
  | .connected now (.ok closer), .connecting =>
      let obtained := { session with outCloser := closer.map (⟨·, false⟩), obtained := true }
      some (if session.hasPayload then { obtained with phase := .sending }
        else obtained.forward now)
  | .sent _ (.error error), .sending => some { session with phase := .returned (.error error) }
  | .sent now (.ok _), .sending => some (session.forward now)
  | event, .forwarding lastActivity timer => session.select lastActivity timer event
  | _, _ => none

def TornDown (session : DispatchPacket) : Prop :=
  (∀ closer ∈ session.outCloser, closer.called) ∧ ∀ closer ∈ session.inCloser, closer.called

/-- Once it has the outbound packet object, the session does not return before
it has called `close` on both sides. -/
def ClosesBoth (session : DispatchPacket) : Prop :=
  session.obtained → ∀ result, session.phase = .returned result → session.TornDown

/-- A step other than a failed send of the first payload, in a session with a
closer. -/
def Tidy (session : DispatchPacket) : DispatchEvent → Prop
  | .sent _ (.error _) => session.outCloser = none ∧ session.inCloser = none
  | _ => True

instance (session : DispatchPacket) : DecidablePred session.Tidy
  | .sent _ (.error _) => inferInstanceAs (Decidable (_ ∧ _))
  | .sent _ (.ok _) | .connected _ _ | .inboundForwarded _ _ | .outboundForwarded _ _
  | .checkTimer _ | .outPacketClosed | .inPacketClosed | .resetNotified | .closeOut | .closeIn =>
      isTrue trivial

/-! Steps. -/

def Uncalled (session : DispatchPacket) : Prop :=
  (∀ closer ∈ session.outCloser, closer.called = false) ∧
    ∀ closer ∈ session.inCloser, closer.called = false

def Underway (session : DispatchPacket) : Prop :=
  match session.phase with
  | .connecting => session.obtained = false ∧ session.Uncalled
  | .sending | .forwarding _ _ => session.obtained = true ∧ session.Uncalled
  | .returned _ => True

theorem underway_start (timeoutDuration : Nat) (hasPayload hasReset : Bool)
    (inCloser : Option Bool) : (start timeoutDuration hasPayload hasReset inCloser).Underway := by
  refine ⟨rfl, nofun, fun closer member => ?_⟩
  obtain ⟨closed, -, rfl⟩ := Option.map_eq_some_iff.mp member
  rfl

theorem closesBoth_of_phase {session : DispatchPacket}
    (unreturned : ∀ result, session.phase ≠ .returned result) : session.ClosesBoth :=
  fun _ result returned => absurd returned (unreturned result)

theorem tornDown_finish (session : DispatchPacket) : session.finish.TornDown := by
  constructor
  all_goals
    intro closer member
    obtain ⟨before, -, rfl⟩ := Option.map_eq_some_iff.mp member
    rfl

theorem called_map {closer : Option Closer} {called : Bool} :
    (∀ other ∈ closer.map ({ · with closed := true }), other.called = called) ↔
      ∀ other ∈ closer, other.called = called := by
  cases closer with
  | none => exact ⟨nofun, nofun⟩
  | some closer => simp only [Option.map_some, Option.mem_some_iff, forall_eq']

theorem select_cases {session next : DispatchPacket} {lastActivity timer : Nat}
    {event : DispatchEvent} (selected : session.select lastActivity timer event = some next) :
    (∃ activity timer, next = { session with phase := .forwarding activity timer }) ∨
      next = session.finish := by
  cases event with
  | inboundForwarded now result | outboundForwarded now result =>
      cases selected
      cases result with
      | ok => exact Or.inl ⟨_, _, rfl⟩
      | error => exact Or.inr rfl
  | checkTimer now =>
      simp only [select] at selected
      split at selected
      · cases selected
      · split at selected
        · exact Or.inr (Option.some.inj selected).symm
        · exact Or.inl ⟨_, _, (Option.some.inj selected).symm⟩
  | outPacketClosed | inPacketClosed | resetNotified =>
      simp only [select] at selected
      split at selected
      · exact Or.inr (Option.some.inj selected).symm
      · cases selected
  | connected | sent | closeOut | closeIn => cases selected

theorem none_of_called {closer : Option Closer} (uncalled : ∀ one ∈ closer, one.called = false)
    (called : ∀ one ∈ closer, one.called = true) : closer = none := by
  refine Option.eq_none_iff_forall_not_mem.mpr fun one member => ?_
  cases (uncalled one member).symm.trans (called one member)

theorem select_exact {session next : DispatchPacket} {lastActivity timer : Nat}
    {event : DispatchEvent} (phase : session.phase = .forwarding lastActivity timer)
    (underway : session.Underway) (selected : session.select lastActivity timer event = some next) :
    next.Underway ∧ (next.ClosesBoth ↔ session.ClosesBoth ∧ session.Tidy event) := by
  rw [Underway, phase] at underway
  have closes : session.ClosesBoth := closesBoth_of_phase fun result => by rw [phase]; exact nofun
  have tidy : session.Tidy event := by
    cases event with
    | sent => cases selected
    | connected | inboundForwarded | outboundForwarded | checkTimer | outPacketClosed
    | inPacketClosed | resetNotified | closeOut | closeIn => trivial
  rcases select_cases selected with ⟨activity, timer, rfl⟩ | rfl
  · exact ⟨underway, fun _ => ⟨closes, tidy⟩, fun _ => closesBoth_of_phase nofun⟩
  · exact ⟨trivial, fun _ => ⟨closes, tidy⟩, fun _ _ _ _ => session.tornDown_finish⟩

def SameCalls (closer other : Option Closer) : Prop :=
  ∀ called, (∀ one ∈ other, one.called = called) ↔ ∀ one ∈ closer, one.called = called

theorem closed_exact {session : DispatchPacket} {outCloser inCloser : Option Closer}
    (out : SameCalls session.outCloser outCloser) (inside : SameCalls session.inCloser inCloser)
    (underway : session.Underway) :
    ({ session with outCloser := outCloser, inCloser := inCloser } : DispatchPacket).Underway ∧
      (({ session with outCloser := outCloser, inCloser := inCloser } :
        DispatchPacket).ClosesBoth ↔ session.ClosesBoth) := by
  have uncalled : (∀ one ∈ outCloser, one.called = false) ∧ (∀ one ∈ inCloser, one.called = false) ↔
      session.Uncalled := and_congr (out false) (inside false)
  have tornDown : (∀ one ∈ outCloser, one.called = true) ∧ (∀ one ∈ inCloser, one.called = true) ↔
      session.TornDown := and_congr (out true) (inside true)
  refine ⟨?_, imp_congr_right fun _ => forall_congr' fun _ => imp_congr_right fun _ => tornDown⟩
  unfold Underway at underway ⊢
  split at underway
  all_goals rename_i phase
  all_goals simp only [phase]
  · exact underway.imp_right uncalled.mpr
  · exact underway.imp_right uncalled.mpr
  · exact underway.imp_right uncalled.mpr

theorem step_exact {session next : DispatchPacket} {event : DispatchEvent}
    (underway : session.Underway) (taken : session.step event = some next) :
    next.Underway ∧ (next.ClosesBoth ↔ session.ClosesBoth ∧ session.Tidy event) := by
  cases event with
  | closeOut =>
      cases taken
      have same := closed_exact (fun _ => called_map) (fun _ => Iff.rfl) underway
      exact ⟨same.1, same.2.trans (and_iff_left trivial).symm⟩
  | closeIn =>
      cases taken
      have same := closed_exact (fun _ => Iff.rfl) (fun _ => called_map) underway
      exact ⟨same.1, same.2.trans (and_iff_left trivial).symm⟩
  | connected now result =>
      cases phase : session.phase with
      | connecting =>
          rw [Underway, phase] at underway
          obtain ⟨unobtained, uncalled⟩ := underway
          have closes : session.ClosesBoth :=
            closesBoth_of_phase fun _ => by rw [phase]; exact nofun
          cases result with
          | error error =>
              simp only [step, phase] at taken
              cases taken
              refine ⟨trivial, fun _ => ⟨closes, trivial⟩, fun _ obtained => ?_⟩
              exact absurd (unobtained.symm.trans obtained) nofun
          | ok closer =>
              simp only [step, phase, Option.some.injEq] at taken
              have fresh : ∀ one ∈ closer.map (Closer.mk · false), one.called = false := by
                intro one member
                obtain ⟨closed, -, rfl⟩ := Option.map_eq_some_iff.mp member
                rfl
              split at taken
              · subst taken
                exact ⟨⟨rfl, fresh, uncalled.2⟩, fun _ => ⟨closes, trivial⟩,
                  fun _ => closesBoth_of_phase nofun⟩
              · subst taken
                exact ⟨⟨rfl, fresh, uncalled.2⟩, fun _ => ⟨closes, trivial⟩,
                  fun _ => closesBoth_of_phase nofun⟩
      | forwarding lastActivity timer =>
          simp only [step, phase, select] at taken
          cases taken
      | sending | returned =>
          simp only [step, phase] at taken
          cases taken
  | sent now result =>
      cases phase : session.phase with
      | sending =>
          rw [Underway, phase] at underway
          obtain ⟨obtained, out, inside⟩ := underway
          have closes : session.ClosesBoth :=
            closesBoth_of_phase fun _ => by rw [phase]; exact nofun
          cases result with
          | error error =>
              simp only [step, phase] at taken
              cases taken
              refine ⟨trivial, fun promise => ⟨closes, ?_⟩, fun tidy _ _ _ => ?_⟩
              · have down := promise obtained _ rfl
                exact ⟨none_of_called out down.1, none_of_called inside down.2⟩
              · obtain ⟨outNone, inNone⟩ := tidy.2
                exact ⟨fun _ member => absurd (outNone.symm.trans member) nofun,
                  fun _ member => absurd (inNone.symm.trans member) nofun⟩
          | ok count =>
              simp only [step, phase] at taken
              cases taken
              exact ⟨⟨obtained, out, inside⟩, fun _ => ⟨closes, trivial⟩,
                fun _ => closesBoth_of_phase nofun⟩
      | forwarding lastActivity timer =>
          simp only [step, phase, select] at taken
          cases taken
      | connecting | returned =>
          simp only [step, phase] at taken
          cases taken
  | inboundForwarded | outboundForwarded | checkTimer | outPacketClosed | inPacketClosed
  | resetNotified =>
      cases phase : session.phase with
      | forwarding lastActivity timer =>
          simp only [step, phase] at taken
          exact select_exact phase underway taken
      | connecting | sending | returned =>
          simp only [step, phase] at taken
          cases taken

/-- In every run: each return closes both sides, exactly when no step of the run
is a failed send of the first payload in a session with a closer. -/
theorem closesBoth_iff_tidy (timeoutDuration : Nat) (hasPayload hasReset : Bool)
    (inCloser : Option Bool) (events : List DispatchEvent) {final : DispatchPacket}
    (ran : Machine.run step (start timeoutDuration hasPayload hasReset inCloser) events =
      some final) :
    final.ClosesBoth ↔
      Machine.Within step Tidy (start timeoutDuration hasPayload hasReset inCloser) events := by
  have split := Machine.run_iff_within Underway ClosesBoth
    (fun underway taken => (step_exact underway taken).1)
    (fun underway taken => (step_exact underway taken).2)
    (underway_start timeoutDuration hasPayload hasReset inCloser) ran
  have closes : (start timeoutDuration hasPayload hasReset inCloser).ClosesBoth :=
    closesBoth_of_phase nofun
  rw [split, and_iff_right closes]

/-- A session that ends when it has been idle for long enough. -/
def idle : List DispatchEvent :=
  [.connected 0 (.ok (some false)), .sent 1 (.ok 5), .outboundForwarded 4 (.ok ()), .checkTimer 11,
    .checkTimer 14]

theorem closesBoth_idle :
    ∃ final, Machine.run step (start 10 true false (some false)) idle = some final ∧
      final.ClosesBoth ∧ final.outCloser = some ⟨true, true⟩ :=
  ⟨_, rfl, (closesBoth_iff_tidy 10 true false (some false) idle rfl).mpr (by decide), rfl⟩

def unsendable : List DispatchEvent :=
  [.connected 0 (.ok (some false)), .sent 1 (.error "send_to failed")]

theorem closers_left_open :
    ∃ final, Machine.run step (start 10 true false (some false)) unsendable = some final ∧
      final.obtained ∧ final.phase = .returned (.error "send_to failed") ∧
        final.outCloser = some ⟨false, false⟩ ∧ final.inCloser = some ⟨false, false⟩ ∧
          ¬final.ClosesBoth := by
  refine ⟨_, rfl, rfl, rfl, rfl, rfl, fun closes => ?_⟩
  exact absurd ((closes rfl _ rfl).1 _ rfl) nofun

end DispatchPacket

end QuicProxy
