import QuicProxy.Data.Bytes
import QuicProxy.Proxy.Router.DispatchPacket

namespace QuicProxy

/-! The DNS outbound (`src/proxy/outbound/dns.rs`) in the session of a
`dispatch_packet`: each query is exchanged by a task of its own, and the answers
come back through a channel for one packet. -/

inductive QueryState where
  | exchanging
  | failed (error : String)
  /-- The task waits for the channel. -/
  | answered (response : Bytes)
  | queued (response : Bytes)
  /-- The response is out of the channel, and `in_packet.send_to` waits. -/
  | held (response : Bytes)
  | delivered (response : Bytes)
deriving DecidableEq

namespace QueryState

def isQueued : QueryState → Bool
  | queued _ => true
  | _ => false

def isHeld : QueryState → Bool
  | held _ => true
  | _ => false

def isDelivered : QueryState → Bool
  | delivered _ => true
  | _ => false

end QueryState

structure DnsQuery where
  packet : Bytes
  state : QueryState
deriving DecidableEq

structure DnsSession where
  dispatch : DispatchPacket
  queries : List DnsQuery
  /-- What the client has received, with the query that it answers. -/
  client : List (Nat × Bytes)

inductive DnsEvent where
  | connected (now : Nat)
  /-- A query reaches `send_to`, as the first payload or by the inbound forwarding. -/
  | query (now : Nat) (packet : Bytes)
  /-- The `hijack_exchange` of a query ends. -/
  | exchanged (index : Nat) (result : Except String Bytes)
  /-- The task of a query puts its response into the channel. -/
  | queued (index : Nat)
  /-- `recv_from` takes a response; `taken` says that `in_packet.send_to` takes it
  without waiting. -/
  | received (index now : Nat) (taken : Bool)
  | forwarded (index now : Nat) (result : Except String Unit)
  /-- `recv_from` finds that the closer is closed. -/
  | signalled (now : Nat)
  /-- Anything else that happens to the session. -/
  | dispatch (event : DispatchEvent)

namespace DnsSession

def start (timeoutDuration : Nat) (hasPayload hasReset : Bool) (inCloser : Option Bool) :
    DnsSession where
  dispatch := .start timeoutDuration hasPayload hasReset inCloser
  queries := []
  client := []

def sentBy (dispatch : DispatchPacket) (now : Nat) (packet : Bytes) : DispatchEvent :=
  match dispatch.phase with
  | .sending => .sent now (.ok packet.length)
  | _ => .inboundForwarded now (.ok ())

def forwarding (dispatch : DispatchPacket) : Bool :=
  match dispatch.phase with
  | .forwarding _ _ => true
  | _ => false

def become (session : DnsSession) (index : Nat) (query : DnsQuery) (state : QueryState) :
    DnsSession :=
  { session with queries := session.queries.set index { query with state := state } }

def deliver (session : DnsSession) (index : Nat) (query : DnsQuery) (response : Bytes) :
    DnsSession :=
  { session.become index query (.delivered response) with
    client := session.client ++ [(index, response)] }

/-- A step of the session that no packet of this outbound is part of. -/
def other : DispatchEvent → Bool
  | .connected _ (.ok _) | .sent _ (.ok _) | .inboundForwarded _ (.ok _)
  | .outboundForwarded _ _ => false
  | _ => true

def move (session : DnsSession) (event : DispatchEvent) : Option DnsSession :=
  (session.dispatch.step event).map ({ session with dispatch := · })

def exchange (session : DnsSession) (index : Nat) (result : Except String Bytes) :
    Option DnsSession :=
  match session.queries[index]?, result with
  | some ⟨packet, .exchanging⟩, .ok response =>
      some (session.become index ⟨packet, .exchanging⟩ (.answered response))
  | some ⟨packet, .exchanging⟩, .error error =>
      (session.become index ⟨packet, .exchanging⟩ (.failed error)).move .closeOut
  | _, _ => none

/-- `tx.send` has a permit. -/
def enqueue (session : DnsSession) (index : Nat) : Option DnsSession :=
  match session.queries[index]? with
  | some ⟨packet, .answered response⟩ =>
      if forwarding session.dispatch && !session.queries.any (·.state.isQueued) then
        some (session.become index ⟨packet, .answered response⟩ (.queued response))
      else none
  | _ => none

/-- `forward_udp_outbound_once`, when the channel has a response. -/
def receive (session : DnsSession) (index now : Nat) (taken : Bool) : Option DnsSession :=
  match session.queries[index]? with
  | some ⟨packet, .queued response⟩ =>
      if forwarding session.dispatch && !session.queries.any (·.state.isHeld) then
        (session.move .closeOut).bind fun closed =>
          if taken then
            (closed.deliver index ⟨packet, .queued response⟩ response).move
              (.outboundForwarded now (.ok ()))
          else some (closed.become index ⟨packet, .queued response⟩ (.held response))
      else none
  | _ => none

def finishForward (session : DnsSession) (index now : Nat) (result : Except String Unit) :
    Option DnsSession :=
  match session.queries[index]?, result with
  | some ⟨packet, .held response⟩, .ok () =>
      (session.deliver index ⟨packet, .held response⟩ response).move
        (.outboundForwarded now (.ok ()))
  | some ⟨_, .held _⟩, .error error => session.move (.outboundForwarded now (.error error))
  | _, _ => none

def step (session : DnsSession) : DnsEvent → Option DnsSession
  | .connected now => session.move (.connected now (.ok (some false)))
  | .query now packet =>
      (session.move (sentBy session.dispatch now packet)).map fun sent =>
        { sent with queries := sent.queries ++ [⟨packet, .exchanging⟩] }
  | .exchanged index result => session.exchange index result
  | .queued index => session.enqueue index
  | .received index now taken => session.receive index now taken
  | .forwarded index now result => session.finishForward index now result
  | .signalled now =>
      if DispatchPacket.closedBy session.dispatch.outCloser &&
          !session.queries.any (·.state.isHeld) then
        session.move (.outboundForwarded now (.error "received closer signal"))
      else none
  | .dispatch event => if other event then session.move event else none

def SameId (packet response : Bytes) : Prop := response.take 2 = packet.take 2

def ServerFailure (response : Bytes) : Prop := response.getD 3 0 &&& 0x0F = 2

structure Answered (session : DnsSession) (index : Nat) (query : DnsQuery) : Prop where
  once : ∃ response, session.client.filter (·.1 = index) = [(index, response)] ∧
    SameId query.packet response ∧
      ∀ error, query.state = .failed error → ServerFailure response

/-- The session is still going to deliver the response. -/
structure Expected (session : DnsSession) (index : Nat) (query : DnsQuery) : Prop where
  unanswered : session.client.filter (·.1 = index) = []
  live : forwarding session.dispatch
  underway : ∀ error, query.state ≠ .failed error

/-- Every query has its response, or is going to have it. -/
def AllAnswered (session : DnsSession) : Prop :=
  ∀ index query, session.queries[index]? = some query →
    session.Answered index query ∨ session.Expected index query

/-! What keeps the responses from getting lost. -/

def Settled (session : DnsSession) : Prop := ∀ query ∈ session.queries, query.state.isDelivered

/-- The event does not end the session. -/
def Undisturbed (session : DnsSession) : DispatchEvent → Prop
  | .checkTimer now =>
      match session.dispatch.phase with
      | .forwarding lastActivity _ => now - lastActivity < session.dispatch.timeoutDuration
      | _ => True
  | .inPacketClosed | .resetNotified | .closeOut | .inboundForwarded _ _ => False
  | .connected _ _ | .sent _ _ | .outboundForwarded _ _ | .outPacketClosed | .closeIn => True

/-- There is one query, before anything has closed the outbound; its exchange
succeeds, the client takes the response at once, and nothing else ends the
session before that. -/
def Prompt (session : DnsSession) : DnsEvent → Prop
  | .query _ _ =>
      session.queries = [] ∧ DispatchPacket.closedBy session.dispatch.outCloser = false
  | .exchanged index (.ok response) =>
      ∀ query ∈ session.queries[index]?, SameId query.packet response
  | .exchanged _ (.error _) => False
  | .received _ _ taken => taken = true
  | .dispatch event => session.Settled ∨ session.Undisturbed event
  | .connected _ | .queued _ | .forwarded _ _ _ | .signalled _ => True

instance (packet response : Bytes) : Decidable (SameId packet response) :=
  inferInstanceAs (Decidable (_ = _))

instance (session : DnsSession) : DecidablePred session.Undisturbed
  | .checkTimer now =>
      match phase : session.dispatch.phase with
      | .forwarding lastActivity _ =>
          decidable_of_iff (now - lastActivity < session.dispatch.timeoutDuration)
            (by simp only [Undisturbed, phase])
      | .connecting | .sending | .returned _ => isTrue (by simp only [Undisturbed, phase])
  | .inPacketClosed | .resetNotified | .closeOut | .inboundForwarded _ _ => isFalse id
  | .connected _ _ | .sent _ _ | .outboundForwarded _ _ | .outPacketClosed | .closeIn =>
      isTrue trivial

instance (session : DnsSession) : DecidablePred session.Prompt
  | .query _ _ => inferInstanceAs (Decidable (_ ∧ _))
  | .exchanged index (.ok response) =>
      inferInstanceAs (Decidable (∀ query ∈ session.queries[index]?, SameId query.packet response))
  | .exchanged _ (.error _) => isFalse id
  | .received _ _ taken => inferInstanceAs (Decidable (taken = true))
  | .dispatch event =>
      inferInstanceAs (Decidable
        ((∀ query ∈ session.queries, query.state.isDelivered) ∨ session.Undisturbed event))
  | .connected _ | .queued _ | .forwarded _ _ _ | .signalled _ => isTrue trivial

structure Waiting (session : DnsSession) : Prop where
  live : forwarding session.dispatch
  opened : DispatchPacket.closedBy session.dispatch.outCloser = false
  unanswered : session.client = []

def Sound (session : DnsSession) (packet : Bytes) : QueryState → Prop
  | .exchanging => session.Waiting
  | .answered response | .queued response => session.Waiting ∧ SameId packet response
  | .delivered response => session.client = [(0, response)] ∧ SameId packet response
  | .failed _ | .held _ => False

def Single (session : DnsSession) : Prop :=
  session.queries = [] ∧ session.client = [] ∨
    ∃ packet state, session.queries = [⟨packet, state⟩] ∧ session.Sound packet state

theorem Single.allAnswered {session : DnsSession} (single : session.Single) :
    session.AllAnswered := by
  intro index query found
  rcases single with ⟨none, -⟩ | ⟨packet, state, one, sound⟩
  · rw [none] at found
    cases found
  · rw [one] at found
    obtain ⟨rfl, rfl⟩ : index = 0 ∧ query = ⟨packet, state⟩ := by
      cases index with
      | zero => exact ⟨rfl, (Option.some.inj found).symm⟩
      | succ index => cases found
    have expected (waiting : session.Waiting) (underway : ∀ error, state ≠ .failed error) :
        session.Expected 0 ⟨packet, state⟩ :=
      ⟨by rw [waiting.unanswered]; rfl, waiting.live, underway⟩
    cases state with
    | exchanging => exact Or.inr (expected sound nofun)
    | answered response => exact Or.inr (expected sound.1 nofun)
    | queued response => exact Or.inr (expected sound.1 nofun)
    | delivered response =>
        refine Or.inl ⟨response, ?_, sound.2, nofun⟩
        rw [sound.1]
        rfl
    | failed => exact sound.elim
    | held => exact sound.elim

/-! Steps. -/

theorem move_cases {session next : DnsSession} {event : DispatchEvent}
    (moved : session.move event = some next) :
    ∃ dispatch, session.dispatch.step event = some dispatch ∧
      next = { session with dispatch := dispatch } := by
  obtain ⟨dispatch, taken, rfl⟩ := Option.map_eq_some_iff.mp moved
  exact ⟨dispatch, taken, rfl⟩

theorem forwarding_iff {dispatch : DispatchPacket} :
    forwarding dispatch = true ↔ ∃ lastActivity timer,
      dispatch.phase = .forwarding lastActivity timer := by
  unfold forwarding
  split
  · rename_i lastActivity timer phase
    exact ⟨fun _ => ⟨lastActivity, timer, phase⟩, fun _ => rfl⟩
  · rename_i different
    exact ⟨nofun, fun ⟨lastActivity, timer, phase⟩ => absurd phase (different _ _)⟩

theorem Waiting.move {session next : DnsSession} {event : DispatchEvent} (waiting : session.Waiting)
    (undisturbed : session.Undisturbed event)
    (alien : ∀ now result, event ≠ .outboundForwarded now result)
    (moved : session.move event = some next) : next.Waiting := by
  obtain ⟨dispatch, taken, rfl⟩ := move_cases moved
  obtain ⟨lastActivity, timer, phase⟩ := forwarding_iff.mp waiting.live
  have opened := waiting.opened
  cases event with
  | checkTimer now =>
      rw [Undisturbed, phase] at undisturbed
      simp only [DispatchPacket.step, phase, DispatchPacket.select] at taken
      split at taken
      · cases taken
      · rw [if_neg (Nat.not_le_of_lt undisturbed)] at taken
        cases taken
        exact ⟨rfl, opened, waiting.unanswered⟩
  | outPacketClosed =>
      simp only [DispatchPacket.step, phase, DispatchPacket.select, opened] at taken
      cases taken
  | closeIn =>
      cases taken
      exact ⟨waiting.live, opened, waiting.unanswered⟩
  | connected now result =>
      simp only [DispatchPacket.step, phase, DispatchPacket.select] at taken
      cases taken
  | sent now result =>
      simp only [DispatchPacket.step, phase, DispatchPacket.select] at taken
      cases taken
  | outboundForwarded now result => exact absurd rfl (alien now result)
  | inboundForwarded | inPacketClosed | resetNotified | closeOut => exact undisturbed.elim

/-- A step of the session alone, of which a query that waits notices nothing. -/
theorem Single.move {session next : DnsSession} {event : DispatchEvent} (single : session.Single)
    (kept : ¬session.Settled → session.Waiting → next.Waiting)
    (moved : session.move event = some next) : next.Single := by
  obtain ⟨dispatch, -, rfl⟩ := move_cases moved
  rcases single with none | ⟨packet, state, one, sound⟩
  · exact Or.inl none
  · refine Or.inr ⟨packet, state, one, ?_⟩
    have unsettled (underway : ¬state.isDelivered) : ¬session.Settled := by
      intro settled
      refine underway (settled ⟨packet, state⟩ ?_)
      rw [one]
      exact List.mem_singleton_self _
    cases state with
    | exchanging => exact kept (unsettled nofun) sound
    | answered response => exact ⟨kept (unsettled nofun) sound.1, sound.2⟩
    | queued response => exact ⟨kept (unsettled nofun) sound.1, sound.2⟩
    | delivered response => exact sound
    | failed => exact sound.elim
    | held => exact sound.elim

theorem Single.query {session next : DnsSession} {now : Nat} {packet : Bytes}
    (single : session.Single) (first : session.queries = [])
    (opened : DispatchPacket.closedBy session.dispatch.outCloser = false)
    (taken : session.step (.query now packet) = some next) : next.Single := by
  obtain ⟨sent, moved, rfl⟩ := Option.map_eq_some_iff.mp taken
  obtain ⟨dispatch, stepped, rfl⟩ := move_cases moved
  have unanswered : session.client = [] := by
    rcases single with ⟨-, none⟩ | ⟨packet, state, one, -⟩
    · exact none
    · cases first.symm.trans one
  refine Or.inr ⟨packet, .exchanging, ?_, ?_⟩
  · change session.queries ++ [_] = _
    rw [first]
    rfl
  · unfold sentBy at stepped
    split at stepped
    · rename_i phase
      simp only [DispatchPacket.step, phase] at stepped
      cases stepped
      exact ⟨rfl, opened, unanswered⟩
    · cases phase : session.dispatch.phase with
      | forwarding lastActivity timer =>
          simp only [DispatchPacket.step, phase, DispatchPacket.select] at stepped
          cases stepped
          exact ⟨rfl, opened, unanswered⟩
      | connecting | sending | returned =>
          simp only [DispatchPacket.step, phase] at stepped
          cases stepped

theorem Single.at_index {session : DnsSession} {index : Nat} {query : DnsQuery}
    (single : session.Single) (found : session.queries[index]? = some query) :
    index = 0 ∧ session.queries = [query] ∧ session.Sound query.packet query.state := by
  rcases single with ⟨none, -⟩ | ⟨packet, state, one, sound⟩
  · rw [none] at found
    cases found
  · rw [one] at found
    cases index with
    | zero =>
        cases found
        exact ⟨rfl, one, sound⟩
    | succ index => cases found

theorem Single.exchange {session next : DnsSession} {index : Nat} {result : Except String Bytes}
    (single : session.Single)
    (prompt : session.Prompt (.exchanged index result))
    (taken : session.exchange index result = some next) : next.Single := by
  unfold DnsSession.exchange at taken
  split at taken
  · rename_i packet response found
    cases taken
    obtain ⟨rfl, one, waiting⟩ := single.at_index found
    refine Or.inr ⟨packet, .answered response, ?_,
      ⟨waiting.live, waiting.opened, waiting.unanswered⟩,
      prompt _ found⟩
    change session.queries.set 0 _ = _
    rw [one]
    rfl
  · exact prompt.elim
  · cases taken

theorem Single.enqueue {session next : DnsSession} {index : Nat} (single : session.Single)
    (taken : session.enqueue index = some next) : next.Single := by
  unfold DnsSession.enqueue at taken
  split at taken
  · rename_i packet response found
    obtain ⟨rfl, one, waiting, id⟩ := single.at_index found
    split at taken
    · cases taken
      refine Or.inr ⟨packet, .queued response, ?_,
        ⟨waiting.live, waiting.opened, waiting.unanswered⟩, id⟩
      change session.queries.set 0 _ = _
      rw [one]
      rfl
    · cases taken
  · cases taken

theorem Single.receive {session next : DnsSession} {index now : Nat} {takes : Bool}
    (single : session.Single) (prompt : takes = true)
    (taken : session.receive index now takes = some next) : next.Single := by
  unfold DnsSession.receive at taken
  split at taken
  · rename_i packet response found
    obtain ⟨rfl, one, waiting, id⟩ := single.at_index found
    split at taken
    · obtain ⟨closed, moved, finished⟩ := Option.bind_eq_some_iff.mp taken
      obtain ⟨dispatch, -, rfl⟩ := move_cases moved
      obtain ⟨dispatch, -, rfl⟩ := move_cases finished
      refine Or.inr ⟨packet, .delivered response, ?_, ?_, id⟩
      · change session.queries.set 0 _ = _
        rw [one]
        rfl
      · change session.client ++ _ = _
        rw [waiting.unanswered]
        rfl
    · cases taken
  · cases taken

theorem Single.finishForward {session next : DnsSession} {index now : Nat}
    {result : Except String Unit} (single : session.Single)
    (taken : session.finishForward index now result = some next) : next.Single := by
  unfold DnsSession.finishForward at taken
  split at taken
  · rename_i found
    exact (single.at_index found).2.2.elim
  · rename_i found
    exact (single.at_index found).2.2.elim
  · cases taken

theorem Single.step {session next : DnsSession} {event : DnsEvent} (single : session.Single)
    (prompt : session.Prompt event) (taken : session.step event = some next) : next.Single := by
  cases event with
  | connected now =>
      refine single.move (fun _ waiting => ?_) taken
      exact Waiting.move waiting (show Undisturbed _ (.connected now _) from trivial) nofun taken
  | query now packet => exact single.query prompt.1 prompt.2 taken
  | exchanged index result => exact single.exchange prompt taken
  | queued index => exact single.enqueue taken
  | received index now takes => exact single.receive prompt taken
  | forwarded index now result => exact single.finishForward taken
  | signalled now =>
      simp only [DnsSession.step] at taken
      split at taken
      · rename_i closed
        refine single.move (fun _ waiting => ?_) taken
        rw [waiting.opened] at closed
        cases closed
      · cases taken
  | dispatch event =>
      simp only [DnsSession.step] at taken
      split at taken
      · rename_i alien
        refine single.move (fun unsettled waiting => ?_) taken
        refine waiting.move (prompt.resolve_left unsettled) (fun now result same => ?_) taken
        rw [same] at alien
        cases alien
      · cases taken

/-- In every run with one query, answered at once. -/
theorem allAnswered_of_prompt (timeoutDuration : Nat) (hasPayload hasReset : Bool)
    (inCloser : Option Bool) (events : List DnsEvent)
    (prompt : Machine.Within step Prompt (start timeoutDuration hasPayload hasReset inCloser)
      events) :
    Machine.Throughout step AllAnswered (start timeoutDuration hasPayload hasReset inCloser)
      events := by
  have single : Machine.Throughout step Single _ events :=
    Machine.throughout_of_within Single (fun here allowed taken => here.step allowed taken)
      (Or.inl ⟨rfl, rfl⟩) prompt
  exact Machine.throughout_mono Single.allAnswered single

def oneQuery : List DnsEvent :=
  [.connected 0, .query 1 [0, 7, 1, 0], .exchanged 0 (.ok [0, 7, 129, 128]), .queued 0,
    .received 0 2 true, .dispatch .outPacketClosed]

theorem allAnswered_oneQuery :
    Machine.Throughout step AllAnswered (start 10 true false (some false)) oneQuery ∧
      ∃ final, Machine.run step (start 10 true false (some false)) oneQuery = some final ∧
        final.client = [(0, [0, 7, 129, 128])] :=
  ⟨allAnswered_of_prompt 10 true false (some false) oneQuery (by decide), _, rfl, rfl⟩

/-- The response to the first of two queries ends the session. -/
def twoQueries : List DnsEvent :=
  [.connected 0, .query 1 [0, 7, 1, 0], .query 2 [0, 8, 1, 0],
    .exchanged 0 (.ok [0, 7, 129, 128]), .queued 0, .received 0 3 true,
    .dispatch .outPacketClosed, .exchanged 1 (.ok [0, 8, 129, 128])]

theorem second_query_is_lost :
    ∃ final, Machine.run step (start 10 true false (some false)) twoQueries = some final ∧
      final.client = [(0, [0, 7, 129, 128])] ∧ final.dispatch.phase = .returned (.ok ()) ∧
        final.queries[1]? = some ⟨[0, 8, 1, 0], .answered [0, 8, 129, 128]⟩ ∧
          ¬final.AllAnswered := by
  refine ⟨_, rfl, rfl, rfl, rfl, fun all => ?_⟩
  rcases all 1 _ rfl with ⟨response, once, -⟩ | ⟨-, live, -⟩
  · cases once
  · cases live

end DnsSession

end QuicProxy
