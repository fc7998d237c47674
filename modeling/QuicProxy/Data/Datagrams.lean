import QuicProxy.Data.Link

namespace QuicProxy

namespace Framed

/-! Datagrams over one direction of a connection: a sender that writes one at a
time and flushes it, and a receiver that takes what one read gives. -/

/-- The write half of a stream as its user sees it; `none` is a panic. -/
structure Outlet (Inner : Type) where
  pollWrite : Inner → Bytes → Option (Poll (Except String Nat) × Inner)
  pollFlush : Inner → Poll (Except String Unit) × Inner

/-- A `send_to` is a future; the state is what lasts between two of them. -/
structure Sender (State Future : Type) where
  sendTo : Bytes → Future
  poll : {Inner : Type} → Outlet Inner → State → Future → Inner →
    Option (Poll (Except String Nat) × State × Future × Inner)

inductive SendStage where
  | idle
  | writing (datagram : Bytes)
  | flushing (datagram : Bytes)
  | failed
deriving DecidableEq

/-- The datagram that is written while its send is not over. -/
def SendStage.written : SendStage → List Bytes
  | flushing datagram => [datagram]
  | _ => []

abbrev SenderView (State Future : Type) := SendStage → State → Option Future → Prop

variable {State Future : Type}

/-- What a send does with the answer to its flush. -/
inductive Finishes (At : SenderView State Future) (datagram : Bytes) {Inner : Type} :
    Poll (Except String Unit) × Inner →
      Option (Poll (Except String Nat) × State × Future × Inner) → Prop
  | waits {state : State} {future : Future} {inner : Inner}
      (here : At (.flushing datagram) state (some future)) :
      Finishes At datagram (.pending, inner) (some (.pending, state, future, inner))
  | done {state : State} {future : Future} {inner : Inner} (count : Nat)
      (here : At .idle state none) :
      Finishes At datagram (.ready (.ok ()), inner)
        (some (.ready (.ok count), state, future, inner))
  | fails {error : String} {inner : Inner}
      {out : Option (Poll (Except String Nat) × State × Future × Inner)} :
      Finishes At datagram (.ready (.error error), inner) out

/-- What a send does with the answer to its write, where that is none of a part. -/
inductive Goes (At : SenderView State Future) {Inner : Type} (outlet : Outlet Inner)
    (datagram : Bytes) : Poll (Except String Nat) × Inner →
      Option (Poll (Except String Nat) × State × Future × Inner) → Prop
  | waits {state : State} {future : Future} {inner : Inner}
      (here : At (.writing datagram) state (some future)) :
      Goes At outlet datagram (.pending, inner) (some (.pending, state, future, inner))
  | fails {error text : String} {state : State} {future : Future} {inner : Inner} :
      Goes At outlet datagram (.ready (.error error), inner)
        (some (.ready (.error text), state, future, inner))
  | writes {inner : Inner} {out : Option (Poll (Except String Nat) × State × Future × Inner)}
      (finishes : Finishes At datagram (outlet.pollFlush inner) out) :
      Goes At outlet datagram (.ready (.ok datagram.length), inner) out

/-- A sender that hands each datagram to one write and then flushes it. -/
structure Sender.Sends (sender : Sender State Future) (At : SenderView State Future) : Prop where
  sendTo : ∀ {state datagram}, At .idle state none → datagram ≠ [] →
    At (.writing datagram) state (some (sender.sendTo datagram))
  writing : ∀ {state future datagram Inner} (outlet : Outlet Inner) {inner : Inner}
    {wrote : Poll (Except String Nat) × Inner}, At (.writing datagram) state (some future) →
    datagram ≠ [] → outlet.pollWrite inner datagram = some wrote →
    (∀ count, wrote.1 = .ready (.ok count) → count = datagram.length) →
      Goes At outlet datagram wrote (sender.poll outlet state future inner)
  flushing : ∀ {state future datagram Inner} (outlet : Outlet Inner) (inner : Inner),
    At (.flushing datagram) state (some future) →
      Finishes At datagram (outlet.pollFlush inner) (sender.poll outlet state future inner)

structure Flow (Writer Reader Sink State Future : Type) where
  link : Link Writer Reader Sink
  state : State
  current : Option (Bytes × Future)
  /-- The sends that are over, with their results. -/
  sent : List (Bytes × Except String Nat)
  received : List Bytes
  /-- A receive has failed. -/
  closed : Bool
  /-- The network has given the end of the stream or an error. -/
  stopped : Bool

inductive FlowEvent where
  | send (datagram : Bytes)
  | poll
  | arrive (read : PollRead)
  | receive
deriving DecidableEq

structure Ends (Writer Reader Sink State Future : Type) where
  io : AsyncWrite Sink
  pollWrite : Sink → Writer → Bytes → Option (Poll (Except String Nat) × Writer × Wire Sink)
  sender : Sender State Future
  pollRead : Nat → Reader → List PollRead → Option (PollRead × Reader × List PollRead)
  /-- The size of the buffer of a `recv_from`. -/
  room : Nat
  recvFrom : PollRead → Poll (Except String Bytes)

variable {Phase Writer Reader Sink : Type}

def Ends.outlet (ends : Ends Writer Reader Sink State Future) : Outlet (Link Writer Reader Sink) :=
  ⟨fun link buf => link.write ends.pollWrite buf, fun link => link.flush ends.io⟩

namespace Flow

/-- A send waits for the one before it. -/
def Allowed (flow : Flow Writer Reader Sink State Future) : FlowEvent → Prop
  | .send _ => flow.current.isNone
  | .poll => flow.current.isSome
  | .arrive read => flow.link.Allowed (.arrive read)
  | .receive => True

instance (flow : Flow Writer Reader Sink State Future) : DecidablePred flow.Allowed
  | .send _ => inferInstanceAs (Decidable (_ = true))
  | .poll => inferInstanceAs (Decidable (_ = true))
  | .arrive read => inferInstanceAs (Decidable (flow.link.Allowed (.arrive read)))
  | .receive => isTrue trivial

def polled (flow : Flow Writer Reader Sink State Future) (datagram : Bytes) :
    Poll (Except String Nat) × State × Future × Link Writer Reader Sink →
      Flow Writer Reader Sink State Future
  | (.pending, state, future, link) => { flow with state, link, current := some (datagram, future) }
  | (.ready result, state, _, link) =>
      { flow with state, link, current := none, sent := flow.sent ++ [(datagram, result)] }

def taken (flow : Flow Writer Reader Sink State Future)
    (recvFrom : PollRead → Poll (Except String Bytes)) :
    PollRead × Link Writer Reader Sink → Flow Writer Reader Sink State Future
  | (read, link) =>
      match recvFrom read with
      | .pending => { flow with link }
      | .ready (.ok datagram) => { flow with link, received := flow.received ++ [datagram] }
      | .ready (.error _) => { flow with link, closed := true }

variable (ends : Ends Writer Reader Sink State Future)

/-- `none` also stands for a panic. -/
def step (flow : Flow Writer Reader Sink State Future) (event : FlowEvent) :
    Option (Flow Writer Reader Sink State Future) :=
  if flow.Allowed event then
    match event with
    | .send datagram => some { flow with current := some (datagram, ends.sender.sendTo datagram) }
    | .poll =>
        flow.current.bind fun (datagram, future) =>
          (ends.sender.poll ends.outlet flow.state future flow.link).map (flow.polled datagram)
    | .arrive read =>
        some { flow with link := flow.link.arrive read, stopped := flow.stopped || read.stops }
    | .receive => (flow.link.read ends.pollRead ends.room).map (flow.taken ends.recvFrom)
  else none

def start (link : Link Writer Reader Sink) (state : State) :
    Flow Writer Reader Sink State Future :=
  ⟨link, state, none, [], [], false, false⟩

variable (flow : Flow Writer Reader Sink State Future)

def accepted : List Bytes :=
  flow.sent.filterMap fun
    | (datagram, .ok _) => some datagram
    | (_, .error _) => none

structure Keeps : Prop where
  /-- The receiver gets the datagrams that were accepted, one by one, and no part
  of another; the one that is being sent may be ahead of its answer. -/
  order : flow.received <+: flow.accepted ++ (flow.current.map Prod.fst).toList
  /-- Once all that was sent has arrived, receives give every one. -/
  complete : flow.link.inFlight = [] → ∃ enough, ∀ count, enough ≤ count → ∃ final,
    Machine.run (step ends) flow (List.replicate count .receive) = some final ∧
      flow.accepted <+: final.received
  /-- Only the network ends the session. -/
  opened : flow.closed = true → flow.stopped = true
  /-- No event is met with a panic. -/
  answers : ∀ event, flow.Allowed event → ∃ next, step ends flow event = some next

/-- A datagram has bytes, not more than fit into one frame, and is not handed
over after a send that has failed. -/
def Fits (bound : Nat) : FlowEvent → Prop
  | .send datagram =>
      datagram ≠ [] ∧ datagram.length ≤ bound ∧ ∀ result ∈ flow.sent, result.2.toBool = true
  | _ => True

instance (bound : Nat) : DecidablePred (flow.Fits bound)
  | .send _ => inferInstanceAs (Decidable (_ ∧ _))
  | .poll | .arrive _ | .receive => isTrue trivial

end Flow

/-- What the two ends of a flow have to do, for datagrams of at most so many
bytes. -/
structure Ends.Lawful (ends : Ends Writer Reader Sink State Future) (framing : Framing Phase)
    (view : ReaderView Phase Reader) (At : WriterView Phase Writer) (limit : Phase → Nat)
    (sending : SenderView State Future) (bound : Nat) : Prop where
  reads : Reads framing view ends.pollRead
  writes : Writes framing At limit ends.pollWrite
  sends : ends.sender.Sends sending
  flushes : ends.io.FlushSucceeds
  room : bound ≤ ends.room
  some_room : 0 < ends.room
  waits : ends.recvFrom .pending = .pending
  gives : ∀ {bytes}, bytes ≠ [] → ends.recvFrom (.ready bytes) = .ready (.ok bytes)
  closes : ∀ {read}, read.stops = true → ∃ error, ends.recvFrom read = .ready (.error error)

namespace Flow

inductive Staged (sending : SenderView State Future) (bound : Nat)
    (flow : Flow Writer Reader Sink State Future) : SendStage → Prop
  | idle (here : sending .idle flow.state none) (current : flow.current = none)
      (pending : flow.link.pending = none) : Staged sending bound flow .idle
  | writing {datagram : Bytes} {future : Future}
      (here : sending (.writing datagram) flow.state (some future))
      (current : flow.current = some (datagram, future))
      (pending : ∀ offered ∈ flow.link.pending, offered = datagram) (some_bytes : datagram ≠ [])
      (small : datagram.length ≤ bound) : Staged sending bound flow (.writing datagram)
  | flushing {datagram : Bytes} {future : Future}
      (here : sending (.flushing datagram) flow.state (some future))
      (current : flow.current = some (datagram, future)) (pending : flow.link.pending = none) :
      Staged sending bound flow (.flushing datagram)
  | failed (current : flow.current = none)
      (refused : ∃ result ∈ flow.sent, result.2.toBool = false) :
      Staged sending bound flow .failed

/-- What was received and what is ahead is what was accepted, with what is
written, datagram by datagram. -/
structure Holds (framing : Framing Phase) (view : ReaderView Phase Reader)
    (At : WriterView Phase Writer) (limit : Phase → Nat) (bound : Nat)
    (flow : Flow Writer Reader Sink State Future) (standing : Standing Reader) (middle : Phase)
    (tail : Bytes) (written : List Bytes) : Prop where
  carries : flow.link.Carries framing view At limit standing middle tail
  left : standing.left = []
  limit : limit middle = bound
  whole : ∀ payload ∈ standing.payloads, payload ≠ [] ∧ payload.length ≤ bound
  stopped : (view.Closed standing.reader ∨ ∃ read ∈ standing.incoming, read.stops = true) →
    flow.stopped = true
  closed : flow.closed = true → flow.stopped = true
  order : flow.received ++ standing.payloads = flow.accepted ++ written

section Holds

variable {framing : Framing Phase} {view : ReaderView Phase Reader} {At : WriterView Phase Writer}
  {limit : Phase → Nat} {sending : SenderView State Future} {bound : Nat}
  {ends : Ends Writer Reader Sink State Future} {flow : Flow Writer Reader Sink State Future}
  {standing : Standing Reader} {middle : Phase} {tail : Bytes} {stage : SendStage}
  {written : List Bytes} {link : Link Writer Reader Sink} {datagram : Bytes}

/-- Nothing but the link, what was received and how the session stands changes. -/
theorem Staged.of_link (staged : Staged sending bound flow stage)
    (pending : link.pending = flow.link.pending) (received : List Bytes) (closed stopped : Bool) :
    Staged sending bound { flow with link, received, closed, stopped } stage := by
  cases staged with
  | idle here idle none_pending => exact .idle here idle (pending.trans none_pending)
  | writing here busy offered some_bytes small =>
      exact .writing here busy (by rw [pending]; exact offered) some_bytes small
  | flushing here busy none_pending => exact .flushing here busy (pending.trans none_pending)
  | failed idle refused => exact .failed idle refused

theorem Staged.send (lawful : ends.Lawful framing view At limit sending bound)
    (staged : Staged sending bound flow stage) (allowed : flow.Allowed (.send datagram))
    (fits : flow.Fits bound (.send datagram)) :
    stage = .idle ∧ Staged sending bound
      { flow with current := some (datagram, ends.sender.sendTo datagram) }
      (.writing datagram) := by
  obtain ⟨some_bytes, small, unfailed⟩ := fits
  have nothing : flow.current = none := Option.isNone_iff_eq_none.mp allowed
  cases staged with
  | idle here current pending =>
      have none_pending : ∀ offered ∈ flow.link.pending, offered = datagram := by
        rw [pending]
        exact nofun
      exact ⟨rfl, .writing (lawful.sends.sendTo here some_bytes) rfl none_pending some_bytes small⟩
  | writing here current | flushing here current => cases nothing.symm.trans current
  | failed current refused =>
      obtain ⟨result, member, failed⟩ := refused
      cases (unfailed result member).symm.trans failed

theorem Holds.arrive (holds : Holds framing view At limit bound flow standing middle tail written)
    {read : PollRead} (allowed : flow.Allowed (.arrive read)) :
    Holds framing view At limit bound
      { flow with link := flow.link.arrive read, stopped := flow.stopped || read.stops }
        { standing with incoming := standing.incoming ++ [read] } middle tail written := by
  refine ⟨holds.carries.arrive allowed, holds.left, holds.limit, holds.whole, fun stops => ?_,
    fun closed => ?_, holds.order⟩
  · change (flow.stopped || read.stops) = true
    rcases stops with closed | ⟨other, member, stops⟩
    · rw [holds.stopped (Or.inl closed), Bool.true_or]
    · rcases List.mem_append.mp member with before | last
      · rw [holds.stopped (Or.inr ⟨other, before, stops⟩), Bool.true_or]
      · rw [← List.mem_singleton.mp last, stops, Bool.or_true]
  · change (flow.stopped || read.stops) = true
    rw [holds.closed closed, Bool.true_or]

theorem Holds.receive (lawful : ends.Lawful framing view At limit sending bound)
    (holds : Holds framing view At limit bound flow standing middle tail written) :
    ∃ link received closed later, let next := { flow with link, received, closed }
      step ends flow .receive = some next ∧
        Holds framing view At limit bound next later middle tail written ∧
          link.pending = flow.link.pending ∧ link.inFlight = flow.link.inFlight ∧
            (later.Busy none → standing.Busy none) ∧
              (flow.link.inFlight = [] → standing.Busy none → later.work < standing.work) := by
  obtain ⟨result, link, later, answer, carries, advance, -, inFlight, pending⟩ :=
    holds.carries.read lawful.reads lawful.writes ends.room
  have always : flow.Allowed .receive := trivial
  have taken : step ends flow .receive = some (flow.taken ends.recvFrom (result, link)) := by
    rw [step, if_pos always]
    exact congrArg (Option.map (flow.taken ends.recvFrom)) answer
  have stopped (stops : view.Closed later.reader ∨
      ∃ read ∈ later.incoming, read.stops = true) : flow.stopped = true := by
    rcases stops with closed | ⟨read, member, stops⟩
    · rcases advance.closes closed with closed | eof
      · exact holds.stopped (Or.inl closed)
      · exact holds.stopped (Or.inr ⟨_, eof, rfl⟩)
    · exact holds.stopped (Or.inr ⟨read, Standing.mem_of_suffix advance.suffix member, stops⟩)
  obtain ⟨opened, payloads, served⟩ := advance.served
  have whole : ∀ payload ∈ later.payloads, payload ≠ [] ∧ payload.length ≤ bound :=
    fun payload member => holds.whole payload (payloads ▸ List.mem_append_right opened member)
  have order := holds.order
  rw [payloads] at order
  suffices same : ∃ received closed, flow.taken ends.recvFrom (result, link) =
      { flow with link, received, closed } ∧ Holds framing view At limit bound
        { flow with link, received, closed } later middle tail written by
    obtain ⟨received, closed, same, holds'⟩ := same
    exact ⟨link, received, closed, later, taken.trans (congrArg some same), holds',
      pending, inFlight,
      advance.busy, advance.progress lawful.some_room⟩
  generalize left : later.left = rest at served
  cases served with
  | rest some_left => exact absurd holds.left some_left
  | payload payload =>
      obtain ⟨some_bytes, small⟩ := holds.whole payload (by rw [payloads]; exact List.mem_cons_self)
      have fits : payload.length ≤ ends.room := small.trans lawful.room
      rw [List.take_of_length_le fits, Flow.taken, lawful.gives some_bytes]
      rw [List.drop_of_length_le fits] at left
      rw [← List.append_assoc] at order
      exact ⟨_, _, rfl, carries, left, holds.limit, whole, stopped, holds.closed, order⟩
  | nothing bytes because =>
      rw [holds.left] at left
      rcases PollRead.pending_or_stops bytes with rfl | stops
      · rw [Flow.taken, lawful.waits]
        exact ⟨_, _, rfl, carries, left, holds.limit, whole, stopped, holds.closed, order⟩
      · obtain ⟨error, failed⟩ := lawful.closes stops
        have ended : flow.stopped = true := by
          rcases because with rfl | stopped
          · cases stops
          · exact holds.stopped stopped
        rw [Flow.taken, failed]
        exact ⟨_, _, rfl, carries, left, holds.limit, whole, stopped, fun _ => ended, order⟩

def Onward (framing : Framing Phase) (view : ReaderView Phase Reader)
    (At : WriterView Phase Writer) (limit : Phase → Nat) (sending : SenderView State Future)
    (bound : Nat) (flow : Flow Writer Reader Sink State Future) (datagram : Bytes)
    (out : Option (Poll (Except String Nat) × State × Future × Link Writer Reader Sink)) : Prop :=
  ∃ answer standing middle tail stage, out = some answer ∧
    Holds framing view At limit bound (flow.polled datagram answer) standing middle tail
      (SendStage.written stage) ∧ Staged sending bound (flow.polled datagram answer) stage

theorem Holds.finish (lawful : ends.Lawful framing view At limit sending bound)
    (holds : Holds framing view At limit bound { flow with link } standing middle tail [datagram])
    (pending : link.pending = none)
    {out : Option (Poll (Except String Nat) × State × Future × Link Writer Reader Sink)}
    (finishes : Finishes sending datagram (link.flush ends.io) out) :
    Onward framing view At limit sending bound flow datagram out := by
  have unfailed (error : String) : (link.flush ends.io).1 ≠ .ready (.error error) :=
    lawful.flushes link.sink error
  have flushed := holds.carries.flush ends.io
  have still : (link.flush ends.io).2.pending = none := pending
  revert flushed still unfailed
  change _ → Link.Carries _ _ _ _ (link.flush ends.io).2 _ _ _ → _
  generalize link.flush ends.io = wrote at finishes
  intro unfailed flushed still
  cases finishes with
  | @waits state future inner here =>
      exact ⟨_, standing, middle, tail, .flushing datagram, rfl, ⟨flushed, holds.left, holds.limit,
        holds.whole, holds.stopped, holds.closed, holds.order⟩, .flushing here rfl still⟩
  | @done state future inner count here =>
      refine ⟨_, standing, middle, tail, .idle, rfl, ⟨flushed, holds.left, holds.limit, holds.whole,
        holds.stopped, holds.closed, ?_⟩, .idle here rfl still⟩
      change flow.received ++ standing.payloads = List.filterMap _ (flow.sent ++ [_]) ++ []
      rw [List.append_nil, List.filterMap_append]
      exact holds.order
  | fails => exact absurd rfl (unfailed _)

theorem Holds.poll (lawful : ends.Lawful framing view At limit sending bound)
    (holds : Holds framing view At limit bound flow standing middle tail stage.written)
    (staged : Staged sending bound flow stage) {future : Future}
    (current : flow.current = some (datagram, future)) :
    Onward framing view At limit sending bound flow datagram
      (ends.sender.poll ends.outlet flow.state future flow.link) := by
  cases staged with
  | idle here idle | failed idle => cases idle.symm.trans current
  | flushing here busy pending =>
      cases busy.symm.trans current
      exact holds.finish lawful pending (lawful.sends.flushing ends.outlet flow.link here)
  | writing here busy pending some_bytes small =>
      cases busy.symm.trans current
      have allowed : flow.link.Allowed (.write datagram) := fun offered member =>
        pending offered member ▸ List.prefix_rfl
      obtain ⟨result, link, written, wrote⟩ := holds.carries.write lawful.writes allowed
      have first : flow.link.pending.getD datagram = datagram := by
        cases same : flow.link.pending with
        | none => rfl
        | some offered => exact pending offered same
      have taken : datagram.take (limit middle) = datagram :=
        List.take_of_length_le (holds.limit ▸ small)
      rw [first] at wrote
      have goes (answered : ∀ count, result = .ready (.ok count) → count = datagram.length) :=
        lawful.sends.writing ends.outlet here some_bytes written answered
      cases wrote with
      | @whole next after settled steady carries =>
          rw [taken] at carries goes
          have whole : ∀ payload ∈ standing.payloads ++ [datagram],
              payload ≠ [] ∧ payload.length ≤ bound := by
            intro payload member
            rcases List.mem_append.mp member with before | last
            · exact holds.whole payload before
            · rw [List.mem_singleton.mp last]
              exact ⟨some_bytes, small⟩
          have before : flow.received ++ standing.payloads = flow.accepted ++ [] := holds.order
          have order : flow.received ++ (standing.payloads ++ [datagram]) =
              flow.accepted ++ [datagram] := by
            rw [← List.append_assoc, before, List.append_nil]
          have holds' : Holds framing view At limit bound { flow with link }
              { standing with payloads := standing.payloads ++ [datagram] } next [] [datagram] :=
            ⟨carries, holds.left, steady.trans holds.limit, whole, holds.stopped,
              holds.closed, order⟩
          have goes := goes fun count same => by cases same; rfl
          cases goes with
          | writes finishes => exact holds'.finish lawful settled finishes
      | part unanswered open_still carries =>
          have goes := goes fun count same => absurd same (unanswered count)
          generalize ends.sender.poll ends.outlet flow.state future flow.link = out at goes ⊢
          cases goes with
          | @waits state future inner here =>
              refine ⟨_, standing, middle, _, .writing datagram, rfl, ⟨carries, holds.left,
                holds.limit, holds.whole, holds.stopped, holds.closed, holds.order⟩,
                .writing here rfl (fun offered member => ?_) some_bytes small⟩
              have same : some datagram = some offered := open_still.symm.trans member
              exact (Option.some.inj same).symm
          | @fails error text state future inner =>
              refine ⟨_, standing, middle, _, .failed, rfl, ⟨carries, holds.left, holds.limit,
                holds.whole, holds.stopped, holds.closed, ?_⟩,
                .failed rfl ⟨(datagram, .error text), ?_, rfl⟩⟩
              · change _ = List.filterMap _ (flow.sent ++ [(datagram, .error text)]) ++ []
                rw [List.filterMap_append, List.append_nil]
                exact holds.order
              · exact List.mem_append_right _ List.mem_cons_self
          | writes => exact absurd rfl (unanswered _)

def Carried (framing : Framing Phase) (view : ReaderView Phase Reader)
    (At : WriterView Phase Writer) (limit : Phase → Nat) (sending : SenderView State Future)
    (bound : Nat) (flow : Flow Writer Reader Sink State Future) : Prop :=
  ∃ standing middle tail stage,
    Holds framing view At limit bound flow standing middle tail (SendStage.written stage) ∧
      Staged sending bound flow stage

theorem Carried.start {reader : Reader} {state : State}
    (carries : link.Carries framing view At limit ⟨reader, [], [], []⟩ middle tail)
    (opened : ¬view.Closed reader) (pending : link.pending = none)
    (idle : sending .idle state none) :
    Carried framing view At limit sending (limit middle) (Flow.start link state) := by
  refine ⟨⟨reader, [], [], []⟩, middle, tail, .idle, ⟨carries, rfl, rfl, nofun, fun stops => ?_,
    nofun, rfl⟩, .idle idle rfl pending⟩
  rcases stops with closed | ⟨read, member, -⟩
  · exact absurd closed opened
  · cases member

/-- Every event that is allowed is answered; where it hands over no datagram that
does not fit, all holds after it. -/
theorem Carried.answers (lawful : ends.Lawful framing view At limit sending bound)
    (carried : Carried framing view At limit sending bound flow) {event : FlowEvent}
    (allowed : flow.Allowed event) :
    ∃ next, step ends flow event = some next ∧
      (flow.Fits bound event → Carried framing view At limit sending bound next) := by
  obtain ⟨standing, middle, tail, stage, holds, staged⟩ := carried
  cases event with
  | send datagram =>
      refine ⟨_, by rw [step, if_pos allowed], fun fits => ?_⟩
      obtain ⟨rfl, staged'⟩ := staged.send lawful allowed fits
      exact ⟨standing, middle, tail, .writing datagram, ⟨holds.carries, holds.left, holds.limit,
        holds.whole, holds.stopped, holds.closed, holds.order⟩, staged'⟩
  | poll =>
      obtain ⟨⟨datagram, future⟩, current⟩ := Option.isSome_iff_exists.mp allowed
      obtain ⟨answer, standing', middle', tail', stage', out, holds', staged'⟩ :=
        holds.poll lawful staged current
      refine ⟨flow.polled datagram answer, ?_, fun _ => ⟨_, _, _, _, holds', staged'⟩⟩
      rw [step, if_pos allowed]
      dsimp only
      rw [current]
      exact congrArg (Option.map (flow.polled datagram)) out
  | arrive read =>
      refine ⟨_, by rw [step, if_pos allowed], fun _ => ?_⟩
      have pending : (flow.link.arrive read).pending = flow.link.pending := rfl
      exact ⟨_, _, _, _, holds.arrive allowed, staged.of_link pending _ _ _⟩
  | receive =>
      obtain ⟨link, received, closed, later, taken, holds', pending, -⟩ := holds.receive lawful
      exact ⟨_, taken, fun _ => ⟨_, _, _, _, holds', staged.of_link pending _ _ _⟩⟩

theorem Carried.step (lawful : ends.Lawful framing view At limit sending bound)
    (carried : Carried framing view At limit sending bound flow) {event : FlowEvent}
    {next : Flow Writer Reader Sink State Future} (fits : flow.Fits bound event)
    (taken : Flow.step ends flow event = some next) :
    Carried framing view At limit sending bound next := by
  by_cases allowed : flow.Allowed event
  · obtain ⟨after, same, onward⟩ := carried.answers lawful allowed
    cases same.symm.trans taken
    exact onward fits
  · rw [Flow.step.eq_def, if_neg allowed] at taken
    cases taken

theorem Holds.drain (lawful : ends.Lawful framing view At limit sending bound)
    (holds : Holds framing view At limit bound flow standing middle tail written)
    (sent : flow.link.inFlight = []) {count : Nat}
    (enough : standing.Busy none → standing.work ≤ count) :
    ∃ final, Machine.run (Flow.step ends) flow (List.replicate count .receive) = some final ∧
      final.received = flow.accepted ++ written := by
  induction count generalizing flow standing with
  | zero =>
      have idle : standing.payloads = [] := by
        by_contra some_ahead
        have nothing := Nat.le_zero.mp (enough (Or.inr (Or.inl some_ahead)))
        unfold Standing.work at nothing
        exact some_ahead (List.length_eq_zero_iff.mp (by omega))
      refine ⟨flow, rfl, ?_⟩
      rw [← holds.order, idle, List.append_nil]
  | succ count ih =>
      obtain ⟨link, received, closed, later, taken, holds', -, inFlight, still, less⟩ :=
        holds.receive lawful
      rw [List.replicate_succ, Machine.run_cons_of taken]
      refine ih holds' (inFlight.trans sent) fun busy => ?_
      have busy := still busy
      have := less sent busy
      have := enough busy
      omega

theorem Carried.keeps (lawful : ends.Lawful framing view At limit sending bound)
    (carried : Carried framing view At limit sending bound flow) : Keeps ends flow := by
  have answers (event : FlowEvent) (allowed : flow.Allowed event) :
      ∃ next, Flow.step ends flow event = some next := by
    obtain ⟨next, taken, -⟩ := carried.answers lawful allowed
    exact ⟨next, taken⟩
  obtain ⟨standing, middle, tail, stage, holds, staged⟩ := carried
  refine ⟨?_, fun sent => ?_, holds.closed, answers⟩
  · have ahead : flow.received <+: flow.accepted ++ stage.written := ⟨_, holds.order⟩
    refine ahead.trans ?_
    rw [List.prefix_append_right_inj]
    cases staged with
    | idle | writing | failed => exact List.nil_prefix
    | flushing here current pending =>
        rw [current]
        exact List.prefix_rfl
  · refine ⟨standing.work, fun count enough => ?_⟩
    obtain ⟨final, ran, received⟩ := holds.drain lawful sent fun _ => enough
    exact ⟨final, ran, received ▸ List.prefix_append ..⟩

end Holds

end Flow

end Framed

end QuicProxy
