import QuicProxy.Proxy.Anytls.Carried

namespace QuicProxy

/-! What the TCP streams of a session, at either side, read of the frames that
it receives. -/

/-- A session with what its objects have received and delivered, in order, those
that have ended, those that a read with room has found at an end, and whether
the end of an object has taken the entry of another stream. -/
structure Demux where
  session : Session
  received : List (Nat × Bytes)
  delivered : List (Nat × Bytes)
  gone : List Nat
  zeros : List Nat
  robbed : Bool

namespace Demux

def start (side : SessionSide) (settings : Bytes) : Demux :=
  ⟨.start side settings, [], [], [], [], false⟩

def step (demux : Demux) (event : Session.Event) : Option Demux :=
  (demux.session.step event).map fun session =>
    { session
      received := demux.received ++ (demux.session.pushed event).toList
      delivered :=
        demux.delivered ++ ((demux.session.reads event).map fun (handle, _, data) =>
          (handle, data)).toList
      gone := demux.gone ++ demux.session.endedBy event
      zeros :=
        demux.zeros ++ ((demux.session.reads event).filter fun (_, size, data) =>
          decide (0 < size) && data.isEmpty).toList.map Prod.fst
      robbed := demux.robbed || demux.session.takes session event }

def bytesOf (entries : List (Nat × Bytes)) (handle : Nat) : Bytes :=
  (entries.filter fun entry => entry.1 = handle).flatMap Prod.snd

/-- What `poll_read` has delivered of a TCP stream and what waits for it is what
was received for it while it was registered.  A read with room gives no bytes
only when all have been delivered and the stream has ended, or the session has.
The end of an object leaves all that is registered for others where it is. -/
structure Faithful (demux : Demux) : Prop where
  exact : ∀ (handle : Nat) (stream : StreamHandle), demux.session.handles[handle]? = some stream →
    stream.udp = false → stream.live = true →
      bytesOf demux.delivered handle ++ (demux.session.pipe handle stream).contents =
        bytesOf demux.received handle
  ends : ∀ handle ∈ demux.zeros, demux.session.TcpLive handle →
    bytesOf demux.delivered handle = bytesOf demux.received handle ∧
      (demux.session.closed = false → handle ∈ demux.gone)
  keeps : demux.robbed = false

/-! What a step adds. -/

theorem bytesOf_append (entries : List (Nat × Bytes)) (more : Option (Nat × Bytes))
    (handle : Nat) :
    bytesOf (entries ++ more.toList) handle =
      bytesOf entries handle ++
        ((more.filter fun entry => entry.1 = handle).map Prod.snd).getD [] := by
  unfold bytesOf
  rw [List.filter_append, List.flatMap_append]
  cases more with
  | none => rfl
  | some entry =>
      refine congrArg _ ?_
      change List.flatMap Prod.snd (List.filter _ [entry]) = _
      rw [List.filter_cons, Option.filter_some]
      split
      · exact List.append_nil _
      · rfl

section Step

variable {demux next : Demux} {event : Session.Event}

theorem session_step (taken : demux.step event = some next) :
    demux.session.step event = some next.session := by
  obtain ⟨session, moved, rfl⟩ := Option.map_eq_some_iff.mp taken
  exact moved

theorem received_step (taken : demux.step event = some next) (handle : Nat) :
    bytesOf next.received handle =
      bytesOf demux.received handle ++ (demux.session.pushedTo event handle).getD [] := by
  obtain ⟨session, moved, rfl⟩ := Option.map_eq_some_iff.mp taken
  exact bytesOf_append ..

theorem delivered_step (taken : demux.step event = some next) (handle : Nat) :
    bytesOf next.delivered handle =
      bytesOf demux.delivered handle ++
        ((demux.session.readsOf event handle).map Prod.snd).getD [] := by
  obtain ⟨session, moved, rfl⟩ := Option.map_eq_some_iff.mp taken
  refine (bytesOf_append ..).trans (congrArg _ ?_)
  unfold Session.readsOf
  cases demux.session.reads event with
  | none => rfl
  | some entry =>
      obtain ⟨other, size, data⟩ := entry
      simp only [Option.map_some, Option.filter_some]
      split
      · rfl
      · rfl

theorem zeros_step (taken : demux.step event = some next) {handle : Nat}
    (member : handle ∈ next.zeros) :
    handle ∈ demux.zeros ∨
      ∃ size, 0 < size ∧ demux.session.readsOf event handle = some (size, []) := by
  obtain ⟨session, moved, rfl⟩ := Option.map_eq_some_iff.mp taken
  refine (List.mem_append.mp member).imp_right fun new => ?_
  obtain ⟨⟨_, size, data⟩, found, rfl⟩ := List.mem_map.mp new
  obtain ⟨reads, zero⟩ := Option.filter_eq_some_iff.mp (Option.mem_toList.mp found)
  obtain ⟨room, empty⟩ := Bool.and_eq_true_iff.mp zero
  refine ⟨size, of_decide_eq_true room, ?_⟩
  rw [Session.readsOf, reads, Option.filter_some, if_pos (decide_eq_true rfl), Option.map_some,
    List.isEmpty_iff.mp empty]

theorem gone_step (taken : demux.step event = some next) {handle : Nat} :
    handle ∈ next.gone ↔ handle ∈ demux.gone ∨ handle ∈ demux.session.endedBy event := by
  obtain ⟨session, moved, rfl⟩ := Option.map_eq_some_iff.mp taken
  exact List.mem_append

/-- The pipes of the streams in use carry what was received, and their reads
find no end before it has come. -/
structure Kept (demux : Demux) : Prop where
  wired : demux.session.Wired
  known : ∀ handle, demux.session.handles[handle]? = none →
    bytesOf demux.received handle = [] ∧ bytesOf demux.delivered handle = [] ∧
      handle ∉ demux.zeros
  exact : ∀ (handle : Nat) (stream : StreamHandle), demux.session.handles[handle]? = some stream →
    stream.udp = false → stream.live = true →
      bytesOf demux.delivered handle ++ (demux.session.pipe handle stream).contents =
        bytesOf demux.received handle
  full : ∀ (handle : Nat) (stream : StreamHandle), demux.session.handles[handle]? = some stream →
    stream.udp = false → stream.live = true → [] ∉ (demux.session.pipe handle stream).chunks
  attached : ∀ (handle : Nat) (stream : StreamHandle),
    demux.session.handles[handle]? = some stream → stream.udp = false → stream.live = true →
      demux.session.Registered stream.streamId handle ∨ handle ∈ demux.gone ∨
        demux.session.closed = true
  spent : ∀ (handle : Nat) (stream : StreamHandle), demux.session.handles[handle]? = some stream →
    stream.udp = false → stream.live = true → handle ∈ demux.zeros →
      (demux.session.pipe handle stream).Spent ∧
        (demux.session.closed = false → handle ∈ demux.gone)
  keeps : demux.robbed = false

theorem kept_start (side : SessionSide) (settings : Bytes) : (start side settings).Kept where
  wired := Session.wired_start side settings
  known := fun _ _ => ⟨rfl, rfl, List.not_mem_nil⟩
  exact := nofun
  full := nofun
  attached := nofun
  spent := nofun
  keeps := rfl

theorem Kept.faithful (kept : demux.Kept) : demux.Faithful where
  exact := kept.exact
  ends := fun handle member inUse => by
    obtain ⟨stream, there, tcp, live⟩ := inUse
    obtain ⟨spent, ended⟩ := kept.spent handle stream there tcp live member
    have exact := kept.exact handle stream there tcp live
    rw [spent.contents, List.append_nil] at exact
    exact ⟨exact, ended⟩
  keeps := kept.keeps

theorem Kept.absent (kept : demux.Kept) (event : Session.Event) {handle : Nat}
    (absent : demux.session.handles[handle]? = none) :
    demux.session.pushedTo event handle = none ∧ demux.session.readsOf event handle = none := by
  refine ⟨?_, ?_⟩
  · rw [Session.pushedTo, Option.map_eq_none_iff, Option.filter_eq_none_iff]
    intro entry pushed same
    obtain ⟨stream, was⟩ := Session.inRange_of_pushed kept.wired pushed
    rw [of_decide_eq_true same, absent] at was
    cases was
  · rw [Session.readsOf, Option.map_eq_none_iff, Option.filter_eq_none_iff]
    intro entry reads same
    obtain ⟨stream, was⟩ := Session.inRange_of_reads reads
    rw [of_decide_eq_true same, absent] at was
    cases was

theorem Kept.known_step (kept : demux.Kept) (taken : demux.step event = some next) {handle : Nat}
    (new : demux.session.handles.length ≤ handle) :
    bytesOf next.received handle = [] ∧ bytesOf next.delivered handle = [] ∧
      handle ∉ next.zeros := by
  have absent := List.getElem?_eq_none new
  obtain ⟨received, delivered, zeros⟩ := kept.known handle absent
  obtain ⟨pushed, reads⟩ := kept.absent event absent
  rw [received_step taken, delivered_step taken, received, delivered, pushed, reads]
  refine ⟨rfl, rfl, fun member => ?_⟩
  rcases zeros_step taken member with before | ⟨size, -, now⟩
  · exact zeros before
  · rw [reads] at now
    cases now

theorem Kept.exact_step (kept : demux.Kept) (keeps : demux.session.KeepsStreams event)
    (taken : demux.step event = some next) (handle : Nat) (other : StreamHandle)
    (there : next.session.handles[handle]? = some other) (tcp : other.udp = false)
    (live : other.live = true) :
    bytesOf next.delivered handle ++ (next.session.pipe handle other).contents =
      bytesOf next.received handle := by
  have carried := Session.carried_step kept.wired keeps (session_step taken)
  rcases carried.found there tcp live with ⟨new, -, buffer, chunks⟩ | ⟨stream, was, kin, step⟩
  · obtain ⟨received, delivered, -⟩ := kept.known_step taken new
    rw [received, delivered, Pipe.contents, buffer, chunks]
    rfl
  · have exact := kept.exact handle stream was (kin.udp.symm.trans tcp) (kin.live live)
    rw [received_step taken, delivered_step taken, List.append_assoc, step.conserves,
      ← List.append_assoc, exact]

theorem Kept.full_step (kept : demux.Kept) (keeps : demux.session.KeepsStreams event)
    (taken : demux.step event = some next) (handle : Nat) (other : StreamHandle)
    (there : next.session.handles[handle]? = some other) (tcp : other.udp = false)
    (live : other.live = true) : [] ∉ (next.session.pipe handle other).chunks := by
  have carried := Session.carried_step kept.wired keeps (session_step taken)
  rcases carried.found there tcp live with ⟨-, -, -, chunks⟩ | ⟨stream, was, kin, step⟩
  · rw [chunks]
    exact List.not_mem_nil
  · have tcp' := kin.udp.symm.trans tcp
    have live' := kin.live live
    refine step.full (kept.full handle stream was tcp' live') fun empty => ?_
    -- An empty PSH is not for a stream that is in use.
    obtain ⟨entry, filtered, nothing⟩ := Option.map_eq_some_iff.mp empty
    obtain ⟨pushed, own⟩ := Option.filter_eq_some_iff.mp filtered
    obtain ⟨target, data⟩ := entry
    cases nothing
    cases of_decide_eq_true own
    exact keeps.full (target, []) pushed rfl ⟨stream, was, tcp', live'⟩

theorem Kept.attached_step (kept : demux.Kept) (keeps : demux.session.KeepsStreams event)
    (taken : demux.step event = some next) (handle : Nat) (other : StreamHandle)
    (there : next.session.handles[handle]? = some other) (tcp : other.udp = false)
    (live : other.live = true) :
    next.session.Registered other.streamId handle ∨ handle ∈ next.gone ∨
      next.session.closed = true := by
  have carried := Session.carried_step kept.wired keeps (session_step taken)
  rcases carried.found there tcp live with ⟨-, entry, -⟩ | ⟨stream, was, kin, -⟩
  · exact Or.inl entry
  · rw [kin.streamId]
    rcases kept.attached handle stream was (kin.udp.symm.trans tcp) (kin.live live) with
      entry | gone | closed
    · rcases carried.kept entry with still | ended | closed | gone
      · exact Or.inl still
      · exact Or.inr (Or.inl ((gone_step taken).mpr (Or.inr ended)))
      · exact Or.inr (Or.inr closed)
      · exact absurd ⟨other, there, tcp, live⟩ gone
    · exact Or.inr (Or.inl ((gone_step taken).mpr (Or.inl gone)))
    · exact Or.inr (Or.inr (carried.closed closed))

theorem Kept.spent_step (kept : demux.Kept) (keeps : demux.session.KeepsStreams event)
    (taken : demux.step event = some next) (handle : Nat) (other : StreamHandle)
    (there : next.session.handles[handle]? = some other) (tcp : other.udp = false)
    (live : other.live = true) (member : handle ∈ next.zeros) :
    (next.session.pipe handle other).Spent ∧
      (next.session.closed = false → handle ∈ next.gone) := by
  have carried := Session.carried_step kept.wired keeps (session_step taken)
  have stillOpen (open' : next.session.closed = false) : demux.session.closed = false := by
    rw [← Bool.not_eq_true]
    intro closed
    rw [carried.closed closed] at open'
    cases open'
  rcases carried.found there tcp live with ⟨new, -⟩ | ⟨stream, was, kin, step⟩
  · exact absurd member (kept.known_step taken new).2.2
  · have tcp' := kin.udp.symm.trans tcp
    have live' := kin.live live
    rcases zeros_step taken member with before | ⟨size, room, now⟩
    · obtain ⟨spent, ended⟩ := kept.spent handle stream was tcp' live' before
      refine ⟨(spent.step step).1, fun open' => ?_⟩
      exact (gone_step taken).mpr (Or.inl (ended (stillOpen open')))
    · obtain ⟨spent, same⟩ := step.spent (kept.full handle stream was tcp' live') now room
      refine ⟨same ▸ spent, fun open' => (gone_step taken).mpr (Or.inl ?_)⟩
      rcases kept.attached handle stream was tcp' live' with entry | gone | closed
      · have linked : demux.session.hasSender handle stream = true :=
          (Session.hasSender_iff ..).mpr (Or.inl entry)
        exact absurd (linked.symm.trans spent.linked) nofun
      · exact gone
      · rw [stillOpen open'] at closed
        cases closed

theorem Kept.step (kept : demux.Kept) (keeps : demux.session.KeepsStreams event)
    (taken : demux.step event = some next) : next.Kept where
  wired := (Session.carried_step kept.wired keeps (session_step taken)).wired
  known := fun handle none => by
    have carried := Session.carried_step kept.wired keeps (session_step taken)
    have new := List.getElem?_eq_none_iff.mp none
    exact kept.known_step taken (Nat.le_trans carried.length new)
  exact := kept.exact_step keeps taken
  full := kept.full_step keeps taken
  attached := kept.attached_step keeps taken
  spent := kept.spent_step keeps taken
  keeps := by
    obtain ⟨session, moved, rfl⟩ := Option.map_eq_some_iff.mp taken
    change (demux.robbed || demux.session.takes session event) = false
    rw [kept.keeps, Session.takes_of_not_robs keeps.robs moved]
    rfl

end Step

/-- Streams read what their frames carry, and no end but their own, in every run
in which no PSH of a stream in use is empty, no end of an object removes the
entry of another, and no id of a stream in use is registered again. -/
theorem faithful_of_keepsStreams (side : SessionSide) (settings : Bytes)
    (events : List Session.Event)
    (keeps : Machine.Within step (fun demux event => demux.session.KeepsStreams event)
      (start side settings) events) :
    Machine.Throughout step Faithful (start side settings) events := by
  have kept : Machine.Throughout step Kept (start side settings) events := by
    refine Machine.throughout_of_within Kept ?_ (kept_start side settings) keeps
    intro demux event next kept keeps taken
    exact kept.step keeps taken
  exact Machine.throughout_mono Kept.faithful kept

def target : Bytes := [1, 192, 0, 2, 1, 0, 80]

def readToEnd : List Session.Event :=
  [.frame ⟨1, .syn, []⟩, .frame ⟨1, .psh, target⟩, .frame ⟨2, .syn, []⟩,
    .frame ⟨1, .psh, [7, 8]⟩, .frame ⟨2, .psh, target⟩, .frame ⟨2, .psh, [9]⟩, .read 0 1,
    .frame ⟨1, .fin, []⟩, .read 0 1, .read 0 1, .drop 0, .read 1 1]

theorem faithful_readToEnd :
    Machine.Throughout step Faithful (start .server []) readToEnd ∧
      ∃ final, Machine.run step (start .server []) readToEnd = some final ∧
        bytesOf final.delivered 0 = [7, 8] ∧ final.zeros = [0] ∧ bytesOf final.delivered 1 = [9] :=
  ⟨faithful_of_keepsStreams .server [] readToEnd (by decide), _, rfl, rfl, rfl, rfl⟩

def emptyPush : List Session.Event :=
  [.connect false (.ip (.v4 ⟨192, 0, 2, 1⟩ 443)), .connectSend 0, .connectSend 0,
    .frame ⟨1, .psh, []⟩, .read 0 1]

def reusedId : List Session.Event :=
  [.frame ⟨1, .syn, []⟩, .frame ⟨1, .psh, target⟩, .frame ⟨1, .fin, []⟩, .frame ⟨1, .syn, []⟩,
    .frame ⟨1, .psh, target⟩, .drop 0, .read 1 1]

/-- An empty PSH reads as an end, and the drop of an old stream ends a new one
that reuses its id. -/
theorem empty_push_and_reused_id :
    (∃ final, Machine.run step (start (.client false) []) emptyPush = some final ∧
        final.zeros = [0] ∧ final.gone = [] ∧ ¬final.Faithful) ∧
      ∃ final, Machine.run step (start .server []) reusedId = some final ∧
        final.zeros = [1] ∧ final.gone = [0] ∧ ¬final.Faithful := by
  refine ⟨⟨_, rfl, rfl, rfl, fun faithful => ?_⟩, _, rfl, rfl, rfl, fun faithful => ?_⟩
  · have ended := (faithful.ends 0 (List.mem_singleton.mpr rfl) (by decide)).2 rfl
    cases ended
  · exact absurd faithful.keeps nofun

end Demux

end QuicProxy
