import QuicProxy.Proxy.Anytls.Channels

namespace QuicProxy

/-! What a step of a session, at either side, means for its TCP streams: a step
of the pipe of each. -/

namespace Session

/-! What a step means for the streams. -/

def activeUnder (session : Session) (streamId : UInt32) : Option Nat :=
  match session.streams.lookup streamId with
  | some (.active handle) => some handle
  | _ => none

/-- The payload of a PSH, for the object that is registered under its id. -/
def pushed (session : Session) : Event → Option (Nat × Bytes)
  | .frame frame =>
      match frame.cmd with
      | .psh => (session.activeUnder frame.streamId).map (·, frame.data)
      | _ => none
  | _ => none

/-- A `poll_read` of a TCP stream that is Ready without an error, with the size
of its buffer and the bytes that it fills in. -/
def reads (session : Session) : Event → Option (Nat × Nat × Bytes)
  | .read handle size =>
      match session.user handle with
      | some stream =>
          if stream.udp then none
          else
            (readTcp (session.hasSender handle stream) size stream).1.outcome.map (handle, size, ·)
      | none => none
  | _ => none

/-- The registered objects whose Fin, error SynAck or Alert the frame is. -/
def endedBy (session : Session) : Event → List Nat
  | .frame frame =>
      match frame.cmd, session.side with
      | .fin, _ => (session.activeUnder frame.streamId).toList
      | .synAck, .client _ =>
          if frame.data.isEmpty then [] else (session.activeUnder frame.streamId).toList
      | .alert, _ => session.streams.keys.filterMap session.activeUnder
      | _, _ => []
  | _ => []

/-- What is registered under the id belongs to something else. -/
def foreign (session : Session) (handle : Nat) (streamId : UInt32) : Bool :=
  (session.streams.lookup streamId).any (· ≠ .active handle)

/-- The end of an object removes what another stream has registered. -/
def robs (session : Session) : Event → Bool
  | .drop handle => (session.user handle).any fun stream => session.foreign handle stream.streamId
  | .deliver =>
      session.readLoop.pending.any fun (streamId, handle, _) =>
        session.handles[handle]?.any (!·.live) && session.foreign handle streamId
  | _ => false

/-- The object that the step ends: it is dropped, or a blocked delivery finds it dead. -/
def endsObject (session : Session) : Event → Option Nat
  | .drop handle => (session.user handle).map fun _ => handle
  | .deliver =>
      (session.readLoop.pending.filter fun (_, handle, _) =>
        session.handles[handle]?.any (!·.live)).map fun (_, handle, _) => handle
  | _ => none

/-- The step ends an object, and an entry that is not the object's own is gone or another
one behind it. -/
def takes (session next : Session) (event : Event) : Bool :=
  (session.endsObject event).any fun handle => session.streams.keys.any fun streamId =>
    session.foreign handle streamId &&
      decide (next.streams.lookup streamId ≠ session.streams.lookup streamId)

def registers (session : Session) : Event → Option UInt32
  | .frame frame =>
      match frame.cmd, session.side with
      | .syn, .server => some frame.streamId
      | _, _ => none
  | .connect _ _ =>
      match session.side with
      | .client _ => some session.nextStreamId
      | .server => none
  | _ => none

/-- A TCP stream whose object has not been dropped. -/
def TcpLive (session : Session) (handle : Nat) : Prop :=
  ∃ stream, session.handles[handle]? = some stream ∧ stream.udp = false ∧ stream.live = true

instance (session : Session) (handle : Nat) : Decidable (session.TcpLive handle) :=
  decidable_of_iff
    ((session.handles[handle]?.any fun stream => !stream.udp && stream.live) = true) <| by
      rw [Option.any_eq_true]
      simp only [Bool.and_eq_true, Bool.not_eq_true', TcpLive]

/-- The condition on a step: no PSH of a TCP stream is empty, no end of an
object removes the entry of another stream, and no id is registered again under
a TCP stream that is in use. -/
structure KeepsStreams (session : Session) (event : Event) : Prop where
  full : ∀ entry ∈ session.pushed event, entry.2 = [] → ¬session.TcpLive entry.1
  robs : session.robs event = false
  fresh : ∀ streamId ∈ session.registers event, ∀ handle ∈ session.activeUnder streamId,
    ¬session.TcpLive handle

instance (session : Session) (event : Event) : Decidable (session.KeepsStreams event) :=
  -- not by running through every id, as an instance for finite types would
  haveI : Decidable (∀ streamId ∈ session.registers event,
      ∀ handle ∈ session.activeUnder streamId, ¬session.TcpLive handle) :=
    Option.decidableForallMem _
  decidable_of_iff
    ((∀ entry ∈ session.pushed event, entry.2 = [] → ¬session.TcpLive entry.1) ∧
      session.robs event = false ∧
        ∀ streamId ∈ session.registers event, ∀ handle ∈ session.activeUnder streamId,
          ¬session.TcpLive handle)
    ⟨fun all => ⟨all.1, all.2.1, all.2.2⟩, fun keeps => ⟨keeps.full, keeps.robs, keeps.fresh⟩⟩

def pushedTo (session : Session) (event : Event) (handle : Nat) : Option Bytes :=
  ((session.pushed event).filter fun entry => entry.1 = handle).map Prod.snd

def readsOf (session : Session) (event : Event) (handle : Nat) : Option (Nat × Bytes) :=
  ((session.reads event).filter fun entry => entry.1 = handle).map Prod.snd

/-- Every stream that is in use keeps its entry, unless it ends or the session
does, and takes a step of its pipe. -/
structure Carried (session next : Session) (event : Event) : Prop where
  wired : next.Wired
  length : session.handles.length ≤ next.handles.length
  closed : session.closed = true → next.closed = true
  kept : ∀ {streamId handle}, session.Registered streamId handle →
    next.Registered streamId handle ∨ handle ∈ session.endedBy event ∨ next.closed = true ∨
      ¬next.TcpLive handle
  found : ∀ {handle : Nat} {other : StreamHandle}, next.handles[handle]? = some other →
    other.udp = false → other.live = true →
      session.handles.length ≤ handle ∧ next.Registered other.streamId handle ∧
          (next.pipe handle other).buffer = [] ∧ (next.pipe handle other).chunks = [] ∨
        ∃ stream, session.handles[handle]? = some stream ∧ Kin stream other ∧
          (session.pipe handle stream).Step (session.pushedTo event handle)
            (session.readsOf event handle) (next.pipe handle other)

variable {session next : Session} {event : Event}

theorem Fades.carried {lost : Nat → Prop} (fades : Fades session next lost)
    (pushed : ∀ handle, session.pushedTo event handle = none ∨ ¬next.TcpLive handle)
    (reads : session.reads event = none)
    (excused : ∀ handle, lost handle → handle ∈ session.endedBy event ∨ next.closed = true ∨
      ¬next.TcpLive handle) : Carried session next event where
  wired := fades.wired
  length := Nat.le_of_eq fades.length.symm
  closed := fades.closed
  kept := fun entry => (fades.kept entry).imp_right (excused _)
  found := fun {handle other} there tcp live => by
    obtain ⟨stream, was, kin, fade⟩ := fades.found there
    refine Or.inr ⟨stream, was, kin, ?_⟩
    rw [(pushed handle).resolve_right (not_not_intro ⟨other, there, tcp, live⟩), readsOf, reads]
    exact (fade tcp).step

theorem pushedTo_eq_none (pushed : session.pushed event = none) (handle : Nat) :
    session.pushedTo event handle = none := by
  rw [pushedTo, pushed]
  rfl

theorem Neutral.carried (neutral : Neutral session next fun _ => False) (wired : session.Wired)
    (pushed : session.pushed event = none) (reads : session.reads event = none) :
    Carried session next event :=
  (neutral.fades wired).carried (fun handle => Or.inl (pushedTo_eq_none pushed handle)) reads
    fun _ => False.elim

theorem Neutral.carried_of_closed {lost : Nat → Prop} (neutral : Neutral session next lost)
    (wired : session.Wired) (pushed : session.pushed event = none)
    (reads : session.reads event = none) (closed : next.closed = true) :
    Carried session next event :=
  (neutral.fades wired).carried (fun handle => Or.inl (pushedTo_eq_none pushed handle)) reads
    fun _ _ => Or.inr (Or.inl closed)

theorem Alters.carried {handle : Nat} {stream other : StreamHandle}
    (alters : Alters session next handle stream other) (wired : session.Wired)
    (streams : next.streams = session.streams)
    (pushed : ∀ others, others ≠ handle → session.pushedTo event others = none)
    (reads : ∀ others, others ≠ handle → session.readsOf event others = none)
    (step : other.udp = false → other.live = true →
      (session.pipe handle stream).Step (session.pushedTo event handle)
        (session.readsOf event handle) (next.pipe handle other)) :
    Carried session next event where
  wired := alters.wired wired
  length := Nat.le_of_eq alters.length.symm
  closed := alters.closed.trans
  kept := fun entry => Or.inl (by rw [Registered, streams]; exact entry)
  found := fun {others third} there tcp live => by
    rcases eq_or_ne others handle with rfl | different
    · cases there.symm.trans alters.there
      exact Or.inr ⟨stream, alters.was, alters.kin, step tcp live⟩
    · have was := (alters.others different).symm.trans there
      refine Or.inr ⟨third, was, ⟨rfl, rfl, id⟩, ?_⟩
      rw [pushed others different, reads others different]
      exact (alters.pipe different third).step

/-! Frames. -/

theorem activeUnder_of_registered {streamId : UInt32} {handle : Nat}
    (entry : session.Registered streamId handle) : session.activeUnder streamId = some handle := by
  unfold activeUnder
  rw [show session.streams.lookup streamId = some (.active handle) from entry]

theorem pushed_of_other {frame : Frame} (other : frame.cmd ≠ .psh) :
    session.pushed (.frame frame) = none := by
  simp only [pushed]

theorem pushed_of_psh {frame : Frame} (psh : frame.cmd = .psh) :
    session.pushed (.frame frame) = (session.activeUnder frame.streamId).map (·, frame.data) := by
  simp only [pushed, psh]

theorem inRange_of_pushed (wired : session.Wired) {entry : Nat × Bytes}
    (pushed : session.pushed event = some entry) :
    ∃ stream, session.handles[entry.1]? = some stream := by
  unfold Session.pushed at pushed
  split at pushed
  · split at pushed
    · obtain ⟨handle, active, rfl⟩ := Option.map_eq_some_iff.mp pushed
      unfold activeUnder at active
      split at active
      · next found =>
          cases active
          obtain ⟨stream, was, -⟩ := wired.entries found
          exact ⟨stream, was⟩
      · cases active
    · cases pushed
  · cases pushed

theorem inRange_of_reads {entry : Nat × Nat × Bytes} (reads : session.reads event = some entry) :
    ∃ stream, session.handles[entry.1]? = some stream := by
  unfold Session.reads at reads
  split at reads
  · split at reads
    · next stream user =>
        split at reads
        · cases reads
        · obtain ⟨data, -, rfl⟩ := Option.map_eq_some_iff.mp reads
          exact ⟨stream, found_of_user user⟩
    · cases reads
  · cases reads

theorem not_tcpLive_of_gone {lost : Nat → Prop} (neutral : Neutral session next lost)
    {handle : Nat} (gone : ¬session.TcpLive handle) : ¬next.TcpLive handle := by
  rintro ⟨other, there, tcp, live⟩
  obtain ⟨stream, was, same⟩ := neutral.found there
  exact gone ⟨stream, was, (congrArg (·.2.1) same).symm.trans tcp, neutral.live was there live⟩

theorem carried_psh (wired : session.Wired) (idle : session.readLoop.pending = none)
    {frame : Frame} (psh : frame.cmd = .psh) {handle : Nat}
    (entry : session.Registered frame.streamId handle) :
    Carried session (session.sendData frame.streamId handle frame.data) (.frame frame) := by
  obtain ⟨stream, was, same⟩ := wired.entries entry
  have pushed : session.pushed (.frame frame) = some (handle, frame.data) := by
    rw [pushed_of_psh psh, activeUnder_of_registered entry]
    rfl
  have others (other : Nat) (different : other ≠ handle) :
      session.pushedTo (.frame frame) other = none := by
    rw [pushedTo, pushed, Option.filter_some, if_neg (by simpa using different.symm)]
    rfl
  have own : session.pushedTo (.frame frame) handle = some frame.data := by
    rw [pushedTo, pushed, Option.filter_some, if_pos (by simp)]
    rfl
  cases live : stream.live with
  | true =>
      rw [← same] at entry ⊢
      obtain ⟨other, alters, streams, step⟩ :=
        alters_sendData wired idle entry was live frame.data
      refine alters.carried wired streams others (fun _ _ => rfl) fun _ _ => ?_
      rw [own]
      exact step
  | false =>
      rw [sendData_of_gone was live]
      have neutral := neutral_removeOwn session handle frame.streamId
      have gone : ¬(session.removeOwn handle frame.streamId).TcpLive handle := by
        apply not_tcpLive_of_gone neutral
        rintro ⟨stream', was', -, lives⟩
        cases was.symm.trans was'
        rw [live] at lives
        cases lives
      refine (neutral.fades wired).carried (fun other => ?_) rfl fun other lost => ?_
      · rcases eq_or_ne other handle with rfl | different
        · exact Or.inr gone
        · exact Or.inl (others other different)
      · have same : StreamState.active handle = .active other :=
          Option.some.inj (entry.symm.trans lost)
        cases same
        exact Or.inr (Or.inr gone)

theorem carried_endStream (wired : session.Wired) (idle : session.readLoop.pending = none)
    {frame : Frame} (other : frame.cmd ≠ .psh) {event : Option StreamEvent}
    (notice : ∀ item ∈ event, item.chunk = none)
    (ended : session.endedBy (.frame frame) = (session.activeUnder frame.streamId).toList) :
    Carried session (session.endStream frame.streamId event) (.frame frame) := by
  refine (fades_endStream wired idle frame.streamId notice).carried
    (fun handle => Or.inl (pushedTo_eq_none (pushed_of_other other) handle)) rfl
    fun handle entry => Or.inl ?_
  rw [ended, activeUnder_of_registered entry]
  exact List.mem_singleton.mpr rfl

theorem carried_endStreams (wired : session.Wired) (idle : session.readLoop.pending = none)
    {frame : Frame} (alert : frame.cmd = .alert) {event : Option StreamEvent}
    (notice : ∀ item ∈ event, item.chunk = none)
    (ended : ∀ {streamId handle}, session.Registered streamId handle →
      handle ∈ session.endedBy (.frame frame)) :
    Carried session
      { session.streams.keys.foldl
          (fun session streamId => session.endStream streamId event) session with
        readLoop := .returned }
      (.frame frame) := by
  have ends := fades_endStreams wired idle notice session.streams.keys
  have pending := ends.pending.trans idle
  have returns := (Neutral.of_same rfl rfl pending.symm id : Neutral
    (session.streams.keys.foldl (fun session streamId => session.endStream streamId event) session)
    { session.streams.keys.foldl
        (fun session streamId => session.endStream streamId event) session with
      readLoop := .returned } fun _ => False)
  have both := ends.trans ((returns.weaken fun _ => False.elim).fades ends.wired)
  refine both.carried (fun handle => Or.inl (pushedTo_eq_none (pushed_of_other ?_) handle)) rfl
    fun handle entry => Or.inl ?_
  · rw [alert]
    exact nofun
  · obtain ⟨streamId, entry⟩ := entry
    exact ended entry

theorem ended_of_alert {frame : Frame} (alert : frame.cmd = .alert) {streamId : UInt32}
    {handle : Nat} (entry : session.Registered streamId handle) :
    handle ∈ session.endedBy (.frame frame) := by
  simp only [endedBy, alert]
  refine List.mem_filterMap.mpr ⟨streamId, ?_, activeUnder_of_registered entry⟩
  refine AList.mem_keys.mp (AList.lookup_isSome.mp ?_)
  rw [show session.streams.lookup streamId = some (.active handle) from entry]
  rfl

theorem carried_clientFrame (wired : session.Wired) (loop : session.readLoop = .reading)
    {idle : Bool} (client : session.side = .client idle) (frame : Frame) :
    Carried session (session.clientFrame frame) (.frame frame) := by
  have pending : session.readLoop.pending = none := by
    rw [loop]
    rfl
  unfold clientFrame
  split
  · next psh =>
      split
      · next handle entry => exact carried_psh wired pending psh entry
      · next none =>
          refine (Neutral.refl session).carried wired ?_ rfl
          rw [pushed_of_psh psh, activeUnder]
          split
          · next handle entry => exact absurd entry (none handle)
          · rfl
  · next fin =>
      have other : frame.cmd ≠ .psh := by
        rw [fin]
        decide
      refine carried_endStream wired pending other ?_ ?_
      · rintro _ ⟨⟩
        rfl
      · simp only [endedBy, fin]
  · next synAck =>
      have other : frame.cmd ≠ .psh := by
        rw [synAck]
        decide
      split
      · exact (Neutral.refl session).carried wired (pushed_of_other other) rfl
      · next message =>
          refine carried_endStream wired pending other ?_ ?_
          · rintro _ ⟨⟩
            rfl
          · simp only [endedBy, synAck, client]
            exact if_neg message
  · next alert =>
      dsimp only
      refine carried_endStreams wired pending alert ?_ ?_
      · rintro _ ⟨⟩
        rfl
      · exact ended_of_alert alert
  · next heart =>
      refine (neutral_trySend session _).carried wired (pushed_of_other ?_) rfl
      rw [heart]
      decide
  · next other _ _ _ _ => exact (Neutral.refl session).carried wired (pushed_of_other other) rfl

/-! Frames at a server. -/

theorem neutral_insertStream (session : Session) (streamId : UInt32) {state : StreamState}
    (inactive : ∀ handle, state ≠ .active handle) :
    Neutral session (session.insertStream streamId state) (session.Registered streamId) := by
  refine ((neutral_supersede session streamId).weaken fun _ => False.elim).trans ?_
  refine ⟨fun {other handle} found => ?_, fun {other handle} found => ?_, rfl, fun was there => ?_,
    rfl, id⟩
  · rcases eq_or_ne other streamId with rfl | different
    · exact absurd (Option.some.inj ((AList.lookup_insert _).symm.trans found)) (inactive handle)
    · exact (AList.lookup_insert_ne different).symm.trans found
  · rcases eq_or_ne other streamId with rfl | different
    · exact Or.inr ((registered_supersede session other other handle).mp found)
    · exact Or.inl ((AList.lookup_insert_ne different).trans found)
  · cases was.symm.trans there
    exact id

/-! Opening a stream. -/

theorem channel_openStream {stream other : StreamHandle} {handle : Nat}
    (there : (session.openStream stream).handles[handle]? = some other) :
    handle = session.handles.length ∧ other = stream ∨
      ∃ before, session.handles[handle]? = some before ∧ other.channel = before.channel ∧
        (other.live = true → before.live = true) := by
  have neutral := neutral_supersede session stream.streamId
  rcases Nat.lt_trichotomy handle session.handles.length with old | rfl | new
  · rw [handles_openStream,
      List.getElem?_append_left (by rw [length_supersede]; exact old)] at there
    obtain ⟨before, was, same⟩ := neutral.found there
    exact Or.inr ⟨before, was, same, neutral.live was there⟩
  · rw [opened_openStream] at there
    exact Or.inl ⟨rfl, (Option.some.inj there).symm⟩
  · have short := (List.getElem?_eq_some_iff.mp there).1
    rw [handles_openStream, List.length_append, length_supersede, List.length_singleton] at short
    omega

theorem readLoop_openStream (session : Session) (stream : StreamHandle) :
    (session.openStream stream).readLoop = session.readLoop := by
  change (session.supersede stream.streamId).readLoop = _
  unfold supersede
  split <;> rfl

theorem registered_openStream (session : Session) (stream : StreamHandle) :
    (session.openStream stream).Registered stream.streamId session.handles.length :=
  AList.lookup_insert _

theorem hasSender_openStream {stream before other : StreamHandle} {handle : Nat}
    (was : session.handles[handle]? = some before) (same : other.channel = before.channel)
    (sender : (session.openStream stream).hasSender handle other = true) :
    session.hasSender handle before = true := by
  rw [hasSender_iff] at sender ⊢
  rw [readLoop_openStream] at sender
  refine sender.imp_left fun entry => ?_
  rw [show other.streamId = before.streamId from congrArg (·.1) same] at entry
  rcases lookup_openStream entry with ⟨-, new⟩ | ⟨-, old⟩
  · cases new
    exact absurd (List.getElem?_eq_some_iff.mp was).1 (Nat.lt_irrefl _)
  · exact old

/-- A new channel is empty. -/
structure Fresh (stream : StreamHandle) : Prop where
  queue : stream.queue = []
  readBuffer : stream.readBuffer = []
  finReceived : stream.finReceived = false

theorem Fresh.ordered {stream : StreamHandle} (fresh : Fresh stream) : stream.Ordered := by
  refine ordered_of_open ⟨fresh.finReceived, fun event member => ?_⟩
  rw [fresh.queue] at member
  cases member

theorem wired_openStream (wired : session.Wired) {stream : StreamHandle}
    (fresh : stream.udp = false → Fresh stream) : (session.openStream stream).Wired := by
  have goes {before : StreamHandle} {handle : Nat} {streamId : UInt32}
      (was : session.handles[handle]? = some before) (same : before.streamId = streamId) :
      ∃ other, (session.openStream stream).handles[handle]? = some other ∧
        other.streamId = streamId := by
    obtain ⟨other, there, ages⟩ := kept_openStream stream was
    exact ⟨other, there, (congrArg (·.1) ages.core).trans same⟩
  refine ⟨fun found => ?_, fun loop => ?_, fun there tcp => ?_⟩
  · rcases lookup_openStream found with ⟨rfl, new⟩ | ⟨-, old⟩
    · cases new
      exact ⟨stream, opened_openStream session stream, rfl⟩
    · obtain ⟨before, was, same⟩ := wired.entries old
      exact goes was same
  · rw [readLoop_openStream] at loop
    obtain ⟨before, was, same⟩ := wired.pending loop
    exact goes was same
  · rcases channel_openStream there with ⟨rfl, rfl⟩ | ⟨before, was, same, -⟩
    · refine ⟨(fresh tcp).ordered, fun _ => ⟨(fresh tcp).finReceived, fun event member => ?_⟩⟩
      rw [(fresh tcp).queue] at member
      cases member
    · have before' := wired.channels was ((congrArg (·.2.1) same).symm.trans tcp)
      exact before'.of_channel same (hasSender_openStream was same)

theorem carried_openStream (wired : session.Wired) {stream : StreamHandle}
    (fresh : stream.udp = false → Fresh stream) (pushed : session.pushed event = none)
    (reads : session.reads event = none)
    (free : ∀ handle, session.Registered stream.streamId handle →
      ¬(session.openStream stream).TcpLive handle) :
    Carried session (session.openStream stream) event where
  wired := wired_openStream wired fresh
  length := by
    rw [handles_openStream, List.length_append, length_supersede]
    exact Nat.le_add_right ..
  closed := fun closed => (neutral_supersede session stream.streamId).closed closed
  kept := fun {streamId handle} entry => by
    rcases eq_or_ne streamId stream.streamId with rfl | different
    · exact Or.inr (Or.inr (Or.inr (free handle entry)))
    · refine Or.inl ((AList.lookup_insert_ne different).trans ?_)
      exact (registered_supersede session stream.streamId streamId handle).mpr entry
  found := fun {handle other} there tcp live => by
    have pending := congrArg ReadLoop.pending (readLoop_openStream session stream)
    rcases channel_openStream there with ⟨rfl, rfl⟩ | ⟨before, was, same, lives⟩
    · have fresh := fresh tcp
      refine Or.inl ⟨Nat.le_refl _, registered_openStream session other, fresh.readBuffer, ?_⟩
      change other.queue.filterMap _ ++ _ = []
      have absent := blocked_of_absent wired (List.getElem?_eq_none (Nat.le_refl _))
      rw [blocked, ← pending] at absent
      rw [fresh.queue, blocked, absent]
      rfl
    · refine Or.inr ⟨before, was, ⟨congrArg (·.1) same, congrArg (·.2.1) same, lives⟩, ?_⟩
      rw [pushedTo_eq_none pushed, readsOf, reads]
      exact (fades_of_channel same pending (hasSender_openStream was same)).step

theorem carried_refuseStream (wired : session.Wired) {streamId : UInt32}
    (inactive : ∀ handle, ¬session.Registered streamId handle)
    (pushed : session.pushed event = none)
    (reads : session.reads event = none) :
    Carried session (session.refuseStream streamId) event := by
  have sent := neutral_trySend session ⟨streamId, .fin, []⟩
  refine Neutral.carried (sent.trans ?_) wired pushed reads
  refine (neutral_removeStream _ streamId).weaken fun handle entry => ?_
  exact inactive handle (sent.entries entry)

theorem fresh_inboundHandle (streamId : UInt32) (isConnect : Bool) :
    Fresh (inboundHandle streamId false isConnect []) := ⟨rfl, rfl, rfl⟩

theorem udp_uotRequest {streamId : UInt32} {data : Bytes} {stream : StreamHandle}
    (made : uotRequest streamId data = some stream) :
    stream.streamId = streamId ∧ stream.udp = true := by
  unfold uotRequest at made
  split at made
  · cases made
  · split at made
    · cases made
    · cases made
      exact ⟨rfl, rfl⟩

theorem carried_handleFirstPsh (wired : session.Wired) (loop : session.readLoop = .reading)
    {streamId : UInt32} (inactive : ∀ handle, ¬session.Registered streamId handle)
    (pushed : session.pushed event = none) (reads : session.reads event = none) (data : Bytes) :
    Carried session (session.handleFirstPsh streamId data) event := by
  have opens := carried_openStream wired (fun _ => fresh_inboundHandle streamId false) pushed reads
    fun handle entry => absurd entry (inactive handle)
  unfold handleFirstPsh
  split
  · refine Neutral.carried (.of_same rfl rfl ?_ id) wired pushed reads
    rw [loop]
    rfl
  · exact carried_refuseStream wired inactive pushed reads
  · next name port parsed =>
      split
      · have waiting (handle : Nat) :
            StreamState.waitingUotRequest (.domain name port) ≠ .active handle := nofun
        refine Neutral.carried ?_ wired pushed reads
        exact (neutral_insertStream session streamId waiting).weaken inactive
      · exact opens
  · exact opens

theorem carried_handleUotRequest (wired : session.Wired) {streamId : UInt32}
    (inactive : ∀ handle, ¬session.Registered streamId handle)
    (pushed : session.pushed event = none) (reads : session.reads event = none) (data : Bytes) :
    Carried session (session.handleUotRequest streamId data) event := by
  unfold handleUotRequest
  split
  · exact carried_refuseStream wired inactive pushed reads
  · next stream made =>
      obtain ⟨same, udp⟩ := udp_uotRequest made
      refine carried_openStream wired (fun tcp => ?_) pushed reads fun handle entry => ?_
      · rw [udp] at tcp
        cases tcp
      · exact absurd (same ▸ entry) (inactive handle)

theorem carried_serverFrame (wired : session.Wired) (loop : session.readLoop = .reading)
    (server : session.side = .server) {frame : Frame}
    (keeps : session.KeepsStreams (.frame frame)) :
    Carried session (session.serverFrame frame) (.frame frame) := by
  have pending : session.readLoop.pending = none := by
    rw [loop]
    rfl
  unfold serverFrame
  split
  · next syn =>
      have inserted := neutral_insertStream session frame.streamId fun handle =>
        (nofun : StreamState.pending ≠ .active handle)
      have sent := neutral_trySend (session.insertStream frame.streamId .pending)
        ⟨frame.streamId, .synAck, []⟩
      have both := inserted.trans (sent.weaken fun _ => False.elim)
      have other : frame.cmd ≠ .psh := by
        rw [syn]
        exact nofun
      refine (both.fades wired).carried
        (fun handle => Or.inl (pushedTo_eq_none (pushed_of_other other) handle)) rfl
        fun handle entry => Or.inr (Or.inr (not_tcpLive_of_gone both ?_))
      refine keeps.fresh frame.streamId ?_ handle (activeUnder_of_registered entry)
      simp only [registers, syn, server, Option.mem_def]
  · next psh =>
      have silent (inactive : ∀ handle, ¬session.Registered frame.streamId handle) :
          session.pushed (.frame frame) = none := by
        rw [pushed_of_psh psh, activeUnder]
        split
        · next handle entry => exact absurd entry (inactive handle)
        · rfl
      have unregistered {state : Option StreamState}
          (lookup : session.streams.lookup frame.streamId = state)
          (inactive : ∀ handle, state ≠ some (.active handle)) (handle : Nat) :
          ¬session.Registered frame.streamId handle :=
        fun entry => inactive handle (lookup.symm.trans entry)
      split
      · next entry =>
          have inactive := unregistered entry fun _ => nofun
          exact carried_handleFirstPsh wired loop inactive (silent inactive) rfl frame.data
      · next target entry =>
          have inactive := unregistered entry fun _ => nofun
          exact carried_handleUotRequest wired inactive (silent inactive) rfl frame.data
      · next handle entry => exact carried_psh wired pending psh entry
      · next entry =>
          have inactive := unregistered entry fun _ => nofun
          exact (Neutral.refl session).carried wired (silent inactive) rfl
  · next fin =>
      refine carried_endStream wired pending (by rw [fin]; exact nofun) nofun ?_
      simp only [endedBy, fin]
  · next heart =>
      refine (neutral_trySend session _).carried wired (pushed_of_other ?_) rfl
      rw [heart]
      decide
  · next alert =>
      refine Neutral.carried (.of_same rfl rfl pending.symm id) wired (pushed_of_other ?_) rfl
      rw [alert]
      exact nofun
  · next _ other _ _ _ => exact (Neutral.refl session).carried wired (pushed_of_other other) rfl

/-! The other tasks. -/

theorem own_of_not_foreign {handle other : Nat} {streamId : UInt32}
    (own : session.foreign handle streamId = false) (entry : session.Registered streamId other) :
    other = handle := by
  unfold foreign at own
  rw [show session.streams.lookup streamId = some (.active other) from entry, Option.any_some,
    decide_eq_false_iff_not, not_not] at own
  cases own
  rfl

theorem carried_deliverData (wired : session.Wired) (keeps : session.KeepsStreams .deliver)
    (taken : session.deliverData = some next) : Carried session next .deliver := by
  unfold deliverData at taken
  split at taken
  · next streamId handle data loop =>
      obtain ⟨stream, was, goes⟩ := Option.bind_eq_some_iff.mp taken
      have there : ({ session with readLoop := .reading } : Session).handles[handle]? =
        some stream := was
      split at goes
      · cases goes
      · next room =>
          cases goes
          cases live : stream.live with
          | true =>
              rw [live, Bool.true_and, decide_eq_true_eq, Nat.not_le] at room
              rw [sendData_of_live there live, if_pos room]
              obtain ⟨alters, fades⟩ := alters_delivered wired loop was
              exact alters.carried wired rfl (fun _ _ => rfl) (fun _ _ => rfl)
                fun _ _ => fades.step
          | false =>
              rw [sendData_of_gone there live]
              have alters := alters_undelivered wired loop was
              have removed :=
                neutral_removeOwn { session with readLoop := .reading } handle streamId
              have own : session.foreign handle streamId = false := by
                have robs := keeps.robs
                rw [Session.robs, loop] at robs
                change (session.handles[handle]?.any (!·.live) && session.foreign handle streamId) =
                  false at robs
                rwa [was, Option.any_some, live, Bool.not_false, Bool.true_and] at robs
              have gone : ¬({ session with readLoop := .reading } : Session).TcpLive handle := by
                rintro ⟨stream', was', -, lives⟩
                cases there.symm.trans was'
                rw [live] at lives
                cases lives
              refine ⟨removed.wired (alters.wired wired), Nat.le_of_eq removed.length.symm,
                removed.closed,
                fun entry => ?_, fun {others other} found tcp lives => ?_⟩
              · refine (removed.kept entry).imp_right fun lost => Or.inr (Or.inr ?_)
                rw [own_of_not_foreign own lost]
                exact not_tcpLive_of_gone removed gone
              · obtain ⟨third, was', same⟩ := removed.found found
                have tcp' := (congrArg (·.2.1) same).symm.trans tcp
                have live' := removed.live was' found lives
                have different : others ≠ handle := by
                  rintro rfl
                  exact gone ⟨third, was', tcp', live'⟩
                refine Or.inr ⟨third, was', ⟨congrArg (·.1) same, congrArg (·.2.1) same,
                  removed.live was' found⟩, Pipe.Fades.step ?_⟩
                exact (alters.pipe different third).trans
                  (fades_of_channel same removed.pending (removed.hasSender same))
  · cases taken

theorem neutral_takeFrame (taken : session.takeFrame = some next) :
    Neutral session next fun _ => False := by
  unfold takeFrame at taken
  split at taken
  · split at taken
    · split at taken
      · cases taken
        exact .of_same rfl rfl rfl id
      · cases taken
        exact .of_same rfl rfl rfl id
    · cases taken
  · cases taken

theorem neutral_flushBuffer {ok : Bool} (taken : session.flushBuffer ok = some next) :
    Neutral session next fun _ => False := by
  unfold flushBuffer at taken
  split at taken
  · split at taken
    · cases taken
      exact .of_same rfl rfl rfl id
    · cases taken
      exact .of_same rfl rfl rfl id
  · cases taken

theorem carried_taskStep (wired : session.Wired) (keeps : session.KeepsStreams event)
    (taken : session.taskStep event = some next) : Carried session next event := by
  unfold taskStep at taken
  split at taken
  · split at taken
    · next loop client =>
        cases taken
        exact carried_clientFrame wired loop client _
    · next loop server =>
        cases taken
        exact carried_serverFrame wired loop server keeps
    · cases taken
  · exact carried_deliverData wired keeps taken
  · split at taken
    · next loop =>
        cases taken
        exact Neutral.carried (.of_same rfl rfl (by rw [loop]; rfl) id) wired rfl rfl
    · cases taken
  · split at taken
    · next loop =>
        split at taken
        · cases taken
          exact Neutral.carried (.of_same rfl rfl (by rw [loop]; rfl) id) wired rfl rfl
        · cases taken
    · cases taken
  · split at taken
    · next loop =>
        cases taken
        have ended : Neutral session.finish { session.finish with readLoop := .finished }
            fun _ => False :=
          .of_same rfl rfl (by rw [show session.finish.readLoop = _ from loop]; rfl) id
        have both := (neutral_finish session).trans (ended.weaken fun _ => False.elim)
        exact both.carried_of_closed wired rfl rfl rfl
    · cases taken
  · exact (neutral_takeFrame taken).carried wired rfl rfl
  · exact (neutral_flushBuffer taken).carried wired rfl rfl
  · split at taken
    · split at taken
      · cases taken
        exact Neutral.carried (.of_same rfl rfl rfl id) wired rfl rfl
      · cases taken
    · cases taken
  · split at taken
    · cases taken
      have ended : Neutral session.finish { session.finish with writeLoop := .finished }
          fun _ => False := .of_same rfl rfl rfl id
      have both := (neutral_finish session).trans (ended.weaken fun _ => False.elim)
      exact both.carried_of_closed wired rfl rfl rfl
    · cases taken
      exact Neutral.carried (.of_same rfl rfl rfl fun _ => rfl) wired rfl rfl
    · cases taken
  · cases taken

/-! The stream objects. -/

theorem not_tcpLive_openStream (wired : session.Wired) {streamId : UInt32} {handle : Nat}
    (entry : session.Registered streamId handle) (gone : ¬session.TcpLive handle)
    (stream : StreamHandle) : ¬(session.openStream stream).TcpLive handle := by
  rintro ⟨other, there, tcp, live⟩
  obtain ⟨was, found, -⟩ := wired.entries entry
  rcases channel_openStream there with ⟨rfl, -⟩ | ⟨before, was', same, lives⟩
  · exact absurd (List.getElem?_eq_some_iff.mp found).1 (Nat.lt_irrefl _)
  · exact gone ⟨before, was', (congrArg (·.2.1) same).symm.trans tcp, lives live⟩

theorem carried_connectStream {idle : Bool} (client : session.side = .client idle)
    (wired : session.Wired) {udp : Bool} {target : TargetAddr}
    (keeps : session.KeepsStreams (.connect udp target)) :
    Carried session (session.connectStream udp target) (.connect udp target) := by
  have numbered : Session.Wired { session with nextStreamId := session.nextStreamId + 1 } := by
    refine ⟨wired.entries, wired.pending, fun there tcp => ?_⟩
    exact ⟨(wired.channels there tcp).ordered, (wired.channels there tcp).opened⟩
  have free (handle : Nat) (entry : session.Registered session.nextStreamId handle) :
      ¬session.TcpLive handle := by
    refine keeps.fresh session.nextStreamId ?_ handle (activeUnder_of_registered entry)
    simp only [registers, client, Option.mem_def]
  have opened : Carried { session with nextStreamId := session.nextStreamId + 1 }
      (session.connectStream udp target) (.connect udp target) := by
    refine carried_openStream numbered (fun _ => ⟨rfl, rfl, rfl⟩) rfl rfl fun handle entry => ?_
    exact not_tcpLive_openStream numbered entry (free handle entry) _
  exact ⟨opened.wired, opened.length, opened.closed, opened.kept, opened.found⟩

theorem reads_read {handle size : Nat} {stream : StreamHandle}
    (user : session.user handle = some stream) :
    session.reads (.read handle size) =
      if stream.udp then none
      else
        (readTcp (session.hasSender handle stream) size stream).1.outcome.map
          (handle, size, ·) := by
  simp only [reads, user]

theorem carried_read (wired : session.Wired) {handle size : Nat} {stream : StreamHandle}
    (user : session.user handle = some stream) :
    Carried session
      (session.modifyHandle handle fun _ =>
        (readHandle session.side (session.hasSender handle stream) size stream).2)
      (.read handle size) := by
  have was := found_of_user user
  have there := kept_modifyHandle handle (fun _ =>
    (readHandle session.side (session.hasSender handle stream) size stream).2) was
  rw [if_pos rfl] at there
  obtain ⟨core, -⟩ := readHandle_ages session.side (session.hasSender handle stream) size stream
  have kin : Kin stream (readHandle session.side (session.hasSender handle stream) size stream).2 :=
    ⟨congrArg (·.1) core, congrArg (·.2.1) core,
      fun live => (congrArg (·.2.2.1) core).symm.trans live⟩
  have others (other : Nat) (different : other ≠ handle) :
      session.readsOf (.read handle size) other = none := by
    rw [readsOf, reads_read user]
    split
    · rfl
    · rw [Option.map_eq_none_iff, Option.filter_eq_none_iff]
      rintro entry member
      obtain ⟨data, -, rfl⟩ := Option.map_eq_some_iff.mp member
      simpa using different.symm
  have stepped (tcp : stream.udp = false) :
      session.WiredAt handle
        (readHandle session.side (session.hasSender handle stream) size stream).2 ∧
        (session.pipe handle stream).Step none (session.readsOf (.read handle size) handle)
          (session.pipe handle
            (readHandle session.side (session.hasSender handle stream) size stream).2) := by
    have step := step_readTcp (wired.channels was tcp) size
    have own : session.readsOf (.read handle size) handle =
        (readTcp (session.hasSender handle stream) size stream).1.outcome.map (size, ·) := by
      rw [readsOf, reads_read user, tcp, if_neg Bool.false_ne_true]
      cases (readTcp (session.hasSender handle stream) size stream).1.outcome with
      | none => rfl
      | some data =>
          rw [Option.map_some, Option.filter_some, if_pos (decide_eq_true rfl)]
          rfl
    rw [own, readHandle, tcp, if_neg Bool.false_ne_true]
    exact step
  have alters : Alters session (session.modifyHandle handle fun _ =>
      (readHandle session.side (session.hasSender handle stream) size stream).2) handle stream
      (readHandle session.side (session.hasSender handle stream) size stream).2 := by
    refine ⟨List.length_modify .., rfl, was, there, others_modifyHandle session _, kin, id, Or.inl,
      fun _ => rfl, fun tcp => ?_⟩
    have wiredAt := (stepped (kin.udp.symm.trans tcp)).1
    exact ⟨wiredAt.ordered, wiredAt.opened⟩
  refine alters.carried wired rfl (fun _ _ => rfl) others fun tcp _ => ?_
  exact (stepped (kin.udp.symm.trans tcp)).2

theorem carried_dropHandle (wired : session.Wired) {handle : Nat} {stream : StreamHandle}
    (user : session.user handle = some stream) (keeps : session.KeepsStreams (.drop handle)) :
    Carried session (session.dropHandle handle stream) (.drop handle) := by
  have neutral := neutral_dropHandle session handle stream
  have own : session.foreign handle stream.streamId = false := by
    have robs := keeps.robs
    rwa [Session.robs, user, Option.any_some] at robs
  refine (neutral.fades wired).carried (fun _ => Or.inl rfl) rfl fun other entry => ?_
  rw [own_of_not_foreign own entry]
  refine Or.inr (Or.inr ?_)
  rintro ⟨third, there, -, live⟩
  have sheds := (sheds_removeOwn ((session.sendFin stream).kill handle) handle
    stream.streamId).trans (sheds_closeIfIdle _)
  obtain ⟨before, was, ages⟩ := sheds.found there
  rcases found_modifyHandle was with ⟨-, earlier, -, rfl⟩ | ⟨different, -⟩
  · rw [show third.live = false from congrArg (·.2.2.1) ages.core] at live
    cases live
  · exact absurd rfl different

theorem lookup_removeOwn (session : Session) (handle : Nat) {streamId other : UInt32}
    (different : other ≠ streamId) :
    (session.removeOwn handle streamId).streams.lookup other = session.streams.lookup other := by
  have superseded : (session.supersede streamId).streams = session.streams := by
    unfold supersede
    split <;> rfl
  unfold removeOwn
  split
  · split
    · exact AList.lookup_erase_ne different
    · exact (AList.lookup_erase_ne different).trans (by rw [superseded])
  · rfl

theorem lookup_closeIfIdle (session : Session) (streamId : UInt32) :
    session.closeIfIdle.streams.lookup streamId = session.streams.lookup streamId := by
  unfold closeIfIdle
  split
  · split
    · next idle =>
        have nothing : session.streams = ∅ := AList.ext (List.isEmpty_iff.mp idle)
        rw [nothing]
        rfl
    · rfl
  · rfl

theorem lookup_dropHandle (session : Session) (handle : Nat) (stream : StreamHandle)
    {other : UInt32} (different : other ≠ stream.streamId) :
    (session.dropHandle handle stream).streams.lookup other = session.streams.lookup other := by
  have sent : (session.sendFin stream).streams = session.streams := by
    unfold sendFin trySend
    repeat' split
    all_goals rfl
  rw [dropHandle, lookup_closeIfIdle, lookup_removeOwn _ _ different]
  exact congrArg (·.lookup other) sent

/-- An end of an object that is under its own id takes nothing of another stream. -/
theorem takes_of_own {handle : Nat} {streamId : UInt32}
    (ends : session.endsObject event = some handle)
    (own : session.foreign handle streamId = false)
    (others : ∀ other, other ≠ streamId →
      next.streams.lookup other = session.streams.lookup other) :
    session.takes next event = false := by
  rw [takes, ends, Option.any_some, List.any_eq_false]
  intro other _ taken
  obtain ⟨foreign, changed⟩ := Bool.and_eq_true_iff.mp taken
  rcases eq_or_ne other streamId with rfl | different
  · exact absurd (own.symm.trans foreign) nofun
  · exact of_decide_eq_true changed (others other different)

theorem takes_of_ends_none (ends : session.endsObject event = none) :
    session.takes next event = false := by
  rw [takes, ends, Option.any_none]

theorem takes_of_not_robs (robs : session.robs event = false)
    (taken : session.step event = some next) : session.takes next event = false := by
  obtain ⟨after, moved, rfl⟩ := Option.map_eq_some_iff.mp taken
  cases event with
  | drop handle =>
      obtain ⟨stream, user, rfl⟩ := Option.map_eq_some_iff.mp moved
      rw [Session.robs, user, Option.any_some] at robs
      refine takes_of_own ?_ robs fun other different =>
        lookup_dropHandle session handle stream different
      rw [endsObject, user, Option.map_some]
  | deliver =>
      have delivered : session.deliverData = some after := by
        rcases Option.or_eq_some_iff.mp moved with task | ⟨-, user⟩
        · exact task
        · cases user
      unfold deliverData at delivered
      split at delivered
      · next streamId handle data loop =>
          obtain ⟨stream, was, goes⟩ := Option.bind_eq_some_iff.mp delivered
          have there : ({ session with readLoop := .reading } : Session).handles[handle]? =
            some stream := was
          have pending : session.readLoop.pending = some (streamId, handle, data) := by
            rw [loop]
            rfl
          split at goes
          · cases goes
          · cases goes
            cases live : stream.live with
            | true =>
                refine takes_of_ends_none ?_
                simp [endsObject, pending, was, live]
            | false =>
                rw [sendData_of_gone there live]
                have ends : session.endsObject .deliver = some handle := by
                  simp [endsObject, pending, was, live]
                have own : session.foreign handle streamId = false := by
                  simpa [Session.robs, pending, was, live] using robs
                exact takes_of_own ends own fun other different =>
                  lookup_removeOwn _ _ different
      · cases delivered
  | frame | readError | readCloser | readTaskEnd | take | flush | writeCloser | writeTaskEnd |
    connect | connectSend | connectCancel | read | write | shutdown | close | finish =>
      exact takes_of_ends_none rfl

theorem carried_userStep (wired : session.Wired) (keeps : session.KeepsStreams event)
    (taken : session.userStep event = some next) : Carried session next event := by
  cases event with
  | connect udp target =>
      simp only [userStep] at taken
      split at taken
      · next client =>
          cases taken
          exact carried_connectStream client wired keeps
      · cases taken
  | connectSend handle =>
      obtain ⟨stream, -, ⟨-, frame, rest, -, rfl⟩ | ⟨-, rfl⟩⟩ := connectNext_cases taken
      · have queued : Neutral session { session with writeTx := session.writeTx ++ [frame] }
            fun _ => False := .of_same rfl rfl rfl id
        refine Neutral.carried (queued.trans ?_) wired rfl rfl
        exact neutral_modifyHandle _ handle (fun _ => rfl) fun _ => id
      · exact (neutral_kill session handle).carried wired rfl rfl
  | connectCancel handle =>
      obtain ⟨stream, -, rfl⟩ := connectDrop_cases taken
      exact (neutral_kill session handle).carried wired rfl rfl
  | read handle size =>
      obtain ⟨stream, user, rfl⟩ := Option.map_eq_some_iff.mp taken
      exact carried_read wired user
  | write handle data =>
      obtain ⟨stream, -, written⟩ := Option.bind_eq_some_iff.mp taken
      split at written
      · cases written
        exact Neutral.carried (.of_same rfl rfl rfl id) wired rfl rfl
      · cases written
      · cases written
        exact (Neutral.refl session).carried wired rfl rfl
  | shutdown handle =>
      obtain ⟨stream, -, shut⟩ := Option.bind_eq_some_iff.mp taken
      split at shut
      · cases shut
      · split at shut
        · next frame _ =>
            cases shut
            have queued : Neutral session { session with writeTx := session.writeTx ++ [frame] }
                fun _ => False := .of_same rfl rfl rfl id
            refine Neutral.carried (queued.trans ?_) wired rfl rfl
            exact neutral_modifyHandle _ handle (fun _ => rfl) fun _ => id
        · cases shut
        · cases shut
          exact (Neutral.refl session).carried wired rfl rfl
  | close handle =>
      obtain ⟨stream, -, closed⟩ := Option.bind_eq_some_iff.mp taken
      split at closed
      · cases closed
        have closing : Neutral session { session with closed := true } fun _ => False :=
          .of_same rfl rfl rfl fun _ => rfl
        refine Neutral.carried (closing.trans ?_) wired rfl rfl
        exact neutral_modifyHandle _ handle (fun _ => rfl) fun _ => id
      · cases closed
  | drop handle =>
      obtain ⟨stream, user, rfl⟩ := Option.map_eq_some_iff.mp taken
      exact carried_dropHandle wired user keeps
  | finish =>
      simp only [userStep] at taken
      split at taken
      · cases taken
        exact (neutral_finish session).carried_of_closed wired rfl rfl rfl
      · cases taken
  | frame | deliver | readError | readCloser | readTaskEnd | take | flush | writeCloser |
    writeTaskEnd => cases taken

theorem carried_step (wired : session.Wired) (keeps : session.KeepsStreams event)
    (taken : session.step event = some next) : Carried session next event := by
  obtain ⟨after, moved, rfl⟩ := Option.map_eq_some_iff.mp taken
  have carried : Carried session after event := by
    rcases Option.or_eq_some_iff.mp moved with task | ⟨-, user⟩
    · exact carried_taskStep wired keeps task
    · exact carried_userStep wired keeps user
  refine ⟨⟨carried.wired.entries, carried.wired.pending, fun there tcp => ?_⟩, carried.length,
    carried.closed, carried.kept, carried.found⟩
  have wiredAt := carried.wired.channels there tcp
  exact ⟨wiredAt.ordered, wiredAt.opened⟩

end Session

end QuicProxy
