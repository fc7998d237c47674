import QuicProxy.Data.Pipe
import QuicProxy.Proxy.Anytls.Registry

namespace QuicProxy

/-! The channels of the TCP streams of a session, at either side, as pipes: the
read loop pushes into them and `poll_read` takes from them. -/

def StreamEvent.chunk : StreamEvent → Option Bytes
  | .data bytes => some bytes
  | _ => none

namespace StreamHandle

/-- What a pipe depends on in a stream object. -/
def channel (stream : StreamHandle) : UInt32 × Bool × List StreamEvent × Bytes × Bool :=
  (stream.streamId, stream.udp, stream.queue, stream.readBuffer, stream.finReceived)

/-- No end has come. -/
def Open (stream : StreamHandle) : Prop :=
  stream.finReceived = false ∧ ∀ event ∈ stream.queue, event.chunk ≠ none

/-- The end comes last. -/
structure Ordered (stream : StreamHandle) : Prop where
  last : ∀ front event back, stream.queue = front ++ event :: back → event.chunk = none → back = []
  finished : stream.finReceived = true → stream.queue.filterMap StreamEvent.chunk = []

end StreamHandle

def ReadLoop.pending : ReadLoop → Option (UInt32 × Nat × Bytes)
  | .delivering streamId handle data => some (streamId, handle, data)
  | _ => none

theorem ReadLoop.pending_eq_some {loop : ReadLoop} {streamId : UInt32} {handle : Nat}
    {data : Bytes} (pending : loop.pending = some (streamId, handle, data)) :
    loop = .delivering streamId handle data := by
  unfold ReadLoop.pending at pending
  split at pending
  · cases pending
    rfl
  · cases pending

namespace Session

def blocked (session : Session) (handle : Nat) : List Bytes :=
  match session.readLoop.pending with
  | some (_, other, data) => if other = handle then [data] else []
  | none => []

def pipe (session : Session) (handle : Nat) (stream : StreamHandle) : Pipe UInt8 where
  buffer := stream.readBuffer
  chunks := stream.queue.filterMap StreamEvent.chunk ++ session.blocked handle
  linked := session.hasSender handle stream

/-- A channel that has an end in it has no sender. -/
structure WiredAt (session : Session) (handle : Nat) (stream : StreamHandle) : Prop where
  ordered : stream.Ordered
  opened : session.hasSender handle stream = true → stream.Open

/-- Senders are those of the objects under their ids. -/
structure Wired (session : Session) : Prop where
  entries : ∀ {streamId handle}, session.streams.lookup streamId = some (.active handle) →
    ∃ stream, session.handles[handle]? = some stream ∧ stream.streamId = streamId
  pending : ∀ {streamId handle data}, session.readLoop = .delivering streamId handle data →
    ∃ stream, session.handles[handle]? = some stream ∧ stream.streamId = streamId
  channels : ∀ {handle : Nat} {stream : StreamHandle}, session.handles[handle]? = some stream →
    stream.udp = false → session.WiredAt handle stream

theorem wired_start (side : SessionSide) (settings : Bytes) : (start side settings).Wired where
  entries := fun found => by
    rw [show (start side settings).streams = ∅ from rfl, AList.lookup_empty] at found
    cases found
  pending := nofun
  channels := nofun

theorem hasSender_iff (session : Session) (handle : Nat) (stream : StreamHandle) :
    session.hasSender handle stream = true ↔
      session.streams.lookup stream.streamId = some (.active handle) ∨
        ∃ streamId data, session.readLoop.pending = some (streamId, handle, data) := by
  unfold hasSender ReadLoop.pending
  rw [Bool.or_eq_true, decide_eq_true_eq]
  refine or_congr_right ?_
  cases session.readLoop with
  | delivering streamId other data =>
      dsimp only
      rw [beq_iff_eq]
      constructor
      · rintro rfl
        exact ⟨streamId, data, rfl⟩
      · rintro ⟨_, _, same⟩
        cases same
        rfl
  | reading | returned | finished =>
      dsimp only
      exact ⟨nofun, nofun⟩

/-! Steps that at most take senders away. -/

/-- The table loses the entries of these objects at most, and no channel
changes. -/
structure Neutral (session next : Session) (lost : Nat → Prop) : Prop where
  entries : ∀ {streamId handle}, next.streams.lookup streamId = some (.active handle) →
    session.streams.lookup streamId = some (.active handle)
  kept : ∀ {streamId handle}, session.streams.lookup streamId = some (.active handle) →
    next.streams.lookup streamId = some (.active handle) ∨ lost handle
  channels : next.handles.map StreamHandle.channel = session.handles.map StreamHandle.channel
  live : ∀ {handle : Nat} {stream other : StreamHandle}, session.handles[handle]? = some stream →
    next.handles[handle]? = some other → other.live = true → stream.live = true
  pending : next.readLoop.pending = session.readLoop.pending
  closed : session.closed = true → next.closed = true

/-- The object is the same one, or is gone. -/
structure Kin (stream other : StreamHandle) : Prop where
  streamId : other.streamId = stream.streamId
  udp : other.udp = stream.udp
  live : other.live = true → stream.live = true

/-- The pipes lose their links at most, those of these objects. -/
structure Fades (session next : Session) (lost : Nat → Prop) : Prop where
  wired : next.Wired
  length : next.handles.length = session.handles.length
  kept : ∀ {streamId handle}, session.streams.lookup streamId = some (.active handle) →
    next.streams.lookup streamId = some (.active handle) ∨ lost handle
  found : ∀ {handle : Nat} {other : StreamHandle}, next.handles[handle]? = some other →
    ∃ stream, session.handles[handle]? = some stream ∧ Kin stream other ∧
      (other.udp = false → (session.pipe handle stream).Fades (next.pipe handle other))
  pending : next.readLoop.pending = session.readLoop.pending
  closed : session.closed = true → next.closed = true

theorem WiredAt.of_channel {session next : Session} {handle : Nat} {stream other : StreamHandle}
    (same : other.channel = stream.channel)
    (sender : next.hasSender handle other = true → session.hasSender handle stream = true)
    (wired : session.WiredAt handle stream) : next.WiredAt handle other := by
  have queue : other.queue = stream.queue := congrArg (·.2.2.1) same
  have finReceived : other.finReceived = stream.finReceived := congrArg (·.2.2.2.2) same
  refine ⟨⟨?_, ?_⟩, fun sends => ?_⟩
  · rw [queue]
    exact wired.ordered.last
  · rw [queue, finReceived]
    exact wired.ordered.finished
  · rw [StreamHandle.Open, queue, finReceived]
    exact wired.opened (sender sends)

theorem fades_of_channel {session next : Session} {handle : Nat} {stream other : StreamHandle}
    (same : other.channel = stream.channel)
    (pending : next.readLoop.pending = session.readLoop.pending)
    (sender : next.hasSender handle other = true → session.hasSender handle stream = true) :
    (session.pipe handle stream).Fades (next.pipe handle other) := by
  have queue : other.queue = stream.queue := congrArg (·.2.2.1) same
  have readBuffer : other.readBuffer = stream.readBuffer := congrArg (·.2.2.2.1) same
  refine Pipe.fades_of_linked readBuffer ?_ sender
  change other.queue.filterMap _ ++ next.blocked handle = _
  rw [queue, blocked, pending]
  rfl

namespace Neutral

variable {session next third : Session} {lost lost' : Nat → Prop}

theorem found (neutral : Neutral session next lost) {handle : Nat} {other : StreamHandle}
    (there : next.handles[handle]? = some other) :
    ∃ stream, session.handles[handle]? = some stream ∧ other.channel = stream.channel := by
  have channels := congrArg (·[handle]?) neutral.channels
  simp only [List.getElem?_map, there] at channels
  obtain ⟨stream, found, same⟩ := Option.map_eq_some_iff.mp channels.symm
  exact ⟨stream, found, same.symm⟩

theorem stays (neutral : Neutral session next lost) {handle : Nat} {stream : StreamHandle}
    (there : session.handles[handle]? = some stream) :
    ∃ other, next.handles[handle]? = some other ∧ other.channel = stream.channel := by
  have channels := congrArg (·[handle]?) neutral.channels
  simp only [List.getElem?_map, there] at channels
  exact Option.map_eq_some_iff.mp channels

theorem length (neutral : Neutral session next lost) :
    next.handles.length = session.handles.length := by
  have lengths := congrArg List.length neutral.channels
  rwa [List.length_map, List.length_map] at lengths

theorem of_same (streams : next.streams = session.streams)
    (handles : next.handles = session.handles)
    (pending : next.readLoop.pending = session.readLoop.pending)
    (closed : session.closed = true → next.closed = true) :
    Neutral session next fun _ => False := by
  refine ⟨fun found => streams ▸ found, fun found => Or.inl (streams ▸ found),
    congrArg _ handles, fun was there => ?_, pending, closed⟩
  rw [handles, was] at there
  cases there
  exact id

theorem refl (session : Session) : Neutral session session fun _ => False := of_same rfl rfl rfl id

theorem weaken (neutral : Neutral session next lost)
    (weaker : ∀ handle, lost handle → lost' handle) : Neutral session next lost' where
  entries := neutral.entries
  kept := fun found => (neutral.kept found).imp_right (weaker _)
  channels := neutral.channels
  live := neutral.live
  pending := neutral.pending
  closed := neutral.closed

theorem trans (before : Neutral session next lost) (after : Neutral next third lost) :
    Neutral session third lost where
  entries := fun found => before.entries (after.entries found)
  kept := fun found => (before.kept found).elim after.kept Or.inr
  channels := after.channels.trans before.channels
  live := fun was there live => by
    obtain ⟨middle, found, -⟩ := before.stays was
    exact before.live was found (after.live found there live)
  pending := after.pending.trans before.pending
  closed := after.closed ∘ before.closed

theorem hasSender (neutral : Neutral session next lost) {handle : Nat}
    {stream other : StreamHandle} (same : other.channel = stream.channel)
    (sender : next.hasSender handle other = true) : session.hasSender handle stream = true := by
  rw [hasSender_iff] at sender ⊢
  rw [neutral.pending] at sender
  refine sender.imp_left fun registered => ?_
  rw [show other.streamId = stream.streamId from congrArg (·.1) same] at registered
  exact neutral.entries registered

theorem wired (neutral : Neutral session next lost) (wired : session.Wired) : next.Wired where
  entries := fun found => by
    obtain ⟨stream, there, streamId⟩ := wired.entries (neutral.entries found)
    obtain ⟨other, found, same⟩ := neutral.stays there
    exact ⟨other, found, (congrArg (·.1) same).trans streamId⟩
  pending := fun {streamId handle data} loop => by
    have delivering : session.readLoop = .delivering streamId handle data := by
      have pending := neutral.pending
      rw [loop] at pending
      exact ReadLoop.pending_eq_some pending.symm
    obtain ⟨stream, there, streamId⟩ := wired.pending delivering
    obtain ⟨other, found, same⟩ := neutral.stays there
    exact ⟨other, found, (congrArg (·.1) same).trans streamId⟩
  channels := fun there tcp => by
    obtain ⟨stream, was, same⟩ := neutral.found there
    have tcp' : stream.udp = false := (congrArg (·.2.1) same).symm.trans tcp
    exact (wired.channels was tcp').of_channel same (neutral.hasSender same)

theorem fades (neutral : Neutral session next lost) (wired : session.Wired) :
    Fades session next lost where
  wired := neutral.wired wired
  length := neutral.length
  kept := neutral.kept
  found := fun there => by
    obtain ⟨stream, was, same⟩ := neutral.found there
    refine ⟨stream, was, ⟨congrArg (·.1) same, congrArg (·.2.1) same, ?_⟩, fun _ => ?_⟩
    · exact neutral.live was there
    · exact fades_of_channel same neutral.pending (neutral.hasSender same)
  pending := neutral.pending
  closed := neutral.closed

end Neutral

theorem neutral_modifyHandle (session : Session) (handle : Nat)
    {change : StreamHandle → StreamHandle}
    (same : ∀ stream, (change stream).channel = stream.channel)
    (live : ∀ stream, (change stream).live = true → stream.live = true) :
    Neutral session (session.modifyHandle handle change) fun _ => False where
  entries := id
  kept := Or.inl
  channels := by
    change (session.handles.modify handle change).map _ = _
    apply List.ext_getElem?
    intro other
    simp only [List.getElem?_map, List.getElem?_modify]
    cases session.handles[other]? with
    | none => rfl
    | some stream =>
        simp only [Option.map_some]
        split
        · exact congrArg some (same stream)
        · rfl
  live := fun was there => by
    rw [kept_modifyHandle handle change was] at there
    cases there
    split
    · exact live _
    · exact id
  pending := rfl
  closed := id

theorem neutral_trySend (session : Session) (frame : Frame) :
    Neutral session (session.trySend frame) fun _ => False := by
  unfold trySend
  split
  · split
    · exact .of_same rfl rfl rfl id
    · exact .refl session
  · exact .refl session

theorem neutral_supersede (session : Session) (streamId : UInt32) :
    Neutral session (session.supersede streamId) fun _ => False := by
  unfold supersede
  split
  · exact neutral_modifyHandle session _ (fun _ => rfl) fun _ => id
  · exact .refl session

/-- The object is the one that is registered under the id. -/
def Registered (session : Session) (streamId : UInt32) (handle : Nat) : Prop :=
  session.streams.lookup streamId = some (.active handle)

theorem neutral_removeStream (session : Session) (streamId : UInt32) :
    Neutral session (session.removeStream streamId) (session.Registered streamId) where
  entries := fun found => (lookup_erase_eq_some found).2
  kept := fun {other handle} found => by
    rcases eq_or_ne other streamId with rfl | different
    · exact Or.inr found
    · refine Or.inl ?_
      change (session.streams.erase streamId).lookup other = _
      rw [AList.lookup_erase_ne different]
      exact found
  channels := rfl
  live := fun was there => by
    cases was.symm.trans there
    exact id
  pending := rfl
  closed := id

theorem registered_supersede (session : Session) (streamId other : UInt32) (handle : Nat) :
    (session.supersede streamId).Registered other handle ↔ session.Registered other handle := by
  have streams : (session.supersede streamId).streams = session.streams := by
    unfold supersede
    split <;> rfl
  rw [Registered, streams, Registered]

theorem neutral_removeOwn (session : Session) (handle : Nat) (streamId : UInt32) :
    Neutral session (session.removeOwn handle streamId) (session.Registered streamId) := by
  unfold removeOwn
  split
  · split
    · exact neutral_removeStream session streamId
    · refine ((neutral_supersede session streamId).weaken fun _ => False.elim).trans ?_
      refine (neutral_removeStream _ streamId).weaken fun other => ?_
      exact (registered_supersede session streamId streamId other).mp
  · exact (Neutral.refl session).weaken fun _ => False.elim

theorem neutral_finish (session : Session) :
    Neutral session session.finish fun _ => True where
  entries := fun found => by
    rw [show session.finish.streams = ∅ from rfl, AList.lookup_empty] at found
    cases found
  kept := fun _ => Or.inr trivial
  channels := rfl
  live := fun was there => by
    cases was.symm.trans there
    exact id
  pending := rfl
  closed := fun _ => rfl

theorem neutral_closeIfIdle (session : Session) :
    Neutral session session.closeIfIdle fun _ => False := by
  unfold closeIfIdle
  split
  · split
    · next empty =>
        refine { neutral_finish session with kept := fun {streamId handle} found => ?_ }
        have entries : session.streams = ∅ := AList.ext (List.isEmpty_iff.mp empty)
        rw [entries, AList.lookup_empty] at found
        cases found
    · exact .refl session
  · exact .refl session

theorem neutral_sendFin (session : Session) (stream : StreamHandle) :
    Neutral session (session.sendFin stream) fun _ => False := by
  unfold sendFin
  split
  · exact .refl session
  · exact neutral_trySend ..

theorem neutral_kill (session : Session) (handle : Nat) :
    Neutral session (session.kill handle) fun _ => False := by
  refine neutral_modifyHandle session handle ?_ ?_
  · exact fun _ => rfl
  · exact fun _ => nofun

theorem neutral_dropHandle (session : Session) (handle : Nat) (stream : StreamHandle) :
    Neutral session (session.dropHandle handle stream) (session.Registered stream.streamId) := by
  have killed : Neutral session ((session.sendFin stream).kill handle) fun _ => False :=
    (neutral_sendFin session stream).trans (neutral_kill _ handle)
  have removed := neutral_removeOwn ((session.sendFin stream).kill handle) handle stream.streamId
  have idle := neutral_closeIfIdle
    (((session.sendFin stream).kill handle).removeOwn handle stream.streamId)
  rw [dropHandle_eq]
  refine (killed.weaken fun _ => False.elim).trans ?_
  refine (removed.weaken fun _ => killed.entries).trans ?_
  exact idle.weaken fun _ => False.elim

/-! Steps that change one channel. -/

/-- Only the channel of this object changes. -/
structure Alters (session next : Session) (handle : Nat) (stream other : StreamHandle) : Prop where
  length : next.handles.length = session.handles.length
  closed : next.closed = session.closed
  was : session.handles[handle]? = some stream
  there : next.handles[handle]? = some other
  others : ∀ {others : Nat}, others ≠ handle → next.handles[others]? = session.handles[others]?
  kin : Kin stream other
  entries : ∀ {streamId others}, next.streams.lookup streamId = some (.active others) →
    session.streams.lookup streamId = some (.active others)
  pending : ∀ {streamId others data}, next.readLoop.pending = some (streamId, others, data) →
    session.readLoop.pending = some (streamId, others, data) ∨
      others = handle ∧ streamId = stream.streamId
  blocked : ∀ {others : Nat}, others ≠ handle → next.blocked others = session.blocked others
  wiredAt : other.udp = false → next.WiredAt handle other

namespace Alters

variable {session next : Session} {handle : Nat} {stream other : StreamHandle}

theorem hasSender (alters : Alters session next handle stream other) {others : Nat}
    (different : others ≠ handle) (third : StreamHandle)
    (sender : next.hasSender others third = true) : session.hasSender others third = true := by
  rw [hasSender_iff] at sender ⊢
  refine sender.imp alters.entries fun sending => ?_
  obtain ⟨streamId, data, pending⟩ := sending
  exact ⟨streamId, data, (alters.pending pending).resolve_right fun same => different same.1⟩

theorem wired (alters : Alters session next handle stream other) (wired : session.Wired) :
    next.Wired := by
  have goes {third : StreamHandle} {others : Nat} {streamId : UInt32}
      (was : session.handles[others]? = some third) (same : third.streamId = streamId) :
      ∃ fourth : StreamHandle,
        next.handles[others]? = some fourth ∧ fourth.streamId = streamId := by
    rcases eq_or_ne others handle with rfl | different
    · cases was.symm.trans alters.was
      exact ⟨other, alters.there, alters.kin.streamId.trans same⟩
    · exact ⟨third, (alters.others different).trans was, same⟩
  refine ⟨fun found => ?_, fun {streamId others data} loop => ?_,
    fun {others third} found tcp => ?_⟩
  · obtain ⟨third, was, same⟩ := wired.entries (alters.entries found)
    exact goes was same
  · have pending : next.readLoop.pending = some (streamId, others, data) := by
      rw [loop]
      rfl
    rcases alters.pending pending with before | ⟨rfl, rfl⟩
    · obtain ⟨third, was, same⟩ := wired.pending (ReadLoop.pending_eq_some before)
      exact goes was same
    · exact ⟨other, alters.there, alters.kin.streamId⟩
  · rcases eq_or_ne others handle with rfl | different
    · cases found.symm.trans alters.there
      exact alters.wiredAt tcp
    · have was := (alters.others different).symm.trans found
      have before := wired.channels was tcp
      exact ⟨before.ordered, fun sender => before.opened (alters.hasSender different third sender)⟩

theorem pipe (alters : Alters session next handle stream other) {others : Nat}
    (different : others ≠ handle) (third : StreamHandle) :
    (session.pipe others third).Fades (next.pipe others third) := by
  refine Pipe.fades_of_linked rfl ?_ (alters.hasSender different third)
  change _ ++ next.blocked others = _ ++ session.blocked others
  rw [alters.blocked different]

end Alters

theorem Fades.trans {session next third : Session} {lost : Nat → Prop}
    (before : Fades session next lost) (after : Fades next third lost) :
    Fades session third lost where
  wired := after.wired
  length := after.length.trans before.length
  kept := fun found => (before.kept found).elim after.kept Or.inr
  found := fun there => by
    obtain ⟨middle, found, kin, fades⟩ := after.found there
    obtain ⟨stream, was, kin', fades'⟩ := before.found found
    refine ⟨stream, was, ⟨kin.streamId.trans kin'.streamId, kin.udp.trans kin'.udp, ?_⟩, ?_⟩
    · exact kin'.live ∘ kin.live
    · intro tcp
      exact (fades' (kin.udp.symm.trans tcp)).trans (fades tcp)
  pending := after.pending.trans before.pending
  closed := after.closed ∘ before.closed

theorem Fades.weaken {session next : Session} {lost lost' : Nat → Prop}
    (fades : Fades session next lost) (weaker : ∀ handle, lost handle → lost' handle) :
    Fades session next lost' where
  wired := fades.wired
  length := fades.length
  kept := fun found => (fades.kept found).imp_right (weaker _)
  found := fades.found
  pending := fades.pending
  closed := fades.closed

theorem Wired.sender_of_entry {session : Session} {streamId : UInt32} {handle : Nat}
    (wired : session.Wired) (entry : session.Registered streamId handle) :
    ∃ stream, session.handles[handle]? = some stream ∧ stream.streamId = streamId ∧
      session.hasSender handle stream = true := by
  obtain ⟨stream, there, rfl⟩ := wired.entries entry
  exact ⟨stream, there, rfl, (hasSender_iff ..).mpr (Or.inl entry)⟩

theorem blocked_eq_nil {session : Session} (idle : session.readLoop.pending = none)
    (handle : Nat) : session.blocked handle = [] := by
  unfold blocked
  rw [idle]

theorem others_modifyHandle (session : Session) {handle others : Nat}
    (change : StreamHandle → StreamHandle) (different : others ≠ handle) :
    (session.modifyHandle handle change).handles[others]? = session.handles[others]? :=
  List.getElem?_modify_ne change _ different.symm

def ending (event : Option StreamEvent) (stream : StreamHandle) : StreamHandle :=
  if stream.queue.length < streamQueueCapacity then
    { stream with queue := stream.queue ++ event.toList, ended := true }
  else { stream with ended := true }

theorem kin_ending (event : Option StreamEvent) (stream : StreamHandle) :
    Kin stream (ending event stream) := by
  unfold ending
  split <;> exact ⟨rfl, rfl, id⟩

theorem queue_ending (event : Option StreamEvent) (stream : StreamHandle) :
    (ending event stream).queue = stream.queue ∨
      (ending event stream).queue = stream.queue ++ event.toList := by
  unfold ending
  split
  · exact Or.inr rfl
  · exact Or.inl rfl

theorem ordered_of_all {stream : StreamHandle} (opened : stream.finReceived = false)
    {front extra : List StreamEvent} (queue : stream.queue = front ++ extra)
    (short : extra.length ≤ 1) (all : ∀ item ∈ front, item.chunk ≠ none) : stream.Ordered := by
  refine ⟨fun before item back shape notice => ?_, fun finished => ?_⟩
  · rw [queue] at shape
    rcases List.append_eq_append_iff.mp shape with ⟨between, rfl, rest⟩ | ⟨between, rfl, rest⟩
    · rw [rest, List.length_append, List.length_cons] at short
      exact List.length_eq_zero_iff.mp (by omega)
    · cases between with
      | nil =>
          rw [List.nil_append] at rest
          rw [← rest, List.length_cons] at short
          exact List.length_eq_zero_iff.mp (by omega)
      | cons first between =>
          injection rest with same _
          subst same
          exact absurd notice (all item (List.mem_append_right _ (List.mem_cons_self ..)))
  · rw [opened] at finished
    cases finished

theorem chunks_ending {event : Option StreamEvent} (notice : ∀ item ∈ event, item.chunk = none)
    (stream : StreamHandle) :
    (ending event stream).queue.filterMap StreamEvent.chunk =
      stream.queue.filterMap StreamEvent.chunk := by
  rcases queue_ending event stream with same | more
  · rw [same]
  · rw [more, List.filterMap_append]
    cases event with
    | none => exact List.append_nil _
    | some item =>
        change _ ++ List.filterMap _ [item] = _
        rw [List.filterMap_cons_none (notice item rfl), List.filterMap_nil, List.append_nil]

theorem endStream_of_active {session : Session} {streamId : UInt32} {handle : Nat}
    (entry : session.Registered streamId handle) (event : Option StreamEvent) :
    session.endStream streamId event =
      (session.modifyHandle handle (ending event)).removeStream streamId := by
  unfold endStream
  rw [show session.streams.lookup streamId = some (.active handle) from entry]
  rfl

theorem endStream_of_inactive {session : Session} {streamId : UInt32}
    (inactive : ∀ handle, ¬session.Registered streamId handle) (event : Option StreamEvent) :
    session.endStream streamId event = session.removeStream streamId := by
  unfold endStream
  split
  · next handle entry => exact absurd entry (inactive handle)
  · rfl

theorem streams_endStream (session : Session) (streamId : UInt32) (event : Option StreamEvent) :
    (session.endStream streamId event).streams = session.streams.erase streamId ∧
      (session.endStream streamId event).readLoop = session.readLoop ∧
        (session.endStream streamId event).closed = session.closed := by
  unfold endStream
  split <;> exact ⟨rfl, rfl, rfl⟩

theorem unsent_endStream {session : Session} (idle : session.readLoop.pending = none)
    (event : Option StreamEvent) (handle : Nat) (stream : StreamHandle) :
    (session.endStream stream.streamId event).hasSender handle stream = false := by
  obtain ⟨streams, readLoop, -⟩ := streams_endStream session stream.streamId event
  rw [← Bool.not_eq_true, hasSender_iff, streams, readLoop, AList.lookup_erase, idle]
  rintro (nothing | ⟨_, _, nothing⟩)
  · cases nothing
  · cases nothing

theorem alters_endStream {session : Session} (wired : session.Wired)
    (idle : session.readLoop.pending = none) {handle : Nat} {stream : StreamHandle}
    (entry : session.Registered stream.streamId handle)
    (was : session.handles[handle]? = some stream) (event : Option StreamEvent) :
    Alters session (session.endStream stream.streamId event) handle stream
      (ending event stream) := by
  obtain ⟨streams, readLoop, closed⟩ := streams_endStream session stream.streamId event
  have shape := endStream_of_active entry event
  have there := kept_modifyHandle handle (ending event) was
  rw [if_pos rfl] at there
  refine ⟨by rw [shape]; exact List.length_modify .., closed, was, by rw [shape]; exact there,
    fun {others} different => ?_, kin_ending event stream, fun found => ?_, fun pending => ?_,
    fun {others} _ => ?_, fun tcp => ?_⟩
  · rw [shape]
    exact others_modifyHandle session (ending event) different
  · rw [streams] at found
    exact (lookup_erase_eq_some found).2
  · rw [readLoop] at pending
    exact Or.inl pending
  · rw [blocked, readLoop]
    rfl
  · have opened : stream.Open := by
      refine (wired.channels was ((kin_ending event stream).udp.symm.trans tcp)).opened ?_
      exact (hasSender_iff ..).mpr (Or.inl entry)
    have finReceived : (ending event stream).finReceived = false := by
      unfold ending
      split <;> exact opened.1
    refine ⟨?_, fun sends => ?_⟩
    · rcases queue_ending event stream with same | more
      · exact ordered_of_all finReceived (same.trans (List.append_nil _).symm) (Nat.zero_le _)
          opened.2
      · refine ordered_of_all finReceived more ?_ opened.2
        cases event with
        | none => exact Nat.zero_le _
        | some item => exact Nat.le_refl _
    · have unsent := unsent_endStream idle event handle (ending event stream)
      rw [(kin_ending event stream).streamId, sends] at unsent
      cases unsent

/-- A stream that ends while the loop reads may find its end behind the queue,
and has no sender. -/
theorem fades_endStream {session : Session} (wired : session.Wired)
    (idle : session.readLoop.pending = none) (streamId : UInt32) {event : Option StreamEvent}
    (notice : ∀ item ∈ event, item.chunk = none) :
    Fades session (session.endStream streamId event) (session.Registered streamId) := by
  have kept {other : UInt32} {handle : Nat} (found : session.Registered other handle) :
      (session.endStream streamId event).Registered other handle ∨
        session.Registered streamId handle := by
    rcases eq_or_ne other streamId with rfl | different
    · exact Or.inr found
    · refine Or.inl ?_
      unfold endStream
      split
      · exact (AList.lookup_erase_ne different).trans found
      · exact (AList.lookup_erase_ne different).trans found
  rcases Classical.em (∃ handle, session.Registered streamId handle) with ⟨handle, entry⟩ | none
  · obtain ⟨stream, was, rfl, -⟩ := wired.sender_of_entry entry
    have alters := alters_endStream wired idle entry was event
    have pending :=
      congrArg ReadLoop.pending (streams_endStream session stream.streamId event).2.1
    refine ⟨alters.wired wired, alters.length, kept, fun {others third} found => ?_, pending,
      alters.closed.trans⟩
    rcases eq_or_ne others handle with rfl | different
    · cases found.symm.trans alters.there
      refine ⟨stream, was, alters.kin, fun _ => Pipe.fades_of_linked ?_ ?_ fun sends => ?_⟩
      · change (ending event stream).readBuffer = stream.readBuffer
        unfold ending
        split <;> rfl
      · change _ ++ _ = _ ++ _
        rw [chunks_ending notice, blocked, pending]
        rfl
      · have unsent := unsent_endStream idle event others (ending event stream)
        rw [(kin_ending event stream).streamId] at unsent
        exact absurd (sends.symm.trans unsent) nofun
    · have was' := (alters.others different).symm.trans found
      exact ⟨third, was', ⟨rfl, rfl, id⟩, fun _ => alters.pipe different third⟩
  · rw [endStream_of_inactive fun handle entry => none ⟨handle, entry⟩]
    exact (neutral_removeStream session streamId).fades wired

theorem fades_endStreams {session : Session} (wired : session.Wired)
    (idle : session.readLoop.pending = none) {event : Option StreamEvent}
    (notice : ∀ item ∈ event, item.chunk = none) (streamIds : List UInt32) :
    Fades session
      (streamIds.foldl (fun session streamId => session.endStream streamId event) session)
      fun handle => ∃ streamId, session.Registered streamId handle := by
  induction streamIds generalizing session with
  | nil => exact ((Neutral.refl session).weaken fun _ => False.elim).fades wired
  | cons streamId streamIds ih =>
      have first := fades_endStream wired idle streamId notice
      refine (first.weaken fun handle entry => ⟨streamId, entry⟩).trans ?_
      refine (ih first.wired (first.pending.trans idle)).weaken fun handle later => ?_
      obtain ⟨other, entry⟩ := later
      refine ⟨other, ?_⟩
      change (session.endStream streamId event).streams.lookup other = _ at entry
      rw [(streams_endStream session streamId event).1] at entry
      exact (lookup_erase_eq_some entry).2

/-! Data for a stream. -/

theorem hasSender_congr {session next : Session} {handle : Nat} {stream other : StreamHandle}
    (streamId : other.streamId = stream.streamId) (streams : next.streams = session.streams)
    (pending : next.readLoop.pending = session.readLoop.pending) :
    next.hasSender handle other = session.hasSender handle stream := by
  rw [Bool.eq_iff_iff, hasSender_iff, hasSender_iff, streamId, streams, pending]

def queueing (data : Bytes) (stream : StreamHandle) : StreamHandle :=
  { stream with queue := stream.queue ++ [.data data] }

theorem open_queueing {stream : StreamHandle} (opened : stream.Open) (data : Bytes) :
    (queueing data stream).Open := by
  refine ⟨opened.1, fun event member => ?_⟩
  rcases List.mem_append.mp member with old | new
  · exact opened.2 event old
  · rw [List.mem_singleton.mp new]
    exact nofun

theorem ordered_of_open {stream : StreamHandle} (opened : stream.Open) : stream.Ordered :=
  ordered_of_all opened.1 (List.append_nil _).symm (Nat.zero_le _) opened.2

theorem chunks_queueing (data : Bytes) (stream : StreamHandle) :
    (queueing data stream).queue.filterMap StreamEvent.chunk =
      stream.queue.filterMap StreamEvent.chunk ++ [data] := by
  change (stream.queue ++ [StreamEvent.data data]).filterMap _ = _
  rw [List.filterMap_append]
  rfl

theorem sendData_of_live {session : Session} {handle : Nat} {stream : StreamHandle}
    (was : session.handles[handle]? = some stream) (live : stream.live = true)
    (streamId : UInt32) (data : Bytes) :
    session.sendData streamId handle data =
      if stream.queue.length < streamQueueCapacity then
        session.modifyHandle handle (queueing data)
      else { session with readLoop := .delivering streamId handle data } := by
  unfold sendData
  rw [was]
  exact if_pos live

theorem sendData_of_gone {session : Session} {handle : Nat} {stream : StreamHandle}
    (was : session.handles[handle]? = some stream) (gone : stream.live = false)
    (streamId : UInt32) (data : Bytes) :
    session.sendData streamId handle data = session.removeOwn handle streamId := by
  unfold sendData
  rw [was]
  exact if_neg fun live => Bool.noConfusion (gone.symm.trans live)

theorem alters_sendData {session : Session} (wired : session.Wired)
    (idle : session.readLoop.pending = none) {handle : Nat} {stream : StreamHandle}
    (entry : session.Registered stream.streamId handle)
    (was : session.handles[handle]? = some stream) (live : stream.live = true) (data : Bytes) :
    ∃ other, Alters session (session.sendData stream.streamId handle data) handle stream other ∧
      (session.sendData stream.streamId handle data).streams = session.streams ∧
        (session.pipe handle stream).Step (some data) none
          ((session.sendData stream.streamId handle data).pipe handle other) := by
  have sender : session.hasSender handle stream = true := (hasSender_iff ..).mpr (Or.inl entry)
  rw [sendData_of_live was live]
  split
  · have there := kept_modifyHandle handle (queueing data) was
    rw [if_pos rfl] at there
    have same : (session.modifyHandle handle (queueing data)).hasSender handle
        (queueing data stream) = session.hasSender handle stream :=
      hasSender_congr rfl rfl rfl
    refine ⟨queueing data stream, ⟨List.length_modify .., rfl, was, there,
      others_modifyHandle session _, ⟨rfl, rfl, id⟩, id, Or.inl, fun _ => rfl,
      fun tcp => ?_⟩, rfl, ?_⟩
    · have opened := open_queueing ((wired.channels was tcp).opened sender) data
      exact ⟨ordered_of_open opened, fun _ => opened⟩
    · refine .of_push rfl ?_ sender (same.trans sender)
      change (queueing data stream).queue.filterMap _ ++ session.blocked handle = _
      rw [chunks_queueing, blocked_eq_nil idle, List.append_nil, Session.pipe,
        blocked_eq_nil idle, List.append_nil]
  · have sender' : Session.hasSender
        { session with readLoop := .delivering stream.streamId handle data } handle stream = true :=
      (hasSender_iff ..).mpr (Or.inl entry)
    refine ⟨stream, ⟨rfl, rfl, was, was, fun _ => rfl, ⟨rfl, rfl, id⟩, id, fun pending => ?_,
      fun different => ?_, fun tcp => ?_⟩, rfl, ?_⟩
    · cases pending
      exact Or.inr ⟨rfl, rfl⟩
    · rw [blocked_eq_nil idle]
      exact if_neg different.symm
    · have before := wired.channels was tcp
      exact ⟨before.ordered, fun _ => before.opened sender⟩
    · refine .of_push rfl ?_ sender sender'
      change _ ++ (if handle = handle then [data] else []) = _
      rw [if_pos rfl, Session.pipe, blocked_eq_nil idle, List.append_nil]

theorem alters_delivered {session : Session} (wired : session.Wired) {streamId : UInt32}
    {handle : Nat} {data : Bytes} (loop : session.readLoop = .delivering streamId handle data)
    {stream : StreamHandle} (was : session.handles[handle]? = some stream) :
    Alters session
        (({ session with readLoop := .reading } : Session).modifyHandle handle (queueing data))
        handle stream (queueing data stream) ∧
      (session.pipe handle stream).Fades
        ((({ session with readLoop := .reading } : Session).modifyHandle handle
          (queueing data)).pipe handle (queueing data stream)) := by
  have sender : session.hasSender handle stream = true :=
    (hasSender_iff ..).mpr (Or.inr ⟨streamId, data, by rw [loop]; rfl⟩)
  have there := kept_modifyHandle handle (queueing data) was
  rw [if_pos rfl] at there
  have blocked (others : Nat) :
      session.blocked others = if handle = others then [data] else [] := by
    unfold Session.blocked
    rw [loop]
    rfl
  refine ⟨⟨List.length_modify .., rfl, was, there, others_modifyHandle session _,
    ⟨rfl, rfl, id⟩, id, nofun,
    fun {others} different => ?_, fun tcp => ?_⟩, ?_⟩
  · rw [blocked, if_neg different.symm]
    rfl
  · have opened := open_queueing ((wired.channels was tcp).opened sender) data
    exact ⟨ordered_of_open opened, fun _ => opened⟩
  · refine Pipe.fades_of_linked rfl ?_ fun _ => sender
    change (queueing data stream).queue.filterMap _ ++ [] = _
    rw [chunks_queueing, List.append_nil, Session.pipe, blocked, if_pos rfl]

theorem alters_undelivered {session : Session} (wired : session.Wired) {streamId : UInt32}
    {handle : Nat} {data : Bytes} (loop : session.readLoop = .delivering streamId handle data)
    {stream : StreamHandle} (was : session.handles[handle]? = some stream) :
    Alters session { session with readLoop := .reading } handle stream stream := by
  refine ⟨rfl, rfl, was, was, fun _ => rfl, ⟨rfl, rfl, id⟩, id, nofun, fun {others} different => ?_,
    fun tcp => ?_⟩
  · unfold Session.blocked
    rw [loop]
    exact (if_neg different.symm).symm
  · have before := wired.channels was tcp
    refine ⟨before.ordered, fun sends => before.opened ?_⟩
    rw [hasSender_iff] at sends ⊢
    rcases sends with entry | ⟨_, _, nothing⟩
    · exact Or.inl entry
    · cases nothing

/-! Reads. -/

def ReadResult.outcome : ReadResult → Option Bytes
  | .ready bytes => some bytes
  | .closed none => some []
  | _ => none

theorem blocked_of_unsent {session : Session} {handle : Nat} {stream : StreamHandle}
    (unsent : session.hasSender handle stream = false) : session.blocked handle = [] := by
  unfold blocked
  split
  · next streamId other data pending =>
      refine if_neg fun same => ?_
      subst same
      have sender := (hasSender_iff session other stream).mpr (Or.inr ⟨streamId, data, pending⟩)
      rw [unsent] at sender
      cases sender
  · rfl

theorem blocked_of_absent {session : Session} (wired : session.Wired) {handle : Nat}
    (absent : session.handles[handle]? = none) : session.blocked handle = [] := by
  unfold blocked
  split
  · next streamId other data pending =>
      refine if_neg fun same => ?_
      obtain ⟨stream, was, -⟩ := wired.pending (ReadLoop.pending_eq_some pending)
      rw [same, absent] at was
      cases was
  · rfl

theorem unsent_of_end {session : Session} {handle : Nat} {stream : StreamHandle}
    (wiredAt : session.WiredAt handle stream) (ended : ¬stream.Open) :
    session.hasSender handle stream = false := by
  rw [← Bool.not_eq_true]
  exact fun sender => ended (wiredAt.opened sender)

theorem wiredAt_of_unsent {session : Session} {handle : Nat} {stream : StreamHandle}
    (unsent : session.hasSender handle stream = false) (nothing : stream.queue = []) :
    session.WiredAt handle stream := by
  refine ⟨⟨fun front event back shape _ => ?_, fun _ => ?_⟩, fun sends => ?_⟩
  · rw [nothing] at shape
    exact absurd shape.symm (List.append_ne_nil_of_right_ne_nil _ (List.cons_ne_nil _ _))
  · rw [nothing]
    rfl
  · rw [unsent] at sends
    cases sends

theorem spent_of_unsent {session : Session} {handle : Nat} {stream : StreamHandle}
    (unsent : session.hasSender handle stream = false) (buffer : stream.readBuffer = [])
    (nothing : stream.queue.filterMap StreamEvent.chunk = []) :
    (session.pipe handle stream).Spent := by
  refine ⟨unsent, buffer, ?_⟩
  change stream.queue.filterMap _ ++ session.blocked handle = []
  rw [nothing, blocked_of_unsent unsent]
  rfl

theorem step_readTcp {session : Session} {handle : Nat} {stream : StreamHandle}
    (wiredAt : session.WiredAt handle stream) (size : Nat) :
    session.WiredAt handle (readTcp (session.hasSender handle stream) size stream).2 ∧
      (session.pipe handle stream).Step none
        ((readTcp (session.hasSender handle stream) size stream).1.outcome.map (size, ·))
        (session.pipe handle (readTcp (session.hasSender handle stream) size stream).2) := by
  unfold readTcp
  split
  · next served =>
      have buffer : stream.readBuffer = [] := List.isEmpty_iff.mp served
      split
      · next finished =>
          have unsent := unsent_of_end wiredAt fun opened => by
            rw [opened.1] at finished
            cases finished
          refine ⟨wiredAt, .eof size buffer ?_ unsent⟩
          change stream.queue.filterMap _ ++ session.blocked handle = []
          rw [wiredAt.ordered.finished finished, blocked_of_unsent unsent]
          rfl
      · next unfinished =>
          split
          · next bytes queue shape =>
              refine ⟨⟨⟨?_, fun finished => absurd finished unfinished⟩, fun sends => ?_⟩, ?_⟩
              · intro front event back after notice
                refine wiredAt.ordered.last (.data bytes :: front) event back ?_ notice
                exact shape.trans (congrArg _ after)
              · obtain ⟨opened, all⟩ := wiredAt.opened sends
                rw [shape] at all
                exact ⟨opened, fun event member => all event (List.mem_cons_of_mem _ member)⟩
              · refine .begin size bytes (queue.filterMap _ ++ session.blocked handle) buffer ?_
                change stream.queue.filterMap _ ++ _ = _
                rw [shape]
                rfl
          · next queue shape =>
              have last := wiredAt.ordered.last [] .fin queue shape rfl
              have unsent := unsent_of_end wiredAt fun opened =>
                opened.2 .fin (shape ▸ List.mem_cons_self ..) rfl
              refine ⟨wiredAt_of_unsent unsent last, Pipe.Spent.eof ?_ ?_ size⟩
              · refine spent_of_unsent unsent buffer ?_
                rw [shape, last]
                rfl
              · refine spent_of_unsent unsent buffer ?_
                change queue.filterMap _ = []
                rw [last]
                rfl
          · next message queue shape =>
              have last := wiredAt.ordered.last [] (.synAckError message) queue shape rfl
              have unsent := unsent_of_end wiredAt fun opened =>
                opened.2 (.synAckError message) (shape ▸ List.mem_cons_self ..) rfl
              refine ⟨wiredAt_of_unsent unsent last, Pipe.Fades.step ?_⟩
              refine Pipe.fades_of_linked rfl ?_ id
              change queue.filterMap _ ++ _ = stream.queue.filterMap _ ++ _
              rw [shape]
              rfl
          · next shape =>
              split
              · exact ⟨wiredAt, .stay⟩
              · next silent =>
                  have unsent := Bool.not_eq_true _ |>.mp silent
                  have nothing : stream.queue.filterMap StreamEvent.chunk = [] := by
                    rw [shape]
                    rfl
                  exact ⟨wiredAt_of_unsent unsent shape, (spent_of_unsent unsent buffer nothing).eof
                    (spent_of_unsent unsent buffer nothing) size⟩
  · next left =>
      have buffer : stream.readBuffer ≠ [] := fun empty => left (List.isEmpty_iff.mpr empty)
      refine ⟨⟨⟨wiredAt.ordered.last, wiredAt.ordered.finished⟩, wiredAt.opened⟩, ?_⟩
      exact .serve size buffer

end Session

end QuicProxy
