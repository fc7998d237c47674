import QuicProxy.Proxy.Anytls.Carried

namespace QuicProxy

/-! One stream at a server: the PSH frames that carry it, in whatever pieces, what
they open, and the reads of its object (`src/proxy/inbound/anytls.rs`). -/

/-- `handle_target` with its target, or the object that `handle_uot_request` makes. -/
inductive Opening where
  | stream (target : TargetAddr)
  | packets (isConnect : Bool) (realTarget : TargetAddr)
deriving DecidableEq

namespace Session

def openedFirst (data : Bytes) : Option Opening :=
  match Anytls.parseTargetFromSyn data with
  | some (.ok (.domain name port)) =>
      if name = udpOverTcpTarget then none else some (.stream (.domain name port))
  | some (.ok (.ip addr)) => some (.stream (.ip addr))
  | _ => none

def openedRequest : Bytes → Option Opening
  | [] => none
  | mode :: data =>
      match TargetAddr.readFrom data with
      | .error _ => none
      | .ok (target, _) => some (.packets (mode ≠ 0) target)

def opens (session : Session) : Event → Option Opening
  | .frame frame =>
      match frame.cmd, session.streams.lookup frame.streamId with
      | .psh, some .pending => openedFirst frame.data
      | .psh, some (.waitingUotRequest _) => openedRequest frame.data
      | _, _ => none
  | _ => none

def answer (session : Session) : Event → Option (Nat × ReadResult)
  | .read handle size =>
      (session.user handle).map fun stream =>
        (size, (readHandle session.side (session.hasSender handle stream) size stream).1)
  | _ => none

/-- What the read loop and the channel of an object hold back for it. -/
def waiting (session : Session) (handle : Nat) : Bytes :=
  match session.handles[handle]? with
  | some stream => (session.pipe handle stream).contents
  | none => []

inductive FirstPsh (session : Session) (streamId : UInt32) (data : Bytes) :
    Option Opening → Session → Prop
  | panics (parsed : Anytls.parseTargetFromSyn data = none) :
      FirstPsh session streamId data none { session with readLoop := .finished }
  | refused (error : String) (parsed : Anytls.parseTargetFromSyn data = some (.error error)) :
      FirstPsh session streamId data none (session.refuseStream streamId)
  | waits (port : UInt16)
      (parsed : Anytls.parseTargetFromSyn data = some (.ok (.domain udpOverTcpTarget port))) :
      FirstPsh session streamId data none
        (session.insertStream streamId (.waitingUotRequest (.domain udpOverTcpTarget port)))
  | opened (target : TargetAddr) (parsed : Anytls.parseTargetFromSyn data = some (.ok target))
      (other : ∀ port, target ≠ .domain udpOverTcpTarget port) :
      FirstPsh session streamId data (some (.stream target))
        (session.openStream (inboundHandle streamId false false []))

theorem firstPsh (session : Session) (streamId : UInt32) (data : Bytes) :
    FirstPsh session streamId data (openedFirst data) (session.handleFirstPsh streamId data) := by
  unfold handleFirstPsh openedFirst
  cases parsed : Anytls.parseTargetFromSyn data with
  | none => exact .panics parsed
  | some result =>
      cases result with
      | error error => exact .refused error parsed
      | ok target =>
          cases target with
          | ip addr => exact .opened (.ip addr) parsed nofun
          | domain name port =>
              simp only
              split
              · next same =>
                  subst same
                  exact .waits port parsed
              · next other =>
                  refine .opened (.domain name port) parsed fun port' same => other ?_
                  injection same

inductive UotPsh (session : Session) (streamId : UInt32) (data : Bytes) :
    Option Opening → Session → Prop
  | refused (cut : ∀ mode body, data = mode :: body →
        ∃ error, TargetAddr.readFrom body = .error error) :
      UotPsh session streamId data none (session.refuseStream streamId)
  | opened (mode : UInt8) (body : Bytes) (target : TargetAddr) (remaining : Bytes)
      (cut : data = mode :: body) (read : TargetAddr.readFrom body = .ok (target, remaining)) :
      UotPsh session streamId data (some (.packets (mode ≠ 0) target))
        (session.openStream (inboundHandle streamId true (mode ≠ 0)
          (if remaining.isEmpty then [] else [.data remaining])))

theorem uotPsh (session : Session) (streamId : UInt32) (data : Bytes) :
    UotPsh session streamId data (openedRequest data) (session.handleUotRequest streamId data) := by
  cases data with
  | nil => exact .refused nofun
  | cons mode body =>
      simp only [handleUotRequest, uotRequest, openedRequest]
      cases read : TargetAddr.readFrom body with
      | error error =>
          refine .refused fun mode' body' same => ⟨error, ?_⟩
          rw [← (List.cons.inj same).2, read]
      | ok result => exact .opened mode body result.1 result.2 rfl read

theorem step_frame {session : Session} (loop : session.readLoop = .reading)
    (side : session.side = .server) (frame : Frame) :
    session.step (.frame frame) = some { session.serverFrame frame with
      failed := session.failed || session.fails (.frame frame) } := by
  simp only [step, taskStep, loop, side, Option.some_or, Option.map_some]

theorem step_frame_of_busy {session : Session} (busy : session.readLoop ≠ .reading)
    (frame : Frame) : session.step (.frame frame) = none := by
  have waits : session.taskStep (.frame frame) = none := by
    cases loop : session.readLoop with
    | reading => exact absurd loop busy
    | delivering | returned | finished => simp only [taskStep, loop]
  rw [step, waits]
  rfl

end Session

/-- What reaches a server for one stream, and what its object is asked for. -/
inductive Input where
  | psh (data : Bytes)
  | deliver
  | read (size : Nat)

namespace Input

def event (streamId : UInt32) : Input → Session.Event
  | psh data => .frame ⟨streamId, .psh, data⟩
  | deliver => .deliver
  | read size => .read 0 size

def piece : Input → Option Bytes
  | psh data => some data
  | deliver | read _ => none

end Input

/-- A session with what its frames have opened and what the reads have answered. -/
structure Inflow where
  session : Session
  opened : List Opening
  answers : List (Nat × Session.ReadResult)

namespace Inflow

def step (streamId : UInt32) (inflow : Inflow) (input : Input) : Option Inflow :=
  (inflow.session.step (input.event streamId)).map fun session =>
    { session
      opened := inflow.opened ++ (inflow.session.opens (input.event streamId)).toList
      answers := inflow.answers ++ (inflow.session.answer (input.event streamId)).toList }

def registered (streamId : UInt32) : Inflow :=
  ⟨(Session.start .server []).serverFrame ⟨streamId, .syn, []⟩, [], []⟩

def pieces (inputs : List Input) : List Bytes := inputs.filterMap Input.piece

/-- The results of the reads that were Ready without an error. -/
def given (inflow : Inflow) : List Bytes :=
  inflow.answers.filterMap fun (_, result) => result.outcome

/-- The read loop goes on, or a read makes room for it. -/
def Moves (inflow : Inflow) : Prop :=
  match inflow.session.readLoop with
  | .reading => True
  | .delivering _ handle _ =>
      inflow.session.deliverData.isSome ∨ (inflow.session.user handle).any fun stream =>
        decide (streamQueueCapacity ≤ stream.queue.length)
  | .returned | .finished => False

end Inflow

/-! An open stream. -/

/-- The session serves the stream with its only object; a chunk may wait for room. -/
structure Serving (streamId : UInt32) (session : Session) (stream : StreamHandle)
    (blocked : Option Bytes) : Prop where
  side : session.side = .server
  entry : session.streams.lookup streamId = some (.active 0)
  handles : session.handles = [stream]
  loop : session.readLoop = blocked.elim .reading (.delivering streamId 0)
  own : stream.streamId = streamId
  live : stream.live = true
  connected : stream.connect = []

inductive Served (stream : StreamHandle) (answers : List (Nat × Session.ReadResult)) :
    Option Bytes → Input → StreamHandle → Option Bytes → List (Nat × Session.ReadResult) → Prop
  | queued (data : Bytes) (room : stream.queue.length < streamQueueCapacity) :
      Served stream answers none (.psh data) (Session.queueing data stream) none answers
  | waits (data : Bytes) (full : streamQueueCapacity ≤ stream.queue.length) :
      Served stream answers none (.psh data) stream (some data) answers
  | delivered (data : Bytes) :
      Served stream answers (some data) .deliver (Session.queueing data stream) none answers
  | read (blocked : Option Bytes) (size : Nat) :
      Served stream answers blocked (.read size)
        (Session.readHandle .server true size stream).2 blocked
        (answers ++ [(size, (Session.readHandle .server true size stream).1)])

namespace Serving

open Session

variable {streamId : UInt32} {session : Session} {stream : StreamHandle} {blocked : Option Bytes}

theorem there (serving : Serving streamId session stream blocked) :
    session.handles[0]? = some stream := by
  rw [serving.handles]
  rfl

theorem user (serving : Serving streamId session stream blocked) :
    session.user 0 = some stream := by
  rw [Session.user, serving.there, Option.filter_some, serving.live, serving.connected]
  rfl

theorem hasSender (serving : Serving streamId session stream blocked) :
    session.hasSender 0 stream = true := by
  refine (hasSender_iff ..).mpr (.inl ?_)
  rw [serving.own]
  exact serving.entry

theorem blocked_eq (serving : Serving streamId session stream blocked) :
    session.blocked 0 = blocked.toList := by
  rw [Session.blocked, serving.loop]
  cases blocked <;> rfl

theorem blocked_of_reading (serving : Serving streamId session stream blocked)
    (loop : session.readLoop = .reading) : blocked = none := by
  cases blocked with
  | none => rfl
  | some data => cases loop.symm.trans serving.loop

theorem waiting (serving : Serving streamId session stream blocked) :
    session.waiting 0 = stream.readBuffer ++
      (stream.queue.filterMap StreamEvent.chunk ++ blocked.toList).flatten := by
  rw [Session.waiting, serving.there]
  simp only [pipe, Pipe.contents, serving.blocked_eq]

theorem queueing (serving : Serving streamId session stream blocked) (data : Bytes)
    (failed : Bool) :
    Serving streamId
      { ({ session with readLoop := .reading } : Session).modifyHandle 0 (Session.queueing data)
        with failed := failed }
      (Session.queueing data stream) none where
  side := serving.side
  entry := serving.entry
  handles := by
    change session.handles.modify 0 _ = _
    rw [serving.handles]
    rfl
  loop := rfl
  own := serving.own
  live := serving.live
  connected := serving.connected

theorem pushed (serving : Serving streamId session stream blocked) (data : Bytes) (failed : Bool) :
    (stream.queue.length < streamQueueCapacity ∧
      Serving streamId
        { ({ session with readLoop := .reading } : Session).sendData streamId 0 data with
          failed := failed }
        (Session.queueing data stream) none) ∨
    (streamQueueCapacity ≤ stream.queue.length ∧
      Serving streamId
        { ({ session with readLoop := .reading } : Session).sendData streamId 0 data with
          failed := failed }
        stream (some data)) := by
  have there : ({ session with readLoop := .reading } : Session).handles[0]? = some stream :=
    serving.there
  rw [sendData_of_live there serving.live]
  rcases Nat.lt_or_ge stream.queue.length streamQueueCapacity with room | full
  · rw [if_pos room]
    exact .inl ⟨room, serving.queueing data failed⟩
  · rw [if_neg (Nat.not_lt.mpr full)]
    exact .inr ⟨full, serving.side, serving.entry, serving.handles, rfl, serving.own, serving.live,
      serving.connected⟩

variable {inflow next : Inflow} {input : Input}

theorem opens_eq (serving : Serving streamId session stream blocked) (input : Input) :
    session.opens (input.event streamId) = none := by
  cases input with
  | psh data => simp only [Input.event, opens, serving.entry]
  | deliver | read => rfl

theorem deliverData_eq {data : Bytes} (serving : Serving streamId session stream (some data)) :
    session.deliverData =
      if streamQueueCapacity ≤ stream.queue.length then none
      else some (({ session with readLoop := .reading } : Session).sendData streamId 0 data) := by
  have loop : session.readLoop = .delivering streamId 0 data := serving.loop
  simp only [deliverData, loop, serving.there, Option.bind_some, serving.live, Bool.true_and,
    decide_eq_true_eq, ge_iff_le]

theorem step_psh (serving : Serving streamId inflow.session stream none) (data : Bytes) :
    ∃ stream' blocked' session', inflow.step streamId (.psh data) =
        some ⟨session', inflow.opened, inflow.answers⟩ ∧
      Serving streamId session' stream' blocked' ∧
        Served stream inflow.answers none (.psh data) stream' blocked' inflow.answers := by
  have served : inflow.session.serverFrame ⟨streamId, .psh, data⟩ =
      ({ inflow.session with readLoop := .reading } : Session).sendData streamId 0 data := by
    have same : { inflow.session with readLoop := .reading } = inflow.session := by
      rw [show ReadLoop.reading = inflow.session.readLoop from serving.loop.symm]
    rw [same]
    simp only [serverFrame, serving.entry]
  have nothing := serving.opens_eq (.psh data)
  rw [Input.event] at nothing
  rw [Inflow.step, Input.event, step_frame serving.loop serving.side, nothing, served]
  simp only [Option.map_some, answer, Option.toList_none, List.append_nil]
  rcases serving.pushed data (inflow.session.failed ||
      inflow.session.fails (.frame ⟨streamId, .psh, data⟩)) with ⟨room, kept⟩ | ⟨full, kept⟩
  · exact ⟨_, _, _, rfl, kept, .queued data room⟩
  · exact ⟨_, _, _, rfl, kept, .waits data full⟩

theorem step_psh_room (serving : Serving streamId inflow.session stream none) (data : Bytes)
    (room : stream.queue.length < streamQueueCapacity) :
    ∃ session', inflow.step streamId (.psh data) =
        some ⟨session', inflow.opened, inflow.answers⟩ ∧
      Serving streamId session' (Session.queueing data stream) none := by
  obtain ⟨_, _, session', stepped, kept, served⟩ := serving.step_psh data
  cases served with
  | queued => exact ⟨session', stepped, kept⟩
  | waits _ full => exact absurd room (Nat.not_lt.mpr full)

theorem step_deliver {data : Bytes} (serving : Serving streamId inflow.session stream (some data))
    (room : stream.queue.length < streamQueueCapacity) :
    ∃ session', inflow.step streamId .deliver =
        some ⟨session', inflow.opened, inflow.answers⟩ ∧
      Serving streamId session' (Session.queueing data stream) none := by
  have taken := serving.deliverData_eq
  rw [if_neg (Nat.not_le.mpr room)] at taken
  rw [Inflow.step, Input.event, Session.step, taskStep, taken]
  simp only [Option.some_or, Option.map_some, opens, answer, Option.toList_none, List.append_nil]
  refine ⟨_, rfl, ?_⟩
  rcases serving.pushed data _ with ⟨_, kept⟩ | ⟨full, _⟩
  · exact kept
  · exact absurd room (Nat.not_lt.mpr full)

theorem step_read (serving : Serving streamId inflow.session stream blocked) (size : Nat) :
    ∃ session', inflow.step streamId (.read size) =
        some ⟨session', inflow.opened,
          inflow.answers ++ [(size, (readHandle .server true size stream).1)]⟩ ∧
      Serving streamId session' (readHandle .server true size stream).2 blocked := by
  have taken : inflow.session.step (.read 0 size) =
      some { inflow.session.modifyHandle 0 fun _ => (readHandle .server true size stream).2 with
        failed := inflow.session.failed || inflow.session.fails (.read 0 size) } := by
    simp only [Session.step, taskStep, userStep, serving.user, serving.side, serving.hasSender,
      Option.none_or, Option.map_some]
  have answered : inflow.session.answer (.read 0 size) =
      some (size, (readHandle .server true size stream).1) := by
    simp only [answer, serving.user, serving.side, serving.hasSender, Option.map_some]
  rw [Inflow.step, Input.event, taken, answered]
  simp only [Option.map_some, opens, Option.toList_none, List.append_nil, Option.toList_some]
  have core := (readHandle_ages .server true size stream).core
  refine ⟨_, rfl, serving.side, serving.entry, ?_, serving.loop,
    (congrArg (·.1) core).trans serving.own, (congrArg (·.2.2.1) core).trans serving.live,
    (congrArg (·.2.2.2) core).trans serving.connected⟩
  change inflow.session.handles.modify 0 _ = _
  rw [serving.handles]
  rfl

theorem step (serving : Serving streamId inflow.session stream blocked)
    (taken : inflow.step streamId input = some next) :
    ∃ stream' blocked', Serving streamId next.session stream' blocked' ∧
      next.opened = inflow.opened ∧
        Served stream inflow.answers blocked input stream' blocked' next.answers := by
  cases input with
  | psh data =>
      cases blocked with
      | none =>
          obtain ⟨stream', blocked', session', stepped, kept, served⟩ := serving.step_psh data
          cases stepped.symm.trans taken
          exact ⟨stream', blocked', kept, rfl, served⟩
      | some chunk =>
          have busy : inflow.session.readLoop ≠ .reading := by
            rw [serving.loop]
            exact nofun
          rw [Inflow.step, Input.event, step_frame_of_busy busy] at taken
          cases taken
  | deliver =>
      cases blocked with
      | none =>
          have idle : inflow.session.step .deliver = none := by
            simp only [Session.step, taskStep, deliverData, serving.loop, Option.elim_none,
              userStep]
            rfl
          rw [Inflow.step, Input.event, idle] at taken
          cases taken
      | some data =>
          rcases Nat.lt_or_ge stream.queue.length streamQueueCapacity with room | full
          · obtain ⟨session', stepped, kept⟩ := serving.step_deliver room
            cases stepped.symm.trans taken
            exact ⟨_, _, kept, rfl, .delivered data⟩
          · have waits : inflow.session.step .deliver = none := by
              rw [Session.step, taskStep, serving.deliverData_eq, if_pos full]
              rfl
            rw [Inflow.step, Input.event, waits] at taken
            cases taken
  | read size =>
      obtain ⟨session', stepped, kept⟩ := serving.step_read size
      cases stepped.symm.trans taken
      exact ⟨_, _, kept, rfl, .read blocked size⟩

theorem moves (serving : Serving streamId inflow.session stream blocked) : inflow.Moves := by
  cases blocked with
  | none => simp only [Inflow.Moves, serving.loop, Option.elim_none]
  | some data =>
      simp only [Inflow.Moves, serving.loop, Option.elim_some]
      rw [serving.deliverData_eq, serving.user]
      by_cases full : streamQueueCapacity ≤ stream.queue.length
      · exact .inr (decide_eq_true full)
      · rw [if_neg full]
        exact .inl rfl

end Serving

/-! Before the stream is open. -/

/-- The entry of the stream is there, and no object yet. -/
structure Awaiting (streamId : UInt32) (session : Session) (state : StreamState) : Prop where
  side : session.side = .server
  entry : session.streams.lookup streamId = some state
  handles : session.handles = []
  loop : session.readLoop = .reading

/-- The entry has been removed; further frames are ignored. -/
structure Refused (streamId : UInt32) (session : Session) : Prop where
  side : session.side = .server
  entry : session.streams.lookup streamId = none
  loop : session.readLoop = .reading

open Session

variable {streamId : UInt32} {state : StreamState} {session : Session} {inflow next : Inflow}
  {input : Input} {data : Bytes}

theorem awaiting_registered (streamId : UInt32) :
    Awaiting streamId (Inflow.registered streamId).session .pending where
  side := rfl
  entry := AList.lookup_insert _
  handles := rfl
  loop := rfl

theorem trySend_keeps (session : Session) (frame : Frame) :
    (session.trySend frame).side = session.side ∧
      (session.trySend frame).readLoop = session.readLoop := by
  unfold trySend
  split
  · split <;> exact ⟨rfl, rfl⟩
  · exact ⟨rfl, rfl⟩

theorem Awaiting.supersede (awaiting : Awaiting streamId session state)
    (inactive : ∀ handle, state ≠ .active handle) : session.supersede streamId = session := by
  unfold Session.supersede
  rw [awaiting.entry]
  split
  · next handle same => exact absurd (Option.some.inj same) (inactive handle)
  · rfl

theorem Awaiting.serving (awaiting : Awaiting streamId session state) (stream : StreamHandle)
    (inactive : ∀ handle, state ≠ .active handle)
    (own : stream.streamId = streamId) (live : stream.live = true) (connected : stream.connect = [])
    (failed : Bool) :
    Serving streamId { session.openStream stream with failed := failed } stream none := by
  have same := awaiting.supersede inactive
  rw [← own] at same
  refine ⟨?_, ?_, ?_, ?_, own, live, connected⟩
  · change (session.supersede stream.streamId).side = _
    rw [same, awaiting.side]
  · have entry := registered_openStream session stream
    rw [awaiting.handles, own] at entry
    exact entry
  · change (session.openStream stream).handles = _
    rw [handles_openStream, same, awaiting.handles]
    rfl
  · change (session.openStream stream).readLoop = _
    rw [readLoop_openStream, awaiting.loop]
    rfl

theorem Awaiting.refused (awaiting : Awaiting streamId session state) (failed : Bool) :
    Refused streamId { session.refuseStream streamId with failed := failed } where
  side := (trySend_keeps session _).1.trans awaiting.side
  entry := AList.lookup_erase streamId _
  loop := (trySend_keeps session _).2.trans awaiting.loop

theorem Awaiting.step (awaiting : Awaiting streamId inflow.session state)
    (taken : inflow.step streamId input = some next) : ∃ data, input = .psh data := by
  cases input with
  | psh data => exact ⟨data, rfl⟩
  | deliver =>
      have idle : inflow.session.step .deliver = none := by
        simp only [Session.step, taskStep, deliverData, awaiting.loop, userStep]
        rfl
      rw [Inflow.step, Input.event, idle] at taken
      cases taken
  | read size =>
      have missing : inflow.session.user 0 = none := by
        rw [Session.user, awaiting.handles]
        rfl
      have idle : inflow.session.step (.read 0 size) = none := by
        simp only [Session.step, taskStep, userStep, missing]
        rfl
      rw [Inflow.step, Input.event, idle] at taken
      cases taken

theorem Awaiting.step_psh (awaiting : Awaiting streamId inflow.session state) (data : Bytes) :
    ∃ failed, inflow.step streamId (.psh data) = some
      ⟨{ inflow.session.serverFrame ⟨streamId, .psh, data⟩ with failed := failed },
        inflow.opened ++ (inflow.session.opens (.frame ⟨streamId, .psh, data⟩)).toList,
        inflow.answers⟩ := by
  rw [Inflow.step, Input.event, step_frame awaiting.loop awaiting.side]
  simp only [Option.map_some, answer, Option.toList_none, List.append_nil]
  exact ⟨_, rfl⟩

theorem Awaiting.step_first (awaiting : Awaiting streamId inflow.session .pending)
    (data : Bytes) :
    ∃ failed opened session', inflow.step streamId (.psh data) = some
        ⟨{ session' with failed := failed }, inflow.opened ++ opened.toList, inflow.answers⟩ ∧
      FirstPsh inflow.session streamId data opened session' := by
  obtain ⟨failed, stepped⟩ := awaiting.step_psh data
  simp only [serverFrame, opens, awaiting.entry] at stepped
  exact ⟨failed, _, _, stepped, firstPsh ..⟩

theorem Awaiting.step_request {target : TargetAddr} (inflow : Inflow)
    (awaiting : Awaiting streamId inflow.session (.waitingUotRequest target)) (data : Bytes) :
    ∃ failed opened session', inflow.step streamId (.psh data) = some
        ⟨{ session' with failed := failed }, inflow.opened ++ opened.toList, inflow.answers⟩ ∧
      UotPsh inflow.session streamId data opened session' := by
  obtain ⟨failed, stepped⟩ := awaiting.step_psh data
  simp only [serverFrame, opens, awaiting.entry] at stepped
  exact ⟨failed, _, _, stepped, uotPsh ..⟩

theorem Awaiting.waits (awaiting : Awaiting streamId session .pending) (target : TargetAddr)
    (failed : Bool) :
    Awaiting streamId
      { session.insertStream streamId (.waitingUotRequest target) with failed := failed }
      (.waitingUotRequest target) := by
  have same := awaiting.supersede nofun
  refine ⟨?_, AList.lookup_insert _, ?_, ?_⟩
  · change (session.supersede streamId).side = _
    rw [same, awaiting.side]
  · change (session.supersede streamId).handles = _
    rw [same, awaiting.handles]
  · change (session.supersede streamId).readLoop = _
    rw [same, awaiting.loop]

theorem Refused.step_psh (refused : Refused streamId inflow.session) (data : Bytes) :
    ∃ session', inflow.step streamId (.psh data) =
        some ⟨session', inflow.opened, inflow.answers⟩ ∧ Refused streamId session' := by
  have ignored : inflow.session.serverFrame ⟨streamId, .psh, data⟩ = inflow.session := by
    simp only [serverFrame, refused.entry]
  have nothing : inflow.session.opens (.frame ⟨streamId, .psh, data⟩) = none := by
    simp only [opens, refused.entry]
  rw [Inflow.step, Input.event, step_frame refused.loop refused.side, ignored, nothing]
  simp only [Option.map_some, answer, Option.toList_none, List.append_nil]
  exact ⟨_, rfl, refused.side, refused.entry, refused.loop⟩

theorem Refused.run (inflow : Inflow) (refused : Refused streamId inflow.session)
    (frames : List Bytes) :
    ∃ session', Machine.run (Inflow.step streamId) inflow (frames.map .psh) =
      some ⟨session', inflow.opened, inflow.answers⟩ := by
  induction frames generalizing inflow with
  | nil => exact ⟨inflow.session, rfl⟩
  | cons data frames ih =>
      obtain ⟨session', stepped, refused⟩ := refused.step_psh data
      obtain ⟨final, ran⟩ := ih ⟨session', inflow.opened, inflow.answers⟩ refused
      refine ⟨final, ?_⟩
      rw [List.map_cons, Machine.run_cons_of stepped]
      exact ran

end QuicProxy
