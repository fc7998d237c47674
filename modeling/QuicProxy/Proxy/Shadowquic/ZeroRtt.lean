import QuicProxy.Data.AsyncStream

namespace QuicProxy

/-! A stream of a ShadowQuic outbound that was opened before the server has
answered 0-RTT (`src/proxy/outbound/shadowquic.rs`). -/

namespace Shadowquic

def zeroRttReplayLimit : Nat := 64 * 1024

/-- A stream under the adapter: its write half, and what its `poll_read` is going
to give. -/
structure Inner (State : Type) where
  wire : Wire State
  reads : List PollRead

/-- The future that replays, by the await it has reached. -/
inductive Replay (State : Type) where
  | connecting (sent : Bytes)
  | writing (stream : Inner State) (rest : Bytes)
  | finishing (stream : Inner State)

inductive ZeroRttPhase (State : Type) where
  | early
  | replaying (replay : Replay State) (shutdown : Bool)
  | settled

/-- What `connect_stream_base` is going to answer to the polls of a replay. -/
abbrev Connects (State : Type) := List (Poll (Except String (State × List PollRead)))

structure ZeroRttStream (State : Type) where
  inner : Inner State
  /-- What the polls of the verdict are going to give. -/
  outcome : List (Poll Bool)
  connects : Connects State
  sent : Bytes
  shutdown : Bool
  phase : ZeroRttPhase State

/-- A future whose list of answers is used up stays pending. -/
def pollNext {α : Type} : List (Poll α) → Poll α × List (Poll α)
  | [] => (.pending, [])
  | answer :: answers => (answer, answers)

variable {State : Type}

namespace Replay

/-- The last await of the replay: a shutdown when the stream was shut, else a
flush. -/
def finish (io : AsyncWrite State) (shutdown : Bool) (stream : Inner State) :
    Poll (Except String (Inner State)) × Replay State :=
  match if shutdown then stream.wire.pollShutdown io else stream.wire.pollFlush io with
  | (.ready (.ok ()), wire) => (.ready (.ok { stream with wire }), finishing { stream with wire })
  | (.ready (.error error), wire) => (.ready (.error error), finishing { stream with wire })
  | (.pending, wire) => (.pending, finishing { stream with wire })

def write (io : AsyncWrite State) (shutdown : Bool) (stream : Inner State) (rest : Bytes) :
    Poll (Except String (Inner State)) × Replay State :=
  match stream.wire.writeAll io rest with
  | (.ready (.ok ()), _, wire) => finish io shutdown { stream with wire }
  | (.ready (.error error), rest, wire) =>
      (.ready (.error error), writing { stream with wire } rest)
  | (.pending, rest, wire) => (.pending, writing { stream with wire } rest)

def poll (io : AsyncWrite State) (shutdown : Bool) (connects : Connects State) :
    Replay State → Poll (Except String (Inner State)) × Replay State × Connects State
  | connecting sent =>
      match pollNext connects with
      | (.ready (.ok (state, reads)), connects) =>
          match write io shutdown ⟨.opened state, reads⟩ sent with
          | (result, replay) => (result, replay, connects)
      | (.ready (.error error), connects) => (.ready (.error error), connecting sent, connects)
      | (.pending, connects) => (.pending, connecting sent, connects)
  | writing stream rest =>
      match write io shutdown stream rest with
      | (result, replay) => (result, replay, connects)
  | finishing stream =>
      match finish io shutdown stream with
      | (result, replay) => (result, replay, connects)

end Replay

namespace ZeroRttStream

def new (inner : Inner State) (outcome : List (Poll Bool)) (connects : Connects State) :
    ZeroRttStream State :=
  { inner, outcome, connects, sent := [], shutdown := false, phase := .early }

def resolve (stream : ZeroRttStream State) (accepted : Bool) : ZeroRttStream State :=
  if accepted then { stream with sent := [], phase := .settled }
  else { stream with
    sent := [], phase := .replaying (.connecting stream.sent) stream.shutdown }

def pollEarly (stream : ZeroRttStream State) : Poll Unit × ZeroRttStream State :=
  match stream.phase with
  | .early =>
      match pollNext stream.outcome with
      | (.ready accepted, outcome) => (.ready (), { stream with outcome }.resolve accepted)
      | (.pending, outcome) => (.pending, { stream with outcome })
  | _ => (.ready (), stream)

def pollReplaying (io : AsyncWrite State) (stream : ZeroRttStream State) (replay : Replay State)
    (shutdown : Bool) : Poll (Except String Unit) × ZeroRttStream State :=
  match replay.poll io shutdown stream.connects with
  | (.ready (.ok inner), _, connects) =>
      (.ready (.ok ()), { stream with inner, connects, phase := .settled })
  | (.ready (.error error), _, connects) =>
      (.ready (.error error), { stream with connects, phase := .settled })
  | (.pending, replay, connects) =>
      (.pending, { stream with connects, phase := .replaying replay shutdown })

/-- `poll_settled`, whose loop leaves the early phase at most once. -/
def pollSettled (io : AsyncWrite State) (stream : ZeroRttStream State) :
    Poll (Except String Unit) × ZeroRttStream State :=
  match stream.pollEarly with
  | (.pending, stream) => (.pending, stream)
  | (.ready (), stream) =>
      match stream.phase with
      | .replaying replay shutdown => stream.pollReplaying io replay shutdown
      | _ => (.ready (.ok ()), stream)

def pollRead (io : AsyncWrite State) (stream : ZeroRttStream State) (room : Nat) :
    PollRead × ZeroRttStream State :=
  match stream.pollEarly with
  | (.pending, stream) =>
      match QuicProxy.pollRead room stream.inner.reads with
      | (.failed _, reads) => (.pending, { stream with inner := { stream.inner with reads } })
      | (result, reads) => (result, { stream with inner := { stream.inner with reads } })
  | (.ready (), stream) =>
      match stream.pollSettled io with
      | (.pending, stream) => (.pending, stream)
      | (.ready (.error error), stream) => (.failed error, stream)
      | (.ready (.ok ()), stream) =>
          match QuicProxy.pollRead room stream.inner.reads with
          | (result, reads) => (result, { stream with inner := { stream.inner with reads } })

def pollWrite (io : AsyncWrite State) (stream : ZeroRttStream State) (buf : Bytes) :
    Poll (Except String Nat) × ZeroRttStream State :=
  match stream.pollEarly with
  | (.pending, stream) =>
      if zeroRttReplayLimit < stream.sent.length + buf.length then (.pending, stream)
      else
        match stream.inner.wire.pollWrite io buf with
        | (.ready (.ok count), wire) =>
            (.ready (.ok count),
              { stream with
                inner := { stream.inner with wire }, sent := stream.sent ++ buf.take count })
        | (.ready (.error _), wire) =>
            (.pending, { stream with inner := { stream.inner with wire } })
        | (.pending, wire) => (.pending, { stream with inner := { stream.inner with wire } })
  | (.ready (), stream) =>
      match stream.pollSettled io with
      | (.pending, stream) => (.pending, stream)
      | (.ready (.error error), stream) => (.ready (.error error), stream)
      | (.ready (.ok ()), stream) =>
          match stream.inner.wire.pollWrite io buf with
          | (result, wire) => (result, { stream with inner := { stream.inner with wire } })

def pollFlush (io : AsyncWrite State) (stream : ZeroRttStream State) :
    Poll (Except String Unit) × ZeroRttStream State :=
  match stream.pollEarly with
  | (.pending, stream) =>
      match stream.inner.wire.pollFlush io with
      | (.ready (.error _), wire) =>
          (.pending, { stream with inner := { stream.inner with wire } })
      | (result, wire) => (result, { stream with inner := { stream.inner with wire } })
  | (.ready (), stream) =>
      match stream.pollSettled io with
      | (.pending, stream) => (.pending, stream)
      | (.ready (.error error), stream) => (.ready (.error error), stream)
      | (.ready (.ok ()), stream) =>
          match stream.inner.wire.pollFlush io with
          | (result, wire) => (result, { stream with inner := { stream.inner with wire } })

def pollShutdown (io : AsyncWrite State) (stream : ZeroRttStream State) :
    Poll (Except String Unit) × ZeroRttStream State :=
  match stream.pollEarly with
  | (.pending, stream) =>
      match stream.inner.wire.pollShutdown io with
      | (.ready (.ok ()), wire) =>
          (.ready (.ok ()),
            { stream with inner := { stream.inner with wire }, shutdown := true })
      | (.ready (.error _), wire) =>
          (.pending, { stream with inner := { stream.inner with wire } })
      | (.pending, wire) => (.pending, { stream with inner := { stream.inner with wire } })
  | (.ready (), stream) =>
      match stream.pollSettled io with
      | (.pending, stream) => (.pending, stream)
      | (.ready (.error error), stream) => (.ready (.error error), stream)
      | (.ready (.ok ()), stream) =>
          if stream.shutdown then (.ready (.ok ()), stream)
          else
            match stream.inner.wire.pollShutdown io with
            | (result, wire) => (result, { stream with inner := { stream.inner with wire } })

def poll (io : AsyncWrite State) (stream : ZeroRttStream State) :
    PollCall → PollAnswer × ZeroRttStream State
  | .write buf => (stream.pollWrite io buf).map .wrote id
  | .flush => (stream.pollFlush io).map .flushed id
  | .shutdown => (stream.pollShutdown io).map .shut id
  | .read room => (stream.pollRead io room).map .read id

end ZeroRttStream

/-! What the user of the stream can rely on. -/

def Replay.written : Replay State → Bytes
  | connecting _ => []
  | writing stream _ => stream.wire.written
  | finishing stream => stream.wire.written

/-- The bytes that a replay keeps: its vector lives as long as it does. -/
def Replay.kept : Replay State → Bytes
  | connecting sent => sent
  | writing stream rest => stream.wire.written ++ rest
  | finishing stream => stream.wire.written

theorem Replay.written_isPrefix (replay : Replay State) : replay.written <+: replay.kept := by
  cases replay with
  | connecting sent => exact List.nil_prefix
  | writing stream rest => exact List.prefix_append _ rest
  | finishing stream => exact List.prefix_rfl

namespace ZeroRttPhase

def isEarly : ZeroRttPhase State → Bool
  | early => true
  | _ => false

def isReplaying : ZeroRttPhase State → Bool
  | replaying _ _ => true
  | _ => false

end ZeroRttPhase

namespace ZeroRttStream

/-- What the stream that goes on has been given: the one of the replay once the
early data is rejected. -/
def survivorWritten (stream : ZeroRttStream State) : Bytes :=
  match stream.phase with
  | .replaying replay _ => replay.written
  | _ => stream.inner.wire.written

def buffered (stream : ZeroRttStream State) : Nat :=
  match stream.phase with
  | .replaying replay _ => stream.sent.length + replay.kept.length
  | _ => stream.sent.length

end ZeroRttStream

/-- A stream with the bytes it has reported as accepted, and with those of them
that its last shutdown of the early phase came after. -/
structure ZeroRttRun (State : Type) where
  stream : ZeroRttStream State
  accepted : Bytes
  shut : Option Bytes

namespace ZeroRttRun

def start (stream : ZeroRttStream State) : ZeroRttRun State := ⟨stream, [], none⟩

def step (io : AsyncWrite State) (run : ZeroRttRun State) (call : PollCall) :
    Option (ZeroRttRun State) :=
  match run.stream.poll io call with
  | (answer, stream) =>
      some {
        stream
        accepted := run.accepted ++ answer.taken call
        shut :=
          if answer = .shut (.ready (.ok ())) ∧ stream.phase.isEarly then some run.accepted
          else run.shut }

end ZeroRttRun

/-- A shutdown of the stream came after these bytes. -/
def ShutAfter (bytes : Bytes) (ops : List WriteOp) : Prop :=
  ∃ before later, ops = before ++ .shutdown :: later ∧ bytes <+: before.flatMap WriteOp.bytes

/-- The stream that goes on has been given the accepted bytes, in order and
once, all of them unless a replay is still writing, and the shutdown after
those it came after. -/
structure Transparent (run : ZeroRttRun State) : Prop where
  inOrder : run.stream.survivorWritten <+: run.accepted
  complete : run.stream.phase.isReplaying = false → run.stream.survivorWritten = run.accepted
  shutdown : run.stream.phase.isReplaying = false → ∀ bytes, run.shut = some bytes →
    ShutAfter bytes run.stream.inner.wire.ops
  bounded : run.stream.buffered ≤ zeroRttReplayLimit

namespace ShutAfter

variable {bytes : Bytes} {ops : List WriteOp}

theorem append (shut : ShutAfter bytes ops) (more : List WriteOp) :
    ShutAfter bytes (ops ++ more) := by
  obtain ⟨before, later, rfl, isPrefix⟩ := shut
  refine ⟨before, later ++ more, ?_, isPrefix⟩
  rw [List.append_assoc, List.cons_append]

theorem now (isPrefix : bytes <+: ops.flatMap WriteOp.bytes) :
    ShutAfter bytes (ops ++ [.shutdown]) :=
  ⟨ops, [], rfl, isPrefix⟩

end ShutAfter

/-- The bytes are with the stream under the adapter, and in the early phase and
in a replay they are kept as well. -/
def Kept (stream : ZeroRttStream State) (accepted : Bytes) : Prop :=
  match stream.phase with
  | .early => stream.sent = accepted ∧ accepted.length ≤ zeroRttReplayLimit
  | .replaying replay shutdown =>
      stream.sent = [] ∧ shutdown = stream.shutdown ∧ replay.kept = accepted ∧
        accepted.length ≤ zeroRttReplayLimit
  | .settled => stream.sent = []

structure Faithful (stream : ZeroRttStream State) (accepted : Bytes) (shut : Option Bytes) :
    Prop where
  written : stream.inner.wire.written = accepted
  flag : stream.shutdown = shut.isSome
  shutAfter : ∀ bytes, shut = some bytes → ShutAfter bytes stream.inner.wire.ops
  isPrefix : ∀ bytes, shut = some bytes → bytes <+: accepted
  kept : Kept stream accepted

namespace Faithful

variable {stream : ZeroRttStream State} {accepted : Bytes} {shut : Option Bytes}

theorem resolve (faithful : Faithful stream accepted shut) (early : stream.phase = .early)
    (verdict : Bool) : Faithful (stream.resolve verdict) accepted shut := by
  have kept := faithful.kept
  unfold Kept at kept
  rw [early] at kept
  cases verdict with
  | true =>
      exact ⟨faithful.written, faithful.flag, faithful.shutAfter, faithful.isPrefix, rfl⟩
  | false =>
      refine ⟨faithful.written, faithful.flag, faithful.shutAfter, faithful.isPrefix, ?_⟩
      exact ⟨rfl, rfl, kept.1, kept.2⟩

theorem pollEarly (faithful : Faithful stream accepted shut) :
    Faithful stream.pollEarly.2 accepted shut ∧
      (stream.pollEarly.1 = .pending → stream.pollEarly.2.phase = .early) ∧
        (stream.pollEarly.1 = .ready () → stream.pollEarly.2.phase.isEarly = false) := by
  unfold ZeroRttStream.pollEarly
  split
  · next early =>
      rcases pollNext stream.outcome with ⟨_ | verdict, outcome⟩
      · refine ⟨?_, fun _ => early, nofun⟩
        exact ⟨faithful.written, faithful.flag, faithful.shutAfter, faithful.isPrefix,
          faithful.kept⟩
      · have polled : Faithful { stream with outcome } accepted shut :=
          ⟨faithful.written, faithful.flag, faithful.shutAfter, faithful.isPrefix, faithful.kept⟩
        refine ⟨polled.resolve early verdict, nofun, fun _ => ?_⟩
        cases verdict <;> rfl
  · next late =>
      refine ⟨faithful, nofun, fun _ => ?_⟩
      revert late
      cases stream.phase with
      | early => exact fun late => absurd rfl late
      | replaying replay shutdown => exact fun _ => rfl
      | settled => exact fun _ => rfl

end Faithful

/-- What one poll of a replay does: it keeps the same bytes, and once it is
ready they are all written, with the shutdown after them. -/
structure ReplayKeeps (accepted : Bytes) (shutdown : Bool)
    (after : Poll (Except String (Inner State)) × Replay State) : Prop where
  kept : after.2.kept = accepted
  done : ∀ inner, after.1 = .ready (.ok inner) → inner.wire.written = accepted ∧
    (shutdown = true → ∀ bytes, bytes <+: accepted → ShutAfter bytes inner.wire.ops)

namespace Replay

theorem keeps_finish (io : AsyncWrite State) (shutdown : Bool) (stream : Inner State) :
    ReplayKeeps stream.wire.written shutdown (finish io shutdown stream) := by
  cases shutdown with
  | false =>
      have same : (stream.wire.pollFlush io).2.written = stream.wire.written :=
        Wire.written_of_ops (stream.wire.ops_pollFlush io)
      simp only [finish, Bool.false_eq_true, if_false]
      revert same
      rcases stream.wire.pollFlush io with ⟨_ | _ | _, wire⟩ <;> intro same
      · exact ⟨same, nofun⟩
      · exact ⟨same, nofun⟩
      · refine ⟨same, ?_⟩
        rintro inner ⟨⟩
        exact ⟨same, nofun⟩
  | true =>
      have same := stream.wire.written_pollShutdown io
      have shut := Wire.pollShutdown_cases io stream.wire
      simp only [finish, if_true]
      revert same shut
      rcases stream.wire.pollShutdown io with ⟨_ | _ | _, wire⟩ <;> intro same shut
      · exact ⟨same, nofun⟩
      · exact ⟨same, nofun⟩
      · refine ⟨same, ?_⟩
        rintro inner ⟨⟩
        refine ⟨same, fun _ bytes isPrefix => ?_⟩
        rcases shut with ⟨-, ops⟩ | ⟨notOk, -⟩
        · change ShutAfter bytes wire.ops
          rw [ops]
          exact .now isPrefix
        · exact absurd rfl notOk

theorem keeps_write (io : AsyncWrite State) (shutdown : Bool) (stream : Inner State)
    (rest : Bytes) :
    ReplayKeeps (stream.wire.written ++ rest) shutdown (write io shutdown stream rest) := by
  have wrote := stream.wire.wroteAll_writeAll io rest
  unfold write
  revert wrote
  rcases stream.wire.writeAll io rest with ⟨_ | _ | _, left, wire⟩ <;> intro wrote
  · exact ⟨wrote.whole, nofun⟩
  · exact ⟨wrote.whole, nofun⟩
  · have whole := wrote.whole
    rw [wrote.done rfl, List.append_nil] at whole
    rw [← whole]
    exact keeps_finish io shutdown { stream with wire }

theorem keeps_poll (io : AsyncWrite State) (shutdown : Bool) (connects : Connects State)
    (replay : Replay State) :
    ReplayKeeps replay.kept shutdown
      ((replay.poll io shutdown connects).1, (replay.poll io shutdown connects).2.1) := by
  cases replay with
  | connecting sent =>
      unfold poll
      rcases pollNext connects with ⟨_ | _ | ⟨state, reads⟩, connects⟩
      · exact ⟨rfl, nofun⟩
      · exact ⟨rfl, nofun⟩
      · exact keeps_write io shutdown ⟨.opened state, reads⟩ sent
  | writing stream rest => exact keeps_write io shutdown stream rest
  | finishing stream => exact keeps_finish io shutdown stream

end Replay

namespace Faithful

variable {stream : ZeroRttStream State} {accepted : Bytes} {shut : Option Bytes}

theorem pollReplaying (io : AsyncWrite State) (faithful : Faithful stream accepted shut)
    {replay : Replay State} {shutdown : Bool} (phase : stream.phase = .replaying replay shutdown) :
    Faithful (stream.pollReplaying io replay shutdown).2 accepted shut ∧
      (stream.pollReplaying io replay shutdown).2.phase.isEarly = false ∧
        ((stream.pollReplaying io replay shutdown).1 = .ready (.ok ()) →
          (stream.pollReplaying io replay shutdown).2.phase = .settled) := by
  have kept := faithful.kept
  unfold Kept at kept
  rw [phase] at kept
  obtain ⟨nothing, flag, same, bound⟩ := kept
  have keeps := Replay.keeps_poll io shutdown stream.connects replay
  rw [same] at keeps
  unfold ZeroRttStream.pollReplaying
  revert keeps
  rcases replay.poll io shutdown stream.connects with ⟨_ | _ | inner, next, connects⟩ <;>
    intro keeps
  · refine ⟨?_, rfl, nofun⟩
    exact ⟨faithful.written, faithful.flag, faithful.shutAfter, faithful.isPrefix,
      nothing, flag, keeps.kept, bound⟩
  · refine ⟨?_, rfl, nofun⟩
    exact ⟨faithful.written, faithful.flag, faithful.shutAfter, faithful.isPrefix, nothing⟩
  · refine ⟨?_, rfl, fun _ => rfl⟩
    obtain ⟨written, shutAfter⟩ := keeps.done inner rfl
    refine ⟨written, faithful.flag, fun bytes marked => ?_, faithful.isPrefix, nothing⟩
    refine shutAfter ?_ bytes (faithful.isPrefix bytes marked)
    rw [flag, faithful.flag, marked, Option.isSome_some]

theorem pollSettled (io : AsyncWrite State) (faithful : Faithful stream accepted shut)
    (late : stream.phase.isEarly = false) :
    Faithful (stream.pollSettled io).2 accepted shut ∧
      (stream.pollSettled io).2.phase.isEarly = false ∧
        ((stream.pollSettled io).1 = .ready (.ok ()) →
          (stream.pollSettled io).2.phase = .settled) := by
  unfold ZeroRttStream.pollSettled ZeroRttStream.pollEarly
  cases phase : stream.phase with
  | early =>
      rw [phase] at late
      cases late
  | replaying replay shutdown =>
      simp only [phase]
      exact faithful.pollReplaying io phase
  | settled =>
      simp only [phase]
      exact ⟨faithful, rfl, fun _ => trivial⟩

/-- The reads of the stream under the adapter, and what its write half does
without being written to, change nothing. -/
theorem inner (faithful : Faithful stream accepted shut) {inner : Inner State}
    (ops : inner.wire.ops = stream.inner.wire.ops) :
    Faithful { stream with inner } accepted shut := by
  refine ⟨?_, faithful.flag, ?_, faithful.isPrefix, faithful.kept⟩
  · exact (Wire.written_of_ops ops).trans faithful.written
  · intro bytes marked
    change ShutAfter bytes inner.wire.ops
    rw [ops]
    exact faithful.shutAfter bytes marked

theorem write (faithful : Faithful stream accepted shut) (settled : stream.phase = .settled)
    {buf : Bytes} {after : Poll (Except String Nat) × Wire State}
    (took : stream.inner.wire.Took buf after) :
    Faithful { stream with inner := { stream.inner with wire := after.2 } }
      (accepted ++ buf.take (reported after.1)) shut := by
  refine ⟨?_, faithful.flag, fun bytes marked => ?_, fun bytes marked => ?_, ?_⟩
  · change after.2.written = _
    rw [took.written, faithful.written]
  · change ShutAfter bytes after.2.ops
    rw [took.ops]
    exact (faithful.shutAfter bytes marked).append _
  · exact (faithful.isPrefix bytes marked).trans (List.prefix_append _ _)
  · have kept := faithful.kept
    unfold Kept at kept ⊢
    rw [settled] at kept
    simp only [settled]
    exact kept

theorem earlyWrite (faithful : Faithful stream accepted shut) (early : stream.phase = .early)
    {buf : Bytes} {after : Poll (Except String Nat) × Wire State}
    (took : stream.inner.wire.Took buf after)
    (fits : stream.sent.length + buf.length ≤ zeroRttReplayLimit) :
    Faithful { stream with
        inner := { stream.inner with wire := after.2 },
        sent := stream.sent ++ buf.take (reported after.1) }
      (accepted ++ buf.take (reported after.1)) shut := by
  have kept := faithful.kept
  unfold Kept at kept
  rw [early] at kept
  refine ⟨?_, faithful.flag, fun bytes marked => ?_, fun bytes marked => ?_, ?_⟩
  · change after.2.written = _
    rw [took.written, faithful.written]
  · change ShutAfter bytes after.2.ops
    rw [took.ops]
    exact (faithful.shutAfter bytes marked).append _
  · exact (faithful.isPrefix bytes marked).trans (List.prefix_append _ _)
  · unfold Kept
    simp only [early]
    refine ⟨by rw [kept.1], ?_⟩
    rw [List.length_append, List.length_take, ← kept.1]
    have := took.bound
    omega

theorem shutdown (io : AsyncWrite State) (faithful : Faithful stream accepted shut) :
    Faithful
      { stream with inner := { stream.inner with wire := (stream.inner.wire.pollShutdown io).2 } }
      accepted shut := by
  refine ⟨?_, faithful.flag, fun bytes marked => ?_, faithful.isPrefix, faithful.kept⟩
  · exact (stream.inner.wire.written_pollShutdown io).trans faithful.written
  · have before := faithful.shutAfter bytes marked
    rcases Wire.pollShutdown_cases io stream.inner.wire with ⟨-, ops⟩ | ⟨-, ops⟩
    · change ShutAfter bytes (stream.inner.wire.pollShutdown io).2.ops
      rw [ops]
      exact before.append _
    · change ShutAfter bytes (stream.inner.wire.pollShutdown io).2.ops
      rw [ops]
      exact before

theorem earlyShutdown (io : AsyncWrite State) (faithful : Faithful stream accepted shut)
    (early : stream.phase = .early)
    (ok : (stream.inner.wire.pollShutdown io).1 = .ready (.ok ())) :
    Faithful
      { stream with
        inner := { stream.inner with wire := (stream.inner.wire.pollShutdown io).2 },
        shutdown := true }
      accepted (some accepted) := by
  refine ⟨?_, rfl, ?_, ?_, ?_⟩
  · exact (stream.inner.wire.written_pollShutdown io).trans faithful.written
  · rintro bytes ⟨⟩
    rcases Wire.pollShutdown_cases io stream.inner.wire with ⟨-, ops⟩ | ⟨notOk, -⟩
    · change ShutAfter accepted (stream.inner.wire.pollShutdown io).2.ops
      rw [ops]
      refine .now ?_
      change accepted <+: stream.inner.wire.written
      rw [faithful.written]
    · exact absurd ok notOk
  · rintro bytes ⟨⟩
    exact List.prefix_rfl
  · have kept := faithful.kept
    unfold Kept at kept ⊢
    rw [early] at kept
    simp only [early]
    exact kept

end Faithful

/-- The state after a call, with the bytes that it adds and the mark of a
shutdown that succeeded early. -/
def After (accepted : Bytes) (shut : Option Bytes) (call : PollCall)
    (after : PollAnswer × ZeroRttStream State) : Prop :=
  Faithful after.2 (accepted ++ after.1.taken call)
    (if after.1 = .shut (.ready (.ok ())) ∧ after.2.phase.isEarly then some accepted else shut)

section After

variable {stream : ZeroRttStream State} {accepted : Bytes} {shut : Option Bytes}

theorem after_of_quiet {call : PollCall} {after : PollAnswer × ZeroRttStream State}
    (faithful : Faithful after.2 accepted shut) (nothing : after.1.taken call = [])
    (unmarked : after.1 = .shut (.ready (.ok ())) → after.2.phase.isEarly = false) :
    After accepted shut call after := by
  unfold After
  rw [nothing, List.append_nil, if_neg fun marked => by
    rw [unmarked marked.1] at marked
    exact Bool.false_ne_true marked.2]
  exact faithful

theorem after_of_unwritten {buf : Bytes} {result : Poll (Except String Nat)}
    {after : ZeroRttStream State} (faithful : Faithful after accepted shut)
    (nothing : (PollAnswer.wrote result).taken (.write buf) = []) :
    After accepted shut (.write buf) (.wrote result, after) := by
  refine after_of_quiet faithful nothing ?_
  rintro ⟨⟩

theorem after_pollWrite (io : AsyncWrite State) (faithful : Faithful stream accepted shut)
    (buf : Bytes) : After accepted shut (.write buf) (stream.poll io (.write buf)) := by
  have early := faithful.pollEarly
  simp only [ZeroRttStream.poll, ZeroRttStream.pollWrite]
  revert early
  rcases stream.pollEarly with ⟨_ | _, polled⟩ <;> rintro ⟨faithful, phase, late⟩
  · have phase := phase rfl
    dsimp only
    split
    · exact after_of_unwritten faithful rfl
    · next fits =>
        have took := polled.inner.wire.took_pollWrite io buf
        revert took
        rcases polled.inner.wire.pollWrite io buf with ⟨_ | _ | count, wire⟩ <;> intro took
        · have written : Faithful { polled with
              inner := { polled.inner with wire }, sent := polled.sent ++ [] }
              (accepted ++ []) shut := faithful.earlyWrite phase took (Nat.le_of_not_lt fits)
          rw [List.append_nil, List.append_nil] at written
          exact after_of_unwritten written rfl
        · have written : Faithful { polled with
              inner := { polled.inner with wire }, sent := polled.sent ++ [] }
              (accepted ++ []) shut := faithful.earlyWrite phase took (Nat.le_of_not_lt fits)
          rw [List.append_nil, List.append_nil] at written
          exact after_of_unwritten written rfl
        · exact faithful.earlyWrite phase took (Nat.le_of_not_lt fits)
  · have settled := faithful.pollSettled io (late rfl)
    dsimp only
    revert settled
    rcases polled.pollSettled io with ⟨_ | _ | _, polled⟩ <;> rintro ⟨faithful, -, settled⟩
    · exact after_of_unwritten faithful rfl
    · exact after_of_unwritten faithful rfl
    · have took := polled.inner.wire.took_pollWrite io buf
      exact faithful.write (settled rfl) took

theorem after_pollFlush (io : AsyncWrite State) (faithful : Faithful stream accepted shut) :
    After accepted shut .flush (stream.poll io .flush) := by
  have early := faithful.pollEarly
  simp only [ZeroRttStream.poll, ZeroRttStream.pollFlush]
  revert early
  rcases stream.pollEarly with ⟨_ | _, polled⟩ <;> rintro ⟨faithful, phase, late⟩
  · have same := polled.inner.wire.ops_pollFlush io
    dsimp only
    revert same
    rcases polled.inner.wire.pollFlush io with ⟨_ | _ | _, wire⟩ <;> intro same
    · exact after_of_quiet (faithful.inner same) rfl nofun
    · exact after_of_quiet (faithful.inner same) rfl nofun
    · exact after_of_quiet (faithful.inner same) rfl nofun
  · have settled := faithful.pollSettled io (late rfl)
    dsimp only
    revert settled
    rcases polled.pollSettled io with ⟨_ | _ | _, polled⟩ <;> rintro ⟨faithful, -, settled⟩
    · exact after_of_quiet faithful rfl nofun
    · exact after_of_quiet faithful rfl nofun
    · exact after_of_quiet (faithful.inner (polled.inner.wire.ops_pollFlush io)) rfl nofun

theorem after_pollShutdown (io : AsyncWrite State) (faithful : Faithful stream accepted shut) :
    After accepted shut .shutdown (stream.poll io .shutdown) := by
  have early := faithful.pollEarly
  simp only [ZeroRttStream.poll, ZeroRttStream.pollShutdown]
  revert early
  rcases stream.pollEarly with ⟨_ | _, polled⟩ <;> rintro ⟨faithful, phase, late⟩
  · have phase := phase rfl
    have marked := faithful.earlyShutdown io phase
    have kept := faithful.shutdown io
    dsimp only
    revert marked kept
    rcases polled.inner.wire.pollShutdown io with ⟨_ | _ | _, wire⟩ <;> intro marked kept
    · exact after_of_quiet kept rfl nofun
    · exact after_of_quiet kept rfl nofun
    · have isEarly : polled.phase.isEarly = true := by rw [phase]; rfl
      unfold After
      rw [if_pos ⟨rfl, isEarly⟩]
      change Faithful _ (accepted ++ []) _
      rw [List.append_nil]
      exact marked rfl
  · have settled := faithful.pollSettled io (late rfl)
    dsimp only
    revert settled
    rcases polled.pollSettled io with ⟨_ | _ | _, polled⟩ <;> rintro ⟨faithful, late, settled⟩
    · exact after_of_quiet faithful rfl nofun
    · exact after_of_quiet faithful rfl nofun
    · dsimp only
      split
      · exact after_of_quiet faithful rfl fun _ => late
      · exact after_of_quiet (faithful.shutdown io) rfl fun _ => late

theorem after_pollRead (io : AsyncWrite State) (faithful : Faithful stream accepted shut)
    (room : Nat) : After accepted shut (.read room) (stream.poll io (.read room)) := by
  have early := faithful.pollEarly
  simp only [ZeroRttStream.poll, ZeroRttStream.pollRead]
  revert early
  rcases stream.pollEarly with ⟨_ | _, polled⟩ <;> rintro ⟨faithful, phase, late⟩
  · dsimp only
    rcases QuicProxy.pollRead room polled.inner.reads with ⟨_ | _ | _, reads⟩
    · exact after_of_quiet (faithful.inner rfl) rfl nofun
    · exact after_of_quiet (faithful.inner rfl) rfl nofun
    · exact after_of_quiet (faithful.inner rfl) rfl nofun
  · have settled := faithful.pollSettled io (late rfl)
    dsimp only
    revert settled
    rcases polled.pollSettled io with ⟨_ | _ | _, polled⟩ <;> rintro ⟨faithful, -, settled⟩
    · exact after_of_quiet faithful rfl nofun
    · exact after_of_quiet faithful rfl nofun
    · exact after_of_quiet (faithful.inner rfl) rfl nofun

end After

namespace Faithful

variable {run : ZeroRttRun State}

theorem step (io : AsyncWrite State) {next : ZeroRttRun State} {call : PollCall}
    (faithful : Faithful run.stream run.accepted run.shut) (taken : run.step io call = some next) :
    Faithful next.stream next.accepted next.shut := by
  cases taken
  cases call with
  | write buf => exact after_pollWrite io faithful buf
  | flush => exact after_pollFlush io faithful
  | shutdown => exact after_pollShutdown io faithful
  | read room => exact after_pollRead io faithful room

theorem transparent (faithful : Faithful run.stream run.accepted run.shut) :
    Transparent run := by
  obtain ⟨⟨inner, outcome, connects, sent, shutdown, phase⟩, accepted, shut⟩ := run
  obtain ⟨written, -, shutAfter, -, kept⟩ := faithful
  have whole : inner.wire.written <+: accepted := by
    rw [← show inner.wire.written = accepted from written]
  cases phase with
  | early =>
      refine ⟨whole, fun _ => written, fun _ => shutAfter, ?_⟩
      have same : sent = accepted := kept.1
      subst same
      exact kept.2
  | replaying replay shutdown =>
      obtain ⟨nothing, -, same, bound⟩ := kept
      have same : replay.kept = accepted := same
      subst same
      refine ⟨replay.written_isPrefix, nofun, nofun, ?_⟩
      change sent.length + replay.kept.length ≤ _
      rw [show sent = [] from nothing, List.length_nil, Nat.zero_add]
      exact bound
  | settled =>
      refine ⟨whole, fun _ => written, fun _ => shutAfter, ?_⟩
      change sent.length ≤ _
      rw [show sent = [] from kept]
      exact Nat.zero_le _

end Faithful

/-- Early data that is rejected is replayed as if it had been accepted, in every
run over every stream, verdict and connection. -/
theorem zeroRtt_transparent (io : AsyncWrite State) (state : State) (reads : List PollRead)
    (outcome : List (Poll Bool)) (connects : Connects State) (calls : List PollCall) :
    Machine.Throughout (ZeroRttRun.step io) Transparent
      (.start (.new ⟨.opened state, reads⟩ outcome connects)) calls := by
  have start : Faithful (ZeroRttStream.new ⟨.opened state, reads⟩ outcome connects) [] none :=
    ⟨rfl, rfl, nofun, nofun, rfl, Nat.zero_le _⟩
  have faithful : Machine.Throughout (ZeroRttRun.step io)
      (fun run => Faithful run.stream run.accepted run.shut)
      (.start (.new ⟨.opened state, reads⟩ outcome connects)) calls :=
    Machine.throughout_of_invariant _ (fun faithful taken => faithful.step io taken) start
  exact Machine.throughout_mono Faithful.transparent faithful

end Shadowquic

end QuicProxy
