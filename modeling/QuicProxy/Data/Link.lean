import QuicProxy.Data.Framed

namespace QuicProxy

namespace Framed

/-! Writers of frames, and one direction of a connection: a writer, the network,
and a reader. -/

variable {Phase Writer Reader Sink : Type} {framing : Framing Phase}

/-- How the states of a writer are seen: the phase after the frames it has built,
and, while it flushes the last of them, what is left of it and how many bytes
its payload has. -/
abbrev WriterView (Phase Writer : Type) := Writer → Phase → Option (Bytes × Nat) → Prop

/-- What a write that has `rest` to flush may answer. -/
inductive Flushed (At : WriterView Phase Writer) (next : Phase) (rest : Bytes) (count : Nat) :
    Option (Poll (Except String Nat) × Writer × Wire Sink) → Prop
  | done (writer : Writer) (wire : Wire Sink) (idle : At writer next none)
      (written : wire.written = rest) :
      Flushed At next rest count (some (.ready (.ok count), writer, wire))
  | stopped {result : Poll (Except String Nat)} (writer : Writer) (wire : Wire Sink) (left : Bytes)
      (unanswered : ∀ count, result ≠ .ready (.ok count)) (some_left : left ≠ [])
      (busy : At writer next (some (left, count))) (written : wire.written ++ left = rest) :
      Flushed At next rest count (some (result, writer, wire))

/-- Less than the whole frame is no ending that is refused. -/
def Cuts (framing : Framing Phase) (phase : Phase) (frame : Bytes) : Prop :=
  ∀ part rest, frame = part ++ rest → rest ≠ [] → framing.Ending phase part none

/-- A poll of the writer builds a frame of as many bytes as it has room for, or
goes on with the one it has built. -/
structure Writes (framing : Framing Phase) (At : WriterView Phase Writer) (limit : Phase → Nat)
    (pollWrite : Sink → Writer → Bytes → Option (Poll (Except String Nat) × Writer × Wire Sink)) :
    Prop where
  between : ∀ {writer phase}, At writer phase none → framing.Ending phase [] none
  steady : ∀ {phase frame payload next}, framing.Frame phase frame payload next →
    limit next = limit phase
  idle : ∀ {writer phase}, At writer phase none → ∀ sink buf, ∃ frame next,
    framing.Frame phase frame (buf.take (limit phase)) next ∧ Cuts framing phase frame ∧
      Flushed At next frame (buf.take (limit phase)).length (pollWrite sink writer buf)
  busy : ∀ {writer next rest count}, At writer next (some (rest, count)) → ∀ sink buf,
    Flushed At next rest count (pollWrite sink writer buf)

structure Link (Writer Reader Sink : Type) where
  writer : Writer
  sink : Sink
  /-- What the write that is not over was offered first. -/
  pending : Option Bytes
  inFlight : Bytes
  ended : Bool
  incoming : List PollRead
  reader : Reader
  accepted : Bytes
  delivered : Bytes

inductive LinkEvent where
  | write (buf : Bytes)
  | flush
  | shutdown
  /-- The network gives the reader's side a piece, a delay, an error or the end. -/
  | arrive (read : PollRead)
  | read (room : Nat)
deriving DecidableEq

def answered : Poll (Except String Nat) → Bool
  | .ready (.ok _) => true
  | _ => false

namespace Link

/-- A write that is not over is repeated with the same bytes, or with more; the
network gives what was sent, and nothing after the end. -/
def Allowed (link : Link Writer Reader Sink) : LinkEvent → Prop
  | .write buf => ∀ offered ∈ link.pending, offered <+: buf
  | .arrive read => read.bytes <+: link.inFlight ∧ (link.ended = true → read.bytes = [])
  | .flush | .shutdown | .read _ => True

instance (link : Link Writer Reader Sink) : DecidablePred link.Allowed
  | .write _ => inferInstanceAs (Decidable (∀ offered ∈ link.pending, _))
  | .arrive _ => inferInstanceAs (Decidable (_ ∧ _))
  | .flush | .shutdown | .read _ => isTrue trivial

/-- The two events that say what they answer. -/
def write
    (pollWrite : Sink → Writer → Bytes → Option (Poll (Except String Nat) × Writer × Wire Sink))
    (link : Link Writer Reader Sink) (buf : Bytes) :
    Option (Poll (Except String Nat) × Link Writer Reader Sink) :=
  (pollWrite link.sink link.writer buf).map fun (result, writer, wire) =>
    (result,
      { link with
        writer, sink := wire.state
        pending := if answered result then none else some (link.pending.getD buf)
        inFlight := link.inFlight ++ wire.written
        accepted := link.accepted ++ buf.take (reported result) })

def read (pollRead : Nat → Reader → List PollRead → Option (PollRead × Reader × List PollRead))
    (link : Link Writer Reader Sink) (room : Nat) :
    Option (PollRead × Link Writer Reader Sink) :=
  (pollRead room link.reader link.incoming).map fun (result, reader, incoming) =>
    (result, { link with reader, incoming, delivered := link.delivered ++ result.bytes })

def flush (io : AsyncWrite Sink) (link : Link Writer Reader Sink) :
    Poll (Except String Unit) × Link Writer Reader Sink :=
  match io.pollFlush link.sink with
  | (result, sink) => (result, { link with sink })

def arrive (link : Link Writer Reader Sink) (read : PollRead) : Link Writer Reader Sink :=
  { link with
    inFlight := link.inFlight.drop read.bytes.length
    ended := link.ended || read = .ready []
    incoming := link.incoming ++ [read] }

variable (io : AsyncWrite Sink)
  (pollWrite : Sink → Writer → Bytes → Option (Poll (Except String Nat) × Writer × Wire Sink))
  (pollRead : Nat → Reader → List PollRead → Option (PollRead × Reader × List PollRead))

/-- `none` also stands for a panic. -/
def step (link : Link Writer Reader Sink) (event : LinkEvent) : Option (Link Writer Reader Sink) :=
  if link.Allowed event then
    match event with
    | .write buf => (link.write pollWrite buf).map Prod.snd
    | .flush => some (link.flush io).2
    | .shutdown => some { link with sink := (io.pollShutdown link.sink).2 }
    | .arrive read => some (link.arrive read)
    | .read room => (link.read pollRead room).map Prod.snd
  else none

variable {view : ReaderView Phase Reader} {At : WriterView Phase Writer} {limit : Phase → Nat}
  {middle : Phase} {tail : Bytes}

/-- What the writer has built after `middle`, and how much of it was sent. -/
inductive Sending (framing : Framing Phase) (At : WriterView Phase Writer) (limit : Phase → Nat)
    (middle : Phase) (tail : Bytes) (writer : Writer) : Option Bytes → Prop
  | idle (here : At writer middle none) (nothing : tail = []) :
      Sending framing At limit middle tail writer none
  | busy {offered rest : Bytes} {next : Phase}
      (frame : framing.Frame middle (tail ++ rest) (offered.take (limit middle)) next)
      (cuts : Cuts framing middle (tail ++ rest)) (some_left : rest ≠ [])
      (here : At writer next (some (rest, (offered.take (limit middle)).length))) :
      Sending framing At limit middle tail writer (some offered)

/-- What was accepted is what was handed out with what is ahead. -/
structure Carries (framing : Framing Phase) (view : ReaderView Phase Reader)
    (At : WriterView Phase Writer) (limit : Phase → Nat) (link : Link Writer Reader Sink)
    (standing : Standing Reader) (middle : Phase) (tail : Bytes) : Prop where
  reader : link.reader = standing.reader
  incoming : link.incoming = standing.incoming
  sound : standing.Sound framing view link.inFlight middle tail
  conserves : link.delivered ++ standing.left ++ standing.payloads.flatten = link.accepted
  sending : Sending framing At limit middle tail link.writer link.pending
  ended : .ready [] ∈ standing.incoming ∨ view.Closed standing.reader → link.ended = true

/-- It holds of some standing. -/
def Carried (framing : Framing Phase) (view : ReaderView Phase Reader)
    (At : WriterView Phase Writer) (limit : Phase → Nat) (link : Link Writer Reader Sink) : Prop :=
  ∃ standing middle tail, Carries framing view At limit link standing middle tail

theorem Sending.ending {writer : Writer} {pending : Option Bytes}
    (sending : Sending framing At limit middle tail writer pending)
    (writes : Writes framing At limit pollWrite) : framing.Ending middle tail none := by
  cases sending with
  | idle here nothing =>
      rw [nothing]
      exact writes.between here
  | busy frame cuts some_left here => exact cuts _ _ rfl some_left

theorem reported_of_unanswered {result : Poll (Except String Nat)}
    (unanswered : ∀ count, result ≠ .ready (.ok count)) :
    reported result = 0 ∧ answered result = false := by
  match result with
  | .pending => exact ⟨rfl, rfl⟩
  | .ready (.error error) => exact ⟨rfl, rfl⟩
  | .ready (.ok count) => exact absurd rfl (unanswered count)

variable {pollWrite pollRead} {link : Link Writer Reader Sink} {standing : Standing Reader}

theorem Carries.start {reader : Reader} {writer : Writer} {phase : Phase} {silent : Bytes}
    (here : view.At reader [] phase []) (empty : view.buffered reader = [])
    (opened : ¬view.Closed reader) (frames : Frames framing phase silent [] middle)
    (idle : At writer middle none) (sink : Sink) :
    Carries framing view At limit ⟨writer, sink, none, silent, false, [], reader, [], []⟩
      ⟨reader, [], [], []⟩ middle [] := by
  refine ⟨rfl, rfl, ⟨⟨[], phase, silent, here, ?_, frames⟩, ?_, fun closed => absurd closed opened⟩,
    rfl, .idle idle rfl, fun ended => ?_⟩
  · change [] ++ (view.buffered reader ++ [] ++ silent) = silent ++ []
    rw [empty]
    exact (List.append_nil silent).symm
  · intro before after cut
    cases before <;> cases cut
  · rcases ended with eof | closed
    · cases eof
    · exact absurd closed opened

/-- What a write may answer, where `offered` is what it was offered first. -/
inductive Wrote (framing : Framing Phase) (view : ReaderView Phase Reader)
    (At : WriterView Phase Writer) (limit : Phase → Nat) (standing : Standing Reader)
    (middle : Phase) (offered : Bytes) :
    Poll (Except String Nat) → Link Writer Reader Sink → Prop
  | whole {next : Phase} {after : Link Writer Reader Sink} (settled : after.pending = none)
      (steady : limit next = limit middle)
      (carries : Carries framing view At limit after
        { standing with payloads := standing.payloads ++ [offered.take (limit middle)] } next []) :
      Wrote framing view At limit standing middle offered
        (.ready (.ok (offered.take (limit middle)).length)) after
  | part {result : Poll (Except String Nat)} {sent : Bytes} {after : Link Writer Reader Sink}
      (unanswered : ∀ count, result ≠ .ready (.ok count))
      (open_still : after.pending = some offered)
      (carries : Carries framing view At limit after standing middle sent) :
      Wrote framing view At limit standing middle offered result after

/-- What a write does once it is known what it has to flush: `rest` is what is
left of the frame after `tail`. -/
theorem Carries.flushed (writes : Writes framing At limit pollWrite)
    (carries : Carries framing view At limit link standing middle tail)
    {offered rest buf : Bytes} {next : Phase} (fresh : link.pending.getD buf = offered)
    (longer : offered <+: buf)
    (frame : framing.Frame middle (tail ++ rest) (offered.take (limit middle)) next)
    (cuts : Cuts framing middle (tail ++ rest))
    (flushed : Flushed At next rest (offered.take (limit middle)).length
      (pollWrite link.sink link.writer buf)) :
    ∃ result after, link.write pollWrite buf = some (result, after) ∧
      Wrote framing view At limit standing middle offered result after := by
  rw [write, fresh]
  revert flushed
  generalize pollWrite link.sink link.writer buf = out
  intro flushed
  cases flushed with
  | done writer wire idle written =>
      have sound := (carries.sound.extend wire.written).finish (written ▸ frame)
      refine ⟨_, _, rfl, .whole rfl (writes.steady frame) ⟨carries.reader, carries.incoming, sound,
        ?_, .idle idle rfl, carries.ended⟩⟩
      have taken : offered.take (limit middle) <+: buf :=
        (List.take_prefix _ offered).trans longer
      change link.delivered ++ standing.left ++
          (standing.payloads ++ [offered.take (limit middle)]).flatten =
        link.accepted ++ buf.take (offered.take (limit middle)).length
      rw [← List.prefix_iff_eq_take.mp taken, ← carries.conserves,
        List.flatten_append, List.flatten_singleton, List.append_assoc]
      simp only [List.append_assoc]
  | stopped writer wire left unanswered some_left busy written =>
      obtain ⟨none, unfinished⟩ := reported_of_unanswered unanswered
      have whole : tail ++ rest = tail ++ wire.written ++ left := by
        rw [← written, List.append_assoc]
      rw [whole] at frame cuts
      have still : (if answered _ then Option.none else some offered) = some offered :=
        if_neg (by rw [unfinished]; exact nofun)
      refine ⟨_, _, rfl, .part unanswered still ⟨carries.reader, carries.incoming,
        carries.sound.extend wire.written, ?_, ?_, carries.ended⟩⟩
      · change _ = link.accepted ++ buf.take (reported _)
        rw [none, List.take_zero, List.append_nil]
        exact carries.conserves
      · change Sending _ _ _ _ _ _ (if answered _ then _ else _)
        rw [still]
        exact .busy frame cuts some_left busy

theorem Carries.write (writes : Writes framing At limit pollWrite)
    (carries : Carries framing view At limit link standing middle tail) {buf : Bytes}
    (allowed : link.Allowed (.write buf)) :
    ∃ result after, link.write pollWrite buf = some (result, after) ∧
      Wrote framing view At limit standing middle (link.pending.getD buf) result after := by
  have sending := carries.sending
  generalize same : link.pending = pending at sending
  cases sending with
  | idle here nothing =>
      obtain ⟨frame, next, built, cuts, flushed⟩ := writes.idle here link.sink buf
      refine carries.flushed writes (by rw [same]) List.prefix_rfl ?_ ?_ flushed
      · rw [nothing]
        exact built
      · rw [nothing]
        exact cuts
  | @busy offered rest next frame cuts some_left here =>
      have repeated : offered <+: buf := allowed offered same
      exact carries.flushed writes (by rw [same]) repeated frame cuts
        (writes.busy here link.sink buf)

theorem Carries.read (reads : Reads framing view pollRead)
    (writes : Writes framing At limit pollWrite)
    (carries : Carries framing view At limit link standing middle tail) (room : Nat) :
    ∃ result after later, link.read pollRead room = some (result, after) ∧
      Carries framing view At limit after later middle tail ∧
        Standing.Advance framing view room link.inFlight middle tail none standing result later ∧
          after.accepted = link.accepted ∧ after.inFlight = link.inFlight ∧
            after.pending = link.pending := by
  have outcome := reads room link.inFlight middle tail none standing carries.sound
    (carries.sending.ending pollWrite writes) nofun
  rw [Link.read, carries.reader, carries.incoming]
  revert outcome
  generalize pollRead room standing.reader standing.incoming = out
  intro outcome
  cases outcome with
  | refuse reader incoming refused => cases refused
  | @advance result reader incoming left payloads step =>
      obtain ⟨opened, same, bytes⟩ := step.conserves
      refine ⟨_, _, _, rfl, ⟨rfl, rfl, step.sound, ?_, carries.sending, fun ended => ?_⟩, step, rfl,
        rfl, rfl⟩
      · change link.delivered ++ result.bytes ++ left ++ payloads.flatten = link.accepted
        change standing.left ++ opened.flatten = result.bytes ++ left at bytes
        rw [← carries.conserves, same, List.flatten_append]
        rw [List.append_assoc link.delivered, ← bytes]
        simp only [List.append_assoc]
      · rcases ended with eof | closed
        · exact carries.ended (Or.inl (Standing.mem_of_suffix step.suffix eof))
        · exact carries.ended (step.closes closed).symm

theorem Carries.flush (carries : Carries framing view At limit link standing middle tail)
    (io : AsyncWrite Sink) : Carries framing view At limit (link.flush io).2 standing middle tail :=
  ⟨carries.reader, carries.incoming, carries.sound, carries.conserves, carries.sending,
    carries.ended⟩

theorem Carries.arrive (carries : Carries framing view At limit link standing middle tail)
    {read : PollRead} (allowed : link.Allowed (.arrive read)) :
    Carries framing view At limit (link.arrive read)
      { standing with incoming := standing.incoming ++ [read] } middle tail := by
  obtain ⟨sent, last⟩ := allowed
  have sound := carries.sound.arrive sent fun ended => last (carries.ended ended)
  refine ⟨carries.reader, ?_, sound, carries.conserves, carries.sending, fun ended => ?_⟩
  · change link.incoming ++ [read] = standing.incoming ++ [read]
    rw [carries.incoming]
  · change (link.ended || _) = true
    rcases ended with eof | closed
    · rcases List.mem_append.mp eof with eof | eof
      · rw [carries.ended (Or.inl eof), Bool.true_or]
      · rw [List.mem_singleton.mp eof, decide_eq_true rfl, Bool.or_true]
    · rw [carries.ended (Or.inr closed), Bool.true_or]

theorem Carries.step (reads : Reads framing view pollRead)
    (writes : Writes framing At limit pollWrite)
    (carries : Carries framing view At limit link standing middle tail) {event : LinkEvent}
    (allowed : link.Allowed event) :
    ∃ after, step io pollWrite pollRead link event = some after ∧
      Carried framing view At limit after := by
  rw [Link.step.eq_def, if_pos allowed]
  cases event with
  | write buf =>
      obtain ⟨result, after, taken, wrote⟩ := carries.write writes allowed
      refine ⟨after, congrArg (Option.map Prod.snd) taken, ?_⟩
      cases wrote with
      | whole settled steady carries' => exact ⟨_, _, _, carries'⟩
      | part unanswered open_still carries' => exact ⟨_, _, _, carries'⟩
  | flush => exact ⟨_, rfl, _, _, _, carries.flush io⟩
  | shutdown =>
      exact ⟨_, rfl, standing, middle, tail, ⟨carries.reader, carries.incoming, carries.sound,
        carries.conserves, carries.sending, carries.ended⟩⟩
  | arrive read => exact ⟨_, rfl, _, _, _, carries.arrive allowed⟩
  | read room =>
      obtain ⟨result, after, later, taken, carries', -⟩ := carries.read reads writes room
      exact ⟨after, congrArg (Option.map Prod.snd) taken, later, middle, tail, carries'⟩

/-- Reader and writer are at the same frame, up to silent ones, or the writer is
one ahead, with a frame that it has not flushed. -/
def InStep (framing : Framing Phase) (view : ReaderView Phase Reader)
    (At : WriterView Phase Writer) (link : Link Writer Reader Sink) : Prop :=
  ∃ begun phase silent middle, view.At link.reader begun phase [] ∧
    Frames framing phase silent [] middle ∧
      (link.pending = none ∧ At link.writer middle none ∨
        link.pending.isSome ∧ ∃ frame payload next rest,
          framing.Frame middle frame payload next ∧ At link.writer next (some rest))

theorem Carries.inStep
    (carries : Carries framing view At limit link standing middle tail)
    (idle : standing.left = [] ∧ standing.payloads = []) : InStep framing view At link := by
  obtain ⟨begun, phase, frames, here, -, ahead⟩ := carries.sound.ahead
  rw [idle.1, ← carries.reader] at here
  rw [idle.2] at ahead
  refine ⟨begun, phase, frames, middle, here, ahead, ?_⟩
  have sending := carries.sending
  generalize link.pending = pending at sending ⊢
  cases sending with
  | idle here nothing => exact Or.inl ⟨rfl, here⟩
  | busy frame cuts some_left here => exact Or.inr ⟨rfl, _, _, _, _, frame, here⟩

theorem Carries.drain (reads : Reads framing view pollRead)
    (writes : Writes framing At limit pollWrite)
    (carries : Carries framing view At limit link standing middle tail) (sent : link.inFlight = [])
    {rooms : List Nat} (positive : ∀ room ∈ rooms, 0 < room)
    (enough : standing.Busy none → standing.work ≤ rooms.length) :
    ∃ final, Machine.run (Link.step io pollWrite pollRead) link (rooms.map .read) = some final ∧
      final.delivered = link.accepted ∧ InStep framing view At final := by
  induction rooms generalizing link standing with
  | nil =>
      have idle : ¬standing.Busy none := by
        intro busy
        have nothing := Nat.le_zero.mp (enough busy)
        unfold Standing.work at nothing
        rcases busy with left | payloads | refused
        · exact absurd (List.length_eq_zero_iff.mp (by omega)) left
        · exact absurd (List.length_eq_zero_iff.mp (by omega)) payloads
        · exact refused rfl
      rw [Standing.Busy, not_or, not_or, not_ne_iff, not_ne_iff] at idle
      refine ⟨link, rfl, ?_, carries.inStep ⟨idle.1, idle.2.1⟩⟩
      rw [← carries.conserves, idle.1, idle.2.1, List.append_nil, List.flatten_nil, List.append_nil]
  | cons room rooms ih =>
      obtain ⟨result, after, later, answer, carries', step, accepted, inFlight, -⟩ :=
        carries.read reads writes room
      obtain ⟨here, others⟩ := List.forall_mem_cons.mp positive
      have always : link.Allowed (.read room) := trivial
      have taken : Link.step io pollWrite pollRead link (.read room) = some after := by
        rw [Link.step, if_pos always]
        exact congrArg (Option.map Prod.snd) answer
      rw [List.map_cons, Machine.run_cons_of taken, ← accepted]
      refine ih carries' (inFlight.trans sent) others fun busy => ?_
      by_cases before : standing.Busy none
      · have less := step.progress here sent before
        have enough := enough before
        rw [List.length_cons] at enough
        omega
      · exact absurd (step.busy busy) before

structure Faithful (io : AsyncWrite Sink)
    (pollWrite : Sink → Writer → Bytes → Option (Poll (Except String Nat) × Writer × Wire Sink))
    (pollRead : Nat → Reader → List PollRead → Option (PollRead × Reader × List PollRead))
    (inStep : Link Writer Reader Sink → Prop) (link : Link Writer Reader Sink) : Prop where
  isPrefix : link.delivered <+: link.accepted
  /-- No event is met with a panic. -/
  answers : ∀ event, link.Allowed event → ∃ next, step io pollWrite pollRead link event = some next
  /-- Once all that was sent has arrived, reads give all that was accepted. -/
  complete : link.inFlight = [] → ∃ enough, ∀ rooms : List Nat, (∀ room ∈ rooms, 0 < room) →
    enough ≤ rooms.length → ∃ final,
      Machine.run (step io pollWrite pollRead) link (rooms.map .read) = some final ∧
        final.delivered = link.accepted ∧ inStep final

variable {inStep : Link Writer Reader Sink → Prop}

theorem Carried.faithful (reads : Reads framing view pollRead)
    (writes : Writes framing At limit pollWrite)
    (steps : ∀ link, InStep framing view At link → inStep link)
    (carried : Carried framing view At limit link) :
    Faithful io pollWrite pollRead inStep link := by
  obtain ⟨standing, middle, tail, carries⟩ := carried
  refine ⟨⟨standing.left ++ standing.payloads.flatten, ?_⟩, fun event allowed => ?_, fun sent => ?_⟩
  · rw [← List.append_assoc]
    exact carries.conserves
  · obtain ⟨after, taken, -⟩ := carries.step io reads writes allowed
    exact ⟨after, taken⟩
  · refine ⟨standing.work, fun rooms positive enough => ?_⟩
    obtain ⟨final, ran, delivered, inStep⟩ :=
      carries.drain io reads writes sent positive fun _ => enough
    exact ⟨final, ran, delivered, steps final inStep⟩

theorem Carried.step (reads : Reads framing view pollRead)
    (writes : Writes framing At limit pollWrite)
    (carried : Carried framing view At limit link) {event : LinkEvent}
    {next : Link Writer Reader Sink}
    (taken : Link.step io pollWrite pollRead link event = some next) :
    Carried framing view At limit next := by
  obtain ⟨standing, middle, tail, carries⟩ := carried
  by_cases allowed : link.Allowed event
  · obtain ⟨after, same, carried⟩ := carries.step io reads writes allowed
    cases same.symm.trans taken
    exact carried
  · rw [Link.step.eq_def, if_neg allowed] at taken
    cases taken

end Link

end Framed

end QuicProxy
