import QuicProxy.Data.AsyncStream

namespace QuicProxy

/-! Frames on a byte stream: a writer that builds one frame at a time, a network
that cuts the bytes anywhere, and a reader that opens the frames again. -/

/-- After the end of the stream come no bytes. -/
def EofLast (reads : List PollRead) : Prop :=
  ∀ before after, reads = before ++ .ready [] :: after → contents after = []

theorem EofLast.suffix {reads rest : List PollRead} (last : EofLast reads)
    (suffix : rest <:+ reads) : EofLast rest := by
  obtain ⟨eaten, rfl⟩ := suffix
  intro before after cut
  refine last (eaten ++ before) after ?_
  rw [cut, List.append_assoc]

theorem EofLast.snoc {reads : List PollRead} (last : EofLast reads) {read : PollRead}
    (silent : .ready [] ∈ reads → read.bytes = []) : EofLast (reads ++ [read]) := by
  intro before after cut
  rcases List.eq_nil_or_concat after with rfl | ⟨middle, final, rfl⟩
  · rfl
  · rw [List.concat_eq_append, ← List.cons_append, ← List.append_assoc] at cut
    obtain ⟨same, tail⟩ := List.append_inj' cut rfl
    cases tail
    rw [List.concat_eq_append, contents_append, last before middle same]
    rw [contents_cons, contents_nil, silent (by rw [same]; exact List.mem_append_cons_self)]
    rfl

namespace Framed

/-- What a stream is made of.  `Frame phase bytes payload next` says that at
`phase` the bytes are one whole frame with that payload, `Silent phase bytes
next` that they are one without; `Ending phase bytes refusal` says that they are
less than a frame, or that they are refused, with this error, when the stream
ends with them. -/
structure Framing (Phase : Type) where
  Frame : Phase → Bytes → Bytes → Phase → Prop
  Silent : Phase → Bytes → Phase → Prop
  Ending : Phase → Bytes → Option String → Prop
  nonempty : ∀ {phase payload next}, ¬Frame phase [] payload next
  unspoken : ∀ {phase next}, ¬Silent phase [] next
  unrefused : ∀ {phase error}, ¬Ending phase [] (some error)

variable {Phase Reader : Type} {framing : Framing Phase}

inductive Frames (framing : Framing Phase) : Phase → Bytes → List Bytes → Phase → Prop
  | nil (phase : Phase) : Frames framing phase [] [] phase
  | cons {phase middle final : Phase} {frame payload bytes : Bytes} {payloads : List Bytes}
      (first : framing.Frame phase frame payload middle)
      (rest : Frames framing middle bytes payloads final) :
      Frames framing phase (frame ++ bytes) (payload :: payloads) final
  | skip {phase middle final : Phase} {frame bytes : Bytes} {payloads : List Bytes}
      (first : framing.Silent phase frame middle)
      (rest : Frames framing middle bytes payloads final) :
      Frames framing phase (frame ++ bytes) payloads final

namespace Frames

variable {phase middle final : Phase} {frame payload bytes : Bytes} {payloads : List Bytes}

theorem single (first : framing.Frame phase frame payload final) :
    Frames framing phase frame [payload] final := by
  have one : Frames framing phase (frame ++ []) [payload] final := .cons first (.nil final)
  rwa [List.append_nil] at one

theorem silent (first : framing.Silent phase frame final) :
    Frames framing phase frame [] final := by
  have one : Frames framing phase (frame ++ []) [] final := .skip first (.nil final)
  rwa [List.append_nil] at one

theorem snoc (frames : Frames framing phase bytes payloads middle)
    (last : framing.Frame middle frame payload final) :
    Frames framing phase (bytes ++ frame) (payloads ++ [payload]) final := by
  induction frames with
  | nil phase => exact single last
  | cons first rest ih =>
      rw [List.append_assoc]
      exact .cons first (ih last)
  | skip first rest ih =>
      rw [List.append_assoc]
      exact .skip first (ih last)

end Frames

/-- Every stream is frames up to where it ends or is refused. -/
def Decided (framing : Framing Phase) (phase : Phase) : Prop :=
  ∀ bytes, ∃ frames payloads middle bad, bytes = frames ++ bad ∧
    Frames framing phase frames payloads middle ∧
      (bad = [] ∨ ∃ error, framing.Ending middle bad (some error))

/-! Readers. -/

/-- How the states of a reader are seen: the bytes it has read ahead, whether it
has met the end, and where it is.  `At reader begun phase left` says that it has
taken `begun` off the frame at `phase`, and has `left` to hand out before it. -/
structure ReaderView (Phase Reader : Type) where
  buffered : Reader → Bytes
  Closed : Reader → Prop
  At : Reader → Bytes → Phase → Bytes → Prop

/-- A reader with what is left of its payload, the payloads that it has not
opened, and what its stream is going to give. -/
structure Standing (Reader : Type) where
  reader : Reader
  left : Bytes
  payloads : List Bytes
  incoming : List PollRead

namespace Standing

def work (standing : Standing Reader) : Nat :=
  standing.incoming.length + standing.left.length + standing.payloads.flatten.length +
    standing.payloads.length

/-- There is something to hand out or to refuse. -/
def Busy (standing : Standing Reader) (refusal : Option String) : Prop :=
  standing.left ≠ [] ∨ standing.payloads ≠ [] ∨ refusal ≠ none

variable (framing) (view : ReaderView Phase Reader)

/-- The payloads are ahead: their frames are what follows, up to `tail`.  Of all
that, `more` has not arrived. -/
structure Sound (more : Bytes) (middle : Phase) (tail : Bytes) (standing : Standing Reader) :
    Prop where
  ahead : ∃ begun phase frames, view.At standing.reader begun phase standing.left ∧
    begun ++ (view.buffered standing.reader ++ contents standing.incoming ++ more) =
        frames ++ tail ∧
      Frames framing phase frames standing.payloads middle
  eofLast : EofLast standing.incoming
  silent : view.Closed standing.reader → contents standing.incoming = []

/-- What a poll hands out: of what is left of a payload, of the next payload, or
nothing, because it waits or its stream has stopped. -/
inductive Served (room : Nat) (before : Standing Reader) : List Bytes → PollRead → Bytes → Prop
  | rest (some_left : before.left ≠ []) :
      Served room before [] (.ready (before.left.take room)) (before.left.drop room)
  | payload (payload : Bytes) (served : before.left = []) :
      Served room before [payload] (.ready (payload.take room)) (payload.drop room)
  | nothing {result : PollRead} (bytes : result.bytes = [])
      (because : result = .pending ∨ view.Closed before.reader ∨
        ∃ read ∈ before.incoming, read.stops = true) :
      Served room before [] result before.left

structure Advance (room : Nat) (more : Bytes) (middle : Phase) (tail : Bytes)
    (refusal : Option String) (before : Standing Reader) (result : PollRead)
    (after : Standing Reader) : Prop where
  sound : after.Sound framing view more middle tail
  served : ∃ opened, before.payloads = opened ++ after.payloads ∧
    Served view room before opened result after.left
  suffix : after.incoming <:+ before.incoming
  closes : view.Closed after.reader → view.Closed before.reader ∨ .ready [] ∈ before.incoming
  progress : 0 < room → more = [] → before.Busy refusal → after.work < before.work
  fails : refusal ≠ none → ∀ error, result = .failed error → .failed error ∈ before.incoming
  keepsEof : refusal ≠ none → .ready [] ∈ after.incoming

inductive Outcome (room : Nat) (more : Bytes) (middle : Phase) (tail : Bytes)
    (refusal : Option String) (before : Standing Reader) :
    Option (PollRead × Reader × List PollRead) → Prop
  | advance {result : PollRead} {reader : Reader} {incoming : List PollRead}
      (left : Bytes) (payloads : List Bytes)
      (step : Advance framing view room more middle tail refusal before result
        ⟨reader, left, payloads, incoming⟩) :
      Outcome room more middle tail refusal before (some (result, reader, incoming))
  | refuse {error : String} (reader : Reader) (incoming : List PollRead)
      (refused : refusal = some error) (nothing : before.left = [])
      (empty : before.payloads.flatten = []) :
      Outcome room more middle tail refusal before (some (.failed error, reader, incoming))

/-- One turn inside a poll. -/
structure Move (more : Bytes) (middle : Phase) (tail : Bytes) (refusal : Option String)
    (before after : Standing Reader) : Prop where
  sound : after.Sound framing view more middle tail
  left : after.left = before.left
  payloads : after.payloads = before.payloads
  suffix : after.incoming <:+ before.incoming
  closes : ¬view.Closed after.reader
  progress : after.work < before.work ∨
    after.work ≤ before.work ∧ (before.Busy refusal → after.Busy refusal)

variable {framing view} {room : Nat} {more tail : Bytes} {middle : Phase}
  {refusal : Option String} {before after : Standing Reader} {result : PollRead}

theorem Sound.extend (sound : before.Sound framing view more middle tail) (sent : Bytes) :
    before.Sound framing view (more ++ sent) middle (tail ++ sent) := by
  obtain ⟨begun, phase, frames, here, same, ahead⟩ := sound.ahead
  refine ⟨⟨begun, phase, frames, here, ?_, ahead⟩, sound.eofLast, sound.silent⟩
  rw [← List.append_assoc _ more, ← List.append_assoc, same, List.append_assoc]

theorem Sound.finish {payload : Bytes} {next : Phase}
    (sound : before.Sound framing view more middle tail)
    (whole : framing.Frame middle tail payload next) :
    Sound framing view more next [] { before with payloads := before.payloads ++ [payload] } := by
  obtain ⟨begun, phase, frames, here, same, ahead⟩ := sound.ahead
  refine ⟨⟨begun, phase, frames ++ tail, here, ?_, ahead.snoc whole⟩, sound.eofLast, sound.silent⟩
  rw [List.append_nil]
  exact same

theorem Sound.arrive (sound : before.Sound framing view more middle tail) {read : PollRead}
    (sent : read.bytes <+: more)
    (ended : .ready [] ∈ before.incoming ∨ view.Closed before.reader → read.bytes = []) :
    Sound framing view (more.drop read.bytes.length) middle tail
      { before with incoming := before.incoming ++ [read] } := by
  obtain ⟨begun, phase, frames, here, same, ahead⟩ := sound.ahead
  refine ⟨⟨begun, phase, frames, here, ?_, ahead⟩, ?_, fun closed => ?_⟩
  · obtain ⟨later, rfl⟩ := sent
    rw [← same, List.drop_left, contents_append, contents_cons, contents_nil, List.append_nil]
    simp only [List.append_assoc]
  · exact sound.eofLast.snoc fun eof => ended (Or.inl eof)
  · rw [contents_append, sound.silent closed, contents_cons, ended (Or.inr closed)]
    rfl

theorem mem_of_suffix {reads rest : List PollRead} (suffix : rest <:+ reads) {read : PollRead}
    (member : read ∈ rest) : read ∈ reads :=
  suffix.subset member

theorem Served.conserves {opened : List Bytes} {left : Bytes}
    (served : Served view room before opened result left) :
    before.left ++ opened.flatten = result.bytes ++ left := by
  cases served with
  | rest some_left =>
      rw [List.flatten_nil, List.append_nil]
      exact (List.take_append_drop room before.left).symm
  | payload payload nothing =>
      rw [nothing, List.nil_append, List.flatten_singleton]
      exact (List.take_append_drop room payload).symm
  | nothing bytes because =>
      rw [bytes, List.flatten_nil, List.append_nil]
      rfl

theorem Advance.conserves
    (step : Advance framing view room more middle tail refusal before result after) :
    ∃ opened, before.payloads = opened ++ after.payloads ∧
      before.left ++ opened.flatten = result.bytes ++ after.left := by
  obtain ⟨opened, payloads, served⟩ := step.served
  exact ⟨opened, payloads, served.conserves⟩

theorem Advance.work_le
    (step : Advance framing view room more middle tail refusal before result after) :
    after.work ≤ before.work := by
  obtain ⟨opened, payloads, bytes⟩ := step.conserves
  have shorter := step.suffix.length_le
  have sizes := congrArg List.length bytes
  rw [List.length_append, List.length_append] at sizes
  unfold work
  rw [payloads, List.flatten_append, List.length_append, List.length_append]
  omega

theorem Advance.busy
    (step : Advance framing view room more middle tail refusal before result after)
    (busy : after.Busy none) : before.Busy none := by
  obtain ⟨opened, payloads, bytes⟩ := step.conserves
  by_contra idle
  rw [Busy, not_or, not_or, not_ne_iff, not_ne_iff] at idle
  obtain ⟨left, nothing, -⟩ := idle
  rw [nothing] at payloads
  obtain ⟨none_opened, none_ahead⟩ := List.append_eq_nil_iff.mp payloads.symm
  rw [left, none_opened] at bytes
  have none_left := (List.append_eq_nil_iff.mp bytes.symm).2
  rcases busy with some_left | some_ahead | refused
  · exact some_left none_left
  · exact some_ahead none_ahead
  · exact refused rfl

theorem Served.of_move {opened : List Bytes} {left : Bytes}
    (move : Move framing view more middle tail refusal before after)
    (served : Served view room after opened result left) :
    Served view room before opened result left := by
  have same := move.left
  cases served with
  | rest some_left =>
      rw [same] at some_left ⊢
      exact .rest some_left
  | payload payload nothing => exact .payload payload (same.symm.trans nothing)
  | nothing bytes because =>
      rw [same]
      refine .nothing bytes ?_
      rcases because with waits | closed | ⟨read, member, stops⟩
      · exact Or.inl waits
      · exact absurd closed move.closes
      · exact Or.inr (Or.inr ⟨read, mem_of_suffix move.suffix member, stops⟩)

theorem Outcome.of_move {out : Option (PollRead × Reader × List PollRead)}
    (move : Move framing view more middle tail refusal before after)
    (outcome : Outcome framing view room more middle tail refusal after out) :
    Outcome framing view room more middle tail refusal before out := by
  cases outcome with
  | advance left rest step =>
      obtain ⟨opened, payloads, served⟩ := step.served
      rw [move.payloads] at payloads
      refine .advance left rest ⟨step.sound, ⟨opened, payloads, served.of_move move⟩,
        step.suffix.trans move.suffix, fun closed => ?_, fun room whole busy => ?_,
        fun refused error failed => ?_, step.keepsEof⟩
      · rcases step.closes closed with closed | eof
        · exact absurd closed move.closes
        · exact Or.inr (mem_of_suffix move.suffix eof)
      · have le := step.work_le
        rcases move.progress with less | ⟨le', still⟩
        · exact Nat.lt_of_le_of_lt le less
        · exact Nat.lt_of_lt_of_le (step.progress room whole (still busy)) le'
      · exact mem_of_suffix move.suffix (step.fails refused error failed)
  | refuse reader incoming refused nothing empty =>
      rw [move.left] at nothing
      rw [move.payloads] at empty
      exact .refuse reader incoming refused nothing empty

def map {Other : Type} (wrap : Reader → Other) (standing : Standing Reader) : Standing Other :=
  ⟨wrap standing.reader, standing.left, standing.payloads, standing.incoming⟩

/-- A view of the wrapped readers that agrees with this one. -/
structure Agrees {Other : Type} (view : ReaderView Phase Reader) (other : ReaderView Phase Other)
    (wrap : Reader → Other) : Prop where
  buffered : ∀ reader, other.buffered (wrap reader) = view.buffered reader
  closed : ∀ reader, other.Closed (wrap reader) ↔ view.Closed reader
  at_wrap : ∀ {reader begun phase left}, view.At reader begun phase left →
    other.At (wrap reader) begun phase left

section Agrees

variable {Other : Type} {other : ReaderView Phase Other} {wrap : Reader → Other}

theorem Sound.map (agrees : Agrees view other wrap)
    (sound : before.Sound framing view more middle tail) :
    (before.map wrap).Sound framing other more middle tail := by
  obtain ⟨begun, phase, frames, here, cut, ahead⟩ := sound.ahead
  refine ⟨⟨begun, phase, frames, agrees.at_wrap here, ?_, ahead⟩, sound.eofLast,
    fun closed => sound.silent ((agrees.closed _).mp closed)⟩
  rw [← cut]
  exact congrArg (fun buf => begun ++ (buf ++ contents before.incoming ++ more))
    (agrees.buffered _)

theorem Served.map (agrees : Agrees view other wrap) {opened : List Bytes} {left : Bytes}
    (served : Served view room before opened result left) :
    Served other room (before.map wrap) opened result left := by
  cases served with
  | rest some_left => exact .rest some_left
  | payload payload nothing => exact .payload payload nothing
  | nothing bytes because =>
      refine .nothing bytes ?_
      rcases because with waits | closed | stopped
      · exact Or.inl waits
      · exact Or.inr (Or.inl ((agrees.closed _).mpr closed))
      · exact Or.inr (Or.inr stopped)

theorem Outcome.map (agrees : Agrees view other wrap)
    {out : Option (PollRead × Reader × List PollRead)}
    (outcome : Outcome framing view room more middle tail refusal before out) :
    Outcome framing other room more middle tail refusal (before.map wrap)
      (out.map fun (result, reader, incoming) => (result, wrap reader, incoming)) := by
  cases outcome with
  | @advance result reader incoming left payloads step =>
      obtain ⟨opened, same, served⟩ := step.served
      refine .advance left payloads ⟨step.sound.map agrees, ⟨opened, same, served.map agrees⟩,
        step.suffix, fun closed => ?_, step.progress, step.fails, step.keepsEof⟩
      exact (step.closes ((agrees.closed _).mp closed)).imp_left (agrees.closed _).mpr
  | refuse reader incoming refused nothing empty =>
      exact .refuse (wrap reader) incoming refused nothing empty

end Agrees

end Standing

/-- A poll of the reader does what the framing says. -/
def Reads (framing : Framing Phase) (view : ReaderView Phase Reader)
    (pollRead : Nat → Reader → List PollRead → Option (PollRead × Reader × List PollRead)) : Prop :=
  ∀ (room : Nat) (more : Bytes) (middle : Phase) (tail : Bytes) (refusal : Option String)
    (standing : Standing Reader), standing.Sound framing view more middle tail →
    framing.Ending middle tail refusal →
    (refusal ≠ none → more = [] ∧ .ready [] ∈ standing.incoming) →
      standing.Outcome framing view room more middle tail refusal
        (pollRead room standing.reader standing.incoming)

/-! A user who reads on, whatever the answers. -/

/-- The answers to reads with so much room, unless one panics. -/
def readMany
    (pollRead : Nat → Reader → List PollRead → Option (PollRead × Reader × List PollRead)) :
    Reader → List PollRead → List Nat → Option (List PollRead)
  | _, _, [] => some []
  | reader, incoming, room :: rooms =>
      match pollRead room reader incoming with
      | none => none
      | some (result, reader, incoming) =>
          (readMany pollRead reader incoming rooms).map (result :: ·)

theorem readMany_isSome {wellFormed : Reader → Prop}
    {pollRead : Nat → Reader → List PollRead → Option (PollRead × Reader × List PollRead)}
    (answered : ∀ room reader incoming, wellFormed reader → ∃ result after rest,
      pollRead room reader incoming = some (result, after, rest) ∧ wellFormed after)
    {reader : Reader} (start : wellFormed reader) (incoming : List PollRead) (rooms : List Nat) :
    (readMany pollRead reader incoming rooms).isSome := by
  induction rooms generalizing reader incoming with
  | nil => rfl
  | cons room rooms ih =>
      obtain ⟨result, after, rest, same, kept⟩ := answered room reader incoming start
      rw [readMany, same]
      dsimp only
      rw [Option.isSome_map]
      exact ih kept rest

/-! A user who reads until an error. -/

structure Reading (Reader : Type) where
  reader : Reader
  incoming : List PollRead
  delivered : Bytes
  failure : Option String

namespace Reading

def start (reader : Reader) (incoming : List PollRead) : Reading Reader :=
  ⟨reader, incoming, [], none⟩

def failureOf : PollRead → Option String
  | .failed error => some error
  | _ => none

/-- An event is the room of a read. -/
def step (pollRead : Nat → Reader → List PollRead → Option (PollRead × Reader × List PollRead))
    (reading : Reading Reader) (room : Nat) : Option (Reading Reader) :=
  if reading.failure.isSome then some reading
  else
    match pollRead room reading.reader reading.incoming with
    | none => none
    | some (result, reader, incoming) =>
        some ⟨reader, incoming, reading.delivered ++ result.bytes, failureOf result⟩

variable {view : ReaderView Phase Reader} {middle : Phase} {tail whole : Bytes}
  {error : String}
  {pollRead : Nat → Reader → List PollRead → Option (PollRead × Reader × List PollRead)}

/-- Between the payloads and the error: what has been handed out and what is
ahead make up `whole`, and the end is still to come. -/
structure Underway (framing : Framing Phase) (view : ReaderView Phase Reader) (middle : Phase)
    (tail whole : Bytes) (reading : Reading Reader) (standing : Standing Reader) : Prop where
  reader : reading.reader = standing.reader
  incoming : reading.incoming = standing.incoming
  sound : standing.Sound framing view [] middle tail
  conserves : reading.delivered ++ standing.left ++ standing.payloads.flatten = whole
  eof : .ready [] ∈ standing.incoming
  unfailed : ∀ error, .failed error ∉ standing.incoming
  failure : reading.failure = none

/-- The error has been answered, after all the payloads. -/
structure Refused (whole : Bytes) (error : String) (reading : Reading Reader) : Prop where
  failure : reading.failure = some error
  delivered : reading.delivered = whole

theorem Underway.step (reads : Reads framing view pollRead)
    (ending : framing.Ending middle tail (some error)) {reading : Reading Reader}
    {standing : Standing Reader}
    (underway : Underway framing view middle tail whole reading standing)
    (room : Nat) :
    ∃ next, step pollRead reading room = some next ∧
      (Refused whole error next ∨ ∃ after, Underway framing view middle tail whole next after ∧
        (0 < room → after.work < standing.work)) := by
  have outcome := reads room [] middle tail (some error) standing underway.sound ending
    fun _ => ⟨rfl, underway.eof⟩
  rw [Reading.step, underway.failure, underway.reader, underway.incoming]
  revert outcome
  generalize pollRead room standing.reader standing.incoming = out
  intro outcome
  cases outcome with
  | refuse reader incoming same nothing empty =>
      cases same
      refine ⟨_, rfl, Or.inl ⟨rfl, ?_⟩⟩
      rw [← underway.conserves, nothing, empty]
      change reading.delivered ++ [] = _
      rw [List.append_nil, List.append_nil]
  | @advance result reader incoming left payloads step =>
      have unfailed (error : String) (failed : .failed error ∈ incoming) : False :=
        underway.unfailed error (Standing.mem_of_suffix step.suffix failed)
      obtain ⟨opened, same, bytes⟩ := step.conserves
      refine ⟨_, rfl, Or.inr ⟨_, ⟨rfl, rfl, step.sound, ?_, step.keepsEof nofun, unfailed, ?_⟩, ?_⟩⟩
      · rw [← underway.conserves, same, List.flatten_append]
        change reading.delivered ++ result.bytes ++ left ++ payloads.flatten = _
        change standing.left ++ opened.flatten = result.bytes ++ left at bytes
        rw [List.append_assoc, List.append_assoc, List.append_assoc,
          ← List.append_assoc result.bytes,
          ← bytes, List.append_assoc]
      · cases result with
        | failed error => exact absurd (step.fails nofun error rfl) (underway.unfailed error)
        | pending | ready => rfl
      · exact fun some_room => step.progress some_room rfl (Or.inr (Or.inr nofun))

theorem Refused.run {reading : Reading Reader} (refused : Refused whole error reading)
    (rooms : List Nat) : Machine.run (Reading.step pollRead) reading rooms = some reading := by
  induction rooms with
  | nil => rfl
  | cons room rooms ih =>
      have stays : Reading.step pollRead reading room = some reading := by
        rw [Reading.step, refused.failure]
        rfl
      rw [Machine.run_cons_of stays]
      exact ih

/-- Whatever the reads: no panic, nothing but the payloads, and then the error. -/
theorem Underway.run (reads : Reads framing view pollRead)
    (ending : framing.Ending middle tail (some error)) {reading : Reading Reader}
    {standing : Standing Reader}
    (underway : Underway framing view middle tail whole reading standing)
    (rooms : List Nat) :
    ∃ final, Machine.run (Reading.step pollRead) reading rooms = some final ∧
      (Refused whole error final ∨
        final.failure = none ∧ final.delivered <+: whole ∧
          ((∀ room ∈ rooms, 0 < room) → rooms.length ≤ standing.work)) := by
  induction rooms generalizing reading standing with
  | nil =>
      refine ⟨reading, rfl, Or.inr ⟨underway.failure, ?_, fun _ => Nat.zero_le _⟩⟩
      exact ⟨_, (List.append_assoc ..).symm.trans underway.conserves⟩
  | cons room rooms ih =>
      obtain ⟨next, taken, after⟩ := underway.step reads ending room
      rw [Machine.run_cons_of taken]
      rcases after with refused | ⟨after, onward, less⟩
      · exact ⟨next, refused.run rooms, Or.inl refused⟩
      · obtain ⟨final, ran, settled⟩ := ih onward
        refine ⟨final, ran, settled.imp_right fun ⟨unfailed, delivered, bound⟩ => ?_⟩
        refine ⟨unfailed, delivered, fun positive => ?_⟩
        obtain ⟨here, later⟩ := List.forall_mem_cons.mp positive
        have bound := bound later
        have less := less here
        rw [List.length_cons]
        omega

/-- What a reader does with bytes that nobody vouches for: it answers every
read, and where frames are followed by what is refused it gives their payloads
and then the error. -/
structure Robust (framing : Framing Phase)
    (pollRead : Nat → Reader → List PollRead → Option (PollRead × Reader × List PollRead))
    (reader : Reader) (phase : Phase) : Prop where
  answers : ∀ incoming rooms, (readMany pollRead reader incoming rooms).isSome
  refuses : ∀ {incoming : List PollRead} {frames bad : Bytes} {payloads : List Bytes}
    {middle : Phase} {error : String}, Frames framing phase frames payloads middle →
    framing.Ending middle bad (some error) → contents incoming = frames ++ bad →
    EofLast incoming → .ready [] ∈ incoming → (∀ other, .failed other ∉ incoming) →
    ∀ rooms, ∃ final, Machine.run (Reading.step pollRead) (start reader incoming) rooms =
      some final ∧
      (Refused payloads.flatten error final ∨
        final.failure = none ∧ final.delivered <+: payloads.flatten ∧
          ((∀ room ∈ rooms, 0 < room) →
            rooms.length ≤ incoming.length + payloads.flatten.length + payloads.length))

theorem robust_of_reads (reads : Reads framing view pollRead) {reader : Reader} {phase : Phase}
    (here : view.At reader [] phase []) (empty : view.buffered reader = [])
    (opened : ¬view.Closed reader)
    (answers : ∀ incoming rooms, (readMany pollRead reader incoming rooms).isSome) :
    Robust framing pollRead reader phase where
  answers := answers
  refuses := by
    intro incoming frames bad payloads middle error ahead ending cut eofLast eof unfailed rooms
    have sound : Standing.Sound framing view [] middle bad ⟨reader, [], payloads, incoming⟩ := by
      refine ⟨⟨[], phase, frames, here, ?_, ahead⟩, eofLast, fun closed => absurd closed opened⟩
      change view.buffered reader ++ contents incoming ++ [] = frames ++ bad
      rw [empty, List.append_nil]
      exact cut
    have underway : Underway framing view middle bad payloads.flatten (start reader incoming)
        ⟨reader, [], payloads, incoming⟩ := ⟨rfl, rfl, sound, rfl, eof, unfailed, rfl⟩
    obtain ⟨final, ran, settled⟩ := underway.run reads ending rooms
    exact ⟨final, ran, settled⟩

end Reading

end Framed

end QuicProxy
