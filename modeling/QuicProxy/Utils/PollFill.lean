import QuicProxy.Data.AsyncRead
import QuicProxy.Data.Machine
import QuicProxy.Utils.ReadAhead

namespace QuicProxy

/-! `poll_fill` with its buffer and any reader (`src/utils/read_ahead.rs`). -/

namespace ReadAhead

inductive IoErrorKind where
  | unexpectedEof
  /-- Any other kind that a read fails with. -/
  | read (code : Nat)
deriving DecidableEq

structure IoError where
  kind : IoErrorKind
  text : String
deriving DecidableEq

def eofError : IoError := ⟨.unexpectedEof, "unexpected EOF in the middle of a frame"⟩

structure BytesMut where
  bytes : Bytes
  capacity : Nat
  fits : bytes.length ≤ capacity

/-- How `BytesMut::reserve` grows a buffer; it may move it and keep more than was asked
for. -/
structure Allocator where
  capacity : BytesMut → (additional : Nat) → Nat
  enough : ∀ buf additional, buf.bytes.length + additional ≤ capacity buf additional

namespace BytesMut

def reserve (alloc : Allocator) (buf : BytesMut) (additional : Nat) : BytesMut :=
  ⟨buf.bytes, alloc.capacity buf additional, Nat.le_of_add_right_le (alloc.enough buf additional)⟩

@[simp] theorem bytes_reserve (alloc : Allocator) (buf : BytesMut) (additional : Nat) :
    (buf.reserve alloc additional).bytes = buf.bytes := rfl

def spare (buf : BytesMut) : Nat := buf.capacity - buf.bytes.length

/-- `set_len`, behind what has been read into the spare capacity. -/
def setLen (buf : BytesMut) (read : { bytes : Bytes // bytes.length ≤ buf.spare }) : BytesMut :=
  ⟨buf.bytes ++ read.val, buf.capacity, by
    have := read.property
    have := buf.fits
    rw [List.length_append]
    unfold spare at *
    omega⟩

end BytesMut

def readAhead : Nat := 16 * 1024

variable {State : Type}

/-- The loop of `poll_fill`, over any reader. -/
def pollFillFrom (alloc : Allocator) (io : AsyncRead State IoError) (count : Nat)
    (allowEof : Bool) (source : Source State IoError) (buf : BytesMut) :
    Poll (Except IoError Bool) × BytesMut × Source State IoError :=
  if buf.bytes.length < count then
    let spacious := buf.reserve alloc (max readAhead (count - buf.bytes.length))
    match source.pollRead io spacious.spare with
    | (.pending, source) => (.pending, spacious, source)
    | (.ready (.error error), source) => (.ready (.error error), spacious, source)
    | (.ready (.ok read), source) =>
        if read.val.length = 0 then
          if allowEof && spacious.bytes.isEmpty then (.ready (.ok false), spacious, source)
          else (.ready (.error eofError), spacious, source)
        else pollFillFrom alloc io count allowEof source (spacious.setLen read)
  else (.ready (.ok true), buf, source)
termination_by count - buf.bytes.length
decreasing_by
  change count - (buf.bytes ++ read.val).length < count - buf.bytes.length
  rw [List.length_append]
  omega

/-! What one call has read, and how that makes it answer. -/

def IsPiece (answer : ReadAnswer IoError) : Prop :=
  ∃ bytes, bytes ≠ [] ∧ answer = .ready (.ok bytes)

/-- A call reads pieces and stops at the first answer that is none, unless there is
enough before. -/
inductive Stops (count : Nat) (allowEof : Bool) (filled : Bytes) :
    List (ReadAnswer IoError) → Poll (Except IoError Bool) → Prop
  | full {pieces : List (ReadAnswer IoError)} (all : ∀ answer ∈ pieces, IsPiece answer)
      (enough : count ≤ filled.length) : Stops count allowEof filled pieces (.ready (.ok true))
  | waits {pieces : List (ReadAnswer IoError)} (all : ∀ answer ∈ pieces, IsPiece answer) :
      Stops count allowEof filled (pieces ++ [.pending]) .pending
  | fails {pieces : List (ReadAnswer IoError)} (all : ∀ answer ∈ pieces, IsPiece answer)
      (error : IoError) :
      Stops count allowEof filled (pieces ++ [.ready (.error error)]) (.ready (.error error))
  | closes {pieces : List (ReadAnswer IoError)} (all : ∀ answer ∈ pieces, IsPiece answer)
      (allowed : allowEof = true) (empty : filled = []) :
      Stops count allowEof filled (pieces ++ [.eof]) (.ready (.ok false))
  | breaks {pieces : List (ReadAnswer IoError)} (all : ∀ answer ∈ pieces, IsPiece answer)
      (unclean : ¬(allowEof = true ∧ filled = [])) :
      Stops count allowEof filled (pieces ++ [.eof]) (.ready (.error eofError))

variable {alloc : Allocator} {io : AsyncRead State IoError} {count : Nat} {allowEof : Bool}

theorem IsPiece.ne_eof {answer : ReadAnswer IoError} (piece : IsPiece answer) :
    answer ≠ .eof := by
  obtain ⟨bytes, nonempty, rfl⟩ := piece
  intro same
  cases same
  exact nonempty rfl

theorem Stops.piece {filled bytes : Bytes} {answers : List (ReadAnswer IoError)}
    {answer : Poll (Except IoError Bool)} (nonempty : bytes ≠ [])
    (stops : Stops count allowEof filled answers answer) :
    Stops count allowEof filled (.ready (.ok bytes) :: answers) answer := by
  have more {pieces : List (ReadAnswer IoError)} (all : ∀ answer ∈ pieces, IsPiece answer) :
      ∀ answer ∈ .ready (.ok bytes) :: pieces, IsPiece answer :=
    List.forall_mem_cons.mpr ⟨⟨bytes, nonempty, rfl⟩, all⟩
  cases stops with
  | full all enough => exact .full (more all) enough
  | waits all => exact .waits (more all)
  | fails all error => exact .fails (more all) error
  | closes all allowed empty => exact .closes (more all) allowed empty
  | breaks all unclean => exact .breaks (more all) unclean

theorem stops_pollFillFrom (alloc : Allocator) (io : AsyncRead State IoError) (count : Nat)
    (allowEof : Bool) (source : Source State IoError) (buf : BytesMut) :
    ∃ answers,
      (pollFillFrom alloc io count allowEof source buf).2.2.given = source.given ++ answers ∧
        (pollFillFrom alloc io count allowEof source buf).2.1.bytes =
          buf.bytes ++ answers.flatMap ReadAnswer.bytes ∧
        Stops count allowEof (pollFillFrom alloc io count allowEof source buf).2.1.bytes answers
          (pollFillFrom alloc io count allowEof source buf).1 := by
  have none_yet : ∀ answer ∈ ([] : List (ReadAnswer IoError)), IsPiece answer :=
    List.forall_mem_nil _
  fun_induction pollFillFrom alloc io count allowEof source buf with
  | case1 source buf short spacious after polled =>
      have given := source.given_pollRead io spacious.spare
      rw [polled] at given
      exact ⟨[.pending], given, (List.append_nil _).symm, .waits none_yet⟩
  | case2 source buf short spacious error after polled =>
      have given := source.given_pollRead io spacious.spare
      rw [polled] at given
      exact ⟨[.ready (.error error)], given, (List.append_nil _).symm,
        .fails none_yet error⟩
  | case3 source buf short spacious read after polled nothing clean =>
      have given := source.given_pollRead io spacious.spare
      rw [polled, ReadAnswer.forget_of_length_eq_zero nothing] at given
      obtain ⟨allowed, clean⟩ := Bool.and_eq_true_iff.mp clean
      exact ⟨[.eof], given, (List.append_nil _).symm,
        .closes none_yet allowed (List.isEmpty_iff.mp clean)⟩
  | case4 source buf short spacious read after polled nothing unclean =>
      have given := source.given_pollRead io spacious.spare
      rw [polled, ReadAnswer.forget_of_length_eq_zero nothing] at given
      refine ⟨[.eof], given, (List.append_nil _).symm, .breaks none_yet ?_⟩
      rintro ⟨allowed, clean⟩
      exact unclean (Bool.and_eq_true_iff.mpr ⟨allowed, List.isEmpty_iff.mpr clean⟩)
  | case5 source buf short spacious read after polled some_bytes ih =>
      obtain ⟨answers, given, bytes, stops⟩ := ih
      have first := source.given_pollRead io spacious.spare
      rw [polled] at first
      refine ⟨.ready (.ok read.val) :: answers, ?_, ?_, stops.piece ?_⟩
      · rw [given, first, List.append_assoc]
        rfl
      · exact bytes.trans (List.append_assoc ..)
      · exact fun nothing => some_bytes (List.length_eq_zero_iff.mpr nothing)
  | case6 source buf enough =>
      exact ⟨[], (List.append_nil _).symm, (List.append_nil _).symm,
        .full nofun (Nat.le_of_not_lt enough)⟩

structure Filling (State : Type) where
  buf : BytesMut
  source : Source State IoError

/-- `count` and `allow_eof` of a call; a future that is dropped does not call again. -/
structure FillCall where
  count : Nat
  allowEof : Bool

namespace Filling

def poll (alloc : Allocator) (io : AsyncRead State IoError) (filling : Filling State)
    (call : FillCall) : Poll (Except IoError Bool) × Filling State :=
  match pollFillFrom alloc io call.count call.allowEof filling.source filling.buf with
  | (answer, buf, source) => (answer, ⟨buf, source⟩)

def step (alloc : Allocator) (io : AsyncRead State IoError) (filling : Filling State)
    (call : FillCall) : Option (Filling State) :=
  some (filling.poll alloc io call).2

/-- What a call answers, by what it has read and what the buffer holds then. -/
structure Answers (call : FillCall) (reads : List (ReadAnswer IoError)) (filled : Bytes)
    (answer : Poll (Except IoError Bool)) : Prop where
  pending : answer = .pending → reads.getLast? = some .pending
  enough : answer = .ready (.ok true) → call.count ≤ filled.length
  closed : answer = .ready (.ok false) →
    call.allowEof = true ∧ filled = [] ∧ reads.getLast? = some .eof
  failed : ∀ error, answer = .ready (.error error) →
    reads.getLast? = some (.ready (.error error)) ∨ error = eofError ∧ reads.getLast? = some .eof
  broken : .eof ∈ reads → ¬(call.allowEof = true ∧ filled = []) →
    answer = .ready (.error eofError)

theorem Answers.of_stops {call : FillCall} {reads : List (ReadAnswer IoError)} {filled : Bytes}
    {answer : Poll (Except IoError Bool)}
    (stops : Stops call.count call.allowEof filled reads answer) :
    Answers call reads filled answer := by
  have no_eof {pieces : List (ReadAnswer IoError)} (all : ∀ answer ∈ pieces, IsPiece answer) :
      .eof ∉ pieces := fun member => (all _ member).ne_eof rfl
  cases stops with
  | full all enough =>
      exact ⟨nofun, fun _ => enough, nofun, nofun, fun member => absurd member (no_eof all)⟩
  | waits all =>
      refine ⟨fun _ => List.getLast?_concat, nofun, nofun, nofun, fun member => ?_⟩
      rcases List.mem_append.mp member with early | last
      · exact absurd early (no_eof all)
      · cases List.mem_singleton.mp last
  | fails all error =>
      refine ⟨nofun, nofun, nofun, fun other same => ?_, fun member => ?_⟩
      · cases same
        exact Or.inl List.getLast?_concat
      · rcases List.mem_append.mp member with early | last
        · exact absurd early (no_eof all)
        · cases List.mem_singleton.mp last
  | closes all allowed empty =>
      exact ⟨nofun, nofun, fun _ => ⟨allowed, empty, List.getLast?_concat⟩, nofun,
        fun _ unclean => absurd ⟨allowed, empty⟩ unclean⟩
  | breaks all unclean =>
      refine ⟨nofun, nofun, nofun, fun error same => ?_, fun _ _ => rfl⟩
      cases same
      exact Or.inr ⟨rfl, List.getLast?_concat⟩

theorem poll_spec (alloc : Allocator) (io : AsyncRead State IoError) (filling : Filling State)
    (call : FillCall) :
    ∃ reads, (filling.poll alloc io call).2.source.given = filling.source.given ++ reads ∧
      (filling.poll alloc io call).2.buf.bytes =
        filling.buf.bytes ++ reads.flatMap ReadAnswer.bytes ∧
      Answers call reads (filling.poll alloc io call).2.buf.bytes
        (filling.poll alloc io call).1 := by
  obtain ⟨reads, given, bytes, stops⟩ :=
    stops_pollFillFrom alloc io call.count call.allowEof filling.source filling.buf
  exact ⟨reads, given, bytes, .of_stops stops⟩

/-- The buffer is what it was at first with what has been read since. -/
def Kept (buf : Bytes) (filling : Filling State) : Prop :=
  filling.buf.bytes = buf ++ filling.source.read

theorem Kept.poll {buf : Bytes} {filling : Filling State} (kept : Kept buf filling)
    (alloc : Allocator) (io : AsyncRead State IoError) (call : FillCall) :
    Kept buf (filling.poll alloc io call).2 := by
  obtain ⟨reads, given, bytes, -⟩ := filling.poll_spec alloc io call
  rw [Kept, bytes, Source.read_of_given given, kept, List.append_assoc]

theorem exists_run (alloc : Allocator) (io : AsyncRead State IoError) (filling : Filling State)
    (calls : List FillCall) : ∃ final, Machine.run (step alloc io) filling calls = some final := by
  induction calls generalizing filling with
  | nil => exact ⟨filling, rfl⟩
  | cons call calls ih => exact ih _

/-- With any reader and allocator, after any calls and in whatever they have answered: the
buffer is what it was with what has been read since, and a call that fills it answers
as it should. -/
theorem pollFill_conserves (alloc : Allocator) (io : AsyncRead State IoError) (state : State)
    (buf : BytesMut) (calls : List FillCall) :
    ∃ filling, Machine.run (step alloc io) ⟨buf, .opened state⟩ calls = some filling ∧
      filling.buf.bytes = buf.bytes ++ filling.source.read ∧
        ∀ call, ∃ reads,
          (filling.poll alloc io call).2.source.given = filling.source.given ++ reads ∧
            (filling.poll alloc io call).2.buf.bytes =
              buf.bytes ++ (filling.poll alloc io call).2.source.read ∧
            Answers call reads (filling.poll alloc io call).2.buf.bytes
              (filling.poll alloc io call).1 := by
  obtain ⟨filling, ran⟩ := exists_run alloc io ⟨buf, .opened state⟩ calls
  have start : Kept buf.bytes (⟨buf, .opened state⟩ : Filling State) := (List.append_nil _).symm
  have kept : Kept buf.bytes filling := by
    refine Machine.run_invariant (Kept buf.bytes) (fun here taken => ?_) start ran
    cases taken
    exact here.poll alloc io _
  refine ⟨filling, ran, kept, fun call => ?_⟩
  obtain ⟨reads, given, -, answers⟩ := filling.poll_spec alloc io call
  exact ⟨reads, given, kept.poll alloc io call, answers⟩

end Filling

/-! The reader of a script. -/

/-- A piece that is longer than the room is given in parts. -/
def scripted : AsyncRead (List PollRead) IoError where
  pollRead
    | [], _ => (.pending, [])
    | .pending :: reads, _ => (.pending, reads)
    | .failed text :: reads, _ => (.ready (.error ⟨.read 0, text⟩), reads)
    | .ready bytes :: reads, room =>
        if fits : bytes.length ≤ room then (.ready (.ok ⟨bytes, fits⟩), reads)
        else (.ready (.ok ⟨bytes.take room, List.length_take_le ..⟩),
          .ready (bytes.drop room) :: reads)

theorem pollRead_scripted {bytes : Bytes} {room : Nat} (fits : bytes.length ≤ room)
    (reads : List PollRead) :
    scripted.pollRead (.ready bytes :: reads) room = (.ready (.ok ⟨bytes, fits⟩), reads) :=
  dif_pos fits

theorem readAhead_le_spare (alloc : Allocator) (buf : BytesMut) (additional : Nat) :
    readAhead ≤ (buf.reserve alloc (max readAhead additional)).spare := by
  have := alloc.enough buf (max readAhead additional)
  change readAhead ≤ alloc.capacity buf (max readAhead additional) - buf.bytes.length
  omega

def answerText : Poll (Except IoError Bool) → Poll (Except String Bool)
  | .pending => .pending
  | .ready (.error error) => .ready (.error error.text)
  | .ready (.ok more) => .ready (.ok more)

/-- Where every piece fits, `pollFill` is what the loop makes of the script. -/
theorem pollFillFrom_scripted (alloc : Allocator) (count : Nat) (allowEof : Bool)
    {stream : List PollRead} (short : ∀ read ∈ stream, read.bytes.length ≤ readAhead)
    (given : List (ReadAnswer IoError)) (buf : BytesMut) :
    ∃ answer filled source,
      pollFillFrom alloc scripted count allowEof ⟨stream, given⟩ buf = (answer, filled, source) ∧
        pollFill count allowEof stream buf.bytes =
          (answerText answer, filled.bytes, source.state) := by
  induction stream generalizing given buf with
  | nil =>
      rw [pollFillFrom, pollFill]
      split
      · exact ⟨_, _, _, rfl, rfl⟩
      · exact ⟨_, _, _, rfl, rfl⟩
  | cons read stream ih =>
      obtain ⟨first, rest⟩ := List.forall_mem_cons.mp short
      rw [pollFillFrom, pollFill.eq_def]
      dsimp only
      split
      · next missing =>
          cases read with
          | pending => exact ⟨_, _, _, rfl, rfl⟩
          | failed text => exact ⟨_, _, _, rfl, rfl⟩
          | ready bytes =>
              have fits : bytes.length ≤
                  (buf.reserve alloc (max readAhead (count - buf.bytes.length))).spare :=
                Nat.le_trans first (readAhead_le_spare ..)
              simp only [Source.pollRead, pollRead_scripted fits]
              cases bytes with
              | nil =>
                  simp only [BytesMut.bytes_reserve, List.length_nil, if_true]
                  by_cases clean : (allowEof && buf.bytes.isEmpty) = true
                  · rw [if_pos clean]
                    exact ⟨_, _, _, if_pos clean, rfl⟩
                  · rw [if_neg clean]
                    exact ⟨_, _, _, if_neg clean, rfl⟩
              | cons byte bytes => exact ih rest _ _
      · exact ⟨_, _, _, rfl, rfl⟩

end ReadAhead

end QuicProxy
