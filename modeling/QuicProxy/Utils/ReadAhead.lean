import QuicProxy.Data.AsyncStream

namespace QuicProxy

/-! Buffered reads for framed protocols (`src/utils/read_ahead.rs`).  The stream
under a reader is the list of results its `poll_read` is going to give. -/

namespace ReadAhead

/-- `poll_fill`: the result, the buffer, and what the stream still gives.  A
stream whose list is used up stays pending.  `pollFillFrom_scripted` has this as
the loop of `poll_fill` over such a stream. -/
def pollFill (count : Nat) (allowEof : Bool) :
    List PollRead → Bytes → Poll (Except String Bool) × Bytes × List PollRead
  | [], buf =>
      if buf.length < count then (.pending, buf, []) else (.ready (.ok true), buf, [])
  | read :: stream, buf =>
      if buf.length < count then
        match read with
        | .pending => (.pending, buf, stream)
        | .failed error => (.ready (.error error), buf, stream)
        | .ready [] =>
            if allowEof && buf.isEmpty then (.ready (.ok false), buf, stream)
            else (.ready (.error "unexpected EOF in the middle of a frame"), buf, stream)
        | .ready bytes => pollFill count allowEof stream (buf ++ bytes)
      else (.ready (.ok true), buf, read :: stream)

/-- `fill`: polls until `poll_fill` is ready, `none` while it never is. -/
def fill (count : Nat) (allowEof : Bool) :
    List PollRead → Bytes → Option (Except String Bool × Bytes × List PollRead)
  | [], buf => if buf.length < count then none else some (.ok true, buf, [])
  | read :: stream, buf =>
      if buf.length < count then
        match read with
        | .pending => fill count allowEof stream buf
        | .failed error => some (.error error, buf, stream)
        | .ready [] =>
            if allowEof && buf.isEmpty then some (.ok false, buf, stream)
            else some (.error "unexpected EOF in the middle of a frame", buf, stream)
        | .ready bytes => fill count allowEof stream (buf ++ bytes)
      else some (.ok true, buf, read :: stream)

theorem fill_eq_pollFill (count : Nat) (allowEof : Bool) (stream : List PollRead)
    (buf : Bytes) :
    fill count allowEof stream buf =
      match pollFill count allowEof stream buf with
      | (.ready result, buf, stream) => some (result, buf, stream)
      | (.pending, buf, stream) =>
          if stream = [] ∧ buf.length < count then none
          else fill count allowEof stream buf := by
  induction stream generalizing buf with
  | nil =>
      simp only [fill, pollFill]
      split <;> simp_all
  | cons read stream ih =>
      simp only [fill, pollFill]
      split
      · match read with
        | .pending =>
            simp only
            split
            · next empty =>
                rw [empty.1]
                simp [fill, empty.2]
            · rfl
        | .failed error => rfl
        | .ready [] =>
            simp only
            split <;> rfl
        | .ready (byte :: bytes) => exact ih (buf ++ byte :: bytes)
      · rfl

/-- What `pollFill` has done: it took pieces off the stream and stopped at the
first read that is none, unless there was enough before. -/
inductive Fills (count : Nat) (allowEof : Bool) (buf : Bytes) (stream : List PollRead) :
    Poll (Except String Bool) × Bytes × List PollRead → Prop
  | full {filled : Bytes} (eaten rest : List PollRead) (cut : stream = eaten ++ rest)
      (pieces : ∀ read ∈ eaten, read.IsPiece) (grown : filled = buf ++ contents eaten)
      (enough : count ≤ filled.length) :
      Fills count allowEof buf stream (.ready (.ok true), filled, rest)
  | starves {filled : Bytes} (pieces : ∀ read ∈ stream, read.IsPiece)
      (grown : filled = buf ++ contents stream) (short : filled.length < count) :
      Fills count allowEof buf stream (.pending, filled, [])
  | waits {filled : Bytes} (eaten rest : List PollRead) (cut : stream = eaten ++ .pending :: rest)
      (pieces : ∀ read ∈ eaten, read.IsPiece) (grown : filled = buf ++ contents eaten)
      (short : filled.length < count) :
      Fills count allowEof buf stream (.pending, filled, rest)
  | fails {filled : Bytes} (error : String) (eaten rest : List PollRead)
      (cut : stream = eaten ++ .failed error :: rest) (pieces : ∀ read ∈ eaten, read.IsPiece)
      (grown : filled = buf ++ contents eaten) (short : filled.length < count) :
      Fills count allowEof buf stream (.ready (.error error), filled, rest)
  | ends {filled : Bytes} (eaten rest : List PollRead) (cut : stream = eaten ++ .ready [] :: rest)
      (pieces : ∀ read ∈ eaten, read.IsPiece) (grown : filled = buf ++ contents eaten)
      (short : filled.length < count) (clean : (allowEof && filled.isEmpty) = true) :
      Fills count allowEof buf stream (.ready (.ok false), filled, rest)
  | breaks {filled : Bytes} (eaten rest : List PollRead)
      (cut : stream = eaten ++ .ready [] :: rest) (pieces : ∀ read ∈ eaten, read.IsPiece)
      (grown : filled = buf ++ contents eaten) (short : filled.length < count)
      (unclean : (allowEof && filled.isEmpty) = false) :
      Fills count allowEof buf stream
        (.ready (.error "unexpected EOF in the middle of a frame"), filled, rest)

theorem Fills.piece {count : Nat} {allowEof : Bool} {buf bytes : Bytes} {stream : List PollRead}
    {after : Poll (Except String Bool) × Bytes × List PollRead} (nonempty : bytes ≠ [])
    (fills : Fills count allowEof (buf ++ bytes) stream after) :
    Fills count allowEof buf (.ready bytes :: stream) after := by
  have joined {filled : Bytes} {eaten : List PollRead}
      (grown : filled = buf ++ bytes ++ contents eaten) :
      filled = buf ++ contents (.ready bytes :: eaten) :=
    grown.trans (List.append_assoc ..)
  have all {eaten : List PollRead} (pieces : ∀ read ∈ eaten, read.IsPiece) :
      ∀ read ∈ .ready bytes :: eaten, read.IsPiece :=
    List.forall_mem_cons.mpr ⟨nonempty, pieces⟩
  cases fills with
  | full eaten rest cut pieces grown enough =>
      exact .full _ rest (congrArg _ cut) (all pieces) (joined grown) enough
  | starves pieces grown short => exact .starves (all pieces) (joined grown) short
  | waits eaten rest cut pieces grown short =>
      exact .waits _ rest (congrArg _ cut) (all pieces) (joined grown) short
  | fails error eaten rest cut pieces grown short =>
      exact .fails error _ rest (congrArg _ cut) (all pieces) (joined grown) short
  | ends eaten rest cut pieces grown short clean =>
      exact .ends _ rest (congrArg _ cut) (all pieces) (joined grown) short clean
  | breaks eaten rest cut pieces grown short unclean =>
      exact .breaks _ rest (congrArg _ cut) (all pieces) (joined grown) short unclean

theorem Fills.conserves {count : Nat} {allowEof : Bool} {buf : Bytes} {stream : List PollRead}
    {after : Poll (Except String Bool) × Bytes × List PollRead}
    (fills : Fills count allowEof buf stream after) :
    after.2.1 ++ contents after.2.2 = buf ++ contents stream := by
  cases fills with
  | full eaten rest cut pieces grown enough =>
      rw [cut, contents_append, ← List.append_assoc, ← grown]
  | starves pieces grown short => exact (List.append_nil _).trans grown
  | waits eaten rest cut pieces grown short | fails error eaten rest cut pieces grown short
  | ends eaten rest cut pieces grown short | breaks eaten rest cut pieces grown short =>
      rw [cut, contents_append, ← List.append_assoc, ← grown]
      rfl

theorem Fills.suffix {count : Nat} {allowEof : Bool} {buf : Bytes} {stream : List PollRead}
    {after : Poll (Except String Bool) × Bytes × List PollRead}
    (fills : Fills count allowEof buf stream after) : after.2.2 <:+ stream := by
  cases fills with
  | full eaten rest cut => exact ⟨eaten, cut.symm⟩
  | starves => exact List.nil_suffix
  | waits eaten rest cut | fails error eaten rest cut | ends eaten rest cut
  | breaks eaten rest cut => exact ⟨eaten ++ [_], by rw [cut, List.append_assoc]; rfl⟩

theorem fills_pollFill (count : Nat) (allowEof : Bool) (stream : List PollRead) (buf : Bytes) :
    Fills count allowEof buf stream (pollFill count allowEof stream buf) := by
  induction stream generalizing buf with
  | nil =>
      rw [pollFill]
      split
      · next short => exact .starves nofun (List.append_nil _).symm short
      · next enough =>
          exact .full [] [] rfl nofun (List.append_nil _).symm (Nat.le_of_not_lt enough)
  | cons read stream ih =>
      have same : buf = buf ++ contents [] := (List.append_nil buf).symm
      rw [pollFill.eq_def]
      dsimp only
      split
      · next short =>
          match read with
          | .pending => exact .waits [] stream rfl nofun same short
          | .failed error => exact .fails error [] stream rfl nofun same short
          | .ready (byte :: bytes) => exact (ih _).piece (List.cons_ne_nil byte bytes)
          | .ready [] =>
              dsimp only
              split
              · next clean => exact .ends [] stream rfl nofun same short clean
              · next unclean =>
                  exact .breaks [] stream rfl nofun same short (Bool.not_eq_true _ ▸ unclean)
      · next enough =>
          exact .full [] (read :: stream) rfl nofun same (Nat.le_of_not_lt enough)

theorem length_lt_of_pollFill {count : Nat} {allowEof more : Bool} {stream rest : List PollRead}
    {buf filled : Bytes} (short : buf.length < count)
    (full : pollFill count allowEof stream buf = (.ready (.ok more), filled, rest)) :
    rest.length < stream.length := by
  have fills := fills_pollFill count allowEof stream buf
  rw [full] at fills
  cases fills with
  | full eaten rest cut pieces grown enough =>
      have some_read : eaten ≠ [] := by
        rintro rfl
        rw [grown, contents_nil, List.append_nil] at enough
        omega
      have positive := List.length_pos_iff.mpr some_read
      rw [cut, List.length_append]
      omega
  | ends eaten rest cut =>
      rw [cut, List.length_append, List.length_cons]
      omega

/-- The stream gives exactly `bytes`, cut in any way and with any number of
pending polls between the pieces, and then ends. -/
inductive Feeds : List PollRead → Bytes → Prop
  | eof (stream : List PollRead) : Feeds (.ready [] :: stream) []
  | pending {stream : List PollRead} {bytes : Bytes} (rest : Feeds stream bytes) :
      Feeds (.pending :: stream) bytes
  | ready {stream : List PollRead} {bytes : Bytes} (piece : Bytes)
      (nonempty : piece ≠ []) (rest : Feeds stream bytes) :
      Feeds (.ready piece :: stream) (piece ++ bytes)

theorem exists_feeds (bytes : Bytes) : ∃ stream, Feeds stream bytes := by
  cases bytes with
  | nil => exact ⟨[.ready []], .eof []⟩
  | cons byte rest =>
      refine ⟨[.ready (byte :: rest), .ready []], ?_⟩
      simpa using Feeds.ready (byte :: rest) (by simp) (.eof [])

/-- One poll of `fill` on a stream that still gives `bytes` and then ends. -/
inductive FillsFrom (count : Nat) (buf bytes : Bytes) (limit : Nat) :
    Poll (Except String Bool) × Bytes × List PollRead → Prop
  | waits {more left : Bytes} {stream : List PollRead} (feeds : Feeds stream left)
      (same : more ++ left = bytes) (short : (buf ++ more).length < count)
      (less : stream.length < limit) :
      FillsFrom count buf bytes limit (.pending, buf ++ more, stream)
  | full {more left : Bytes} {stream : List PollRead} (feeds : Feeds stream left)
      (same : more ++ left = bytes) (enough : count ≤ (buf ++ more).length)
      (no_more : stream.length ≤ limit) :
      FillsFrom count buf bytes limit (.ready (.ok true), buf ++ more, stream)
  | ends {error : String} {stream : List PollRead} (short : (buf ++ bytes).length < count) :
      FillsFrom count buf bytes limit (.ready (.error error), buf ++ bytes, stream)

theorem FillsFrom.piece {count : Nat} {buf bytes piece : Bytes} {limit : Nat}
    {after : Poll (Except String Bool) × Bytes × List PollRead}
    (fills : FillsFrom count (buf ++ piece) bytes limit after) :
    FillsFrom count buf (piece ++ bytes) (limit + 1) after := by
  cases fills with
  | waits feeds same short less =>
      rw [List.append_assoc] at short ⊢
      exact .waits feeds (by rw [List.append_assoc, same]) short (Nat.lt_succ_of_lt less)
  | full feeds same enough no_more =>
      rw [List.append_assoc] at enough ⊢
      exact .full feeds (by rw [List.append_assoc, same]) enough (Nat.le_succ_of_le no_more)
  | ends short =>
      rw [List.append_assoc] at short ⊢
      exact .ends short

theorem fillsFrom_of_le {count : Nat} {buf bytes : Bytes} {stream : List PollRead}
    (feeds : Feeds stream bytes) (enough : count ≤ buf.length) :
    FillsFrom count buf bytes stream.length (.ready (.ok true), buf, stream) := by
  have full : FillsFrom count buf ([] ++ bytes) stream.length
      (.ready (.ok true), buf ++ [], stream) :=
    .full feeds rfl (by rwa [List.append_nil]) (Nat.le_refl _)
  rwa [List.append_nil] at full

theorem fillsFrom_pollFill {stream : List PollRead} {bytes : Bytes} (feeds : Feeds stream bytes)
    (count : Nat) (buf : Bytes) :
    FillsFrom count buf bytes stream.length (pollFill count false stream buf) := by
  induction feeds generalizing buf with
  | eof stream =>
      rw [pollFill]
      split
      · next short =>
          have ends : FillsFrom count buf [] (stream.length + 1)
              (.ready (.error "unexpected EOF in the middle of a frame"), buf ++ [], stream) :=
            .ends (by rwa [List.append_nil])
          rwa [List.append_nil] at ends
      · next enough => exact fillsFrom_of_le (.eof stream) (Nat.le_of_not_lt enough)
  | @pending stream bytes rest ih =>
      rw [pollFill]
      split
      · next short =>
          have waits : FillsFrom count buf ([] ++ bytes) (stream.length + 1)
              (.pending, buf ++ [], stream) :=
            .waits rest rfl (by rwa [List.append_nil]) (Nat.lt_succ_self _)
          rwa [List.append_nil] at waits
      · next enough => exact fillsFrom_of_le (.pending rest) (Nat.le_of_not_lt enough)
  | ready piece nonempty rest ih =>
      obtain ⟨byte, piece, rfl⟩ := List.exists_cons_of_ne_nil nonempty
      rw [pollFill.eq_def]
      dsimp only
      split
      · exact (ih (buf ++ byte :: piece)).piece
      · next enough =>
          exact fillsFrom_of_le (.ready _ nonempty rest) (Nat.le_of_not_lt enough)

theorem fillsFrom_fill {stream : List PollRead} {bytes : Bytes} (feeds : Feeds stream bytes)
    (count : Nat) (buf : Bytes) {limit : Nat} (bound : stream.length ≤ limit) :
    ∃ result filled rest, fill count false stream buf = some (result, filled, rest) ∧
      FillsFrom count buf bytes limit (.ready result, filled, rest) := by
  induction limit generalizing stream bytes buf with
  | zero =>
      rw [List.length_eq_zero_iff.mp (Nat.le_zero.mp bound)] at feeds
      cases feeds
  | succ limit ih =>
      have polled := fill_eq_pollFill count false stream buf
      have fills := fillsFrom_pollFill feeds count buf
      generalize pollFill count false stream buf = after at polled fills
      cases fills with
      | @waits more left stream' feeds' same short less =>
          have unfinished : ¬(stream' = [] ∧ (buf ++ more).length < count) := by
            rintro ⟨rfl, -⟩
            cases feeds'
          obtain ⟨result, filled, rest, last, fills⟩ :=
            ih feeds' (buf ++ more) (Nat.le_of_lt_succ (Nat.lt_of_lt_of_le less bound))
          dsimp only at polled
          rw [if_neg unfinished, last] at polled
          exact ⟨result, filled, rest, polled, same ▸ fills.piece⟩
      | full feeds' same enough no_more =>
          exact ⟨_, _, _, polled, .full feeds' same enough (Nat.le_trans no_more bound)⟩
      | ends short => exact ⟨_, _, _, polled, .ends short⟩

/-- Whatever the cut, `fill` gets to `count` bytes when there are that many,
and buffered and remaining bytes stay the same byte string. -/
theorem fill_of_feeds {stream : List PollRead} {bytes : Bytes}
    (feeds : Feeds stream bytes) (count : Nat) (buf : Bytes)
    (enough : count ≤ buf.length + bytes.length) :
    ∃ buf' bytes' stream',
      fill count false stream buf = some (.ok true, buf', stream') ∧
        count ≤ buf'.length ∧ buf' ++ bytes' = buf ++ bytes ∧
          Feeds stream' bytes' := by
  obtain ⟨_, _, _, filled, fills⟩ := fillsFrom_fill feeds count buf (Nat.le_refl _)
  cases fills with
  | full feeds' same long =>
      exact ⟨_, _, _, filled, long, by rw [List.append_assoc, same], feeds'⟩
  | ends short =>
      rw [List.length_append] at short
      omega

theorem fill_of_feeds_short {stream : List PollRead} {bytes : Bytes}
    (feeds : Feeds stream bytes) (count : Nat) (buf : Bytes)
    (short : buf.length + bytes.length < count) :
    ∃ error stream', fill count false stream buf = some (.error error, buf ++ bytes, stream') := by
  obtain ⟨_, _, _, filled, fills⟩ := fillsFrom_fill feeds count buf (Nat.le_refl _)
  cases fills with
  | full feeds' same long =>
      have total := congrArg List.length same
      rw [List.length_append] at total long
      omega
  | ends => exact ⟨_, _, filled⟩

theorem feeds_of_fill {stream stream' : List PollRead} {bytes : Bytes}
    (feeds : Feeds stream bytes) {count : Nat} {buf buf' : Bytes} {more : Bool}
    (filled : fill count false stream buf = some (.ok more, buf', stream')) :
    ∃ bytes', Feeds stream' bytes' ∧ count ≤ buf'.length ∧
      buf' ++ bytes' = buf ++ bytes := by
  obtain ⟨_, _, _, filled', fills⟩ := fillsFrom_fill feeds count buf (Nat.le_refl _)
  cases filled.symm.trans filled'
  cases fills with
  | full feeds' same long => exact ⟨_, feeds', long, by rw [List.append_assoc, same]⟩

theorem eq_append_of_fill_error {stream stream' : List PollRead} {bytes : Bytes}
    (feeds : Feeds stream bytes) {count : Nat} {buf buf' : Bytes} {error : String}
    (failed : fill count false stream buf = some (.error error, buf', stream')) :
    buf' = buf ++ bytes := by
  obtain ⟨_, _, _, filled, fills⟩ := fillsFrom_fill feeds count buf (Nat.le_refl _)
  cases failed.symm.trans filled
  cases fills with
  | ends => rfl

end ReadAhead

end QuicProxy
