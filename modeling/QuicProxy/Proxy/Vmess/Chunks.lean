import QuicProxy.Data.Link
import QuicProxy.Proxy.Vmess.Stream

namespace QuicProxy

namespace Framed

/-! Reads of frames through a buffer that is filled ahead. -/

variable {Phase Reader : Type} {framing : Framing Phase} {view : ReaderView Phase Reader}

def answerOf : Poll (Except String Bool) → PollRead
  | .pending => .pending
  | .ready (.error error) => .failed error
  | .ready (.ok _) => .ready []

def unexpectedEof : String := "unexpected EOF in the middle of a frame"

/-- A fill that has not got enough: where all has arrived there would be enough,
unless the stream ends inside a frame. -/
theorem outcome_of_stall {room count : Nat} {more tail : Bytes} {middle : Phase}
    {refusal : Option String} {before : Standing Reader} {allowEof : Bool}
    {poll : Poll (Except String Bool)} {filled : Bytes} {rest : List PollRead} {after : Reader}
    (sound : before.Sound framing view more middle tail) (served : before.left = [])
    (eof : refusal ≠ none → more = [] ∧ .ready [] ∈ before.incoming)
    (stuck : more = [] → before.Busy refusal →
      count ≤ (view.buffered before.reader ++ contents before.incoming).length ∨
        refusal = some unexpectedEof ∧ before.payloads = [])
    (fills : ReadAhead.Fills count allowEof (view.buffered before.reader) before.incoming
      (poll, filled, rest))
    (stalled : ∀ more, poll ≠ .ready (.ok more))
    (same : ∀ begun phase, view.At before.reader begun phase [] → view.At after begun phase [])
    (buffered : view.buffered after = filled) (opened : ¬view.Closed after) :
    before.Outcome framing view room more middle tail refusal
      (some (answerOf poll, after, rest)) := by
  obtain ⟨begun, phase, frames, here, cut, ahead⟩ := sound.ahead
  rw [served] at here
  have conserves : filled ++ contents rest =
      view.buffered before.reader ++ contents before.incoming := fills.conserves
  have suffix : rest <:+ before.incoming := fills.suffix
  have onward : Standing.Sound framing view more middle tail
      ⟨after, before.left, before.payloads, rest⟩ := by
    refine ⟨⟨begun, phase, frames, ?_, ?_, ahead⟩, sound.eofLast.suffix suffix,
      fun closed => absurd closed opened⟩
    · change view.At after begun phase before.left
      rw [served]
      exact same begun phase here
    · change begun ++ (view.buffered after ++ contents rest ++ more) = frames ++ tail
      rw [buffered, conserves]
      exact cut
  have silent : (answerOf poll).bytes = [] := by
    match poll with
    | .pending => rfl
    | .ready (.error error) => rfl
    | .ready (.ok more) => rfl
  have advance (because : answerOf poll = .pending ∨ view.Closed before.reader ∨
        ∃ read ∈ before.incoming, read.stops = true)
      (fewer : more = [] → before.Busy refusal → rest.length < before.incoming.length)
      (fails : refusal ≠ none → ∀ error, answerOf poll = .failed error →
        .failed error ∈ before.incoming)
      (keepsEof : refusal ≠ none → .ready [] ∈ rest) :
      before.Outcome framing view room more middle tail refusal
        (some (answerOf poll, after, rest)) := by
    refine .advance before.left before.payloads ⟨onward, ⟨[], rfl, .nothing silent because⟩, suffix,
      fun closed => absurd closed opened, fun _ whole busy => ?_, fails, keepsEof⟩
    · have fewer := fewer whole busy
      unfold Standing.work
      dsimp only
      omega
  have pieceless {eaten : List PollRead} (pieces : ∀ read ∈ eaten, read.IsPiece) :
      .ready [] ∉ eaten := fun member => pieces _ member rfl
  have shorter {read : PollRead} {eaten : List PollRead}
      (cut : before.incoming = eaten ++ read :: rest) : rest.length < before.incoming.length := by
    rw [cut, List.length_append, List.length_cons]
    omega
  have stopped {read : PollRead} {eaten : List PollRead}
      (cut : before.incoming = eaten ++ read :: rest) (stops : read.stops = true) :
      answerOf poll = .pending ∨ view.Closed before.reader ∨
        ∃ read ∈ before.incoming, read.stops = true :=
    Or.inr (Or.inr ⟨read, by rw [cut]; exact List.mem_append_cons_self, stops⟩)
  have later {read : PollRead} {eaten : List PollRead}
      (cut : before.incoming = eaten ++ read :: rest) (other : read ≠ .ready [])
      (pieces : ∀ read ∈ eaten, read.IsPiece) (refused : refusal ≠ none) : .ready [] ∈ rest := by
    have member := (eof refused).2
    rw [cut, List.mem_append, List.mem_cons] at member
    rcases member with early | same | late
    · exact absurd early (pieceless pieces)
    · exact absurd same.symm other
    · exact late
  cases fills with
  | full | ends => exact absurd rfl (stalled _)
  | starves pieces grown short =>
      refine advance (Or.inl rfl) (fun whole busy => ?_) (fun _ _ => nofun) fun refused =>
        absurd (eof refused).2 (pieceless pieces)
      rcases stuck whole busy with enough | ⟨refused, -⟩
      · rw [← grown] at enough
        omega
      · exact absurd (eof (by rw [refused]; nofun)).2 (pieceless pieces)
  | waits eaten rest cut pieces grown short =>
      exact advance (Or.inl rfl) (fun _ _ => shorter cut) (fun _ _ => nofun)
        (later cut nofun pieces)
  | fails error eaten rest cut pieces grown short =>
      refine advance (stopped cut rfl) (fun _ _ => shorter cut) (fun _ other failed => ?_)
        (later cut nofun pieces)
      cases failed
      rw [cut]
      exact List.mem_append_cons_self
  | breaks eaten rest cut pieces grown short unclean =>
      by_cases refused : refusal = none
      · exact advance (stopped cut rfl) (fun _ _ => shorter cut) (absurd refused) (absurd refused)
      · obtain ⟨whole, -⟩ := eof refused
        rcases stuck whole (Or.inr (Or.inr refused)) with enough | ⟨broken, payloads⟩
        · rw [← conserves, sound.eofLast eaten rest cut, List.append_nil] at enough
          omega
        · refine .refuse after rest broken served ?_
          rw [payloads]
          rfl

end Framed

/-! What the bytes of a VMess stream are made of. -/

namespace Vmess

inductive Phase where
  | greeting (cipher : Option AeadCipher)
  | chunks (cipher : Option AeadCipher)

def Phase.cipher : Phase → Option AeadCipher
  | .greeting cipher | .chunks cipher => cipher

def sizeBytes (size : Nat) : Bytes := u16ToBe (castU16 size)

theorem sizeBytes_append_inj {first second : Nat} {left right : Bytes} (small : first < 65536)
    (small' : second < 65536) (same : sizeBytes first ++ left = sizeBytes second ++ right) :
    first = second ∧ left = right := by
  obtain ⟨word, rest⟩ := List.append_inj same rfl
  refine ⟨?_, rest⟩
  obtain ⟨high, low, first_bytes, first_value⟩ := u16ToBe_eq (castU16 first)
  obtain ⟨high', low', second_bytes, second_value⟩ := u16ToBe_eq (castU16 second)
  rw [sizeBytes, sizeBytes, first_bytes, second_bytes] at word
  cases word
  have values := congrArg UInt16.toNat (first_value.symm.trans second_value)
  rw [toNat_castU16, toNat_castU16, Nat.mod_eq_of_lt small, Nat.mod_eq_of_lt small'] at values
  exact values

theorem sizeBytes_u16FromBe (high low : UInt8) :
    sizeBytes (u16FromBe high low).toNat = [high, low] := by
  have value : castU16 (u16FromBe high low).toNat = u16FromBe high low := UInt16.ofNat_toNat
  rw [sizeBytes, value, u16ToBe_u16FromBe]

section Framing

variable (crypto : Crypto) (texts : ChunkTexts) (Greeting : Bytes → Prop)

inductive Frame : Phase → Bytes → Bytes → Phase → Prop
  | chunk {cipher : Option AeadCipher} {body payload : Bytes} (small : body.length ≤ maxChunkSize)
      (opens : ChunkReader.opened crypto texts cipher body = .ok payload) :
      Frame (.chunks cipher) (sizeBytes body.length ++ body) payload
        (.chunks (cipher.map AeadCipher.bump))

inductive Silent : Phase → Bytes → Phase → Prop
  | greeting {head : Bytes} (cipher : Option AeadCipher) (greets : Greeting head) :
      Silent (.greeting cipher) head (.chunks cipher)

/-- Less than a chunk. -/
inductive Short : Bytes → Prop
  | length {tail : Bytes} (short : tail.length < 2) : Short tail
  | data {size : Nat} {body : Bytes} (small : size ≤ maxChunkSize) (short : body.length < size) :
      Short (sizeBytes size ++ body)

/-- A stream ends between two chunks, or is refused: truncated, with a length
that is too large, or with a chunk that does not open. -/
inductive Ending : Phase → Bytes → Option String → Prop
  | short {cipher : Option AeadCipher} {tail : Bytes} (short : Short tail) :
      Ending (.chunks cipher) tail none
  | truncated {cipher : Option AeadCipher} {tail : Bytes} (short : Short tail) (begun : tail ≠ []) :
      Ending (.chunks cipher) tail (some Framed.unexpectedEof)
  | tooLarge {cipher : Option AeadCipher} {size : Nat} {rest : Bytes} (large : maxChunkSize < size)
      (word : size < 65536) : Ending (.chunks cipher) (sizeBytes size ++ rest) (some texts.tooLarge)
  | malformed {cipher : Option AeadCipher} {body rest : Bytes} {error : String}
      (small : body.length ≤ maxChunkSize)
      (refused : ChunkReader.opened crypto texts cipher body = .error error) :
      Ending (.chunks cipher) (sizeBytes body.length ++ body ++ rest) (some error)

variable {Greeting} in
def framing (spoken : ¬Greeting []) : Framed.Framing Phase where
  Frame := Frame crypto texts
  Silent := Silent Greeting
  Ending := Ending crypto texts
  nonempty := by
    intro phase payload next frame
    generalize same : ([] : Bytes) = bytes at frame
    cases frame with
    | chunk small opens => cases same
  unspoken := by
    intro phase next silent
    generalize same : ([] : Bytes) = bytes at silent
    cases silent with
    | greeting cipher greets => exact spoken (same ▸ greets)
  unrefused := by
    intro phase error ending
    generalize same : ([] : Bytes) = bytes at ending
    cases ending with
    | truncated short begun => exact begun same.symm
    | tooLarge | malformed => cases same

theorem ending_malformed {cipher : Option AeadCipher} {size : Nat} {body : Bytes} {error : String}
    (small : size ≤ maxChunkSize) (enough : size ≤ body.length)
    (refused : ChunkReader.opened crypto texts cipher (body.take size) = .error error) :
    Ending crypto texts (.chunks cipher) (sizeBytes size ++ body) (some error) := by
  have length : (body.take size).length = size := List.length_take_of_le enough
  have small' : (body.take size).length ≤ maxChunkSize := by rw [length]; exact small
  have ending : Ending crypto texts (.chunks cipher)
      (sizeBytes (body.take size).length ++ body.take size ++ body.drop size) (some error) :=
    .malformed small' refused
  rwa [length, List.append_assoc, List.take_append_drop] at ending

theorem decided {Greeting : Bytes → Prop} (spoken : ¬Greeting []) (cipher : Option AeadCipher) :
    Framed.Decided (framing crypto texts spoken) (.chunks cipher) := by
  intro bytes
  induction size : bytes.length using Nat.strongRecOn generalizing bytes cipher with
  | ind length ih =>
      have refused {error : String}
          (ending : Ending crypto texts (.chunks cipher) bytes (some error)) :
          ∃ frames payloads middle bad, bytes = frames ++ bad ∧
            Framed.Frames (framing crypto texts spoken) (.chunks cipher) frames payloads middle ∧
              (bad = [] ∨ ∃ error, (framing crypto texts spoken).Ending middle bad (some error)) :=
        ⟨[], [], _, bytes, rfl, .nil _, Or.inr ⟨error, ending⟩⟩
      match bytes, size with
      | [], _ => exact ⟨[], [], _, [], rfl, .nil _, Or.inl rfl⟩
      | [byte], _ =>
          exact refused (.truncated (.length (Nat.lt_succ_self 1)) (List.cons_ne_nil _ _))
      | high :: low :: body, size =>
          have word := sizeBytes_u16FromBe high low
          have bound : (u16FromBe high low).toNat < 65536 := UInt16.toNat_lt _
          generalize (u16FromBe high low).toNat = len at word bound
          have cut : high :: low :: body = sizeBytes len ++ body := by
            rw [word]
            rfl
          rw [cut] at refused ⊢
          rcases Nat.lt_or_ge maxChunkSize len with large | small
          · exact refused (.tooLarge large bound)
          rcases Nat.lt_or_ge body.length len with short | enough
          · exact refused (.truncated (.data small short) (List.cons_ne_nil _ _))
          cases plain : ChunkReader.opened crypto texts cipher (body.take len) with
          | error error => exact refused (ending_malformed crypto texts small enough plain)
          | ok payload =>
              have shorter : (body.drop len).length < length := by
                rw [List.length_drop, ← size, List.length_cons, List.length_cons]
                omega
              obtain ⟨frames, payloads, middle, bad, same, ahead, ending⟩ :=
                ih _ shorter (cipher.map AeadCipher.bump) (body.drop len) rfl
              have taken : (body.take len).length = len := List.length_take_of_le enough
              have small' : (body.take len).length ≤ maxChunkSize := by rw [taken]; exact small
              have first : Frame crypto texts (.chunks cipher)
                  (sizeBytes (body.take len).length ++ body.take len) payload
                  (.chunks (cipher.map AeadCipher.bump)) := .chunk small' plain
              refine ⟨_, _, middle, bad, ?_, .cons first ahead, ending⟩
              rw [taken, List.append_assoc, List.append_assoc, ← same, List.take_append_drop]

end Framing

section Next

variable {crypto : Crypto} {texts : ChunkTexts} {Greeting : Bytes → Prop} {spoken : ¬Greeting []}

/-- What a reader between two chunks is going to find. -/
inductive Next (spoken : ¬Greeting []) (crypto : Crypto) (texts : ChunkTexts)
    (cipher : Option AeadCipher) (stream : Bytes) (payloads : List Bytes) (middle : Phase)
    (tail : Bytes) (refusal : Option String) : Prop
  | frame {body payload rest frames : Bytes} {later : List Bytes}
      (small : body.length ≤ maxChunkSize)
      (opens : ChunkReader.opened crypto texts cipher body = .ok payload)
      (same : stream = sizeBytes body.length ++ (body ++ rest)) (cut : rest = frames ++ tail)
      (ahead : Framed.Frames (framing crypto texts spoken) (.chunks (cipher.map AeadCipher.bump))
        frames later middle)
      (first : payloads = payload :: later)
  | short (nothing : payloads = []) (short : Short stream)
      (truncated : refusal ≠ none → refusal = some Framed.unexpectedEof ∧ stream ≠ [])
  | tooLarge {size : Nat} {rest : Bytes} (nothing : payloads = [])
      (same : stream = sizeBytes size ++ rest) (large : maxChunkSize < size) (word : size < 65536)
      (refused : refusal = some texts.tooLarge)
  | malformed {body rest : Bytes} {error : String} (nothing : payloads = [])
      (same : stream = sizeBytes body.length ++ (body ++ rest))
      (small : body.length ≤ maxChunkSize)
      (fails : ChunkReader.opened crypto texts cipher body = .error error)
      (refused : refusal = some error)

theorem next_of_ahead {cipher : Option AeadCipher} {stream frames tail : Bytes}
    {payloads : List Bytes} {middle : Phase} {refusal : Option String}
    (cut : stream = frames ++ tail)
    (ahead : Framed.Frames (framing crypto texts spoken) (.chunks cipher) frames payloads middle)
    (ending : Ending crypto texts middle tail refusal) :
    Next spoken crypto texts cipher stream payloads middle tail refusal := by
  subst cut
  cases ahead with
  | cons first rest =>
      change Frame crypto texts _ _ _ _ at first
      cases first with
      | chunk small opens =>
          exact .frame small opens (by rw [List.append_assoc, List.append_assoc]) rfl rest rfl
  | skip first rest =>
      change Silent Greeting _ _ _ at first
      cases first
  | nil phase =>
      rw [List.nil_append]
      cases ending with
      | short short => exact .short rfl short fun refused => absurd rfl refused
      | truncated short begun => exact .short rfl short fun _ => ⟨rfl, begun⟩
      | tooLarge large word => exact .tooLarge rfl rfl large word rfl
      | malformed small fails => exact .malformed rfl (List.append_assoc ..) small fails rfl

/-- What a reader that knows the size of a chunk finds once so many bytes are
there. -/
inductive Found (spoken : ¬Greeting []) (crypto : Crypto) (texts : ChunkTexts)
    (cipher : Option AeadCipher) (body rest : Bytes) (payloads : List Bytes) (middle : Phase)
    (tail : Bytes) (refusal : Option String) : Prop
  | frame (payload : Bytes) (later : List Bytes) (frames : Bytes)
      (opens : ChunkReader.opened crypto texts cipher body = .ok payload)
      (first : payloads = payload :: later) (cut : rest = frames ++ tail)
      (ahead : Framed.Frames (framing crypto texts spoken) (.chunks (cipher.map AeadCipher.bump))
        frames later middle)
  | refused (error : String) (fails : ChunkReader.opened crypto texts cipher body = .error error)
      (nothing : payloads = []) (refused : refusal = some error)

variable {cipher : Option AeadCipher} {stream tail : Bytes} {payloads : List Bytes}
  {middle : Phase} {refusal : Option String} {size : Nat}

theorem sizeBytes_inj_of_le {other : Nat} {left right : Bytes} (small : size ≤ maxChunkSize)
    (small' : other ≤ maxChunkSize) (same : sizeBytes size ++ left = sizeBytes other ++ right) :
    size = other ∧ left = right := by
  have word : maxChunkSize < 65536 := by decide
  exact sizeBytes_append_inj (by omega) (by omega) same

theorem Next.stuck
    (next : Next spoken crypto texts cipher (sizeBytes size ++ stream) payloads middle tail refusal)
    (small : size ≤ maxChunkSize) (busy : payloads ≠ [] ∨ refusal ≠ none) :
    size ≤ stream.length ∨ refusal = some Framed.unexpectedEof ∧ payloads = [] := by
  cases next with
  | frame small' opens same | malformed nothing same small' =>
      obtain ⟨rfl, rfl⟩ := sizeBytes_inj_of_le small small' same
      exact Or.inl (by rw [List.length_append]; omega)
  | short nothing short truncated =>
      rcases busy with some_ahead | refused
      · exact absurd nothing some_ahead
      · exact Or.inr ⟨(truncated refused).1, nothing⟩
  | tooLarge nothing same large word =>
      have := small.trans_lt large
      obtain ⟨rfl, -⟩ := sizeBytes_append_inj (by omega) word same
      omega

theorem Next.two (next : Next spoken crypto texts cipher stream payloads middle tail refusal)
    (busy : payloads ≠ [] ∨ refusal ≠ none) :
    2 ≤ stream.length ∨ refusal = some Framed.unexpectedEof ∧ payloads = [] := by
  cases next with
  | frame small opens same | tooLarge nothing same | malformed nothing same =>
      left
      rw [same, List.length_append]
      exact Nat.le_add_right 2 _
  | short nothing short truncated =>
      rcases busy with some_ahead | refused
      · exact absurd nothing some_ahead
      · exact Or.inr ⟨(truncated refused).1, nothing⟩

theorem Next.idle (next : Next spoken crypto texts cipher [] payloads middle tail refusal) :
    payloads = [] ∧ refusal = none := by
  cases next with
  | frame small opens same | tooLarge nothing same | malformed nothing same => cases same
  | short nothing short truncated =>
      refine ⟨nothing, ?_⟩
      by_contra refused
      exact (truncated refused).2 rfl

theorem Next.large
    (next : Next spoken crypto texts cipher (sizeBytes size ++ stream) payloads middle tail refusal)
    (large : maxChunkSize < size) (word : size < 65536) :
    payloads = [] ∧ refusal = some texts.tooLarge := by
  have fits : maxChunkSize < 65536 := by decide
  cases next with
  | frame small opens same | malformed nothing same small =>
      obtain ⟨rfl, -⟩ := sizeBytes_append_inj word (by omega) same
      omega
  | short nothing short truncated =>
      generalize same : sizeBytes size ++ stream = whole at short
      cases short with
      | length short =>
          have two : (sizeBytes size).length = 2 := rfl
          rw [← same, List.length_append] at short
          omega
      | data small short =>
          obtain ⟨rfl, -⟩ := sizeBytes_append_inj word (by omega) same
          omega
  | tooLarge nothing same large word' refused => exact ⟨nothing, refused⟩

theorem Next.data
    (next : Next spoken crypto texts cipher (sizeBytes size ++ stream) payloads middle tail refusal)
    (small : size ≤ maxChunkSize) (enough : size ≤ stream.length) :
    ∃ body rest, stream = body ++ rest ∧ body.length = size ∧
      Found spoken crypto texts cipher body rest payloads middle tail refusal := by
  cases next with
  | frame small' opens same cut ahead first =>
      obtain ⟨rfl, rfl⟩ := sizeBytes_inj_of_le small small' same
      exact ⟨_, _, rfl, rfl, .frame _ _ _ opens first cut ahead⟩
  | malformed nothing same small' fails refused =>
      obtain ⟨rfl, rfl⟩ := sizeBytes_inj_of_le small small' same
      exact ⟨_, _, rfl, rfl, .refused _ fails nothing refused⟩
  | short nothing short truncated =>
      generalize same : sizeBytes size ++ stream = whole at short
      cases short with
      | length short =>
          have two : (sizeBytes size).length = 2 := rfl
          rw [← same, List.length_append] at short
          omega
      | data small' short =>
          obtain ⟨rfl, rfl⟩ := sizeBytes_inj_of_le small small' same
          omega
  | tooLarge nothing same large word =>
      have := small.trans_lt large
      obtain ⟨rfl, -⟩ := sizeBytes_append_inj (by omega) word same
      omega

end Next

theorem mem_of_pieces {incoming eaten rest : List PollRead} (cut : incoming = eaten ++ rest)
    (pieces : ∀ read ∈ eaten, read.IsPiece) (eof : .ready [] ∈ incoming) : .ready [] ∈ rest := by
  rw [cut, List.mem_append] at eof
  exact eof.resolve_left fun early => pieces _ early rfl

namespace ChunkReader

inductive At : ChunkReader → Bytes → Phase → Bytes → Prop
  | length (cipher : Option AeadCipher) (readBuf chunk : Bytes) :
      At ⟨cipher, .waitingLength, readBuf, chunk⟩ [] (.chunks cipher) []
  | data (cipher : Option AeadCipher) {size : Nat} (readBuf chunk : Bytes)
      (small : size ≤ maxChunkSize) :
      At ⟨cipher, .waitingData size, readBuf, chunk⟩ (sizeBytes size) (.chunks cipher) []
  | flushing (cipher : Option AeadCipher) (readBuf : Bytes) {chunk : Bytes}
      (some_left : chunk ≠ []) :
      At ⟨cipher, .flushingData chunk.length, readBuf, chunk⟩ [] (.chunks cipher) chunk
  | closed (cipher : Option AeadCipher) (chunk : Bytes) :
      At ⟨cipher, .closed, [], chunk⟩ [] (.chunks cipher) []

def view : Framed.ReaderView Phase ChunkReader where
  buffered := readBuf
  Closed reader := reader.state = .closed
  At := At

theorem at_flushed (room : Nat) (cipher : Option AeadCipher) (readBuf chunk : Bytes) :
    At ⟨cipher, if room < chunk.length then .flushingData (chunk.drop room).length
      else .waitingLength, readBuf, chunk.drop room⟩ [] (.chunks cipher) (chunk.drop room) := by
  split
  · next short =>
      refine .flushing cipher readBuf (List.ne_nil_of_length_pos ?_)
      rw [List.length_drop]
      omega
  · next long =>
      rw [List.drop_of_length_le (Nat.le_of_not_lt long)]
      exact .length cipher readBuf []

variable {crypto : Crypto} {texts : ChunkTexts} {Greeting : Bytes → Prop} {spoken : ¬Greeting []}
  {room : Nat} {more tail : Bytes} {middle : Phase} {refusal : Option String}

theorem outcome_pollFlushing {before : Framed.Standing ChunkReader} {opened later : List Bytes}
    {cipher : Option AeadCipher} {readBuf chunk : Bytes} {incoming : List PollRead}
    (payloads : before.payloads = opened ++ later)
    (served : opened = [] ∧ before.left = chunk ∧ chunk ≠ [] ∨ opened = [chunk] ∧ before.left = [])
    (ahead : ∃ frames, readBuf ++ contents incoming ++ more = frames ++ tail ∧
      Framed.Frames (framing crypto texts spoken) (.chunks cipher) frames later middle)
    (eofLast : EofLast before.incoming) (suffix : incoming <:+ before.incoming)
    (keepsEof : refusal ≠ none → .ready [] ∈ incoming) :
    before.Outcome (framing crypto texts spoken) view room more middle tail refusal
      (pollFlushing room ⟨cipher, .flushingData chunk.length, readBuf, chunk⟩ chunk.length
        incoming) := by
  obtain ⟨frames, cut, ahead⟩ := ahead
  have here := at_flushed room cipher readBuf chunk
  have opened_state : (if room < chunk.length then ReadState.flushingData (chunk.drop room).length
      else .waitingLength) ≠ .closed := by
    split <;> exact nofun
  have shorter := suffix.length_le
  rw [pollFlushing_eq]
  refine .advance (chunk.drop room) later ⟨⟨⟨[], _, frames, here, cut, ahead⟩,
    eofLast.suffix suffix, fun closed => absurd closed opened_state⟩,
    ⟨opened, payloads, ?_⟩, suffix,
    fun closed => absurd closed opened_state, fun some_room whole busy => ?_, fun _ _ => nofun,
    keepsEof⟩
  · rcases served with ⟨rfl, rfl, some_left⟩ | ⟨rfl, nothing⟩
    · exact .rest some_left
    · exact .payload chunk nothing
  · unfold Framed.Standing.work
    rw [payloads, List.flatten_append, List.length_append, List.length_append]
    dsimp only
    rw [List.length_drop]
    rcases served with ⟨rfl, rfl, some_left⟩ | ⟨rfl, nothing⟩
    · have positive := List.length_pos_iff.mpr some_left
      omega
    · rw [List.flatten_singleton, List.length_singleton]
      omega

theorem outcome_pollData {before : Framed.Standing ChunkReader} {size : Nat}
    {payloads : List Bytes} {incoming : List PollRead} {cipher : Option AeadCipher}
    {readBuf chunk : Bytes} (small : size ≤ maxChunkSize)
    (standing : before = ⟨⟨cipher, .waitingData size, readBuf, chunk⟩, [], payloads, incoming⟩)
    (sound : before.Sound (framing crypto texts spoken) view more middle tail)
    (next : Next spoken crypto texts cipher
      (sizeBytes size ++ (readBuf ++ contents incoming ++ more)) payloads middle tail refusal)
    (eof : refusal ≠ none → more = [] ∧ .ready [] ∈ incoming) :
    before.Outcome (framing crypto texts spoken) view room more middle tail refusal
      (pollData crypto texts room ⟨cipher, .waitingData size, readBuf, chunk⟩ size incoming) := by
  subst standing
  have stuck (arrived : more = []) (busy : Framed.Standing.Busy
      (⟨⟨cipher, .waitingData size, readBuf, chunk⟩, [], payloads, incoming⟩ :
        Framed.Standing ChunkReader) refusal) :
      size ≤ (readBuf ++ contents incoming).length ∨
        refusal = some Framed.unexpectedEof ∧ payloads = [] := by
    have awaited := next.stuck small (busy.resolve_left (absurd rfl))
    rwa [arrived, List.append_nil] at awaited
  have unmoved (filled : Bytes) (begun : Bytes) (phase : Phase)
      (here : At ⟨cipher, .waitingData size, readBuf, chunk⟩ begun phase []) :
      At ⟨cipher, .waitingData size, filled, chunk⟩ begun phase [] := by
    cases here
    exact .data cipher filled chunk small
  have fills := ReadAhead.fills_pollFill size false incoming readBuf
  rw [pollData]
  revert fills
  generalize ReadAhead.pollFill size false incoming readBuf = out
  intro fills
  have kept := fills
  cases fills with
  | starves | waits | fails | breaks =>
      refine Framed.outcome_of_stall sound rfl eof stuck kept ?_ (unmoved _) rfl ?_
      · rintro _ ⟨⟩
      · rintro ⟨⟩
  | ends eaten rest cut pieces grown short clean => cases clean
  | @full filled eaten rest cut pieces grown enough =>
      have conserves : filled ++ contents rest = readBuf ++ contents incoming := kept.conserves
      rw [← conserves] at next
      have long : size ≤ (filled ++ contents rest ++ more).length := by
        rw [List.length_append, List.length_append]
        omega
      obtain ⟨body, others, same, length, found⟩ := next.data small long
      have taken :
          filled.take size = body ∧ filled.drop size ++ contents rest ++ more = others := by
        rw [← List.take_append_drop size filled, List.append_assoc, List.append_assoc,
          ← List.append_assoc (filled.drop size)] at same
        refine List.append_inj same ?_
        rw [List.length_take_of_le enough, length]
      obtain ⟨after, opens, bumped⟩ := openChunk_eq crypto texts cipher body
      dsimp only
      rw [if_neg (Nat.not_lt.mpr enough), taken.1, ← length, opens]
      cases found with
      | refused error fails nothing refused =>
          rw [fails]
          exact .refuse _ _ refused rfl (by rw [nothing]; rfl)
      | frame payload later frames plain first cut' ahead =>
          rw [plain, ← length_opened plain, bumped payload plain]
          have payloads_eq : payloads = [payload] ++ later := first
          rw [length]
          exact outcome_pollFlushing payloads_eq (Or.inr ⟨rfl, rfl⟩)
            ⟨frames, taken.2.trans cut', ahead⟩ sound.eofLast
            ⟨eaten, cut.symm⟩ fun refused => mem_of_pieces cut pieces (eof refused).2

theorem outcome_closed {before : Framed.Standing ChunkReader} {payloads : List Bytes}
    {incoming eaten rest : List PollRead} {cipher : Option AeadCipher}
    {readBuf chunk frames : Bytes}
    (standing : before = ⟨⟨cipher, .waitingLength, readBuf, chunk⟩, [], payloads, incoming⟩)
    (eofLast : EofLast incoming)
    (cut : readBuf ++ contents incoming ++ more = frames ++ tail)
    (ahead : Framed.Frames (framing crypto texts spoken) (.chunks cipher) frames payloads middle)
    (ending : Ending crypto texts middle tail refusal)
    (eof : refusal ≠ none → more = [] ∧ .ready [] ∈ incoming)
    (ended : incoming = eaten ++ .ready [] :: rest) (nothing : readBuf ++ contents incoming = []) :
    before.Outcome (framing crypto texts spoken) view room more middle tail refusal
      (some (.ready [], ⟨cipher, .closed, [], chunk⟩, rest)) := by
  subst standing
  have next := next_of_ahead cut ahead ending
  have member : .ready [] ∈ incoming := by
    rw [ended]
    exact List.mem_append_cons_self
  have suffix : rest <:+ incoming :=
    ⟨eaten ++ [.ready []], by rw [ended, List.append_assoc, List.singleton_append]⟩
  have silent : contents rest = [] := eofLast eaten rest ended
  rw [nothing] at cut next
  have idle (arrived : more = []) : ¬Framed.Standing.Busy
      (⟨⟨cipher, .waitingLength, readBuf, chunk⟩, [], payloads, incoming⟩ :
        Framed.Standing ChunkReader) refusal := by
    subst arrived
    rintro (left | some_ahead | refused)
    · exact left rfl
    · exact some_ahead next.idle.1
    · exact refused next.idle.2
  refine .advance [] payloads ⟨⟨⟨[], _, frames, .closed cipher chunk, ?_, ahead⟩,
    eofLast.suffix suffix, fun _ => silent⟩,
    ⟨[], rfl, .nothing rfl (Or.inr (Or.inr ⟨_, member, rfl⟩))⟩, suffix,
    fun _ => Or.inr member, fun _ arrived busy => absurd busy (idle arrived),
    fun _ _ same => (by cases same),
    fun refused => absurd (Or.inr (Or.inr refused)) (idle (eof refused).1)⟩
  change [] ++ ([] ++ contents rest ++ more) = frames ++ tail
  rw [silent]
  exact cut

theorem outcome_size {before : Framed.Standing ChunkReader} {payloads : List Bytes}
    {incoming rest : List PollRead} {cipher : Option AeadCipher} {readBuf chunk frames left : Bytes}
    {high low : UInt8}
    (standing : before = ⟨⟨cipher, .waitingLength, readBuf, chunk⟩, [], payloads, incoming⟩)
    (eofLast : EofLast rest) (suffix : rest <:+ incoming)
    (cut : high :: low :: left ++ contents rest ++ more = frames ++ tail)
    (ahead : Framed.Frames (framing crypto texts spoken) (.chunks cipher) frames payloads middle)
    (ending : Ending crypto texts middle tail refusal)
    (eof : refusal ≠ none → more = [] ∧ .ready [] ∈ rest) :
    before.Outcome (framing crypto texts spoken) view room more middle tail refusal
      (if maxChunkSize < (u16FromBe high low).toNat then
        some (.failed texts.tooLarge, ⟨cipher, .waitingLength, left, chunk⟩, rest)
      else pollData crypto texts room ⟨cipher, .waitingData (u16FromBe high low).toNat, left, chunk⟩
        (u16FromBe high low).toNat rest) := by
  subst standing
  have bytes := sizeBytes_u16FromBe high low
  have word : (u16FromBe high low).toNat < 65536 := UInt16.toNat_lt _
  generalize (u16FromBe high low).toNat = len at bytes word ⊢
  have whole : high :: low :: left ++ contents rest ++ more =
      sizeBytes len ++ (left ++ contents rest ++ more) := by
    rw [bytes]
    rfl
  rw [whole] at cut
  have next := next_of_ahead cut ahead ending
  split
  · next large =>
      obtain ⟨nothing, refused⟩ := next.large large word
      exact .refuse _ _ refused rfl (by rw [nothing]; rfl)
  · next small =>
      have small := Nat.le_of_not_lt small
      have here : At ⟨cipher, .waitingData len, left, chunk⟩ (sizeBytes len)
          (.chunks cipher) [] := .data cipher left chunk small
      have onward : Framed.Standing.Sound (framing crypto texts spoken) view more middle tail
          ⟨⟨cipher, .waitingData len, left, chunk⟩, [], payloads, rest⟩ :=
        ⟨⟨_, _, frames, here, cut, ahead⟩, eofLast, by rintro ⟨⟩⟩
      refine .of_move ⟨onward, rfl, rfl, suffix, by rintro ⟨⟩, Or.inr ⟨?_, id⟩⟩
        (outcome_pollData small rfl onward next eof)
      have shorter : rest.length ≤ incoming.length := suffix.length_le
      unfold Framed.Standing.work
      dsimp only
      omega

theorem outcome_pollLength {before : Framed.Standing ChunkReader} {payloads : List Bytes}
    {incoming : List PollRead} {cipher : Option AeadCipher} {readBuf chunk : Bytes}
    (standing : before = ⟨⟨cipher, .waitingLength, readBuf, chunk⟩, [], payloads, incoming⟩)
    (sound : before.Sound (framing crypto texts spoken) view more middle tail)
    (ending : Ending crypto texts middle tail refusal)
    (eof : refusal ≠ none → more = [] ∧ .ready [] ∈ incoming) :
    before.Outcome (framing crypto texts spoken) view room more middle tail refusal
      (pollLength crypto texts room ⟨cipher, .waitingLength, readBuf, chunk⟩ incoming) := by
  subst standing
  obtain ⟨frames, cut, ahead⟩ : ∃ frames, readBuf ++ contents incoming ++ more = frames ++ tail ∧
      Framed.Frames (framing crypto texts spoken) (.chunks cipher) frames payloads middle := by
    obtain ⟨begun, phase, frames, here, cut, ahead⟩ := sound.ahead
    cases here with
    | length => exact ⟨frames, cut, ahead⟩
  have stuck (arrived : more = []) (busy : Framed.Standing.Busy
      (⟨⟨cipher, .waitingLength, readBuf, chunk⟩, [], payloads, incoming⟩ :
        Framed.Standing ChunkReader) refusal) :
      2 ≤ (readBuf ++ contents incoming).length ∨
        refusal = some Framed.unexpectedEof ∧ payloads = [] := by
    have awaited := (next_of_ahead cut ahead ending).two (busy.resolve_left (absurd rfl))
    rwa [arrived, List.append_nil] at awaited
  have unmoved (filled : Bytes) (begun : Bytes) (phase : Phase)
      (here : At ⟨cipher, .waitingLength, readBuf, chunk⟩ begun phase []) :
      At ⟨cipher, .waitingLength, filled, chunk⟩ begun phase [] := by
    cases here
    exact .length cipher filled chunk
  have fills := ReadAhead.fills_pollFill 2 true incoming readBuf
  rw [pollLength]
  revert fills
  generalize ReadAhead.pollFill 2 true incoming readBuf = out
  intro fills
  have kept := fills
  have conserves := kept.conserves
  cases fills with
  | starves | waits | fails | breaks =>
      refine Framed.outcome_of_stall sound rfl eof stuck kept ?_ (unmoved _) rfl ?_
      · rintro _ ⟨⟩
      · rintro ⟨⟩
  | @ends filled eaten rest cut' pieces grown short clean =>
      obtain rfl : filled = [] := List.isEmpty_iff.mp clean
      have nothing : readBuf ++ contents incoming = [] := by
        rw [← conserves]
        exact sound.eofLast eaten rest cut'
      exact outcome_closed rfl sound.eofLast cut ahead ending eof cut' nothing
  | @full filled eaten rest cut' pieces grown enough =>
      change filled ++ contents rest = readBuf ++ contents incoming at conserves
      rw [← conserves] at cut
      obtain ⟨high, low, left, rfl⟩ : ∃ high low rest, filled = high :: low :: rest := by
        rcases filled with _ | ⟨high, _ | ⟨low, rest⟩⟩
        · exact absurd enough (by decide)
        · exact absurd enough (by simp)
        · exact ⟨high, low, rest, rfl⟩
      exact outcome_size rfl (sound.eofLast.suffix kept.suffix) kept.suffix cut ahead ending
        fun refused => ⟨(eof refused).1, mem_of_pieces cut' pieces (eof refused).2⟩

theorem reads_pollRead :
    Framed.Reads (framing crypto texts spoken) view (pollRead crypto texts) := by
  rintro room more middle tail refusal ⟨reader, left, payloads, incoming⟩ sound ending eof
  obtain ⟨begun, phase, frames, here, cut, ahead⟩ := id sound.ahead
  rw [pollRead]
  dsimp only at here cut eof ⊢
  cases here with
  | length cipher readBuf chunk => exact outcome_pollLength rfl sound ending eof
  | @data cipher size readBuf chunk small =>
      exact outcome_pollData small rfl sound (next_of_ahead cut ahead ending) eof
  | @flushing cipher readBuf chunk some_left =>
      exact outcome_pollFlushing (List.nil_append _).symm (Or.inl ⟨rfl, rfl, some_left⟩)
        ⟨frames, cut, ahead⟩ sound.eofLast List.suffix_rfl fun refused => (eof refused).2
  | closed cipher chunk =>
      have silent : contents incoming = [] := sound.silent rfl
      have idle (arrived : more = []) : payloads = [] ∧ refusal = none := by
        have next := next_of_ahead cut ahead ending
        change Next spoken crypto texts cipher ([] ++ contents incoming ++ more) _ _ _ _ at next
        rw [silent, arrived] at next
        exact next.idle
      refine .advance [] payloads ⟨sound, ⟨[], rfl, .nothing rfl (Or.inr (Or.inl rfl))⟩,
        List.suffix_rfl, Or.inl,
        fun _ arrived busy => ?_, fun _ _ same => (by cases same), fun refused => (eof refused).2⟩
      rcases busy with left | some_ahead | refused
      · exact absurd rfl left
      · exact absurd (idle arrived).1 some_ahead
      · exact absurd (idle arrived).2 refused

end ChunkReader

namespace ChunkWriter

inductive At : ChunkWriter → Phase → Option (Bytes × Nat) → Prop
  | building (cipher : Option AeadCipher) : At ⟨cipher, .buildingData, []⟩ (.chunks cipher) none
  | flushing (cipher : Option AeadCipher) (consume : Nat) (sent : Bytes) {rest : Bytes}
      (some_left : rest ≠ []) :
      At ⟨cipher, .flushingData consume sent.length (sent ++ rest).length, sent ++ rest⟩
        (.chunks cipher) (some (rest, consume))

def sealed (crypto : Crypto) (cipher : Option AeadCipher) (payload : Bytes) : Bytes :=
  match cipher with
  | none => payload
  | some cipher => cipher.sealed crypto payload

variable {crypto : Crypto} {texts : ChunkTexts} {Greeting : Bytes → Prop} {spoken : ¬Greeting []}
  {Sink : Type}

theorem length_sealed (crypto : Crypto) (cipher : Option AeadCipher) (payload : Bytes) :
    (sealed crypto cipher payload).length = payload.length + overheadLen cipher := by
  cases cipher with
  | none => rfl
  | some cipher => exact cipher.length_sealed crypto payload

theorem opened_sealed (inverts : crypto.Inverts) (cipher : Option AeadCipher) (payload : Bytes) :
    ChunkReader.opened crypto texts cipher (sealed crypto cipher payload) = .ok payload := by
  cases cipher with
  | none => rfl
  | some cipher =>
      have opens : cipher.opened crypto (cipher.sealed crypto payload) = some payload :=
        AeadCipher.opened_sealed inverts payload
      have long : ¬(cipher.sealed crypto payload).length < cipher.security.overheadLen := by
        rw [AeadCipher.length_sealed]
        exact Nat.not_lt.mpr (Nat.le_add_left ..)
      rw [sealed, ChunkReader.opened, if_neg long, opens]

theorem overheadLen_le (cipher : Option AeadCipher) : overheadLen cipher ≤ 16 := by
  cases cipher with
  | none => exact Nat.zero_le _
  | some cipher => exact Nat.le_refl 16

def payloadOf (cipher : Option AeadCipher) (buf : Bytes) : Bytes :=
  buf.take (chunkSize - overheadLen cipher)

theorem build_eq (cipher : Option AeadCipher) (buf : Bytes) :
    let payload := payloadOf cipher buf
    let frame := sizeBytes (payload.length + overheadLen cipher) ++ sealed crypto cipher payload
    build crypto ⟨cipher, .buildingData, []⟩ buf =
      some (payload.length, ⟨cipher.map AeadCipher.bump,
        .flushingData payload.length 0 frame.length, frame⟩) := by
  have consume : min buf.length (chunkSize - overheadLen cipher) =
      (payloadOf cipher buf).length := by
    rw [payloadOf, List.length_take, Nat.min_comm]
  have taken : buf.take (payloadOf cipher buf).length = payloadOf cipher buf :=
    (List.prefix_iff_eq_take.mp (List.take_prefix _ buf)).symm
  rw [build]
  dsimp only
  rw [consume, taken]
  cases cipher with
  | none =>
      have plain : List.replicate (overheadLen none) (0 : UInt8) = [] := rfl
      rw [plain, List.append_nil]
      rfl
  | some cipher =>
      have sealed_eq := cipher.encryptInplace_zeros crypto (payloadOf (some cipher) buf)
      dsimp only
      change Option.map _ (cipher.encryptInplace crypto
        (payloadOf (some cipher) buf ++ List.replicate 16 0)) = _
      rw [sealed_eq]
      rfl

theorem flushed_pollFlushing (io : AsyncWrite Sink) (sink : Sink) (cipher : Option AeadCipher)
    (consume : Nat) (sent rest : Bytes) :
    Framed.Flushed At (.chunks cipher) rest consume
      (pollFlushing io (.opened sink)
        ⟨cipher, .flushingData consume sent.length (sent ++ rest).length, sent ++ rest⟩
        consume sent.length (sent ++ rest).length) := by
  have bounds : ¬((sent ++ rest).length < (sent ++ rest).length ∨
      (sent ++ rest).length < sent.length) := by
    rw [List.length_append]
    omega
  have wrote := (Wire.opened sink).wroteAll_writeAll io rest
  have undone := (Wire.opened sink).left_writeAll io rest
  rw [pollFlushing]
  dsimp only
  rw [if_neg bounds, List.take_length, List.drop_left]
  revert wrote undone
  generalize (Wire.opened sink).writeAll io rest = out
  obtain ⟨result, left, wire⟩ := out
  intro wrote undone
  have whole : wire.written ++ left = rest := wrote.whole
  have stopped (unfinished : left ≠ []) {answer : Poll (Except String Nat)}
      (unanswered : ∀ count, answer ≠ .ready (.ok count)) :
      Framed.Flushed At (.chunks cipher) rest consume
        (some (answer, ⟨cipher, .flushingData consume ((sent ++ rest).length - left.length)
          (sent ++ rest).length, sent ++ rest⟩, wire)) := by
    refine .stopped _ wire left unanswered unfinished ?_ whole
    have cut : sent ++ rest = sent ++ wire.written ++ left := by
      rw [← whole, List.append_assoc]
    have written : (sent ++ rest).length - left.length = (sent ++ wire.written).length := by
      rw [cut, List.length_append, Nat.add_sub_cancel]
    rw [written, cut]
    exact .flushing cipher consume _ unfinished
  match result with
  | .ready (.ok ()) =>
      refine .done _ wire (.building cipher) ?_
      have nothing : left = [] := wrote.done rfl
      rw [← whole, nothing, List.append_nil]
  | .ready (.error error) => exact stopped (undone nofun) nofun
  | .pending => exact stopped (undone nofun) nofun

theorem cuts_chunk {cipher : Option AeadCipher} {body : Bytes}
    (small : body.length ≤ maxChunkSize) :
    Framed.Cuts (framing crypto texts spoken) (.chunks cipher) (sizeBytes body.length ++ body) := by
  intro part rest cut some_left
  refine .short ?_
  rcases Nat.lt_or_ge part.length 2 with short | long
  · exact .length short
  · obtain ⟨middle, rfl, same⟩ := exists_append_of_length_le cut.symm long
    refine .data small ?_
    have positive := List.length_pos_iff.mpr some_left
    rw [← same, List.length_append]
    omega

def limit (phase : Phase) : Nat := chunkSize - overheadLen phase.cipher

theorem writes_pollWrite (inverts : crypto.Inverts) (io : AsyncWrite Sink) :
    Framed.Writes (framing crypto texts spoken) At limit
      fun sink writer buf => pollWrite crypto io (.opened sink) writer buf where
  between := by
    intro writer phase here
    cases here with
    | building cipher => exact .short (.length (Nat.zero_lt_two))
  steady := by
    intro phase bytes payload next frame
    change Frame crypto texts _ _ _ _ at frame
    cases frame with
    | @chunk cipher body payload small opens =>
        cases cipher <;> rfl
  idle := by
    intro writer phase here sink buf
    cases here with
    | building cipher =>
        have length := length_sealed crypto cipher (payloadOf cipher buf)
        have small : (sealed crypto cipher (payloadOf cipher buf)).length ≤ maxChunkSize := by
          have overhead := overheadLen_le cipher
          have taken : (payloadOf cipher buf).length ≤ chunkSize - overheadLen cipher :=
            List.length_take_le _ _
          have fits : chunkSize ≤ maxChunkSize := by decide
          have room : 16 ≤ chunkSize := by decide
          omega
        refine ⟨_, _,
          .chunk small (opened_sealed inverts cipher _), cuts_chunk small, ?_⟩
        rw [pollWrite]
        dsimp only
        rw [build_eq, ← length]
        exact flushed_pollFlushing io sink _ _ [] _
  busy := by
    intro writer next rest count here sink buf
    cases here with
    | flushing cipher consume sent some_left =>
        exact flushed_pollFlushing io sink cipher count sent _

end ChunkWriter

end Vmess

end QuicProxy
