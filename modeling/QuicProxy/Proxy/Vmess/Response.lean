import QuicProxy.Proxy.Vmess.Chunks

namespace QuicProxy

/-! What the client reads: the response header, and then chunks. -/

namespace Vmess

namespace ResponseKeys

variable (crypto : Crypto) (keys : ResponseKeys)

/-- A response header that the client takes. -/
inductive Greeting : Bytes → Prop
  | sealed {size body rest : Bytes} {high low option : UInt8}
      (sized : crypto.aes128Gcm.decrypt (keys.lenKey crypto) (keys.lenIv crypto) size =
        some [high, low])
      (length : body.length = (u16FromBe high low).toNat + 16)
      (header : crypto.aes128Gcm.decrypt (keys.payloadKey crypto) (keys.payloadIv crypto) body =
        some (keys.respV :: option :: 0 :: rest))
      (long : rest ≠ []) : Greeting (size ++ body)

theorem unspoken : ¬keys.Greeting crypto [] := by
  intro greeting
  generalize same : ([] : Bytes) = head at greeting
  cases greeting with
  | sealed sized =>
      obtain ⟨rfl, -⟩ := List.append_eq_nil_iff.mp same.symm
      cases Aead.length_decrypted sized

variable {crypto keys}

theorem greeting_responseHeader (inverts : crypto.Inverts) :
    keys.Greeting crypto (keys.responseHeader crypto) := by
  refine .sealed (Aead.decrypt_encrypt inverts.aes128Gcm ..) ?_
    (Aead.decrypt_encrypt inverts.aes128Gcm ..) (List.cons_ne_nil 0 [])
  rw [Aead.length_encrypted, u16FromBe_u16ToBe]
  rfl

end ResponseKeys

namespace VmessReader

section View

variable (crypto : Crypto) (keys : ResponseKeys)

inductive At : VmessReader → Bytes → Phase → Bytes → Prop
  | headerSize (cipher : Option AeadCipher) (readBuf chunk : Bytes) :
      At ⟨true, keys, .waitingHeaderSize, ⟨cipher, .waitingLength, readBuf, chunk⟩⟩ []
        (.greeting cipher) []
  | header (cipher : Option AeadCipher) (readBuf chunk : Bytes) {size : Bytes} {high low : UInt8}
      (sized : crypto.aes128Gcm.decrypt (keys.lenKey crypto) (keys.lenIv crypto) size =
        some [high, low]) :
      At ⟨true, keys, .waitingHeader (u16FromBe high low).toNat,
        ⟨cipher, .waitingLength, readBuf, chunk⟩⟩ size (.greeting cipher) []
  | chunks (chunks : ChunkReader) {begun left : Bytes} {phase : Phase}
      (here : chunks.At begun phase left) : At ⟨true, keys, .done, chunks⟩ begun phase left

def view : Framed.ReaderView Phase VmessReader where
  buffered reader := reader.chunks.readBuf
  Closed reader := reader.chunks.state = .closed
  At := At crypto keys

def served (chunks : ChunkReader) : VmessReader := ⟨true, keys, .done, chunks⟩

theorem agrees_served :
    Framed.Standing.Agrees ChunkReader.view (view crypto keys) (served keys) :=
  ⟨fun _ => rfl, fun _ => Iff.rfl, fun here => .chunks _ here⟩

/-- What the server sends, as the client reads it. -/
def responses : Framed.Framing Phase :=
  framing crypto texts (keys.unspoken crypto)

end View

variable {crypto : Crypto} {keys : ResponseKeys} {room : Nat} {more tail : Bytes} {middle : Phase}
  {refusal : Option String}

theorem outcome_pollChunks {before : Framed.Standing ChunkReader} (header : HeaderState)
    (sound : before.Sound (responses crypto keys) ChunkReader.view more middle tail)
    (ending : Ending crypto texts middle tail refusal)
    (eof : refusal ≠ none → more = [] ∧ .ready [] ∈ before.incoming) :
    (before.map (served keys)).Outcome (responses crypto keys) (view crypto keys) room more middle
      tail refusal
      (pollChunks crypto room ⟨true, keys, header, before.reader⟩ before.incoming) :=
  (ChunkReader.reads_pollRead room more middle tail refusal before sound ending eof).map
    (agrees_served crypto keys)

/-- The header is less than the client waits for, or it is taken off the buffer. -/
theorem outcome_filled {before : Framed.Standing VmessReader} {count : Nat}
    {go : Bytes → List PollRead → Option (PollRead × VmessReader × List PollRead)}
    (sound : before.Sound (responses crypto keys) (view crypto keys) more middle tail)
    (served : before.left = []) (opened : before.reader.chunks.state = .waitingLength)
    (eof : refusal ≠ none → more = [] ∧ .ready [] ∈ before.incoming)
    (enough : count ≤ (before.reader.chunks.readBuf ++ contents before.incoming ++ more).length)
    (unmoved : ∀ readBuf begun phase, At crypto keys before.reader begun phase [] →
      At crypto keys { before.reader with chunks := { before.reader.chunks with readBuf } } begun
        phase [])
    (goes : ∀ readBuf rest, count ≤ readBuf.length →
      readBuf ++ contents rest = before.reader.chunks.readBuf ++ contents before.incoming →
      rest <:+ before.incoming → (refusal ≠ none → .ready [] ∈ rest) →
        before.Outcome (responses crypto keys) (view crypto keys) room more middle tail refusal
          (go readBuf rest)) :
    before.Outcome (responses crypto keys) (view crypto keys) room more middle tail refusal
      (before.reader.filled count before.incoming go) := by
  have stuck (arrived : more = []) (_ : before.Busy refusal) :
      count ≤ (before.reader.chunks.readBuf ++ contents before.incoming).length ∨
        refusal = some Framed.unexpectedEof ∧ before.payloads = [] := by
    rw [arrived, List.append_nil] at enough
    exact Or.inl enough
  have unclosed (readBuf : Bytes) : ¬(view crypto keys).Closed
      { before.reader with chunks := { before.reader.chunks with readBuf } } := by
    intro closed
    cases opened.symm.trans closed
  have fills := ReadAhead.fills_pollFill count false before.incoming before.reader.chunks.readBuf
  rw [filled]
  revert fills
  generalize ReadAhead.pollFill count false before.incoming before.reader.chunks.readBuf = out
  intro fills
  have kept := fills
  cases fills with
  | starves | waits | fails | breaks =>
      refine Framed.outcome_of_stall sound served eof stuck kept ?_ (unmoved _) rfl (unclosed _)
      rintro _ ⟨⟩
  | ends eaten rest cut pieces grown short clean => cases clean
  | full eaten rest cut pieces grown long =>
      dsimp only
      rw [if_neg (Nat.not_lt.mpr long)]
      exact goes _ _ long kept.conserves kept.suffix fun refused =>
        mem_of_pieces cut pieces (eof refused).2

theorem exists_greeting {cipher : Option AeadCipher} {stream frames : Bytes}
    {payloads : List Bytes} (cut : stream = frames ++ tail)
    (ahead : Framed.Frames (responses crypto keys) (.greeting cipher) frames payloads middle)
    (ending : Ending crypto texts middle tail refusal) :
    ∃ head rest, keys.Greeting crypto head ∧ stream = head ++ (rest ++ tail) ∧
      Framed.Frames (responses crypto keys) (.chunks cipher) rest payloads middle := by
  subst cut
  cases ahead with
  | nil phase => cases ending
  | cons first rest =>
      change Frame crypto texts _ _ _ _ at first
      cases first
  | skip first rest =>
      change Silent (keys.Greeting crypto) _ _ _ at first
      cases first with
      | greeting cipher greets => exact ⟨_, _, greets, List.append_assoc .., rest⟩

theorem split_of_filled {count : Nat} {filled first after : Bytes} {rest : List PollRead}
    (same : filled ++ contents rest ++ more = first ++ after) (length : first.length = count)
    (long : count ≤ filled.length) :
    filled.take count = first ∧ filled.drop count ++ contents rest ++ more = after := by
  rw [← List.take_append_drop count filled, List.append_assoc, List.append_assoc,
    ← List.append_assoc (filled.drop count)] at same
  refine List.append_inj same ?_
  rw [List.length_take_of_le long, length]

variable {cipher : Option AeadCipher} {readBuf chunk : Bytes} {payloads : List Bytes}
  {incoming : List PollRead} {frames : Bytes}

theorem outcome_pollHeader {before : Framed.Standing VmessReader} {size : Nat} {body rest : Bytes}
    {option : UInt8}
    (standing : before = ⟨⟨true, keys, .waitingHeader size, ⟨cipher, .waitingLength, readBuf,
      chunk⟩⟩, [], payloads, incoming⟩)
    (sound : before.Sound (responses crypto keys) (view crypto keys) more middle tail)
    (ending : Ending crypto texts middle tail refusal)
    (eof : refusal ≠ none → more = [] ∧ .ready [] ∈ incoming)
    (stream : readBuf ++ contents incoming ++ more = body ++ (frames ++ tail))
    (length : body.length = size + 16)
    (header : crypto.aes128Gcm.decrypt (keys.payloadKey crypto) (keys.payloadIv crypto) body =
      some (keys.respV :: option :: 0 :: rest))
    (long : rest ≠ [])
    (ahead : Framed.Frames (responses crypto keys) (.chunks cipher) frames payloads middle) :
    before.Outcome (responses crypto keys) (view crypto keys) room more middle tail refusal
      (before.reader.pollHeader crypto room size incoming) := by
  subst standing
  refine outcome_filled sound rfl rfl eof ?_ (fun filled begun phase here => ?_)
    fun filled others enough conserves suffix keepsEof => ?_
  · dsimp only
    rw [stream, List.length_append, length]
    exact Nat.le_add_right ..
  · cases here with
    | header cipher readBuf chunk sized => exact .header cipher filled chunk sized
  · dsimp only at conserves suffix ⊢
    rw [← conserves] at stream
    obtain ⟨taken, left⟩ := split_of_filled stream length enough
    obtain ⟨reserved, rest, rfl⟩ := List.exists_cons_of_ne_nil long
    have chunks_ahead : Framed.Standing.Sound (responses crypto keys) ChunkReader.view more middle
        tail ⟨⟨cipher, .waitingLength, filled.drop (size + 16), chunk⟩, [], payloads, others⟩ :=
      ⟨⟨[], _, frames, .length cipher _ chunk, left, ahead⟩, sound.eofLast.suffix suffix, nofun⟩
    rw [taken, header]
    dsimp only
    rw [if_neg (not_not.mpr rfl), if_neg (not_not.mpr rfl)]
    refine .of_move ⟨chunks_ahead.map (agrees_served crypto keys), rfl, rfl, suffix, nofun,
      Or.inr ⟨?_, id⟩⟩
      (outcome_pollChunks _ chunks_ahead ending fun refused => ⟨(eof refused).1, keepsEof refused⟩)
    have shorter := suffix.length_le
    unfold Framed.Standing.work Framed.Standing.map
    dsimp only
    omega

theorem outcome_pollHeaderSize {before : Framed.Standing VmessReader}
    (standing : before = ⟨⟨true, keys, .waitingHeaderSize, ⟨cipher, .waitingLength, readBuf,
      chunk⟩⟩, [], payloads, incoming⟩)
    (sound : before.Sound (responses crypto keys) (view crypto keys) more middle tail)
    (ending : Ending crypto texts middle tail refusal)
    (eof : refusal ≠ none → more = [] ∧ .ready [] ∈ incoming) :
    before.Outcome (responses crypto keys) (view crypto keys) room more middle tail refusal
      (before.reader.pollHeaderSize crypto room incoming) := by
  subst standing
  obtain ⟨whole, cut, greeted⟩ : ∃ whole, readBuf ++ contents incoming ++ more = whole ++ tail ∧
      Framed.Frames (responses crypto keys) (.greeting cipher) whole payloads middle := by
    obtain ⟨begun, phase, frames, here, cut, ahead⟩ := sound.ahead
    cases here with
    | headerSize => exact ⟨frames, cut, ahead⟩
  obtain ⟨head, frames, greets, stream, ahead⟩ := exists_greeting cut greeted ending
  cases greets with
  | @sealed sealedSize body rest high low option sized length header long =>
      have eighteen : sealedSize.length = 18 := Aead.length_decrypted sized
      rw [List.append_assoc sealedSize] at stream
      refine outcome_filled sound rfl rfl eof ?_ (fun filled begun phase here => ?_)
        fun filled others enough conserves suffix keepsEof => ?_
      · dsimp only
        rw [stream, List.length_append, eighteen]
        exact Nat.le_add_right ..
      · cases here with
        | headerSize cipher readBuf chunk => exact .headerSize cipher filled chunk
      · dsimp only at conserves suffix ⊢
        rw [← conserves] at stream cut
        obtain ⟨taken, left⟩ := split_of_filled stream eighteen enough
        have onward : Framed.Standing.Sound (responses crypto keys) (view crypto keys) more middle
            tail ⟨⟨true, keys, .waitingHeader (u16FromBe high low).toNat,
              ⟨cipher, .waitingLength, filled.drop 18, chunk⟩⟩, [], payloads, others⟩ := by
          refine ⟨⟨_, _, whole, .header cipher _ chunk sized, ?_, greeted⟩,
            sound.eofLast.suffix suffix, nofun⟩
          change sealedSize ++ (filled.drop 18 ++ contents others ++ more) = whole ++ tail
          rw [left, ← stream, cut]
        rw [taken, sized]
        dsimp only
        refine .of_move ⟨onward, rfl, rfl, suffix, nofun, Or.inr ⟨?_, id⟩⟩
          (outcome_pollHeader rfl onward ending
            (fun refused => ⟨(eof refused).1, keepsEof refused⟩) left length header long ahead)
        have shorter := suffix.length_le
        unfold Framed.Standing.work
        dsimp only
        omega

theorem reads_pollRead :
    Framed.Reads (responses crypto keys) (view crypto keys)
      fun room reader => pollRead crypto room reader := by
  rintro room more middle tail refusal ⟨reader, left, payloads, incoming⟩ sound ending eof
  obtain ⟨begun, phase, frames, here, cut, ahead⟩ := id sound.ahead
  dsimp only at here cut eof ⊢
  rw [pollRead]
  cases here with
  | headerSize cipher readBuf chunk => exact outcome_pollHeaderSize rfl sound ending eof
  | header cipher readBuf chunk sized =>
      obtain ⟨head, frames, greets, stream, ahead⟩ := exists_greeting cut ahead ending
      cases greets with
      | @sealed other body rest high' low' option sized' length header long =>
          have lengths : begun.length = other.length :=
            (Aead.length_decrypted sized).trans (Aead.length_decrypted sized').symm
          rw [List.append_assoc other] at stream
          obtain ⟨rfl, follows⟩ := List.append_inj stream lengths
          cases sized.symm.trans sized'
          exact outcome_pollHeader rfl sound ending eof follows length header long ahead
  | chunks chunks here =>
      have chunks_ahead : Framed.Standing.Sound (responses crypto keys) ChunkReader.view more middle
          tail ⟨chunks, left, payloads, incoming⟩ :=
        ⟨⟨begun, phase, frames, here, cut, ahead⟩, sound.eofLast, sound.silent⟩
      exact outcome_pollChunks .done chunks_ahead ending eof

end VmessReader

end Vmess

end QuicProxy
