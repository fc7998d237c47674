import QuicProxy.Proxy.Vmess.Kdf
import QuicProxy.Utils.ReadAhead

namespace QuicProxy

/-! The streams of a VMess connection: `VmessStream`
(`src/proxy/outbound/vmess/vmess_impl/stream.rs`) and `VmessServerStream`
(`src/proxy/inbound/vmess.rs`).  They read and write chunks in the same way; a
`none` is a panic. -/

namespace Vmess

def chunkSize : Nat := 2 ^ 14

def maxChunkSize : Nat := 17 * 1024

def optionChunkStream : UInt8 := 1

def overheadLen (cipher : Option AeadCipher) : Nat :=
  (cipher.map fun cipher => cipher.security.overheadLen).getD 0

/-- The errors of a chunk that is refused by its length. -/
structure ChunkTexts where
  tooLarge : String
  tooShort : String

inductive ReadState where
  | waitingLength
  | waitingData (size : Nat)
  | flushingData (size : Nat)
  | closed
deriving DecidableEq

structure ChunkReader where
  cipher : Option AeadCipher
  state : ReadState
  /-- Bytes read ahead of the chunks that are cut from their front. -/
  readBuf : Bytes
  chunk : Bytes
deriving DecidableEq

namespace ChunkReader

def new (cipher : Option AeadCipher) : ChunkReader := ⟨cipher, .waitingLength, [], []⟩

variable (crypto : Crypto) (texts : ChunkTexts)

def openChunk (cipher : Option AeadCipher) (size : Nat) (chunk : Bytes) :
    Option (Except String Bytes × Option AeadCipher) :=
  match cipher with
  | none => some (.ok chunk, none)
  | some cipher =>
      if size < cipher.security.overheadLen then some (.error texts.tooShort, some cipher)
      else
        match cipher.decryptInplace crypto chunk with
        | none => none
        | some (.error error, cipher) => some (.error error, some cipher)
        | some (.ok buf, cipher) =>
            some (.ok (buf.take (size - cipher.security.overheadLen)), some cipher)

/-- `FlushingData(size)`. -/
def pollFlushing (room : Nat) (reader : ChunkReader) (size : Nat) (incoming : List PollRead) :
    Option (PollRead × ChunkReader × List PollRead) :=
  let toRead := min room size
  if reader.chunk.length < toRead then none
  else
    some (.ready (reader.chunk.take toRead),
      { reader with
        chunk := reader.chunk.drop toRead
        state := if toRead < size then .flushingData (size - toRead) else .waitingLength },
      incoming)

/-- `WaitingData(size)`. -/
def pollData (room : Nat) (reader : ChunkReader) (size : Nat) (incoming : List PollRead) :
    Option (PollRead × ChunkReader × List PollRead) :=
  match ReadAhead.pollFill size false incoming reader.readBuf with
  | (.pending, readBuf, incoming) => some (.pending, { reader with readBuf }, incoming)
  | (.ready (.error error), readBuf, incoming) =>
      some (.failed error, { reader with readBuf }, incoming)
  | (.ready (.ok _), readBuf, incoming) =>
      if readBuf.length < size then none
      else
        let dataLen := size - overheadLen reader.cipher
        match openChunk crypto texts reader.cipher size (readBuf.take size) with
        | none => none
        | some (.error error, cipher) =>
            some (.failed error, { reader with cipher, readBuf := readBuf.drop size }, incoming)
        | some (.ok chunk, cipher) =>
            pollFlushing room ⟨cipher, .flushingData dataLen, readBuf.drop size, chunk⟩ dataLen
              incoming

/-- `WaitingLength`. -/
def pollLength (room : Nat) (reader : ChunkReader) (incoming : List PollRead) :
    Option (PollRead × ChunkReader × List PollRead) :=
  match ReadAhead.pollFill 2 true incoming reader.readBuf with
  | (.pending, readBuf, incoming) => some (.pending, { reader with readBuf }, incoming)
  | (.ready (.error error), readBuf, incoming) =>
      some (.failed error, { reader with readBuf }, incoming)
  | (.ready (.ok false), readBuf, incoming) =>
      some (.ready [], { reader with readBuf, state := .closed }, incoming)
  | (.ready (.ok true), high :: low :: readBuf, incoming) =>
      let len := (u16FromBe high low).toNat
      if maxChunkSize < len then some (.failed texts.tooLarge, { reader with readBuf }, incoming)
      else
        pollData crypto texts room { reader with readBuf, state := .waitingData len } len incoming
  | (.ready (.ok true), _, _) => none

/-- `poll_read`, for a buffer with so much room. -/
def pollRead (room : Nat) (reader : ChunkReader) (incoming : List PollRead) :
    Option (PollRead × ChunkReader × List PollRead) :=
  match reader.state with
  | .waitingLength => pollLength crypto texts room reader incoming
  | .waitingData size => pollData crypto texts room reader size incoming
  | .flushingData size => pollFlushing room reader size incoming
  | .closed => some (.ready [], reader, incoming)

/-! No bytes make it panic. -/

def opened (cipher : Option AeadCipher) (body : Bytes) : Except String Bytes :=
  match cipher with
  | none => .ok body
  | some cipher =>
      if body.length < cipher.security.overheadLen then .error texts.tooShort
      else
        match cipher.opened crypto body with
        | none => .error (cipher.security.failure crypto)
        | some payload => .ok payload

variable {crypto texts}

theorem length_opened {cipher : Option AeadCipher} {body payload : Bytes}
    (opens : opened crypto texts cipher body = .ok payload) :
    payload.length = body.length - overheadLen cipher := by
  cases cipher with
  | none =>
      cases opens
      rfl
  | some cipher =>
      rw [opened] at opens
      split at opens
      · cases opens
      · split at opens
        · cases opens
        · next plain =>
            cases opens
            rw [AeadCipher.length_opened plain]
            exact (Nat.add_sub_cancel ..).symm

theorem openChunk_eq (crypto : Crypto) (texts : ChunkTexts) (cipher : Option AeadCipher)
    (chunk : Bytes) :
    ∃ after, openChunk crypto texts cipher chunk.length chunk =
        some (opened crypto texts cipher chunk, after) ∧
      (∀ payload, opened crypto texts cipher chunk = .ok payload →
        after = cipher.map AeadCipher.bump) := by
  cases cipher with
  | none => exact ⟨none, rfl, fun _ _ => rfl⟩
  | some cipher =>
      rw [openChunk, opened]
      split
      · exact ⟨some cipher, rfl, nofun⟩
      · next long =>
          have long : 16 ≤ chunk.length := Nat.le_of_not_lt long
          rw [AeadCipher.decryptInplace_of_le crypto cipher long]
          cases plain : cipher.opened crypto chunk with
          | none => exact ⟨some cipher.bump, rfl, nofun⟩
          | some payload =>
              refine ⟨some cipher.bump, ?_, fun _ _ => rfl⟩
              have size : chunk.length - cipher.bump.security.overheadLen = payload.length := by
                rw [AeadCipher.length_opened plain]
                exact Nat.add_sub_cancel ..
              dsimp only
              rw [size, List.take_left]

/-- Of the chunk at hand, as many bytes are left as the state says. -/
def WellFormed (reader : ChunkReader) : Prop :=
  ∀ size, reader.state = .flushingData size → size = reader.chunk.length

/-- A poll is answered, and leaves a reader that is well formed. -/
def Answered (out : Option (PollRead × ChunkReader × List PollRead)) : Prop :=
  ∃ result after rest, out = some (result, after, rest) ∧ after.WellFormed

theorem pollFlushing_eq (room : Nat) (cipher : Option AeadCipher) (readBuf chunk : Bytes)
    (incoming : List PollRead) :
    pollFlushing room ⟨cipher, .flushingData chunk.length, readBuf, chunk⟩ chunk.length incoming =
      some (.ready (chunk.take room),
        ⟨cipher, if room < chunk.length then .flushingData (chunk.drop room).length
          else .waitingLength, readBuf, chunk.drop room⟩, incoming) := by
  rw [pollFlushing]
  dsimp only
  rw [if_neg (by omega), List.length_drop]
  by_cases short : room < chunk.length
  · rw [Nat.min_eq_left (Nat.le_of_lt short), if_pos short]
  · have long := Nat.le_of_not_lt short
    rw [Nat.min_eq_right long, if_neg (Nat.lt_irrefl _), if_neg short]
    rw [List.take_of_length_le long, List.drop_of_length_le long, List.take_length,
      List.drop_length]

theorem answered_pollFlushing (room : Nat) (cipher : Option AeadCipher) (readBuf chunk : Bytes)
    (incoming : List PollRead) :
    Answered (pollFlushing room ⟨cipher, .flushingData chunk.length, readBuf, chunk⟩ chunk.length
      incoming) := by
  rw [pollFlushing_eq]
  refine ⟨_, _, _, rfl, fun size here => ?_⟩
  change (if _ then _ else _) = _ at here
  split at here
  · cases here
    rfl
  · cases here

theorem answered_pollData (room : Nat) {reader : ChunkReader} {size : Nat}
    (here : reader.state = .waitingData size) (incoming : List PollRead) :
    Answered (pollData crypto texts room reader size incoming) := by
  have fills := ReadAhead.fills_pollFill size false incoming reader.readBuf
  have unserved (readBuf : Bytes) (cipher : Option AeadCipher) :
      WellFormed { reader with cipher, readBuf } := by
    intro size flushing
    cases here.symm.trans flushing
  rw [pollData]
  revert fills
  generalize ReadAhead.pollFill size false incoming reader.readBuf = out
  intro fills
  cases fills with
  | starves | waits | fails | breaks => exact ⟨_, _, _, rfl, unserved _ _⟩
  | ends eaten rest cut pieces grown short clean => cases clean
  | @full filled eaten rest cut pieces grown enough =>
      have whole : (filled.take size).length = size := List.length_take_of_le enough
      obtain ⟨after, opens, -⟩ := openChunk_eq crypto texts reader.cipher (filled.take size)
      rw [whole] at opens
      dsimp only
      rw [if_neg (Nat.not_lt.mpr enough), opens]
      cases said : opened crypto texts reader.cipher (filled.take size) with
      | error error => exact ⟨_, _, _, rfl, unserved _ _⟩
      | ok payload =>
          have size := length_opened said
          rw [whole] at size
          dsimp only
          rw [← size]
          exact answered_pollFlushing room after _ payload rest

theorem answered_pollLength (room : Nat) {reader : ChunkReader}
    (here : reader.state = .waitingLength) (incoming : List PollRead) :
    Answered (pollLength crypto texts room reader incoming) := by
  have fills := ReadAhead.fills_pollFill 2 true incoming reader.readBuf
  have unserved (readBuf : Bytes) : WellFormed { reader with readBuf } := by
    intro size flushing
    cases here.symm.trans flushing
  rw [pollLength]
  revert fills
  generalize ReadAhead.pollFill 2 true incoming reader.readBuf = out
  intro fills
  cases fills with
  | starves | waits | fails | breaks => exact ⟨_, _, _, rfl, unserved _⟩
  | ends => exact ⟨_, _, _, rfl, nofun⟩
  | @full filled eaten rest cut pieces grown enough =>
      match filled, enough with
      | high :: low :: readBuf, _ =>
          dsimp only
          split
          · exact ⟨_, _, _, rfl, unserved _⟩
          · exact answered_pollData room rfl rest

theorem answered_pollRead (room : Nat) {reader : ChunkReader} (wellFormed : reader.WellFormed)
    (incoming : List PollRead) : Answered (pollRead crypto texts room reader incoming) := by
  rw [pollRead]
  obtain ⟨cipher, state, readBuf, chunk⟩ := reader
  cases state with
  | waitingLength => exact answered_pollLength room rfl incoming
  | waitingData size => exact answered_pollData room rfl incoming
  | flushingData size =>
      obtain rfl : size = chunk.length := wellFormed size rfl
      exact answered_pollFlushing room cipher readBuf chunk incoming
  | closed => exact ⟨_, _, _, rfl, wellFormed⟩

end ChunkReader

inductive WriteState where
  | buildingData
  | flushingData (consume written total : Nat)
deriving DecidableEq

structure ChunkWriter where
  cipher : Option AeadCipher
  state : WriteState
  writeBuf : Bytes
deriving DecidableEq

namespace ChunkWriter

def new (cipher : Option AeadCipher) : ChunkWriter := ⟨cipher, .buildingData, []⟩

/-- `BuildingData`: how many bytes the chunk takes, and the writer that flushes
it. -/
def build (crypto : Crypto) (writer : ChunkWriter) (buf : Bytes) : Option (Nat × ChunkWriter) :=
  let overhead := overheadLen writer.cipher
  let consume := min buf.length (chunkSize - overhead)
  let writeBuf := writer.writeBuf ++ u16ToBe (castU16 (consume + overhead))
  let piece := writeBuf.drop 2 ++ buf.take consume ++ List.replicate overhead 0
  let flushing (piece : Bytes) (cipher : Option AeadCipher) : Nat × ChunkWriter :=
    let writeBuf := writeBuf.take 2 ++ piece
    (consume, ⟨cipher, .flushingData consume 0 writeBuf.length, writeBuf⟩)
  match writer.cipher with
  | none => some (flushing piece none)
  | some cipher =>
      (cipher.encryptInplace crypto piece).map fun (piece, cipher) => flushing piece (some cipher)

variable {Sink : Type}

/-- `FlushingData(consume, (written, total))`: the loop writes all that is left,
and something is. -/
def pollFlushing (io : AsyncWrite Sink) (wire : Wire Sink) (writer : ChunkWriter)
    (consume written total : Nat) :
    Option (Poll (Except String Nat) × ChunkWriter × Wire Sink) :=
  if writer.writeBuf.length < total ∨ total < written then none
  else
    match wire.writeAll io ((writer.writeBuf.take total).drop written) with
    | (.ready (.ok ()), _, wire) =>
        some (.ready (.ok consume), { writer with state := .buildingData, writeBuf := [] }, wire)
    | (.ready (.error error), rest, wire) =>
        some (.ready (.error error),
          { writer with state := .flushingData consume (total - rest.length) total }, wire)
    | (.pending, rest, wire) =>
        some (.pending,
          { writer with state := .flushingData consume (total - rest.length) total }, wire)

/-- `poll_write`. -/
def pollWrite (crypto : Crypto) (io : AsyncWrite Sink) (wire : Wire Sink) (writer : ChunkWriter)
    (buf : Bytes) : Option (Poll (Except String Nat) × ChunkWriter × Wire Sink) :=
  match writer.state with
  | .buildingData =>
      (writer.build crypto buf).bind fun (consume, writer) =>
        pollFlushing io wire writer consume 0 writer.writeBuf.length
  | .flushingData consume written total => pollFlushing io wire writer consume written total

end ChunkWriter

/-! The response header, which the server sends before its chunks. -/

structure ResponseKeys where
  respBodyKey : Vector UInt8 16
  respBodyIv : Vector UInt8 16
  respV : UInt8
deriving DecidableEq

namespace ResponseKeys

variable (crypto : Crypto) (keys : ResponseKeys)

def lenKey : Bytes :=
  (Kdf.vmessKdf1OneShot crypto.hmacSha256 keys.respBodyKey.toList
    kdfSaltConstAeadRespHeaderLenKey).toList.take 16

def lenIv : Bytes :=
  (Kdf.vmessKdf1OneShot crypto.hmacSha256 keys.respBodyIv.toList
    kdfSaltConstAeadRespHeaderLenIv).toList.take 12

def payloadKey : Bytes :=
  (Kdf.vmessKdf1OneShot crypto.hmacSha256 keys.respBodyKey.toList
    kdfSaltConstAeadRespHeaderPayloadKey).toList.take 16

def payloadIv : Bytes :=
  (Kdf.vmessKdf1OneShot crypto.hmacSha256 keys.respBodyIv.toList
    kdfSaltConstAeadRespHeaderPayloadIv).toList.take 12

/-- What `send_response_header` writes. -/
def responseHeader : Bytes :=
  let payload := [keys.respV, optionChunkStream, 0, 0]
  crypto.aes128Gcm.encrypt (keys.lenKey crypto) (keys.lenIv crypto)
      (u16ToBe (castU16 payload.length)) ++
    crypto.aes128Gcm.encrypt (keys.payloadKey crypto) (keys.payloadIv crypto) payload

end ResponseKeys

/-- The states of the client before those of its chunks. -/
inductive HeaderState where
  | waitingHeaderSize
  | waitingHeader (size : Nat)
  | done
deriving DecidableEq

/-- The reading half of `VmessStream`. -/
structure VmessReader where
  isAead : Bool
  keys : ResponseKeys
  header : HeaderState
  chunks : ChunkReader
deriving DecidableEq

namespace VmessReader

def texts : ChunkTexts where
  tooLarge := "invalid response - chunk size too large"
  tooShort := "encrypted VMess chunk is shorter than its authentication tag"

variable (crypto : Crypto)

/-- `poll_fill`, and what is done with a buffer that has enough. -/
def filled (count : Nat) (reader : VmessReader) (incoming : List PollRead)
    (go : Bytes → List PollRead → Option (PollRead × VmessReader × List PollRead)) :
    Option (PollRead × VmessReader × List PollRead) :=
  match ReadAhead.pollFill count false incoming reader.chunks.readBuf with
  | (.pending, readBuf, incoming) =>
      some (.pending, { reader with chunks := { reader.chunks with readBuf } }, incoming)
  | (.ready (.error error), readBuf, incoming) =>
      some (.failed error, { reader with chunks := { reader.chunks with readBuf } }, incoming)
  | (.ready (.ok _), readBuf, incoming) =>
      if readBuf.length < count then none else go readBuf incoming

def pollChunks (room : Nat) (reader : VmessReader) (incoming : List PollRead) :
    Option (PollRead × VmessReader × List PollRead) :=
  (reader.chunks.pollRead crypto texts room incoming).map fun (result, chunks, incoming) =>
    (result, { reader with header := .done, chunks }, incoming)

/-- `AeadWaitingHeader(header_size)`. -/
def pollHeader (room : Nat) (reader : VmessReader) (size : Nat) (incoming : List PollRead) :
    Option (PollRead × VmessReader × List PollRead) :=
  reader.filled (size + 16) incoming fun readBuf incoming =>
    let reader := { reader with
      chunks := { reader.chunks with readBuf := readBuf.drop (size + 16) } }
    match crypto.aes128Gcm.decrypt (reader.keys.payloadKey crypto) (reader.keys.payloadIv crypto)
        (readBuf.take (size + 16)) with
    | none => some (.failed crypto.aeadError, reader, incoming)
    | some (version :: _ :: command :: _ :: _) =>
        if version ≠ reader.keys.respV then
          some (.failed "invalid response - version mismatch", reader, incoming)
        else if command ≠ 0 then
          some (.failed "invalid response - dynamic port not supported", reader, incoming)
        else pollChunks crypto room reader incoming
    | some _ => some (.failed "invalid response - header too short", reader, incoming)

/-- `AeadWaitingHeaderSize` of a stream with AEAD. -/
def pollHeaderSize (room : Nat) (reader : VmessReader) (incoming : List PollRead) :
    Option (PollRead × VmessReader × List PollRead) :=
  reader.filled 18 incoming fun readBuf incoming =>
    let reader := { reader with chunks := { reader.chunks with readBuf := readBuf.drop 18 } }
    match crypto.aes128Gcm.decrypt (reader.keys.lenKey crypto) (reader.keys.lenIv crypto)
        (readBuf.take 18) with
    | none => some (.failed crypto.aeadError, reader, incoming)
    | some (high :: low :: _) =>
        let size := (u16FromBe high low).toNat
        pollHeader crypto room { reader with header := .waitingHeader size } size incoming
    | some _ => some (.failed "invalid response header length", reader, incoming)

/-- `AeadWaitingHeaderSize` of a stream without. -/
def pollLegacyHeader (room : Nat) (reader : VmessReader) (incoming : List PollRead) :
    Option (PollRead × VmessReader × List PollRead) :=
  reader.filled 4 incoming fun readBuf incoming =>
    let reader := { reader with chunks := { reader.chunks with readBuf := readBuf.drop 4 } }
    match readBuf with
    | a :: b :: c :: d :: _ =>
        let buf := crypto.aesCfbDecrypt reader.keys.respBodyKey reader.keys.respBodyIv
          #v[a, b, c, d]
        if buf.get 0 ≠ reader.keys.respV then
          some (.failed "invalid response - non aead invalid resp_v", reader, incoming)
        else if buf.get 2 ≠ 0 then
          some (.failed "invalid response - dynamic port not supported", reader, incoming)
        else pollChunks crypto room reader incoming
    | _ => none

/-- `poll_read` of `VmessStream`. -/
def pollRead (room : Nat) (reader : VmessReader) (incoming : List PollRead) :
    Option (PollRead × VmessReader × List PollRead) :=
  match reader.header with
  | .waitingHeaderSize =>
      if reader.isAead then reader.pollHeaderSize crypto room incoming
      else reader.pollLegacyHeader crypto room incoming
  | .waitingHeader size => reader.pollHeader crypto room size incoming
  | .done => reader.pollChunks crypto room incoming

variable {crypto}

def Answered (out : Option (PollRead × VmessReader × List PollRead)) : Prop :=
  ∃ result after rest, out = some (result, after, rest) ∧ after.chunks.WellFormed

theorem answered_filled {count : Nat} {reader : VmessReader}
    (wellFormed : reader.chunks.WellFormed) (incoming : List PollRead)
    {go : Bytes → List PollRead → Option (PollRead × VmessReader × List PollRead)}
    (goes : ∀ readBuf rest, count ≤ readBuf.length → Answered (go readBuf rest)) :
    Answered (reader.filled count incoming go) := by
  have fills := ReadAhead.fills_pollFill count false incoming reader.chunks.readBuf
  rw [filled]
  revert fills
  generalize ReadAhead.pollFill count false incoming reader.chunks.readBuf = out
  intro fills
  cases fills with
  | starves | waits | fails | breaks => exact ⟨_, _, _, rfl, wellFormed⟩
  | ends eaten rest cut pieces grown short clean => cases clean
  | full eaten rest cut pieces grown enough =>
      dsimp only
      rw [if_neg (Nat.not_lt.mpr enough)]
      exact goes _ _ enough

theorem answered_pollChunks (room : Nat) {reader : VmessReader}
    (wellFormed : reader.chunks.WellFormed) (incoming : List PollRead) :
    Answered (reader.pollChunks crypto room incoming) := by
  have answered : ChunkReader.Answered (reader.chunks.pollRead crypto texts room incoming) :=
    ChunkReader.answered_pollRead room wellFormed incoming
  obtain ⟨result, after, rest, same, kept⟩ := answered
  rw [pollChunks, same]
  exact ⟨_, _, _, rfl, kept⟩

theorem answered_pollHeader (room size : Nat) {reader : VmessReader}
    (wellFormed : reader.chunks.WellFormed) (incoming : List PollRead) :
    Answered (reader.pollHeader crypto room size incoming) := by
  refine answered_filled wellFormed incoming fun readBuf rest _ => ?_
  dsimp only
  split
  · exact ⟨_, _, _, rfl, wellFormed⟩
  · split
    · exact ⟨_, _, _, rfl, wellFormed⟩
    · split
      · exact ⟨_, _, _, rfl, wellFormed⟩
      · refine answered_pollChunks room ?_ rest
        exact wellFormed
  · exact ⟨_, _, _, rfl, wellFormed⟩

theorem answered_pollHeaderSize (room : Nat) {reader : VmessReader}
    (wellFormed : reader.chunks.WellFormed) (incoming : List PollRead) :
    Answered (reader.pollHeaderSize crypto room incoming) := by
  refine answered_filled wellFormed incoming fun readBuf rest _ => ?_
  dsimp only
  split
  · exact ⟨_, _, _, rfl, wellFormed⟩
  · refine answered_pollHeader room _ ?_ rest
    exact wellFormed
  · exact ⟨_, _, _, rfl, wellFormed⟩

theorem answered_pollLegacyHeader (room : Nat) {reader : VmessReader}
    (wellFormed : reader.chunks.WellFormed) (incoming : List PollRead) :
    Answered (reader.pollLegacyHeader crypto room incoming) := by
  refine answered_filled wellFormed incoming fun readBuf rest enough => ?_
  match readBuf, enough with
  | a :: b :: c :: d :: _, _ =>
      dsimp only
      split
      · exact ⟨_, _, _, rfl, wellFormed⟩
      · split
        · exact ⟨_, _, _, rfl, wellFormed⟩
        · refine answered_pollChunks room ?_ rest
          exact wellFormed

theorem answered_pollRead (room : Nat) {reader : VmessReader}
    (wellFormed : reader.chunks.WellFormed) (incoming : List PollRead) :
    Answered (reader.pollRead crypto room incoming) := by
  rw [pollRead]
  split
  · split
    · exact answered_pollHeaderSize room wellFormed incoming
    · exact answered_pollLegacyHeader room wellFormed incoming
  · exact answered_pollHeader room _ wellFormed incoming
  · exact answered_pollChunks room wellFormed incoming

end VmessReader

/-! The two ends. -/

structure VmessStream where
  reader : VmessReader
  writer : ChunkWriter
deriving DecidableEq

/-- `VmessStream::new`, up to the request that it sends. -/
def VmessStream.new (crypto : Crypto) (reqBodyKey reqBodyIv : Vector UInt8 16) (respV : UInt8)
    (security : UInt8) (isAead : Bool) : Except String VmessStream :=
  let keys := clientBodyKeys crypto isAead reqBodyKey reqBodyIv
  (clientCiphers crypto keys security).map fun ciphers =>
    { reader := ⟨isAead, ⟨keys.respBodyKey, keys.respBodyIv, respV⟩, .waitingHeaderSize,
        .new ciphers.response⟩
      writer := .new ciphers.request }

structure VmessServerStream where
  keys : ResponseKeys
  reader : ChunkReader
  writer : ChunkWriter
deriving DecidableEq

namespace VmessServerStream

def texts : ChunkTexts where
  tooLarge := "vmess chunk too large"
  tooShort := "vmess chunk shorter than tag"

/-- `VmessServerStream::new`. -/
def new (crypto : Crypto) (reqBodyKey reqBodyIv : Vector UInt8 16) (respV : UInt8)
    (security : UInt8) : VmessServerStream :=
  let keys := aeadBodyKeys crypto reqBodyKey reqBodyIv
  let ciphers := serverCiphers crypto keys security
  { keys := ⟨keys.respBodyKey, keys.respBodyIv, respV⟩
    reader := .new ciphers.request
    writer := .new ciphers.response }

/-- `poll_read` of the server. -/
def pollRead (crypto : Crypto) :
    Nat → ChunkReader → List PollRead → Option (PollRead × ChunkReader × List PollRead) :=
  ChunkReader.pollRead crypto texts

end VmessServerStream

end Vmess

end QuicProxy
