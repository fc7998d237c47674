import QuicProxy.Proxy.Vmess.Response

namespace QuicProxy

/-! A VMess connection once the request is read: the requests go up, the response
header and the responses come down. -/

namespace Vmess

/-- Nothing comes before the chunks of the requests. -/
def NoGreeting (_ : Bytes) : Prop := False

def requests (crypto : Crypto) : Framed.Framing Phase :=
  framing crypto VmessServerStream.texts (show ¬NoGreeting [] from id)

structure Tunnel (Up Down : Type) where
  up : Framed.Link ChunkWriter ChunkReader Up
  down : Framed.Link ChunkWriter VmessReader Down

inductive TunnelEvent where
  | up (event : Framed.LinkEvent)
  | down (event : Framed.LinkEvent)
deriving DecidableEq

/-- A poll of `poll_write` on top of a stream in this state. -/
def pollWrite {Sink : Type} (crypto : Crypto) (io : AsyncWrite Sink) (sink : Sink)
    (writer : ChunkWriter) (buf : Bytes) :
    Option (Poll (Except String Nat) × ChunkWriter × Wire Sink) :=
  writer.pollWrite crypto io (.opened sink) buf

def pollRead (crypto : Crypto) (room : Nat) (reader : VmessReader) (incoming : List PollRead) :
    Option (PollRead × VmessReader × List PollRead) :=
  reader.pollRead crypto room incoming

/-- The two counters, with their keys: a chunk that is not flushed has been
counted by the writer only. -/
def InStep {Reader Sink : Type} (cipher : Reader → Option AeadCipher)
    (link : Framed.Link ChunkWriter Reader Sink) : Prop :=
  link.writer.cipher =
    if link.pending = none then cipher link.reader
    else (cipher link.reader).map AeadCipher.bump

namespace Tunnel

variable {Up Down : Type} (crypto : Crypto) (up : AsyncWrite Up) (down : AsyncWrite Down)

def step (tunnel : Tunnel Up Down) : TunnelEvent → Option (Tunnel Up Down)
  | .up event =>
      (tunnel.up.step up (pollWrite crypto up) (VmessServerStream.pollRead crypto) event).map
        fun link => { tunnel with up := link }
  | .down event =>
      (tunnel.down.step down (pollWrite crypto down) (pollRead crypto) event).map
        fun link => { tunnel with down := link }

/-- The server has sent its header: `send_response_header` ends when all of it is
written. -/
def start (client : VmessStream) (server : VmessServerStream) (upSink : Up) (downSink : Down) :
    Tunnel Up Down where
  up := ⟨client.writer, upSink, none, [], false, [], server.reader, [], []⟩
  down := ⟨server.writer, downSink, none, server.keys.responseHeader crypto, false, [],
    client.reader, [], []⟩

structure Faithful (tunnel : Tunnel Up Down) : Prop where
  up : Framed.Link.Faithful up (pollWrite crypto up) (VmessServerStream.pollRead crypto)
    (InStep ChunkReader.cipher) tunnel.up
  down : Framed.Link.Faithful down (pollWrite crypto down) (pollRead crypto)
    (InStep (·.chunks.cipher)) tunnel.down

end Tunnel

variable {crypto : Crypto}

theorem carries_up {Up : Type} (crypto : Crypto) (cipher : Option AeadCipher) (sink : Up) :
    Framed.Link.Carries (requests crypto) ChunkReader.view ChunkWriter.At ChunkWriter.limit
      ⟨.new cipher, sink, none, [], false, [], .new cipher, [], []⟩ ⟨.new cipher, [], [], []⟩
        (.chunks cipher) [] := by
  have here : ChunkReader.At (.new cipher) [] (.chunks cipher) [] := .length cipher [] []
  have opened : (ChunkReader.new cipher).state ≠ .closed := nofun
  exact .start here rfl opened (.nil _) (.building cipher) sink

theorem carries_down {Down : Type} (inverts : crypto.Inverts) (keys : ResponseKeys)
    (cipher : Option AeadCipher) (sink : Down) :
    Framed.Link.Carries (VmessReader.responses crypto keys) (VmessReader.view crypto keys)
      ChunkWriter.At ChunkWriter.limit
      ⟨.new cipher, sink, none, keys.responseHeader crypto, false, [],
        ⟨true, keys, .waitingHeaderSize, .new cipher⟩, [], []⟩
      ⟨⟨true, keys, .waitingHeaderSize, .new cipher⟩, [], [], []⟩ (.chunks cipher) [] := by
  have here : VmessReader.At crypto keys ⟨true, keys, .waitingHeaderSize, .new cipher⟩ []
      (.greeting cipher) [] := .headerSize cipher [] []
  have greeting : Silent (keys.Greeting crypto) (.greeting cipher) (keys.responseHeader crypto)
      (.chunks cipher) := .greeting cipher (ResponseKeys.greeting_responseHeader inverts)
  have opened : (ChunkReader.new cipher).state ≠ .closed := nofun
  exact .start here rfl opened (.silent greeting) (.building cipher) sink

theorem ChunkWriter.At.cipher {writer : ChunkWriter} {phase : Phase}
    {rest : Option (Bytes × Nat)} (here : writer.At phase rest) : writer.cipher = phase.cipher := by
  cases here <;> rfl

section InStep

variable {texts : ChunkTexts} {Greeting : Bytes → Prop} {spoken : ¬Greeting []}

theorem cipher_of_silent {phase middle : Phase} {bytes : Bytes}
    (frames : Framed.Frames (framing crypto texts spoken) phase bytes [] middle) :
    phase.cipher = middle.cipher := by
  generalize none : ([] : List Bytes) = payloads at frames
  induction frames with
  | nil phase => rfl
  | cons first rest ih => cases none
  | skip first rest ih =>
      change Silent Greeting _ _ _ at first
      cases first with
      | greeting cipher greets => exact ih none

theorem inStep_of_view {Reader Sink : Type} {view : Framed.ReaderView Phase Reader}
    {cipher : Reader → Option AeadCipher}
    (seen : ∀ {reader begun phase}, view.At reader begun phase [] → cipher reader = phase.cipher)
    (link : Framed.Link ChunkWriter Reader Sink)
    (inStep : Framed.Link.InStep (framing crypto texts spoken) view ChunkWriter.At link) :
    InStep cipher link := by
  obtain ⟨begun, phase, silent, middle, here, frames, state⟩ := inStep
  rw [InStep, seen here, cipher_of_silent frames]
  rcases state with ⟨idle, writer⟩ | ⟨busy, frame, payload, next, rest, whole, writer⟩
  · rw [if_pos idle]
    exact writer.cipher
  · rw [if_neg (Option.isSome_iff_ne_none.mp busy)]
    change Frame crypto texts _ _ _ _ at whole
    cases whole with
    | chunk => exact writer.cipher

end InStep

structure Tunnel.Carried {Up Down : Type} (crypto : Crypto) (keys : ResponseKeys)
    (tunnel : Tunnel Up Down) : Prop where
  up : tunnel.up.Carried (requests crypto) ChunkReader.view ChunkWriter.At ChunkWriter.limit
  down : tunnel.down.Carried (VmessReader.responses crypto keys) (VmessReader.view crypto keys)
    ChunkWriter.At ChunkWriter.limit

theorem Tunnel.Carried.step {Up Down : Type} (inverts : crypto.Inverts) {up : AsyncWrite Up}
    {down : AsyncWrite Down} {keys : ResponseKeys} {tunnel next : Tunnel Up Down}
    {event : TunnelEvent} (carried : tunnel.Carried crypto keys)
    (taken : tunnel.step crypto up down event = some next) : next.Carried crypto keys := by
  cases event with
  | up event =>
      obtain ⟨link, moved, rfl⟩ := Option.map_eq_some_iff.mp taken
      exact ⟨carried.up.step up ChunkReader.reads_pollRead
        (ChunkWriter.writes_pollWrite inverts up) moved, carried.down⟩
  | down event =>
      obtain ⟨link, moved, rfl⟩ := Option.map_eq_some_iff.mp taken
      exact ⟨carried.up, carried.down.step down VmessReader.reads_pollRead
        (ChunkWriter.writes_pollWrite inverts down) moved⟩

theorem Tunnel.Carried.faithful {Up Down : Type} (inverts : crypto.Inverts) (up : AsyncWrite Up)
    (down : AsyncWrite Down) {keys : ResponseKeys} {tunnel : Tunnel Up Down}
    (carried : tunnel.Carried crypto keys) : tunnel.Faithful crypto up down := by
  refine ⟨carried.up.faithful up ChunkReader.reads_pollRead
    (ChunkWriter.writes_pollWrite inverts up) (inStep_of_view ?_),
    carried.down.faithful down VmessReader.reads_pollRead
      (ChunkWriter.writes_pollWrite inverts down) (inStep_of_view ?_)⟩
  · intro reader begun other here
    cases here <;> rfl
  · intro reader begun other here
    cases here with
    | headerSize | header => rfl
    | chunks chunks here => cases here <;> rfl

theorem robust_server (cipher : Option AeadCipher) :
    Framed.Reading.Robust (requests crypto) (VmessServerStream.pollRead crypto) (.new cipher)
      (.chunks cipher) := by
  refine Framed.Reading.robust_of_reads ChunkReader.reads_pollRead (.length cipher [] []) rfl nofun
    fun incoming rooms => ?_
  have start : (ChunkReader.new cipher).WellFormed := nofun
  exact Framed.readMany_isSome
    (fun room reader incoming wellFormed => ChunkReader.answered_pollRead room wellFormed incoming)
    start incoming rooms

theorem robust_client (keys : ResponseKeys) (cipher : Option AeadCipher) :
    Framed.Reading.Robust (VmessReader.responses crypto keys) (pollRead crypto)
      ⟨true, keys, .waitingHeaderSize, .new cipher⟩ (.greeting cipher) := by
  refine Framed.Reading.robust_of_reads VmessReader.reads_pollRead (.headerSize cipher [] []) rfl
    nofun fun incoming rooms => ?_
  have start : (ChunkReader.new cipher).WellFormed := nofun
  have answered (room : Nat) (reader : VmessReader) (incoming : List PollRead)
      (wellFormed : reader.chunks.WellFormed) :
      VmessReader.Answered (pollRead crypto room reader incoming) :=
    VmessReader.answered_pollRead room wellFormed incoming
  exact Framed.readMany_isSome answered start incoming rooms

theorem new_eq {reqBodyKey reqBodyIv : Vector UInt8 16} {respV security : UInt8}
    {client : VmessStream}
    (agreed : VmessStream.new crypto reqBodyKey reqBodyIv respV security true = .ok client) :
    ∃ (keys : ResponseKeys) (ciphers : BodyCiphers),
      clientCiphers crypto (clientBodyKeys crypto true reqBodyKey reqBodyIv) security =
          .ok ciphers ∧
        client = ⟨⟨true, keys, .waitingHeaderSize, .new ciphers.response⟩, .new ciphers.request⟩ ∧
          VmessServerStream.new crypto reqBodyKey reqBodyIv respV security =
            ⟨keys, .new ciphers.request, .new ciphers.response⟩ := by
  unfold VmessStream.new at agreed
  dsimp only at agreed
  cases supported : clientCiphers crypto (clientBodyKeys crypto true reqBodyKey reqBodyIv)
      security with
  | error error =>
      rw [supported] at agreed
      cases agreed
  | ok ciphers =>
      rw [supported] at agreed
      cases agreed
      refine ⟨_, ciphers, rfl, rfl, ?_⟩
      have same := clientCiphers_eq supported
      unfold VmessServerStream.new
      change VmessServerStream.mk _ (.new (serverCiphers crypto (clientBodyKeys crypto true
        reqBodyKey reqBodyIv) security).request) (.new (serverCiphers crypto (clientBodyKeys crypto
          true reqBodyKey reqBodyIv) security).response) = _
      rw [same]
      rfl

/-- In every run of a connection on whose security both sides agree, in both
directions; and of every other stream of bytes, the chunks are given, and then
an error. -/
theorem fidelity {Up Down : Type} (inverts : crypto.Inverts) (up : AsyncWrite Up)
    (down : AsyncWrite Down) {reqBodyKey reqBodyIv : Vector UInt8 16} {respV security : UInt8}
    {client : VmessStream}
    (agreed : VmessStream.new crypto reqBodyKey reqBodyIv respV security true = .ok client) :
    let server := VmessServerStream.new crypto reqBodyKey reqBodyIv respV security
    (∀ upSink downSink events final, Machine.run (Tunnel.step crypto up down)
      (Tunnel.start crypto client server upSink downSink) events = some final →
        final.Faithful crypto up down) ∧
    Framed.Reading.Robust (requests crypto) (VmessServerStream.pollRead crypto) server.reader
      (.chunks server.reader.cipher) ∧
    Framed.Reading.Robust (VmessReader.responses crypto server.keys) (pollRead crypto)
      client.reader (.greeting client.reader.chunks.cipher) ∧
    ∀ cipher, Framed.Decided (requests crypto) (.chunks cipher) ∧
      Framed.Decided (VmessReader.responses crypto server.keys) (.chunks cipher) := by
  obtain ⟨keys, ciphers, -, rfl, server⟩ := new_eq agreed
  dsimp only
  rw [server]
  refine ⟨fun upSink downSink events final ran => ?_, robust_server _, robust_client keys _,
    fun cipher => ⟨decided _ _ _ cipher, decided _ _ _ cipher⟩⟩
  have start : (Tunnel.start crypto ⟨⟨true, keys, .waitingHeaderSize, .new ciphers.response⟩,
      .new ciphers.request⟩ ⟨keys, .new ciphers.request, .new ciphers.response⟩ upSink
        downSink).Carried crypto keys :=
    ⟨⟨_, _, _, carries_up crypto _ upSink⟩, ⟨_, _, _, carries_down inverts keys _ downSink⟩⟩
  have carried : final.Carried crypto keys :=
    Machine.run_invariant (Tunnel.Carried crypto keys) (fun here taken => here.step inverts taken)
      start ran
  exact carried.faithful inverts up down

/-- A cipher that leaves the message as it is, with a tag of zeros. -/
def markingAead : Aead where
  encryptInPlaceDetached _ _ _ msg := (msg, List.replicate 16 0)
  decryptInPlaceDetached _ _ _ msg tag := if tag = List.replicate 16 0 then some msg else none
  length_encrypt _ _ _ _ := rfl
  length_tag _ _ _ _ := rfl
  length_decrypt _ _ _ msg tag plain opened := by
    split at opened
    · cases opened
      rfl
    · cases opened

def markingCrypto : Crypto where
  aes128Gcm := markingAead
  chacha20Poly1305 := markingAead
  aeadError := "aead::Error"
  sha256 _ := Vector.replicate 32 0
  md5 _ := Vector.replicate 16 0
  hmacSha256 _ _ := Vector.replicate 32 0
  aesCfbDecrypt _ _ data := data

theorem inverts_markingCrypto : markingCrypto.Inverts :=
  have inverts : markingAead.Inverts := by
    intro key nonce aad msg
    change (if List.replicate 16 (0 : UInt8) = List.replicate 16 0 then some msg else none) =
      some msg
    exact if_pos rfl
  ⟨inverts, inverts⟩

/-- A stream that takes three bytes at every other poll. -/
def slowWrite : AsyncWrite Bool where
  pollWrite ready buf :=
    (if ready then .ready (.ok ⟨min 3 buf.length, by omega⟩) else .pending, !ready)
  pollWriteVectored ready bufs :=
    (if ready then .ready (.ok ⟨min 3 bufs.flatten.length, by omega⟩) else .pending, !ready)
  pollFlush ready := (.ready (.ok ()), ready)
  pollShutdown ready := (.ready (.ok ()), ready)

/-- A request of two bytes without encryption, in pieces. -/
def twoBytes : List TunnelEvent :=
  [.up (.write [104, 105]), .up (.write [104, 105]), .up (.arrive (.ready [0])),
    .up (.arrive .pending), .up (.arrive (.ready [2, 104, 105])), .up (.read 8), .up (.read 1),
    .up (.read 8)]

theorem fidelity_twoBytes :
    ∃ client final, VmessStream.new markingCrypto (.replicate 16 1) (.replicate 16 2) 3 securityNone
        true = .ok client ∧
      Machine.run (Tunnel.step markingCrypto slowWrite slowWrite)
        (Tunnel.start markingCrypto client (VmessServerStream.new markingCrypto (.replicate 16 1)
          (.replicate 16 2) 3 securityNone) true true) twoBytes = some final ∧
        final.up.delivered = [104, 105] ∧ final.Faithful markingCrypto slowWrite slowWrite := by
  let client : VmessStream := ⟨⟨true, ⟨.replicate 16 0, .replicate 16 0, 3⟩, .waitingHeaderSize,
    .new none⟩, .new none⟩
  have agreed : VmessStream.new markingCrypto (.replicate 16 1) (.replicate 16 2) 3 securityNone
      true = .ok client := rfl
  have delivered : (Machine.run (Tunnel.step markingCrypto slowWrite slowWrite)
      (Tunnel.start markingCrypto client (VmessServerStream.new markingCrypto (.replicate 16 1)
        (.replicate 16 2) 3 securityNone) true true) twoBytes).map (·.up.delivered) =
          some [104, 105] := by
    decide +kernel
  obtain ⟨final, ran, bytes⟩ := Option.map_eq_some_iff.mp delivered
  exact ⟨client, final, agreed, ran, bytes,
    (fidelity inverts_markingCrypto slowWrite slowWrite agreed).1 true true twoBytes final ran⟩

end Vmess

end QuicProxy
