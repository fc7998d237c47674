import QuicProxy.Proxy.AddressRead
import QuicProxy.Proxy.Observe.Users
import QuicProxy.Proxy.Vmess.Fidelity
import QuicProxy.Proxy.Vmess.Header
import QuicProxy.Proxy.Vmess.Kdf

namespace QuicProxy

/-! The VMess handshake: the sealed request header of the client
(`src/proxy/outbound/vmess/vmess_impl/header.rs`, `stream.rs`) and `accept`, which
tries the key of every user on it (`src/proxy/inbound/vmess.rs`). -/

namespace Vmess

namespace Aead

/-- `aes_gcm_encrypt`, with associated data. -/
def sealWith (aead : Aead) (key nonce aad plaintext : Bytes) : Bytes :=
  (aead.encryptInPlaceDetached key nonce aad plaintext).1 ++
    (aead.encryptInPlaceDetached key nonce aad plaintext).2

/-- `aes_gcm_decrypt`, with associated data. -/
def openWith (aead : Aead) (key nonce aad ciphertext : Bytes) : Option Bytes :=
  if ciphertext.length < 16 then none
  else
    aead.decryptInPlaceDetached key nonce aad (ciphertext.take (ciphertext.length - 16))
      (ciphertext.drop (ciphertext.length - 16))

theorem length_sealWith (aead : Aead) (key nonce aad plaintext : Bytes) :
    (aead.sealWith key nonce aad plaintext).length = plaintext.length + 16 := by
  rw [sealWith, List.length_append, aead.length_encrypt, aead.length_tag]

theorem openWith_sealWith {aead : Aead} (inverts : aead.Inverts)
    (key nonce aad plaintext : Bytes) :
    aead.openWith key nonce aad (aead.sealWith key nonce aad plaintext) = some plaintext := by
  have cut : (aead.sealWith key nonce aad plaintext).length - 16 =
      (aead.encryptInPlaceDetached key nonce aad plaintext).1.length := by
    rw [length_sealWith, aead.length_encrypt]
    omega
  rw [openWith, if_neg (by rw [length_sealWith]; omega), cut]
  rw [sealWith, List.take_left, List.drop_left]
  exact inverts key nonce aad plaintext

end Aead

def kdfSaltConstAuthIdEncryptionKey : Bytes := asBytes "AES Auth ID Encryption"

def kdfSaltConstVmessHeaderPayloadAeadKey : Bytes := asBytes "VMess Header AEAD Key"

def kdfSaltConstVmessHeaderPayloadAeadIv : Bytes := asBytes "VMess Header AEAD Nonce"

def kdfSaltConstVmessHeaderPayloadLengthAeadKey : Bytes := asBytes "VMess Header AEAD Key_Length"

def kdfSaltConstVmessHeaderPayloadLengthAeadIv : Bytes := asBytes "VMess Header AEAD Nonce_Length"

section Sealing

variable (crypto : Crypto)

/-- The block cipher and the checksum of an authentication id. -/
structure AuthIds where
  aes128 : (key block : Bytes) → Vector UInt8 16
  crc32 : Bytes → UInt32

/-- `random` is what the generator gives. -/
def createAuthId (ids : AuthIds) (cmdKey : Bytes) (timestamp : UInt64)
    (random : Vector UInt8 4) : Vector UInt8 16 :=
  let buf := u64ToBe timestamp ++ random.toList
  let pk := (Kdf.vmessKdf1OneShot crypto.hmacSha256 cmdKey
    kdfSaltConstAuthIdEncryptionKey).toList.take 16
  ids.aes128 pk (buf ++ u32ToBe (ids.crc32 buf))

/-- The two random values that stand in front of a header. -/
structure Salts where
  authId : Vector UInt8 16
  connectionNonce : Vector UInt8 8
deriving DecidableEq

def derived (cmdKey salt : Bytes) (salts : Salts) (count : Nat) : Bytes :=
  (Kdf.vmessKdf3OneShot crypto.hmacSha256 cmdKey salt salts.authId.toList
    salts.connectionNonce.toList).toList.take count

def encLen (cmdKey : Bytes) (salts : Salts) (data : Bytes) : Bytes :=
  crypto.aes128Gcm.sealWith
    (derived crypto cmdKey kdfSaltConstVmessHeaderPayloadLengthAeadKey salts 16)
    (derived crypto cmdKey kdfSaltConstVmessHeaderPayloadLengthAeadIv salts 12)
    salts.authId.toList (u16ToBe (castU16 data.length))

def encHeader (cmdKey : Bytes) (salts : Salts) (data : Bytes) : Bytes :=
  crypto.aes128Gcm.sealWith
    (derived crypto cmdKey kdfSaltConstVmessHeaderPayloadAeadKey salts 16)
    (derived crypto cmdKey kdfSaltConstVmessHeaderPayloadAeadIv salts 12)
    salts.authId.toList data

def sealVmessAeadHeader (cmdKey : Bytes) (salts : Salts) (data : Bytes) : Bytes :=
  salts.authId.toList ++ encLen crypto cmdKey salts data ++ salts.connectionNonce.toList ++
    encHeader crypto cmdKey salts data

/-- What the request is made of besides its stream. -/
structure Drawn where
  timestamp : UInt64
  random : Vector UInt8 4
  connectionNonce : Vector UInt8 8
  padding : Padding

def Drawn.salts (ids : AuthIds) (cmdKey : Bytes) (drawn : Drawn) : Salts :=
  ⟨createAuthId crypto ids cmdKey drawn.timestamp drawn.random, drawn.connectionNonce⟩

/-- `send_handshake_request` of a client with AEAD headers. -/
def sendHandshakeRequest (ids : AuthIds) (fnv1a : Bytes → UInt32) (cmdKey : Bytes)
    (stream : Handshake) (drawn : Drawn) : Bytes :=
  sealVmessAeadHeader crypto cmdKey (drawn.salts crypto ids cmdKey)
    (stream.header fnv1a drawn.padding)

/-! The server. -/

def openLen (cmdKey : Bytes) (salts : Salts) (encLen : Bytes) : Option UInt16 :=
  (crypto.aes128Gcm.openWith
    (derived crypto cmdKey kdfSaltConstVmessHeaderPayloadLengthAeadKey salts 16)
    (derived crypto cmdKey kdfSaltConstVmessHeaderPayloadLengthAeadIv salts 12)
    salts.authId.toList encLen).bind fun plain =>
      match plain with
      | high :: low :: _ => some (u16FromBe high low)
      | _ => none

/-- The first user whose key opens the length; users without a UUID for a name are
passed over. -/
def authenticated (hashes : Hashes) (salts : Salts) (encLen : Bytes) :
    List AuthUser → Option (Bytes × UInt16)
  | [] => none
  | user :: users =>
      match hashes.parseUuid user.username with
      | .error _ => authenticated hashes salts encLen users
      | .ok uuid =>
          match openLen crypto (hashes.cmdKey uuid) salts encLen with
          | some len => some (hashes.cmdKey uuid, len)
          | none => authenticated hashes salts encLen users

structure Admitted where
  dst : TargetAddr
  isUdp : Bool
  stream : VmessServerStream
  user : Option String
deriving DecidableEq

def toArray16 (bytes : Bytes) : Vector UInt8 16 := Vector.ofFn fun index => bytes.getD index 0

def serverStream (request : VmessRequest) : VmessServerStream :=
  .new crypto (toArray16 request.reqBodyKey) (toArray16 request.reqBodyIv) request.respV
    request.security

/-- The stream and its response header, once the request is read. -/
def respond (user : Option String) (request : VmessRequest) : ByteParty Admitted := do
  Party.writeAll ((serverStream crypto request).keys.responseHeader crypto)
  pure ⟨request.dst, request.isUdp, serverStream crypto request, user⟩

def acceptHeader (user : Option String) (cmdKey : Bytes) (salts : Salts) (encHeader : Bytes) :
    ByteParty Admitted :=
  match crypto.aes128Gcm.openWith
      (derived crypto cmdKey kdfSaltConstVmessHeaderPayloadAeadKey salts 16)
      (derived crypto cmdKey kdfSaltConstVmessHeaderPayloadAeadIv salts 12)
      salts.authId.toList encHeader with
  | none => Party.throw "vmess header payload decrypt"
  | some header =>
      match parseRequest header with
      | some (.ok request) => respond crypto user request
      | some (.error error) => Party.throw error
      | none => Party.throw "panic"

/-- The users of an inbound, and what the observer answers to a key. -/
structure Users where
  hashes : Hashes
  users : List AuthUser
  authenticate : Bytes → Option String

def acceptUser (accounts : Users) (salts : Salts) (encLen : Bytes) : ByteParty Admitted :=
  match authenticated crypto accounts.hashes salts encLen accounts.users with
  | none => Party.throw "VMess authentication failed"
  | some (cmdKey, headerLen) => do
      let encHeader ← ByteParty.readExact (headerLen.toNat + 16)
      acceptHeader crypto (accounts.authenticate cmdKey) cmdKey salts encHeader

def toArray8 (bytes : Bytes) : Vector UInt8 8 := Vector.ofFn fun index => bytes.getD index 0

def accept (accounts : Users) : ByteParty Admitted := do
  let start ← ByteParty.readExact 42
  acceptUser crypto accounts ⟨toArray16 (start.take 16), toArray8 (start.drop 34)⟩
    ((start.drop 16).take 18)

end Sealing

/-! The keys that a user list holds. -/

def keysOf (hashes : Hashes) : List AuthUser → List Bytes
  | [] => []
  | user :: users =>
      match hashes.parseUuid user.username with
      | .error _ => keysOf hashes users
      | .ok uuid => hashes.cmdKey uuid :: keysOf hashes users

def Users.keys (accounts : Users) : List Bytes := keysOf accounts.hashes accounts.users

variable {crypto : Crypto} {cmdKey : Bytes} {salts : Salts}

theorem authenticated_eq (crypto : Crypto) (hashes : Hashes) (salts : Salts) (encLen : Bytes)
    (users : List AuthUser) :
    authenticated crypto hashes salts encLen users =
      (keysOf hashes users).findSome? fun key =>
        (openLen crypto key salts encLen).map fun len => (key, len) := by
  induction users with
  | nil => rfl
  | cons user users ih =>
      rw [authenticated, keysOf]
      cases hashes.parseUuid user.username with
      | error _ => exact ih
      | ok uuid =>
          dsimp only
          rw [List.findSome?_cons]
          cases openLen crypto (hashes.cmdKey uuid) salts encLen with
          | some len => rfl
          | none => exact ih

/-- The key of the client is the only one of the list that opens its length. -/
def OnlyOpens (crypto : Crypto) (keys : List Bytes) (cmdKey : Bytes) (salts : Salts)
    (encLen : Bytes) : Prop :=
  ∀ key ∈ keys, key ≠ cmdKey → openLen crypto key salts encLen = none

theorem findSome_of_onlyOpens {encLen : Bytes} {len : UInt16}
    (opens : openLen crypto cmdKey salts encLen = some len) {keys : List Bytes}
    (only : OnlyOpens crypto keys cmdKey salts encLen) :
    (keys.findSome? fun key => (openLen crypto key salts encLen).map fun len => (key, len)) =
      if cmdKey ∈ keys then some (cmdKey, len) else none := by
  induction keys with
  | nil => rfl
  | cons key keys ih =>
      rw [List.findSome?_cons]
      by_cases same : key = cmdKey
      · subst same
        rw [opens, if_pos List.mem_cons_self]
        rfl
      · rw [only key List.mem_cons_self same, Option.map_none,
          ih fun key later => only key (List.mem_cons_of_mem _ later)]
        simp only [List.mem_cons, Ne.symm same, false_or]

theorem openLen_encLen (inverts : crypto.Inverts) (cmdKey : Bytes) (salts : Salts)
    (data : Bytes) :
    openLen crypto cmdKey salts (encLen crypto cmdKey salts data) =
      some (castU16 data.length) := by
  rw [openLen, encLen, Aead.openWith_sealWith inverts.aes128Gcm, Option.bind_some]
  obtain ⟨high, low, split, value⟩ := u16ToBe_eq (castU16 data.length)
  rw [split, ← value]

theorem length_encLen (crypto : Crypto) (cmdKey : Bytes) (salts : Salts) (data : Bytes) :
    (encLen crypto cmdKey salts data).length = 18 := by
  rw [encLen, Aead.length_sealWith, length_u16ToBe]

theorem length_writeToBuf {target : TargetAddr} (short : target.ShortName) :
    (writeToBuf target).length ≤ 259 := by
  match target with
  | .ip (.v4 addr port) =>
      rw [writeToBuf, List.length_append, length_u16ToBe, List.length_cons,
        Ipv4Addr.length_octets]
      decide
  | .ip (.v6 addr port _ _) =>
      rw [writeToBuf, List.length_append, length_u16ToBe, List.length_cons,
        Ipv6Addr.flatMap_segments, addr.length_octets]
      decide
  | .domain name port =>
      have bound : (asBytes name).length ≤ 255 := short
      rw [writeToBuf, List.length_append, length_u16ToBe, List.length_cons, List.length_cons]
      omega

theorem Handshake.length_header {stream : Handshake} (short : stream.dst.ShortName)
    (fnv1a : Bytes → UInt32) (padding : Padding) :
    (castU16 (stream.header fnv1a padding).length).toNat =
      (stream.header fnv1a padding).length := by
  have address := length_writeToBuf short
  have few := padding.short
  rw [toNat_castU16]
  refine Nat.mod_eq_of_lt ?_
  rw [header, summed_append]
  simp only [List.length_cons, List.length_append, Vector.length_toList, length_u32ToBe]
  omega

theorem toArray16_toList (bytes : Vector UInt8 16) : toArray16 bytes.toList = bytes := by
  ext index within
  simp [toArray16]

theorem toArray8_toList (bytes : Vector UInt8 8) : toArray8 bytes.toList = bytes := by
  ext index within
  simp [toArray8]

theorem serverStream_request (crypto : Crypto) (stream : Handshake) (dst : TargetAddr) :
    serverStream crypto (stream.request dst) =
      .new crypto stream.reqBodyKey stream.reqBodyIv stream.respV stream.security := by
  rw [serverStream, Handshake.request, toArray16_toList, toArray16_toList]

/-! The two ends. -/

open Dialogue

variable {stream : Handshake} {accounts : Users}

theorem advances_respond (crypto : Crypto) (user : Option String) (request : VmessRequest) :
    (respond crypto user request).Advances []
      ((serverStream crypto request).keys.responseHeader crypto)
      (pure ⟨request.dst, request.isUdp, serverStream crypto request, user⟩) :=
  (Party.Advances.writeAll ((serverStream crypto request).keys.responseHeader crypto)).bind
    fun _ => (pure ⟨request.dst, request.isUdp, serverStream crypto request, user⟩ :
      ByteParty Admitted)

theorem acceptHeader_sealed (inverts : crypto.Inverts) (short : stream.dst.ShortName)
    (fnv1a : Bytes → UInt32) (padding : Padding) (user : Option String) :
    acceptHeader crypto user cmdKey salts
        (encHeader crypto cmdKey salts (stream.header fnv1a padding)) =
      respond crypto user (stream.request (decoded stream.dst)) := by
  rw [acceptHeader, encHeader, Aead.openWith_sealWith inverts.aes128Gcm]
  dsimp only
  rw [(parseRequest_reads fnv1a).1 stream padding short]

theorem sealed_split (crypto : Crypto) (cmdKey : Bytes) (salts : Salts) (data : Bytes) :
    ∃ front, sealVmessAeadHeader crypto cmdKey salts data =
        front ++ encHeader crypto cmdKey salts data ∧ front.length = 42 ∧
      toArray16 (front.take 16) = salts.authId ∧
      (front.drop 16).take 18 = encLen crypto cmdKey salts data ∧
      toArray8 (front.drop 34) = salts.connectionNonce := by
  have id : salts.authId.toList.length = 16 := Vector.length_toList ..
  have len := length_encLen crypto cmdKey salts data
  have nonce : salts.connectionNonce.toList.length = 8 := Vector.length_toList ..
  refine ⟨salts.authId.toList ++ (encLen crypto cmdKey salts data ++
    salts.connectionNonce.toList), ?_, ?_, ?_, ?_, ?_⟩
  · rw [sealVmessAeadHeader]
    simp only [List.append_assoc]
  · rw [List.length_append, List.length_append, id, len, nonce]
  · rw [List.take_left' id, toArray16_toList]
  · rw [List.drop_left' id, List.take_left' len]
  · rw [show (34 : Nat) = 16 + 18 from rfl, ← List.drop_drop, List.drop_left' id,
      List.drop_left' len, toArray8_toList]

/-- What the two come to: the stream that reads what this client writes, or a refusal
after the first part. -/
def acceptOutcome (crypto : Crypto) (accounts : Users) (cmdKey : Bytes) (stream : Handshake)
    (encHeader payload : Bytes) : Dialogue UInt8 String Unit Admitted :=
  let server := VmessServerStream.new crypto stream.reqBodyKey stream.reqBodyIv stream.respV
    stream.security
  if cmdKey ∈ accounts.keys then
    ⟨pure (), pure ⟨decoded stream.dst, stream.isUdp, server, accounts.authenticate cmdKey⟩,
      server.keys.responseHeader crypto, payload⟩
  else ⟨pure (), Party.throw "VMess authentication failed", [], encHeader ++ payload⟩

theorem accept_sealed (inverts : crypto.Inverts) (short : stream.dst.ShortName)
    (fnv1a : Bytes → UInt32) (padding : Padding) (payload : Bytes)
    (only : OnlyOpens crypto accounts.keys cmdKey salts
      (encLen crypto cmdKey salts (stream.header fnv1a padding))) :
    Machine.Ends step
      (start (Party.writeAll
          (sealVmessAeadHeader crypto cmdKey salts (stream.header fnv1a padding) ++ payload))
        (accept crypto accounts))
      (acceptOutcome crypto accounts cmdKey stream
        (encHeader crypto cmdKey salts (stream.header fnv1a padding)) payload) := by
  obtain ⟨front, split, length, id, len, nonce⟩ :=
    sealed_split crypto cmdKey salts (stream.header fnv1a padding)
  have first : (accept crypto accounts).Advances front []
      (acceptUser crypto accounts salts
        (encLen crypto cmdKey salts (stream.header fnv1a padding))) := by
    have read := (ByteParty.advances_readExact length).bind fun start : Bytes =>
      acceptUser crypto accounts ⟨toArray16 (start.take 16), toArray8 (start.drop 34)⟩
        ((start.drop 16).take 18)
    simp only [Party.pure_bind, id, len, nonce] at read
    exact read
  have found : authenticated crypto accounts.hashes salts
      (encLen crypto cmdKey salts (stream.header fnv1a padding)) accounts.users =
        if cmdKey ∈ accounts.keys then
          some (cmdKey, castU16 (stream.header fnv1a padding).length) else none := by
    rw [authenticated_eq]
    exact findSome_of_onlyOpens (openLen_encLen inverts ..) only
  rw [split, List.append_assoc, acceptOutcome]
  by_cases known : cmdKey ∈ accounts.keys
  · rw [if_pos known] at found ⊢
    have whole : (acceptUser crypto accounts salts
        (encLen crypto cmdKey salts (stream.header fnv1a padding))).Advances
          (encHeader crypto cmdKey salts (stream.header fnv1a padding)) []
          (respond crypto (accounts.authenticate cmdKey)
            (stream.request (decoded stream.dst))) := by
      have size : (encHeader crypto cmdKey salts (stream.header fnv1a padding)).length =
          (castU16 (stream.header fnv1a padding).length).toNat + 16 := by
        rw [encHeader, Aead.length_sealWith, Handshake.length_header short]
      have read := (ByteParty.advances_readExact size).bind fun encHeader : Bytes =>
        acceptHeader crypto (accounts.authenticate cmdKey) cmdKey salts encHeader
      rw [Party.pure_bind, acceptHeader_sealed inverts short] at read
      rw [acceptUser, found]
      exact read
    have answered := (first.trans whole).trans (advances_respond crypto _ _)
    rw [List.append_nil, serverStream_request] at answered
    rw [← List.append_assoc]
    exact ends_of_advances answered payload
  · rw [if_neg known] at found ⊢
    rw [acceptUser, found] at first
    exact ends_of_advances first _

/-- A client whose key is on the list gets a server stream with its own keys, its
address and all that it sent after the request; another is refused, in whatever order
the two move. -/
theorem accept_ends (inverts : crypto.Inverts) (ids : AuthIds) (fnv1a : Bytes → UInt32)
    (cmdKey : Bytes) (drawn : Drawn) (short : stream.dst.ShortName) (payload : Bytes)
    (only : OnlyOpens crypto accounts.keys cmdKey (drawn.salts crypto ids cmdKey)
      (encLen crypto cmdKey (drawn.salts crypto ids cmdKey)
        (stream.header fnv1a drawn.padding))) :
    Machine.Ends step
      (start (Party.writeAll
          (sendHandshakeRequest crypto ids fnv1a cmdKey stream drawn ++ payload))
        (accept crypto accounts))
      (acceptOutcome crypto accounts cmdKey stream
        (encHeader crypto cmdKey (drawn.salts crypto ids cmdKey)
          (stream.header fnv1a drawn.padding)) payload) :=
  accept_sealed inverts short fnv1a drawn.padding payload only

def plainIds : AuthIds := ⟨fun _ _ => Vector.replicate 16 0, fun _ => 0⟩

def plainDrawn : Drawn := ⟨0, .replicate 4 0, .replicate 8 0, ⟨[1], by decide⟩⟩

def listed : Users where
  hashes := ⟨id, id, id, fun name => if name = "id" then .ok [1] else .error "not a uuid"⟩
  users := [⟨"name", ""⟩, ⟨"id", ""⟩]
  authenticate _ := some "id"

theorem accept_ends_listed :
    Machine.Ends step
      (start (Party.writeAll
          (sendHandshakeRequest markingCrypto plainIds (fun _ => 0) (listed.hashes.cmdKey [1])
            scopedHandshake plainDrawn ++ [7]))
        (accept markingCrypto listed))
      (acceptOutcome markingCrypto listed (listed.hashes.cmdKey [1]) scopedHandshake
        (encHeader markingCrypto (listed.hashes.cmdKey [1])
          (plainDrawn.salts markingCrypto plainIds (listed.hashes.cmdKey [1]))
          (scopedHandshake.header (fun _ => 0) plainDrawn.padding)) [7]) ∧
      listed.hashes.cmdKey [1] ∈ listed.keys := by
  have keys : listed.keys = [listed.hashes.cmdKey [1]] := rfl
  have short : scopedHandshake.dst.ShortName := trivial
  refine ⟨accept_ends inverts_markingCrypto plainIds _ _ plainDrawn short [7] ?_, ?_⟩
  · intro key listed' other
    rw [keys] at listed'
    exact absurd (List.mem_singleton.mp listed') other
  · rw [keys]
    exact List.mem_singleton_self _

end Vmess

end QuicProxy
