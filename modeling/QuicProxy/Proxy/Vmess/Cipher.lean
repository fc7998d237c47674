import QuicProxy.Data.Text

namespace QuicProxy

/-! The ciphers of a VMess connection
(`src/proxy/outbound/vmess/vmess_impl/cipher.rs`, `kdf.rs`) and the ones that
each side builds from the request (`stream.rs`, `src/proxy/inbound/vmess.rs`). -/

namespace Vmess

def securityAes128Gcm : UInt8 := 3

def securityChacha20Poly1305 : UInt8 := 4

def securityNone : UInt8 := 5

/-- A cipher of the `aead` crate with a tag of 16 bytes: it works in place. -/
structure Aead where
  encryptInPlaceDetached : (key nonce aad msg : Bytes) → Bytes × Bytes
  decryptInPlaceDetached : (key nonce aad msg tag : Bytes) → Option Bytes
  length_encrypt : ∀ key nonce aad msg,
    (encryptInPlaceDetached key nonce aad msg).1.length = msg.length
  length_tag : ∀ key nonce aad msg, (encryptInPlaceDetached key nonce aad msg).2.length = 16
  length_decrypt : ∀ key nonce aad msg tag plain,
    decryptInPlaceDetached key nonce aad msg tag = some plain → plain.length = msg.length

namespace Aead

/-- Decryption with the same key and nonce inverts encryption. -/
def Inverts (aead : Aead) : Prop :=
  ∀ key nonce aad msg, aead.decryptInPlaceDetached key nonce aad
    (aead.encryptInPlaceDetached key nonce aad msg).1
    (aead.encryptInPlaceDetached key nonce aad msg).2 = some msg

/-- `Aead::encrypt`: the tag comes last. -/
def encrypt (aead : Aead) (key nonce plaintext : Bytes) : Bytes :=
  (aead.encryptInPlaceDetached key nonce [] plaintext).1 ++
    (aead.encryptInPlaceDetached key nonce [] plaintext).2

/-- `Aead::decrypt`, `none` for `aead::Error`. -/
def decrypt (aead : Aead) (key nonce ciphertext : Bytes) : Option Bytes :=
  if ciphertext.length < 16 then none
  else
    aead.decryptInPlaceDetached key nonce [] (ciphertext.take (ciphertext.length - 16))
      (ciphertext.drop (ciphertext.length - 16))

@[simp] theorem length_encrypted (aead : Aead) (key nonce plaintext : Bytes) :
    (aead.encrypt key nonce plaintext).length = plaintext.length + 16 := by
  rw [encrypt, List.length_append, aead.length_encrypt, aead.length_tag]

theorem decrypt_encrypt {aead : Aead} (inverts : aead.Inverts) (key nonce plaintext : Bytes) :
    aead.decrypt key nonce (aead.encrypt key nonce plaintext) = some plaintext := by
  have cut : (aead.encrypt key nonce plaintext).length - 16 =
      (aead.encryptInPlaceDetached key nonce [] plaintext).1.length := by
    rw [length_encrypted, aead.length_encrypt]
    omega
  rw [decrypt, if_neg (by rw [length_encrypted]; omega), cut]
  rw [encrypt, List.take_left, List.drop_left]
  exact inverts key nonce [] plaintext

theorem length_decrypted {aead : Aead} {key nonce ciphertext plaintext : Bytes}
    (opened : aead.decrypt key nonce ciphertext = some plaintext) :
    ciphertext.length = plaintext.length + 16 := by
  rw [decrypt] at opened
  split at opened
  · cases opened
  · next long =>
      rw [aead.length_decrypt _ _ _ _ _ _ opened, List.length_take]
      omega

end Aead

/-- What comes from other crates: the ciphers and the hashes. -/
structure Crypto where
  aes128Gcm : Aead
  chacha20Poly1305 : Aead
  /-- The text of `aead::Error`. -/
  aeadError : String
  sha256 : Bytes → Vector UInt8 32
  md5 : Bytes → Vector UInt8 16
  hmacSha256 : (key data : Bytes) → Vector UInt8 32
  /-- AES-128-CFB, in place. -/
  aesCfbDecrypt : (key iv : Vector UInt8 16) → (data : Vector UInt8 4) → Vector UInt8 4

structure Crypto.Inverts (crypto : Crypto) : Prop where
  aes128Gcm : crypto.aes128Gcm.Inverts
  chacha20Poly1305 : crypto.chacha20Poly1305.Inverts

inductive VmessSecurity where
  | aes128Gcm (key : Bytes)
  | chacha20Poly1305 (key : Bytes)
deriving DecidableEq

namespace VmessSecurity

def overheadLen (_ : VmessSecurity) : Nat := 16

def nonceLen (_ : VmessSecurity) : Nat := 12

def key : VmessSecurity → Bytes
  | aes128Gcm key => key
  | chacha20Poly1305 key => key

def aead (crypto : Crypto) : VmessSecurity → Aead
  | aes128Gcm _ => crypto.aes128Gcm
  | chacha20Poly1305 _ => crypto.chacha20Poly1305

def failure (crypto : Crypto) : VmessSecurity → String
  | aes128Gcm _ => "AES-GCM decryption failed: " ++ crypto.aeadError
  | chacha20Poly1305 _ => "ChaCha20-Poly1305 decryption failed: " ++ crypto.aeadError

theorem inverts {crypto : Crypto} (inverts : crypto.Inverts) (security : VmessSecurity) :
    (security.aead crypto).Inverts := by
  cases security with
  | aes128Gcm key => exact inverts.aes128Gcm
  | chacha20Poly1305 key => exact inverts.chacha20Poly1305

end VmessSecurity

structure AeadCipher where
  security : VmessSecurity
  iv : Vector UInt8 16
  count : UInt16
deriving DecidableEq

namespace AeadCipher

def new (iv : Vector UInt8 16) (security : VmessSecurity) : AeadCipher := ⟨security, iv, 0⟩

/-- `count.wrapping_add(1)`. -/
def bump (cipher : AeadCipher) : AeadCipher := { cipher with count := cipher.count + 1 }

/-- The counter and ten bytes of the iv, in front of the zeros of a `[u8; 32]`. -/
def nonce (cipher : AeadCipher) : Bytes :=
  (u16ToBe cipher.count ++ (cipher.iv.toList.drop 2).take 10 ++ List.replicate 20 0).take
    cipher.security.nonceLen

/-- `decrypt_inplace`: `none` when the buffer is shorter than its tag, where the
split of the buffer panics.  The tag stays behind the message. -/
def decryptInplace (crypto : Crypto) (cipher : AeadCipher) (buf : Bytes) :
    Option (Except String Bytes × AeadCipher) :=
  if buf.length < 16 then none
  else
    let tag := buf.drop (buf.length - 16)
    match (cipher.security.aead crypto).decryptInPlaceDetached cipher.security.key cipher.nonce []
        (buf.take (buf.length - 16)) tag with
    | some msg => some (.ok (msg ++ tag), cipher.bump)
    | none => some (.error (cipher.security.failure crypto), cipher.bump)

/-- `encrypt_inplace`: the last 16 bytes of the buffer become the tag. -/
def encryptInplace (crypto : Crypto) (cipher : AeadCipher) (buf : Bytes) :
    Option (Bytes × AeadCipher) :=
  if buf.length < 16 then none
  else
    some ((cipher.security.aead crypto).encrypt cipher.security.key cipher.nonce
      (buf.take (buf.length - 16)), cipher.bump)

def sealed (crypto : Crypto) (cipher : AeadCipher) (payload : Bytes) : Bytes :=
  (cipher.security.aead crypto).encrypt cipher.security.key cipher.nonce payload

def opened (crypto : Crypto) (cipher : AeadCipher) (chunk : Bytes) : Option Bytes :=
  (cipher.security.aead crypto).decrypt cipher.security.key cipher.nonce chunk

variable (crypto : Crypto) (cipher : AeadCipher)

@[simp] theorem length_sealed (payload : Bytes) :
    (cipher.sealed crypto payload).length = payload.length + 16 :=
  Aead.length_encrypted ..

theorem encryptInplace_zeros (payload : Bytes) :
    cipher.encryptInplace crypto (payload ++ List.replicate 16 0) =
      some (cipher.sealed crypto payload, cipher.bump) := by
  have long : (payload ++ List.replicate 16 (0 : UInt8)).length = payload.length + 16 := by
    rw [List.length_append, List.length_replicate]
  rw [encryptInplace, if_neg (by omega), long, Nat.add_sub_cancel, List.take_left]
  rfl

theorem decryptInplace_of_le {chunk : Bytes} (long : 16 ≤ chunk.length) :
    cipher.decryptInplace crypto chunk =
      match cipher.opened crypto chunk with
      | some payload => some (.ok (payload ++ chunk.drop (chunk.length - 16)), cipher.bump)
      | none => some (.error (cipher.security.failure crypto), cipher.bump) := by
  rw [decryptInplace, if_neg (by omega), opened, Aead.decrypt, if_neg (by omega)]

variable {crypto cipher}

theorem opened_sealed (inverts : crypto.Inverts) (payload : Bytes) :
    cipher.opened crypto (cipher.sealed crypto payload) = some payload :=
  Aead.decrypt_encrypt (cipher.security.inverts inverts) ..

theorem length_opened {chunk payload : Bytes} (opens : cipher.opened crypto chunk = some payload) :
    chunk.length = payload.length + 16 :=
  Aead.length_decrypted opens

end AeadCipher

/-! Keys. -/

def kdfSaltConstVmessAeadKdf : Bytes := asBytes "VMess AEAD KDF"

def kdfSaltConstAeadRespHeaderLenKey : Bytes := asBytes "AEAD Resp Header Len Key"

def kdfSaltConstAeadRespHeaderLenIv : Bytes := asBytes "AEAD Resp Header Len IV"

def kdfSaltConstAeadRespHeaderPayloadKey : Bytes := asBytes "AEAD Resp Header Key"

def kdfSaltConstAeadRespHeaderPayloadIv : Bytes := asBytes "AEAD Resp Header IV"

def chachaKey (crypto : Crypto) (key16 : Vector UInt8 16) : Bytes :=
  let first := (crypto.md5 key16.toList).toList
  first ++ (crypto.md5 first).toList

def firstHalf (digest : Vector UInt8 32) : Vector UInt8 16 := digest.take 16

structure BodyKeys where
  reqBodyKey : Vector UInt8 16
  reqBodyIv : Vector UInt8 16
  respBodyKey : Vector UInt8 16
  respBodyIv : Vector UInt8 16
deriving DecidableEq

def aeadBodyKeys (crypto : Crypto) (reqBodyKey reqBodyIv : Vector UInt8 16) : BodyKeys where
  reqBodyKey := reqBodyKey
  reqBodyIv := reqBodyIv
  respBodyKey := firstHalf (crypto.sha256 reqBodyKey.toList)
  respBodyIv := firstHalf (crypto.sha256 reqBodyIv.toList)

def clientBodyKeys (crypto : Crypto) (isAead : Bool) (reqBodyKey reqBodyIv : Vector UInt8 16) :
    BodyKeys :=
  if isAead then aeadBodyKeys crypto reqBodyKey reqBodyIv
  else ⟨reqBodyKey, reqBodyIv, crypto.md5 reqBodyKey.toList, crypto.md5 reqBodyIv.toList⟩

/-- The ciphers of the two bodies; without one, they are not encrypted. -/
structure BodyCiphers where
  request : Option AeadCipher
  response : Option AeadCipher
deriving DecidableEq

/-- `VmessStream::new`, which writes requests and reads responses. -/
def clientCiphers (crypto : Crypto) (keys : BodyKeys) (security : UInt8) :
    Except String BodyCiphers :=
  if security = securityNone then .ok ⟨none, none⟩
  else if security = securityAes128Gcm then
    .ok ⟨some (.new keys.reqBodyIv (.aes128Gcm keys.reqBodyKey.toList)),
      some (.new keys.respBodyIv (.aes128Gcm keys.respBodyKey.toList))⟩
  else if security = securityChacha20Poly1305 then
    .ok ⟨some (.new keys.reqBodyIv (.chacha20Poly1305 (chachaKey crypto keys.reqBodyKey))),
      some (.new keys.respBodyIv (.chacha20Poly1305 (chachaKey crypto keys.respBodyKey)))⟩
  else .error "unsupported security"

/-- `VmessServerStream::new`, which reads requests and writes responses. -/
def serverCiphers (crypto : Crypto) (keys : BodyKeys) (security : UInt8) : BodyCiphers :=
  if security = securityAes128Gcm then
    ⟨some (.new keys.reqBodyIv (.aes128Gcm keys.reqBodyKey.toList)),
      some (.new keys.respBodyIv (.aes128Gcm keys.respBodyKey.toList))⟩
  else if security = securityChacha20Poly1305 then
    ⟨some (.new keys.reqBodyIv (.chacha20Poly1305 (chachaKey crypto keys.reqBodyKey))),
      some (.new keys.respBodyIv (.chacha20Poly1305 (chachaKey crypto keys.respBodyKey)))⟩
  else ⟨none, none⟩

theorem clientCiphers_eq {crypto : Crypto} {keys : BodyKeys} {security : UInt8}
    {ciphers : BodyCiphers} (supported : clientCiphers crypto keys security = .ok ciphers) :
    serverCiphers crypto keys security = ciphers := by
  unfold clientCiphers at supported
  unfold serverCiphers
  split at supported
  · next plain =>
      cases supported
      rw [plain]
      rfl
  · split at supported
    · next aes =>
        cases supported
        rw [if_pos aes]
    · next notAes =>
        rw [if_neg notAes]
        split at supported
        · next chacha =>
            cases supported
            rw [if_pos chacha]
        · cases supported

end Vmess

end QuicProxy
