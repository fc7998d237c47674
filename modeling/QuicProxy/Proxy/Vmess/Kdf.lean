import QuicProxy.Data.Hmac
import QuicProxy.Data.Sha256
import QuicProxy.Proxy.Vmess.Cipher

namespace QuicProxy

/-! Key derivation of the VMess header
(`src/proxy/outbound/vmess/vmess_impl/kdf.rs`) and the nested HMAC it is for. -/

namespace Vmess.Kdf

open Sha256 (Digest)

def ipad : UInt8 := 0x36

def opad : UInt8 := 0x5C

def blockLen : Nat := 64

def tagLen : Nat := 32

/-- `target[..source.len()].copy_from_slice(source)`. -/
def copyFromSlice (target source : Bytes) : Bytes := source ++ target.drop source.length

/-- An `HmacSha256` of the `hmac` crate: its key and what it was updated with. -/
structure HmacSha256 where
  key : Bytes
  updates : Bytes

def hmacSha256 (mac : Bytes → Bytes → Digest) : Hasher HmacSha256 32 where
  update state m := { state with updates := state.updates ++ m }
  finalize state := mac state.key state.updates

/-- The fields of `VmessKdf1`, `VmessKdf2` and `VmessKdf3`. -/
structure Nested (Inner : Type) where
  okey : Bytes
  hasher : Inner
  hasherOuter : Inner

variable {Inner : Type} (inner : Hasher Inner 32)

def Nested.new (hasher : Inner) (key : Bytes) : Nested Inner :=
  let zeros : Bytes := List.replicate blockLen 0
  let hasherOuter := hasher
  if key.length > blockLen then
    let hasher := inner.update hasher key
    let hkey := (inner.finalize hasher).toList
    let ikey := (copyFromSlice zeros (hkey.take tagLen)).map (· ^^^ ipad)
    let okey := (copyFromSlice zeros (hkey.take tagLen)).map (· ^^^ opad)
    { okey, hasher := inner.update hasher ikey, hasherOuter }
  else
    let ikey := (copyFromSlice zeros key).map (· ^^^ ipad)
    let okey := (copyFromSlice zeros key).map (· ^^^ opad)
    { okey, hasher := inner.update hasher ikey, hasherOuter }

/-- `update` and `finalize`. -/
def nested : Hasher (Nested Inner) 32 where
  update kdf m := { kdf with hasher := inner.update kdf.hasher m }
  finalize kdf :=
    let h1 := inner.finalize kdf.hasher
    inner.finalize (inner.update (inner.update kdf.hasherOuter kdf.okey) h1.toList)

variable (mac : Bytes → Bytes → Digest)

abbrev VmessKdf1 := Nested HmacSha256

def vmessKdf1 : Hasher VmessKdf1 32 := nested (hmacSha256 mac)

def VmessKdf1.new (hasher : HmacSha256) (key : Bytes) : VmessKdf1 :=
  Nested.new (hmacSha256 mac) hasher key

abbrev VmessKdf2 := Nested VmessKdf1

def vmessKdf2 : Hasher VmessKdf2 32 := nested (vmessKdf1 mac)

def VmessKdf2.new (hasher : VmessKdf1) (key : Bytes) : VmessKdf2 :=
  Nested.new (vmessKdf1 mac) hasher key

abbrev VmessKdf3 := Nested VmessKdf2

def vmessKdf3 : Hasher VmessKdf3 32 := nested (vmessKdf2 mac)

def VmessKdf3.new (hasher : VmessKdf2) (key : Bytes) : VmessKdf3 :=
  Nested.new (vmessKdf2 mac) hasher key

def getVmessKdf1 (key1 : Bytes) : VmessKdf1 :=
  VmessKdf1.new mac ⟨kdfSaltConstVmessAeadKdf, []⟩ key1

def vmessKdf1OneShot (id key1 : Bytes) : Digest :=
  (vmessKdf1 mac).finalize ((vmessKdf1 mac).update (getVmessKdf1 mac key1) id)

def getVmessKdf2 (key1 key2 : Bytes) : VmessKdf2 :=
  VmessKdf2.new mac (getVmessKdf1 mac key1) key2

def getVmessKdf3 (key1 key2 key3 : Bytes) : VmessKdf3 :=
  VmessKdf3.new mac (getVmessKdf2 mac key1 key2) key3

def vmessKdf3OneShot (id key1 key2 key3 : Bytes) : Digest :=
  (vmessKdf3 mac).finalize ((vmessKdf3 mac).update (getVmessKdf3 mac key1 key2 key3) id)

/-! One level hashes by `keyed`: a long key stays in the hasher of the inner hash. -/

def kept (key : Bytes) : Bytes := if blockLen < key.length then key else []

def keyed (hash : Bytes → Digest) (key message : Bytes) : Digest :=
  hash (outerKey blockLen hash key ++
    (hash (kept key ++ innerKey blockLen hash key ++ message)).toList)

variable {inner mac} {state : Inner} {hash : Bytes → Digest} {key : Bytes}

theorem keyed_of_fits (fits : key.length ≤ blockLen) : keyed hash key = hmac blockLen hash key := by
  funext message
  rw [keyed, kept, if_neg (Nat.not_lt.mpr fits), List.nil_append]
  rfl

theorem copyFromSlice_zeros (source : Bytes) :
    copyFromSlice (List.replicate blockLen 0) source =
      source ++ List.replicate (blockLen - source.length) 0 := by
  rw [copyFromSlice, List.drop_replicate]

theorem new_eq (computes : inner.Computes state hash) (key : Bytes) :
    Nested.new inner state key =
      { okey := outerKey blockLen hash key
        hasher := inner.update
          (if blockLen < key.length then inner.update state key else state)
          (innerKey blockLen hash key)
        hasherOuter := state } := by
  rcases Nat.lt_or_ge blockLen key.length with long | fits
  · have whole : (hash key).toList.take tagLen = (hash key).toList :=
      List.take_of_length_le (by rw [Vector.length_toList]; exact Nat.le_refl _)
    rw [Nested.new, if_pos long, if_pos long]
    simp only [computes.digest key, whole, copyFromSlice_zeros, Vector.length_toList]
    rw [outerKey, innerKey, keyBlock_of_long long]
    rfl
  · rw [Nested.new, if_neg (Nat.not_lt.mpr fits), if_neg (Nat.not_lt.mpr fits),
      copyFromSlice_zeros, outerKey, innerKey, keyBlock_of_fits fits]
    rfl

theorem new_computes (computes : inner.Computes state hash) (key : Bytes) :
    (nested inner).Computes (Nested.new inner state key) (keyed hash key) := by
  intro pieces
  have folded : ∀ kdf : Nested Inner, pieces.foldl (nested inner).update kdf =
      { kdf with hasher := pieces.foldl inner.update kdf.hasher } := by
    induction pieces with
    | nil => exact fun _ => rfl
    | cons piece pieces ih => exact fun kdf => ih _
  have started : inner.Computes (if blockLen < key.length then inner.update state key else state)
      fun rest => hash (kept key ++ rest) := by
    rw [kept]
    split
    · exact computes.update key
    · exact computes
  rw [folded, new_eq computes]
  change inner.finalize (inner.update (inner.update state _) _) = _
  rw [(computes.update _).digest, started.update _ pieces, keyed, List.append_assoc]

theorem hmacSha256_computes (key : Bytes) :
    (hmacSha256 mac).Computes ⟨key, []⟩ (mac key) := by
  intro pieces
  have folded : ∀ state : HmacSha256, pieces.foldl (hmacSha256 mac).update state =
      { state with updates := state.updates ++ pieces.flatten } := by
    induction pieces with
    | nil => exact fun state => by rw [List.flatten_nil, List.append_nil]; rfl
    | cons piece pieces ih =>
        intro state
        rw [List.foldl_cons, ih, List.flatten_cons, ← List.append_assoc]
        rfl
  rw [folded]
  rfl

theorem vmessKdf1OneShot_eq (id key1 : Bytes) :
    vmessKdf1OneShot mac id key1 = [key1].foldl keyed (mac kdfSaltConstVmessAeadKdf) id :=
  (new_computes (hmacSha256_computes _) key1).digest id

theorem vmessKdf3OneShot_eq (id key1 key2 key3 : Bytes) :
    vmessKdf3OneShot mac id key1 key2 key3 =
      [key1, key2, key3].foldl keyed (mac kdfSaltConstVmessAeadKdf) id :=
  (new_computes (new_computes (new_computes (hmacSha256_computes _) key1) key2) key3).digest id

/-! A hash that takes note of one length, and of its own notes: what a long key
leaves in a hasher shows in the digest. -/

def noted (last : UInt8) : Digest := Vector.replicate 32 last

def noting (length : Nat) (last : UInt8) (message : Bytes) : Digest :=
  if message.length = length ∨ message.getLast? = some last then noted last else noted 0

def Notes (last : UInt8) (length : Nat) (hash : Bytes → Digest) : Prop :=
  ∀ message : Bytes, message.length = length ∨ message.getLast? = some last →
    hash message = noted last

theorem noted_getLast (before : Bytes) (last : UInt8) :
    (before ++ (noted last).toList).getLast? = some last := by
  rw [noted, Vector.toList_replicate, List.replicate_succ']
  simp

theorem append_getLast {message : Bytes} (before : Bytes) (some_ : message ≠ []) :
    (before ++ message).getLast? = message.getLast? := by
  rw [List.getLast?_append, List.getLast?_eq_some_getLast some_]
  rfl

variable {last : UInt8} {length : Nat}

theorem noting_notes (length : Nat) (last : UInt8) : Notes last length (noting length last) :=
  fun _ noticed => if_pos noticed

def fed (key : Bytes) : Nat := (kept key).length + blockLen

def fedAll : List Bytes → Nat
  | [] => 0
  | key :: keys => fed key + fedAll keys

theorem Notes.keyed (notes : Notes last (fed key + length) hash) :
    Notes last length (keyed hash key) := by
  intro message noticed
  have innermost :
      hash (kept key ++ innerKey blockLen hash key ++ message) = noted last := by
    apply notes
    rcases noticed with long | ends
    · left
      rw [List.length_append, List.length_append, length_innerKey (by decide), long, fed]
    · right
      rw [append_getLast _ (by rintro rfl; cases ends), ends]
  rw [Kdf.keyed, innermost]
  exact notes _ (.inr (noted_getLast _ _))

theorem Notes.foldl {keys : List Bytes} (notes : Notes last (fedAll keys + length) hash) :
    Notes last length (keys.foldl Kdf.keyed hash) := by
  induction keys generalizing hash with
  | nil => rwa [fedAll, Nat.zero_add] at notes
  | cons key keys ih =>
      apply ih
      apply Notes.keyed
      rwa [fedAll, Nat.add_assoc] at notes

/-- Nothing that is shorter by `after` is noted. -/
def Ignores (last : UInt8) (length after : Nat) (hash : Bytes → Digest) : Prop :=
  ∀ message : Bytes, message ≠ [] → message.getLast? ≠ some last →
    message.length + after < length → hash message = noted 0

theorem noting_ignores (length : Nat) (last : UInt8) :
    Ignores last length 0 (noting length last) := by
  intro message _ unnoted short
  apply if_neg
  rintro (long | ends)
  · omega
  · exact unnoted ends

theorem Ignores.hmac_of_inner {after : Nat} {message : Bytes}
    (ignores : Ignores last length after hash) (other : last ≠ 0)
    (room : blockLen + 32 + after < length)
    (unnoted : (innerKey blockLen hash key ++ message).getLast? ≠ some last)
    (short : blockLen + message.length + after < length) :
    hmac blockLen hash key message = noted 0 := by
  have innermost : hash (innerKey blockLen hash key ++ message) = noted 0 := by
    apply ignores _ _ unnoted
    · rw [List.length_append, length_innerKey (by decide)]
      exact short
    · apply List.ne_nil_of_length_pos
      rw [List.length_append, length_innerKey (by decide)]
      exact Nat.add_pos_left (by decide) _
  rw [hmac, innermost]
  apply ignores
  · apply List.ne_nil_of_length_pos
    rw [List.length_append, length_outerKey (by decide)]
    exact Nat.add_pos_left (by decide) _
  · rw [noted_getLast]
    exact fun same => other (Option.some.inj same).symm
  · rw [List.length_append, length_outerKey (by decide), Vector.length_toList]
    exact room

theorem Ignores.hmac {after : Nat} (ignores : Ignores last length after hash) (other : last ≠ 0)
    (room : blockLen + 32 + after < length) :
    Ignores last length (blockLen + after) (hmac blockLen hash key) := by
  intro message some_ unnoted short
  apply ignores.hmac_of_inner other room
  · rwa [append_getLast _ some_]
  · omega

theorem Ignores.nestedHmac {after : Nat} {keys : List Bytes}
    (ignores : Ignores last length after hash) (other : last ≠ 0)
    (room : blockLen * keys.length + 32 + after < length) :
    Ignores last length (blockLen * keys.length + after) (nestedHmac blockLen hash keys) := by
  induction keys generalizing hash after with
  | nil =>
      rw [List.length_nil, Nat.mul_zero, Nat.zero_add]
      exact ignores
  | cons key keys ih =>
      have total : blockLen * (key :: keys).length + after =
          blockLen * keys.length + (blockLen + after) := by
        rw [List.length_cons, Nat.mul_succ, Nat.add_assoc]
      have first : Ignores last length (blockLen + after) (QuicProxy.hmac blockLen hash key) :=
        ignores.hmac other (by omega)
      rw [total]
      exact ih first (by omega)

theorem exists_unnoted (key id : Bytes) : ∃ last : UInt8, last ≠ 0 ∧
    ∀ hash : Bytes → Digest, (innerKey blockLen hash key ++ id).getLast? ≠ some last := by
  have same (hash : Bytes → Digest) : (innerKey blockLen hash key ++ id).getLast? =
      (innerKey blockLen (fun _ => noted 0) key ++ id).getLast? := by
    rw [List.getLast?_append, List.getLast?_append, innerKey_getLast (fun _ => noted 0) (by decide)]
  let inner := innerKey blockLen (fun _ => noted 0) key ++ id
  rcases eq_or_ne inner.getLast? (some 1) with one | other
  · exact ⟨2, by decide, fun hash => by rw [same, one]; decide⟩
  · exact ⟨1, by decide, fun hash => by rwa [same]⟩

theorem blockLen_le_fed (key : Bytes) : blockLen ≤ fed key := Nat.le_add_left ..

theorem fed_of_long (long : blockLen < key.length) : 2 * blockLen < fed key := by
  rw [fed, kept, if_pos long]
  omega

theorem fedAll_ge (keys : List Bytes) : blockLen * keys.length ≤ fedAll keys := by
  induction keys with
  | nil => exact Nat.le_refl 0
  | cons key keys ih =>
      have first := blockLen_le_fed key
      rw [fedAll, List.length_cons, Nat.mul_succ]
      omega

theorem fedAll_gt {keys : List Bytes} (long : ∃ key ∈ keys, blockLen < key.length) :
    blockLen * keys.length + blockLen < fedAll keys := by
  induction keys with
  | nil => simp at long
  | cons first keys ih =>
      rw [fedAll, List.length_cons, Nat.mul_succ]
      obtain ⟨key, among, long⟩ := long
      rcases List.mem_cons.mp among with rfl | later
      · have rest := fedAll_ge keys
        have more := fed_of_long long
        omega
      · have rest := ih ⟨key, later, long⟩
        have more := blockLen_le_fed first
        omega

theorem foldl_keyed_of_fits {keys : List Bytes} (fits : ∀ key ∈ keys, key.length ≤ blockLen) :
    keys.foldl keyed hash = nestedHmac blockLen hash keys := by
  induction keys generalizing hash with
  | nil => rfl
  | cons key keys ih =>
      rw [List.foldl_cons, keyed_of_fits (fits key List.mem_cons_self),
        ih fun later among => fits later (List.mem_cons_of_mem key among)]
      rfl

theorem exists_ne_of_long {keys : List Bytes} (long : ∃ key ∈ keys, blockLen < key.length)
    (id : Bytes) : ∃ hash, keys.foldl keyed hash id ≠ nestedHmac blockLen hash keys id := by
  obtain ⟨before, final, rfl⟩ : ∃ before final, keys = before ++ [final] := by
    rcases List.eq_nil_or_concat keys with rfl | ⟨before, final, rfl⟩
    · simp at long
    · exact ⟨before, final, List.concat_eq_append ..⟩
  obtain ⟨last, other, unnoted⟩ := exists_unnoted final id
  have larger := fedAll_gt long
  rw [List.length_append, List.length_singleton] at larger
  let length := fedAll (before ++ [final]) + id.length
  refine ⟨noting length last, ?_⟩
  have code : (before ++ [final]).foldl keyed (noting length last) id = noted last :=
    (noting_notes length last).foldl id (.inl rfl)
  have spec : nestedHmac blockLen (noting length last) (before ++ [final]) id = noted 0 := by
    have room : blockLen * before.length + 32 + 0 < length := by
      simp only [blockLen] at larger ⊢
      omega
    have inner := (noting_ignores length last).nestedHmac other room
    rw [nestedHmac, List.foldl_append]
    apply inner.hmac_of_inner other _ (unnoted _)
    · simp only [blockLen] at larger ⊢
      omega
    · simp only [blockLen] at larger ⊢
      omega
  rw [code, spec]
  intro same
  exact other (by simpa [noted] using congrArg (fun digest => digest[0]) same)

theorem forall_keyed_iff (keys : List Bytes) (id : Bytes) :
    (∀ hash, keys.foldl keyed hash id = nestedHmac blockLen hash keys id) ↔
      ∀ key ∈ keys, key.length ≤ blockLen := by
  constructor
  · intro same key among
    apply Nat.le_of_not_lt
    intro long
    obtain ⟨hash, different⟩ := exists_ne_of_long ⟨key, among, long⟩ id
    exact different (same hash)
  · exact fun fits hash => congrFun (foldl_keyed_of_fits fits) id

theorem forall_mac_iff {keys : List Bytes} {id : Bytes} {code : (Bytes → Bytes → Digest) → Digest}
    (code_eq : ∀ mac, code mac = keys.foldl keyed (mac kdfSaltConstVmessAeadKdf) id) :
    (∀ mac, code mac = nestedHmac blockLen (mac kdfSaltConstVmessAeadKdf) keys id) ↔
      ∀ key ∈ keys, key.length ≤ blockLen := by
  rw [← forall_keyed_iff keys id]
  constructor
  · intro same hash
    exact (code_eq fun _ => hash).symm.trans (same fun _ => hash)
  · intro same mac
    rw [code_eq, same]

/-- The bytes a long key leaves in the hasher are the only difference. -/
theorem oneShot_nestedHmac_iff (id key1 key2 key3 : Bytes) :
    ((∀ mac, vmessKdf1OneShot mac id key1 =
        nestedHmac blockLen (mac kdfSaltConstVmessAeadKdf) [key1] id) ↔
      key1.length ≤ blockLen) ∧
    ((∀ mac, vmessKdf3OneShot mac id key1 key2 key3 =
        nestedHmac blockLen (mac kdfSaltConstVmessAeadKdf) [key1, key2, key3] id) ↔
      key1.length ≤ blockLen ∧ key2.length ≤ blockLen ∧ key3.length ≤ blockLen) := by
  constructor
  · rw [forall_mac_iff fun _ => vmessKdf1OneShot_eq id key1]
    simp
  · rw [forall_mac_iff fun _ => vmessKdf3OneShot_eq id key1 key2 key3]
    simp

def sha256Mac (key message : Bytes) : Digest := hmac 64 Sha256.hash key message

/-- The vector of the source's test. -/
example : (vmessKdf1OneShot sha256Mac (asBytes "test")
      (asBytes "AES Auth ID Encryption")).toList =
    [149, 109, 253, 20, 158, 39, 112, 199, 28, 74, 3, 106, 99, 8, 234, 59, 64, 172, 126, 5, 155,
      28, 59, 21, 220, 196, 241, 54, 138, 5, 71, 107] := by
  decide +kernel

theorem longKey_differs :
    vmessKdf1OneShot sha256Mac [] (List.replicate 65 0) ≠
      nestedHmac blockLen (sha256Mac kdfSaltConstVmessAeadKdf) [List.replicate 65 0] [] := by
  decide +kernel

end Vmess.Kdf

end QuicProxy
