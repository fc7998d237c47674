import QuicProxy.Data.Bytes

namespace QuicProxy

/-! Hashes that are fed piece by piece, HMAC over any hash, and HMAC over HMAC. -/

structure Hasher (σ : Type) (size : Nat) where
  update : σ → Bytes → σ
  finalize : σ → Vector UInt8 size

namespace Hasher

variable {σ : Type} {size : Nat} {hasher : Hasher σ size} {state : σ}
  {hash : Bytes → Vector UInt8 size}

/-- However the bytes are cut up, `hasher` makes of them what `hash` makes of them. -/
def Computes (hasher : Hasher σ size) (state : σ) (hash : Bytes → Vector UInt8 size) : Prop :=
  ∀ pieces : List Bytes, hasher.finalize (pieces.foldl hasher.update state) = hash pieces.flatten

namespace Computes

variable (computes : hasher.Computes state hash)

include computes

theorem update (bytes : Bytes) :
    hasher.Computes (hasher.update state bytes) fun rest => hash (bytes ++ rest) :=
  fun pieces => computes (bytes :: pieces)

theorem finalize : hasher.finalize state = hash [] := computes []

theorem digest (bytes : Bytes) : hasher.finalize (hasher.update state bytes) = hash bytes := by
  rw [(computes.update bytes).finalize, List.append_nil]

end Computes

end Hasher

section

variable {size : Nat} (block : Nat) (hash : Bytes → Vector UInt8 size) (key : Bytes)

/-- A key as one block; one that is longer is hashed first. -/
def keyBlock : Bytes :=
  let used := if key.length ≤ block then key else (hash key).toList
  used ++ List.replicate (block - used.length) 0

def innerKey : Bytes := (keyBlock block hash key).map (· ^^^ 0x36)

def outerKey : Bytes := (keyBlock block hash key).map (· ^^^ 0x5c)

def hmac (message : Bytes) : Vector UInt8 size :=
  hash (outerKey block hash key ++ (hash (innerKey block hash key ++ message)).toList)

/-- Each key's HMAC has that of the key before it for its hash. -/
def nestedHmac (keys : List Bytes) : Bytes → Vector UInt8 size :=
  keys.foldl (hmac block) hash

variable {block hash key}

theorem keyBlock_of_fits (fits : key.length ≤ block) :
    keyBlock block hash key = key ++ List.replicate (block - key.length) 0 := by
  simp only [keyBlock, if_pos fits]

theorem keyBlock_of_long (long : block < key.length) :
    keyBlock block hash key = (hash key).toList ++ List.replicate (block - size) 0 := by
  simp only [keyBlock, if_neg (Nat.not_le.mpr long), Vector.length_toList]

theorem length_keyBlock (small : size ≤ block) : (keyBlock block hash key).length = block := by
  rcases Nat.lt_or_ge block key.length with long | fits
  · rw [keyBlock_of_long long, List.length_append, List.length_replicate, Vector.length_toList]
    omega
  · rw [keyBlock_of_fits fits, List.length_append, List.length_replicate]
    omega

@[simp] theorem length_innerKey (small : size ≤ block) :
    (innerKey block hash key).length = block := by
  rw [innerKey, List.length_map, length_keyBlock small]

@[simp] theorem length_outerKey (small : size ≤ block) :
    (outerKey block hash key).length = block := by
  rw [outerKey, List.length_map, length_keyBlock small]

theorem keyBlock_getLast (other : Bytes → Vector UInt8 size) (small : size < block) :
    (keyBlock block hash key).getLast? = (keyBlock block other key).getLast? := by
  rcases Nat.lt_or_ge block key.length with long | fits
  · obtain ⟨count, zeros⟩ : ∃ count, block - size = count + 1 := ⟨block - size - 1, by omega⟩
    rw [keyBlock_of_long long, keyBlock_of_long long, zeros, List.replicate_succ']
    simp
  · rw [keyBlock_of_fits fits, keyBlock_of_fits fits]

theorem innerKey_getLast (other : Bytes → Vector UInt8 size) (small : size < block) :
    (innerKey block hash key).getLast? = (innerKey block other key).getLast? := by
  rw [innerKey, innerKey, List.getLast?_map, List.getLast?_map, keyBlock_getLast other small]

@[simp] theorem nestedHmac_cons (keys : List Bytes) :
    nestedHmac block hash (key :: keys) = nestedHmac block (hmac block hash key) keys := rfl

end

end QuicProxy
