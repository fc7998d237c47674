import QuicProxy.Data.Bytes

namespace QuicProxy

/-! SHA-256. -/

namespace Sha256

abbrev Digest := Vector UInt8 32

structure State where
  a : UInt32
  b : UInt32
  c : UInt32
  d : UInt32
  e : UInt32
  f : UInt32
  g : UInt32
  h : UInt32

def initial : State :=
  ⟨0x6a09e667, 0xbb67ae85, 0x3c6ef372, 0xa54ff53a, 0x510e527f, 0x9b05688c, 0x1f83d9ab, 0x5be0cd19⟩

def constants : List UInt32 :=
  [0x428a2f98, 0x71374491, 0xb5c0fbcf, 0xe9b5dba5, 0x3956c25b, 0x59f111f1, 0x923f82a4, 0xab1c5ed5,
    0xd807aa98, 0x12835b01, 0x243185be, 0x550c7dc3, 0x72be5d74, 0x80deb1fe, 0x9bdc06a7, 0xc19bf174,
    0xe49b69c1, 0xefbe4786, 0x0fc19dc6, 0x240ca1cc, 0x2de92c6f, 0x4a7484aa, 0x5cb0a9dc, 0x76f988da,
    0x983e5152, 0xa831c66d, 0xb00327c8, 0xbf597fc7, 0xc6e00bf3, 0xd5a79147, 0x06ca6351, 0x14292967,
    0x27b70a85, 0x2e1b2138, 0x4d2c6dfc, 0x53380d13, 0x650a7354, 0x766a0abb, 0x81c2c92e, 0x92722c85,
    0xa2bfe8a1, 0xa81a664b, 0xc24b8b70, 0xc76c51a3, 0xd192e819, 0xd6990624, 0xf40e3585, 0x106aa070,
    0x19a4c116, 0x1e376c08, 0x2748774c, 0x34b0bcb5, 0x391c0cb3, 0x4ed8aa4a, 0x5b9cca4f, 0x682e6ff3,
    0x748f82ee, 0x78a5636f, 0x84c87814, 0x8cc70208, 0x90befffa, 0xa4506ceb, 0xbef9a3f7, 0xc67178f2]

def rotr (word count : UInt32) : UInt32 := word >>> count ||| word <<< (32 - count)

def round (state : State) (added : UInt32) : State :=
  let s1 := rotr state.e 6 ^^^ rotr state.e 11 ^^^ rotr state.e 25
  let ch := (state.e &&& state.f) ^^^ (~~~state.e &&& state.g)
  let first := state.h + s1 + ch + added
  let s0 := rotr state.a 2 ^^^ rotr state.a 13 ^^^ rotr state.a 22
  let maj := (state.a &&& state.b) ^^^ (state.a &&& state.c) ^^^ (state.b &&& state.c)
  ⟨first + (s0 + maj), state.a, state.b, state.c, state.d + first, state.e, state.f, state.g⟩

/-- The word of the message schedule that follows sixteen. -/
def nextWord (window : List UInt32) : UInt32 :=
  let early := window.getD 1 0
  let late := window.getD 14 0
  let s0 := rotr early 7 ^^^ rotr early 18 ^^^ early >>> 3
  let s1 := rotr late 17 ^^^ rotr late 19 ^^^ late >>> 10
  window.getD 0 0 + s0 + window.getD 9 0 + s1

/-- The rounds that are left, with the next sixteen words of the schedule. -/
def rounds : List UInt32 → List UInt32 → State → State
  | constant :: constants, word :: window, state =>
      rounds constants (window ++ [nextWord (word :: window)]) (round state (constant + word))
  | _, _, state => state

def words : Bytes → List UInt32
  | a :: b :: c :: d :: rest => u32FromBe a b c d :: words rest
  | _ => []

def compress (state : State) (block : Bytes) : State :=
  let mixed := rounds constants (words block) state
  ⟨state.a + mixed.a, state.b + mixed.b, state.c + mixed.c, state.d + mixed.d,
    state.e + mixed.e, state.f + mixed.f, state.g + mixed.g, state.h + mixed.h⟩

def compressAll : Nat → State → Bytes → State
  | 0, state, _ => state
  | count + 1, state, bytes => compressAll count (compress state (bytes.take 64)) (bytes.drop 64)

def padded (message : Bytes) : Bytes :=
  message ++ 0x80 :: List.replicate ((119 - message.length % 64) % 64) 0 ++
    u64ToBe (UInt64.ofNat (8 * message.length))

def output (state : State) : Bytes :=
  [state.a, state.b, state.c, state.d, state.e, state.f, state.g, state.h].flatMap u32ToBe

def hash (message : Bytes) : Digest :=
  ⟨(output (compressAll ((padded message).length / 64) initial (padded message))).toArray, rfl⟩

end Sha256

end QuicProxy
