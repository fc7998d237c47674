import QuicProxy.Data.Text

namespace QuicProxy

/-! IP and socket addresses with their text form, as in `std::net`. -/

structure Ipv4Addr where
  a : UInt8
  b : UInt8
  c : UInt8
  d : UInt8
deriving DecidableEq, Repr

namespace Ipv4Addr

def octets (ip : Ipv4Addr) : Bytes := [ip.a, ip.b, ip.c, ip.d]

def unspecified : Ipv4Addr := ⟨0, 0, 0, 0⟩

def toText (ip : Ipv4Addr) : List Char :=
  List.intercalate ['.'] (ip.octets.map fun octet => Nat.toDigits 10 octet.toNat)

@[simp] theorem length_octets (ip : Ipv4Addr) : ip.octets.length = 4 := rfl

end Ipv4Addr

structure Ipv6Addr where
  octets : Bytes
  length_octets : octets.length = 16
deriving DecidableEq, Repr

def wordsOfBytes : Bytes → List UInt16
  | high :: low :: rest => u16FromBe high low :: wordsOfBytes rest
  | _ => []

theorem flatMap_u16ToBe_wordsOfBytes (bytes : Bytes)
    (even : bytes.length % 2 = 0) :
    (wordsOfBytes bytes).flatMap u16ToBe = bytes := by
  induction bytes using wordsOfBytes.induct with
  | case1 high low rest ih =>
      simp only [List.length_cons] at even
      simp only [wordsOfBytes, List.flatMap_cons, u16ToBe_u16FromBe]
      rw [ih (by omega)]
      rfl
  | case2 bytes shape =>
      match bytes with
      | [] => rfl
      | [_] => simp at even
      | high :: low :: rest => exact absurd rfl (shape high low rest)

theorem length_flatMap_u16ToBe (words : List UInt16) :
    (words.flatMap u16ToBe).length = 2 * words.length := by
  induction words with
  | nil => rfl
  | cons word rest ih =>
      simp only [List.flatMap_cons, List.length_append, length_u16ToBe, ih,
        List.length_cons]
      omega

namespace Ipv6Addr

def segments (ip : Ipv6Addr) : List UInt16 := wordsOfBytes ip.octets

def ofSegments (words : List UInt16) (length : words.length = 8) : Ipv6Addr where
  octets := words.flatMap u16ToBe
  length_octets := by rw [length_flatMap_u16ToBe, length]

def ofOctets (bytes : Bytes) (length : bytes.length = 16) : Ipv6Addr :=
  ⟨bytes, length⟩

theorem flatMap_segments (ip : Ipv6Addr) :
    ip.segments.flatMap u16ToBe = ip.octets :=
  flatMap_u16ToBe_wordsOfBytes ip.octets (by rw [ip.length_octets])

/-- The span of zero segments that is written as `::`: its start and length,
the first of the longest ones. -/
def longestZeros (words : List UInt16) : Nat × Nat :=
  let step (state : Nat × (Nat × Nat) × (Nat × Nat)) (word : UInt16) :=
    let (index, current, longest) := state
    if word = 0 then
      let start := if current.2 = 0 then index else current.1
      let current := (start, current.2 + 1)
      (index + 1, current, if current.2 > longest.2 then current else longest)
    else (index + 1, (0, 0), longest)
  (words.foldl step (0, (0, 0), (0, 0))).2.2

def hexWords (words : List UInt16) : List Char :=
  List.intercalate [':'] (words.map fun word => Nat.toDigits 16 word.toNat)

def toText (ip : Ipv6Addr) : List Char :=
  match ip.octets with
  | [0, 0, 0, 0, 0, 0, 0, 0, 0, 0, 255, 255, a, b, c, d] =>
      "::ffff:".toList ++ Ipv4Addr.toText ⟨a, b, c, d⟩
  | _ =>
      let (start, length) := longestZeros ip.segments
      if length > 1 then
        hexWords (ip.segments.take start) ++ "::".toList ++
          hexWords (ip.segments.drop (start + length))
      else hexWords ip.segments

end Ipv6Addr

inductive IpAddr where
  | v4 (ip : Ipv4Addr)
  | v6 (ip : Ipv6Addr)
deriving DecidableEq, Repr

def IpAddr.toText : IpAddr → List Char
  | .v4 ip => ip.toText
  | .v6 ip => ip.toText

inductive SocketAddr where
  | v4 (ip : Ipv4Addr) (port : UInt16)
  | v6 (ip : Ipv6Addr) (port : UInt16) (flowinfo scopeId : UInt32)
deriving DecidableEq, Repr

namespace SocketAddr

def new : IpAddr → UInt16 → SocketAddr
  | .v4 ip, port => .v4 ip port
  | .v6 ip, port => .v6 ip port 0 0

def ip : SocketAddr → IpAddr
  | .v4 ip _ => .v4 ip
  | .v6 ip _ _ _ => .v6 ip

def port : SocketAddr → UInt16
  | .v4 _ port => port
  | .v6 _ port _ _ => port

def toText : SocketAddr → List Char
  | .v4 ip port => ip.toText ++ ':' :: Nat.toDigits 10 port.toNat
  | .v6 ip port _ scopeId =>
      let scope := if scopeId = 0 then [] else '%' :: Nat.toDigits 10 scopeId.toNat
      '[' :: (ip.toText ++ scope) ++ "]:".toList ++ Nat.toDigits 10 port.toNat

/-- The address as a wire format without flow information and zone carries
it. -/
def unscoped (addr : SocketAddr) : SocketAddr := new addr.ip addr.port

@[simp] theorem ip_new (ip : IpAddr) (port : UInt16) : (new ip port).ip = ip := by
  cases ip <;> rfl

@[simp] theorem port_new (ip : IpAddr) (port : UInt16) :
    (new ip port).port = port := by
  cases ip <;> rfl

@[simp] theorem unscoped_new (ip : IpAddr) (port : UInt16) :
    (new ip port).unscoped = new ip port := by
  simp [unscoped]

end SocketAddr

end QuicProxy
