import QuicProxy.Proxy.TargetAddr

namespace QuicProxy

/-! The address in a VMess request header: `write_to_buf_vmess`
(`src/proxy/outbound/vmess/vmess_impl/mod.rs`) and `read_vmess_addr`
(`src/proxy/inbound/vmess.rs`). -/

namespace Vmess

def writeToBuf : TargetAddr → Bytes
  | .ip (.v4 addr port) => u16ToBe port ++ 1 :: addr.octets
  | .ip (.v6 addr port _ _) => u16ToBe port ++ 3 :: addr.segments.flatMap u16ToBe
  | .domain name port =>
      u16ToBe port ++ 2 :: castU8 (asBytes name).length :: asBytes name

def readV4 (port : UInt16) : Bytes → Except String (TargetAddr × Bytes)
  | a :: b :: c :: d :: rest => .ok (.ip (SocketAddr.new (.v4 ⟨a, b, c, d⟩) port), rest)
  | _ => .error "short ipv4"

def readDomain (port : UInt16) : Bytes → Except String (TargetAddr × Bytes)
  | [] => .error "short domain"
  | len :: tail =>
      if tail.length < len.toNat then .error "short domain bytes"
      else .ok (.domain (fromUtf8Lossy (tail.take len.toNat)) port, tail.drop len.toNat)

def readV6 (port : UInt16) (buf : Bytes) : Except String (TargetAddr × Bytes) :=
  if length : (buf.take 16).length = 16 then
    .ok (.ip (SocketAddr.new (.v6 (Ipv6Addr.ofOctets (buf.take 16) length)) port),
      buf.drop 16)
  else .error "short ipv6"

/-- `read_vmess_addr`, with the bytes behind those it looks at. -/
def readAddr : Bytes → Except String (TargetAddr × Bytes)
  | high :: low :: atyp :: buf =>
      let port := u16FromBe high low
      if atyp = 1 then readV4 port buf
      else if atyp = 2 then readDomain port buf
      else if atyp = 3 then readV6 port buf
      else .error s!"unsupported vmess atyp: {atyp.toNat}"
  | _ => .error "vmess addr too short"

def decoded : TargetAddr → TargetAddr
  | .ip addr => .ip addr.unscoped
  | .domain name port => .domain name port

theorem readAddr_domain (port : UInt16) (buf : Bytes) :
    readAddr (u16ToBe port ++ 2 :: buf) = readDomain port buf := by
  obtain ⟨high, low, split, value⟩ := u16ToBe_eq port
  rw [split, ← value]
  rfl

theorem readAddr_writeToBuf {target : TargetAddr} (short : target.ShortName)
    (rest : Bytes) : readAddr (writeToBuf target ++ rest) = .ok (decoded target, rest) := by
  match target with
  | .ip (.v4 addr port) =>
      obtain ⟨high, low, split, value⟩ := u16ToBe_eq port
      rw [writeToBuf, split, ← value]
      rfl
  | .ip (.v6 addr port _ _) =>
      obtain ⟨high, low, split, value⟩ := u16ToBe_eq port
      obtain ⟨octets, length⟩ := addr
      have taken : (octets ++ rest).take 16 = octets := by rw [← length, List.take_left]
      have dropped : (octets ++ rest).drop 16 = rest := by rw [← length, List.drop_left]
      rw [writeToBuf, Ipv6Addr.flatMap_segments, split, ← value]
      change readV6 _ (octets ++ rest) = _
      simp only [readV6, taken, dropped]
      exact dif_pos length
  | .domain name port =>
      have lenByte := TargetAddr.toNat_lenByte short
      simp only [writeToBuf, List.cons_append, List.append_assoc, readAddr_domain,
        readDomain, lenByte, List.take_left, List.drop_left, fromUtf8Lossy_asBytes,
        decoded]
      exact if_neg (by rw [List.length_append]; omega)

theorem readAddr_long_domain {name : String} {port : UInt16}
    (long : 255 < (asBytes name).length) {rest left : Bytes} {result : TargetAddr}
    (decodes : readAddr (writeToBuf (.domain name port) ++ rest) = .ok (result, left)) :
    rest.length < left.length := by
  simp only [writeToBuf, List.cons_append, List.append_assoc, readAddr_domain,
    readDomain] at decodes
  split at decodes
  · cases decodes
  · cases decodes
    rw [List.length_drop, List.length_append, toNat_castU8]
    omega

end Vmess

end QuicProxy
