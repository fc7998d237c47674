import QuicProxy.Proxy.Hysteria2.TcpStream

namespace QuicProxy

/-! UDP messages of Hysteria2 and how a payload is cut into them
(`src/proxy/outbound/hysteria2/mod.rs`). -/

namespace Hysteria2

/-! QUIC varints. -/

def varintLen (value : Nat) : Nat :=
  if value ≤ 63 then 1
  else if value ≤ 16383 then 2
  else if value ≤ 1073741823 then 4
  else 8

def appendVarint (value : Nat) : Bytes :=
  if value ≤ 63 then [castU8 value]
  else if value ≤ 16383 then [(0x40 : UInt8) ||| castU8 (value >>> 8), castU8 value]
  else if value ≤ 1073741823 then
    [(0x80 : UInt8) ||| castU8 (value >>> 24), castU8 (value >>> 16), castU8 (value >>> 8),
      castU8 value]
  else
    [(0xc0 : UInt8) ||| castU8 (value >>> 56), castU8 (value >>> 48), castU8 (value >>> 40),
      castU8 (value >>> 32), castU8 (value >>> 24), castU8 (value >>> 16), castU8 (value >>> 8),
      castU8 value]

@[simp] theorem length_appendVarint (value : Nat) :
    (appendVarint value).length = varintLen value := by
  unfold appendVarint varintLen
  split
  · rfl
  split
  · rfl
  split <;> rfl

theorem toNat_tag_or (tag : Fin 4) (bits : Fin 64) :
    (castU8 (tag.val * 64) ||| castU8 bits.val).toNat = tag.val * 64 + bits.val := by
  revert tag bits
  decide

theorem readVarint_cons {first : UInt8} {tag bits : Nat} (value : first.toNat = tag * 64 + bits)
    (six : bits < 64) (bytes : Bytes) (length : bytes.length + 1 = 2 ^ tag) (rest : Bytes) :
    readVarint (first :: (bytes ++ rest)) =
      .ok (bytes.foldl (fun value byte => value * 256 + byte.toNat) bits, bytes.length + 1) := by
  have high : (tag * 64 + bits) / 64 = tag := by omega
  have low : (tag * 64 + bits) % 64 = bits := by omega
  simp only [readVarint, value, high, low, ← length, Nat.add_sub_cancel, List.take_left]
  rw [if_neg (by rw [List.length_append]; omega)]

theorem readVarint_appendVarint {value : Nat} (small : value < 2 ^ 62) (rest : Bytes) :
    readVarint (appendVarint value ++ rest) = .ok (value, (appendVarint value).length) := by
  have shifted (count : Nat) : value >>> count = value / 2 ^ count := Nat.shiftRight_eq_div_pow ..
  unfold appendVarint
  simp only [shifted]
  split
  · next one =>
      have first : (castU8 value).toNat = 0 * 64 + value := by
        rw [toNat_castU8]
        omega
      exact readVarint_cons first (by omega) [] rfl rest
  split
  · next two =>
      have first := toNat_tag_or 1 ⟨value / 2 ^ 8, by omega⟩
      refine (readVarint_cons first (by simp only; omega) [_] rfl rest).trans ?_
      simp only [List.foldl_cons, List.foldl_nil, toNat_castU8, List.length_cons, List.length_nil]
      congr 2
      omega
  split
  · next four =>
      have first := toNat_tag_or 2 ⟨value / 2 ^ 24, by omega⟩
      refine (readVarint_cons first (by simp only; omega) [_, _, _] rfl rest).trans ?_
      simp only [List.foldl_cons, List.foldl_nil, toNat_castU8, List.length_cons, List.length_nil]
      congr 2
      omega
  · have first := toNat_tag_or 3 ⟨value / 2 ^ 56, by omega⟩
    refine (readVarint_cons first (by simp only; omega) [_, _, _, _, _, _, _] rfl
      rest).trans ?_
    simp only [List.foldl_cons, List.foldl_nil, toNat_castU8, List.length_cons, List.length_nil]
    congr 2
    omega

/-- Max bytes for a destination address carried in a message. -/
def maxUdpAddressLen : Nat := 2048

def udpHeaderSize (destination : String) : Nat :=
  8 + varintLen (asBytes destination).length + (asBytes destination).length

structure UdpMessage where
  sessionId : UInt32
  packetId : UInt16
  fragId : UInt8
  fragCount : UInt8
  destination : String
  payload : Bytes
deriving DecidableEq

namespace UdpMessage

def headerSize (message : UdpMessage) : Nat := udpHeaderSize message.destination

def pack (message : UdpMessage) : Bytes :=
  u32ToBe message.sessionId ++ u16ToBe message.packetId ++ [message.fragId, message.fragCount] ++
    appendVarint (asBytes message.destination).length ++ asBytes message.destination ++
      message.payload

@[simp] theorem length_pack (message : UdpMessage) :
    message.pack.length = message.headerSize + message.payload.length := by
  simp only [pack, headerSize, udpHeaderSize, List.length_append, length_u32ToBe, length_u16ToBe,
    length_appendVarint, List.length_cons, List.length_nil]

end UdpMessage

def parseUdpMessage (data : Bytes) : Except String UdpMessage :=
  match data with
  | a :: b :: c :: d :: high :: low :: fragId :: fragCount :: rest =>
      if rest = [] then .error "UDP message too short"
      else
        match readVarint rest with
        | .error error => .error error
        | .ok (addrLen, used) =>
            if addrLen = 0 ∨ maxUdpAddressLen < addrLen then
              .error s!"invalid UDP destination length {addrLen}"
            else if rest.length < used + addrLen then .error "UDP message truncated"
            else
              .ok ⟨u32FromBe a b c d, u16FromBe high low, fragId, fragCount,
                fromUtf8Lossy ((rest.drop used).take addrLen), (rest.drop used).drop addrLen⟩
  | _ => .error "UDP message too short"

theorem parseUdpMessage_pack (message : UdpMessage)
    (some_byte : 1 ≤ (asBytes message.destination).length)
    (short : (asBytes message.destination).length ≤ 2048) :
    parseUdpMessage message.pack = .ok message := by
  obtain ⟨a, b, c, d, idSplit, idValue⟩ := u32ToBe_eq message.sessionId
  obtain ⟨high, low, packetSplit, packetValue⟩ := u16ToBe_eq message.packetId
  have small : (asBytes message.destination).length < 2 ^ 62 := by omega
  have length := length_appendVarint (asBytes message.destination).length
  have read := readVarint_appendVarint small (asBytes message.destination ++ message.payload)
  have nonempty : appendVarint (asBytes message.destination).length ++
      (asBytes message.destination ++ message.payload) ≠ [] := by
    intro nothing
    have := congrArg List.length nothing
    simp only [List.length_append, List.length_nil] at this
    omega
  simp only [UdpMessage.pack, idSplit, packetSplit, List.cons_append, List.nil_append,
    List.append_assoc, parseUdpMessage, if_neg nonempty, read]
  rw [if_neg (by simp only [maxUdpAddressLen]; omega),
    if_neg (by simp only [List.length_append]; omega)]
  simp only [List.drop_left, List.take_left, fromUtf8Lossy_asBytes, idValue, packetValue]

/-! Cutting a payload. -/

/-- The loop that splits the rest of a payload. -/
def splitPayload (perFragment : Nat) (positive : 0 < perFragment) (rest : Bytes) : List Bytes :=
  if rest = [] then []
  else
    rest.take (min rest.length perFragment) ::
      splitPayload perFragment positive (rest.drop (min rest.length perFragment))
termination_by rest.length
decreasing_by
  next nonempty =>
    have := List.length_pos_iff.mpr nonempty
    rw [List.length_drop]
    omega

def udpChunks (destination : String) (payload : Bytes) (maxSize : Nat) : List Bytes :=
  if payload.length + udpHeaderSize destination ≤ maxSize then [payload]
  else
    splitPayload (max (maxSize - udpHeaderSize destination) 1)
      (Nat.lt_of_lt_of_le Nat.one_pos (Nat.le_max_right ..)) payload

def fragmentUdpPayload (sessionId : UInt32) (packetId : UInt16) (destination : String)
    (payload : Bytes) (maxSize : Nat) : Option (List UdpMessage) :=
  let chunks := udpChunks destination payload maxSize
  if chunks.length ≤ 255 then
    some (chunks.zipIdx.map fun (chunk, index) =>
      ⟨sessionId, packetId, castU8 index, castU8 chunks.length, destination, chunk⟩)
  else none

section Chunks

variable {perFragment : Nat} (positive : 0 < perFragment)

theorem flatten_splitPayload (payload : Bytes) :
    (splitPayload perFragment positive payload).flatten = payload := by
  fun_induction splitPayload perFragment positive payload with
  | case1 => rfl
  | case2 rest nonempty ih => rw [List.flatten_cons, ih, List.take_append_drop]

theorem length_le_of_mem_splitPayload {payload chunk : Bytes}
    (member : chunk ∈ splitPayload perFragment positive payload) : chunk.length ≤ perFragment := by
  fun_induction splitPayload perFragment positive payload with
  | case1 => cases member
  | case2 rest nonempty ih =>
      rcases List.mem_cons.mp member with rfl | later
      · rw [List.length_take]
        omega
      · exact ih later

theorem length_splitPayload_le_iff (count : Nat) (payload : Bytes) :
    (splitPayload perFragment positive payload).length ≤ count ↔
      payload.length ≤ count * perFragment := by
  fun_induction splitPayload perFragment positive payload generalizing count with
  | case1 => simp
  | case2 rest nonempty ih =>
      have some_byte := List.length_pos_iff.mpr nonempty
      cases count with
      | zero =>
          rw [List.length_cons, Nat.zero_mul]
          omega
      | succ count =>
          rw [List.length_cons, Nat.succ_le_succ_iff, ih, List.length_drop, Nat.succ_mul]
          omega

end Chunks

end Hysteria2

end QuicProxy
