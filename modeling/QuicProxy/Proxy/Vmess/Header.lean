import QuicProxy.Proxy.Vmess.Addr
import QuicProxy.Proxy.Vmess.Stream

namespace QuicProxy

/-! The VMess request header: the plaintext of `send_handshake_request`
(`src/proxy/outbound/vmess/vmess_impl/stream.rs`) and `parse_request`
(`src/proxy/inbound/vmess.rs`).  A `none` is a panic. -/

namespace Vmess

def version : UInt8 := 1

def commandTcp : UInt8 := 1

def commandUdp : UInt8 := 2

/-- What the handshake of a `VmessStream` reads of it.  `VmessStream::new` refuses the
securities other than 3, 4 and 5. -/
structure Handshake where
  reqBodyIv : Vector UInt8 16
  reqBodyKey : Vector UInt8 16
  respV : UInt8
  security : UInt8
  nibble : security.toNat < 16
  dst : TargetAddr
  isUdp : Bool

/-- The random bytes behind the address, of which there are `rand_range(0..16)`. -/
structure Padding where
  bytes : Bytes
  short : bytes.length < 16

def Handshake.summed (stream : Handshake) (padding : Padding) : Bytes :=
  version :: stream.reqBodyIv.toList ++ stream.reqBodyKey.toList ++
    [stream.respV, optionChunkStream, castU8 (padding.bytes.length <<< 4) ||| stream.security, 0,
      if stream.isUdp then commandUdp else commandTcp] ++
    writeToBuf stream.dst ++ padding.bytes

/-- The plaintext; `fnv1a` is the hash of another crate. -/
def Handshake.header (fnv1a : Bytes → UInt32) (stream : Handshake) (padding : Padding) : Bytes :=
  stream.summed padding ++ u32ToBe (fnv1a (stream.summed padding))

/-! Reading. -/

structure VmessRequest where
  dst : TargetAddr
  security : UInt8
  isUdp : Bool
  reqBodyIv : Bytes
  reqBodyKey : Bytes
  respV : UInt8
deriving DecidableEq

def getU8 : Bytes → Option (UInt8 × Bytes)
  | byte :: cur => some (byte, cur)
  | [] => none

def copyToSlice (count : Nat) (cur : Bytes) : Option (Bytes × Bytes) :=
  if count ≤ cur.length then some (cur.take count, cur.drop count) else none

def slice (buf : Bytes) (start stop : Nat) : Option Bytes :=
  if start ≤ stop ∧ stop ≤ buf.length then some ((buf.drop start).take (stop - start)) else none

def readVmessAddr (buf : Bytes) : Option (Except String TargetAddr) :=
  if buf.length < 3 then some (.error "vmess addr too short")
  else do
    let port := u16FromBe (← buf[0]?) (← buf[1]?)
    let atyp ← buf[2]?
    let buf ← slice buf 3 buf.length
    if atyp = 0x01 then
      if buf.length < 4 then some (.error "short ipv4")
      else do
        let host := .v4 ⟨← buf[0]?, ← buf[1]?, ← buf[2]?, ← buf[3]?⟩
        some (.ok (.ip (SocketAddr.new host port)))
    else if atyp = 0x02 then
      if buf.isEmpty then some (.error "short domain")
      else do
        let len := (← buf[0]?).toNat
        if buf.length < 1 + len then some (.error "short domain bytes")
        else do
          let domain ← slice buf 1 (1 + len)
          some (.ok (.domain (fromUtf8Lossy domain) port))
    else if atyp = 0x03 then
      if buf.length < 16 then some (.error "short ipv6")
      else do
        let octets ← slice buf 0 16
        -- `copy_from_slice` of another length panics
        if length : octets.length = 16 then
          some (.ok (.ip (SocketAddr.new (.v6 (Ipv6Addr.ofOctets octets length)) port)))
        else none
    else some (.error s!"unsupported vmess atyp: {atyp.toNat}")

def parseRequest (header : Bytes) : Option (Except String VmessRequest) :=
  if header.length < 41 then some (.error "vmess header too short")
  else do
    let (readVersion, cur) ← getU8 header
    if readVersion ≠ version then
      some (.error s!"unsupported vmess version: {readVersion.toNat}")
    else do
      let (reqBodyIv, cur) ← copyToSlice 16 cur
      let (reqBodyKey, cur) ← copyToSlice 16 cur
      let (respV, cur) ← getU8 cur
      let (_, cur) ← getU8 cur
      let (padSecurity, cur) ← getU8 cur
      let paddingLen := (padSecurity >>> 4).toNat
      let security := padSecurity &&& 0x0F
      let (_, cur) ← getU8 cur
      let (cmd, cur) ← getU8 cur
      let stop := cur.length - (4 + paddingLen)
      let dst ← readVmessAddr (← slice cur 0 stop)
      some (dst.map fun dst =>
        { dst, security, isUdp := cmd == commandUdp, reqBodyIv, reqBodyKey, respV })

/-! What is read. -/

theorem getU8_of_lt {cur : Bytes} {count : Nat} (enough : count + 1 ≤ cur.length) :
    ∃ byte rest, getU8 cur = some (byte, rest) ∧ count ≤ rest.length := by
  rcases cur with _ | ⟨byte, rest⟩
  · exact absurd enough (Nat.not_succ_le_zero count)
  · exact ⟨byte, rest, rfl, Nat.le_of_succ_le_succ enough⟩

theorem copyToSlice_of_le {cur : Bytes} {size count : Nat} (enough : count + size ≤ cur.length) :
    ∃ bytes rest, copyToSlice size cur = some (bytes, rest) ∧ count ≤ rest.length := by
  refine ⟨cur.take size, cur.drop size, if_pos (by omega), ?_⟩
  rw [List.length_drop]
  omega

theorem copyToSlice_append {size : Nat} {front : Bytes} (length : front.length = size)
    (rest : Bytes) : copyToSlice size (front ++ rest) = some (front, rest) := by
  subst length
  rw [copyToSlice, if_pos (by rw [List.length_append]; omega), List.take_left, List.drop_left]

theorem slice_zero {buf : Bytes} {stop : Nat} (within : stop ≤ buf.length) :
    slice buf 0 stop = some (buf.take stop) := if_pos ⟨Nat.zero_le stop, within⟩

theorem readVmessAddr_eq (buf : Bytes) :
    readVmessAddr buf = some ((readAddr buf).map Prod.fst) := by
  rcases buf with _ | ⟨high, _ | ⟨low, _ | ⟨atyp, buf⟩⟩⟩
  · rfl
  · rfl
  · rfl
  have long : ¬(high :: low :: atyp :: buf).length < 3 := by
    simp only [List.length_cons]
    omega
  have behind : slice (high :: low :: atyp :: buf) 3 (high :: low :: atyp :: buf).length =
      some buf := by
    rw [slice, if_pos ⟨Nat.le_of_not_lt long, Nat.le_refl _⟩]
    exact congrArg some (List.take_length)
  unfold readVmessAddr readAddr
  rw [if_neg long]
  simp only [List.getElem?_cons_zero, List.getElem?_cons_succ, Option.bind_eq_bind,
    Option.bind_some, behind]
  by_cases v4 : atyp = 1
  · rw [if_pos v4, if_pos v4]
    rcases buf with _ | ⟨a, _ | ⟨b, _ | ⟨c, _ | ⟨d, rest⟩⟩⟩⟩
    · rfl
    · rfl
    · rfl
    · rfl
    have enough : ¬(a :: b :: c :: d :: rest).length < 4 := by
      simp only [List.length_cons]
      omega
    rw [if_neg enough]
    rfl
  rw [if_neg v4, if_neg v4]
  by_cases domain : atyp = 2
  · rw [if_pos domain, if_pos domain]
    rcases buf with _ | ⟨len, tail⟩
    · rfl
    rw [List.isEmpty_cons, if_neg Bool.false_ne_true, readDomain, List.getElem?_cons_zero,
      Option.bind_some]
    by_cases short : tail.length < len.toNat
    · rw [if_pos short, if_pos (by rw [List.length_cons]; omega)]
      rfl
    have long : 1 + len.toNat ≤ (len :: tail).length := by
      rw [List.length_cons]
      omega
    rw [if_neg short, if_neg (Nat.not_lt_of_le long), slice,
      if_pos ⟨Nat.le_add_right 1 _, long⟩, Nat.add_sub_cancel_left]
    rfl
  rw [if_neg domain, if_neg domain]
  by_cases v6 : atyp = 3
  · rw [if_pos v6, if_pos v6, readV6]
    by_cases short : buf.length < 16
    · have cut : (buf.take 16).length ≠ 16 := by
        rw [List.length_take]
        omega
      rw [if_pos short, dif_neg cut]
      rfl
    have whole : (buf.take 16).length = 16 := by
      rw [List.length_take]
      omega
    rw [if_neg short, slice_zero (Nat.le_of_not_lt short), Option.bind_some, dif_pos whole,
      dif_pos whole]
    rfl
  rw [if_neg v6, if_neg v6]
  rfl

theorem parseRequest_ne_none (header : Bytes) : parseRequest header ≠ none := by
  by_cases short : header.length < 41
  · rw [parseRequest, if_pos short]
    exact Option.some_ne_none _
  -- 38 of at least 41 bytes are taken off one after the other
  have enough : 40 + 1 ≤ header.length := Nat.le_of_not_lt short
  obtain ⟨readVersion, _, takeVersion, enough⟩ := getU8_of_lt enough
  obtain ⟨reqBodyIv, _, takeIv, enough⟩ :=
    copyToSlice_of_le (show 24 + 16 ≤ List.length _ from enough)
  obtain ⟨reqBodyKey, _, takeKey, enough⟩ :=
    copyToSlice_of_le (show 8 + 16 ≤ List.length _ from enough)
  obtain ⟨respV, _, takeRespV, enough⟩ := getU8_of_lt (show 7 + 1 ≤ List.length _ from enough)
  obtain ⟨option, _, takeOption, enough⟩ := getU8_of_lt (show 6 + 1 ≤ List.length _ from enough)
  obtain ⟨padSecurity, _, takePad, enough⟩ := getU8_of_lt (show 5 + 1 ≤ List.length _ from enough)
  obtain ⟨reserved, _, takeReserved, enough⟩ :=
    getU8_of_lt (show 4 + 1 ≤ List.length _ from enough)
  obtain ⟨cmd, cur, takeCmd, enough⟩ := getU8_of_lt (show 3 + 1 ≤ List.length _ from enough)
  rw [parseRequest, if_neg short]
  simp only [Option.bind_eq_bind, Option.bind_some, takeVersion, takeIv, takeKey, takeRespV,
    takeOption, takePad, takeReserved, takeCmd, slice_zero (Nat.sub_le ..), readVmessAddr_eq]
  split
  · exact Option.some_ne_none _
  · exact Option.some_ne_none _

theorem padSecurity_nibbles {paddingLen : Nat} {security : UInt8} (short : paddingLen < 16)
    (nibble : security.toNat < 16) :
    ((castU8 (paddingLen <<< 4) ||| security) >>> 4).toNat = paddingLen ∧
      (castU8 (paddingLen <<< 4) ||| security) &&& 0x0F = security := by
  have all : ∀ paddingLen security : Fin 16,
      ((castU8 (paddingLen.val <<< 4) ||| UInt8.ofNat security.val) >>> 4).toNat =
          paddingLen.val ∧
        (castU8 (paddingLen.val <<< 4) ||| UInt8.ofNat security.val) &&& 0x0F =
          UInt8.ofNat security.val := by
    decide +kernel
  have here := all ⟨paddingLen, short⟩ ⟨security.toNat, nibble⟩
  dsimp only at here
  rw [UInt8.ofNat_toNat] at here
  exact here

/-- What the server makes of a handshake. -/
def Handshake.request (stream : Handshake) (dst : TargetAddr) : VmessRequest where
  dst := dst
  security := stream.security
  isUdp := stream.isUdp
  reqBodyIv := stream.reqBodyIv.toList
  reqBodyKey := stream.reqBodyKey.toList
  respV := stream.respV

theorem Handshake.summed_append (stream : Handshake) (padding : Padding) (tail : Bytes) :
    stream.summed padding ++ tail = version :: (stream.reqBodyIv.toList ++
      (stream.reqBodyKey.toList ++ stream.respV :: optionChunkStream ::
        (castU8 (padding.bytes.length <<< 4) ||| stream.security) :: 0 ::
          (if stream.isUdp then commandUdp else commandTcp) ::
            (writeToBuf stream.dst ++ (padding.bytes ++ tail)))) := by
  unfold Handshake.summed
  simp only [List.append_assoc, List.cons_append, List.nil_append]

theorem parseRequest_summed {stream : Handshake} (padding : Padding)
    (short : stream.dst.ShortName) {tail : Bytes} (four : tail.length = 4) :
    parseRequest (stream.summed padding ++ tail) =
      some (.ok (stream.request (decoded stream.dst))) := by
  obtain ⟨high, low⟩ := padSecurity_nibbles padding.short stream.nibble
  have cmd : ((if stream.isUdp then commandUdp else commandTcp) == commandUdp) = stream.isUdp := by
    cases stream.isUdp <;> rfl
  have stop : (writeToBuf stream.dst ++ (padding.bytes ++ tail)).length -
      (4 + padding.bytes.length) = (writeToBuf stream.dst).length := by
    simp only [List.length_append]
    omega
  have address : readVmessAddr (writeToBuf stream.dst) = some (.ok (decoded stream.dst)) := by
    have read := readAddr_writeToBuf short []
    rw [List.append_nil] at read
    rw [readVmessAddr_eq, read]
    rfl
  have behind : slice (writeToBuf stream.dst ++ (padding.bytes ++ tail)) 0
      (writeToBuf stream.dst).length = some (writeToBuf stream.dst) := by
    rw [slice_zero (by rw [List.length_append]; omega), List.take_left]
  have long : ¬(stream.summed padding ++ tail).length < 41 := by
    rw [Handshake.summed_append]
    simp only [List.length_cons, List.length_append, Vector.length_toList]
    omega
  rw [parseRequest, if_neg long, Handshake.summed_append]
  simp only [getU8, Option.bind_eq_bind, Option.bind_some,
    copyToSlice_append (Vector.length_toList ..), ne_eq, not_true_eq_false, if_false, high, low,
    cmd, stop, behind, address]
  rfl

/-- The request is read back from its header, an IPv6 address without flow information
and zone, and no bytes make `parse_request` panic. -/
theorem parseRequest_reads (fnv1a : Bytes → UInt32) :
    (∀ (stream : Handshake) (padding : Padding), stream.dst.ShortName →
      parseRequest (stream.header fnv1a padding) =
        some (.ok (stream.request (decoded stream.dst)))) ∧
      ∀ header, parseRequest header ≠ none :=
  ⟨fun _ padding short => parseRequest_summed padding short (length_u32ToBe _),
    parseRequest_ne_none⟩

def scopedHandshake : Handshake where
  reqBodyIv := .replicate 16 7
  reqBodyKey := .replicate 16 9
  respV := 5
  security := securityAes128Gcm
  nibble := by decide
  dst := .ip (.v6 (Ipv6Addr.ofSegments [0xfe80, 0, 0, 0, 0, 0, 0, 1] rfl) 443 0 3)
  isUdp := false

theorem parseRequest_reads_scoped :
    parseRequest (scopedHandshake.header (fun _ => 0) ⟨[1], by decide⟩) =
        some (.ok (scopedHandshake.request
          (.ip (.v6 (Ipv6Addr.ofSegments [0xfe80, 0, 0, 0, 0, 0, 0, 1] rfl) 443 0 0)))) ∧
      parseRequest [] ≠ none :=
  ⟨(parseRequest_reads fun _ => 0).1 scopedHandshake ⟨[1], by decide⟩ trivial,
    (parseRequest_reads fun _ => 0).2 []⟩

theorem scopedTarget_not_read : ¬∀ (fnv1a : Bytes → UInt32) (stream : Handshake)
    (padding : Padding), stream.dst.ShortName →
      parseRequest (stream.header fnv1a padding) = some (.ok (stream.request stream.dst)) := by
  intro all
  have read := all (fun _ => 0) scopedHandshake ⟨[1], by decide⟩ trivial
  have here : parseRequest (scopedHandshake.header (fun _ => 0) ⟨[1], by decide⟩) =
      some (.ok (scopedHandshake.request (decoded scopedHandshake.dst))) :=
    @parseRequest_summed scopedHandshake _ trivial _ (length_u32ToBe _)
  have same := congrArg VmessRequest.dst (Except.ok.inj (Option.some.inj (read.symm.trans here)))
  revert same
  decide

end Vmess

end QuicProxy
