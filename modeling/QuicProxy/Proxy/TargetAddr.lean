import QuicProxy.Net.Parse

namespace QuicProxy

/-! Destinations and their SOCKS5 / Trojan encoding (`src/proxy/mod.rs`). -/

inductive TargetAddr where
  | ip (addr : SocketAddr)
  | domain (name : String) (port : UInt16)
deriving DecidableEq

abbrev SourceAddr := TargetAddr

/-- Source, destination and payload of a datagram (`src/proxy/outbound/mod.rs`). -/
abbrev PacketInfo := SourceAddr × TargetAddr × Bytes

namespace TargetAddr

def port : TargetAddr → UInt16
  | ip addr => addr.port
  | domain _ port => port

def host : TargetAddr → String
  | ip addr => String.ofList addr.ip.toText
  | domain name _ => name

def toText : TargetAddr → List Char
  | ip addr => addr.toText
  | domain name port => name.toList ++ ':' :: Nat.toDigits 10 port.toNat

def dummy : TargetAddr := ip (SocketAddr.new (.v4 Ipv4Addr.unspecified) 0)

def encodedLen : TargetAddr → Nat
  | ip (.v4 _ _) => 1 + 4 + 2
  | ip (.v6 _ _ _ _) => 1 + 16 + 2
  | domain name _ => 1 + 1 + (asBytes name).length + 2

/-- `write_to`, as the bytes it appends.  The length of a domain is cast to one
byte. -/
def writeTo : TargetAddr → Bytes
  | ip (.v4 addr port) => 1 :: addr.octets ++ u16ToBe port
  | ip (.v6 addr port _ _) => 4 :: addr.octets ++ u16ToBe port
  | domain name port =>
      3 :: castU8 (asBytes name).length :: asBytes name ++ u16ToBe port

def toBytes (target : TargetAddr) : Bytes := target.writeTo

/-- A host given as text: an IP literal becomes the address it denotes. -/
def ofName (name : String) (port : UInt16) : TargetAddr :=
  match IpAddr.parse name.toList with
  | some addr => ip (SocketAddr.new addr port)
  | none => domain name port

/-! The three bodies that every address layout of the proxy puts behind its
own type byte. -/

def v4PortAt : Bytes → Option TargetAddr
  | a :: b :: c :: d :: high :: low :: _ =>
      some (ip (SocketAddr.new (.v4 ⟨a, b, c, d⟩) (u16FromBe high low)))
  | _ => none

def v6PortAt (body : Bytes) : Option TargetAddr :=
  if length : (body.take 16).length = 16 then
    match body.drop 16 with
    | high :: low :: _ =>
        some (ip (SocketAddr.new
          (.v6 (Ipv6Addr.ofOctets (body.take 16) length)) (u16FromBe high low)))
    | _ => none
  else none

def namePortAt : Bytes → Option (Bytes × UInt16)
  | [] => none
  | len :: tail =>
      match tail.drop len.toNat with
      | high :: low :: _ => some (tail.take len.toNat, u16FromBe high low)
      | _ => none

def decodeName (body : Bytes) : Except String (Option (TargetAddr × Nat)) :=
  match namePortAt body with
  | some (bytes, port) =>
      match fromUtf8 bytes with
      | some name => .ok (some (ofName name port, 2 + bytes.length + 2))
      | none => .error "Invalid domain"
  | none => .ok none

/-- `decode`: the address at the front of `buf` and the bytes it took, or
`none` when `buf` ends too early. -/
def decode (buf : Bytes) : Except String (Option (TargetAddr × Nat)) :=
  match buf with
  | [] => .ok none
  | atyp :: body =>
      if atyp = 1 then .ok ((v4PortAt body).map (·, 7))
      else if atyp = 3 then decodeName body
      else if atyp = 4 then .ok ((v6PortAt body).map (·, 19))
      else .error s!"Invalid ATYP: {atyp.toNat}"

end TargetAddr

def readExact (count : Nat) (stream : Bytes) : Except String (Bytes × Bytes) :=
  if stream.length < count then .error "early eof"
  else .ok (stream.take count, stream.drop count)

def readU8 : Bytes → Except String (UInt8 × Bytes)
  | [] => .error "early eof"
  | byte :: rest => .ok (byte, rest)

def readU16 : Bytes → Except String (UInt16 × Bytes)
  | high :: low :: rest => .ok (u16FromBe high low, rest)
  | _ => .error "early eof"

theorem readExact_of_length_lt {count : Nat} {stream : Bytes} (short : stream.length < count) :
    readExact count stream = .error "early eof" := if_pos short

theorem readExact_of_le {count : Nat} {stream : Bytes} (enough : count ≤ stream.length) :
    readExact count stream = .ok (stream.take count, stream.drop count) :=
  if_neg (Nat.not_lt.mpr enough)

theorem readExact_append (first rest : Bytes) :
    readExact first.length (first ++ rest) = .ok (first, rest) := by
  rw [readExact, if_neg (by rw [List.length_append]; omega), List.take_left,
    List.drop_left]

theorem readU16_append (word : UInt16) (rest : Bytes) :
    readU16 (u16ToBe word ++ rest) = .ok (word, rest) := by
  obtain ⟨high, low, split, value⟩ := u16ToBe_eq word
  rw [split]
  simp only [List.cons_append, List.nil_append, readU16, value]

namespace TargetAddr

def readFrom (stream : Bytes) : Except String (TargetAddr × Bytes) :=
  match readU8 stream with
  | .error _ => .error "faild to read_u8"
  | .ok (atyp, stream) =>
      if atyp = 1 then do
        let (octets, stream) ← readExact 4 stream
        let (port, stream) ← readU16 stream
        match octets with
        | [a, b, c, d] => pure (ip (SocketAddr.new (.v4 ⟨a, b, c, d⟩) port), stream)
        | _ => .error "early eof"
      else if atyp = 3 then do
        let (len, stream) ← readU8 stream
        let (name, stream) ← readExact len.toNat stream
        let (port, stream) ← readU16 stream
        match fromUtf8 name with
        | some name => pure (ofName name port, stream)
        | none => .error "Invalid domain"
      else if atyp = 4 then do
        let (octets, stream) ← readExact 16 stream
        let (port, stream) ← readU16 stream
        if length : octets.length = 16 then
          pure (ip (SocketAddr.new (.v6 (Ipv6Addr.ofOctets octets length)) port), stream)
        else .error "early eof"
      else .error s!"Invalid ATYP: {atyp.toNat}"

/-! What the encoding keeps of an address. -/

def ShortName : TargetAddr → Prop
  | ip _ => True
  | domain name _ => (asBytes name).length ≤ 255

def Unscoped : TargetAddr → Prop
  | ip addr => addr.unscoped = addr
  | domain _ _ => True

def decoded : TargetAddr → TargetAddr
  | ip addr => ip addr.unscoped
  | domain name port => ofName name port

/-- The same address; a domain that is an IP literal may come back as that
`Ip`. -/
def SameAddr (target result : TargetAddr) : Prop :=
  result = target ∨
    ∃ name port addr, target = domain name port ∧
      IpAddr.parse name.toList = some addr ∧ result = ip (SocketAddr.new addr port)

theorem sameAddr_ofName (name : String) (port : UInt16) :
    SameAddr (domain name port) (ofName name port) := by
  unfold ofName
  cases parsed : IpAddr.parse name.toList with
  | none => exact .inl rfl
  | some addr => exact .inr ⟨name, port, addr, rfl, parsed, rfl⟩

theorem sameAddr_ip_iff (addr : SocketAddr) (result : TargetAddr) :
    SameAddr (ip addr) result ↔ result = ip addr := by
  constructor
  · rintro (same | ⟨_, _, _, shape, _⟩)
    · exact same
    · cases shape
  · exact .inl

@[simp] theorem length_writeTo (target : TargetAddr) :
    target.writeTo.length = target.encodedLen := by
  match target with
  | ip (.v4 _ _) => rfl
  | ip (.v6 addr port _ _) =>
      simp only [writeTo, encodedLen, List.cons_append, List.length_cons,
        List.length_append, addr.length_octets, length_u16ToBe]
  | domain name port =>
      simp only [writeTo, encodedLen, List.cons_append, List.length_cons,
        List.length_append, length_u16ToBe]
      omega

theorem v4PortAt_octets (addr : Ipv4Addr) (port : UInt16) (rest : Bytes) :
    v4PortAt (addr.octets ++ (u16ToBe port ++ rest)) =
      some (ip (SocketAddr.new (.v4 addr) port)) := by
  obtain ⟨high, low, split, value⟩ := u16ToBe_eq port
  rw [split, ← value]
  rfl

theorem v6PortAt_octets (addr : Ipv6Addr) (port : UInt16) (rest : Bytes) :
    v6PortAt (addr.octets ++ (u16ToBe port ++ rest)) =
      some (ip (SocketAddr.new (.v6 addr) port)) := by
  obtain ⟨octets, length⟩ := addr
  obtain ⟨high, low, split, value⟩ := u16ToBe_eq port
  rw [split, ← value]
  simp only [v6PortAt, ← length, List.take_left, List.drop_left, List.cons_append]
  exact dif_pos trivial

theorem namePortAt_append (len : UInt8) (name rest : Bytes) (port : UInt16)
    (length : name.length = len.toNat) :
    namePortAt (len :: (name ++ (u16ToBe port ++ rest))) = some (name, port) := by
  obtain ⟨high, low, split, value⟩ := u16ToBe_eq port
  rw [split]
  simp only [namePortAt, ← length, List.drop_left, List.take_left,
    List.cons_append, value]

theorem v4PortAt_short {body : Bytes} (short : body.length < 6) :
    v4PortAt body = none := by
  match body with
  | [] | [_] | [_, _] | [_, _, _] | [_, _, _, _] | [_, _, _, _, _] => rfl
  | _ :: _ :: _ :: _ :: _ :: _ :: _ =>
      simp only [List.length_cons] at short
      omega

theorem v6PortAt_short {body : Bytes} (short : body.length < 18) :
    v6PortAt body = none := by
  unfold v6PortAt
  split
  · split
    · next dropped =>
        have := congrArg List.length dropped
        simp only [List.length_drop, List.length_cons] at this
        omega
    · rfl
  · rfl

theorem namePortAt_short {len : UInt8} {tail : Bytes}
    (short : tail.length < len.toNat + 2) : namePortAt (len :: tail) = none := by
  simp only [namePortAt]
  split
  · next dropped =>
      have := congrArg List.length dropped
      simp only [List.length_drop, List.length_cons] at this
      omega
  · rfl

theorem length_of_namePortAt {len : UInt8} {tail name : Bytes} {port : UInt16}
    (read : namePortAt (len :: tail) = some (name, port)) :
    name.length = len.toNat := by
  simp only [namePortAt] at read
  split at read
  · next dropped =>
      have := congrArg List.length dropped
      simp only [List.length_drop, List.length_cons] at this
      cases read
      rw [List.length_take]
      omega
  · cases read

theorem toNat_lenByte {name : String} (short : (asBytes name).length ≤ 255) :
    (castU8 (asBytes name).length).toNat = (asBytes name).length := by
  rw [toNat_castU8]
  omega

theorem decode_writeTo {target : TargetAddr} (short : target.ShortName)
    (rest : Bytes) :
    decode (target.writeTo ++ rest) =
      .ok (some (target.decoded, target.writeTo.length)) := by
  rw [length_writeTo]
  match target with
  | ip (.v4 addr port) =>
      simp only [writeTo, List.cons_append, List.append_assoc]
      change Except.ok ((v4PortAt _).map _) = _
      rw [v4PortAt_octets]
      rfl
  | ip (.v6 addr port _ _) =>
      simp only [writeTo, List.cons_append, List.append_assoc]
      change Except.ok ((v6PortAt _).map _) = _
      rw [v6PortAt_octets]
      rfl
  | domain name port =>
      have lenByte := toNat_lenByte short
      simp only [writeTo, List.cons_append, List.append_assoc]
      change decodeName _ = _
      simp only [decodeName, namePortAt_append _ _ _ _ lenByte.symm,
        fromUtf8_asBytes, decoded, encodedLen]

theorem readFrom_writeTo {target : TargetAddr} (short : target.ShortName) (rest : Bytes) :
    readFrom (target.writeTo ++ rest) = .ok (target.decoded, rest) := by
  match target with
  | ip (.v4 addr port) =>
      have octets := readExact_append addr.octets (u16ToBe port ++ rest)
      simp only [writeTo, List.cons_append, List.append_assoc, readFrom, readU8, if_pos, bind,
        Except.bind]
      rw [show (4 : Nat) = addr.octets.length from rfl, octets]
      simp only [readU16_append]
      rfl
  | ip (.v6 addr port _ _) =>
      have octets := readExact_append addr.octets (u16ToBe port ++ rest)
      rw [addr.length_octets] at octets
      simp only [writeTo, List.cons_append, List.append_assoc, readFrom, readU8, bind, Except.bind,
        octets, readU16_append]
      exact dif_pos addr.length_octets
  | domain name port =>
      have lenByte := toNat_lenByte short
      have octets := readExact_append (asBytes name) (u16ToBe port ++ rest)
      simp only [writeTo, List.cons_append, List.append_assoc, readFrom, readU8, bind, Except.bind,
        lenByte, octets, readU16_append, fromUtf8_asBytes]
      rfl

theorem decode_take_writeTo {target : TargetAddr} (short : target.ShortName)
    {count : Nat} (strict : count < target.writeTo.length) :
    decode (target.writeTo.take count) = .ok none := by
  rw [length_writeTo] at strict
  match target, count with
  | _, 0 => rfl
  | ip (.v4 addr port), count + 1 =>
      simp only [writeTo, List.cons_append, List.take_succ_cons]
      change Except.ok ((v4PortAt _).map _) = _
      rw [v4PortAt_short]
      · rfl
      · simp only [encodedLen] at strict
        rw [List.length_take]
        omega
  | ip (.v6 addr port _ _), count + 1 =>
      simp only [writeTo, List.cons_append, List.take_succ_cons]
      change Except.ok ((v6PortAt _).map _) = _
      rw [v6PortAt_short]
      · rfl
      · simp only [encodedLen] at strict
        rw [List.length_take]
        omega
  | domain name port, 1 => rfl
  | domain name port, count + 2 =>
      have lenByte := toNat_lenByte short
      simp only [writeTo, List.cons_append, List.take_succ_cons]
      change decodeName _ = _
      rw [decodeName, namePortAt_short]
      · simp only [encodedLen] at strict
        rw [List.length_take, lenByte]
        omega

theorem decode_long_domain {name : String} {port : UInt16}
    (long : 255 < (asBytes name).length) (rest : Bytes)
    {result : TargetAddr} {used : Nat}
    (decodes : decode ((domain name port).writeTo ++ rest) =
      .ok (some (result, used))) :
    used < (domain name port).writeTo.length := by
  rw [length_writeTo]
  simp only [writeTo, List.cons_append] at decodes
  change decodeName _ = _ at decodes
  unfold decodeName at decodes
  split at decodes
  · next read =>
      have length := length_of_namePortAt read
      rw [toNat_castU8] at length
      split at decodes
      · cases decodes
        simp only [encodedLen]
        omega
      · cases decodes
  · cases decodes

end TargetAddr

end QuicProxy
