import QuicProxy.Proxy.TargetAddr

namespace QuicProxy

/-! UDP-over-TCP packets of AnyTLS (`src/proxy/anytls_proto.rs`). -/

namespace Uot

open TargetAddr

def writeTarget : TargetAddr → Bytes
  | .ip (.v4 addr port) => 0 :: addr.octets ++ u16ToBe port
  | .ip (.v6 addr port _ _) => 1 :: addr.octets ++ u16ToBe port
  | .domain name port =>
      2 :: castU8 (asBytes name).length :: asBytes name ++ u16ToBe port

def decodeDomain (body : Bytes) : Except String (TargetAddr × Nat) :=
  match body with
  | [] => .error "UoT domain address too short"
  | len :: tail =>
      match namePortAt (len :: tail) with
      | some (bytes, port) =>
          .ok (.domain (fromUtf8Lossy bytes) port, 2 + bytes.length + 2)
      | none => .error "UoT domain address too short for domain length"

def decodeTarget (data : Bytes) : Except String (TargetAddr × Nat) :=
  match data with
  | [] => .error "empty UoT packet"
  | atyp :: body =>
      if atyp = 0 then
        match v4PortAt body with
        | some target => .ok (target, 7)
        | none => .error "UoT IPv4 address too short"
      else if atyp = 1 then
        match v6PortAt body with
        | some target => .ok (target, 19)
        | none => .error "UoT IPv6 address too short"
      else if atyp = 2 then decodeDomain body
      else .error s!"unknown UoT address type: {atyp.toNat}"

def encodePacket (payload : Bytes) (target : Option TargetAddr) :
    Except String Bytes :=
  if payload.length ≤ 65535 then
    .ok ((target.elim [] writeTarget) ++ u16ToBe (castU16 payload.length) ++ payload)
  else .error "UoT payload exceeds 65535 bytes"

def decodePayload (body : Bytes) : Except String Bytes :=
  match body with
  | high :: low :: tail =>
      let payloadLen := (u16FromBe high low).toNat
      if tail.length < payloadLen then .error "UoT packet too short for payload"
      else .ok (tail.take payloadLen)
  | _ => .error "UoT packet too short for length"

def decodePacket (data : Bytes) (isConnect : Bool) :
    Except String (Option TargetAddr × Bytes) :=
  if isConnect then (decodePayload data).map (none, ·)
  else
    match decodeTarget data with
    | .error error => .error error
    | .ok (target, headerLen) =>
        (decodePayload (data.drop headerLen)).map (some target, ·)

def targetLen (data : Bytes) : Except String (Option Nat) :=
  let required (len : Nat) : Except String (Option Nat) :=
    .ok (if len ≤ data.length then some len else none)
  match data with
  | [] => .ok none
  | atyp :: body =>
      if atyp = 0 then required 7
      else if atyp = 1 then required 19
      else if atyp = 2 then
        match body with
        | [] => .ok none
        | domainLen :: _ => required (4 + domainLen.toNat)
      else .error s!"unknown UoT address type: {atyp.toNat}"

def cutPacket (headerLen : Nat) (data : Bytes) : Option Bytes × Bytes :=
  match data.drop headerLen with
  | high :: low :: _ =>
      let packetLen := headerLen + 2 + (u16FromBe high low).toNat
      if data.length < packetLen then (none, data)
      else (some (data.take packetLen), data.drop packetLen)
  | _ => (none, data)

/-- `UotReadBuffer::next_packet`: the next whole packet, and the buffer. -/
def nextPacket (isConnect : Bool) (data : Bytes) :
    Except String (Option Bytes × Bytes) :=
  if isConnect then .ok (cutPacket 0 data)
  else
    match targetLen data with
    | .error error => .error error
    | .ok none => .ok (none, data)
    | .ok (some headerLen) => .ok (cutPacket headerLen data)

/-! The address in front of a packet. -/

def decoded : TargetAddr → TargetAddr
  | .ip addr => .ip addr.unscoped
  | .domain name port => .domain name port

@[simp] theorem length_writeTarget (target : TargetAddr) :
    (writeTarget target).length = target.encodedLen := by
  match target with
  | .ip (.v4 _ _) => rfl
  | .ip (.v6 addr port _ _) =>
      simp only [writeTarget, encodedLen, List.cons_append, List.length_cons,
        List.length_append, addr.length_octets, length_u16ToBe]
  | .domain name port =>
      simp only [writeTarget, encodedLen, List.cons_append, List.length_cons,
        List.length_append, length_u16ToBe]
      omega

theorem decodeTarget_domain (body : Bytes) :
    decodeTarget (2 :: body) = decodeDomain body := rfl

theorem decodeTarget_writeTarget {target : TargetAddr} (short : target.ShortName)
    (rest : Bytes) :
    decodeTarget (writeTarget target ++ rest) =
      .ok (decoded target, (writeTarget target).length) := by
  rw [length_writeTarget]
  match target with
  | .ip (.v4 addr port) =>
      simp only [writeTarget, List.cons_append, List.append_assoc, decodeTarget,
        if_pos, v4PortAt_octets]
      rfl
  | .ip (.v6 addr port _ _) =>
      simp only [writeTarget, List.cons_append, List.append_assoc]
      change (match v6PortAt _ with | some target => _ | none => _) = _
      rw [v6PortAt_octets]
      rfl
  | .domain name port =>
      have lenByte := toNat_lenByte short
      simp only [writeTarget, List.cons_append, List.append_assoc,
        decodeTarget_domain, decodeDomain,
        namePortAt_append _ _ _ _ lenByte.symm, fromUtf8Lossy_asBytes, decoded,
        encodedLen]

theorem decodeTarget_long_domain {name : String} {port : UInt16}
    (long : 255 < (asBytes name).length) (rest : Bytes)
    {result : TargetAddr} {used : Nat}
    (decodes : decodeTarget (writeTarget (.domain name port) ++ rest) =
      .ok (result, used)) :
    used < (writeTarget (.domain name port)).length := by
  rw [length_writeTarget]
  simp only [writeTarget, List.cons_append, decodeTarget_domain, decodeDomain]
    at decodes
  split at decodes
  · next read =>
      have length := length_of_namePortAt read
      rw [toNat_castU8] at length
      cases decodes
      simp only [encodedLen]
      omega
  · cases decodes

theorem targetLen_writeTarget {target : TargetAddr} (short : target.ShortName)
    (rest : Bytes) :
    targetLen (writeTarget target ++ rest) =
      .ok (some (writeTarget target).length) := by
  have enough : target.encodedLen ≤ (writeTarget target ++ rest).length := by
    rw [List.length_append, length_writeTarget]
    omega
  rw [length_writeTarget]
  match target with
  | .ip (.v4 addr port) =>
      change 7 ≤ _ at enough
      change Except.ok (if 7 ≤ _ then _ else _) = _
      rw [if_pos enough]
      rfl
  | .ip (.v6 addr port _ _) =>
      change 19 ≤ _ at enough
      change Except.ok (if 19 ≤ _ then _ else _) = _
      rw [if_pos enough]
      rfl
  | .domain name port =>
      have lenByte := toNat_lenByte short
      have required : 4 + (castU8 (asBytes name).length).toNat =
          encodedLen (.domain name port) := by
        rw [lenByte]
        simp only [encodedLen]
        omega
      change Except.ok (if 4 + (castU8 (asBytes name).length).toNat ≤ _
        then some (4 + (castU8 (asBytes name).length).toNat) else none) = _
      rw [required, if_pos enough]

theorem targetLen_take {target : TargetAddr} (short : target.ShortName) {count : Nat}
    (strict : count < (writeTarget target).length) :
    targetLen ((writeTarget target).take count) = .ok none := by
  have less : ((writeTarget target).take count).length < target.encodedLen := by
    rw [List.length_take, ← length_writeTarget]
    omega
  match target, count with
  | _, 0 => rfl
  | .ip (.v4 addr port), count + 1 =>
      change _ < 7 at less
      change Except.ok (if 7 ≤ _ then _ else _) = _
      rw [if_neg (Nat.not_le_of_lt less)]
  | .ip (.v6 addr port _ _), count + 1 =>
      change _ < 19 at less
      change Except.ok (if 19 ≤ _ then _ else _) = _
      rw [if_neg (Nat.not_le_of_lt less)]
  | .domain name port, 1 => rfl
  | .domain name port, count + 2 =>
      have lenByte := toNat_lenByte short
      simp only [encodedLen] at less
      change Except.ok (if 4 + (castU8 (asBytes name).length).toNat ≤ _
        then some (4 + (castU8 (asBytes name).length).toNat) else none) = _
      rw [if_neg (by omega)]

/-! Whole packets in the read buffer. -/

def packetBytes (payload : Bytes) (target : Option TargetAddr) : Bytes :=
  (target.elim [] writeTarget) ++ (u16ToBe (castU16 payload.length) ++ payload)

theorem encodePacket_eq_ok {payload packet : Bytes} {target : Option TargetAddr}
    (encoded : encodePacket payload target = .ok packet) :
    payload.length ≤ 65535 ∧ packet = packetBytes payload target := by
  unfold encodePacket at encoded
  split at encoded
  · next fits =>
      cases encoded
      exact ⟨fits, by simp only [packetBytes, List.append_assoc]⟩
  · cases encoded

theorem encodePacket_of_le {payload : Bytes} (fits : payload.length ≤ 65535)
    (target : Option TargetAddr) :
    encodePacket payload target = .ok (packetBytes payload target) := by
  simp only [encodePacket, if_pos fits, packetBytes, List.append_assoc]

theorem toNat_payloadLen {payload : Bytes} (fits : payload.length ≤ 65535) :
    (castU16 payload.length).toNat = payload.length := by
  rw [toNat_castU16]
  omega

theorem cutPacket_append {payload : Bytes} (fits : payload.length ≤ 65535)
    (header more : Bytes) :
    cutPacket header.length
        (header ++ (u16ToBe (castU16 payload.length) ++ payload) ++ more) =
      (some (header ++ (u16ToBe (castU16 payload.length) ++ payload)), more) := by
  obtain ⟨high, low, split, value⟩ := u16ToBe_eq (castU16 payload.length)
  have length : (header ++ (u16ToBe (castU16 payload.length) ++ payload)).length =
      header.length + 2 + (u16FromBe high low).toNat := by
    rw [List.length_append, List.length_append, length_u16ToBe, value,
      toNat_payloadLen fits]
    omega
  have front : (header ++ (u16ToBe (castU16 payload.length) ++ payload) ++ more).drop
      header.length = high :: low :: (payload ++ more) := by
    rw [List.append_assoc, List.drop_left, split]
    rfl
  simp only [cutPacket, front]
  rw [if_neg (by rw [List.length_append, length]; omega), ← length, List.take_left,
    List.drop_left]

theorem cutPacket_take {payload : Bytes} (fits : payload.length ≤ 65535) (header : Bytes)
    {count : Nat} (strict : count < 2 + payload.length) :
    cutPacket header.length
        (header ++ (u16ToBe (castU16 payload.length) ++ payload).take count) =
      (none, header ++ (u16ToBe (castU16 payload.length) ++ payload).take count) := by
  obtain ⟨high, low, split, value⟩ := u16ToBe_eq (castU16 payload.length)
  rw [split]
  match count with
  | 0 | 1 => simp only [cutPacket, List.drop_left]; rfl
  | count + 2 =>
      change cutPacket header.length (header ++ high :: low :: payload.take count) = _
      simp only [cutPacket, List.drop_left]
      apply if_pos
      simp only [value, toNat_payloadLen fits, List.length_append, List.length_cons,
        List.length_take]
      omega

theorem nextPacket_append {payload : Bytes} (fits : payload.length ≤ 65535)
    {target : Option TargetAddr} (short : ∀ addr ∈ target, addr.ShortName)
    (more : Bytes) :
    nextPacket target.isNone (packetBytes payload target ++ more) =
      .ok (some (packetBytes payload target), more) := by
  cases target with
  | none => exact congrArg Except.ok (cutPacket_append fits [] more)
  | some addr =>
      have length : targetLen (packetBytes payload (some addr) ++ more) =
          .ok (some (writeTarget addr).length) := by
        simp only [packetBytes, Option.elim_some, List.append_assoc]
        exact targetLen_writeTarget (short addr rfl) _
      simp only [nextPacket, Option.isNone_some, Bool.false_eq_true, if_false, length]
      exact congrArg Except.ok (cutPacket_append fits (writeTarget addr) more)

theorem nextPacket_take {payload : Bytes} (fits : payload.length ≤ 65535)
    {target : Option TargetAddr} (short : ∀ addr ∈ target, addr.ShortName)
    {count : Nat} (strict : count < (packetBytes payload target).length) :
    nextPacket target.isNone ((packetBytes payload target).take count) =
      .ok (none, (packetBytes payload target).take count) := by
  simp only [packetBytes, List.length_append, length_u16ToBe] at strict
  cases target with
  | none =>
      exact congrArg Except.ok (cutPacket_take fits [] (by simpa using strict))
  | some addr =>
      simp only [packetBytes, Option.elim_some, nextPacket, Option.isNone_some,
        Bool.false_eq_true, if_false] at strict ⊢
      rw [List.take_append]
      rcases Nat.lt_or_ge count (writeTarget addr).length with inside | whole
      · rw [Nat.sub_eq_zero_of_le (by omega), List.take_zero, List.append_nil,
          targetLen_take (short addr rfl) inside]
      · rw [List.take_of_length_le whole, targetLen_writeTarget (short addr rfl)]
        exact congrArg Except.ok (cutPacket_take fits (writeTarget addr) (by omega))

theorem decodePacket_packetBytes {payload : Bytes} (fits : payload.length ≤ 65535)
    {target : Option TargetAddr} (short : ∀ addr ∈ target, addr.ShortName) :
    decodePacket (packetBytes payload target) target.isNone =
      .ok (target.map decoded, payload) := by
  obtain ⟨high, low, split, value⟩ := u16ToBe_eq (castU16 payload.length)
  have body : decodePayload (u16ToBe (castU16 payload.length) ++ payload) =
      .ok payload := by
    rw [split]
    simp only [List.cons_append, List.nil_append, decodePayload, value,
      toNat_payloadLen fits, Nat.lt_irrefl, if_false, List.take_length]
  cases target with
  | none =>
      change (decodePayload (u16ToBe (castU16 payload.length) ++ payload)).map _ = _
      rw [body]
      rfl
  | some addr =>
      simp only [packetBytes, Option.elim_some, decodePacket, Option.isNone_some,
        Bool.false_eq_true, if_false, decodeTarget_writeTarget (short addr rfl),
        List.drop_left, body]
      rfl

end Uot

end QuicProxy
