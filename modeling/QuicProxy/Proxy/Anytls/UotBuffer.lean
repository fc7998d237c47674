import QuicProxy.Data.Incremental
import QuicProxy.Proxy.Anytls.Uot

namespace QuicProxy

/-! `UotReadBuffer` under pushes and calls of `next_packet` in any order
(`src/proxy/anytls_proto.rs`). -/

namespace Uot

open TargetAddr Parsed

/-- The length that the first bytes of an address announce. -/
inductive Heads : Bytes → Nat → Prop
  | v4 (body : Bytes) : Heads (0 :: body) 7
  | v6 (body : Bytes) : Heads (1 :: body) 19
  | domain (len : UInt8) (tail : Bytes) : Heads (2 :: len :: tail) (4 + len.toNat)

theorem Heads.append {data : Bytes} {len : Nat} (heads : Heads data len) (more : Bytes) :
    Heads (data ++ more) len := by
  cases heads with
  | v4 body => exact .v4 (body ++ more)
  | v6 body => exact .v6 (body ++ more)
  | domain len tail => exact .domain len (tail ++ more)

theorem Heads.of_append {data more : Bytes} {len : Nat} (heads : Heads (data ++ more) len)
    (long : 2 ≤ data.length) : Heads data len := by
  match data with
  | first :: second :: tail =>
      cases heads with
      | v4 => exact .v4 (second :: tail)
      | v6 => exact .v6 (second :: tail)
      | domain => exact .domain second tail
  | [] | [_] => exact absurd long (by simp)

theorem targetLen_of_heads {data : Bytes} {len : Nat} (heads : Heads data len) :
    targetLen data = .ok (if len ≤ data.length then some len else none) := by
  cases heads <;> rfl

theorem targetLen_cases (data : Bytes) :
    (∃ error, ∀ more, targetLen (data ++ more) = .error error) ∨
      targetLen data = .ok none ∨ ∃ len, Heads data len ∧ len ≤ data.length := by
  cases data with
  | nil => exact .inr (.inl rfl)
  | cons atyp body =>
      have known {len : Nat} (heads : Heads (atyp :: body) len) :
          targetLen (atyp :: body) = .ok none ∨
            ∃ len, Heads (atyp :: body) len ∧ len ≤ (atyp :: body).length := by
        by_cases long : len ≤ (atyp :: body).length
        · exact .inr ⟨len, heads, long⟩
        · refine .inl ((targetLen_of_heads heads).trans ?_)
          rw [if_neg long]
      by_cases v4 : atyp = 0
      · subst v4
        exact .inr (known (.v4 body))
      by_cases v6 : atyp = 1
      · subst v6
        exact .inr (known (.v6 body))
      by_cases name : atyp = 2
      · subst name
        cases body with
        | nil => exact .inr (.inl rfl)
        | cons len tail => exact .inr (known (.domain len tail))
      refine .inl ⟨s!"unknown UoT address type: {atyp.toNat}", fun more => ?_⟩
      rw [List.cons_append]
      simp only [targetLen, v4, v6, name, if_false]

theorem exists_v4PortAt {body : Bytes} (long : 6 ≤ body.length) :
    ∃ target, v4PortAt body = some target := by
  match body with
  | a :: b :: c :: d :: high :: low :: _ => exact ⟨_, rfl⟩
  | [] | [_] | [_, _] | [_, _, _] | [_, _, _, _] | [_, _, _, _, _] => exact absurd long (by simp)

theorem exists_cons_cons {body : Bytes} (long : 2 ≤ body.length) :
    ∃ high low rest, body = high :: low :: rest := by
  match body with
  | high :: low :: rest => exact ⟨high, low, rest, rfl⟩
  | [] | [_] => exact absurd long (by simp)

theorem exists_v6PortAt {body : Bytes} (long : 18 ≤ body.length) :
    ∃ target, v6PortAt body = some target := by
  have octets : (body.take 16).length = 16 := by
    rw [List.length_take]
    omega
  have last : 2 ≤ (body.drop 16).length := by
    rw [List.length_drop]
    omega
  obtain ⟨high, low, rest, port⟩ := exists_cons_cons last
  refine ⟨.ip (SocketAddr.new (.v6 (Ipv6Addr.ofOctets (body.take 16) octets))
    (u16FromBe high low)), ?_⟩
  rw [v6PortAt, dif_pos octets, port]

theorem exists_namePortAt {len : UInt8} {tail : Bytes} (long : len.toNat + 2 ≤ tail.length) :
    ∃ port, namePortAt (len :: tail) = some (tail.take len.toNat, port) := by
  have last : 2 ≤ (tail.drop len.toNat).length := by
    rw [List.length_drop]
    omega
  obtain ⟨high, low, rest, port⟩ := exists_cons_cons last
  refine ⟨u16FromBe high low, ?_⟩
  simp only [namePortAt, port]

/-- `uot_decode_target` succeeds where `uot_target_len` finds a length, and takes
as many bytes. -/
theorem decodeTarget_of_heads {data : Bytes} {len : Nat} (heads : Heads data len)
    (long : len ≤ data.length) : ∃ target, decodeTarget data = .ok (target, len) := by
  cases heads with
  | v4 body =>
      obtain ⟨target, found⟩ := exists_v4PortAt (Nat.le_of_succ_le_succ long)
      refine ⟨target, ?_⟩
      simp only [decodeTarget, if_true, found]
  | v6 body =>
      obtain ⟨target, found⟩ := exists_v6PortAt (Nat.le_of_succ_le_succ long)
      refine ⟨target, ?_⟩
      have other : ¬(1 : UInt8) = 0 := by decide
      simp only [decodeTarget, other, if_false, if_true, found]
  | domain len tail =>
      have enough : len.toNat + 2 ≤ tail.length := by
        simp only [List.length_cons] at long
        omega
      obtain ⟨port, found⟩ := exists_namePortAt enough
      refine ⟨.domain (fromUtf8Lossy (tail.take len.toNat)) port, ?_⟩
      rw [decodeTarget_domain]
      simp only [decodeDomain, found, List.length_take]
      rw [Nat.min_eq_left (by omega), show 2 + len.toNat + 2 = 4 + len.toNat by omega]

/-! The packet at the front. -/

/-- The payload length behind the address, and what it announces. -/
inductive Body (headerLen : Nat) (data : Bytes) : Prop
  | part (cut : cutPacket headerLen data = (none, data))
  | whole (packetLen : Nat) (payload : headerLen + 2 ≤ packetLen) (long : packetLen ≤ data.length)
      (announced : ∃ high low tail, data.drop headerLen = high :: low :: tail ∧
        packetLen = headerLen + 2 + (u16FromBe high low).toNat)
      (cut : ∀ more, cutPacket headerLen (data ++ more) =
        (some (data.take packetLen), (data ++ more).drop packetLen))

theorem body (headerLen : Nat) (data : Bytes) : Body headerLen data := by
  rcases dropped : data.drop headerLen with _ | ⟨high, _ | ⟨low, tail⟩⟩
  · exact .part (by simp only [cutPacket, dropped])
  · exact .part (by simp only [cutPacket, dropped])
  · by_cases few : data.length < headerLen + 2 + (u16FromBe high low).toNat
    · exact .part (by simp only [cutPacket, dropped, few, if_true])
    · have long := Nat.le_of_not_lt few
      refine .whole _ (Nat.le_add_right ..) long ⟨high, low, tail, dropped, rfl⟩ fun more => ?_
      have front : (data ++ more).drop headerLen = high :: low :: (tail ++ more) := by
        rw [List.drop_append_of_le_length (by omega), dropped]
        rfl
      have more_long : ¬(data ++ more).length < headerLen + 2 + (u16FromBe high low).toNat := by
        rw [List.length_append]
        omega
      simp only [cutPacket, front]
      rw [if_neg more_long, List.take_append_of_le_length long]

def parsePacket (isConnect : Bool) (data : Bytes) : Parsed String Bytes :=
  match nextPacket isConnect data with
  | .error error => .failed error
  | .ok (none, _) => .need (data.length + 1)
  | .ok (some packet, _) => .done packet packet.length

inductive Front (isConnect : Bool) (data : Bytes) : Prop
  | part (next : nextPacket isConnect data = .ok (none, data))
  | unknown (error : String) (next : ∀ more, nextPacket isConnect (data ++ more) = .error error)
  | whole (headerLen packetLen : Nat)
      (header : if isConnect then headerLen = 0 else Heads data headerLen)
      (payload : headerLen + 2 ≤ packetLen) (long : packetLen ≤ data.length)
      (announced : ∃ high low tail, data.drop headerLen = high :: low :: tail ∧
        packetLen = headerLen + 2 + (u16FromBe high low).toNat)
      (next : ∀ more, nextPacket isConnect (data ++ more) =
        .ok (some (data.take packetLen), (data ++ more).drop packetLen))

theorem front (isConnect : Bool) (data : Bytes) : Front isConnect data := by
  cases isConnect with
  | true =>
      cases body 0 data with
      | part cut => exact .part (congrArg Except.ok cut)
      | whole packetLen payload long announced cut =>
          exact .whole 0 packetLen rfl payload long announced fun more =>
            congrArg Except.ok (cut more)
  | false =>
      rcases targetLen_cases data with ⟨error, unknown⟩ | short | ⟨len, heads, long⟩
      · refine .unknown error fun more => ?_
        simp only [nextPacket, Bool.false_eq_true, if_false, unknown]
      · refine .part ?_
        simp only [nextPacket, Bool.false_eq_true, if_false, short]
      · have header (more : Bytes) : nextPacket false (data ++ more) =
            .ok (cutPacket len (data ++ more)) := by
          have found := targetLen_of_heads (heads.append more)
          rw [if_pos (by rw [List.length_append]; omega)] at found
          simp only [nextPacket, Bool.false_eq_true, if_false, found]
        cases body len data with
        | part cut =>
            have here := header []
            rw [List.append_nil, cut] at here
            exact .part here
        | whole packetLen payload long announced cut =>
            exact .whole len packetLen heads payload long announced fun more =>
              (header more).trans (congrArg Except.ok (cut more))

theorem parsePacket_whole {isConnect : Bool} {data : Bytes} {packetLen : Nat}
    (long : packetLen ≤ data.length)
    (next : ∀ more, nextPacket isConnect (data ++ more) =
      .ok (some (data.take packetLen), (data ++ more).drop packetLen)) (more : Bytes) :
    parsePacket isConnect (data ++ more) = .done (data.take packetLen) packetLen := by
  simp only [parsePacket, next, List.length_take_of_le long]

theorem cuts_parsePacket (isConnect : Bool) :
    BufferOp.Cuts (nextPacket isConnect) (parsePacket isConnect) := by
  intro data
  cases front isConnect data with
  | part next => simp only [parsePacket, next]
  | unknown error next => simp only [parsePacket, at_nil next]
  | whole headerLen packetLen header payload long announced next =>
      have here := next []
      rw [List.append_nil] at here
      rw [at_nil (parsePacket_whole long next), here]

theorem steady_parsePacket (isConnect : Bool) : Steady (parsePacket isConnect) := by
  intro data
  cases front isConnect data with
  | part next =>
      refine .of_one_more ?_
      simp only [parsePacket, next]
  | unknown error next =>
      have parsed (more : Bytes) : parsePacket isConnect (data ++ more) = .failed error := by
        simp only [parsePacket, next]
      exact .failed parsed
  | whole headerLen packetLen header payload long announced next =>
      exact .done (by omega) long (parsePacket_whole long next)

theorem decodePayload_of_le (high low : UInt8) {tail : Bytes}
    (long : (u16FromBe high low).toNat ≤ tail.length) :
    ∃ payload, decodePayload (high :: low :: tail) = .ok payload :=
  ⟨_, if_neg (Nat.not_lt.mpr long)⟩

theorem decodePacket_of_nextPacket {isConnect : Bool} {data packet rest : Bytes}
    (yielded : nextPacket isConnect data = .ok (some packet, rest)) :
    ∃ decoded, decodePacket packet isConnect = .ok decoded := by
  cases front isConnect data with
  | part next => cases next.symm.trans yielded
  | unknown error next => cases (at_nil next).symm.trans yielded
  | whole headerLen packetLen header payload long announced next =>
      have here := next []
      rw [List.append_nil, yielded] at here
      cases here
      obtain ⟨high, low, tail, dropped, total⟩ := announced
      have left := congrArg List.length dropped
      simp only [List.length_drop, List.length_cons] at left
      have behind : (data.take packetLen).drop headerLen =
          high :: low :: tail.take (u16FromBe high low).toNat := by
        rw [List.drop_take, dropped, show packetLen - headerLen =
          (u16FromBe high low).toNat + 1 + 1 by omega]
        rfl
      have enough : (u16FromBe high low).toNat ≤
          (tail.take (u16FromBe high low).toNat).length := by
        rw [List.length_take]
        omega
      obtain ⟨bytes, decoded⟩ := decodePayload_of_le high low enough
      cases isConnect with
      | true =>
          cases header
          rw [List.drop_zero] at behind
          exact ⟨(none, bytes), by rw [decodePacket, if_pos rfl, behind, decoded]; rfl⟩
      | false =>
          have heads : Heads (data.take packetLen ++ data.drop packetLen) headerLen :=
            (List.take_append_drop packetLen data).symm ▸ header
          have size : (data.take packetLen).length = packetLen := List.length_take_of_le long
          obtain ⟨target, found⟩ := decodeTarget_of_heads
            (heads.of_append (by rw [size]; omega)) (by rw [size]; omega)
          refine ⟨(some target, bytes), ?_⟩
          simp only [decodePacket, Bool.false_eq_true, if_false, found, behind, decoded]
          rfl

/-! Lists of packets. -/

/-- A packet that `encode_uot_packet` can put into one of the two modes. -/
structure Packet (isConnect : Bool) where
  target : Option TargetAddr
  payload : Bytes
  mode : target.isNone = isConnect
  short : ∀ addr ∈ target, addr.ShortName
  fits : payload.length ≤ 65535

def Packet.encode {isConnect : Bool} (packet : Packet isConnect) : Except String Bytes :=
  encodePacket packet.payload packet.target

/-- What the format carries of a packet. -/
def Packet.carried {isConnect : Bool} (packet : Packet isConnect) : Option TargetAddr × Bytes :=
  (packet.target.map decoded, packet.payload)

theorem flatten_of_encode {isConnect : Bool} {packets : List (Packet isConnect)}
    {pieces : List Bytes}
    (encoded : List.Forall₂ (fun packet piece => packet.encode = .ok piece) packets pieces) :
    pieces.flatten = packets.flatMap fun packet => packetBytes packet.payload packet.target := by
  induction encoded with
  | nil => rfl
  | cons first _ ih =>
      rw [List.flatten_cons, List.flatMap_cons, (encodePacket_eq_ok first).2, ih]

theorem parsePacket_encode {isConnect : Bool} (packet : Packet isConnect) (more : Bytes) :
    parsePacket isConnect (packetBytes packet.payload packet.target ++ more) =
      .done (packetBytes packet.payload packet.target)
        (packetBytes packet.payload packet.target).length := by
  have next := nextPacket_append packet.fits packet.short more
  rw [packet.mode] at next
  simp only [parsePacket, next]

theorem decodePacket_encode {isConnect : Bool} (packet : Packet isConnect) :
    decodePacket (packetBytes packet.payload packet.target) isConnect = .ok packet.carried := by
  have decoded := decodePacket_packetBytes packet.fits packet.short
  rwa [packet.mode] at decoded

/-- However the encodings are cut and `next_packet` is called in between, the
packets come out one after the other as the format carries them. -/
theorem packets_obtained {isConnect : Bool} {packets : List (Packet isConnect)}
    {pieces : List Bytes} {ops : List (BufferOp UInt8)} {more : Bytes}
    (encoded : List.Forall₂ (fun packet piece => packet.encode = .ok piece) packets pieces)
    (cut : BufferOp.pushed ops ++ more = pieces.flatten) :
    (BufferOp.results (nextPacket isConnect) ops []).2.1 = none ∧
    (BufferOp.results (nextPacket isConnect) ops []).1.map (decodePacket · isConnect) <+:
      packets.map (.ok ·.carried) ∧
    (more = [] → ∀ calls, packets.length ≤ calls →
      (BufferOp.results (nextPacket isConnect) (ops ++ .replicate calls .next) []).1.map
        (decodePacket · isConnect) = packets.map (.ok ·.carried)) ∧
    ∀ data packet rest, nextPacket isConnect data = .ok (some packet, rest) →
      ∃ decoded, decodePacket packet isConnect = .ok decoded := by
  have ended : parsePacket isConnect [] = .need 1 := by
    cases isConnect <;> rfl
  have run := Run.flatMap (fun packet (_ : packet ∈ packets) => parsePacket_encode packet) ended
  rw [← flatten_of_encode encoded, List.append_nil, ← cut,
    ← List.nil_append (BufferOp.pushed ops)] at run
  have decode : (packets.map fun packet => packetBytes packet.payload packet.target).map
      (decodePacket · isConnect) = packets.map (.ok ·.carried) := by
    rw [List.map_map]
    exact List.map_congr_left fun packet _ => decodePacket_encode packet
  obtain ⟨rest, same, clean, left⟩ := BufferOp.results_of_run (cuts_parsePacket isConnect)
    (steady_parsePacket isConnect) run
  refine ⟨clean, ?_, fun nothing calls enough => ?_, fun data packet rest =>
    decodePacket_of_nextPacket⟩
  · rw [← decode, same, List.map_append]
    exact List.prefix_append ..
  · have few : rest.length ≤ calls := by
      have total := congrArg List.length same
      rw [List.length_map, List.length_append] at total
      omega
    rw [nothing, List.append_nil] at left
    rw [BufferOp.results_append _ _ _ clean,
      BufferOp.results_replicate (cuts_parsePacket isConnect) left few, ← same, decode]

def dnsPacket : Packet false where
  target := some (.ip (.v4 ⟨1, 1, 1, 1⟩ 53))
  payload := [7]
  mode := rfl
  short := by
    rintro _ ⟨⟩
    trivial
  fits := by decide

theorem packets_obtained_dns :
    (BufferOp.results (nextPacket false)
      ([.push [0, 1, 1, 1], .next, .push [1, 0, 53, 0, 1, 7]] ++ .replicate 1 .next) []).1.map
        (decodePacket · false) = [.ok dnsPacket.carried] := by
  have encoded : List.Forall₂ (fun packet piece => packet.encode = .ok piece) [dnsPacket]
      [[0, 1, 1, 1, 1, 0, 53, 0, 1, 7]] := .cons rfl .nil
  have cut : BufferOp.pushed [.push [0, 1, 1, 1], .next, .push [1, 0, 53, 0, 1, 7]] ++ [] =
      ([[0, 1, 1, 1, 1, 0, 53, 0, 1, 7]] : List Bytes).flatten := rfl
  exact (packets_obtained encoded cut).2.2.1 rfl 1 (by decide)

/-- To a link-local address on interface 1. -/
def scopedPacket : Packet false where
  target := some (.ip (.v6 (Ipv6Addr.ofOctets [254, 128, 0, 0, 0, 0, 0, 0, 0, 0, 0, 0, 0, 0, 0, 1]
    rfl) 53 0 1))
  payload := []
  mode := rfl
  short := by
    rintro _ ⟨⟩
    trivial
  fits := by decide

/-- The zone does not come back. -/
theorem scopedPacket_not_obtained :
    ¬∀ (packets : List (Packet false)) (pieces : List Bytes) (ops : List (BufferOp UInt8)),
      List.Forall₂ (fun packet piece => packet.encode = .ok piece) packets pieces →
        BufferOp.pushed ops = pieces.flatten → ∀ calls, packets.length ≤ calls →
          (BufferOp.results (nextPacket false) (ops ++ .replicate calls .next) []).1.map
            (decodePacket · false) = packets.map fun packet =>
              .ok (packet.target, packet.payload) := by
  intro all
  have bytes := encodePacket_of_le scopedPacket.fits scopedPacket.target
  have same := all [scopedPacket] [_] [.push _] (.cons bytes .nil) (List.append_nil _) 1
    (Nat.le_refl 1)
  revert same
  decide

end Uot

end QuicProxy
