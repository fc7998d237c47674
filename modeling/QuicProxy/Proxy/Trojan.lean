import Mathlib.Data.List.Forall2
import QuicProxy.Data.Incremental
import QuicProxy.Proxy.TargetAddr
import QuicProxy.Utils.ReadAhead

namespace QuicProxy

/-! Trojan UDP packets: the two `send_to`s and the buffered packet reader of the
peer (`src/proxy/outbound/trojan.rs`, `src/proxy/inbound/trojan.rs`). -/

open Parsed ReadAhead

namespace TargetAddr

theorem v4PortAt_more {body : Bytes} {target : TargetAddr} (found : v4PortAt body = some target) :
    6 ≤ body.length ∧ ∀ more, v4PortAt (body ++ more) = some target := by
  match body with
  | a :: b :: c :: d :: high :: low :: rest =>
      refine ⟨?_, fun more => found⟩
      simp only [List.length_cons]
      omega
  | [] | [_] | [_, _] | [_, _, _] | [_, _, _, _] | [_, _, _, _, _] => cases found

theorem v6PortAt_more {body : Bytes} {target : TargetAddr} (found : v6PortAt body = some target) :
    18 ≤ body.length ∧ ∀ more, v6PortAt (body ++ more) = some target := by
  rcases Nat.lt_or_ge body.length 18 with short | long
  · cases (v6PortAt_short short).symm.trans found
  · refine ⟨long, fun more => ?_⟩
    have taken : (body ++ more).take 16 = body.take 16 :=
      List.take_append_of_le_length (by omega)
    have dropped : (body ++ more).drop 16 = body.drop 16 ++ more :=
      List.drop_append_of_le_length (by omega)
    have octets : (body.take 16).length = 16 := List.length_take_of_le (by omega)
    simp only [v6PortAt, taken, dropped, dif_pos octets] at found ⊢
    rcases port : body.drop 16 with _ | ⟨high, _ | ⟨low, rest⟩⟩
    · rw [port] at found
      cases found
    · rw [port] at found
      cases found
    · rw [port] at found
      exact found

theorem namePortAt_more {body name : Bytes} {port : UInt16}
    (found : namePortAt body = some (name, port)) :
    name.length + 3 ≤ body.length ∧ ∀ more, namePortAt (body ++ more) = some (name, port) := by
  cases body with
  | nil => cases found
  | cons len tail =>
      have length := length_of_namePortAt found
      rcases Nat.lt_or_ge tail.length (len.toNat + 2) with short | long
      · cases (namePortAt_short short).symm.trans found
      · refine ⟨?_, fun more => ?_⟩
        · rw [List.length_cons]
          omega
        · have taken : (tail ++ more).take len.toNat = tail.take len.toNat :=
            List.take_append_of_le_length (by omega)
          have dropped : (tail ++ more).drop len.toNat = tail.drop len.toNat ++ more :=
            List.drop_append_of_le_length (by omega)
          simp only [List.cons_append, namePortAt, taken, dropped] at found ⊢
          rcases here : tail.drop len.toNat with _ | ⟨high, _ | ⟨low, rest⟩⟩
          · rw [here] at found
            cases found
          · rw [here] at found
            cases found
          · rw [here] at found
            exact found

/-- What `decode` may make of a buffer that may still grow. -/
inductive Decoding (buf : Bytes) : Prop
  | part (decoded : decode buf = .ok none)
  | refused (error : String) (decoded : ∀ more, decode (buf ++ more) = .error error)
  | whole (addr : TargetAddr) (used : Nat) (positive : 0 < used) (within : used ≤ buf.length)
      (decoded : ∀ more, decode (buf ++ more) = .ok (some (addr, used)))

theorem decoding_name (body : Bytes) : Decoding (3 :: body) := by
  have decodes (more : Bytes) : decode (3 :: body ++ more) = decodeName (body ++ more) := rfl
  cases found : namePortAt body with
  | none =>
      refine .part ?_
      have here := decodes []
      rw [List.append_nil, List.append_nil, decodeName, found] at here
      exact here
  | some read =>
      obtain ⟨bytes, port⟩ := read
      obtain ⟨long, same⟩ := namePortAt_more found
      cases text : fromUtf8 bytes with
      | none =>
          refine .refused "Invalid domain" fun more => ?_
          rw [decodes, decodeName, same]
          simp only [text]
      | some name =>
          refine .whole (ofName name port) (2 + bytes.length + 2) (by omega)
            (by rw [List.length_cons]; omega) fun more => ?_
          rw [decodes, decodeName, same]
          simp only [text]

theorem decoding_of_body {atyp : UInt8} {body : Bytes} {size : Nat}
    {read : Bytes → Option TargetAddr}
    (decodes : ∀ more, decode (atyp :: (body ++ more)) =
      .ok ((read (body ++ more)).map (·, size + 1)))
    (settled : ∀ addr, read body = some addr →
      size ≤ body.length ∧ ∀ more, read (body ++ more) = some addr) : Decoding (atyp :: body) := by
  cases found : read body with
  | none =>
      have here := decodes []
      rw [List.append_nil, found] at here
      exact .part here
  | some addr =>
      obtain ⟨long, same⟩ := settled addr found
      refine .whole addr (size + 1) (Nat.succ_pos size) (Nat.succ_le_succ long) fun more => ?_
      rw [List.cons_append, decodes, same]
      rfl

theorem decoding (buf : Bytes) : Decoding buf := by
  cases buf with
  | nil => exact .part rfl
  | cons atyp body =>
      by_cases v4 : atyp = 1
      · subst v4
        exact decoding_of_body (fun more => rfl) fun addr => v4PortAt_more
      by_cases isName : atyp = 3
      · subst isName
        exact decoding_name body
      by_cases v6 : atyp = 4
      · subst v6
        exact decoding_of_body (fun more => rfl) fun addr => v6PortAt_more
      refine .refused s!"Invalid ATYP: {atyp.toNat}" fun more => ?_
      rw [List.cons_append]
      simp only [decode, v4, isName, v6, if_false]

end TargetAddr

namespace Trojan

open TargetAddr

def crlf : Bytes := [13, 10]

/-- What a `send_to` has written, and what it has returned. -/
structure Sent where
  written : Bytes
  result : Except String Nat

/-- The body that both `send_to`s have, on a stream that takes what it is given.
The length is cast to 16 bits. -/
def writePacket (addr : TargetAddr) (buf : Bytes) : Sent :=
  ⟨addr.writeTo ++ u16ToBe (castU16 buf.length) ++ crlf ++ buf, .ok buf.length⟩

/-- `TrojanUdpSocket::send_to` sends to the target. -/
def TrojanUdpSocket.sendTo : PacketInfo → Sent
  | (_, target, buf) => writePacket target buf

/-- `TrojanInboundPacket::send_to` sends a reply of its source. -/
def TrojanInboundPacket.sendTo : PacketInfo → Sent
  | (source, _, buf) => writePacket source buf

/-- One turn of the loop of `read_packet` up to its `fill`, which is given the
number of bytes to ask for. -/
def parsePacket (buf : Bytes) : Parsed String (TargetAddr × Bytes) :=
  match decode buf with
  | .error error => .failed error
  | .ok none => .need (buf.length + 1)
  | .ok (some (addr, addrLen)) =>
      let headerLen := addrLen + 4
      match buf.drop addrLen with
      | high :: low :: cr :: lf :: tail =>
          let len := (u16FromBe high low).toNat
          if [cr, lf] ≠ crlf then .failed "Invalid CRLF in Trojan UDP packet"
          else if tail.length < len then .need (headerLen + len)
          else .done (addr, tail.take len) (headerLen + len)
      | _ => .need (buf.length + 1)

theorem parsePacket_of_decode {buf : Bytes} {addr : TargetAddr} {addrLen : Nat}
    (decoded : decode buf = .ok (some (addr, addrLen))) {high low cr lf : UInt8} {tail : Bytes}
    (behind : buf.drop addrLen = high :: low :: cr :: lf :: tail) :
    parsePacket buf =
      if [cr, lf] ≠ crlf then .failed "Invalid CRLF in Trojan UDP packet"
      else if tail.length < (u16FromBe high low).toNat then
        .need (addrLen + 4 + (u16FromBe high low).toNat)
      else .done (addr, tail.take (u16FromBe high low).toNat)
        (addrLen + 4 + (u16FromBe high low).toNat) := by
  simp only [parsePacket, decoded, behind]

theorem steady_parsePacket : Steady parsePacket := by
  intro buf
  cases decoding buf with
  | part decoded =>
      refine .of_one_more ?_
      simp only [parsePacket, decoded]
  | refused error decoded =>
      have parsed (more : Bytes) : parsePacket (buf ++ more) = .failed error := by
        simp only [parsePacket, decoded]
      exact .failed parsed
  | whole addr addrLen positive within decoded =>
      rcases behind : buf.drop addrLen with _ | ⟨high, _ | ⟨low, _ | ⟨cr, _ | ⟨lf, tail⟩⟩⟩⟩
      iterate 4
        · refine .of_one_more ?_
          simp only [parsePacket, at_nil decoded, behind]
      have size := congrArg List.length behind
      simp only [List.length_drop, List.length_cons] at size
      have grown (more : Bytes) :
          (buf ++ more).drop addrLen = high :: low :: cr :: lf :: (tail ++ more) := by
        rw [List.drop_append_of_le_length within, behind]
        rfl
      have parses (more : Bytes) := parsePacket_of_decode (decoded more) (grown more)
      by_cases wrong : [cr, lf] ≠ crlf
      · exact .failed fun more => (parses more).trans (if_pos wrong)
      rcases Nat.lt_or_ge tail.length (u16FromBe high low).toNat with few | enough
      · have need (more : Bytes) (few : (tail ++ more).length < (u16FromBe high low).toNat) :=
          (parses more).trans ((if_neg wrong).trans (if_pos few))
        have here := need [] (by rwa [List.append_nil])
        rw [List.append_nil] at here
        refine .unsettled here (by omega) fun more short => ⟨_, need more ?_⟩
        rw [List.length_append] at short ⊢
        omega
      · have given (more : Bytes) : parsePacket (buf ++ more) =
            .done (addr, tail.take (u16FromBe high low).toNat)
              (addrLen + 4 + (u16FromBe high low).toNat) := by
          rw [parses, if_neg wrong, if_neg (by rw [List.length_append]; omega),
            List.take_append_of_le_length enough]
        exact .done (by omega) (by omega) given

/-- `UdpPacketReader` with the call of `read_packet` that is under way, which
waits in a `fill` for so many bytes. -/
structure UdpPacketReader where
  waiting : Option Nat
  buf : Bytes
  rx : List PollRead

namespace UdpPacketReader

def new (rx : List PollRead) : UdpPacketReader := ⟨none, [], rx⟩

/-- The loop of `read_packet`, polled until it has to wait. -/
def turns (buf : Bytes) (rx : List PollRead) :
    Poll (Except String (TargetAddr × Bytes)) × UdpPacketReader :=
  match _ : parsePacket buf with
  | .failed error => (.ready (.error error), ⟨none, buf, rx⟩)
  | .done packet used => (.ready (.ok packet), ⟨none, buf.drop used, rx⟩)
  | .need count =>
      match _ : pollFill count false rx buf with
      | (.pending, buf, rx) => (.pending, ⟨some count, buf, rx⟩)
      | (.ready (.error error), buf, rx) => (.ready (.error error), ⟨none, buf, rx⟩)
      | (.ready (.ok _), buf, rx) => turns buf rx
termination_by rx.length
decreasing_by
  have parsed := ‹parsePacket _ = .need _›
  exact length_lt_of_pollFill (steady_parsePacket.need parsed).1 ‹pollFill _ _ _ _ = _›

/-- One poll of the call of `read_packet` that is under way, or of a new one. -/
def poll (reader : UdpPacketReader) :
    Poll (Except String (TargetAddr × Bytes)) × UdpPacketReader :=
  match reader.waiting with
  | none => turns reader.buf reader.rx
  | some count =>
      match pollFill count false reader.rx reader.buf with
      | (.pending, buf, rx) => (.pending, ⟨some count, buf, rx⟩)
      | (.ready (.error error), buf, rx) => (.ready (.error error), ⟨none, buf, rx⟩)
      | (.ready (.ok _), buf, rx) => turns buf rx

/-- Only the call is gone with it: the buffer is the reader's. -/
def drop (reader : UdpPacketReader) : UdpPacketReader := { reader with waiting := none }

end UdpPacketReader

def reader : Reader UdpPacketReader String (TargetAddr × Bytes) :=
  ⟨UdpPacketReader.poll, UdpPacketReader.drop⟩

namespace UdpPacketReader

/-- The bytes that the reader has not returned yet.  A `fill` that waits was asked
for bytes that still miss. -/
inductive Left : UdpPacketReader → Bytes → Prop
  | between {buf rest : Bytes} {rx : List PollRead} (feeds : Feeds rx rest) :
      Left ⟨none, buf, rx⟩ (buf ++ rest)
  | within {asked more rest : Bytes} {count : Nat} {rx : List PollRead}
      (parsed : parsePacket asked = .need count) (feeds : Feeds rx rest) :
      Left ⟨some count, asked ++ more, rx⟩ (asked ++ more ++ rest)

def size (reader : UdpPacketReader) : Nat := reader.rx.length

theorem polled_turns {rest : Bytes} {rx : List PollRead} (feeds : Feeds rx rest) (buf : Bytes) :
    Reader.Polled parsePacket Left size (buf ++ rest) rx.length (turns buf rx) := by
  fun_induction turns buf rx generalizing rest with
  | case1 buf rx error parsed => exact .breaks (steady_parsePacket.failed parsed rest)
  | case2 buf rx packet used parsed =>
      obtain ⟨positive, within, given⟩ := steady_parsePacket.done parsed
      refine .gives (given rest) ?_ (Nat.le_refl _)
      rw [List.drop_append_of_le_length within]
      exact .between feeds
  | case3 buf rx count parsed after rx' polled =>
      have fills := fillsFrom_pollFill feeds count buf
      rw [polled] at fills
      cases fills with
      | @waits more left _ fed same short less =>
          rw [← same, ← List.append_assoc]
          exact .waits (.within parsed fed) less
  | case4 buf rx count parsed error after rx' polled =>
      have fills := fillsFrom_pollFill feeds count buf
      rw [polled] at fills
      cases fills with
      | ends short =>
          obtain ⟨later, again⟩ := (steady_parsePacket.need parsed).2 rest short
          exact .ends again
  | case5 buf rx count parsed result after rx' polled ih =>
      have fills := fillsFrom_pollFill feeds count buf
      rw [polled] at fills
      cases fills with
      | @full more left _ fed same enough no_more =>
          rw [← same, ← List.append_assoc]
          exact (ih fed).mono no_more

theorem follows : reader.Follows parsePacket Left size where
  polls here := by
    cases here with
    | between feeds => exact polled_turns feeds _
    | @within asked more rest count rx parsed feeds =>
        have fills := fillsFrom_pollFill feeds count (asked ++ more)
        change Reader.Polled parsePacket Left size _ rx.length
          (poll ⟨some count, asked ++ more, rx⟩)
        simp only [poll]
        generalize pollFill count false rx (asked ++ more) = after at fills
        cases fills with
        | @waits again left rx fed same short less =>
            have waiting : Left ⟨some count, asked ++ (more ++ again), rx⟩
              (asked ++ (more ++ again) ++ left) := .within parsed fed
            rw [← same]
            simp only [List.append_assoc] at waiting ⊢
            exact .waits waiting less
        | @full again left _ fed same enough no_more =>
            rw [← same, ← List.append_assoc _ again]
            exact (polled_turns fed _).mono no_more
        | ends short =>
            rw [List.append_assoc] at short ⊢
            obtain ⟨later, again⟩ := (steady_parsePacket.need parsed).2 _ short
            exact .ends again
  drops here := by
    cases here with
    | between feeds => exact ⟨.between feeds, Nat.le_refl _⟩
    | within parsed feeds => exact ⟨.between feeds, Nat.le_refl _⟩

end UdpPacketReader

/-! Sequences of sends. -/

inductive Side where
  | outbound
  | inbound
deriving DecidableEq

namespace Side

def sendTo : Side → PacketInfo → Sent
  | outbound => TrojanUdpSocket.sendTo
  | inbound => TrojanInboundPacket.sendTo

/-- The address that the packet names to the peer, and its payload. -/
def pair : Side → PacketInfo → TargetAddr × Bytes
  | outbound, (_, target, buf) => (target, buf)
  | inbound, (source, _, buf) => (source, buf)

theorem sendTo_eq (side : Side) (packet : PacketInfo) :
    side.sendTo packet = writePacket (side.pair packet).1 (side.pair packet).2 := by
  cases side <;> rfl

def written (side : Side) (packets : List PacketInfo) : Bytes :=
  packets.flatMap fun packet => (side.sendTo packet).written

def accepted (side : Side) (packets : List PacketInfo) : List (TargetAddr × Bytes) :=
  packets.filterMap fun packet =>
    match (side.sendTo packet).result with
    | .ok _ => some (side.pair packet)
    | .error _ => none

theorem accepted_eq (side : Side) (packets : List PacketInfo) :
    side.accepted packets = packets.map side.pair := by
  unfold accepted
  rw [← List.filterMap_eq_map]
  congr
  funext packet
  rw [sendTo_eq]
  rfl

end Side

/-- A packet as it was sent and as it was received, where `same` says which
addresses count as the same. -/
def SamePair (same : TargetAddr → TargetAddr → Prop) (sent received : TargetAddr × Bytes) : Prop :=
  same sent.1 received.1 ∧ received.2 = sent.2

/-- A refused send has written nothing.  The peer's reader, however the stream is
cut and its calls are dropped and repeated, returns the accepted packets one
after the other, fails only behind the last, and gets to its end. -/
structure Delivers (same : TargetAddr → TargetAddr → Prop) (side : Side)
    (packets : List PacketInfo) : Prop where
  refused {packet : PacketInfo} (member : packet ∈ packets) {error : String}
    (failed : (side.sendTo packet).result = .error error) : (side.sendTo packet).written = []
  front {rx : List PollRead} (feeds : Feeds rx (side.written packets)) (drops : List Bool) :
    List.Forall₂ (SamePair same)
      ((side.accepted packets).take (reader.results drops (.new rx)).1.length)
      (reader.results drops (.new rx)).1
  whole {rx : List PollRead} (feeds : Feeds rx (side.written packets)) (drops : List Bool)
    (failed : (reader.results drops (.new rx)).2 ≠ none) :
    (reader.results drops (.new rx)).1.length = (side.accepted packets).length
  ends {rx : List PollRead} (feeds : Feeds rx (side.written packets)) (drops : List Bool)
    (enough : rx.length + (side.accepted packets).length < drops.length) :
    (reader.results drops (.new rx)).2 ≠ none

/-- What the reader finds where `send_to` has written: as much of the payload as
the cast length tells. -/
theorem parsePacket_written {addr : TargetAddr} (short : addr.ShortName) (buf more : Bytes) :
    parsePacket ((writePacket addr buf).written ++ more) =
      .done (addr.decoded, buf.take (buf.length % 65536))
        (addr.writeTo.length + 4 + buf.length % 65536) := by
  obtain ⟨high, low, split, value⟩ := u16ToBe_eq (castU16 buf.length)
  have same : (writePacket addr buf).written ++ more =
      addr.writeTo ++ high :: low :: 13 :: 10 :: (buf ++ more) := by
    simp only [writePacket, split, crlf, List.append_assoc, List.cons_append, List.nil_append]
  have length : (u16FromBe high low).toNat = buf.length % 65536 := by
    rw [value, toNat_castU16]
  have within : buf.length % 65536 ≤ buf.length := Nat.mod_le ..
  rw [same, parsePacket_of_decode (decode_writeTo short _) List.drop_left, length,
    if_neg (by decide), if_neg (by rw [List.length_append]; omega),
    List.take_append_of_le_length within]

theorem parsePacket_fits {addr : TargetAddr} (short : addr.ShortName) {buf : Bytes}
    (fits : buf.length ≤ 65535) (more : Bytes) :
    parsePacket ((writePacket addr buf).written ++ more) =
      .done (addr.decoded, buf) (writePacket addr buf).written.length := by
  have small : buf.length % 65536 = buf.length := Nat.mod_eq_of_lt (by omega)
  have length : (writePacket addr buf).written.length = addr.writeTo.length + 4 + buf.length := by
    simp only [writePacket, crlf, List.length_append, length_u16ToBe, List.length_cons,
      List.length_nil]
  rw [parsePacket_written short, small, List.take_length, length]

variable {same : TargetAddr → TargetAddr → Prop} {side : Side} {packets : List PacketInfo}

/-- Sends whose payload has a length of 16 bits, of addresses that come back. -/
def Plain (same : TargetAddr → TargetAddr → Prop) (side : Side) (packet : PacketInfo) : Prop :=
  (side.pair packet).2.length ≤ 65535 ∧ same (side.pair packet).1 (side.pair packet).1.decoded

theorem run_of_plain (short : ∀ packet ∈ packets, (side.pair packet).1.ShortName)
    (plain : ∀ packet ∈ packets, Plain same side packet) :
    Run parsePacket (side.written packets)
      (packets.map fun packet => ((side.pair packet).1.decoded, (side.pair packet).2)) none := by
  have ended : parsePacket [] = .need 1 := rfl
  have parsed (packet : PacketInfo) (member : packet ∈ packets) (more : Bytes) :=
    parsePacket_fits (short packet member) (plain packet member).1 more
  have run := Run.flatMap parsed ended
  rw [List.append_nil] at run
  unfold Side.written
  simp only [Side.sendTo_eq]
  exact run

theorem delivers_of_plain (short : ∀ packet ∈ packets, (side.pair packet).1.ShortName)
    (plain : ∀ packet ∈ packets, Plain same side packet) : Delivers same side packets where
  refused {packet} _ error failed := by
    rw [Side.sendTo_eq] at failed
    cases failed
  front {rx} feeds drops := by
    have here : UdpPacketReader.Left (.new rx) (side.written packets) := .between feeds
    obtain ⟨given, -⟩ := UdpPacketReader.follows.given here (run_of_plain short plain) drops
    have pairs : List.Forall₂ (SamePair same) (side.accepted packets)
        (packets.map fun packet => ((side.pair packet).1.decoded, (side.pair packet).2)) := by
      rw [Side.accepted_eq, List.forall₂_map_left_iff, List.forall₂_map_right_iff]
      exact List.forall₂_same.mpr fun packet member => ⟨(plain packet member).2, rfl⟩
    have front := List.forall₂_take (reader.results drops (.new rx)).1.length pairs
    rwa [← List.prefix_iff_eq_take.mp given.front] at front
  whole {rx} feeds drops failed := by
    have here : UdpPacketReader.Left (.new rx) (side.written packets) := .between feeds
    obtain ⟨given, -⟩ := UdpPacketReader.follows.given here (run_of_plain short plain) drops
    rw [given.whole failed, Side.accepted_eq, List.length_map, List.length_map]
  ends {rx} feeds drops enough := by
    have here : UdpPacketReader.Left (.new rx) (side.written packets) := .between feeds
    obtain ⟨-, ends⟩ := UdpPacketReader.follows.given here (run_of_plain short plain) drops
    rw [Side.accepted_eq, List.length_map] at enough
    exact ends (by rwa [List.length_map])

theorem plain_of_run (short : ∀ packet ∈ packets, (side.pair packet).1.ShortName)
    {values : List (TargetAddr × Bytes)} {stop : Option String}
    (run : Run parsePacket (side.written packets) values stop)
    (pairs : List.Forall₂ (SamePair same) (packets.map side.pair) values) :
    ∀ packet ∈ packets, Plain same side packet := by
  induction packets generalizing values with
  | nil => exact fun _ member => absurd member List.not_mem_nil
  | cons packet packets ih =>
      obtain ⟨first, others⟩ := List.forall_mem_cons.mp short
      have parsed := parsePacket_written first (side.pair packet).2 (side.written packets)
      have wire : side.written (packet :: packets) =
          (writePacket (side.pair packet).1 (side.pair packet).2).written ++
            side.written packets := by
        rw [← Side.sendTo_eq]
        rfl
      rw [wire] at run
      obtain ⟨later, rfl, rest⟩ := run.of_done parsed
      rw [List.map_cons, List.forall₂_cons] at pairs
      obtain ⟨⟨address, payload⟩, pairs⟩ := pairs
      have fits : (side.pair packet).2.length ≤ 65535 := by
        have length := congrArg List.length payload
        rw [List.length_take] at length
        omega
      refine List.forall_mem_cons.mpr ⟨⟨fits, address⟩, ?_⟩
      obtain ⟨_, again, rest⟩ := run.of_done (parsePacket_fits first fits (side.written packets))
      obtain ⟨-, rfl⟩ := List.cons.inj again
      rw [List.drop_left] at rest
      exact ih others rest pairs

theorem plain_of_delivers (short : ∀ packet ∈ packets, (side.pair packet).1.ShortName)
    (delivers : Delivers same side packets) : ∀ packet ∈ packets, Plain same side packet := by
  obtain ⟨values, stop, run⟩ := steady_parsePacket.exists_run (side.written packets)
  obtain ⟨rx, feeds⟩ := exists_feeds (side.written packets)
  have here : UdpPacketReader.Left (.new rx) (side.written packets) := .between feeds
  -- As many polls as take the reader to the end of the stream.
  let drops := List.replicate (rx.length + values.length + packets.length + 1) false
  have many : drops.length = rx.length + values.length + packets.length + 1 :=
    List.length_replicate
  obtain ⟨given, ends⟩ := UdpPacketReader.follows.given here run drops
  have failed := ends (by change rx.length + values.length < _; omega)
  have all := given.whole failed
  have front := delivers.front feeds drops
  have size := delivers.whole feeds drops failed
  rw [size, List.take_length, all, Side.accepted_eq] at front
  exact plain_of_run short run front

theorem datagrams_delivered_iff (same : TargetAddr → TargetAddr → Prop) (side : Side)
    (packets : List PacketInfo) (short : ∀ packet ∈ packets, (side.pair packet).1.ShortName) :
    Delivers same side packets ↔ ∀ packet ∈ packets,
      (side.pair packet).2.length ≤ 65535 ∧
        same (side.pair packet).1 (side.pair packet).1.decoded :=
  ⟨plain_of_delivers short, delivers_of_plain short⟩

theorem datagrams_delivered_iff_dns : Delivers Eq .outbound
    [(.dummy, .ip (.v4 ⟨1, 1, 1, 1⟩ 53), [7]), (.dummy, .domain "a.example" 53, [])] := by
  refine (datagrams_delivered_iff Eq .outbound _ ?_).mpr ?_
  · rintro packet (_ | ⟨_, _ | ⟨_, ⟨⟩⟩⟩)
    · trivial
    · change (asBytes "a.example").length ≤ 255
      decide
  · rintro packet (_ | ⟨_, _ | ⟨_, ⟨⟩⟩⟩) <;> exact ⟨by decide, by decide⟩

/-- A reply of 65536 bytes, as a reassembler can make one, whatever the addresses
are taken for. -/
theorem largeReply_lost : ¬Delivers (fun _ _ => True) .inbound
    [(.ip (.v4 ⟨1, 1, 1, 1⟩ 53), .dummy, List.replicate 65536 0)] := by
  intro delivers
  have short : ∀ packet ∈ [((.ip (.v4 ⟨1, 1, 1, 1⟩ 53), .dummy, List.replicate 65536 0) :
      PacketInfo)], (Side.inbound.pair packet).1.ShortName := by
    rintro packet (_ | ⟨_, ⟨⟩⟩)
    trivial
  have fits := (plain_of_delivers short delivers _ (List.mem_singleton_self _)).1
  change (List.replicate 65536 (0 : UInt8)).length ≤ 65535 at fits
  rw [List.length_replicate] at fits
  omega

end Trojan

end QuicProxy
