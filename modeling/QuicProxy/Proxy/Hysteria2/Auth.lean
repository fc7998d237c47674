import QuicProxy.Data.Dialogue
import QuicProxy.Proxy.Hysteria2.QpackRoundTrip
import QuicProxy.Proxy.Hysteria2.UdpMessage
import QuicProxy.Proxy.Router.Rule

namespace QuicProxy

/-! The authentication of a Hysteria2 outbound over HTTP/3
(`src/proxy/outbound/hysteria2/http3.rs`). -/

namespace Hysteria2

/-- How a task comes to no result. -/
inductive AuthFault where
  | error (text : String)
  | panicked
deriving DecidableEq

abbrev AuthParty := Party UInt8 AuthFault

namespace AuthParty

variable {α : Type}

def bail (text : String) : AuthParty α := Party.throw (.error text)

def readExact (context : String) (count : Nat) : AuthParty Bytes :=
  Party.readExact (.error context) count

end AuthParty

def statusAuthOk : Nat := 233

def frameHeaders : Nat := 0x01

def maxAuthResponseBytes : Nat := 64 * 1024

structure AuthResult where
  status : Nat
  udpEnabled : Bool
deriving DecidableEq

namespace Http3

def authFields (password padding : String) : List (String × String) :=
  [(":method", "POST"), (":scheme", "https"), (":path", "/auth"), (":authority", "hysteria"),
    ("hysteria-auth", password), ("hysteria-cc-rx", "0"), ("hysteria-padding", padding)]

def buildAuthRequest (password padding : String) : Bytes :=
  let payload := Qpack.encodeFieldSection (authFields password padding)
  appendVarint frameHeaders ++ appendVarint payload.length ++ payload

/-- A varint with what it leaves of the budget. -/
def readVarint (budget : Nat) : AuthParty (Nat × Nat) := do
  let first ← Party.readElement (.error "failed to read varint")
  let tail := 2 ^ (first.toNat / 64) - 1
  let buf ← AuthParty.readExact "failed to read varint" tail
  pure (buf.foldl (fun value byte => value * 256 + byte.toNat) (first.toNat % 64),
    budget - 1 - tail)

def readFields (status : Option Nat) (udpEnabled : Bool) :
    List (String × String) → Except AuthFault (Option Nat × Bool)
  | [] => .ok (status, udpEnabled)
  | (name, value) :: fields =>
      if name = ":status" then
        match parseUnsigned (2 ^ 16) value.toList with
        | none => .error (.error "invalid :status value")
        | some status => readFields (some status) udpEnabled fields
      else if eqIgnoreAsciiCase (asBytes name) (asBytes "hysteria-udp") then
        readFields status (value = "true") fields
      else readFields status udpEnabled fields

/-- What the headers of a frame say, on top of what is known. -/
def readHeaders (build : Qpack.Build) (payload : Bytes) (status : Option Nat)
    (udpEnabled : Bool) : Except AuthFault (Option Nat × Bool) :=
  match Qpack.decodeFieldSection build payload with
  | none => .error .panicked
  | some (.error _) => .error (.error "failed to decode auth response headers")
  | some (.ok fields) => readFields status udpEnabled fields

/-- The loop of `authenticate` over the frames of the response. -/
def readFrames (build : Qpack.Build) : Nat → Nat → Option Nat → Bool → AuthParty AuthResult
  | 0, _, _, _ => AuthParty.bail "out of fuel"
  | fuel + 1, budget, status, udpEnabled =>
      if budget = 0 then AuthParty.bail "auth response too large"
      else do
        let (frameType, budget) ← readVarint budget
        let (frameLen, budget) ← readVarint budget
        if budget < frameLen then AuthParty.bail "auth response frame too large"
        else
          let payload ← AuthParty.readExact "failed to read auth response" frameLen
          let known :=
            if frameType = frameHeaders then readHeaders build payload status udpEnabled
            else .ok (status, udpEnabled)
          match known with
          | .error fault => Party.throw fault
          | .ok (none, _) => AuthParty.bail "auth response has no :status (masqueraded)"
          | .ok (some status, udpEnabled) =>
              if frameType = frameHeaders then pure ⟨status, udpEnabled⟩
              else readFrames build fuel (budget - frameLen) (some status) udpEnabled

def authenticate (build : Qpack.Build) (fuel : Nat) (password padding : String) :
    AuthParty AuthResult := do
  Party.writeAll (buildAuthRequest password padding)
  readFrames build fuel maxAuthResponseBytes none false

/-- What `ensure_connection` makes of the answer on a new connection: whether the
connection has UDP. -/
def checkStatus (tag : String) (auth : AuthResult) : AuthParty Bool :=
  if auth.status ≠ statusAuthOk then
    AuthParty.bail s!"[{tag}] hy2 authentication failed with status {auth.status}"
  else pure auth.udpEnabled

def connect (build : Qpack.Build) (fuel : Nat) (tag password padding : String) :
    AuthParty Bool := do
  let auth ← authenticate build fuel password padding
  checkStatus tag auth

/-! What the frames are. -/

/-- The bytes hold the value below the two bits for their number. -/
def IsVarint (bytes : Bytes) (value : Nat) : Prop :=
  ∃ tag, bytes.length = 2 ^ tag ∧ value < 2 ^ (8 * bytes.length - 2) ∧
    natOfBytes bytes = tag * 2 ^ (8 * bytes.length - 2) + value

/-- A frame of some type, as its header and its payload. -/
def IsFrame (bytes : Bytes) (frameType : Nat) (payload : Bytes) : Prop :=
  ∃ kind length, bytes = kind ++ length ++ payload ∧ IsVarint kind frameType ∧
    IsVarint length payload.length

def statusFields (fields : List (String × String)) : List (String × String) :=
  fields.filter fun field => field.1 = ":status"

def udpFields (fields : List (String × String)) : List (String × String) :=
  fields.filter fun field =>
    field.1 ≠ ":status" ∧ eqIgnoreAsciiCase (asBytes field.1) (asBytes "hysteria-udp")

def fieldStatus (field : String × String) : Option Nat := parseUnsigned (2 ^ 16) field.2.toList

/-- Every status is a number, and the last is that of success; the last word on UDP
is this one. -/
structure Accepts (fields : List (String × String)) (udpEnabled : Bool) : Prop where
  numbers : ∀ field ∈ statusFields fields, (fieldStatus field).isSome
  status : (statusFields fields).getLast?.bind fieldStatus = some statusAuthOk
  udp : (udpFields fields).getLast?.any (fun field => field.2 = "true") = udpEnabled

/-- The first frame of the response is a HEADERS frame of success. -/
def Admits (build : Qpack.Build) (response : Bytes) (udpEnabled : Bool) : Prop :=
  ∃ frame payload fields rest, response = frame ++ rest ∧
    frame.length ≤ maxAuthResponseBytes ∧ IsFrame frame frameHeaders payload ∧
      Qpack.decodeFieldSection build payload = some (.ok fields) ∧ Accepts fields udpEnabled

/-! Varints. -/

theorem natOfBytes_cons (first : UInt8) (tail : Bytes) :
    natOfBytes (first :: tail) = first.toNat * 256 ^ tail.length + natOfBytes tail := by
  induction tail using List.reverseRecOn with
  | nil => simp [natOfBytes]
  | append_singleton tail byte ih =>
      rw [← List.cons_append, natOfBytes_append_singleton, ih, natOfBytes_append_singleton,
        List.length_append, List.length_singleton, Nat.pow_succ, Nat.add_mul, Nat.mul_assoc,
        Nat.add_assoc]

theorem foldl_eq_natOfBytes (start : Nat) (tail : Bytes) :
    tail.foldl (fun value byte => value * 256 + byte.toNat) start =
      start * 256 ^ tail.length + natOfBytes tail := by
  induction tail using List.reverseRecOn with
  | nil => exact (Nat.mul_one start).symm
  | append_singleton tail byte ih =>
      rw [List.foldl_append, ih, natOfBytes_append_singleton, List.length_append,
        List.length_singleton, Nat.pow_succ, List.foldl_cons, List.foldl_nil, Nat.add_mul,
        Nat.mul_assoc, Nat.add_assoc]

theorem div_mod_inj {base tag other value low : Nat} (small : value < base) (small' : low < base)
    (same : tag * base + value = other * base + low) : tag = other ∧ value = low := by
  have positive := Nat.zero_lt_of_lt small
  have one := (Nat.div_mod_unique positive).mpr ⟨Nat.add_comm value (base * tag), small⟩
  have two := (Nat.div_mod_unique positive).mpr ⟨Nat.add_comm low (base * other), small'⟩
  rw [Nat.mul_comm base, same] at one
  rw [Nat.mul_comm base] at two
  exact ⟨one.1.symm.trans two.1, one.2.symm.trans two.2⟩

theorem isVarint_cons (first : UInt8) (tail : Bytes) (value : Nat) :
    IsVarint (first :: tail) value ↔ tail.length + 1 = 2 ^ (first.toNat / 64) ∧
      value = tail.foldl (fun value byte => value * 256 + byte.toNat) (first.toNat % 64) := by
  have power : 2 ^ (8 * (first :: tail).length - 2) = 64 * 256 ^ tail.length := by
    rw [List.length_cons, show 8 * (tail.length + 1) - 2 = 6 + 8 * tail.length by omega,
      Nat.pow_add, Nat.pow_mul]
  have small := natOfBytes_lt tail
  have divided : first.toNat * 256 ^ tail.length =
      first.toNat / 64 * (64 * 256 ^ tail.length) + first.toNat % 64 * 256 ^ tail.length := by
    rw [← Nat.mul_assoc, ← Nat.add_mul, Nat.mul_comm _ 64, Nat.div_add_mod]
  have low : first.toNat % 64 * 256 ^ tail.length + natOfBytes tail < 64 * 256 ^ tail.length := by
    have row : (first.toNat % 64 + 1) * 256 ^ tail.length ≤ 64 * 256 ^ tail.length :=
      Nat.mul_le_mul_right _ (Nat.mod_lt _ (by decide))
    rw [Nat.add_mul, Nat.one_mul] at row
    omega
  unfold IsVarint
  rw [power, natOfBytes_cons, foldl_eq_natOfBytes, List.length_cons]
  constructor
  · rintro ⟨tag, length, bound, number⟩
    rw [divided, Nat.add_assoc] at number
    obtain ⟨rfl, rfl⟩ := div_mod_inj low bound number
    exact ⟨length, rfl⟩
  · rintro ⟨length, rfl⟩
    refine ⟨first.toNat / 64, length, low, ?_⟩
    rw [divided, Nat.add_assoc]

theorem parses_readVarint {budget left value : Nat} {input rest : Bytes} :
    (readVarint budget).parses input = .ok ((value, left), rest) ↔
      ∃ bytes, input = bytes ++ rest ∧ IsVarint bytes value ∧ left = budget - bytes.length := by
  unfold readVarint
  simp only [Party.parses_bind_ok, Party.parses_readElement_ok, AuthParty.readExact,
    Party.parses_readExact_ok]
  constructor
  · rintro ⟨first, _, rfl, tail, _, ⟨rfl, length⟩, ⟨⟩⟩
    have whole : tail.length + 1 = 2 ^ (first.toNat / 64) := by
      have positive := Nat.two_pow_pos (first.toNat / 64)
      omega
    refine ⟨first :: tail, rfl, (isVarint_cons first tail _).mpr ⟨whole, rfl⟩, ?_⟩
    rw [List.length_cons]
    omega
  · rintro ⟨bytes, rfl, varint, rfl⟩
    cases bytes with
    | nil =>
        obtain ⟨tag, length, -⟩ := varint
        exact absurd length (Nat.ne_of_lt (Nat.two_pow_pos tag))
    | cons first tail =>
        obtain ⟨length, rfl⟩ := (isVarint_cons first tail _).mp varint
        refine ⟨first, tail ++ rest, rfl, tail, rest, ⟨rfl, by omega⟩, ?_⟩
        have left :
            budget - 1 - (2 ^ (first.toNat / 64) - 1) = budget - (first :: tail).length := by
          rw [List.length_cons]
          omega
        rw [left]
        rfl

theorem IsVarint.length_le {bytes : Bytes} {value : Nat} (varint : IsVarint bytes value) :
    bytes.length ≤ 8 := by
  cases bytes with
  | nil => exact Nat.zero_le _
  | cons first tail =>
      obtain ⟨length, -⟩ := (isVarint_cons first tail value).mp varint
      have top : first.toNat / 64 ≤ 3 := by
        have bound := first.toNat_lt
        omega
      rw [List.length_cons, length]
      exact Nat.pow_le_pow_right (by decide) top

/-- The payload keeps to what its header leaves of the budget if and only if the frame
keeps to the budget. -/
theorem frame_length_le_iff {kind length payload : Bytes} {frameType value : Nat}
    (kindVarint : IsVarint kind frameType) (lengthVarint : IsVarint length value) :
    ¬maxAuthResponseBytes - kind.length - length.length < payload.length ↔
      (kind ++ length ++ payload).length ≤ maxAuthResponseBytes := by
  have kindShort := kindVarint.length_le
  have lengthShort := lengthVarint.length_le
  simp only [List.length_append, maxAuthResponseBytes]
  omega

theorem isVarint_appendVarint {value : Nat} (small : value < 2 ^ 62) :
    IsVarint (appendVarint value) value := by
  have read := readVarint_appendVarint small []
  rw [List.append_nil] at read
  cases bytes : appendVarint value with
  | nil =>
      rw [bytes] at read
      cases read
  | cons first tail =>
      rw [bytes, Hysteria2.readVarint] at read
      split at read
      · cases read
      · next whole =>
          injection read with read
          injection read with number length
          rw [List.length_cons] at length
          refine (isVarint_cons first tail value).mpr ⟨length.symm, ?_⟩
          rw [← number, List.take_of_length_le (by omega)]

/-! The fields of a response. -/

theorem getD_getLast_cons {α : Type} (known : α) (given : String × String → α)
    (field : String × String) (fields : List (String × String)) :
    ((field :: fields).getLast?.map given).getD known =
      (fields.getLast?.map given).getD (given field) := by
  rw [List.getLast?_cons]
  cases fields.getLast? <;> rfl

theorem readFields_eq_ok {status result : Option Nat} {udpEnabled udp : Bool}
    {fields : List (String × String)} :
    readFields status udpEnabled fields = .ok (result, udp) ↔
      (∀ field ∈ statusFields fields, (fieldStatus field).isSome) ∧
        result = ((statusFields fields).getLast?.map fieldStatus).getD status ∧
          udp = ((udpFields fields).getLast?.map fun field => decide (field.2 = "true")).getD
            udpEnabled := by
  induction fields generalizing status udpEnabled with
  | nil =>
      rw [readFields, Except.ok.injEq, Prod.mk.injEq, eq_comm, @eq_comm _ udpEnabled]
      exact ⟨fun same => ⟨nofun, same⟩, fun all => all.2⟩
  | cons field fields ih =>
      obtain ⟨name, value⟩ := field
      rw [readFields, statusFields, udpFields, List.filter_cons, List.filter_cons]
      by_cases isStatus : name = ":status"
      · rw [if_pos isStatus, if_pos (decide_eq_true isStatus), if_neg (by simp [isStatus]),
          List.forall_mem_cons, getD_getLast_cons]
        rw [show fieldStatus (name, value) = parseUnsigned (2 ^ 16) value.toList from rfl]
        cases parseUnsigned (2 ^ 16) value.toList with
        | none => exact iff_of_false nofun fun all => Bool.false_ne_true all.1.1
        | some number => exact ih.trans (and_congr_left fun _ => (and_iff_right rfl).symm)
      · rw [if_neg isStatus]
        by_cases isUdp : eqIgnoreAsciiCase (asBytes name) (asBytes "hysteria-udp") = true
        · rw [if_pos isUdp, if_neg (by simp [isStatus]), if_pos (decide_eq_true ⟨isStatus, isUdp⟩),
            getD_getLast_cons]
          exact ih
        · rw [if_neg isUdp, if_neg (by simp [isStatus]), if_neg (by simp [isUdp])]
          exact ih

theorem accepts_iff {fields : List (String × String)} {udp : Bool} :
    readFields none false fields = .ok (some statusAuthOk, udp) ↔ Accepts fields udp := by
  rw [readFields_eq_ok]
  constructor
  · rintro ⟨numbers, status, udp⟩
    refine ⟨numbers, ?_, ?_⟩
    · rw [status]
      cases (statusFields fields).getLast? <;> rfl
    · rw [udp]
      cases (udpFields fields).getLast? <;> rfl
  · rintro ⟨numbers, status, rfl⟩
    refine ⟨numbers, ?_, ?_⟩
    · rw [← status]
      cases (statusFields fields).getLast? <;> rfl
    · cases (udpFields fields).getLast? <;> rfl

/-! The frames of a response. -/

variable {build : Qpack.Build} {fuel : Nat}

theorem readHeaders_eq_ok {payload : Bytes} {status result : Option Nat} {udpEnabled udp : Bool} :
    readHeaders build payload status udpEnabled = .ok (result, udp) ↔
      ∃ fields, Qpack.decodeFieldSection build payload = some (.ok fields) ∧
        readFields status udpEnabled fields = .ok (result, udp) := by
  unfold readHeaders
  rcases Qpack.decodeFieldSection build payload with _ | error | fields
  · exact iff_of_false nofun nofun
  · exact iff_of_false nofun nofun
  · exact ⟨fun read => ⟨fields, rfl, read⟩, by rintro ⟨_, ⟨⟩, read⟩; exact read⟩

theorem quiet_readVarint (budget : Nat) : (readVarint budget).Quiet :=
  .bind (Party.quiet_readElement _) fun _ => .bind (Party.quiet_readExact _ _) fun _ =>
    Party.quiet_ret _

theorem quiet_readFrames (fuel budget : Nat) (status : Option Nat) (udpEnabled : Bool) :
    (readFrames build fuel budget status udpEnabled).Quiet := by
  induction fuel generalizing budget status udpEnabled with
  | zero => exact Party.quiet_ret _
  | succ fuel ih =>
      rw [readFrames]
      split
      · exact Party.quiet_ret _
      refine .bind (quiet_readVarint _) fun (frameType, budget) => ?_
      refine .bind (quiet_readVarint _) fun (frameLen, budget) => ?_
      dsimp only
      split
      · exact Party.quiet_ret _
      refine .bind (Party.quiet_readExact _ _) fun payload => ?_
      split
      · exact Party.quiet_ret _
      · exact Party.quiet_ret _
      · split
        · exact Party.quiet_ret _
        · exact ih _ _ _

theorem parses_readFrames {input rest : Bytes} {auth : AuthResult} :
    (readFrames build (fuel + 1) maxAuthResponseBytes none false).parses input = .ok (auth, rest) ↔
      ∃ frame payload fields, input = frame ++ rest ∧ frame.length ≤ maxAuthResponseBytes ∧
        IsFrame frame frameHeaders payload ∧
          Qpack.decodeFieldSection build payload = some (.ok fields) ∧
            readFields none false fields = .ok (some auth.status, auth.udpEnabled) := by
  rw [readFrames, if_neg (by decide)]
  constructor
  · intro read
    obtain ⟨⟨frameType, budget⟩, behind, kindRead, later⟩ := Party.parses_bind_ok.mp read
    obtain ⟨kind, rfl, kindVarint, rfl⟩ := parses_readVarint.mp kindRead
    obtain ⟨⟨frameLen, budget⟩, behind, lengthRead, body⟩ := Party.parses_bind_ok.mp later
    obtain ⟨length, rfl, lengthVarint, rfl⟩ := parses_readVarint.mp lengthRead
    dsimp only at body
    split at body
    · cases body
    rename_i within
    obtain ⟨payload, behind, payloadRead, last⟩ := Party.parses_bind_ok.mp body
    obtain ⟨rfl, rfl⟩ := Party.parses_readExact_ok.mp payloadRead
    by_cases headers : frameType = frameHeaders
    · subst headers
      rw [if_pos rfl] at last
      cases known : readHeaders build payload none false with
      | error fault =>
          rw [known] at last
          cases last
      | ok given =>
          obtain ⟨status, udpEnabled⟩ := given
          rw [known] at last
          cases status with
          | none => cases last
          | some status =>
              change (pure ⟨status, udpEnabled⟩ : AuthParty AuthResult).parses behind = _ at last
              obtain ⟨rfl, rfl⟩ := Party.parses_pure_ok.mp last
              obtain ⟨fields, decoded, fieldsRead⟩ := readHeaders_eq_ok.mp known
              refine ⟨kind ++ length ++ payload, payload, fields, ?_,
                (frame_length_le_iff kindVarint lengthVarint).mp within,
                ⟨kind, length, rfl, kindVarint, lengthVarint⟩, decoded, fieldsRead⟩
              simp only [List.append_assoc]
    · rw [if_neg headers] at last
      cases last
  · rintro ⟨_, payload, fields, rfl, short, ⟨kind, length, rfl, kindVarint, lengthVarint⟩,
      decoded, fieldsRead⟩
    rw [List.append_assoc, List.append_assoc]
    refine Party.parses_bind_ok.mpr ⟨_, _, parses_readVarint.mpr ⟨kind, rfl, kindVarint, rfl⟩, ?_⟩
    refine Party.parses_bind_ok.mpr ⟨_, _,
      parses_readVarint.mpr ⟨length, rfl, lengthVarint, rfl⟩, ?_⟩
    dsimp only
    rw [if_neg ((frame_length_le_iff kindVarint lengthVarint).mpr short)]
    refine Party.parses_bind_ok.mpr ⟨payload, rest,
      Party.parses_readExact_ok.mpr ⟨rfl, rfl⟩, ?_⟩
    rw [if_pos rfl, readHeaders_eq_ok.mpr ⟨fields, decoded, fieldsRead⟩]
    rfl

/-! The request, and the whole exchange. -/

theorem length_le_encodeFieldSection {fields : List (String × String)} {field : String × String}
    (member : field ∈ fields) :
    (asBytes field.1).length + (asBytes field.2).length ≤
      (Qpack.encodeFieldSection fields).length := by
  have part : (Qpack.encodeField field).length ≤ (fields.flatMap Qpack.encodeField).length :=
    (List.sublist_flatten_of_mem (List.mem_map_of_mem member)).length_le
  have inside : (asBytes field.1).length + (asBytes field.2).length ≤
      (Qpack.encodeField field).length := by
    simp only [Qpack.encodeField, List.length_append]
    omega
  show _ ≤ (fields.flatMap Qpack.encodeField).length + 1 + 1
  omega

theorem isFrame_buildAuthRequest {password padding : String}
    (fits : (Qpack.encodeFieldSection (authFields password padding)).length < 2 ^ 62) :
    ∃ payload, IsFrame (buildAuthRequest password padding) frameHeaders payload ∧
      Qpack.decodeFieldSection build payload = some (.ok (authFields password padding)) := by
  refine ⟨_, ⟨_, _, rfl, isVarint_appendVarint (by decide), isVarint_appendVarint fits⟩, ?_⟩
  refine Qpack.decodeFieldSection_encode build fun field member => ?_
  have short := length_le_encodeFieldSection member
  exact ⟨by omega, by omega⟩

theorem parses_connect {tag password padding : String} {input rest : Bytes} {udp : Bool} :
    (connect build (fuel + 1) tag password padding).parses input = .ok (udp, rest) ↔
      ∃ frame payload fields, input = frame ++ rest ∧ frame.length ≤ maxAuthResponseBytes ∧
        IsFrame frame frameHeaders payload ∧
          Qpack.decodeFieldSection build payload = some (.ok fields) ∧ Accepts fields udp := by
  have written : (authenticate build (fuel + 1) password padding).parses input =
      (readFrames build (fuel + 1) maxAuthResponseBytes none false).parses input := rfl
  rw [connect, Party.parses_bind_ok, written]
  constructor
  · rintro ⟨auth, behind, read, admitted⟩
    obtain ⟨frame, payload, fields, rfl, short, isFrame, decoded, fieldsRead⟩ :=
      parses_readFrames.mp read
    by_cases success : auth.status = statusAuthOk
    · rw [checkStatus, if_neg (not_not_intro success)] at admitted
      cases admitted
      rw [success] at fieldsRead
      exact ⟨frame, payload, fields, rfl, short, isFrame, decoded, accepts_iff.mp fieldsRead⟩
    · rw [checkStatus, if_pos success] at admitted
      cases admitted
  · rintro ⟨frame, payload, fields, rfl, short, isFrame, decoded, accepts⟩
    exact ⟨⟨statusAuthOk, udp⟩, rest, parses_readFrames.mpr
      ⟨frame, payload, fields, rfl, short, isFrame, decoded, accepts_iff.mpr accepts⟩, rfl⟩

theorem quiet_checkStatus (tag : String) (auth : AuthResult) : (checkStatus tag auth).Quiet := by
  unfold checkStatus
  split
  · exact Party.quiet_ret _
  · exact Party.quiet_ret _

theorem written_connect (tag password padding : String) (input : Bytes) :
    ((connect build fuel tag password padding).hears input).2.1 =
      buildAuthRequest password padding := by
  have quiet := Party.Quiet.bind (@quiet_readFrames build fuel maxAuthResponseBytes none false)
    (quiet_checkStatus tag) input
  have written : ((connect build fuel tag password padding).hears input).2.1 =
      buildAuthRequest password padding ++
        ((readFrames build fuel maxAuthResponseBytes none false >>= checkStatus tag).hears
          input).2.1 := rfl
  rw [written, quiet, List.append_nil]

open Dialogue in
/-- In whatever pieces a response comes, the outbound has written its request, which
reads as what it says, and takes the connection if and only if the response begins with
a HEADERS frame of success. -/
theorem connect_admits (build : Qpack.Build) (fuel : Nat) (tag password padding : String)
    (response : Bytes) (closed : AuthFault) :
    ∃ result rest,
      Machine.Ends step (start
          (Party.writeAll response >>= fun _ => (Party.throw closed : AuthParty Unit))
          (connect build (fuel + 1) tag password padding))
        ⟨Party.throw closed, .ret result, buildAuthRequest password padding, rest⟩ ∧
      (∀ udpEnabled, result = .ok udpEnabled ↔ Admits build response udpEnabled) ∧
      ((Qpack.encodeFieldSection (authFields password padding)).length < 2 ^ 62 →
        ∃ payload, IsFrame (buildAuthRequest password padding) frameHeaders payload ∧
          Qpack.decodeFieldSection build payload = some (.ok (authFields password padding))) := by
  have ends := @ends_hears UInt8 AuthFault Unit _ response closed
    (connect build (fuel + 1) tag password padding)
  rw [written_connect] at ends
  refine ⟨_, _, ends, fun udpEnabled => ?_, isFrame_buildAuthRequest⟩
  have parsed {rest : Bytes} :=
    @parses_connect build fuel tag password padding response rest udpEnabled
  constructor
  · intro heard
    obtain ⟨frame, payload, fields, shape, found⟩ := parsed.mp (by rw [Party.parses, heard]; rfl)
    exact ⟨frame, payload, fields, _, shape, found⟩
  · rintro ⟨frame, payload, fields, rest, shape, found⟩
    have done := parsed.mpr ⟨frame, payload, fields, shape, found⟩
    rw [Party.parses] at done
    cases heard : ((connect build (fuel + 1) tag password padding).hears response).1 with
    | error fault =>
        rw [heard] at done
        cases done
    | ok taken =>
        rw [heard] at done
        cases done
        rfl

end Http3

end Hysteria2

end QuicProxy
