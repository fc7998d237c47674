import Mathlib.Algebra.Order.Group.Abs
import Mathlib.Algebra.Order.Group.Int
import Mathlib.Data.Nat.Bitwise
import QuicProxy.Data.Bytes

namespace QuicProxy

/-! The packets of the NTP client (`src/utils/ntp.rs`).  A `none` is a panic or an
arithmetic overflow. -/

namespace Ntp

def packetLen : Nat := 48

/-- Seconds from the NTP epoch to the Unix epoch. -/
def unixEpochDelta : UInt64 := 2208988800

structure Duration where
  nanos : Nat
  bound : nanos < 2 ^ 64 * 1000000000

namespace Duration

def asSecs (duration : Duration) : UInt64 := UInt64.ofNat (duration.nanos / 1000000000)

def subsecNanos (duration : Duration) : UInt32 := UInt32.ofNat (duration.nanos % 1000000000)

end Duration

/-- The nanoseconds from the Unix epoch; the seconds are an `i64`. -/
structure SystemTime where
  nanos : Int
  low : -(2 ^ 63 * 1000000000) ≤ nanos
  high : nanos < 2 ^ 63 * 1000000000

/-- `time.duration_since(UNIX_EPOCH)`. -/
def SystemTime.durationSince (time : SystemTime) : Except Duration Duration :=
  have low := time.low
  have high := time.high
  if 0 ≤ time.nanos then .ok ⟨time.nanos.toNat, by omega⟩
  else .error ⟨(-time.nanos).toNat, by omega⟩

def addU64 (first second : UInt64) : Option UInt64 :=
  if first.toNat + second.toNat < 2 ^ 64 then some (first + second) else none

def i128 (value : Int) : Option Int :=
  if -2 ^ 127 ≤ value ∧ value < 2 ^ 127 then some value else none

def toNtpTimestamp (time : SystemTime) : Option UInt64 := do
  let sinceUnix := time.durationSince.toOption.getD ⟨0, by decide⟩
  let secs := (← addU64 sinceUnix.asSecs unixEpochDelta).toUInt32
  let frac := (sinceUnix.subsecNanos.toUInt64 <<< 32) / 1000000000
  some (secs.toUInt64 <<< 32 ||| frac)

def fromNtpTimestamp (timestamp : UInt64) : Option Int := do
  let secs := timestamp >>> 32
  let frac := timestamp &&& 0xFFFFFFFF
  let secs ← (if secs &&& 0x80000000 = 0 then addU64 secs ((1 : UInt64) <<< 32) else some secs)
  let unixSecs ← i128 ((secs.toNat : Int) - unixEpochDelta.toNat)
  let whole ← i128 (unixSecs * 1000000000)
  let scaled ← i128 (frac.toNat * 1000000000)
  i128 (whole + scaled >>> (32 : Nat))

def unixNanos (time : SystemTime) : Int :=
  match time.durationSince with
  | .ok duration => duration.nanos
  | .error duration => -duration.nanos

structure Packet where
  bytes : Bytes
  whole : bytes.length = packetLen

def buildRequest (transmit : SystemTime) : Option Packet :=
  (toNtpTimestamp transmit).map fun timestamp =>
    -- LI = 0, VN = 4, Mode = 3 (client)
    ⟨0x23 :: List.replicate 39 0 ++ u64ToBe timestamp, rfl⟩

def field (start : Nat) (packet : Bytes) : Option Bytes :=
  if start + 8 ≤ packet.length then some ((packet.drop start).take 8) else none

/-- The end of `parse_response`, from the four times on. -/
def clockOffset (t1 t2 t3 t4 : Int) : Option (Except String Int64) := do
  let outward ← i128 (t2 - t1)
  let homeward ← i128 (t3 - t4)
  let offset := (← i128 (outward + homeward)).tdiv 2
  if -2 ^ 63 ≤ offset ∧ offset < 2 ^ 63 then some (.ok (Int64.ofInt offset))
  else some (.error "NTP clock offset out of range")

def parseResponse (request : Packet) (response : Bytes) (t1 t4 : SystemTime) :
    Option (Except String Int64) :=
  if response.length < packetLen then
    some (.error s!"NTP response too short: {response.length} bytes")
  else do
    let head : UInt8 ← response[0]?
    if head &&& 0x07 ≠ 4 then some (.error "NTP response is not in server mode")
    else if head >>> 6 = 3 then some (.error "NTP server clock is unsynchronized")
    else do
      let stratum : UInt8 ← response[1]?
      if ¬(1 ≤ stratum ∧ stratum < 16) then
        some (.error s!"NTP server returned stratum {stratum.toNat}")
      else do
        let origin ← field 24 response
        let transmit ← field 40 request.bytes
        if origin ≠ transmit then some (.error "NTP response origin timestamp mismatch")
        else do
          let t2 ← fromNtpTimestamp (← u64FromBe (← field 32 response))
          let t3 ← fromNtpTimestamp (← u64FromBe (← field 40 response))
          clockOffset (unixNanos t1) t2 t3 (unixNanos t4)

/-! Times as timestamps. -/

variable {time : SystemTime}

/-- From the Unix epoch to the end of the first half of the NTP era that begins in
2036. -/
def Representable (time : SystemTime) : Prop :=
  0 ≤ time.nanos ∧ time.nanos < (2 ^ 32 + 2 ^ 31 - unixEpochDelta.toNat) * 1000000000

theorem unixNanos_eq (time : SystemTime) : unixNanos time = time.nanos := by
  unfold unixNanos SystemTime.durationSince
  by_cases after : 0 ≤ time.nanos
  · rw [if_pos after]
    exact Int.toNat_of_nonneg after
  · rw [if_neg after]
    change -((-time.nanos).toNat : Int) = time.nanos
    omega

theorem toNat_addU64 {first second sum : UInt64} (added : addU64 first second = some sum) :
    sum.toNat = first.toNat + second.toNat := by
  unfold addU64 at added
  split at added
  · next fits =>
      cases added
      rw [UInt64.toNat_add, Nat.mod_eq_of_lt fits]
  · cases added

theorem toNat_asSecs (duration : Duration) :
    duration.asSecs.toNat = duration.nanos / 1000000000 := by
  have bound := duration.bound
  rw [Duration.asSecs, UInt64.toNat_ofNat']
  omega

theorem toNat_subsecNanos (duration : Duration) :
    duration.subsecNanos.toNat = duration.nanos % 1000000000 := by
  rw [Duration.subsecNanos, UInt32.toNat_ofNat']
  omega

theorem toNat_frac (duration : Duration) :
    ((duration.subsecNanos.toUInt64 <<< 32) / 1000000000 : UInt64).toNat =
      duration.nanos % 1000000000 * 2 ^ 32 / 1000000000 := by
  have shifted : (duration.subsecNanos.toUInt64 <<< 32).toNat =
      duration.nanos % 1000000000 * 2 ^ 32 := by
    rw [UInt64.toNat_shiftLeft, UInt32.toNat_toUInt64, toNat_subsecNanos]
    change (duration.nanos % 1000000000) <<< 32 % 2 ^ 64 = _
    rw [Nat.shiftLeft_eq]
    omega
  rw [UInt64.toNat_div, shifted]
  rfl

theorem toNat_pack (secs : UInt32) {frac : UInt64} (fits : frac.toNat < 2 ^ 32) :
    (secs.toUInt64 <<< 32 ||| frac).toNat = secs.toNat * 2 ^ 32 + frac.toNat := by
  have bound := secs.toNat_lt
  have shifted : (secs.toUInt64 <<< 32).toNat = secs.toNat <<< 32 := by
    rw [UInt64.toNat_shiftLeft, UInt32.toNat_toUInt64]
    change secs.toNat <<< 32 % 2 ^ 64 = _
    rw [Nat.shiftLeft_eq]
    omega
  rw [UInt64.toNat_or, shifted, ← Nat.shiftLeft_add_eq_or_of_lt fits, Nat.shiftLeft_eq]

theorem toNat_shiftRight (timestamp : UInt64) :
    (timestamp >>> 32).toNat = timestamp.toNat / 2 ^ 32 := by
  rw [UInt64.toNat_shiftRight]
  exact Nat.shiftRight_eq_div_pow _ _

theorem toNat_low (timestamp : UInt64) :
    (timestamp &&& 0xFFFFFFFF).toNat = timestamp.toNat % 2 ^ 32 := by
  rw [UInt64.toNat_and]
  exact Nat.and_two_pow_sub_one_eq_mod _ 32

theorem topBit_clear_iff {secs : UInt64} (fits : secs.toNat < 2 ^ 32) :
    secs &&& 0x80000000 = 0 ↔ secs.toNat < 2 ^ 31 := by
  rw [← UInt64.toNat_inj, UInt64.toNat_and]
  change secs.toNat &&& 2 ^ 31 = 0 ↔ secs.toNat < 2 ^ 31
  rw [Nat.and_two_pow, Nat.testBit_eq_decide_div_mod_eq]
  by_cases low : secs.toNat < 2 ^ 31
  · rw [Nat.div_eq_of_lt low]
    exact iff_of_true rfl low
  · have top : secs.toNat / 2 ^ 31 = 1 := by omega
    rw [top]
    exact iff_of_false (by decide) low

theorem addU64_of_lt {first second : UInt64} (fits : first.toNat + second.toNat < 2 ^ 64) :
    addU64 first second = some (first + second) := if_pos fits

theorem i128_of_lt {value : Int} (low : -2 ^ 127 ≤ value) (high : value < 2 ^ 127) :
    i128 value = some value := if_pos ⟨low, high⟩

/-- How many nanoseconds a time is after the Unix epoch, if it is after it. -/
def sinceUnix (time : SystemTime) : Nat := time.nanos.toNat

theorem toNtpTimestamp_eq (time : SystemTime) :
    ∃ stamp, toNtpTimestamp time = some stamp ∧
      stamp.toNat / 2 ^ 32 = (sinceUnix time / 1000000000 + 2208988800) % 2 ^ 32 ∧
      stamp.toNat % 2 ^ 32 = sinceUnix time % 1000000000 * 2 ^ 32 / 1000000000 := by
  have high := time.high
  obtain ⟨duration, since, nanos⟩ : ∃ duration : Duration,
      time.durationSince.toOption.getD ⟨0, by decide⟩ = duration ∧
        duration.nanos = sinceUnix time := by
    refine ⟨_, rfl, ?_⟩
    unfold SystemTime.durationSince sinceUnix
    by_cases after : 0 ≤ time.nanos
    · rw [if_pos after]
      rfl
    · rw [if_neg after]
      change 0 = time.nanos.toNat
      omega
  have fits : duration.asSecs.toNat + unixEpochDelta.toNat < 2 ^ 64 := by
    rw [toNat_asSecs, nanos]
    change sinceUnix time / 1000000000 + 2208988800 < 2 ^ 64
    unfold sinceUnix
    omega
  have frac := toNat_frac duration
  refine ⟨_, by rw [toNtpTimestamp, since, addU64_of_lt fits]; rfl, ?_⟩
  have small : ((duration.subsecNanos.toUInt64 <<< 32) / 1000000000).toNat < 2 ^ 32 := by
    rw [frac]
    omega
  have packed := toNat_pack (duration.asSecs + unixEpochDelta).toUInt32 small
  have secs : (duration.asSecs + unixEpochDelta).toUInt32.toNat =
      (duration.nanos / 1000000000 + 2208988800) % 2 ^ 32 := by
    rw [UInt64.toNat_toUInt32, toNat_addU64 (addU64_of_lt fits), toNat_asSecs]
    rfl
  rw [packed, secs, frac, ← nanos]
  omega

/-- The seconds from 1900 on that the upper half of a timestamp stands for. -/
def eraSecs (secs : Nat) : Nat := if secs < 2 ^ 31 then secs + 2 ^ 32 else secs

theorem fromNtpTimestamp_eq (stamp : UInt64) :
    fromNtpTimestamp stamp =
      some (((eraSecs (stamp.toNat / 2 ^ 32) : Int) - 2208988800) * 1000000000 +
        (stamp.toNat % 2 ^ 32 * 1000000000 / 2 ^ 32 : Nat)) := by
  have bound := stamp.toNat_lt
  have upper := toNat_shiftRight stamp
  have lower := toNat_low stamp
  have small : (stamp >>> 32).toNat < 2 ^ 32 := by omega
  obtain ⟨secs, era, value⟩ : ∃ secs, (if stamp >>> 32 &&& 0x80000000 = 0 then
      addU64 (stamp >>> 32) ((1 : UInt64) <<< 32) else some (stamp >>> 32)) = some secs ∧
        secs.toNat = eraSecs (stamp.toNat / 2 ^ 32) := by
    rw [← upper, eraSecs]
    by_cases first : (stamp >>> 32).toNat < 2 ^ 31
    · have fits : (stamp >>> 32).toNat + ((1 : UInt64) <<< 32).toNat < 2 ^ 64 := by
        change (stamp >>> 32).toNat + 2 ^ 32 < 2 ^ 64
        omega
      rw [if_pos ((topBit_clear_iff small).mpr first), if_pos first]
      exact ⟨_, addU64_of_lt fits, toNat_addU64 (addU64_of_lt fits)⟩
    · rw [if_neg (first ∘ (topBit_clear_iff small).mp), if_neg first]
      exact ⟨_, rfl, rfl⟩
  have era_lt : eraSecs (stamp.toNat / 2 ^ 32) < 2 ^ 33 := by
    unfold eraSecs
    split <;> omega
  have delta : (unixEpochDelta.toNat : Int) = 2208988800 := rfl
  have scaled : ((stamp.toNat % 2 ^ 32 : Nat) * 1000000000 : Int) >>> (32 : Nat) =
      (stamp.toNat % 2 ^ 32 * 1000000000 / 2 ^ 32 : Nat) := by
    rw [Int.shiftRight_eq_div_pow]
    omega
  simp only [fromNtpTimestamp, era, Option.bind_eq_bind, Option.bind_some, value, lower, delta]
  rw [i128_of_lt (by omega) (by omega), Option.bind_some, i128_of_lt (by omega) (by omega),
    Option.bind_some, i128_of_lt (by omega) (by omega), Option.bind_some, scaled,
    i128_of_lt (by omega) (by omega)]

/-- Each of the two roundings drops less than a nanosecond, and together they drop one
at most. -/
theorem fromNtpTimestamp_toNtpTimestamp (representable : Representable time) :
    ∃ stamp nanos, toNtpTimestamp time = some stamp ∧ fromNtpTimestamp stamp = some nanos ∧
      time.nanos - 1 ≤ nanos ∧ nanos ≤ time.nanos := by
  obtain ⟨low, high⟩ := representable
  change time.nanos < (2 ^ 32 + 2 ^ 31 - 2208988800) * 1000000000 at high
  obtain ⟨stamp, made, secs, frac⟩ := toNtpTimestamp_eq time
  have since : (sinceUnix time : Int) = time.nanos := Int.toNat_of_nonneg low
  refine ⟨stamp, _, made, fromNtpTimestamp_eq stamp, ?_⟩
  have era : eraSecs (stamp.toNat / 2 ^ 32) = sinceUnix time / 1000000000 + 2208988800 := by
    rw [secs, eraSecs]
    split <;> omega
  rw [era, frac]
  omega

/-! What is accepted. -/

/-- A reply that is taken, with the times at which the server has received the request
and sent the reply. -/
structure Replies (request : Packet) (response : Bytes) (received sent : UInt64) : Prop where
  long : packetLen ≤ response.length
  server : ∃ head : UInt8, response[0]? = some head ∧ head &&& 0x07 = 4 ∧ head >>> 6 ≠ 3
  stratum : ∃ stratum : UInt8, response[1]? = some stratum ∧ 1 ≤ stratum ∧ stratum < 16
  origin : field 24 response = field 40 request.bytes
  receive : (field 32 response).bind u64FromBe = some received
  transmit : (field 40 response).bind u64FromBe = some sent

theorem field_of_le {start : Nat} {packet : Bytes} (within : start + 8 ≤ packet.length) :
    field start packet = some ((packet.drop start).take 8) := if_pos within

theorem exists_word {start : Nat} {packet : Bytes} (within : start + 8 ≤ packet.length) :
    ∃ word, (field start packet).bind u64FromBe = some word := by
  rw [field_of_le within]
  have whole : ((packet.drop start).take 8).length = 8 := by
    rw [List.length_take, List.length_drop]
    omega
  match (packet.drop start).take 8, whole with
  | [a, b, c, d, e, f, g, h], _ => exact ⟨_, rfl⟩

theorem Replies.parseResponse {request : Packet} {response : Bytes} {received sent : UInt64}
    (replies : Replies request response received sent) (t1 t4 : SystemTime) :
    parseResponse request response t1 t4 = (do
      let t2 ← fromNtpTimestamp received
      let t3 ← fromNtpTimestamp sent
      clockOffset t1.nanos t2 t3 t4.nanos) := by
  obtain ⟨long, ⟨head, first, mode, synchronized⟩, ⟨stratum, second, near⟩, origin, receive,
    transmit⟩ := replies
  have echo : field 40 request.bytes = some ((request.bytes.drop 40).take 8) :=
    field_of_le (by rw [request.whole]; decide)
  obtain ⟨receiveBytes, here, receiveWord⟩ := Option.bind_eq_some_iff.mp receive
  obtain ⟨transmitBytes, there, transmitWord⟩ := Option.bind_eq_some_iff.mp transmit
  rw [Ntp.parseResponse, if_neg (Nat.not_lt_of_le long), first, Option.bind_eq_bind,
    Option.bind_some, if_neg (not_not_intro mode), if_neg synchronized, second,
    Option.bind_eq_bind, Option.bind_some, if_neg (not_not_intro near), origin, echo]
  simp only [Option.bind_eq_bind, Option.bind_some, here, there, receiveWord, transmitWord,
    unixNanos_eq]
  rw [if_neg (not_not_intro rfl)]

theorem parseResponse_cases (request : Packet) (response : Bytes) (t1 t4 : SystemTime) :
    (∃ error, parseResponse request response t1 t4 = some (.error error)) ∨
      ∃ received sent, Replies request response received sent := by
  by_cases short : response.length < packetLen
  · exact Or.inl ⟨_, if_pos short⟩
  have long : 48 ≤ response.length := Nat.le_of_not_lt short
  have inside : 24 + 8 ≤ response.length ∧ 32 + 8 ≤ response.length ∧ 40 + 8 ≤ response.length := by
    omega
  obtain ⟨originInside, receiveInside, transmitInside⟩ := inside
  have echo : field 40 request.bytes = some ((request.bytes.drop 40).take 8) :=
    field_of_le (by rw [request.whole]; decide)
  obtain ⟨head, first⟩ : ∃ head, response[0]? = some head :=
    ⟨_, List.getElem?_eq_getElem (by omega)⟩
  obtain ⟨stratum, second⟩ : ∃ stratum, response[1]? = some stratum :=
    ⟨_, List.getElem?_eq_getElem (by omega)⟩
  rw [parseResponse, if_neg short, first, Option.bind_eq_bind, Option.bind_some]
  by_cases mode : head &&& 0x07 = 4
  · rw [if_neg (not_not_intro mode)]
    by_cases unsynchronized : head >>> 6 = 3
    · exact Or.inl ⟨_, if_pos unsynchronized⟩
    rw [if_neg unsynchronized, second, Option.bind_eq_bind, Option.bind_some]
    by_cases near : 1 ≤ stratum ∧ stratum < 16
    · rw [if_neg (not_not_intro near), field_of_le originInside, echo]
      by_cases origin : (response.drop 24).take 8 = (request.bytes.drop 40).take 8
      · obtain ⟨received, receive⟩ := exists_word receiveInside
        obtain ⟨sent, transmit⟩ := exists_word transmitInside
        refine Or.inr ⟨received, sent, long, ⟨head, first, mode, unsynchronized⟩,
          ⟨stratum, second, near⟩, ?_, receive, transmit⟩
        rw [field_of_le originInside, echo, origin]
      · exact Or.inl ⟨_, if_pos origin⟩
    · exact Or.inl ⟨_, if_pos near⟩
  · exact Or.inl ⟨_, if_pos mode⟩

theorem clockOffset_eq {t1 t2 t3 t4 : Int} (outward : |t2 - t1| < 2 ^ 126)
    (homeward : |t3 - t4| < 2 ^ 126) :
    clockOffset t1 t2 t3 t4 =
      if -2 ^ 63 ≤ ((t2 - t1) + (t3 - t4)).tdiv 2 ∧ ((t2 - t1) + (t3 - t4)).tdiv 2 < 2 ^ 63 then
        some (.ok (Int64.ofInt (((t2 - t1) + (t3 - t4)).tdiv 2)))
      else some (.error "NTP clock offset out of range") := by
  have first := abs_lt.mp outward
  have second := abs_lt.mp homeward
  simp only [clockOffset, Option.bind_eq_bind]
  rw [i128_of_lt (by omega) (by omega), Option.bind_some, i128_of_lt (by omega) (by omega),
    Option.bind_some, i128_of_lt (by omega) (by omega), Option.bind_some]

theorem abs_fromNtpTimestamp (stamp : UInt64) :
    ∃ nanos, fromNtpTimestamp stamp = some nanos ∧ |nanos| < 2 ^ 64 := by
  have bound := stamp.toNat_lt
  refine ⟨_, fromNtpTimestamp_eq stamp, abs_lt.mpr ?_⟩
  have era : eraSecs (stamp.toNat / 2 ^ 32) < 2 ^ 33 := by
    unfold eraSecs
    split <;> omega
  omega

theorem parseResponse_ne_none (request : Packet) (response : Bytes) (t1 t4 : SystemTime) :
    parseResponse request response t1 t4 ≠ none := by
  rcases parseResponse_cases request response t1 t4 with ⟨error, failed⟩ | ⟨received, sent, replies⟩
  · rw [failed]
    exact Option.some_ne_none _
  · obtain ⟨t2, first, small⟩ := abs_fromNtpTimestamp received
    obtain ⟨t3, second, tiny⟩ := abs_fromNtpTimestamp sent
    have ⟨low, high⟩ := abs_lt.mp small
    have ⟨bottom, top⟩ := abs_lt.mp tiny
    have ⟨begin_low, begin_high⟩ := And.intro t1.low t1.high
    have ⟨end_low, end_high⟩ := And.intro t4.low t4.high
    simp only [replies.parseResponse, first, second, Option.bind_eq_bind, Option.bind_some]
    rw [clockOffset_eq (abs_lt.mpr (by omega)) (abs_lt.mpr (by omega))]
    split
    · exact Option.some_ne_none _
    · exact Option.some_ne_none _

theorem replies_of_ok {request : Packet} {response : Bytes} {t1 t4 : SystemTime} {offset : Int64}
    (accepted : parseResponse request response t1 t4 = some (.ok offset)) :
    ∃ received sent, Replies request response received sent := by
  rcases parseResponse_cases request response t1 t4 with ⟨error, failed⟩ | replies
  · rw [failed] at accepted
    cases accepted
  · exact replies

/-- Twice the error is the difference of the two ways, two rounded timestamps, and what
the division drops. -/
theorem offset_near {begun received sent ended theta t2 t3 : Int} (there : begun ≤ received)
    (back : sent ≤ ended) (second : received + theta - 1 ≤ t2 ∧ t2 ≤ received + theta)
    (third : sent + theta - 1 ≤ t3 ∧ t3 ≤ sent + theta) :
    |((t2 - begun) + (t3 - ended)).tdiv 2 - theta| ≤
      ((ended - begun) - (sent - received)) / 2 + 2 := by
  have sign : Int.sign 2 = 1 := rfl
  rw [abs_le, Int.tdiv_eq_ediv, sign]
  split <;> constructor <;> omega

/-- A request and its reply in local time, with a server whose clock is ahead by
`theta`. -/
structure Exchange where
  t1 : SystemTime
  received : Int
  sent : Int
  t4 : SystemTime
  theta : Int
  there : t1.nanos ≤ received
  served : received ≤ sent
  back : sent ≤ t4.nanos
  receivedAt : SystemTime
  sentAt : SystemTime
  receivedAt_eq : receivedAt.nanos = received + theta
  sentAt_eq : sentAt.nanos = sent + theta
  representable : ∀ time ∈ [t1, t4, receivedAt, sentAt], Representable time

def Exchange.delay (exchange : Exchange) : Int :=
  (exchange.t4.nanos - exchange.t1.nanos) - (exchange.sent - exchange.received)

theorem Exchange.parseResponse_near (exchange : Exchange) {request : Packet} {response : Bytes}
    {received sent : UInt64} (receive : toNtpTimestamp exchange.receivedAt = some received)
    (transmit : toNtpTimestamp exchange.sentAt = some sent)
    (replies : Replies request response received sent) :
    ∃ offset, parseResponse request response exchange.t1 exchange.t4 = some (.ok offset) ∧
      |offset.toInt - exchange.theta| ≤ exchange.delay / 2 + 2 := by
  obtain ⟨t1, r, s, t4, theta, there, served, back, receivedAt, sentAt, receivedAt_eq, sentAt_eq,
    representable⟩ := exchange
  simp only [List.forall_mem_cons, List.not_mem_nil, false_implies, implies_true,
    and_true] at representable
  obtain ⟨begins, ends, receives, sends⟩ := representable
  obtain ⟨_, t2, first, second, low, high⟩ := fromNtpTimestamp_toNtpTimestamp receives
  cases receive.symm.trans first
  obtain ⟨_, t3, third, fourth, bottom, top⟩ := fromNtpTimestamp_toNtpTimestamp sends
  cases transmit.symm.trans third
  rw [receivedAt_eq] at low high
  rw [sentAt_eq] at bottom top
  have near := offset_near there back ⟨low, high⟩ ⟨bottom, top⟩
  obtain ⟨begin_low, begin_high⟩ := begins
  obtain ⟨end_low, end_high⟩ := ends
  obtain ⟨receive_low, receive_high⟩ := receives
  change t1.nanos < 4233462144 * 1000000000 at begin_high
  change t4.nanos < 4233462144 * 1000000000 at end_high
  change receivedAt.nanos < 4233462144 * 1000000000 at receive_high
  have bounds := abs_le.mp near
  have within : -2 ^ 63 ≤ ((t2 - t1.nanos) + (t3 - t4.nanos)).tdiv 2 ∧
      ((t2 - t1.nanos) + (t3 - t4.nanos)).tdiv 2 < 2 ^ 63 := by omega
  refine ⟨Int64.ofInt (((t2 - t1.nanos) + (t3 - t4.nanos)).tdiv 2), ?_, ?_⟩
  · simp only [replies.parseResponse, second, fourth, Option.bind_eq_bind, Option.bind_some]
    rw [clockOffset_eq (abs_lt.mpr (by omega)) (abs_lt.mpr (by omega)), if_pos within]
  · rw [Int64.toInt_ofInt_of_le within.1 within.2]
    exact near

theorem exists_buildRequest (time : SystemTime) : ∃ request, buildRequest time = some request := by
  obtain ⟨stamp, made, -⟩ := toNtpTimestamp_eq time
  exact ⟨_, by rw [buildRequest, made]; rfl⟩

/-- The offset is exact up to half the delay of the network and 2 nanoseconds; no reply
makes the client panic, and none is taken that does not answer the request. -/
theorem offset_exact :
    (∀ exchange : Exchange, ∃ request received sent,
      buildRequest exchange.t1 = some request ∧
        toNtpTimestamp exchange.receivedAt = some received ∧
          toNtpTimestamp exchange.sentAt = some sent ∧
            ∀ response, Replies request response received sent →
              ∃ offset,
                parseResponse request response exchange.t1 exchange.t4 = some (.ok offset) ∧
                  |offset.toInt - exchange.theta| ≤ exchange.delay / 2 + 2) ∧
      ∀ request response t1 t4, parseResponse request response t1 t4 ≠ none ∧
        ∀ offset, parseResponse request response t1 t4 = some (.ok offset) →
          48 ≤ response.length ∧ (∃ head : UInt8, response[0]? = some head ∧ head &&& 0x07 = 4) ∧
            ∃ origin, field 24 response = some origin ∧
              field 40 request.bytes = some origin := by
  refine ⟨fun exchange => ?_, fun request response t1 t4 => ?_⟩
  · obtain ⟨request, built⟩ := exists_buildRequest exchange.t1
    obtain ⟨received, receive, -⟩ := toNtpTimestamp_eq exchange.receivedAt
    obtain ⟨sent, transmit, -⟩ := toNtpTimestamp_eq exchange.sentAt
    exact ⟨request, received, sent, built, receive, transmit,
      fun response replies => exchange.parseResponse_near receive transmit replies⟩
  · refine ⟨parseResponse_ne_none request response t1 t4, fun offset accepted => ?_⟩
    obtain ⟨received, sent, replies⟩ := replies_of_ok accepted
    obtain ⟨head, first, mode, -⟩ := replies.server
    have echo : field 40 request.bytes = some ((request.bytes.drop 40).take 8) :=
      field_of_le (by rw [request.whole]; decide)
    exact ⟨replies.long, ⟨head, first, mode⟩, _, replies.origin.trans echo, echo⟩

/-- A server that is 5 s ahead, 50 ms away. -/
def fiveSecondsAhead : Exchange where
  t1 := ⟨1700000000000000000, by decide, by decide⟩
  received := 1700000000050000000
  sent := 1700000000050000000
  t4 := ⟨1700000000100000000, by decide, by decide⟩
  theta := 5000000000
  there := by decide
  served := by decide
  back := by decide
  receivedAt := ⟨1700000005050000000, by decide, by decide⟩
  sentAt := ⟨1700000005050000000, by decide, by decide⟩
  receivedAt_eq := rfl
  sentAt_eq := rfl
  representable := by
    simp only [List.forall_mem_cons, Representable]
    decide

theorem offset_fiveSecondsAhead : ∃ request received response offset,
    toNtpTimestamp fiveSecondsAhead.receivedAt = some received ∧
      response = 0x24 :: 2 :: List.replicate 22 0 ++ request.bytes.drop 40 ++ u64ToBe received ++
        u64ToBe received ∧
        parseResponse request response fiveSecondsAhead.t1 fiveSecondsAhead.t4 =
          some (.ok offset) ∧ |offset.toInt - 5000000000| ≤ 50000002 := by
  obtain ⟨request, received, sent, built, receive, transmit, near⟩ :=
    offset_exact.1 fiveSecondsAhead
  cases receive.symm.trans transmit
  have eight : (request.bytes.drop 40).length = 8 := by
    rw [List.length_drop, request.whole]
    rfl
  obtain ⟨a, b, c, d, e, f, g, h, origin⟩ : ∃ a b c d e f g h,
      request.bytes.drop 40 = [a, b, c, d, e, f, g, h] := by
    match request.bytes.drop 40, eight with
    | [a, b, c, d, e, f, g, h], _ => exact ⟨a, b, c, d, e, f, g, h, rfl⟩
  have echo : field 40 request.bytes = some [a, b, c, d, e, f, g, h] := by
    rw [field_of_le (by rw [request.whole]; decide), origin]
    rfl
  let response : Bytes := 0x24 :: 2 :: List.replicate 22 0 ++ [a, b, c, d, e, f, g, h] ++
    u64ToBe received ++ u64ToBe received
  have carried : field 24 response = some [a, b, c, d, e, f, g, h] := rfl
  have receives : field 32 response = some (u64ToBe received) := rfl
  have transmits : field 40 response = some (u64ToBe received) := rfl
  have word := u64FromBe_u64ToBe received
  have replies : Replies request response received received :=
    ⟨Nat.le_of_eq rfl, ⟨0x24, rfl, by decide, by decide⟩, ⟨2, rfl, by decide, by decide⟩,
      carried.trans echo.symm, by rw [receives]; exact word, by rw [transmits]; exact word⟩
  obtain ⟨offset, accepted, close⟩ := near response replies
  exact ⟨request, received, response, offset, receive, by rw [origin], accepted, close⟩

end Ntp

end QuicProxy
