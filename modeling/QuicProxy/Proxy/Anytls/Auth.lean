import QuicProxy.Proxy.TargetAddr
import QuicProxy.Proxy.Anytls.Padding

namespace QuicProxy

/-! The authentication packet: `Session::authenticate`
(`src/proxy/outbound/anytls.rs`) and its reader in `InboundSession::new`
(`src/proxy/inbound/anytls.rs`). -/

def authHashSize : Nat := 32

def authLengthFieldSize : Nat := 2

abbrev PasswordHash := { bytes : Bytes // bytes.length = authHashSize }

/-- Addition of `usize` values: an overflow panics in a build with overflow
checks and wraps in one without. -/
def addUsize (overflowChecks : Bool) (first second : Nat) : Option Nat :=
  if first + second < usizeLimit then some (first + second)
  else if overflowChecks then none
  else some ((first + second) % usizeLimit)

/-- `Vec::with_capacity`; `none` is the panic of an allocation that is too
large. -/
def withCapacity (capacity : Nat) : Option Bytes :=
  if capacity < allocLimit then some [] else none

def resizeZeros (bytes : Bytes) (newLen : Nat) : Option Bytes :=
  if newLen < allocLimit then
    some (bytes.take newLen ++ List.replicate (newLen - bytes.length) 0)
  else none

def PaddingScheme.padding0Size (scheme : PaddingScheme) (draws : Nat → Nat) : Nat :=
  i64AsUsize ((scheme.generateRecordPayloadSizes 0 draws).head?.getD 30)

/-- `Session::authenticate`, as the packet it writes; `none` is a panic. -/
def authenticate (overflowChecks : Bool) (passwordHash : PasswordHash)
    (scheme : PaddingScheme) (draws : Nat → Nat) : Option Bytes := do
  let padding0Size := scheme.padding0Size draws
  let capacity ← addUsize overflowChecks (authHashSize + authLengthFieldSize) padding0Size
  let authPacket ← withCapacity capacity
  let authPacket := authPacket ++ passwordHash.val ++ u16ToBe (castU16 padding0Size)
  let newLen ← addUsize overflowChecks authPacket.length padding0Size
  resizeZeros authPacket newLen

/-- The reads of `InboundSession::new` before its first frame, as what they
leave of the stream; `accepts` says whether a user has the hash. -/
def readAuth (accepts : Bytes → Bool) (stream : Bytes) : Except String Bytes :=
  match readExact authHashSize stream with
  | .error error => .error error
  | .ok (authBuf, stream) =>
      if accepts authBuf then
        match readU16 stream with
        | .error error => .error error
        | .ok (padding0Len, stream) =>
            if padding0Len > 0 then (readExact padding0Len.toNat stream).map (·.2)
            else .ok stream
      else .error "auth failed: password mismatch"

def AuthPacket (passwordHash : PasswordHash) (packet : Bytes) : Prop :=
  ∃ (len : UInt16) (padding : Bytes),
    packet = passwordHash.val ++ u16ToBe len ++ padding ∧
      padding.length = len.toNat ∧
        ∀ accepts rest, accepts passwordHash.val = true →
          readAuth accepts (packet ++ rest) = .ok rest

/-- The first entry of the policy for packet 0 always gives a size that fits
the 16-bit length field. -/
def PaddingScheme.AuthFits (scheme : PaddingScheme) : Prop :=
  match (scheme.entries 0).head? with
  | none => True
  | some (.fixed size _ _) => size ≤ 65535
  | some (.range _ max _ _ _) => max ≤ 65535
  | some .checkMark => False

theorem readAuth_packet (passwordHash : PasswordHash) {len : UInt16} {padding : Bytes}
    (length : padding.length = len.toNat) {accepts : Bytes → Bool}
    (accepted : accepts passwordHash.val = true) (rest : Bytes) :
    readAuth accepts (passwordHash.val ++ u16ToBe len ++ padding ++ rest) =
      .ok rest := by
  have hash := readExact_append passwordHash.val (u16ToBe len ++ padding ++ rest)
  rw [passwordHash.property] at hash
  simp only [List.append_assoc] at hash ⊢
  simp only [readAuth, hash, accepted, if_true, readU16_append]
  split
  · rw [← length, readExact_append]
    rfl
  · next empty =>
      have : padding.length = 0 := by
        rw [length]
        have : ¬(0 : UInt16).toNat < len.toNat := fun less => empty less
        simpa using this
      rw [List.length_eq_zero_iff.mp this, List.nil_append]

theorem mod_of_addUsize {overflowChecks : Bool} {first second sum : Nat}
    (added : addUsize overflowChecks first second = some sum) :
    sum = (first + second) % usizeLimit := by
  unfold addUsize at added
  split at added
  · next fits => exact (Option.some.inj added).symm.trans (Nat.mod_eq_of_lt fits).symm
  · split at added
    · cases added
    · exact (Option.some.inj added).symm

theorem length_of_resizeZeros {bytes resized : Bytes} {newLen : Nat}
    (result : resizeZeros bytes newLen = some resized) : resized.length = newLen := by
  unfold resizeZeros at result
  split at result
  · cases result
    rw [List.length_append, List.length_take, List.length_replicate]
    omega
  · cases result

theorem length_of_authenticate {overflowChecks : Bool} {passwordHash : PasswordHash}
    {scheme : PaddingScheme} {draws : Nat → Nat} {packet : Bytes}
    (written : authenticate overflowChecks passwordHash scheme draws = some packet) :
    packet.length = (34 + scheme.padding0Size draws) % usizeLimit := by
  simp only [authenticate, Option.bind_eq_bind, Option.bind_eq_some_iff] at written
  obtain ⟨_, _, authPacket, allocated, newLen, added, resized⟩ := written
  have empty : authPacket = [] := by
    unfold withCapacity at allocated
    split at allocated
    · exact (Option.some.inj allocated).symm
    · cases allocated
  rw [length_of_resizeZeros resized, mod_of_addUsize added, empty, List.nil_append,
    List.length_append, passwordHash.property, length_u16ToBe, authHashSize]

theorem authenticate_of_le {overflowChecks : Bool} (passwordHash : PasswordHash)
    {scheme : PaddingScheme} {draws : Nat → Nat}
    (fits : scheme.padding0Size draws ≤ 65535) :
    authenticate overflowChecks passwordHash scheme draws =
      some (passwordHash.val ++ u16ToBe (castU16 (scheme.padding0Size draws)) ++
        List.replicate (scheme.padding0Size draws) 0) := by
  have added : addUsize overflowChecks 34 (scheme.padding0Size draws) =
      some (34 + scheme.padding0Size draws) :=
    if_pos (by simp only [usizeLimit]; omega)
  have allocates : 34 + scheme.padding0Size draws < allocLimit := by
    simp only [allocLimit]
    omega
  have allocated : withCapacity (34 + scheme.padding0Size draws) = some [] :=
    if_pos allocates
  have length : (passwordHash.val ++
      u16ToBe (castU16 (scheme.padding0Size draws))).length = 34 := by
    rw [List.length_append, passwordHash.property, length_u16ToBe, authHashSize]
  simp only [authenticate, authHashSize, authLengthFieldSize, added, Option.bind_eq_bind,
    Option.bind_some, allocated, List.nil_append, length, resizeZeros, if_pos allocates]
  rw [List.take_of_length_le (by omega), Nat.add_sub_cancel_left]

theorem padding0Size_lt (scheme : PaddingScheme) (draws : Nat → Nat) :
    scheme.padding0Size draws < usizeLimit := by
  simp only [PaddingScheme.padding0Size, i64AsUsize, usizeLimit]
  omega

theorem authPacket_iff_le {overflowChecks : Bool} {passwordHash : PasswordHash}
    {scheme : PaddingScheme} {draws : Nat → Nat} :
    (∃ packet, authenticate overflowChecks passwordHash scheme draws = some packet ∧
      AuthPacket passwordHash packet) ↔ scheme.padding0Size draws ≤ 65535 := by
  constructor
  · rintro ⟨packet, written, len, padding, shape, length, _⟩
    -- The length of the packet, as the machine adds it up, decides: with a padding
    -- over 65535 bytes it is not that of any packet of the right shape.
    have lenBound := len.toNat_lt
    have total := length_of_authenticate written
    rw [shape, List.length_append, List.length_append, passwordHash.property,
      length_u16ToBe, length, authHashSize] at total
    have bound := padding0Size_lt scheme draws
    simp only [usizeLimit] at total bound
    omega
  · intro fits
    have length : (List.replicate (scheme.padding0Size draws) (0 : UInt8)).length =
        (castU16 (scheme.padding0Size draws)).toNat := by
      rw [List.length_replicate, toNat_castU16]
      omega
    exact ⟨_, authenticate_of_le passwordHash fits, _, _, rfl, length,
      fun accepts rest accepted => readAuth_packet passwordHash length accepted rest⟩

theorem head_generateRecordPayloadSizes (scheme : PaddingScheme) (pkt : Nat)
    (draws : Nat → Nat) :
    (scheme.generateRecordPayloadSizes pkt draws).head? =
      (scheme.entries pkt).head?.map (·.recordSize (draws 0)) := by
  simp only [PaddingScheme.generateRecordPayloadSizes]
  cases scheme.entries pkt with
  | nil => rfl
  | cons entry rest => rw [List.mapIdx_cons]; rfl

theorem authFits_iff (scheme : PaddingScheme) :
    scheme.AuthFits ↔ ∀ draws, scheme.padding0Size draws ≤ 65535 := by
  simp only [PaddingScheme.AuthFits, PaddingScheme.padding0Size,
    head_generateRecordPayloadSizes]
  match (scheme.entries 0).head? with
  | none => exact ⟨fun _ _ => show 30 ≤ 65535 by decide, fun _ => trivial⟩
  | some (.fixed size _ fits) =>
      change size ≤ 65535 ↔ ∀ _, i64AsUsize (usizeAsI64 size) ≤ 65535
      rw [i64AsUsize_usizeAsI64 fits]
      exact ⟨fun small _ => small, fun small => small fun _ => 0⟩
  | some (.range min max _ ordered fits) =>
      have value (draw : Nat) : i64AsUsize (usizeAsI64 (min + draw % (max - min + 1))) =
          min + draw % (max - min + 1) := by
        have := Nat.mod_lt draw (show 0 < max - min + 1 by omega)
        exact i64AsUsize_usizeAsI64 (by omega)
      change max ≤ 65535 ↔
        ∀ draws : Nat → Nat, i64AsUsize (usizeAsI64 (min + draws 0 % (max - min + 1))) ≤ 65535
      constructor
      · intro small draws
        have := Nat.mod_lt (draws 0) (show 0 < max - min + 1 by omega)
        rw [value]
        omega
      · intro small
        have := small fun _ => max - min
        rw [value, Nat.mod_eq_of_lt (by omega)] at this
        omega
  | some .checkMark =>
      refine ⟨False.elim, fun small => absurd (small fun _ => 0) ?_⟩
      change ¬i64AsUsize checkMarkSize ≤ 65535
      decide

/-- The client writes the authentication packet that the server reads, with
every password and every random choice, exactly when the size of its padding
fits the length field. -/
theorem authenticate_iff (overflowChecks : Bool) (scheme : PaddingScheme) :
    (∀ passwordHash draws, ∃ packet,
      authenticate overflowChecks passwordHash scheme draws = some packet ∧
        AuthPacket passwordHash packet) ↔ scheme.AuthFits := by
  rw [authFits_iff]
  constructor
  · intro packets draws
    exact authPacket_iff_le.mp (packets ⟨List.replicate 32 0, rfl⟩ draws)
  · intro fits passwordHash draws
    exact authPacket_iff_le.mpr (fits draws)

theorem authenticate_check_mark :
    ∃ scheme, PaddingScheme.parse (fun _ => "") (asBytes "stop=8\n0=c,30-30") = .ok scheme ∧
      (∀ passwordHash draws, authenticate true passwordHash scheme draws = none) ∧
        ¬∀ overflowChecks passwordHash draws, ∃ packet,
          authenticate overflowChecks passwordHash scheme draws = some packet ∧
            AuthPacket passwordHash packet := by
  refine ⟨⟨8, [(0, [.checkMark, .fixed 30 (by decide) (by decide)])], "",
    asBytes "stop=8\n0=c,30-30"⟩, by decide, fun _ _ => rfl, ?_⟩
  intro packets
  have := authPacket_iff_le.mp (packets true ⟨List.replicate 32 0, rfl⟩ fun _ => 0)
  revert this
  decide

end QuicProxy
