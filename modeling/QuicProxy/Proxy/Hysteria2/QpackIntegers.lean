import QuicProxy.Data.Base128
import QuicProxy.Proxy.Hysteria2.Qpack

namespace QuicProxy

/-! QPACK integers and string lengths, and when they are read exactly
(`src/proxy/outbound/hysteria2/qpack.rs`). -/

namespace Qpack

open Base128

/-- The integer at the front of the bytes and how many bytes it takes. -/
def integer (prefixWidth : Nat) : Bytes → Option (Nat × Nat)
  | [] => none
  | first :: bytes =>
      if first.toNat % 2 ^ prefixWidth < 2 ^ prefixWidth - 1 then
        some (first.toNat % 2 ^ prefixWidth, 1)
      else (number bytes).map fun rest => (2 ^ prefixWidth - 1 + rest.1, rest.2 + 1)

theorem toNat_and_0x7f (byte : UInt8) : (byte &&& 0x7f).toNat = byte.toNat % 128 := by
  rw [UInt8.toNat_and]
  exact Nat.and_two_pow_sub_one_eq_mod byte.toNat 7

theorem and_0x80_eq_zero (byte : UInt8) : byte &&& 0x80 = 0 ↔ byte.toNat < 128 := by
  have bit : ∀ small : Fin 256, small.val &&& 128 = 0 ↔ small.val < 128 := by
    decide +kernel
  rw [← UInt8.toNat_inj, UInt8.toNat_and]
  exact bit ⟨byte.toNat, byte.toNat_lt⟩

theorem Build.sum_of_lt (build : Build) {sum : Nat} (small : sum < 2 ^ 64) :
    build.sum sum = some sum := if_pos small

namespace Reader

variable (build : Build) (overflow : String) {rd : Reader}

theorem readRest_front (value shift : Nat) {front more : Bytes} (here : rd.rest = front ++ more)
    (continues : Continues front) (few : shift + 7 * front.length ≤ 63)
    (fits : value + Base128.value front * 2 ^ shift < 2 ^ 64) :
    ∃ after, Took rd front.length after ∧ rd.readRest build overflow value shift =
      after.readRest build overflow (value + Base128.value front * 2 ^ shift)
        (shift + 7 * front.length) := by
  induction front generalizing rd value shift with
  | nil =>
      refine ⟨rd, ⟨rfl, rfl⟩, ?_⟩
      rw [Base128.value, Nat.zero_mul, Nat.add_zero, List.length_nil, Nat.mul_zero, Nat.add_zero]
  | cons byte front ih =>
      obtain ⟨goes, later⟩ := List.forall_mem_cons.mp continues
      obtain ⟨next, read, took⟩ := readByte_cons here
      have behind : next.rest = front ++ more := by
        rw [took.rest, here]
        rfl
      rw [Base128.value] at fits
      rw [List.length_cons] at few
      have power : 2 ^ (shift + 7) = 128 * 2 ^ shift := by
        rw [Nat.pow_add, Nat.mul_comm]
      have split : value + (byte.toNat % 128 + 128 * Base128.value front) * 2 ^ shift =
          value + byte.toNat % 128 * 2 ^ shift + Base128.value front * 2 ^ (shift + 7) := by
        rw [power]
        ring
      rw [split] at fits
      have small : byte.toNat % 128 * 2 ^ shift < 2 ^ 64 := by omega
      obtain ⟨after, rest, same⟩ := ih _ _ behind later (by omega) fits
      refine ⟨after, ?_, ?_⟩
      · rw [List.length_cons, Nat.add_comm]
        exact took.trans rest
      · rw [readRest, read]
        dsimp only
        rw [toNat_and_0x7f, Nat.shiftLeft_eq, Nat.mod_eq_of_lt small,
          build.sum_of_lt (by omega)]
        dsimp only
        rw [if_neg (by rw [and_0x80_eq_zero]; omega), if_neg (by omega), same, Base128.value,
          split, List.length_cons]
        congr 1
        omega

theorem readRest_last (value shift : Nat) {byte : UInt8} {more : Bytes}
    (here : rd.rest = byte :: more) (ends : byte.toNat < 128)
    (fits : value + byte.toNat * 2 ^ shift < 2 ^ 64) : ∃ after, Took rd 1 after ∧
      rd.readRest build overflow value shift =
        some (.ok (value + byte.toNat * 2 ^ shift, after)) := by
  obtain ⟨after, read, took⟩ := readByte_cons here
  refine ⟨after, took, ?_⟩
  rw [readRest, read]
  dsimp only
  rw [toNat_and_0x7f, Nat.shiftLeft_eq, Nat.mod_eq_of_lt ends, Nat.mod_eq_of_lt (by omega),
    build.sum_of_lt fits]
  dsimp only
  rw [if_pos ((and_0x80_eq_zero byte).mpr ends)]

theorem readRest_number (value : Nat) {front more : Bytes} {last : UInt8}
    (here : rd.rest = front ++ last :: more) (continues : Continues front)
    (ends : last.toNat < 128) (few : front.length ≤ 9)
    (fits : value + (Base128.value front + last.toNat * 128 ^ front.length) < 2 ^ 64) :
    ∃ after, Took rd (front.length + 1) after ∧ rd.readRest build overflow value 0 =
      some (.ok (value + (Base128.value front + last.toNat * 128 ^ front.length), after)) := by
  have power : 2 ^ (0 + 7 * front.length) = 128 ^ front.length := by
    rw [Nat.zero_add, Nat.pow_mul]
  obtain ⟨next, took, same⟩ := readRest_front build overflow value 0 here
    continues (by omega) (by rw [Nat.pow_zero, Nat.mul_one]; omega)
  rw [Nat.pow_zero, Nat.mul_one] at same
  have behind : next.rest = last :: more := by
    rw [took.rest, here, List.drop_left]
  obtain ⟨after, one, done⟩ := readRest_last build overflow (value + Base128.value front)
    (0 + 7 * front.length) behind ends (by rw [power]; omega)
  refine ⟨after, took.trans one, same.trans (done.trans ?_)⟩
  rw [power, Nat.add_assoc]

theorem head_of_readByte {next : Reader} {first : UInt8} (read : rd.readByte = .ok (first, next)) :
    rd.rest.head? = some first := by
  unfold readByte at read
  split at read <;> cases read
  exact head_rest _

/-- What follows the first byte of an integer and of a string's length. -/
def readBehind (build : Build) (overflow : String) (prefixWidth : Nat) (first : UInt8)
    (rd : Reader) : Outcome (Nat × Reader) :=
  if first.toNat % 2 ^ prefixWidth < 2 ^ prefixWidth - 1 then
    some (.ok (first.toNat % 2 ^ prefixWidth, rd))
  else rd.readRest build overflow (2 ^ prefixWidth - 1) 0

theorem masked (prefixWidth : Nat) (first : UInt8) :
    first.toNat &&& (1 <<< prefixWidth - 1) = first.toNat % 2 ^ prefixWidth ∧
      1 <<< prefixWidth - 1 = 2 ^ prefixWidth - 1 := by
  rw [Nat.one_shiftLeft]
  exact ⟨Nat.and_two_pow_sub_one_eq_mod _ _, rfl⟩

theorem mod_eq_of_not_lt {number width : Nat} (full : ¬number % 2 ^ width < 2 ^ width - 1) :
    number % 2 ^ width = 2 ^ width - 1 := by
  have below := Nat.mod_lt number (Nat.two_pow_pos width)
  omega

theorem readInt_eq (prefixWidth : Nat) {first : UInt8} {next : Reader}
    (read : rd.readByte = .ok (first, next)) : rd.readInt build prefixWidth =
      next.readBehind build "QPACK integer overflow" prefixWidth first := by
  obtain ⟨same, max⟩ := masked prefixWidth first
  unfold readInt readBehind
  rw [read]
  dsimp only
  rw [same, max]
  split
  · rfl
  · next full => rw [mod_eq_of_not_lt full]

theorem readLength_eq (lengthPrefix : Nat) (first : UInt8) :
    rd.readLength build lengthPrefix first =
      rd.readBehind build "QPACK string length overflow" lengthPrefix first := by
  obtain ⟨same, max⟩ := masked lengthPrefix first
  unfold readLength readBehind
  dsimp only
  rw [same, max]
  by_cases full : first.toNat % 2 ^ lengthPrefix < 2 ^ lengthPrefix - 1
  · rw [if_pos full, if_neg (by omega)]
  · rw [if_neg full, if_pos (by omega), mod_eq_of_not_lt full]

/-! When an integer is read exactly. -/

/-- The value is the one that the bytes encode, and those bytes are taken; there is no
panic. -/
def Exact (prefixWidth : Nat) (rd : Reader) (outcome : Outcome (Nat × Reader)) : Prop :=
  ∃ result, outcome = some result ∧ ∀ value after, result = .ok (value, after) →
    ∃ count, integer prefixWidth rd.rest = some (value, count) ∧ Took rd count after

/-- The tenth byte behind the first one, should there be one: its lowest bit is the
only one that a `u64` has left. -/
def Fits (build : Build) (prefixWidth : Nat) (bytes : Bytes) : Prop :=
  ∀ first front next more, bytes = first :: (front ++ next :: more) →
    first.toNat % 2 ^ prefixWidth = 2 ^ prefixWidth - 1 → Continues front → front.length = 9 →
      if next.toNat < 128 then
        2 ^ prefixWidth - 1 + (Base128.value front + next.toNat * 2 ^ 63) < 2 ^ 64
      else build.overflowChecks = true →
        2 ^ prefixWidth - 1 + (Base128.value front + next.toNat % 2 * 2 ^ 63) < 2 ^ 64

theorem top_bit (byte : Nat) : byte % 128 * 2 ^ 63 % 2 ^ 64 = byte % 2 * 2 ^ 63 := by
  rw [show (2 : Nat) ^ 64 = 2 * 2 ^ 63 from rfl, Nat.mul_mod_mul_right,
    Nat.mod_mod_of_dvd _ (by decide : 2 ∣ 128)]

theorem readRest_tenth {value shift added : Nat} {byte : UInt8} {more : Bytes}
    (here : rd.rest = byte :: more) (last : 63 < shift + 7)
    (bits : byte.toNat % 128 * 2 ^ shift % 2 ^ 64 = added) : ∃ after, Took rd 1 after ∧
      rd.readRest build overflow value shift = (build.sum (value + added)).map fun sum =>
        if byte.toNat < 128 then .ok (sum, after) else .error overflow := by
  obtain ⟨after, read, took⟩ := readByte_cons here
  refine ⟨after, took, ?_⟩
  rw [readRest, read]
  dsimp only
  rw [toNat_and_0x7f, Nat.shiftLeft_eq, bits]
  cases build.sum (value + added) with
  | none => rfl
  | some sum =>
      dsimp only
      rw [Option.map_some]
      by_cases ends : byte.toNat < 128
      · rw [if_pos ends, if_pos ((and_0x80_eq_zero byte).mpr ends)]
      · rw [if_neg ends, if_neg (by rw [and_0x80_eq_zero]; exact ends), if_pos last]

variable {prefixWidth : Nat} {first : UInt8} {next : Reader} {bytes : Bytes}

theorem fits_cons (never : ∀ front next more, bytes = front ++ next :: more →
    Continues front → front.length ≠ 9) : Fits build prefixWidth (first :: bytes) := by
  intro first' front next more same _ continues length
  exact absurd length (never front next more (List.cons.inj same).2 continues)

theorem fits_tenth {front more : Bytes} {tenth : UInt8}
    (full : first.toNat % 2 ^ prefixWidth = 2 ^ prefixWidth - 1) (continues : Continues front)
    (length : front.length = 9) : Fits build prefixWidth (first :: (front ++ tenth :: more)) ↔
      if tenth.toNat < 128 then
        2 ^ prefixWidth - 1 + (Base128.value front + tenth.toNat * 2 ^ 63) < 2 ^ 64
      else build.overflowChecks = true →
        2 ^ prefixWidth - 1 + (Base128.value front + tenth.toNat % 2 * 2 ^ 63) < 2 ^ 64 := by
  refine ⟨fun fits => fits _ _ _ _ rfl full continues length, ?_⟩
  intro fits first' front' tenth' more' same _ _ length'
  obtain ⟨-, behind⟩ := List.cons.inj same
  obtain ⟨rfl, tails⟩ := List.append_inj behind (length.trans length'.symm)
  obtain ⟨rfl, -⟩ := List.cons.inj tails
  exact fits

theorem exact_of_error {outcome : Outcome (Nat × Reader)} {error : String}
    (failed : outcome = some (.error error)) : Exact prefixWidth rd outcome :=
  ⟨_, failed, by rintro _ _ ⟨⟩⟩

theorem exact_ok_iff {value : Nat} {after : Reader} {outcome : Outcome (Nat × Reader)}
    (done : outcome = some (.ok (value, after))) : Exact prefixWidth rd outcome ↔
      ∃ count, integer prefixWidth rd.rest = some (value, count) ∧ Took rd count after := by
  subst done
  constructor
  · rintro ⟨result, same, exact_value⟩
    exact exact_value value after (Option.some.inj same).symm
  · rintro found
    refine ⟨_, rfl, ?_⟩
    rintro _ _ ⟨⟩
    exact found

theorem tenth_fits {sum tenth : Nat} :
    sum + tenth * 2 ^ 63 < 2 ^ 64 ↔ sum + tenth % 2 * 2 ^ 63 < 2 ^ 64 ∧ tenth < 2 := by
  simp only [Nat.reducePow]
  omega

theorem exact_tenth {base count : Nat} {tenth : UInt8} {after : Reader} {value : Nat}
    (encoded : tenth.toNat < 128 →
      integer prefixWidth rd.rest = some (base + value + tenth.toNat * 2 ^ 63, count))
    (took : Took rd count after) :
    Exact prefixWidth rd ((build.sum (base + value + tenth.toNat % 2 * 2 ^ 63)).map fun sum =>
      if tenth.toNat < 128 then .ok (sum, after) else .error overflow) ↔
        if tenth.toNat < 128 then base + (value + tenth.toNat * 2 ^ 63) < 2 ^ 64
        else build.overflowChecks = true → base + (value + tenth.toNat % 2 * 2 ^ 63) < 2 ^ 64 := by
  rw [← Nat.add_assoc, ← Nat.add_assoc]
  by_cases fits : base + value + tenth.toNat % 2 * 2 ^ 63 < 2 ^ 64
  · rw [build.sum_of_lt fits, Option.map_some]
    by_cases ends : tenth.toNat < 128
    · rw [if_pos ends, if_pos ends, exact_ok_iff rfl]
      constructor
      · rintro ⟨count, found, -⟩
        obtain ⟨same, -⟩ := Prod.mk.inj (Option.some.inj (found.symm.trans (encoded ends)))
        rw [← same]
        exact fits
      · intro small
        refine ⟨count, ?_, took⟩
        rw [encoded ends, Nat.mod_eq_of_lt (tenth_fits.mp small).2]
    · rw [if_neg ends, if_neg ends]
      exact iff_of_true (exact_of_error rfl) fun _ => fits
  · have wraps : build.sum (base + value + tenth.toNat % 2 * 2 ^ 63) =
        if build.overflowChecks then none
        else some ((base + value + tenth.toNat % 2 * 2 ^ 63) % 2 ^ 64) := if_neg fits
    rw [wraps]
    cases checks : build.overflowChecks with
    | true =>
        rw [if_pos rfl, Option.map_none]
        refine iff_of_false ?_ ?_
        · rintro ⟨result, ⟨⟩, -⟩
        · split
          · exact fun small => fits (tenth_fits.mp small).1
          · exact fun small => fits (small rfl)
    | false =>
        rw [if_neg Bool.false_ne_true, Option.map_some]
        by_cases ends : tenth.toNat < 128
        · rw [if_pos ends, if_pos ends, exact_ok_iff rfl]
          refine iff_of_false ?_ fun small => fits (tenth_fits.mp small).1
          rintro ⟨count, found, -⟩
          obtain ⟨same, -⟩ := Prod.mk.inj (Option.some.inj (found.symm.trans (encoded ends)))
          have wrapped := Nat.mod_lt (base + value + tenth.toNat % 2 * 2 ^ 63)
            (Nat.two_pow_pos 64)
          rw [same] at wrapped
          exact fits (tenth_fits.mp wrapped).1
        · rw [if_neg ends, if_neg ends]
          exact iff_of_true (exact_of_error rfl) fun never => absurd never Bool.false_ne_true

theorem nine_groups : (128 : Nat) ^ 9 = 2 ^ 63 := rfl

theorem two_pow_le (narrow : prefixWidth ≤ 8) : 2 ^ prefixWidth ≤ 256 :=
  Nat.pow_le_pow_right (by decide) narrow

theorem integer_of_full (here : rd.rest = first :: bytes)
    (full : first.toNat % 2 ^ prefixWidth = 2 ^ prefixWidth - 1) : integer prefixWidth rd.rest =
      (number bytes).map fun rest => (2 ^ prefixWidth - 1 + rest.1, rest.2 + 1) := by
  rw [here, integer, if_neg (by omega)]

theorem rest_of_took (here : rd.rest = first :: bytes) (took : Took rd 1 next) :
    next.rest = bytes := by
  rw [took.rest, here]
  rfl

/-! Behind a full prefix: a last byte among the first nine, fewer than ten bytes and
none of them the last one, or a tenth byte. -/

theorem exact_of_ends {front more : Bytes} {last : UInt8} (narrow : prefixWidth ≤ 8)
    (here : rd.rest = first :: (front ++ last :: more)) (took : Took rd 1 next)
    (full : first.toNat % 2 ^ prefixWidth = 2 ^ prefixWidth - 1) (continues : Continues front)
    (ends : last.toNat < 128) (few : front.length < 9) :
    Exact prefixWidth rd (next.readRest build overflow (2 ^ prefixWidth - 1) 0) ↔
      Fits build prefixWidth rd.rest := by
  have max := two_pow_le narrow
  have below := ended_lt ends few
  rw [nine_groups] at below
  obtain ⟨after, later, done⟩ := readRest_number build overflow (2 ^ prefixWidth - 1)
    (rest_of_took here took) continues ends (Nat.le_of_lt few) (by omega)
  refine iff_of_true ((exact_ok_iff done).mpr ⟨_, ?_, took.trans later⟩) ?_
  · rw [integer_of_full here full, number_of_front continues ends, Option.map_some,
      Nat.add_comm 1]
  · rw [here]
    refine fits_cons build fun other next behind same continues length => ?_
    have within := ends_within same ends continues
    omega

theorem readRest_short (narrow : prefixWidth ≤ 8) (here : rd.rest = first :: bytes)
    (took : Took rd 1 next) (continues : Continues bytes) (few : bytes.length ≤ 9) :
    next.readRest build overflow (2 ^ prefixWidth - 1) 0 =
      some (.error "truncated QPACK field section") := by
  have max := two_pow_le narrow
  have behind := rest_of_took here took
  have below := value_lt_of_length_le few
  rw [nine_groups] at below
  obtain ⟨after, later, same⟩ := readRest_front build overflow (2 ^ prefixWidth - 1) 0
    (behind.trans (List.append_nil _).symm) continues (by omega)
    (by rw [Nat.pow_zero, Nat.mul_one]; omega)
  have nothing : after.rest = [] := by
    rw [later.rest, behind, List.drop_length]
  rw [same, readRest, readByte_nil nothing]

theorem exact_of_short (narrow : prefixWidth ≤ 8) (here : rd.rest = first :: bytes)
    (took : Took rd 1 next) (continues : Continues bytes) (few : bytes.length ≤ 9) :
    Exact prefixWidth rd (next.readRest build overflow (2 ^ prefixWidth - 1) 0) ↔
      Fits build prefixWidth rd.rest := by
  have fails := readRest_short build overflow narrow here took continues few
  refine iff_of_true (exact_of_error fails) ?_
  rw [here]
  refine fits_cons build fun front next more same continues length => ?_
  rw [same, List.length_append, List.length_cons] at few
  omega

theorem readRest_longer {front more : Bytes} {tenth : UInt8} (narrow : prefixWidth ≤ 8)
    (here : rd.rest = first :: (front ++ tenth :: more)) (took : Took rd 1 next)
    (continues : Continues front) (length : front.length = 9) :
    ∃ after, Took rd (1 + front.length + 1) after ∧
      next.readRest build overflow (2 ^ prefixWidth - 1) 0 =
        (build.sum (2 ^ prefixWidth - 1 + Base128.value front + tenth.toNat % 2 * 2 ^ 63)).map
          fun sum => if tenth.toNat < 128 then .ok (sum, after) else .error overflow := by
  have max := two_pow_le narrow
  have behind := rest_of_took here took
  have below := value_lt_of_length_le (Nat.le_of_eq length)
  rw [nine_groups] at below
  obtain ⟨reader, later, same⟩ := readRest_front build overflow (2 ^ prefixWidth - 1) 0
    behind continues (by omega) (by rw [Nat.pow_zero, Nat.mul_one]; omega)
  rw [Nat.pow_zero, Nat.mul_one, length] at same
  have here' : reader.rest = tenth :: more := by
    rw [later.rest, behind, List.drop_left]
  obtain ⟨after, one, done⟩ := readRest_tenth build overflow here' (by decide)
    (top_bit tenth.toNat)
  exact ⟨after, (took.trans later).trans one, same.trans done⟩

theorem exact_of_longer {front more : Bytes} {tenth : UInt8} (narrow : prefixWidth ≤ 8)
    (here : rd.rest = first :: (front ++ tenth :: more)) (took : Took rd 1 next)
    (full : first.toNat % 2 ^ prefixWidth = 2 ^ prefixWidth - 1) (continues : Continues front)
    (length : front.length = 9) :
    Exact prefixWidth rd (next.readRest build overflow (2 ^ prefixWidth - 1) 0) ↔
      Fits build prefixWidth rd.rest := by
  obtain ⟨after, took', same⟩ := readRest_longer build overflow narrow here took continues length
  have encoded := integer_of_full here full
  rw [here] at encoded ⊢
  rw [fits_tenth build full continues length, same]
  refine exact_tenth build overflow (fun ends => ?_) took'
  rw [here, encoded, number_of_front continues ends, Option.map_some, length, nine_groups]
  exact congrArg some (Prod.ext (Nat.add_assoc ..).symm rfl)

theorem exact_readBehind (narrow : prefixWidth ≤ 8) (here : rd.rest = first :: bytes)
    (took : Took rd 1 next) :
    Exact prefixWidth rd (next.readBehind build overflow prefixWidth first) ↔
      Fits build prefixWidth rd.rest := by
  rw [readBehind]
  by_cases small : first.toNat % 2 ^ prefixWidth < 2 ^ prefixWidth - 1
  · rw [if_pos small]
    refine iff_of_true ((exact_ok_iff rfl).mpr ⟨1, ?_, took⟩) ?_
    · rw [here, integer, if_pos small]
    · rw [here]
      intro first' front next more same full
      obtain ⟨rfl, -⟩ := List.cons.inj same
      omega
  · rw [if_neg small]
    have full := mod_eq_of_not_lt small
    cases shape 9 bytes with
    | ends same continues ends few =>
        subst same
        exact exact_of_ends build overflow narrow here took full continues ends few
    | short continues few => exact exact_of_short build overflow narrow here took continues few
    | longer same continues length =>
        subst same
        exact exact_of_longer build overflow narrow here took full continues length

theorem fits_nil : Fits build prefixWidth [] := by
  rintro _ _ _ _ ⟨⟩

theorem exact_readInt (narrow : prefixWidth ≤ 8) (rd : Reader) :
    Exact prefixWidth rd (rd.readInt build prefixWidth) ↔ Fits build prefixWidth rd.rest := by
  cases here : rd.rest with
  | nil =>
      have fails : rd.readInt build prefixWidth =
          some (.error "truncated QPACK field section") := by
        rw [readInt, readByte_nil here]
      exact iff_of_true (exact_of_error fails) (fits_nil build)
  | cons first bytes =>
      obtain ⟨next, read, took⟩ := readByte_cons here
      rw [readInt_eq build prefixWidth read, ← here]
      exact exact_readBehind build _ narrow here took

/-! When the addition overflows. -/

/-- Ten groups behind the first byte that add up to more than a `u64` has room for. -/
def Overflows (prefixWidth : Nat) (bytes : Bytes) : Prop :=
  ∃ first front tenth more, bytes = first :: (front ++ tenth :: more) ∧
    first.toNat % 2 ^ prefixWidth = 2 ^ prefixWidth - 1 ∧ Continues front ∧ front.length = 9 ∧
      2 ^ 64 ≤ 2 ^ prefixWidth - 1 + Base128.value front + tenth.toNat % 2 * 2 ^ 63

theorem sum_eq_none {sum : Nat} :
    build.sum sum = none ↔ build.overflowChecks = true ∧ 2 ^ 64 ≤ sum := by
  unfold Build.sum
  split
  · next small =>
      exact iff_of_false (Option.some_ne_none _) fun large => Nat.not_le_of_lt small large.2
  · next large =>
      split
      · next checks => exact iff_of_true rfl ⟨checks, Nat.le_of_not_lt large⟩
      · next unchecked =>
          exact iff_of_false (Option.some_ne_none _) fun checks => unchecked checks.1

theorem readBehind_eq_none (narrow : prefixWidth ≤ 8) (here : rd.rest = first :: bytes)
    (took : Took rd 1 next) : next.readBehind build overflow prefixWidth first = none ↔
      build.overflowChecks = true ∧ Overflows prefixWidth rd.rest := by
  by_cases longer : ∃ front tenth more, bytes = front ++ tenth :: more ∧ Continues front ∧
      front.length = 9 ∧ first.toNat % 2 ^ prefixWidth = 2 ^ prefixWidth - 1
  · obtain ⟨front, tenth, more, rfl, continues, length, full⟩ := longer
    obtain ⟨after, -, same⟩ := readRest_longer build overflow narrow here took continues length
    rw [readBehind, if_neg (by omega), same, Option.map_eq_none_iff, sum_eq_none, here]
    refine and_congr_right fun _ => ⟨fun large => ?_, ?_⟩
    · exact ⟨first, front, tenth, more, rfl, full, continues, length, large⟩
    · rintro ⟨first', front', tenth', more', behind, -, -, length', large⟩
      obtain ⟨-, tails⟩ := List.cons.inj behind
      obtain ⟨rfl, last⟩ := List.append_inj tails (length.trans length'.symm)
      obtain ⟨rfl, -⟩ := List.cons.inj last
      exact large
  · have fits : Fits build prefixWidth rd.rest := by
      rw [here]
      rintro first' front tenth more same full continues length
      obtain ⟨rfl, behind⟩ := List.cons.inj same
      exact absurd ⟨front, tenth, more, behind, continues, length, full⟩ longer
    obtain ⟨result, done, -⟩ := (exact_readBehind build overflow narrow here took).mpr fits
    rw [done]
    refine iff_of_false (Option.some_ne_none _) ?_
    rintro ⟨-, first', front, tenth, more, same, full, continues, length, -⟩
    rw [here] at same
    obtain ⟨rfl, behind⟩ := List.cons.inj same
    exact longer ⟨front, tenth, more, behind, continues, length, full⟩

theorem not_overflows_nil : ¬Overflows prefixWidth [] := by
  rintro ⟨_, _, _, _, ⟨⟩, -⟩

theorem readInt_eq_none (narrow : prefixWidth ≤ 8) (rd : Reader) :
    rd.readInt build prefixWidth = none ↔
      build.overflowChecks = true ∧ Overflows prefixWidth rd.rest := by
  cases here : rd.rest with
  | nil =>
      rw [readInt, readByte_nil here]
      exact iff_of_false (Option.some_ne_none _) fun overflows => not_overflows_nil overflows.2
  | cons first bytes =>
      obtain ⟨next, read, took⟩ := readByte_cons here
      rw [readInt_eq build prefixWidth read, ← here]
      exact readBehind_eq_none build _ narrow here took

/-- A string is taken with the length that its bytes encode, and no panic; the length
on its way there is exact too. -/
structure ExactString (build : Build) (prefixWidth : Nat) (rd : Reader) : Prop where
  length : ∀ first next, rd.readByte = .ok (first, next) →
    Exact (prefixWidth - 1) rd (next.readLength build (prefixWidth - 1) first)
  text : ∃ result, rd.readString build prefixWidth = some result ∧
    ∀ bytes after, result = .ok (bytes, after) → ∃ first length count,
      rd.rest.head? = some first ∧ integer (prefixWidth - 1) rd.rest = some (length, count) ∧
        Took rd (count + length) after ∧
          if huffmanFlag prefixWidth first = some true then
            huffmanDecode ((rd.rest.drop count).take length) = .ok bytes
          else bytes = (rd.rest.drop count).take length

theorem readRaw_ok {huffman : Bool} {length : Nat} {after : Reader} {text : Bytes}
    (read : rd.readRaw huffman length = .ok (text, after)) :
    if huffman = true then huffmanDecode (rd.rest.take length) = .ok text
    else text = rd.rest.take length := by
  unfold readRaw at read
  split at read
  · cases read
  · dsimp only at read
    split at read
    · next coded =>
        rw [if_pos coded]
        change (huffmanDecode (rd.rest.take length)).map _ = _ at read
        rcases decoded : huffmanDecode (rd.rest.take length) with error | bytes
        · rw [decoded] at read
          cases read
        · rw [decoded] at read
          cases read
          rfl
    · next plain =>
        rw [if_neg plain]
        cases read
        rfl

theorem huffmanFlag_width (width : prefixWidth = 4 ∨ prefixWidth = 8) (first : UInt8) :
    ∃ huffman, huffmanFlag prefixWidth first = some huffman := by
  rcases width with rfl | rfl <;> exact ⟨_, rfl⟩

theorem exactString_iff (rd : Reader) (width : prefixWidth = 4 ∨ prefixWidth = 8) :
    ExactString build prefixWidth rd ↔ Fits build (prefixWidth - 1) rd.rest := by
  have narrow : prefixWidth - 1 ≤ 8 := by omega
  cases here : rd.rest with
  | nil =>
      refine iff_of_true ⟨?_, ?_⟩ (fits_nil build)
      · intro first next read
        rw [readByte_nil here] at read
        cases read
      · refine ⟨_, by rw [readString, readByte_nil here], ?_⟩
        rintro _ _ ⟨⟩
  | cons first bytes =>
      obtain ⟨next, read, took⟩ := readByte_cons here
      have exact_length : Exact (prefixWidth - 1) rd
          (next.readLength build (prefixWidth - 1) first) ↔
            Fits build (prefixWidth - 1) (first :: bytes) := by
        rw [readLength_eq, ← here]
        exact exact_readBehind build _ narrow here took
      refine ⟨fun exact_string => exact_length.mp (exact_string.length first next read), ?_⟩
      intro fits
      have exact_here := exact_length.mpr fits
      refine ⟨?_, ?_⟩
      · intro first' next' read'
        cases read.symm.trans read'
        exact exact_here
      · obtain ⟨huffman, flag⟩ := huffmanFlag_width width first
        obtain ⟨result, done, value⟩ := exact_here
        have reads : rd.readString build prefixWidth =
            Outcome.andThen (some result) fun read => some (read.2.readRaw huffman read.1) := by
          unfold readString
          rw [read]
          dsimp only
          rw [flag, ← done]
        rcases result with error | ⟨length, after⟩
        · refine ⟨_, reads, ?_⟩
          rintro _ _ ⟨⟩
        · obtain ⟨count, encoded, passed⟩ := value length after rfl
          refine ⟨_, reads, ?_⟩
          intro text last raw
          have told := readRaw_ok raw
          refine ⟨first, length, count, by rw [here]; rfl, encoded,
            passed.trans (took_readRaw raw), ?_⟩
          rw [passed.rest] at told
          rw [flag]
          cases huffman with
          | true => exact told
          | false => exact told

theorem readString_eq_none (width : prefixWidth = 4 ∨ prefixWidth = 8) (rd : Reader) :
    rd.readString build prefixWidth = none ↔
      build.overflowChecks = true ∧ Overflows (prefixWidth - 1) rd.rest := by
  cases here : rd.rest with
  | nil =>
      rw [readString, readByte_nil here]
      exact iff_of_false (Option.some_ne_none _) fun overflows => not_overflows_nil overflows.2
  | cons first bytes =>
      obtain ⟨next, read, took⟩ := readByte_cons here
      obtain ⟨huffman, flag⟩ := huffmanFlag_width width first
      have narrow : prefixWidth - 1 ≤ 8 := by omega
      rw [← here, ← readBehind_eq_none build "QPACK string length overflow" narrow here took,
        ← readLength_eq, readString, read]
      dsimp only
      rw [flag]
      rcases next.readLength build (prefixWidth - 1) first with _ | _ | _
      · exact iff_of_true rfl rfl
      · exact iff_of_false (Option.some_ne_none _) (Option.some_ne_none _)
      · exact iff_of_false (Option.some_ne_none _) (Option.some_ne_none _)

/-- Integers and string lengths are read exactly, or refused, but for those that a
`u64` has no room for. -/
theorem exact_iff_fits (build : Build) (rd : Reader) :
    (∀ prefixWidth, 1 ≤ prefixWidth → prefixWidth ≤ 8 →
      (Exact prefixWidth rd (rd.readInt build prefixWidth) ↔ Fits build prefixWidth rd.rest)) ∧
    ∀ prefixWidth, prefixWidth = 4 ∨ prefixWidth = 8 →
      (ExactString build prefixWidth rd ↔ Fits build (prefixWidth - 1) rd.rest) :=
  ⟨fun _ _ narrow => exact_readInt build narrow rd, fun _ width => exactString_iff build rd width⟩

theorem exact_iff_fits_short :
    Exact 8 (.new [255, 0x80, 1]) ((new [255, 0x80, 1]).readInt ⟨true⟩ 8) ∧
      ExactString ⟨true⟩ 4 (.new [255, 0x80, 1]) := by
  have few (width : Nat) : Fits ⟨true⟩ width [255, 0x80, 1] := by
    refine fits_cons _ fun front next more same continues length => ?_
    have size := congrArg List.length same
    rw [List.length_append, length, List.length_cons] at size
    simp only [List.length_cons, List.length_nil] at size
    omega
  exact ⟨((exact_iff_fits ⟨true⟩ (.new [255, 0x80, 1])).1 8 (by decide) (by decide)).mpr (few 8),
    ((exact_iff_fits ⟨true⟩ (.new [255, 0x80, 1])).2 4 (.inl rfl)).mpr (few 3)⟩

/-- The tenth byte is moved past the top, and 255 is all that is left of it. -/
theorem lostGroup_not_exact :
    ¬Exact 8 (.new (255 :: List.replicate 9 0x80 ++ [2]))
        ((new (255 :: List.replicate 9 0x80 ++ [2])).readInt ⟨true⟩ 8) ∧
      ¬Exact 8 (.new (255 :: List.replicate 9 0x80 ++ [2]))
        ((new (255 :: List.replicate 9 0x80 ++ [2])).readInt ⟨false⟩ 8) := by
  have lost (build : Build) : ¬Fits build 8 (255 :: (List.replicate 9 0x80 ++ [2])) := by
    intro fits
    have continues : Continues (List.replicate 9 0x80) := fun byte member => by
      rw [List.eq_of_mem_replicate member]
      decide
    have small := fits 255 (List.replicate 9 0x80) 2 [] rfl (by decide) continues rfl
    rw [if_pos (by decide)] at small
    exact absurd small (by decide)
  exact ⟨fun exact_value => lost _ ((exact_readInt _ (by decide) _).mp exact_value),
    fun exact_value => lost _ ((exact_readInt _ (by decide) _).mp exact_value)⟩

end Reader

end Qpack

end QuicProxy
