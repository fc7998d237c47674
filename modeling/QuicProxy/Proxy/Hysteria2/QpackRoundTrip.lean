import QuicProxy.Proxy.Hysteria2.QpackIntegers

namespace QuicProxy

/-! What the QPACK encoder writes is read back
(`src/proxy/outbound/hysteria2/qpack.rs`). -/

namespace Qpack

open Base128

theorem toNat_group (rest : Nat) :
    ((castU8 rest &&& 0x7f) ||| 0x80).toNat = rest % 128 + 128 := by
  have bits : (castU8 rest &&& 0x7f).toNat = rest % 128 := by
    rw [toNat_and_0x7f, toNat_castU8]
    omega
  rw [UInt8.toNat_or, bits, show (0x80 : UInt8).toNat = 2 ^ 7 * 1 from rfl, Nat.or_comm,
    ← Nat.two_pow_add_eq_or_of_lt (Nat.mod_lt _ (by decide))]
  omega

theorem appendRest_eq (rest : Nat) : ∃ front last, appendRest rest = front ++ [last] ∧
    Continues front ∧ last.toNat < 128 ∧
      Base128.value front + last.toNat * 128 ^ front.length = rest ∧
        ∀ count, rest < 128 ^ (count + 1) → front.length ≤ count := by
  fun_induction appendRest rest with
  | case1 rest long ih =>
      obtain ⟨front, last, same, continues, ends, sum, few⟩ := ih
      rw [Nat.shiftRight_eq_div_pow] at sum few
      refine ⟨((castU8 rest &&& 0x7f) ||| 0x80) :: front, last, ?_, ?_, ends, ?_, ?_⟩
      · rw [same, List.cons_append]
      · refine List.forall_mem_cons.mpr ⟨?_, continues⟩
        rw [toNat_group]
        omega
      · rw [Base128.value, toNat_group, List.length_cons, Nat.pow_succ, ← Nat.mul_assoc]
        omega
      · intro count below
        cases count with
        | zero => omega
        | succ count =>
            rw [Nat.pow_succ] at below
            exact Nat.succ_le_succ (few count (by omega))
  | case2 rest short =>
      have small : (castU8 rest).toNat = rest := by
        rw [toNat_castU8]
        omega
      refine ⟨[], castU8 rest, rfl, continues_nil, by omega, ?_, fun _ _ => Nat.zero_le _⟩
      rw [small, Base128.value, List.length_nil, Nat.pow_zero, Nat.mul_one, Nat.zero_add]

theorem mod_of_flags {flags : UInt8} {low prefixWidth : Nat} (narrow : prefixWidth ≤ 8)
    (free : flags.toNat % 2 ^ prefixWidth = 0) (small : low < 2 ^ prefixWidth) :
    (flags ||| castU8 low).toNat % 2 ^ prefixWidth = low := by
  have max : 2 ^ prefixWidth ≤ 256 := Nat.pow_le_pow_right (by decide) narrow
  rw [UInt8.toNat_or, toNat_castU8, Nat.mod_eq_of_lt (by omega : low < 256),
    Nat.or_mod_two_pow, free, Nat.zero_or, Nat.mod_eq_of_lt small]

namespace Reader

/-- An integer is read back, whatever is behind it; `low` is what its first byte holds. -/
theorem readBehind_appendInt (build : Build) (overflow : String) {prefixWidth value : Nat}
    {flags : UInt8} {rd : Reader} {more : Bytes} (narrow : prefixWidth ≤ 8)
    (small : value < 2 ^ 64) (free : flags.toNat % 2 ^ prefixWidth = 0)
    (here : rd.rest = appendInt prefixWidth value flags ++ more) :
    ∃ low next after, low < 2 ^ prefixWidth ∧
      rd.readByte = .ok (flags ||| castU8 low, next) ∧
        next.readBehind build overflow prefixWidth (flags ||| castU8 low) =
          some (.ok (value, after)) ∧
            Took rd (appendInt prefixWidth value flags).length after := by
  have positive := Nat.two_pow_pos prefixWidth
  unfold appendInt at here ⊢
  dsimp only at here ⊢
  rw [Nat.one_shiftLeft] at here ⊢
  split at here
  · next one =>
      obtain ⟨next, read, took⟩ := readByte_cons here
      have low := mod_of_flags narrow free (by omega : value < 2 ^ prefixWidth)
      refine ⟨value, next, next, by omega, read, ?_, ?_⟩
      · rw [readBehind, low, if_pos one]
      · rw [if_pos one]
        exact took
  · next full =>
      obtain ⟨next, read, took⟩ := readByte_cons here
      have low := mod_of_flags narrow free (by omega : 2 ^ prefixWidth - 1 < 2 ^ prefixWidth)
      obtain ⟨front, last, same, continues, ends, sum, few⟩ :=
        appendRest_eq (value - (2 ^ prefixWidth - 1))
      have behind : next.rest = front ++ last :: more := by
        rw [took.rest, here, same, List.cons_append, List.append_assoc]
        rfl
      have ten : value - (2 ^ prefixWidth - 1) < 128 ^ (9 + 1) :=
        Nat.lt_of_lt_of_le (Nat.lt_of_le_of_lt (Nat.sub_le ..) small) (by decide)
      obtain ⟨after, later, done⟩ := readRest_number build overflow (2 ^ prefixWidth - 1) behind
        continues ends (few 9 ten) (by rw [sum]; omega)
      refine ⟨2 ^ prefixWidth - 1, next, after, by omega, read, ?_, ?_⟩
      · rw [readBehind, low, if_neg (Nat.lt_irrefl _), done, sum]
        congr 4
        omega
      · rw [if_neg full, same, List.length_cons, List.length_append, List.length_singleton,
          Nat.add_comm]
        exact took.trans later

theorem readInt_appendInt (build : Build) {prefixWidth value : Nat} {flags : UInt8} {rd : Reader}
    {more : Bytes} (narrow : prefixWidth ≤ 8) (small : value < 2 ^ 64)
    (free : flags.toNat % 2 ^ prefixWidth = 0)
    (here : rd.rest = appendInt prefixWidth value flags ++ more) :
    ∃ after, rd.readInt build prefixWidth = some (.ok (value, after)) ∧
      Took rd (appendInt prefixWidth value flags).length after := by
  obtain ⟨low, next, after, -, read, done, took⟩ := readBehind_appendInt build
    "QPACK integer overflow" narrow small free here
  exact ⟨after, by rw [readInt_eq build prefixWidth read, done], took⟩

theorem readRaw_append {rd : Reader} {text more : Bytes} (here : rd.rest = text ++ more) :
    ∃ after, rd.readRaw false text.length = .ok (text, after) ∧ Took rd text.length after := by
  have size : rd.remaining = rd.rest.length := List.length_drop.symm
  rw [here, List.length_append] at size
  have enough : ¬rd.remaining < text.length := by omega
  have front : (rd.buf.drop rd.pos).take text.length = text := by
    change rd.rest.take text.length = text
    rw [here, List.take_left]
  unfold readRaw
  rw [dif_neg enough]
  dsimp only
  rw [front]
  exact ⟨_, rfl, rfl, rfl⟩

theorem readString_appendInt (build : Build) {prefixWidth : Nat} {flags : UInt8} {rd : Reader}
    {text more : Bytes} (narrow : prefixWidth - 1 ≤ 8) (small : text.length < 2 ^ 64)
    (free : flags.toNat % 2 ^ (prefixWidth - 1) = 0)
    (plain : ∀ low < 2 ^ (prefixWidth - 1),
      huffmanFlag prefixWidth (flags ||| castU8 low) = some false)
    (here : rd.rest = appendInt (prefixWidth - 1) text.length flags ++ text ++ more) :
    ∃ after, rd.readString build prefixWidth = some (.ok (text, after)) ∧
      Took rd (appendInt (prefixWidth - 1) text.length flags ++ text).length after := by
  rw [List.append_assoc] at here
  obtain ⟨low, next, reader, below, read, done, took⟩ := readBehind_appendInt build
    "QPACK string length overflow" narrow small free here
  have behind : reader.rest = text ++ more := by
    rw [took.rest, here, List.drop_left]
  obtain ⟨after, raw, passed⟩ := readRaw_append behind
  refine ⟨after, ?_, ?_⟩
  · unfold readString
    rw [read]
    dsimp only
    rw [plain low below, readLength_eq, done]
    exact congrArg some raw
  · rw [List.length_append]
    exact took.trans passed

theorem plain_name : ∀ low < 2 ^ (4 - 1),
    huffmanFlag 4 ((0x20 : UInt8) ||| castU8 low) = some false := by
  decide

theorem plain_value : ∀ low < 2 ^ (8 - 1),
    huffmanFlag 8 ((0x00 : UInt8) ||| castU8 low) = some false := by
  decide +kernel

theorem literal_line : ∀ low < 2 ^ 3, ((0x20 : UInt8) ||| castU8 low) &&& 0x80 = 0 ∧
    ((0x20 : UInt8) ||| castU8 low) &&& 0xc0 ≠ 0x40 ∧
      ((0x20 : UInt8) ||| castU8 low) &&& 0xe0 = 0x20 := by
  decide

/-- The lengths are those of a `usize`. -/
def Small (field : String × String) : Prop :=
  (asBytes field.1).length < 2 ^ 64 ∧ (asBytes field.2).length < 2 ^ 64

theorem readLine_encodeField (build : Build) {field : String × String} (small : Small field)
    {rd : Reader} {more : Bytes} (here : rd.rest = encodeField field ++ more) :
    ∃ first next after, rd.readByte = .ok (first, next) ∧
      rd.readLine build first = some (.ok (field, after)) ∧
        Took rd (encodeField field).length after := by
  obtain ⟨name, value⟩ := field
  obtain ⟨smallName, smallValue⟩ := small
  have nameHere : rd.rest = appendInt 3 (asBytes name).length 0x20 ++ asBytes name ++
      (appendInt 7 (asBytes value).length 0x00 ++ asBytes value ++ more) := by
    rw [here, encodeField, List.append_assoc]
  obtain ⟨low, next, -, below, read, -⟩ := readBehind_appendInt build "" (by decide)
    smallName (by decide) (nameHere.trans (List.append_assoc ..))
  obtain ⟨middle, readName, tookName⟩ := readString_appendInt build (by decide) smallName
    (by decide) plain_name nameHere
  have valueHere : middle.rest =
      appendInt 7 (asBytes value).length 0x00 ++ asBytes value ++ more := by
    rw [tookName.rest, nameHere, List.drop_left]
  obtain ⟨after, readValue, tookValue⟩ := readString_appendInt build (by decide) smallValue
    (by decide) plain_value valueHere
  obtain ⟨indexed, named, literal⟩ := literal_line low below
  refine ⟨_, next, after, read, ?_, ?_⟩
  · unfold readLine
    rw [if_neg (by rw [indexed]; decide), if_neg named, if_pos literal, readName]
    change (middle.readString build 8).andThen _ = _
    rw [readValue]
    change some (Except.ok ((fromUtf8Lossy (asBytes name), fromUtf8Lossy (asBytes value)), after)) =
      _
    rw [fromUtf8Lossy_asBytes, fromUtf8Lossy_asBytes]
  · rw [encodeField, List.length_append]
    exact tookName.trans tookValue

theorem readLines_flatMap (build : Build) {fields : List (String × String)}
    (small : ∀ field ∈ fields, Small field) {rd : Reader}
    (here : rd.rest = fields.flatMap encodeField) (before : List (String × String)) :
    rd.readLines build before = some (.ok (before ++ fields)) := by
  induction fields generalizing rd before with
  | nil => rw [readLines_nil before here, List.append_nil]
  | cons field fields ih =>
      obtain ⟨smallHere, later⟩ := List.forall_mem_cons.mp small
      rw [List.flatMap_cons] at here
      obtain ⟨first, next, after, read, line, took⟩ := readLine_encodeField build smallHere here
      have behind : after.rest = fields.flatMap encodeField := by
        rw [took.rest, here, List.drop_left]
      rw [readLines_next before (head_of_readByte read) line, ih later behind, List.append_assoc,
        List.singleton_append]

end Reader

open Qpack.Reader

theorem appendInt_zero : appendInt 8 0 0x00 = [0x00] ∧ appendInt 7 0 0x00 = [0x00] := by
  decide

theorem decodeFieldSection_encode (build : Build) {fields : List (String × String)}
    (small : ∀ field ∈ fields, Small field) :
    decodeFieldSection build (encodeFieldSection fields) = some (.ok fields) := by
  obtain ⟨zeroCount, zeroBase⟩ := appendInt_zero
  have here : (Reader.new (encodeFieldSection fields)).rest =
      appendInt 8 0 0x00 ++ 0x00 :: fields.flatMap encodeField := by
    rw [zeroCount]
    rfl
  obtain ⟨next, count, took⟩ := readInt_appendInt build (by decide) (by decide) (by decide) here
  have base_here : next.rest = appendInt 7 0 0x00 ++ fields.flatMap encodeField := by
    rw [took.rest, here, List.drop_left, zeroBase]
    rfl
  obtain ⟨after, base, passed⟩ :=
    readInt_appendInt build (by decide) (by decide) (by decide) base_here
  have lines : after.rest = fields.flatMap encodeField := by
    rw [passed.rest, base_here, List.drop_left]
  unfold decodeFieldSection
  rw [count]
  change (next.readInt build 7).andThen _ = _
  rw [base]
  exact readLines_flatMap build small lines []

/-- A field section is read back as it was, and so is an integer of any width with any
flags above it. -/
theorem decode_encode (build : Build) :
    (∀ fields : List (String × String), (∀ field ∈ fields, Small field) →
      decodeFieldSection build (encodeFieldSection fields) = some (.ok fields)) ∧
    ∀ (prefixWidth value : Nat) (flags : UInt8) (rd : Reader) (more : Bytes),
      1 ≤ prefixWidth → prefixWidth ≤ 8 → value < 2 ^ 64 → flags.toNat % 2 ^ prefixWidth = 0 →
        rd.rest = appendInt prefixWidth value flags ++ more →
          ∃ after, rd.readInt build prefixWidth = some (.ok (value, after)) ∧
            Took rd (appendInt prefixWidth value flags).length after :=
  ⟨fun _ small => decodeFieldSection_encode build small,
    fun _ _ _ _ _ _ narrow small free here => readInt_appendInt build narrow small free here⟩

theorem decode_encode_auth :
    decodeFieldSection ⟨true⟩ (encodeFieldSection [(":method", "POST"), ("empty", "")]) =
        some (.ok [(":method", "POST"), ("empty", "")]) ∧
      ∃ after, (Reader.new (appendInt 4 24 0x50 ++ [7])).readInt ⟨true⟩ 4 = some (.ok (24, after)) ∧
        Took (.new (appendInt 4 24 0x50 ++ [7])) (appendInt 4 24 0x50).length after := by
  refine ⟨(decode_encode ⟨true⟩).1 _ ?_, (decode_encode ⟨true⟩).2 4 24 0x50 _ [7] (by decide)
    (by decide) (by decide) (by decide) rfl⟩
  rintro field (_ | ⟨_, _ | ⟨_, ⟨⟩⟩⟩) <;> exact ⟨by decide, by decide⟩

end Qpack

end QuicProxy
