import Mathlib.Logic.Relation
import QuicProxy.Proxy.Hysteria2.Huffman
import QuicProxy.Proxy.Hysteria2.QpackIntegers

namespace QuicProxy

/-! How the bytes of a block fall into field lines if only 64 bits of every integer are
kept, and that the decoder reads such lines (`src/proxy/outbound/hysteria2/qpack.rs`). -/

namespace Qpack

open Base128 Qpack.Reader

/-- The integer at the front of the bytes as a `u64` holds it: no more than ten bytes
follow the first one, and with overflow checks they add up. -/
structure Held (build : Build) (prefixWidth : Nat) (bytes : Bytes) (value count : Nat) : Prop where
  number : ∃ whole, integer prefixWidth bytes = some (whole, count) ∧ value = whole % 2 ^ 64
  groups : count ≤ 11
  added : build.overflowChecks = true → ¬Overflows prefixWidth bytes

/-- The whole codes at the front of the input are those of the text, and no other code
begins behind them. -/
def Codes (text input : Bytes) : Prop :=
  ∃ left, input.flatMap bits = huffman.words (text.map symbol) ++ left ∧ huffman.Stuck left

inductive ScanString (build : Build) (prefixWidth : Nat) (bytes text : Bytes) : Nat → Prop
  | mk {first : UInt8} {length count : Nat} (head : bytes.head? = some first)
      (size : Held build (prefixWidth - 1) bytes length count)
      (within : count + length ≤ bytes.length)
      (codes : if huffmanFlag prefixWidth first = some true then
          Codes text ((bytes.drop count).take length)
        else text = (bytes.drop count).take length) :
      ScanString build prefixWidth bytes text (count + length)

/-- A line at the front of the bytes, the octets of its name and value and how many bytes
it takes.  The flag of a name reference that tells the tables apart is not looked at. -/
inductive ScanLine (build : Build) (bytes : Bytes) : Bytes × Bytes → Nat → Prop
  | indexed {first : UInt8} {index count : Nat} {field : String × String}
      (head : bytes.head? = some first) (kind : first &&& 0xc0 = 0xc0)
      (number : Held build 6 bytes index count)
      (entry : qpackStaticTable[index]? = some field) :
      ScanLine build bytes (asBytes field.1, asBytes field.2) count
  | nameReference {first : UInt8} {index count size : Nat} {entry : String × String}
      {value : Bytes} (head : bytes.head? = some first) (kind : first &&& 0xc0 = 0x40)
      (number : Held build 4 bytes index count)
      (named : qpackStaticTable[index]? = some entry)
      (string : ScanString build 8 (bytes.drop count) value size) :
      ScanLine build bytes (asBytes entry.1, value) (count + size)
  | literalName {first : UInt8} {count size : Nat} {name value : Bytes}
      (head : bytes.head? = some first) (kind : first &&& 0xe0 = 0x20)
      (named : ScanString build 4 bytes name count)
      (string : ScanString build 8 (bytes.drop count) value size) :
      ScanLine build bytes (name, value) (count + size)

def ScanNext (build : Build) (bytes later : Bytes) : Prop :=
  ∃ octets count, ScanLine build bytes octets count ∧ later = bytes.drop count

/-- Line by line from the front of the bytes to the front of the later ones. -/
abbrev Scans (build : Build) : Bytes → Bytes → Prop := Relation.ReflTransGen (ScanNext build)

/-- The lines of a block, behind an insert count and a base of 0. -/
inductive ScanBegins (build : Build) (block : Bytes) : Bytes → Prop
  | mk {count size : Nat} (insertCount : Held build 8 block 0 count)
      (base : Held build 7 (block.drop count) 0 size) :
      ScanBegins build block (block.drop (count + size))

/-! Integers. -/

section Integers

variable {build : Build} {prefixWidth value count other result : Nat} {bytes : Bytes}
  {rd next after last : Reader} {first : UInt8}

theorem Held.unique (one : Held build prefixWidth bytes value count)
    (two : Held build prefixWidth bytes result other) : value = result ∧ count = other := by
  obtain ⟨whole, number, rfl⟩ := one.number
  obtain ⟨whole', number', rfl⟩ := two.number
  cases number.symm.trans number'
  exact ⟨rfl, rfl⟩

theorem Reader.Took.unique (one : Took rd count next) (two : Took rd count after) :
    next = after := by
  obtain ⟨buf, pos, within⟩ := next
  obtain ⟨buf', pos', within'⟩ := after
  obtain ⟨rfl, rfl⟩ := one
  obtain ⟨rfl, rfl⟩ := two
  rfl

theorem Reader.Took.behind (one : Took rd count next) (whole : Took rd (count + other) after) :
    Took next other after :=
  ⟨whole.buf.trans one.buf.symm, by rw [whole.pos, one.pos, Nat.add_assoc]⟩

theorem exists_took (within : count ≤ rd.rest.length) : ∃ next, Took rd count next := by
  have inside := rd.within
  rw [Reader.rest, List.length_drop] at within
  exact ⟨⟨rd.buf, rd.pos + count, by omega⟩, rfl, rfl⟩

theorem ok_iff_of_held {outcome : Outcome (Nat × Reader)}
    (done : outcome = some (.ok (value, after))) (held : Held build prefixWidth rd.rest value count)
    (took : Took rd count after) : outcome = some (.ok (result, last)) ↔
      ∃ count, Held build prefixWidth rd.rest result count ∧ Took rd count last := by
  rw [done]
  constructor
  · rintro ⟨⟩
    exact ⟨count, held, took⟩
  · rintro ⟨count', held', took'⟩
    obtain ⟨rfl, rfl⟩ := held.unique held'
    rw [took.unique took']

theorem readLonger_ok_iff (overflow : String) {front more : Bytes} {tenth : UInt8}
    (narrow : prefixWidth ≤ 8) (here : rd.rest = first :: (front ++ tenth :: more))
    (took : Took rd 1 next) (full : first.toNat % 2 ^ prefixWidth = 2 ^ prefixWidth - 1)
    (continues : Continues front) (length : front.length = 9) :
    next.readRest build overflow (2 ^ prefixWidth - 1) 0 = some (.ok (result, last)) ↔
      ∃ count, Held build prefixWidth rd.rest result count ∧ Took rd count last := by
  obtain ⟨after, passed, same⟩ := readRest_longer build overflow narrow here took continues length
  have encoded := integer_of_full here full
  by_cases overflows : build.overflowChecks = true ∧ Overflows prefixWidth rd.rest
  · have panics : next.readRest build overflow (2 ^ prefixWidth - 1) 0 = none := by
      have behind := (readBehind_eq_none build overflow narrow here took).mpr overflows
      rwa [readBehind, if_neg (by omega)] at behind
    rw [panics]
    refine iff_of_false (Option.some_ne_none _).symm ?_
    rintro ⟨_, held, -⟩
    exact held.added overflows.1 overflows.2
  · have added : build.sum (2 ^ prefixWidth - 1 + value front + tenth.toNat % 2 * 2 ^ 63) =
        some ((2 ^ prefixWidth - 1 + value front + tenth.toNat % 2 * 2 ^ 63) % 2 ^ 64) := by
      unfold Build.sum
      split
      · next small => rw [Nat.mod_eq_of_lt small]
      · next large =>
          refine if_neg fun checks => overflows ⟨checks, first, front, tenth, more, here, full,
            continues, length, Nat.le_of_not_lt large⟩
    rw [added, Option.map_some] at same
    by_cases ends : tenth.toNat < 128
    · rw [if_pos ends] at same
      rw [number_of_front continues ends, Option.map_some, length, nine_groups] at encoded
      refine ok_iff_of_held same ⟨⟨_, encoded, ?_⟩, Nat.le_refl _, fun checks wraps =>
        overflows ⟨checks, wraps⟩⟩ ?_
      · simp only [Nat.reducePow]
        omega
      · rw [length] at passed
        exact passed
    · rw [if_neg ends] at same
      rw [same]
      refine iff_of_false (by rintro ⟨⟩) ?_
      rintro ⟨count, held, -⟩
      obtain ⟨whole, number, -⟩ := held.number
      rw [encoded] at number
      obtain ⟨rest, behind, same⟩ := Option.map_eq_some_iff.mp number
      have goes : Continues (front ++ [tenth]) :=
        List.forall_mem_append.mpr ⟨continues, fun byte member => by
          rw [List.mem_singleton.mp member]
          omega⟩
      rw [← List.singleton_append, ← List.append_assoc] at behind
      have long := length_lt_of_number goes behind
      rw [List.length_append, length, List.length_singleton] at long
      have groups := held.groups
      cases same
      omega

theorem readBehind_ok_iff (overflow : String) (narrow : prefixWidth ≤ 8)
    (here : rd.rest = first :: bytes) (took : Took rd 1 next) :
    next.readBehind build overflow prefixWidth first = some (.ok (result, last)) ↔
      ∃ count, Held build prefixWidth rd.rest result count ∧ Took rd count last := by
  rw [readBehind]
  by_cases small : first.toNat % 2 ^ prefixWidth < 2 ^ prefixWidth - 1
  · rw [if_pos small]
    have max := two_pow_le narrow
    refine ok_iff_of_held rfl ⟨⟨_, by rw [here, integer, if_pos small], ?_⟩, by decide, ?_⟩ took
    · exact (Nat.mod_eq_of_lt (by omega)).symm
    · rintro - ⟨first', front, tenth, more, same, full, -⟩
      rw [here] at same
      obtain ⟨rfl, -⟩ := List.cons.inj same
      omega
  · rw [if_neg small]
    have full := mod_eq_of_not_lt small
    cases shape 9 bytes with
    | @ends front last more same continues ends few =>
        subst same
        have max := two_pow_le narrow
        have below := ended_lt ends few
        rw [nine_groups] at below
        obtain ⟨after, later, done⟩ := readRest_number build overflow (2 ^ prefixWidth - 1)
          (rest_of_took here took) continues ends (Nat.le_of_lt few) (by omega)
        refine ok_iff_of_held done
          ⟨⟨2 ^ prefixWidth - 1 + (value front + last.toNat * 128 ^ front.length), ?_, ?_⟩, ?_, ?_⟩
          (took.trans later)
        · rw [integer_of_full here full, number_of_front continues ends, Option.map_some,
            Nat.add_comm 1]
        · exact (Nat.mod_eq_of_lt (by omega)).symm
        · omega
        · rintro - ⟨first', other, next', behind, same, -, continues', length, -⟩
          rw [here] at same
          have within := ends_within (List.cons.inj same).2 ends continues'
          omega
    | short continues few =>
        rw [readRest_short build overflow narrow here took continues few]
        refine iff_of_false (by rintro ⟨⟩) ?_
        rintro ⟨count, held, -⟩
        obtain ⟨whole, number, -⟩ := held.number
        rw [integer_of_full here full, number_of_continues continues] at number
        cases number
    | longer same continues length =>
        subst same
        exact readLonger_ok_iff overflow narrow here took full continues length

theorem not_held_nil : ¬Held build prefixWidth [] value count := by
  rintro ⟨⟨_, ⟨⟩, -⟩, -, -⟩

theorem Held.within (held : Held build prefixWidth bytes value count) : count ≤ bytes.length := by
  obtain ⟨whole, number, -⟩ := held.number
  cases bytes with
  | nil => cases number
  | cons first bytes =>
      rw [integer] at number
      split at number
      · cases number
        exact Nat.succ_le_succ (Nat.zero_le _)
      · obtain ⟨rest, behind, same⟩ := Option.map_eq_some_iff.mp number
        cases same
        exact Nat.succ_le_succ (number_le behind)

theorem readInt_ok_iff (narrow : prefixWidth ≤ 8) :
    rd.readInt build prefixWidth = some (.ok (result, last)) ↔
      ∃ count, Held build prefixWidth rd.rest result count ∧ Took rd count last := by
  cases here : rd.rest with
  | nil =>
      rw [readInt, readByte_nil here]
      refine iff_of_false (by rintro ⟨⟩) ?_
      rintro ⟨count, held, -⟩
      exact not_held_nil held
  | cons first bytes =>
      obtain ⟨next, read, took⟩ := readByte_cons here
      rw [readInt_eq build prefixWidth read, ← here]
      exact readBehind_ok_iff _ narrow here took

end Integers

/-! Strings. -/

section Strings

variable {build : Build} {prefixWidth length count : Nat} {rd next after : Reader}
  {first : UInt8} {text input : Bytes} {huffmanCoded : Bool}

theorem andThen_ok_iff {α β : Type} {outcome : Outcome α} {next : α → Outcome β} {result : β} :
    outcome.andThen next = some (.ok result) ↔
      ∃ value, outcome = some (.ok value) ∧ next value = some (.ok result) := by
  refine ⟨Outcome.of_andThen, ?_⟩
  rintro ⟨value, rfl, done⟩
  exact done

theorem rest_of_readByte (read : rd.readByte = .ok (first, next)) :
    ∃ more, rd.rest = first :: more := List.head?_eq_some_iff.mp (head_of_readByte read)

theorem readString_ok (read : rd.readString build prefixWidth = some (.ok (text, after))) :
    ∃ first next huffman length middle, rd.readByte = .ok (first, next) ∧
      huffmanFlag prefixWidth first = some huffman ∧
        next.readLength build (prefixWidth - 1) first = some (.ok (length, middle)) ∧
          middle.readRaw huffman length = .ok (text, after) := by
  unfold readString at read
  split at read
  · cases read
  · next first next here =>
      split at read
      · cases read
      · next huffman flag =>
          obtain ⟨⟨length, middle⟩, before, raw⟩ := Outcome.of_andThen read
          exact ⟨first, next, huffman, length, middle, here, flag, before, Option.some.inj raw⟩

theorem huffmanDecode_ok_iff : huffmanDecode input = .ok text ↔ Codes text input := by
  constructor
  · intro accepted
    obtain ⟨symbols, left, cut, stuck⟩ := huffman.exists_cut (input.flatMap bits)
    rw [huffmanDecode_cut cut stuck] at accepted
    by_cases ends : eos ∈ symbols
    · rw [decoded, if_pos ends] at accepted
      cases accepted
    · obtain ⟨other, rfl⟩ := exists_text ends
      rw [decoded_symbols] at accepted
      cases accepted
      exact ⟨left, cut, stuck⟩
  · rintro ⟨left, cut, stuck⟩
    rw [huffmanDecode_cut cut stuck, decoded_symbols]

theorem readRaw_ok_iff : rd.readRaw huffmanCoded length = .ok (text, after) ↔
    Took rd length after ∧ if huffmanCoded = true then Codes text (rd.rest.take length)
      else text = rd.rest.take length := by
  constructor
  · intro read
    have told := readRaw_ok read
    rw [huffmanDecode_ok_iff] at told
    exact ⟨took_readRaw read, told⟩
  · rintro ⟨took, told⟩
    rw [← huffmanDecode_ok_iff] at told
    have within := after.within
    rw [took.buf, took.pos] at within
    have enough : ¬rd.remaining < length := by
      unfold remaining
      omega
    have reads : ∃ last, rd.readRaw huffmanCoded length = .ok (text, last) := by
      unfold readRaw
      rw [dif_neg enough]
      cases huffmanCoded with
      | true =>
          rw [if_pos rfl] at told
          dsimp only
          rw [if_pos rfl]
          change ∃ last, (huffmanDecode (rd.rest.take length)).map _ = _
          rw [told]
          exact ⟨_, rfl⟩
      | false =>
          rw [if_neg Bool.false_ne_true] at told
          exact ⟨_, by rw [told]; rfl⟩
    obtain ⟨last, reads⟩ := reads
    rw [reads, (took_readRaw reads).unique took]

theorem readString_ok_iff (width : prefixWidth = 4 ∨ prefixWidth = 8) :
    rd.readString build prefixWidth = some (.ok (text, after)) ↔
      ∃ count, ScanString build prefixWidth rd.rest text count ∧ Took rd count after := by
  have narrow : prefixWidth - 1 ≤ 8 := by omega
  constructor
  · intro read
    obtain ⟨first, next, huffmanCoded, length, middle, here, flag, size, raw⟩ := readString_ok read
    obtain ⟨more, cut⟩ := rest_of_readByte here
    rw [readLength_eq, readBehind_ok_iff _ narrow cut (took_readByte here)] at size
    obtain ⟨count, held, took⟩ := size
    obtain ⟨passed, told⟩ := readRaw_ok_iff.mp raw
    have whole := took.trans passed
    refine ⟨count + length, .mk (head_of_readByte here) held ?_ ?_, whole⟩
    · have within := after.within
      rw [whole.buf, whole.pos] at within
      rw [Reader.rest, List.length_drop]
      omega
    · rw [took.rest] at told
      rw [flag]
      cases huffmanCoded with
      | true => exact told
      | false => exact told
  · rintro ⟨_, @⟨first, length, count, head, held, within, codes⟩, whole⟩
    obtain ⟨more, cut⟩ := List.head?_eq_some_iff.mp head
    obtain ⟨next, read, one⟩ := readByte_cons cut
    obtain ⟨middle, took⟩ := exists_took (Nat.le_trans (Nat.le_add_right _ _) within)
    obtain ⟨huffmanCoded, flag⟩ := huffmanFlag_width width first
    unfold readString
    rw [read]
    dsimp only
    rw [flag]
    refine andThen_ok_iff.mpr ⟨(length, middle), ?_, congrArg some (readRaw_ok_iff.mpr ⟨?_, ?_⟩)⟩
    · rw [readLength_eq, readBehind_ok_iff _ narrow cut one]
      exact ⟨_, held, took⟩
    · exact took.behind whole
    · rw [took.rest]
      rw [flag] at codes
      cases huffmanCoded with
      | true => exact codes
      | false => exact codes

end Strings

/-! Lines. -/

theorem forall_byte {motive : UInt8 → Prop}
    (small : ∀ number : Fin 256, motive (UInt8.ofNat number.val)) (byte : UInt8) :
    motive byte := by
  have here := small ⟨byte.toNat, byte.toNat_lt⟩
  rw [UInt8.ofNat_toNat] at here
  exact here

theorem kinds_read (first : UInt8) :
    (first &&& 0xc0 = 0xc0 ↔ first &&& 0x80 ≠ 0 ∧ first &&& 0x40 ≠ 0) ∧
      (first &&& 0xc0 = 0x40 → ¬first &&& 0x80 ≠ 0) ∧
        (first &&& 0xe0 = 0x20 → ¬first &&& 0x80 ≠ 0 ∧ first &&& 0xc0 ≠ 0x40) := by
  revert first
  refine forall_byte ?_
  decide +kernel

def lossy (octets : Bytes × Bytes) : String × String :=
  (fromUtf8Lossy octets.1, fromUtf8Lossy octets.2)

section Lines

variable {build : Build} {prefixWidth count : Nat} {bytes text : Bytes} {octets : Bytes × Bytes}
  {rd next : Reader} {first : UInt8} {field : String × String}

theorem ScanString.within (string : ScanString build prefixWidth bytes text count) :
    count ≤ bytes.length := by
  obtain ⟨-, -, within, -⟩ := string
  exact within

theorem ScanLine.head (scan : ScanLine build bytes octets count) :
    ∃ first, bytes.head? = some first := by
  cases scan with
  | indexed head => exact ⟨_, head⟩
  | nameReference head => exact ⟨_, head⟩
  | literalName head => exact ⟨_, head⟩

theorem ScanLine.within (scan : ScanLine build bytes octets count) : count ≤ bytes.length := by
  cases scan with
  | indexed head kind number => exact number.within
  | nameReference head kind number named string =>
      have front := number.within
      have back := string.within
      rw [List.length_drop] at back
      omega
  | literalName head kind named string =>
      have front := named.within
      have back := string.within
      rw [List.length_drop] at back
      omega

theorem value_ok_iff (named : Bytes → String × String) :
    ((rd.readString build 8).andThen fun (value, rd) =>
      (some (.ok (named value, rd)) : Outcome ((String × String) × Reader))) =
        some (.ok (field, next)) ↔
      ∃ value size, ScanString build 8 rd.rest value size ∧ field = named value ∧
        Took rd size next := by
  rw [andThen_ok_iff]
  constructor
  · rintro ⟨⟨value, last⟩, string, ⟨⟩⟩
    obtain ⟨size, scan, took⟩ := (readString_ok_iff (.inr rfl)).mp string
    exact ⟨value, size, scan, rfl, took⟩
  · rintro ⟨value, size, scan, rfl, took⟩
    exact ⟨(value, next), (readString_ok_iff (.inr rfl)).mpr ⟨size, scan, took⟩, rfl⟩

theorem scan_of_readLine (head : rd.rest.head? = some first)
    (read : rd.readLine build first = some (.ok (field, next))) :
    ∃ octets count, ScanLine build rd.rest octets count ∧ field = lossy octets ∧
      Took rd count next := by
  unfold readLine at read
  split at read
  · next high =>
      split at read
      · cases read
      · next static =>
          obtain ⟨⟨index, after⟩, before, entry⟩ := andThen_ok_iff.mp read
          obtain ⟨count, held, took⟩ := (readInt_ok_iff (by decide)).mp before
          dsimp only at entry
          split at entry <;> cases entry
          next found =>
            refine ⟨_, count, .indexed head ((kinds_read first).1.mpr ⟨high, static⟩) held found,
              ?_, took⟩
            rw [lossy, fromUtf8Lossy_asBytes, fromUtf8Lossy_asBytes]
  split at read
  · next kind =>
      obtain ⟨⟨index, after⟩, before, entry⟩ := andThen_ok_iff.mp read
      obtain ⟨count, held, took⟩ := (readInt_ok_iff (by decide)).mp before
      dsimp only at entry
      split at entry
      · cases entry
      · next name other found =>
          obtain ⟨value, size, string, rfl, passed⟩ :=
            (value_ok_iff fun value => (name, fromUtf8Lossy value)).mp entry
          rw [took.rest] at string
          refine ⟨_, _, .nameReference head kind held found string, ?_, took.trans passed⟩
          rw [lossy, fromUtf8Lossy_asBytes]
  split at read
  · next kind =>
      obtain ⟨⟨name, after⟩, before, entry⟩ := andThen_ok_iff.mp read
      obtain ⟨count, named, took⟩ := (readString_ok_iff (.inl rfl)).mp before
      obtain ⟨value, size, string, rfl, passed⟩ :=
        (value_ok_iff fun value => (fromUtf8Lossy name, fromUtf8Lossy value)).mp entry
      rw [took.rest] at string
      exact ⟨_, _, .literalName head kind named string, rfl, took.trans passed⟩
  · cases read

theorem readLine_of_scan (head : rd.rest.head? = some first)
    (scan : ScanLine build rd.rest octets count)
    (took : Took rd count next) :
    rd.readLine build first = some (.ok (lossy octets, next)) := by
  unfold readLine
  cases scan with
  | @indexed _ index _ field head' kind held entry =>
      cases head.symm.trans head'
      obtain ⟨high, static⟩ := (kinds_read _).1.mp kind
      rw [if_pos high, if_neg static]
      refine andThen_ok_iff.mpr ⟨(index, next), (readInt_ok_iff (by decide)).mpr
        ⟨count, held, took⟩, ?_⟩
      dsimp only
      rw [entry, lossy, fromUtf8Lossy_asBytes, fromUtf8Lossy_asBytes]
  | @nameReference _ index front size entry value head' kind held named string =>
      cases head.symm.trans head'
      rw [if_neg ((kinds_read _).2.1 kind), if_pos kind]
      obtain ⟨middle, before⟩ := exists_took held.within
      refine andThen_ok_iff.mpr ⟨(index, middle), (readInt_ok_iff (by decide)).mpr
        ⟨front, held, before⟩, ?_⟩
      dsimp only
      rw [named]
      rw [← before.rest] at string
      refine (value_ok_iff fun value => (entry.1, fromUtf8Lossy value)).mpr
        ⟨value, size, string, ?_, before.behind took⟩
      rw [lossy, fromUtf8Lossy_asBytes]
  | @literalName _ front size name value head' kind named string =>
      cases head.symm.trans head'
      obtain ⟨low, other⟩ := (kinds_read _).2.2 kind
      rw [if_neg low, if_neg other, if_pos kind]
      obtain ⟨middle, before⟩ := exists_took named.within
      refine andThen_ok_iff.mpr ⟨(name, middle), (readString_ok_iff (.inl rfl)).mpr
        ⟨front, named, before⟩, ?_⟩
      rw [← before.rest] at string
      exact (value_ok_iff fun value => (fromUtf8Lossy name, fromUtf8Lossy value)).mpr
        ⟨value, size, string, rfl, before.behind took⟩

/-- The next line begins behind one that the decoder takes. -/
def NextLine (build : Build) (rd next : Reader) : Prop :=
  ∃ first field, rd.rest.head? = some first ∧ rd.readLine build first = some (.ok (field, next))

/-- The reader comes to the beginning of a line, or to the end. -/
abbrev Reaches (build : Build) : Reader → Reader → Prop := Relation.ReflTransGen (NextLine build)

theorem Reaches.scans {last : Reader} (reaches : Reaches build rd last) :
    Scans build rd.rest last.rest := by
  induction reaches with
  | refl => exact .refl
  | tail _ step ih =>
      obtain ⟨first, field, head, read⟩ := step
      obtain ⟨octets, count, scan, -, took⟩ := scan_of_readLine head read
      exact ih.tail ⟨octets, count, scan, took.rest⟩

theorem exists_reaches {later : Bytes} (scans : Scans build rd.rest later) :
    ∃ last, Reaches build rd last ∧ last.rest = later := by
  induction scans with
  | refl => exact ⟨rd, .refl, rfl⟩
  | tail _ step ih =>
      obtain ⟨last, reaches, rfl⟩ := ih
      obtain ⟨octets, count, scan, rfl⟩ := step
      obtain ⟨first, head⟩ := scan.head
      obtain ⟨next, took⟩ := exists_took scan.within
      exact ⟨next, reaches.tail ⟨first, _, head, readLine_of_scan head scan took⟩, took.rest⟩

/-- Where the decoder comes to the lines. -/
def Starts (build : Build) (block : Bytes) (start : Reader) : Prop :=
  ∃ next, (Reader.new block).readInt build 8 = some (.ok (0, next)) ∧
    next.readInt build 7 = some (.ok (0, start))

theorem Starts.scan {block : Bytes} {start : Reader} (starts : Starts build block start) :
    ScanBegins build block start.rest := by
  obtain ⟨next, first, second⟩ := starts
  obtain ⟨count, insertCount, took⟩ := (readInt_ok_iff (by decide)).mp first
  obtain ⟨size, base, passed⟩ := (readInt_ok_iff (by decide)).mp second
  rw [took.rest] at base
  rw [(took.trans passed).rest]
  exact .mk insertCount base

theorem exists_starts {block lines : Bytes} (begins : ScanBegins build block lines) :
    ∃ start, Starts build block start ∧ start.rest = lines := by
  obtain ⟨insertCount, base⟩ := begins
  obtain ⟨next, took⟩ : ∃ next, Took (Reader.new block) _ next := exists_took insertCount.within
  have behind : next.rest = block.drop _ := took.rest
  rw [← behind] at base
  obtain ⟨start, passed⟩ := exists_took base.within
  exact ⟨start, ⟨next, (readInt_ok_iff (by decide)).mpr ⟨_, insertCount, took⟩,
    (readInt_ok_iff (by decide)).mpr ⟨_, base, passed⟩⟩, (took.trans passed).rest⟩

end Lines

end Qpack

end QuicProxy
