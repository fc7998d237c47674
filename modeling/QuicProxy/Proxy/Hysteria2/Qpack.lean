import Mathlib.Algebra.Ring.Nat
import QuicProxy.Data.Text
import QuicProxy.Proxy.Hysteria2.QpackTables

namespace QuicProxy

/-! QPACK field sections (`src/proxy/outbound/hysteria2/qpack.rs`).  A `usize` has
64 bits. -/

namespace Qpack

structure Build where
  overflowChecks : Bool
deriving DecidableEq

/-- A sum of `u64` values: one that overflows panics or wraps. -/
def Build.sum (build : Build) (sum : Nat) : Option Nat :=
  if sum < 2 ^ 64 then some sum
  else if build.overflowChecks then none
  else some (sum % 2 ^ 64)

/-- What a call returns; `none` is a panic. -/
abbrev Outcome (α : Type) := Option (Except String α)

/-- The `?` of the source. -/
def Outcome.andThen {α β : Type} (outcome : Outcome α) (next : α → Outcome β) : Outcome β :=
  match outcome with
  | none => none
  | some (.error error) => some (.error error)
  | some (.ok value) => next value

theorem Outcome.of_andThen {α β : Type} {outcome : Outcome α} {next : α → Outcome β} {result : β}
    (done : outcome.andThen next = some (.ok result)) :
    ∃ value, outcome = some (.ok value) ∧ next value = some (.ok result) := by
  rcases outcome with _ | error | value
  · cases done
  · cases done
  · exact ⟨value, rfl, done⟩

/-! Writing. -/

/-- The bytes of the loop of `append_int`. -/
def appendRest (rest : Nat) : Bytes :=
  if 128 ≤ rest then ((castU8 rest &&& 0x7f) ||| 0x80) :: appendRest (rest >>> 7)
  else [castU8 rest]
termination_by rest
decreasing_by
  rw [Nat.shiftRight_eq_div_pow]
  omega

def appendInt (prefixWidth value : Nat) (flags : UInt8) : Bytes :=
  let max := 1 <<< prefixWidth - 1
  if value < max then [flags ||| castU8 value]
  else (flags ||| castU8 max) :: appendRest (value - max)

def encodeField (field : String × String) : Bytes :=
  appendInt 3 (asBytes field.1).length 0x20 ++ asBytes field.1 ++
    (appendInt 7 (asBytes field.2).length 0x00 ++ asBytes field.2)

def encodeFieldSection (fields : List (String × String)) : Bytes :=
  0x00 :: 0x00 :: fields.flatMap encodeField

/-! Huffman codes. -/

/-- The bits of a byte, the most significant one first. -/
def bits (byte : UInt8) : List Nat :=
  (List.range 8).map fun index => (byte.toNat >>> (7 - index)) &&& 1

def huffmanBits (acc accLen : Nat) (out : Bytes) : List Nat → Except String Bytes
  | [] => .ok out
  | bit :: bits =>
      let acc := acc <<< 1 % 2 ^ 32 ||| bit
      let accLen := accLen + 1
      match hpackHuffman.findIdx? fun row => row.2 == accLen && row.1 == acc with
      | some sym =>
          if sym = 256 then .error "Huffman EOS symbol in string"
          else huffmanBits 0 0 (out ++ [castU8 sym]) bits
      | none =>
          if accLen = 30 then .error "invalid Huffman code"
          else huffmanBits acc accLen out bits

/-- `huffman_decode`.  Its loop reads every bit, so that the check behind it finds
no padding. -/
def huffmanDecode (input : Bytes) : Except String Bytes :=
  -- The number of bits fits: no slice has 2^61 bytes.
  huffmanBits 0 0 [] (input.flatMap bits)

/-! Reading. -/

structure Reader where
  buf : Bytes
  pos : Nat
  within : pos ≤ buf.length

namespace Reader

def new (buf : Bytes) : Reader := ⟨buf, 0, Nat.zero_le _⟩

def remaining (rd : Reader) : Nat := rd.buf.length - rd.pos

def readByte (rd : Reader) : Except String (UInt8 × Reader) :=
  if inside : rd.pos < rd.buf.length then
    .ok (rd.buf[rd.pos], ⟨rd.buf, rd.pos + 1, inside⟩)
  else .error "truncated QPACK field section"

/-- The loop of `read_int` and `read_string`.  A shift drops the bits that it moves
past the top. -/
def readRest (build : Build) (overflow : String) (value shift : Nat) (rd : Reader) :
    Outcome (Nat × Reader) :=
  match rd.readByte with
  | .error error => some (.error error)
  | .ok (byte, rd) =>
      match build.sum (value + ((byte &&& 0x7f).toNat <<< shift) % 2 ^ 64) with
      | some value =>
          if byte &&& 0x80 = 0 then some (.ok (value, rd))
          else if 63 < shift + 7 then some (.error overflow)
          else readRest build overflow value (shift + 7) rd
      | none => none
termination_by 64 - shift

def readInt (build : Build) (prefixWidth : Nat) (rd : Reader) : Outcome (Nat × Reader) :=
  let max := 1 <<< prefixWidth - 1
  match rd.readByte with
  | .error error => some (.error error)
  | .ok (first, rd) =>
      let value := first.toNat &&& max
      if value < max then some (.ok (value, rd))
      else rd.readRest build "QPACK integer overflow" value 0

/-- Whether a string is Huffman coded; there are two widths. -/
def huffmanFlag (prefixWidth : Nat) (first : UInt8) : Option Bool :=
  match prefixWidth with
  | 4 => some (first &&& 0x08 ≠ 0)
  | 8 => some (first &&& 0x80 ≠ 0)
  | _ => none

/-- The length of a string whose first byte has been read. -/
def readLength (build : Build) (lengthPrefix : Nat) (first : UInt8) (rd : Reader) :
    Outcome (Nat × Reader) :=
  let mask := 1 <<< lengthPrefix - 1
  let length := first.toNat &&& mask
  if 1 <<< lengthPrefix - 1 ≤ length then
    rd.readRest build "QPACK string length overflow" length 0
  else some (.ok (length, rd))

def readRaw (huffman : Bool) (length : Nat) (rd : Reader) : Except String (Bytes × Reader) :=
  if short : rd.remaining < length then .error "truncated QPACK string"
  else
    let raw := (rd.buf.drop rd.pos).take length
    let after : Reader := ⟨rd.buf, rd.pos + length, by
      have within := rd.within
      unfold remaining at short
      omega⟩
    if huffman then (huffmanDecode raw).map (·, after) else .ok (raw, after)

def readString (build : Build) (prefixWidth : Nat) (rd : Reader) : Outcome (Bytes × Reader) :=
  match rd.readByte with
  | .error error => some (.error error)
  | .ok (first, rd) =>
      match huffmanFlag prefixWidth first with
      | none => none
      | some huffman =>
          (rd.readLength build (prefixWidth - 1) first).andThen fun (length, rd) =>
            some (rd.readRaw huffman length)

/-- A field line, whose first byte is this. -/
def readLine (build : Build) (first : UInt8) (rd : Reader) :
    Outcome ((String × String) × Reader) :=
  if first &&& 0x80 ≠ 0 then
    if first &&& 0x40 = 0 then
      some (.error "QPACK indexed field line with dynamic reference")
    else
      (rd.readInt build 6).andThen fun (index, rd) =>
        match qpackStaticTable[index]? with
        | none => some (.error s!"QPACK static index {index} out of range")
        | some field => some (.ok (field, rd))
  else if first &&& 0xc0 = 0x40 then
    (rd.readInt build 4).andThen fun (index, rd) =>
      match qpackStaticTable[index]? with
      | none => some (.error s!"QPACK static name index {index} out of range")
      | some (name, _) =>
          (rd.readString build 8).andThen fun (value, rd) =>
            some (.ok ((name, fromUtf8Lossy value), rd))
  else if first &&& 0xe0 = 0x20 then
    (rd.readString build 4).andThen fun (name, rd) =>
      (rd.readString build 8).andThen fun (value, rd) =>
        some (.ok ((fromUtf8Lossy name, fromUtf8Lossy value), rd))
  else
    some (.error ("unsupported QPACK field line type byte: 0x" ++
      String.ofList (Nat.toDigits 16 first.toNat)))

/-! What is left to read. -/

def rest (rd : Reader) : Bytes := rd.buf.drop rd.pos

/-- A reader that has gone on by so many bytes. -/
structure Took (rd : Reader) (count : Nat) (after : Reader) : Prop where
  buf : after.buf = rd.buf
  pos : after.pos = rd.pos + count

section

variable {rd next after : Reader} {count first second : Nat}

theorem Took.rest (took : Took rd count after) : after.rest = rd.rest.drop count := by
  unfold Reader.rest
  rw [took.buf, took.pos, List.drop_drop]

theorem Took.trans (one : Took rd first next) (two : Took next second after) :
    Took rd (first + second) after :=
  ⟨two.buf.trans one.buf, by rw [two.pos, one.pos, Nat.add_assoc]⟩

theorem readByte_cons {byte : UInt8} {more : Bytes} (here : rd.rest = byte :: more) :
    ∃ after, rd.readByte = .ok (byte, after) ∧ Took rd 1 after := by
  have inside : rd.pos < rd.buf.length := by
    by_contra outside
    rw [rest, List.drop_eq_nil_of_le (Nat.le_of_not_lt outside)] at here
    cases here
  rw [rest, List.drop_eq_getElem_cons inside] at here
  obtain ⟨same, -⟩ := List.cons.inj here
  refine ⟨⟨rd.buf, rd.pos + 1, inside⟩, ?_, rfl, rfl⟩
  rw [readByte, dif_pos inside, same]

theorem readByte_nil (here : rd.rest = []) :
    rd.readByte = .error "truncated QPACK field section" := by
  have outside := List.drop_eq_nil_iff.mp here
  rw [readByte, dif_neg (Nat.not_lt_of_le outside)]

theorem took_readByte {byte : UInt8} (read : rd.readByte = .ok (byte, after)) :
    Took rd 1 after := by
  unfold readByte at read
  split at read <;> cases read
  exact ⟨rfl, rfl⟩

theorem Took.fewer (took : Took rd count after) (positive : 0 < count) :
    after.remaining < rd.remaining := by
  have within := after.within
  unfold remaining
  rw [took.buf, took.pos] at *
  omega

end

/-- What is read is taken off what is left. -/
def Takes {α : Type} (rd : Reader) (outcome : Outcome (α × Reader)) : Prop :=
  ∀ value after, outcome = some (.ok (value, after)) → ∃ count, 0 < count ∧ Took rd count after

theorem takes_readRest (build : Build) (overflow : String) (value shift : Nat) (rd : Reader) :
    Takes rd (rd.readRest build overflow value shift) := by
  intro result after done
  fun_induction readRest build overflow value shift rd with
  | case1 value shift rd error read => cases done
  | case2 value shift rd byte next read sum adds ends =>
      cases done
      exact ⟨1, Nat.one_pos, took_readByte read⟩
  | case3 value shift rd byte next read sum adds more long => cases done
  | case4 value shift rd byte next read sum adds more short ih =>
      obtain ⟨count, positive, took⟩ := ih done
      exact ⟨1 + count, Nat.lt_add_right _ Nat.one_pos, (took_readByte read).trans took⟩
  | case5 value shift rd byte next read panics => cases done

theorem takes_readInt (build : Build) (prefixWidth : Nat) (rd : Reader) :
    Takes rd (rd.readInt build prefixWidth) := by
  intro result after done
  unfold readInt at done
  dsimp only at done
  split at done
  · cases done
  · next first next read =>
      split at done
      · cases done
        exact ⟨1, Nat.one_pos, took_readByte read⟩
      · obtain ⟨count, positive, took⟩ := takes_readRest _ _ _ _ _ _ _ done
        exact ⟨1 + count, Nat.lt_add_right _ Nat.one_pos, (took_readByte read).trans took⟩

theorem takes_andThen {α β : Type} {rd : Reader} {outcome : Outcome (α × Reader)}
    {next : α × Reader → Outcome (β × Reader)} (takes : Takes rd outcome)
    (onward : ∀ value after result last, next (value, after) = some (.ok (result, last)) →
      ∃ count, Took after count last) : Takes rd (outcome.andThen next) := by
  intro result last done
  obtain ⟨⟨value, after⟩, before, here⟩ := Outcome.of_andThen done
  obtain ⟨first, positive, one⟩ := takes _ _ before
  obtain ⟨second, two⟩ := onward _ _ _ _ here
  exact ⟨first + second, Nat.lt_add_right _ positive, one.trans two⟩

theorem took_readRaw {huffman : Bool} {length : Nat} {rd after : Reader} {bytes : Bytes}
    (read : rd.readRaw huffman length = .ok (bytes, after)) : Took rd length after := by
  unfold readRaw at read
  split at read
  · cases read
  · dsimp only at read
    split at read
    · rcases decoded : huffmanDecode ((rd.buf.drop rd.pos).take length) with error | text
      · rw [decoded] at read
        cases read
      · rw [decoded] at read
        cases read
        exact ⟨rfl, rfl⟩
    · cases read
      exact ⟨rfl, rfl⟩

theorem took_readLength {build : Build} {lengthPrefix length : Nat} {first : UInt8}
    {rd after : Reader}
    (read : rd.readLength build lengthPrefix first = some (.ok (length, after))) :
    ∃ count, Took rd count after := by
  unfold readLength at read
  dsimp only at read
  split at read
  · obtain ⟨count, -, took⟩ := takes_readRest _ _ _ _ _ _ _ read
    exact ⟨count, took⟩
  · cases read
    exact ⟨0, rfl, rfl⟩

theorem takes_readString (build : Build) (prefixWidth : Nat) (rd : Reader) :
    Takes rd (rd.readString build prefixWidth) := by
  intro result last done
  unfold readString at done
  split at done
  · cases done
  · next first next read =>
      split at done
      · cases done
      · obtain ⟨⟨length, after⟩, before, here⟩ := Outcome.of_andThen done
        obtain ⟨count, took⟩ := took_readLength before
        have raw := took_readRaw (Option.some.inj here)
        exact ⟨1 + count + length, by omega, ((took_readByte read).trans took).trans raw⟩

theorem takes_readLine (build : Build) (first : UInt8) (rd : Reader) :
    Takes rd (rd.readLine build first) := by
  have string (rd : Reader) (width : Nat) (named : Bytes → String × String) : ∀ result last,
      ((rd.readString build width).andThen fun (value, rd) => some (.ok (named value, rd))) =
        some (.ok (result, last)) → ∃ count, Took rd count last := by
    intro result last done
    obtain ⟨⟨value, after⟩, before, here⟩ := Outcome.of_andThen done
    obtain ⟨count, -, took⟩ := takes_readString _ _ _ _ _ before
    cases here
    exact ⟨count, took⟩
  unfold readLine
  split
  · split
    · intro result after done
      cases done
    · refine takes_andThen (takes_readInt build 6 rd) fun index after result last done => ?_
      dsimp only at done
      split at done <;> cases done
      exact ⟨0, rfl, rfl⟩
  split
  · refine takes_andThen (takes_readInt build 4 rd) fun index after result last done => ?_
    dsimp only at done
    split at done
    · cases done
    · next name other found =>
        exact string after 8 (fun value => (name, fromUtf8Lossy value)) result last done
  split
  · exact takes_andThen (takes_readString build 4 rd) fun name after result last done =>
      string after 8 (fun value => (fromUtf8Lossy name, fromUtf8Lossy value)) result last done
  · intro result after done
    cases done

/-- The loop of `decode_field_section`. -/
def readLines (build : Build) (rd : Reader) (fields : List (String × String)) :
    Outcome (List (String × String)) :=
  if inside : rd.pos < rd.buf.length then
    match _ : rd.readLine build rd.buf[rd.pos] with
    | none => none
    | some (.error error) => some (.error error)
    | some (.ok (field, next)) => readLines build next (fields ++ [field])
  else some (.ok fields)
termination_by rd.remaining
decreasing_by
  obtain ⟨count, positive, took⟩ := takes_readLine _ _ _ _ _ (by assumption)
  exact took.fewer positive

section

variable {build : Build} {rd next : Reader} {first : UInt8} {field : String × String}
  (fields : List (String × String))

theorem readLines_nil (here : rd.rest = []) : rd.readLines build fields = some (.ok fields) := by
  have outside := List.drop_eq_nil_iff.mp here
  rw [readLines, dif_neg (Nat.not_lt_of_le outside)]

theorem inside_of_head (head : rd.rest.head? = some first) :
    ∃ inside : rd.pos < rd.buf.length, rd.buf[rd.pos] = first := by
  rw [rest, List.head?_drop] at head
  exact List.getElem?_eq_some_iff.mp head

theorem head_rest (inside : rd.pos < rd.buf.length) : rd.rest.head? = some rd.buf[rd.pos] := by
  rw [rest, List.head?_drop, List.getElem?_eq_getElem inside]

theorem readLines_next (head : rd.rest.head? = some first)
    (line : rd.readLine build first = some (.ok (field, next))) :
    rd.readLines build fields = next.readLines build (fields ++ [field]) := by
  obtain ⟨inside, rfl⟩ := inside_of_head head
  rw [readLines, dif_pos inside]
  split <;> next read => cases read.symm.trans line <;> rfl

theorem readLines_none (head : rd.rest.head? = some first)
    (panics : rd.readLine build first = none) : rd.readLines build fields = none := by
  obtain ⟨inside, rfl⟩ := inside_of_head head
  rw [readLines, dif_pos inside]
  split <;> next read => cases read.symm.trans panics <;> rfl

end

end Reader

def decodeFieldSection (build : Build) (block : Bytes) : Outcome (List (String × String)) :=
  ((Reader.new block).readInt build 8).andThen fun (requiredInsertCount, rd) =>
    if requiredInsertCount ≠ 0 then
      some (.error "QPACK field section references the dynamic table")
    else
      (rd.readInt build 7).andThen fun (base, rd) =>
        if base ≠ 0 then some (.error "QPACK field section has a nonzero base")
        else rd.readLines build []

end Qpack

end QuicProxy
