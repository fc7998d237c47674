import Mathlib.Data.List.DropRight
import Mathlib.Data.List.TakeDrop
import QuicProxy.Data.Bytes

namespace QuicProxy

/-! Text as the standard library of the source sees it: UTF-8 views of a
`String`, the two ways of reading bytes as text, and the string functions the
parsers call. -/

def asBytes (text : String) : Bytes :=
  text.toByteArray.data.toList

def fromUtf8 (bytes : Bytes) : Option String :=
  String.fromUTF8? ⟨⟨bytes⟩⟩

/-- The front of a byte string as `Utf8Chunks` inspects it: how many bytes it
takes, and whether they encode one scalar value.  Bytes past the end read as
zero. -/
def utf8Inspect (first : UInt8) (rest : Bytes) : Nat × Bool :=
  let byte := first.toNat
  let next (index : Nat) : Nat := ((rest[index]?).getD 0).toNat
  let within (index low high : Nat) : Bool :=
    decide (low ≤ next index) && decide (next index ≤ high)
  if byte < 0x80 then (1, true)
  else if 0xC2 ≤ byte ∧ byte ≤ 0xDF then
    if within 0 0x80 0xBF then (2, true) else (1, false)
  else if 0xE0 ≤ byte ∧ byte ≤ 0xEF then
    let low := if byte = 0xE0 then 0xA0 else 0x80
    let high := if byte = 0xED then 0x9F else 0xBF
    if !within 0 low high then (1, false)
    else if !within 1 0x80 0xBF then (2, false)
    else (3, true)
  else if 0xF0 ≤ byte ∧ byte ≤ 0xF4 then
    let low := if byte = 0xF0 then 0x90 else 0x80
    let high := if byte = 0xF4 then 0x8F else 0xBF
    if !within 0 low high then (1, false)
    else if !within 1 0x80 0xBF then (2, false)
    else if !within 2 0x80 0xBF then (3, false)
    else (4, true)
  else (1, false)

def utf8Scalar : Bytes → Char
  | [a] => Char.ofNat a.toNat
  | [a, b] => Char.ofNat ((a.toNat % 32) * 64 + b.toNat % 64)
  | [a, b, c] =>
      Char.ofNat ((a.toNat % 16) * 4096 + (b.toNat % 64) * 64 + c.toNat % 64)
  | [a, b, c, d] =>
      Char.ofNat ((a.toNat % 8) * 262144 + (b.toNat % 64) * 4096 +
        (c.toNat % 64) * 64 + d.toNat % 64)
  | _ => Char.ofNat 0xFFFD

/-- Every maximal invalid sequence becomes one U+FFFD.  `fuel` bounds the
number of sequences, which is at most the number of bytes. -/
def utf8LossyChars : Nat → Bytes → List Char
  | 0, _ => []
  | _ + 1, [] => []
  | fuel + 1, first :: rest =>
      let (size, valid) := utf8Inspect first rest
      let char :=
        if valid then utf8Scalar ((first :: rest).take size)
        else Char.ofNat 0xFFFD
      char :: utf8LossyChars fuel ((first :: rest).drop size)

/-- `String::from_utf8_lossy`: valid input is taken as it is. -/
def fromUtf8Lossy (bytes : Bytes) : String :=
  match fromUtf8 bytes with
  | some text => text
  | none => String.ofList (utf8LossyChars bytes.length bytes)

@[simp] theorem fromUtf8_asBytes (text : String) :
    fromUtf8 (asBytes text) = some text := by
  have valid := text.isValidUTF8
  simp only [fromUtf8, asBytes, String.fromUTF8?]
  exact dif_pos valid

@[simp] theorem fromUtf8Lossy_asBytes (text : String) :
    fromUtf8Lossy (asBytes text) = text := by
  simp only [fromUtf8Lossy, fromUtf8_asBytes]

theorem asBytes_of_fromUtf8 {bytes : Bytes} {text : String} (read : fromUtf8 bytes = some text) :
    asBytes text = bytes := by
  unfold fromUtf8 String.fromUTF8? at read
  split at read
  · cases read
    rfl
  · cases read

theorem eq_nil_of_fromUtf8Lossy {bytes : Bytes} (empty : fromUtf8Lossy bytes = "") :
    bytes = [] := by
  unfold fromUtf8Lossy at empty
  split at empty
  · next text valid =>
      subst empty
      exact (asBytes_of_fromUtf8 valid).symm
  · next invalid =>
      cases bytes with
      | nil => rfl
      | cons first rest =>
          have chars := congrArg String.toList empty
          rw [String.toList_ofList] at chars
          cases chars

/-! White space, splitting and numbers. -/

/-- `char::is_whitespace`: the Unicode `White_Space` property. -/
def isWhitespace (char : Char) : Bool :=
  let code := char.toNat
  (decide (0x9 ≤ code) && decide (code ≤ 0xD)) || code == 0x20 ||
    code == 0x85 || code == 0xA0 || code == 0x1680 ||
    (decide (0x2000 ≤ code) && decide (code ≤ 0x200A)) || code == 0x2028 ||
    code == 0x2029 || code == 0x202F || code == 0x205F || code == 0x3000

def trim (text : List Char) : List Char :=
  ((text.dropWhile isWhitespace).reverse.dropWhile isWhitespace).reverse

def splitOnce (separator : Char) (text : List Char) :
    Option (List Char × List Char) :=
  match text.span (· != separator) with
  | (_, []) => none
  | (before, _ :: after) => some (before, after)

def rsplitOnce (separator : Char) (text : List Char) :
    Option (List Char × List Char) :=
  (splitOnce separator text.reverse).map fun (after, before) =>
    (before.reverse, after.reverse)

theorem splitOnce_append {separator : Char} {before : List Char} (plain : separator ∉ before)
    (after : List Char) :
    splitOnce separator (before ++ separator :: after) = some (before, after) := by
  have others : ∀ char ∈ before, (char != separator) = true := by
    intro char member
    exact bne_iff_ne.mpr fun same => plain (same ▸ member)
  rw [splitOnce, List.span_eq_takeWhile_dropWhile, List.takeWhile_append_of_pos others,
    List.dropWhile_append_of_pos others, List.takeWhile_cons_of_neg (by simp),
    List.dropWhile_cons_of_neg (by simp), List.append_nil]

theorem splitOnce_of_not_mem {separator : Char} {text : List Char} (plain : separator ∉ text) :
    splitOnce separator text = none := by
  have others : ∀ char ∈ text, (char != separator) = true := by
    intro char member
    exact bne_iff_ne.mpr fun same => plain (same ▸ member)
  rw [splitOnce, List.span_eq_takeWhile_dropWhile, List.dropWhile_eq_nil_iff.mpr others]

theorem splitOnce_eq_some {separator : Char} {text before after : List Char}
    (split : splitOnce separator text = some (before, after)) :
    text = before ++ separator :: after := by
  rw [splitOnce, List.span_eq_takeWhile_dropWhile] at split
  have whole := List.takeWhile_append_dropWhile (p := (· != separator)) (l := text)
  cases rest : text.dropWhile (· != separator) with
  | nil =>
      rw [rest] at split
      cases split
  | cons char rest' =>
      have stop := List.head?_dropWhile_not (· != separator) text
      rw [rest] at split whole
      cases split
      rw [rest] at stop
      have same : char = separator := by simpa using stop
      rw [same] at whole
      exact whole.symm

theorem rsplitOnce_append {separator : Char} {after : List Char} (plain : separator ∉ after)
    (before : List Char) :
    rsplitOnce separator (before ++ separator :: after) = some (before, after) := by
  have reversed : (before ++ separator :: after).reverse =
      after.reverse ++ separator :: before.reverse := by simp
  rw [rsplitOnce, reversed, splitOnce_append (by simpa using plain)]
  simp

theorem rsplitOnce_eq_some {separator : Char} {text before after : List Char}
    (split : rsplitOnce separator text = some (before, after)) :
    text = before ++ separator :: after := by
  obtain ⟨⟨last, first⟩, reversed, same⟩ := Option.map_eq_some_iff.mp split
  cases same
  rw [← List.reverse_reverse text, splitOnce_eq_some reversed]
  simp

theorem rsplitOnce_of_not_mem {separator : Char} {text : List Char} (plain : separator ∉ text) :
    rsplitOnce separator text = none := by
  rw [rsplitOnce, splitOnce_of_not_mem (by simpa using plain)]
  rfl

def stripLine (reversed : List Char) : List Char :=
  match reversed with
  | '\n' :: '\r' :: line => line.reverse
  | '\n' :: line => line.reverse
  | line => line.reverse

/-- `str::lines`, with the characters of the line under way held reversed. -/
def linesFrom (current : List Char) : List Char → List (List Char)
  | [] => if current.isEmpty then [] else [stripLine current]
  | '\n' :: rest => stripLine ('\n' :: current) :: linesFrom [] rest
  | char :: rest => linesFrom (char :: current) rest

def lines (text : List Char) : List (List Char) := linesFrom [] text

def decimalDigit (char : Char) : Option Nat :=
  if '0'.toNat ≤ char.toNat ∧ char.toNat ≤ '9'.toNat then
    some (char.toNat - '0'.toNat)
  else none

def decimalValue (value : Nat) : List Char → Option Nat
  | [] => some value
  | char :: rest =>
      match decimalDigit char with
      | some digit => decimalValue (value * 10 + digit) rest
      | none => none

def stripPlus : List Char → List Char
  | '+' :: rest => rest
  | text => text

/-- `str::parse` for an unsigned integer type with values below `limit`: an
optional `+`, at least one digit, nothing else, and no overflow. -/
def parseUnsigned (limit : Nat) (text : List Char) : Option Nat :=
  match stripPlus text with
  | [] => none
  | digits => (decimalValue 0 digits).filter (· < limit)

theorem parseUnsigned_lt {limit value : Nat} {text : List Char}
    (parsed : parseUnsigned limit text = some value) : value < limit := by
  simp only [parseUnsigned] at parsed
  split at parsed
  · contradiction
  · simpa using (Option.filter_eq_some_iff.mp parsed).2

theorem isDigit_of_decimalValue {value result : Nat} {text : List Char}
    (decimal : decimalValue value text = some result) :
    ∀ char ∈ text, (decimalDigit char).isSome := by
  induction text generalizing value with
  | nil => exact fun char within => absurd within List.not_mem_nil
  | cons first text ih =>
      intro char within
      simp only [decimalValue] at decimal
      cases found : decimalDigit first with
      | none =>
          rw [found] at decimal
          cases decimal
      | some digit =>
          rw [found] at decimal
          rcases List.mem_cons.mp within with rfl | later
          · rw [found]
            rfl
          · exact ih decimal char later

theorem isDigit_of_parseUnsigned {limit value : Nat} {text : List Char}
    (parsed : parseUnsigned limit text = some value) :
    ∀ char ∈ text, char = '+' ∨ (decimalDigit char).isSome := by
  intro char within
  have rest : char = '+' ∨ char ∈ stripPlus text := by
    rw [stripPlus.eq_def]
    split
    · exact List.mem_cons.mp within
    · exact .inr within
  simp only [parseUnsigned] at parsed
  split at parsed
  · cases parsed
  · exact rest.imp_right fun digit =>
      isDigit_of_decimalValue (Option.filter_eq_some_iff.mp parsed).1 char digit

theorem trim_eq_self {text : List Char} (plain : ∀ char ∈ text, isWhitespace char = false) :
    trim text = text := by
  have kept : ∀ list : List Char, (∀ char ∈ list, isWhitespace char = false) →
      list.dropWhile isWhitespace = list := by
    intro list none_white
    cases list with
    | nil => rfl
    | cons head tail =>
        rw [List.dropWhile_cons_of_neg]
        rw [none_white head (List.mem_cons_self ..)]
        exact Bool.false_ne_true
  have reversed : ∀ char ∈ text.reverse, isWhitespace char = false := fun char member =>
    plain char (List.mem_reverse.mp member)
  rw [trim, kept text plain, kept text.reverse reversed, List.reverse_reverse]

theorem trim_trim (text : List Char) : trim (trim text) = trim text := by
  have shape : ∀ list, trim list = (list.dropWhile isWhitespace).rdropWhile isWhitespace :=
    fun _ => rfl
  have front : (trim text).dropWhile isWhitespace = trim text := by
    rw [List.dropWhile_eq_self_iff]
    intro some_left white
    obtain ⟨behind, whole⟩ := shape text ▸ List.rdropWhile_prefix isWhitespace
      (text.dropWhile isWhitespace)
    have kept := List.dropWhile_eq_self_iff.mp
      (List.dropWhile_idempotent isWhitespace text)
    have longer : 0 < (text.dropWhile isWhitespace).length := by
      rw [← whole, List.length_append]
      omega
    apply kept longer
    simp only [← whole, List.getElem_append_left some_left]
    exact white
  rw [shape (trim text), front, shape text, List.rdropWhile_idempotent]

/-! Numbers as `to_string` writes them. -/

/-- The digits of a number, last one first: the induction that the readers of
numbers follow. -/
theorem toDigits_induction {radix : Nat} (large : 1 < radix) {motive : Nat → List Char → Prop}
    (single : ∀ digit < radix, motive digit [Nat.digitChar digit])
    (append : ∀ front digit text, 0 < front → digit < radix → motive front text →
      motive (front * radix + digit) (text ++ [Nat.digitChar digit])) (n : Nat) :
    motive n (Nat.toDigits radix n) := by
  induction n using Nat.strongRecOn with
  | ind n ih =>
      by_cases small : n < radix
      · rw [Nat.toDigits_of_lt_base small]
        exact single n small
      · have smaller : n / radix < n := Nat.div_lt_self (by omega) large
        have whole : n / radix * radix + n % radix = n := by
          rw [Nat.mul_comm]
          exact Nat.div_add_mod n radix
        have positive : 0 < n / radix := Nat.div_pos (by omega) (by omega)
        have last := append (n / radix) (n % radix) _ positive (Nat.mod_lt n (by omega))
          (ih _ smaller)
        rw [whole] at last
        rw [Nat.toDigits_of_base_le large (by omega)]
        exact last

theorem digitChar_of_mem_toDigits {radix n : Nat} {char : Char} (large : 1 < radix)
    (member : char ∈ Nat.toDigits radix n) : ∃ digit < radix, char = Nat.digitChar digit := by
  revert member
  refine toDigits_induction (motive := fun _ text => char ∈ text →
    ∃ digit < radix, char = Nat.digitChar digit) large ?_ ?_ n
  · intro digit small member
    exact ⟨digit, small, List.mem_singleton.mp member⟩
  · intro front digit text _ small ih member
    rcases List.mem_append.mp member with earlier | last
    · exact ih earlier
    · exact ⟨digit, small, List.mem_singleton.mp last⟩

theorem isWhitespace_digitChar : ∀ digit < 16, isWhitespace (Nat.digitChar digit) = false := by
  decide

theorem isWhitespace_of_mem_toDigits {radix n : Nat} (large : 1 < radix) (small : radix ≤ 16) :
    ∀ char ∈ Nat.toDigits radix n, isWhitespace char = false := by
  intro char member
  obtain ⟨digit, bound, rfl⟩ := digitChar_of_mem_toDigits large member
  exact isWhitespace_digitChar digit (by omega)

theorem decimalDigit_digitChar : ∀ digit < 10, decimalDigit (Nat.digitChar digit) = some digit := by
  decide

theorem decimalValue_toDigits (n : Nat) (rest : List Char) :
    decimalValue 0 (Nat.toDigits 10 n ++ rest) = decimalValue n rest := by
  refine toDigits_induction (motive := fun n text => ∀ rest,
    decimalValue 0 (text ++ rest) = decimalValue n rest) (by omega) ?_ ?_ n rest
  · intro digit small rest
    simp only [List.cons_append, List.nil_append, decimalValue, decimalDigit_digitChar digit small]
    rw [Nat.zero_mul, Nat.zero_add]
  · intro front digit text _ small ih rest
    rw [List.append_assoc, ih]
    simp only [List.cons_append, List.nil_append, decimalValue, decimalDigit_digitChar digit small]

theorem stripPlus_toDigits (n : Nat) : stripPlus (Nat.toDigits 10 n) = Nat.toDigits 10 n := by
  cases shape : Nat.toDigits 10 n with
  | nil => rfl
  | cons head tail =>
      have member : head ∈ Nat.toDigits 10 n := by simp [shape]
      obtain ⟨digit, small, rfl⟩ := digitChar_of_mem_toDigits (by omega) member
      have differs : ∀ digit < 10, Nat.digitChar digit ≠ '+' := by decide
      simp only [stripPlus]
      split
      · rename_i same
        exact absurd (List.cons.inj same).1 (differs digit small)
      · rfl

theorem parseUnsigned_toDigits {limit n : Nat} (bound : n < limit) :
    parseUnsigned limit (trim (Nat.toDigits 10 n)) = some n := by
  have value : decimalValue 0 (Nat.toDigits 10 n) = some n := by
    have whole := decimalValue_toDigits n []
    rwa [List.append_nil] at whole
  rw [trim_eq_self (isWhitespace_of_mem_toDigits (by omega) (by omega)), parseUnsigned,
    stripPlus_toDigits]
  split
  · rename_i empty
    exact absurd empty Nat.toDigits_ne_nil
  · rw [value, Option.filter_some, if_pos (decide_eq_true bound)]

end QuicProxy
