import Mathlib.Algebra.Group.Nat.Defs
import QuicProxy.Net.Parse

namespace QuicProxy

/-! The address parser reads back what `Display` writes. -/

theorem length_wordsOfBytes (bytes : Bytes) :
    (wordsOfBytes bytes).length = bytes.length / 2 := by
  induction bytes using wordsOfBytes.induct with
  | case1 high low rest ih =>
      simp only [wordsOfBytes, List.length_cons, ih]
      omega
  | case2 bytes shape =>
      cases bytes with
      | nil => rfl
      | cons high tail =>
          cases tail with
          | nil => simp [wordsOfBytes]
          | cons low rest => exact absurd rfl (shape high low rest)

theorem Ipv6Addr.length_segments (ip : Ipv6Addr) : ip.segments.length = 8 := by
  rw [segments, length_wordsOfBytes, ip.length_octets]

namespace NetParser

/-! Numbers. -/

/-- What ends a number: the end of the text, or a character that is no digit. -/
def EndsNumber (radix : Nat) (rest : List Char) : Prop :=
  ∀ char ∈ rest.head?, toDigit radix char = none

theorem toDigit_digitChar {radix digit : Nat} (small : radix ≤ 16) (bound : digit < radix) :
    toDigit radix (Nat.digitChar digit) = some digit := by
  have value : ∀ digit < 16, toDigit 16 (Nat.digitChar digit) = some digit := by decide
  have hex := value digit (by omega)
  simp only [toDigit, Option.filter_eq_some_iff, decide_eq_true_eq] at hex ⊢
  exact ⟨hex.1, bound⟩

theorem digits_of_ends {radix value count : Nat} {rest : List Char}
    (ends : EndsNumber radix rest) : digits radix value count rest = (value, count, rest) := by
  cases rest with
  | nil => rfl
  | cons char rest => simp only [digits, ends char rfl]

theorem digits_toDigits {radix : Nat} (large : 1 < radix) (small : radix ≤ 16) (n : Nat)
    (rest : List Char) :
    digits radix 0 0 (Nat.toDigits radix n ++ rest) =
      digits radix n (Nat.toDigits radix n).length rest := by
  refine toDigits_induction (motive := fun n text => ∀ rest,
    digits radix 0 0 (text ++ rest) = digits radix n text.length rest) large ?_ ?_ n rest
  · intro digit bound rest
    simp only [List.cons_append, List.nil_append, digits, toDigit_digitChar small bound,
      Nat.zero_mul, Nat.zero_add, List.length_singleton]
  · intro front digit text _ bound ih rest
    rw [List.append_assoc, ih]
    simp only [List.cons_append, List.nil_append, digits, toDigit_digitChar small bound,
      List.length_append, List.length_singleton]

theorem head_toDigits {radix : Nat} (large : 1 < radix) (small : radix ≤ 16) (n : Nat) :
    (Nat.toDigits radix n).head? = some '0' → n = 0 := by
  have only : ∀ digit < 16, Nat.digitChar digit = '0' → digit = 0 := by decide
  refine (toDigits_induction (motive := fun n text => text ≠ [] ∧
    (text.head? = some '0' → n = 0)) large ?_ ?_ n).2
  · intro digit bound
    exact ⟨List.cons_ne_nil _ _, fun zero => only digit (by omega) (Option.some.inj zero)⟩
  · intro front digit text positive _ ih
    refine ⟨by simp, fun zero => ?_⟩
    rw [List.head?_append_of_ne_nil _ ih.1] at zero
    have none_left := ih.2 zero
    omega

theorem readNumber_toDigits {radix maxDigits limit n : Nat} (large : 1 < radix)
    (small : radix ≤ 16) (allowZeroPrefix : Bool) (positive : 0 < maxDigits)
    (fits : n < radix ^ maxDigits) (bound : n < limit) {rest : List Char}
    (ends : EndsNumber radix rest) :
    readNumber radix (some maxDigits) allowZeroPrefix limit (Nat.toDigits radix n ++ rest) =
      some (n, rest) := by
  have short : (Nat.toDigits radix n).length ≤ maxDigits :=
    (Nat.length_toDigits_le_iff large positive).mpr fits
  have some_digit : (Nat.toDigits radix n).length ≠ 0 :=
    Nat.pos_iff_ne_zero.mp Nat.length_toDigits_pos
  have noPrefix : (!allowZeroPrefix && (Nat.toDigits radix n ++ rest).head? == some '0' &&
      decide ((Nat.toDigits radix n).length > 1)) = false := by
    rw [List.head?_append_of_ne_nil _ Nat.toDigits_ne_nil]
    by_cases zero : (Nat.toDigits radix n).head? = some '0'
    · have none_left := head_toDigits large small n zero
      subst none_left
      simp
    · simp [zero]
  simp only [readNumber, digits_toDigits large small, digits_of_ends ends, noPrefix]
  simp [short, some_digit, bound]

/-! IPv4. -/

theorem ends_dot (rest : List Char) : EndsNumber 10 ('.' :: rest) := by
  intro char given
  cases given
  decide

theorem ends_nil (radix : Nat) : EndsNumber radix [] := by
  intro char given
  cases given

theorem readOctet (octet : UInt8) {rest : List Char} (ends : EndsNumber 10 rest) :
    readNumber 10 (some 3) false 256 (Nat.toDigits 10 octet.toNat ++ rest) =
      some (octet.toNat, rest) := by
  have bound := octet.toNat_lt
  exact readNumber_toDigits (by omega) (by omega) false (by omega) (by omega) bound ends

theorem readIpv4Addr_toText (ip : Ipv4Addr) {rest : List Char} (ends : EndsNumber 10 rest) :
    readIpv4Addr (ip.toText ++ rest) = some (ip, rest) := by
  have text : ip.toText ++ rest = Nat.toDigits 10 ip.a.toNat ++ '.' ::
      (Nat.toDigits 10 ip.b.toNat ++ '.' :: (Nat.toDigits 10 ip.c.toNat ++ '.' ::
        (Nat.toDigits 10 ip.d.toNat ++ rest))) := by
    simp [Ipv4Addr.toText, Ipv4Addr.octets, List.intercalate]
  have cast : ∀ octet : UInt8, castU8 octet.toNat = octet := by simp [castU8]
  rw [text, readIpv4Addr]
  simp only [readSeparator, readGivenChar, readOctet _ (ends_dot _), readOctet _ ends, cast,
    Option.bind_eq_bind, Option.bind_some, gt_iff_lt, Nat.lt_irrefl, if_false,
    Nat.zero_lt_succ, if_true, Option.pure_def]

theorem digits_suffix (radix value count : Nat) (text : List Char) :
    (digits radix value count text).2.2 <:+ text := by
  induction text generalizing value count with
  | nil => exact List.suffix_rfl
  | cons char rest ih =>
      simp only [digits]
      split
      · exact List.IsSuffix.trans (ih ..) (List.suffix_cons ..)
      · exact List.suffix_rfl

theorem readNumber_suffix {radix limit value : Nat} {maxDigits : Option Nat} {zero : Bool}
    {text rest : List Char}
    (read : readNumber radix maxDigits zero limit text = some (value, rest)) : rest <:+ text := by
  simp only [readNumber] at read
  split at read
  · cases read
  · split at read
    · cases read
    · split at read
      · cases read
      · split at read
        · cases read
          exact digits_suffix ..
        · cases read

theorem readIpv4Addr_of_noDot {text : List Char} (plain : '.' ∉ text) :
    readIpv4Addr text = none := by
  simp only [readIpv4Addr, readSeparator, Nat.lt_irrefl, gt_iff_lt, if_false]
  cases first : readNumber 10 (some 3) false 256 text with
  | none => rfl
  | some result =>
      obtain ⟨value, rest⟩ := result
      have dotless : '.' ∉ rest := fun member => plain ((readNumber_suffix first).subset member)
      have stuck : readGivenChar '.' rest = none := by
        cases rest with
        | nil => rfl
        | cons char rest =>
            simp only [readGivenChar]
            refine if_neg fun same => dotless ?_
            rw [same]
            exact List.mem_cons_self ..
      simp [stuck]

/-! IPv6. -/

/-- The groups as the parser meets them: a colon stands before each but the
first. -/
def groupsText : Nat → List UInt16 → List Char
  | _, [] => []
  | index, word :: words =>
      (if index > 0 then [':'] else []) ++ Nat.toDigits 16 word.toNat ++
        groupsText (index + 1) words

theorem hexWords_eq (words : List UInt16) : Ipv6Addr.hexWords words = groupsText 0 words := by
  cases words with
  | nil => rfl
  | cons word words =>
      have later : ∀ (index : Nat) (first : List Char) (words : List UInt16), 0 < index →
          List.intercalate [':'] (first :: words.map fun word => Nat.toDigits 16 word.toNat) =
            first ++ groupsText index words := by
        intro index first words positive
        induction words generalizing first index with
        | nil => simp [List.intercalate, groupsText]
        | cons word words ih =>
            have rest := ih (index + 1) (Nat.toDigits 16 word.toNat) (by omega)
            simp only [List.map_cons, groupsText, if_pos positive]
            rw [List.intercalate_cons_cons, rest]
            simp
      simp only [Ipv6Addr.hexWords, List.map_cons, groupsText]
      rw [later 1 _ words (by omega)]
      rfl

theorem ends_groupsText {index : Nat} (positive : 0 < index) (words : List UInt16)
    {rest : List Char} (ends : EndsNumber 16 rest) :
    EndsNumber 16 (groupsText index words ++ rest) := by
  cases words with
  | nil => exact ends
  | cons word words =>
      intro char member
      simp only [groupsText, if_pos positive] at member
      cases member
      decide

theorem readGroup (word : UInt16) {rest : List Char} (ends : EndsNumber 16 rest) :
    readNumber 16 (some 4) true 65536 (Nat.toDigits 16 word.toNat ++ rest) =
      some (word.toNat, rest) := by
  have bound := word.toNat_lt
  exact readNumber_toDigits (by omega) (by omega) true (by omega) (by omega) bound ends

theorem readEmbedded_of_noDot (index : Nat) {text : List Char} (plain : '.' ∉ text) :
    readSeparator ':' index readIpv4Addr text = none := by
  simp only [readSeparator]
  split
  · cases text with
    | nil => rfl
    | cons char rest =>
        simp only [readGivenChar]
        split
        · exact readIpv4Addr_of_noDot fun member => plain (List.mem_cons_of_mem _ member)
        · rfl
  · exact readIpv4Addr_of_noDot plain

theorem readSeparator_group (index : Nat) (word : UInt16) (words : List UInt16)
    {rest : List Char} (ends : EndsNumber 16 rest) :
    readSeparator ':' index (readNumber 16 (some 4) true 65536)
        (groupsText index (word :: words) ++ rest) =
      some (word.toNat, groupsText (index + 1) words ++ rest) := by
  have group := readGroup word (ends_groupsText (Nat.succ_pos index) words ends)
  simp only [readSeparator, groupsText]
  by_cases first : index > 0
  · simp only [if_pos first, List.cons_append, List.nil_append, List.append_assoc, readGivenChar,
      if_true, Option.bind_some]
    exact group
  · simp only [if_neg first, List.nil_append, List.append_assoc]
    exact group

/-- The parser reads all groups of a text without dots, and goes on behind
them. -/
theorem readGroups_groupsText (index left : Nat) (words : List UInt16) {rest : List Char}
    (fits : words.length ≤ left) (ends : EndsNumber 16 rest)
    (plain : '.' ∉ groupsText index words ++ rest) :
    readGroups index left (groupsText index words ++ rest) =
      let behind := readGroups (index + words.length) (left - words.length) rest
      (words ++ behind.1, behind.2) := by
  induction words generalizing index left with
  | nil => rfl
  | cons word words ih =>
      cases left with
      | zero => cases fits
      | succ left =>
          have later : '.' ∉ groupsText (index + 1) words ++ rest := by
            intro member
            apply plain
            simp only [groupsText, List.append_assoc]
            exact List.mem_append_right _ (List.mem_append_right _ member)
          have embedded : (if left > 0 then readSeparator ':' index readIpv4Addr
              (groupsText index (word :: words) ++ rest) else none) = none := by
            rw [readEmbedded_of_noDot index plain, ite_self]
          have cast : castU16 word.toNat = word := by simp [castU16]
          rw [readGroups, embedded]
          simp only [readSeparator_group index word words ends,
            ih (index + 1) left (Nat.le_of_succ_le_succ fits) later, cast, List.length_cons,
            List.cons_append, Nat.succ_sub_succ, Nat.add_assoc, Nat.add_comm 1]

theorem readGroups_stop {index left : Nat} {rest : List Char}
    (embedded : readSeparator ':' index readIpv4Addr rest = none)
    (stops : readSeparator ':' index (readNumber 16 (some 4) true 65536) rest = none) :
    readGroups index left rest = ([], false, rest) := by
  cases left with
  | zero => rfl
  | succ left =>
      rw [readGroups, embedded, ite_self]
      simp only [stops]

theorem noDot_groupsText (index : Nat) (words : List UInt16) : '.' ∉ groupsText index words := by
  have other : ∀ digit < 16, Nat.digitChar digit ≠ '.' := by decide
  induction words generalizing index with
  | nil => simp [groupsText]
  | cons word words ih =>
      simp only [groupsText, List.mem_append, not_or]
      refine ⟨⟨?_, ?_⟩, ih (index + 1)⟩
      · split <;> decide
      · intro member
        obtain ⟨digit, small, same⟩ := digitChar_of_mem_toDigits (by omega) member
        exact other digit small same.symm

theorem joinGroups_eq {head tail : List UInt16} (ip : Ipv6Addr)
    (whole : head ++ List.replicate (8 - head.length - tail.length) 0 ++ tail = ip.segments) :
    joinGroups head tail = some ip := by
  have length : (head ++ List.replicate (8 - head.length - tail.length) 0 ++ tail).length = 8 := by
    rw [whole, Ipv6Addr.length_segments]
  rw [joinGroups, dif_pos length]
  apply congrArg some
  obtain ⟨octets, _⟩ := ip
  simp only [Ipv6Addr.ofSegments, Ipv6Addr.mk.injEq, whole]
  exact Ipv6Addr.flatMap_segments _

theorem readIpv6Addr_full (ip : Ipv6Addr) :
    readIpv6Addr (Ipv6Addr.hexWords ip.segments) = some (ip, []) := by
  have length := ip.length_segments
  have plain : '.' ∉ groupsText 0 ip.segments ++ [] := by
    rw [List.append_nil]
    exact noDot_groupsText 0 ip.segments
  have read := readGroups_groupsText 0 8 ip.segments (by omega) (ends_nil 16) plain
  have joined : joinGroups ip.segments [] = some ip := joinGroups_eq ip (by simp [length])
  rw [List.append_nil, length] at read
  rw [hexWords_eq, readIpv6Addr, read]
  simp [readGroups, length, joined]

theorem readGroups_nil (index left : Nat) : readGroups index left [] = ([], false, []) := by
  apply readGroups_stop (readEmbedded_of_noDot index (by simp))
  simp only [readSeparator]
  split <;> rfl

theorem readNumber_of_ends {radix limit : Nat} {maxDigits : Option Nat} {zero : Bool}
    {text : List Char} (ends : EndsNumber radix text) :
    readNumber radix maxDigits zero limit text = none := by
  simp only [readNumber, digits_of_ends ends]
  split <;> simp

theorem readIpv4Addr_of_ends {text : List Char} (ends : EndsNumber 10 text) :
    readIpv4Addr text = none := by
  simp [readIpv4Addr, readSeparator, readNumber_of_ends ends]

theorem ends_colon (rest : List Char) :
    EndsNumber 10 (':' :: rest) ∧ EndsNumber 16 (':' :: rest) := by
  constructor <;> (rintro char ⟨⟩; decide)

theorem readGroups_colons (index left : Nat) (rest : List Char) :
    readGroups index left (':' :: ':' :: rest) = ([], false, ':' :: ':' :: rest) := by
  have given : readGivenChar ':' (':' :: ':' :: rest) = some (':' :: rest) := rfl
  apply readGroups_stop
  · simp only [readSeparator, given, Option.bind_some]
    split
    · exact readIpv4Addr_of_ends (ends_colon rest).1
    · exact readIpv4Addr_of_ends (ends_colon (':' :: rest)).1
  · simp only [readSeparator, given, Option.bind_some]
    split
    · exact readNumber_of_ends (ends_colon rest).2
    · exact readNumber_of_ends (ends_colon (':' :: rest)).2

theorem readIpv6Addr_compressed {before after : List UInt16} (ip : Ipv6Addr)
    (short : before.length + after.length ≤ 6)
    (whole : before ++ List.replicate (8 - before.length - after.length) 0 ++ after =
      ip.segments) :
    readIpv6Addr (Ipv6Addr.hexWords before ++ "::".toList ++ Ipv6Addr.hexWords after) =
      some (ip, []) := by
  have afterPlain := noDot_groupsText 0 after
  have ends := (ends_colon (':' :: groupsText 0 after)).2
  have plain : '.' ∉ groupsText 0 before ++ ':' :: ':' :: groupsText 0 after := by
    simp [noDot_groupsText 0 before, afterPlain]
  have head := readGroups_groupsText 0 8 before (by omega) ends plain
  have tail := readGroups_groupsText 0 (7 - before.length) after (by omega) (ends_nil 16)
    (by simpa using afterPlain)
  rw [readGroups_colons] at head
  rw [readGroups_nil, List.append_nil] at tail
  have text : Ipv6Addr.hexWords before ++ "::".toList ++ Ipv6Addr.hexWords after =
      groupsText 0 before ++ ':' :: ':' :: groupsText 0 after := by
    rw [hexWords_eq, hexWords_eq, List.append_assoc]
    rfl
  have incomplete : before.length ≠ 8 := by omega
  rw [text, readIpv6Addr, head]
  simp [incomplete, readGivenChar, tail, joinGroups_eq ip whole]

end NetParser

namespace Ipv6Addr

/-- All words of a span, given by its start and length, are zero. -/
def Zeros (words : List UInt16) (span : Nat × Nat) : Prop :=
  ∀ index, span.1 ≤ index → index < span.1 + span.2 → words[index]? = some 0

/-- One round of `longestZeros`, with the position, the span under way and the
longest one. -/
def zerosStep (state : Nat × (Nat × Nat) × (Nat × Nat)) (word : UInt16) :
    Nat × (Nat × Nat) × (Nat × Nat) :=
  let (index, current, longest) := state
  if word = 0 then
    let start := if current.2 = 0 then index else current.1
    let current := (start, current.2 + 1)
    (index + 1, current, if current.2 > longest.2 then current else longest)
  else (index + 1, (0, 0), longest)

theorem longestZeros_eq (words : List UInt16) :
    longestZeros words = (words.foldl zerosStep (0, (0, 0), (0, 0))).2.2 := rfl

/-- Before every round the span under way ends at the position, and both spans
are zeros. -/
structure ZerosInv (words : List UInt16) (state : Nat × (Nat × Nat) × (Nat × Nat)) : Prop where
  ends : state.2.1.2 ≠ 0 → state.2.1.1 + state.2.1.2 = state.1
  current : Zeros words state.2.1
  longest : Zeros words state.2.2

theorem ZerosInv.step {words : List UInt16} {state : Nat × (Nat × Nat) × (Nat × Nat)}
    {word : UInt16} (inv : ZerosInv words state) (here : words[state.1]? = some word) :
    ZerosInv words (zerosStep state word) := by
  obtain ⟨index, ⟨start, length⟩, longest⟩ := state
  simp only [zerosStep]
  split
  · rename_i zero
    have grown : ∀ first, (length ≠ 0 → first = start) → (length = 0 → first = index) →
        Zeros words (first, length + 1) := by
      intro first same fresh position above below
      simp only at above below
      by_cases last : position = index
      · rw [last, here, zero]
      · have running : length ≠ 0 := by
          intro none_yet
          have := fresh none_yet
          omega
        have closes := inv.ends running
        simp only at closes
        refine inv.current position ?_ ?_
        · simp only
          rw [← same running]
          exact above
        · simp only
          have := same running
          omega
    have current : Zeros words (if length = 0 then index else start, length + 1) :=
      grown _ (fun running => if_neg running) (fun none_yet => if_pos none_yet)
    refine ⟨fun _ => ?_, current, ?_⟩
    · simp only
      split
      · omega
      · rename_i running
        have closes := inv.ends running
        simp only at closes
        omega
    · simp only
      split
      · exact current
      · exact inv.longest
  · refine ⟨fun running => absurd rfl running, ?_, inv.longest⟩
    intro position _ below
    simp only at below
    omega

theorem zeros_longestZeros (words : List UInt16) : Zeros words (longestZeros words) := by
  have folded : ∀ (todo done : List UInt16) (state : Nat × (Nat × Nat) × (Nat × Nat)),
      words = done ++ todo → state.1 = done.length → ZerosInv words state →
        ZerosInv words (todo.foldl zerosStep state) := by
    intro todo
    induction todo with
    | nil => exact fun _ _ _ _ inv => inv
    | cons word todo ih =>
        intro done state whole position inv
        have here : words[state.1]? = some word := by simp [whole, position]
        refine ih (done ++ [word]) (zerosStep state word) (by simp [whole]) ?_ (inv.step here)
        simp only [zerosStep]
        split <;> simp [position]
  have empty : Zeros words (0, 0) := fun _ _ below => by simp only at below; omega
  rw [longestZeros_eq]
  exact (folded words [] _ rfl rfl ⟨fun running => absurd rfl running, empty, empty⟩).longest

theorem segments_split {words : List UInt16} {start length : Nat}
    (zeros : Zeros words (start, length)) (positive : 0 < length) :
    words = words.take start ++ List.replicate length 0 ++ words.drop (start + length) ∧
      start + length ≤ words.length := by
  have bound : start + length ≤ words.length := by
    have last := zeros (start + length - 1) (by simp only; omega) (by simp only; omega)
    obtain ⟨inside, _⟩ := List.getElem?_eq_some_iff.mp last
    omega
  refine ⟨?_, bound⟩
  have middle : (words.drop start).take length = List.replicate length 0 := by
    apply List.ext_getElem?
    intro offset
    by_cases inside : offset < length
    · rw [List.getElem?_take_of_lt inside, List.getElem?_drop,
        List.getElem?_replicate_of_lt inside]
      exact zeros (start + offset) (by simp only; omega) (by simp only; omega)
    · rw [List.getElem?_eq_none (by simp; omega), List.getElem?_eq_none (by simp; omega)]
  rw [← middle, List.append_assoc, ← List.drop_drop, List.take_append_drop, List.take_append_drop]

theorem readIpv6Addr_mapped {a b c d : UInt8} {ip : Ipv6Addr}
    (mapped : ip.octets = [0, 0, 0, 0, 0, 0, 0, 0, 0, 0, 255, 255, a, b, c, d]) :
    NetParser.readIpv6Addr ("::ffff:".toList ++ Ipv4Addr.toText ⟨a, b, c, d⟩) =
      some (ip, []) := by
  open NetParser in
  have text : "::ffff:".toList ++ Ipv4Addr.toText ⟨a, b, c, d⟩ =
      ':' :: ':' :: (Nat.toDigits 16 65535 ++ ':' :: Ipv4Addr.toText ⟨a, b, c, d⟩) := rfl
  have letter : EndsNumber 10 (Nat.toDigits 16 65535 ++ ':' :: Ipv4Addr.toText ⟨a, b, c, d⟩) := by
    intro char given
    cases given
    decide
  have group := readGroup 65535 (ends_colon (Ipv4Addr.toText ⟨a, b, c, d⟩)).2
  have embedded := readIpv4Addr_toText ⟨a, b, c, d⟩ (ends_nil 10)
  have tail : readGroups 0 7 (Nat.toDigits 16 65535 ++ ':' :: Ipv4Addr.toText ⟨a, b, c, d⟩) =
      ([65535, u16FromBe a b, u16FromBe c d], true, []) := by
    rw [List.append_nil] at embedded
    rw [show (65535 : UInt16).toNat = 65535 from rfl] at group
    simp [readGroups, readSeparator, readIpv4Addr_of_ends letter, group, readGivenChar, embedded,
      castU16]
  have segments : ip.segments = [0, 0, 0, 0, 0, 65535, u16FromBe a b, u16FromBe c d] := by
    rw [segments, mapped]
    rfl
  have joined : joinGroups [] [65535, u16FromBe a b, u16FromBe c d] = some ip :=
    joinGroups_eq ip (by rw [segments]; rfl)
  rw [text, readIpv6Addr, readGroups_colons]
  simp [readGivenChar, tail, joined]

theorem readIpv6Addr_toText (ip : Ipv6Addr) :
    NetParser.readIpv6Addr ip.toText = some (ip, []) := by
  rw [toText]
  split
  · rename_i a b c d mapped
    exact readIpv6Addr_mapped mapped
  · have zeros := zeros_longestZeros ip.segments
    simp only
    split
    · rename_i long
      have eight := ip.length_segments
      have bound : (longestZeros ip.segments).1 + (longestZeros ip.segments).2 ≤ 8 := by
        rw [← eight]
        exact (segments_split zeros (Nat.lt_of_succ_lt long)).2
      have whole := (segments_split zeros (Nat.lt_of_succ_lt long)).1
      have front : (ip.segments.take (longestZeros ip.segments).1).length =
          (longestZeros ip.segments).1 := by
        rw [List.length_take, eight]
        omega
      have back : (ip.segments.drop
          ((longestZeros ip.segments).1 + (longestZeros ip.segments).2)).length =
          8 - ((longestZeros ip.segments).1 + (longestZeros ip.segments).2) := by
        rw [List.length_drop, eight]
      apply NetParser.readIpv6Addr_compressed ip
      · omega
      · rw [front, back]
        have gap : 8 - (longestZeros ip.segments).1 -
            (8 - ((longestZeros ip.segments).1 + (longestZeros ip.segments).2)) =
            (longestZeros ip.segments).2 := by omega
        rw [gap]
        exact whole.symm
    · exact NetParser.readIpv6Addr_full ip

end Ipv6Addr

/-! The text of an address as a key. -/

/-- The characters that addresses are written with. -/
def IsAddressChar (char : Char) : Prop :=
  (∃ digit < 16, char = Nat.digitChar digit) ∨ char = '.' ∨ char = ':'

theorem isAddressChar_of_mem_toDigits {radix n : Nat} {char : Char} (large : 1 < radix)
    (small : radix ≤ 16) (member : char ∈ Nat.toDigits radix n) : IsAddressChar char := by
  obtain ⟨digit, bound, same⟩ := digitChar_of_mem_toDigits large member
  exact Or.inl ⟨digit, by omega, same⟩

theorem IsAddressChar.not_white {char : Char} (plain : IsAddressChar char) :
    isWhitespace char = false := by
  rcases plain with ⟨digit, small, rfl⟩ | rfl | rfl
  · exact isWhitespace_digitChar digit small
  · decide
  · decide

theorem IsAddressChar.ne_upper {char : Char} (plain : IsAddressChar char) : char ≠ 'A' := by
  have other : ∀ digit < 16, Nat.digitChar digit ≠ 'A' := by decide
  rcases plain with ⟨digit, small, rfl⟩ | rfl | rfl
  · exact other digit small
  · decide
  · decide

theorem Ipv4Addr.isAddressChar_toText (ip : Ipv4Addr) :
    ∀ char ∈ ip.toText, IsAddressChar char := by
  intro char member
  simp only [toText, octets, List.map_cons, List.map_nil, List.intercalate_cons_cons,
    List.intercalate_singleton, List.mem_append, List.mem_singleton] at member
  have digits : ∀ octet : UInt8, char ∈ Nat.toDigits 10 octet.toNat → IsAddressChar char :=
    fun octet => isAddressChar_of_mem_toDigits (by omega) (by omega)
  have dot : char = '.' → IsAddressChar char := fun same => Or.inr (Or.inl same)
  grind

namespace Ipv6Addr

theorem isAddressChar_hexWords (words : List UInt16) :
    ∀ char ∈ hexWords words, IsAddressChar char := by
  rw [NetParser.hexWords_eq]
  generalize 0 = index
  induction words generalizing index with
  | nil => exact fun char member => absurd member List.not_mem_nil
  | cons word words ih =>
      intro char member
      simp only [NetParser.groupsText, List.mem_append] at member
      rcases member with (colon | digit) | later
      · split at colon
        · exact Or.inr (Or.inr (List.mem_singleton.mp colon))
        · exact absurd colon List.not_mem_nil
      · exact isAddressChar_of_mem_toDigits (by omega) (by omega) digit
      · exact ih (index + 1) char later

theorem isAddressChar_toText (ip : Ipv6Addr) : ∀ char ∈ ip.toText, IsAddressChar char := by
  have fixed : ∀ char ∈ "::ffff:".toList, IsAddressChar char := by
    intro char member
    simp only [String.reduceToList, List.mem_cons, List.not_mem_nil, or_false] at member
    rcases member with rfl | rfl | rfl | rfl | rfl | rfl | rfl
    all_goals first | exact Or.inr (Or.inr rfl) | exact Or.inl ⟨15, by omega, rfl⟩
  intro char member
  rw [toText] at member
  split at member
  · rcases List.mem_append.mp member with mapped | embedded
    · exact fixed char mapped
    · exact Ipv4Addr.isAddressChar_toText _ char embedded
  · simp only at member
    split at member
    · rcases List.mem_append.mp member with front | back
      · rcases List.mem_append.mp front with before | colons
        · exact isAddressChar_hexWords _ char before
        · simp only [String.reduceToList, List.mem_cons, List.not_mem_nil, or_false,
            or_self] at colons
          exact Or.inr (Or.inr colons)
      · exact isAddressChar_hexWords _ char back
    · exact isAddressChar_hexWords _ char member

end Ipv6Addr

namespace IpAddr

theorem isAddressChar_toText (ip : IpAddr) : ∀ char ∈ ip.toText, IsAddressChar char := by
  cases ip with
  | v4 ip => exact ip.isAddressChar_toText
  | v6 ip => exact ip.isAddressChar_toText

theorem trim_toText (ip : IpAddr) : trim ip.toText = ip.toText :=
  trim_eq_self fun char member => (ip.isAddressChar_toText char member).not_white

theorem readIpv6Addr_toText_v4 (ip : Ipv4Addr) : NetParser.readIpv6Addr ip.toText = none := by
  have embedded := NetParser.readIpv4Addr_toText ip (NetParser.ends_nil 10)
  rw [List.append_nil] at embedded
  simp [NetParser.readIpv6Addr, NetParser.readGroups, NetParser.readSeparator, embedded]

theorem toText_inj {first second : IpAddr} (same : first.toText = second.toText) :
    first = second := by
  have v4 : ∀ ip : Ipv4Addr, NetParser.readIpv4Addr ip.toText = some (ip, []) := by
    intro ip
    have read := NetParser.readIpv4Addr_toText ip (NetParser.ends_nil 10)
    rwa [List.append_nil] at read
  cases first with
  | v4 first =>
      cases second with
      | v4 second =>
          have read := v4 first
          rw [show first.toText = second.toText from same, v4 second] at read
          cases read
          rfl
      | v6 second =>
          have read := readIpv6Addr_toText_v4 first
          rw [show first.toText = second.toText from same, second.readIpv6Addr_toText] at read
          cases read
  | v6 first =>
      cases second with
      | v4 second =>
          have read := readIpv6Addr_toText_v4 second
          rw [show second.toText = first.toText from same.symm, first.readIpv6Addr_toText] at read
          cases read
      | v6 second =>
          have read := first.readIpv6Addr_toText
          rw [show first.toText = second.toText from same, second.readIpv6Addr_toText] at read
          cases read
          rfl

end IpAddr

end QuicProxy
