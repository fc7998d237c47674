import QuicProxy.Data.PrefixCode
import QuicProxy.Proxy.Hysteria2.Qpack

namespace QuicProxy

/-! Huffman coded strings: what `huffman_decode` makes of the bits
(`src/proxy/outbound/hysteria2/qpack.rs`). -/

namespace Qpack

/-! The words of the table. -/

/-- The lowest bits of a code, the most significant one first. -/
def codeBits : Nat → Nat → List Nat
  | 0, _ => []
  | length + 1, code => codeBits length (code / 2) ++ [code % 2]

/-- The number that bits read so far make. -/
def accumulated (taken : List Nat) : Nat := taken.foldl (fun acc bit => 2 * acc + bit) 0

theorem length_codeBits (length code : Nat) : (codeBits length code).length = length := by
  induction length generalizing code with
  | zero => rfl
  | succ length ih => rw [codeBits, List.length_append, ih, List.length_singleton]

theorem codeBits_lt {length code bit : Nat} (member : bit ∈ codeBits length code) : bit < 2 := by
  induction length generalizing code with
  | zero => exact absurd member List.not_mem_nil
  | succ length ih =>
      rcases List.mem_append.mp member with before | last
      · exact ih before
      · rw [List.mem_singleton.mp last]
        exact Nat.mod_lt _ Nat.two_pos

theorem accumulated_concat (taken : List Nat) (bit : Nat) :
    accumulated (taken ++ [bit]) = 2 * accumulated taken + bit := List.foldl_concat ..

theorem accumulated_codeBits {length code : Nat} (small : code < 2 ^ length) :
    accumulated (codeBits length code) = code := by
  induction length generalizing code with
  | zero => exact (Nat.lt_one_iff.mp small).symm
  | succ length ih =>
      rw [codeBits, accumulated_concat, ih (by rw [Nat.pow_succ] at small; omega)]
      omega

theorem codeBits_accumulated {taken : List Nat} (binary : ∀ bit ∈ taken, bit < 2) :
    codeBits taken.length (accumulated taken) = taken := by
  induction taken using List.reverseRecOn with
  | nil => rfl
  | append_singleton taken bit ih =>
      obtain ⟨before, last⟩ := List.forall_mem_append.mp binary
      have small := last bit (List.mem_singleton_self bit)
      rw [List.length_append, List.length_singleton, codeBits, accumulated_concat,
        show (2 * accumulated taken + bit) / 2 = accumulated taken by omega,
        show (2 * accumulated taken + bit) % 2 = bit by omega, ih before]

theorem accumulated_lt {taken : List Nat} (binary : ∀ bit ∈ taken, bit < 2) :
    accumulated taken < 2 ^ taken.length := by
  induction taken using List.reverseRecOn with
  | nil => exact Nat.one_pos
  | append_singleton taken bit ih =>
      obtain ⟨before, last⟩ := List.forall_mem_append.mp binary
      have small := last bit (List.mem_singleton_self bit)
      have prior := ih before
      rw [List.length_append, List.length_singleton, accumulated_concat, Nat.pow_succ]
      omega

def rowWord (row : Nat × Nat) : List Nat := codeBits row.2 row.1

theorem hpackHuffman_length : hpackHuffman.length = 257 := by
  decide +kernel

theorem hpackHuffman_fits : ∀ row ∈ hpackHuffman, row.1 < 2 ^ row.2 ∧ 0 < row.2 := by
  decide +kernel

theorem hpackHuffman_branches : branches [0, 1] 30 (hpackHuffman.map rowWord) = true := by
  decide +kernel

theorem rowWord_ne_nil {row : Nat × Nat} (known : row ∈ hpackHuffman) : rowWord row ≠ [] := by
  have positive := (hpackHuffman_fits row known).2
  rw [← length_codeBits row.2 row.1] at positive
  exact List.length_pos_iff.mp positive

theorem row_lt (symbol : Fin 257) : symbol.val < hpackHuffman.length := by
  rw [hpackHuffman_length]
  exact symbol.isLt

def row (symbol : Fin 257) : Nat × Nat := hpackHuffman.get ⟨symbol.val, row_lt symbol⟩

theorem row_mem (symbol : Fin 257) : row symbol ∈ hpackHuffman := List.get_mem _ _

/-- The code of the table; a symbol is the index of its row. -/
def huffman : PrefixCode (Fin 257) Nat where
  word symbol := rowWord (row symbol)
  nonempty symbol := rowWord_ne_nil (row_mem symbol)
  prefixFree {first second} begins := by
    have apart := pairwise_of_branches hpackHuffman_branches
    rw [List.pairwise_map, List.pairwise_iff_getElem] at apart
    rcases Nat.lt_trichotomy first.val second.val with before | same | behind
    · exact absurd begins (apart _ _ (row_lt first) (row_lt second) before).1
    · exact Fin.ext same
    · exact absurd begins (apart _ _ (row_lt second) (row_lt first) behind).2

def eos : Fin 257 := 256

def symbol (byte : UInt8) : Fin 257 := ⟨byte.toNat, Nat.lt_succ_of_lt byte.toNat_lt⟩

theorem symbol_ne_eos (byte : UInt8) : symbol byte ≠ eos := by
  intro same
  have small := byte.toNat_lt
  have equal : byte.toNat = 256 := congrArg Fin.val same
  omega

theorem castU8_symbol (byte : UInt8) : castU8 (symbol byte).val = byte := UInt8.ofNat_toNat

theorem exists_symbol {other : Fin 257} (ne : other ≠ eos) : ∃ byte, other = symbol byte := by
  have bound := other.isLt
  have different : other.val ≠ 256 := fun same => ne (Fin.ext same)
  refine ⟨castU8 other.val, Fin.ext ?_⟩
  change other.val = (castU8 other.val).toNat
  rw [toNat_castU8, Nat.mod_eq_of_lt (by omega)]

/-! The loop. -/

section Walk

variable {taken rest : List Nat} {bit : Nat}

theorem matches_iff {row : Nat × Nat} (known : row ∈ hpackHuffman)
    (binary : ∀ bit ∈ taken, bit < 2) :
    (row.2 == taken.length && row.1 == accumulated taken) = true ↔ rowWord row = taken := by
  rw [Bool.and_eq_true, beq_iff_eq, beq_iff_eq]
  constructor
  · rintro ⟨length, code⟩
    rw [rowWord, length, code, codeBits_accumulated binary]
  · rintro rfl
    exact ⟨(length_codeBits ..).symm,
      (accumulated_codeBits (hpackHuffman_fits row known).1).symm⟩

theorem findRow_some {sym : Nat} (binary : ∀ bit ∈ taken, bit < 2)
    (found : (hpackHuffman.findIdx? fun row =>
      row.2 == taken.length && row.1 == accumulated taken) = some sym) :
    ∃ symbol : Fin 257, symbol.val = sym ∧ huffman.word symbol = taken := by
  obtain ⟨inside, same, -⟩ := List.findIdx?_eq_some_iff_getElem.mp found
  refine ⟨⟨sym, ?_⟩, rfl, (matches_iff (List.getElem_mem inside) binary).mp same⟩
  rw [← hpackHuffman_length]
  exact inside

theorem findRow_none (binary : ∀ bit ∈ taken, bit < 2)
    (missing : (hpackHuffman.findIdx? fun row =>
      row.2 == taken.length && row.1 == accumulated taken) = none)
    (symbol : Fin 257) : huffman.word symbol ≠ taken := by
  intro same
  have wrong := List.findIdx?_eq_none_iff.mp missing _ (row_mem symbol)
  rw [(matches_iff (row_mem symbol) binary).mpr same] at wrong
  cases wrong

theorem acc_concat (binary : ∀ bit ∈ taken, bit < 2) (small : bit < 2) (few : taken.length < 30) :
    (accumulated taken) <<< 1 % 2 ^ 32 ||| bit = accumulated (taken ++ [bit]) := by
  have below := accumulated_lt binary
  have fits : 2 ^ taken.length ≤ 2 ^ 29 := Nat.pow_le_pow_right Nat.two_pos (by omega)
  have shifted : accumulated taken <<< 1 < 2 ^ 32 := by
    rw [Nat.shiftLeft_eq]
    omega
  rw [accumulated_concat, Nat.mod_eq_of_lt shifted, ← Nat.shiftLeft_add_eq_or_of_lt small,
    Nat.shiftLeft_eq, Nat.pow_one, Nat.mul_comm]

/-- What `huffman_decode` returns for words of these symbols and a rest in which no
word begins. -/
def decoded (symbols : List (Fin 257)) (out : Bytes) : Except String Bytes :=
  if eos ∈ symbols then .error "Huffman EOS symbol in string"
  else .ok (out ++ symbols.map fun symbol => castU8 symbol.val)

theorem stuck_nil : huffman.Stuck [] := fun symbol begins =>
  huffman.nonempty symbol (List.prefix_nil.mp begins)

theorem stuck_concat (stuck : huffman.Stuck taken)
    (missing : ∀ symbol, huffman.word symbol ≠ taken ++ [bit]) :
    huffman.Stuck (taken ++ [bit]) := by
  intro symbol begins
  rcases List.prefix_concat_iff.mp begins with same | before
  · exact missing symbol same
  · exact stuck symbol before

theorem not_stuck (binary : ∀ bit ∈ taken, bit < 2) (long : 30 ≤ taken.length) :
    ¬huffman.Stuck taken := by
  intro stuck
  have known : ∀ bit ∈ taken, bit ∈ [0, 1] := by
    intro bit member
    have small := binary bit member
    rw [List.mem_cons, List.mem_singleton]
    omega
  obtain ⟨word, member, begins⟩ := exists_word_of_branches hpackHuffman_branches known long
  obtain ⟨row, inside, rfl⟩ := List.mem_map.mp member
  obtain ⟨index, bound, rfl⟩ := List.getElem_of_mem inside
  rw [hpackHuffman_length] at bound
  exact stuck ⟨index, bound⟩ begins

/-- The loop in the middle of a word: `taken` are the bits since the last match. -/
theorem huffmanBits_cut {symbols : List (Fin 257)} {left : List Nat} {out : Bytes}
    (cut : taken ++ rest = huffman.words symbols ++ left) (stuck : huffman.Stuck taken)
    (left_stuck : huffman.Stuck left) (binary : ∀ bit ∈ taken ++ rest, bit < 2)
    (few : taken.length < 30) :
    huffmanBits (accumulated taken) taken.length out rest = decoded symbols out := by
  induction rest generalizing taken symbols out with
  | nil =>
      rw [List.append_nil] at cut
      have none_whole : huffman.words [] ++ taken = huffman.words symbols ++ left := cut
      obtain ⟨rfl, -⟩ := PrefixCode.cut_unique none_whole stuck left_stuck
      rw [huffmanBits, decoded, if_neg List.not_mem_nil, List.map_nil, List.append_nil]
  | cons bit rest ih =>
      have again : taken ++ [bit] ++ rest = taken ++ bit :: rest := by
        rw [List.append_assoc, List.singleton_append]
      rw [← again] at cut binary
      obtain ⟨binary_front, binary_rest⟩ := List.forall_mem_append.mp binary
      obtain ⟨binary_taken, binary_bit⟩ := List.forall_mem_append.mp binary_front
      have length : taken.length + 1 = (taken ++ [bit]).length := by
        rw [List.length_append, List.length_singleton]
      rw [huffmanBits, acc_concat binary_taken (binary_bit bit (List.mem_singleton_self bit)) few,
        length]
      split
      · next sym found =>
          -- a whole word: it is the first one of the cut
          obtain ⟨symbol, rfl, word⟩ := findRow_some binary_front found
          obtain ⟨others, after, same, after_stuck⟩ := huffman.exists_cut rest
          have whole : huffman.words (symbol :: others) ++ after =
              huffman.words symbols ++ left := by
            rw [← cut, ← word, same]
            exact List.append_assoc ..
          obtain ⟨rfl, rfl⟩ := PrefixCode.cut_unique whole after_stuck left_stuck
          have number : symbol.val = 256 ↔ symbol = eos :=
            ⟨fun equal => Fin.ext equal, congrArg Fin.val⟩
          by_cases last : symbol = eos
          · rw [if_pos (number.mpr last), decoded, if_pos (last ▸ List.mem_cons_self ..)]
          · rw [if_neg (mt number.mp last)]
            have onward : [] ++ rest = huffman.words others ++ after := same
            refine (ih onward stuck_nil binary_rest (by decide)).trans ?_
            have later : eos ∈ symbol :: others ↔ eos ∈ others := by
              rw [List.mem_cons, or_iff_right (Ne.symm last)]
            rw [decoded, decoded, if_congr later rfl rfl, List.map_cons, List.append_assoc,
              List.singleton_append]
      · next missing =>
          have onward := stuck_concat stuck (findRow_none binary_front missing)
          have short : (taken ++ [bit]).length < 30 := by
            by_contra long
            exact not_stuck binary_front (Nat.le_of_not_lt long) onward
          rw [if_neg (Nat.ne_of_lt short)]
          exact ih cut onward binary short

end Walk

theorem bits_lt (byte : UInt8) : ∀ bit ∈ bits byte, bit < 2 := by
  intro bit member
  obtain ⟨index, -, rfl⟩ := List.mem_map.mp member
  exact Nat.lt_succ_of_le Nat.and_le_right

theorem flatMap_bits_lt (input : Bytes) : ∀ bit ∈ input.flatMap bits, bit < 2 := by
  intro bit member
  obtain ⟨byte, -, inside⟩ := List.mem_flatMap.mp member
  exact bits_lt byte bit inside

theorem huffmanDecode_cut {input : Bytes} {symbols : List (Fin 257)} {left : List Nat}
    (cut : input.flatMap bits = huffman.words symbols ++ left) (stuck : huffman.Stuck left) :
    huffmanDecode input = decoded symbols [] := by
  have from_start : [] ++ input.flatMap bits = huffman.words symbols ++ left := cut
  exact huffmanBits_cut from_start stuck_nil stuck (flatMap_bits_lt input) (by decide)

theorem decoded_symbols (text : Bytes) : decoded (text.map symbol) [] = .ok text := by
  have same : (text.map symbol).map (fun symbol => castU8 symbol.val) = text := by
    rw [List.map_map]
    exact (List.map_congr_left fun byte _ => castU8_symbol byte).trans (List.map_id text)
  have absent : eos ∉ text.map symbol := by
    intro member
    obtain ⟨byte, -, equal⟩ := List.mem_map.mp member
    exact symbol_ne_eos byte equal
  rw [decoded, if_neg absent, same, List.nil_append]

theorem exists_text {symbols : List (Fin 257)} (absent : eos ∉ symbols) :
    ∃ text : Bytes, symbols = text.map symbol := by
  induction symbols with
  | nil => exact ⟨[], rfl⟩
  | cons other symbols ih =>
      obtain ⟨here, later⟩ := not_or.mp fun either => absent (List.mem_cons.mpr either)
      obtain ⟨byte, rfl⟩ := exists_symbol (Ne.symm here)
      obtain ⟨text, rfl⟩ := ih later
      exact ⟨byte :: text, rfl⟩

/-! Encodings. -/

def Padding (left : List Nat) : Prop := left.length ≤ 7 ∧ ∀ bit ∈ left, bit = 1

def Encodes (text input : Bytes) : Prop :=
  ∃ left, input.flatMap bits = huffman.words (text.map symbol) ++ left ∧ Padding left

/-- What is left behind the whole words of the input is padding. -/
def PaddedByOnes (input : Bytes) : Prop :=
  ∀ (text : Bytes) (left : List Nat),
    input.flatMap bits = huffman.words (text.map symbol) ++ left →
      huffman.Stuck left → Padding left

theorem word_eos : huffman.word eos = List.replicate 30 1 := by
  decide +kernel

theorem Padding.stuck {left : List Nat} (padding : Padding left) : huffman.Stuck left := by
  intro symbol begins
  have ones := List.eq_replicate_iff.mpr ⟨rfl, padding.2⟩
  have inside : left <+: huffman.word eos := by
    have short := padding.1
    rw [ones, word_eos]
    exact ⟨List.replicate (30 - left.length) 1, by
      rw [List.replicate_append_replicate, Nat.add_sub_cancel' (by omega)]⟩
  obtain rfl := huffman.prefixFree (begins.trans inside)
  have long := begins.length_le
  rw [word_eos, List.length_replicate] at long
  have short := padding.1
  omega

theorem Encodes.decode {text input : Bytes} (encodes : Encodes text input) :
    huffmanDecode input = .ok text := by
  obtain ⟨left, cut, padding⟩ := encodes
  rw [huffmanDecode_cut cut padding.stuck, decoded_symbols]

theorem Encodes.paddedByOnes {text input : Bytes} (encodes : Encodes text input) :
    PaddedByOnes input := by
  obtain ⟨left, cut, padding⟩ := encodes
  intro other behind other_cut stuck
  obtain ⟨-, rfl⟩ := PrefixCode.cut_unique (cut.symm.trans other_cut) padding.stuck stuck
  exact padding

/-- What is accepted is whole codes, and an encoding where the rest is padding. -/
theorem encodes_of_decode {text input : Bytes} (padded : PaddedByOnes input)
    (accepted : huffmanDecode input = .ok text) : Encodes text input := by
  obtain ⟨symbols, left, cut, stuck⟩ := huffman.exists_cut (input.flatMap bits)
  rw [huffmanDecode_cut cut stuck] at accepted
  by_cases ends : eos ∈ symbols
  · rw [decoded, if_pos ends] at accepted
    cases accepted
  · obtain ⟨other, rfl⟩ := exists_text ends
    rw [decoded_symbols] at accepted
    cases accepted
    exact ⟨left, cut, padded _ left cut stuck⟩

theorem exists_byte {group : List Nat} (whole : group.length = 8)
    (binary : ∀ bit ∈ group, bit < 2) : ∃ byte, bits byte = group := by
  have below := accumulated_lt binary
  rw [whole] at below
  have inverse : ∀ small : Fin 256,
      bits (UInt8.ofNat small.val) = codeBits 8 small.val := by
    decide +kernel
  refine ⟨UInt8.ofNat (accumulated group), (inverse ⟨_, below⟩).trans ?_⟩
  rw [← whole]
  exact codeBits_accumulated binary

theorem exists_bytes {letters : List Nat} (binary : ∀ bit ∈ letters, bit < 2) {count : Nat}
    (whole : letters.length = 8 * count) : ∃ input : Bytes, input.flatMap bits = letters := by
  induction count generalizing letters with
  | zero => exact ⟨[], (List.length_eq_zero_iff.mp whole).symm⟩
  | succ count ih =>
      rw [← List.take_append_drop 8 letters] at binary ⊢
      obtain ⟨front, back⟩ := List.forall_mem_append.mp binary
      obtain ⟨byte, first⟩ := exists_byte (by rw [List.length_take]; omega) front
      obtain ⟨input, others⟩ := ih back (by rw [List.length_drop]; omega)
      exact ⟨byte :: input, by rw [List.flatMap_cons, first, others]⟩

theorem exists_encodes (text : Bytes) : ∃ input, Encodes text input := by
  have words_lt : ∀ bit ∈ huffman.words (text.map symbol), bit < 2 := by
    intro bit member
    obtain ⟨other, -, inside⟩ := List.mem_flatMap.mp member
    exact codeBits_lt inside
  let missing := (8 - (huffman.words (text.map symbol)).length % 8) % 8
  have binary : ∀ bit ∈ huffman.words (text.map symbol) ++ List.replicate missing 1, bit < 2 := by
    refine List.forall_mem_append.mpr ⟨words_lt, fun bit member => ?_⟩
    rw [List.eq_of_mem_replicate member]
    decide
  have whole : (huffman.words (text.map symbol) ++ List.replicate missing 1).length =
      8 * (((huffman.words (text.map symbol)).length + missing) / 8) := by
    rw [List.length_append, List.length_replicate]
    omega
  obtain ⟨input, same⟩ := exists_bytes binary whole
  exact ⟨input, List.replicate missing 1, same, by
    rw [List.length_replicate]
    omega, fun bit => List.eq_of_mem_replicate⟩

/-- Encodings are decoded and everything else is rejected. -/
def HuffmanExact (input : Bytes) : Prop :=
  (∀ text, Encodes text input → huffmanDecode input = .ok text) ∧
    ((¬∃ text, Encodes text input) → ∃ error, huffmanDecode input = .error error)

theorem huffmanDecode_exact_iff (input : Bytes) : HuffmanExact input ↔ PaddedByOnes input := by
  constructor
  · rintro ⟨-, rejects⟩ text left cut stuck
    have accepted := huffmanDecode_cut cut stuck
    rw [decoded_symbols] at accepted
    by_contra unpadded
    have unencoded : ¬∃ text, Encodes text input := fun ⟨other, encodes⟩ =>
      unpadded (encodes.paddedByOnes text left cut stuck)
    obtain ⟨error, rejected⟩ := rejects unencoded
    rw [accepted] at rejected
    cases rejected
  · intro padded
    refine ⟨fun text encodes => encodes.decode, fun unencoded => ?_⟩
    rcases accepted : huffmanDecode input with error | text
    · exact ⟨error, rfl⟩
    · exact absurd ⟨text, encodes_of_decode padded accepted⟩ unencoded

/-- The byte `0x00` is read as `"0"` and three zero bits. -/
theorem huffmanDecode_zero_padding :
    huffmanDecode [0x00] = .ok [0x30] ∧ ¬HuffmanExact [0x00] := by
  have cut : [0x00].flatMap bits = huffman.words ([0x30].map symbol) ++ [0, 0, 0] := by
    decide +kernel
  have stuck : huffman.Stuck [0, 0, 0] := by
    unfold PrefixCode.Stuck
    decide +kernel
  have accepted := huffmanDecode_cut cut stuck
  rw [decoded_symbols] at accepted
  refine ⟨accepted, fun ⟨_, rejects⟩ => ?_⟩
  have unencoded : ¬∃ text, Encodes text [0x00] := fun ⟨text, encodes⟩ =>
    absurd ((encodes.paddedByOnes _ _ cut stuck).2 0 (List.mem_cons_self ..)) Nat.zero_ne_one
  obtain ⟨error, rejected⟩ := rejects unencoded
  rw [accepted] at rejected
  cases rejected

end Qpack

end QuicProxy
