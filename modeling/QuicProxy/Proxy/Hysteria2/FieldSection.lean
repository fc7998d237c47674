import QuicProxy.Proxy.Hysteria2.FieldScan

namespace QuicProxy

/-! Field sections without the dynamic table, and which blocks the decoder takes for one
(`src/proxy/outbound/hysteria2/qpack.rs`). -/

namespace Qpack

open Qpack.Reader

/-! What the bytes of a field section denote. -/

/-- A string at the front of the bytes and how many bytes it takes.  No slice has
2^64 bytes. -/
inductive StringAt (prefixWidth : Nat) (bytes text : Bytes) : Nat → Prop
  | mk {first : UInt8} {length count : Nat} (head : bytes.head? = some first)
      (size : integer (prefixWidth - 1) bytes = some (length, count)) (fits : length < 2 ^ 64)
      (within : count + length ≤ bytes.length)
      (denotes : if huffmanFlag prefixWidth first = some true then
          Encodes text ((bytes.drop count).take length)
        else text = (bytes.drop count).take length) :
      StringAt prefixWidth bytes text (count + length)

def octets (field : String × String) : Bytes × Bytes := (asBytes field.1, asBytes field.2)

/-- A field line at the front of the bytes that leaves the dynamic table alone, the octets
of its field and how many bytes it takes. -/
inductive Line (bytes : Bytes) : Bytes × Bytes → Nat → Prop
  | indexed {first : UInt8} {index count : Nat} {field : String × String}
      (head : bytes.head? = some first) (kind : first &&& 0xc0 = 0xc0)
      (number : integer 6 bytes = some (index, count))
      (entry : qpackStaticTable[index]? = some field) : Line bytes (octets field) count
  | nameReference {first : UInt8} {index count size : Nat} {entry : String × String}
      {value : Bytes} (head : bytes.head? = some first) (kind : first &&& 0xd0 = 0x50)
      (number : integer 4 bytes = some (index, count))
      (named : qpackStaticTable[index]? = some entry)
      (string : StringAt 8 (bytes.drop count) value size) :
      Line bytes (asBytes entry.1, value) (count + size)
  | literalName {first : UInt8} {count size : Nat} {name value : Bytes}
      (head : bytes.head? = some first) (kind : first &&& 0xe0 = 0x20)
      (named : StringAt 4 bytes name count)
      (string : StringAt 8 (bytes.drop count) value size) :
      Line bytes (name, value) (count + size)

inductive Lines : Bytes → List (Bytes × Bytes) → Prop
  | nil : Lines [] []
  | cons {bytes : Bytes} {field : Bytes × Bytes} {count : Nat}
      {fields : List (Bytes × Bytes)} (line : Line bytes field count)
      (lines : Lines (bytes.drop count) fields) : Lines bytes (field :: fields)

/-- The fields of a block; the required insert count and the base are 0. -/
inductive Section (block : Bytes) (fields : List (Bytes × Bytes)) : Prop
  | mk {count base : Nat} (insertCount : integer 8 block = some (0, count))
      (deltaBase : integer 7 (block.drop count) = some (0, base))
      (lines : Lines (block.drop (count + base)) fields)

/-- The first byte of a line that refers to the dynamic table: indexed, with a name
reference, post-base indexed or with a post-base name reference. -/
def RefersDynamic (first : UInt8) : Prop :=
  first &&& 0xc0 = 0x80 ∨ first &&& 0xd0 = 0x40 ∨ first &&& 0xf0 = 0x10 ∨ first &&& 0xf0 = 0x00

/-- Such a line comes after lines that do without. -/
inductive ReachesDynamic : Bytes → Prop
  | here {bytes : Bytes} {first : UInt8} (head : bytes.head? = some first)
      (refers : RefersDynamic first) : ReachesDynamic bytes
  | later {bytes : Bytes} {field : Bytes × Bytes} {count : Nat} (line : Line bytes field count)
      (reaches : ReachesDynamic (bytes.drop count)) : ReachesDynamic bytes

/-- A block that cannot be decoded without the dynamic table. -/
inductive UsesDynamic (block : Bytes) : Prop
  | insertCount {required count : Nat} (number : integer 8 block = some (required, count))
      (nonzero : required ≠ 0)
  | line {count base size : Nat} (insertCount : integer 8 block = some (0, count))
      (deltaBase : integer 7 (block.drop count) = some (base, size))
      (reaches : ReachesDynamic (block.drop (count + size)))

/-- Only static field sections are accepted, as the fields that they denote, and what
refers to the dynamic table is an error. -/
structure StaticOnly (build : Build) (block : Bytes) : Prop where
  denotes : ∀ fields, decodeFieldSection build block = some (.ok fields) →
    Section block (fields.map octets)
  rejects : UsesDynamic block → ∃ error, decodeFieldSection build block = some (.error error)

section Deterministic

variable {bytes text other : Bytes} {field field' : Bytes × Bytes} {count count' : Nat}
  {fields fields' : List (Bytes × Bytes)} {prefixWidth : Nat}

theorem StringAt.unique (one : StringAt prefixWidth bytes text count)
    (two : StringAt prefixWidth bytes other count') : text = other ∧ count = count' := by
  obtain ⟨head, size, -, -, denotes⟩ := one
  obtain ⟨head', size', -, -, denotes'⟩ := two
  cases head.symm.trans head'
  cases size.symm.trans size'
  refine ⟨?_, rfl⟩
  split at denotes
  · next coded =>
      rw [if_pos coded] at denotes'
      exact Except.ok.inj (denotes.decode.symm.trans denotes'.decode)
  · next plain =>
      rw [if_neg plain] at denotes'
      exact denotes.trans denotes'.symm

theorem kinds_disjoint (first : UInt8) :
    (first &&& 0xc0 = 0xc0 → first &&& 0xd0 ≠ 0x50 ∧ first &&& 0xe0 ≠ 0x20 ∧ ¬RefersDynamic first) ∧
      (first &&& 0xd0 = 0x50 → first &&& 0xe0 ≠ 0x20 ∧ ¬RefersDynamic first) ∧
        (first &&& 0xe0 = 0x20 → ¬RefersDynamic first) := by
  revert first
  unfold RefersDynamic
  refine forall_byte ?_
  decide +kernel

theorem Line.unique (one : Line bytes field count) (two : Line bytes field' count') :
    field = field' ∧ count = count' := by
  cases one with
  | indexed head kind number entry =>
      cases two with
      | indexed head' kind' number' entry' =>
          cases number.symm.trans number'
          cases entry.symm.trans entry'
          exact ⟨rfl, rfl⟩
      | nameReference head' kind' =>
          cases head.symm.trans head'
          exact absurd kind' ((kinds_disjoint _).1 kind).1
      | literalName head' kind' =>
          cases head.symm.trans head'
          exact absurd kind' ((kinds_disjoint _).1 kind).2.1
  | nameReference head kind number entry string =>
      cases two with
      | indexed head' kind' =>
          cases head.symm.trans head'
          exact absurd kind ((kinds_disjoint _).1 kind').1
      | nameReference head' kind' number' entry' string' =>
          cases number.symm.trans number'
          cases entry.symm.trans entry'
          obtain ⟨rfl, rfl⟩ := string.unique string'
          exact ⟨rfl, rfl⟩
      | literalName head' kind' =>
          cases head.symm.trans head'
          exact absurd kind' ((kinds_disjoint _).2.1 kind).1
  | literalName head kind named string =>
      cases two with
      | indexed head' kind' =>
          cases head.symm.trans head'
          exact absurd kind ((kinds_disjoint _).1 kind').2.1
      | nameReference head' kind' =>
          cases head.symm.trans head'
          exact absurd kind ((kinds_disjoint _).2.1 kind').1
      | literalName head' kind' named' string' =>
          obtain ⟨rfl, rfl⟩ := named.unique named'
          obtain ⟨rfl, rfl⟩ := string.unique string'
          exact ⟨rfl, rfl⟩

theorem Line.static {first : UInt8} (line : Line bytes field count)
    (head : bytes.head? = some first) : ¬RefersDynamic first := by
  cases line with
  | indexed head' kind =>
      cases head.symm.trans head'
      exact ((kinds_disjoint _).1 kind).2.2
  | nameReference head' kind =>
      cases head.symm.trans head'
      exact ((kinds_disjoint _).2.1 kind).2
  | literalName head' kind =>
      cases head.symm.trans head'
      exact (kinds_disjoint _).2.2 kind

theorem Line.head (line : Line bytes field count) : ∃ first, bytes.head? = some first := by
  cases line with
  | indexed head => exact ⟨_, head⟩
  | nameReference head => exact ⟨_, head⟩
  | literalName head => exact ⟨_, head⟩

theorem Lines.not_reachesDynamic (lines : Lines bytes fields) : ¬ReachesDynamic bytes := by
  induction lines with
  | nil =>
      intro reaches
      cases reaches with
      | here head => cases head
      | later line =>
          obtain ⟨first, head⟩ := line.head
          cases head
  | cons line _ ih =>
      intro reaches
      cases reaches with
      | here head refers => exact line.static head refers
      | later line' reaches =>
          obtain ⟨-, rfl⟩ := line.unique line'
          exact ih reaches

theorem Section.not_usesDynamic {block : Bytes} (denotes : Section block fields) :
    ¬UsesDynamic block := by
  obtain ⟨insertCount, deltaBase, lines⟩ := denotes
  rintro (⟨number, nonzero⟩ | ⟨insertCount', deltaBase', reaches⟩)
  · cases insertCount.symm.trans number
    exact nonzero rfl
  · cases insertCount.symm.trans insertCount'
    cases deltaBase.symm.trans deltaBase'
    exact lines.not_reachesDynamic reaches

end Deterministic

/-! What is read for what it is. -/

/-- The integer at the front of the bytes is one of 64 bits. -/
def IsU64 (prefixWidth : Nat) (bytes : Bytes) : Prop :=
  ∀ value count, integer prefixWidth bytes = some (value, count) → value < 2 ^ 64

/-- The length is one of 64 bits, and Huffman codes end in padding. -/
def ProperString (prefixWidth : Nat) (bytes : Bytes) : Prop :=
  IsU64 (prefixWidth - 1) bytes ∧ ∀ first length count, bytes.head? = some first →
    huffmanFlag prefixWidth first = some true →
      integer (prefixWidth - 1) bytes = some (length, count) →
        PaddedByOnes ((bytes.drop count).take length)

/-- A name reference is a static one, the integers have 64 bits, and Huffman codes end in
padding. -/
def ProperLine (bytes : Bytes) : Prop :=
  ∀ first, bytes.head? = some first →
    if first &&& 0x80 ≠ 0 then IsU64 6 bytes
    else if first &&& 0xc0 = 0x40 then
      first &&& 0x10 ≠ 0 ∧ IsU64 4 bytes ∧ ∀ index count, integer 4 bytes = some (index, count) →
        ProperString 8 (bytes.drop count)
    else if first &&& 0xe0 = 0x20 then
      ProperString 4 bytes ∧ ∀ length count, integer 3 bytes = some (length, count) →
        ProperString 8 (bytes.drop (count + length))
    else True

def IsUtf8 (text : Bytes) : Prop := ∃ string, asBytes string = text

theorem kind_static (first : UInt8) : first &&& 0xd0 = 0x50 ↔
    first &&& 0xc0 = 0x40 ∧ first &&& 0x10 ≠ 0 := by
  revert first
  refine forall_byte ?_
  decide +kernel

theorem qpackStaticTable_index {index : Nat} {entry : String × String}
    (found : qpackStaticTable[index]? = some entry) : index < 2 ^ 64 := by
  obtain ⟨inside, -⟩ := List.getElem?_eq_some_iff.mp found
  exact Nat.lt_of_lt_of_le inside (by decide)

section Proper

variable {build : Build} {bytes text : Bytes} {field : Bytes × Bytes}
  {count prefixWidth value : Nat}

theorem isU64_of_integer (number : integer prefixWidth bytes = some (value, count))
    (below : value < 2 ^ 64) : IsU64 prefixWidth bytes := by
  intro other size number'
  cases number.symm.trans number'
  exact below

theorem StringAt.proper (string : StringAt prefixWidth bytes text count) :
    ProperString prefixWidth bytes := by
  obtain ⟨head, size, fits, -, denotes⟩ := string
  refine ⟨isU64_of_integer size fits, fun first length count head' flag size' => ?_⟩
  cases head.symm.trans head'
  cases size.symm.trans size'
  rw [if_pos flag] at denotes
  exact denotes.paddedByOnes

theorem Line.proper (line : Line bytes field count) : ProperLine bytes := by
  intro first head'
  cases line with
  | indexed head kind number entry =>
      cases head.symm.trans head'
      rw [if_pos ((kinds_read _).1.mp kind).1]
      exact isU64_of_integer number (qpackStaticTable_index entry)
  | nameReference head kind number named string =>
      cases head.symm.trans head'
      obtain ⟨named_kind, static⟩ := (kind_static _).mp kind
      rw [if_neg ((kinds_read _).2.1 named_kind), if_pos named_kind]
      refine ⟨static, isU64_of_integer number (qpackStaticTable_index named), ?_⟩
      intro index count number'
      cases number.symm.trans number'
      exact string.proper
  | literalName head kind named string =>
      cases head.symm.trans head'
      obtain ⟨low, other_kind⟩ := (kinds_read _).2.2 kind
      rw [if_neg low, if_neg other_kind, if_pos kind]
      refine ⟨named.proper, fun length count size' => ?_⟩
      obtain ⟨-, size, -, -, -⟩ := named
      cases size.symm.trans size'
      exact string.proper

theorem Held.integer (held : Held build prefixWidth bytes value count)
    (small : IsU64 prefixWidth bytes) : integer prefixWidth bytes = some (value, count) := by
  obtain ⟨whole, number, rfl⟩ := held.number
  rw [Nat.mod_eq_of_lt (small whole count number)]
  exact number

theorem Held.lt (held : Held build prefixWidth bytes value count) : value < 2 ^ 64 := by
  obtain ⟨whole, -, rfl⟩ := held.number
  exact Nat.mod_lt _ (Nat.two_pow_pos 64)

theorem ScanString.denotes (string : ScanString build prefixWidth bytes text count)
    (proper : ProperString prefixWidth bytes) : StringAt prefixWidth bytes text count := by
  obtain ⟨head, held, within, codes⟩ := string
  have size := held.integer proper.1
  refine .mk head size held.lt within ?_
  split at codes
  · next coded =>
      rw [if_pos coded]
      exact encodes_of_decode (proper.2 _ _ _ head coded size) (huffmanDecode_ok_iff.mpr codes)
  · next plain =>
      rw [if_neg plain]
      exact codes

/-- The octets of a line that is read properly are the ones that it denotes. -/
theorem ScanLine.denotes (scan : ScanLine build bytes field count) (proper : ProperLine bytes) :
    Line bytes field count := by
  cases scan with
  | indexed head kind number entry =>
      have here := proper _ head
      rw [if_pos ((kinds_read _).1.mp kind).1] at here
      exact .indexed head kind (number.integer here) entry
  | nameReference head kind number named string =>
      have here := proper _ head
      rw [if_neg ((kinds_read _).2.1 kind), if_pos kind] at here
      obtain ⟨static, small, value⟩ := here
      have index := number.integer small
      exact .nameReference head ((kind_static _).mpr ⟨kind, static⟩) index named
        (string.denotes (value _ _ index))
  | @literalName _ count _ name value head kind named string =>
      have here := proper _ head
      obtain ⟨low, other⟩ := (kinds_read _).2.2 kind
      rw [if_neg low, if_neg other, if_pos kind] at here
      have name := named.denotes here.1
      have value : ProperString 8 (bytes.drop count) := by
        obtain ⟨-, size, -, -, -⟩ := name
        exact here.2 _ _ size
      exact .literalName head kind name (string.denotes value)

end Proper

/-! Where the lines begin. -/

section Reaches

variable {build : Build} {bytes later lines : Bytes} {rd last : Reader}
  {fields : List (Bytes × Bytes)}

/-- What becomes of the lines: taken to the end, an error or a panic at one of them. -/
inductive Ends (build : Build) (rd : Reader) : Outcome (List (String × String)) → Prop
  | done {last : Reader} {fields : List (String × String)} (reaches : Reaches build rd last)
      (nothing : last.rest = []) : Ends build rd (some (.ok fields))
  | error {error : String} : Ends build rd (some (.error error))
  | panic {last : Reader} {first : UInt8} (reaches : Reaches build rd last)
      (head : last.rest.head? = some first) (panics : last.readLine build first = none) :
      Ends build rd none

theorem ends_readLines (build : Build) (rd : Reader) (before : List (String × String)) :
    Ends build rd (rd.readLines build before) := by
  fun_induction readLines build rd before with
  | case1 rd before inside panics =>
      exact .panic .refl (head_rest inside) panics
  | case2 rd before inside error fails => exact .error
  | case3 rd before inside field next line ih =>
      have step : NextLine build rd next := ⟨_, field, head_rest inside, line⟩
      generalize next.readLines build (before ++ [field]) = outcome at ih
      cases ih with
      | done reaches nothing => exact .done (reaches.head step) nothing
      | error => exact .error
      | panic reaches head panics => exact .panic (reaches.head step) head panics
  | case4 rd before outside =>
      exact .done .refl (List.drop_eq_nil_of_le (Nat.le_of_not_lt outside))

theorem readLines_reaches (reaches : Reaches build rd last) (before : List (String × String)) :
    ∃ more, rd.readLines build before = last.readLines build more := by
  induction reaches using Relation.ReflTransGen.head_induction_on generalizing before with
  | refl => exact ⟨before, rfl⟩
  | head step _ ih =>
      obtain ⟨first, field, head, line⟩ := step
      rw [readLines_next before head line]
      exact ih _

theorem Lines.proper (lines : Lines bytes fields) : ProperLine bytes := by
  cases lines with
  | nil =>
      intro first head
      cases head
  | cons line => exact line.proper

theorem Lines.scanned {field : Bytes × Bytes} {count : Nat} (lines : Lines bytes fields)
    (scan : ScanLine build bytes field count) :
    field ∈ fields ∧ ∃ others, Lines (bytes.drop count) others ∧ others ⊆ fields := by
  cases lines with
  | nil =>
      obtain ⟨first, head⟩ := scan.head
      cases head
  | @cons _ field' count' others line lines =>
      obtain ⟨rfl, rfl⟩ := line.unique (scan.denotes line.proper)
      exact ⟨List.mem_cons_self, others, lines, List.subset_cons_self _ _⟩

theorem Lines.scans (lines : Lines bytes fields) (scans : Scans build bytes later) :
    ∃ others, Lines later others ∧ others ⊆ fields := by
  induction scans with
  | refl => exact ⟨fields, lines, List.Subset.refl fields⟩
  | tail _ step ih =>
      obtain ⟨others, lines, inside⟩ := ih
      obtain ⟨field, count, scan, rfl⟩ := step
      obtain ⟨-, behind, lines, subset⟩ := lines.scanned scan
      exact ⟨behind, lines, List.Subset.trans subset inside⟩

/-- All the lines from here are read properly, and what they say is UTF-8. -/
structure ProperLines (build : Build) (lines : Bytes) : Prop where
  proper : ∀ line, Scans build lines line → ProperLine line
  utf8 : ∀ line field count, Scans build lines line → ScanLine build line field count →
    IsUtf8 field.1 ∧ IsUtf8 field.2

theorem octets_lossy {field : Bytes × Bytes} (name : IsUtf8 field.1) (value : IsUtf8 field.2) :
    octets (lossy field) = field := by
  obtain ⟨first, same⟩ := name
  obtain ⟨second, same'⟩ := value
  rw [octets, lossy, ← same, ← same', fromUtf8Lossy_asBytes, fromUtf8Lossy_asBytes, same, same']

theorem lines_of_readLines {before accepted : List (String × String)}
    (proper : ProperLines build rd.rest)
    (read : rd.readLines build before = some (.ok accepted)) :
    ∃ more, accepted = before ++ more ∧ Lines rd.rest (more.map octets) := by
  fun_induction readLines build rd before with
  | case1 => cases read
  | case2 => cases read
  | case3 rd before inside field next line ih =>
      obtain ⟨scanned, count, scan, rfl, took⟩ := scan_of_readLine (head_rest inside) line
      have step : ScanNext build rd.rest next.rest := ⟨scanned, count, scan, took.rest⟩
      obtain ⟨more, rfl, lines⟩ := ih
        ⟨fun line scans => proper.proper line (scans.head step),
          fun line field count scans => proper.utf8 line field count (scans.head step)⟩ read
      obtain ⟨name, value⟩ := proper.utf8 rd.rest scanned count .refl scan
      rw [took.rest] at lines
      refine ⟨lossy scanned :: more, List.append_assoc .., ?_⟩
      rw [List.map_cons, octets_lossy name value]
      exact .cons (scan.denotes (proper.proper rd.rest .refl)) lines
  | case4 rd before outside =>
      cases read
      refine ⟨[], (List.append_nil _).symm, ?_⟩
      rw [Reader.rest, List.drop_eq_nil_of_le (Nat.le_of_not_lt outside)]
      exact .nil

end Reaches

/-! Panics. -/

/-- An integer of the line that is come to overflows. -/
def LineOverflows (build : Build) (first : UInt8) (bytes : Bytes) : Prop :=
  if first &&& 0x80 ≠ 0 then first &&& 0x40 ≠ 0 ∧ Overflows 6 bytes
  else if first &&& 0xc0 = 0x40 then
    Overflows 4 bytes ∨ ∃ index count, Held build 4 bytes index count ∧
      index < qpackStaticTable.length ∧ Overflows 7 (bytes.drop count)
  else if first &&& 0xe0 = 0x20 then
    Overflows 3 bytes ∨ ∃ name count, ScanString build 4 bytes name count ∧
      Overflows 7 (bytes.drop count)
  else False

section Panics

variable {build : Build}

theorem andThen_eq_none {α β : Type} {outcome : Outcome α} {next : α → Outcome β} :
    outcome.andThen next = none ↔
      outcome = none ∨ ∃ value, outcome = some (.ok value) ∧ next value = none := by
  rcases outcome with _ | error | value
  · exact iff_of_true rfl (.inl rfl)
  · refine iff_of_false (Option.some_ne_none _) ?_
    rintro (panics | ⟨value, same, -⟩)
    · cases panics
    · cases same
  · refine ⟨fun panics => .inr ⟨value, rfl, panics⟩, ?_⟩
    rintro (panics | ⟨value, same, panics⟩)
    · cases panics
    · cases same
      exact panics

theorem value_eq_none (rd : Reader) (named : Bytes → String × String) :
    ((rd.readString build 8).andThen fun (value, rd) =>
      (some (.ok (named value, rd)) : Outcome ((String × String) × Reader))) = none ↔
        build.overflowChecks = true ∧ Overflows 7 rd.rest := by
  rw [andThen_eq_none, readString_eq_none build (.inr rfl)]
  refine or_iff_left ?_
  rintro ⟨value, -, ⟨⟩⟩

theorem readLine_eq_none (first : UInt8) (rd : Reader) : rd.readLine build first = none ↔
    build.overflowChecks = true ∧ LineOverflows build first rd.rest := by
  unfold readLine LineOverflows
  split
  · split
    · next dynamic =>
        exact iff_of_false (Option.some_ne_none _) fun overflows => overflows.2.1 dynamic
    · next static =>
        rw [andThen_eq_none, readInt_eq_none build (by decide), and_iff_right static]
        refine or_iff_left ?_
        rintro ⟨⟨index, next⟩, -, panics⟩
        dsimp only at panics
        split at panics <;> cases panics
  split
  · rw [andThen_eq_none, readInt_eq_none build (by decide)]
    constructor
    · rintro (⟨checks, overflows⟩ | ⟨⟨index, next⟩, read, panics⟩)
      · exact ⟨checks, .inl overflows⟩
      · obtain ⟨count, held, took⟩ := (readInt_ok_iff (by decide)).mp read
        dsimp only at panics
        split at panics
        · cases panics
        · next name other found =>
            obtain ⟨checks, overflows⟩ :=
              (value_eq_none next fun value => (name, fromUtf8Lossy value)).mp panics
            have inside := (List.getElem?_eq_some_iff.mp found).1
            rw [took.rest] at overflows
            exact ⟨checks, .inr ⟨index, count, held, inside, overflows⟩⟩
    · rintro ⟨checks, overflows | ⟨index, count, held, inside, overflows⟩⟩
      · exact .inl ⟨checks, overflows⟩
      · obtain ⟨next, took⟩ := exists_took held.within
        refine .inr ⟨(index, next), (readInt_ok_iff (by decide)).mpr ⟨count, held, took⟩, ?_⟩
        dsimp only
        rw [List.getElem?_eq_getElem inside]
        rw [← took.rest] at overflows
        exact (value_eq_none next fun value => (qpackStaticTable[index].1, fromUtf8Lossy value)).mpr
          ⟨checks, overflows⟩
  split
  · rw [andThen_eq_none, readString_eq_none build (.inl rfl)]
    constructor
    · rintro (⟨checks, overflows⟩ | ⟨⟨name, next⟩, read, panics⟩)
      · exact ⟨checks, .inl overflows⟩
      · obtain ⟨count, named, took⟩ := (readString_ok_iff (.inl rfl)).mp read
        obtain ⟨checks, overflows⟩ :=
          (value_eq_none next fun value => (fromUtf8Lossy name, fromUtf8Lossy value)).mp panics
        rw [took.rest] at overflows
        exact ⟨checks, .inr ⟨name, count, named, overflows⟩⟩
    · rintro ⟨checks, overflows | ⟨name, count, named, overflows⟩⟩
      · exact .inl ⟨checks, overflows⟩
      · obtain ⟨next, took⟩ := exists_took named.within
        rw [← took.rest] at overflows
        exact .inr ⟨(name, next), (readString_ok_iff (.inl rfl)).mpr ⟨count, named, took⟩,
          (value_eq_none next fun value => (fromUtf8Lossy name, fromUtf8Lossy value)).mpr
            ⟨checks, overflows⟩⟩
  · exact iff_of_false (Option.some_ne_none _) And.right

end Panics

/-! The whole section. -/

/-- Where the bytes of the block fall into lines to its end, they are read properly. -/
def AcceptsProper (build : Build) (block : Bytes) : Prop :=
  ∀ lines, ScanBegins build block lines → Scans build lines [] →
    IsU64 8 block ∧ (∀ count, integer 8 block = some (0, count) → IsU64 7 (block.drop count)) ∧
      ProperLines build lines

/-- No integer of the block that is come to overflows. -/
structure NeverOverflows (build : Build) (block : Bytes) : Prop where
  insertCount : ¬Overflows 8 block
  base : ∀ count, Held build 8 block 0 count → ¬Overflows 7 (block.drop count)
  lines : ∀ lines line first, ScanBegins build block lines → Scans build lines line →
    line.head? = some first → ¬LineOverflows build first line

section Whole

variable {build : Build} {block lines : Bytes} {start last : Reader}

theorem decode_of_starts (starts : Starts build block start) :
    decodeFieldSection build block = start.readLines build [] := by
  obtain ⟨next, count, base⟩ := starts
  unfold decodeFieldSection
  rw [count]
  change (next.readInt build 7).andThen _ = _
  rw [base]
  rfl

theorem starts_of_decode {fields : List (String × String)}
    (accepted : decodeFieldSection build block = some (.ok fields)) :
    ∃ start, Starts build block start := by
  unfold decodeFieldSection at accepted
  obtain ⟨⟨count, next⟩, first, behind⟩ := Outcome.of_andThen accepted
  dsimp only at behind
  split at behind
  · cases behind
  · next zero =>
      obtain rfl := not_not.mp zero
      obtain ⟨⟨base, start⟩, second, lines⟩ := Outcome.of_andThen behind
      dsimp only at lines
      split at lines
      · cases lines
      · next zero =>
          obtain rfl := not_not.mp zero
          exact ⟨start, next, first, second⟩

theorem section_of_proper {fields : List (String × String)} (proper : AcceptsProper build block)
    (accepted : decodeFieldSection build block = some (.ok fields)) :
    Section block (fields.map octets) := by
  obtain ⟨start, starts⟩ := starts_of_decode accepted
  rw [decode_of_starts starts] at accepted
  obtain ⟨last, reaches, nothing⟩ : ∃ last, Reaches build start last ∧ last.rest = [] := by
    have ends := ends_readLines build start []
    rw [accepted] at ends
    cases ends with
    | done reaches nothing => exact ⟨_, reaches, nothing⟩
  have begins := starts.scan
  have scans := Reaches.scans reaches
  rw [nothing] at scans
  obtain ⟨small_count, small_base, proper_lines⟩ := proper start.rest begins scans
  obtain ⟨more, rfl, lines⟩ := lines_of_readLines proper_lines accepted
  generalize start.rest = behind at begins lines
  obtain ⟨insertCount, base⟩ := begins
  have number := insertCount.integer small_count
  exact .mk number (base.integer (small_base _ number)) lines

theorem accepted_of_scans (begins : ScanBegins build block lines) (scans : Scans build lines []) :
    ∃ fields, decodeFieldSection build block = some (.ok fields) := by
  obtain ⟨start, starts, rfl⟩ := exists_starts begins
  obtain ⟨last, reaches, nothing⟩ := exists_reaches scans
  obtain ⟨more, same⟩ := readLines_reaches reaches []
  exact ⟨more, (decode_of_starts starts).trans (same.trans (readLines_nil more nothing))⟩

theorem proper_of_section {fields : List (String × String)}
    (denotes : Section block (fields.map octets)) (begins : ScanBegins build block lines) :
    IsU64 8 block ∧ (∀ count, integer 8 block = some (0, count) → IsU64 7 (block.drop count)) ∧
      ProperLines build lines := by
  obtain ⟨number, base, denoted⟩ := denotes
  have small_count := isU64_of_integer number (Nat.two_pow_pos 64)
  have small_base := isU64_of_integer base (Nat.two_pow_pos 64)
  refine ⟨small_count, fun count number' => ?_, ?_⟩
  · cases number.symm.trans number'
    exact small_base
  obtain ⟨insertCount, held⟩ := begins
  cases number.symm.trans (insertCount.integer small_count)
  cases base.symm.trans (held.integer small_base)
  refine ⟨fun line scans => ?_, fun line field count scans scan => ?_⟩
  · obtain ⟨others, rest, -⟩ := denoted.scans scans
    exact rest.proper
  · obtain ⟨others, rest, inside⟩ := denoted.scans scans
    obtain ⟨field, -, rfl⟩ := List.mem_map.mp (inside (rest.scanned scan).1)
    exact ⟨⟨_, rfl⟩, ⟨_, rfl⟩⟩

theorem decode_eq_none : decodeFieldSection build block = none ↔
    build.overflowChecks = true ∧ ¬NeverOverflows build block := by
  constructor
  · intro panics
    unfold decodeFieldSection at panics
    rw [andThen_eq_none, readInt_eq_none build (by decide)] at panics
    rcases panics with ⟨checks, overflows⟩ | ⟨⟨count, next⟩, first, behind⟩
    · exact ⟨checks, fun never => never.insertCount overflows⟩
    dsimp only at behind
    split at behind
    · cases behind
    next zero =>
    obtain rfl := not_not.mp zero
    rw [andThen_eq_none, readInt_eq_none build (by decide)] at behind
    rcases behind with ⟨checks, overflows⟩ | ⟨⟨base, start⟩, second, lines⟩
    · obtain ⟨count, insertCount, took⟩ := (readInt_ok_iff (by decide)).mp first
      rw [took.rest] at overflows
      exact ⟨checks, fun never => never.base count insertCount overflows⟩
    dsimp only at lines
    split at lines
    · cases lines
    next zero =>
    obtain rfl := not_not.mp zero
    have starts : Starts build block start := ⟨next, first, second⟩
    have ends := ends_readLines build start []
    rw [lines] at ends
    cases ends with
    | panic reaches head panics =>
        obtain ⟨checks, overflows⟩ := (readLine_eq_none _ _).mp panics
        exact ⟨checks, fun never => never.lines _ _ _ starts.scan reaches.scans head overflows⟩
  · rintro ⟨checks, overflows⟩
    by_contra some_result
    refine overflows ⟨fun count => some_result ?_, fun count held base => some_result ?_, ?_⟩
    · unfold decodeFieldSection
      rw [andThen_eq_none, readInt_eq_none build (by decide)]
      exact .inl ⟨checks, count⟩
    · obtain ⟨next, took⟩ : ∃ next, Took (Reader.new block) count next := exists_took held.within
      have behind : next.rest = block.drop count := took.rest
      rw [← behind] at base
      unfold decodeFieldSection
      rw [(readInt_ok_iff (by decide)).mpr ⟨count, held, took⟩]
      change (next.readInt build 7).andThen _ = _
      rw [andThen_eq_none, readInt_eq_none build (by decide)]
      exact .inl ⟨checks, base⟩
    · intro lines line first begins scans head line_overflows
      obtain ⟨start, starts, rfl⟩ := exists_starts begins
      obtain ⟨last, reaches, rfl⟩ := exists_reaches scans
      have panics := (readLine_eq_none first last).mpr ⟨checks, line_overflows⟩
      obtain ⟨more, same⟩ := readLines_reaches reaches []
      exact some_result ((decode_of_starts starts).trans
        (same.trans (readLines_none more head panics)))

/-- Field sections are decoded without the dynamic table if and only if a block that
falls into lines to its end is read properly and, with overflow checks, no integer
overflows before a reference to the dynamic table is seen. -/
theorem staticOnly_iff (build : Build) (block : Bytes) : StaticOnly build block ↔
    AcceptsProper build block ∧
      (UsesDynamic block → build.overflowChecks = true → NeverOverflows build block) := by
  constructor
  · rintro ⟨denotes, rejects⟩
    constructor
    · intro lines begins scans
      obtain ⟨fields, accepted⟩ := accepted_of_scans begins scans
      exact proper_of_section (denotes fields accepted) begins
    · intro dynamic checks
      obtain ⟨error, rejected⟩ := rejects dynamic
      by_contra overflows
      rw [decode_eq_none.mpr ⟨checks, overflows⟩] at rejected
      cases rejected
  · rintro ⟨proper, never⟩
    refine ⟨fun fields => section_of_proper proper, fun dynamic => ?_⟩
    rcases result : decodeFieldSection build block with _ | error | fields
    · obtain ⟨checks, overflows⟩ := decode_eq_none.mp result
      exact absurd (never dynamic checks) overflows
    · exact ⟨error, rfl⟩
    · exact absurd dynamic (section_of_proper proper result).not_usesDynamic

/-- Entry 1 of the static table is `:path`; the line refers to entry 1 of the dynamic
one. -/
theorem dynamicName_accepted (build : Build) :
    decodeFieldSection build [0x00, 0x00, 0x41, 0x00] = some (.ok [(":path", "")]) := by
  have starts : Starts build [0x00, 0x00, 0x41, 0x00] ⟨[0x00, 0x00, 0x41, 0x00], 2, by decide⟩ :=
    ⟨⟨[0x00, 0x00, 0x41, 0x00], 1, by decide⟩, rfl, rfl⟩
  have line : Reader.readLine build 0x41 ⟨[0x00, 0x00, 0x41, 0x00], 2, by decide⟩ =
      some (.ok ((":path", ""), ⟨[0x00, 0x00, 0x41, 0x00], 4, by decide⟩)) := rfl
  rw [decode_of_starts starts, readLines_next [] rfl line, readLines_nil _ rfl]
  rfl

theorem dynamicName_not_staticOnly : UsesDynamic [0x00, 0x00, 0x41, 0x00] ∧
    ∀ build, ¬StaticOnly build [0x00, 0x00, 0x41, 0x00] := by
  have dynamic : UsesDynamic [0x00, 0x00, 0x41, 0x00] :=
    @UsesDynamic.line _ 1 0 1 rfl rfl (.here rfl (.inr (.inl rfl)))
  refine ⟨dynamic, fun build static => ?_⟩
  obtain ⟨error, rejected⟩ := static.rejects dynamic
  rw [dynamicName_accepted] at rejected
  cases rejected

end Whole

end Qpack

end QuicProxy
