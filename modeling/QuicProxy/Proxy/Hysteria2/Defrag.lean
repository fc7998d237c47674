import QuicProxy.Data.Machine
import QuicProxy.Data.EntryMap
import QuicProxy.Proxy.Hysteria2.UdpMessage

namespace QuicProxy

/-! Reassembly of fragmented UDP packets: `process_udp_datagram`
(`src/proxy/outbound/hysteria2/mod.rs`). -/

namespace Hysteria2

/-- Ten seconds; times are in nanoseconds. -/
def udpFragmentTimeout : Nat := 10000000000

def udpMaxDefragEntries : Nat := 64

structure Fragments where
  count : UInt8
  parts : List (Option Bytes)
  created : Nat
  /-- A fragment id below the count is an index. -/
  whole : parts.length = count.toNat

namespace Fragments

def new (count : UInt8) (now : Nat) : Fragments :=
  ⟨count, .replicate count.toNat none, now, List.length_replicate⟩

def put (fragments : Fragments) (fragId : UInt8) (payload : Bytes) : Fragments where
  count := fragments.count
  parts := fragments.parts.set fragId.toNat (some payload)
  created := fragments.created
  whole := List.length_set.trans fragments.whole

def joined (fragments : Fragments) : Bytes := fragments.parts.flatMap (·.getD [])

/-- `now.duration_since(created)`, which is 0 for a later `created`. -/
def age (fragments : Fragments) (now : Nat) : Nat := now - fragments.created

end Fragments

abbrev Defrag := EntryMap UInt16 Fragments

/-- A full table is rid of the entries that are too old. -/
def evict (now : Nat) (defrag : Defrag) : Defrag :=
  if udpMaxDefragEntries ≤ defrag.size then
    defrag.retain fun _ entry => entry.age now < udpFragmentTimeout
  else defrag

/-- The fragment is put in its place, and the packet is done when no place is
empty. -/
def fillPart (message : UdpMessage) (entry : Fragments) (defrag : Defrag) :
    Except String (Option (String × Bytes)) × Defrag :=
  let entry := entry.put message.fragId message.payload
  if entry.parts.any Option.isNone then (.ok none, defrag.insert message.packetId entry)
  else (.ok (some (message.destination, entry.joined)), defrag.erase message.packetId)

/-- What `process_udp_datagram` does with a fragment after the eviction. -/
def assemble (now : Nat) (message : UdpMessage) (defrag : Defrag) :
    Except String (Option (String × Bytes)) × Defrag :=
  let entry := (defrag.lookup message.packetId).getD (.new message.fragCount now)
  if entry.count ≠ message.fragCount then
    -- No new entry can differ, so none was inserted.
    (.error s!"conflicting fragment count for packet {message.packetId.toNat}", defrag)
  else
    fillPart message
      (if udpFragmentTimeout < entry.age now then .new message.fragCount now else entry) defrag

def processUdpDatagram (now : Nat) (raw : Bytes) (defrag : Defrag) :
    Except String (Option (String × Bytes)) × Defrag :=
  match parseUdpMessage raw with
  | .error error => (.error error, defrag)
  | .ok message =>
      if message.fragCount = 0 ∨ message.fragCount ≤ message.fragId then
        (.error "invalid fragment id/count in UDP message", defrag)
      else if message.fragCount = 1 then
        (.ok (some (message.destination, message.payload)), defrag)
      else assemble now message (evict now defrag)

/-! What one datagram does. -/

section Datagram

variable {now : Nat} {raw : Bytes} {message : UdpMessage} {defrag : Defrag} {entry : Fragments}

theorem age_new (count : UInt8) (now : Nat) : (Fragments.new count now).age now = 0 :=
  Nat.sub_self now

theorem assemble_of_none (absent : defrag.lookup message.packetId = none) :
    assemble now message defrag = fillPart message (.new message.fragCount now) defrag := by
  have same : (Fragments.new message.fragCount now).count = message.fragCount := rfl
  simp only [assemble, absent, Option.getD_none, age_new]
  rw [if_neg (not_not_intro same), if_neg (Nat.not_lt_zero _)]

theorem assemble_of_young (found : defrag.lookup message.packetId = some entry)
    (count : entry.count = message.fragCount) (young : entry.age now ≤ udpFragmentTimeout) :
    assemble now message defrag = fillPart message entry defrag := by
  simp only [assemble, found, Option.getD_some]
  rw [if_neg (not_not_intro count), if_neg (Nat.not_lt.mpr young)]

theorem assemble_of_stale (found : defrag.lookup message.packetId = some entry)
    (count : entry.count = message.fragCount) (stale : udpFragmentTimeout < entry.age now) :
    assemble now message defrag = fillPart message (.new message.fragCount now) defrag := by
  simp only [assemble, found, Option.getD_some]
  rw [if_neg (not_not_intro count), if_pos stale]

theorem assemble_of_conflict (found : defrag.lookup message.packetId = some entry)
    (differs : entry.count ≠ message.fragCount) :
    assemble now message defrag =
      (.error s!"conflicting fragment count for packet {message.packetId.toNat}", defrag) := by
  simp only [assemble, found, Option.getD_some]
  rw [if_pos differs]

/-- Every fragment is refused, or put into an entry that is new or was there. -/
theorem assemble_cases (now : Nat) (message : UdpMessage) (defrag : Defrag) :
    (∃ entry, defrag.lookup message.packetId = some entry ∧ entry.count ≠ message.fragCount ∧
      assemble now message defrag =
        (.error s!"conflicting fragment count for packet {message.packetId.toNat}", defrag)) ∨
    ∃ entry, assemble now message defrag = fillPart message entry defrag := by
  cases found : defrag.lookup message.packetId with
  | none => exact .inr ⟨_, assemble_of_none found⟩
  | some entry =>
      by_cases count : entry.count = message.fragCount
      · rcases Nat.lt_or_ge udpFragmentTimeout (entry.age now) with stale | young
        · exact .inr ⟨_, assemble_of_stale found count stale⟩
        · exact .inr ⟨_, assemble_of_young found count young⟩
      · exact .inl ⟨entry, rfl, count, assemble_of_conflict found count⟩

theorem lookup_fillPart_of_ne {other : UInt16} (differs : other ≠ message.packetId)
    (entry : Fragments) (defrag : Defrag) :
    (fillPart message entry defrag).2.lookup other = defrag.lookup other := by
  simp only [fillPart]
  split
  · exact AList.lookup_insert_ne differs
  · exact AList.lookup_erase_ne differs

theorem lookup_assemble_of_ne {other : UInt16} (differs : other ≠ message.packetId) :
    (assemble now message defrag).2.lookup other = defrag.lookup other := by
  rcases assemble_cases now message defrag with ⟨entry, -, -, refused⟩ | ⟨entry, filled⟩
  · rw [refused]
  · rw [filled, lookup_fillPart_of_ne differs]

theorem lookup_evict_of_none {id : UInt16} (absent : defrag.lookup id = none) (now : Nat) :
    (evict now defrag).lookup id = none := by
  unfold evict
  split
  · rw [EntryMap.lookup_retain, absent]
    rfl
  · exact absent

theorem lookup_evict_of_young {id : UInt16} (found : defrag.lookup id = some entry)
    (young : entry.age now < udpFragmentTimeout) : (evict now defrag).lookup id = some entry := by
  unfold evict
  split
  · rw [EntryMap.lookup_retain, found, Option.filter_some, if_pos (decide_eq_true young)]
  · exact found

/-- A datagram that is a fragment of a packet of several. -/
structure Part (raw : Bytes) (message : UdpMessage) : Prop where
  parsed : parseUdpMessage raw = .ok message
  index : message.fragId < message.fragCount
  several : message.fragCount ≠ 1

theorem process_of_part (part : Part raw message) :
    processUdpDatagram now raw defrag = assemble now message (evict now defrag) := by
  have index := UInt8.lt_iff_toNat_lt.mp part.index
  have some_part : ¬(message.fragCount = 0 ∨ message.fragCount ≤ message.fragId) := by
    rintro (none | late)
    · rw [none] at index
      exact Nat.not_lt_zero _ index
    · exact absurd (UInt8.le_iff_toNat_le.mp late) (Nat.not_le.mpr index)
  simp only [processUdpDatagram, part.parsed]
  rw [if_neg some_part, if_neg part.several]

theorem process_of_no_part (other : ∀ message, ¬Part raw message) :
    (processUdpDatagram now raw defrag).2 = defrag := by
  unfold processUdpDatagram
  split
  · rfl
  · next message parsed =>
      split
      · rfl
      · next valid =>
          split
          · rfl
          · next several =>
              refine absurd ⟨parsed, ?_, several⟩ (other message)
              exact UInt8.not_le.mp fun late => valid (.inr late)

def Foreign (packetId : UInt16) (raw : Bytes) : Prop :=
  ∀ message, parseUdpMessage raw = .ok message → message.packetId ≠ packetId

theorem process_foreign {packetId : UInt16} (foreign : Foreign packetId raw) (now : Nat)
    (defrag : Defrag) :
    (processUdpDatagram now raw defrag).2.lookup packetId = defrag.lookup packetId ∨
      (processUdpDatagram now raw defrag).2.lookup packetId =
        (evict now defrag).lookup packetId := by
  by_cases some_part : ∃ message, Part raw message
  · obtain ⟨message, part⟩ := some_part
    rw [process_of_part part]
    exact .inr (lookup_assemble_of_ne (foreign message part.parsed).symm)
  · rw [process_of_no_part fun message part => some_part ⟨message, part⟩]
    exact .inl rfl

end Datagram

end Hysteria2

end QuicProxy
