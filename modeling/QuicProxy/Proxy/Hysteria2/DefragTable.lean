import QuicProxy.Proxy.Hysteria2.Reassembly

namespace QuicProxy

/-! The reassembly table of a UDP session over any sequence of datagrams. -/

namespace Hysteria2

open Machine

namespace Defrag

def step (defrag : Defrag) (arrival : Arrival) : Option Defrag :=
  some (processUdpDatagram arrival.now arrival.raw defrag).2

def Bounded (defrag : Defrag) : Prop := defrag.size ≤ udpMaxDefragEntries

/-- A fragment is processed as if an entry of its id that is older than the expiry
time were not there. -/
def Unaffected (defrag : Defrag) (arrival : Arrival) : Prop :=
  ∀ message entry, Part arrival.raw message → defrag.lookup message.packetId = some entry →
    udpFragmentTimeout < entry.age arrival.now →
      (processUdpDatagram arrival.now arrival.raw defrag).1 =
          (processUdpDatagram arrival.now arrival.raw (defrag.erase message.packetId)).1 ∧
        (processUdpDatagram arrival.now arrival.raw defrag).2.lookup message.packetId =
          (processUdpDatagram arrival.now arrival.raw (defrag.erase message.packetId)).2.lookup
            message.packetId

/-- A fragment of a packet that has no entry, or had one that is evicted, finds
fewer than the limit after the eviction. -/
def HasRoom (defrag : Defrag) (arrival : Arrival) : Prop :=
  ∀ message, Part arrival.raw message →
    (evict arrival.now defrag).lookup message.packetId = none →
      (evict arrival.now defrag).size < udpMaxDefragEntries

/-- A fragment of an id with an entry that is too old comes with the same fragment
count, or to a full table. -/
def SameCount (defrag : Defrag) (arrival : Arrival) : Prop :=
  ∀ message entry, Part arrival.raw message → defrag.lookup message.packetId = some entry →
    udpFragmentTimeout < entry.age arrival.now →
      entry.count = message.fragCount ∨ udpMaxDefragEntries ≤ defrag.size

variable {defrag : Defrag} {message : UdpMessage} {entry : Fragments} {now : Nat} {raw : Bytes}

theorem size_evict_le (now : Nat) (defrag : Defrag) : (evict now defrag).size ≤ defrag.size := by
  unfold evict
  split
  · exact EntryMap.size_retain_le ..
  · exact Nat.le_refl _

theorem open_new (part : Part raw message) (now : Nat) :
    ((Fragments.new message.fragCount now).put message.fragId message.payload).parts.any
      Option.isNone = true := by
  have index := UInt8.lt_iff_toNat_lt.mp part.index
  have several : 2 ≤ message.fragCount.toNat := by
    have not_one : message.fragCount.toNat ≠ 1 := fun one =>
      part.several (UInt8.toNat_inj.mp one)
    omega
  obtain ⟨other, inside, differs⟩ :
      ∃ other, other < message.fragCount.toNat ∧ message.fragId.toNat ≠ other := by
    by_cases first : message.fragId.toNat = 0
    · exact ⟨1, by omega, by omega⟩
    · exact ⟨0, by omega, first⟩
  have empty : ((List.replicate message.fragCount.toNat none).set message.fragId.toNat
      (some message.payload))[other]? = some none := by
    rw [List.getElem?_set_ne differs, List.getElem?_replicate, if_pos inside]
  exact List.any_eq_true.mpr ⟨none, List.mem_of_getElem? empty, rfl⟩

theorem fillPart_new (part : Part raw message) (now : Nat) (defrag : Defrag) :
    fillPart message (.new message.fragCount now) defrag =
      (.ok none, defrag.insert message.packetId
        ((Fragments.new message.fragCount now).put message.fragId message.payload)) :=
  if_pos (open_new part now)

theorem size_fillPart_le (found : defrag.lookup message.packetId = some entry)
    (other : Fragments) : (fillPart message other defrag).2.size ≤ defrag.size := by
  simp only [fillPart]
  split
  · exact Nat.le_of_eq (EntryMap.size_insert_of_some found _)
  · exact EntryMap.size_erase_le ..

theorem bounded_assemble_iff (part : Part raw message) (bounded : defrag.Bounded) :
    Bounded (assemble now message defrag).2 ↔
      (defrag.lookup message.packetId = none → defrag.size < udpMaxDefragEntries) := by
  cases found : defrag.lookup message.packetId with
  | none =>
      have grown := EntryMap.size_insert_of_none found
        ((Fragments.new message.fragCount now).put message.fragId message.payload)
      rw [assemble_of_none found, fillPart_new part]
      change EntryMap.size _ ≤ _ ↔ _
      rw [grown]
      exact ⟨fun within _ => within, fun within => within rfl⟩
  | some entry =>
      refine iff_of_true ?_ fun absent => absurd absent (Option.some_ne_none entry)
      rcases assemble_cases now message defrag with ⟨_, -, -, refused⟩ | ⟨other, filled⟩
      · rw [refused]
        exact bounded
      · rw [filled]
        exact Nat.le_trans (size_fillPart_le found other) bounded

theorem bounded_step_iff {next : Defrag} {arrival : Arrival} (bounded : defrag.Bounded)
    (taken : step defrag arrival = some next) : next.Bounded ↔ defrag.HasRoom arrival := by
  obtain rfl := Option.some.inj taken
  have evicted : Bounded (evict arrival.now defrag) := Nat.le_trans (size_evict_le ..) bounded
  by_cases some_part : ∃ message, Part arrival.raw message
  · obtain ⟨message, part⟩ := some_part
    rw [process_of_part part, bounded_assemble_iff part evicted]
    constructor
    · intro room other again
      cases part.parsed.symm.trans again.parsed
      exact room
    · exact fun room => room message part
  · rw [process_of_no_part fun message part => some_part ⟨message, part⟩]
    exact iff_of_true bounded fun message part => absurd ⟨message, part⟩ some_part

theorem lookup_evict_of_stale (full : udpMaxDefragEntries ≤ defrag.size) {id : UInt16}
    (found : defrag.lookup id = some entry) (stale : udpFragmentTimeout < entry.age now) :
    (evict now defrag).lookup id = none := by
  have expired : ¬decide (entry.age now < udpFragmentTimeout) = true := by
    rw [decide_eq_true_iff]
    exact Nat.lt_asymm stale
  rw [evict, if_pos full, EntryMap.lookup_retain, found, Option.filter_some, if_neg expired]

theorem unaffected_iff (defrag : Defrag) (arrival : Arrival) :
    defrag.Unaffected arrival ↔ defrag.SameCount arrival := by
  refine forall_congr' fun message => forall_congr' fun entry => ?_
  refine forall_congr' fun part => forall_congr' fun found => forall_congr' fun stale => ?_
  have erased : (evict arrival.now (defrag.erase message.packetId)).lookup message.packetId =
      none := lookup_evict_of_none (AList.lookup_erase ..) arrival.now
  have alone (other : Defrag)
      (same : assemble arrival.now message other =
        fillPart message (.new message.fragCount arrival.now) other) :
      (assemble arrival.now message other).1 = .ok none ∧
        (assemble arrival.now message other).2.lookup message.packetId =
          some ((Fragments.new message.fragCount arrival.now).put message.fragId
            message.payload) := by
    rw [same, fillPart_new part]
    exact ⟨rfl, AList.lookup_insert _⟩
  obtain ⟨result, kept⟩ := alone _ (assemble_of_none erased)
  rw [process_of_part part, process_of_part part, result, kept]
  constructor
  · rintro ⟨agrees, -⟩
    by_contra neither
    obtain ⟨differs, few⟩ := not_or.mp neither
    have here : (evict arrival.now defrag).lookup message.packetId = some entry := by
      rw [evict, if_neg few, found]
    rw [assemble_of_conflict here differs] at agrees
    cases agrees
  · intro allowed
    by_cases full : udpMaxDefragEntries ≤ defrag.size
    · exact alone _ (assemble_of_none (lookup_evict_of_stale full found stale))
    · have here : (evict arrival.now defrag).lookup message.packetId = some entry := by
        rw [evict, if_neg full, found]
      exact alone _ (assemble_of_stale here (allowed.resolve_right full) stale)

/-- In every state that the datagrams lead to from an empty table, the table is
bounded, and no entry past its time changes what a fragment of its id does. -/
structure Sound (arrivals : List Arrival) : Prop where
  bounded : Throughout step Bounded ∅ arrivals
  unaffected : Within step Unaffected ∅ arrivals

theorem sound_iff (arrivals : List Arrival) :
    Sound arrivals ↔
      Within step (fun defrag arrival => defrag.HasRoom arrival ∧ defrag.SameCount arrival) ∅
        arrivals := by
  obtain ⟨final, ran⟩ : ∃ final, run step ∅ arrivals = some final := by
    generalize (∅ : Defrag) = start
    induction arrivals generalizing start with
    | nil => exact ⟨start, rfl⟩
    | cons arrival arrivals ih => exact ih _
  have bounded : Throughout step Bounded ∅ arrivals ↔ Within step HasRoom ∅ arrivals :=
    throughout_iff_within (fun _ => True) Bounded (fun _ _ _ => trivial)
      (fun _ => bounded_step_iff) trivial (Nat.zero_le _) ran
  have unaffected : Within step Unaffected ∅ arrivals ↔ Within step SameCount ∅ arrivals :=
    within_congr (fun _ => True) (fun _ => unaffected_iff ..) (fun _ _ _ => trivial) trivial
  rw [within_and_iff, ← bounded, ← unaffected]
  exact ⟨fun sound => ⟨sound.bounded, sound.unaffected⟩, fun both => ⟨both.1, both.2⟩⟩

def firstThird : UdpMessage := ⟨1, 2, 0, 3, "a:1", [9]⟩

/-- Eleven seconds after half of a packet came, its id is used for a packet of three
fragments. -/
theorem reusedId_not_sound : ¬Sound [⟨0, firstHalf.pack⟩, ⟨11000000000, firstThird.pack⟩] := by
  intro sound
  have half : Part firstHalf.pack firstHalf :=
    ⟨parseUdpMessage_pack _ (by decide) (by decide), by decide, by decide⟩
  have third : Part firstThird.pack firstThird :=
    ⟨parseUdpMessage_pack _ (by decide) (by decide), by decide, by decide⟩
  have absent : (evict 0 ∅).lookup firstHalf.packetId = none :=
    lookup_evict_of_none (AList.lookup_empty _) 0
  have taken : step ∅ ⟨0, firstHalf.pack⟩ = some ((evict 0 ∅).insert firstHalf.packetId
      ((Fragments.new firstHalf.fragCount 0).put firstHalf.fragId firstHalf.payload)) := by
    rw [step, process_of_part half, assemble_of_none absent, fillPart_new half]
  have small : (evict 0 ∅).size ≤ 0 := size_evict_le 0 ∅
  rcases (unaffected_iff ..).mp (sound.unaffected.2 _ taken).1 firstThird _ third
    (AList.lookup_insert _) (by decide) with same | full
  · exact absurd same (by decide)
  · rw [EntryMap.size_insert_of_none absent] at full
    change 64 ≤ _ at full
    omega

end Defrag

end Hysteria2

end QuicProxy
