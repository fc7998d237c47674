import QuicProxy.Proxy.Hysteria2.Defrag

namespace QuicProxy

/-! A payload that is cut by `fragment_udp_payload` and put together again by
`process_udp_datagram`, whatever the order in which its messages arrive. -/

namespace Hysteria2

structure Arrival where
  now : Nat
  raw : Bytes
deriving DecidableEq

def defragAll (defrag : Defrag) (arrivals : List Arrival) : Defrag :=
  arrivals.foldl
    (fun defrag arrival => (processUdpDatagram arrival.now arrival.raw defrag).2) defrag

theorem defragAll_concat (defrag : Defrag) (before : List Arrival) (last : Arrival) :
    defragAll defrag (before ++ [last]) =
      (processUdpDatagram last.now last.raw (defragAll defrag before)).2 := by
  rw [defragAll, List.foldl_append]
  rfl

/-- A payload in the chunks that its messages carry. -/
structure Cut where
  sessionId : UInt32
  packetId : UInt16
  destination : String
  chunks : List Bytes
  addressed : 1 ≤ (asBytes destination).length
  short : (asBytes destination).length ≤ 2048
  few : chunks.length ≤ 255

namespace Cut

variable (cut : Cut)

def message (index : Nat) (chunk : Bytes) : UdpMessage :=
  ⟨cut.sessionId, cut.packetId, castU8 index, castU8 cut.chunks.length, cut.destination, chunk⟩

def messages : List UdpMessage :=
  cut.chunks.zipIdx.map fun (chunk, index) => cut.message index chunk

theorem mem_messages {message : UdpMessage} :
    message ∈ cut.messages ↔
      ∃ index chunk, cut.chunks[index]? = some chunk ∧ cut.message index chunk = message := by
  simp only [messages, List.mem_map, Prod.exists, List.mem_zipIdx_iff_getElem?]
  exact exists_comm

theorem parse_message (index : Nat) (chunk : Bytes) :
    parseUdpMessage (cut.message index chunk).pack = .ok (cut.message index chunk) :=
  parseUdpMessage_pack _ cut.addressed cut.short

variable {cut} {index other : Nat} {chunk part : Bytes}

theorem index_lt (found : cut.chunks[index]? = some chunk) : index < cut.chunks.length :=
  (List.getElem?_eq_some_iff.mp found).1

theorem toNat_index (found : cut.chunks[index]? = some chunk) : (castU8 index).toNat = index := by
  have := cut.few
  have := index_lt found
  rw [toNat_castU8]
  omega

theorem toNat_count : (castU8 cut.chunks.length).toNat = cut.chunks.length := by
  have := cut.few
  rw [toNat_castU8]
  omega

theorem index_eq_of_pack (found : cut.chunks[index]? = some chunk)
    (again : cut.chunks[other]? = some part)
    (same : (cut.message index chunk).pack = (cut.message other part).pack) : index = other := by
  have parsed := cut.parse_message index chunk
  rw [same, cut.parse_message] at parsed
  have ids := congrArg UdpMessage.fragId (Except.ok.inj parsed)
  have numbers := congrArg UInt8.toNat ids
  change (castU8 other).toNat = (castU8 index).toNat at numbers
  rw [toNat_index found, toNat_index again] at numbers
  exact numbers.symm

/-- The arrival is the message of a chunk. -/
def IsPart (cut : Cut) (arrival : Arrival) (index : Nat) (chunk : Bytes) : Prop :=
  cut.chunks[index]? = some chunk ∧ arrival.raw = (cut.message index chunk).pack

def Own (cut : Cut) (arrival : Arrival) : Prop := ∃ index chunk, cut.IsPart arrival index chunk

def Arrived (cut : Cut) (arrivals : List Arrival) (index : Nat) : Prop :=
  ∃ arrival ∈ arrivals, ∃ chunk, cut.IsPart arrival index chunk

theorem IsPart.index_eq {arrival : Arrival} (here : cut.IsPart arrival index chunk)
    (there : cut.IsPart arrival other part) : index = other :=
  index_eq_of_pack here.1 there.1 (here.2.symm.trans there.2)

theorem IsPart.fragment {arrival : Arrival} (here : cut.IsPart arrival index chunk)
    (several : 2 ≤ cut.chunks.length) : Part arrival.raw (cut.message index chunk) where
  parsed := here.2 ▸ cut.parse_message index chunk
  index := by
    apply UInt8.lt_iff_toNat_lt.mpr
    change (castU8 index).toNat < (castU8 cut.chunks.length).toNat
    rw [toNat_index here.1, toNat_count]
    exact index_lt here.1
  several := by
    intro one
    have count := congrArg UInt8.toNat one
    change (castU8 cut.chunks.length).toNat = 1 at count
    rw [toNat_count] at count
    omega

theorem arrived_concat {before : List Arrival} {last : Arrival} :
    cut.Arrived (before ++ [last]) index ↔
      cut.Arrived before index ∨ ∃ chunk, cut.IsPart last index chunk := by
  simp only [Arrived, List.mem_append, List.mem_singleton, or_and_right, exists_or, exists_eq_left]

/-- The entry has exactly the chunks that have arrived. -/
structure Holds (cut : Cut) (entry : Fragments) (arrivals : List Arrival) : Prop where
  count : entry.count = castU8 cut.chunks.length
  present {index : Nat} {chunk : Bytes} (found : cut.chunks[index]? = some chunk)
    (arrived : cut.Arrived arrivals index) : entry.parts[index]? = some (some chunk)
  missing {index : Nat} (inside : index < cut.chunks.length)
    (absent : ¬cut.Arrived arrivals index) : entry.parts[index]? = some none

theorem Holds.length {entry : Fragments} {arrivals : List Arrival}
    (holds : cut.Holds entry arrivals) : entry.parts.length = cut.chunks.length := by
  rw [entry.whole, holds.count, toNat_count]

theorem holds_new {arrivals : List Arrival} (none_yet : ∀ index, ¬cut.Arrived arrivals index)
    (now : Nat) : cut.Holds (.new (castU8 cut.chunks.length) now) arrivals where
  count := rfl
  present _ arrived := absurd arrived (none_yet _)
  missing {index} inside _ := by
    change (List.replicate _ none)[index]? = some none
    rw [List.getElem?_replicate, toNat_count, if_pos inside]

theorem Holds.put {entry : Fragments} {before : List Arrival} {last : Arrival}
    (holds : cut.Holds entry before) (here : cut.IsPart last index chunk) :
    cut.Holds (entry.put (castU8 index) chunk) (before ++ [last]) where
  count := holds.count
  present {other part} found arrived := by
    change (entry.parts.set (castU8 index).toNat (some chunk))[other]? = some (some part)
    rw [toNat_index here.1]
    by_cases same : index = other
    · subst same
      rw [List.getElem?_set_self (by rw [holds.length]; exact index_lt here.1)]
      exact congrArg some (here.1.symm.trans found)
    · rw [List.getElem?_set_ne same]
      rcases arrived_concat.mp arrived with earlier | ⟨part', now⟩
      · exact holds.present found earlier
      · exact absurd (here.index_eq now) same
  missing {other} inside absent := by
    change (entry.parts.set (castU8 index).toNat (some chunk))[other]? = some none
    rw [toNat_index here.1]
    have differs : index ≠ other := by
      rintro rfl
      exact absent (arrived_concat.mpr (.inr ⟨chunk, here⟩))
    rw [List.getElem?_set_ne differs]
    exact holds.missing inside fun earlier => absent (arrived_concat.mpr (.inl earlier))

theorem Holds.open {entry : Fragments} {arrivals : List Arrival}
    (holds : cut.Holds entry arrivals) (inside : index < cut.chunks.length)
    (absent : ¬cut.Arrived arrivals index) : entry.parts.any Option.isNone = true :=
  List.any_eq_true.mpr ⟨none, List.mem_of_getElem? (holds.missing inside absent), rfl⟩

theorem Holds.parts_eq {entry : Fragments} {arrivals : List Arrival}
    (holds : cut.Holds entry arrivals)
    (all : ∀ index < cut.chunks.length, cut.Arrived arrivals index) :
    entry.parts = cut.chunks.map some := by
  apply List.ext_getElem?
  intro index
  rw [List.getElem?_map]
  rcases Nat.lt_or_ge index cut.chunks.length with inside | outside
  · rw [List.getElem?_eq_getElem inside]
    exact holds.present (List.getElem?_eq_getElem inside) (all index inside)
  · rw [List.getElem?_eq_none outside, List.getElem?_eq_none (by rwa [holds.length])]
    rfl

theorem Holds.joined {entry : Fragments} {arrivals : List Arrival}
    (holds : cut.Holds entry arrivals)
    (all : ∀ index < cut.chunks.length, cut.Arrived arrivals index) :
    entry.parts.any Option.isNone = false ∧ entry.joined = cut.chunks.flatten := by
  rw [Fragments.joined, holds.parts_eq all]
  constructor
  · rw [List.any_map]
    exact List.any_eq_false.mpr fun chunk _ => Bool.false_ne_true
  · rw [List.flatMap_map]
    exact List.flatMap_id

/-- What the table has of the packet once these datagrams have been processed. -/
structure Tracks (cut : Cut) (defrag : Defrag) (arrivals : List Arrival) : Prop where
  none_yet (none_own : ∀ arrival ∈ arrivals, ¬cut.Own arrival) :
    defrag.lookup cut.packetId = none
  entry {arrival : Arrival} (member : arrival ∈ arrivals) (own : cut.Own arrival) :
    ∃ entry, defrag.lookup cut.packetId = some entry ∧ cut.Holds entry arrivals ∧
      ∃ first ∈ arrivals, cut.Own first ∧ entry.created = first.now

/-- So many nanoseconds after any message of the packet, no later datagram comes. -/
def InTime (cut : Cut) (arrivals : List Arrival) : Prop :=
  ∀ first ∈ arrivals, cut.Own first → ∀ later ∈ arrivals, later.now - first.now < udpFragmentTimeout

theorem Tracks.cases {defrag : Defrag} {before : List Arrival} (tracks : cut.Tracks defrag before)
    {last : Arrival} (in_time : cut.InTime (before ++ [last])) :
    ((∀ arrival ∈ before, ¬cut.Own arrival) ∧ defrag.lookup cut.packetId = none) ∨
    ∃ entry, defrag.lookup cut.packetId = some entry ∧ cut.Holds entry before ∧
      entry.age last.now < udpFragmentTimeout ∧
        ∃ first ∈ before, cut.Own first ∧ entry.created = first.now := by
  by_cases none_own : ∀ arrival ∈ before, ¬cut.Own arrival
  · exact .inl ⟨none_own, tracks.none_yet none_own⟩
  · simp only [not_forall, not_not] at none_own
    obtain ⟨arrival, member, own⟩ := none_own
    obtain ⟨entry, found, holds, first, earlier, its, created⟩ := tracks.entry member own
    refine .inr ⟨entry, found, holds, ?_, first, earlier, its, created⟩
    rw [Fragments.age, created]
    exact in_time first (List.mem_append_left _ earlier) its last
      (List.mem_append_right _ (List.mem_singleton_self last))

theorem Tracks.foreign {defrag : Defrag} {before : List Arrival} (tracks : cut.Tracks defrag before)
    {last : Arrival} (in_time : cut.InTime (before ++ [last]))
    (foreign : Foreign cut.packetId last.raw) :
    cut.Tracks (processUdpDatagram last.now last.raw defrag).2 (before ++ [last]) := by
  have not_own : ¬cut.Own last := by
    rintro ⟨index, chunk, here⟩
    exact foreign _ (here.2 ▸ cut.parse_message index chunk) rfl
  have not_part (index : Nat) : ¬∃ chunk, cut.IsPart last index chunk := by
    rintro ⟨chunk, here⟩
    exact not_own ⟨index, chunk, here⟩
  have same (index : Nat) : cut.Arrived (before ++ [last]) index ↔ cut.Arrived before index :=
    arrived_concat.trans (or_iff_left (not_part index))
  have earlier {arrival : Arrival} (member : arrival ∈ before ++ [last])
      (own : cut.Own arrival) : arrival ∈ before := by
    rcases List.mem_append.mp member with earlier | now
    · exact earlier
    · exact absurd (List.mem_singleton.mp now ▸ own) not_own
  rcases tracks.cases in_time with ⟨none_own, absent⟩ | ⟨entry, found, holds, young, first, member,
    own, created⟩
  · refine ⟨fun _ => ?_, fun member own => absurd own (none_own _ (earlier member own))⟩
    rcases process_foreign foreign last.now defrag with kept | evicted
    · rw [kept, absent]
    · rw [evicted, lookup_evict_of_none absent]
  · refine ⟨fun none_own => absurd own (none_own first (List.mem_append_left _ member)),
      fun _ _ => ⟨entry, ?_, ?_, first, List.mem_append_left _ member, own, created⟩⟩
    · rcases process_foreign foreign last.now defrag with kept | evicted
      · rw [kept, found]
      · rw [evicted, lookup_evict_of_young found young]
    · exact ⟨holds.count, fun found arrived => holds.present found ((same _).mp arrived),
        fun inside absent => holds.missing inside fun arrived => absent ((same _).mpr arrived)⟩

/-- A message of the packet goes into the entry of those before it, or a new one. -/
theorem Tracks.fills {defrag : Defrag} {before : List Arrival} (tracks : cut.Tracks defrag before)
    {last : Arrival} (in_time : cut.InTime (before ++ [last])) (here : cut.IsPart last index chunk)
    (several : 2 ≤ cut.chunks.length) :
    ∃ entry evicted, processUdpDatagram last.now last.raw defrag =
        fillPart (cut.message index chunk) entry evicted ∧
      cut.Holds (entry.put (castU8 index) chunk) (before ++ [last]) ∧
        ∃ first ∈ before ++ [last], cut.Own first ∧ entry.created = first.now := by
  rw [process_of_part (here.fragment several)]
  rcases tracks.cases in_time with ⟨none_own, absent⟩ | ⟨entry, found, holds, young, first, member,
    own, created⟩
  · have nothing (other : Nat) : ¬cut.Arrived before other := by
      rintro ⟨arrival, member, part, is_part⟩
      exact none_own arrival member ⟨other, part, is_part⟩
    have still : (evict last.now defrag).lookup (cut.message index chunk).packetId = none :=
      lookup_evict_of_none absent last.now
    exact ⟨_, _, assemble_of_none still, (holds_new nothing last.now).put here, last,
      List.mem_append_right _ (List.mem_singleton_self last), ⟨index, chunk, here⟩, rfl⟩
  · have kept : (evict last.now defrag).lookup (cut.message index chunk).packetId = some entry :=
      lookup_evict_of_young found young
    exact ⟨entry, _, assemble_of_young kept holds.count (Nat.le_of_lt young), holds.put here, first,
      List.mem_append_left _ member, own, created⟩

theorem Tracks.waits {defrag : Defrag} {before : List Arrival} (tracks : cut.Tracks defrag before)
    {last : Arrival} (in_time : cut.InTime (before ++ [last])) (here : cut.IsPart last index chunk)
    (inside : other < cut.chunks.length) (absent : ¬cut.Arrived (before ++ [last]) other) :
    (processUdpDatagram last.now last.raw defrag).1 = .ok none ∧
      cut.Tracks (processUdpDatagram last.now last.raw defrag).2 (before ++ [last]) := by
  have differs : index ≠ other := by
    rintro rfl
    exact absent (arrived_concat.mpr (.inr ⟨chunk, here⟩))
  have several : 2 ≤ cut.chunks.length := by
    have := index_lt here.1
    omega
  obtain ⟨entry, evicted, filled, holds, first, member, own, created⟩ :=
    tracks.fills in_time here several
  have open_ : (entry.put (cut.message index chunk).fragId
      (cut.message index chunk).payload).parts.any Option.isNone = true :=
    holds.open inside absent
  rw [filled, fillPart, if_pos open_]
  refine ⟨rfl, fun none_own => ?_, fun _ _ => ⟨_, AList.lookup_insert _, holds, first, member, own,
    created⟩⟩
  exact absurd ⟨index, chunk, here⟩
    (none_own last (List.mem_append_right _ (List.mem_singleton_self last)))

theorem Tracks.completes {defrag : Defrag} {before : List Arrival}
    (tracks : cut.Tracks defrag before) {last : Arrival} (in_time : cut.InTime (before ++ [last]))
    (here : cut.IsPart last index chunk) (inside : other < cut.chunks.length)
    (absent : ¬cut.Arrived before other)
    (all : ∀ index < cut.chunks.length, cut.Arrived (before ++ [last]) index) :
    (processUdpDatagram last.now last.raw defrag).1 =
        .ok (some (cut.destination, cut.chunks.flatten)) ∧
      (processUdpDatagram last.now last.raw defrag).2.lookup cut.packetId = none := by
  rcases Nat.lt_or_ge cut.chunks.length 2 with single | several
  · obtain ⟨only, shape⟩ := List.length_eq_one_iff.mp (show cut.chunks.length = 1 by omega)
    have none_own : ∀ arrival ∈ before, ¬cut.Own arrival := by
      rintro arrival member ⟨index', chunk', is_part⟩
      have same : index' = other := by
        have := index_lt is_part.1
        omega
      exact absent ⟨arrival, member, chunk', same ▸ is_part⟩
    have parsed : parseUdpMessage last.raw = .ok (cut.message index chunk) :=
      here.2 ▸ cut.parse_message index chunk
    have whole : chunk = cut.chunks.flatten := by
      have found := here.1
      have first : index = 0 := by
        have := index_lt found
        omega
      rw [first, shape] at found
      rw [shape, List.flatten_singleton]
      exact (Option.some.inj found).symm
    have processed : processUdpDatagram last.now last.raw defrag =
        (.ok (some (cut.destination, chunk)), defrag) := by
      have index_zero : index = 0 := by
        have := index_lt here.1
        omega
      simp only [processUdpDatagram, parsed, message, shape, List.length_singleton, index_zero]
      rfl
    rw [processed, whole]
    exact ⟨rfl, tracks.none_yet none_own⟩
  · obtain ⟨entry, evicted, filled, holds, -⟩ := tracks.fills in_time here several
    obtain ⟨closed, joined⟩ := holds.joined all
    have full : (entry.put (cut.message index chunk).fragId
        (cut.message index chunk).payload).parts.any Option.isNone = false := closed
    rw [filled, fillPart, if_neg (by rw [full]; exact Bool.false_ne_true)]
    exact ⟨congrArg (fun bytes => Except.ok (some (cut.destination, bytes))) joined,
      AList.lookup_erase _ _⟩

theorem InTime.mono {some_of arrivals : List Arrival} (in_time : cut.InTime arrivals)
    (subset : some_of ⊆ arrivals) : cut.InTime some_of :=
  fun first member own later among => in_time first (subset member) own later (subset among)

theorem tracks_defragAll {start : Defrag} (absent : start.lookup cut.packetId = none)
    {before : List Arrival}
    (known : ∀ arrival ∈ before, cut.Own arrival ∨ Foreign cut.packetId arrival.raw)
    (in_time : cut.InTime before) (inside : other < cut.chunks.length)
    (missing : ¬cut.Arrived before other) :
    cut.Tracks (defragAll start before) before := by
  induction before using List.reverseRecOn with
  | nil => exact ⟨fun _ => absent, fun member => absurd member List.not_mem_nil⟩
  | append_singleton before last ih =>
      have tracks := ih (fun arrival member => known arrival (List.mem_append_left _ member))
        (in_time.mono (List.subset_append_left ..))
        fun earlier => missing (arrived_concat.mpr (.inl earlier))
      rw [defragAll_concat]
      rcases known last (List.mem_append_right _ (List.mem_singleton_self last)) with
        ⟨index, chunk, here⟩ | foreign
      · exact (tracks.waits in_time here inside missing).2
      · exact tracks.foreign in_time foreign

theorem reassembles {start : Defrag} (absent : start.lookup cut.packetId = none)
    {before : List Arrival} {last : Arrival}
    (known : ∀ arrival ∈ before, cut.Own arrival ∨ Foreign cut.packetId arrival.raw)
    (own : cut.Own last) (inside : other < cut.chunks.length)
    (missing : ¬cut.Arrived before other)
    (all : ∀ index < cut.chunks.length, cut.Arrived (before ++ [last]) index)
    (in_time : cut.InTime (before ++ [last])) :
    (∀ earlier arrival later, before = earlier ++ arrival :: later → cut.Own arrival →
      (processUdpDatagram arrival.now arrival.raw (defragAll start earlier)).1 = .ok none) ∧
    (processUdpDatagram last.now last.raw (defragAll start before)).1 =
        .ok (some (cut.destination, cut.chunks.flatten)) ∧
      (processUdpDatagram last.now last.raw (defragAll start before)).2.lookup cut.packetId =
        none := by
  constructor
  · rintro earlier arrival later rfl ⟨index, chunk, here⟩
    have front : earlier ++ [arrival] ⊆ earlier ++ arrival :: later := by
      rw [List.append_cons earlier arrival later]
      exact List.subset_append_left ..
    have not_yet : ¬cut.Arrived (earlier ++ [arrival]) other := by
      rintro ⟨there, member, part, is_part⟩
      exact missing ⟨there, front member, part, is_part⟩
    have tracks := tracks_defragAll absent
      (fun there member => known there (List.mem_append_left _ member))
      (in_time.mono fun there member => List.mem_append_left _ (List.mem_append_left _ member))
      inside fun earlier => not_yet (arrived_concat.mpr (.inl earlier))
    exact (tracks.waits (in_time.mono fun there member => List.mem_append_left _ (front member))
      here inside not_yet).1
  · obtain ⟨index, chunk, here⟩ := own
    have tracks := tracks_defragAll absent known (in_time.mono (List.subset_append_left ..))
      inside missing
    exact tracks.completes in_time here inside missing all

end Cut

section Fragment

variable {sessionId : UInt32} {packetId : UInt16} {destination : String} {payload : Bytes}
  {maxSize : Nat} {messages : List UdpMessage}

theorem flatten_udpChunks (destination : String) (payload : Bytes) (maxSize : Nat) :
    (udpChunks destination payload maxSize).flatten = payload := by
  unfold udpChunks
  split
  · exact List.flatten_singleton
  · exact flatten_splitPayload _ payload

theorem length_udpChunks_le_iff (payload : Bytes) (room : udpHeaderSize destination < maxSize)
    {count : Nat} (positive : 0 < count) :
    (udpChunks destination payload maxSize).length ≤ count ↔
      payload.length ≤ count * (maxSize - udpHeaderSize destination) := by
  have size :
      max (maxSize - udpHeaderSize destination) 1 = maxSize - udpHeaderSize destination := by
    omega
  unfold udpChunks
  split
  · next fits =>
      refine iff_of_true positive ?_
      have := Nat.le_mul_of_pos_left (maxSize - udpHeaderSize destination) positive
      omega
  · rw [length_splitPayload_le_iff, size]

theorem length_chunk_le (room : udpHeaderSize destination < maxSize) {chunk : Bytes}
    (member : chunk ∈ udpChunks destination payload maxSize) :
    udpHeaderSize destination + chunk.length ≤ maxSize := by
  unfold udpChunks at member
  split at member
  · next fits =>
      cases List.mem_singleton.mp member
      omega
  · have := length_le_of_mem_splitPayload _ member
    omega

theorem fragmentUdpPayload_eq_some_iff :
    fragmentUdpPayload sessionId packetId destination payload maxSize = some messages ↔
      (udpChunks destination payload maxSize).length ≤ 255 ∧
        (udpChunks destination payload maxSize).zipIdx.map (fun (chunk, index) =>
          (⟨sessionId, packetId, castU8 index,
            castU8 (udpChunks destination payload maxSize).length, destination, chunk⟩ :
              UdpMessage)) = messages := by
  unfold fragmentUdpPayload
  dsimp only
  split
  · next few => exact Option.some_inj.trans (and_iff_right few).symm
  · next many => exact iff_of_false (Option.some_ne_none _).symm fun few => many few.1

/-- One of the messages, as it is sent. -/
def OneOf (messages : List UdpMessage) (raw : Bytes) : Prop :=
  ∃ message ∈ messages, raw = message.pack

/-- The messages arrive in any order, some of them repeatedly, among datagrams
that are none of the packet's, and with `last` the last of them is there.  The
packet was not in the table, and from any of its messages on less time than the
timeout passes. -/
structure Arrives (packetId : UInt16) (messages : List UdpMessage) (start : Defrag)
    (before : List Arrival) (last : Arrival) : Prop where
  unknown : start.lookup packetId = none
  known : ∀ arrival ∈ before, OneOf messages arrival.raw ∨ Foreign packetId arrival.raw
  own : OneOf messages last.raw
  missing : ∃ message ∈ messages, ∀ arrival ∈ before, arrival.raw ≠ message.pack
  all : ∀ message ∈ messages, ∃ arrival ∈ before ++ [last], arrival.raw = message.pack
  in_time : ∀ first ∈ before ++ [last], OneOf messages first.raw →
    ∀ later ∈ before ++ [last], later.now - first.now < udpFragmentTimeout

/-- Each message before the last leaves the packet open; the last gives the whole
of it and leaves no entry. -/
structure Reassembles (packetId : UInt16) (messages : List UdpMessage) (start : Defrag)
    (before : List Arrival) (last : Arrival) (whole : String × Bytes) : Prop where
  open_ : ∀ earlier arrival later, before = earlier ++ arrival :: later →
    OneOf messages arrival.raw →
      (processUdpDatagram arrival.now arrival.raw (defragAll start earlier)).1 = .ok none
  done : (processUdpDatagram last.now last.raw (defragAll start before)).1 = .ok (some whole)
  gone : (processUdpDatagram last.now last.raw (defragAll start before)).2.lookup packetId = none

theorem reassembles_of_arrives (cut : Cut) {start : Defrag} {before : List Arrival} {last : Arrival}
    (arrives : Arrives cut.packetId cut.messages start before last) :
    Reassembles cut.packetId cut.messages start before last
      (cut.destination, cut.chunks.flatten) := by
  have own {arrival : Arrival} : OneOf cut.messages arrival.raw ↔ cut.Own arrival := by
    constructor
    · rintro ⟨message, member, same⟩
      obtain ⟨index, chunk, found, rfl⟩ := cut.mem_messages.mp member
      exact ⟨index, chunk, found, same⟩
    · rintro ⟨index, chunk, found, same⟩
      exact ⟨_, cut.mem_messages.mpr ⟨index, chunk, found, rfl⟩, same⟩
  obtain ⟨message, member, lost⟩ := arrives.missing
  obtain ⟨other, part, found, rfl⟩ := cut.mem_messages.mp member
  have missing : ¬cut.Arrived before other := by
    rintro ⟨arrival, among, chunk, again, same⟩
    cases found.symm.trans again
    exact lost arrival among same
  have all (index : Nat) (inside : index < cut.chunks.length) :
      cut.Arrived (before ++ [last]) index := by
    have here := List.getElem?_eq_getElem inside
    obtain ⟨arrival, among, same⟩ :=
      arrives.all _ (cut.mem_messages.mpr ⟨index, _, here, rfl⟩)
    exact ⟨arrival, among, _, here, same⟩
  obtain ⟨waits, done, gone⟩ := Cut.reassembles arrives.unknown
    (fun arrival among => (arrives.known arrival among).imp_left own.mp) (own.mp arrives.own)
    (Cut.index_lt found) missing all
    (fun first among its => arrives.in_time first among (own.mpr its))
  exact ⟨fun earlier arrival later shape its => waits earlier arrival later shape (own.mp its),
    done, gone⟩

/-- A payload is refused only where 255 messages cannot hold it.  Otherwise every
message has room, and together they give the payload back. -/
theorem fragments_reassembled (sessionId : UInt32) (packetId : UInt16) {destination : String}
    (payload : Bytes) {maxSize : Nat} (addressed : 1 ≤ (asBytes destination).length)
    (short : (asBytes destination).length ≤ 2048) (room : udpHeaderSize destination < maxSize) :
    (fragmentUdpPayload sessionId packetId destination payload maxSize = none ↔
      255 * (maxSize - udpHeaderSize destination) < payload.length) ∧
    ∀ messages, fragmentUdpPayload sessionId packetId destination payload maxSize = some messages →
      (∀ message ∈ messages, message.pack.length ≤ maxSize) ∧
        ∀ start before last, Arrives packetId messages start before last →
          Reassembles packetId messages start before last (destination, payload) := by
  constructor
  · have count := length_udpChunks_le_iff payload room (show 0 < 255 by decide)
    rw [← not_iff_not, ← ne_eq, Option.ne_none_iff_exists', Nat.not_lt, ← count]
    simp only [fragmentUdpPayload_eq_some_iff, exists_and_left, exists_eq', and_true]
  · intro messages cut
    obtain ⟨few, rfl⟩ := fragmentUdpPayload_eq_some_iff.mp cut
    constructor
    · intro message member
      simp only [List.mem_map, Prod.exists] at member
      obtain ⟨chunk, index, among, rfl⟩ := member
      rw [UdpMessage.length_pack]
      exact length_chunk_le room (List.fst_mem_of_mem_zipIdx among)
    · intro start before last arrives
      have whole := reassembles_of_arrives
        ⟨sessionId, packetId, destination, udpChunks destination payload maxSize, addressed, short,
          few⟩ arrives
      rwa [flatten_udpChunks] at whole

def firstHalf : UdpMessage := ⟨1, 2, 0, 2, "a:1", [7]⟩

def secondHalf : UdpMessage := ⟨1, 2, 1, 2, "a:1", [8]⟩

/-- Two messages that arrive in the wrong order, one of them twice. -/
theorem fragments_reassembled_two :
    Reassembles 2 [firstHalf, secondHalf] ∅ [⟨5, secondHalf.pack⟩, ⟨6, secondHalf.pack⟩]
      ⟨7, firstHalf.pack⟩ ("a:1", [7, 8]) := by
  have cut : fragmentUdpPayload 1 2 "a:1" [7, 8] 13 = some [firstHalf, secondHalf] := by
    have chunks : udpChunks "a:1" [7, 8] 13 = [[7], [8]] := by
      have size : udpHeaderSize "a:1" = 12 := by decide
      rw [udpChunks, if_neg (by rw [size]; decide)]
      simp [splitPayload, size]
    rw [fragmentUdpPayload, chunks]
    rfl
  have early : ∀ later ∈ [⟨5, secondHalf.pack⟩, ⟨6, secondHalf.pack⟩] ++
      [(⟨7, firstHalf.pack⟩ : Arrival)], later.now ≤ 7 := by simp
  refine ((fragments_reassembled 1 2 [7, 8] (by decide) (by decide) (by decide)).2 _ cut).2
    ∅ _ _ ⟨AList.lookup_empty _, ?_, ⟨firstHalf, by simp, rfl⟩, ⟨firstHalf, by simp, ?_⟩, ?_, ?_⟩
  · intro arrival member
    refine .inl ⟨secondHalf, by simp, ?_⟩
    rcases List.mem_pair.mp member with rfl | rfl <;> rfl
  · intro arrival member
    rcases List.mem_pair.mp member with rfl | rfl <;> decide
  · intro message member
    rcases List.mem_pair.mp member with rfl | rfl
    · exact ⟨⟨7, firstHalf.pack⟩, by simp, rfl⟩
    · exact ⟨⟨5, secondHalf.pack⟩, by simp, rfl⟩
  · intro first _ _ later member
    have := early later member
    change _ < 10000000000
    omega

end Fragment

end Hysteria2

end QuicProxy
