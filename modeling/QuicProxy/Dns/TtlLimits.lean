import QuicProxy.Dns.Exchange
import QuicProxy.Dns.ResponseCache
import Mathlib.Data.List.MinMax

namespace QuicProxy

/-! The TTLs of the DNS responses (`src/dns/mod.rs`, `src/dns/cache.rs`): the
limits of the configuration as they come in, the expiry that a response is stored
with, and what is left of it when the response is served. -/

namespace Dns

def Packet.records (packet : Packet) : List ResourceRecord :=
  packet.answers ++ packet.nameServers ++ packet.additionalRecords

@[simp] theorem Packet.records_mapRecords (packet : Packet)
    (change : ResourceRecord → ResourceRecord) :
    (packet.mapRecords change).records = packet.records.map change := by
  simp only [records, mapRecords, List.map_append]

/-! The limits. -/

/-- `apply_ttl_to_response`; the seconds of a limit are cut to 32 bits. -/
def applyTtlToResponse (minTtl maxTtl : Option UInt64) (packet : Packet) :
    Packet × Option UInt32 :=
  applyTtl (minTtl.map (·.toUInt32)) (maxTtl.map (·.toUInt32)) packet

def limited (minTtl maxTtl : Option UInt64) (ttl : UInt32) : Nat :=
  let low := minTtl.elim ttl.toNat fun least => max ttl.toNat least.toNat
  maxTtl.elim low fun most => min low most.toNat

structure LimitsApplied (minTtl maxTtl : Option UInt64) (packet : Packet) : Prop where
  records : (applyTtlToResponse minTtl maxTtl packet).1.records.map (·.ttl.toNat) =
    packet.records.map (limited minTtl maxTtl ·.ttl)
  least : (applyTtlToResponse minTtl maxTtl packet).2.map (·.toNat) =
    (packet.records.map (limited minTtl maxTtl ·.ttl)).min?

/-- What is cut off the limits makes no difference to a record: a minimum that
does not fit in 32 bits is under a maximum that fits and is reached, and a maximum
that does not fit is not reached, nor are its low bits. -/
structure Untruncated (minTtl maxTtl : Option UInt64) (ttl : UInt32) : Prop where
  least : ∀ least ∈ minTtl, 2 ^ 32 ≤ least.toNat → ∃ most ∈ maxTtl, most.toNat < 2 ^ 32 ∧
    (most.toNat ≤ ttl.toNat ∨ most.toNat ≤ least.toNat % 2 ^ 32)
  most : ∀ most ∈ maxTtl, 2 ^ 32 ≤ most.toNat → ttl.toNat ≤ most.toNat % 2 ^ 32 ∧
    ∀ least ∈ minTtl, least.toNat < 2 ^ 32 ∧ least.toNat ≤ most.toNat % 2 ^ 32

theorem toNat_effectiveTtl (minTtl maxTtl : Option UInt32) (ttl : UInt32) :
    (effectiveTtl minTtl maxTtl ttl).toNat =
      let low := minTtl.elim ttl.toNat fun least => max ttl.toNat least.toNat
      maxTtl.elim low fun most => min low most.toNat := by
  have raised : (minTtl.elim ttl fun least => if ttl < least then least else ttl).toNat =
      minTtl.elim ttl.toNat fun least => max ttl.toNat least.toNat := by
    cases minTtl with
    | none => rfl
    | some least =>
        simp only [Option.elim_some, UInt32.lt_iff_toNat_lt]
        split <;> omega
  cases maxTtl with
  | none => exact raised
  | some most =>
      simp only [effectiveTtl, Option.elim_some, UInt32.lt_iff_toNat_lt, ← raised]
      split <;> omega

theorem effectiveTtl_eq_iff (minTtl maxTtl : Option UInt64) (ttl : UInt32) :
    (effectiveTtl (minTtl.map (·.toUInt32)) (maxTtl.map (·.toUInt32)) ttl).toNat =
      limited minTtl maxTtl ttl ↔ Untruncated minTtl maxTtl ttl := by
  have small := ttl.toNat_lt
  rw [toNat_effectiveTtl, limited]
  rcases minTtl with _ | least <;> rcases maxTtl with _ | most
  · exact ⟨fun _ => ⟨nofun, nofun⟩, fun _ => rfl⟩
  · simp only [Option.map_none, Option.map_some, Option.elim_none, Option.elim_some,
      UInt64.toNat_toUInt32]
    constructor
    · intro same
      refine ⟨nofun, ?_⟩
      rintro _ ⟨⟩ large
      exact ⟨by omega, nofun⟩
    · intro kept
      by_cases large : 2 ^ 32 ≤ most.toNat
      · have := (kept.most most rfl large).1
        omega
      · omega
  · simp only [Option.map_none, Option.map_some, Option.elim_none, Option.elim_some,
      UInt64.toNat_toUInt32]
    constructor
    · intro same
      refine ⟨?_, nofun⟩
      rintro _ ⟨⟩ large
      omega
    · intro kept
      by_cases large : 2 ^ 32 ≤ least.toNat
      · obtain ⟨_, ⟨⟩, -⟩ := kept.least least rfl large
      · omega
  · simp only [Option.map_some, Option.elim_some, UInt64.toNat_toUInt32]
    constructor
    · intro same
      constructor
      · rintro _ ⟨⟩ large
        exact ⟨most, rfl, by omega, by omega⟩
      · rintro _ ⟨⟩ large
        refine ⟨by omega, ?_⟩
        rintro _ ⟨⟩
        omega
    · intro kept
      by_cases large : 2 ^ 32 ≤ least.toNat
      · obtain ⟨_, ⟨⟩, fits, reached⟩ := kept.least least rfl large
        omega
      · by_cases larger : 2 ^ 32 ≤ most.toNat
        · obtain ⟨under, both⟩ := kept.most most rfl larger
          have := both least rfl
          omega
        · omega

theorem min?_map_toNat (ttls : List UInt32) :
    ttls.min?.map (·.toNat) = (ttls.map (·.toNat)).min? := by
  cases ttls with
  | nil => rfl
  | cons first rest =>
      rw [List.min?_cons', List.map_cons, List.min?_cons', List.foldl_map, Option.map_some]
      refine congrArg some (List.foldl_hom UInt32.toNat fun least ttl => ?_).symm
      simp only [UInt32.min_def, UInt32.le_iff_toNat_le]
      split <;> omega

theorem limitsApplied_iff (minTtl maxTtl : Option UInt64) (packet : Packet) :
    LimitsApplied minTtl maxTtl packet ↔
      ∀ record ∈ packet.records, Untruncated minTtl maxTtl record.ttl := by
  have changed : (applyTtlToResponse minTtl maxTtl packet).1.records.map (·.ttl.toNat) =
      packet.records.map fun record => (effectiveTtl (minTtl.map (·.toUInt32))
        (maxTtl.map (·.toUInt32)) record.ttl).toNat := by
    simp only [applyTtlToResponse, applyTtl, Packet.records_mapRecords, List.map_map]
    rfl
  have returned : (applyTtlToResponse minTtl maxTtl packet).2.map (·.toNat) =
      ((applyTtlToResponse minTtl maxTtl packet).1.records.map (·.ttl.toNat)).min? := by
    have least := min?_map_toNat ((applyTtlToResponse minTtl maxTtl packet).1.records.map (·.ttl))
    rw [List.map_map] at least
    exact least
  constructor
  · intro applied record member
    refine (effectiveTtl_eq_iff minTtl maxTtl record.ttl).mp ?_
    exact List.map_inj_left.mp (changed.symm.trans applied.records) record member
  · intro untruncated
    have same : packet.records.map (fun record => (effectiveTtl (minTtl.map (·.toUInt32))
        (maxTtl.map (·.toUInt32)) record.ttl).toNat) =
          packet.records.map (limited minTtl maxTtl ·.ttl) :=
      List.map_congr_left fun record member =>
        (effectiveTtl_eq_iff minTtl maxTtl record.ttl).mpr (untruncated record member)
    exact ⟨changed.trans same, by rw [returned, changed, same]⟩

/-! The lifetime. -/

/-- What `exchange_and_store` gives to `set`, for a response of upstream. -/
def SimpleDns.toStore (dns : SimpleDns) (minTtl maxTtl : Option UInt64) (packet : Packet) :
    Option (Bytes × UInt64) :=
  let applied := applyTtlToResponse minTtl maxTtl packet
  (applied.2.filter (0 < ·)).bind fun ttl => (dns.build applied.1).toOption.map (·, ttl.toUInt64)

/-- The seconds that are left, as `cached_response` gives them to `cap_record_ttls`. -/
def remainingTtl (expiry now : UInt64) : UInt32 :=
  UInt32.ofNat (min (expiry.toNat - now.toNat) (2 ^ 32 - 1))

/-- `cached_response`, from what `get` gives and from the clock after it. -/
def SimpleDns.cachedResponse (dns : SimpleDns) (found : Option Entry) (now : UInt64)
    (id : UInt16) : Except String (Option Packet) :=
  match found with
  | none => .ok none
  | some entry =>
      (dns.responseWithId entry.response id).map fun packet =>
        some (capRecordTtls packet (remainingTtl entry.expiry now))

def StoredFor (dns : SimpleDns) (response : Bytes) (least : UInt32) : Prop :=
  ∃ minTtl maxTtl packet, (applyTtlToResponse minTtl maxTtl packet).2 = some least ∧
    dns.build (applyTtlToResponse minTtl maxTtl packet).1 = .ok response

structure TimedCache where
  cache : CacheConfig
  clock : UInt64

namespace TimedCache

def step (timed : TimedCache) (event : CacheEvent) : Option TimedCache :=
  (DnsCache.program.step timed.cache event).map fun cache =>
    match event with
    | .start _ => ⟨cache, timed.clock⟩
    | .advance _ choice => ⟨cache, choice.now⟩

/-- The clock does not move backwards, and `exchange_and_store` makes the sets. -/
def Timely (dns : SimpleDns) (timed : TimedCache) : CacheEvent → Prop
  | .start (.set response ttl) =>
      ∃ minTtl maxTtl packet, dns.toStore minTtl maxTtl packet = some (response, ttl)
  | .start _ => True
  | .advance _ choice => timed.clock ≤ choice.now

/-- What a `get` has given is served at a time `now`; when that is not before the
expiry any more, no time is left to any record. -/
structure Served (dns : SimpleDns) (begun : Begun) (entry : Entry) (now : UInt64)
    (packet : Packet) : Prop where
  unexpired : begun.now < entry.expiry
  capped : ∀ record ∈ packet.records, record.ttl.toNat ≤ entry.expiry.toNat - now.toNat
  bounded : ∃ least, StoredFor dns entry.response least ∧
    entry.expiry.toNat - now.toNat ≤ least.toNat

def ServesWithin (dns : SimpleDns) (timed : TimedCache) : Prop :=
  ∀ begun result, .returned begun result ∈ timed.cache.calls → ∀ now, timed.clock ≤ now →
    ∀ id packet, dns.cachedResponse result now id = .ok (some packet) →
      ∃ entry, result = some entry ∧ Served dns begun entry now packet

/-- An entry that has been set by now. -/
def Dated (dns : SimpleDns) (clock : UInt64) (entry : Entry) : Prop :=
  ∃ set least, set ≤ clock ∧ StoredFor dns entry.response least ∧
    entry.expiry = set + least.toUInt64

/-- What an earlier process has left on disk has been set as well. -/
def initial (stored : Option Bytes) (clock : UInt64) : TimedCache :=
  ⟨DnsCache.initial stored, clock⟩

/-! What the calls hold. -/

def Holds (dns : SimpleDns) (clock : UInt64) : CacheCall → Prop
  | .promoting begun entry _ | .returned begun (some entry) =>
      Dated dns clock entry ∧ begun.now < entry.expiry
  | .setting response ttl => ∃ least, StoredFor dns response least ∧ ttl = least.toUInt64
  | .remembering set | .storing set => Dated dns clock set.entry
  | _ => True

structure Kept (dns : SimpleDns) (timed : TimedCache) : Prop where
  memory : ∀ entry ∈ timed.cache.shared.memory, Dated dns timed.clock entry
  disk : ∀ record ∈ timed.cache.shared.disk, ∀ entry ∈ record.entry?, Dated dns timed.clock entry
  calls : ∀ call ∈ timed.cache.calls, Holds dns timed.clock call

variable {dns : SimpleDns}

theorem Dated.later {clock later : UInt64} {entry : Entry} (dated : Dated dns clock entry)
    (onward : clock ≤ later) : Dated dns later entry := by
  obtain ⟨set, least, before, rest⟩ := dated
  exact ⟨set, least, UInt64.le_trans before onward, rest⟩

theorem Holds.later {clock later : UInt64} {call : CacheCall} (holds : Holds dns clock call)
    (onward : clock ≤ later) : Holds dns later call := by
  cases call with
  | promoting begun entry writes => exact ⟨holds.1.later onward, holds.2⟩
  | returned begun result =>
      cases result with
      | none => trivial
      | some entry => exact ⟨holds.1.later onward, holds.2⟩
  | remembering set | storing set => exact Dated.later holds onward
  | setting response ttl => exact holds
  | getting | looking | expiring | reading | deleting | stored | removing | forgetting | removed
  | evicting | evicted => trivial

/-- The lifetime that is left is at most the one that it has been stored with. -/
theorem Dated.remaining_le {clock now : UInt64} {entry : Entry} (dated : Dated dns clock entry)
    (onward : clock ≤ now) : ∃ least, StoredFor dns entry.response least ∧
      entry.expiry.toNat - now.toNat ≤ least.toNat := by
  obtain ⟨set, least, before, stored, expires⟩ := dated
  refine ⟨least, stored, ?_⟩
  have sum : entry.expiry.toNat = (set.toNat + least.toNat) % 2 ^ 64 := by
    rw [expires, UInt64.toNat_add, UInt32.toNat_toUInt64]
  have order := UInt64.le_iff_toNat_le.mp (UInt64.le_trans before onward)
  have := Nat.mod_le (set.toNat + least.toNat) (2 ^ 64)
  omega

theorem toNat_remainingTtl_le (expiry now : UInt64) :
    (remainingTtl expiry now).toNat ≤ expiry.toNat - now.toNat := by
  rw [remainingTtl, UInt32.toNat_ofNat']
  exact Nat.le_trans (Nat.mod_le _ _) (Nat.min_le_left _ _)

theorem Kept.servesWithin {timed : TimedCache} (kept : Kept dns timed) :
    ServesWithin dns timed := by
  intro begun result member now onward id packet served
  cases result with
  | none => cases served
  | some entry =>
      obtain ⟨dated, unexpired⟩ := kept.calls _ member
      rw [SimpleDns.cachedResponse] at served
      cases parsed : dns.responseWithId entry.response id with
      | error error =>
          rw [parsed] at served
          cases served
      | ok read =>
          rw [parsed] at served
          cases served
          refine ⟨entry, rfl, unexpired, fun record capped => ?_, dated.remaining_le onward⟩
          rw [capRecordTtls, Packet.records_mapRecords] at capped
          obtain ⟨whole, -, rfl⟩ := List.mem_map.mp capped
          refine Nat.le_trans ?_ (toNat_remainingTtl_le entry.expiry now)
          simp only [UInt32.min_def, UInt32.le_iff_toNat_le]
          split <;> omega

theorem SimpleDns.toStore_eq {minTtl maxTtl : Option UInt64} {packet : Packet}
    {response : Bytes} {ttl : UInt64}
    (made : dns.toStore minTtl maxTtl packet = some (response, ttl)) :
    ∃ least, StoredFor dns response least ∧ ttl = least.toUInt64 := by
  obtain ⟨least, kept, whole⟩ := Option.bind_eq_some_iff.mp made
  obtain ⟨returned, -⟩ := Option.filter_eq_some_iff.mp kept
  obtain ⟨bytes, built, same⟩ := Option.map_eq_some_iff.mp whole
  cases same
  refine ⟨least, ⟨minTtl, maxTtl, packet, returned, ?_⟩, rfl⟩
  cases result : dns.build (applyTtlToResponse minTtl maxTtl packet).1 with
  | error error =>
      rw [result] at built
      cases built
  | ok written =>
      rw [result] at built
      cases built
      rfl

section Step

variable {timed : TimedCache} {before after : List CacheCall} {call moved : CacheCall}
variable {next : DnsCache} {now : UInt64}

theorem Kept.change (kept : Kept dns timed) (shape : timed.cache.calls = before ++ call :: after)
    (onward : timed.clock ≤ now)
    (memory : ∀ entry ∈ next.memory, entry ∈ timed.cache.shared.memory ∨ Dated dns now entry)
    (disk : ∀ record ∈ next.disk, record ∈ timed.cache.shared.disk ∨
      ∀ entry ∈ record.entry?, Dated dns now entry)
    (own : Holds dns now moved) : Kept dns ⟨⟨next, before ++ moved :: after⟩, now⟩ where
  memory := fun entry member =>
    (memory entry member).elim (fun held => (kept.memory entry held).later onward) id
  disk := fun record member entry found =>
    (disk record member).elim (fun held => (kept.disk record held entry found).later onward)
      fun new => new entry found
  calls := Pool.forall_act (shape ▸ kept.calls) (fun _ => own) fun _ holds => holds.later onward

theorem holds_read (kept : Kept dns timed) (begun : Begun) (onward : timed.clock ≤ now) :
    Holds dns now (CacheCall.read timed.cache.shared begun) := by
  rw [CacheCall.read]
  split
  · trivial
  · rename_i record held
    split
    · trivial
    · rename_i entry found
      split
      · rename_i unexpired
        exact ⟨(kept.disk record held entry found).later onward, unexpired⟩
      · trivial

theorem Kept.act {choice : CacheChoice} (kept : Kept dns timed)
    (shape : timed.cache.calls = before ++ call :: after) (onward : timed.clock ≤ choice.now)
    (acted : call.act timed.cache.shared choice = some (next, moved)) :
    Kept dns ⟨⟨next, before ++ moved :: after⟩, choice.now⟩ := by
  have holds : Holds dns choice.now call := (kept.calls call (by rw [shape]; simp)).later onward
  cases call with
  | getting =>
      cases acted
      exact kept.change shape onward (fun _ => Or.inl) (fun _ => Or.inl) trivial
  | looking begun =>
      simp only [CacheCall.act] at acted
      split at acted
      · rename_i entry found
        cases acted
        obtain ⟨held, unexpired⟩ := Option.filter_eq_some_iff.mp found
        exact kept.change shape onward (fun _ => Or.inl) (fun _ => Or.inl)
          ⟨(kept.memory entry held).later onward, of_decide_eq_true unexpired⟩
      · cases acted
        exact kept.change shape onward (fun _ => Or.inl) (fun _ => Or.inl) trivial
  | expiring begun =>
      cases acted
      refine kept.change shape onward (fun entry member => Or.inl ?_) (fun _ => Or.inl) trivial
      exact (Option.filter_eq_some_iff.mp member).1
  | reading begun =>
      cases acted
      refine kept.change shape onward (fun _ => Or.inl) (fun _ => Or.inl) ?_
      split
      · trivial
      · exact holds_read kept begun onward
  | promoting begun entry writes =>
      cases acted
      refine kept.change shape onward ?_ (fun _ => Or.inl) holds
      rintro _ ⟨⟩
      exact Or.inr holds.1
  | deleting begun =>
      cases acted
      refine kept.change shape onward (fun _ => Or.inl) (fun record member => Or.inl ?_) trivial
      split at member
      · exact member
      · cases member
  | setting response ttl =>
      cases acted
      obtain ⟨least, stored, rfl⟩ := holds
      exact kept.change shape onward (fun _ => Or.inl) (fun _ => Or.inl)
        ⟨choice.now, least, UInt64.le_refl _, stored, rfl⟩
  | remembering set =>
      cases acted
      refine kept.change shape onward ?_ (fun _ => Or.inl) holds
      rintro _ ⟨⟩
      exact Or.inr holds
  | storing set =>
      cases acted
      refine kept.change shape onward (fun _ => Or.inl) (fun record member => ?_) trivial
      split at member
      · exact Or.inl member
      · cases member
        refine Or.inr fun entry found => ?_
        rw [DnsCache.entry?_record found]
        exact holds
  | removing | evicting =>
      cases acted
      refine kept.change shape onward ?_ (fun _ => Or.inl) trivial
      rintro _ ⟨⟩
  | forgetting =>
      cases acted
      refine kept.change shape onward (fun _ => Or.inl) (fun record member => Or.inl ?_) trivial
      split at member
      · exact member
      · cases member
  | returned | stored | removed | evicted => cases acted

theorem Kept.start (kept : Kept dns timed) {request : CacheRequest}
    (timely : Timely dns timed (.start request)) :
    Kept dns ⟨⟨timed.cache.shared, timed.cache.calls ++ [CacheCall.start request]⟩,
      timed.clock⟩ where
  memory := kept.memory
  disk := kept.disk
  calls := by
    refine Pool.forall_start kept.calls ?_
    cases request with
    | set response ttl =>
        obtain ⟨minTtl, maxTtl, packet, made⟩ := timely
        exact SimpleDns.toStore_eq made
    | get | remove | evict => trivial

theorem Kept.step {next : TimedCache} {event : CacheEvent} (kept : Kept dns timed)
    (timely : Timely dns timed event) (taken : timed.step event = some next) :
    Kept dns next := by
  obtain ⟨cache, stepped, rfl⟩ := Option.map_eq_some_iff.mp taken
  rcases Pool.Program.step_cases stepped with
    ⟨request, rfl, rfl⟩ | ⟨before, call, after, choice, shared, moved, rfl, shape, acted, rfl⟩
  · exact kept.start timely
  · exact kept.act shape timely acted

end Step

theorem kept_initial {stored : Option Bytes} {clock : UInt64}
    (earlier : ∀ raw ∈ stored, ∀ entry ∈ Record.entry? ⟨raw, 0⟩, Dated dns clock entry) :
    Kept dns (initial stored clock) where
  memory := nofun
  disk := by
    rintro record member entry found
    obtain ⟨raw, present, rfl⟩ := Option.map_eq_some_iff.mp member
    exact earlier raw present entry found
  calls := nofun

theorem servesWithin_of_timely {stored : Option Bytes} {clock : UInt64}
    (earlier : ∀ raw ∈ stored, ∀ entry ∈ Record.entry? ⟨raw, 0⟩, Dated dns clock entry)
    {events : List CacheEvent}
    (timely : Machine.Within step (Timely dns) (initial stored clock) events) :
    Machine.Throughout step (ServesWithin dns) (initial stored clock) events := by
  have kept : Machine.Throughout step (Kept dns) (initial stored clock) events :=
    Machine.throughout_of_within (Kept dns) (fun here allowed taken => here.step allowed taken)
      (kept_initial earlier) timely
  exact Machine.throughout_mono Kept.servesWithin kept

/-- The limits are those of the configuration exactly for the records that what
is cut off them makes no difference to; no response outlives the TTLs that it has
been stored with. -/
theorem limits_and_lifetimes (dns : SimpleDns) :
    (∀ minTtl maxTtl packet, LimitsApplied minTtl maxTtl packet ↔
      ∀ record ∈ packet.records, Untruncated minTtl maxTtl record.ttl) ∧
    ∀ stored clock events,
      (∀ raw ∈ stored, ∀ entry ∈ Record.entry? ⟨raw, 0⟩, Dated dns clock entry) →
      Machine.Within step (Timely dns) (initial stored clock) events →
        Machine.Throughout step (ServesWithin dns) (initial stored clock) events :=
  ⟨limitsApplied_iff, fun _ _ _ earlier timely => servesWithin_of_timely earlier timely⟩

/-- A response that is stored at 100 and asked for at 110. -/
def setAndGet : List CacheEvent :=
  [.start (.set DnsServer.wantedBytes 60), .advance 0 ⟨100, false⟩, .advance 0 ⟨100, false⟩,
    .advance 0 ⟨101, false⟩, .start .get, .advance 1 ⟨110, false⟩, .advance 1 ⟨110, false⟩]

theorem lifetimes_setAndGet :
    LimitsApplied (some 30) (some 300) DnsServer.wanted ∧
      Machine.Throughout step (ServesWithin DnsServer.twoResponses) (initial none 100) setAndGet ∧
      ∃ final, Machine.run step (initial none 100) setAndGet = some final ∧
        final.cache.calls[1]? =
          some (.returned ⟨110, [⟨0, []⟩], 0⟩ (some ⟨DnsServer.wantedBytes, 160, 0⟩)) ∧
        DnsServer.twoResponses.cachedResponse (some ⟨DnsServer.wantedBytes, 160, 0⟩) 120 8 =
          .ok (some (capRecordTtls { DnsServer.wanted with id := 8 } 40)) := by
  obtain ⟨limits, lifetimes⟩ := limits_and_lifetimes DnsServer.twoResponses
  refine ⟨(limits (some 30) (some 300) DnsServer.wanted).mpr fun _ _ => ⟨?_, ?_⟩,
    lifetimes none 100 setAndGet nofun ?_, _, rfl, rfl, rfl⟩
  · rintro _ ⟨⟩ large
    exact absurd large (by decide)
  · rintro _ ⟨⟩ large
    exact absurd large (by decide)
  · refine (Machine.within_cons_iff rfl).mpr ⟨⟨none, none, DnsServer.wanted, by decide⟩, ?_⟩
    refine (Machine.within_cons_iff rfl).mpr ⟨UInt64.le_refl 100, ?_⟩
    refine (Machine.within_cons_iff rfl).mpr ⟨UInt64.le_refl 100, ?_⟩
    refine (Machine.within_cons_iff rfl).mpr ⟨(by decide : (100 : UInt64) ≤ 101), ?_⟩
    refine (Machine.within_cons_iff rfl).mpr ⟨trivial, ?_⟩
    refine (Machine.within_cons_iff rfl).mpr ⟨(by decide : (101 : UInt64) ≤ 110), ?_⟩
    exact (Machine.within_cons_iff rfl).mpr ⟨UInt64.le_refl 110, trivial⟩

/-- A maximum of 2^32 seconds is one of none. -/
theorem maximum_is_cut_off :
    (applyTtlToResponse none (some 4294967296) DnsServer.wanted).2 = some 0 ∧
      limited none (some 4294967296) 60 = 60 ∧
        ¬LimitsApplied none (some 4294967296) DnsServer.wanted := by
  refine ⟨by decide, by decide, fun applied => ?_⟩
  exact absurd applied.least (by decide)

end TimedCache

end Dns

end QuicProxy
