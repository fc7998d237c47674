import QuicProxy.Cache
import Mathlib.Algebra.BigOperators.Group.List.Basic
import Mathlib.Algebra.Ring.Nat

namespace QuicProxy

/-! The traffic of one destination, and the maps and tables of such entries
(`src/proxy/observe.rs`). -/

def u64Max : Nat := 18446744073709551615

def saturatingAdd (first second : Nat) : Nat := min (first + second) u64Max

def dstTrafficFlushThreshold : Nat := 256

structure DstTrafficEntry where
  domain : String
  ip : String
  outboundTag : String
  upload : Nat
  download : Nat
  lastActive : Nat
deriving DecidableEq

inductive Flow where
  | upload
  | download
deriving DecidableEq

namespace DstTrafficEntry

def amount (entry : DstTrafficEntry) : Flow → Nat
  | .upload => entry.upload
  | .download => entry.download

def absorb (entry newer : DstTrafficEntry) : DstTrafficEntry where
  domain := entry.domain
  ip := if newer.ip ≠ "" then newer.ip else entry.ip
  outboundTag := if newer.outboundTag ≠ "" then newer.outboundTag else entry.outboundTag
  upload := saturatingAdd entry.upload newer.upload
  download := saturatingAdd entry.download newer.download
  lastActive := max entry.lastActive newer.lastActive

/-- The occupied branch of `remove_connection`; unlike `absorb` it takes the
time of the newer entry as it is. -/
def count (entry newer : DstTrafficEntry) : DstTrafficEntry :=
  { entry.absorb newer with lastActive := newer.lastActive }

def Busy (entry : DstTrafficEntry) : Prop := entry.upload ≠ 0 ∨ entry.download ≠ 0

@[simp] theorem amount_absorb (entry newer : DstTrafficEntry) (flow : Flow) :
    (entry.absorb newer).amount flow = saturatingAdd (entry.amount flow) (newer.amount flow) := by
  cases flow <;> rfl

@[simp] theorem amount_count (entry newer : DstTrafficEntry) (flow : Flow) :
    (entry.count newer).amount flow = saturatingAdd (entry.amount flow) (newer.amount flow) := by
  cases flow <;> rfl

theorem Busy.count {entry : DstTrafficEntry} (busy : entry.Busy) (newer : DstTrafficEntry) :
    (entry.count newer).Busy := by
  simp only [Busy, DstTrafficEntry.count, absorb, saturatingAdd, u64Max] at busy ⊢
  omega

/-- The bytes that a list of entries holds for one destination. -/
def bytesTo (flow : Flow) (destination : String) (entries : List DstTrafficEntry) : Nat :=
  ((entries.filter (·.domain = destination)).map (·.amount flow)).sum

variable {flow : Flow} {destination : String}

@[simp] theorem bytesTo_nil : bytesTo flow destination [] = 0 := rfl

theorem bytesTo_cons (entry : DstTrafficEntry) (entries : List DstTrafficEntry) :
    bytesTo flow destination (entry :: entries) =
      (if entry.domain = destination then entry.amount flow else 0) +
        bytesTo flow destination entries := by
  by_cases same : entry.domain = destination <;> simp [bytesTo, same]

@[simp] theorem bytesTo_append (first second : List DstTrafficEntry) :
    bytesTo flow destination (first ++ second) =
      bytesTo flow destination first + bytesTo flow destination second := by
  simp [bytesTo]

theorem bytesTo_perm {first second : List DstTrafficEntry} (same : first.Perm second) :
    bytesTo flow destination first = bytesTo flow destination second :=
  ((same.filter _).map _).sum_eq

/-- Entries with traffic weigh nothing for every destination only when there
are none. -/
theorem eq_nil_of_bytesTo {entries : List DstTrafficEntry}
    (busy : ∀ entry ∈ entries, entry.Busy)
    (none : ∀ flow destination, bytesTo flow destination entries = 0) : entries = [] := by
  cases entries with
  | nil => rfl
  | cons entry rest =>
      have up := none .upload entry.domain
      have down := none .download entry.domain
      simp only [bytesTo_cons, if_true, amount] at up down
      have traffic := busy entry (List.mem_cons_self ..)
      simp only [Busy] at traffic
      omega

end DstTrafficEntry

/-- A map or table of entries, each under its own destination. -/
abbrev TrafficMap := KeyedTable DstTrafficEntry.domain

namespace TrafficMap

open DstTrafficEntry KeyedTable

/-- What the two merge functions of the source have in common. -/
structure Merges (merge : DstTrafficEntry → DstTrafficEntry → DstTrafficEntry) : Prop where
  domain : ∀ entry newer, (merge entry newer).domain = entry.domain
  amount : ∀ entry newer flow,
    (merge entry newer).amount flow = saturatingAdd (entry.amount flow) (newer.amount flow)

theorem merges_absorb : Merges absorb := ⟨fun _ _ => rfl, amount_absorb⟩

theorem merges_count : Merges DstTrafficEntry.count := ⟨fun _ _ => rfl, amount_count⟩

variable {merge : DstTrafficEntry → DstTrafficEntry → DstTrafficEntry}

/-- The entry update that `remove_connection` and the merges share. -/
def combine (merges : Merges merge) (map : TrafficMap) (entry : DstTrafficEntry) :
    TrafficMap where
  table := Cache.mergeEntry merge map.table (entry.domain, entry)
  keyed := by
    simp only [Cache.mergeEntry]
    split
    · rename_i current found
      have domain : (merge current entry).domain = entry.domain :=
        (merges.domain ..).trans (map.keyed _ _ found)
      have keyed := (map.put (merge current entry)).keyed
      simpa only [put, domain] using keyed
    · exact (map.put entry).keyed

def stored (map : TrafficMap) (flow : Flow) (destination : String) : Nat :=
  ((map.table.lookup destination).map (·.amount flow)).getD 0

def values (map : TrafficMap) : List DstTrafficEntry :=
  map.table.entries.map (·.2)

variable {flow : Flow} {destination : String}

@[simp] theorem stored_empty : stored empty flow destination = 0 := rfl

theorem stored_remove (map : TrafficMap) (key : String) :
    stored (map.remove key) flow destination =
      if key = destination then 0 else map.stored flow destination := by
  by_cases same : key = destination
  · subst same
    simp [stored, remove]
  · have other : destination ≠ key := Ne.symm same
    simp [stored, remove, AList.lookup_erase_ne other, same]

theorem stored_of_lookup {map : TrafficMap} {key : String} {entry : DstTrafficEntry}
    (found : map.table.lookup key = some entry) :
    map.stored flow key = entry.amount flow := by
  simp [stored, found]

theorem bytesTo_values (map : TrafficMap) :
    bytesTo flow destination map.values = map.stored flow destination := by
  obtain ⟨⟨entries, nodup⟩, keyed⟩ := map
  simp only [values, stored, AList.lookup] at keyed ⊢
  induction entries with
  | nil => rfl
  | cons row rest ih =>
      obtain ⟨key, entry⟩ := row
      have split := List.nodupKeys_cons.mp nodup
      have domain : entry.domain = key := keyed key entry (List.dlookup_cons_eq ..)
      have later : ∀ other value, rest.dlookup other = some value → value.domain = other := by
        intro other value found
        apply keyed other value
        have differs : other ≠ key := by
          intro same
          subst same
          rw [List.dlookup_eq_none.mpr split.1] at found
          cases found
        rw [List.dlookup_cons_ne _ _ differs]
        exact found
      have rest_eq := ih split.2 later
      simp only [List.map_cons, bytesTo_cons, rest_eq, domain]
      by_cases same : key = destination
      · subst same
        rw [List.dlookup_eq_none.mpr split.1, List.dlookup_cons_eq]
        simp
      · rw [List.dlookup_cons_ne _ _ (Ne.symm same)]
        simp [same]

theorem stored_combine (merges : Merges merge) (map : TrafficMap) (entry : DstTrafficEntry)
    (small : map.stored flow destination + bytesTo flow destination [entry] ≤ u64Max) :
    (map.combine merges entry).stored flow destination =
      map.stored flow destination + bytesTo flow destination [entry] := by
  simp only [bytesTo_cons, bytesTo_nil, Nat.add_zero] at small ⊢
  by_cases same : entry.domain = destination
  · subst same
    simp only [if_true] at small ⊢
    simp only [stored, combine, Cache.mergeEntry] at small ⊢
    split
    · rename_i current found
      simp only [found, Option.map_some, Option.getD_some] at small
      rw [AList.lookup_insert, Option.map_some, Option.getD_some, merges.amount, found,
        saturatingAdd]
      exact min_eq_left small
    · rename_i absent
      rw [AList.lookup_insert, absent]
      simp
  · have other : destination ≠ entry.domain := Ne.symm same
    simp only [stored, combine, Cache.mergeEntry, if_neg same, Nat.add_zero]
    split <;> rw [AList.lookup_insert_ne other]

/-- The loops of `merge_entries` and of `drain_dst_traffic`. -/
def mergeAll (map : TrafficMap) (entries : List DstTrafficEntry) : TrafficMap :=
  entries.foldl (combine merges_absorb) map

theorem table_mergeAll (map : TrafficMap) (entries : List DstTrafficEntry) :
    (map.mergeAll entries).table =
      (entries.map fun entry => (entry.domain, entry)).foldl (Cache.mergeEntry absorb)
        map.table := by
  induction entries generalizing map with
  | nil => rfl
  | cons entry rest ih => exact ih (map.combine merges_absorb entry)

theorem stored_mergeAll (map : TrafficMap) (entries : List DstTrafficEntry)
    (small : map.stored flow destination + bytesTo flow destination entries ≤ u64Max) :
    (map.mergeAll entries).stored flow destination =
      map.stored flow destination + bytesTo flow destination entries := by
  induction entries generalizing map with
  | nil => rfl
  | cons entry rest ih =>
      have split : bytesTo flow destination (entry :: rest) =
          bytesTo flow destination [entry] + bytesTo flow destination rest :=
        bytesTo_append [entry] rest
      rw [split] at small ⊢
      have first : (map.combine merges_absorb entry).stored flow destination =
          map.stored flow destination + bytesTo flow destination [entry] :=
        stored_combine merges_absorb map entry (by omega)
      change ((map.combine merges_absorb entry).mergeAll rest).stored flow destination = _
      rw [ih _ (by omega), first]
      omega

def mergeMany (fault : Option String) (items : List DstTrafficEntry) (map : TrafficMap) :
    Except String Unit × TrafficMap :=
  let result :=
    Cache.mergeMany fault absorb (items.map fun entry => (entry.domain, entry)) map.table
  (result.1, ⟨result.2, by
    simp only [result, Cache.mergeMany]
    split
    · exact map.keyed
    · cases fault with
      | some error => exact map.keyed
      | none =>
          simp only [Cache.commit, ← table_mergeAll]
          exact (map.mergeAll items).keyed⟩)

/-- What `drain_dst_traffic` has merged after the call to the cache, and what
is left in the cache. -/
def drain (fault : Option String) (map : TrafficMap) : TrafficMap × TrafficMap :=
  let result := Cache.drain fault map.table
  (⟨match result.1 with
    | .ok items => Cache.extend ∅ items
    | .error _ => ∅, by
      cases fault with
      | some error => simp [result, Cache.drain]
      | none =>
          simp only [result, Cache.drain, Cache.lookup_extend_entries]
          exact map.keyed⟩,
    ⟨result.2, by
      cases fault with
      | some error => exact map.keyed
      | none => simp [result, Cache.drain]⟩)

theorem stored_drain (fault : Option String) (map : TrafficMap) :
    (map.drain fault).1.stored flow destination + (map.drain fault).2.stored flow destination =
      map.stored flow destination := by
  cases fault with
  | some error => simp [drain, stored, Cache.drain]
  | none => simp [drain, stored, Cache.drain, Cache.lookup_extend_entries]

theorem mergeMany_failed (error : String) {items : List DstTrafficEntry} (some_item : items ≠ [])
    (map : TrafficMap) : map.mergeMany (some error) items = (.error error, map) := by
  cases items with
  | nil => exact absurd rfl some_item
  | cons item rest => rfl

theorem mergeMany_merged {fault : Option String} {items : List DstTrafficEntry}
    (fine : items = [] ∨ fault = none) (map : TrafficMap) :
    map.mergeMany fault items = (.ok (), map.mergeAll items) := by
  cases items with
  | nil => rfl
  | cons item rest =>
      have clean : fault = none := fine.resolve_left (List.cons_ne_nil item rest)
      subst clean
      refine Prod.ext rfl ?_
      have tables := table_mergeAll map (item :: rest)
      simp only [mergeMany, Cache.mergeMany, Cache.commit]
      congr 1
      exact tables.symm

end TrafficMap

end QuicProxy
