import Mathlib.Data.List.AList

namespace QuicProxy

/-! Hash maps from which entries are thrown out by a test. -/

abbrev EntryMap (Key Value : Type) := AList fun _ : Key => Value

namespace EntryMap

variable {Key Value : Type}

def size (table : EntryMap Key Value) : Nat := table.entries.length

def retain (keep : Key → Value → Bool) (table : EntryMap Key Value) : EntryMap Key Value where
  entries := table.entries.filter fun entry => keep entry.1 entry.2
  nodupKeys := table.nodupKeys.sublist List.filter_sublist

theorem size_retain_le (keep : Key → Value → Bool) (table : EntryMap Key Value) :
    size (retain keep table) ≤ size table :=
  List.length_filter_le ..

theorem size_eq_length_keys (table : EntryMap Key Value) : size table = table.keys.length :=
  (List.length_map _).symm

variable [DecidableEq Key] {table : EntryMap Key Value} {key : Key} {value : Value}

@[simp] theorem lookup_retain (keep : Key → Value → Bool) (table : EntryMap Key Value)
    (key : Key) :
    (retain keep table).lookup key = (table.lookup key).filter (keep key) := by
  ext value
  rw [← Option.mem_def, AList.mem_lookup_iff, Option.filter_eq_some_iff, ← Option.mem_def,
    AList.mem_lookup_iff]
  exact List.mem_filter

theorem size_insert_of_none (absent : table.lookup key = none) (value : Value) :
    size (table.insert key value) = size table + 1 := by
  rw [size, AList.entries_insert_of_notMem (AList.lookup_eq_none.mp absent), List.length_cons]
  rfl

theorem size_insert_of_some (found : table.lookup key = some value) (other : Value) :
    size (table.insert key other) = size table := by
  have member : key ∈ table.keys := AList.mem_keys.mp (AList.lookup_isSome.mp (by rw [found]; rfl))
  have positive := List.length_pos_of_mem member
  rw [size_eq_length_keys, size_eq_length_keys, AList.keys_insert, List.length_cons,
    List.length_erase_of_mem member]
  omega

theorem size_erase_le (key : Key) (table : EntryMap Key Value) :
    size (table.erase key) ≤ size table := by
  rw [size_eq_length_keys, size_eq_length_keys, AList.keys_erase]
  exact List.length_erase_le

end EntryMap

end QuicProxy
