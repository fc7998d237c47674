import Mathlib.Data.List.AList

namespace QuicProxy

/-! `Cache<T>` (`src/cache`): one table of the store.  Every write is one
transaction, so an operation that fails leaves the table as it was.  `fault` is
the error that the store reports, if any. -/

abbrev Table (T : Type) := AList fun _ : String => T

namespace Cache

variable {T : Type}

def commit (fault : Option String) (table next : Table T) : Except String Unit × Table T :=
  match fault with
  | some error => (.error error, table)
  | none => (.ok (), next)

def get (fault : Option String) (key : String) (table : Table T) : Except String (Option T) :=
  match fault with
  | some error => .error error
  | none => .ok (table.lookup key)

def set (fault : Option String) (key : String) (value : T) (table : Table T) :
    Except String Unit × Table T :=
  commit fault table (table.insert key value)

def delete (fault : Option String) (key : String) (table : Table T) :
    Except String (Option T) × Table T :=
  match fault with
  | some error => (.error error, table)
  | none => (.ok (table.lookup key), table.erase key)

def list (fault : Option String) (table : Table T) :
    Except String (List (String × T)) :=
  match fault with
  | some error => .error error
  | none => .ok (table.entries.map fun entry => (entry.1, entry.2))

def mergeEntry (merge : T → T → T) (table : Table T) (item : String × T) : Table T :=
  match table.lookup item.1 with
  | some current => table.insert item.1 (merge current item.2)
  | none => table.insert item.1 item.2

def mergeMany (fault : Option String) (merge : T → T → T) (items : List (String × T))
    (table : Table T) : Except String Unit × Table T :=
  if items.isEmpty then (.ok (), table)
  else commit fault table (items.foldl (mergeEntry merge) table)

def drain (fault : Option String) (table : Table T) :
    Except String (List (String × T)) × Table T :=
  match fault with
  | some error => (.error error, table)
  | none => (.ok (table.entries.map fun entry => (entry.1, entry.2)), ∅)

/-- `HashMap::extend`, with the rows that a table gives. -/
def extend (table : Table T) (items : List (String × T)) : Table T :=
  items.foldl (fun table item => table.insert item.1 item.2) table

theorem lookup_extend {entries : List (Σ _ : String, T)} (nodup : entries.NodupKeys)
    (table : Table T) (key : String) :
    (extend table (entries.map fun entry => (entry.1, entry.2))).lookup key =
      (entries.dlookup key).or (table.lookup key) := by
  induction entries generalizing table with
  | nil => rfl
  | cons entry rest ih =>
      obtain ⟨name, value⟩ := entry
      have split := List.nodupKeys_cons.mp nodup
      change (extend (table.insert name value) _).lookup key = _
      rw [ih split.2]
      by_cases same : key = name
      · subst same
        have absent : rest.dlookup key = none := List.dlookup_eq_none.mpr split.1
        rw [absent, AList.lookup_insert, List.dlookup_cons_eq]
        rfl
      · rw [AList.lookup_insert_ne same, List.dlookup_cons_ne _ _ same]

theorem lookup_extend_entries (table : Table T) (key : String) :
    (extend ∅ (table.entries.map fun entry => (entry.1, entry.2))).lookup key =
      table.lookup key := by
  rw [lookup_extend table.nodupKeys, AList.lookup_empty, Option.or_none]
  rfl

end Cache

/-- A table whose rows are all stored under their own key. -/
structure KeyedTable {T : Type} (keyOf : T → String) where
  table : Table T
  keyed : ∀ key value, table.lookup key = some value → keyOf value = key

namespace KeyedTable

variable {T : Type} {keyOf : T → String}

def empty : KeyedTable keyOf := ⟨∅, by simp⟩

def put (rows : KeyedTable keyOf) (value : T) : KeyedTable keyOf where
  table := rows.table.insert (keyOf value) value
  keyed := by
    intro key found hit
    by_cases same : key = keyOf value
    · subst same
      rw [AList.lookup_insert] at hit
      cases hit
      rfl
    · rw [AList.lookup_insert_ne same] at hit
      exact rows.keyed key found hit

def remove (rows : KeyedTable keyOf) (key : String) : KeyedTable keyOf where
  table := rows.table.erase key
  keyed := by
    intro other found hit
    by_cases same : other = key
    · subst same
      rw [AList.lookup_erase] at hit
      cases hit
    · rw [AList.lookup_erase_ne same] at hit
      exact rows.keyed other found hit

theorem lookup_put_ne {rows : KeyedTable keyOf} {key : String} {value : T}
    (other : key ≠ keyOf value) : (rows.put value).table.lookup key = rows.table.lookup key :=
  AList.lookup_insert_ne other

theorem lookup_remove_ne {rows : KeyedTable keyOf} {key removed : String}
    (other : key ≠ removed) : (rows.remove removed).table.lookup key = rows.table.lookup key :=
  AList.lookup_erase_ne other

def set (fault : Option String) (value : T) (rows : KeyedTable keyOf) :
    Except String Unit × KeyedTable keyOf :=
  match fault with
  | some error => (.error error, rows)
  | none => (.ok (), rows.put value)

def delete (fault : Option String) (key : String) (rows : KeyedTable keyOf) :
    Except String (Option T) × KeyedTable keyOf :=
  match fault with
  | some error => (.error error, rows)
  | none => (.ok (rows.table.lookup key), rows.remove key)

end KeyedTable

end QuicProxy
