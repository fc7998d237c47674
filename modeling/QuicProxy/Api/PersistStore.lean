import QuicProxy.Cache
import QuicProxy.Data.Pool

namespace QuicProxy

/-! The store of the web front end: a map in memory, which every change writes to a
file (`src/api/persist_store.rs`). -/

/-- `DashMap` keeps its keys in shards, and an iteration locks one at a time. -/
structure Sharding where
  count : Nat
  shardOf : String → Nat
  bound : ∀ key, shardOf key < count

abbrev Rows := List (String × String)

/-- The file, which is replaced as a whole, has the rows of its JSON text; there is
none where it is missing or cannot be read. -/
structure PersistStore where
  data : Table String
  file : Option Rows

namespace PersistStore

inductive Edit where
  | insert (key value : String)
  | remove (key : String)
deriving DecidableEq

/-- A call by the place it has reached, with the keys that it has changed. -/
inductive Call where
  | deleting (key : String)
  | editing (edits : List Edit) (changed : List String)
  | locking (changed : List String)
  | reading (changed : List String) (rows : Rows) (shard : Nat)
  | writing (changed : List String) (rows : Rows)
  | replacing (changed : List String) (rows : Rows)
  | returned
  /-- The file has not been written. -/
  | failed (changed : List String)
deriving DecidableEq

inductive Request where
  | setAndFlush (key value : String)
  | deleteAndFlush (key : String)
  | deleteMultiAndFlush (keys : List String)

/-- What the file system says. -/
inductive Answer where
  | ok
  | failed
deriving DecidableEq

abbrev Config := Pool.Config PersistStore Call

namespace Call

def edit : List Edit → List String → Call
  | [], changed => locking changed
  | edits, changed => editing edits changed

def start : Request → Call
  | .setAndFlush key value => edit [.insert key value] []
  | .deleteAndFlush key => deleting key
  | .deleteMultiAndFlush keys => edit (keys.map Edit.remove) []

/-- The call has the guard of `flush_lock`. -/
def holds : Call → Bool
  | reading _ _ _ | writing _ _ | replacing _ _ => true
  | _ => false

end Call

def Edit.key : Edit → String
  | insert key _ | remove key => key

def apply (data : Table String) : Edit → Table String
  | .insert key value => data.insert key value
  | .remove key => data.erase key

/-- `load_from_disk`. -/
def load (file : Option Rows) : Table String := Cache.extend ∅ (file.getD [])

/-- The rows of one shard. -/
def shardRows (sharding : Sharding) (data : Table String) (shard : Nat) : Rows :=
  (data.entries.filter fun entry => sharding.shardOf entry.1 == shard).map
    fun entry => (entry.1, entry.2)

def Free (config : Config) : Prop := ∀ call ∈ config.calls, call.holds = false

instance (config : Config) : Decidable (Free config) :=
  inferInstanceAs (Decidable (∀ call ∈ config.calls, _))

variable (sharding : Sharding)

def act (config : Config) (call : Call) (answer : Answer) : Option (PersistStore × Call) :=
  let store := config.shared
  match call, answer with
  | .returned, _ | .failed _, _ | .editing [] _, _ => none
  | .deleting key, _ =>
      if key ∈ store.data then some ({ store with data := store.data.erase key }, .locking [key])
      else some (store, .returned)
  | .editing (edit :: edits) changed, _ =>
      some ({ store with data := apply store.data edit }, .edit edits (edit.key :: changed))
  | .locking changed, _ => if Free config then some (store, .reading changed [] 0) else none
  | .reading changed rows shard, _ =>
      if shard < sharding.count then
        some (store, .reading changed (rows ++ shardRows sharding store.data shard) (shard + 1))
      else some (store, .writing changed rows)
  | .writing changed _, .failed | .replacing changed _, .failed => some (store, .failed changed)
  | .writing changed rows, .ok => some (store, .replacing changed rows)
  | .replacing _ rows, .ok => some ({ store with file := some rows }, .returned)

def program : Pool.Program PersistStore Call Request Answer where
  start := Call.start
  act := act sharding

inductive Event where
  | call (event : Pool.Event Request Answer)
  /-- The process ends, and another one takes its place. -/
  | restart

def opened (file : Option Rows) : Config := ⟨⟨load file, file⟩, []⟩

def step (config : Config) : Event → Option Config
  | .call event => (program sharding).step config event
  | .restart => some (opened config.shared.file)

/-! What is read of the shards. -/

section Rows

variable {sharding : Sharding}

theorem dlookup_filter (entries : List (Σ _ : String, String)) (shard : Nat) (key : String) :
    (entries.filter fun entry => sharding.shardOf entry.1 == shard).dlookup key =
      if sharding.shardOf key = shard then entries.dlookup key else none := by
  induction entries with
  | nil => simp
  | cons entry entries ih =>
      obtain ⟨name, value⟩ := entry
      rw [List.filter_cons]
      by_cases same : key = name
      · subst same
        by_cases here : sharding.shardOf key = shard
        · rw [if_pos (beq_iff_eq.mpr here), if_pos here, List.dlookup_cons_eq,
            List.dlookup_cons_eq]
        · rw [if_neg (fun equal => here (beq_iff_eq.mp equal)), ih, if_neg here, if_neg here]
      · rw [List.dlookup_cons_ne _ _ same]
        split
        · rw [List.dlookup_cons_ne _ _ same, ih]
        · exact ih

theorem lookup_shardRows (base data : Table String) (shard : Nat) (key : String) :
    (Cache.extend base (shardRows sharding data shard)).lookup key =
      if sharding.shardOf key = shard then (data.lookup key).or (base.lookup key)
      else base.lookup key := by
  have nodup : (data.entries.filter fun entry => sharding.shardOf entry.1 == shard).NodupKeys :=
    List.NodupKeys.sublist (List.filter_sublist) data.nodupKeys
  rw [shardRows, Cache.lookup_extend nodup, dlookup_filter]
  split
  · rfl
  · rw [Option.none_or]

theorem lookup_extend_of_forall {rows : Rows} {key : String} (absent : ∀ row ∈ rows, row.1 ≠ key)
    (base : Table String) : (Cache.extend base rows).lookup key = base.lookup key := by
  induction rows generalizing base with
  | nil => rfl
  | cons row rows ih =>
      obtain ⟨own, others⟩ := List.forall_mem_cons.mp absent
      have rest := ih others (base.insert row.1 row.2)
      rw [AList.lookup_insert_ne (Ne.symm own)] at rest
      exact rest

theorem lookup_read {rows : Rows} {shard : Nat}
    (earlier : ∀ row ∈ rows, sharding.shardOf row.1 < shard) (data : Table String) (key : String) :
    (load (some (rows ++ shardRows sharding data shard))).lookup key =
      if sharding.shardOf key = shard then data.lookup key else (load (some rows)).lookup key := by
  have split : load (some (rows ++ shardRows sharding data shard)) =
      Cache.extend (load (some rows)) (shardRows sharding data shard) := List.foldl_append
  rw [split, lookup_shardRows]
  by_cases here : sharding.shardOf key = shard
  · have absent : (load (some rows)).lookup key = none := by
      refine (lookup_extend_of_forall (fun row member same => ?_) ∅).trans (AList.lookup_empty key)
      have bound := earlier row member
      rw [same] at bound
      omega
    rw [if_pos here, if_pos here, absent, Option.or_none]
  · rw [if_neg here, if_neg here]

end Rows

/-! What every operation keeps. -/

namespace Call

def changed : Call → List String
  | editing _ keys | locking keys | reading keys _ _ | writing keys _ | replacing keys _
  | failed keys => keys
  | deleting _ | returned => []

/-- What the call has read, and of how many shards. -/
def snapshot (sharding : Sharding) : Call → Option (Rows × Nat)
  | reading _ rows shard => some (rows, shard)
  | writing _ rows | replacing _ rows => some (rows, sharding.count)
  | _ => none

end Call

/-- A call has changed the key and has not read it for the file. -/
def Waits (key : String) (call : Call) : Prop := call.holds = false ∧ key ∈ call.changed

structure Sound (config : Config) : Prop where
  exclusive : Pool.Exclusive Call.holds config.calls
  file : ∀ key, (load config.shared.file).lookup key = config.shared.data.lookup key ∨
    ∃ call ∈ config.calls, key ∈ call.changed
  ordered : ∀ call ∈ config.calls, ∀ rows shard, call.snapshot sharding = some (rows, shard) →
    ∀ row ∈ rows, sharding.shardOf row.1 < shard
  read : ∀ call ∈ config.calls, ∀ rows shard, call.snapshot sharding = some (rows, shard) →
    ∀ key, sharding.shardOf key < shard →
      (load (some rows)).lookup key = config.shared.data.lookup key ∨
        ∃ other ∈ config.calls, Waits key other

structure Moves (config : Config) (call : Call) (after : PersistStore) (moved : Call) : Prop where
  taken : moved.holds = true → call.holds = true ∨ Free config
  data : ∀ key, after.data.lookup key = config.shared.data.lookup key ∨ Waits key moved
  kept : after.file = config.shared.file ∧ call.changed ⊆ moved.changed ∨
    ∃ rows, call.snapshot sharding = some (rows, sharding.count) ∧ after.file = some rows
  waits : call.holds = false → ∀ key ∈ call.changed, key ∈ moved.changed
  ordered : ∀ rows shard, moved.snapshot sharding = some (rows, shard) →
    ∀ row ∈ rows, sharding.shardOf row.1 < shard
  read : ∀ rows shard, moved.snapshot sharding = some (rows, shard) →
    ∀ key, sharding.shardOf key < shard →
      (load (some rows)).lookup key = after.data.lookup key ∨
        ∃ old earlier, call.snapshot sharding = some (old, earlier) ∧
          sharding.shardOf key < earlier ∧
            (load (some rows)).lookup key = (load (some old)).lookup key

section

variable {sharding} {config next : Config} {call moved : Call} {answer : Answer}
  {after : PersistStore}

theorem holds_of_snapshot {call : Call} {rows : Rows} {shard : Nat}
    (has : call.snapshot sharding = some (rows, shard)) : call.holds = true := by
  cases call with
  | reading | writing | replacing => rfl
  | _ => cases has

/-- The call goes on without the lock, and the map and the file stay as they are. -/
theorem moves_of_same (quiet : moved.holds = false) (kept : call.changed ⊆ moved.changed) :
    Moves sharding config call config.shared moved where
  taken held := by cases quiet.symm.trans held
  data _ := .inl rfl
  kept := .inl ⟨rfl, kept⟩
  waits _ key changed := kept changed
  ordered rows shard has := by cases quiet.symm.trans (holds_of_snapshot has)
  read rows shard has := by cases quiet.symm.trans (holds_of_snapshot has)

theorem moves_of_edit {data : Table String} {edited : String} (quiet : moved.holds = false)
    (kept : call.changed ⊆ moved.changed) (changed : edited ∈ moved.changed)
    (others : ∀ key, key ≠ edited → data.lookup key = config.shared.data.lookup key) :
    Moves sharding config call { config.shared with data := data } moved where
  taken held := by cases quiet.symm.trans held
  data key := by
    by_cases same : key = edited
    · exact .inr ⟨quiet, same ▸ changed⟩
    · exact .inl (others key same)
  kept := .inl ⟨rfl, kept⟩
  waits _ key changed := kept changed
  ordered rows shard has := by cases quiet.symm.trans (holds_of_snapshot has)
  read rows shard has := by cases quiet.symm.trans (holds_of_snapshot has)

theorem moves_of_held {rows : Rows} {shard : Nat} (sound : Sound sharding config)
    (member : call ∈ config.calls) (has : call.snapshot sharding = some (rows, shard))
    (same : moved.snapshot sharding = some (rows, shard)) (kept : call.changed ⊆ moved.changed) :
    Moves sharding config call config.shared moved where
  taken _ := .inl (holds_of_snapshot has)
  data _ := .inl rfl
  kept := .inl ⟨rfl, kept⟩
  waits _ key changed := kept changed
  ordered _ _ now := by
    cases same.symm.trans now
    exact sound.ordered call member rows shard has
  read _ _ now key early := by
    cases same.symm.trans now
    exact .inr ⟨rows, shard, has, early, rfl⟩

theorem edit_changed (edits : List Edit) (changed : List String) :
    (Call.edit edits changed).changed = changed ∧ (Call.edit edits changed).holds = false := by
  cases edits with
  | nil | cons => exact ⟨rfl, rfl⟩

theorem lookup_apply_of_ne (data : Table String) (edit : Edit) {key : String}
    (differs : key ≠ edit.key) : (apply data edit).lookup key = data.lookup key := by
  cases edit with
  | insert => exact AList.lookup_insert_ne differs
  | remove => exact AList.lookup_erase_ne differs

theorem act_moves (sound : Sound sharding config) (member : call ∈ config.calls)
    (acted : act sharding config call answer = some (after, moved)) :
    Moves sharding config call after moved := by
  unfold act at acted
  dsimp only at acted
  split at acted
  iterate 3 cases acted
  · split at acted
    · cases acted
      exact moves_of_edit rfl (List.nil_subset _) List.mem_cons_self fun key differs =>
        AList.lookup_erase_ne differs
    · cases acted
      exact moves_of_same rfl (List.nil_subset _)
  · rename_i edit edits changed
    cases acted
    obtain ⟨keys, quiet⟩ := edit_changed edits (edit.key :: changed)
    refine moves_of_edit quiet ?_ ?_ fun key differs => lookup_apply_of_ne _ edit differs
    · rw [keys]
      exact List.subset_cons_self _ _
    · rw [keys]
      exact List.mem_cons_self
  · split at acted
    · rename_i free
      cases acted
      refine ⟨fun _ => .inr free, fun _ => .inl rfl, .inl ⟨rfl, List.Subset.refl _⟩,
        fun _ key changed => changed, ?_, ?_⟩
      · rintro rows shard ⟨⟩ row ⟨⟩
      · rintro rows shard ⟨⟩ key early
        exact absurd early (Nat.not_lt_zero _)
    · cases acted
  · split at acted
    · rename_i changed rows shard _
      cases acted
      have earlier := sound.ordered _ member rows shard rfl
      refine ⟨fun _ => .inl rfl, fun _ => .inl rfl, .inl ⟨rfl, List.Subset.refl _⟩,
        fun _ key changed => changed, ?_, ?_⟩
      · rintro _ _ ⟨⟩ row here
        rcases List.mem_append.mp here with old | new
        · exact Nat.lt_succ_of_lt (earlier row old)
        · obtain ⟨entry, found, rfl⟩ := List.mem_map.mp new
          rw [beq_iff_eq.mp (List.mem_filter.mp found).2]
          exact Nat.lt_succ_self _
      · rintro _ _ ⟨⟩ key early
        rw [lookup_read earlier]
        by_cases here : sharding.shardOf key = shard
        · exact .inl (if_pos here)
        · exact .inr ⟨rows, shard, rfl, by omega, if_neg here⟩
    · rename_i changed rows shard full
      cases acted
      refine ⟨fun _ => .inl rfl, fun _ => .inl rfl, .inl ⟨rfl, List.Subset.refl _⟩,
        fun _ key changed => changed, ?_, ?_⟩
      · rintro _ _ ⟨⟩ row _
        exact sharding.bound row.1
      · rintro _ _ ⟨⟩ key early
        exact .inr ⟨rows, shard, rfl, by omega, rfl⟩
  · cases acted
    exact moves_of_same rfl (List.Subset.refl _)
  · cases acted
    exact moves_of_same rfl (List.Subset.refl _)
  · cases acted
    exact moves_of_held sound member rfl rfl (List.Subset.refl _)
  · rename_i changed rows
    cases acted
    refine ⟨fun held => ?_, fun _ => .inl rfl, .inr ⟨rows, rfl, rfl⟩, fun free => ?_, ?_, ?_⟩
    · cases held
    · cases free
    · rintro rows shard ⟨⟩
    · rintro rows shard ⟨⟩

theorem sound_opened (file : Option Rows) : Sound sharding (opened file) where
  exclusive := Pool.exclusive_nil
  file key := .inl rfl
  ordered call member := by cases member
  read call member := by cases member

theorem Sound.start (sound : Sound sharding config) (request : Request) :
    Sound sharding ⟨config.shared, config.calls ++ [Call.start request]⟩ := by
  have quiet : (Call.start request).holds = false := by
    cases request with
    | setAndFlush => rfl
    | deleteAndFlush => rfl
    | deleteMultiAndFlush keys => exact (edit_changed (keys.map Edit.remove) []).2
  have old {holds : Call → Prop} (found : ∃ call ∈ config.calls, holds call) :
      ∃ call ∈ config.calls ++ [Call.start request], holds call := by
    obtain ⟨call, member, here⟩ := found
    exact ⟨call, List.mem_append_left _ member, here⟩
  have none {rows : Rows} {shard : Nat}
      (has : (Call.start request).snapshot sharding = some (rows, shard)) : False := by
    cases quiet.symm.trans (holds_of_snapshot has)
  refine ⟨sound.exclusive.start quiet, fun key => (sound.file key).imp_right old,
    Pool.forall_start sound.ordered fun rows shard has => (none has).elim,
    Pool.forall_start (fun call member rows shard has key early => ?_)
      fun rows shard has => (none has).elim⟩
  exact (sound.read call member rows shard has key early).imp_right old

theorem Sound.act {before later : List Call} {store : PersistStore}
    (sound : Sound sharding ⟨store, before ++ call :: later⟩)
    (moves : Moves sharding ⟨store, before ++ call :: later⟩ call after moved) :
    Sound sharding ⟨after, before ++ moved :: later⟩ := by
  have alone (held : call.holds = true ∨ Free ⟨store, before ++ call :: later⟩) :
      ∀ other ∈ before ++ later, other.holds = false := by
    rcases held with held | free
    · exact sound.exclusive.other held
    · exact fun other member => free other (Pool.mem_of_mem_others member)
  have own : moved ∈ before ++ moved :: later := List.mem_append_right _ List.mem_cons_self
  have here : call ∈ before ++ call :: later := List.mem_append_right _ List.mem_cons_self
  -- a call that waits goes on to wait, unless it is the one that gets the lock
  have waiting (key : String) (plain : call.holds = true ∨ moved.holds = false)
      (found : ∃ other ∈ before ++ call :: later, Waits key other) :
      ∃ other ∈ before ++ moved :: later, Waits key other := by
    obtain ⟨other, member, quiet, changed⟩ := found
    rcases Pool.eq_or_mem_of_mem_act member with rfl | elsewhere
    · rcases plain with held | free
      · cases quiet.symm.trans held
      · exact ⟨moved, own, free, moves.waits quiet key changed⟩
    · exact ⟨other, Pool.mem_of_mem_others elsewhere, quiet, changed⟩
  refine ⟨sound.exclusive.act fun held => alone (moves.taken held), fun key => ?_, ?_, ?_⟩
  · rcases moves.data key with unchanged | waits
    · rw [unchanged]
      rcases moves.kept with ⟨same, kept⟩ | ⟨rows, has, same⟩
      · rw [same]
        refine (sound.file key).imp_right ?_
        rintro ⟨other, member, changed⟩
        rcases Pool.eq_or_mem_of_mem_act member with rfl | elsewhere
        · exact ⟨moved, own, kept changed⟩
        · exact ⟨other, Pool.mem_of_mem_others elsewhere, changed⟩
      · rw [same]
        refine (sound.read call here rows _ has key (sharding.bound key)).imp_right fun found => ?_
        obtain ⟨other, member, waits⟩ := waiting key (.inl (holds_of_snapshot has)) found
        exact ⟨other, member, waits.2⟩
    · exact .inr ⟨moved, own, waits.2⟩
  · exact Pool.forall_moved moves.ordered fun other member =>
      sound.ordered other (Pool.mem_of_mem_others member)
  · refine Pool.forall_moved (fun rows shard has key early => ?_)
      fun other member rows shard has key early => ?_
    · have unchanged : after.data.lookup key = store.data.lookup key := by
        refine (moves.data key).resolve_right fun waits => ?_
        cases waits.1.symm.trans (holds_of_snapshot has)
      rcases moves.read rows shard has key early with same | ⟨old, earlier, had, given, same⟩
      · exact .inl same
      · rw [same, unchanged]
        exact (sound.read call here old earlier had key given).imp_right
          (waiting key (.inl (holds_of_snapshot had)))
    · have held := holds_of_snapshot has
      have free : moved.holds = false := by
        by_contra taken
        cases (alone (moves.taken (eq_true_of_ne_false taken)) other member).symm.trans held
      rcases moves.data key with unchanged | waits
      · rw [unchanged]
        exact (sound.read other (Pool.mem_of_mem_others member) rows shard has key early).imp_right
          (waiting key (.inr free))
      · exact .inr ⟨moved, own, waits⟩

theorem Sound.step {event : Event} (sound : Sound sharding config)
    (taken : step sharding config event = some next) : Sound sharding next := by
  cases event with
  | restart =>
      cases taken
      exact sound_opened _
  | call event =>
      rcases Pool.Program.step_cases taken with
        ⟨request, rfl, rfl⟩ | ⟨before, call, later, answer, store, moved, rfl, shape, acted, rfl⟩
      · exact sound.start request
      · obtain ⟨shared, calls⟩ := config
        obtain rfl : calls = before ++ call :: later := shape
        refine sound.act (act_moves sound ?_ acted)
        exact List.mem_append_right _ List.mem_cons_self

/-- Over every order of the calls' steps, with writes that fail and with restarts at any
moment: the file has what the map has for a key, unless a call that has changed the key
has not returned or has failed to write; so once all calls have returned, a restart
loses nothing. -/
theorem run_flushed {file : Option Rows} {events : List Event}
    (ran : Machine.run (step sharding) (opened file) events = some config) (key : String)
    (settled : ∀ call ∈ config.calls, key ∉ call.changed) :
    (load config.shared.file).lookup key = config.shared.data.lookup key := by
  have sound := Machine.run_invariant (Sound sharding) (fun here taken => here.step taken)
    (sound_opened file) ran
  refine (sound.file key).resolve_right ?_
  rintro ⟨call, member, changed⟩
  exact settled call member changed


def evenOdd : Sharding where
  count := 2
  shardOf key := key.length % 2
  bound _ := Nat.mod_lt _ (by decide)

/-- The second call changes a key after its shard has been read for the first one, and
waits for the lock. -/
def twoSets : List Event :=
  [.call (.start (.setAndFlush "a" "1")), .call (.start (.setAndFlush "bb" "2")),
    .call (.advance 0 .ok), .call (.advance 0 .ok), .call (.advance 0 .ok),
    .call (.advance 1 .ok), .call (.advance 0 .ok), .call (.advance 0 .ok),
    .call (.advance 0 .ok), .call (.advance 0 .ok), .call (.advance 1 .ok),
    .call (.advance 1 .ok), .call (.advance 1 .ok), .call (.advance 1 .ok),
    .call (.advance 1 .ok), .call (.advance 1 .ok)]

theorem run_flushed_twoSets :
    ∃ config, Machine.run (step evenOdd) (opened none) twoSets = some config ∧
      config.calls = [.returned, .returned] ∧
      (load config.shared.file).lookup "bb" = config.shared.data.lookup "bb" := by
  obtain ⟨config, ran, calls⟩ : ∃ config,
      Machine.run (step evenOdd) (opened none) twoSets = some config ∧
        config.calls = [.returned, .returned] :=
    ⟨_, rfl, by decide +kernel⟩
  refine ⟨config, ran, calls, run_flushed ran "bb" fun call member => ?_⟩
  rw [calls] at member
  simp only [List.mem_cons, List.not_mem_nil, or_false, or_self] at member
  rw [member]
  exact List.not_mem_nil

end

end PersistStore

end QuicProxy
