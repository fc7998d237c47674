import QuicProxy.Data.Bytes
import QuicProxy.Data.Pool

namespace QuicProxy

/-! The two levels of a `DnsCache` (`src/dns/cache.rs`) for one key, an entry in
memory over a record on disk, with the steps of `get`, `set` and `remove`. -/

namespace Dns

def EXPIRY_LEN : Nat := 8

/-- Sets are numbered as they start; `writer` is the number of the set that an
entry comes from. -/
structure Entry where
  response : Bytes
  expiry : UInt64
  writer : Nat
deriving DecidableEq

structure Record where
  raw : Bytes
  writer : Nat
deriving DecidableEq

def Record.entry? (record : Record) : Option Entry :=
  if record.raw.length > EXPIRY_LEN then
    (u64FromBe (record.raw.take EXPIRY_LEN)).map fun expiry =>
      ⟨record.raw.drop EXPIRY_LEN, expiry, record.writer⟩
  else none

/-- A set that has completed, with those that had completed when it started. -/
structure CompletedSet where
  number : Nat
  past : List Nat
deriving DecidableEq

structure DnsCache where
  memory : Option Entry
  disk : Option Record
  /-- The responses of the sets that have started. -/
  given : List Bytes
  completed : List CompletedSet
  /-- How many sets had started when the last remove completed. -/
  floor : Nat
  /-- How often a set or a remove has written. -/
  writes : Nat
deriving DecidableEq

/-- What a `get` finds as it starts. -/
structure Begun where
  now : UInt64
  completed : List CompletedSet
  floor : Nat
deriving DecidableEq

structure CacheSet where
  number : Nat
  past : List Nat
  response : Bytes
  expiry : UInt64
deriving DecidableEq

def CacheSet.entry (set : CacheSet) : Entry := ⟨set.response, set.expiry, set.number⟩

def CacheSet.record (set : CacheSet) : Record := ⟨u64ToBe set.expiry ++ set.response, set.number⟩

inductive CacheRequest where
  | get
  | set (response : Bytes) (ttl : UInt64)
  | remove
  /-- `remember`, for another key, in a full map. -/
  | evict

inductive CacheCall where
  | getting
  | looking (begun : Begun)
  | expiring (begun : Begun)
  | reading (begun : Begun)
  /-- `remember` is next, after a disk hit; `writes` counts the writes up to the
  read. -/
  | promoting (begun : Begun) (entry : Entry) (writes : Nat)
  | deleting (begun : Begun)
  | returned (begun : Begun) (result : Option Entry)
  | setting (response : Bytes) (ttl : UInt64)
  | remembering (set : CacheSet)
  | storing (set : CacheSet)
  | stored
  | removing
  | forgetting
  | removed
  | evicting
  | evicted
deriving DecidableEq

/-- What a step finds of the clock, and whether the disk fails. -/
structure CacheChoice where
  now : UInt64
  fault : Bool

namespace CacheCall

def start : CacheRequest → CacheCall
  | .get => getting
  | .set response ttl => setting response ttl
  | .remove => removing
  | .evict => evicting

def read (cache : DnsCache) (begun : Begun) : CacheCall :=
  match cache.disk with
  | none => returned begun none
  | some record =>
      match record.entry? with
      | none => deleting begun
      | some entry =>
          if begun.now < entry.expiry then promoting begun entry cache.writes else deleting begun

def act (cache : DnsCache) (choice : CacheChoice) : CacheCall → Option (DnsCache × CacheCall)
  | getting => some (cache, looking ⟨choice.now, cache.completed, cache.floor⟩)
  | looking begun =>
      match cache.memory.filter (begun.now < ·.expiry) with
      | some entry => some (cache, returned begun (some entry))
      | none => some (cache, expiring begun)
  | expiring begun =>
      some ({ cache with memory := cache.memory.filter (begun.now < ·.expiry) }, reading begun)
  | reading begun => some (cache, if choice.fault then returned begun none else read cache begun)
  | promoting begun entry _ =>
      some ({ cache with memory := some entry }, returned begun (some entry))
  | deleting begun =>
      some ({ cache with disk := if choice.fault then cache.disk else none }, returned begun none)
  | setting response ttl =>
      some ({ cache with given := cache.given ++ [response] },
        remembering ⟨cache.given.length, cache.completed.map (·.number), response,
          choice.now + ttl⟩)
  | remembering set =>
      some ({ cache with memory := some set.entry, writes := cache.writes + 1 }, storing set)
  | storing set =>
      some ({ cache with
        disk := if choice.fault then cache.disk else some set.record
        completed := cache.completed ++ [⟨set.number, set.past⟩]
        writes := cache.writes + 1 }, stored)
  | removing => some ({ cache with memory := none, writes := cache.writes + 1 }, forgetting)
  | forgetting =>
      some ({ cache with
        disk := if choice.fault then cache.disk else none
        floor := cache.given.length
        writes := cache.writes + 1 }, removed)
  | evicting => some ({ cache with memory := none }, evicted)
  | returned _ _ | stored | removed | evicted => none

end CacheCall

abbrev CacheConfig := Pool.Config DnsCache CacheCall

abbrev CacheEvent := Pool.Event CacheRequest CacheChoice

namespace DnsCache

def program : Pool.Program DnsCache CacheCall CacheRequest CacheChoice where
  start := CacheCall.start
  act config call choice := call.act config.shared choice

/-- What an earlier process has left on disk comes from a set that has completed. -/
def initial (stored : Option Bytes) : CacheConfig where
  shared :=
    { memory := none
      disk := stored.map (⟨·, 0⟩)
      given := stored.toList.map (·.drop EXPIRY_LEN)
      completed := stored.toList.map fun _ => ⟨0, []⟩
      floor := 0
      writes := 0 }
  calls := []

/-- A response that a `get` may return: it is that of a set that started after
the last remove that the `get` follows, it has not expired, and no set that
started after this one had completed has completed before the `get`. -/
structure Returnable (given : List Bytes) (begun : Begun) (entry : Entry) : Prop where
  response : given[entry.writer]? = some entry.response
  removed : begun.floor ≤ entry.writer
  newest : ∀ later ∈ begun.completed, entry.writer ∉ later.past
  fresh : begun.now < entry.expiry

def Coherent (config : CacheConfig) : Prop :=
  ∀ begun entry, .returned begun (some entry) ∈ config.calls →
    Returnable config.shared.given begun entry

end DnsCache

namespace CacheCall

/-- A set between its two writes. -/
def Storing : CacheCall → Prop
  | storing _ => True
  | _ => False

instance : DecidablePred Storing
  | storing _ => isTrue trivial
  | getting | looking _ | expiring _ | reading _ | promoting _ _ _ | deleting _ | returned _ _
  | setting _ _ | remembering _ | stored | removing | forgetting | removed | evicting | evicted =>
      isFalse id

/-- The next step overtakes no other call, and the disk does what a set or a
remove asks for.  A set whose number is under the floor started before the last
remove completed. -/
def InTurn (config : CacheConfig) (choice : CacheChoice) : CacheCall → Prop
  | promoting _ _ writes =>
      writes = config.shared.writes ∧ forgetting ∉ config.calls ∧
        ∀ call ∈ config.calls, ¬call.Storing
  | remembering set => config.shared.floor ≤ set.number ∧ forgetting ∉ config.calls
  | storing set => config.shared.floor ≤ set.number ∧ choice.fault = false
  | forgetting => choice.fault = false
  | _ => True

instance (config : CacheConfig) (choice : CacheChoice) : DecidablePred (InTurn config choice)
  | promoting _ _ _ => inferInstanceAs (Decidable (_ ∧ _ ∧ _))
  | remembering _ | storing _ => inferInstanceAs (Decidable (_ ∧ _))
  | forgetting => inferInstanceAs (Decidable (_ = _))
  | getting | looking _ | expiring _ | reading _ | deleting _ | returned _ _ | setting _ _ | stored
  | removing | removed | evicting | evicted => isTrue trivial

def number? : CacheCall → Option Nat
  | remembering set | storing set => some set.number
  | _ => none

end CacheCall

namespace DnsCache

def InTurn (config : CacheConfig) : CacheEvent → Prop
  | .start _ => True
  | .advance index choice =>
      match config.calls[index]? with
      | some call => call.InTurn config choice
      | none => True

instance (config : CacheConfig) : DecidablePred (InTurn config)
  | .start _ => isTrue trivial
  | .advance index choice =>
      match found : config.calls[index]? with
      | some call => decidable_of_iff (call.InTurn config choice) (by simp only [InTurn, found])
      | none => isTrue (by simp only [InTurn, found])

/-! What the levels hold, and what the calls rely on. -/

/-- An entry that a `get` may return that starts now, but for the clock. -/
structure Current (cache : DnsCache) (entry : Entry) : Prop where
  response : cache.given[entry.writer]? = some entry.response
  removed : cache.floor ≤ entry.writer
  newest : ∀ later ∈ cache.completed, entry.writer ∉ later.past

structure Behind (begun : Begun) (cache : DnsCache) : Prop where
  floor : begun.floor ≤ cache.floor
  completed : begun.completed ⊆ cache.completed

structure Underway (cache : DnsCache) (set : CacheSet) : Prop where
  response : cache.given[set.number]? = some set.response
  past : set.past ⊆ cache.completed.map (·.number)
  uncompleted : set.number ∉ cache.completed.map (·.number)

structure Promotable (cache : DnsCache) (begun : Begun) (entry : Entry) (writes : Nat) : Prop where
  returnable : Returnable cache.given begun entry
  written : writes ≤ cache.writes
  current : writes = cache.writes → Current cache entry

def Sound (cache : DnsCache) : CacheCall → Prop
  | .looking begun | .expiring begun | .reading begun => Behind begun cache
  | .promoting begun entry writes => Promotable cache begun entry writes
  | .returned begun (some entry) => Returnable cache.given begun entry
  | .remembering set | .storing set => Underway cache set
  | _ => True

structure Kept (config : CacheConfig) : Prop where
  sound : ∀ call ∈ config.calls, Sound config.shared call
  once : Pool.Distinct CacheCall.number? config.calls
  past : ∀ set ∈ config.shared.completed, set.past ⊆ config.shared.completed.map (·.number)
  started : ∀ set ∈ config.shared.completed, set.number < config.shared.given.length
  floor_le : config.shared.floor ≤ config.shared.given.length
  memory : ∀ entry ∈ config.shared.memory, Current config.shared entry
  newest : ∀ entry ∈ config.shared.memory, ∀ set, .storing set ∈ config.calls →
    entry.writer ∉ set.past
  disk : ∀ record ∈ config.shared.disk, ∀ entry ∈ record.entry?, Current config.shared entry
  cleared : .forgetting ∈ config.calls → config.shared.memory = none

theorem Kept.coherent {config : CacheConfig} (kept : Kept config) : Coherent config :=
  fun _ _ member => kept.sound _ member

theorem kept_initial (stored : Option Bytes) : Kept (initial stored) := by
  cases stored with
  | none => exact ⟨nofun, List.nodup_nil, nofun, nofun, Nat.zero_le _, nofun, nofun, nofun, nofun⟩
  | some raw =>
      refine ⟨nofun, List.nodup_nil, ?_, ?_, Nat.zero_le _, nofun, nofun, ?_, nofun⟩
      · rintro set member
        cases List.mem_singleton.mp member
        exact List.nil_subset _
      · rintro set member
        cases List.mem_singleton.mp member
        exact Nat.zero_lt_one
      · rintro record ⟨⟩ entry found
        simp only [Record.entry?, Option.mem_def] at found
        split at found
        · obtain ⟨expiry, -, rfl⟩ := Option.map_eq_some_iff.mp found
          refine ⟨rfl, Nat.zero_le _, fun later member => ?_⟩
          cases List.mem_singleton.mp member
          exact List.not_mem_nil
        · cases found

theorem entry?_record {set : CacheSet} {entry : Entry} (found : entry ∈ set.record.entry?) :
    entry = set.entry := by
  by_cases long : set.record.raw.length > EXPIRY_LEN
  · rw [Record.entry?, if_pos long, CacheSet.record, EXPIRY_LEN,
      List.take_left' (length_u64ToBe _), List.drop_left' (length_u64ToBe _),
      u64FromBe_u64ToBe] at found
    cases found
    rfl
  · rw [Record.entry?, if_neg long] at found
    cases found

/-! Steps. -/

/-- What a step does to the state that a call relies on. -/
structure Grows (cache next : DnsCache) : Prop where
  given : ∀ {number : Nat} {response : Bytes},
    cache.given[number]? = some response → next.given[number]? = some response
  floor : cache.floor ≤ next.floor
  completed : cache.completed ⊆ next.completed
  written : cache.writes ≤ next.writes
  still : cache.writes = next.writes → next.floor = cache.floor ∧ next.completed = cache.completed

theorem Returnable.grows {cache next : DnsCache} (grows : Grows cache next) {begun : Begun}
    {entry : Entry} (returnable : Returnable cache.given begun entry) :
    Returnable next.given begun entry :=
  { returnable with response := grows.given returnable.response }

theorem Current.returnable {cache : DnsCache} {entry : Entry} (current : Current cache entry)
    {begun : Begun} (behind : Behind begun cache) (fresh : begun.now < entry.expiry) :
    Returnable cache.given begun entry where
  response := current.response
  removed := Nat.le_trans behind.floor current.removed
  newest := fun later member => current.newest later (behind.completed member)
  fresh := fresh

theorem Current.of_eq {cache next : DnsCache} (grows : Grows cache next) {entry : Entry}
    (same : next.floor = cache.floor ∧ next.completed = cache.completed)
    (current : Current cache entry) : Current next entry where
  response := grows.given current.response
  removed := same.1.trans_le current.removed
  newest := same.2 ▸ current.newest

theorem Sound.grows {cache next : DnsCache} (grows : Grows cache next) {call : CacheCall}
    (sound : Sound cache call)
    (uncompleted : ∀ number, call.number? = some number →
      number ∉ cache.completed.map (·.number) → number ∉ next.completed.map (·.number)) :
    Sound next call := by
  cases call with
  | looking begun | expiring begun | reading begun =>
      exact ⟨Nat.le_trans sound.floor grows.floor,
        fun _ member => grows.completed (sound.completed member)⟩
  | promoting begun entry writes =>
      refine ⟨sound.returnable.grows grows, Nat.le_trans sound.written grows.written,
        fun unwritten => ?_⟩
      obtain rfl : writes = cache.writes :=
        Nat.le_antisymm sound.written (unwritten ▸ grows.written)
      exact (sound.current rfl).of_eq grows (grows.still unwritten)
  | returned begun result =>
      cases result with
      | none => trivial
      | some entry => exact Returnable.grows grows sound
  | remembering set | storing set =>
      refine ⟨grows.given sound.response, fun number member => ?_, ?_⟩
      · exact List.map_subset _ grows.completed (sound.past member)
      · exact uncompleted set.number rfl sound.uncompleted
  | getting | deleting | setting | stored | removing | forgetting | removed | evicting | evicted =>
      trivial

theorem number_lt {config : CacheConfig} (kept : Kept config) {call : CacheCall}
    (member : call ∈ config.calls) {number : Nat} (own : call.number? = some number) :
    number < config.shared.given.length := by
  have sound := kept.sound call member
  cases call with
  | remembering set | storing set =>
      cases own
      exact (List.getElem?_eq_some_iff.mp (Underway.response sound)).1
  | getting | looking | expiring | reading | promoting | deleting | returned | setting | stored
  | removing | forgetting | removed | evicting | evicted => cases own

section Step

variable {config : CacheConfig} {before after : List CacheCall} {call moved : CacheCall}
variable {next : DnsCache}

theorem sound_act (kept : Kept config) (shape : config.calls = before ++ call :: after)
    (grows : Grows config.shared next) (sound : Sound next moved)
    (uncompleted : ∀ other ∈ before ++ after, ∀ number, other.number? = some number →
      number ∉ config.shared.completed.map (·.number) → number ∉ next.completed.map (·.number)) :
    ∀ other ∈ before ++ moved :: after, Sound next other := by
  refine Pool.forall_moved sound fun other present => ?_
  refine (kept.sound other ?_).grows grows (uncompleted other present)
  rw [shape]
  exact Pool.mem_of_mem_others present

theorem distinct_act (kept : Kept config) (shape : config.calls = before ++ call :: after)
    (same : moved.number? = call.number?) :
    Pool.Distinct CacheCall.number? (before ++ moved :: after) := by
  have once := kept.once
  rw [shape] at once
  exact once.act same

theorem mem_calls {other : CacheCall} (shape : config.calls = before ++ call :: after)
    (member : other ∈ before ++ moved :: after) (differs : other ≠ moved) :
    other ∈ config.calls := by
  rw [shape]
  refine Pool.mem_of_mem_others ?_
  simpa only [List.mem_append, List.mem_cons, differs, false_or] using member

theorem grows_levels (cache : DnsCache) (memory : Option Entry) (disk : Option Record) :
    Grows cache { cache with memory := memory, disk := disk } where
  given := id
  floor := Nat.le_refl _
  completed := List.Subset.refl _
  written := Nat.le_refl _
  still := fun _ => ⟨rfl, rfl⟩

theorem Current.levels {cache : DnsCache} {entry : Entry} (current : Current cache entry)
    (memory : Option Entry) (disk : Option Record) :
    Current { cache with memory := memory, disk := disk } entry :=
  current.of_eq (grows_levels cache memory disk) ⟨rfl, rfl⟩

theorem Kept.quiet (kept : Kept config) (shape : config.calls = before ++ call :: after)
    {memory : Option Entry} {disk : Option Record}
    (less : ∀ entry ∈ memory, entry ∈ config.shared.memory)
    (less' : ∀ record ∈ disk, record ∈ config.shared.disk)
    (own : call.number? = none) (new : moved.number? = none) (notForgetting : moved ≠ .forgetting)
    (sound : Sound config.shared moved) :
    Kept ⟨{ config.shared with memory := memory, disk := disk }, before ++ moved :: after⟩ := by
  have grows := grows_levels config.shared memory disk
  refine ⟨sound_act kept shape grows (sound.grows grows fun _ _ => id) fun _ _ _ _ => id,
    distinct_act kept shape (new.trans own.symm), kept.past, kept.started, kept.floor_le,
    fun entry member => ?_, fun entry member set storing => ?_,
    fun record member entry found => ?_, fun forgetting => ?_⟩
  · exact (kept.memory entry (less entry member)).levels memory disk
  · refine kept.newest entry (less entry member) set (mem_calls shape storing ?_)
    rintro rfl
    cases new
  · exact (kept.disk record (less' record member) entry found).levels memory disk
  · have vacant := kept.cleared (mem_calls shape forgetting notForgetting.symm)
    refine Option.eq_none_iff_forall_not_mem.mpr fun entry member => ?_
    cases vacant.symm.trans (less entry member)

theorem sound_read (kept : Kept config) {begun : Begun} (behind : Behind begun config.shared)
    (fault : Bool) {reached : CacheCall}
    (reads : reached = if fault then .returned begun none else CacheCall.read config.shared begun) :
    reached.number? = none ∧ reached ≠ .forgetting ∧ Sound config.shared reached := by
  subst reads
  cases fault with
  | true => exact ⟨rfl, nofun, trivial⟩
  | false =>
      change (CacheCall.read config.shared begun).number? = none ∧
        CacheCall.read config.shared begun ≠ .forgetting ∧ Sound _ (CacheCall.read _ _)
      unfold CacheCall.read
      split
      · exact ⟨rfl, nofun, trivial⟩
      · rename_i record held
        split
        · exact ⟨rfl, nofun, trivial⟩
        · rename_i entry found
          split
          · rename_i fresh
            have current := kept.disk record held entry found
            exact ⟨rfl, nofun, current.returnable behind fresh, Nat.le_refl _, fun _ => current⟩
          · exact ⟨rfl, nofun, trivial⟩

theorem Kept.promote {begun : Begun} {entry : Entry} {writes : Nat} {choice : CacheChoice}
    (kept : Kept config) (shape : config.calls = before ++ .promoting begun entry writes :: after)
    (inTurn : (CacheCall.promoting begun entry writes).InTurn config choice) :
    Kept ⟨{ config.shared with memory := some entry },
      before ++ .returned begun (some entry) :: after⟩ := by
  obtain ⟨unwritten, settled, alone⟩ := inTurn
  have own : Promotable config.shared begun entry writes :=
    kept.sound (.promoting begun entry writes) (by rw [shape]; simp)
  have grows := grows_levels config.shared (some entry) config.shared.disk
  refine ⟨sound_act kept shape grows (own.returnable.grows grows) fun _ _ _ _ => id,
    distinct_act kept shape rfl, kept.past, kept.started, kept.floor_le, ?_,
    fun _ _ set storing => ?_,
    fun record member other found => ?_, fun forgetting => ?_⟩
  · rintro _ ⟨⟩
    exact (own.current unwritten).levels _ _
  · exact absurd trivial (alone _ (mem_calls shape storing nofun))
  · exact (kept.disk record member other found).levels _ _
  · exact absurd (mem_calls shape forgetting nofun) settled

theorem other_number (kept : Kept config) (shape : config.calls = before ++ call :: after)
    {number : Nat} (own : call.number? = some number) {other : CacheCall}
    (member : other ∈ before ++ after) : other.number? ≠ some number := by
  have once := kept.once
  rw [shape] at once
  exact once.other own member

theorem Underway.lt {cache : DnsCache} {set : CacheSet} (underway : Underway cache set) :
    set.number < cache.given.length :=
  (List.getElem?_eq_some_iff.mp underway.response).1

theorem Kept.begin {response : Bytes} {ttl now : UInt64} (kept : Kept config)
    (shape : config.calls = before ++ .setting response ttl :: after) :
    Kept ⟨{ config.shared with given := config.shared.given ++ [response] },
      before ++ .remembering ⟨config.shared.given.length, config.shared.completed.map (·.number),
        response, now + ttl⟩ :: after⟩ := by
  have grows : Grows config.shared
      { config.shared with given := config.shared.given ++ [response] } :=
    ⟨Pool.getElem?_start, Nat.le_refl _, List.Subset.refl _, Nat.le_refl _, fun _ => ⟨rfl, rfl⟩⟩
  have new : config.shared.given.length ∉ config.shared.completed.map (·.number) := by
    intro member
    obtain ⟨set, present, same⟩ := List.mem_map.mp member
    exact Nat.ne_of_lt (kept.started set present) same
  refine ⟨sound_act kept shape grows ⟨List.getElem?_concat_length, List.Subset.refl _, new⟩
    fun _ _ _ _ => id, ?_, kept.past, fun set member => ?_, ?_, fun entry member => ?_,
    fun entry member set storing => ?_, fun record member entry found => ?_, fun forgetting => ?_⟩
  · have once := kept.once
    rw [shape] at once
    refine once.change fun number owns other present taken => ?_
    cases owns
    have there : other ∈ config.calls := by
      rw [shape]
      exact Pool.mem_of_mem_others present
    exact Nat.lt_irrefl _ (number_lt kept there taken)
  · rw [List.length_append]
    exact Nat.lt_add_right _ (kept.started set member)
  · rw [List.length_append]
    exact Nat.le_add_right_of_le kept.floor_le
  · exact (kept.memory entry member).of_eq grows ⟨rfl, rfl⟩
  · exact kept.newest entry member set (mem_calls shape storing nofun)
  · exact (kept.disk record member entry found).of_eq grows ⟨rfl, rfl⟩
  · exact kept.cleared (mem_calls shape forgetting nofun)

theorem grows_write (cache : DnsCache) (memory : Option Entry) (disk : Option Record)
    {floor : Nat} {completed : List CompletedSet} (lower : cache.floor ≤ floor)
    (more : cache.completed ⊆ completed) :
    Grows cache { cache with
      memory := memory, disk := disk, completed := completed, floor := floor
      writes := cache.writes + 1 } where
  given := id
  floor := lower
  completed := more
  written := Nat.le_succ _
  still := fun same => absurd same (Nat.succ_ne_self _).symm

theorem Underway.current {set : CacheSet} (underway : Underway config.shared set)
    (kept : Kept config) (started : config.shared.floor ≤ set.number) :
    Current config.shared set.entry where
  response := underway.response
  removed := started
  newest := fun later member past => underway.uncompleted (kept.past later member past)

theorem Kept.remember {set : CacheSet} {choice : CacheChoice} (kept : Kept config)
    (shape : config.calls = before ++ .remembering set :: after)
    (inTurn : (CacheCall.remembering set).InTurn config choice) :
    Kept ⟨{ config.shared with
        memory := some set.entry, writes := config.shared.writes + 1 },
      before ++ .storing set :: after⟩ := by
  obtain ⟨started, settled⟩ := inTurn
  have underway : Underway config.shared set :=
    kept.sound (.remembering set) (by rw [shape]; simp)
  have current := underway.current kept started
  have grows := grows_write config.shared (some set.entry) config.shared.disk
    (Nat.le_refl _) (List.Subset.refl _)
  refine ⟨sound_act kept shape grows ⟨underway.response, underway.past, underway.uncompleted⟩
    fun _ _ _ _ => id, distinct_act kept shape rfl, kept.past, kept.started, kept.floor_le, ?_, ?_,
    fun record member entry found => ?_, fun forgetting => ?_⟩
  · rintro _ ⟨⟩
    exact ⟨current.response, current.removed, current.newest⟩
  · rintro _ ⟨⟩ other storing past
    have there : Underway config.shared other := by
      by_cases same : CacheCall.storing other = .storing set
      · cases same
        exact underway
      · exact kept.sound _ (mem_calls shape storing same)
    exact underway.uncompleted (there.past past)
  · have held := kept.disk record member entry found
    exact ⟨held.response, held.removed, held.newest⟩
  · exact absurd (mem_calls shape forgetting nofun) settled

theorem Kept.store {set : CacheSet} (kept : Kept config)
    (shape : config.calls = before ++ .storing set :: after)
    (started : config.shared.floor ≤ set.number) :
    Kept ⟨{ config.shared with
        disk := some set.record
        completed := config.shared.completed ++ [⟨set.number, set.past⟩]
        writes := config.shared.writes + 1 },
      before ++ .stored :: after⟩ := by
  have present : .storing set ∈ config.calls := by
    rw [shape]
    simp
  have underway : Underway config.shared set := kept.sound _ present
  have current := underway.current kept started
  have grows := grows_write config.shared config.shared.memory (some set.record)
    (Nat.le_refl _) (List.subset_append_left config.shared.completed [⟨set.number, set.past⟩])
  have numbers : List.map CompletedSet.number
      (config.shared.completed ++ [⟨set.number, set.past⟩]) =
      config.shared.completed.map CompletedSet.number ++ [set.number] := List.map_append
  refine ⟨sound_act kept shape grows trivial fun other member number owns uncompleted => ?_, ?_,
    fun other member => ?_, fun other member => ?_, kept.floor_le, fun entry member => ?_,
    fun entry member other storing => ?_, ?_, fun forgetting => ?_⟩
  · change number ∉ List.map _ (_ ++ _)
    rw [numbers, List.mem_append, List.mem_singleton, not_or]
    refine ⟨uncompleted, ?_⟩
    rintro rfl
    exact other_number kept shape rfl member owns
  · have once := kept.once
    rw [shape] at once
    exact once.change nofun
  · change other.past ⊆ List.map _ (_ ++ _)
    rw [numbers]
    refine List.subset_append_of_subset_left _ ?_
    rcases List.mem_append.mp member with earlier | last
    · exact kept.past other earlier
    · cases List.mem_singleton.mp last
      exact underway.past
  · rcases List.mem_append.mp member with earlier | last
    · exact kept.started other earlier
    · cases List.mem_singleton.mp last
      exact underway.lt
  · have held := kept.memory entry member
    refine ⟨held.response, held.removed, fun later completed => ?_⟩
    rcases List.mem_append.mp completed with earlier | last
    · exact held.newest later earlier
    · cases List.mem_singleton.mp last
      exact kept.newest entry member set present
  · exact kept.newest entry member other (mem_calls shape storing nofun)
  · rintro _ ⟨⟩ entry found
    obtain rfl := entry?_record found
    refine ⟨current.response, current.removed, fun later completed => ?_⟩
    rcases List.mem_append.mp completed with earlier | last
    · exact current.newest later earlier
    · cases List.mem_singleton.mp last
      exact fun past => underway.uncompleted (underway.past past)
  · exact kept.cleared (mem_calls shape forgetting nofun)

theorem Kept.forgetMemory (kept : Kept config)
    (shape : config.calls = before ++ .removing :: after) :
    Kept ⟨{ config.shared with memory := none, writes := config.shared.writes + 1 },
      before ++ .forgetting :: after⟩ := by
  have grows := grows_write config.shared none config.shared.disk
    (Nat.le_refl _) (List.Subset.refl _)
  refine ⟨sound_act kept shape grows trivial fun _ _ _ _ => id, distinct_act kept shape rfl,
    kept.past, kept.started, kept.floor_le, nofun, nofun, fun record member entry found => ?_,
    fun _ => rfl⟩
  have held := kept.disk record member entry found
  exact ⟨held.response, held.removed, held.newest⟩

theorem Kept.forgetDisk (kept : Kept config)
    (shape : config.calls = before ++ .forgetting :: after) :
    Kept ⟨{ config.shared with
        disk := none
        floor := config.shared.given.length
        writes := config.shared.writes + 1 },
      before ++ .removed :: after⟩ := by
  have vacant : config.shared.memory = none := kept.cleared (by rw [shape]; simp)
  have grows := grows_write config.shared config.shared.memory none kept.floor_le
    (List.Subset.refl _)
  refine ⟨sound_act kept shape grows trivial fun _ _ _ _ => id, distinct_act kept shape rfl,
    kept.past, kept.started, Nat.le_refl _, fun entry member => ?_, fun entry member => ?_, nofun,
    fun _ => vacant⟩
  · cases vacant.symm.trans member
  · cases vacant.symm.trans member

theorem Kept.act {choice : CacheChoice} (kept : Kept config)
    (shape : config.calls = before ++ call :: after) (inTurn : call.InTurn config choice)
    (acted : call.act config.shared choice = some (next, moved)) :
    Kept ⟨next, before ++ moved :: after⟩ := by
  have sound := kept.sound call (by rw [shape]; simp)
  cases call with
  | getting =>
      cases acted
      exact kept.quiet shape (fun _ => id) (fun _ => id) rfl rfl nofun
        ⟨Nat.le_refl _, List.Subset.refl _⟩
  | looking begun =>
      simp only [CacheCall.act] at acted
      split at acted
      · rename_i entry found
        cases acted
        obtain ⟨held, fresh⟩ := Option.filter_eq_some_iff.mp found
        have current := kept.memory entry held
        refine kept.quiet shape (fun _ => id) (fun _ => id) rfl rfl nofun ?_
        exact current.returnable sound (of_decide_eq_true fresh)
      · cases acted
        exact kept.quiet shape (fun _ => id) (fun _ => id) rfl rfl nofun sound
  | expiring begun =>
      cases acted
      refine kept.quiet shape (fun entry member => ?_) (fun _ => id) rfl rfl nofun sound
      exact (Option.filter_eq_some_iff.mp member).1
  | reading begun =>
      cases acted
      obtain ⟨new, notForgetting, sounds⟩ := sound_read kept sound choice.fault rfl
      exact kept.quiet shape (fun _ => id) (fun _ => id) rfl new notForgetting sounds
  | promoting begun entry writes =>
      cases acted
      exact kept.promote shape inTurn
  | deleting begun =>
      cases acted
      refine kept.quiet shape (fun _ => id) (fun record member => ?_) rfl rfl nofun trivial
      split at member
      · exact member
      · cases member
  | setting response ttl =>
      cases acted
      exact kept.begin shape
  | remembering set =>
      cases acted
      exact kept.remember shape inTurn
  | storing set =>
      cases acted
      rw [inTurn.2]
      exact kept.store shape inTurn.1
  | removing =>
      cases acted
      exact kept.forgetMemory shape
  | forgetting =>
      cases acted
      rw [show choice.fault = false from inTurn]
      exact kept.forgetDisk shape
  | evicting =>
      cases acted
      exact kept.quiet shape nofun (fun _ => id) rfl rfl nofun trivial
  | returned | stored | removed | evicted => cases acted

theorem Kept.start (kept : Kept config) (request : CacheRequest) :
    Kept ⟨config.shared, config.calls ++ [CacheCall.start request]⟩ := by
  have earlier {other : CacheCall} (member : other ∈ config.calls ++ [CacheCall.start request])
      (differs : ∀ request, other ≠ CacheCall.start request) : other ∈ config.calls := by
    rcases List.mem_append.mp member with present | last
    · exact present
    · exact absurd (List.mem_singleton.mp last) (differs request)
  refine { kept with
    sound := Pool.forall_start kept.sound (by cases request <;> trivial)
    once := kept.once.start (by cases request <;> rfl)
    newest := fun entry member set storing => kept.newest entry member set (earlier storing ?_)
    cleared := fun forgetting => kept.cleared (earlier forgetting ?_) }
  · rintro (_ | _) <;> exact nofun
  · rintro (_ | _) <;> exact nofun

end Step

theorem Kept.step {config next : CacheConfig} {event : CacheEvent} (kept : Kept config)
    (inTurn : InTurn config event) (taken : program.step config event = some next) :
    Kept next := by
  rcases Pool.Program.step_cases taken with
    ⟨request, rfl, rfl⟩ | ⟨before, call, after, choice, cache, moved, rfl, shape, acted, rfl⟩
  · exact kept.start request
  · refine kept.act shape ?_ acted
    simpa only [InTurn, shape, Pool.getElem?_moved] using inTurn

/-- In every run in which no `get` remembers a disk hit that a set or a remove
has overtaken, no set writes once a remove has overtaken it, and the disk does
not fail. -/
theorem coherent_of_inTurn (stored : Option Bytes) (events : List CacheEvent)
    (inTurn : Machine.Within program.step InTurn (initial stored) events) :
    Machine.Throughout program.step Coherent (initial stored) events := by
  have kept : Machine.Throughout program.step Kept (initial stored) events :=
    Machine.throughout_of_within Kept (fun here allowed taken => here.step allowed taken)
      (kept_initial stored) inTurn
  exact Machine.throughout_mono Kept.coherent kept

/-- A set, and a get that finds its response on disk. -/
def readBack : List CacheEvent :=
  [.start (.set [1] 60), .advance 0 ⟨5, false⟩, .advance 0 ⟨5, false⟩, .advance 0 ⟨5, false⟩,
    .start .evict, .advance 1 ⟨5, false⟩, .start .get, .advance 2 ⟨6, false⟩,
    .advance 2 ⟨6, false⟩, .advance 2 ⟨6, false⟩, .advance 2 ⟨6, false⟩, .advance 2 ⟨6, false⟩]

theorem coherent_readBack :
    Machine.Throughout program.step Coherent (initial none) readBack ∧
      ∃ final, Machine.run program.step (initial none) readBack = some final ∧
        final.calls[2]? = some (.returned ⟨6, [⟨0, []⟩], 0⟩ (some ⟨[1], 65, 0⟩)) :=
  ⟨coherent_of_inTurn none readBack (by decide), _, rfl, rfl⟩

/-- A get reads the disk, a remove completes, and the get remembers what it has
read.  The next get returns it. -/
def overtaken : List CacheEvent :=
  [.start .get, .advance 0 ⟨5, false⟩, .advance 0 ⟨5, false⟩, .advance 0 ⟨5, false⟩,
    .advance 0 ⟨5, false⟩, .start .remove, .advance 1 ⟨5, false⟩, .advance 1 ⟨5, false⟩,
    .advance 0 ⟨5, false⟩, .start .get, .advance 2 ⟨5, false⟩, .advance 2 ⟨5, false⟩]

theorem removed_is_returned :
    ∃ final, Machine.run program.step (initial (some (u64ToBe 60 ++ [1]))) overtaken = some final ∧
      final.calls[1]? = some .removed ∧ final.shared.given.length = 1 ∧
        final.calls[2]? = some (.returned ⟨5, [⟨0, []⟩], 1⟩ (some ⟨[1], 60, 0⟩)) ∧
          ¬Coherent final := by
  refine ⟨_, rfl, rfl, rfl, rfl, fun coherent => ?_⟩
  have returnable := coherent ⟨5, [⟨0, []⟩], 1⟩ ⟨[1], 60, 0⟩ (by decide)
  exact absurd returnable.removed (by decide)

end DnsCache

end Dns

end QuicProxy
