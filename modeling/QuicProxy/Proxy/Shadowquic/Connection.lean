import QuicProxy.Data.Pool

namespace QuicProxy

/-! The QUIC connection that the streams and sessions of a ShadowQuic outbound
share, and the tasks that replace it (`src/proxy/outbound/shadowquic.rs`). -/

namespace ShadowQuicOutbound

/-- Connections are numbered as they are established.  `closed` are those with a close
reason, `refused` those whose auth stream shows that the server refused early data,
`marked` those of `mark_zero_rtt_rejected`, and `retired` those that were put out of
the cache while they went on. -/
structure ConnCache where
  cached : Option Nat
  established : Nat
  closed : List Nat
  refused : List Nat
  marked : List Nat
  retired : List Nat
deriving DecidableEq

/-- What a connection is wanted for.  A UDP session counts the rounds of
`open_udp_bistream_settled` and of `open_udp_bistream_with_capacity` that are left. -/
inductive Purpose where
  | stats
  | stream
  | udp (settling capacity : Nat)
deriving DecidableEq

inductive Call where
  | ensuring (purpose : Purpose) (retry : Bool)
  | probing (purpose : Purpose) (retry : Bool) (conn : Nat)
  | establishing (purpose : Purpose) (retry : Bool)
  | opening (purpose : Purpose) (retry : Bool) (conn : Nat)
  /-- `clear_cached_conn` of a connection that has failed. -/
  | clearing (purpose : Purpose) (retry : Bool) (conn : Nat)
  /-- `clear_cached_conn` of a connection that runs out of context ids. -/
  | retiring (settling capacity : Nat) (conn : Nat)
  | judging (settling : Nat) (conn : Nat)
  | watching (conn : Nat)
  /-- The rejection is marked and the connection closed; a UDP session goes on. -/
  | evicting (settling : Option Nat) (conn : Nat)
  | migrating
  | rebinding
  | losing (conn : Nat)
  | refusing (conn : Nat)
  | returned (conn : Nat)
  | failed
  | dropped
  | ended
deriving DecidableEq

inductive Request where
  | getUplinkStats
  | connectStream
  | connectPacket
  | watchZeroRtt (conn : Nat)
  | migrateCachedConn
  | loseConnection (conn : Nat)
  | refuseEarlyData (conn : Nat)

/-- The answer to what a task awaits, or the drop of its future.  A stream is
`exhausted` where the connection has too few context ids left. -/
inductive Answer where
  | ok
  | exhausted
  | failed
  | dropped
deriving DecidableEq

abbrev Config := Pool.Config ConnCache Call

abbrev Event := Pool.Event Request Answer

namespace Call

def start : Request → Call
  | .getUplinkStats => ensuring .stats false
  | .connectStream => ensuring .stream false
  | .connectPacket => ensuring (.udp 1 1) false
  | .watchZeroRtt conn => watching conn
  | .migrateCachedConn => migrating
  | .loseConnection conn => losing conn
  | .refuseEarlyData conn => refusing conn

/-- The task has the guard of `cached_client`. -/
def holds : Call → Bool
  | probing .. | establishing .. | rebinding => true
  | _ => false

def ensured (conn : Nat) (retry : Bool) : Purpose → Call
  | .stats => returned conn
  | purpose => opening purpose retry conn

def opened (conn : Nat) : Purpose → Call
  | .udp settling _ => judging settling conn
  | _ => returned conn

/-- The next round of `open_udp_bistream_settled`. -/
def settle : Nat → Call
  | 0 => failed
  | settling + 1 => ensuring (.udp settling 1) false

/-- The next round of `open_udp_bistream_with_capacity`. -/
def refill (settling : Nat) : Nat → Call
  | 0 => failed
  | capacity + 1 => ensuring (.udp settling capacity) false

end Call

def Free (config : Config) : Prop := ∀ call ∈ config.calls, call.holds = false

instance (config : Config) : Decidable (Free config) :=
  inferInstanceAs (Decidable (∀ call ∈ config.calls, _))

namespace ConnCache

variable (cache : ConnCache)

def close (conn : Nat) : ConnCache := { cache with closed := conn :: cache.closed }

def zeroRttRejected (conn : Nat) : Bool := conn ∈ cache.marked || conn ∈ cache.refused

def install : ConnCache :=
  { cache with cached := some cache.established, established := cache.established + 1 }

/-- A connection that saw its early data refused is given up first. -/
def unrejected : ConnCache :=
  match cache.cached with
  | some conn =>
      if cache.zeroRttRejected conn then { cache.close conn with cached := none } else cache
  | none => cache

/-- `ensure_connection` with the guard, up to what it awaits. -/
def ensure (purpose : Purpose) (retry healthy : Bool) : ConnCache × Call :=
  let cache := cache.unrejected
  match cache.cached with
  | some conn =>
      if conn ∈ cache.closed then (cache, .establishing purpose retry)
      else if healthy then (cache, .ensured conn retry purpose)
      else (cache, .probing purpose retry conn)
  | none => (cache, .establishing purpose retry)

/-- `clear_cached_conn` of a connection that is to be closed. -/
def clear (conn : Nat) : ConnCache :=
  if cache.cached = some conn then { cache.close conn with cached := none } else cache

def retire (conn : Nat) : ConnCache :=
  if cache.cached = some conn then
    { cache with cached := none, retired := conn :: cache.retired }
  else cache

def evict (conn : Nat) : ConnCache :=
  if cache.cached = some conn then { cache with cached := none } else cache

/-- A verdict that early data was rejected, up to the mutex. -/
def reject (settling : Option Nat) (conn : Nat) (seen : Call) : ConnCache × Call :=
  if conn ∈ cache.marked then (cache, seen)
  else ({ cache.close conn with marked := conn :: cache.marked }, .evicting settling conn)

def migrate : Call :=
  match cache.cached with
  | some _ => .rebinding
  | none => .ended

def reset : ConnCache :=
  match cache.cached with
  | some conn => { cache.close conn with cached := none }
  | none => cache

end ConnCache

def act (config : Config) (call : Call) (answer : Answer) : Option (ConnCache × Call) :=
  let cache := config.shared
  match call, answer with
  | .returned _, _ | .failed, _ | .dropped, _ | .ended, _ => none
  | .losing conn, _ =>
      if conn < cache.established then some (cache.close conn, .ended) else none
  | .refusing conn, _ =>
      if conn < cache.established then
        some ({ cache with refused := conn :: cache.refused }, .ended)
      else none
  | _, .dropped => some (cache, .dropped)
  | .ensuring purpose retry, answer =>
      if Free config then some (cache.ensure purpose retry (answer = .ok)) else none
  | .probing purpose retry conn, .ok => some (cache, .ensured conn retry purpose)
  | .probing _ _ conn, _ => some ({ cache.close conn with cached := none }, .failed)
  | .establishing purpose retry, .ok =>
      some (cache.install, .ensured cache.established retry purpose)
  | .establishing _ _, _ => some ({ cache with cached := none }, .failed)
  | .opening purpose _ conn, .ok => some (cache, .opened conn purpose)
  | .opening (.udp settling capacity) _ conn, .exhausted =>
      some (cache, .retiring settling capacity conn)
  | .opening _ _ _, .exhausted => none
  | .opening purpose retry conn, .failed => some (cache, .clearing purpose retry conn)
  | .clearing purpose retry conn, _ =>
      if Free config then
        some (cache.clear conn, if retry then .failed else .ensuring purpose true)
      else none
  | .retiring settling capacity conn, _ =>
      if Free config then some (cache.retire conn, .refill settling capacity) else none
  | .judging _ conn, .ok => some (cache, .returned conn)
  | .judging settling conn, _ => some (cache.reject (some settling) conn (.settle settling))
  | .watching _, .ok => some (cache, .ended)
  | .watching conn, _ =>
      if conn < cache.established then some (cache.reject none conn .ended) else none
  | .evicting settling conn, _ =>
      if Free config then some (cache.evict conn, settling.elim .ended .settle) else none
  | .migrating, _ => if Free config then some (cache, cache.migrate) else none
  | .rebinding, .ok => some (cache, .ended)
  | .rebinding, _ => some (cache.reset, .ended)

def program : Pool.Program ConnCache Call Request Answer where
  start := Call.start
  act := act

def initial : Config := ⟨⟨none, 0, [], [], [], []⟩, []⟩

/-! What the tasks do to the cache. -/

/-- What leaves the cache is closed, or goes on as one of the retired. -/
structure Keeps (cache after : ConnCache) : Prop where
  closed : cache.closed ⊆ after.closed
  retired : cache.retired ⊆ after.retired
  marked : cache.marked ⊆ cache.closed → after.marked ⊆ after.closed
  slot : after.cached = cache.cached ∧ after.established = cache.established ∨
    (∀ conn, cache.cached = some conn → conn ∈ after.closed ∨ conn ∈ after.retired) ∧
      (after.cached = none ∧ after.established = cache.established ∨
        after.cached = some cache.established ∧ after.established = cache.established + 1)

namespace ConnCache

variable {cache : ConnCache} {conn : Nat}

theorem keeps_refl (cache : ConnCache) : Keeps cache cache :=
  ⟨List.Subset.refl _, List.Subset.refl _, id, .inl ⟨rfl, rfl⟩⟩

theorem keeps_close (cache : ConnCache) (conn : Nat) : Keeps cache (cache.close conn) :=
  ⟨List.subset_cons_self _ _, List.Subset.refl _,
    fun within => List.subset_cons_of_subset _ within, .inl ⟨rfl, rfl⟩⟩

theorem keeps_drop (cached : cache.cached = some conn) :
    Keeps cache { cache.close conn with cached := none } := by
  refine ⟨List.subset_cons_self _ _, List.Subset.refl _,
    fun within => List.subset_cons_of_subset _ within, .inr ⟨?_, .inl ⟨rfl, rfl⟩⟩⟩
  intro other here
  cases cached.symm.trans here
  exact .inl List.mem_cons_self

theorem keeps_unrejected (cache : ConnCache) : Keeps cache cache.unrejected := by
  unfold unrejected
  cases cached : cache.cached with
  | none => exact keeps_refl cache
  | some conn =>
      dsimp only
      split
      · exact keeps_drop cached
      · exact keeps_refl cache

theorem keeps_clear (cache : ConnCache) (conn : Nat) : Keeps cache (cache.clear conn) := by
  unfold clear
  split
  · rename_i cached
    exact keeps_drop cached
  · exact keeps_refl cache

theorem keeps_reset (cache : ConnCache) : Keeps cache cache.reset := by
  unfold reset
  cases cached : cache.cached with
  | none => exact keeps_refl cache
  | some conn => exact keeps_drop cached

theorem keeps_retire (cache : ConnCache) (conn : Nat) : Keeps cache (cache.retire conn) := by
  unfold retire
  split
  · rename_i cached
    refine ⟨List.Subset.refl _, List.subset_cons_self _ _, id, .inr ⟨?_, .inl ⟨rfl, rfl⟩⟩⟩
    intro other here
    cases cached.symm.trans here
    exact .inr List.mem_cons_self
  · exact keeps_refl cache

theorem keeps_evict (closed : conn ∈ cache.closed) : Keeps cache (cache.evict conn) := by
  unfold evict
  split
  · rename_i cached
    refine ⟨List.Subset.refl _, List.Subset.refl _, id, .inr ⟨?_, .inl ⟨rfl, rfl⟩⟩⟩
    intro other here
    cases cached.symm.trans here
    exact .inl closed
  · exact keeps_refl cache

theorem keeps_install (closed : ∀ conn, cache.cached = some conn → conn ∈ cache.closed) :
    Keeps cache cache.install :=
  ⟨List.Subset.refl _, List.Subset.refl _, id,
    .inr ⟨fun conn cached => .inl (closed conn cached), .inr ⟨rfl, rfl⟩⟩⟩

theorem keeps_empty (closed : ∀ conn, cache.cached = some conn → conn ∈ cache.closed) :
    Keeps cache { cache with cached := none } :=
  ⟨List.Subset.refl _, List.Subset.refl _, id,
    .inr ⟨fun conn cached => .inl (closed conn cached), .inl ⟨rfl, rfl⟩⟩⟩

theorem keeps_reject (cache : ConnCache) (settling : Option Nat) (conn : Nat) (seen : Call) :
    Keeps cache (cache.reject settling conn seen).1 := by
  unfold reject
  split
  · exact keeps_refl cache
  · refine ⟨List.subset_cons_self _ _, List.Subset.refl _, fun within => ?_, .inl ⟨rfl, rfl⟩⟩
    exact List.cons_subset_cons _ within

end ConnCache

/-- The connections that are not cached are closed or retired, and the cached one is
the newest. -/
structure ConnCache.Sound (cache : ConnCache) : Prop where
  covered : Pool.Covered cache.established
    (cache.cached.toList ++ (cache.closed ++ cache.retired))
  newest : ∀ conn, cache.cached = some conn → conn + 1 = cache.established
  marked : cache.marked ⊆ cache.closed

theorem Keeps.sound {cache after : ConnCache} (keeps : Keeps cache after) (sound : cache.Sound) :
    after.Sound := by
  have gone : cache.closed ++ cache.retired ⊆ after.closed ++ after.retired :=
    List.append_subset.mpr ⟨List.subset_append_of_subset_left _ keeps.closed,
      List.subset_append_of_subset_right _ keeps.retired⟩
  rcases keeps.slot with ⟨cached, established⟩ | ⟨left, slot⟩
  · refine ⟨?_, ?_, keeps.marked sound.marked⟩
    · rw [cached, established]
      exact sound.covered.mono (List.append_subset.mpr
        ⟨List.subset_append_left _ _, List.subset_append_of_subset_right _ gone⟩)
    · rw [cached, established]
      exact sound.newest
  · have covered : Pool.Covered cache.established (after.closed ++ after.retired) := by
      intro conn old
      rcases List.mem_append.mp (sound.covered conn old) with here | there
      · exact List.mem_append.mpr (left conn (Option.mem_toList.mp here))
      · exact gone there
    rcases slot with ⟨cached, established⟩ | ⟨cached, established⟩
    · refine ⟨?_, ?_, keeps.marked sound.marked⟩
      · rw [cached, established]
        exact covered
      · intro conn here
        cases cached.symm.trans here
    · refine ⟨?_, ?_, keeps.marked sound.marked⟩
      · rw [cached, established]
        exact (covered.mono (List.subset_append_right _ _)).succ
          (List.mem_append_left _ (Option.mem_toList.mpr rfl))
      · intro conn here
        cases cached.symm.trans here
        exact established.symm

/-! What one operation of a task does. -/

namespace Call

/-- What a task relies on at its place. -/
def Fits (cache : ConnCache) : Call → Prop
  | probing _ _ conn => cache.cached = some conn
  | establishing .. => ∀ conn, cache.cached = some conn → conn ∈ cache.closed
  | evicting _ conn => conn ∈ cache.closed
  | _ => True

def plain : Call → Bool
  | probing .. | establishing .. | rebinding | evicting .. => false
  | _ => true

theorem holds_of_plain {call : Call} (plain : call.plain = true) : call.holds = false := by
  cases call with
  | probing | establishing | rebinding | evicting => cases plain
  | _ => rfl

theorem fits_of_plain {call : Call} (plain : call.plain = true) (cache : ConnCache) :
    call.Fits cache := by
  cases call with
  | probing | establishing | rebinding | evicting => cases plain
  | _ => trivial

theorem plain_ensured (conn : Nat) (retry : Bool) (purpose : Purpose) :
    (ensured conn retry purpose).plain = true := by
  cases purpose with
  | stats | stream | udp => rfl

theorem plain_opened (conn : Nat) (purpose : Purpose) : (opened conn purpose).plain = true := by
  cases purpose with
  | stats | stream | udp => rfl

theorem plain_settle (settling : Nat) : (settle settling).plain = true := by
  cases settling with
  | zero | succ => rfl

theorem plain_refill (settling capacity : Nat) : (refill settling capacity).plain = true := by
  cases capacity with
  | zero | succ => rfl

theorem plain_evicted (settling : Option Nat) : (settling.elim ended settle).plain = true := by
  cases settling with
  | none => rfl
  | some settling => exact plain_settle settling

/-- Another task may close connections, and leaves the slot to the holder of the
guard. -/
theorem Fits.kept {call : Call} {cache after : ConnCache} (fits : call.Fits cache)
    (closed : cache.closed ⊆ after.closed)
    (frame : call.holds = true → after.cached = cache.cached) : call.Fits after := by
  cases call with
  | probing => exact (frame rfl).trans fits
  | establishing => exact fun conn cached => closed (fits conn ((frame rfl).symm.trans cached))
  | evicting => exact closed fits
  | _ => trivial

end Call

structure Moves (config : Config) (call : Call) (after : ConnCache) (moved : Call) : Prop where
  keeps : Keeps config.shared after
  taken : moved.holds = true → call.holds = true ∨ Free config
  frame : call.holds = true ∨ Free config ∨ after.cached = config.shared.cached
  fits : moved.Fits after

section

variable {config next : Config} {call moved : Call} {answer : Answer} {after : ConnCache}

theorem moves_of_plain (keeps : Keeps config.shared after)
    (frame : call.holds = true ∨ Free config ∨ after.cached = config.shared.cached)
    (plain : moved.plain = true) : Moves config call after moved where
  keeps := keeps
  taken held := by cases (Call.holds_of_plain plain).symm.trans held
  frame := frame
  fits := Call.fits_of_plain plain after

theorem ensure_moves {purpose : Purpose} {retry healthy : Bool} (free : Free config)
    (ensured : config.shared.ensure purpose retry healthy = (after, moved)) :
    Moves config call after moved := by
  obtain rfl : _ = after := congrArg Prod.fst ensured
  obtain rfl : _ = moved := congrArg Prod.snd ensured
  have keeps := config.shared.keeps_unrejected
  unfold ConnCache.ensure
  dsimp only
  cases cached : config.shared.unrejected.cached with
  | none =>
      refine ⟨keeps, fun _ => .inr free, .inr (.inl free), fun conn here => ?_⟩
      cases cached.symm.trans here
  | some conn =>
      dsimp only
      by_cases closed : conn ∈ config.shared.unrejected.closed
      · rw [if_pos closed]
        refine ⟨keeps, fun _ => .inr free, .inr (.inl free), fun other here => ?_⟩
        cases cached.symm.trans here
        exact closed
      · rw [if_neg closed]
        cases healthy with
        | true => exact moves_of_plain keeps (.inr (.inl free)) (Call.plain_ensured ..)
        | false => exact ⟨keeps, fun _ => .inr free, .inr (.inl free), cached⟩

theorem reject_moves {settling : Option Nat} {conn : Nat} {seen : Call}
    (plain : seen.plain = true)
    (rejected : config.shared.reject settling conn seen = (after, moved)) :
    Moves config call after moved := by
  obtain rfl : _ = after := congrArg Prod.fst rejected
  obtain rfl : _ = moved := congrArg Prod.snd rejected
  have keeps := config.shared.keeps_reject settling conn seen
  unfold ConnCache.reject at keeps ⊢
  split
  · exact moves_of_plain config.shared.keeps_refl (.inr (.inr rfl)) plain
  · rename_i fresh
    rw [if_neg fresh] at keeps
    refine ⟨keeps, fun held => ?_, .inr (.inr rfl), List.mem_cons_self⟩
    cases held

theorem act_moves (fits : call.Fits config.shared)
    (acted : act config call answer = some (after, moved)) : Moves config call after moved := by
  have same {moved : Call} (plain : moved.plain = true) : Moves config call config.shared moved :=
    moves_of_plain config.shared.keeps_refl (.inr (.inr rfl)) plain
  unfold act at acted
  dsimp only at acted
  split at acted
  iterate 4 cases acted
  · split at acted
    · cases acted
      exact moves_of_plain (config.shared.keeps_close _) (.inr (.inr rfl)) rfl
    · cases acted
  · split at acted
    · cases acted
      exact moves_of_plain ⟨List.Subset.refl _, List.Subset.refl _, id, .inl ⟨rfl, rfl⟩⟩
        (.inr (.inr rfl)) rfl
    · cases acted
  · cases acted
    exact same rfl
  · split at acted
    · rename_i free
      exact ensure_moves free (Option.some.inj acted)
    · cases acted
  · cases acted
    exact same (Call.plain_ensured ..)
  · cases acted
    exact moves_of_plain (ConnCache.keeps_drop fits) (.inl rfl) rfl
  · cases acted
    exact moves_of_plain (ConnCache.keeps_install fits) (.inl rfl) (Call.plain_ensured ..)
  · cases acted
    exact moves_of_plain (ConnCache.keeps_empty fits) (.inl rfl) rfl
  · cases acted
    exact same (Call.plain_opened ..)
  · cases acted
    exact same rfl
  · cases acted
  · cases acted
    exact same rfl
  · split at acted
    · rename_i free
      cases acted
      refine moves_of_plain (config.shared.keeps_clear _) (.inr (.inl free)) ?_
      split
      · rfl
      · rfl
    · cases acted
  · split at acted
    · rename_i free
      cases acted
      exact moves_of_plain (config.shared.keeps_retire _) (.inr (.inl free)) (Call.plain_refill ..)
    · cases acted
  · cases acted
    exact same rfl
  · exact reject_moves (Call.plain_settle _) (Option.some.inj acted)
  · cases acted
    exact same rfl
  · split at acted
    · exact reject_moves rfl (Option.some.inj acted)
    · cases acted
  · split at acted
    · rename_i free
      cases acted
      exact moves_of_plain (ConnCache.keeps_evict fits) (.inr (.inl free)) (Call.plain_evicted _)
    · cases acted
  · split at acted
    · rename_i free
      cases acted
      unfold ConnCache.migrate
      split
      · exact ⟨config.shared.keeps_refl, fun _ => .inr free, .inr (.inl free), trivial⟩
      · exact same rfl
    · cases acted
  · cases acted
    exact same rfl
  · cases acted
    exact moves_of_plain config.shared.keeps_reset (.inl rfl) rfl

/-! Runs. -/

structure Sound (config : Config) : Prop where
  exclusive : Pool.Exclusive Call.holds config.calls
  cache : config.shared.Sound
  fits : ∀ call ∈ config.calls, call.Fits config.shared

theorem sound_initial : Sound initial where
  exclusive := Pool.exclusive_nil
  cache := {
    covered := fun conn old => absurd old (Nat.not_lt_zero conn)
    newest := fun conn here => by cases here
    marked := List.Subset.refl _ }
  fits call member := by cases member

theorem plain_start (request : Request) : (Call.start request).plain = true := by
  cases request with
  | _ => rfl

theorem Sound.step {event : Event} (sound : Sound config)
    (taken : program.step config event = some next) : Sound next := by
  rcases Pool.Program.step_cases taken with
    ⟨request, rfl, rfl⟩ | ⟨before, call, later, answer, cache, moved, rfl, shape, acted, rfl⟩
  · have plain := plain_start request
    exact ⟨sound.exclusive.start (Call.holds_of_plain plain), sound.cache,
      Pool.forall_start sound.fits (Call.fits_of_plain plain _)⟩
  · obtain ⟨shared, calls⟩ := config
    cases shape
    have here : call ∈ before ++ call :: later := List.mem_append_right _ List.mem_cons_self
    have moves := act_moves (sound.fits call here) acted
    -- another task has the guard only where this one neither has it nor takes it
    have alone (held : call.holds = true ∨ Free ⟨shared, before ++ call :: later⟩) :
        ∀ other ∈ before ++ later, other.holds = false := by
      rcases held with held | free
      · exact sound.exclusive.other held
      · exact fun other member => free other (Pool.mem_of_mem_others member)
    refine ⟨sound.exclusive.act fun held => alone (moves.taken held), moves.keeps.sound sound.cache,
      Pool.forall_moved moves.fits fun other member => ?_⟩
    refine (sound.fits other (Pool.mem_of_mem_others member)).kept moves.keeps.closed fun held => ?_
    rcases moves.frame with held' | free | same
    · cases (alone (.inl held') other member).symm.trans held
    · cases (alone (.inr free) other member).symm.trans held
    · exact same

def Purpose.rounds : Purpose → Nat
  | udp settling capacity => 17 * settling + 8 * capacity
  | stats | stream => 0

def again : Bool → Nat
  | true => 0
  | false => 4

/-- A bound for the operations that a task still has. -/
def Call.left : Call → Nat
  | ensuring purpose retry => purpose.rounds + again retry + 5
  | probing purpose retry _ | establishing purpose retry => purpose.rounds + again retry + 4
  | opening purpose retry _ => purpose.rounds + again retry + 3
  | clearing purpose retry _ => purpose.rounds + again retry + 2
  | retiring settling capacity _ => 17 * settling + 8 * capacity + 2
  | judging settling _ => 17 * settling + 2
  | evicting settling _ => 17 * settling.getD 0 + 1
  | watching _ | migrating => 2
  | rebinding | losing _ | refusing _ => 1
  | returned _ | failed | dropped | ended => 0

theorem left_ensured (conn : Nat) (retry : Bool) (purpose : Purpose) :
    (Call.ensured conn retry purpose).left < purpose.rounds + again retry + 4 := by
  cases purpose with
  | stats => exact Nat.succ_pos _
  | stream | udp => exact Nat.lt_succ_self _

theorem left_opened (conn : Nat) (retry : Bool) (purpose : Purpose) :
    (Call.opened conn purpose).left < purpose.rounds + again retry + 3 := by
  cases purpose with
  | stats | stream => exact Nat.succ_pos _
  | udp settling capacity =>
      simp only [Call.opened, Call.left, Purpose.rounds]
      omega

theorem left_settle (settling : Nat) : (Call.settle settling).left ≤ 17 * settling := by
  cases settling with
  | zero => exact Nat.le_refl _
  | succ settling =>
      simp only [Call.settle, Call.left, Purpose.rounds, again]
      omega

theorem left_refill (settling capacity : Nat) :
    (Call.refill settling capacity).left < 17 * settling + 8 * capacity + 2 := by
  cases capacity with
  | zero => exact Nat.succ_pos _
  | succ capacity =>
      simp only [Call.refill, Call.left, Purpose.rounds, again]
      omega

theorem left_ensure (cache : ConnCache) (purpose : Purpose) (retry healthy : Bool) :
    (cache.ensure purpose retry healthy).2.left < purpose.rounds + again retry + 5 := by
  unfold ConnCache.ensure
  dsimp only
  split
  · split
    · exact Nat.lt_succ_self _
    · split
      · exact Nat.lt_succ_of_lt (left_ensured ..)
      · exact Nat.lt_succ_self _
  · exact Nat.lt_succ_self _

theorem left_reject (cache : ConnCache) (settling : Option Nat) (conn : Nat) (seen : Call)
    (less : seen.left ≤ 17 * settling.getD 0) :
    (cache.reject settling conn seen).2.left < 17 * settling.getD 0 + 2 := by
  unfold ConnCache.reject
  split
  · exact Nat.lt_of_le_of_lt less (Nat.lt_add_of_pos_right (by decide))
  · exact Nat.lt_succ_self _

theorem act_left (acted : act config call answer = some (after, moved)) :
    moved.left < call.left := by
  unfold act at acted
  dsimp only at acted
  split at acted
  iterate 4 cases acted
  · split at acted
    · cases acted
      exact Nat.zero_lt_one
    · cases acted
  · split at acted
    · cases acted
      exact Nat.zero_lt_one
    · cases acted
  · rename_i given failed dropped ended _ _
    cases acted
    cases call with
    | returned conn => exact absurd rfl (given conn)
    | failed => exact absurd rfl failed
    | dropped => exact absurd rfl dropped
    | ended => exact absurd rfl ended
    | _ => exact Nat.succ_pos _
  · split at acted
    · obtain rfl : _ = moved := congrArg Prod.snd (Option.some.inj acted)
      exact left_ensure ..
    · cases acted
  · cases acted
    exact left_ensured ..
  · cases acted
    exact Nat.succ_pos _
  · cases acted
    exact left_ensured ..
  · cases acted
    exact Nat.succ_pos _
  · cases acted
    exact left_opened ..
  · cases acted
    simp only [Call.left, Purpose.rounds]
    omega
  · cases acted
  · cases acted
    exact Nat.lt_succ_self _
  · split at acted
    · rename_i purpose retry _ _ _
      cases acted
      cases retry with
      | true => exact Nat.succ_pos _
      | false => exact Nat.lt_succ_self _
    · cases acted
  · split at acted
    · cases acted
      exact left_refill ..
    · cases acted
  · cases acted
    exact Nat.succ_pos _
  · obtain rfl : _ = moved := congrArg Prod.snd (Option.some.inj acted)
    exact left_reject _ (some _) _ _ (left_settle _)
  · cases acted
    exact Nat.succ_pos _
  · split at acted
    · obtain rfl : _ = moved := congrArg Prod.snd (Option.some.inj acted)
      exact left_reject _ none _ _ (Nat.le_refl _)
    · cases acted
  · split at acted
    · rename_i settling _ _ _
      cases acted
      cases settling with
      | none => exact Nat.succ_pos _
      | some settling => exact Nat.lt_succ_of_le (left_settle settling)
    · cases acted
  · split at acted
    · cases acted
      unfold ConnCache.migrate
      split <;> decide
    · cases acted
  · cases acted
    exact Nat.zero_lt_one
  · cases acted
    exact Nat.zero_lt_one

theorem start_left (request : Request) : (Call.start request).left ≤ 34 := by
  cases request with
  | connectPacket => exact Nat.le_refl _
  | _ => exact Nat.le_of_ble_eq_true rfl

/-- Over every interleaving of streams, sessions, verdicts, migrations, losses and
dropped futures: one connection at a time is being established or probed, every
connection but the cached one is closed or goes on as one that ran out of context ids,
the cached one is the newest, one that was marked as rejected is closed, and no task
goes round for ever. -/
theorem run_ensured {events : List Event}
    (ran : Machine.run program.step initial events = some config) :
    (∀ (index place : Nat) (call other : Call), config.calls[index]? = some call →
      call.holds = true → config.calls[place]? = some other → other.holds = true →
        index = place) ∧
    (∀ conn < config.shared.established, conn ∉ config.shared.closed →
      conn ∉ config.shared.retired → config.shared.cached = some conn) ∧
    (∀ conn, config.shared.cached = some conn → conn + 1 = config.shared.established) ∧
    config.shared.marked ⊆ config.shared.closed ∧
    ∀ index, events.countP (Pool.Event.moves index) ≤ 34 := by
  have sound := Machine.run_invariant Sound (fun here taken => here.step taken) sound_initial ran
  refine ⟨fun index place call other found held found' held' =>
      sound.exclusive.index_eq found held found' held', ?_, sound.cache.newest,
    sound.cache.marked, fun index => ?_⟩
  · intro conn old opened going
    rcases List.mem_append.mp (sound.cache.covered conn old) with here | gone
    · exact Option.mem_toList.mp here
    · exact absurd gone fun member => (List.mem_append.mp member).elim opened going
  · have bounded := Pool.Program.run_bounded start_left act_left ran index
    exact Nat.le_trans (Nat.le_add_left _ _) bounded

/-- Two streams at once: the second waits for the connection of the first, which it
then finds lost, and gets a new one. -/
def lostBetween : List Event :=
  [.start .connectStream, .start .connectStream, .advance 0 .ok, .advance 0 .ok, .advance 0 .ok,
    .advance 1 .ok, .start (.loseConnection 0), .advance 2 .ok, .advance 1 .failed, .advance 1 .ok,
    .advance 1 .ok, .advance 1 .ok, .advance 1 .ok]

theorem run_ensured_lostBetween :
    ∃ config, Machine.run program.step initial lostBetween = some config ∧
      config.calls = [.returned 0, .returned 1, .ended] ∧
      ∀ conn, config.shared.cached = some conn → conn + 1 = config.shared.established := by
  have ran : Machine.run program.step initial lostBetween =
      some ⟨⟨some 1, 2, [0, 0], [], [], []⟩, [.returned 0, .returned 1, .ended]⟩ := rfl
  exact ⟨_, ran, rfl, (run_ensured ran).2.2.1⟩

end

end ShadowQuicOutbound

end QuicProxy
