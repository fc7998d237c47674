import Mathlib.Algebra.Ring.Nat
import QuicProxy.Data.Pool

namespace QuicProxy

/-! The connections of a DNS-over-HTTPS client: `DohClient::query` and the pool that
the queries of one outbound share (`src/dns/doh.rs`). -/

namespace DohClient

/-- Connections are numbered as they are made.  A spoiled one is an HTTP/1.1
connection whose last query has failed or has been dropped. -/
structure ConnPool where
  h2 : Option Nat
  h1Idle : List Nat
  h1Only : Bool
  created : Nat
  closed : List Nat
  spoiled : List Nat
deriving DecidableEq

inductive Conn where
  | h2 (id : Nat)
  | h1 (id : Nat)
deriving DecidableEq

def maxIdleH1 : Nat := 8

/-- A call of `query`, by the place it has reached, and a connection that closes. -/
inductive Call where
  | starting
  | taking
  | locking
  | dialing (locked : Bool)
  | installing (id : Nat)
  | unmarking (id : Nat)
  | sending (conn : Conn) (reused : Bool)
  | invalidating (id : Nat)
  | returned
  | failed
  | dropped
  | losing (id : Nat)
  | lost
deriving DecidableEq

inductive Request where
  | query
  | lose (id : Nat)

/-- What an operation comes to; the server of a new connection may have chosen
HTTP/1.1.  A time that runs out fails an exchange on a connection of the pool, and
drops any other. -/
inductive Answer where
  | ok
  | http1
  | failed
  | dropped
deriving DecidableEq

abbrev Config := Pool.Config ConnPool Call

abbrev Event := Pool.Event Request Answer

namespace Call

def start : Request → Call
  | .query => starting
  | .lose id => losing id

/-- The call has the slot of the HTTP/2 connection locked while it dials. -/
def holds : Call → Bool
  | dialing locked => locked
  | _ => false

/-- A connection that has failed is not tried again, but a new one is. -/
def retry : Conn → Call
  | .h2 id => invalidating id
  | .h1 _ => dialing false

end Call

/-- `take_idle_h1`. -/
def takeIdleH1 (closed : List Nat) : List Nat → Option Nat × List Nat
  | [] => (none, [])
  | id :: idle => if id ∈ closed then takeIdleH1 closed idle else (some id, idle)

namespace ConnPool

variable (pool : ConnPool)

/-- `put_idle_h1`; the last one in is the first one out. -/
def putIdleH1 (id : Nat) : ConnPool :=
  if id ∈ pool.closed then pool
  else if pool.h1Idle.length < maxIdleH1 then { pool with h1Idle := id :: pool.h1Idle }
  else pool

def invalidateH2 (id : Nat) : ConnPool :=
  if pool.h2 = some id then { pool with h2 := none } else pool

def take : ConnPool × Call :=
  match takeIdleH1 pool.closed pool.h1Idle with
  | (some id, idle) => ({ pool with h1Idle := idle }, .sending (.h1 id) true)
  | (none, idle) => ({ pool with h1Idle := idle }, .dialing false)

/-- What `acquire` finds in the slot. -/
def lookup : ConnPool × Call :=
  match pool.h2 with
  | some id =>
      if id ∈ pool.closed then ({ pool with h2 := none }, .dialing true)
      else (pool, .sending (.h2 id) true)
  | none => (pool, .dialing true)

/-- A query that is not answered takes an HTTP/1.1 connection with it. -/
def spoil : Conn → ConnPool
  | .h2 _ => pool
  | .h1 id => { pool with spoiled := id :: pool.spoiled }

def finish : Conn → ConnPool
  | .h2 _ => pool
  | .h1 id => pool.putIdleH1 id

def lose (id : Nat) : ConnPool :=
  if id ∈ pool.closed then pool else { pool with closed := id :: pool.closed }

end ConnPool

def Free (config : Config) : Prop := ∀ call ∈ config.calls, call.holds = false

instance (config : Config) : Decidable (Free config) :=
  inferInstanceAs (Decidable (∀ call ∈ config.calls, _))

def act (config : Config) (call : Call) (answer : Answer) : Option (ConnPool × Call) :=
  let pool := config.shared
  match call, answer with
  | .returned, _ | .failed, _ | .dropped, _ | .lost, _ => none
  | .losing id, _ => if id < pool.created then some (pool.lose id, .lost) else none
  | .sending conn _, .dropped => some (pool.spoil conn, .dropped)
  | _, .dropped => some (pool, .dropped)
  | .starting, _ => some (pool, if pool.h1Only then .taking else .locking)
  | .taking, _ => some pool.take
  | .locking, _ => if Free config then some pool.lookup else none
  | .dialing _, .failed => some (pool, .failed)
  | .dialing _, .http1 =>
      some ({ pool with created := pool.created + 1, h1Only := true },
        .sending (.h1 pool.created) false)
  | .dialing true, .ok =>
      some ({ pool with created := pool.created + 1, h2 := some pool.created },
        .sending (.h2 pool.created) false)
  | .dialing false, .ok =>
      some ({ pool with created := pool.created + 1 }, .installing pool.created)
  | .installing id, _ =>
      if Free config then some ({ pool with h2 := some id }, .unmarking id) else none
  | .unmarking id, _ => some ({ pool with h1Only := false }, .sending (.h2 id) false)
  | .sending conn true, .failed => some (pool.spoil conn, .retry conn)
  | .sending conn false, .failed => some (pool.spoil conn, .failed)
  | .sending conn _, _ => some (pool.finish conn, .returned)
  | .invalidating id, _ =>
      if Free config then some (pool.invalidateH2 id, .dialing false) else none

def program : Pool.Program ConnPool Call Request Answer where
  start := Call.start
  act := act

def initial : Config := ⟨⟨none, [], false, 0, [], []⟩, []⟩

/-! What every operation keeps. -/

def Call.hand : Call → Option Nat
  | installing id | sending (.h1 id) _ => some id
  | _ => none

def ConnPool.kept (pool : ConnPool) : List Nat :=
  pool.h2.toList ++ pool.h1Idle ++ pool.spoiled

def places (config : Config) : List Nat :=
  config.shared.kept ++ config.calls.filterMap Call.hand

structure Sound (config : Config) : Prop where
  exclusive : Pool.Exclusive Call.holds config.calls
  once : Pool.Once config.shared.created (places config)
  closed : ∀ id ∈ config.shared.closed, id < config.shared.created
  empty : ∀ call ∈ config.calls, call.holds = true → config.shared.h2 = none
  idle : config.shared.h1Idle.length ≤ maxIdleH1

structure Moves (config : Config) (call : Call) (after : ConnPool) (moved : Call)
    (fresh : List Nat) : Prop where
  taken : moved.holds = true → (call.holds = true ∨ Free config) ∧ after.h2 = none
  frame : call.holds = true ∨ Free config ∨ after.h2 = config.shared.h2
  closed : (∀ id ∈ config.shared.closed, id < config.shared.created) →
    ∀ id ∈ after.closed, id < after.created
  idle : config.shared.h1Idle.length ≤ maxIdleH1 → after.h1Idle.length ≤ maxIdleH1
  numbered : fresh = [] ∨ fresh = [config.shared.created]
  counted : after.created = config.shared.created + fresh.length
  conserved (id : Nat) : after.kept.count id + moved.hand.toList.count id ≤
    config.shared.kept.count id + call.hand.toList.count id + fresh.count id

section

variable {config next : Config} {call moved : Call} {answer : Answer} {after : ConnPool}
  {fresh : List Nat}

theorem count_kept (pool : ConnPool) (id : Nat) : pool.kept.count id =
    pool.h2.toList.count id + pool.h1Idle.count id + pool.spoiled.count id := by
  rw [ConnPool.kept, List.count_append, List.count_append]

theorem moves_of_same (hand : moved.hand = none)
    (taken : moved.holds = true → (call.holds = true ∨ Free config) ∧ config.shared.h2 = none) :
    Moves config call config.shared moved [] where
  taken := taken
  frame := .inr (.inr rfl)
  closed := id
  idle := id
  numbered := .inl rfl
  counted := rfl
  conserved _ := by
    rw [hand]
    exact Nat.le_trans (Nat.le_add_right _ _) (Nat.le_add_right _ _)

theorem moves_of_pool (quiet : moved.holds = false) (slot : after.h2 = config.shared.h2)
    (created : after.created = config.shared.created)
    (closed : after.closed = config.shared.closed)
    (idle : config.shared.h1Idle.length ≤ maxIdleH1 → after.h1Idle.length ≤ maxIdleH1)
    (conserved : ∀ id, after.h1Idle.count id + after.spoiled.count id +
        moved.hand.toList.count id ≤ config.shared.h1Idle.count id +
          config.shared.spoiled.count id + call.hand.toList.count id) :
    Moves config call after moved [] where
  taken held := by cases quiet.symm.trans held
  frame := .inr (.inr slot)
  closed := by
    rw [closed, created]
    exact id
  idle := idle
  numbered := .inl rfl
  counted := created
  conserved id := by
    have here := conserved id
    rw [count_kept, count_kept, slot, List.count_nil]
    omega

theorem takeIdleH1_spec (closed idle : List Nat) :
    (takeIdleH1 closed idle).2.length ≤ idle.length ∧ ∀ id,
      (takeIdleH1 closed idle).2.count id + (takeIdleH1 closed idle).1.toList.count id ≤
        idle.count id := by
  induction idle with
  | nil => exact ⟨Nat.le_refl _, fun _ => Nat.le_refl _⟩
  | cons id idle ih =>
      rw [takeIdleH1]
      split
      · refine ⟨Nat.le_succ_of_le ih.1, fun other => Nat.le_trans (ih.2 other) ?_⟩
        exact List.count_le_count_cons
      · refine ⟨Nat.le_succ _, fun other => ?_⟩
        simp only [Option.toList_some, List.count_cons, List.count_nil]
        omega

theorem take_moves (taken : config.shared.take = (after, moved)) :
    Moves config .taking after moved [] := by
  obtain ⟨shorter, counts⟩ := takeIdleH1_spec config.shared.closed config.shared.h1Idle
  unfold ConnPool.take at taken
  split at taken
  all_goals
    rename_i same
    cases taken
    simp only [same] at shorter counts
    refine moves_of_pool rfl rfl rfl rfl (Nat.le_trans shorter) fun other => ?_
    have here := counts other
    simp only [Call.hand, Option.toList_none, List.count_nil] at here ⊢
    omega

theorem lookup_moves (free : Free config) (found : config.shared.lookup = (after, moved)) :
    Moves config .locking after moved [] := by
  unfold ConnPool.lookup at found
  split at found
  · split at found
    · cases found
      refine ⟨fun _ => ⟨.inr free, rfl⟩, .inr (.inl free), id, id, .inl rfl, rfl, fun other => ?_⟩
      simp only [count_kept, Call.hand, Option.toList_none, List.count_nil]
      omega
    · cases found
      refine moves_of_same rfl fun held => ?_
      cases held
  · rename_i empty
    cases found
    exact moves_of_same rfl fun _ => ⟨.inr free, empty⟩

theorem spoil_moves {conn : Conn} {reused : Bool} (quiet : moved.holds = false)
    (hand : moved.hand = none) :
    Moves config (.sending conn reused) (config.shared.spoil conn) moved [] := by
  cases conn with
  | h2 id =>
      refine moves_of_same hand fun held => ?_
      cases quiet.symm.trans held
  | h1 id =>
      refine moves_of_pool quiet rfl rfl rfl (fun bound => bound) fun other => ?_
      rw [hand]
      simp only [ConnPool.spoil, Call.hand, Option.toList_none, Option.toList_some, List.count_nil,
        List.count_cons]
      omega

theorem finish_moves (conn : Conn) (reused : Bool) :
    Moves config (.sending conn reused) (config.shared.finish conn) .returned [] := by
  have same : Moves config (.sending conn reused) config.shared .returned [] := by
    refine moves_of_same rfl fun held => ?_
    cases held
  cases conn with
  | h2 id => exact same
  | h1 id =>
      simp only [ConnPool.finish, ConnPool.putIdleH1]
      split
      · exact same
      · split
        · rename_i room
          refine moves_of_pool rfl rfl rfl rfl (fun _ => room) fun other => ?_
          simp only [Call.hand, Option.toList_none, Option.toList_some, List.count_nil,
            List.count_cons]
          omega
        · exact same

theorem act_moves (empty : call.holds = true → config.shared.h2 = none)
    (acted : act config call answer = some (after, moved)) :
    ∃ fresh, Moves config call after moved fresh := by
  have same {moved : Call} (hand : moved.hand = none) (quiet : moved.holds = false) :
      Moves config call config.shared moved [] := by
    refine moves_of_same hand fun held => ?_
    cases quiet.symm.trans held
  unfold act at acted
  dsimp only at acted
  split at acted
  iterate 4 cases acted
  · split at acted
    · rename_i old
      cases acted
      unfold ConnPool.lose
      split
      · exact ⟨[], same rfl rfl⟩
      · refine ⟨[], fun held => ?_, .inr (.inr rfl), fun bound other gone => ?_, fun bound => bound,
          .inl rfl, rfl, fun other => Nat.le_refl _⟩
        · cases held
        · rcases List.mem_cons.mp gone with rfl | gone
          · exact old
          · exact bound other gone
    · cases acted
  · cases acted
    exact ⟨[], spoil_moves rfl rfl⟩
  · cases acted
    exact ⟨[], same rfl rfl⟩
  · cases acted
    cases config.shared.h1Only with
    | true => exact ⟨[], same rfl rfl⟩
    | false => exact ⟨[], same rfl rfl⟩
  · exact ⟨[], take_moves (Option.some.inj acted)⟩
  · split at acted
    · rename_i free
      exact ⟨[], lookup_moves free (Option.some.inj acted)⟩
    · cases acted
  · cases acted
    exact ⟨[], same rfl rfl⟩
  · cases acted
    refine ⟨[config.shared.created], fun held => ?_, .inr (.inr rfl),
      fun bound other gone => Nat.lt_succ_of_lt (bound other gone), fun bound => bound, .inr rfl,
      rfl, fun other => ?_⟩
    · cases held
    · simp only [count_kept, Call.hand, Option.toList_none, Option.toList_some, List.count_nil]
      omega
  · cases acted
    have slot := empty rfl
    refine ⟨[config.shared.created], fun held => ?_, .inl rfl,
      fun bound other gone => Nat.lt_succ_of_lt (bound other gone), fun bound => bound, .inr rfl,
      rfl, fun other => ?_⟩
    · cases held
    · simp only [count_kept, slot, Call.hand, Option.toList_none, Option.toList_some,
        List.count_nil]
      omega
  · cases acted
    refine ⟨[config.shared.created], fun held => ?_, .inr (.inr rfl),
      fun bound other gone => Nat.lt_succ_of_lt (bound other gone), fun bound => bound, .inr rfl,
      rfl, fun other => ?_⟩
    · cases held
    · simp only [count_kept, Call.hand, Option.toList_none, Option.toList_some, List.count_nil]
      omega
  · split at acted
    · rename_i free
      cases acted
      refine ⟨[], fun held => ?_, .inr (.inl free), id, id, .inl rfl, rfl, fun other => ?_⟩
      · cases held
      · simp only [count_kept, Call.hand, Option.toList_none, Option.toList_some, List.count_nil]
        omega
    · cases acted
  · cases acted
    refine ⟨[], moves_of_pool rfl rfl rfl rfl id fun other => ?_⟩
    simp only [Call.hand, Option.toList_none, List.count_nil]
    omega
  · cases acted
    rename_i conn
    cases conn with
    | h2 id => exact ⟨[], spoil_moves rfl rfl⟩
    | h1 id => exact ⟨[], spoil_moves rfl rfl⟩
  · cases acted
    exact ⟨[], spoil_moves rfl rfl⟩
  · cases acted
    exact ⟨[], finish_moves ..⟩
  · split at acted
    · rename_i free
      cases acted
      unfold ConnPool.invalidateH2
      split
      · refine ⟨[], fun held => ?_, .inr (.inl free), id, id, .inl rfl, rfl, fun other => ?_⟩
        · cases held
        · simp only [count_kept, Call.hand, Option.toList_none, List.count_nil]
          omega
      · exact ⟨[], same rfl rfl⟩
    · cases acted

theorem sound_initial : Sound initial where
  exclusive := Pool.exclusive_nil
  once _ := Nat.zero_le _
  closed id gone := by cases gone
  empty call member := by cases member
  idle := Nat.zero_le _

theorem Sound.start (sound : Sound config) (request : Request) :
    Sound ⟨config.shared, config.calls ++ [Call.start request]⟩ := by
  have plain : (Call.start request).holds = false ∧ (Call.start request).hand = none := by
    cases request with
    | query | lose => exact ⟨rfl, rfl⟩
  obtain ⟨quiet, hand⟩ := plain
  refine ⟨sound.exclusive.start quiet, ?_, sound.closed,
    Pool.forall_start sound.empty fun held => ?_, sound.idle⟩
  · intro id
    have once := sound.once id
    rw [places] at once ⊢
    rw [List.filterMap_append, List.filterMap_cons_none hand, List.filterMap_nil, List.append_nil]
    exact once
  · cases quiet.symm.trans held

theorem Sound.act {before later : List Call} {pool : ConnPool}
    (sound : Sound ⟨pool, before ++ call :: later⟩)
    (moves : Moves ⟨pool, before ++ call :: later⟩ call after moved fresh) :
    Sound ⟨after, before ++ moved :: later⟩ := by
  have alone (held : call.holds = true ∨ Free ⟨pool, before ++ call :: later⟩) :
      ∀ other ∈ before ++ later, other.holds = false := by
    rcases held with held | free
    · exact sound.exclusive.other held
    · exact fun other member => free other (Pool.mem_of_mem_others member)
  refine ⟨sound.exclusive.act fun held => alone (moves.taken held).1,
    sound.once.step moves.numbered moves.counted fun id => ?_, moves.closed sound.closed,
    Pool.forall_moved (fun held => (moves.taken held).2) fun other member held => ?_,
    moves.idle sound.idle⟩
  · have conserved := moves.conserved id
    have here := Pool.count_filterMap_act Call.hand before later call moved id
    simp only [places, List.count_append] at conserved ⊢
    omega
  · rcases moves.frame with held' | free | same
    · cases (alone (.inl held') other member).symm.trans held
    · cases (alone (.inr free) other member).symm.trans held
    · exact same.trans (sound.empty other (Pool.mem_of_mem_others member) held)

theorem Sound.step {event : Event} (sound : Sound config)
    (taken : program.step config event = some next) : Sound next := by
  rcases Pool.Program.step_cases taken with
    ⟨request, rfl, rfl⟩ | ⟨before, call, later, answer, pool, moved, rfl, shape, acted, rfl⟩
  · exact sound.start request
  · obtain ⟨shared, calls⟩ := config
    cases shape
    have here : call ∈ before ++ call :: later := List.mem_append_right _ List.mem_cons_self
    obtain ⟨fresh, moves⟩ := act_moves (sound.empty call here) acted
    exact sound.act moves

/-! How long a query takes. -/

def Call.left : Call → Nat
  | starting => 8
  | taking | locking => 7
  | sending _ true => 6
  | invalidating _ => 5
  | dialing _ => 4
  | installing _ => 3
  | unmarking _ => 2
  | sending _ false | losing _ => 1
  | returned | failed | dropped | lost => 0

theorem act_left (acted : act config call answer = some (after, moved)) :
    moved.left < call.left := by
  unfold act at acted
  dsimp only at acted
  split at acted
  iterate 4 cases acted
  · split at acted
    · cases acted
      exact Nat.zero_lt_one
    · cases acted
  · rename_i conn reused
    cases acted
    cases reused with
    | true => exact Nat.succ_pos _
    | false => exact Nat.succ_pos _
  · rename_i returned failed dropped lost _ _
    cases acted
    cases call with
    | returned => exact absurd rfl returned
    | failed => exact absurd rfl failed
    | dropped => exact absurd rfl dropped
    | lost => exact absurd rfl lost
    | sending conn reused =>
        cases reused with
        | true => exact Nat.succ_pos _
        | false => exact Nat.succ_pos _
    | _ => exact Nat.succ_pos _
  · cases acted
    cases config.shared.h1Only with
    | true => exact Nat.lt_succ_self _
    | false => exact Nat.lt_succ_self _
  · obtain rfl : _ = moved := congrArg Prod.snd (Option.some.inj acted)
    unfold ConnPool.take
    split
    · exact Nat.lt_succ_self _
    · exact Nat.le_of_ble_eq_true rfl
  · split at acted
    · obtain rfl : _ = moved := congrArg Prod.snd (Option.some.inj acted)
      unfold ConnPool.lookup
      split
      · split
        · exact Nat.le_of_ble_eq_true rfl
        · exact Nat.lt_succ_self _
      · exact Nat.le_of_ble_eq_true rfl
    · cases acted
  iterate 4
    · cases acted
      simp [Call.left]
  · split at acted
    · cases acted
      exact Nat.lt_succ_self _
    · cases acted
  · cases acted
    exact Nat.lt_succ_self _
  · rename_i conn
    cases acted
    cases conn with
    | h2 id => exact Nat.lt_succ_self _
    | h1 id => exact Nat.le_of_ble_eq_true rfl
  · cases acted
    exact Nat.zero_lt_one
  · rename_i reused _ _ _
    cases acted
    cases reused with
    | true => exact Nat.succ_pos _
    | false => exact Nat.succ_pos _
  · split at acted
    · cases acted
      exact Nat.lt_succ_self _
    · cases acted

/-- Over every order of the queries' steps, of closing connections and dropped queries:
one query at a time dials with the slot locked; the connection of the slot, the idle
ones, the spoiled ones and those that a query alone has are all different; at most
eight are idle; and no query goes round for ever. -/
theorem run_exclusive {events : List Event}
    (ran : Machine.run program.step initial events = some config) :
    (∀ (index place : Nat) (call other : Call), config.calls[index]? = some call →
      call.holds = true → config.calls[place]? = some other → other.holds = true →
        index = place) ∧
    (places config).Nodup ∧ config.shared.h1Idle.length ≤ 8 ∧
    ∀ index, events.countP (Pool.Event.moves index) ≤ 8 := by
  have sound := Machine.run_invariant Sound (fun here taken => here.step taken) sound_initial ran
  refine ⟨fun index place call other found held found' held' =>
      sound.exclusive.index_eq found held found' held', sound.once.nodup, sound.idle,
    fun index => ?_⟩
  have starts (request : Request) : (Call.start request).left ≤ 8 := by
    cases request with
    | query => exact Nat.le_refl _
    | lose => exact Nat.le_of_ble_eq_true rfl
  have bounded := Pool.Program.run_bounded starts act_left ran index
  exact Nat.le_trans (Nat.le_add_left _ _) bounded

/-- Two queries have a connection of their own each; the first one's is idle then, and
fails a third query. -/
def spoiledIdle : List Event :=
  [.start .query, .start .query, .advance 0 .ok, .advance 1 .ok, .advance 0 .ok,
    .advance 0 .http1, .advance 1 .ok, .advance 1 .http1, .advance 0 .ok, .start .query,
    .advance 2 .ok, .advance 2 .ok, .advance 2 .failed]

theorem run_exclusive_spoiledIdle :
    ∃ config, Machine.run program.step initial spoiledIdle = some config ∧
      config.calls = [.returned, .sending (.h1 1) false, .dialing false] ∧
      config.shared.spoiled = [0] ∧ (places config).Nodup := by
  have ran : Machine.run program.step initial spoiledIdle =
      some ⟨⟨none, [], true, 2, [], [0]⟩,
        [.returned, .sending (.h1 1) false, .dialing false]⟩ := rfl
  exact ⟨_, ran, rfl, rfl, (run_exclusive ran).2.1⟩

/-! A server that speaks HTTP/2. -/

def Call.modern : Call → Bool
  | taking | sending (.h1 _) _ => false
  | _ => true

structure Modern (config : Config) : Prop where
  sound : Sound config
  only : config.shared.h1Only = false
  modern : ∀ call ∈ config.calls, call.modern = true

/-- How many connections have to be made anew: for a query that fails on a connection
of the pool, the slot's and its own; for one that closes, itself. -/
def Call.strain : Call → Answer → Nat
  | sending _ true, .failed => 2
  | losing _, _ => 1
  | _, _ => 0

def strain (config : Config) : Event → Nat
  | .start _ => 0
  | .advance index answer => config.calls[index]?.elim 0 (·.strain answer)

/-- Whether the next query that looks into the slot has to dial. -/
def ConnPool.absent (pool : ConnPool) : Nat :=
  match pool.h2 with
  | none => 1
  | some id => if id ∈ pool.closed then 1 else 0

def Call.due (closed : List Nat) : Call → Nat
  | invalidating _ => 2
  | dialing false => 1
  | installing id => if id ∈ closed then 1 else 0
  | _ => 0

def charge (config : Config) : Nat :=
  config.shared.created + config.shared.absent +
    (config.calls.map (Call.due config.shared.closed)).sum

theorem absent_le (pool : ConnPool) : pool.absent ≤ 1 := by
  unfold ConnPool.absent
  split
  · exact Nat.le_refl _
  · split
    · exact Nat.le_refl _
    · exact Nat.zero_le _

/-- A connection that closes was in the slot, or a call is about to put it there. -/
theorem sum_due_lose (closed : List Nat) (id : Nat) (calls : List Call) :
    (calls.map (Call.due (id :: closed))).sum ≤
      (calls.map (Call.due closed)).sum + (calls.filterMap Call.hand).count id := by
  induction calls with
  | nil => exact Nat.le_refl _
  | cons call calls ih =>
      have here : call.due (id :: closed) ≤ call.due closed + call.hand.toList.count id := by
        cases call with
        | installing other =>
            simp only [Call.due, Call.hand, Option.toList_some, List.count_singleton, beq_iff_eq,
              List.mem_cons]
            by_cases same : other = id
            · rw [if_pos (.inl same), if_pos same]
              exact Nat.le_add_left _ _
            · simp only [same, false_or, if_false]
              exact Nat.le_refl _
        | dialing locked =>
            cases locked with
            | true => exact Nat.le_add_right _ _
            | false => exact Nat.le_add_right _ _
        | _ => exact Nat.le_add_right _ _
      have split : ((call :: calls).filterMap Call.hand).count id =
          call.hand.toList.count id + (calls.filterMap Call.hand).count id := by
        cases hand : call.hand with
        | none =>
            rw [List.filterMap_cons_none hand, Option.toList_none, List.count_nil, Nat.zero_add]
        | some other =>
            rw [List.filterMap_cons_some hand, Option.toList_some, List.count_cons,
              List.count_singleton, Nat.add_comm]
      rw [List.map_cons, List.map_cons, List.sum_cons, List.sum_cons]
      omega

theorem absent_lose (pool : ConnPool) (id : Nat) :
    (pool.lose id).absent ≤ pool.absent + pool.h2.toList.count id := by
  unfold ConnPool.lose
  split
  · exact Nat.le_add_right _ _
  · simp only [ConnPool.absent]
    cases pool.h2 with
    | none => exact Nat.le_add_right _ _
    | some other =>
        simp only [Option.toList_some, List.count_singleton, beq_iff_eq, List.mem_cons]
        by_cases same : other = id
        · rw [if_pos (.inl same), if_pos same]
          exact Nat.le_add_left _ _
        · simp only [same, false_or, if_false]
          exact Nat.le_refl _

theorem act_charged (empty : call.holds = true → config.shared.h2 = none)
    (old : ∀ id ∈ config.shared.closed, id < config.shared.created)
    (only : config.shared.h1Only = false) (modern : call.modern = true)
    (http2 : answer ≠ .http1) (stays : ∀ id, call ≠ .losing id)
    (acted : act config call answer = some (after, moved)) :
    after.closed = config.shared.closed ∧ after.h1Only = false ∧ moved.modern = true ∧
      after.created + after.absent + moved.due config.shared.closed ≤
        config.shared.created + config.shared.absent + call.due config.shared.closed +
          call.strain answer := by
  unfold act at acted
  dsimp only at acted
  split at acted
  iterate 4 cases acted
  · exact absurd rfl (stays _)
  · rename_i conn _
    cases acted
    cases conn with
    | h2 id => exact ⟨rfl, only, rfl, Nat.le_add_right _ _⟩
    | h1 id => cases modern
  · cases acted
    exact ⟨rfl, only, rfl, Nat.le_trans (Nat.le_add_right _ _) (Nat.le_add_right _ _)⟩
  · cases acted
    rw [only]
    exact ⟨rfl, rfl, rfl, Nat.le_refl _⟩
  · cases modern
  · split at acted
    · unfold ConnPool.lookup at acted
      split at acted
      · rename_i id slot
        split at acted
        · rename_i gone
          cases acted
          refine ⟨rfl, only, rfl, ?_⟩
          simp [ConnPool.absent, slot, gone, Call.due]
        · cases acted
          exact ⟨rfl, only, rfl, Nat.le_refl _⟩
      · cases acted
        exact ⟨rfl, only, rfl, Nat.le_refl _⟩
    · cases acted
  · cases acted
    exact ⟨rfl, only, rfl, Nat.le_trans (Nat.le_add_right _ _) (Nat.le_add_right _ _)⟩
  · exact absurd rfl http2
  · cases acted
    have fresh : config.shared.created ∉ config.shared.closed := fun gone =>
      Nat.lt_irrefl _ (old _ gone)
    refine ⟨rfl, only, rfl, ?_⟩
    simp [ConnPool.absent, empty rfl, fresh, Call.due]
  · cases acted
    have fresh : config.shared.created ∉ config.shared.closed := fun gone =>
      Nat.lt_irrefl _ (old _ gone)
    refine ⟨rfl, only, rfl, ?_⟩
    show config.shared.created + 1 + config.shared.absent +
        (if config.shared.created ∈ config.shared.closed then 1 else 0) ≤
      config.shared.created + config.shared.absent + 1 + 0
    rw [if_neg fresh]
    omega
  · split at acted
    · cases acted
      refine ⟨rfl, only, rfl, ?_⟩
      simp only [ConnPool.absent, Call.due]
      omega
    · cases acted
  · cases acted
    exact ⟨rfl, rfl, rfl, Nat.le_refl _⟩
  · rename_i conn
    cases acted
    cases conn with
    | h2 id => exact ⟨rfl, only, rfl, Nat.le_refl _⟩
    | h1 id => cases modern
  · rename_i conn
    cases acted
    cases conn with
    | h2 id => exact ⟨rfl, only, rfl, Nat.le_refl _⟩
    | h1 id => cases modern
  · rename_i conn _ _ _ _
    cases acted
    cases conn with
    | h2 id => exact ⟨rfl, only, rfl, Nat.le_add_right _ _⟩
    | h1 id => cases modern
  · split at acted
    · rename_i id _ _
      cases acted
      have bound := absent_le (config.shared.invalidateH2 id)
      unfold ConnPool.invalidateH2 at bound ⊢
      split
      · rename_i slot
        rw [if_pos slot] at bound
        refine ⟨rfl, only, rfl, ?_⟩
        simp only [Call.due]
        omega
      · refine ⟨rfl, only, rfl, ?_⟩
        simp only [Call.due]
        omega
    · cases acted

theorem charge_act {before later : List Call} {pool : ConnPool} {more : Nat}
    (closed : after.closed = pool.closed)
    (charged : after.created + after.absent + moved.due pool.closed ≤
      pool.created + pool.absent + call.due pool.closed + more) :
    charge ⟨after, before ++ moved :: later⟩ ≤ charge ⟨pool, before ++ call :: later⟩ + more := by
  simp only [charge, closed, List.map_append, List.map_cons, List.sum_append, List.sum_cons]
  omega

theorem charge_lose {before later : List Call} {pool : ConnPool} {id : Nat}
    (sound : Sound ⟨pool, before ++ .losing id :: later⟩) :
    charge ⟨pool.lose id, before ++ .lost :: later⟩ ≤
      charge ⟨pool, before ++ .losing id :: later⟩ + 1 := by
  have once := List.nodup_iff_count_le_one.mp sound.once.nodup id
  simp only [places, List.count_append, count_kept] at once
  have absent := absent_lose pool id
  have due := sum_due_lose pool.closed id (before ++ .losing id :: later)
  have less : (pool.lose id).closed = pool.closed ∨ (pool.lose id).closed = id :: pool.closed := by
    unfold ConnPool.lose
    split
    · exact .inl rfl
    · exact .inr rfl
  have created : (pool.lose id).created = pool.created := by
    unfold ConnPool.lose
    split
    · rfl
    · rfl
  simp only [List.map_append, List.map_cons, List.sum_append, List.sum_cons] at due
  simp only [charge, created, List.map_append, List.map_cons, List.sum_append, List.sum_cons]
  simp only [Call.due] at due ⊢
  rcases less with same | same
  · rw [same]
    omega
  · rw [same]
    omega

theorem Modern.step {event : Event} (modern : Modern config)
    (http2 : ∀ index, event ≠ .advance index .http1)
    (taken : program.step config event = some next) :
    Modern next ∧ charge next ≤ charge config + strain config event := by
  have sound := modern.sound.step taken
  rcases Pool.Program.step_cases taken with
    ⟨request, rfl, rfl⟩ | ⟨before, call, later, answer, pool, moved, rfl, shape, acted, rfl⟩
  · have plain : (program.start request).modern = true ∧
        (program.start request).due config.shared.closed = 0 := by
      cases request with
      | query | lose => exact ⟨rfl, rfl⟩
    refine ⟨⟨sound, modern.only, Pool.forall_start modern.modern plain.1⟩, ?_⟩
    simp only [charge, List.map_append, List.map_singleton, List.sum_append, plain.2,
      List.sum_singleton]
    exact Nat.le_refl _
  · obtain ⟨shared, calls⟩ := config
    obtain rfl : calls = before ++ call :: later := shape
    have here : call ∈ before ++ call :: later := List.mem_append_right _ List.mem_cons_self
    have answered : answer ≠ .http1 := by
      rintro rfl
      exact http2 _ rfl
    have cost : strain ⟨shared, before ++ call :: later⟩ (.advance before.length answer) =
        call.strain answer := by
      simp [strain]
    rw [cost]
    by_cases losing : ∃ id, call = .losing id
    · obtain ⟨id, rfl⟩ := losing
      unfold program act at acted
      dsimp only at acted
      split at acted
      · cases acted
        refine ⟨⟨sound, ?_, Pool.forall_moved rfl fun other member =>
          modern.modern other (Pool.mem_of_mem_others member)⟩, charge_lose modern.sound⟩
        unfold ConnPool.lose
        split
        · exact modern.only
        · exact modern.only
      · cases acted
    · obtain ⟨closed, only, own, charged⟩ := act_charged (modern.sound.empty call here)
        modern.sound.closed modern.only (modern.modern call here) answered
        (fun id same => losing ⟨id, same⟩) acted
      exact ⟨⟨sound, only, Pool.forall_moved own fun other member =>
        modern.modern other (Pool.mem_of_mem_others member)⟩, charge_act closed charged⟩

/-- However many queries run at once, a server that speaks HTTP/2 sees one connection
more than those that close and two for each query that fails on a connection of the
pool. -/
theorem run_shared {events : List Event} (http2 : ∀ index, .advance index .http1 ∉ events)
    (ran : Machine.run program.step initial events = some config) :
    config.shared.created ≤ 1 + Machine.spent program.step strain initial events := by
  have within : Machine.Within program.step
      (fun _ event => ∀ index, event ≠ .advance index .http1) initial events := by
    refine Machine.within_of_forall (fun event member state index same => ?_) initial
    exact http2 index (same ▸ member)
  have start : Modern initial := by
    refine ⟨sound_initial, rfl, fun call member => ?_⟩
    cases member
  have charged := Machine.run_charged Modern charge
    (fun here given taken => (here.step given taken).1)
    (fun here given taken => (here.step given taken).2) start within ran
  refine Nat.le_trans ?_ charged
  exact Nat.le_trans (Nat.le_add_right _ _) (Nat.le_add_right _ _)

/-- Two queries wait for the connection of a third. -/
def burst : List Event :=
  [.start .query, .start .query, .start .query, .advance 0 .ok, .advance 1 .ok, .advance 2 .ok,
    .advance 0 .ok, .advance 0 .ok, .advance 1 .ok, .advance 2 .ok]

theorem run_shared_burst :
    ∃ config, Machine.run program.step initial burst = some config ∧
      config.calls = [.sending (.h2 0) false, .sending (.h2 0) true, .sending (.h2 0) true] ∧
      config.shared.created ≤ 1 + Machine.spent program.step strain initial burst := by
  have ran : Machine.run program.step initial burst =
      some ⟨⟨some 0, [], false, 1, [], []⟩,
        [.sending (.h2 0) false, .sending (.h2 0) true, .sending (.h2 0) true]⟩ := rfl
  refine ⟨_, ran, rfl, run_shared (fun index member => ?_) ran⟩
  simp [burst] at member

end

end DohClient

end QuicProxy
