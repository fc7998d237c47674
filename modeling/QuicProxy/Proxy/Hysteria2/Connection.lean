import QuicProxy.Data.Pool

namespace QuicProxy

/-! The connection that all streams and sessions of a Hysteria2 outbound share,
and the mutex around it (`src/proxy/outbound/hysteria2/mod.rs`). -/

namespace Hysteria2

/-- Connections are numbered as they are established. -/
structure ConnCache where
  cached : Option Nat
  established : Nat
  closed : List Nat
deriving DecidableEq

/-- Who has called `ensure_connection`: `open_bistream_with_retry` at its start
or after a failed `open_bi`, or `connect_packet`. -/
inductive Caller where
  | stream
  | retry
  | packet
deriving DecidableEq

inductive ConnCall where
  | locking (caller : Caller)
  | establishing (caller : Caller)
  | opening (conn : Nat)
  /-- `open_bi` has failed, and its error branch locks `cached`. -/
  | relocking (conn : Nat)
  | reopening (conn : Nat)
  | resetting
  | losing (conn : Nat)
  | returned (ok : Bool)
  | dropped
deriving DecidableEq

inductive ConnRequest where
  | connectStream
  | connectPacket
  | resetInterface
  | loseConnection (conn : Nat)

/-- The answer to what a task awaits, or the drop of its future. -/
inductive Answer where
  | ok
  | failed
  | dropped
deriving DecidableEq

namespace ConnCall

def start : ConnRequest → ConnCall
  | .connectStream => locking .stream
  | .connectPacket => locking .packet
  | .resetInterface => resetting
  | .loseConnection conn => losing conn

/-- The task has a guard of `cached`.  The one of the error branch lives until
the branch ends. -/
def holds : ConnCall → Bool
  | locking caller => caller = .retry
  | establishing _ => true
  | reopening _ => true
  | _ => false

def waits : ConnCall → Bool
  | locking _ | relocking _ | resetting => true
  | _ => false

def ensured (conn : Nat) : Caller → ConnCall
  | .stream => opening conn
  | .retry => reopening conn
  | .packet => returned true

end ConnCall

abbrev ConnConfig := Pool.Config ConnCache ConnCall

abbrev ConnEvent := Pool.Event ConnRequest Answer

def Free (config : ConnConfig) : Prop := ∀ call ∈ config.calls, call.holds = false

instance (config : ConnConfig) : Decidable (Free config) :=
  inferInstanceAs (Decidable (∀ call ∈ config.calls, _))

namespace ConnCache

def close (cache : ConnCache) (conn : Nat) : ConnCache :=
  { cache with closed := conn :: cache.closed }

/-- `ensure_connection` once it has the guard: it goes on with the cached
connection, or awaits a new one. -/
def ensure (cache : ConnCache) (caller : Caller) : ConnCall :=
  match cache.cached with
  | some conn =>
      if conn ∈ cache.closed then .establishing caller else ConnCall.ensured conn caller
  | none => .establishing caller

def install (cache : ConnCache) : ConnCache :=
  { cache with cached := some cache.established, established := cache.established + 1 }

/-- The error branch under its guard, up to the next `ensure_connection`. -/
def forget (cache : ConnCache) (conn : Nat) : ConnCache :=
  if cache.cached = some conn then { cache.close conn with cached := none } else cache

def reset (cache : ConnCache) : ConnCache :=
  match cache.cached with
  | some conn => { cache.close conn with cached := none }
  | none => cache

end ConnCache

namespace ConnCall

def act (config : ConnConfig) (call : ConnCall) (answer : Answer) :
    Option (ConnCache × ConnCall) :=
  match call, answer with
  | returned _, _ => none
  | dropped, _ => none
  | _, .dropped => some (config.shared, dropped)
  | locking caller, _ =>
      if Free config then some (config.shared, config.shared.ensure caller) else none
  | establishing caller, .ok =>
      some (config.shared.install, ensured config.shared.established caller)
  | establishing _, .failed => some ({ config.shared with cached := none }, returned false)
  | opening conn, .ok =>
      if conn ∈ config.shared.closed then none else some (config.shared, returned true)
  | opening conn, .failed => some (config.shared.close conn, relocking conn)
  | relocking conn, _ =>
      if Free config then some (config.shared.forget conn, locking .retry) else none
  | reopening conn, .ok =>
      if conn ∈ config.shared.closed then none else some (config.shared, returned true)
  | reopening conn, .failed => some (config.shared.close conn, returned false)
  | resetting, _ => if Free config then some (config.shared.reset, returned true) else none
  | losing conn, _ => some (config.shared.close conn, returned true)

end ConnCall

def program : Pool.Program ConnCache ConnCall ConnRequest Answer where
  start := ConnCall.start
  act := ConnCall.act

def initial : ConnConfig := ⟨⟨none, 0, []⟩, []⟩

/-- No task waits for the mutex under its own guard, and a task that has a guard
gives it up as soon as what it awaits is answered. -/
structure Unstuck (config : ConnConfig) : Prop where
  noSelfDeadlock : ∀ call ∈ config.calls, call.holds = true → call.waits = false
  releases : ∀ call ∈ config.calls, call.holds = true → ∀ answer,
    ∃ cache next, call.act config answer = some (cache, next) ∧ next.holds = false

/-- A task whose `open_bi` has failed goes on to take the mutex. -/
def RetriesUnderGuard (config : ConnConfig) : ConnEvent → Prop
  | .start _ => False
  | .advance index answer =>
      answer ≠ .dropped ∧ ∃ conn, config.calls[index]? = some (.relocking conn)

/-! Without a retry under the guard, only `establish_connection` is awaited with
one. -/

def ConnCall.FirstTry : ConnCall → Prop
  | locking caller => caller ≠ .retry
  | establishing caller => caller ≠ .retry
  | reopening _ => False
  | _ => True

theorem firstTry_start (request : ConnRequest) : (ConnCall.start request).FirstTry := by
  cases request with
  | connectStream | connectPacket => exact Caller.noConfusion
  | resetInterface | loseConnection => trivial

theorem firstTry_ensured {caller : Caller} (first : caller ≠ .retry) (conn : Nat) :
    (ConnCall.ensured conn caller).FirstTry ∧ (ConnCall.ensured conn caller).holds = false := by
  cases caller with
  | retry => exact absurd rfl first
  | stream | packet => exact ⟨trivial, rfl⟩

theorem firstTry_ensure {caller : Caller} (first : caller ≠ .retry) (cache : ConnCache) :
    (cache.ensure caller).FirstTry := by
  unfold ConnCache.ensure
  split
  · split
    · exact first
    · exact (firstTry_ensured first _).1
  · exact first

theorem firstTry_act {config : ConnConfig} {call next : ConnCall} {answer : Answer}
    {cache : ConnCache} (first : call.FirstTry)
    (acted : call.act config answer = some (cache, next))
    (allowed : ∀ conn, call = .relocking conn → answer = .dropped) : next.FirstTry := by
  unfold ConnCall.act at acted
  split at acted
  · cases acted
  · cases acted
  · cases acted
    trivial
  · split at acted
    · cases acted
      exact firstTry_ensure first _
    · cases acted
  · cases acted
    exact (firstTry_ensured first _).1
  · cases acted
    trivial
  · split at acted
    · cases acted
    · cases acted
      trivial
  · cases acted
    trivial
  · next conn notDropped => exact absurd (allowed conn rfl) notDropped
  · exact first.elim
  · exact first.elim
  · split at acted
    · cases acted
      trivial
    · cases acted
  · cases acted
    trivial

theorem unstuck_of_firstTry {config : ConnConfig}
    (first : ∀ call ∈ config.calls, call.FirstTry) : Unstuck config := by
  constructor
  · intro call member held
    have simple := first call member
    cases call with
    | locking caller => exact absurd (of_decide_eq_true held) simple
    | establishing caller => rfl
    | reopening conn => rfl
    | opening | relocking | resetting | losing | returned | dropped => cases held
  · intro call member held answer
    have simple := first call member
    cases call with
    | locking caller => exact absurd (of_decide_eq_true held) simple
    | establishing caller =>
        cases answer with
        | ok => exact ⟨_, _, rfl, (firstTry_ensured simple _).2⟩
        | failed | dropped => exact ⟨_, _, rfl, rfl⟩
    | reopening conn => exact simple.elim
    | opening | relocking | resetting | losing | returned | dropped => cases held

theorem firstTry_step {config next : ConnConfig} {event : ConnEvent}
    (first : ∀ call ∈ config.calls, call.FirstTry) (allowed : ¬RetriesUnderGuard config event)
    (taken : program.step config event = some next) : ∀ call ∈ next.calls, call.FirstTry := by
  rcases Pool.Program.step_cases taken with
    ⟨request, rfl, rfl⟩ | ⟨before, call, after, answer, cache, moved, rfl, shape, acted, rfl⟩
  · exact Pool.forall_start first (firstTry_start request)
  · rw [shape] at first
    refine Pool.forall_act first (fun own => firstTry_act own acted ?_) fun _ => id
    rintro conn rfl
    by_contra goesOn
    refine allowed ⟨goesOn, conn, ?_⟩
    rw [shape]
    exact Pool.getElem?_moved

/-- What makes a task take the mutex again under the guard of its error branch
is a step of that branch, and nothing else. -/
theorem stuck_of_retry {config next : ConnConfig} {event : ConnEvent}
    (retries : RetriesUnderGuard config event)
    (taken : program.step config event = some next) : ¬Unstuck next := by
  rcases Pool.Program.step_cases taken with
    ⟨request, rfl, rfl⟩ | ⟨before, call, after, answer, cache, moved, rfl, shape, acted, rfl⟩
  · exact retries.elim
  · obtain ⟨goesOn, conn, found⟩ := retries
    rw [shape, Pool.getElem?_moved] at found
    cases found
    have nested : moved = .locking .retry := by
      cases answer with
      | dropped => exact absurd rfl goesOn
      | ok | failed =>
          simp only [program, ConnCall.act] at acted
          split at acted
          · cases acted
            rfl
          · cases acted
    intro unstuck
    have waiting := unstuck.noSelfDeadlock moved (by simp) (by rw [nested]; rfl)
    rw [nested] at waiting
    cases waiting

/-- In a run of any calls, connection failures and drops, no task ever waits
under its own guard and every guard is given up, exactly when no task whose
`open_bi` has failed takes the mutex for its retry. -/
theorem unstuck_iff (events : List ConnEvent) (final : ConnConfig)
    (ran : Machine.run program.step initial events = some final) :
    Machine.Throughout program.step Unstuck initial events ↔
      Machine.Within program.step (fun config event => ¬RetriesUnderGuard config event)
        initial events := by
  have none : ∀ call ∈ initial.calls, call.FirstTry := by
    intro call member
    cases member
  refine Machine.throughout_iff_within (fun config => ∀ call ∈ config.calls, call.FirstTry)
    Unstuck firstTry_step ?_ none (unstuck_of_firstTry none) ran
  intro config event next first _ taken
  constructor
  · intro unstuck retries
    exact stuck_of_retry retries taken unstuck
  · intro allowed
    exact unstuck_of_firstTry (firstTry_step first allowed taken)

/-- A stream that is opened, and a second one that finds the connection alive and
then loses it before `open_bi` returns. -/
def lostWhileOpening : List ConnEvent :=
  [.start .connectStream, .advance 0 .ok, .advance 0 .ok, .advance 0 .ok, .start .connectStream,
    .advance 1 .ok, .start (.loseConnection 0), .advance 2 .ok, .advance 1 .failed]

theorem unstuck_before_retry :
    ∃ final, Machine.run program.step initial lostWhileOpening = some final ∧
      Machine.Throughout program.step Unstuck initial lostWhileOpening :=
  ⟨_, rfl, (unstuck_iff lostWhileOpening _ rfl).mpr (by
    refine (Machine.within_cons_iff rfl).mpr ⟨id, ?_⟩
    iterate 3
      refine (Machine.within_cons_iff rfl).mpr ⟨?_, ?_⟩
      · rintro ⟨-, conn, found⟩
        cases found
    refine (Machine.within_cons_iff rfl).mpr ⟨id, ?_⟩
    refine (Machine.within_cons_iff rfl).mpr ⟨?_, ?_⟩
    · rintro ⟨-, conn, found⟩
      cases found
    refine (Machine.within_cons_iff rfl).mpr ⟨id, ?_⟩
    iterate 2
      refine (Machine.within_cons_iff rfl).mpr ⟨?_, ?_⟩
      · rintro ⟨-, conn, found⟩
        cases found
    trivial)⟩

/-- The retry waits for the guard that it holds, and no answer wakes it. -/
theorem retry_waits_for_itself :
    ∃ final, Machine.run program.step initial (lostWhileOpening ++ [.advance 1 .ok]) =
        some final ∧
      ∃ call, final.calls[1]? = some call ∧ call.holds = true ∧ call.waits = true ∧
        call.act final .ok = none ∧ call.act final .failed = none ∧ ¬Unstuck final := by
  refine ⟨_, rfl, _, rfl, rfl, rfl, rfl, rfl, fun unstuck => ?_⟩
  have waiting := unstuck.noSelfDeadlock (.locking .retry)
    (List.mem_iff_getElem?.mpr ⟨1, rfl⟩) rfl
  cases waiting

end Hysteria2

end QuicProxy
