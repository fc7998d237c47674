import QuicProxy.Data.Pool
import QuicProxy.Net.Addr

namespace QuicProxy

/-! A connection to the first of several addresses that answers (`connect_tcp_any`
in `src/proxy/outbound/dial.rs`). -/

universe u

inductive DialErrorKind where
  | invalidInput
  | other
  /-- Any other kind that a connection fails with. -/
  | connection (code : Nat)
deriving DecidableEq

structure DialError where
  kind : DialErrorKind
  text : String
deriving DecidableEq

inductive AttemptStage (Stream : Type u) where
  | connecting
  /-- It has ended, and `running.next()` has not given it yet. -/
  | ended (result : Except DialError Stream)
  | taken (result : Except DialError Stream)

structure Attempt (Stream : Type u) where
  addr : SocketAddr
  stage : AttemptStage Stream

inductive DialResult (Stream : Type u) where
  | returned (result : Except DialError Stream)
  /-- A `select!` of which every branch is disabled. -/
  | panicked

/-- The attempts are in the order in which they have been started; those that have
not been taken are the ones in `running`. -/
structure Dial (Stream : Type u) where
  pending : List SocketAddr
  attempts : List (Attempt Stream)
  errors : List (SocketAddr × DialError)
  result : Option (DialResult Stream)

inductive DialEvent (Stream : Type u) where
  /-- An attempt ends. -/
  | ends (index : Nat) (result : Except DialError Stream)
  /-- `running.next()` gives an attempt. -/
  | next (index : Nat)
  /-- The `sleep` is over. -/
  | delay
  /-- `select!` finds no branch ready. -/
  | wait

def DialEvent.selects {Stream : Type u} : DialEvent Stream → Bool
  | .ends _ _ => false
  | .next _ | .delay | .wait => true

def noAddress : DialError := ⟨.invalidInput, "no address to connect to"⟩

/-- A single failure is returned as it is. -/
def combineErrors : List (SocketAddr × DialError) → DialError
  | [(_, error)] => error
  | errors =>
      let message := "; ".intercalate (errors.map fun (addr, error) =>
        s!"{String.ofList addr.toText}: {error.text}")
      ⟨.other, s!"all addresses failed: {message}"⟩

variable {Stream : Type u}

namespace Attempt

def isRunning (attempt : Attempt Stream) : Bool :=
  match attempt.stage with
  | .connecting | .ended _ => true
  | .taken _ => false

def Succeeded (attempt : Attempt Stream) (stream : Stream) : Prop :=
  attempt.stage = .ended (.ok stream) ∨ attempt.stage = .taken (.ok stream)

def failure? (attempt : Attempt Stream) : Option (SocketAddr × DialError) :=
  match attempt.stage with
  | .taken (.error error) => some (attempt.addr, error)
  | .taken (.ok _) | .connecting | .ended _ => none

variable (addr : SocketAddr) (result : Except DialError Stream)

@[simp] theorem isRunning_connecting :
    (⟨addr, .connecting⟩ : Attempt Stream).isRunning = true := rfl

@[simp] theorem isRunning_ended : (⟨addr, .ended result⟩ : Attempt Stream).isRunning = true := rfl

@[simp] theorem isRunning_taken : (⟨addr, .taken result⟩ : Attempt Stream).isRunning = false := rfl

@[simp] theorem failure?_connecting :
    (⟨addr, .connecting⟩ : Attempt Stream).failure? = none := rfl

@[simp] theorem failure?_ended : (⟨addr, .ended result⟩ : Attempt Stream).failure? = none := rfl

@[simp] theorem failure?_taken_error (error : DialError) :
    (⟨addr, .taken (.error error)⟩ : Attempt Stream).failure? = some (addr, error) := rfl

@[simp] theorem failure?_taken_ok (stream : Stream) :
    (⟨addr, .taken (.ok stream)⟩ : Attempt Stream).failure? = none := rfl

theorem taken_of_not_running {attempt : Attempt Stream} (stopped : ¬attempt.isRunning = true) :
    ∃ result, attempt.stage = .taken result := by
  rw [isRunning] at stopped
  split at stopped
  · exact absurd rfl stopped
  · exact absurd rfl stopped
  · rename_i result taken
    exact ⟨result, taken⟩

end Attempt

namespace Dial

/-- `running.push(attempt(next))`, if there is another address. -/
def startNext (dial : Dial Stream) : Dial Stream :=
  match dial.pending with
  | [] => dial
  | addr :: pending =>
      { dial with pending := pending, attempts := dial.attempts ++ [⟨addr, .connecting⟩] }

def initial (addrs : List SocketAddr) : Dial Stream :=
  match addrs with
  | [] => ⟨[], [], [], some (.returned (.error noAddress))⟩
  | first :: pending => ⟨pending, [⟨first, .connecting⟩], [], none⟩

def take (dial : Dial Stream) (addr : SocketAddr) (result : Except DialError Stream) :
    Dial Stream :=
  match result with
  | .ok stream => { dial with result := some (.returned (.ok stream)) }
  | .error error =>
      let dial := { dial with errors := dial.errors ++ [(addr, error)] }
      if dial.pending ≠ [] then dial.startNext
      else if dial.attempts.any (·.isRunning) then dial
      else { dial with result := some (.returned (.error (combineErrors dial.errors))) }

def Enabled (dial : Dial Stream) : Prop :=
  dial.attempts.any (·.isRunning) = true ∨ dial.pending ≠ []

instance (dial : Dial Stream) : Decidable dial.Enabled := inferInstanceAs (Decidable (_ ∨ _))

def step (dial : Dial Stream) (event : DialEvent Stream) : Option (Dial Stream) :=
  if dial.result.isSome then none
  else
    match event with
    | .ends index result =>
        match dial.attempts[index]? with
        | some ⟨addr, .connecting⟩ =>
            some { dial with attempts := dial.attempts.set index ⟨addr, .ended result⟩ }
        | _ => none
    | .next index =>
        match dial.attempts[index]? with
        | some ⟨addr, .ended result⟩ =>
            let taken := { dial with attempts := dial.attempts.set index ⟨addr, .taken result⟩ }
            some (taken.take addr result)
        | _ => none
    | .delay => if dial.pending ≠ [] then some dial.startNext else none
    | .wait => if dial.Enabled then none else some { dial with result := some .panicked }

structure Right (addrs : List SocketAddr) (dial : Dial Stream) : Prop where
  /-- The attempts are for the first addresses, one for each, in their order. -/
  inOrder : dial.attempts.map (·.addr) ++ dial.pending = addrs
  enabled : dial.result = none → dial.Enabled
  unpanicked : dial.result ≠ some .panicked
  /-- When all attempts have ended, `running.next()` gives one. -/
  goesOn : dial.result = none → (∀ attempt ∈ dial.attempts, attempt.stage ≠ .connecting) →
    ∃ index next, dial.step (.next index) = some next
  ok : ∀ stream, dial.result = some (.returned (.ok stream)) →
    ∃ attempt ∈ dial.attempts, attempt.Succeeded stream
  succeeded : ∀ result, dial.result = some (.returned result) →
    ∀ attempt ∈ dial.attempts, ∀ stream, attempt.Succeeded stream → ∃ other, result = .ok other
  tried : ∀ error, dial.result = some (.returned (.error error)) →
    dial.attempts.map (·.addr) = addrs ∧
      ∀ attempt ∈ dial.attempts, ∃ failure, attempt.stage = .taken (.error failure)
  reported : ∀ error, dial.result = some (.returned (.error error)) →
    error = (if addrs = [] then noAddress else combineErrors dial.errors) ∧
      dial.errors.Perm (dial.attempts.filterMap Attempt.failure?) ∧
        (dial.errors.map (·.1)).Perm addrs

/-! Steps. -/

structure Kept (addrs : List SocketAddr) (dial : Dial Stream) : Prop where
  inOrder : dial.attempts.map (·.addr) ++ dial.pending = addrs
  errors : dial.errors.Perm (dial.attempts.filterMap Attempt.failure?)
  going : dial.result = none → dial.attempts.any (·.isRunning) = true ∧
    ∀ attempt ∈ dial.attempts, ∀ stream, attempt.stage ≠ .taken (.ok stream)
  unpanicked : dial.result ≠ some .panicked
  ok : ∀ stream, dial.result = some (.returned (.ok stream)) →
    ∃ attempt ∈ dial.attempts, attempt.stage = .taken (.ok stream)
  failed : ∀ error, dial.result = some (.returned (.error error)) →
    dial.pending = [] ∧
      (∀ attempt ∈ dial.attempts, ∃ failure, attempt.stage = .taken (.error failure)) ∧
        error = if addrs = [] then noAddress else combineErrors dial.errors

theorem kept_initial (addrs : List SocketAddr) : Kept addrs (initial addrs : Dial Stream) := by
  cases addrs with
  | nil =>
      refine ⟨rfl, List.Perm.refl _, nofun, nofun, nofun, fun error same => ⟨rfl, nofun, ?_⟩⟩
      cases same
      rfl
  | cons first pending =>
      refine ⟨rfl, List.Perm.refl _, fun _ => ⟨rfl, fun attempt member stream taken => ?_⟩,
        nofun, nofun, nofun⟩
      cases List.mem_singleton.mp member
      cases taken

theorem map_failures {attempts : List (Attempt Stream)}
    (all : ∀ attempt ∈ attempts, ∃ failure, attempt.stage = .taken (.error failure)) :
    (attempts.filterMap Attempt.failure?).map (·.1) = attempts.map (·.addr) := by
  induction attempts with
  | nil => rfl
  | cons attempt attempts ih =>
      obtain ⟨⟨failure, failed⟩, later⟩ := List.forall_mem_cons.mp all
      have given : attempt.failure? = some (attempt.addr, failure) := by
        rw [Attempt.failure?, failed]
      rw [List.filterMap_cons_some given, List.map_cons, List.map_cons, ih later]

theorem Kept.right {addrs : List SocketAddr} {dial : Dial Stream} (kept : Kept addrs dial) :
    Right addrs dial where
  inOrder := kept.inOrder
  enabled := fun going => Or.inl (kept.going going).1
  unpanicked := kept.unpanicked
  goesOn := fun going none_connecting => by
    obtain ⟨attempt, member, running⟩ := List.any_eq_true.mp (kept.going going).1
    obtain ⟨index, found⟩ := List.mem_iff_getElem?.mp member
    obtain ⟨addr, stage⟩ := attempt
    cases stage with
    | connecting => exact absurd rfl (none_connecting _ member)
    | ended result => exact ⟨index, _, by simp only [step, going, found]; rfl⟩
    | taken result => cases running
  ok := fun stream returned => by
    obtain ⟨attempt, member, taken⟩ := kept.ok stream returned
    exact ⟨attempt, member, Or.inr taken⟩
  succeeded := fun result returned attempt member stream succeeded => by
    cases result with
    | ok other => exact ⟨other, rfl⟩
    | error error =>
        obtain ⟨-, all, -⟩ := kept.failed error returned
        obtain ⟨failure, taken⟩ := all attempt member
        rcases succeeded with ended | taken'
        · cases taken.symm.trans ended
        · cases taken.symm.trans taken'
  tried := fun error returned => by
    obtain ⟨none, all, -⟩ := kept.failed error returned
    refine ⟨?_, all⟩
    rw [← kept.inOrder, none, List.append_nil]
  reported := fun error returned => by
    obtain ⟨none, all, same⟩ := kept.failed error returned
    refine ⟨same, kept.errors, ?_⟩
    rw [← kept.inOrder, none, List.append_nil, ← map_failures all]
    exact kept.errors.map _

theorem step_cases {dial next : Dial Stream} {event : DialEvent Stream}
    (stepped : dial.step event = some next) : dial.result = none ∧
      ((∃ before addr after result,
        event.selects = false ∧ dial.attempts = before ++ ⟨addr, .connecting⟩ :: after ∧
          next = { dial with attempts := before ++ ⟨addr, .ended result⟩ :: after }) ∨
      (∃ before addr after result,
        dial.attempts = before ++ ⟨addr, .ended result⟩ :: after ∧
          next = ({ dial with attempts := before ++ ⟨addr, .taken result⟩ :: after } :
            Dial Stream).take addr result) ∨
      (dial.pending ≠ [] ∧ next = dial.startNext) ∨
      (¬dial.Enabled ∧ next = { dial with result := some .panicked })) := by
  simp only [step] at stepped
  split at stepped
  · cases stepped
  · rename_i going
    refine ⟨Option.not_isSome_iff_eq_none.mp going, ?_⟩
    cases event with
    | ends index result =>
        simp only at stepped
        split at stepped
        · rename_i addr found
          obtain ⟨before, after, -, shape, replaced⟩ := Pool.exists_split found
          cases stepped
          exact Or.inl ⟨before, addr, after, result, rfl, shape, by rw [replaced]⟩
        · cases stepped
    | next index =>
        simp only at stepped
        split at stepped
        · rename_i addr result found
          obtain ⟨before, after, -, shape, replaced⟩ := Pool.exists_split found
          cases stepped
          exact Or.inr (Or.inl ⟨before, addr, after, result, shape, by rw [replaced]⟩)
        · cases stepped
    | delay =>
        obtain ⟨more, same⟩ := Option.ite_none_right_eq_some.mp stepped
        exact Or.inr (Or.inr (Or.inl ⟨more, (Option.some.inj same).symm⟩))
    | wait =>
        obtain ⟨disabled, same⟩ := Option.ite_none_left_eq_some.mp stepped
        exact Or.inr (Or.inr (Or.inr ⟨disabled, (Option.some.inj same).symm⟩))

section Step

variable {addrs : List SocketAddr} {dial : Dial Stream} {before after : List (Attempt Stream)}
variable {addr : SocketAddr} {result : Except DialError Stream}

theorem kept_startNext (going : dial.result = none) (more : dial.pending ≠ [])
    (inOrder : dial.attempts.map (·.addr) ++ dial.pending = addrs)
    (errors : dial.errors.Perm (dial.attempts.filterMap Attempt.failure?))
    (unconnected : ∀ attempt ∈ dial.attempts, ∀ stream, attempt.stage ≠ .taken (.ok stream)) :
    Kept addrs dial.startNext := by
  obtain ⟨addr, pending, same⟩ := List.exists_cons_of_ne_nil more
  have started : dial.startNext =
      { dial with pending := pending, attempts := dial.attempts ++ [⟨addr, .connecting⟩] } := by
    rw [startNext, same]
  rw [started]
  refine ⟨?_, ?_, fun _ => ⟨?_, ?_⟩, ?_, ?_, ?_⟩
  · rw [← inOrder, same]
    simp
  · simpa [List.filterMap_cons] using errors
  · simp
  · exact Pool.forall_start unconnected nofun
  · rw [going]
    exact nofun
  · rw [going]
    exact nofun
  · rw [going]
    exact nofun

theorem Kept.ends (kept : Kept addrs dial) (going : dial.result = none)
    (shape : dial.attempts = before ++ ⟨addr, .connecting⟩ :: after) :
    Kept addrs { dial with attempts := before ++ ⟨addr, .ended result⟩ :: after } := by
  obtain ⟨-, unconnected⟩ := kept.going going
  rw [shape] at unconnected
  refine ⟨?_, ?_, fun _ => ⟨by simp, ?_⟩, kept.unpanicked, ?_, ?_⟩
  · simpa [shape] using kept.inOrder
  · simpa [shape, List.filterMap_cons] using kept.errors
  · exact Pool.forall_act unconnected (fun _ => nofun) fun _ => id
  · rw [going]
    exact nofun
  · rw [going]
    exact nofun

theorem Kept.next (kept : Kept addrs dial) (going : dial.result = none)
    (shape : dial.attempts = before ++ ⟨addr, .ended result⟩ :: after) :
    Kept addrs (({ dial with attempts := before ++ ⟨addr, .taken result⟩ :: after } :
      Dial Stream).take addr result) := by
  obtain ⟨-, unconnected⟩ := kept.going going
  rw [shape] at unconnected
  have inOrder :
      (before ++ ⟨addr, .taken result⟩ :: after).map (·.addr) ++ dial.pending = addrs := by
    simpa [shape] using kept.inOrder
  cases result with
  | ok stream =>
      refine ⟨inOrder, ?_, nofun, nofun, ?_, nofun⟩
      · simpa [take, shape, List.filterMap_cons] using kept.errors
      · rintro _ ⟨⟩
        exact ⟨_, List.mem_append_right _ (List.mem_cons_self ..), rfl⟩
  | error error =>
      have errors : (dial.errors ++ [(addr, error)]).Perm
          ((before ++ ⟨addr, .taken (.error error)⟩ :: after).filterMap Attempt.failure?) := by
        have earlier := kept.errors
        rw [shape, List.filterMap_append, List.filterMap_cons_none rfl] at earlier
        rw [List.filterMap_append,
          List.filterMap_cons_some (Attempt.failure?_taken_error addr error)]
        refine (List.perm_append_singleton _ _).trans ((earlier.cons _).trans ?_)
        exact List.perm_middle.symm
      have still : ∀ attempt ∈ before ++ (⟨addr, .taken (.error error)⟩ : Attempt Stream) :: after,
          ∀ stream, attempt.stage ≠ .taken (.ok stream) :=
        Pool.forall_act unconnected (fun _ => nofun) fun _ => id
      simp only [take]
      split
      · rename_i more
        exact kept_startNext going more inOrder errors still
      · rename_i no_more
        split
        · rename_i running
          refine ⟨inOrder, errors, fun _ => ⟨running, still⟩, kept.unpanicked, ?_, ?_⟩
          · rw [going]
            exact nofun
          · rw [going]
            exact nofun
        · rename_i idle
          refine ⟨inOrder, errors, nofun, nofun, nofun, ?_⟩
          rintro _ ⟨⟩
          refine ⟨not_not.mp no_more, fun attempt member => ?_, ?_⟩
          · have stopped := List.any_eq_false.mp (Bool.not_eq_true _ ▸ idle) attempt member
            obtain ⟨outcome, taken⟩ := Attempt.taken_of_not_running stopped
            cases outcome with
            | ok stream => exact absurd taken (still attempt member stream)
            | error failure => exact ⟨failure, taken⟩
          · rw [if_neg]
            rintro rfl
            simp at inOrder

theorem Kept.step {next : Dial Stream} {event : DialEvent Stream} (kept : Kept addrs dial)
    (stepped : dial.step event = some next) : Kept addrs next := by
  obtain ⟨going, ⟨before, addr, after, result, -, shape, rfl⟩ |
    ⟨before, addr, after, result, shape, rfl⟩ | ⟨more, rfl⟩ | ⟨disabled, rfl⟩⟩ := step_cases stepped
  · exact kept.ends going shape
  · exact kept.next going shape
  · exact kept_startNext going more kept.inOrder kept.errors (kept.going going).2
  · exact absurd (Or.inl (kept.going going).1) disabled

end Step

theorem kept_throughout (addrs : List SocketAddr) (events : List (DialEvent Stream)) :
    Machine.Throughout step (Kept addrs) (initial addrs) events :=
  Machine.throughout_of_invariant (Kept addrs) (fun kept stepped => kept.step stepped)
    (kept_initial addrs)

/-! The length of a run. -/

/-- How often the `select!` may still end. -/
def weight (dial : Dial Stream) : Nat :=
  2 * dial.pending.length + dial.attempts.countP (·.isRunning)

theorem weight_startNext {dial : Dial Stream} (more : dial.pending ≠ []) :
    dial.startNext.weight + 1 = dial.weight := by
  obtain ⟨addr, pending, same⟩ := List.exists_cons_of_ne_nil more
  rw [startNext, same]
  simp only [weight, same, List.length_cons, List.countP_append, List.countP_singleton,
    Attempt.isRunning_connecting, if_true]
  omega

theorem weight_take_le (dial : Dial Stream) (addr : SocketAddr)
    (result : Except DialError Stream) : (dial.take addr result).weight ≤ dial.weight := by
  cases result with
  | ok stream => exact Nat.le_refl _
  | error error =>
      simp only [take]
      split
      · rename_i more
        exact Nat.le_of_succ_le (Nat.le_of_eq (weight_startNext more))
      · split
        · exact Nat.le_refl _
        · exact Nat.le_refl _

theorem Kept.weight_step {addrs : List SocketAddr} {dial next : Dial Stream}
    {event : DialEvent Stream} (kept : Kept addrs dial)
    (stepped : dial.step event = some next) :
    next.weight + (if event.selects then 1 else 0) ≤ dial.weight := by
  have once : (if event.selects then 1 else 0) ≤ 1 := by split <;> omega
  obtain ⟨going, ⟨before, addr, after, result, waits, shape, rfl⟩ |
    ⟨before, addr, after, result, shape, rfl⟩ | ⟨more, rfl⟩ | ⟨disabled, rfl⟩⟩ := step_cases stepped
  · rw [waits]
    simp [weight, shape, List.countP_append, List.countP_cons]
  · have taken := weight_take_le
      ({ dial with attempts := before ++ ⟨addr, .taken result⟩ :: after } : Dial Stream) addr result
    have fewer : ({ dial with attempts := before ++ ⟨addr, .taken result⟩ :: after } :
        Dial Stream).weight + 1 = dial.weight := by
      simp [weight, shape, List.countP_append, List.countP_cons]
      omega
    omega
  · have started := weight_startNext more
    omega
  · exact absurd (Or.inl (kept.going going).1) disabled

theorem countP_selects_le {addrs : List SocketAddr} {events : List (DialEvent Stream)}
    {dial final : Dial Stream} (kept : Kept addrs dial)
    (ran : Machine.run step dial events = some final) :
    events.countP (·.selects) ≤ dial.weight := by
  induction events generalizing dial with
  | nil => exact Nat.zero_le _
  | cons event events ih =>
      obtain ⟨next, stepped, ran⟩ := Machine.run_cons ran
      have later := ih (kept.step stepped) ran
      have here := kept.weight_step stepped
      rw [List.countP_cons]
      omega

theorem weight_initial_le (addrs : List SocketAddr) :
    (initial addrs : Dial Stream).weight ≤ 2 * addrs.length := by
  cases addrs with
  | nil => exact Nat.le_refl _
  | cons first pending =>
      change 2 * pending.length + 1 ≤ 2 * (pending.length + 1)
      omega

/-- However the attempts end and the delays pass, in whatever order; a run goes
through the `select!` at most twice for each address. -/
theorem connectTcpAny_right (addrs : List SocketAddr) (events : List (DialEvent Stream)) :
    Machine.Throughout step (Right addrs) (initial addrs) events ∧
      ∀ final, Machine.run step (initial addrs) events = some final →
        events.countP (·.selects) ≤ 2 * addrs.length :=
  ⟨Machine.throughout_mono Kept.right (kept_throughout addrs events), fun _ ran =>
    Nat.le_trans (countP_selects_le (kept_initial addrs) ran) (weight_initial_le addrs)⟩

end Dial

end QuicProxy
