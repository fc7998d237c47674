import Mathlib.Tactic.Common

namespace QuicProxy

/-! Runs of a machine that is given by a step function: `none` is an event that
the state does not allow. -/

namespace Machine

universe u v

variable {State : Type u} {Event : Type v} (step : State → Event → Option State)

def run : State → List Event → Option State
  | state, [] => some state
  | state, event :: events => (step state event).bind (run · events)

/-- Every event of the run is taken in a state that allows it. -/
def Within (allowed : State → Event → Prop) : State → List Event → Prop
  | _, [] => True
  | state, event :: events =>
      allowed state event ∧ ∀ next, step state event = some next →
        Within allowed next events

/-- The property holds in every state that the run reaches. -/
def Throughout (holds : State → Prop) : State → List Event → Prop
  | state, [] => holds state
  | state, event :: events =>
      holds state ∧ ∀ next, step state event = some next → Throughout holds next events

/-- An event that answers is taken before the run comes to a state in which it is too
late. -/
def AnsweredFrom (answers : State → Event → Prop) (late : State → Prop) :
    State → List Event → Prop
  | state, [] => ¬late state
  | state, event :: events =>
      ¬late state ∧ (answers state event ∨ ∀ next, step state event = some next →
        AnsweredFrom answers late next events)

/-- Every event that asks is answered before it is too late. -/
def Answered (asks answers : State → Event → Prop) (late : State → Prop) :
    State → List Event → Prop
  | _, [] => True
  | state, event :: events =>
      (asks state event → AnsweredFrom step answers late state (event :: events)) ∧
        ∀ next, step state event = some next → Answered asks answers late next events

def spent (cost : State → Event → Nat) : State → List Event → Nat
  | _, [] => 0
  | state, event :: events =>
      cost state event + ((step state event).elim 0 fun next => spent cost next events)

variable {step}

theorem run_cons_of {state next : State} {event : Event} (taken : step state event = some next)
    (events : List Event) : run step state (event :: events) = run step next events := by
  rw [run, taken]
  rfl

theorem run_cons {state final : State} {event : Event} {events : List Event}
    (ran : run step state (event :: events) = some final) :
    ∃ next, step state event = some next ∧ run step next events = some final :=
  Option.bind_eq_some_iff.mp ran

theorem run_append_of {state middle : State} {events : List Event}
    (ran : run step state events = some middle) (later : List Event) :
    run step state (events ++ later) = run step middle later := by
  induction events generalizing state with
  | nil =>
      cases ran
      rfl
  | cons event events ih =>
      obtain ⟨next, taken, ran⟩ := run_cons ran
      rw [List.cons_append, run_cons_of taken, ih ran]

theorem within_cons_iff {allowed : State → Event → Prop} {state next : State} {event : Event}
    {events : List Event} (taken : step state event = some next) :
    Within step allowed state (event :: events) ↔
      allowed state event ∧ Within step allowed next events := by
  refine and_congr_right fun _ => ⟨fun later => later next taken, ?_⟩
  intro later other same
  cases taken.symm.trans same
  exact later

theorem within_of_forall {allowed : State → Event → Prop} {events : List Event}
    (all : ∀ event ∈ events, ∀ state, allowed state event) (state : State) :
    Within step allowed state events := by
  induction events generalizing state with
  | nil => trivial
  | cons event events ih =>
      obtain ⟨first, rest⟩ := List.forall_mem_cons.mp all
      exact ⟨first state, fun next _ => ih rest next⟩

theorem within_mono {allowed other : State → Event → Prop}
    (weaker : ∀ {state event}, allowed state event → other state event) {events : List Event}
    {state : State} (within : Within step allowed state events) :
    Within step other state events := by
  induction events generalizing state with
  | nil => trivial
  | cons event events ih => exact ⟨weaker within.1, fun next taken => ih (within.2 next taken)⟩

theorem within_and_iff {allowed other : State → Event → Prop} {events : List Event}
    {state : State} :
    Within step (fun state event => allowed state event ∧ other state event) state events ↔
      Within step allowed state events ∧ Within step other state events := by
  constructor
  · intro both
    exact ⟨within_mono And.left both, within_mono And.right both⟩
  · rintro ⟨first, second⟩
    induction events generalizing state with
    | nil => trivial
    | cons event events ih =>
        exact ⟨⟨first.1, second.1⟩, fun next taken => ih (first.2 next taken) (second.2 next taken)⟩

/-- Two conditions that say the same in every state that a run reaches within
them. -/
theorem within_congr {allowed other : State → Event → Prop} (holds : State → Prop)
    (same : ∀ {state event}, holds state → (allowed state event ↔ other state event))
    (keeps : ∀ {state event next}, holds state → allowed state event →
      step state event = some next → holds next)
    {events : List Event} {state : State} (start : holds state) :
    Within step allowed state events ↔ Within step other state events := by
  induction events generalizing state with
  | nil => exact Iff.rfl
  | cons event events ih =>
      constructor
      · intro given
        obtain ⟨first, rest⟩ := given
        refine ⟨(same start).mp first, fun next taken => ?_⟩
        exact (ih (keeps start first taken)).mp (rest next taken)
      · intro given
        obtain ⟨first, rest⟩ := given
        have holds_first := (same start).mpr first
        refine ⟨holds_first, fun next taken => ?_⟩
        exact (ih (keeps start holds_first taken)).mpr (rest next taken)

instance decidableWithin {allowed : State → Event → Prop}
    [∀ state event, Decidable (allowed state event)] :
    (state : State) → (events : List Event) → Decidable (Within step allowed state events)
  | _, [] => isTrue trivial
  | state, event :: events =>
      match taken : step state event with
      | none =>
          decidable_of_iff (allowed state event)
            ⟨fun holds => ⟨holds, fun _ same => absurd (taken.symm.trans same) nofun⟩, And.left⟩
      | some next =>
          have : Decidable (Within step allowed next events) := decidableWithin next events
          decidable_of_iff (allowed state event ∧ Within step allowed next events)
            (within_cons_iff taken).symm

theorem run_within_invariant {allowed : State → Event → Prop} (holds : State → Prop)
    (keeps : ∀ {state event next}, holds state → allowed state event →
      step state event = some next → holds next)
    {events : List Event} {state final : State} (start : holds state)
    (within : Within step allowed state events)
    (ran : run step state events = some final) : holds final := by
  induction events generalizing state with
  | nil =>
      cases ran
      exact start
  | cons event events ih =>
      obtain ⟨next, taken, ran⟩ := run_cons ran
      exact ih (keeps start within.1 taken) (within.2 next taken) ran

/-- A property that a step keeps exactly when it is allowed holds at the end of
exactly the runs whose steps all are; `given` is what the steps have in common. -/
theorem run_iff_within_of {given allowed : State → Event → Prop} (invariant holds : State → Prop)
    (keeps : ∀ {state event next}, invariant state → given state event →
      step state event = some next → invariant next)
    (exact_step : ∀ {state event next}, invariant state → given state event →
      step state event = some next → (holds next ↔ holds state ∧ allowed state event))
    {events : List Event} {state final : State} (start : invariant state)
    (all_given : Within step given state events) (ran : run step state events = some final) :
    holds final ↔ holds state ∧ Within step allowed state events := by
  induction events generalizing state with
  | nil =>
      cases ran
      exact ⟨fun holds_here => ⟨holds_here, trivial⟩, And.left⟩
  | cons event events ih =>
      obtain ⟨next, taken, ran⟩ := run_cons ran
      obtain ⟨here, later⟩ := (within_cons_iff taken).mp all_given
      rw [ih (keeps start here taken) later ran, exact_step start here taken,
        within_cons_iff taken, and_assoc]

theorem run_iff_within {allowed : State → Event → Prop} (invariant holds : State → Prop)
    (keeps : ∀ {state event next}, invariant state → step state event = some next →
      invariant next)
    (exact_step : ∀ {state event next}, invariant state → step state event = some next →
      (holds next ↔ holds state ∧ allowed state event))
    {events : List Event} {state final : State} (start : invariant state)
    (ran : run step state events = some final) :
    holds final ↔ holds state ∧ Within step allowed state events := by
  have all : Within step (fun _ _ => True) state events :=
    within_of_forall (fun _ _ _ => trivial) state
  exact run_iff_within_of invariant holds (fun here _ taken => keeps here taken)
    (fun here _ taken => exact_step here taken) start all ran

theorem run_invariant (holds : State → Prop)
    (keeps : ∀ {state event next}, holds state → step state event = some next →
      holds next)
    {events : List Event} {state final : State} (start : holds state)
    (ran : run step state events = some final) : holds final := by
  induction events generalizing state with
  | nil =>
      cases ran
      exact start
  | cons event events ih =>
      obtain ⟨next, taken, ran⟩ := run_cons ran
      exact ih (keeps start taken) ran

theorem run_spent {allowed : State → Event → Prop} {cost : State → Event → Nat}
    (invariant : State → Prop) (measure : State → Nat)
    (keeps : ∀ {state event next}, invariant state → step state event = some next →
      invariant next)
    (pays : ∀ {state event next}, invariant state → allowed state event →
      step state event = some next → measure next + cost state event = measure state)
    {events : List Event} {state final : State} (start : invariant state)
    (within : Within step allowed state events) (ran : run step state events = some final) :
    measure final + spent step cost state events = measure state := by
  induction events generalizing state with
  | nil =>
      cases ran
      rfl
  | cons event events ih =>
      obtain ⟨next, taken, ran⟩ := run_cons ran
      have paid := pays start within.1 taken
      have rest := ih (keeps start taken) (within.2 next taken) ran
      rw [spent, taken]
      show measure final + (cost state event + spent step cost next events) = measure state
      omega

theorem run_charged {allowed : State → Event → Prop} {cost : State → Event → Nat}
    (invariant : State → Prop) (measure : State → Nat)
    (keeps : ∀ {state event next}, invariant state → allowed state event →
      step state event = some next → invariant next)
    (pays : ∀ {state event next}, invariant state → allowed state event →
      step state event = some next → measure next ≤ measure state + cost state event)
    {events : List Event} {state final : State} (start : invariant state)
    (within : Within step allowed state events) (ran : run step state events = some final) :
    measure final ≤ measure state + spent step cost state events := by
  induction events generalizing state with
  | nil =>
      cases ran
      exact Nat.le_refl _
  | cons event events ih =>
      obtain ⟨next, taken, ran⟩ := run_cons ran
      have paid := pays start within.1 taken
      have rest := ih (keeps start within.1 taken) (within.2 next taken) ran
      rw [spent, taken]
      show measure final ≤ measure state + (cost state event + spent step cost next events)
      omega

/-! Machines on which events can wait for each other: two that a state allows
can be taken in either order, and end in the same state. -/

def Commutes (step : State → Event → Option State) : Prop :=
  ∀ {state one other : State} {first second : Event}, first ≠ second →
    step state first = some one → step state second = some other →
      ∃ joined, step one second = some joined ∧ step other first = some joined

def Stopped (step : State → Event → Option State) (state : State) : Prop :=
  ∀ event, step state event = none

/-- Whatever the order of the events, the run comes to the state, and no later. -/
structure Ends (step : State → Event → Option State) (state final : State) : Prop where
  stopped : Stopped step final
  always : ∃ bound, ∀ {events middle}, run step state events = some middle →
    ∃ rest, run step middle rest = some final ∧ events.length + rest.length = bound

theorem run_skip [DecidableEq Event] (commutes : Commutes step) {events : List Event}
    {state next final : State} {event : Event} (stopped : Stopped step final)
    (ran : run step state events = some final) (taken : step state event = some next) :
    ∃ rest, run step next rest = some final ∧ rest.length + 1 = events.length := by
  induction events generalizing state next with
  | nil =>
      cases ran
      cases (stopped event).symm.trans taken
  | cons first events ih =>
      obtain ⟨other, taken', ran⟩ := run_cons ran
      by_cases same : event = first
      · subst same
        cases taken.symm.trans taken'
        exact ⟨events, ran, rfl⟩
      · obtain ⟨joined, later, now⟩ := commutes same taken taken'
        obtain ⟨rest, ran, length⟩ := ih ran now
        refine ⟨first :: rest, ?_, ?_⟩
        · rw [run_cons_of later, ran]
        · rw [List.length_cons, List.length_cons, length]

theorem ends_of_run [DecidableEq Event] (commutes : Commutes step) {events : List Event}
    {state final : State} (stopped : Stopped step final)
    (ran : run step state events = some final) : Ends step state final := by
  refine ⟨stopped, events.length, fun {others middle} reached => ?_⟩
  induction others generalizing state events with
  | nil =>
      cases reached
      exact ⟨events, ran, Nat.zero_add _⟩
  | cons event others ih =>
      obtain ⟨next, taken, reached⟩ := run_cons reached
      obtain ⟨rest, ran, length⟩ := run_skip commutes stopped ran taken
      obtain ⟨later, ended, total⟩ := ih ran reached
      refine ⟨later, ended, ?_⟩
      rw [List.length_cons]
      omega

theorem Ends.exists_run {state final : State} (ends : Ends step state final) :
    ∃ events, run step state events = some final := by
  obtain ⟨bound, always⟩ := ends.always
  obtain ⟨events, ran, -⟩ := @always [] state rfl
  exact ⟨events, ran⟩

theorem throughout_cons_iff {holds : State → Prop} {state next : State} {event : Event}
    {events : List Event} (taken : step state event = some next) :
    Throughout step holds state (event :: events) ↔
      holds state ∧ Throughout step holds next events := by
  refine and_congr_right fun _ => ⟨fun later => later next taken, ?_⟩
  intro later other same
  cases taken.symm.trans same
  exact later

theorem Throughout.start {holds : State → Prop} {state : State} {events : List Event}
    (throughout : Throughout step holds state events) : holds state := by
  cases events with
  | nil => exact throughout
  | cons event events => exact throughout.1

theorem Throughout.final {holds : State → Prop} {state final : State} {events : List Event}
    (throughout : Throughout step holds state events)
    (ran : run step state events = some final) : holds final := by
  induction events generalizing state with
  | nil =>
      cases ran
      exact throughout
  | cons event events ih =>
      obtain ⟨next, taken, ran⟩ := run_cons ran
      exact ih (throughout.2 next taken) ran

theorem throughout_mono {holds weaker : State → Prop}
    (implies : ∀ {state}, holds state → weaker state) {events : List Event} {state : State}
    (throughout : Throughout step holds state events) :
    Throughout step weaker state events := by
  induction events generalizing state with
  | nil => exact implies throughout
  | cons event events ih =>
      exact ⟨implies throughout.1, fun next taken => ih (throughout.2 next taken)⟩

theorem throughout_of_within {allowed : State → Event → Prop} (holds : State → Prop)
    (keeps : ∀ {state event next}, holds state → allowed state event →
      step state event = some next → holds next)
    {events : List Event} {state : State} (start : holds state)
    (within : Within step allowed state events) : Throughout step holds state events := by
  induction events generalizing state with
  | nil => exact start
  | cons event events ih =>
      refine ⟨start, fun next taken => ?_⟩
      exact ih (keeps start within.1 taken) (within.2 next taken)

theorem throughout_of_invariant (holds : State → Prop)
    (keeps : ∀ {state event next}, holds state → step state event = some next → holds next)
    {events : List Event} {state : State} (start : holds state) :
    Throughout step holds state events := by
  have within : Within step (fun _ _ => True) state events :=
    within_of_forall (fun _ _ _ => trivial) state
  exact throughout_of_within holds (fun here _ taken => keeps here taken) start within

/-- A property that a step keeps exactly when it is allowed holds in every state
of exactly the runs whose steps all are; the invariant has to last only as long
as they are. -/
theorem throughout_iff_within {allowed : State → Event → Prop} (invariant holds : State → Prop)
    (keeps : ∀ {state event next}, invariant state → allowed state event →
      step state event = some next → invariant next)
    (exact_step : ∀ {state event next}, invariant state → holds state →
      step state event = some next → (holds next ↔ allowed state event))
    {events : List Event} {state final : State} (start : invariant state)
    (holds_start : holds state) (ran : run step state events = some final) :
    Throughout step holds state events ↔ Within step allowed state events := by
  induction events generalizing state with
  | nil => exact ⟨fun _ => trivial, fun _ => holds_start⟩
  | cons event events ih =>
      obtain ⟨next, taken, ran⟩ := run_cons ran
      rw [throughout_cons_iff taken, within_cons_iff taken]
      have here := exact_step start holds_start taken
      constructor
      · rintro ⟨-, later⟩
        have allowed_here := here.mp later.start
        exact ⟨allowed_here, (ih (keeps start allowed_here taken) later.start ran).mp later⟩
      · rintro ⟨allowed_here, later⟩
        exact ⟨holds_start,
          (ih (keeps start allowed_here taken) (here.mpr allowed_here) ran).mpr later⟩

/-! Requests and their answers. -/

section Answers

variable {asks answers : State → Event → Prop} {late free : State → Prop}

theorem answeredFrom_cons_iff {state next : State} {event : Event} {events : List Event}
    (taken : step state event = some next) :
    AnsweredFrom step answers late state (event :: events) ↔
      ¬late state ∧ (answers state event ∨ AnsweredFrom step answers late next events) := by
  refine and_congr_right fun _ => or_congr_right ⟨fun later => later next taken, ?_⟩
  intro later other same
  cases taken.symm.trans same
  exact later

theorem answered_cons_iff {state next : State} {event : Event} {events : List Event}
    (taken : step state event = some next) :
    Answered step asks answers late state (event :: events) ↔
      (asks state event → AnsweredFrom step answers late state (event :: events)) ∧
        Answered step asks answers late next events := by
  refine and_congr_right fun _ => ⟨fun later => later next taken, ?_⟩
  intro later other same
  cases taken.symm.trans same
  exact later

instance decidableAnsweredFrom [∀ state event, Decidable (answers state event)]
    [∀ state, Decidable (late state)] : (state : State) → (events : List Event) →
      Decidable (AnsweredFrom step answers late state events)
  | state, [] => inferInstanceAs (Decidable (¬late state))
  | state, event :: events =>
      match taken : step state event with
      | none =>
          decidable_of_iff (¬late state)
            ⟨fun open_yet => ⟨open_yet, .inr fun _ same => nomatch taken.symm.trans same⟩,
              And.left⟩
      | some next =>
          have : Decidable (AnsweredFrom step answers late next events) :=
            decidableAnsweredFrom next events
          decidable_of_iff _ (answeredFrom_cons_iff taken).symm

instance decidableAnswered [∀ state event, Decidable (asks state event)]
    [∀ state event, Decidable (answers state event)] [∀ state, Decidable (late state)] :
    (state : State) → (events : List Event) →
      Decidable (Answered step asks answers late state events)
  | _, [] => isTrue trivial
  | state, event :: events =>
      match taken : step state event with
      | none =>
          decidable_of_iff
            (asks state event → AnsweredFrom step answers late state (event :: events))
            ⟨fun first => ⟨first, fun _ same => nomatch taken.symm.trans same⟩, And.left⟩
      | some next =>
          have : Decidable (Answered step asks answers late next events) :=
            decidableAnswered next events
          decidable_of_iff _ (answered_cons_iff taken).symm

/-- Where an answer frees the state, and only an event that asks binds it, no state is
bound when it is too late. -/
theorem throughout_of_answered (invariant : State → Prop)
    (keeps : ∀ {state event next}, invariant state → step state event = some next →
      invariant next)
    (frees : ∀ {state event next}, invariant state → answers state event →
      step state event = some next → free next)
    (stays : ∀ {state event next}, invariant state → free state → ¬asks state event →
      step state event = some next → free next)
    {events : List Event} {state : State} (start : invariant state)
    (free_yet : free state ∨ AnsweredFrom step answers late state events)
    (answered : Answered step asks answers late state events) :
    Throughout step (fun state => late state → free state) state events := by
  induction events generalizing state with
  | nil => exact fun late_here => free_yet.resolve_right fun open_yet => open_yet late_here
  | cons event events ih =>
      refine ⟨fun late_here => free_yet.resolve_right fun open_yet => open_yet.1 late_here, ?_⟩
      intro next taken
      obtain ⟨asking, later⟩ := (answered_cons_iff taken).mp answered
      have open_on (open_yet : AnsweredFrom step answers late state (event :: events)) :
          free next ∨ AnsweredFrom step answers late next events := by
        obtain ⟨-, now | after⟩ := (answeredFrom_cons_iff taken).mp open_yet
        · exact .inl (frees start now taken)
        · exact .inr after
      refine ih (keeps start taken) ?_ later
      rcases free_yet with here | open_yet
      · by_cases asked : asks state event
        · exact open_on (asking asked)
        · exact .inl (stays start here asked taken)
      · exact open_on open_yet

end Answers

end Machine

end QuicProxy
