import QuicProxy.Data.AsyncStream
import QuicProxy.Data.Machine

namespace QuicProxy

/-! Futures, each given by the function that polls it, and a task that polls one
until it is ready. -/

namespace Future

variable {State Next Input Output Result Error : Type}

/-- `?` on the first future, whose value the second one starts from: it is
polled at once. -/
def andThen (first : State → Input → Poll (Except Error Output) × State)
    (start : Output → Next) (second : Next → Input → Poll (Except Error Result) × Next) :
    State ⊕ Next → Input → Poll (Except Error Result) × (State ⊕ Next)
  | .inl state, input =>
      match first state input with
      | (.pending, state) => (.pending, .inl state)
      | (.ready (.error error), state) => (.ready (.error error), .inl state)
      | (.ready (.ok output), _) =>
          let (result, next) := second (start output) input
          (result, .inr next)
  | .inr next, input =>
      let (result, next) := second next input
      (result, .inr next)

/-- `tokio::time::timeout`: the future is polled first, and the deadline counts
when it is pending; `none` is `Elapsed`. -/
def timeout (deadline : Nat) (poll : State → Input → Poll Output × State) (state : State)
    (now : Nat) (input : Input) : Poll (Option Output) × State :=
  match poll state input with
  | (.ready output, state) => (.ready (some output), state)
  | (.pending, state) => (if deadline ≤ now then .ready none else .pending, state)

/-- A task under a deadline; the state of an ended one is that in which it has
been dropped. -/
inductive Timed (State Output : Type) where
  | running (state : State)
  | ended (state : State) (result : Option Output)

namespace Timed

variable (deadline : Nat) (poll : State → Input → Poll Output × State)

def step : Timed State Output → Nat × Input → Option (Timed State Output)
  | running state, (now, input) =>
      match timeout deadline poll state now input with
      | (.pending, state) => some (running state)
      | (.ready result, state) => some (ended state result)
  | ended _ _, _ => none

variable (guarded : State → Prop)

/-- The deadline has not dropped the future in a guarded state. -/
def Spared (task : Timed State Output) : Prop :=
  ∀ state, task = ended state none → ¬guarded state

/-- A poll at the deadline or after it finds the future ready, or not guarded. -/
def InTime : Timed State Output → Nat × Input → Prop
  | running state, (now, input) =>
      deadline ≤ now → (poll state input).1 = .pending → ¬guarded (poll state input).2
  | ended _ _, _ => True

variable {deadline poll guarded}

theorem spared_step_iff {task next : Timed State Output} {event : Nat × Input}
    (taken : step deadline poll task event = some next) :
    next.Spared guarded ↔ task.Spared guarded ∧ task.InTime deadline poll guarded event := by
  cases task with
  | ended state result => cases taken
  | running state =>
      obtain ⟨now, input⟩ := event
      have spared : (running state : Timed State Output).Spared guarded := nofun
      rw [and_iff_right spared]
      simp only [step, timeout] at taken
      simp only [InTime]
      cases polled : poll state input with
      | mk answer after =>
          rw [polled] at taken
          cases answer with
          | ready output =>
              cases taken
              exact ⟨fun _ _ => nofun, fun _ => nofun⟩
          | pending =>
              by_cases late : deadline ≤ now
              · simp only [if_pos late] at taken
                cases taken
                exact ⟨fun unguarded _ _ => unguarded after rfl,
                  fun inTime other same => by cases same; exact inTime late rfl⟩
              · simp only [if_neg late] at taken
                cases taken
                exact ⟨fun _ reached => absurd reached late, fun _ => nofun⟩

theorem spared_iff_inTime (guarded : State → Prop) {state : State} {events : List (Nat × Input)}
    {final : Timed State Output}
    (ran : Machine.run (step deadline poll) (running state) events = some final) :
    final.Spared guarded ↔
      Machine.Within (step deadline poll) (InTime deadline poll guarded) (running state)
        events := by
  have split := Machine.run_iff_within (fun _ => True) (Spared guarded) (fun _ _ => trivial)
    (fun _ taken => spared_step_iff taken) trivial ran
  rw [split, and_iff_right (show Spared guarded (running state) from nofun)]

end Timed

end Future

end QuicProxy
