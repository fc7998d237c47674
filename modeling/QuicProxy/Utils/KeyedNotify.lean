import QuicProxy.Data.Notify
import QuicProxy.Data.Pool

namespace QuicProxy

/-! `KeyedNotify` (`src/utils/keyed_notify.rs`), as the calls for one key see it:
its entry in the map, every `Notify` that has been in the entry, and the
condition that they wait for. -/

structure KeyedNotify where
  entry : Option Nat
  notifiers : List Notify
  condition : Bool
  /-- How often the condition has become true. -/
  period : Nat
  /-- A `notify` of the present period has returned. -/
  served : Bool
deriving DecidableEq

inductive KeyedRequest where
  | waitUntil
  | notify
  | change (value : Bool)

/-- What ends the wait of a `wait_until` other than its `Notify`. -/
inductive WaitEnd where
  | none
  | timeout
  | dropped
deriving DecidableEq

inductive KeyedCall where
  | creating
  | registering (notifier : Nat)
  | checking (notifier ticket : Nat)
  | waiting (notifier ticket : Nat)
  /-- The `remove` at the end of `wait_until`. -/
  | leaving
  | removing
  /-- What has been removed is notified next; a `notify` knows the period in which
  it was issued. -/
  | waking (notifier : Nat) (period : Option Nat)
  | changing (value : Bool)
  | returned
  | dropped
deriving DecidableEq

namespace KeyedNotify

def notifier (keyed : KeyedNotify) (index : Nat) : Notify := keyed.notifiers[index]?.getD .new

def getOrCreate (keyed : KeyedNotify) : KeyedNotify × Nat :=
  match keyed.entry with
  | some index => (keyed, index)
  | none =>
      ({ keyed with
          entry := some keyed.notifiers.length
          notifiers := keyed.notifiers ++ [.new] },
        keyed.notifiers.length)

def notifyWaiters (keyed : KeyedNotify) (index : Nat) : KeyedNotify :=
  { keyed with notifiers := keyed.notifiers.modify index Notify.notifyWaiters }

def current (keyed : KeyedNotify) : Option Nat :=
  if keyed.condition then some keyed.period else none

/-- A `notify` that was issued in this period has returned. -/
def serve (keyed : KeyedNotify) (period : Option Nat) : KeyedNotify :=
  { keyed with served := keyed.served || (keyed.condition && keyed.current == period) }

def change (keyed : KeyedNotify) (value : Bool) : KeyedNotify :=
  if value = keyed.condition then keyed
  else
    { keyed with
      condition := value
      period := if value then keyed.period + 1 else keyed.period
      served := false }

end KeyedNotify

namespace KeyedCall

open KeyedNotify

def start : KeyedRequest → KeyedCall
  | .waitUntil => creating
  | .notify => removing
  | .change value => changing value

/-- `remove`, up to its `notify_waiters`. -/
def remove (keyed : KeyedNotify) (period : Option Nat) : KeyedNotify × KeyedCall :=
  match keyed.entry with
  | some index => ({ keyed with entry := none }, waking index period)
  | none => (keyed.serve period, returned)

def act (keyed : KeyedNotify) : KeyedCall → WaitEnd → Option (KeyedNotify × KeyedCall)
  | creating, _ => some (keyed.getOrCreate.1, registering keyed.getOrCreate.2)
  | registering index, _ => some (keyed, checking index (keyed.notifier index).enable)
  | checking index ticket, _ =>
      some (keyed, if keyed.condition then leaving else waiting index ticket)
  | waiting index ticket, .none =>
      if (keyed.notifier index).Woken ticket then some (keyed, creating) else none
  | waiting _ _, .timeout => some (keyed, leaving)
  | waiting _ _, .dropped => some (keyed, dropped)
  | leaving, _ => some (remove keyed none)
  | removing, _ => some (remove keyed keyed.current)
  | waking index period, _ => some ((keyed.notifyWaiters index).serve period, returned)
  | changing value, _ => some (keyed.change value, returned)
  | returned, _ | dropped, _ => none

def Removes : KeyedCall → Prop
  | leaving | removing => True
  | _ => False

end KeyedCall

abbrev KeyedConfig := Pool.Config KeyedNotify KeyedCall

abbrev KeyedEvent := Pool.Event KeyedRequest WaitEnd

namespace KeyedNotify

def program : Pool.Program KeyedNotify KeyedCall KeyedRequest WaitEnd where
  start := KeyedCall.start
  act config := KeyedCall.act config.shared

def initial : KeyedConfig := ⟨⟨none, [], false, 0, false⟩, []⟩

/-- The waiter has been woken, or a call that has removed its `Notify` is about
to wake it. -/
def Attended (config : KeyedConfig) (index ticket : Nat) : Prop :=
  (config.shared.notifier index).Woken ticket ∨ ∃ period, .waking index period ∈ config.calls

/-- Once the condition is true and a `notify` that was issued after that has
returned, nobody waits for good. -/
def NoLostWakeup (config : KeyedConfig) : Prop :=
  config.shared.condition = true → config.shared.served = true →
    ∀ index ticket, .waiting index ticket ∈ config.calls → Attended config index ticket

/-- The `Notify` of a waiter that has not been enabled yet is taken out of the
map. -/
def RemovesUnregistered (config : KeyedConfig) : KeyedEvent → Prop
  | .start _ => False
  | .advance index _ =>
      ∃ call ∈ config.calls[index]?, call.Removes ∧
        ∃ notifier ∈ config.shared.entry, .registering notifier ∈ config.calls

instance : (call : KeyedCall) → Decidable call.Removes
  | .leaving | .removing => inferInstanceAs (Decidable True)
  | .creating | .registering _ | .checking _ _ | .waiting _ _ | .waking _ _ | .changing _
  | .returned | .dropped => inferInstanceAs (Decidable False)

instance (config : KeyedConfig) : (event : KeyedEvent) →
    Decidable (RemovesUnregistered config event)
  | .start _ => inferInstanceAs (Decidable False)
  | .advance index _ =>
      inferInstanceAs (Decidable (∃ call ∈ config.calls[index]?, call.Removes ∧
        ∃ notifier ∈ config.shared.entry, .registering notifier ∈ config.calls))

/-! What a call does to the map and the notifiers. -/

section Act

variable {keyed after : KeyedNotify} {call moved : KeyedCall} {reason : WaitEnd}

theorem notifier_append {index : Nat} (inRange : index < keyed.notifiers.length) :
    ({ keyed with
        entry := some keyed.notifiers.length
        notifiers := keyed.notifiers ++ [.new] } : KeyedNotify).notifier index =
      keyed.notifier index := by
  unfold notifier
  rw [List.getElem?_append_left inRange]

theorem notifier_notifyWaiters {index : Nat} (inRange : index < keyed.notifiers.length)
    (other : Nat) :
    (keyed.notifyWaiters other).notifier index =
      if other = index then (keyed.notifier index).notifyWaiters else keyed.notifier index := by
  unfold notifier notifyWaiters
  rw [List.getElem?_modify, List.getElem?_eq_getElem inRange]
  split <;> rfl

theorem remove_cases (keyed : KeyedNotify) (period : Option Nat) :
    (∃ index, keyed.entry = some index ∧
        KeyedCall.remove keyed period = ({ keyed with entry := none }, .waking index period)) ∨
      keyed.entry = none ∧ KeyedCall.remove keyed period = (keyed.serve period, .returned) := by
  unfold KeyedCall.remove
  cases keyed.entry with
  | none => exact Or.inr ⟨rfl, rfl⟩
  | some index => exact Or.inl ⟨index, rfl, rfl⟩

theorem getOrCreate_cases (keyed : KeyedNotify) :
    (∃ index, keyed.entry = some index ∧ keyed.getOrCreate = (keyed, index)) ∨
      keyed.entry = none ∧
        keyed.getOrCreate =
          ({ keyed with
              entry := some keyed.notifiers.length
              notifiers := keyed.notifiers ++ [.new] },
            keyed.notifiers.length) := by
  unfold getOrCreate
  cases keyed.entry with
  | none => exact Or.inr ⟨rfl, rfl⟩
  | some index => exact Or.inl ⟨index, rfl, rfl⟩

structure Goes (keyed after : KeyedNotify) (call moved : KeyedCall) : Prop where
  length : keyed.notifiers.length ≤ after.notifiers.length
  notifiers : ∀ index < keyed.notifiers.length,
    after.notifier index = keyed.notifier index ∧ (∀ period, call ≠ .waking index period) ∨
      after.notifier index = (keyed.notifier index).notifyWaiters
  entry : ∀ index, keyed.entry = some index →
    after.entry = some index ∨ call.Removes ∧ ∃ period, moved = .waking index period
  period : keyed.period ≤ after.period

theorem goes_of_same (notifiers : after.notifiers = keyed.notifiers)
    (entry : after.entry = keyed.entry) (period : keyed.period ≤ after.period)
    (other : ∀ index period, call ≠ .waking index period) : Goes keyed after call moved where
  length := Nat.le_of_eq (congrArg List.length notifiers.symm)
  notifiers := fun index _ => Or.inl ⟨by rw [notifier, notifiers, notifier], other index⟩
  entry := fun _ there => Or.inl (entry.trans there)
  period := period

theorem goes_remove (keyed : KeyedNotify) (period : Option Nat) {call : KeyedCall}
    (removes : call.Removes) :
    Goes keyed (KeyedCall.remove keyed period).1 call (KeyedCall.remove keyed period).2 := by
  have other : ∀ index period, call ≠ .waking index period := by
    rintro index period rfl
    exact removes
  rcases remove_cases keyed period with ⟨index, there, removed⟩ | ⟨-, removed⟩
  · rw [removed]
    refine ⟨Nat.le_refl _, fun index _ => Or.inl ⟨rfl, other index⟩, fun found same => Or.inr ?_,
      Nat.le_refl _⟩
    cases there.symm.trans same
    exact ⟨removes, period, rfl⟩
  · rw [removed]
    exact goes_of_same rfl rfl (Nat.le_refl _) other

theorem goes_change (keyed : KeyedNotify) (value : Bool) (moved : KeyedCall) :
    Goes keyed (keyed.change value) (.changing value) moved := by
  unfold change
  split
  · exact goes_of_same rfl rfl (Nat.le_refl _) nofun
  · refine goes_of_same rfl rfl ?_ nofun
    dsimp only
    split
    · exact Nat.le_succ _
    · exact Nat.le_refl _

theorem goes_act (acted : call.act keyed reason = some (after, moved)) :
    Goes keyed after call moved := by
  cases call with
  | creating =>
      cases acted
      rcases getOrCreate_cases keyed with ⟨index, there, got⟩ | ⟨absent, got⟩
      · rw [got]
        exact goes_of_same rfl rfl (Nat.le_refl _) nofun
      · rw [got]
        refine ⟨by simp, fun index inRange => Or.inl ⟨notifier_append inRange, nofun⟩,
          fun index there => ?_, Nat.le_refl _⟩
        rw [absent] at there
        cases there
  | registering index | checking index ticket =>
      cases acted
      exact goes_of_same rfl rfl (Nat.le_refl _) nofun
  | waiting index ticket =>
      cases reason with
      | none =>
          simp only [KeyedCall.act] at acted
          split at acted
          · cases acted
            exact goes_of_same rfl rfl (Nat.le_refl _) nofun
          · cases acted
      | timeout | dropped =>
          cases acted
          exact goes_of_same rfl rfl (Nat.le_refl _) nofun
  | leaving | removing =>
      obtain ⟨rfl, rfl⟩ := Prod.ext_iff.mp (Option.some.inj acted)
      exact goes_remove keyed _ trivial
  | waking index period =>
      cases acted
      refine ⟨Nat.le_of_eq (List.length_modify ..).symm, fun other inRange => ?_,
        fun _ there => Or.inl there, Nat.le_refl _⟩
      change (keyed.notifyWaiters index).notifier other = _ ∧ _ ∨
        (keyed.notifyWaiters index).notifier other = _
      rw [notifier_notifyWaiters inRange]
      rcases eq_or_ne index other with rfl | different
      · exact Or.inr (if_pos rfl)
      · refine Or.inl ⟨if_neg different, fun _ same => ?_⟩
        cases same
        exact different rfl
  | changing value =>
      cases acted
      exact goes_change keyed value _
  | returned | dropped => cases acted

end Act

/-! The waiters and their `Notify`. -/

/-- A waiter holds the `Notify` that is in the map, or has been woken or is about
to be. -/
def Tied (config : KeyedConfig) : KeyedCall → Prop
  | .registering index => config.shared.entry = some index
  | .checking index ticket | .waiting index ticket =>
      index < config.shared.notifiers.length ∧ (config.shared.notifier index).Issued ticket ∧
        (config.shared.entry = some index ∨ Attended config index ticket)
  | .waking index period =>
      index < config.shared.notifiers.length ∧
        ∀ issued, period = some issued → issued ≤ config.shared.period
  | _ => True

theorem le_of_current {keyed : KeyedNotify} {issued : Nat} (same : keyed.current = some issued) :
    issued ≤ keyed.period := by
  unfold current at same
  split at same
  · cases same
    exact Nat.le_refl _
  · cases same

/-- A `notify` that was issued in this period has taken the entry. -/
def Notified (config : KeyedConfig) : Prop :=
  config.shared.condition = true ∧
    (config.shared.served = true ∨ ∃ index, .waking index config.shared.current ∈ config.calls)

structure Watched (config : KeyedConfig) : Prop where
  entry : ∀ index, config.shared.entry = some index → index < config.shared.notifiers.length
  tied : ∀ call ∈ config.calls, Tied config call
  fresh : Notified config → ∀ index ticket, .waiting index ticket ∈ config.calls →
    Attended config index ticket

theorem Watched.noLostWakeup {config : KeyedConfig} (watched : Watched config) :
    NoLostWakeup config :=
  fun condition served => watched.fresh ⟨condition, Or.inl served⟩

section Step

variable {config : KeyedConfig} {before later : List KeyedCall} {call moved : KeyedCall}
  {after : KeyedNotify} {reason : WaitEnd}

theorem Attended.goes (shape : config.calls = before ++ call :: later)
    (goes : Goes config.shared after call moved) {index ticket : Nat}
    (inRange : index < config.shared.notifiers.length)
    (issued : (config.shared.notifier index).Issued ticket)
    (attended : Attended config index ticket) :
    Attended ⟨after, before ++ moved :: later⟩ index ticket := by
  rcases goes.notifiers index inRange with ⟨same, other⟩ | notified
  · rcases attended with woken | ⟨period, member⟩
    · refine Or.inl ?_
      change (after.notifier index).Woken ticket
      rw [same]
      exact woken
    · refine Or.inr ⟨period, ?_⟩
      rw [shape] at member
      simp only [List.mem_append, List.mem_cons] at member ⊢
      rcases member with earlier | own | rest
      · exact Or.inl earlier
      · exact absurd own.symm (other period)
      · exact Or.inr (Or.inr rest)
  · refine Or.inl ?_
    change (after.notifier index).Woken ticket
    rw [notified]
    exact issued.woken

theorem tied_wait (shape : config.calls = before ++ call :: later)
    (goes : Goes config.shared after call moved) {index ticket : Nat}
    (tied : Tied config (.waiting index ticket)) :
    Tied ⟨after, before ++ moved :: later⟩ (.waiting index ticket) := by
  obtain ⟨inRange, issued, held⟩ := tied
  refine ⟨Nat.lt_of_lt_of_le inRange goes.length, ?_, ?_⟩
  · change (after.notifier index).Issued ticket
    rcases goes.notifiers index inRange with ⟨same, -⟩ | notified
    · rw [same]
      exact issued
    · rw [notified]
      exact issued.notifyWaiters
  · rcases held with there | attended
    · rcases goes.entry index there with kept | ⟨-, period, rfl⟩
      · exact Or.inl kept
      · exact Or.inr (Or.inr ⟨period, by simp⟩)
    · exact Or.inr (attended.goes shape goes inRange issued)

theorem tied_other (shape : config.calls = before ++ call :: later)
    (goes : Goes config.shared after call moved)
    (allowed : call.Removes → ∀ index, config.shared.entry = some index →
      .registering index ∉ config.calls)
    {other : KeyedCall} (member : other ∈ config.calls) (tied : Tied config other) :
    Tied ⟨after, before ++ moved :: later⟩ other := by
  cases other with
  | registering index =>
      rcases goes.entry index tied with kept | ⟨removes, -⟩
      · exact kept
      · exact absurd member (allowed removes index tied)
  | checking index ticket => exact tied_wait shape goes tied
  | waiting index ticket => exact tied_wait shape goes tied
  | waking index period =>
      exact ⟨Nat.lt_of_lt_of_le tied.1 goes.length,
        fun issued same => Nat.le_trans (tied.2 issued same) goes.period⟩
  | creating | leaving | removing | changing | returned | dropped => trivial

theorem entry_act (lt : ∀ index, config.shared.entry = some index →
      index < config.shared.notifiers.length)
    (acted : call.act config.shared reason = some (after, moved)) :
    ∀ index, after.entry = some index → index < after.notifiers.length := by
  have goes := goes_act acted
  have kept (same : after.entry = config.shared.entry) (index : Nat)
      (there : after.entry = some index) : index < after.notifiers.length :=
    Nat.lt_of_lt_of_le (lt index (same ▸ there)) goes.length
  cases call with
  | creating =>
      cases acted
      rcases getOrCreate_cases config.shared with ⟨found, there, got⟩ | ⟨-, got⟩
      · rw [got]
        exact lt
      · rw [got]
        rintro index ⟨⟩
        simp
  | registering | checking | waking =>
      cases acted
      exact kept rfl
  | waiting index ticket =>
      cases reason with
      | none =>
          simp only [KeyedCall.act] at acted
          split at acted
          · cases acted
            exact kept rfl
          · cases acted
      | timeout | dropped =>
          cases acted
          exact kept rfl
  | leaving | removing =>
      obtain ⟨rfl, rfl⟩ := Prod.ext_iff.mp (Option.some.inj acted)
      intro index
      rcases remove_cases config.shared _ with ⟨found, -, removed⟩ | ⟨-, removed⟩
      · rw [removed]
        exact nofun
      · rw [removed] at kept ⊢
        exact kept rfl index
  | changing value =>
      cases acted
      refine kept ?_
      unfold change
      split <;> rfl
  | returned | dropped => cases acted

theorem tied_remove (watched : Watched config) {period : Option Nat}
    (known : ∀ issued, period = some issued → issued ≤ config.shared.period)
    (calls : List KeyedCall) :
    Tied ⟨(KeyedCall.remove config.shared period).1, calls⟩
      (KeyedCall.remove config.shared period).2 := by
  rcases remove_cases config.shared period with ⟨index, there, removed⟩ | ⟨-, removed⟩
  · rw [removed]
    exact ⟨watched.entry index there, known⟩
  · rw [removed]
    trivial

theorem tied_own (watched : Watched config) (shape : config.calls = before ++ call :: later)
    (acted : call.act config.shared reason = some (after, moved)) :
    Tied ⟨after, before ++ moved :: later⟩ moved := by
  have own : Tied config call := watched.tied call (by rw [shape]; simp)
  have goes := goes_act acted
  cases call with
  | creating =>
      cases acted
      rcases getOrCreate_cases config.shared with ⟨found, there, got⟩ | ⟨-, got⟩
      · rw [got]
        exact there
      · rw [got]
        rfl
  | registering index =>
      cases acted
      exact ⟨watched.entry index own, Notify.issued_enable _, Or.inl own⟩
  | checking index ticket =>
      cases acted
      have held := tied_wait shape goes own
      by_cases condition : config.shared.condition = true
      · rw [if_pos condition]
        trivial
      · rw [if_neg condition] at held ⊢
        exact held
  | waiting index ticket =>
      cases reason with
      | none =>
          simp only [KeyedCall.act] at acted
          split at acted
          · cases acted
            trivial
          · cases acted
      | timeout | dropped =>
          cases acted
          trivial
  | leaving =>
      obtain ⟨rfl, rfl⟩ := Prod.ext_iff.mp (Option.some.inj acted)
      exact tied_remove watched (by rintro _ ⟨⟩) _
  | removing =>
      obtain ⟨rfl, rfl⟩ := Prod.ext_iff.mp (Option.some.inj acted)
      exact tied_remove watched (fun _ => le_of_current) _
  | waking | changing =>
      cases acted
      trivial
  | returned | dropped => cases acted

/-- A `notify` of this period was there before, when the operation neither
begins a period nor issues one. -/
theorem notified_of_kept (shape : config.calls = before ++ call :: later)
    (notified : Notified ⟨after, before ++ moved :: later⟩)
    (condition : after.condition = config.shared.condition)
    (period : after.period = config.shared.period)
    (served : after.served = true → config.shared.served = true ∨
      ∃ index, call = .waking index config.shared.current)
    (other : ∀ index, moved = .waking index config.shared.current →
      call = .waking index config.shared.current) : Notified config := by
  have current : after.current = config.shared.current := by
    unfold KeyedNotify.current
    rw [condition, period]
  refine ⟨condition ▸ notified.1, ?_⟩
  rcases notified.2 with done | ⟨index, member⟩
  · rcases served done with earlier | ⟨index, own⟩
    · exact Or.inl earlier
    · refine Or.inr ⟨index, ?_⟩
      rw [shape, own]
      simp
  · refine Or.inr ⟨index, ?_⟩
    change KeyedCall.waking index after.current ∈ _ at member
    rw [current] at member
    rw [shape]
    simp only [List.mem_append, List.mem_cons] at member ⊢
    rcases member with earlier | own | rest
    · exact Or.inl earlier
    · exact Or.inr (Or.inl (other index own.symm).symm)
    · exact Or.inr (Or.inr rest)

theorem notified_leave (shape : config.calls = before ++ .leaving :: later)
    (notified : Notified ⟨(KeyedCall.remove config.shared none).1,
      before ++ (KeyedCall.remove config.shared none).2 :: later⟩) : Notified config := by
  rcases remove_cases config.shared none with ⟨index, -, removed⟩ | ⟨-, removed⟩
  · rw [removed] at notified
    refine notified_of_kept shape notified rfl rfl Or.inl fun other same => ?_
    cases (KeyedCall.waking.inj same).2.trans (if_pos notified.1)
  · rw [removed] at notified
    have condition : config.shared.condition = true := notified.1
    refine notified_of_kept shape notified rfl rfl (fun served => Or.inl ?_) nofun
    simpa [serve, current, condition] using served

theorem notified_change (watched : Watched config) {value : Bool}
    (shape : config.calls = before ++ .changing value :: later)
    (notified : Notified ⟨config.shared.change value, before ++ .returned :: later⟩) :
    Notified config := by
  by_cases same : value = config.shared.condition
  · rw [change, if_pos same] at notified
    exact notified_of_kept shape notified rfl rfl Or.inl nofun
  · -- A period begins, which no `notify` knows yet.
    rw [change, if_neg same] at notified
    obtain ⟨condition, served | ⟨index, member⟩⟩ := notified
    · cases served
    · obtain rfl : value = true := condition
      have there : KeyedCall.waking index (some (config.shared.period + 1)) ∈ config.calls := by
        rw [shape]
        simpa [current] using member
      exact absurd ((watched.tied _ there).2 _ rfl) (Nat.not_succ_le_self _)

/-- A `notify` of this period was there before, or it is the one that moves and
takes the entry, if there is one. -/
theorem notified_before (watched : Watched config)
    (shape : config.calls = before ++ call :: later)
    (acted : call.act config.shared reason = some (after, moved))
    (notified : Notified ⟨after, before ++ moved :: later⟩) :
    Notified config ∨
      ∀ index, config.shared.entry = some index → ∃ period, moved = .waking index period := by
  cases call with
  | creating =>
      cases acted
      refine Or.inl ?_
      rcases getOrCreate_cases config.shared with ⟨index, -, got⟩ | ⟨-, got⟩
      · rw [got] at notified
        exact notified_of_kept shape notified rfl rfl Or.inl nofun
      · rw [got] at notified
        exact notified_of_kept shape notified rfl rfl Or.inl nofun
  | registering index =>
      cases acted
      exact Or.inl (notified_of_kept shape notified rfl rfl Or.inl nofun)
  | checking index ticket =>
      cases acted
      rw [if_pos (show config.shared.condition = true from notified.1)] at notified
      exact Or.inl (notified_of_kept shape notified rfl rfl Or.inl nofun)
  | waiting index ticket =>
      cases reason with
      | none =>
          simp only [KeyedCall.act] at acted
          split at acted
          · cases acted
            exact Or.inl (notified_of_kept shape notified rfl rfl Or.inl nofun)
          · cases acted
      | timeout | dropped =>
          cases acted
          exact Or.inl (notified_of_kept shape notified rfl rfl Or.inl nofun)
  | leaving =>
      obtain ⟨rfl, rfl⟩ := Prod.ext_iff.mp (Option.some.inj acted)
      exact Or.inl (notified_leave shape notified)
  | removing =>
      obtain ⟨rfl, rfl⟩ := Prod.ext_iff.mp (Option.some.inj acted)
      refine Or.inr fun index there => ?_
      rw [KeyedCall.remove, there]
      exact ⟨_, rfl⟩
  | waking index period =>
      cases acted
      refine Or.inl (notified_of_kept shape notified rfl rfl (fun served => ?_) nofun)
      simp only [serve, Bool.or_eq_true, Bool.and_eq_true, beq_iff_eq] at served
      rcases served with earlier | ⟨-, same⟩
      · exact Or.inl earlier
      · exact Or.inr ⟨index, congrArg _ same.symm⟩
  | changing value =>
      cases acted
      exact Or.inl (notified_change watched shape notified)
  | returned | dropped => cases acted

theorem waiting_before (shape : config.calls = before ++ call :: later)
    (acted : call.act config.shared reason = some (after, moved))
    (condition : after.condition = true) {index ticket : Nat}
    (member : .waiting index ticket ∈ before ++ moved :: later) :
    .waiting index ticket ∈ config.calls := by
  rw [shape]
  simp only [List.mem_append, List.mem_cons] at member ⊢
  rcases member with earlier | rfl | rest
  · exact Or.inl earlier
  · cases call with
    | checking other issued =>
        simp only [KeyedCall.act, Option.some.injEq, Prod.mk.injEq] at acted
        obtain ⟨rfl, same⟩ := acted
        rw [if_pos condition] at same
        cases same
    | waiting other issued =>
        cases reason with
        | none =>
            simp only [KeyedCall.act] at acted
            split at acted <;> cases acted
        | timeout | dropped => cases acted
    | leaving | removing =>
        obtain ⟨-, same⟩ := Prod.ext_iff.mp (Option.some.inj acted)
        rcases remove_cases config.shared _ with ⟨found, -, removed⟩ | ⟨-, removed⟩
        · rw [removed] at same
          cases same
        · rw [removed] at same
          cases same
    | creating | registering | waking | changing | returned | dropped => cases acted
  · exact Or.inr (Or.inr rest)

theorem Watched.act (watched : Watched config) (shape : config.calls = before ++ call :: later)
    (allowed : call.Removes → ∀ index, config.shared.entry = some index →
      .registering index ∉ config.calls)
    (acted : call.act config.shared reason = some (after, moved)) :
    Watched ⟨after, before ++ moved :: later⟩ := by
  have goes := goes_act acted
  refine ⟨entry_act watched.entry acted, ?_, fun notified index ticket member => ?_⟩
  · intro other member
    simp only [List.mem_append, List.mem_cons] at member
    have kept (present : other ∈ config.calls) : Tied ⟨after, before ++ moved :: later⟩ other :=
      tied_other shape goes allowed present (watched.tied other present)
    rcases member with earlier | rfl | rest
    · exact kept (by rw [shape]; simp [earlier])
    · exact tied_own watched shape acted
    · exact kept (by rw [shape]; simp [rest])
  · have waiting := waiting_before shape acted notified.1 member
    obtain ⟨inRange, issued, held⟩ := watched.tied _ waiting
    have goesOn (attended : Attended config index ticket) :
        Attended ⟨after, before ++ moved :: later⟩ index ticket :=
      attended.goes shape goes inRange issued
    rcases notified_before watched shape acted notified with earlier | takes
    · exact goesOn (watched.fresh earlier index ticket waiting)
    · rcases held with there | attended
      · obtain ⟨period, rfl⟩ := takes index there
        exact Or.inr ⟨period, by simp⟩
      · exact goesOn attended

end Step

theorem Watched.start {config : KeyedConfig} (watched : Watched config) (request : KeyedRequest) :
    Watched ⟨config.shared, config.calls ++ [KeyedCall.start request]⟩ := by
  have grows {index ticket : Nat} (attended : Attended config index ticket) :
      Attended ⟨config.shared, config.calls ++ [KeyedCall.start request]⟩ index ticket :=
    attended.imp_right fun ⟨period, member⟩ => ⟨period, List.mem_append_left _ member⟩
  have new {call : KeyedCall} (member : call ∈ config.calls ++ [KeyedCall.start request]) :
      call ∈ config.calls ∨ call = KeyedCall.start request := by
    simpa using member
  refine ⟨watched.entry, fun call member => ?_, fun notified index ticket member => ?_⟩
  · rcases new member with present | rfl
    · have tied := watched.tied call present
      cases call with
      | checking | waiting => exact ⟨tied.1, tied.2.1, tied.2.2.imp_right grows⟩
      | registering | waking => exact tied
      | creating | leaving | removing | changing | returned | dropped => trivial
    · cases request <;> trivial
  · have present : .waiting index ticket ∈ config.calls := by
      rcases new member with present | same
      · exact present
      · cases request <;> cases same
    refine grows (watched.fresh ⟨notified.1, notified.2.imp_right ?_⟩ index ticket present)
    rintro ⟨other, issued⟩
    rcases new issued with present | same
    · exact ⟨other, present⟩
    · cases request <;> cases same

theorem Watched.step {config next : KeyedConfig} {event : KeyedEvent} (watched : Watched config)
    (allowed : ¬RemovesUnregistered config event)
    (taken : program.step config event = some next) : Watched next := by
  rcases Pool.Program.step_cases taken with
    ⟨request, rfl, rfl⟩ | ⟨before, call, later, reason, after, moved, rfl, shape, acted, rfl⟩
  · exact watched.start request
  · refine watched.act shape (fun removes index there registering => ?_) acted
    refine allowed ⟨call, ?_, removes, index, there, registering⟩
    rw [shape]
    exact Pool.getElem?_moved

theorem watched_initial : Watched initial where
  entry := nofun
  tied := nofun
  fresh := nofun

/-- In every run in which the `Notify` of a waiter stays in the map from
`get_or_create` until it is enabled. -/
theorem noLostWakeup_of_registered (events : List KeyedEvent)
    (registered : Machine.Within program.step
      (fun config event => ¬RemovesUnregistered config event) initial events) :
    Machine.Throughout program.step NoLostWakeup initial events := by
  have watched : Machine.Throughout program.step Watched initial events :=
    Machine.throughout_of_within Watched (fun here allowed taken => here.step allowed taken)
      watched_initial registered
  exact Machine.throughout_mono Watched.noLostWakeup watched

/-- A waiter, whose condition becomes true, and a `notify`. -/
def wakened : List KeyedEvent :=
  [.start .waitUntil, .advance 0 .none, .advance 0 .none, .advance 0 .none, .start (.change true),
    .advance 1 .none, .start .notify, .advance 2 .none, .advance 2 .none, .advance 0 .none]

theorem noLostWakeup_wakened :
    Machine.Throughout program.step NoLostWakeup initial wakened ∧
      ∃ final, Machine.run program.step initial wakened = some final ∧
        final.shared.served = true ∧ final.calls[0]? = some .creating :=
  ⟨noLostWakeup_of_registered wakened (by decide), _, rfl, rfl, rfl⟩

/-- Two waiters get the same `Notify`; the second one times out before the first
one is enabled.  Then the condition becomes true, and a `notify` finds no entry. -/
def removedTooEarly : List KeyedEvent :=
  [.start .waitUntil, .advance 0 .none, .start .waitUntil, .advance 1 .none, .advance 1 .none,
    .advance 1 .none, .advance 1 .timeout, .advance 1 .none, .advance 1 .none, .advance 0 .none,
    .advance 0 .none, .start (.change true), .advance 2 .none, .start .notify, .advance 3 .none]

theorem waiter_is_lost :
    ∃ final, Machine.run program.step initial removedTooEarly = some final ∧
      final.shared.condition = true ∧ final.shared.served = true ∧
        final.calls = [.waiting 0 1, .returned, .returned, .returned] ∧
          (KeyedCall.waiting 0 1).act final.shared .none = none ∧ ¬NoLostWakeup final := by
  refine ⟨⟨⟨none, [⟨1⟩], true, 1, true⟩, [.waiting 0 1, .returned, .returned, .returned]⟩, rfl, rfl,
    rfl, rfl, rfl, fun kept => ?_⟩
  rcases kept rfl rfl 0 1 (List.mem_cons_self ..) with woken | ⟨period, waking⟩
  · exact absurd woken (by decide)
  · simp at waking

end KeyedNotify

end QuicProxy
