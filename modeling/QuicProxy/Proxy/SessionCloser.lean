import QuicProxy.Data.Notify
import QuicProxy.Data.Pool

namespace QuicProxy

/-! `SessionCloser` (`src/proxy/mod.rs`): any number of `close` and `wait` calls,
one operation a step. -/

structure SessionCloser where
  closed : Bool
  notify : Notify
deriving DecidableEq

inductive CloserRequest where
  | close
  | wait

inductive CloserCall where
  | swapping
  | notifying
  /-- `close` has returned; `first` says that its swap found the flag unset. -/
  | closed (first : Bool)
  | registering
  | checking (ticket : Nat)
  | waiting (ticket : Nat)
  | waited
  | dropped
deriving DecidableEq

namespace CloserCall

def start : CloserRequest → CloserCall
  | .close => swapping
  | .wait => registering

/-- The choice says that the future of a `wait` is dropped where it waits. -/
def act (closer : SessionCloser) : CloserCall → Bool → Option (SessionCloser × CloserCall)
  | swapping, _ =>
      if closer.closed then some (closer, closed false)
      else some ({ closer with closed := true }, notifying)
  | notifying, _ => some ({ closer with notify := closer.notify.notifyWaiters }, closed true)
  | registering, _ => some (closer, checking closer.notify.enable)
  | checking ticket, _ =>
      if closer.closed then some (closer, waited) else some (closer, waiting ticket)
  | waiting _, true => some (closer, dropped)
  | waiting ticket, false =>
      if closer.notify.Woken ticket then some (closer, registering) else none
  | closed _, _ | waited, _ | dropped, _ => none

def Blocked (closer : SessionCloser) : CloserCall → Prop
  | waiting ticket => ¬closer.notify.Woken ticket
  | _ => False

instance (closer : SessionCloser) : (call : CloserCall) → Decidable (call.Blocked closer)
  | waiting ticket => inferInstanceAs (Decidable (¬closer.notify.Woken ticket))
  | swapping | notifying | closed _ | registering | checking _ | waited | dropped =>
      inferInstanceAs (Decidable False)

/-- A `close` that has changed the flag or found it changed. -/
def Swapped : CloserCall → Prop
  | notifying | closed _ => True
  | _ => False

end CloserCall

abbrev CloserConfig := Pool.Config SessionCloser CloserCall

abbrev CloserEvent := Pool.Event CloserRequest Bool

namespace SessionCloser

def program : Pool.Program SessionCloser CloserCall CloserRequest Bool where
  start := CloserCall.start
  act config := CloserCall.act config.shared

def initial : CloserConfig := ⟨⟨false, .new⟩, []⟩

/-- Once the `close` that changed the flag has returned, no `wait` is blocked.
Once any `close` has, one that is blocked is about to be woken, and none gets
blocked any more.  No `wait` returns before a `close` has begun. -/
structure Delivers (config : CloserConfig) : Prop where
  woken : .closed true ∈ config.calls → ∀ call ∈ config.calls, ¬call.Blocked config.shared
  waking : ∀ first, .closed first ∈ config.calls → ∀ call ∈ config.calls,
    call.Blocked config.shared → .notifying ∈ config.calls
  settled : ∀ first, .closed first ∈ config.calls → ∀ call ∈ config.calls, ∀ dropped next moved,
    call.act config.shared dropped = some (next, moved) → ¬moved.Blocked next
  honest : .waited ∈ config.calls → ∃ call ∈ config.calls, call.Swapped

/-! What keeps the order of the steps. -/

def Sound (closer : SessionCloser) : CloserCall → Prop
  | .notifying => closer.closed = true
  | .closed first => closer.closed = true ∧ (first = true → closer.notify.Woken 0)
  | .checking ticket => closer.notify.Issued ticket
  | .waiting ticket => ticket = 0
  | .waited => closer.closed = true
  | _ => True

structure Ordered (config : CloserConfig) : Prop where
  sound : ∀ call ∈ config.calls, Sound config.shared call
  idle : config.shared.closed = false → config.shared.notify = .new
  /-- Who sets the flag notifies the waiters next. -/
  owed : config.shared.closed = true → config.shared.notify = .new → .notifying ∈ config.calls
  begun : config.shared.closed = true → ∃ call ∈ config.calls, call.Swapped

variable {config next : CloserConfig} {event : CloserEvent}

theorem ordered_initial : Ordered initial where
  sound := nofun
  idle := fun _ => rfl
  owed := nofun
  begun := nofun

theorem new_of_blocked {closer : SessionCloser} {call : CloserCall} (sound : Sound closer call)
    (blocked : call.Blocked closer) : closer.notify = .new := by
  cases call with
  | waiting ticket =>
      obtain rfl : ticket = 0 := sound
      have none : closer.notify.calls = 0 := Nat.eq_zero_of_not_pos blocked
      exact congrArg Notify.mk none
  | swapping | notifying | closed | registering | checking | waited | dropped =>
      exact blocked.elim

theorem not_blocked_act {closer after : SessionCloser} {call moved : CloserCall} {dropped : Bool}
    (closed : closer.closed = true) (acted : call.act closer dropped = some (after, moved)) :
    ¬moved.Blocked after := by
  cases call with
  | swapping | checking =>
      simp only [CloserCall.act, if_pos closed] at acted
      cases acted
      exact id
  | notifying | registering =>
      cases acted
      exact id
  | waiting ticket =>
      cases dropped with
      | true =>
          cases acted
          exact id
      | false =>
          simp only [CloserCall.act] at acted
          split at acted
          · cases acted
            exact id
          · cases acted
  | closed | waited | dropped => cases acted

theorem Ordered.closes (ordered : Ordered config) : Delivers config where
  woken := by
    intro returned call member blocked
    have woken := (ordered.sound _ returned).2 rfl
    rw [new_of_blocked (ordered.sound call member) blocked] at woken
    exact Nat.lt_irrefl 0 woken
  waking := by
    intro first returned call member blocked
    exact ordered.owed (ordered.sound _ returned).1
      (new_of_blocked (ordered.sound call member) blocked)
  settled := by
    intro first returned call member dropped after moved acted
    exact not_blocked_act (ordered.sound _ returned).1 acted
  honest := fun returned => ordered.begun (ordered.sound _ returned)

/-- What an operation of a call does: a `close` sets the flag, or notifies the
waiters, or nothing changes for the other calls. -/
theorem act_cases {closer after : SessionCloser} {call moved : CloserCall} {dropped : Bool}
    (acted : call.act closer dropped = some (after, moved)) :
    (call = .swapping ∧ closer.closed = false ∧ moved = .notifying ∧
        after = { closer with closed := true }) ∨
      (call = .notifying ∧ moved = .closed true ∧
        after = { closer with notify := closer.notify.notifyWaiters }) ∨
      (call ≠ .notifying ∧ after = closer ∧ (call.Swapped → moved.Swapped) ∧
        ((closer.closed = false → closer.notify = .new) → Sound closer call →
          Sound closer moved)) := by
  cases call with
  | swapping =>
      simp only [CloserCall.act] at acted
      split at acted
      · next closed =>
          cases acted
          exact Or.inr (Or.inr ⟨nofun, rfl, fun _ => trivial, fun _ _ => ⟨closed, nofun⟩⟩)
      · next opened =>
          cases acted
          exact Or.inl ⟨rfl, Bool.eq_false_iff.mpr opened, rfl, rfl⟩
  | notifying =>
      cases acted
      exact Or.inr (Or.inl ⟨rfl, rfl, rfl⟩)
  | registering =>
      cases acted
      exact Or.inr (Or.inr ⟨nofun, rfl, False.elim, fun _ _ => Notify.issued_enable _⟩)
  | checking ticket =>
      simp only [CloserCall.act] at acted
      split at acted
      · next closed =>
          cases acted
          exact Or.inr (Or.inr ⟨nofun, rfl, False.elim, fun _ _ => closed⟩)
      · next opened =>
          cases acted
          refine Or.inr (Or.inr ⟨nofun, rfl, False.elim, fun idle issued => ?_⟩)
          -- Nothing has been notified, so the ticket is the first one.
          change ticket ≤ closer.notify.calls at issued
          rw [idle (Bool.eq_false_iff.mpr opened)] at issued
          exact Nat.le_zero.mp issued
  | waiting ticket =>
      cases dropped with
      | true =>
          cases acted
          exact Or.inr (Or.inr ⟨nofun, rfl, False.elim, fun _ _ => trivial⟩)
      | false =>
          simp only [CloserCall.act] at acted
          split at acted
          · cases acted
            exact Or.inr (Or.inr ⟨nofun, rfl, False.elim, fun _ _ => trivial⟩)
          · cases acted
  | closed | waited | dropped => cases acted

theorem sound_close {closer : SessionCloser} {call : CloserCall} (sound : Sound closer call) :
    Sound { closer with closed := true } call := by
  cases call with
  | closed first => exact ⟨rfl, sound.2⟩
  | notifying | waited => exact rfl
  | swapping | registering | checking | waiting | dropped => exact sound

theorem sound_notify {closer : SessionCloser} {call : CloserCall} (sound : Sound closer call) :
    Sound { closer with notify := closer.notify.notifyWaiters } call := by
  cases call with
  | closed first => exact ⟨sound.1, fun changed => (sound.2 changed).notifyWaiters⟩
  | checking ticket => exact Notify.Issued.notifyWaiters sound
  | notifying | waited | swapping | registering | waiting | dropped => exact sound

theorem Ordered.step (ordered : Ordered config) (taken : program.step config event = some next) :
    Ordered next := by
  rcases Pool.Program.step_cases taken with
    ⟨request, rfl, rfl⟩ | ⟨before, call, after, dropped, shared, moved, rfl, shape, acted, rfl⟩
  · refine ⟨Pool.forall_start ordered.sound ?_, ordered.idle, fun closed none => ?_,
      fun closed => ?_⟩
    · cases request with
      | close | wait => trivial
    · exact List.mem_append_left _ (ordered.owed closed none)
    · obtain ⟨call, member, swapped⟩ := ordered.begun closed
      exact ⟨call, List.mem_append_left _ member, swapped⟩
  · have sound := ordered.sound
    have owed := ordered.owed
    have begun := ordered.begun
    rw [shape] at sound owed begun
    have own : Sound config.shared call := sound call (by simp)
    rcases act_cases acted with ⟨rfl, opened, rfl, rfl⟩ | ⟨rfl, rfl, rfl⟩ | ⟨other, rfl, kept, goes⟩
    · exact ⟨Pool.forall_act sound (fun _ => rfl) fun _ => sound_close, nofun,
        fun _ _ => by simp, fun _ => ⟨.notifying, by simp, trivial⟩⟩
    · refine ⟨Pool.forall_act sound (fun notifying => ⟨notifying, fun _ => Nat.succ_pos _⟩)
        fun _ => sound_notify, fun opened => ?_, nofun, fun _ => ⟨.closed true, by simp, trivial⟩⟩
      exact absurd (opened.symm.trans own) nofun
    · refine ⟨Pool.forall_act sound (goes ordered.idle) fun _ => id, ordered.idle,
        fun closed none => ?_, fun closed => ?_⟩
      · have member := owed closed none
        simp only [List.mem_append, List.mem_cons] at member ⊢
        rcases member with earlier | same | later
        · exact Or.inl earlier
        · exact absurd same.symm other
        · exact Or.inr (Or.inr later)
      · rcases Pool.exists_act (begun closed) with swapped | elsewhere
        · exact ⟨moved, by simp, kept swapped⟩
        · exact elsewhere

/-- In every interleaving of any `close` and `wait` calls. -/
theorem delivers (events : List CloserEvent) :
    Machine.Throughout program.step Delivers initial events := by
  have ordered : Machine.Throughout program.step Ordered initial events :=
    Machine.throughout_of_invariant Ordered (fun here taken => here.step taken) ordered_initial
  exact Machine.throughout_mono Ordered.closes ordered

/-- A `wait` that waits, a `close` that has set the flag, and a second `close`. -/
def secondClose : List CloserEvent :=
  [.start .wait, .advance 0 false, .advance 0 false, .start .close, .advance 1 false,
    .start .close, .advance 2 false]

/-- The second `close` returns while the first one has yet to notify. -/
theorem blocked_after_second_close :
    ∃ final, Machine.run program.step initial secondClose = some final ∧
      .closed false ∈ final.calls ∧ ∃ call ∈ final.calls, call.Blocked final.shared :=
  ⟨_, rfl, by decide, by decide⟩

end SessionCloser

end QuicProxy
