import QuicProxy.Data.AsyncStream

namespace QuicProxy

/-! Adapters that write a head before the bytes of their user, as a handshake
is. -/

/-- What is left of the head, what has been written and what has been accepted:
nothing is accepted before the head is out. -/
inductive Led (head : Bytes) : Option Bytes → Bytes → Bytes → Prop
  | pending {rest written : Bytes} (whole : written ++ rest = head) :
      Led head (some rest) written []
  | done (accepted : Bytes) : Led head none (head ++ accepted) accepted

namespace Led

variable {head rest written accepted : Bytes}

theorem start (head : Bytes) : Led head (some head) [] [] := .pending rfl

theorem isPrefix {left : Option Bytes} (led : Led head left written accepted) :
    written <+: head ++ accepted := by
  cases led with
  | pending whole =>
      rw [List.append_nil]
      exact ⟨_, whole⟩
  | done accepted => exact List.prefix_rfl

theorem head_isPrefix_iff {left : Option Bytes} (led : Led head left written accepted) :
    head <+: written ↔ left.getD [] = [] := by
  cases led with
  | @pending rest written whole =>
      subst whole
      constructor
      · intro out
        have short := out.length_le
        rw [List.length_append] at short
        exact List.length_eq_zero_iff.mp (by change rest.length = 0; omega)
      · intro nothing
        change rest = [] at nothing
        rw [nothing, List.append_nil]
  | done accepted => exact iff_of_true (List.prefix_append head accepted) rfl

theorem written_eq (led : Led head none written accepted) : written = head ++ accepted := by
  cases led with
  | done accepted => rfl

theorem headFirst {left : Option Bytes} (led : Led head left written accepted)
    (some_bytes : accepted ≠ []) : written = head ++ accepted := by
  cases led with
  | pending whole => exact absurd rfl some_bytes
  | done accepted => rfl

theorem write (led : Led head none written accepted) (more : Bytes) :
    Led head none (written ++ more) (accepted ++ more) := by
  cases led with
  | done accepted =>
      rw [List.append_assoc]
      exact .done _

theorem part {buf : Bytes} {count : Nat} (led : Led head (some rest) written accepted)
    (short : count ≤ rest.length) :
    Led head (some (rest.drop count)) (written ++ (rest ++ buf).take count) accepted := by
  cases led with
  | pending whole =>
      refine .pending ?_
      rw [List.take_append_of_le_length short, List.append_assoc, List.take_append_drop, whole]

theorem whole {buf : Bytes} {count : Nat} (led : Led head (some rest) written accepted)
    (long : rest.length ≤ count) :
    Led head none (written ++ (rest ++ buf).take count)
      (accepted ++ buf.take (count - rest.length)) := by
  cases led with
  | pending whole =>
      rw [List.take_append, List.take_of_length_le long, ← List.append_assoc, whole]
      exact .done _

end Led

/-- The last thing done on the stream was a write that took nothing. -/
def Wire.Stalled {State : Type} (wire : Wire State) : Prop :=
  ∃ offered, wire.ops.getLast? = some (.write offered 0)

/-- The head is written once and before the bytes that are reported, and a
report is made only when everything it counts has been written. -/
structure PrefixOnce {State : Type} (head : Bytes) (wire : Wire State) (accepted : Bytes)
    (last : Option PollAnswer) : Prop where
  isPrefix : wire.written <+: head ++ accepted
  headFirst : accepted ≠ [] → wire.written = head ++ accepted
  reports : ∀ count, last = some (.wrote (.ready (.ok count))) →
    wire.written = head ++ accepted ∨ count = 0 ∧ wire.Stalled

/-- No call has been answered as if the head were out while it is not. -/
structure NotWithheld {State : Type} (head : Bytes) (wire : Wire State)
    (last : Option PollAnswer) : Prop where
  flush : last = some (.flushed (.ready (.ok ()))) → head <+: wire.written
  shutdown : last = some (.shut (.ready (.ok ()))) → head <+: wire.written
  read : last = some (.read .pending) → wire.offered = true

/-- What one write has done to the head, and what its answer says of it. -/
structure WriteKeeps {State : Type} (head accepted buf : Bytes)
    (result : Poll (Except String Nat)) (left : Option Bytes) (wire : Wire State) : Prop where
  led : Led head left wire.written (accepted ++ buf.take (reported result))
  reports : ∀ count, result = .ready (.ok count) → left = none ∨ count = 0 ∧ wire.Stalled
  offered : wire.offered = true

section WriteKeeps

variable {State : Type} {head rest accepted buf : Bytes} {wire : Wire State}
  {after : Poll (Except String Nat) × Wire State}

theorem Wire.Took.stalled {before : Wire State} (took : before.Took buf after)
    (nothing : reported after.1 = 0) : after.2.Stalled := by
  refine ⟨buf, ?_⟩
  rw [took.ops, nothing, List.getLast?_concat]

theorem writeKeeps_done (led : Led head none wire.written accepted) (took : wire.Took buf after) :
    WriteKeeps head accepted buf after.1 none after.2 := by
  refine ⟨?_, fun _ _ => Or.inl rfl, took.offered⟩
  rw [took.written]
  exact led.write _

theorem writeKeeps_stalled (led : Led head (some rest) wire.written accepted)
    (took : wire.Took (rest ++ buf) after) (nothing : reported after.1 = 0)
    {result : Poll (Except String Nat)} (same : reported result = 0) :
    WriteKeeps head accepted buf result (some rest) after.2 := by
  refine ⟨?_, fun count answer => Or.inr ⟨?_, took.stalled nothing⟩, took.offered⟩
  · rw [took.written, nothing, same, List.take_zero, List.take_zero, List.append_nil,
      List.append_nil]
    exact led
  · rw [answer] at same
    exact same

theorem led_of_part (led : Led head (some rest) wire.written accepted)
    (took : wire.Took (rest ++ buf) after) (short : reported after.1 ≤ rest.length) :
    Led head (some (rest.drop (reported after.1))) after.2.written accepted := by
  rw [took.written]
  exact led.part short

theorem led_of_whole (led : Led head (some rest) wire.written accepted)
    (took : wire.Took (rest ++ buf) after) (long : rest.length ≤ reported after.1) :
    Led head none after.2.written (accepted ++ buf.take (reported after.1 - rest.length)) := by
  rw [took.written]
  exact led.whole long

/-- The write ended exactly with the head, so nothing of the user is out yet. -/
theorem led_of_exact (led : Led head (some rest) wire.written accepted)
    (took : wire.Took (rest ++ buf) after) (exactly : reported after.1 = rest.length) :
    Led head none after.2.written accepted := by
  have whole := led_of_whole led took (Nat.le_of_eq exactly.symm)
  rwa [exactly, Nat.sub_self, List.take_zero, List.append_nil] at whole

end WriteKeeps

/-- An adapter with a head, by what it shows of itself. -/
structure Headed (State Adapter : Type) where
  poll : Adapter → PollCall → PollAnswer × Adapter
  left : Adapter → Option Bytes
  wire : Adapter → Wire State

namespace Headed

variable {State Adapter : Type}

/-- The adapter still shows the same, and has not answered a write. -/
structure Same (headed : Headed State Adapter) (before : Adapter)
    (after : PollAnswer × Adapter) : Prop where
  left : headed.left after.2 = headed.left before
  written : (headed.wire after.2).written = (headed.wire before).written
  offered : (headed.wire after.2).offered = (headed.wire before).offered
  answer : ∀ result, after.1 ≠ .wrote result

structure Sound (headed : Headed State Adapter) (head : Bytes) : Prop where
  write : ∀ {adapter accepted} buf,
    Led head (headed.left adapter) (headed.wire adapter).written accepted →
      ∃ result, (headed.poll adapter (.write buf)).1 = .wrote result ∧
        WriteKeeps head accepted buf result (headed.left (headed.poll adapter (.write buf)).2)
          (headed.wire (headed.poll adapter (.write buf)).2)
  flush : ∀ adapter, headed.Same adapter (headed.poll adapter .flush)
  shutdown : ∀ adapter, headed.Same adapter (headed.poll adapter .shutdown)
  read : ∀ adapter room, headed.Same adapter (headed.poll adapter (.read room))

def IsLed (headed : Headed State Adapter) (head : Bytes) (polled : Polled Adapter) : Prop :=
  Led head (headed.left polled.adapter) (headed.wire polled.adapter).written polled.accepted

def Once (headed : Headed State Adapter) (head : Bytes) (polled : Polled Adapter) : Prop :=
  PrefixOnce head (headed.wire polled.adapter) polled.accepted polled.last

def Shows (headed : Headed State Adapter) (head : Bytes) (polled : Polled Adapter) : Prop :=
  NotWithheld head (headed.wire polled.adapter) polled.last

def Reports (headed : Headed State Adapter) (polled : Polled Adapter) : Prop :=
  ∀ count, polled.last = some (.wrote (.ready (.ok count))) →
    headed.left polled.adapter = none ∨ count = 0 ∧ (headed.wire polled.adapter).Stalled

/-- The answer to the call does not pass the head over: a flush and a shutdown
succeed when it is out, and a read waits when a write was tried. -/
def Honest (headed : Headed State Adapter) (polled : Polled Adapter) (call : PollCall) : Prop :=
  match (headed.poll polled.adapter call).1 with
  | .flushed (.ready (.ok ())) => (headed.left polled.adapter).getD [] = []
  | .shut (.ready (.ok ())) => (headed.left polled.adapter).getD [] = []
  | .read .pending => (headed.wire polled.adapter).offered = true
  | _ => True

variable {headed : Headed State Adapter} {head : Bytes}

theorem taken_of_same {call : PollCall} {before : Adapter} {after : PollAnswer × Adapter}
    (same : headed.Same before after) : after.1.taken call = [] := by
  obtain ⟨answer, adapter⟩ := after
  cases answer with
  | wrote result => exact absurd rfl (same.answer result)
  | flushed result => cases call <;> rfl
  | shut result => cases call <;> rfl
  | read result => cases call <;> rfl

theorem keeps_of_same {polled : Polled Adapter} {call : PollCall}
    {after : PollAnswer × Adapter} (same : headed.Same polled.adapter after)
    (led : headed.IsLed head polled) :
    headed.IsLed head ⟨after.2, polled.accepted ++ after.1.taken call, some after.1⟩ ∧
      headed.Reports ⟨after.2, polled.accepted ++ after.1.taken call, some after.1⟩ := by
  refine ⟨?_, fun count answer => absurd (Option.some.inj answer) (same.answer _)⟩
  unfold IsLed
  rw [same.left, same.written, taken_of_same same, List.append_nil]
  exact led

theorem step_keeps (sound : headed.Sound head) {polled next : Polled Adapter} {call : PollCall}
    (led : headed.IsLed head polled) (taken : Polled.step headed.poll polled call = some next) :
    headed.IsLed head next ∧ headed.Reports next := by
  rw [Polled.step_cases taken]
  cases call with
  | write buf =>
      obtain ⟨result, answer, keeps⟩ := sound.write buf led
      refine ⟨?_, fun count same => ?_⟩
      · unfold IsLed
        rw [answer]
        exact keeps.led
      · rw [answer] at same
        exact keeps.reports count (PollAnswer.wrote.inj (Option.some.inj same))
  | flush => exact keeps_of_same (sound.flush polled.adapter) led
  | shutdown => exact keeps_of_same (sound.shutdown polled.adapter) led
  | read room => exact keeps_of_same (sound.read polled.adapter room) led

/-- In every run the head is written once, before the bytes that are reported. -/
theorem once_throughout (sound : headed.Sound head) (calls : List PollCall)
    {polled : Polled Adapter} (led : headed.IsLed head polled) (fresh : polled.last = none) :
    Machine.Throughout (Polled.step headed.poll) (headed.Once head) polled calls := by
  have reports : headed.Reports polled := by
    unfold Reports
    rw [fresh]
    exact nofun
  have known : Machine.Throughout (Polled.step headed.poll)
      (fun polled => headed.IsLed head polled ∧ headed.Reports polled) polled calls :=
    Machine.throughout_of_invariant _ (fun known taken => step_keeps sound known.1 taken)
      ⟨led, reports⟩
  refine Machine.throughout_mono ?_ known
  rintro polled ⟨led, reports⟩
  refine ⟨led.isPrefix, led.headFirst, fun count answer => ?_⟩
  refine (reports count answer).imp_left fun out => ?_
  unfold IsLed at led
  rw [out] at led
  exact led.written_eq

theorem shows_step_iff (sound : headed.Sound head) {polled next : Polled Adapter}
    {call : PollCall} (led : headed.IsLed head polled)
    (taken : Polled.step headed.poll polled call = some next) :
    headed.Shows head next ↔ headed.Honest polled call := by
  rw [Polled.step_cases taken]
  unfold Shows Honest
  have quiet (same : headed.Same polled.adapter (headed.poll polled.adapter call)) :
      NotWithheld head (headed.wire (headed.poll polled.adapter call).2)
        (some (headed.poll polled.adapter call).1) ↔ headed.Honest polled call := by
    unfold Honest
    rw [← led.head_isPrefix_iff, ← same.written, ← same.offered]
    rcases headed.poll polled.adapter call with ⟨answer, adapter⟩
    split
    · next succeeded =>
        cases succeeded
        exact ⟨fun shows => shows.flush rfl, fun out => ⟨fun _ => out, nofun, nofun⟩⟩
    · next succeeded =>
        cases succeeded
        exact ⟨fun shows => shows.shutdown rfl, fun out => ⟨nofun, fun _ => out, nofun⟩⟩
    · next waits =>
        cases waits
        exact ⟨fun shows => shows.read rfl, fun offered => ⟨nofun, nofun, fun _ => offered⟩⟩
    · next notFlushed notShut notWaiting =>
        refine iff_of_true ⟨fun same => ?_, fun same => ?_, fun same => ?_⟩ trivial
        · exact absurd (Option.some.inj same) notFlushed
        · exact absurd (Option.some.inj same) notShut
        · exact absurd (Option.some.inj same) notWaiting
  cases call with
  | write buf =>
      obtain ⟨result, answer, keeps⟩ := sound.write buf led
      rw [answer]
      exact iff_of_true ⟨nofun, nofun, nofun⟩ trivial
  | flush => exact quiet (sound.flush polled.adapter)
  | shutdown => exact quiet (sound.shutdown polled.adapter)
  | read room => exact quiet (sound.read polled.adapter room)

theorem shows_throughout_iff (sound : headed.Sound head) (calls : List PollCall)
    {polled : Polled Adapter} (led : headed.IsLed head polled) (fresh : polled.last = none) :
    Machine.Throughout (Polled.step headed.poll) (headed.Shows head) polled calls ↔
      Machine.Within (Polled.step headed.poll) headed.Honest polled calls := by
  obtain ⟨final, ran⟩ := Polled.exists_run headed.poll polled calls
  refine Machine.throughout_iff_within (headed.IsLed head) (headed.Shows head)
    (fun led _ taken => (step_keeps sound led taken).1)
    (fun led _ taken => shows_step_iff sound led taken) led ?_ ran
  unfold Shows
  rw [fresh]
  exact ⟨nofun, nofun, nofun⟩

theorem honest_iff_of_flushed {polled : Polled Adapter} {call : PollCall}
    {result : Poll (Except String Unit)}
    (answer : (headed.poll polled.adapter call).1 = .flushed result) :
    headed.Honest polled call ↔
      (headed.left polled.adapter).getD [] = [] ∨ result ≠ .ready (.ok ()) := by
  unfold Honest
  rw [answer]
  cases result with
  | pending => simp
  | ready value => cases value <;> simp

theorem honest_iff_of_shut {polled : Polled Adapter} {call : PollCall}
    {result : Poll (Except String Unit)}
    (answer : (headed.poll polled.adapter call).1 = .shut result) :
    headed.Honest polled call ↔
      (headed.left polled.adapter).getD [] = [] ∨ result ≠ .ready (.ok ()) := by
  unfold Honest
  rw [answer]
  cases result with
  | pending => simp
  | ready value => cases value <;> simp

theorem honest_iff_of_read {polled : Polled Adapter} {call : PollCall} {result : PollRead}
    (answer : (headed.poll polled.adapter call).1 = .read result) :
    headed.Honest polled call ↔
      (headed.wire polled.adapter).offered = true ∨ result ≠ .pending := by
  unfold Honest
  rw [answer]
  cases result <;> simp

end Headed

end QuicProxy
