import QuicProxy.Data.Pool

namespace QuicProxy

/-! The pool of connected streams in front of an outbound, and the task that
fills it (`src/proxy/outbound/pool.rs`). -/

namespace PoolOutbound

/-- What the inner outbound answers, or the drop of the future that asks. -/
inductive Answer where
  | ok
  | failed
  | dropped
deriving DecidableEq

/-- A task that `fill` has spawned, by the place it has reached. -/
inductive Filler where
  | spawned
  | trying (tryTimes : Nat)
  | sending (tryTimes : Nat) (stream : Nat)
  | sleeping (tryTimes : Nat)
  | ended
deriving DecidableEq

/-- A call of `connect_stream_base`. -/
inductive Caller where
  | receiving
  | filling
  | connecting
  | given (stream : Nat)
  | failed
  | dropped
deriving DecidableEq

/-- Streams are numbered as they are connected. -/
structure State where
  maxSize : Nat
  queue : List Nat
  isFilling : Bool
  connected : Nat
  fillers : List Filler
  callers : List Caller
deriving DecidableEq

def initial (maxSize : Nat) : State := ⟨maxSize, [], false, 0, [], []⟩

inductive Event where
  | call
  | caller (index : Nat) (answer : Answer)
  | filler (index : Nat) (answer : Answer)
deriving DecidableEq

namespace Filler

/-- The loop of the task, at its head. -/
def loop : Nat → Filler
  | 0 => ended
  | tryTimes + 1 => trying (tryTimes + 1)

/-- The stream that the task has connected and not yet sent. -/
def hand : Filler → Option Nat
  | sending _ stream => some stream
  | _ => none

/-- How many streams the task may still add to the queue. -/
def pending : Filler → Nat
  | trying tryTimes | sending tryTimes _ => tryTimes
  | sleeping tryTimes => tryTimes - 1
  | spawned | ended => 0

end Filler

def Caller.stream : Caller → Option Nat
  | given stream => some stream
  | _ => none

namespace State

/-- The task goes on to its next place.  Its guard clears the flag at the end. -/
def goOn (state : State) (index : Nat) (next : Filler) : State :=
  { state with
    fillers := state.fillers.set index next
    isFilling := if next = .ended then false else state.isFilling }

def goOnCaller (state : State) (index : Nat) (next : Caller) : State :=
  { state with callers := state.callers.set index next }

def fillerStep (state : State) (index : Nat) : Filler → Answer → Option State
  | .ended, _ => none
  -- the guard is made when the task first runs
  | .spawned, .dropped => some { state with fillers := state.fillers.set index .ended }
  | .spawned, _ => some (state.goOn index (.loop (state.maxSize - state.queue.length)))
  | .trying _, .dropped | .sending _ _, .dropped | .sleeping _, .dropped =>
      some (state.goOn index .ended)
  | .trying tryTimes, .ok =>
      some { state.goOn index (.sending tryTimes state.connected) with
        connected := state.connected + 1 }
  | .trying tryTimes, .failed => some (state.goOn index (.sleeping tryTimes))
  | .sending tryTimes stream, _ =>
      if state.queue.length < state.maxSize then
        some { state.goOn index (.loop (tryTimes - 1)) with queue := state.queue ++ [stream] }
      else none
  | .sleeping tryTimes, _ => some (state.goOn index (.loop (tryTimes - 1)))

/-- `try_recv` under the lock, and what follows it up to the next `await`. -/
def receive (state : State) (index : Nat) : State :=
  match state.queue with
  | [] => state.goOnCaller index .filling
  | stream :: queue => { state.goOnCaller index (.given stream) with queue := queue }

def fill (state : State) : State :=
  if state.isFilling then state
  else { state with isFilling := true, fillers := state.fillers ++ [.spawned] }

def callerStep (state : State) (index : Nat) : Caller → Answer → Option State
  | .given _, _ | .failed, _ | .dropped, _ => none
  | .receiving, .dropped | .connecting, .dropped => some (state.goOnCaller index .dropped)
  | .receiving, _ => some (state.receive index)
  | .filling, _ => some (state.fill.goOnCaller index .connecting)
  | .connecting, .ok =>
      some { state.goOnCaller index (.given state.connected) with
        connected := state.connected + 1 }
  | .connecting, .failed => some (state.goOnCaller index .failed)

def step (state : State) : Event → Option State
  | .call => some { state with callers := state.callers ++ [.receiving] }
  | .caller index answer => state.callers[index]?.bind (state.callerStep index · answer)
  | .filler index answer => state.fillers[index]?.bind (state.fillerStep index · answer)

/-- Where the streams are: in the queue, with a task, or with a caller. -/
def places (state : State) : List Nat :=
  state.queue ++ state.fillers.filterMap Filler.hand ++ state.callers.filterMap Caller.stream

end State

/-! What every step keeps. -/

/-- The task has a try left wherever it awaits something. -/
def Filler.Live : Filler → Prop
  | .trying tryTimes | .sending tryTimes _ | .sleeping tryTimes => 0 < tryTimes
  | .spawned | .ended => True

structure Sound (state : State) : Prop where
  once : Pool.Once state.connected state.places
  bounded : state.queue.length ≤ state.maxSize
  room : ∀ filler ∈ state.fillers, state.queue.length + filler.pending ≤ state.maxSize
  live : ∀ filler ∈ state.fillers, filler.Live
  alone : state.fillers.Pairwise fun one other => one = .ended ∨ other = .ended
  flag : ∀ filler ∈ state.fillers, filler ≠ .ended → state.isFilling = true

/-- What one step of the task at its place does: the streams that it connects,
those that it sends, and where it goes on. -/
structure Moves (state after : State) (index : Nat) (filler next : Filler)
    (fresh sent : List Nat) : Prop where
  fillers : after.fillers = state.fillers.set index next
  queue : after.queue = state.queue ++ sent
  connected : after.connected = state.connected + fresh.length
  numbered : fresh = [] ∨ fresh = [state.connected]
  kept : after.maxSize = state.maxSize ∧ after.callers = state.callers
  flag : next ≠ .ended → after.isFilling = state.isFilling
  conserved (stream : Nat) : sent.count stream + next.hand.toList.count stream ≤
    filler.hand.toList.count stream + fresh.count stream
  live : next.Live
  room : state.queue.length + filler.pending ≤ state.maxSize →
    state.queue.length + sent.length + next.pending ≤ state.maxSize

theorem loop_live (tryTimes : Nat) : (Filler.loop tryTimes).Live := by
  cases tryTimes with
  | zero => trivial
  | succ tryTimes => exact Nat.succ_pos tryTimes

@[simp] theorem loop_pending (tryTimes : Nat) : (Filler.loop tryTimes).pending = tryTimes := by
  cases tryTimes <;> rfl

@[simp] theorem loop_hand (tryTimes : Nat) : (Filler.loop tryTimes).hand = none := by
  cases tryTimes <;> rfl

theorem goOn_flag (state : State) (index : Nat) {next : Filler} (runs : next ≠ .ended) :
    (state.goOn index next).isFilling = state.isFilling := if_neg runs

theorem goOn_moves {state : State} {index : Nat} {filler next : Filler} (live : next.Live)
    (hand : next.hand = none)
    (room : state.queue.length + filler.pending ≤ state.maxSize →
      state.queue.length + next.pending ≤ state.maxSize) :
    Moves state (state.goOn index next) index filler next [] [] where
  fillers := rfl
  queue := (List.append_nil _).symm
  connected := rfl
  numbered := Or.inl rfl
  kept := ⟨rfl, rfl⟩
  flag := goOn_flag state index
  conserved stream := by simp [hand]
  live := live
  room := room

theorem fillerStep_moves {state after : State} {index : Nat} {filler : Filler} {answer : Answer}
    (live : filler.Live) (taken : state.fillerStep index filler answer = some after) :
    ∃ next fresh sent, Moves state after index filler next fresh sent := by
  unfold State.fillerStep at taken
  split at taken
  · cases taken
  · cases taken
    exact ⟨.ended, [], [], rfl, (List.append_nil _).symm, rfl, Or.inl rfl, ⟨rfl, rfl⟩,
      fun runs => absurd rfl runs, fun stream => Nat.zero_le _, trivial, id⟩
  · cases taken
    refine ⟨_, [], [], goOn_moves (loop_live _) (loop_hand _) fun room => ?_⟩
    rw [loop_pending]
    simp only [Filler.pending] at room
    omega
  iterate 3
    · cases taken
      exact ⟨.ended, [], [], goOn_moves trivial rfl fun room =>
        Nat.le_trans (Nat.le_add_right _ _) room⟩
  · cases taken
    exact ⟨_, [state.connected], [], rfl, (List.append_nil _).symm, rfl, Or.inr rfl, ⟨rfl, rfl⟩,
      goOn_flag state index, fun stream => Nat.le_refl _, live, id⟩
  · cases taken
    refine ⟨_, [], [], goOn_moves live rfl fun room => Nat.le_trans ?_ room⟩
    exact Nat.add_le_add_left (Nat.sub_le _ _) _
  · split at taken
    · cases taken
      rename_i tryTimes stream _ _
      refine ⟨.loop (tryTimes - 1), [], [stream], rfl, rfl, rfl, Or.inl rfl, ⟨rfl, rfl⟩,
        goOn_flag state index, fun stream => ?_, loop_live _, fun room => ?_⟩
      · rw [loop_hand]
        exact Nat.le_refl _
      · simp only [Filler.Live] at live
        simp only [Filler.pending] at room
        rw [loop_pending, List.length_singleton]
        omega
    · cases taken
  · cases taken
    refine ⟨_, [], [], goOn_moves (loop_live _) (loop_hand _) fun room => ?_⟩
    rw [loop_pending]
    simp only [Filler.pending] at room
    omega

theorem sound_initial (maxSize : Nat) : Sound (initial maxSize) where
  once stream := Nat.zero_le _
  bounded := Nat.zero_le _
  room filler member := by cases member
  live filler member := by cases member
  alone := List.Pairwise.nil
  flag filler member := by cases member

theorem others_ended {before after : List Filler} {filler : Filler} (runs : filler ≠ .ended)
    (alone : (before ++ filler :: after).Pairwise fun one other => one = .ended ∨ other = .ended) :
    ∀ other ∈ before ++ after, other = .ended := by
  have first := (List.pairwise_middle fun either => either.symm).mp alone
  intro other member
  exact ((List.pairwise_cons.mp first).1 other member).resolve_left runs

theorem alone_of_ended {before after : List Filler} (filler : Filler)
    (ended : ∀ other ∈ before ++ after, other = .ended) :
    (before ++ filler :: after).Pairwise fun one other => one = .ended ∨ other = .ended := by
  refine (List.pairwise_middle fun either => either.symm).mpr (List.pairwise_cons.mpr ⟨?_, ?_⟩)
  · exact fun other member => Or.inr (ended other member)
  · exact List.pairwise_of_forall_mem_list fun one member _ _ => Or.inl (ended one member)

theorem sound_filler {state after : State} {index : Nat} {filler : Filler} {answer : Answer}
    (sound : Sound state) (found : state.fillers[index]? = some filler)
    (taken : state.fillerStep index filler answer = some after) : Sound after := by
  have member := List.mem_of_getElem? found
  obtain ⟨next, fresh, sent, moves⟩ := fillerStep_moves (sound.live filler member) taken
  have runs : filler ≠ .ended := by
    rintro rfl
    cases taken
  obtain ⟨before, later, rfl, shape, replaced⟩ := Pool.exists_split found
  have ended := others_ended runs (shape ▸ sound.alone)
  have tasks : after.fillers = before ++ next :: later := moves.fillers.trans (replaced next)
  have room := moves.room (sound.room filler member)
  have size : after.queue.length = state.queue.length + sent.length := by
    rw [moves.queue, List.length_append]
  obtain ⟨same_size, same_callers⟩ := moves.kept
  refine ⟨?_, ?_, ?_, ?_, ?_, ?_⟩
  · refine sound.once.step moves.numbered moves.connected fun stream => ?_
    have conserved := moves.conserved stream
    have counted := Pool.count_filterMap_set Filler.hand found next stream
    rw [← moves.fillers] at counted
    simp only [State.places, List.count_append, moves.queue, same_callers]
    omega
  · omega
  · rw [tasks]
    refine Pool.forall_moved (by omega) fun other elsewhere => ?_
    rw [ended other elsewhere]
    show after.queue.length + 0 ≤ after.maxSize
    omega
  · rw [tasks]
    exact Pool.forall_moved moves.live fun other elsewhere => ended other elsewhere ▸ trivial
  · rw [tasks]
    exact alone_of_ended next ended
  · rw [tasks]
    refine Pool.forall_moved (fun going => ?_) fun other elsewhere going =>
      absurd (ended other elsewhere) going
    rw [moves.flag going]
    exact sound.flag filler member runs

/-- What one step of a caller at its place does. -/
structure CallerMoves (state after : State) (index : Nat) (caller next : Caller)
    (fresh : List Nat) : Prop where
  callers : after.callers = state.callers.set index next
  connected : after.connected = state.connected + fresh.length
  numbered : fresh = [] ∨ fresh = [state.connected]
  size : after.maxSize = state.maxSize
  shorter : after.queue.length ≤ state.queue.length
  conserved (stream : Nat) :
    after.queue.count stream + next.stream.toList.count stream ≤
      state.queue.count stream + caller.stream.toList.count stream + fresh.count stream
  fillers : after.fillers = state.fillers ∧ after.isFilling = state.isFilling ∨
    state.isFilling = false ∧ after.isFilling = true ∧
      after.fillers = state.fillers ++ [.spawned]

theorem goOnCaller_moves {state : State} {index : Nat} {caller next : Caller}
    (stream : next.stream = none) :
    CallerMoves state (state.goOnCaller index next) index caller next [] where
  callers := rfl
  connected := rfl
  numbered := Or.inl rfl
  size := rfl
  shorter := Nat.le_refl _
  conserved other := by
    rw [stream]
    exact Nat.le_add_right _ _
  fillers := Or.inl ⟨rfl, rfl⟩

theorem receive_moves (state : State) (index : Nat) :
    ∃ next, CallerMoves state (state.receive index) index .receiving next [] := by
  unfold State.receive
  split
  · exact ⟨_, goOnCaller_moves rfl⟩
  · rename_i stream queue shape
    refine ⟨.given stream, rfl, rfl, Or.inl rfl, rfl, ?_, fun other => ?_, Or.inl ⟨rfl, rfl⟩⟩
    · rw [shape]
      exact Nat.le_succ _
    · rw [shape, List.count_cons]
      simp only [Caller.stream, Option.toList_some, List.count_singleton]
      omega

theorem fill_moves (state : State) (index : Nat) :
    CallerMoves state (state.fill.goOnCaller index .connecting) index .filling .connecting [] := by
  unfold State.fill
  split
  · exact goOnCaller_moves rfl
  · rename_i idle
    exact ⟨rfl, rfl, Or.inl rfl, rfl, Nat.le_refl _, fun other => Nat.le_refl _,
      Or.inr ⟨Bool.not_eq_true _ ▸ idle, rfl, rfl⟩⟩

theorem callerStep_moves {state after : State} {index : Nat} {caller : Caller} {answer : Answer}
    (taken : state.callerStep index caller answer = some after) :
    ∃ next fresh, CallerMoves state after index caller next fresh := by
  unfold State.callerStep at taken
  split at taken
  iterate 3 cases taken
  · cases taken
    exact ⟨_, [], goOnCaller_moves rfl⟩
  · cases taken
    exact ⟨_, [], goOnCaller_moves rfl⟩
  · cases taken
    obtain ⟨next, moves⟩ := receive_moves state index
    exact ⟨next, [], moves⟩
  · cases taken
    exact ⟨_, [], fill_moves state index⟩
  · cases taken
    exact ⟨.given state.connected, [state.connected], rfl, rfl, Or.inr rfl, rfl, Nat.le_refl _,
      fun other => Nat.le_refl _, Or.inl ⟨rfl, rfl⟩⟩
  · cases taken
    exact ⟨_, [], goOnCaller_moves rfl⟩

theorem sound_caller {state after : State} {index : Nat} {caller : Caller} {answer : Answer}
    (sound : Sound state) (found : state.callers[index]? = some caller)
    (taken : state.callerStep index caller answer = some after) : Sound after := by
  obtain ⟨next, fresh, moves⟩ := callerStep_moves taken
  have shorter := moves.shorter
  have counted := fun stream => Pool.count_filterMap_set Caller.stream found next stream
  rw [← moves.callers] at counted
  have bounded : after.queue.length ≤ after.maxSize :=
    moves.size ▸ Nat.le_trans shorter sound.bounded
  have room : ∀ filler ∈ state.fillers, after.queue.length + filler.pending ≤ after.maxSize := by
    intro filler member
    rw [moves.size]
    exact Nat.le_trans (Nat.add_le_add_right shorter _) (sound.room filler member)
  rcases moves.fillers with ⟨same, flag⟩ | ⟨idle, flag, more⟩
  · refine ⟨sound.once.step moves.numbered moves.connected fun stream => ?_, bounded,
      same ▸ room, same ▸ sound.live, same ▸ sound.alone, ?_⟩
    · have conserved := moves.conserved stream
      have here := counted stream
      simp only [State.places, List.count_append, same]
      omega
    · rw [same, flag]
      exact sound.flag
  · have ended : ∀ filler ∈ state.fillers, filler = .ended := by
      intro filler member
      by_contra runs
      exact absurd (idle.symm.trans (sound.flag filler member runs)) Bool.false_ne_true
    refine ⟨sound.once.step moves.numbered moves.connected fun stream => ?_, bounded,
      ?_, ?_, ?_, fun _ _ _ => flag⟩
    · have conserved := moves.conserved stream
      have here := counted stream
      simp only [State.places, List.count_append, more, List.filterMap_append]
      show _ + (_ + List.count stream []) + _ ≤ _
      rw [List.count_nil]
      omega
    · rw [more]
      exact Pool.forall_start room bounded
    · rw [more]
      exact Pool.forall_start sound.live trivial
    · rw [more]
      refine @alone_of_ended state.fillers [] .spawned fun other member => ?_
      exact ended other (List.append_nil state.fillers ▸ member)

theorem sound_step {state next : State} {event : Event} (sound : Sound state)
    (taken : state.step event = some next) : Sound next := by
  cases event with
  | call =>
      cases taken
      refine ⟨fun stream => ?_, sound.bounded, sound.room, sound.live, sound.alone, sound.flag⟩
      have once := sound.once stream
      simp only [State.places, List.filterMap_append] at once ⊢
      exact (List.append_nil (state.callers.filterMap Caller.stream)).symm ▸ once
  | caller index answer =>
      obtain ⟨caller, found, taken⟩ := Option.bind_eq_some_iff.mp taken
      exact sound_caller sound found taken
  | filler index answer =>
      obtain ⟨filler, found, taken⟩ := Option.bind_eq_some_iff.mp taken
      exact sound_filler sound found taken

theorem step_maxSize {state next : State} {event : Event} (sound : Sound state)
    (taken : state.step event = some next) : next.maxSize = state.maxSize := by
  cases event with
  | call =>
      cases taken
      rfl
  | caller index answer =>
      obtain ⟨caller, -, taken⟩ := Option.bind_eq_some_iff.mp taken
      obtain ⟨moved, fresh, moves⟩ := callerStep_moves taken
      exact moves.size
  | filler index answer =>
      obtain ⟨filler, found, taken⟩ := Option.bind_eq_some_iff.mp taken
      have live := sound.live filler (List.mem_of_getElem? found)
      obtain ⟨moved, fresh, sent, moves⟩ := fillerStep_moves live taken
      exact moves.kept.1

theorem run_sound {maxSize : Nat} {events : List Event} {state : State}
    (ran : Machine.run State.step (initial maxSize) events = some state) :
    Sound state ∧ state.maxSize = maxSize :=
  Machine.run_invariant (fun state => Sound state ∧ state.maxSize = maxSize)
    (fun here taken => ⟨sound_step here.1 taken, (step_maxSize here.1 taken).trans here.2⟩)
    ⟨sound_initial maxSize, rfl⟩ ran

theorem index_eq_of_running {state : State} (sound : Sound state) {index place : Nat}
    {filler other : Filler} (found : state.fillers[index]? = some filler) (runs : filler ≠ .ended)
    (found' : state.fillers[place]? = some other) (runs' : other ≠ .ended) : place = index := by
  obtain ⟨bound, rfl⟩ := List.getElem?_eq_some_iff.mp found
  obtain ⟨bound', rfl⟩ := List.getElem?_eq_some_iff.mp found'
  rcases Nat.lt_trichotomy place index with less | same | greater
  · have either := List.pairwise_iff_getElem.mp sound.alone _ _ bound' bound less
    exact absurd either (not_or.mpr ⟨runs', runs⟩)
  · exact same
  · have either := List.pairwise_iff_getElem.mp sound.alone _ _ bound bound' greater
    exact absurd either (not_or.mpr ⟨runs, runs'⟩)

/-- Over every order of steps, at most one task fills the pool, and it never
connects more than there is room for, so that it never waits to send; no stream is
in two places. -/
theorem run_pooled {maxSize : Nat} {events : List Event} {state : State}
    (ran : Machine.run State.step (initial maxSize) events = some state) :
    state.places.Nodup ∧
    (∀ (index place : Nat) (filler other : Filler), state.fillers[index]? = some filler →
      filler ≠ .ended → state.fillers[place]? = some other → other ≠ .ended → place = index) ∧
    (∀ filler ∈ state.fillers, state.queue.length + filler.pending ≤ maxSize) ∧
    ∀ index tryTimes stream, state.fillers[index]? = some (.sending tryTimes stream) →
      ∃ next, state.step (.filler index .ok) = some next ∧
        next.queue = state.queue ++ [stream] := by
  obtain ⟨sound, rfl⟩ := run_sound ran
  refine ⟨sound.once.nodup, ?_, sound.room, ?_⟩
  · exact fun index place filler other found runs found' runs' =>
      index_eq_of_running sound found runs found' runs'
  · intro index tryTimes stream found
    have member := List.mem_of_getElem? found
    have room := sound.room _ member
    have live := sound.live _ member
    simp only [Filler.pending] at room
    simp only [Filler.Live] at live
    rw [State.step, found]
    exact ⟨_, if_pos (by omega), rfl⟩

/-! What a task adds to the queue. -/

def State.pendingAt (state : State) (index : Nat) : Nat :=
  (state.fillers[index]?.elim 0 Filler.pending)

/-- The task has counted its tries and has not ended. -/
def State.Works (state : State) (index : Nat) : Prop :=
  ∃ filler ∈ state.fillers[index]?, filler ≠ .spawned ∧ filler ≠ .ended

instance (state : State) (index : Nat) : Decidable (state.Works index) :=
  inferInstanceAs (Decidable (∃ filler ∈ state.fillers[index]?, _))

/-- A stream that is taken from the queue, or could not be connected. -/
def taken (state : State) : Event → Nat
  | .call => 0
  | .caller index answer =>
      if state.callers[index]? = some .receiving ∧ answer ≠ .dropped then min 1 state.queue.length
      else 0
  | .filler index answer =>
      match state.fillers[index]?, answer with
      | some (.trying _), .failed => 1
      | _, _ => 0

theorem receive_queue (state : State) (index : Nat) :
    (state.receive index).queue = state.queue.tail := by
  unfold State.receive
  split
  · rename_i shape
    show state.queue = state.queue.tail
    rw [shape]
    rfl
  · rename_i shape
    rw [shape]
    rfl

theorem callerStep_queue {state after : State} {index : Nat} {caller : Caller} {answer : Answer}
    (found : state.callers[index]? = some caller)
    (stepped : state.callerStep index caller answer = some after) :
    after.queue.length + taken state (.caller index answer) = state.queue.length := by
  simp only [taken, found, Option.some.injEq]
  cases caller with
  | receiving =>
      cases answer with
      | dropped =>
          cases stepped
          rfl
      | ok | failed =>
          cases stepped
          rw [if_pos ⟨rfl, by decide⟩, receive_queue, List.length_tail]
          omega
  | filling =>
      cases stepped
      rw [if_neg fun both => Caller.noConfusion both.1]
      unfold State.fill
      split <;> rfl
  | connecting =>
      rw [if_neg fun both => Caller.noConfusion both.1]
      cases answer <;> cases stepped <;> rfl
  | given | failed | dropped => cases stepped

theorem fillerStep_queue {state after : State} {index : Nat} {filler : Filler} {answer : Answer}
    (live : filler.Live) (counted : filler ≠ .spawned) (kept : answer ≠ .dropped)
    (found : state.fillers[index]? = some filler)
    (stepped : state.fillerStep index filler answer = some after) :
    after.queue.length + after.pendingAt index + taken state (.filler index answer) =
      state.queue.length + filler.pending := by
  have goes (next : Filler) : (state.goOn index next).pendingAt index = next.pending := by
    simp only [State.pendingAt, State.goOn]
    rw [Pool.getElem?_set_self found]
    rfl
  simp only [taken, found]
  cases filler with
  | spawned => exact absurd rfl counted
  | ended => cases stepped
  | trying tryTimes =>
      cases answer with
      | dropped => exact absurd rfl kept
      | ok =>
          cases stepped
          exact congrArg (state.queue.length + ·) (goes (.sending tryTimes state.connected))
      | failed =>
          cases stepped
          simp only [Filler.Live] at live
          rw [goes]
          show state.queue.length + (tryTimes - 1) + 1 = state.queue.length + tryTimes
          omega
  | sending tryTimes stream =>
      simp only [Filler.Live] at live
      have sends : state.fillerStep index (.sending tryTimes stream) answer =
          if state.queue.length < state.maxSize then
            some { state.goOn index (.loop (tryTimes - 1)) with queue := state.queue ++ [stream] }
          else none := by
        cases answer with
        | dropped => exact absurd rfl kept
        | ok | failed => rfl
      rw [sends] at stepped
      split at stepped
      · cases stepped
        have same := goes (.loop (tryTimes - 1))
        rw [loop_pending] at same
        show (state.queue ++ [stream]).length + (state.goOn index _).pendingAt index + 0 =
          state.queue.length + tryTimes
        rw [same, List.length_append, List.length_singleton]
        omega
      · cases stepped
  | sleeping tryTimes =>
      have wakes : after = state.goOn index (.loop (tryTimes - 1)) := by
        cases answer with
        | dropped => exact absurd rfl kept
        | ok | failed => exact (Option.some.inj stepped).symm
      rw [wakes, goes, loop_pending]
      rfl

theorem step_queue {state next : State} {event : Event} {index : Nat} (sound : Sound state)
    (works : state.Works index) (kept : event ≠ .filler index .dropped)
    (stepped : state.step event = some next) :
    next.queue.length + next.pendingAt index + taken state event =
      state.queue.length + state.pendingAt index := by
  obtain ⟨filler, found, counted, runs⟩ := works
  have here : state.pendingAt index = filler.pending := by
    rw [State.pendingAt, found]
    rfl
  cases event with
  | call =>
      cases stepped
      rfl
  | caller place answer =>
      obtain ⟨caller, present, stepped⟩ := Option.bind_eq_some_iff.mp stepped
      have queue := callerStep_queue present stepped
      obtain ⟨moved, fresh, moves⟩ := callerStep_moves stepped
      have same : next.pendingAt index = state.pendingAt index := by
        rcases moves.fillers with ⟨fillers, -⟩ | ⟨-, -, fillers⟩
        · rw [State.pendingAt, fillers, State.pendingAt]
        · rw [State.pendingAt, fillers, State.pendingAt, Pool.getElem?_start found, found]
      omega
  | filler place answer =>
      obtain ⟨other, present, stepped⟩ := Option.bind_eq_some_iff.mp stepped
      have going : other ≠ .ended := by
        rintro rfl
        cases stepped
      obtain rfl := index_eq_of_running sound found runs present going
      cases found.symm.trans present
      have live := sound.live _ (List.mem_of_getElem? found)
      rw [here]
      refine fillerStep_queue live counted (fun same => kept ?_) found stepped
      rw [same]

/-- While a task fills the pool, every stream that it may connect is in the queue
or still to come, or has been taken or could not be connected: whatever the callers
do meanwhile, a task that ends leaves the pool full but for those. -/
theorem run_filled {maxSize index : Nat} {earlier later : List Event} {state start final : State}
    (reached : Machine.run State.step (initial maxSize) earlier = some state)
    (spawned : state.fillers[index]? = some .spawned)
    (begins : state.step (.filler index .ok) = some start)
    (works : Machine.Within State.step
      (fun state event => state.Works index ∧ event ≠ .filler index .dropped) start later)
    (ran : Machine.run State.step start later = some final) :
    final.queue.length + final.pendingAt index + Machine.spent State.step taken start later =
      maxSize := by
  obtain ⟨sound, rfl⟩ := run_sound reached
  have paid := Machine.run_spent Sound
    (fun state => state.queue.length + state.pendingAt index) sound_step
    (fun here allowed stepped => step_queue here allowed.1 allowed.2 stepped)
    (sound_step sound begins) works ran
  rw [paid]
  rw [State.step, spawned] at begins
  cases begins
  have counted := Pool.getElem?_set_self spawned
    (.loop (state.maxSize - state.queue.length))
  have bounded := sound.bounded
  show state.queue.length + State.pendingAt (state.goOn index _) index = state.maxSize
  rw [State.pendingAt, State.goOn, counted]
  show state.queue.length + (Filler.loop _).pending = state.maxSize
  rw [loop_pending]
  omega

/-- A pool of two streams, of which a caller takes one while the other is connected. -/
theorem run_filled_two :
    ([1] : List Nat).length + 0 +
      Machine.spent State.step taken ⟨2, [], true, 0, [.trying 2], [.connecting]⟩
        [.caller 0 .failed, .call, .filler 0 .ok, .filler 0 .ok, .filler 0 .ok, .caller 1 .ok,
          .filler 0 .ok] = 2 :=
  @run_filled 2 0 [.call, .caller 0 .ok, .caller 0 .ok] _
    ⟨2, [], true, 0, [.spawned], [.connecting]⟩ _
    ⟨2, [1], false, 2, [.ended], [.failed, .given 0]⟩ (by decide) rfl rfl (by decide) (by decide)

/-- Both streams of a pool are on their way to it, one of them already connected. -/
theorem run_pooled_sending :
    (⟨2, [], true, 1, [.sending 2 0], [.connecting]⟩ : State).places.Nodup :=
  (@run_pooled 2 [.call, .caller 0 .ok, .caller 0 .ok, .filler 0 .ok, .filler 0 .ok] _
    (by decide)).1

end PoolOutbound

end QuicProxy
