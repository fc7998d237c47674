import Mathlib.Algebra.Ring.Nat
import Mathlib.Data.List.Infix
import QuicProxy.Data.Bytes
import QuicProxy.Data.Machine

namespace QuicProxy

/-! Byte streams that are polled, as an adapter around one sees them. -/

inductive Poll (α : Type) where
  | pending
  | ready (value : α)
deriving DecidableEq

/-- One `poll_read`: `Ready(Ok)` with no bytes is the end of the stream. -/
inductive PollRead where
  | pending
  | ready (bytes : Bytes)
  | failed (error : String)
deriving DecidableEq

namespace PollRead

def bytes : PollRead → Bytes
  | ready bytes => bytes
  | _ => []

def IsPiece : PollRead → Prop
  | ready bytes => bytes ≠ []
  | _ => False

/-- The end of the stream, or an error. -/
def stops : PollRead → Bool
  | pending => false
  | ready bytes => bytes.isEmpty
  | failed _ => true

theorem pending_or_stops {read : PollRead} (nothing : read.bytes = []) :
    read = pending ∨ read.stops = true := by
  cases read with
  | pending => exact Or.inl rfl
  | ready bytes => exact Or.inr (List.isEmpty_iff.mpr nothing)
  | failed error => exact Or.inr rfl

end PollRead

def contents (reads : List PollRead) : Bytes := reads.flatMap PollRead.bytes

@[simp] theorem contents_nil : contents [] = [] := rfl

@[simp] theorem contents_cons (read : PollRead) (reads : List PollRead) :
    contents (read :: reads) = read.bytes ++ contents reads := rfl

@[simp] theorem contents_append (first second : List PollRead) :
    contents (first ++ second) = contents first ++ contents second :=
  List.flatMap_append

/-- What `poll_read` gives a buffer with room for so many bytes, out of what the
stream is going to give: the rest of a longer piece is kept. -/
def pollRead (room : Nat) : List PollRead → PollRead × List PollRead
  | [] => (.pending, [])
  | .ready bytes :: reads =>
      if bytes.length ≤ room then (.ready bytes, reads)
      else (.ready (bytes.take room), .ready (bytes.drop room) :: reads)
  | .pending :: reads => (.pending, reads)
  | .failed error :: reads => (.failed error, reads)

theorem contents_pollRead (room : Nat) (reads : List PollRead) :
    (pollRead room reads).1.bytes ++ contents (pollRead room reads).2 = contents reads := by
  match reads with
  | [] | .pending :: reads | .failed error :: reads => rfl
  | .ready bytes :: reads =>
      rw [pollRead]
      split
      · rfl
      · simp only [contents_cons, PollRead.bytes, ← List.append_assoc, List.take_append_drop]

def weight (reads : List PollRead) : Nat :=
  (reads.map fun
    | .ready bytes => bytes.length + 1
    | _ => 1).sum

theorem weight_pollRead {room : Nat} {reads rest : List PollRead} {bytes : Bytes}
    (taken : pollRead room reads = (.ready bytes, rest)) (some_bytes : bytes ≠ []) :
    weight rest < weight reads := by
  match reads with
  | [] => cases taken
  | .pending :: reads => cases taken
  | .failed error :: reads => cases taken
  | .ready piece :: reads =>
      rw [pollRead] at taken
      split at taken
      · cases taken
        change weight rest < bytes.length + 1 + weight rest
        omega
      · cases taken
        have positive : 0 < (piece.take room).length := List.length_pos_iff.mpr some_bytes
        rw [List.length_take] at positive
        change (piece.drop room).length + 1 + weight reads < piece.length + 1 + weight reads
        rw [List.length_drop]
        omega

theorem weight_pollRead_lt {room : Nat} (positive : 0 < room) {reads : List PollRead}
    (more : reads ≠ []) : weight (pollRead room reads).2 < weight reads := by
  match reads with
  | .pending :: reads | .failed error :: reads =>
      change weight reads < 1 + weight reads
      omega
  | .ready bytes :: reads =>
      rw [pollRead]
      split
      · change weight reads < bytes.length + 1 + weight reads
        omega
      · change (bytes.drop room).length + 1 + weight reads < bytes.length + 1 + weight reads
        rw [List.length_drop]
        omega

/-- The stream neither ends nor fails before it has given all its bytes. -/
def Unbroken (reads : List PollRead) : Prop :=
  ∃ cut later, reads = cut ++ later ∧ (∀ read ∈ cut, read.stops = false) ∧ contents later = []

theorem Unbroken.pollRead {reads : List PollRead} (unbroken : Unbroken reads) (room : Nat) :
    Unbroken (pollRead room reads).2 := by
  obtain ⟨cut, later, rfl, steady, nothing⟩ := unbroken
  cases cut with
  | nil =>
      refine ⟨[], _, rfl, nofun, ?_⟩
      have whole := contents_pollRead room later
      rw [nothing] at whole
      exact (List.append_eq_nil_iff.mp whole).2
  | cons read cut =>
      have rest : ∀ read ∈ cut, read.stops = false := fun read member =>
        steady read (List.mem_cons_of_mem _ member)
      match read with
      | .pending => exact ⟨cut, later, rfl, rest, nothing⟩
      | .failed error => exact absurd (steady _ (List.mem_cons_self ..)) nofun
      | .ready bytes =>
          rw [List.cons_append, QuicProxy.pollRead]
          split
          · exact ⟨cut, later, rfl, rest, nothing⟩
          · next long =>
              refine ⟨.ready (bytes.drop room) :: cut, later, rfl, ?_, nothing⟩
              refine List.forall_mem_cons.mpr ⟨?_, rest⟩
              exact List.isEmpty_eq_false_iff.mpr
                (List.ne_nil_of_length_pos (by rw [List.length_drop]; omega))

theorem Unbroken.contents_eq_nil {reads : List PollRead} (unbroken : Unbroken reads) {room : Nat}
    (positive : 0 < room) (stops : (QuicProxy.pollRead room reads).1.stops = true) :
    contents reads = [] := by
  obtain ⟨cut, later, rfl, steady, nothing⟩ := unbroken
  cases cut with
  | nil => exact nothing
  | cons read cut =>
      have here := steady read (List.mem_cons_self ..)
      match read with
      | .pending => cases stops
      | .failed error => cases here
      | .ready bytes =>
          rw [List.cons_append, QuicProxy.pollRead] at stops
          split at stops
          · cases here.symm.trans stops
          · next long =>
              have empty := List.isEmpty_iff.mp stops
              have := congrArg List.length empty
              rw [List.length_take, List.length_nil] at this
              omega

/-- After the bytes it has, the stream ends or fails: no read of it waits. -/
def Closes : List PollRead → Prop
  | .ready [] :: _ => True
  | .ready (_ :: _) :: reads => Closes reads
  | .failed _ :: _ => True
  | _ => False

theorem pollRead_of_closes {reads : List PollRead} (closes : Closes reads) (room : Nat) :
    (pollRead room reads).1 ≠ .pending := by
  match reads with
  | .failed error :: reads => exact nofun
  | .ready piece :: reads =>
      rw [pollRead]
      split <;> exact nofun

theorem closes_pollRead {room : Nat} {reads rest : List PollRead} {bytes : Bytes}
    (closes : Closes reads) (taken : pollRead room reads = (.ready bytes, rest))
    (some_bytes : bytes ≠ []) : Closes rest := by
  match reads with
  | .failed error :: reads => cases taken
  | .ready [] :: reads =>
      cases taken
      exact absurd rfl some_bytes
  | .ready (byte :: piece) :: reads =>
      rw [pollRead] at taken
      split at taken
      · cases taken
        exact closes
      · next long =>
          cases taken
          have left : (byte :: piece).drop room ≠ [] :=
            List.ne_nil_of_length_pos (by rw [List.length_drop]; omega)
          obtain ⟨first, more, same⟩ := List.exists_cons_of_ne_nil left
          rw [same]
          exact closes

/-- The bytes that the result of a write reports as accepted. -/
def reported : Poll (Except String Nat) → Nat
  | .ready (.ok count) => count
  | _ => 0

/-- The write half of a stream.  Its answers depend on a state of its own, and
it accepts at most what it is offered; a vectored write may stop anywhere. -/
structure AsyncWrite (State : Type) where
  pollWrite : State → (buf : Bytes) → Poll (Except String (Fin (buf.length + 1))) × State
  pollWriteVectored : State → (bufs : List Bytes) →
    Poll (Except String (Fin (bufs.flatten.length + 1))) × State
  pollFlush : State → Poll (Except String Unit) × State
  pollShutdown : State → Poll (Except String Unit) × State

def AsyncWrite.FlushSucceeds {State : Type} (io : AsyncWrite State) : Prop :=
  ∀ state error, (io.pollFlush state).1 ≠ .ready (.error error)

/-- A call that has changed what a stream carries: a write with how much of it
was accepted, or a shutdown that was answered with success. -/
inductive WriteOp where
  | write (offered : Bytes) (accepted : Nat)
  | shutdown
deriving DecidableEq

namespace WriteOp

def bytes : WriteOp → Bytes
  | write offered accepted => offered.take accepted
  | shutdown => []

def isWrite : WriteOp → Bool
  | write _ _ => true
  | shutdown => false

end WriteOp

/-- The write half of a stream with what has been done on it so far. -/
structure Wire (State : Type) where
  state : State
  ops : List WriteOp

namespace Wire

variable {State : Type}

def opened (state : State) : Wire State := ⟨state, []⟩

def written (wire : Wire State) : Bytes := wire.ops.flatMap WriteOp.bytes

def offered (wire : Wire State) : Bool := wire.ops.any WriteOp.isWrite

def record {limit : Nat} (wire : Wire State) (buf : Bytes) :
    Poll (Except String (Fin limit)) × State → Poll (Except String Nat) × Wire State
  | (.ready (.ok count), state) => (.ready (.ok count), ⟨state, wire.ops ++ [.write buf count]⟩)
  | (.ready (.error error), state) => (.ready (.error error), ⟨state, wire.ops ++ [.write buf 0]⟩)
  | (.pending, state) => (.pending, ⟨state, wire.ops ++ [.write buf 0]⟩)

def pollWrite (io : AsyncWrite State) (wire : Wire State) (buf : Bytes) :
    Poll (Except String Nat) × Wire State :=
  wire.record buf (io.pollWrite wire.state buf)

def pollWriteVectored (io : AsyncWrite State) (wire : Wire State) (bufs : List Bytes) :
    Poll (Except String Nat) × Wire State :=
  wire.record bufs.flatten (io.pollWriteVectored wire.state bufs)

def pollFlush (io : AsyncWrite State) (wire : Wire State) :
    Poll (Except String Unit) × Wire State :=
  match io.pollFlush wire.state with
  | (result, state) => (result, ⟨state, wire.ops⟩)

def pollShutdown (io : AsyncWrite State) (wire : Wire State) :
    Poll (Except String Unit) × Wire State :=
  match io.pollShutdown wire.state with
  | (.ready (.ok ()), state) => (.ready (.ok ()), ⟨state, wire.ops ++ [.shutdown]⟩)
  | (result, state) => (result, ⟨state, wire.ops⟩)

@[simp] theorem written_opened (state : State) : (opened state).written = [] := rfl

/-- What a write adds to the stream is what it reports. -/
structure Took (before : Wire State) (buf : Bytes)
    (after : Poll (Except String Nat) × Wire State) : Prop where
  ops : after.2.ops = before.ops ++ [.write buf (reported after.1)]
  bound : reported after.1 ≤ buf.length

theorem took_record {limit : Nat} (wire : Wire State) {buf : Bytes}
    (bound : limit ≤ buf.length + 1) (answer : Poll (Except String (Fin limit)) × State) :
    wire.Took buf (wire.record buf answer) := by
  obtain ⟨result, state⟩ := answer
  match result with
  | .pending => exact ⟨rfl, Nat.zero_le _⟩
  | .ready (.error error) => exact ⟨rfl, Nat.zero_le _⟩
  | .ready (.ok count) =>
      have := count.isLt
      exact ⟨rfl, by change count.val ≤ _; omega⟩

theorem took_pollWrite (io : AsyncWrite State) (wire : Wire State) (buf : Bytes) :
    wire.Took buf (wire.pollWrite io buf) :=
  took_record wire (Nat.le_refl _) _

theorem took_pollWriteVectored (io : AsyncWrite State) (wire : Wire State)
    (bufs : List Bytes) : wire.Took bufs.flatten (wire.pollWriteVectored io bufs) :=
  took_record wire (Nat.le_refl _) _

theorem Took.written {before : Wire State} {buf : Bytes}
    {after : Poll (Except String Nat) × Wire State} (took : before.Took buf after) :
    after.2.written = before.written ++ buf.take (reported after.1) := by
  unfold Wire.written
  rw [took.ops, List.flatMap_append, List.flatMap_singleton]
  rfl

theorem Took.offered {before : Wire State} {buf : Bytes}
    {after : Poll (Except String Nat) × Wire State} (took : before.Took buf after) :
    after.2.offered = true := by
  unfold Wire.offered
  rw [took.ops, List.any_append]
  exact Bool.or_true _

@[simp] theorem ops_pollFlush (io : AsyncWrite State) (wire : Wire State) :
    (wire.pollFlush io).2.ops = wire.ops := rfl

theorem pollShutdown_cases (io : AsyncWrite State) (wire : Wire State) :
    ((wire.pollShutdown io).1 = .ready (.ok ()) ∧
      (wire.pollShutdown io).2.ops = wire.ops ++ [.shutdown]) ∨
    ((wire.pollShutdown io).1 ≠ .ready (.ok ()) ∧
      (wire.pollShutdown io).2.ops = wire.ops) := by
  unfold pollShutdown
  split
  · exact Or.inl ⟨rfl, rfl⟩
  · next notOk _ => exact Or.inr ⟨notOk, rfl⟩

theorem pollShutdown_fst (io : AsyncWrite State) (wire : Wire State) :
    (wire.pollShutdown io).1 = (io.pollShutdown wire.state).1 := by
  unfold pollShutdown
  split
  · next succeeded => rw [succeeded]
  · next notOk => rw [notOk]

theorem written_of_ops {wire other : Wire State} (same : other.ops = wire.ops) :
    other.written = wire.written :=
  congrArg (List.flatMap WriteOp.bytes) same

theorem written_pollShutdown (io : AsyncWrite State) (wire : Wire State) :
    (wire.pollShutdown io).2.written = wire.written := by
  rcases pollShutdown_cases io wire with ⟨-, ops⟩ | ⟨-, ops⟩
  · unfold written
    rw [ops, List.flatMap_append, List.flatMap_singleton]
    exact List.append_nil _
  · exact written_of_ops ops

theorem offered_pollShutdown (io : AsyncWrite State) (wire : Wire State) :
    (wire.pollShutdown io).2.offered = wire.offered := by
  unfold offered
  rcases pollShutdown_cases io wire with ⟨-, ops⟩ | ⟨-, ops⟩
  · rw [ops, List.any_append]
    exact Bool.or_false _
  · rw [ops]

/-- `write_all`, polled once, with what it has not written yet. -/
def writeAll (io : AsyncWrite State) (wire : Wire State) (rest : Bytes) :
    Poll (Except String Unit) × Bytes × Wire State :=
  if rest = [] then (.ready (.ok ()), [], wire)
  else
    match wire.pollWrite io rest with
    | (.ready (.ok count), wire) =>
        if count = 0 then (.ready (.error "write zero"), rest, wire)
        else writeAll io wire (rest.drop count)
    | (.ready (.error error), wire) => (.ready (.error error), rest, wire)
    | (.pending, wire) => (.pending, rest, wire)
termination_by rest.length
decreasing_by
  next nonempty _ =>
    have positive := List.length_pos_iff.mpr nonempty
    rw [List.length_drop]
    omega

/-- Nothing is lost between what is written and what is left. -/
structure WroteAll (before : Wire State) (rest : Bytes)
    (after : Poll (Except String Unit) × Bytes × Wire State) : Prop where
  whole : after.2.2.written ++ after.2.1 = before.written ++ rest
  left : after.2.1.length ≤ rest.length
  done : after.1 = .ready (.ok ()) → after.2.1 = []

theorem wroteAll_writeAll (io : AsyncWrite State) (wire : Wire State) (rest : Bytes) :
    wire.WroteAll rest (wire.writeAll io rest) := by
  induction size : rest.length using Nat.strongRecOn generalizing rest wire with
  | ind length ih =>
      rw [writeAll]
      split
      · next nothing => exact ⟨by rw [nothing], Nat.zero_le _, fun _ => rfl⟩
      · next nonempty =>
          have positive := List.length_pos_iff.mpr nonempty
          have took := wire.took_pollWrite io rest
          revert took
          rcases wire.pollWrite io rest with ⟨_ | error | count, after⟩ <;> intro took
          · have written : after.written = wire.written ++ [] := took.written
            exact ⟨by rw [written, List.append_nil], Nat.le_refl _, nofun⟩
          · have written : after.written = wire.written ++ [] := took.written
            exact ⟨by rw [written, List.append_nil], Nat.le_refl _, nofun⟩
          · have written : after.written = wire.written ++ rest.take count := took.written
            by_cases nothing : count = 0
            · simp only [if_pos nothing]
              refine ⟨?_, Nat.le_refl _, nofun⟩
              rw [written, nothing, List.take_zero, List.append_nil]
            · simp only [if_neg nothing]
              have shorter : (rest.drop count).length < length := by
                rw [List.length_drop]
                omega
              have later := ih _ shorter after (rest.drop count) rfl
              refine ⟨?_, by have := later.left; omega, later.done⟩
              rw [later.whole, written, List.append_assoc, List.take_append_drop]

theorem left_writeAll (io : AsyncWrite State) (wire : Wire State) (rest : Bytes)
    (undone : (wire.writeAll io rest).1 ≠ .ready (.ok ())) : (wire.writeAll io rest).2.1 ≠ [] := by
  fun_induction writeAll io wire rest with
  | case1 => exact absurd rfl undone
  | case2 wire rest nonempty | case4 wire rest nonempty | case5 wire rest nonempty => exact nonempty
  | case3 wire rest nonempty count after wrote some_count ih => exact ih undone

end Wire

/-! The user of an adapter, who polls it in any order. -/

inductive PollCall where
  | write (buf : Bytes)
  | flush
  | shutdown
  | read (room : Nat)
deriving DecidableEq

inductive PollAnswer where
  | wrote (result : Poll (Except String Nat))
  | flushed (result : Poll (Except String Unit))
  | shut (result : Poll (Except String Unit))
  | read (result : PollRead)
deriving DecidableEq

namespace PollAnswer

/-- The bytes of the call that its answer reports as accepted. -/
def taken : PollCall → PollAnswer → Bytes
  | .write buf, wrote result => buf.take (reported result)
  | _, _ => []

end PollAnswer

/-- An adapter with the bytes it has reported as accepted and its last answer. -/
structure Polled (Adapter : Type) where
  adapter : Adapter
  accepted : Bytes
  last : Option PollAnswer

namespace Polled

variable {Adapter : Type}

def start (adapter : Adapter) : Polled Adapter := ⟨adapter, [], none⟩

def step (poll : Adapter → PollCall → PollAnswer × Adapter) (polled : Polled Adapter)
    (call : PollCall) : Option (Polled Adapter) :=
  match poll polled.adapter call with
  | (answer, adapter) => some ⟨adapter, polled.accepted ++ answer.taken call, some answer⟩

theorem step_cases {poll : Adapter → PollCall → PollAnswer × Adapter}
    {polled next : Polled Adapter} {call : PollCall} (taken : step poll polled call = some next) :
    next = ⟨(poll polled.adapter call).2,
      polled.accepted ++ (poll polled.adapter call).1.taken call,
        some (poll polled.adapter call).1⟩ :=
  (Option.some.inj taken).symm

theorem exists_run (poll : Adapter → PollCall → PollAnswer × Adapter) (polled : Polled Adapter)
    (calls : List PollCall) : ∃ final, Machine.run (step poll) polled calls = some final := by
  induction calls generalizing polled with
  | nil => exact ⟨polled, rfl⟩
  | cons call calls ih => exact ih _

end Polled

end QuicProxy
