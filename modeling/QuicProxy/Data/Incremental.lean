import QuicProxy.Data.AsyncStream

namespace QuicProxy

/-! Parsers of bytes that are still coming in, and the two ways to run one: a
reader that is polled and whose calls may be dropped, and a buffer into which
pieces are pushed. -/

/-- What a parser makes of the bytes it has: `need` asks for so many of them,
`done` has used so many. -/
inductive Parsed (ε α : Type) where
  | need (count : Nat)
  | failed (error : ε)
  | done (value : α) (used : Nat)
deriving DecidableEq

variable {β ε α : Type}

namespace Parsed

theorem at_nil {γ : Type} {read : List β → γ} {bytes : List β} {result : γ}
    (same : ∀ more, read (bytes ++ more) = result) : read bytes = result := by
  have here := same []
  rwa [List.append_nil] at here

/-- What a parser has decided stays so with more bytes, and with fewer bytes than
it has asked for it decides nothing. -/
inductive Fate (parse : List β → Parsed ε α) (bytes : List β) : Prop
  | unsettled {count : Nat} (parsed : parse bytes = .need count) (short : bytes.length < count)
      (again : ∀ more, (bytes ++ more).length < count →
        ∃ later, parse (bytes ++ more) = .need later)
  | failed {error : ε} (parsed : ∀ more, parse (bytes ++ more) = .failed error)
  | done {value : α} {used : Nat} (positive : 0 < used) (within : used ≤ bytes.length)
      (parsed : ∀ more, parse (bytes ++ more) = .done value used)

theorem Fate.of_one_more {parse : List β → Parsed ε α} {bytes : List β}
    (parsed : parse bytes = .need (bytes.length + 1)) : Fate parse bytes := by
  refine .unsettled parsed (Nat.lt_succ_self _) fun more few => ?_
  rw [List.length_append] at few
  have nothing : more = [] := List.length_eq_zero_iff.mp (by omega)
  rw [nothing, List.append_nil]
  exact ⟨_, parsed⟩

def Steady (parse : List β → Parsed ε α) : Prop := ∀ bytes, Fate parse bytes

namespace Steady

variable {parse : List β → Parsed ε α} (steady : Steady parse)

include steady

theorem done {bytes : List β} {value : α} {used : Nat} (parsed : parse bytes = .done value used) :
    0 < used ∧ used ≤ bytes.length ∧ ∀ more, parse (bytes ++ more) = .done value used := by
  cases steady bytes with
  | unsettled need => cases need.symm.trans parsed
  | failed broken => cases (at_nil broken).symm.trans parsed
  | done positive within given =>
      cases (at_nil given).symm.trans parsed
      exact ⟨positive, within, given⟩

theorem failed {bytes : List β} {error : ε} (parsed : parse bytes = .failed error)
    (more : List β) : parse (bytes ++ more) = .failed error := by
  cases steady bytes with
  | unsettled need => cases need.symm.trans parsed
  | failed broken =>
      cases (at_nil broken).symm.trans parsed
      exact broken more
  | done positive within given => cases (at_nil given).symm.trans parsed

theorem need {bytes : List β} {count : Nat} (parsed : parse bytes = .need count) :
    bytes.length < count ∧ ∀ more, (bytes ++ more).length < count →
      ∃ later, parse (bytes ++ more) = .need later := by
  cases steady bytes with
  | unsettled need short again =>
      cases need.symm.trans parsed
      exact ⟨short, again⟩
  | failed broken => cases (at_nil broken).symm.trans parsed
  | done positive within given => cases (at_nil given).symm.trans parsed

end Steady

/-- The values at the front of the bytes, one after the other, and the error
behind them; there is none where the bytes end first. -/
inductive Run (parse : List β → Parsed ε α) : List β → List α → Option ε → Prop
  | ends {bytes : List β} {count : Nat} (parsed : parse bytes = .need count) :
      Run parse bytes [] none
  | breaks {bytes : List β} {error : ε} (parsed : parse bytes = .failed error) :
      Run parse bytes [] (some error)
  | value {bytes : List β} {value : α} {used : Nat} {values : List α} {stop : Option ε}
      (parsed : parse bytes = .done value used)
      (rest : Run parse (bytes.drop used) values stop) :
      Run parse bytes (value :: values) stop

namespace Run

variable {parse : List β → Parsed ε α}

theorem of_done {bytes : List β} {value : α} {used : Nat} {values : List α} {stop : Option ε}
    (run : Run parse bytes values stop) (parsed : parse bytes = .done value used) :
    ∃ later, values = value :: later ∧ Run parse (bytes.drop used) later stop := by
  cases run with
  | ends other => cases parsed.symm.trans other
  | breaks other => cases parsed.symm.trans other
  | value other rest =>
      cases parsed.symm.trans other
      exact ⟨_, rfl, rest⟩

theorem of_need {bytes : List β} {count : Nat} {values : List α} {stop : Option ε}
    (run : Run parse bytes values stop) (parsed : parse bytes = .need count) :
    values = [] ∧ stop = none := by
  cases run with
  | ends other => exact ⟨rfl, rfl⟩
  | breaks other => cases parsed.symm.trans other
  | value other rest => cases parsed.symm.trans other

theorem of_failed {bytes : List β} {error : ε} {values : List α} {stop : Option ε}
    (run : Run parse bytes values stop) (parsed : parse bytes = .failed error) :
    values = [] ∧ stop = some error := by
  cases run with
  | ends other => cases parsed.symm.trans other
  | breaks other =>
      cases parsed.symm.trans other
      exact ⟨rfl, rfl⟩
  | value other rest => cases parsed.symm.trans other

/-- The encodings of values, with the bytes of an unfinished one behind them. -/
theorem flatMap {γ : Type} {encode : γ → List β} {decoded : γ → α} {items : List γ}
    (parsed : ∀ item ∈ items, ∀ more,
      parse (encode item ++ more) = .done (decoded item) (encode item).length)
    {left : List β} {count : Nat} (ended : parse left = .need count) :
    Run parse (items.flatMap encode ++ left) (items.map decoded) none := by
  induction items with
  | nil => exact .ends ended
  | cons item items ih =>
      obtain ⟨first, others⟩ := List.forall_mem_cons.mp parsed
      rw [List.flatMap_cons, List.append_assoc]
      refine .value (first _) ?_
      rw [List.drop_left]
      exact ih others

end Run

theorem Steady.exists_run {parse : List β → Parsed ε α} (steady : Steady parse)
    (bytes : List β) : ∃ values stop, Run parse bytes values stop := by
  induction size : bytes.length using Nat.strongRecOn generalizing bytes with
  | ind length ih =>
      cases parsed : parse bytes with
      | need count => exact ⟨[], none, .ends parsed⟩
      | failed error => exact ⟨[], some error, .breaks parsed⟩
      | done value used =>
          obtain ⟨positive, within, -⟩ := steady.done parsed
          have less : (bytes.drop used).length < length := by
            rw [List.length_drop]
            omega
          obtain ⟨values, stop, run⟩ := ih _ less (bytes.drop used) rfl
          exact ⟨value :: values, stop, .value parsed run⟩

end Parsed

open Parsed

/-- What has been given so far, of the values that are to be given and the
error after them. -/
structure Given (given : List α × Option ε) (values : List α) (stop : Option ε) : Prop where
  front : given.1 <+: values
  whole (failed : given.2 ≠ none) : given.1 = values
  error (failed : given.2 ≠ none) {error : ε} (same : stop = some error) : given.2 = some error

theorem Given.nothing (values : List α) (stop : Option ε) : Given ([], none) values stop :=
  ⟨List.nil_prefix, fun failed => absurd rfl failed, fun failed => absurd rfl failed⟩

theorem Given.cons {given : List α × Option ε} {values : List α} {stop : Option ε}
    (rest : Given given values stop) (value : α) :
    Given (value :: given.1, given.2) (value :: values) stop where
  front := List.cons_prefix_cons.mpr ⟨rfl, rest.front⟩
  whole failed := congrArg (value :: ·) (rest.whole failed)
  error := rest.error

/-- Calls of a function that reads one value at a time. -/
def readAll {σ : Type} (read : σ → Except ε (α × σ)) : Nat → σ → List α × Option ε
  | 0, _ => ([], none)
  | calls + 1, state =>
      match read state with
      | .error error => ([], some error)
      | .ok (value, state) => (value :: (readAll read calls state).1, (readAll read calls state).2)

/-! Readers that are polled. -/

structure Reader (State ε α : Type) where
  poll : State → Poll (Except ε α) × State
  /-- The call under way is dropped. -/
  drop : State → State

namespace Reader

variable {State : Type}

/-- One poll for each entry, which says whether the call is dropped should it
have to wait.  A call that has given a value is followed by the next. -/
def results (reader : Reader State ε α) : List Bool → State → List α × Option ε
  | [], _ => ([], none)
  | dropped :: drops, state =>
      match reader.poll state with
      | (.pending, state) =>
          reader.results drops (if dropped then reader.drop state else state)
      | (.ready (.ok value), state) =>
          (value :: (reader.results drops state).1, (reader.results drops state).2)
      | (.ready (.error error), _) => ([], some error)

/-- A poll does what `parse` says of the bytes that are left, or waits with all
of them left.  `size` bounds how often it may wait. -/
inductive Polled (parse : List β → Parsed ε α) (left : State → List β → Prop)
    (size : State → Nat) (bytes : List β) (limit : Nat) : Poll (Except ε α) × State → Prop
  | waits {after : State} (rest : left after bytes) (less : size after < limit) :
      Polled parse left size bytes limit (.pending, after)
  | gives {after : State} {value : α} {used : Nat} (parsed : parse bytes = .done value used)
      (rest : left after (bytes.drop used)) (no_more : size after ≤ limit) :
      Polled parse left size bytes limit (.ready (.ok value), after)
  | breaks {after : State} {error : ε} (parsed : parse bytes = .failed error) :
      Polled parse left size bytes limit (.ready (.error error), after)
  | ends {after : State} {error : ε} {count : Nat} (parsed : parse bytes = .need count) :
      Polled parse left size bytes limit (.ready (.error error), after)

theorem Polled.mono {parse : List β → Parsed ε α} {left : State → List β → Prop}
    {size : State → Nat} {bytes : List β} {limit larger : Nat} {after : Poll (Except ε α) × State}
    (polled : Polled parse left size bytes limit after) (le : limit ≤ larger) :
    Polled parse left size bytes larger after := by
  cases polled with
  | waits rest less => exact .waits rest (Nat.lt_of_lt_of_le less le)
  | gives parsed rest no_more => exact .gives parsed rest (Nat.le_trans no_more le)
  | breaks parsed => exact .breaks parsed
  | ends parsed => exact .ends parsed

structure Follows (reader : Reader State ε α) (parse : List β → Parsed ε α)
    (left : State → List β → Prop) (size : State → Nat) : Prop where
  polls {state : State} {bytes : List β} (here : left state bytes) :
    Polled parse left size bytes (size state) (reader.poll state)
  drops {state : State} {bytes : List β} (here : left state bytes) :
    left (reader.drop state) bytes ∧ size (reader.drop state) ≤ size state

variable {reader : Reader State ε α} {parse : List β → Parsed ε α}
  {left : State → List β → Prop} {size : State → Nat}

/-- However its calls are dropped, a reader gives the values of the bytes in
order and then fails. -/
theorem Follows.given (follows : reader.Follows parse left size) {state : State}
    {bytes : List β} {values : List α} {stop : Option ε} (here : left state bytes)
    (run : Run parse bytes values stop) (drops : List Bool) :
    Given (reader.results drops state) values stop ∧
      (size state + values.length < drops.length → (reader.results drops state).2 ≠ none) := by
  induction drops generalizing state bytes values with
  | nil => exact ⟨.nothing values stop, fun enough => absurd enough (Nat.not_lt_zero _)⟩
  | cons dropped drops ih =>
      rw [results, List.length_cons]
      have polled := follows.polls here
      revert polled
      rcases reader.poll state with ⟨_ | error | value, after⟩
      · rintro (⟨rest, less⟩ | _ | _)
        obtain ⟨again, no_more⟩ := follows.drops rest
        cases dropped with
        | false =>
            obtain ⟨given, ends⟩ := ih rest run
            exact ⟨given, fun enough => ends (by omega)⟩
        | true =>
            obtain ⟨given, ends⟩ := ih again run
            exact ⟨given, fun enough => ends (by omega)⟩
      · rintro (_ | _ | broken | short)
        · obtain ⟨rfl, rfl⟩ := run.of_failed broken
          exact ⟨⟨List.nil_prefix, fun _ => rfl, fun _ _ same => same⟩,
            fun _ => Option.some_ne_none error⟩
        · obtain ⟨rfl, rfl⟩ := run.of_need short
          refine ⟨⟨List.nil_prefix, fun _ => rfl, ?_⟩, fun _ => Option.some_ne_none error⟩
          rintro _ _ ⟨⟩
      · rintro (_ | ⟨parsed, rest, no_more⟩ | _ | _)
        obtain ⟨later, rfl, ran⟩ := run.of_done parsed
        obtain ⟨given, ends⟩ := ih rest ran
        refine ⟨given.cons value, fun enough => ends ?_⟩
        rw [List.length_cons] at enough
        omega

end Reader

/-! Buffers that are pushed into. -/

inductive BufferOp (β : Type) where
  | push (bytes : List β)
  | next
deriving DecidableEq

namespace BufferOp

def pushed : List (BufferOp β) → List β
  | [] => []
  | push bytes :: ops => bytes ++ pushed ops
  | next :: ops => pushed ops

/-- The values that the calls of `take` give, the first error, and the buffer. -/
def results (take : List β → Except ε (Option α × List β)) :
    List (BufferOp β) → List β → List α × Option ε × List β
  | [], buffer => ([], none, buffer)
  | push bytes :: ops, buffer => results take ops (buffer ++ bytes)
  | next :: ops, buffer =>
      match take buffer with
      | .error error => ([], some error, buffer)
      | .ok (none, buffer) => results take ops buffer
      | .ok (some value, buffer) =>
          (value :: (results take ops buffer).1, (results take ops buffer).2)

/-- `take` cuts off the buffer what `parse` finds at its front. -/
def Cuts (take : List β → Except ε (Option α × List β)) (parse : List β → Parsed ε α) : Prop :=
  ∀ buffer, take buffer =
    match parse buffer with
    | .need _ => .ok (none, buffer)
    | .failed error => .error error
    | .done value used => .ok (some value, buffer.drop used)

variable {take : List β → Except ε (Option α × List β)} {parse : List β → Parsed ε α}

/-- Whatever is pushed in between, the values come in order, and those that have
not come yet are in the buffer and the bytes still to be pushed. -/
theorem results_of_run (cuts : Cuts take parse) (steady : Steady parse)
    {values : List α} {buffer more : List β} {ops : List (BufferOp β)}
    (run : Run parse (buffer ++ pushed ops ++ more) values none) :
    ∃ rest, values = (results take ops buffer).1 ++ rest ∧
      (results take ops buffer).2.1 = none ∧
        Run parse ((results take ops buffer).2.2 ++ more) rest none := by
  induction ops generalizing buffer values with
  | nil =>
      rw [pushed, List.append_nil] at run
      exact ⟨values, rfl, rfl, run⟩
  | cons op ops ih =>
      cases op with
      | push bytes =>
          rw [pushed, ← List.append_assoc] at run
          exact ih run
      | next =>
          rw [pushed] at run
          rw [results, cuts buffer]
          cases parsed : parse buffer with
          | need count => exact ih run
          | failed error =>
              rw [List.append_assoc] at run
              obtain ⟨-, broken⟩ := run.of_failed (steady.failed parsed _)
              cases broken
          | done value used =>
              rw [List.append_assoc] at run
              obtain ⟨-, within, given⟩ := steady.done parsed
              obtain ⟨later, rfl, ran⟩ := run.of_done (given _)
              rw [List.drop_append_of_le_length within,
                ← List.append_assoc] at ran
              obtain ⟨rest, rfl, clean, left⟩ := ih ran
              exact ⟨rest, rfl, clean, left⟩

theorem results_replicate (cuts : Cuts take parse) {values : List α} {buffer : List β}
    (run : Run parse buffer values none) {calls : Nat} (enough : values.length ≤ calls) :
    (results take (.replicate calls .next) buffer).1 = values := by
  induction calls generalizing buffer values with
  | zero => exact (List.length_eq_zero_iff.mp (Nat.le_zero.mp enough)).symm
  | succ calls ih =>
      rw [List.replicate_succ, results, cuts buffer]
      cases parsed : parse buffer with
      | need count =>
          obtain ⟨rfl, -⟩ := run.of_need parsed
          exact ih run (Nat.zero_le _)
      | failed error =>
          obtain ⟨-, broken⟩ := run.of_failed parsed
          cases broken
      | done value used =>
          obtain ⟨later, rfl, ran⟩ := run.of_done parsed
          exact congrArg (value :: ·) (ih ran (Nat.le_of_succ_le_succ enough))

theorem results_append (first second : List (BufferOp β)) (buffer : List β)
    (clean : (results take first buffer).2.1 = none) :
    (results take (first ++ second) buffer).1 =
      (results take first buffer).1 ++
        (results take second (results take first buffer).2.2).1 := by
  induction first generalizing buffer with
  | nil => rfl
  | cons op first ih =>
      cases op with
      | push bytes => exact ih (buffer ++ bytes) clean
      | next =>
          rw [List.cons_append]
          simp only [results] at clean ⊢
          rcases taken : take buffer with error | ⟨_ | value, after⟩
          · rw [taken] at clean
            cases clean
          · rw [taken] at clean
            exact ih after clean
          · rw [taken] at clean
            exact congrArg (value :: ·) (ih after clean)

end BufferOp

end QuicProxy
