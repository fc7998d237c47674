import QuicProxy.Data.AsyncStream

namespace QuicProxy

/-! The read half of a stream that is polled, with what it has given so far. -/

/-- Its answers depend on a state of its own, and it gives at most what there is room
for. -/
structure AsyncRead (State Error : Type) where
  pollRead : State → (room : Nat) →
    Poll (Except Error { bytes : Bytes // bytes.length ≤ room }) × State

/-- An answer without the bound on its bytes; `Ready(Ok)` with none is the end of the
stream. -/
abbrev ReadAnswer (Error : Type) := Poll (Except Error Bytes)

namespace ReadAnswer

variable {Error : Type}

def eof : ReadAnswer Error := .ready (.ok [])

def bytes : ReadAnswer Error → Bytes
  | .ready (.ok bytes) => bytes
  | _ => []

def forget {room : Nat} :
    Poll (Except Error { bytes : Bytes // bytes.length ≤ room }) → ReadAnswer Error
  | .pending => .pending
  | .ready (.error error) => .ready (.error error)
  | .ready (.ok read) => .ready (.ok read.val)

theorem forget_of_length_eq_zero {room : Nat} {read : { bytes : Bytes // bytes.length ≤ room }}
    (nothing : read.val.length = 0) : forget (.ready (.ok read)) = (eof : ReadAnswer Error) := by
  rw [forget, List.length_eq_zero_iff.mp nothing]
  rfl

end ReadAnswer

structure Source (State Error : Type) where
  state : State
  given : List (ReadAnswer Error)

namespace Source

variable {State Error : Type}

def opened (state : State) : Source State Error := ⟨state, []⟩

def read (source : Source State Error) : Bytes := source.given.flatMap ReadAnswer.bytes

def pollRead (io : AsyncRead State Error) (source : Source State Error) (room : Nat) :
    Poll (Except Error { bytes : Bytes // bytes.length ≤ room }) × Source State Error :=
  match io.pollRead source.state room with
  | (answer, state) => (answer, ⟨state, source.given ++ [ReadAnswer.forget answer]⟩)

@[simp] theorem read_opened (state : State) : (opened state : Source State Error).read = [] := rfl

theorem given_pollRead (io : AsyncRead State Error) (source : Source State Error) (room : Nat) :
    (source.pollRead io room).2.given =
      source.given ++ [ReadAnswer.forget (source.pollRead io room).1] := rfl

theorem read_of_given {before after : Source State Error} {answers : List (ReadAnswer Error)}
    (grown : after.given = before.given ++ answers) :
    after.read = before.read ++ answers.flatMap ReadAnswer.bytes := by
  rw [read, grown, List.flatMap_append]
  rfl

end Source

end QuicProxy
