import QuicProxy.Data.Headed

namespace QuicProxy

/-! The stream that sends a handshake with the first bytes of its user
(`src/proxy/outbound/mod.rs`). -/

structure LazyHandshakeStream (State : Type) where
  stream : Wire State
  /-- What `poll_read` of the stream is going to give. -/
  reads : List PollRead
  handshake : Option Bytes

namespace LazyHandshakeStream

variable {State : Type}

def new (stream : Wire State) (reads : List PollRead) (handshake : Bytes) :
    LazyHandshakeStream State :=
  ⟨stream, reads, some handshake⟩

def pollRead (lazy : LazyHandshakeStream State) (room : Nat) :
    PollRead × LazyHandshakeStream State :=
  match QuicProxy.pollRead room lazy.reads with
  | (result, reads) => (result, { lazy with reads })

def pollWrite (io : AsyncWrite State) (lazy : LazyHandshakeStream State) (buf : Bytes) :
    Poll (Except String Nat) × LazyHandshakeStream State :=
  match lazy.handshake with
  | some handshakeData =>
      match lazy.stream.pollWriteVectored io [handshakeData, buf] with
      | (.ready (.ok count), stream) =>
          if count = 0 then (.ready (.ok 0), { lazy with stream })
          else if handshakeData.length ≤ count then
            let writtenUser := count - handshakeData.length
            if writtenUser = 0 ∧ buf ≠ [] then
              match stream.pollWrite io buf with
              | (result, stream) => (result, { lazy with stream, handshake := none })
            else (.ready (.ok writtenUser), { lazy with stream, handshake := none })
          else
            -- the task is woken at once, to write the rest
            (.pending, { lazy with stream, handshake := some (handshakeData.drop count) })
      | (.ready (.error error), stream) => (.ready (.error error), { lazy with stream })
      | (.pending, stream) => (.pending, { lazy with stream })
  | none =>
      match lazy.stream.pollWrite io buf with
      | (result, stream) => (result, { lazy with stream })

def pollFlush (io : AsyncWrite State) (lazy : LazyHandshakeStream State) :
    Poll (Except String Unit) × LazyHandshakeStream State :=
  match lazy.stream.pollFlush io with
  | (result, stream) => (result, { lazy with stream })

def pollShutdown (io : AsyncWrite State) (lazy : LazyHandshakeStream State) :
    Poll (Except String Unit) × LazyHandshakeStream State :=
  match lazy.stream.pollShutdown io with
  | (result, stream) => (result, { lazy with stream })

def poll (io : AsyncWrite State) (lazy : LazyHandshakeStream State) :
    PollCall → PollAnswer × LazyHandshakeStream State
  | .write buf => (lazy.pollWrite io buf).map .wrote id
  | .flush => (lazy.pollFlush io).map .flushed id
  | .shutdown => (lazy.pollShutdown io).map .shut id
  | .read room => (lazy.pollRead room).map .read id

end LazyHandshakeStream

namespace LazyHandshakeStream

variable {State : Type} {head accepted : Bytes} {lazy : LazyHandshakeStream State}

theorem writeKeeps_pollWrite (io : AsyncWrite State)
    (led : Led head lazy.handshake lazy.stream.written accepted) (buf : Bytes) :
    WriteKeeps head accepted buf (lazy.pollWrite io buf).1 (lazy.pollWrite io buf).2.handshake
      (lazy.pollWrite io buf).2.stream := by
  obtain ⟨stream, reads, handshake⟩ := lazy
  cases handshake with
  | none =>
      have took := stream.took_pollWrite io buf
      exact writeKeeps_done led took
  | some rest =>
      have took := stream.took_pollWriteVectored io [rest, buf]
      rw [List.flatten_cons, List.flatten_singleton] at took
      simp only [pollWrite]
      revert took
      rcases stream.pollWriteVectored io [rest, buf] with ⟨_ | error | count, after⟩ <;> intro took
      · exact writeKeeps_stalled led took rfl rfl
      · exact writeKeeps_stalled led took rfl rfl
      · by_cases nothing : count = 0
        · simp only [nothing, if_true]
          exact writeKeeps_stalled led took nothing rfl
        by_cases long : rest.length ≤ count
        · simp only [nothing, long, if_false, if_true]
          split
          · next exactly =>
              have again := after.took_pollWrite io buf
              have sent := led_of_exact led took (by change count = _; omega)
              exact writeKeeps_done sent again
          · next more =>
              have sent := led_of_whole led took long
              exact ⟨sent, fun _ _ => Or.inl rfl, took.offered⟩
        · simp only [nothing, long, if_false]
          have sent := led_of_part led took (Nat.le_of_not_le long)
          refine ⟨?_, fun _ same => (by cases same), took.offered⟩
          change Led _ _ _ (_ ++ [])
          rw [List.append_nil]
          exact sent

def headed (io : AsyncWrite State) : Headed State (LazyHandshakeStream State) :=
  ⟨poll io, handshake, stream⟩

theorem sound (io : AsyncWrite State) (head : Bytes) : (headed io).Sound head where
  write := fun buf led => ⟨_, rfl, writeKeeps_pollWrite io led buf⟩
  flush := fun _ => ⟨rfl, rfl, rfl, nofun⟩
  shutdown := fun lazy =>
    ⟨rfl, lazy.stream.written_pollShutdown io, lazy.stream.offered_pollShutdown io, nofun⟩
  read := fun _ _ => ⟨rfl, rfl, rfl, nofun⟩

theorem isLed_start (io : AsyncWrite State) (state : State) (reads : List PollRead)
    (handshake : Bytes) :
    (headed io).IsLed handshake (Polled.start (new (.opened state) reads handshake)) :=
  Led.start handshake

/-- The calls that do not pass the handshake over: a flush or a shutdown that
finds it written or that the stream does not answer with success, and a read
after a write was tried or that the stream answers at once. -/
def Prompt (io : AsyncWrite State) (polled : Polled (LazyHandshakeStream State)) :
    PollCall → Prop
  | .write _ => True
  | .flush => polled.adapter.handshake.getD [] = [] ∨
      (io.pollFlush polled.adapter.stream.state).1 ≠ .ready (.ok ())
  | .shutdown => polled.adapter.handshake.getD [] = [] ∨
      (io.pollShutdown polled.adapter.stream.state).1 ≠ .ready (.ok ())
  | .read room => polled.adapter.stream.offered = true ∨
      (QuicProxy.pollRead room polled.adapter.reads).1 ≠ .pending

theorem honest_iff_prompt (io : AsyncWrite State) (polled : Polled (LazyHandshakeStream State))
    (call : PollCall) : (headed io).Honest polled call ↔ Prompt io polled call := by
  cases call with
  | write buf => exact Iff.rfl
  | flush => exact Headed.honest_iff_of_flushed rfl
  | shutdown =>
      apply Headed.honest_iff_of_shut
      change PollAnswer.shut (polled.adapter.stream.pollShutdown io).1 = _
      rw [Wire.pollShutdown_fst]
  | read room => exact Headed.honest_iff_of_read rfl

end LazyHandshakeStream

end QuicProxy
