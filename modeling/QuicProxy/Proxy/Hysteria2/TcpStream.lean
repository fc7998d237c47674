import QuicProxy.Data.Headed
import QuicProxy.Data.Text

namespace QuicProxy

/-! One TCP connection over a QUIC stream of a Hysteria2 outbound
(`src/proxy/outbound/hysteria2/mod.rs`). -/

namespace Hysteria2

def maxTcpResponseMessage : Nat := 2048

def maxTcpResponsePadding : Nat := 4096

/-- `read_varint`: the value and the bytes it took. -/
def readVarint : Bytes → Except String (Nat × Nat)
  | [] => .error "varint truncated"
  | first :: rest =>
      let len := 2 ^ (first.toNat / 64)
      if rest.length + 1 < len then .error "varint truncated"
      else
        .ok ((rest.take (len - 1)).foldl (fun value byte => value * 256 + byte.toNat)
          (first.toNat % 64), len)

inductive ResponseStep where
  | status
  | msgLen
  | msg (len : Nat)
  | padLen
  | pad (len : Nat)
  | done
deriving DecidableEq

namespace ResponseStep

def remaining : ResponseStep → Nat
  | status => 5
  | msgLen => 4
  | msg _ => 3
  | padLen => 2
  | pad _ => 1
  | done => 0

end ResponseStep

structure ResponseReader where
  buf : Bytes
  step : ResponseStep
  remoteError : Option String
deriving DecidableEq

/-- One turn of the loop of `parse_step`. -/
inductive ResponseTurn where
  | done
  | more
  | failed (error : String)
  | next (reader : ResponseReader)
deriving DecidableEq

namespace ResponseReader

def new : ResponseReader := ⟨[], .status, none⟩

def isDone (reader : ResponseReader) : Bool := reader.step = .done

def advance (reader : ResponseReader) (count : Nat) (step : ResponseStep) : ResponseReader :=
  { reader with buf := reader.buf.drop count, step }

/-- A length and the limit that it is checked against. -/
def lengthTurn (reader : ResponseReader) (limit : Nat) (error : String)
    (step : Nat → ResponseStep) : ResponseTurn :=
  match reader.buf with
  | [] => .more
  | first :: rest =>
      if rest.length + 1 < 2 ^ (first.toNat / 64) then .more
      else
        match readVarint (first :: rest) with
        | .error error => .failed error
        | .ok (len, used) =>
            if limit < len then .failed error else .next (reader.advance used (step len))

def turn (reader : ResponseReader) : ResponseTurn :=
  match reader.step with
  | .done => .done
  | .status =>
      match reader.buf with
      | [] => .more
      | status :: _ =>
          let remoteError := if status ≠ 0 then some "" else reader.remoteError
          .next { reader.advance 1 .msgLen with remoteError }
  | .msgLen =>
      reader.lengthTurn maxTcpResponseMessage "hy2 TCP response message too long" .msg
  | .msg len =>
      if reader.buf.length < len then .more
      else
        let remoteError := reader.remoteError.map fun _ => fromUtf8Lossy (reader.buf.take len)
        .next { reader.advance len .padLen with remoteError }
  | .padLen =>
      reader.lengthTurn maxTcpResponsePadding "hy2 TCP response padding too long" .pad
  | .pad len => if reader.buf.length < len then .more else .next (reader.advance len .done)

theorem lengthTurn_next {reader next : ResponseReader} {limit : Nat} {error : String}
    {step : Nat → ResponseStep} (taken : reader.lengthTurn limit error step = .next next) :
    ∃ len, next.step = step len := by
  unfold lengthTurn at taken
  repeat' split at taken
  all_goals cases taken
  exact ⟨_, rfl⟩

theorem remaining_lt_of_turn {reader next : ResponseReader} (taken : reader.turn = .next next) :
    next.step.remaining < reader.step.remaining := by
  unfold turn at taken
  split at taken
  · cases taken
  · next here =>
      rw [here]
      split at taken
      · cases taken
      · cases taken
        exact Nat.lt_succ_self 4
  · next here =>
      obtain ⟨len, step⟩ := lengthTurn_next taken
      rw [here, step]
      exact Nat.lt_succ_self 3
  · next here =>
      rw [here]
      split at taken
      · cases taken
      · cases taken
        exact Nat.lt_succ_self 2
  · next here =>
      obtain ⟨len, step⟩ := lengthTurn_next taken
      rw [here, step]
      exact Nat.lt_succ_self 1
  · next here =>
      rw [here]
      split at taken
      · cases taken
      · cases taken
        exact Nat.lt_succ_self 0

/-- `parse_step`: whether the response is consumed, `false` when it needs more
bytes. -/
def parseStep (reader : ResponseReader) : Except String Bool × ResponseReader :=
  match _ : reader.turn with
  | .done => (.ok true, reader)
  | .more => (.ok false, reader)
  | .failed error => (.error error, reader)
  | .next next => next.parseStep
termination_by reader.step.remaining
decreasing_by exact remaining_lt_of_turn (by assumption)

end ResponseReader

structure Hy2TcpStream (State : Type) where
  send : Wire State
  /-- What `poll_read` of the receiving half is going to give. -/
  recv : List PollRead
  pendingRequest : Option Bytes
  response : ResponseReader

namespace Hy2TcpStream

variable {State : Type}

def new (send : Wire State) (recv : List PollRead) (request : Bytes) : Hy2TcpStream State :=
  ⟨send, recv, some request, .new⟩

/-- `poll_response`, with the reads it leaves. -/
def pollResponse (response : ResponseReader) (recv : List PollRead) :
    Poll (Except String Unit) × ResponseReader × List PollRead :=
  match response.parseStep with
  | (.ok true, response) => (.ready (.ok ()), response, recv)
  | (.ok false, response) =>
      match _ : QuicProxy.pollRead 2048 recv with
      | (.ready [], recv) =>
          (.ready (.error "hy2 stream closed before TCP response"), response, recv)
      | (.ready (byte :: bytes), recv) =>
          pollResponse { response with buf := response.buf ++ byte :: bytes } recv
      | (.failed error, recv) => (.ready (.error error), response, recv)
      | (.pending, recv) => (.pending, response, recv)
  | (.error error, response) => (.ready (.error error), response, recv)
termination_by weight recv
decreasing_by exact weight_pollRead (by assumption) (List.cons_ne_nil byte bytes)

def remoteErrorText (message : String) : String :=
  if message = "" then "hy2 remote connection failed" else "hy2 remote error: " ++ message

/-- `poll_read` once the response is consumed: what was read past it goes first,
and a read that has given bytes is not pending. -/
def readPayload (stream : Hy2TcpStream State) (room : Nat) : PollRead × Hy2TcpStream State :=
  let produced := stream.response.buf.take room
  let served := { stream with
    response := { stream.response with buf := stream.response.buf.drop room } }
  if room - produced.length = 0 then (.ready produced, served)
  else
    match QuicProxy.pollRead (room - produced.length) stream.recv with
    | (.ready bytes, recv) => (.ready (produced ++ bytes), { served with recv })
    | (.failed error, recv) => (.failed error, { served with recv })
    | (.pending, recv) =>
        (if produced ≠ [] then .ready produced else .pending, { served with recv })

def pollRead (stream : Hy2TcpStream State) (room : Nat) : PollRead × Hy2TcpStream State :=
  match stream.response.remoteError with
  | some message =>
      (.failed (remoteErrorText message),
        { stream with response := { stream.response with remoteError := none } })
  | none =>
      if stream.response.isDone then stream.readPayload room
      else
        match pollResponse stream.response stream.recv with
        | (.pending, response, recv) => (.pending, { stream with response, recv })
        | (.ready (.error error), response, recv) => (.failed error, { stream with response, recv })
        | (.ready (.ok ()), response, recv) =>
            match response.remoteError with
            | some message =>
                (.failed (remoteErrorText message),
                  { stream with response := { response with remoteError := none }, recv })
            | none => { stream with response, recv }.readPayload room

/-- The loop of `poll_write`: what is left of the request goes out together with
the bytes of the user. -/
def writeRequest (io : AsyncWrite State) (send : Wire State) (request buf : Bytes) :
    Poll (Except String Nat) × Option Bytes × Wire State :=
  match send.pollWrite io (request ++ buf) with
  | (.ready (.ok count), send) =>
      if count = 0 then (.ready (.ok 0), some request, send)
      else if request.length < count then (.ready (.ok (count - request.length)), none, send)
      else if count = request.length then
        -- the request is out and the loop ends
        match send.pollWrite io buf with
        | (result, send) => (result, none, send)
      else writeRequest io send (request.drop count) buf
  | (.ready (.error error), send) => (.ready (.error error), some request, send)
  | (.pending, send) => (.pending, some request, send)
termination_by request.length
decreasing_by
  rw [List.length_drop]
  omega

def pollWrite (io : AsyncWrite State) (stream : Hy2TcpStream State) (buf : Bytes) :
    Poll (Except String Nat) × Hy2TcpStream State :=
  match stream.pendingRequest with
  | some request =>
      match writeRequest io stream.send request buf with
      | (result, pendingRequest, send) => (result, { stream with pendingRequest, send })
  | none =>
      match stream.send.pollWrite io buf with
      | (result, send) => (result, { stream with send })

def pollFlush (io : AsyncWrite State) (stream : Hy2TcpStream State) :
    Poll (Except String Unit) × Hy2TcpStream State :=
  if stream.pendingRequest.isSome then (.ready (.ok ()), stream)
  else
    match stream.send.pollFlush io with
    | (result, send) => (result, { stream with send })

def pollShutdown (io : AsyncWrite State) (stream : Hy2TcpStream State) :
    Poll (Except String Unit) × Hy2TcpStream State :=
  match stream.send.pollShutdown io with
  | (result, send) => (result, { stream with send })

def poll (io : AsyncWrite State) (stream : Hy2TcpStream State) :
    PollCall → PollAnswer × Hy2TcpStream State
  | .write buf => (stream.pollWrite io buf).map .wrote id
  | .flush => (stream.pollFlush io).map .flushed id
  | .shutdown => (stream.pollShutdown io).map .shut id
  | .read room => (stream.pollRead room).map .read id

variable {head accepted : Bytes} {stream : Hy2TcpStream State}

theorem writeKeeps_writeRequest (io : AsyncWrite State) {send : Wire State} {request : Bytes}
    (buf : Bytes) (led : Led head (some request) send.written accepted) :
    WriteKeeps head accepted buf (writeRequest io send request buf).1
      (writeRequest io send request buf).2.1 (writeRequest io send request buf).2.2 := by
  induction size : request.length using Nat.strongRecOn generalizing request send with
  | ind length ih =>
      have took := send.took_pollWrite io (request ++ buf)
      rw [writeRequest]
      revert took
      rcases send.pollWrite io (request ++ buf) with ⟨_ | error | count, after⟩ <;> intro took
      · exact writeKeeps_stalled led took rfl rfl
      · exact writeKeeps_stalled led took rfl rfl
      · by_cases nothing : count = 0
        · simp only [nothing, if_true]
          exact writeKeeps_stalled led took nothing rfl
        by_cases long : request.length < count
        · simp only [nothing, long, if_false, if_true]
          have sent := led_of_whole led took (Nat.le_of_lt long)
          exact ⟨sent, fun _ _ => Or.inl rfl, took.offered⟩
        by_cases exactly : count = request.length
        · simp only [if_neg nothing, if_neg long, if_pos exactly]
          have again := after.took_pollWrite io buf
          exact writeKeeps_done (led_of_exact led took exactly) again
        · simp only [nothing, long, exactly, if_false]
          have sent := led_of_part led took (Nat.le_of_not_lt long)
          refine ih _ ?_ sent rfl
          rw [List.length_drop]
          omega

theorem writeKeeps_pollWrite (io : AsyncWrite State) (buf : Bytes)
    (led : Led head stream.pendingRequest stream.send.written accepted) :
    WriteKeeps head accepted buf (stream.pollWrite io buf).1
      (stream.pollWrite io buf).2.pendingRequest (stream.pollWrite io buf).2.send := by
  obtain ⟨send, recv, pendingRequest, response⟩ := stream
  cases pendingRequest with
  | none =>
      have took := send.took_pollWrite io buf
      exact writeKeeps_done led took
  | some request => exact writeKeeps_writeRequest io buf led

theorem send_readPayload (stream : Hy2TcpStream State) (room : Nat) :
    (stream.readPayload room).2.send = stream.send ∧
      (stream.readPayload room).2.pendingRequest = stream.pendingRequest := by
  unfold readPayload
  dsimp only
  split
  · exact ⟨rfl, rfl⟩
  · split <;> exact ⟨rfl, rfl⟩

theorem send_pollRead (stream : Hy2TcpStream State) (room : Nat) :
    (stream.pollRead room).2.send = stream.send ∧
      (stream.pollRead room).2.pendingRequest = stream.pendingRequest := by
  unfold pollRead
  split
  · exact ⟨rfl, rfl⟩
  · split
    · exact send_readPayload stream room
    · split
      · exact ⟨rfl, rfl⟩
      · exact ⟨rfl, rfl⟩
      · split
        · exact ⟨rfl, rfl⟩
        · exact send_readPayload _ room

def headed (io : AsyncWrite State) : Headed State (Hy2TcpStream State) :=
  ⟨poll io, pendingRequest, send⟩

theorem sound (io : AsyncWrite State) (head : Bytes) : (headed io).Sound head where
  write := fun buf led => ⟨_, rfl, writeKeeps_pollWrite io buf led⟩
  flush := fun stream => by
    change (headed io).Same stream ((stream.pollFlush io).map .flushed id)
    unfold pollFlush
    split
    · exact ⟨rfl, rfl, rfl, nofun⟩
    · exact ⟨rfl, rfl, rfl, nofun⟩
  shutdown := fun stream =>
    ⟨rfl, stream.send.written_pollShutdown io, stream.send.offered_pollShutdown io, nofun⟩
  read := fun stream room => by
    obtain ⟨send, pending⟩ := send_pollRead stream room
    exact ⟨pending, congrArg Wire.written send, congrArg Wire.offered send, nofun⟩

theorem isLed_start (io : AsyncWrite State) (state : State) (recv : List PollRead)
    (request : Bytes) :
    (headed io).IsLed request (Polled.start (new (.opened state) recv request)) :=
  Led.start request

theorem pollResponse_of_closes (response : ResponseReader) {recv : List PollRead}
    (closes : Closes recv) :
    (pollResponse response recv).1 ≠ .pending ∧
      ((pollResponse response recv).1 = .ready (.ok ()) →
        Closes (pollResponse response recv).2.2) := by
  fun_induction pollResponse response recv with
  | case1 response recv parsed same => exact ⟨nofun, fun _ => closes⟩
  | case2 => exact ⟨nofun, nofun⟩
  | case3 response recv parsed same byte bytes rest read ih =>
      exact ih (closes_pollRead closes read (List.cons_ne_nil byte bytes))
  | case4 => exact ⟨nofun, nofun⟩
  | case5 response recv parsed same rest read =>
      exact absurd (congrArg Prod.fst read) (QuicProxy.pollRead_of_closes closes _)
  | case6 => exact ⟨nofun, nofun⟩

theorem readPayload_of_closes {stream : Hy2TcpStream State} (closes : Closes stream.recv)
    (room : Nat) : (stream.readPayload room).1 ≠ .pending := by
  unfold readPayload
  dsimp only
  split
  · exact nofun
  · split
    · exact nofun
    · exact nofun
    · next rest read =>
        exact absurd (congrArg Prod.fst read) (QuicProxy.pollRead_of_closes closes _)

theorem pollRead_of_closes {stream : Hy2TcpStream State} (closes : Closes stream.recv)
    (room : Nat) : (stream.pollRead room).1 ≠ .pending := by
  unfold pollRead
  split
  · exact nofun
  · split
    · exact readPayload_of_closes closes room
    · have response := pollResponse_of_closes stream.response closes
      split
      · next same => exact absurd (congrArg Prod.fst same) response.1
      · exact nofun
      · next same =>
          rw [same] at response
          split
          · exact nofun
          · exact readPayload_of_closes (response.2 rfl) room

/-- The calls that do not pass the request over: a flush that finds it written, a
shutdown that does or that the stream does not answer with success, and a read
after a write was tried or from a stream that ends instead of waiting. -/
def Prompt (io : AsyncWrite State) (polled : Polled (Hy2TcpStream State)) : PollCall → Prop
  | .write _ => True
  | .flush => polled.adapter.pendingRequest.getD [] = []
  | .shutdown => polled.adapter.pendingRequest.getD [] = [] ∨
      (io.pollShutdown polled.adapter.send.state).1 ≠ .ready (.ok ())
  | .read _ => polled.adapter.send.offered = true ∨ Closes polled.adapter.recv

theorem honest_of_prompt (io : AsyncWrite State) {polled : Polled (Hy2TcpStream State)}
    {call : PollCall} (prompt : Prompt io polled call) : (headed io).Honest polled call := by
  cases call with
  | write buf => trivial
  | flush => exact (Headed.honest_iff_of_flushed rfl).mpr (Or.inl prompt)
  | shutdown =>
      rw [Prompt, ← Wire.pollShutdown_fst] at prompt
      exact (Headed.honest_iff_of_shut rfl).mpr prompt
  | read room =>
      refine (Headed.honest_iff_of_read rfl).mpr (prompt.imp_right fun closes => ?_)
      exact pollRead_of_closes closes room

end Hy2TcpStream

end Hysteria2

end QuicProxy
