import QuicProxy.Data.Segments
import QuicProxy.Proxy.LazyHandshake
import QuicProxy.Proxy.TrojanHandshake

namespace QuicProxy

/-! A WebSocket connection as a plain byte stream
(`src/proxy/outbound/transport.rs`). -/

inductive WsError where
  | io (error : String)
  | connectionClosed
  | other (text : String)
deriving DecidableEq

def wsIoError : WsError → String
  | .io error => error
  | .connectionClosed => "Connection closed normally"
  | .other text => text

inductive WsMessage where
  | binary (data : Bytes)
  | text (data : String)
  | ping (data : Bytes)
  | pong (data : Bytes)
  | close
  | frame (data : Bytes)
deriving DecidableEq

/-- What one `poll_next` of the socket gives. -/
inductive NextMessage where
  | pending
  | message (message : WsMessage)
  | failed (error : WsError)
  | ended
deriving DecidableEq

/-- The write half of the socket.  A message that `start_send` takes is sent behind
those that it has taken before. -/
structure WebSocket (State : Type) where
  pollReady : State → Poll (Except WsError Unit) × State
  startSend : State → Bytes → Except WsError Unit × State
  pollFlush : State → Poll (Except WsError Unit) × State
  pollClose : State → Poll (Except WsError Unit) × State

namespace WsByteStream

/-! Writing. -/

/-- The socket with the binary messages that it has taken, and whether one of them
was reported as failed. -/
structure Writer (State : Type) where
  inner : State
  sent : List Bytes
  spoiled : Bool

namespace Writer

variable {State : Type}

def new (inner : State) : Writer State := ⟨inner, [], false⟩

def pollWrite (ws : WebSocket State) (writer : Writer State) (buf : Bytes) :
    Poll (Except String (Fin (buf.length + 1))) × Writer State :=
  match ws.pollReady writer.inner with
  | (.pending, inner) => (.pending, { writer with inner })
  | (.ready (.error error), inner) => (.ready (.error (wsIoError error)), { writer with inner })
  | (.ready (.ok ()), inner) =>
      match ws.startSend inner buf with
      | (.error error, inner) => (.ready (.error (wsIoError error)), { writer with inner })
      | (.ok (), inner) =>
          let sent := writer.sent ++ [buf]
          match ws.pollFlush inner with
          | (.ready (.ok ()), inner) => (.ready (.ok (Fin.last _)), { writer with inner, sent })
          | (.ready (.error .connectionClosed), inner) =>
              (.ready (.error "websocket connection closed"), ⟨inner, sent, true⟩)
          | (.ready (.error error), inner) =>
              (.ready (.error (wsIoError error)), ⟨inner, sent, true⟩)
          -- the message is taken, and a later poll flushes it
          | (.pending, inner) => (.ready (.ok (Fin.last _)), { writer with inner, sent })

/-- A closed connection has nothing left to flush or to close. -/
def settled : Poll (Except WsError Unit) → Poll (Except String Unit)
  | .ready (.ok ()) => .ready (.ok ())
  | .ready (.error .connectionClosed) => .ready (.ok ())
  | .ready (.error error) => .ready (.error (wsIoError error))
  | .pending => .pending

def pollFlush (ws : WebSocket State) (writer : Writer State) :
    Poll (Except String Unit) × Writer State :=
  match ws.pollFlush writer.inner with
  | (result, inner) => (settled result, { writer with inner })

def pollShutdown (ws : WebSocket State) (writer : Writer State) :
    Poll (Except String Unit) × Writer State :=
  match ws.pollClose writer.inner with
  | (result, inner) => (settled result, { writer with inner })

/-- The buffer that a vectored write takes where it is not written anew: the first
that is not empty. -/
def firstBuf (bufs : List Bytes) : Bytes := (bufs.find? fun buf => !buf.isEmpty).getD []

theorem firstBuf_isPrefix (bufs : List Bytes) : firstBuf bufs <+: bufs.flatten := by
  induction bufs with
  | nil => exact List.prefix_rfl
  | cons buf bufs ih =>
      cases buf with
      | nil => exact ih
      | cons byte buf => exact List.prefix_append _ _

def pollWriteVectored (ws : WebSocket State) (writer : Writer State) (bufs : List Bytes) :
    Poll (Except String (Fin (bufs.flatten.length + 1))) × Writer State :=
  match writer.pollWrite ws (firstBuf bufs) with
  | (.ready (.ok count), writer) =>
      (.ready (.ok (count.castLE (Nat.succ_le_succ (firstBuf_isPrefix bufs).length_le))), writer)
  | (.ready (.error error), writer) => (.ready (.error error), writer)
  | (.pending, writer) => (.pending, writer)

end Writer

def asyncWrite {State : Type} (ws : WebSocket State) : AsyncWrite (Writer State) where
  pollWrite := Writer.pollWrite ws
  pollWriteVectored := Writer.pollWriteVectored ws
  pollFlush := Writer.pollFlush ws
  pollShutdown := Writer.pollShutdown ws

/-! Reading. -/

structure Reader where
  /-- What `poll_next` of the socket is going to give. -/
  incoming : List NextMessage
  readBuf : Bytes
  readEof : Bool
deriving DecidableEq

namespace Reader

def new (incoming : List NextMessage) : Reader := ⟨incoming, [], false⟩

/-- The loop with an empty buffer; a message with bytes ends it. -/
def pollNext (room : Nat) : List NextMessage → PollRead × Reader
  | [] => (.pending, new [])
  | .pending :: incoming => (.pending, new incoming)
  | .failed error :: incoming => (.failed (wsIoError error), new incoming)
  | .ended :: incoming => (.ready [], ⟨incoming, [], true⟩)
  | .message (.binary data) :: incoming =>
      if data.isEmpty then pollNext room incoming
      else (.ready (data.take room), ⟨incoming, data.drop room, false⟩)
  | .message (.text data) :: incoming =>
      if (asBytes data).isEmpty then pollNext room incoming
      else (.ready ((asBytes data).take room), ⟨incoming, (asBytes data).drop room, false⟩)
  | .message .close :: incoming => (.ready [], ⟨incoming, [], true⟩)
  | .message (.ping _) :: incoming => pollNext room incoming
  | .message (.pong _) :: incoming => pollNext room incoming
  | .message (.frame _) :: incoming => pollNext room incoming

def pollRead (reader : Reader) (room : Nat) : PollRead × Reader :=
  if !reader.readBuf.isEmpty then
    (.ready (reader.readBuf.take room), { reader with readBuf := reader.readBuf.drop room })
  else if reader.readEof then (.ready [], reader)
  else pollNext room reader.incoming

def answers (reader : Reader) : List Nat → List PollRead
  | [] => []
  | room :: rooms => (reader.pollRead room).1 :: (reader.pollRead room).2.answers rooms

end Reader

end WsByteStream

/-! What the messages carry. -/

namespace NextMessage

def data : NextMessage → Bytes
  | message (.binary data) => data
  | message (.text data) => asBytes data
  | _ => []

def isEnd : NextMessage → Bool
  | ended => true
  | message .close => true
  | _ => false

def isFailed : NextMessage → Bool
  | failed _ => true
  | _ => false

/-- What comes before the connection is closed. -/
def live (incoming : List NextMessage) : List NextMessage :=
  incoming.takeWhile fun next => !next.isEnd

def payload (incoming : List NextMessage) : Bytes := (live incoming).flatMap data

end NextMessage

open NextMessage

namespace WsByteStream

namespace Reader

def left (reader : Reader) : Bytes :=
  reader.readBuf ++ if reader.readEof then [] else payload reader.incoming

def weight (reader : Reader) : Nat :=
  reader.left.length + if reader.readEof then 0 else (live reader.incoming).length

def Clean (reader : Reader) : Prop :=
  reader.readEof = false → ∀ next ∈ live reader.incoming, next.isFailed = false

def Closes (reader : Reader) : Prop :=
  reader.readEof = false → reader.incoming.any isEnd = true

/-- One read with room for bytes. -/
inductive Served (reader : Reader) : PollRead × Reader → Prop
  | gives {bytes : Bytes} {next : Reader} (some_bytes : bytes ≠ [])
      (whole : reader.left = bytes ++ next.left) (clean : reader.Clean → next.Clean)
      (closes : reader.Closes → next.Closes) (lighter : next.weight < reader.weight) :
      Served reader (.ready bytes, next)
  | waits {next : Reader} (same : next.left = reader.left)
      (clean : reader.Clean → next.Clean) (closes : reader.Closes → next.Closes)
      (lighter : reader.Closes → next.weight < reader.weight) : Served reader (.pending, next)
  | fails {error : String} {next : Reader} (unclean : ¬reader.Clean) :
      Served reader (.failed error, next)
  | ends {next : Reader} (nothing : reader.left = []) (done : next.left = [])
      (eof : next.readEof = true) : Served reader (.ready [], next)

theorem live_cons {next : NextMessage} (goes : next.isEnd = false)
    (incoming : List NextMessage) : live (next :: incoming) = next :: live incoming := by
  rw [live, List.takeWhile_cons, goes]
  rfl

theorem payload_cons {next : NextMessage} (goes : next.isEnd = false)
    (incoming : List NextMessage) : payload (next :: incoming) = next.data ++ payload incoming := by
  rw [payload, live_cons goes]
  rfl

theorem left_new (incoming : List NextMessage) : (new incoming).left = payload incoming := rfl

theorem weight_new (incoming : List NextMessage) :
    (new incoming).weight = (payload incoming).length + (live incoming).length := rfl

theorem clean_of_cons {next : NextMessage} {incoming : List NextMessage}
    (goes : next.isEnd = false) (clean : (new (next :: incoming)).Clean) :
    (new incoming).Clean := by
  intro _ other member
  refine clean rfl other ?_
  show _ ∈ live (next :: incoming)
  rw [live_cons goes]
  exact List.mem_cons_of_mem _ member

theorem closes_of_cons {next : NextMessage} {incoming : List NextMessage}
    (goes : next.isEnd = false) (closes : (new (next :: incoming)).Closes) :
    (new incoming).Closes := by
  intro _
  have here := closes rfl
  rw [show (new (next :: incoming)).incoming = next :: incoming from rfl, List.any_cons, goes,
    Bool.false_or] at here
  exact here

theorem Served.behind {next : NextMessage} {incoming : List NextMessage}
    {out : PollRead × Reader} (goes : next.isEnd = false) (nothing : next.data = [])
    (served : Served (new incoming) out) : Served (new (next :: incoming)) out := by
  have left : (new (next :: incoming)).left = (new incoming).left := by
    rw [left_new, left_new, payload_cons goes, nothing, List.nil_append]
  have weight : (new (next :: incoming)).weight = (new incoming).weight + 1 := by
    rw [weight_new, weight_new, ← left_new, left, left_new, live_cons goes]
    rfl
  cases served with
  | gives some_bytes whole clean closes lighter =>
      exact .gives some_bytes (left.trans whole) (fun before => clean (clean_of_cons goes before))
        (fun before => closes (closes_of_cons goes before)) (by omega)
  | waits same clean closes lighter =>
      refine .waits (same.trans left.symm) (fun before => clean (clean_of_cons goes before))
        (fun before => closes (closes_of_cons goes before)) fun before => ?_
      have less := lighter (closes_of_cons goes before)
      omega
  | fails unclean => exact .fails fun before => unclean (clean_of_cons goes before)
  | ends nothing done eof => exact .ends (left.trans nothing) done eof

theorem served_data {next : NextMessage} (goes : next.isEnd = false)
    (some_bytes : next.data.isEmpty = false) (incoming : List NextMessage) {room : Nat}
    (positive : 0 < room) :
    Served (new (next :: incoming))
      (.ready (next.data.take room), ⟨incoming, next.data.drop room, false⟩) := by
  have nonempty := List.isEmpty_eq_false_iff.mp some_bytes
  have whole : (new (next :: incoming)).left =
      next.data.take room ++ (next.data.drop room ++ payload incoming) := by
    rw [left_new, payload_cons goes, ← List.append_assoc, List.take_append_drop]
  refine .gives ?_ whole (clean_of_cons goes) (closes_of_cons goes) ?_
  · rw [Ne, List.take_eq_nil_iff, not_or]
    exact ⟨Nat.ne_of_gt positive, nonempty⟩
  · have less := congrArg List.length whole
    rw [List.length_append] at less
    show (next.data.drop room ++ payload incoming).length + (live incoming).length <
      (new (next :: incoming)).left.length + (live (next :: incoming)).length
    rw [less, live_cons goes, List.length_cons]
    omega

theorem served_end {next : NextMessage} (ends : next.isEnd = true)
    (incoming : List NextMessage) :
    Served (new (next :: incoming)) (.ready [], ⟨incoming, [], true⟩) := by
  refine .ends ?_ rfl rfl
  rw [left_new, payload, live, List.takeWhile_cons, ends]
  rfl

theorem served_pollNext {room : Nat} (positive : 0 < room) (incoming : List NextMessage) :
    Served (new incoming) (pollNext room incoming) := by
  induction incoming with
  | nil => exact .waits rfl id id fun closes => absurd (closes rfl) Bool.false_ne_true
  | cons next incoming ih =>
      cases next with
      | pending =>
          refine .waits ?_ (clean_of_cons rfl) (closes_of_cons rfl) fun _ => ?_
          · rw [left_new, left_new, payload_cons rfl]
            rfl
          · rw [weight_new, weight_new, payload_cons rfl, live_cons rfl]
            exact Nat.lt_succ_self _
      | failed error =>
          refine .fails fun clean => ?_
          have here : NextMessage.failed error ∈ live (.failed error :: incoming) := by
            rw [live_cons rfl]
            exact List.mem_cons_self ..
          exact Bool.noConfusion (clean rfl _ here)
      | ended => exact served_end rfl incoming
      | message message =>
          cases message with
          | binary data =>
              rw [pollNext]
              split
              · next empty => exact ih.behind rfl (List.isEmpty_iff.mp empty)
              · next full =>
                  exact @served_data (.message (.binary data)) rfl (Bool.not_eq_true _ ▸ full)
                    incoming room positive
          | text data =>
              rw [pollNext]
              split
              · next empty => exact ih.behind rfl (List.isEmpty_iff.mp empty)
              · next full =>
                  exact @served_data (.message (.text data)) rfl (Bool.not_eq_true _ ▸ full)
                    incoming room positive
          | close => exact served_end rfl incoming
          | ping data | pong data | frame data => exact ih.behind rfl rfl

theorem served_pollRead (reader : Reader) {room : Nat} (positive : 0 < room) :
    Served reader (reader.pollRead room) := by
  obtain ⟨incoming, readBuf, readEof⟩ := reader
  rw [pollRead]
  by_cases empty : readBuf.isEmpty = true
  · obtain rfl := List.isEmpty_iff.mp empty
    cases readEof with
    | true => exact .ends rfl rfl rfl
    | false => exact served_pollNext positive incoming
  · rw [Bool.not_eq_true] at empty
    simp only [empty, Bool.not_false, if_true]
    have nonempty := List.isEmpty_eq_false_iff.mp empty
    refine .gives ?_ ?_ (fun clean => clean) (fun closes => closes) ?_
    · rw [Ne, List.take_eq_nil_iff, not_or]
      exact ⟨Nat.ne_of_gt positive, nonempty⟩
    · rw [left, left, ← List.append_assoc, List.take_append_drop]
    · have short : (readBuf.drop room).length < readBuf.length := by
        have some_bytes := List.length_pos_iff.mpr nonempty
        rw [List.length_drop]
        omega
      rw [weight, weight, left, left, List.length_append, List.length_append]
      exact Nat.add_lt_add_right (Nat.add_lt_add_right short _) _

theorem delivers_of_eof {reader : Reader} (eof : reader.readEof = true)
    (nothing : reader.left = []) (rooms : List Nat) : Delivers [] (reader.answers rooms) := by
  have empty : reader.readBuf = [] := (List.append_eq_nil_iff.mp nothing).1
  induction rooms with
  | nil => exact .nil []
  | cons room rooms ih =>
      have same : reader.pollRead room = (.ready [], reader) := by
        rw [pollRead, empty, eof]
        rfl
      rw [answers, same]
      exact ih.end_of_stream

theorem delivers_answers {reader : Reader} (clean : reader.Clean) {rooms : List Nat}
    (positive : ∀ room ∈ rooms, 0 < room) : Delivers reader.left (reader.answers rooms) := by
  induction rooms generalizing reader with
  | nil => exact .nil _
  | cons room rooms ih =>
      obtain ⟨here, later⟩ := List.forall_mem_cons.mp positive
      have served := reader.served_pollRead here
      rw [answers]
      revert served
      generalize reader.pollRead room = out
      intro served
      cases served with
      | gives some_bytes whole clean' closes lighter =>
          rw [whole]
          exact .ready some_bytes (ih (clean' clean) later)
      | waits same clean' closes lighter =>
          rw [← same]
          exact .pending (ih (clean' clean) later)
      | fails unclean => exact absurd clean unclean
      | ends nothing done eof =>
          rw [nothing]
          exact .end_of_stream (delivers_of_eof eof done rooms)

theorem ends_answers {reader : Reader} (clean : reader.Clean) (closes : reader.Closes)
    {rooms : List Nat} (positive : ∀ room ∈ rooms, 0 < room)
    (enough : reader.weight < rooms.length) : .ready [] ∈ reader.answers rooms := by
  induction rooms generalizing reader with
  | nil => exact absurd enough (Nat.not_lt_zero _)
  | cons room rooms ih =>
      obtain ⟨here, later⟩ := List.forall_mem_cons.mp positive
      have served := reader.served_pollRead here
      rw [List.length_cons] at enough
      rw [answers]
      revert served
      generalize reader.pollRead room = out
      intro served
      cases served with
      | gives some_bytes whole clean' closes' lighter =>
          exact List.mem_cons_of_mem _ (ih (clean' clean) (closes' closes) later
            (Nat.lt_of_lt_of_le lighter (Nat.le_of_lt_succ enough)))
      | waits same clean' closes' lighter =>
          exact List.mem_cons_of_mem _ (ih (clean' clean) (closes' closes) later
            (Nat.lt_of_lt_of_le (lighter closes) (Nat.le_of_lt_succ enough)))
      | fails unclean => exact absurd clean unclean
      | ends nothing done eof => exact List.mem_cons_self ..

end Reader

/-- Whatever messages come, with waits anywhere between them, the reads of the stream
give the bytes of those before the close, and the end only behind all of them: no
empty message and no control message is taken for it.  A connection that is closed is
read to its end. -/
theorem reads_messages {incoming : List NextMessage}
    (clean : ∀ next ∈ live incoming, next.isFailed = false) {rooms : List Nat}
    (positive : ∀ room ∈ rooms, 0 < room) :
    Delivers (payload incoming) ((Reader.new incoming).answers rooms) ∧
      (incoming.any isEnd = true →
        (payload incoming).length + (live incoming).length < rooms.length →
          contents ((Reader.new incoming).answers rooms) = payload incoming) := by
  have delivers : Delivers (payload incoming) ((Reader.new incoming).answers rooms) :=
    @Reader.delivers_answers (Reader.new incoming) (fun _ => clean) rooms positive
  refine ⟨delivers, fun closes enough => ?_⟩
  have ended := @Reader.ends_answers (Reader.new incoming) (fun _ => clean) (fun _ => closes) rooms
    positive enough
  obtain ⟨before, after, same⟩ := List.append_of_mem ended
  have whole : contents before = payload incoming := delivers.whole before after same
  have front := delivers.front.length_le
  rw [same, contents_append, whole] at front ⊢
  rw [List.length_append] at front
  rw [List.length_eq_zero_iff.mp (show (contents (_ :: after)).length = 0 by omega),
    List.append_nil]

def exampleIncoming : List NextMessage :=
  [.message (.binary []), .message (.ping [1]), .message (.binary [7, 8]), .pending,
    .message (.text "a"), .message .close, .message (.binary [9])]

theorem reads_messages_example :
    (Reader.new exampleIncoming).answers [1, 1, 4, 4, 4, 4, 4, 4, 4] =
        [.ready [7], .ready [8], .pending, .ready [97], .ready [], .ready [], .ready [], .ready [],
          .ready []] ∧
      contents ((Reader.new exampleIncoming).answers [1, 1, 4, 4, 4, 4, 4, 4, 4]) =
        payload exampleIncoming :=
  ⟨by decide +kernel, (reads_messages (by decide +kernel) (by decide)).2 rfl (by decide +kernel)⟩

/-! A handshake and the bytes behind it, as messages. -/

namespace Writer

variable {State : Type} {ws : WebSocket State}

/-- What a write of one buffer does to the messages. -/
inductive Sends (wire : Wire (Writer State)) (buf : Bytes) :
    Poll (Except String Nat) × Wire (Writer State) → Prop
  | kept {result : Poll (Except String Nat)} {after : Wire (Writer State)}
      (unanswered : ∀ count, result ≠ .ready (.ok count))
      (sent : after.state.sent = wire.state.sent)
      (spoiled : after.state.spoiled = wire.state.spoiled) : Sends wire buf (result, after)
  | took {count : Nat} {after : Wire (Writer State)} (whole : count = buf.length)
      (sent : after.state.sent = wire.state.sent ++ [buf])
      (spoiled : after.state.spoiled = wire.state.spoiled) :
      Sends wire buf (.ready (.ok count), after)
  | broke {error : String} {after : Wire (Writer State)} (spoiled : after.state.spoiled = true) :
      Sends wire buf (.ready (.error error), after)

theorem sends_pollWrite (wire : Wire (Writer State)) (buf : Bytes) :
    Sends wire buf (wire.pollWrite (asyncWrite ws) buf) := by
  show Sends wire buf (wire.record buf (wire.state.pollWrite ws buf))
  rw [pollWrite]
  split
  · exact .kept nofun rfl rfl
  · exact .kept nofun rfl rfl
  · split
    · exact .kept nofun rfl rfl
    · dsimp only
      split
      · exact .took rfl rfl rfl
      · exact .broke rfl
      · exact .broke rfl
      · exact .took rfl rfl rfl

theorem sends_pollWriteVectored (wire : Wire (Writer State)) (bufs : List Bytes) :
    Sends wire (firstBuf bufs) (wire.pollWriteVectored (asyncWrite ws) bufs) := by
  have sends := @sends_pollWrite State ws wire (firstBuf bufs)
  show Sends wire (firstBuf bufs)
    (wire.record bufs.flatten (wire.state.pollWriteVectored ws bufs))
  have same : wire.pollWrite (asyncWrite ws) (firstBuf bufs) =
      wire.record (firstBuf bufs) (wire.state.pollWrite ws (firstBuf bufs)) := rfl
  rw [same] at sends
  rw [pollWriteVectored]
  revert sends
  rcases wire.state.pollWrite ws (firstBuf bufs) with ⟨_ | error | count, writer⟩ <;> intro sends
  · cases sends with
    | kept unanswered sent spoiled => exact .kept nofun sent spoiled
  · cases sends with
    | kept unanswered sent spoiled => exact .kept nofun sent spoiled
    | broke spoiled => exact .broke spoiled
  · cases sends with
    | kept unanswered sent spoiled => exact absurd rfl (unanswered _)
    | took whole sent spoiled => exact .took whole sent spoiled

variable {request accepted : Bytes} {lazy : LazyHandshakeStream (Writer State)}

/-- Unless a message was reported as failed, the request is the first of them, and
those behind it carry what is reported as accepted. -/
def Messages (request : Bytes) (lazy : LazyHandshakeStream (Writer State)) (accepted : Bytes) :
    Prop :=
  lazy.stream.state.spoiled = false →
    lazy.handshake = some request ∧ lazy.stream.state.sent = [] ∧ accepted = [] ∨
      lazy.handshake = none ∧
        ∃ rest, lazy.stream.state.sent = request :: rest ∧ rest.flatten = accepted

theorem messages_of_sends {wire : Wire (Writer State)} {buf : Bytes} {reads : List PollRead}
    {rest : List Bytes} {out : Poll (Except String Nat) × Wire (Writer State)}
    (sends : Sends wire buf out) (sent : wire.state.sent = request :: rest) :
    Messages request ⟨out.2, reads, none⟩ (rest.flatten ++ buf.take (reported out.1)) := by
  intro sound
  refine .inr ⟨rfl, ?_⟩
  cases sends with
  | @kept result after unanswered same spoiled =>
      have nothing : reported result = 0 := by
        match result with
        | .pending | .ready (.error error) => rfl
        | .ready (.ok count) => exact absurd rfl (unanswered count)
      refine ⟨rest, same.trans sent, ?_⟩
      rw [nothing, List.take_zero, List.append_nil]
  | took whole more spoiled =>
      refine ⟨rest ++ [buf], more.trans (by rw [sent]; rfl), ?_⟩
      rw [List.flatten_append, List.flatten_singleton]
      exact congrArg _ (List.take_of_length_le (Nat.le_of_eq whole.symm)).symm
  | broke spoiled =>
      rw [spoiled] at sound
      cases sound

theorem spoiled_of_sends {wire : Wire (Writer State)} {buf : Bytes}
    {out : Poll (Except String Nat) × Wire (Writer State)} (sends : Sends wire buf out)
    (sound : out.2.state.spoiled = false) : wire.state.spoiled = false := by
  cases sends with
  | kept unanswered same spoiled => exact spoiled.symm.trans sound
  | took whole more spoiled => exact spoiled.symm.trans sound
  | broke spoiled =>
      rw [spoiled] at sound
      cases sound

theorem messages_pollWrite (some_bytes : request ≠ []) (messages : Messages request lazy accepted)
    (buf : Bytes) :
    Messages request (lazy.pollWrite (asyncWrite ws) buf).2
      (accepted ++ buf.take (reported (lazy.pollWrite (asyncWrite ws) buf).1)) := by
  obtain ⟨stream, reads, handshake⟩ := lazy
  cases handshake with
  | none =>
      have sends := @sends_pollWrite State ws stream buf
      intro sound
      obtain ⟨absent, -⟩ | ⟨-, rest, sent, rfl⟩ := messages (spoiled_of_sends sends sound)
      · cases absent
      · exact messages_of_sends sends sent sound
  | some handshakeData =>
      have sends := @sends_pollWriteVectored State ws stream [handshakeData, buf]
      simp only [LazyHandshakeStream.pollWrite]
      revert sends
      rcases stream.pollWriteVectored (asyncWrite ws) [handshakeData, buf] with
        ⟨_ | error | count, after⟩ <;> intro sends
      · intro sound
        obtain ⟨same, sent, rfl⟩ | ⟨absent, -⟩ := messages (spoiled_of_sends sends sound)
        · cases sends with
          | kept unanswered kept spoiled => exact .inl ⟨same, kept.trans sent, rfl⟩
        · cases absent
      · intro sound
        obtain ⟨same, sent, rfl⟩ | ⟨absent, -⟩ := messages (spoiled_of_sends sends sound)
        · cases sends with
          | kept unanswered kept spoiled => exact .inl ⟨same, kept.trans sent, rfl⟩
          | broke spoiled =>
              have spoilt : true = false := spoiled.symm.trans sound
              cases spoilt
        · cases absent
      · cases sends with
        | kept unanswered same spoiled => exact absurd rfl (unanswered _)
        | took whole more spoiled =>
            have known (sound : after.state.spoiled = false) : handshakeData = request ∧
                after.state.sent = [request] ∧ accepted = [] ∧ count = request.length := by
              obtain ⟨same, sent, rfl⟩ | ⟨absent, -⟩ := messages (spoiled.symm.trans sound)
              · obtain rfl := Option.some.inj same
                have first : firstBuf [handshakeData, buf] = handshakeData := by
                  cases handshakeData with
                  | nil => exact absurd rfl some_bytes
                  | cons byte bytes => rfl
                rw [first] at whole more
                have empty : stream.state.sent = [] := sent
                exact ⟨rfl, more.trans (by rw [empty]; rfl), rfl, whole⟩
              · cases absent
            have positive := List.length_pos_iff.mpr some_bytes
            dsimp only
            split
            · next nothing =>
                intro sound
                obtain ⟨-, -, -, length⟩ := known sound
                omega
            split
            · split
              · have sends := @sends_pollWrite State ws after buf
                intro sound
                obtain ⟨-, sent, rfl, -⟩ := known (spoiled_of_sends sends sound)
                exact messages_of_sends sends sent sound
              · next more' =>
                  intro sound
                  obtain ⟨rfl, sent, rfl, length⟩ := known sound
                  have nothing : buf = [] := by
                    by_contra some_more
                    exact more' ⟨by omega, some_more⟩
                  refine .inr ⟨rfl, [], sent, ?_⟩
                  rw [nothing, List.take_nil]
                  rfl
            · next short =>
                intro sound
                obtain ⟨rfl, -, -, length⟩ := known sound
                omega

theorem messages_poll (some_bytes : request ≠ []) (messages : Messages request lazy accepted)
    (call : PollCall) :
    Messages request (lazy.poll (asyncWrite ws) call).2
      (accepted ++ (lazy.poll (asyncWrite ws) call).1.taken call) := by
  cases call with
  | write buf => exact messages_pollWrite some_bytes messages buf
  | flush | read room =>
      rw [show PollAnswer.taken _ _ = [] from rfl, List.append_nil]
      exact messages
  | shutdown =>
      rw [show PollAnswer.taken _ _ = [] from rfl, List.append_nil]
      have same : (lazy.stream.pollShutdown (asyncWrite ws)).2.state.spoiled =
            lazy.stream.state.spoiled ∧
          (lazy.stream.pollShutdown (asyncWrite ws)).2.state.sent = lazy.stream.state.sent := by
        have state : (lazy.stream.pollShutdown (asyncWrite ws)).2.state =
            (lazy.stream.state.pollShutdown ws).2 := by
          unfold Wire.pollShutdown
          split
          · next closed => exact (congrArg Prod.snd closed).symm
          · next other closed => exact (congrArg Prod.snd closed).symm
        rw [state]
        exact ⟨rfl, rfl⟩
      intro sound
      have before := messages (same.1.symm.trans sound)
      rw [← same.2] at before
      exact before

end Writer

/-- A Trojan stream over a WebSocket connection, polled in any order and whatever the
socket answers: its request is the first message, and those behind it carry exactly
the bytes that are reported as accepted, until a write fails whose message was taken. -/
theorem trojan_messages {State : Type} (ws : WebSocket State) (state : State)
    (reads : List PollRead) (passwordHash : Bytes) (target : TargetAddr) (calls : List PollCall) :
    Machine.Throughout (Polled.step (LazyHandshakeStream.poll (asyncWrite ws)))
      (fun polled =>
        polled.adapter.stream.state.spoiled = false →
          polled.adapter.stream.state.sent = [] ∧ polled.accepted = [] ∨
            ∃ rest, polled.adapter.stream.state.sent =
                Trojan.generateHandshake passwordHash target false :: rest ∧
              rest.flatten = polled.accepted)
      (Polled.start (LazyHandshakeStream.new (.opened (Writer.new state)) reads
        (Trojan.generateHandshake passwordHash target false))) calls := by
  have some_bytes : Trojan.generateHandshake passwordHash target false ≠ [] := by
    rw [Trojan.generateHandshake]
    exact List.append_ne_nil_of_right_ne_nil _ (by decide)
  have known : Machine.Throughout (Polled.step (LazyHandshakeStream.poll (asyncWrite ws)))
      (fun polled => Writer.Messages (Trojan.generateHandshake passwordHash target false)
        polled.adapter polled.accepted)
      (Polled.start (LazyHandshakeStream.new (.opened (Writer.new state)) reads
        (Trojan.generateHandshake passwordHash target false))) calls := by
    refine Machine.throughout_of_invariant _ ?_ fun _ => .inl ⟨rfl, rfl, rfl⟩
    intro polled call next messages taken
    rw [Polled.step_cases taken]
    exact Writer.messages_poll some_bytes messages call
  refine Machine.throughout_mono ?_ known
  intro polled messages sound
  exact (messages sound).imp (fun before => before.2) fun behind => behind.2

end WsByteStream

end QuicProxy
