import QuicProxy.Data.Segments
import QuicProxy.Proxy.Hysteria2.TcpResponse

namespace QuicProxy

/-! What the reads of a Hysteria2 TCP connection give, however the bytes of the
server are cut (`src/proxy/outbound/hysteria2/mod.rs`). -/

namespace Hysteria2

namespace TcpResponse

/-- An error comes once, and nothing comes before it. -/
inductive Refuses (error : String) : List PollRead → Prop
  | nothing : Refuses error []
  | waits {answers : List PollRead} (rest : Refuses error answers) :
      Refuses error (.pending :: answers)
  | raises {answers : List PollRead} (once : ∀ other, .failed other ∉ answers) :
      Refuses error (.failed error :: answers)

theorem Refuses.error_eq {error other : String} {answers : List PollRead}
    (refuses : Refuses error (.failed other :: answers)) : other = error := by
  cases refuses
  rfl

/-- Nothing but errors comes. -/
def Fails (answers : List PollRead) : Prop :=
  ∀ read ∈ answers, read = .pending ∨ ∃ error, read = .failed error

/-- What the polls of a connection are to give when these are the bytes of the
server, and what has come of it after `enough` polls. -/
def Expected (bytes : Bytes) (answers : List PollRead) (enough : Prop) : Prop :=
  match read bytes with
  | none => Fails answers ∧ (enough → ∃ error, .failed error ∈ answers)
  | some ⟨status, message, payload⟩ =>
      if status = 0 then Delivers payload answers ∧ (enough → .ready [] ∈ answers)
      else
        Refuses (Hy2TcpStream.remoteErrorText (fromUtf8Lossy message)) answers ∧
          (enough → .failed (Hy2TcpStream.remoteErrorText (fromUtf8Lossy message)) ∈ answers)

end TcpResponse

open TcpResponse ResponseReader

namespace Hy2TcpStream

/-! One call of `poll_response`. -/

inductive Answered (reader : ResponseReader) (cut : List PollRead) (ends : Nat) :
    Poll (Except String Unit) × ResponseReader × List PollRead → Prop
  | waits {more : Bytes} {rest : List PollRead} {after : ResponseReader}
      (passes : Passes cut more (.pending :: rest))
      (parsed : (reader.grow more).parseStep = (.ok false, after)) :
      Answered reader cut ends (.pending, after, ended rest (ends + 1))
  | done {more : Bytes} {rest : List PollRead} {after : ResponseReader}
      (passes : Passes cut more rest)
      (parsed : (reader.grow more).parseStep = (.ok true, after)) :
      Answered reader cut ends (.ready (.ok ()), after, ended rest (ends + 1))
  | breaks {more : Bytes} {rest : List PollRead} {after : ResponseReader} {error : String}
      (passes : Passes cut more rest)
      (parsed : (reader.grow more).parseStep = (.error error, after)) :
      Answered reader cut ends (.ready (.error error), after, ended rest (ends + 1))
  | ends {more : Bytes} {after : ResponseReader} (passes : Passes cut more [])
      (parsed : (reader.grow more).parseStep = (.ok false, after)) :
      Answered reader cut ends
        (.ready (.error "hy2 stream closed before TCP response"), after, ended [] ends)

theorem Answered.behind {reader : ResponseReader} {cut between : List PollRead} {ends : Nat}
    {first : Bytes} {out : Poll (Except String Unit) × ResponseReader × List PollRead}
    (passes : Passes cut first between)
    (rest : Answered (reader.parseStep.2.grow first) between ends out) :
    Answered reader cut ends out := by
  have joined (second : Bytes) : (reader.grow (first ++ second)).parseStep =
      ((reader.parseStep.2.grow first).grow second).parseStep := by
    rw [parseStep_grow, grow_append]
  cases rest with
  | waits later parsed => exact .waits (passes.trans later) ((joined _).trans parsed)
  | done later parsed => exact .done (passes.trans later) ((joined _).trans parsed)
  | breaks later parsed => exact .breaks (passes.trans later) ((joined _).trans parsed)
  | ends later parsed => exact .ends (passes.trans later) ((joined _).trans parsed)

theorem answered (reader : ResponseReader) {cut : List PollRead} (isCut : IsCut cut)
    (ends : Nat) : Answered reader cut ends (pollResponse reader (ended cut (ends + 1))) := by
  generalize incoming : ended cut (ends + 1) = recv
  fun_induction pollResponse reader recv generalizing cut with
  | case1 reader recv after parsed =>
      subst incoming
      exact .done (.nothing isCut) (by rw [grow_nil, parsed])
  | case2 reader recv after parsed rest read =>
      subst incoming
      have taken := cutRead (by decide : 0 < 2048) isCut ends
      rw [read] at taken
      cases taken with
      | gives some_bytes => exact absurd rfl some_bytes
      | ends same =>
          subst same
          exact .ends (.nothing isCut) (by rw [grow_nil, parsed])
  | case3 reader recv after parsed byte bytes rest read ih =>
      subst incoming
      have taken := cutRead (by decide : 0 < 2048) isCut ends
      rw [read] at taken
      cases taken with
      | gives some_bytes passes =>
          have later := ih passes.isCut rfl
          refine .behind passes ?_
          rw [parsed]
          exact later
  | case4 reader recv after parsed error rest read =>
      subst incoming
      have taken := cutRead (by decide : 0 < 2048) isCut ends
      rw [read] at taken
      cases taken
  | case5 reader recv after parsed rest read =>
      subst incoming
      have taken := cutRead (by decide : 0 < 2048) isCut ends
      rw [read] at taken
      cases taken with
      | waits same =>
          subst same
          exact .waits (.nothing isCut) (by rw [grow_nil, parsed])
  | case6 reader recv error after parsed =>
      subst incoming
      exact .breaks (.nothing isCut) (by rw [grow_nil, parsed])

/-- One call of `poll_response` where the bytes make a whole response. -/
inductive Completes (final reader : ResponseReader) (cut : List PollRead) (ends : Nat) :
    Poll (Except String Unit) × ResponseReader × List PollRead → Prop
  | waits {more : Bytes} {rest : List PollRead} {after : ResponseReader}
      (passes : Passes cut more (.pending :: rest))
      (parsed : (reader.grow more).parseStep = (.ok false, after))
      (whole : (after.grow (contents rest)).parseStep = (.ok true, final)) :
      Completes final reader cut ends (.pending, after, ended rest (ends + 1))
  | done {more : Bytes} {rest : List PollRead} {after : ResponseReader}
      (passes : Passes cut more rest)
      (parsed : (reader.grow more).parseStep = (.ok true, after))
      (same : after.grow (contents rest) = final) :
      Completes final reader cut ends (.ready (.ok ()), after, ended rest (ends + 1))

theorem completes {reader final : ResponseReader} {cut : List PollRead} (isCut : IsCut cut)
    (ends : Nat) (whole : (reader.grow (contents cut)).parseStep = (.ok true, final)) :
    Completes final reader cut ends (pollResponse reader (ended cut (ends + 1))) := by
  have front {more : Bytes} {rest : List PollRead} (passes : Passes cut more rest) :
      Toward final (contents rest) (reader.grow more).parseStep :=
    toward (passes.contents ▸ whole)
  have read := answered reader isCut ends
  revert read
  generalize pollResponse reader (ended cut (ends + 1)) = out
  intro read
  cases read with
  | waits passes parsed =>
      have toward := front passes
      rw [parsed] at toward
      cases toward with
      | waits whole => exact .waits passes parsed whole
  | done passes parsed =>
      have toward := front passes
      rw [parsed] at toward
      cases toward with
      | done same => exact .done passes parsed same
  | breaks passes parsed =>
      have toward := front passes
      rw [parsed] at toward
      cases toward
  | ends passes parsed =>
      have toward := front passes
      rw [parsed] at toward
      cases toward with
      | waits whole some_bytes => exact absurd rfl some_bytes

variable {State : Type} {stream : Hy2TcpStream State} {cut : List PollRead} {ends : Nat}
  {payload : Bytes}

/-- What polls of the connection give, each with its room. -/
def answers (stream : Hy2TcpStream State) : List Nat → List PollRead
  | [] => []
  | room :: rooms => (stream.pollRead room).1 :: (stream.pollRead room).2.answers rooms

theorem pollRead_of_clean (clean : stream.response.remoteError = none)
    (begun : stream.response.step ≠ .done) (room : Nat) : stream.pollRead room =
      match pollResponse stream.response stream.recv with
      | (.pending, response, recv) => (.pending, { stream with response, recv })
      | (.ready (.error error), response, recv) => (.failed error, { stream with response, recv })
      | (.ready (.ok ()), response, recv) =>
          match response.remoteError with
          | some message =>
              (.failed (remoteErrorText message),
                { stream with response := response.cleared, recv })
          | none => { stream with response, recv }.readPayload room := by
  have open_still : stream.response.isDone = false := decide_eq_false begun
  unfold pollRead
  rw [clean, open_still]
  rfl

theorem pollRead_of_done (clean : stream.response.remoteError = none)
    (done : stream.response.step = .done) (room : Nat) :
    stream.pollRead room = stream.readPayload room := by
  have finished : stream.response.isDone = true := decide_eq_true done
  unfold pollRead
  rw [clean, finished]
  rfl

theorem pollRead_of_remoteError {message : String}
    (raised : stream.response.remoteError = some message) (room : Nat) :
    stream.pollRead room =
      (.failed (remoteErrorText message), { stream with response := stream.response.cleared }) := by
  unfold pollRead
  rw [raised]
  rfl

/-! Polls that have only the payload left to give. -/

structure Owes (payload : Bytes) (stream : Hy2TcpStream State) (cut : List PollRead)
    (ends : Nat) : Prop where
  recv : stream.recv = ended cut ends
  isCut : IsCut cut
  clean : stream.response.remoteError = none
  whole : (stream.response.grow (contents cut)).parseStep = (.ok true, ⟨payload, .done, none⟩)

theorem owes_of_done {buf : Bytes} (recv : stream.recv = ended cut ends) (isCut : IsCut cut)
    (response : stream.response = ⟨buf, .done, none⟩) :
    Owes (buf ++ contents cut) stream cut ends where
  recv := recv
  isCut := isCut
  clean := by rw [response]
  whole := by
    rw [response]
    exact parseStep_of_done rfl

theorem owes_of_empty (recv : stream.recv = ended cut ends) (isCut : IsCut cut)
    (response : stream.response = ⟨[], .done, none⟩) : Owes (contents cut) stream cut ends :=
  owes_of_done recv isCut response

/-- What one poll gives of the payload. -/
inductive Paid (payload : Bytes) (cut : List PollRead) (ends : Nat) :
    PollRead × Hy2TcpStream State → Prop
  | waits {after : Hy2TcpStream State} {rest : List PollRead}
      (owes : Owes payload after rest (ends + 1)) (less : weight rest < weight cut) :
      Paid payload cut ends (.pending, after)
  | gives {after : Hy2TcpStream State} {rest : List PollRead} {bytes left : Bytes} {later : Nat}
      (some_bytes : bytes ≠ []) (same : payload = bytes ++ left)
      (owes : Owes left after rest later) (enough : ends ≤ later)
      (no_more : weight rest ≤ weight cut) : Paid payload cut ends (.ready bytes, after)
  | ends {after : Hy2TcpStream State} (nothing : payload = []) (owes : Owes [] after [] ends) :
      Paid payload cut ends (.ready [], after)

theorem Paid.mono {longer : List PollRead} {out : PollRead × Hy2TcpStream State}
    (paid : Paid payload cut ends out) (le : weight cut ≤ weight longer) :
    Paid payload longer ends out := by
  cases paid with
  | waits owes less => exact .waits owes (Nat.lt_of_lt_of_le less le)
  | gives some_bytes same owes enough no_more =>
      exact .gives some_bytes same owes enough (Nat.le_trans no_more le)
  | ends nothing owes => exact .ends nothing owes

theorem paid_readPayload {room : Nat} (positive : 0 < room) {buf : Bytes}
    (recv : stream.recv = ended cut (ends + 1)) (isCut : IsCut cut)
    (response : stream.response = ⟨buf, .done, none⟩) :
    Paid (buf ++ contents cut) cut ends (stream.readPayload room) := by
  unfold readPayload
  rw [response, recv]
  dsimp only
  by_cases full : room - (buf.take room).length = 0
  · rw [if_pos full]
    have some_bytes : buf.take room ≠ [] := by
      refine List.ne_nil_of_length_pos ?_
      omega
    refine .gives some_bytes ?_ (owes_of_done rfl isCut rfl) (Nat.le_succ _) (Nat.le_refl _)
    rw [← List.append_assoc, List.take_append_drop]
  · rw [if_neg full]
    have fits : buf.length ≤ room := by
      rw [List.length_take] at full
      omega
    rw [List.take_of_length_le fits] at full ⊢
    rw [List.drop_eq_nil_of_le fits]
    have read := cutRead (Nat.pos_of_ne_zero full) isCut ends
    revert read
    generalize QuicProxy.pollRead (room - buf.length) (ended cut (ends + 1)) = out
    intro read
    cases read with
    | @waits rest same =>
        subst same
        obtain ⟨-, later⟩ := List.forall_mem_cons.mp isCut
        have less : weight rest < weight (.pending :: rest) := by
          change weight rest < 1 + weight rest
          omega
        have left {after : Hy2TcpStream State} (recv : after.recv = ended rest (ends + 1))
            (response : after.response = ⟨[], .done, none⟩) :
            Owes (contents rest) after rest (ends + 1) :=
          owes_of_empty recv later response
        dsimp only
        split
        · next some_bytes =>
            exact .gives some_bytes rfl (left rfl rfl) (Nat.le_succ _)
              (Nat.le_of_lt less)
        · next nothing =>
            have empty := Decidable.not_not.mp nothing
            subst empty
            exact .waits (left rfl rfl) less
    | @gives more rest some_bytes passes =>
        refine .gives (List.append_ne_nil_of_right_ne_nil _ some_bytes) ?_
          (owes_of_empty rfl passes.isCut rfl) (Nat.le_succ _)
          (Nat.le_trans (Nat.le_add_right _ _) passes.weight)
        rw [passes.contents, List.append_assoc]
    | ends same =>
        subst same
        dsimp only
        rw [List.append_nil]
        by_cases empty : buf = []
        · subst empty
          exact .ends rfl (owes_of_empty rfl isCut rfl)
        · exact .gives empty rfl (owes_of_empty rfl isCut rfl) (Nat.le_refl _) (Nat.le_refl _)

theorem Owes.poll (owes : Owes payload stream cut (ends + 1)) {room : Nat}
    (positive : 0 < room) : Paid payload cut ends (stream.pollRead room) := by
  by_cases done : stream.response.step = .done
  · rw [pollRead_of_done owes.clean done]
    have clean := owes.clean
    have whole := owes.whole
    rcases response : stream.response with ⟨buf, step, remoteError⟩
    rw [response] at done clean whole
    subst done clean
    rw [parseStep_of_done rfl] at whole
    cases whole
    exact paid_readPayload positive owes.recv owes.isCut response
  · rw [pollRead_of_clean owes.clean done, owes.recv]
    have read := completes owes.isCut ends owes.whole
    revert read
    generalize pollResponse stream.response (ended cut (ends + 1)) = out
    intro read
    cases read with
    | @waits more rest after passes parsed whole =>
        refine .waits ⟨rfl, passes.isCut_rest, ?_, whole⟩ passes.weight_rest
        exact remoteError_of_parseStep (after.grow _) (by rw [whole])
    | @done more rest after passes parsed same =>
        obtain ⟨buf, step, remoteError⟩ := after
        cases same
        have lighter := passes.weight
        exact (paid_readPayload positive rfl passes.isCut rfl).mono (by omega)

theorem delivers_of_owes (owes : Owes payload stream cut ends) {rooms : List Nat}
    (positive : ∀ room ∈ rooms, 0 < room) (few : rooms.length ≤ ends) :
    Delivers payload (stream.answers rooms) ∧
      (weight cut + payload.length < rooms.length → .ready [] ∈ stream.answers rooms) := by
  induction rooms generalizing payload stream cut ends with
  | nil => exact ⟨.nil payload, fun enough => absurd enough (Nat.not_lt_zero _)⟩
  | cons room rooms ih =>
      obtain ⟨here, later⟩ := List.forall_mem_cons.mp positive
      rw [List.length_cons] at few ⊢
      cases ends with
      | zero => exact absurd few (Nat.not_succ_le_zero _)
      | succ ends =>
          rw [answers]
          have paid := owes.poll here
          revert paid
          generalize stream.pollRead room = out
          intro paid
          cases paid with
          | waits rest less =>
              obtain ⟨delivers, ends⟩ := ih rest later (by omega)
              exact ⟨delivers.pending, fun enough => List.mem_cons_of_mem _ (ends (by omega))⟩
          | gives some_bytes same rest more no_more =>
              subst same
              obtain ⟨delivers, ends⟩ := ih rest later (by omega)
              have positive := List.length_pos_iff.mpr some_bytes
              refine ⟨delivers.ready some_bytes, fun enough => List.mem_cons_of_mem _ (ends ?_)⟩
              rw [List.length_append] at enough
              omega
          | ends nothing rest =>
              subst nothing
              obtain ⟨delivers, -⟩ := ih rest later (by omega)
              exact ⟨delivers.end_of_stream, fun _ => List.mem_cons_self ..⟩

/-! Polls of a response that is too long or does not come to its end. -/

structure Broken (stream : Hy2TcpStream State) (cut : List PollRead) (ends : Nat) : Prop where
  recv : stream.recv = ended cut ends
  isCut : IsCut cut
  early : stream.response.step = .status → stream.response.remoteError = none
  never : (stream.response.grow (contents cut)).parseStep.1 ≠ .ok true

inductive Broke (cut : List PollRead) (ends : Nat) : PollRead × Hy2TcpStream State → Prop
  | waits {after : Hy2TcpStream State} {rest : List PollRead}
      (broken : Broken after rest (ends + 1)) (less : weight rest < weight cut) :
      Broke cut ends (.pending, after)
  | fails {after : Hy2TcpStream State} {rest : List PollRead} {error : String} {later : Nat}
      (broken : Broken after rest later) (enough : ends ≤ later) :
      Broke cut ends (.failed error, after)

theorem Broken.poll (broken : Broken stream cut (ends + 1)) (room : Nat) :
    Broke cut ends (stream.pollRead room) := by
  cases raised : stream.response.remoteError with
  | some message =>
      rw [pollRead_of_remoteError raised]
      have later : stream.response.step ≠ .status := fun early => by
        cases (broken.early early).symm.trans raised
      refine .fails ⟨broken.recv, broken.isCut, fun _ => rfl, ?_⟩ (Nat.le_succ _)
      change (stream.response.grow (contents cut)).cleared.parseStep.1 ≠ _
      rw [parseStep_cleared (stream.response.grow (contents cut)) later]
      exact broken.never
  | none =>
      have not_done : stream.response.step ≠ .done := fun done => by
        refine broken.never ?_
        rw [parseStep_of_done]
        unfold turn grow
        rw [done]
      rw [pollRead_of_clean raised not_done, broken.recv]
      -- The reader that a poll leaves gets no further with what is left.
      have onward {more : Bytes} {rest : List PollRead} (passes : Passes cut more rest) :
          ((stream.response.grow more).parseStep.2.grow (contents rest)).parseStep.1 ≠
            .ok true := by
        rw [← parseStep_grow, ← grow_append, ← passes.contents]
        exact broken.never
      have early {more : Bytes} : (stream.response.grow more).parseStep.2.step = .status →
          (stream.response.grow more).parseStep.2.remoteError = none :=
        remoteError_parseStep_of_status broken.early
      have read := answered stream.response broken.isCut ends
      revert read
      generalize pollResponse stream.response (ended cut (ends + 1)) = out
      intro read
      cases read with
      | @waits more rest after passes parsed =>
          have never := onward passes
          have early := @early more
          rw [parsed] at never early
          exact .waits ⟨rfl, passes.isCut_rest, early, never⟩ passes.weight_rest
      | @done more rest after passes parsed =>
          refine absurd ?_ broken.never
          have settled : (stream.response.grow more).parseStep.1 ≠ .ok false := by
            rw [parsed]
            rintro ⟨⟩
          rw [passes.contents, grow_append, parseStep_settled _ _ settled, parsed]
      | @breaks more rest after error passes parsed =>
          have never := onward passes
          have early := @early more
          rw [parsed] at never early
          exact .fails ⟨rfl, passes.isCut, early, never⟩ (Nat.le_succ _)
      | @ends more after passes parsed =>
          have never := onward passes
          have early := @early more
          rw [parsed] at never early
          exact .fails ⟨rfl, passes.isCut, early, never⟩ (Nat.le_refl _)

theorem fails_of_broken (broken : Broken stream cut ends) {rooms : List Nat}
    (few : rooms.length ≤ ends) : Fails (stream.answers rooms) ∧
      (weight cut < rooms.length → ∃ error, .failed error ∈ stream.answers rooms) := by
  induction rooms generalizing stream cut ends with
  | nil => exact ⟨fun read member => absurd member List.not_mem_nil, fun enough =>
      absurd enough (Nat.not_lt_zero _)⟩
  | cons room rooms ih =>
      rw [List.length_cons] at few ⊢
      cases ends with
      | zero => exact absurd few (Nat.not_succ_le_zero _)
      | succ ends =>
          rw [answers]
          have broke := broken.poll room
          revert broke
          generalize stream.pollRead room = out
          intro broke
          cases broke with
          | waits rest less =>
              obtain ⟨fails, ends⟩ := ih rest (by omega)
              refine ⟨List.forall_mem_cons.mpr ⟨.inl rfl, fails⟩, fun enough => ?_⟩
              obtain ⟨error, member⟩ := ends (by omega)
              exact ⟨error, List.mem_cons_of_mem _ member⟩
          | fails rest enough =>
              obtain ⟨fails, -⟩ := ih rest (by omega)
              exact ⟨List.forall_mem_cons.mpr ⟨.inr ⟨_, rfl⟩, fails⟩,
                fun _ => ⟨_, List.mem_cons_self ..⟩⟩

/-! Polls of a response that refuses the request. -/

/-- Where the server may keep the reader waiting: the reader holds no error yet, or
the whole message. -/
def Settled (before : Bytes) : Prop := before = [] ∨ (TcpResponse.head before).isSome

theorem settled_append {before : Bytes} (found : (TcpResponse.head before).isSome)
    (more : Bytes) : Settled (before ++ more) := by
  obtain ⟨begun, here⟩ := Option.isSome_iff_exists.mp found
  refine .inr ?_
  rw [head_append here more]
  rfl

/-- The reader has taken `before` off a refusal and has not come to its end. -/
structure Refusing (response : TcpResponse) (before : Bytes) (stream : Hy2TcpStream State)
    (cut : List PollRead) (ends : Nat) : Prop where
  recv : stream.recv = ended cut ends
  isCut : IsCut cut
  refused : response.status ≠ 0
  found : TcpResponse.read (before ++ contents cut) = some response
  parsed : (ResponseReader.start before).parseStep = (.ok false, stream.response)

variable {response : TcpResponse} {before : Bytes}

theorem Refusing.whole (refusing : Refusing response before stream cut ends) :
    (stream.response.grow (contents cut)).parseStep =
      (.ok true, ⟨response.payload, .done, some (fromUtf8Lossy response.message)⟩) := by
  have all := parseStep_read refusing.found
  rw [noted, if_neg refusing.refused] at all
  have same := parseStep_grow (ResponseReader.start before) (contents cut)
  rw [refusing.parsed] at same
  exact same.symm.trans all

/-- The error that is held is the message once that is there, and empty before. -/
theorem Refusing.raised (refusing : Refusing response before stream cut ends) {message : String}
    (raised : stream.response.remoteError = some message) :
    ((TcpResponse.head before).isSome ∧ message = fromUtf8Lossy response.message) ∨
      (¬Settled before ∧ message = "") := by
  have held : (ResponseReader.start before).parseStep.2.remoteError = some message := by
    rw [refusing.parsed, raised]
  cases here : TcpResponse.head before with
  | some begun =>
      obtain ⟨status, same⟩ := head_agrees refusing.found here
      rw [remoteError_head here, noted, status, same, if_neg refusing.refused] at held
      cases held
      exact .inl ⟨rfl, rfl⟩
  | none =>
      cases before with
      | nil =>
          rw [parseStep_of_more rfl] at held
          cases held
      | cons status rest =>
          rw [remoteError_of_not_head here] at held
          split at held
          · cases held
            refine .inr ⟨?_, rfl⟩
            rintro (empty | found)
            · cases empty
            · rw [here] at found
              cases found
          · cases held

theorem Refusing.step_ne_status (refusing : Refusing response before stream cut ends)
    {message : String} (raised : stream.response.remoteError = some message) :
    stream.response.step ≠ .status := by
  intro back
  have early : (ResponseReader.start before).parseStep.2.step = .status →
      (ResponseReader.start before).parseStep.2.remoteError = none :=
    remoteError_parseStep_of_status fun _ => rfl
  rw [refusing.parsed, raised] at early
  cases early back

theorem Refusing.unsettled (refusing : Refusing response before stream cut ends)
    (early : ¬Settled before) : stream.response.remoteError = some "" := by
  have missing : TcpResponse.head before = none := by
    cases here : TcpResponse.head before with
    | none => rfl
    | some begun => exact absurd (.inr (by rw [here]; rfl)) early
  cases before with
  | nil => exact absurd (.inl rfl) early
  | cons status rest =>
      have held := remoteError_of_not_head missing
      have same : response.status = status := by
        obtain ⟨left, found⟩ := TcpResponse.head_of_read refusing.found
        rw [List.cons_append, TcpResponse.head] at found
        split at found <;> cases found
        rfl
      rw [refusing.parsed, ← same, if_pos refusing.refused] at held
      exact held

/-- What one poll gives of a refusal. -/
inductive Held (response : TcpResponse) (before : Bytes) (cut : List PollRead) (ends : Nat) :
    PollRead × Hy2TcpStream State → Prop
  | waits {after : Hy2TcpStream State} {more : Bytes} {rest : List PollRead}
      (passes : Passes cut more (.pending :: rest))
      (refusing : Refusing response (before ++ more) after rest (ends + 1)) :
      Held response before cut ends (.pending, after)
  | raises {after : Hy2TcpStream State} {rest : List PollRead} {later : Nat} {message : String}
      (told : (WaitsAt Settled before cut ∧ message = fromUtf8Lossy response.message) ∨
        (¬Settled before ∧ message = ""))
      (owes : Owes response.payload after rest later) (enough : ends ≤ later) :
      Held response before cut ends (.failed (remoteErrorText message), after)

theorem Refusing.poll (refusing : Refusing response before stream cut (ends + 1)) (room : Nat) :
    Held response before cut ends (stream.pollRead room) := by
  cases raised : stream.response.remoteError with
  | some message =>
      rw [pollRead_of_remoteError raised]
      refine .raises ((refusing.raised raised).imp_left fun ⟨found, same⟩ =>
        ⟨waitsAt_of_forall (settled_append found) cut, same⟩)
        ⟨refusing.recv, refusing.isCut, rfl, ?_⟩ (Nat.le_succ _)
      change (stream.response.grow (contents cut)).cleared.parseStep = _
      rw [parseStep_cleared (stream.response.grow (contents cut))
        (refusing.step_ne_status raised), refusing.whole]
      rfl
  | none =>
      have not_done : stream.response.step ≠ .done := fun done => by
        have again := parseStep_again (ResponseReader.start before)
        rw [refusing.parsed, parseStep_of_done (by unfold turn; rw [done])] at again
        cases again
      rw [pollRead_of_clean raised not_done, refusing.recv]
      have behind (more : Bytes) : (ResponseReader.start (before ++ more)).parseStep =
          (stream.response.grow more).parseStep := by
        have same := parseStep_grow (ResponseReader.start before) more
        rw [refusing.parsed] at same
        exact same
      have read := completes refusing.isCut ends refusing.whole
      revert read
      generalize pollResponse stream.response (ended cut (ends + 1)) = out
      intro read
      cases read with
      | @waits more rest after passes parsed whole =>
          refine .waits passes
            ⟨rfl, passes.isCut_rest, refusing.refused, ?_, (behind more).trans parsed⟩
          have found := refusing.found
          rw [passes.contents, ← List.append_assoc] at found
          exact found
      | @done more rest after passes parsed same =>
          obtain ⟨buf, step, remoteError⟩ := after
          obtain ⟨payload, rfl, rfl⟩ := ResponseReader.mk.inj same
          refine .raises (.inl ⟨(passes.waits _ _).mpr (waitsAt_of_forall ?_ rest), rfl⟩)
            (payload ▸ owes_of_done rfl passes.isCut rfl) (Nat.le_succ _)
          refine settled_append ?_
          cases found : TcpResponse.read (before ++ more) with
          | none =>
              have settled := congrArg Prod.fst ((behind more).trans parsed)
              exact absurd settled (parseStep_of_not_read found)
          | some response =>
              obtain ⟨left, here⟩ := TcpResponse.head_of_read found
              rw [here]
              rfl

theorem refuses_of_waitsAt (refusing : Refusing response before stream cut ends)
    (waits : fromUtf8Lossy response.message ≠ "" →
      Settled before ∧ WaitsAt Settled before cut)
    {rooms : List Nat} (positive : ∀ room ∈ rooms, 0 < room) (few : rooms.length ≤ ends) :
    Refuses (remoteErrorText (fromUtf8Lossy response.message)) (stream.answers rooms) ∧
      (weight cut < rooms.length →
        .failed (remoteErrorText (fromUtf8Lossy response.message)) ∈ stream.answers rooms) := by
  induction rooms generalizing before stream cut ends with
  | nil => exact ⟨.nothing, fun enough => absurd enough (Nat.not_lt_zero _)⟩
  | cons room rooms ih =>
      have later : ∀ room ∈ rooms, 0 < room := fun room member =>
        positive room (List.mem_cons_of_mem _ member)
      rw [List.length_cons] at few ⊢
      cases ends with
      | zero => exact absurd few (Nat.not_succ_le_zero _)
      | succ ends =>
          rw [answers]
          have held := refusing.poll room
          revert held
          generalize stream.pollRead room = out
          intro held
          cases held with
          | waits passes refusing =>
              obtain ⟨refuses, raises⟩ := ih refusing
                (fun some_text => (passes.waits _ _).mp (waits some_text).2) later (by omega)
              have less := passes.weight_rest
              exact ⟨.waits refuses, fun enough => List.mem_cons_of_mem _ (raises (by omega))⟩
          | @raises _ _ _ message told owes enough =>
              obtain ⟨delivers, -⟩ := delivers_of_owes owes later (by omega)
              have same : fromUtf8Lossy response.message = message := by
                rcases told with ⟨-, rfl⟩ | ⟨early, rfl⟩
                · rfl
                · by_contra some_text
                  exact early (waits some_text).1
              rw [same]
              exact ⟨.raises delivers.clean, fun _ => List.mem_cons_self ..⟩

theorem remoteErrorText_eq {message : String}
    (same : remoteErrorText message = remoteErrorText "") : message = "" := by
  by_contra some_text
  rw [remoteErrorText, if_neg some_text, remoteErrorText, if_pos rfl] at same
  have letters := congrArg (fun text => text.toList[11]?) same
  rw [String.toList_append] at letters
  cases letters

theorem waitsAt_of_refuses (refusing : Refusing response before stream cut ends)
    (here : Settled before) (some_text : fromUtf8Lossy response.message ≠ "") {rooms : List Nat}
    (few : rooms.length ≤ ends) (many : weight cut < rooms.length)
    (refuses : Refuses (remoteErrorText (fromUtf8Lossy response.message)) (stream.answers rooms)) :
    WaitsAt Settled before cut := by
  induction rooms generalizing before stream cut ends with
  | nil => exact absurd many (Nat.not_lt_zero _)
  | cons room rooms ih =>
      rw [List.length_cons] at few many
      cases ends with
      | zero => exact absurd few (Nat.not_succ_le_zero _)
      | succ ends =>
          rw [answers] at refuses
          have held := refusing.poll room
          revert held refuses
          generalize stream.pollRead room = out
          intro refuses held
          cases held with
          | waits passes refusing =>
              have less := passes.weight_rest
              cases refuses with
              | waits refuses =>
                  rename_i more rest
                  by_cases settled : Settled (before ++ more)
                  · exact (passes.waits _ _).mpr
                      ⟨settled, ih refusing settled (by omega) (by omega) refuses⟩
                  · cases rooms with
                    | nil => exact absurd many (by rw [List.length_nil]; omega)
                    | cons room rooms =>
                        have held := refusing.unsettled settled
                        rw [answers, pollRead_of_remoteError held] at refuses
                        exact absurd (remoteErrorText_eq refuses.error_eq.symm) some_text
          | raises told owes enough =>
              rcases told with ⟨waits, -⟩ | ⟨early, -⟩
              · exact waits
              · exact absurd here early

/-- A server that says why it refuses keeps nobody waiting between the status and
the end of the message. -/
def Uninterrupted (cut : List PollRead) : Prop :=
  ∀ response, TcpResponse.read (contents cut) = some response →
    response.status ≠ 0 → response.message ≠ [] → WaitsAt Settled [] cut

theorem refusing_new (send : Wire State) (request : Bytes) (isCut : IsCut cut) (ends : Nat)
    (found : TcpResponse.read (contents cut) = some response) (refused : response.status ≠ 0) :
    Refusing response [] (new send (ended cut ends) request) cut ends :=
  ⟨rfl, isCut, refused, found, parseStep_of_more rfl⟩

theorem expected_of_uninterrupted (send : Wire State) (request : Bytes) (isCut : IsCut cut)
    (uninterrupted : Uninterrupted cut) {rooms : List Nat}
    (positive : ∀ room ∈ rooms, 0 < room) :
    Expected (contents cut) ((new send (ended cut rooms.length) request).answers rooms)
      (weight cut + (contents cut).length < rooms.length) := by
  unfold Expected
  cases found : TcpResponse.read (contents cut) with
  | none =>
      have broken : Broken (new send (ended cut rooms.length) request) cut rooms.length :=
        ⟨rfl, isCut, fun _ => rfl, parseStep_of_not_read found⟩
      obtain ⟨fails, ends⟩ := fails_of_broken broken (Nat.le_refl _)
      exact ⟨fails, fun enough => ends (by omega)⟩
  | some response =>
      obtain ⟨status, message, payload⟩ := response
      dsimp only
      split
      · next accepted =>
          have whole := parseStep_read found
          rw [noted, if_pos accepted] at whole
          have owes : Owes payload (new send (ended cut rooms.length) request) cut rooms.length :=
            ⟨rfl, isCut, rfl, whole⟩
          obtain ⟨delivers, ends⟩ := delivers_of_owes owes positive (Nat.le_refl _)
          have shorter : payload.length ≤ (contents cut).length := length_payload_le found
          exact ⟨delivers, fun enough => ends (by omega)⟩
      · next refused =>
          have refusing := refusing_new send request isCut rooms.length found refused
          obtain ⟨refuses, raises⟩ := refuses_of_waitsAt refusing
            (fun some_text => ⟨.inl rfl, uninterrupted _ found refused fun empty =>
              some_text (by rw [empty]; rfl)⟩) positive (Nat.le_refl _)
          exact ⟨refuses, fun enough => raises (by omega)⟩

theorem uninterrupted_of_expected (send : Wire State) (request : Bytes) (isCut : IsCut cut)
    (expected : ∀ rooms : List Nat, (∀ room ∈ rooms, 0 < room) →
      Expected (contents cut) ((new send (ended cut rooms.length) request).answers rooms)
        (weight cut + (contents cut).length < rooms.length)) : Uninterrupted cut := by
  intro response found refused some_bytes
  have some_text : fromUtf8Lossy response.message ≠ "" := fun empty =>
    some_bytes (eq_nil_of_fromUtf8Lossy empty)
  -- As many polls, each for one byte, as take the connection past the message.
  let rooms := List.replicate (weight cut + 1) 1
  have many : rooms.length = weight cut + 1 := List.length_replicate
  have answers := expected rooms fun room member => by
    rw [List.eq_of_mem_replicate member]
    exact Nat.one_pos
  unfold Expected at answers
  rw [found] at answers
  obtain ⟨status, message, payload⟩ := response
  dsimp only at answers
  rw [if_neg refused] at answers
  have refusing := refusing_new send request isCut rooms.length found refused
  exact waitsAt_of_refuses refusing (.inl rfl) some_text (Nat.le_refl _) (by omega) answers.1

/-- However the bytes of the server are cut, the polls give what they say, except
that a wait may get in before the message of a refusal. -/
theorem expected_iff_uninterrupted (send : Wire State) (request : Bytes) (cut : List PollRead)
    (isCut : IsCut cut) :
    (∀ rooms : List Nat, (∀ room ∈ rooms, 0 < room) →
      Expected (contents cut) ((new send (ended cut rooms.length) request).answers rooms)
        (weight cut + (contents cut).length < rooms.length)) ↔ Uninterrupted cut :=
  ⟨uninterrupted_of_expected send request isCut, fun uninterrupted _ positive =>
    expected_of_uninterrupted send request isCut uninterrupted positive⟩

theorem expected_iff_uninterrupted_refusal : Expected [1, 2, 110, 111, 0]
    ((new (.opened ()) (ended [.pending, .ready [1, 2, 110, 111], .pending, .ready [0]] 4)
      []).answers [16, 1, 1, 4]) (14 < 4) := by
  have isCut : IsCut [.pending, .ready [1, 2, 110, 111], .pending, .ready [0]] := by
    unfold IsCut
    decide
  refine (expected_iff_uninterrupted (.opened ()) [] _ isCut).mpr ?_ [16, 1, 1, 4] (by decide)
  intro response found refused some_bytes
  exact ⟨.inl rfl, .inr rfl, trivial⟩

/-- The status comes alone, and its reader is polled again before there is more. -/
theorem earlyRefusal_unexpected : ¬∀ rooms : List Nat, (∀ room ∈ rooms, 0 < room) →
    Expected [1, 2, 110, 111, 0]
      ((new (.opened ()) (ended [.ready [1], .pending, .ready [2, 110, 111, 0]]
        rooms.length) []).answers rooms) (13 < rooms.length) := by
  intro expected
  have isCut : IsCut [.ready [1], .pending, .ready [2, 110, 111, 0]] := by
    unfold IsCut
    decide
  have waits := uninterrupted_of_expected (.opened ()) [] isCut expected ⟨1, [110, 111], []⟩ rfl
    (by decide) (by decide)
  rcases waits.1 with empty | found
  · cases empty
  · cases found

end Hy2TcpStream

end Hysteria2

end QuicProxy
