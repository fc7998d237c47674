import QuicProxy.Proxy.Hysteria2.TcpStream

namespace QuicProxy

/-! The response of a Hysteria2 server to a TCP request, in however many reads it
comes (`src/proxy/outbound/hysteria2/mod.rs`). -/

namespace Hysteria2

theorem readVarint_append {bytes : Bytes} {len used : Nat}
    (read : readVarint bytes = .ok (len, used)) (more : Bytes) :
    readVarint (bytes ++ more) = .ok (len, used) ∧ used ≤ bytes.length := by
  cases bytes with
  | nil => cases read
  | cons first rest =>
      rw [readVarint] at read
      split at read
      · cases read
      · next whole =>
          cases read
          have fits : 2 ^ (first.toNat / 64) - 1 ≤ rest.length := by omega
          refine ⟨?_, by rw [List.length_cons]; omega⟩
          rw [List.cons_append, readVarint, if_neg (by rw [List.length_append]; omega),
            List.take_append_of_le_length fits]

/-- A length of at most `limit` and so many bytes, and what is behind them. -/
def counted (limit : Nat) (bytes : Bytes) : Option (Bytes × Bytes) :=
  match readVarint bytes with
  | .error _ => none
  | .ok (len, used) =>
      if limit < len then none
      else if (bytes.drop used).length < len then none
      else some ((bytes.drop used).take len, (bytes.drop used).drop len)

theorem length_counted {limit : Nat} {bytes field rest : Bytes}
    (read : counted limit bytes = some (field, rest)) : rest.length ≤ bytes.length := by
  unfold counted at read
  split at read
  · cases read
  split at read
  · cases read
  split at read <;> cases read
  rw [List.length_drop, List.length_drop]
  omega

theorem counted_append {limit : Nat} {bytes field rest : Bytes}
    (read : counted limit bytes = some (field, rest)) (more : Bytes) :
    counted limit (bytes ++ more) = some (field, rest ++ more) := by
  unfold counted at read ⊢
  rcases varint : readVarint bytes with error | ⟨len, used⟩
  · rw [varint] at read
    cases read
  · obtain ⟨again, within⟩ := readVarint_append varint more
    rw [varint] at read
    rw [again]
    dsimp only at read ⊢
    split at read
    · cases read
    split at read
    · cases read
    · next allowed whole =>
        cases read
        have fits : len ≤ (bytes.drop used).length := Nat.le_of_not_lt whole
        rw [if_neg allowed, List.drop_append_of_le_length within,
          if_neg (by rw [List.length_append]; omega), List.take_append_of_le_length fits,
          List.drop_append_of_le_length fits]

structure TcpResponse where
  status : UInt8
  message : Bytes
  /-- The bytes behind it. -/
  payload : Bytes
deriving DecidableEq

namespace TcpResponse

/-- The response as far as its padding. -/
def head : Bytes → Option TcpResponse
  | [] => none
  | status :: rest =>
      match counted maxTcpResponseMessage rest with
      | none => none
      | some (message, rest) => some ⟨status, message, rest⟩

/-- The response at the front of the bytes, if it is whole and not too long. -/
def read (bytes : Bytes) : Option TcpResponse :=
  match head bytes with
  | none => none
  | some ⟨status, message, rest⟩ =>
      match counted maxTcpResponsePadding rest with
      | none => none
      | some (_, payload) => some ⟨status, message, payload⟩

theorem head_append {bytes : Bytes} {response : TcpResponse}
    (found : head bytes = some response) (more : Bytes) :
    head (bytes ++ more) = some { response with payload := response.payload ++ more } := by
  cases bytes with
  | nil => cases found
  | cons status rest =>
      rcases read : counted maxTcpResponseMessage rest with _ | ⟨message, left⟩
      · simp only [head, read] at found
        cases found
      · simp only [head, read] at found
        cases found
        simp only [List.cons_append, head, counted_append read more]

theorem head_of_read {bytes : Bytes} {response : TcpResponse} (found : read bytes = some response) :
    ∃ rest, head bytes = some { response with payload := rest } := by
  unfold read at found
  rcases begun : head bytes with _ | ⟨status, message, rest⟩
  · simp only [begun] at found
    cases found
  · rcases padded : counted maxTcpResponsePadding rest with _ | ⟨padding, payload⟩
    · simp only [begun, padded] at found
      cases found
    · simp only [begun, padded] at found
      cases found
      exact ⟨rest, rfl⟩

theorem length_payload_le {bytes : Bytes} {response : TcpResponse}
    (found : read bytes = some response) : response.payload.length ≤ bytes.length := by
  cases bytes with
  | nil => cases found
  | cons status rest =>
      unfold read head at found
      dsimp only at found
      rcases told : counted maxTcpResponseMessage rest with _ | ⟨message, behind⟩
      · simp only [told] at found
        cases found
      · rcases padded : counted maxTcpResponsePadding behind with _ | ⟨padding, payload⟩
        · simp only [told, padded] at found
          cases found
        · simp only [told, padded] at found
          cases found
          exact Nat.le_succ_of_le (Nat.le_trans (length_counted padded) (length_counted told))

theorem head_agrees {bytes more : Bytes} {begun response : TcpResponse}
    (found : read (bytes ++ more) = some response) (here : head bytes = some begun) :
    begun.status = response.status ∧ begun.message = response.message := by
  obtain ⟨rest, whole⟩ := head_of_read found
  obtain ⟨status, message, -⟩ :=
    mk.inj (Option.some.inj ((head_append here more).symm.trans whole))
  exact ⟨status, message⟩

end TcpResponse

/-! The reader takes the same turns however much more there is to come. -/

theorem ResponseStep.remaining_le (step : ResponseStep) : step.remaining ≤ status.remaining := by
  cases step <;> exact Nat.le_of_ble_eq_true rfl

namespace ResponseReader

def grow (reader : ResponseReader) (more : Bytes) : ResponseReader :=
  { reader with buf := reader.buf ++ more }

@[simp] theorem grow_nil (reader : ResponseReader) : reader.grow [] = reader := by
  rw [grow, List.append_nil]

theorem grow_append (reader : ResponseReader) (first second : Bytes) :
    reader.grow (first ++ second) = (reader.grow first).grow second := by
  unfold grow
  rw [List.append_assoc]

theorem lengthTurn_eq (reader : ResponseReader) (limit : Nat) (error : String)
    (step : Nat → ResponseStep) : reader.lengthTurn limit error step =
      match readVarint reader.buf with
      | .error _ => .more
      | .ok (len, used) =>
          if limit < len then .failed error else .next (reader.advance used (step len)) := by
  unfold lengthTurn
  split
  · next empty =>
      rw [empty]
      rfl
  · next first rest cut =>
      rw [cut]
      by_cases short : rest.length + 1 < 2 ^ (first.toNat / 64)
      · rw [if_pos short, readVarint, if_pos short]
      · rw [if_neg short, readVarint, if_neg short]

/-- What a turn has decided, it decides with more bytes too. -/
def Keeps (more : Bytes) (before after : ResponseTurn) : Prop :=
  (∀ next, before = .next next → after = .next (next.grow more)) ∧
    (∀ error, before = .failed error → after = .failed error) ∧
      (before = .done → after = .done)

theorem keeps_more (more : Bytes) (after : ResponseTurn) : Keeps more .more after := by
  refine ⟨?_, ?_, ?_⟩
  · rintro _ ⟨⟩
  · rintro _ ⟨⟩
  · rintro ⟨⟩

theorem keeps_next (more : Bytes) (next : ResponseReader) :
    Keeps more (.next next) (.next (next.grow more)) := by
  refine ⟨?_, ?_, ?_⟩
  · rintro _ ⟨⟩
    rfl
  · rintro _ ⟨⟩
  · rintro ⟨⟩

theorem keeps_lengthTurn (reader : ResponseReader) (more : Bytes) (limit : Nat)
    (error : String) (step : Nat → ResponseStep) :
    Keeps more (reader.lengthTurn limit error step)
      ((reader.grow more).lengthTurn limit error step) := by
  rw [lengthTurn_eq, lengthTurn_eq]
  rcases read : readVarint reader.buf with _ | ⟨len, used⟩
  · exact keeps_more more _
  · obtain ⟨again, within⟩ := readVarint_append read more
    have behind : (reader.grow more).advance used (step len) =
        (reader.advance used (step len)).grow more := by
      unfold advance grow
      rw [List.drop_append_of_le_length within]
    change Keeps more _ (match readVarint (reader.buf ++ more) with
      | .error _ => .more
      | .ok (len, used) =>
          if limit < len then .failed error
          else .next ((reader.grow more).advance used (step len)))
    rw [again]
    dsimp only
    rw [behind]
    split
    · refine ⟨?_, fun _ => id, ?_⟩
      · rintro _ ⟨⟩
      · rintro ⟨⟩
    · exact keeps_next more _

theorem keeps_turn (reader : ResponseReader) (more : Bytes) :
    Keeps more reader.turn (reader.grow more).turn := by
  obtain ⟨buf, step, remoteError⟩ := reader
  cases step with
  | done =>
      refine ⟨?_, ?_, id⟩
      · rintro _ ⟨⟩
      · rintro _ ⟨⟩
  | status =>
      cases buf with
      | nil => exact keeps_more more _
      | cons status rest => exact keeps_next more _
  | msgLen => exact keeps_lengthTurn _ more _ _ _
  | padLen => exact keeps_lengthTurn _ more _ _ _
  | msg len =>
      unfold turn grow
      dsimp only
      split
      · exact keeps_more more _
      · next whole =>
          have fits : len ≤ buf.length := Nat.le_of_not_lt whole
          rw [if_neg (by rw [List.length_append]; omega), List.take_append_of_le_length fits]
          have behind : advance ⟨buf ++ more, .msg len, remoteError⟩ len .padLen =
              (advance ⟨buf, .msg len, remoteError⟩ len .padLen).grow more := by
            unfold advance grow
            rw [List.drop_append_of_le_length fits]
          rw [behind]
          exact keeps_next more _
  | pad len =>
      unfold turn grow
      dsimp only
      split
      · exact keeps_more more _
      · next whole =>
          have fits : len ≤ buf.length := Nat.le_of_not_lt whole
          have behind : advance ⟨buf ++ more, .pad len, remoteError⟩ len .done =
              (advance ⟨buf, .pad len, remoteError⟩ len .done).grow more := by
            unfold advance grow
            rw [List.drop_append_of_le_length fits]
          rw [if_neg (by rw [List.length_append]; omega), behind]
          exact keeps_next more _

section

variable {reader next : ResponseReader}

theorem parseStep_of_next (taken : reader.turn = .next next) :
    reader.parseStep = next.parseStep := by
  rw [parseStep]
  split <;> rename_i other <;> cases taken.symm.trans other
  rfl

theorem parseStep_of_done (taken : reader.turn = .done) :
    reader.parseStep = (.ok true, reader) := by
  rw [parseStep]
  split <;> rename_i other <;> cases taken.symm.trans other
  rfl

theorem parseStep_of_more (taken : reader.turn = .more) :
    reader.parseStep = (.ok false, reader) := by
  rw [parseStep]
  split <;> rename_i other <;> cases taken.symm.trans other
  rfl

theorem parseStep_of_failed {error : String} (taken : reader.turn = .failed error) :
    reader.parseStep = (.error error, reader) := by
  rw [parseStep]
  split <;> rename_i other <;> cases taken.symm.trans other
  rfl

end

theorem parseStep_grow (reader : ResponseReader) (more : Bytes) :
    (reader.grow more).parseStep = (reader.parseStep.2.grow more).parseStep := by
  fun_induction parseStep reader with
  | case1 reader taken => rfl
  | case2 reader taken => rfl
  | case3 reader error taken => rfl
  | case4 reader next taken ih =>
      exact (parseStep_of_next ((keeps_turn reader more).1 _ taken)).trans ih

theorem parseStep_again (reader : ResponseReader) :
    reader.parseStep.2.parseStep = reader.parseStep := by
  have same := parseStep_grow reader []
  rw [grow_nil, grow_nil] at same
  exact same.symm

/-- A result other than waiting is final, and what comes later stays behind it. -/
theorem parseStep_settled (reader : ResponseReader) (more : Bytes)
    (settled : reader.parseStep.1 ≠ .ok false) :
    (reader.grow more).parseStep = (reader.parseStep.1, reader.parseStep.2.grow more) := by
  fun_induction parseStep reader with
  | case1 reader taken => exact parseStep_of_done ((keeps_turn reader more).2.2 taken)
  | case2 reader taken => exact absurd rfl settled
  | case3 reader error taken => exact parseStep_of_failed ((keeps_turn reader more).2.1 _ taken)
  | case4 reader next taken ih =>
      exact (parseStep_of_next ((keeps_turn reader more).1 _ taken)).trans (ih settled)

/-- What the parser makes of the front of a whole response. -/
inductive Toward (final : ResponseReader) (rest : Bytes) :
    Except String Bool × ResponseReader → Prop
  | waits {after : ResponseReader} (whole : (after.grow rest).parseStep = (.ok true, final))
      (some_bytes : rest ≠ []) : Toward final rest (.ok false, after)
  | done {after : ResponseReader} (same : after.grow rest = final) :
      Toward final rest (.ok true, after)

theorem toward {reader final : ResponseReader} {more rest : Bytes}
    (whole : (reader.grow (more ++ rest)).parseStep = (.ok true, final)) :
    Toward final rest (reader.grow more).parseStep := by
  rw [grow_append] at whole
  have onward := parseStep_grow (reader.grow more) rest
  have settled := parseStep_settled (reader.grow more) rest
  revert onward settled
  rcases parsed : (reader.grow more).parseStep with ⟨error | _ | _, after⟩ <;>
    intro onward settled
  · cases whole.symm.trans (settled (by rintro ⟨⟩))
  · refine .waits (onward.symm.trans whole) ?_
    rintro rfl
    rw [grow_nil] at whole
    cases whole.symm.trans parsed
  · obtain ⟨-, same⟩ := Prod.mk.inj (whole.symm.trans (settled (by rintro ⟨⟩)))
    exact .done same.symm

theorem lengthTurn_next_remoteError {reader next : ResponseReader} {limit : Nat} {error : String}
    {step : Nat → ResponseStep} (taken : reader.lengthTurn limit error step = .next next) :
    next.remoteError = reader.remoteError := by
  rw [lengthTurn_eq] at taken
  split at taken
  · cases taken
  split at taken <;> cases taken
  rfl

/-- No turn comes back to the status, and none forgets that there was an error. -/
theorem turn_next {reader next : ResponseReader} (taken : reader.turn = .next next) :
    next.step ≠ .status ∧ (next.remoteError = none → reader.remoteError = none) := by
  refine ⟨fun back => ?_, ?_⟩
  · have less := remaining_lt_of_turn taken
    rw [back] at less
    exact absurd (ResponseStep.remaining_le reader.step) (Nat.not_le_of_lt less)
  · obtain ⟨buf, step, remoteError⟩ := reader
    cases step with
    | done => cases taken
    | status =>
        cases buf with
        | nil => cases taken
        | cons status rest =>
            cases taken
            intro clean
            dsimp only at clean ⊢
            split at clean
            · cases clean
            · exact clean
    | msgLen => exact (lengthTurn_next_remoteError taken).symm.trans
    | padLen => exact (lengthTurn_next_remoteError taken).symm.trans
    | msg len =>
        unfold turn at taken
        dsimp only at taken
        split at taken <;> cases taken
        exact Option.map_eq_none_iff.mp
    | pad len =>
        unfold turn at taken
        dsimp only at taken
        split at taken <;> cases taken
        exact id

theorem remoteError_of_parseStep (reader : ResponseReader)
    (clean : reader.parseStep.2.remoteError = none) : reader.remoteError = none := by
  fun_induction parseStep reader with
  | case1 reader taken => exact clean
  | case2 reader taken => exact clean
  | case3 reader error taken => exact clean
  | case4 reader next taken ih => exact (turn_next taken).2 (ih clean)

/-- The reader that `remote_error.take()` leaves. -/
def cleared (reader : ResponseReader) : ResponseReader := { reader with remoteError := none }

/-- The same turn, of a reader that a remote error was taken from. -/
def ClearedTurn : ResponseTurn → ResponseTurn → Prop
  | .next next, after => after = .next next.cleared
  | before, after => after = before

theorem clearedTurn_lengthTurn (reader : ResponseReader) (limit : Nat) (error : String)
    (step : Nat → ResponseStep) : ClearedTurn (reader.lengthTurn limit error step)
      (reader.cleared.lengthTurn limit error step) := by
  have same : reader.cleared.buf = reader.buf := rfl
  rw [lengthTurn_eq, lengthTurn_eq, same]
  rcases readVarint reader.buf with _ | ⟨len, used⟩
  · rfl
  · dsimp only
    split <;> rfl

theorem clearedTurn_turn (reader : ResponseReader) (later : reader.step ≠ .status) :
    ClearedTurn reader.turn reader.cleared.turn := by
  obtain ⟨buf, step, remoteError⟩ := reader
  cases step with
  | done => rfl
  | status => exact absurd rfl later
  | msgLen => exact clearedTurn_lengthTurn ..
  | padLen => exact clearedTurn_lengthTurn ..
  | msg len =>
      unfold turn cleared
      dsimp only
      split <;> rfl
  | pad len =>
      unfold turn cleared
      dsimp only
      split <;> rfl

theorem parseStep_cleared (reader : ResponseReader) (later : reader.step ≠ .status) :
    reader.cleared.parseStep = (reader.parseStep.1, reader.parseStep.2.cleared) := by
  have same := clearedTurn_turn reader later
  fun_induction parseStep reader with
  | case1 reader taken =>
      rw [taken] at same
      exact parseStep_of_done same
  | case2 reader taken =>
      rw [taken] at same
      exact parseStep_of_more same
  | case3 reader error taken =>
      rw [taken] at same
      exact parseStep_of_failed same
  | case4 reader next taken ih =>
      rw [taken] at same
      have onward := (turn_next taken).1
      exact (parseStep_of_next same).trans (ih onward (clearedTurn_turn next onward))

/-! The stages of a response. -/

def start (bytes : Bytes) : ResponseReader := ⟨bytes, .status, none⟩

section

variable {reader : ResponseReader} {limit : Nat} {error : String} {body : Nat → ResponseStep}

theorem parseStep_of_counted (later : ResponseStep) (noted : Bytes → Option String)
    (length : reader.turn = reader.lengthTurn limit error body)
    (field : ∀ len buf, turn ⟨buf, body len, reader.remoteError⟩ =
      if buf.length < len then .more else .next ⟨buf.drop len, later, noted (buf.take len)⟩)
    {taken rest : Bytes} (read : counted limit reader.buf = some (taken, rest)) :
    reader.parseStep = parseStep ⟨rest, later, noted taken⟩ := by
  rw [lengthTurn_eq] at length
  unfold counted at read
  rcases varint : readVarint reader.buf with _ | ⟨len, used⟩
  · rw [varint] at read
    cases read
  · rw [varint] at read length
    dsimp only at read length
    split at read
    · cases read
    split at read
    · cases read
    · next allowed whole =>
        cases read
        rw [if_neg allowed] at length
        exact (parseStep_of_next length).trans
          (parseStep_of_next ((field len _).trans (if_neg whole)))

theorem parseStep_of_not_counted (later : ResponseStep) (noted : Bytes → Option String)
    (length : reader.turn = reader.lengthTurn limit error body)
    (field : ∀ len buf, turn ⟨buf, body len, reader.remoteError⟩ =
      if buf.length < len then .more else .next ⟨buf.drop len, later, noted (buf.take len)⟩)
    (read : counted limit reader.buf = none) :
    reader.parseStep.1 ≠ .ok true ∧ reader.parseStep.2.remoteError = reader.remoteError := by
  rw [lengthTurn_eq] at length
  unfold counted at read
  rcases varint : readVarint reader.buf with _ | ⟨len, used⟩
  · rw [varint] at length
    rw [parseStep_of_more length]
    exact ⟨by rintro ⟨⟩, rfl⟩
  · rw [varint] at read length
    dsimp only at read length
    split at read
    · next exceeds =>
        rw [if_pos exceeds] at length
        rw [parseStep_of_failed length]
        exact ⟨by rintro ⟨⟩, rfl⟩
    split at read
    · next allowed short =>
        rw [if_neg allowed] at length
        have waits := (field len (reader.buf.drop used)).trans (if_pos short)
        rw [parseStep_of_next length]
        unfold advance
        rw [parseStep_of_more waits]
        exact ⟨by rintro ⟨⟩, rfl⟩
    · cases read

end

theorem parseStep_message {buf message rest : Bytes} (remoteError : Option String)
    (read : counted maxTcpResponseMessage buf = some (message, rest)) :
    parseStep ⟨buf, .msgLen, remoteError⟩ =
      parseStep ⟨rest, .padLen, remoteError.map fun _ => fromUtf8Lossy message⟩ :=
  parseStep_of_counted .padLen (fun message => remoteError.map fun _ => fromUtf8Lossy message)
    rfl (fun _ _ => rfl) read

theorem parseStep_no_message {buf : Bytes} (remoteError : Option String)
    (read : counted maxTcpResponseMessage buf = none) :
    (parseStep ⟨buf, .msgLen, remoteError⟩).1 ≠ .ok true ∧
      (parseStep ⟨buf, .msgLen, remoteError⟩).2.remoteError = remoteError :=
  parseStep_of_not_counted .padLen (fun message => remoteError.map fun _ => fromUtf8Lossy message)
    rfl (fun _ _ => rfl) read

theorem parseStep_padding {buf padding rest : Bytes} (remoteError : Option String)
    (read : counted maxTcpResponsePadding buf = some (padding, rest)) :
    parseStep ⟨buf, .padLen, remoteError⟩ = (.ok true, ⟨rest, .done, remoteError⟩) :=
  (parseStep_of_counted .done (fun _ => remoteError) rfl (fun _ _ => rfl) read).trans
    (parseStep_of_done rfl)

theorem parseStep_no_padding {buf : Bytes} (remoteError : Option String)
    (read : counted maxTcpResponsePadding buf = none) :
    (parseStep ⟨buf, .padLen, remoteError⟩).1 ≠ .ok true ∧
      (parseStep ⟨buf, .padLen, remoteError⟩).2.remoteError = remoteError :=
  parseStep_of_not_counted .done (fun _ => remoteError) rfl (fun _ _ => rfl) read

theorem parseStep_status (status : UInt8) (rest : Bytes) :
    (start (status :: rest)).parseStep =
      parseStep ⟨rest, .msgLen, if status ≠ 0 then some "" else none⟩ :=
  parseStep_of_next rfl

/-- The error of a response whose status and message these are. -/
def noted (status : UInt8) (message : Bytes) : Option String :=
  if status = 0 then none else some (fromUtf8Lossy message)

theorem parseStep_head {bytes : Bytes} {response : TcpResponse}
    (found : TcpResponse.head bytes = some response) :
    (start bytes).parseStep = parseStep
      ⟨response.payload, .padLen, noted response.status response.message⟩ := by
  cases bytes with
  | nil => cases found
  | cons status rest =>
      rcases read : counted maxTcpResponseMessage rest with _ | ⟨message, left⟩
      · simp only [TcpResponse.head, read] at found
        cases found
      · simp only [TcpResponse.head, read] at found
        cases found
        rw [parseStep_status, parseStep_message _ read, noted]
        by_cases accepted : status = 0
        · simp only [accepted, ne_eq, not_true, if_true, if_false, Option.map_none]
        · simp only [accepted, ne_eq, not_false_iff, if_true, if_false, Option.map_some]

theorem parseStep_read {bytes : Bytes} {response : TcpResponse}
    (found : TcpResponse.read bytes = some response) : (start bytes).parseStep =
      (.ok true, ⟨response.payload, .done, noted response.status response.message⟩) := by
  unfold TcpResponse.read at found
  rcases begun : TcpResponse.head bytes with _ | ⟨status, message, rest⟩
  · simp only [begun] at found
    cases found
  · rcases read : counted maxTcpResponsePadding rest with _ | ⟨padding, payload⟩
    · simp only [begun, read] at found
      cases found
    · simp only [begun, read] at found
      cases found
      rw [parseStep_head begun, parseStep_padding _ read]

theorem parseStep_of_not_read {bytes : Bytes} (missing : TcpResponse.read bytes = none) :
    (start bytes).parseStep.1 ≠ .ok true := by
  unfold TcpResponse.read at missing
  rcases begun : TcpResponse.head bytes with _ | ⟨status, message, rest⟩
  · cases bytes with
    | nil =>
        rw [parseStep_of_more rfl]
        rintro ⟨⟩
    | cons status rest =>
        rcases read : counted maxTcpResponseMessage rest with _ | ⟨message, left⟩
        · rw [parseStep_status]
          exact (parseStep_no_message _ read).1
        · simp only [TcpResponse.head, read] at begun
          cases begun
  · rcases read : counted maxTcpResponsePadding rest with _ | ⟨padding, payload⟩
    · rw [parseStep_head begun]
      exact (parseStep_no_padding _ read).1
    · simp only [begun, read] at missing
      cases missing

theorem step_parseStep (reader : ResponseReader) (later : reader.step ≠ .status) :
    reader.parseStep.2.step ≠ .status := by
  fun_induction parseStep reader with
  | case1 reader taken => exact later
  | case2 reader taken => exact later
  | case3 reader error taken => exact later
  | case4 reader next taken ih => exact ih (turn_next taken).1

theorem remoteError_parseStep_of_status {reader : ResponseReader}
    (early : reader.step = .status → reader.remoteError = none)
    (back : reader.parseStep.2.step = .status) : reader.parseStep.2.remoteError = none := by
  cases taken : reader.turn with
  | done =>
      rw [parseStep_of_done taken] at back ⊢
      exact early back
  | more =>
      rw [parseStep_of_more taken] at back ⊢
      exact early back
  | failed error =>
      rw [parseStep_of_failed taken] at back ⊢
      exact early back
  | next next =>
      rw [parseStep_of_next taken] at back
      exact absurd back (step_parseStep next (turn_next taken).1)

theorem remoteError_head {bytes : Bytes} {response : TcpResponse}
    (found : TcpResponse.head bytes = some response) :
    (start bytes).parseStep.2.remoteError = noted response.status response.message := by
  rw [parseStep_head found]
  rcases read : counted maxTcpResponsePadding response.payload with _ | ⟨padding, payload⟩
  · exact (parseStep_no_padding _ read).2
  · rw [parseStep_padding _ read]

theorem remoteError_of_not_head {status : UInt8} {rest : Bytes}
    (missing : TcpResponse.head (status :: rest) = none) :
    (start (status :: rest)).parseStep.2.remoteError = if status ≠ 0 then some "" else none := by
  rcases read : counted maxTcpResponseMessage rest with _ | ⟨message, left⟩
  · rw [parseStep_status]
    exact (parseStep_no_message _ read).2
  · simp only [TcpResponse.head, read] at missing
    cases missing

end ResponseReader

end Hysteria2

end QuicProxy
