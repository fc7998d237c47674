import QuicProxy.Data.Incremental
import QuicProxy.Proxy.Anytls.Frame
import QuicProxy.Proxy.TargetAddr

namespace QuicProxy

/-! `FrameReader` as it is polled, its calls dropped and repeated, against
`read_frame` (`src/proxy/anytls_proto.rs`). -/

open Parsed ReadAhead

def readU32 : Bytes → Except String (UInt32 × Bytes)
  | a :: b :: c :: d :: rest => .ok (u32FromBe a b c d, rest)
  | _ => .error "early eof"

def readFrame (stream : Bytes) : Except String (Frame × Bytes) :=
  match readU8 stream with
  | .error _ => .error "read frame command"
  | .ok (byte, stream) =>
      match Command.ofByte byte with
      | none => .error s!"unknown anytls command: {byte.toNat}"
      | some cmd =>
          match readU32 stream with
          | .error _ => .error "read frame stream id"
          | .ok (streamId, stream) =>
              match readU16 stream with
              | .error _ => .error "read frame data length"
              | .ok (dataLen, stream) =>
                  if dataLen.toNat ≠ 0 then
                    match readExact dataLen.toNat stream with
                    | .error _ => .error "read frame payload"
                    | .ok (data, stream) => .ok (⟨streamId, cmd, data⟩, stream)
                  else .ok (⟨streamId, cmd, []⟩, stream)

namespace FrameReader

/-- The `fill` at which a call of `read_frame` waits. -/
inductive Waiting where
  | header
  | payload (cmd : Command) (streamId : UInt32) (dataLen : Nat)
deriving DecidableEq

structure Polling where
  waiting : Waiting
  buf : Bytes
  stream : List PollRead

namespace Polling

def new (stream : List PollRead) : Polling := ⟨.header, [], stream⟩

def pollPayload (cmd : Command) (streamId : UInt32) (dataLen : Nat) (buf : Bytes)
    (stream : List PollRead) : Poll (Except String Frame) × Polling :=
  match pollFill (frameHeaderSize + dataLen) false stream buf with
  | (.pending, buf, stream) => (.pending, ⟨.payload cmd streamId dataLen, buf, stream⟩)
  | (.ready (.error _), buf, stream) =>
      (.ready (.error "read frame payload"), ⟨.header, buf, stream⟩)
  | (.ready (.ok _), buf, stream) =>
      (.ready (.ok ⟨streamId, cmd, (buf.drop frameHeaderSize).take dataLen⟩),
        ⟨.header, (buf.drop frameHeaderSize).drop dataLen, stream⟩)

def pollHeader (buf : Bytes) (stream : List PollRead) : Poll (Except String Frame) × Polling :=
  match pollFill frameHeaderSize false stream buf with
  | (.pending, buf, stream) => (.pending, ⟨.header, buf, stream⟩)
  | (.ready (.error _), buf, stream) =>
      (.ready (.error "read frame header"), ⟨.header, buf, stream⟩)
  | (.ready (.ok _), buf, stream) =>
      match buf with
      | byte :: a :: b :: c :: d :: high :: low :: _ =>
          match Command.ofByte byte with
          | none =>
              (.ready (.error s!"unknown anytls command: {byte.toNat}"), ⟨.header, buf, stream⟩)
          | some cmd =>
              pollPayload cmd (u32FromBe a b c d) (u16FromBe high low).toNat buf stream
      -- `fill` has left as many bytes as the header has.
      | _ => (.ready (.error "read frame header"), ⟨.header, buf, stream⟩)

/-- One poll of the call of `read_frame` that is under way, or of a new one. -/
def poll (polling : Polling) : Poll (Except String Frame) × Polling :=
  match polling.waiting with
  | .header => pollHeader polling.buf polling.stream
  | .payload cmd streamId dataLen =>
      pollPayload cmd streamId dataLen polling.buf polling.stream

/-- Only the call is gone with it: the buffer is the reader's. -/
def drop (polling : Polling) : Polling := { polling with waiting := .header }

end Polling

def reader : Reader Polling String Frame := ⟨Polling.poll, Polling.drop⟩

/-! What frames there are in a byte string. -/

def parseBody (cmd : Command) (streamId : UInt32) (dataLen : Nat) (body : Bytes) :
    Parsed String Frame :=
  if body.length < dataLen then .need (frameHeaderSize + dataLen)
  else .done ⟨streamId, cmd, body.take dataLen⟩ (frameHeaderSize + dataLen)

def parseFrame (bytes : Bytes) : Parsed String Frame :=
  match bytes with
  | byte :: a :: b :: c :: d :: high :: low :: body =>
      match Command.ofByte byte with
      | none => .failed s!"unknown anytls command: {byte.toNat}"
      | some cmd => parseBody cmd (u32FromBe a b c d) (u16FromBe high low).toNat body
  | _ => .need frameHeaderSize

theorem parseFrame_header (cmd : Command) (streamId : UInt32) (len : UInt16) (body : Bytes) :
    parseFrame (Frame.header cmd streamId len ++ body) =
      parseBody cmd streamId len.toNat body := by
  obtain ⟨a, b, c, d, idSplit, idValue⟩ := u32ToBe_eq streamId
  obtain ⟨high, low, lenSplit, lenValue⟩ := u16ToBe_eq len
  simp only [Frame.header, idSplit, lenSplit, List.cons_append, List.nil_append,
    parseFrame, Command.ofByte_toByte, idValue, lenValue]

inductive Front (bytes : Bytes) : Prop
  | short (few : bytes.length < frameHeaderSize)
      (parsed : parseFrame bytes = .need frameHeaderSize)
  | unknown (byte : UInt8) (enough : frameHeaderSize ≤ bytes.length)
      (refused : Command.ofByte byte = none) (first : bytes.head? = some byte)
      (parsed : ∀ more, parseFrame (bytes ++ more) =
        .failed s!"unknown anytls command: {byte.toNat}")
  | part (cmd : Command) (streamId : UInt32) (len : UInt16) (body : Bytes)
      (same : bytes = Frame.header cmd streamId len ++ body) (few : body.length < len.toNat)
      (parsed : parseFrame bytes = .need (frameHeaderSize + len.toNat))
  | whole (cmd : Command) (streamId : UInt32) (len : UInt16) (body : Bytes)
      (same : bytes = Frame.header cmd streamId len ++ body) (enough : len.toNat ≤ body.length)
      (parsed : ∀ more, parseFrame (bytes ++ more) =
        .done ⟨streamId, cmd, body.take len.toNat⟩ (frameHeaderSize + len.toNat))

theorem front_header (cmd : Command) (streamId : UInt32) (len : UInt16) (body : Bytes) :
    Front (Frame.header cmd streamId len ++ body) := by
  rcases Nat.lt_or_ge body.length len.toNat with few | enough
  · exact .part cmd streamId len body rfl few ((parseFrame_header ..).trans (if_pos few))
  · refine .whole cmd streamId len body rfl enough fun more => ?_
    have long : len.toNat ≤ (body ++ more).length := by
      rw [List.length_append]
      omega
    rw [List.append_assoc, parseFrame_header, parseBody, if_neg (Nat.not_lt.mpr long),
      List.take_append_of_le_length enough]

theorem front (bytes : Bytes) : Front bytes := by
  match bytes with
  | byte :: a :: b :: c :: d :: high :: low :: body =>
      cases known : Command.ofByte byte with
      | none =>
          refine .unknown byte ?_ known rfl fun more => ?_
          · simp only [List.length_cons, frameHeaderSize]
            omega
          · simp only [List.cons_append, parseFrame, known]
      | some cmd =>
          have header := front_header cmd (u32FromBe a b c d) (u16FromBe high low) body
          rw [Frame.header, Command.toByte_of_ofByte known, u32ToBe_u32FromBe,
            u16ToBe_u16FromBe] at header
          exact header
  | [] | [_] | [_, _] | [_, _, _] | [_, _, _, _] | [_, _, _, _, _]
  | [_, _, _, _, _, _] => exact .short (by simp [frameHeaderSize]) rfl

theorem steady_parseFrame : Steady parseFrame := by
  intro bytes
  cases front bytes with
  | short few parsed =>
      refine .unsettled parsed few fun more still_few => ?_
      cases front (bytes ++ more) with
      | short _ again | part _ _ _ _ _ _ again => exact ⟨_, again⟩
      | unknown byte enough => exact absurd still_few (Nat.not_lt.mpr enough)
      | whole cmd streamId len body same enough done =>
          rw [same, List.length_append, Frame.length_header, frameHeaderSize] at still_few
          omega
  | unknown byte enough refused first parsed => exact .failed parsed
  | part cmd streamId len body same few parsed =>
      refine .unsettled parsed ?_ fun more still_few => ?_
      · rw [same, List.length_append, Frame.length_header]
        exact Nat.add_lt_add_left few 7
      · rw [same, List.append_assoc, List.length_append, Frame.length_header] at still_few
        rw [same, List.append_assoc, parseFrame_header]
        exact ⟨_, if_pos (Nat.lt_of_add_lt_add_left still_few)⟩
  | whole cmd streamId len body same enough parsed =>
      refine .done (Nat.lt_add_right _ (by decide)) ?_ parsed
      rw [same, List.length_append, Frame.length_header]
      exact Nat.add_le_add_left enough 7

namespace Polling

/-- The bytes that the reader has not returned yet.  A call that waits for a
payload has its header at the front of the buffer. -/
inductive Left : Polling → Bytes → Prop
  | header {buf rest : Bytes} {stream : List PollRead} (feeds : Feeds stream rest) :
      Left ⟨.header, buf, stream⟩ (buf ++ rest)
  | payload (cmd : Command) (streamId : UInt32) (len : UInt16) (body : Bytes) {rest : Bytes}
      {stream : List PollRead} (feeds : Feeds stream rest) :
      Left ⟨.payload cmd streamId len.toNat, Frame.header cmd streamId len ++ body, stream⟩
        (Frame.header cmd streamId len ++ body ++ rest)

def size (polling : Polling) : Nat := polling.stream.length

theorem polled_pollPayload (cmd : Command) (streamId : UInt32) (len : UInt16) (body : Bytes)
    {rest : Bytes} {stream : List PollRead} {limit : Nat} (feeds : Feeds stream rest)
    (bound : stream.length ≤ limit) :
    Reader.Polled parseFrame Left size (Frame.header cmd streamId len ++ body ++ rest) limit
      (pollPayload cmd streamId len.toNat (Frame.header cmd streamId len ++ body) stream) := by
  have fills := fillsFrom_pollFill feeds (frameHeaderSize + len.toNat)
    (Frame.header cmd streamId len ++ body)
  have parsed := parseFrame_header cmd streamId len (body ++ rest)
  rw [List.append_assoc]
  unfold pollPayload
  generalize pollFill _ _ _ _ = after at fills
  cases fills with
  | @waits more left stream fed same short less =>
      subst same
      have waiting := Left.payload cmd streamId len (body ++ more) fed
      simp only [List.append_assoc] at waiting ⊢
      exact .waits waiting (Nat.lt_of_lt_of_le less bound)
  | @full more left stream fed same enough no_more =>
      subst same
      have payload (tail : Bytes) :
          (Frame.header cmd streamId len ++ tail).drop frameHeaderSize = tail := rfl
      rw [List.append_assoc, List.length_append, Frame.length_header] at enough
      have long : len.toNat ≤ (body ++ more).length := Nat.le_of_add_le_add_left enough
      have whole : len.toNat ≤ (body ++ more ++ left).length := by
        rw [List.length_append]
        omega
      rw [← List.append_assoc body, parseBody, if_neg (Nat.not_lt.mpr whole),
        List.take_append_of_le_length long] at parsed
      dsimp only
      rw [← List.append_assoc body, List.append_assoc _ body more, payload]
      refine .gives parsed ?_ (Nat.le_trans no_more bound)
      rw [← List.drop_drop, payload, List.drop_append_of_le_length long]
      exact .header fed
  | ends short =>
      rw [List.append_assoc, List.length_append, Frame.length_header] at short
      exact .ends (parsed.trans (if_pos (Nat.lt_of_add_lt_add_left short)))

theorem polled_pollHeader (buf : Bytes) {rest : Bytes} {stream : List PollRead}
    (feeds : Feeds stream rest) :
    Reader.Polled parseFrame Left size (buf ++ rest) stream.length (pollHeader buf stream) := by
  have fills := fillsFrom_pollFill feeds frameHeaderSize buf
  unfold pollHeader
  generalize pollFill _ _ _ _ = after at fills
  cases fills with
  | @waits more left stream fed same short less =>
      subst same
      rw [← List.append_assoc]
      exact .waits (.header fed) less
  | @full more left stream fed same enough no_more =>
      subst same
      rw [← List.append_assoc]
      generalize buf ++ more = filled at enough
      match filled with
      | byte :: a :: b :: c :: d :: high :: low :: body =>
          dsimp only
          cases known : Command.ofByte byte with
          | none =>
              refine .breaks ?_
              simp only [List.cons_append, parseFrame, known]
          | some cmd =>
              have polled := polled_pollPayload cmd (u32FromBe a b c d) (u16FromBe high low) body
                fed no_more
              rw [Frame.header, Command.toByte_of_ofByte known, u32ToBe_u32FromBe,
                u16ToBe_u16FromBe] at polled
              exact polled
      | [] | [_] | [_, _] | [_, _, _] | [_, _, _, _] | [_, _, _, _, _]
      | [_, _, _, _, _, _] => simp [frameHeaderSize] at enough
  | ends short =>
      cases front (buf ++ rest) with
      | short few parsed | part cmd streamId len body same few parsed => exact .ends parsed
      | unknown byte enough => exact absurd short (Nat.not_lt.mpr enough)
      | whole cmd streamId len body same enough done =>
          rw [same, List.length_append, Frame.length_header, frameHeaderSize] at short
          omega

theorem follows : reader.Follows parseFrame Left size where
  polls here := by
    cases here with
    | header feeds => exact polled_pollHeader _ feeds
    | payload cmd streamId len body feeds =>
        exact polled_pollPayload cmd streamId len body feeds (Nat.le_refl _)
  drops here := by
    cases here with
    | header feeds => exact ⟨.header feeds, Nat.le_refl _⟩
    | payload cmd streamId len body feeds => exact ⟨.header feeds, Nat.le_refl _⟩

end Polling

/-! The same parse is what `read_frame` does with all the bytes at once. -/

theorem readFrame_header (cmd : Command) (streamId : UInt32) (len : UInt16) (body : Bytes) :
    QuicProxy.readFrame (Frame.header cmd streamId len ++ body) =
      if body.length < len.toNat then .error "read frame payload"
      else .ok (⟨streamId, cmd, body.take len.toNat⟩, body.drop len.toNat) := by
  obtain ⟨a, b, c, d, idSplit, idValue⟩ := u32ToBe_eq streamId
  obtain ⟨high, low, lenSplit, lenValue⟩ := u16ToBe_eq len
  simp only [Frame.header, idSplit, lenSplit, List.cons_append, List.nil_append,
    QuicProxy.readFrame, readU8, Command.ofByte_toByte, readU32, readU16, idValue, lenValue]
  by_cases empty : len.toNat = 0
  · rw [if_neg (not_not_intro empty), empty, if_neg (Nat.not_lt_zero _)]
    rfl
  · rw [if_pos empty]
    rcases Nat.lt_or_ge body.length len.toNat with few | enough
    · rw [if_pos few, readExact_of_length_lt few]
    · rw [if_neg (Nat.not_lt.mpr enough), readExact_of_le enough]

theorem readFrame_short {bytes : Bytes} (few : bytes.length < frameHeaderSize) :
    ∃ error, QuicProxy.readFrame bytes = .error error := by
  match bytes with
  | [] => exact ⟨_, rfl⟩
  | byte :: tail =>
      simp only [QuicProxy.readFrame, readU8]
      cases known : Command.ofByte byte with
      | none => exact ⟨_, rfl⟩
      | some cmd =>
          rcases tail with _ | ⟨_, _ | ⟨_, _ | ⟨_, _ | ⟨_, _ | ⟨_, _ | ⟨_, _⟩⟩⟩⟩⟩⟩
          all_goals first
            | exact ⟨_, rfl⟩
            | simp only [List.length_cons, frameHeaderSize] at few
              omega

theorem readFrame_unknown {bytes : Bytes} {byte : UInt8} (first : bytes.head? = some byte)
    (refused : Command.ofByte byte = none) :
    QuicProxy.readFrame bytes = .error s!"unknown anytls command: {byte.toNat}" := by
  cases bytes with
  | nil => cases first
  | cons head tail =>
      cases first
      simp only [QuicProxy.readFrame, readU8, refused]

theorem run_readAll {calls : Nat} {bytes : Bytes} (enough : bytes.length < calls) :
    (∃ stop, Run parseFrame bytes (readAll QuicProxy.readFrame calls bytes).1 stop) ∧
      (readAll QuicProxy.readFrame calls bytes).2 ≠ none := by
  induction calls generalizing bytes with
  | zero => exact absurd enough (Nat.not_lt_zero _)
  | succ calls ih =>
      rw [readAll]
      cases front bytes with
      | short few parsed =>
          obtain ⟨error, failed⟩ := readFrame_short few
          rw [failed]
          exact ⟨⟨none, .ends parsed⟩, Option.some_ne_none error⟩
      | unknown byte _ refused first broken =>
          rw [readFrame_unknown first refused]
          exact ⟨⟨some _, .breaks (at_nil broken)⟩, Option.some_ne_none _⟩
      | part cmd streamId len body same few parsed =>
          have failed := readFrame_header cmd streamId len body
          rw [if_pos few, ← same] at failed
          rw [failed]
          exact ⟨⟨none, .ends parsed⟩, Option.some_ne_none _⟩
      | whole cmd streamId len body same long done =>
          have given := readFrame_header cmd streamId len body
          rw [if_neg (Nat.not_lt.mpr long), ← same] at given
          have dropped : bytes.drop (frameHeaderSize + len.toNat) = body.drop len.toNat := by
            rw [same, ← List.drop_drop]
            rfl
          have less : (body.drop len.toNat).length < calls := by
            rw [same, List.length_append, Frame.length_header] at enough
            rw [List.length_drop]
            omega
          obtain ⟨⟨stop, run⟩, ends⟩ := ih less
          rw [given]
          exact ⟨⟨stop, .value (at_nil done) (dropped ▸ run)⟩, ends⟩

theorem parseFrame_toBytes {frame : Frame} (fits : frame.Fits) (more : Bytes) :
    parseFrame (frame.toBytes ++ more) = .done frame frame.toBytes.length := by
  have bound : frame.data.length ≤ 65535 := fits
  have length : (castU16 frame.data.length).toNat = frame.data.length := by
    rw [toNat_castU16]
    omega
  rw [Frame.length_toBytes, Frame.toBytes, List.append_assoc, parseFrame_header, parseBody,
    length, if_neg (by rw [List.length_append]; omega), List.take_left]
  rfl

theorem parseFrame_cut {frame : Frame} (fits : frame.Fits) {part : Bytes}
    (cut : part <+: frame.toBytes) (strict : part ≠ frame.toBytes) :
    ∃ count, parseFrame part = .need count := by
  obtain ⟨lost, whole⟩ := cut
  cases parsed : parseFrame part with
  | need count => exact ⟨count, rfl⟩
  | failed error =>
      have broken := steady_parseFrame.failed parsed lost
      rw [whole] at broken
      have done := parseFrame_toBytes fits []
      rw [List.append_nil] at done
      cases done.symm.trans broken
  | done value used =>
      obtain ⟨-, long, given⟩ := steady_parseFrame.done parsed
      have again := given lost
      have done := parseFrame_toBytes fits []
      rw [List.append_nil] at done
      rw [whole] at again
      cases done.symm.trans again
      have total := congrArg List.length whole
      rw [List.length_append] at total
      have nothing : lost = [] := List.length_eq_zero_iff.mp (by omega)
      rw [nothing, List.append_nil] at whole
      exact absurd whole strict

/-- However far the polls have come, the reader has returned the first of
`frames`; it fails only behind the last, and then has to, polled often enough. -/
structure ThenFails (stream : List PollRead) (drops : List Bool) (frames : List Frame) : Prop where
  front : (reader.results drops (.new stream)).1 <+: frames
  whole (failed : (reader.results drops (.new stream)).2 ≠ none) :
    (reader.results drops (.new stream)).1 = frames
  fails (enough : stream.length + frames.length < drops.length) :
    (reader.results drops (.new stream)).2 ≠ none

theorem thenFails_of_run {stream : List PollRead} {bytes : Bytes} (feeds : Feeds stream bytes)
    (drops : List Bool) {frames : List Frame} {stop : Option String}
    (run : Run parseFrame bytes frames stop) : ThenFails stream drops frames := by
  have here : Polling.Left (.new stream) bytes := .header feeds
  obtain ⟨given, ends⟩ := Polling.follows.given here run drops
  exact ⟨given.front, given.whole, ends⟩

theorem frameReader_eq_readFrame {stream : List PollRead} {bytes : Bytes}
    (feeds : Feeds stream bytes) (drops : List Bool) :
    (∀ frames, appendFrames [] frames = .ok bytes → ThenFails stream drops frames) ∧
    (∀ frames whole part, ∀ last : Frame, appendFrames [] frames = .ok whole → last.Fits →
      part <+: last.toBytes → part ≠ last.toBytes → bytes = whole ++ part →
        ThenFails stream drops frames) ∧
    (readAll QuicProxy.readFrame (bytes.length + 1) bytes).2 ≠ none ∧
      ThenFails stream drops (readAll QuicProxy.readFrame (bytes.length + 1) bytes).1 := by
  have encoded {frames : List Frame} {whole part : Bytes} {count : Nat}
      (appended : appendFrames [] frames = .ok whole) (cut : parseFrame part = .need count)
      (same : bytes = whole ++ part) : ThenFails stream drops frames := by
    obtain ⟨rfl, fits⟩ := appendFrames_eq_ok appended
    have run := Run.flatMap (fun frame member => parseFrame_toBytes (fits frame member)) cut
    rw [List.nil_append] at same
    rw [← same, List.map_id'] at run
    exact thenFails_of_run feeds drops run
  refine ⟨fun frames appended => ?_, fun frames whole part last appended fits cut strict same => ?_,
    ?_⟩
  · have nothing : parseFrame [] = .need frameHeaderSize := rfl
    exact encoded appended nothing (List.append_nil _).symm
  · obtain ⟨count, need⟩ := parseFrame_cut fits cut strict
    exact encoded appended need same
  · obtain ⟨⟨stop, run⟩, ends⟩ := run_readAll (Nat.lt_succ_self bytes.length)
    exact ⟨ends, thenFails_of_run feeds drops run⟩

/-- A frame in two pieces, its first call dropped between them. -/
theorem frameReader_eq_readFrame_dropped :
    ThenFails [.ready [1, 0, 0], .pending, .ready [0, 1, 0, 0], .ready []] [true, true, true]
      [⟨1, .syn, []⟩] := by
  have feeds : Feeds [.ready [1, 0, 0], .pending, .ready [0, 1, 0, 0], .ready []]
      [1, 0, 0, 0, 1, 0, 0] :=
    .ready [1, 0, 0] (by decide) (.pending (.ready [0, 1, 0, 0] (by decide) (.eof [])))
  exact (frameReader_eq_readFrame feeds [true, true, true]).1 [⟨1, .syn, []⟩] (by rfl)

end FrameReader

end QuicProxy
