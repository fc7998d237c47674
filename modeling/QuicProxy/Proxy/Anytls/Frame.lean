import QuicProxy.Utils.ReadAhead

namespace QuicProxy

/-! AnyTLS frames and the buffered frame reader
(`src/proxy/anytls_proto.rs`). -/

inductive Command where
  | waste
  | syn
  | psh
  | fin
  | settings
  | alert
  | updatePaddingScheme
  | synAck
  | heartRequest
  | heartResponse
  | serverSettings
deriving DecidableEq, Repr

namespace Command

def toByte : Command → UInt8
  | waste => 0
  | syn => 1
  | psh => 2
  | fin => 3
  | settings => 4
  | alert => 5
  | updatePaddingScheme => 6
  | synAck => 7
  | heartRequest => 8
  | heartResponse => 9
  | serverSettings => 10

def ofByte (byte : UInt8) : Option Command :=
  if byte = 0 then some waste
  else if byte = 1 then some syn
  else if byte = 2 then some psh
  else if byte = 3 then some fin
  else if byte = 4 then some settings
  else if byte = 5 then some alert
  else if byte = 6 then some updatePaddingScheme
  else if byte = 7 then some synAck
  else if byte = 8 then some heartRequest
  else if byte = 9 then some heartResponse
  else if byte = 10 then some serverSettings
  else none

@[simp] theorem ofByte_toByte (cmd : Command) : ofByte cmd.toByte = some cmd := by
  cases cmd <;> rfl

theorem of_ite_eq_some {choice : Prop} [Decidable choice] {first cmd : Command}
    {rest : Option Command} (chosen : (if choice then some first else rest) = some cmd) :
    choice ∧ first = cmd ∨ rest = some cmd := by
  split at chosen
  · next holds => exact .inl ⟨holds, Option.some.inj chosen⟩
  · exact .inr chosen

theorem toByte_of_ofByte {byte : UInt8} {cmd : Command}
    (known : ofByte byte = some cmd) : cmd.toByte = byte := by
  unfold ofByte at known
  iterate 11
    rcases of_ite_eq_some known with ⟨rfl, rfl⟩ | known
    · rfl
  cases known

end Command

structure Frame where
  streamId : UInt32
  cmd : Command
  data : Bytes
deriving DecidableEq

def frameHeaderSize : Nat := 7

namespace Frame

def Fits (frame : Frame) : Prop := frame.data.length ≤ 65535

instance (frame : Frame) : Decidable frame.Fits :=
  inferInstanceAs (Decidable (_ ≤ _))

def header (cmd : Command) (streamId : UInt32) (len : UInt16) : Bytes :=
  cmd.toByte :: u32ToBe streamId ++ u16ToBe len

def toBytes (frame : Frame) : Bytes :=
  header frame.cmd frame.streamId (castU16 frame.data.length) ++ frame.data

@[simp] theorem length_header (cmd : Command) (streamId : UInt32) (len : UInt16) :
    (header cmd streamId len).length = 7 := rfl

@[simp] theorem length_toBytes (frame : Frame) :
    frame.toBytes.length = 7 + frame.data.length := by
  simp [toBytes]

theorem header_inj {cmd cmd' : Command} {streamId streamId' : UInt32} {len len' : UInt16}
    (same : header cmd streamId len = header cmd' streamId' len') :
    cmd = cmd' ∧ streamId = streamId' ∧ len = len' := by
  obtain ⟨a, b, c, d, idSplit, rfl⟩ := u32ToBe_eq streamId
  obtain ⟨a', b', c', d', idSplit', rfl⟩ := u32ToBe_eq streamId'
  obtain ⟨high, low, lenSplit, rfl⟩ := u16ToBe_eq len
  obtain ⟨high', low', lenSplit', rfl⟩ := u16ToBe_eq len'
  simp only [header, idSplit, idSplit', lenSplit, lenSplit', List.cons_append,
    List.nil_append, List.cons.injEq] at same
  obtain ⟨byte, rfl, rfl, rfl, rfl, rfl, rfl, _⟩ := same
  have known := congrArg Command.ofByte byte
  rw [Command.ofByte_toByte, Command.ofByte_toByte] at known
  exact ⟨Option.some.inj known, rfl, rfl⟩

theorem toBytes_append_inj {frame frame' : Frame} (fits : frame.Fits)
    (fits' : frame'.Fits) {rest rest' : Bytes}
    (same : frame.toBytes ++ rest = frame'.toBytes ++ rest') :
    frame = frame' ∧ rest = rest' := by
  obtain ⟨streamId, cmd, data⟩ := frame
  obtain ⟨streamId', cmd', data'⟩ := frame'
  simp only [toBytes, List.append_assoc] at same
  obtain ⟨headers, bodies⟩ := List.append_inj same rfl
  obtain ⟨rfl, rfl, lens⟩ := header_inj headers
  have lengths : data.length = data'.length := by
    have := congrArg UInt16.toNat lens
    simp only [Fits] at fits fits'
    rw [toNat_castU16, toNat_castU16] at this
    omega
  obtain ⟨rfl, rfl⟩ := List.append_inj bodies lengths
  exact ⟨rfl, rfl⟩

theorem exists_append_of_flatMap_toBytes {frames out : List Frame} {rest : Bytes}
    (fits : ∀ frame ∈ frames, frame.Fits) (outFits : ∀ frame ∈ out, frame.Fits)
    (same : frames.flatMap toBytes ++ rest = out.flatMap toBytes) :
    ∃ later, out = frames ++ later ∧ rest = later.flatMap toBytes := by
  induction frames generalizing out with
  | nil => exact ⟨out, rfl, same⟩
  | cons frame frames ih =>
      rw [List.flatMap_cons, List.append_assoc] at same
      cases out with
      | nil => simp [toBytes, header] at same
      | cons first out =>
          rw [List.flatMap_cons] at same
          obtain ⟨rfl, tails⟩ := toBytes_append_inj (fits frame (List.mem_cons_self ..))
            (outFits first (List.mem_cons_self ..)) same
          obtain ⟨later, rfl, rest⟩ :=
            ih (fun frame member => fits frame (List.mem_cons_of_mem _ member))
              (fun frame member => outFits frame (List.mem_cons_of_mem _ member)) tails
          exact ⟨later, rfl, rest⟩

end Frame

def appendFrame (dst : Bytes) (frame : Frame) : Except String Bytes :=
  if frame.data.length ≤ 65535 then .ok (dst ++ frame.toBytes)
  else .error "anytls frame payload exceeds 65535 bytes"

theorem appendFrame_of_fits {frame : Frame} (fits : frame.Fits) (dst : Bytes) :
    appendFrame dst frame = .ok (dst ++ frame.toBytes) :=
  if_pos fits

theorem appendFrame_of_not_fits {frame : Frame} (large : ¬frame.Fits) (dst : Bytes) :
    appendFrame dst frame = .error "anytls frame payload exceeds 65535 bytes" :=
  if_neg large

/-- Successive `append_frame`s to one buffer, as the write loop batches them. -/
def appendFrames (dst : Bytes) : List Frame → Except String Bytes
  | [] => .ok dst
  | frame :: rest =>
      match appendFrame dst frame with
      | .error error => .error error
      | .ok dst => appendFrames dst rest

theorem appendFrames_eq_ok {dst out : Bytes} {frames : List Frame}
    (appended : appendFrames dst frames = .ok out) :
    out = dst ++ frames.flatMap Frame.toBytes ∧ ∀ frame ∈ frames, frame.Fits := by
  induction frames generalizing dst with
  | nil =>
      cases appended
      simp
  | cons frame rest ih =>
      simp only [appendFrames, appendFrame] at appended
      split at appended
      · cases appended
      · next next step =>
          split at step
          · next fits =>
              cases step
              obtain ⟨same, restFits⟩ := ih appended
              refine ⟨?_, ?_⟩
              · rw [same, List.flatMap_cons, List.append_assoc]
              · exact List.forall_mem_cons.mpr ⟨fits, restFits⟩
          · cases step

namespace FrameReader

open ReadAhead

def readBody (stream : List PollRead) (buf : Bytes) :
    Option (Except String Frame × Bytes × List PollRead) :=
  match buf with
  | byte :: a :: b :: c :: d :: high :: low :: _ =>
      match Command.ofByte byte with
      | none => some (.error s!"unknown anytls command: {byte.toNat}", buf, stream)
      | some cmd =>
          let dataLen := (u16FromBe high low).toNat
          match fill (frameHeaderSize + dataLen) false stream buf with
          | none => none
          | some (.error _, buf, stream) =>
              some (.error "read frame payload", buf, stream)
          | some (.ok _, buf, stream) =>
              some (.ok ⟨u32FromBe a b c d, cmd, (buf.drop frameHeaderSize).take dataLen⟩,
                buf.drop (frameHeaderSize + dataLen), stream)
  | _ => some (.error "read frame header", buf, stream)

/-- `FrameReader::read_frame` on the reader's stream and buffer: the result
with the new buffer and what the stream still gives, `none` while it never
becomes ready. -/
def readFrame (stream : List PollRead) (buf : Bytes) :
    Option (Except String Frame × Bytes × List PollRead) :=
  match fill frameHeaderSize false stream buf with
  | none => none
  | some (.error _, buf, stream) => some (.error "read frame header", buf, stream)
  | some (.ok _, buf, stream) => readBody stream buf

/-- The reader returns `frames` and then fails with `left` in its buffer. -/
inductive Reads : List PollRead → Bytes → List Frame → Bytes → Prop
  | stop {stream stream' : List PollRead} {buf left : Bytes} {error : String}
      (failed : readFrame stream buf = some (.error error, left, stream')) :
      Reads stream buf [] left
  | frame {stream stream' : List PollRead} {buf buf' left : Bytes} {frame : Frame}
      {frames : List Frame}
      (read : readFrame stream buf = some (.ok frame, buf', stream'))
      (rest : Reads stream' buf' frames left) :
      Reads stream buf (frame :: frames) left

theorem readBody_header (stream : List PollRead) (cmd : Command) (streamId : UInt32)
    (len : UInt16) (tail : Bytes) :
    readBody stream (Frame.header cmd streamId len ++ tail) =
      match fill (frameHeaderSize + len.toNat) false stream
        (Frame.header cmd streamId len ++ tail) with
      | none => none
      | some (.error _, buf, stream) => some (.error "read frame payload", buf, stream)
      | some (.ok _, buf, stream) =>
          some (.ok ⟨streamId, cmd, (buf.drop frameHeaderSize).take len.toNat⟩,
            buf.drop (frameHeaderSize + len.toNat), stream) := by
  obtain ⟨a, b, c, d, idSplit, idValue⟩ := u32ToBe_eq streamId
  obtain ⟨high, low, lenSplit, lenValue⟩ := u16ToBe_eq len
  simp only [Frame.header, idSplit, lenSplit, List.cons_append, List.nil_append,
    readBody, Command.ofByte_toByte, idValue, lenValue]

theorem readBody_of_feeds {stream : List PollRead} {bytes tail data rest : Bytes}
    (feeds : Feeds stream bytes) (cmd : Command) (streamId : UInt32) {len : UInt16}
    (length : len.toNat = data.length) (split : tail ++ bytes = data ++ rest) :
    ∃ buf' bytes' stream',
      readBody stream (Frame.header cmd streamId len ++ tail) =
          some (.ok ⟨streamId, cmd, data⟩, buf', stream') ∧
        buf' ++ bytes' = rest ∧ Feeds stream' bytes' := by
  have total := congrArg List.length split
  simp only [List.length_append] at total
  obtain ⟨filledBuf, bytes', stream', filled, long, same, feeds'⟩ :=
    fill_of_feeds feeds (frameHeaderSize + len.toNat)
      (Frame.header cmd streamId len ++ tail)
      (by simp only [frameHeaderSize, List.length_append, Frame.length_header]; omega)
  rw [List.append_assoc, split, ← List.append_assoc] at same
  have whole : (Frame.header cmd streamId len ++ data).length =
      frameHeaderSize + len.toNat := by
    rw [List.length_append, Frame.length_header, length, frameHeaderSize]
  obtain ⟨buf', rfl, dropped⟩ :=
    exists_append_of_length_le same (by rw [whole]; exact long)
  refine ⟨buf', bytes', stream', ?_, dropped, feeds'⟩
  have payload : ((Frame.header cmd streamId len ++ data ++ buf').drop
      frameHeaderSize).take len.toNat = data := by
    rw [List.append_assoc, length]
    exact List.take_left
  have after : (Frame.header cmd streamId len ++ data ++ buf').drop
      (frameHeaderSize + len.toNat) = buf' := by
    rw [← whole, List.drop_left]
  rw [readBody_header, filled]
  simp only [payload, after]

theorem readFrame_of_feeds {stream : List PollRead} {bytes buf rest : Bytes}
    (feeds : Feeds stream bytes) {frame : Frame} (fits : frame.Fits)
    (split : buf ++ bytes = frame.toBytes ++ rest) :
    ∃ buf' bytes' stream',
      readFrame stream buf = some (.ok frame, buf', stream') ∧
        buf' ++ bytes' = rest ∧ Feeds stream' bytes' := by
  have total := congrArg List.length split
  simp only [List.length_append, Frame.length_toBytes] at total
  obtain ⟨first, left, stream₁, filled, long, same, feeds₁⟩ :=
    fill_of_feeds feeds frameHeaderSize buf
      (by simp only [frameHeaderSize]; omega)
  rw [split, Frame.toBytes, List.append_assoc] at same
  obtain ⟨tail, rfl, tailSplit⟩ := exists_append_of_length_le same long
  have length : (castU16 frame.data.length).toNat = frame.data.length := by
    have bound : frame.data.length ≤ 65535 := fits
    rw [toNat_castU16]
    omega
  simp only [readFrame, filled]
  exact readBody_of_feeds feeds₁ frame.cmd frame.streamId length tailSplit

theorem exists_header {bytes : Bytes} (long : frameHeaderSize ≤ bytes.length) :
    (∃ cmd streamId len tail, bytes = Frame.header cmd streamId len ++ tail) ∨
      ∀ stream, ∃ error, readBody stream bytes = some (.error error, bytes, stream) := by
  match bytes with
  | byte :: a :: b :: c :: d :: high :: low :: tail =>
      cases known : Command.ofByte byte with
      | some cmd =>
          refine .inl ⟨cmd, u32FromBe a b c d, u16FromBe high low, tail, ?_⟩
          rw [Frame.header, Command.toByte_of_ofByte known, u32ToBe_u32FromBe,
            u16ToBe_u16FromBe]
          rfl
      | none =>
          refine .inr fun stream => ⟨s!"unknown anytls command: {byte.toNat}", ?_⟩
          simp only [readBody, known]
  | [] | [_] | [_, _] | [_, _, _] | [_, _, _, _] | [_, _, _, _, _]
  | [_, _, _, _, _, _] => simp [frameHeaderSize] at long

theorem toBytes_of_readBody {stream stream' : List PollRead} {bytes tail buf' : Bytes}
    (feeds : Feeds stream bytes) {cmd : Command} {streamId : UInt32} {len : UInt16}
    {frame : Frame}
    (read : readBody stream (Frame.header cmd streamId len ++ tail) =
      some (.ok frame, buf', stream')) :
    frame.Fits ∧ ∃ bytes', Feeds stream' bytes' ∧
      Frame.header cmd streamId len ++ tail ++ bytes =
        frame.toBytes ++ (buf' ++ bytes') := by
  rw [readBody_header] at read
  split at read
  · cases read
  · cases read
  · next filledBuf _ filled =>
      obtain ⟨bytes', feeds', long, same⟩ := feeds_of_fill feeds filled
      cases read
      rw [List.append_assoc] at same
      obtain ⟨body, rfl, _⟩ := exists_append_of_length_le same
        (by rw [Frame.length_header]; simp only [frameHeaderSize] at long; omega)
      have bodyLong : len.toNat ≤ body.length := by
        simp only [frameHeaderSize, List.length_append, Frame.length_header] at long
        omega
      have bound := len.toNat_lt
      have payload : (Frame.header cmd streamId len ++ body).drop frameHeaderSize =
          body := rfl
      have after : (Frame.header cmd streamId len ++ body).drop
          (frameHeaderSize + len.toNat) = body.drop len.toNat := by
        rw [← List.drop_drop, payload]
      have dataLen : (body.take len.toNat).length = len.toNat := by
        rw [List.length_take]
        omega
      rw [payload, after]
      refine ⟨?_, bytes', feeds', ?_⟩
      · simp only [Frame.Fits, dataLen]
        omega
      · have lenField : castU16 len.toNat = len := by simp [castU16]
        simp only [Frame.toBytes, dataLen, lenField]
        rw [List.append_assoc, ← same, List.append_assoc, List.append_assoc,
          ← List.append_assoc (body.take _), List.take_append_drop]

theorem toBytes_of_readFrame {stream stream' : List PollRead} {bytes buf buf' : Bytes}
    (feeds : Feeds stream bytes) {frame : Frame}
    (read : readFrame stream buf = some (.ok frame, buf', stream')) :
    frame.Fits ∧ ∃ bytes', Feeds stream' bytes' ∧
      buf ++ bytes = frame.toBytes ++ (buf' ++ bytes') := by
  unfold readFrame at read
  split at read
  · cases read
  · cases read
  · next first stream₁ filled =>
      obtain ⟨left, feeds₁, long, same⟩ := feeds_of_fill feeds filled
      rcases exists_header long with ⟨cmd, streamId, len, tail, rfl⟩ | refused
      · rw [← same]
        exact toBytes_of_readBody feeds₁ read
      · obtain ⟨_, failed⟩ := refused stream₁
        rw [failed] at read
        cases read

theorem readFrame_eof {stream : List PollRead} (feeds : Feeds stream []) :
    ∃ stream', readFrame stream [] = some (.error "read frame header", [], stream') := by
  obtain ⟨_, stream', failed⟩ :=
    fill_of_feeds_short feeds frameHeaderSize [] (by decide)
  exact ⟨stream', by simp only [readFrame, failed, List.append_nil]⟩

theorem reads_of_feeds {frames : List Frame} (fits : ∀ frame ∈ frames, frame.Fits)
    {stream : List PollRead} {bytes buf : Bytes} (feeds : Feeds stream bytes)
    (split : buf ++ bytes = frames.flatMap Frame.toBytes) :
    Reads stream buf frames [] := by
  induction frames generalizing stream bytes buf with
  | nil =>
      obtain ⟨rfl, rfl⟩ := List.append_eq_nil_iff.mp split
      obtain ⟨stream', failed⟩ := readFrame_eof feeds
      exact .stop failed
  | cons frame rest ih =>
      rw [List.flatMap_cons] at split
      obtain ⟨buf', bytes', stream', read, split', feeds'⟩ :=
        readFrame_of_feeds feeds (fits frame (List.mem_cons_self ..)) split
      exact .frame read
        (ih (fun frame member => fits frame (List.mem_cons_of_mem _ member))
          feeds' split')

theorem eq_nil_of_readFrame_error {stream stream' : List PollRead} {bytes buf : Bytes}
    (feeds : Feeds stream bytes) {error : String}
    (failed : readFrame stream buf = some (.error error, [], stream')) :
    buf ++ bytes = [] := by
  unfold readFrame at failed
  split at failed
  · cases failed
  · next fillFailed =>
      cases failed
      exact (eq_append_of_fill_error feeds fillFailed).symm
  · next first stream₁ filled =>
      obtain ⟨left, feeds₁, long, _⟩ := feeds_of_fill feeds filled
      -- A whole header is buffered, and no failure after that drops it.
      rcases exists_header long with ⟨cmd, streamId, len, tail, rfl⟩ | refused
      · rw [readBody_header] at failed
        split at failed
        · cases failed
        · next fillFailed =>
            cases failed
            have := eq_append_of_fill_error feeds₁ fillFailed
            simp [Frame.header] at this
        · cases failed
      · obtain ⟨_, kept⟩ := refused stream₁
        rw [kept] at failed
        cases failed
        simp [frameHeaderSize] at long

theorem flatMap_toBytes_of_reads {stream : List PollRead} {bytes buf left : Bytes}
    {frames : List Frame} (feeds : Feeds stream bytes)
    (reads : Reads stream buf frames left) (empty : left = []) :
    buf ++ bytes = frames.flatMap Frame.toBytes ∧ ∀ frame ∈ frames, frame.Fits := by
  induction reads generalizing bytes with
  | @stop stream stream' buf left error failed =>
      subst empty
      exact ⟨eq_nil_of_readFrame_error feeds failed, by simp⟩
  | frame read rest ih =>
      obtain ⟨fits, bytes', feeds', same⟩ := toBytes_of_readFrame feeds read
      obtain ⟨restSame, restFits⟩ := ih feeds' empty
      refine ⟨?_, ?_⟩
      · rw [same, restSame, List.flatMap_cons]
      · exact List.forall_mem_cons.mpr ⟨fits, restFits⟩

end FrameReader

end QuicProxy
