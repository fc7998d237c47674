import Mathlib.Algebra.Ring.Int.Defs
import Mathlib.Algebra.Ring.Nat
import QuicProxy.Data.Text
import QuicProxy.Proxy.Anytls.Frame

namespace QuicProxy

/-! The padding scheme of an AnyTLS client and the records it makes of a write
(`src/proxy/outbound/anytls.rs`). -/

def usizeLimit : Nat := 2 ^ 64

/-- Allocations are below this (`isize::MAX + 1`). -/
def allocLimit : Nat := 2 ^ 63

def usizeAsI64 (size : Nat) : Int :=
  if size < 2 ^ 63 then size else (size : Int) - 2 ^ 64

def i64AsUsize (size : Int) : Nat := (size % 2 ^ 64).toNat

theorem i64AsUsize_usizeAsI64 {size : Nat} (fits : size < usizeLimit) :
    i64AsUsize (usizeAsI64 size) = size := by
  simp only [usizeLimit] at fits
  unfold i64AsUsize usizeAsI64
  split <;> omega

/-- `CHECK_MARK`. -/
def checkMarkSize : Int := -1

inductive PaddingEntry where
  | fixed (size : Nat) (positive : 0 < size) (fits : size < usizeLimit)
  | range (min max : Nat) (positive : 0 < min) (ordered : min < max)
      (fits : max < usizeLimit)
  | checkMark
deriving DecidableEq

namespace PaddingEntry

def ofBounds (first second : Nat) (firstFits : first < usizeLimit)
    (secondFits : second < usizeLimit) : Option PaddingEntry :=
  if positive : 0 < min first second then
    if ordered : min first second < max first second then
      some (range (min first second) (max first second) positive ordered
        (Nat.max_lt.mpr ⟨firstFits, secondFits⟩))
    else
      some (fixed (min first second) positive
        (Nat.lt_of_le_of_lt (Nat.min_le_left ..) firstFits))
  else none

def parse (part : List Char) : Except String (Option PaddingEntry) :=
  let part := trim part
  if part = ['c'] then .ok (some checkMark)
  else
    match splitOnce '-' part with
    | none => .ok none
    | some (first, second) =>
        match firstParsed : parseUnsigned usizeLimit (trim first) with
        | none => .error "invalid padding min"
        | some first =>
            match secondParsed : parseUnsigned usizeLimit (trim second) with
            | none => .error "invalid padding max"
            | some second =>
                .ok (ofBounds first second (parseUnsigned_lt firstParsed)
                  (parseUnsigned_lt secondParsed))

/-- The record size an entry gives; `draw` is the random number behind a range. -/
def recordSize (draw : Nat) : PaddingEntry → Int
  | fixed size _ _ => usizeAsI64 size
  | range min max _ _ _ => usizeAsI64 (min + draw % (max - min + 1))
  | checkMark => checkMarkSize

end PaddingEntry

structure PaddingScheme where
  stopAt : Nat
  /-- Policies by packet index, the last inserted one first. -/
  policies : List (Nat × List PaddingEntry)
  hash : String
  raw : Bytes
deriving DecidableEq

namespace PaddingScheme

def parseParts : List (List Char) → Except String (List PaddingEntry)
  | [] => .ok []
  | part :: rest =>
      match PaddingEntry.parse part, parseParts rest with
      | .error error, _ => .error error
      | .ok _, .error error => .error error
      | .ok none, .ok entries => .ok entries
      | .ok (some entry), .ok entries => .ok (entry :: entries)

def parseEntries (text : List Char) : Except String (List PaddingEntry) :=
  parseParts (text.splitOn ',')

def parseLines (stopAt : Nat) (policies : List (Nat × List PaddingEntry)) :
    List (List Char) → Except String (Nat × List (Nat × List PaddingEntry))
  | [] => .ok (stopAt, policies)
  | line :: rest =>
      match splitOnce '=' (trim line) with
      | none => parseLines stopAt policies rest
      | some (key, value) =>
          if trim key = "stop".toList then
            match parseUnsigned (2 ^ 32) (trim value) with
            | none => .error "invalid stop value"
            | some stopAt => parseLines stopAt policies rest
          else
            match parseUnsigned (2 ^ 32) (trim key) with
            | none => parseLines stopAt policies rest
            | some pktIdx =>
                match parseEntries (trim value) with
                | .error error => .error error
                | .ok entries => parseLines stopAt ((pktIdx, entries) :: policies) rest

/-- `PaddingScheme::parse`; `md5Hex` is `format!("{:x}", md5::compute(raw))`. -/
def parse (md5Hex : Bytes → String) (raw : Bytes) : Except String PaddingScheme :=
  match fromUtf8 raw with
  | none => .error "padding scheme is not UTF-8"
  | some text =>
      match parseLines 0 [] (lines text.toList) with
      | .error error => .error error
      | .ok (stopAt, policies) => .ok ⟨stopAt, policies, md5Hex raw, raw⟩

def entries (scheme : PaddingScheme) (pkt : Nat) : List PaddingEntry :=
  (scheme.policies.lookup pkt).getD []

def generateRecordPayloadSizes (scheme : PaddingScheme) (pkt : Nat)
    (draws : Nat → Nat) : List Int :=
  (scheme.entries pkt).mapIdx fun index entry => entry.recordSize (draws index)

end PaddingScheme

/-! Writing with padding. -/

structure SessionPadding where
  sendPadding : Bool
  packetCount : Nat
  paddingScheme : PaddingScheme

/-- A WASTE frame with `len` bytes of padding, its length field cast to 16
bits; `none` is the panic of an allocation that is too large. -/
def wasteFrame (len : Nat) : Option Bytes :=
  if frameHeaderSize + len < allocLimit then
    some (Frame.header .waste 0 (castU16 len) ++ List.replicate len 0)
  else none

/-- The loop of `write_with_padding` over the record sizes, and the write of
what is left after it. -/
def writeRecords : List Int → Bytes → Option Bytes
  | [], remaining => some remaining
  | size :: sizes, remaining =>
      if size = checkMarkSize then
        if remaining.isEmpty then some [] else writeRecords sizes remaining
      else
        let targetSize := i64AsUsize size
        if remaining.length > targetSize then do
          -- This record is all payload.
          let rest ← writeRecords sizes (remaining.drop targetSize)
          pure (remaining.take targetSize ++ rest)
        else if remaining.length > 0 then
          let paddingLen := targetSize - (remaining.length + frameHeaderSize)
          if paddingLen > 0 then do
            let waste ← wasteFrame paddingLen
            let rest ← writeRecords sizes []
            pure (remaining ++ (waste ++ rest))
          else do
            let rest ← writeRecords sizes []
            pure (remaining ++ rest)
        else do
          -- This record is all padding.
          let waste ← wasteFrame targetSize
          let rest ← writeRecords sizes []
          pure (waste ++ rest)

namespace SessionPadding

/-- `write_with_padding` on a transport that takes every write: the bytes it
writes and the session after it. -/
def writeWithPadding (session : SessionPadding) (draws : Nat → Nat) (data : Bytes) :
    Option (Bytes × SessionPadding) :=
  if !session.sendPadding then some (data, session)
  else
    let pkt := session.packetCount
    let counted := { session with packetCount := (pkt + 1) % 2 ^ 64 }
    if pkt ≥ session.paddingScheme.stopAt then
      some (data, { counted with sendPadding := false })
    else
      let sizes := session.paddingScheme.generateRecordPayloadSizes (pkt % 2 ^ 32) draws
      (writeRecords sizes data).map (·, counted)

/-! The two halves of `write_with_padding`, between which the scheme may be
replaced: the packet gets its number before the scheme is locked. -/

def number (session : SessionPadding) : SessionPadding :=
  { session with packetCount := (session.packetCount + 1) % 2 ^ 64 }

def shape (session : SessionPadding) (pkt : Nat) (draws : Nat → Nat) (data : Bytes) :
    Option Bytes × SessionPadding :=
  if pkt ≥ session.paddingScheme.stopAt then (some data, { session with sendPadding := false })
  else
    (writeRecords (session.paddingScheme.generateRecordPayloadSizes (pkt % 2 ^ 32) draws) data,
      session)

theorem writeWithPadding_eq_shape (session : SessionPadding) (draws : Nat → Nat) (data : Bytes)
    (sending : session.sendPadding = true) :
    session.writeWithPadding draws data =
      match session.number.shape session.packetCount draws data with
      | (written, after) => written.map (·, after) := by
  simp only [writeWithPadding, sending, Bool.not_true, Bool.false_eq_true, if_false, shape,
    number]
  split <;> rfl

theorem writeWithPadding_eq (session : SessionPadding) (draws : Nat → Nat) (data : Bytes)
    (sending : session.sendPadding = true)
    (running : session.packetCount < session.paddingScheme.stopAt) :
    session.writeWithPadding draws data =
      (writeRecords (session.paddingScheme.generateRecordPayloadSizes
        (session.packetCount % 2 ^ 32) draws) data).map (·, session.number) := by
  have shaped : session.number.shape session.packetCount draws data = (_, session.number) :=
    if_neg (Nat.not_le.mpr running)
  rw [writeWithPadding_eq_shape session draws data sending, shaped]
  rfl

theorem writeWithPadding_stopped (session : SessionPadding) (draws : Nat → Nat) (data : Bytes)
    (sending : session.sendPadding = true)
    (stopped : session.paddingScheme.stopAt ≤ session.packetCount) :
    session.writeWithPadding draws data =
      some (data, { session.number with sendPadding := false }) := by
  have shaped : session.number.shape session.packetCount draws data = (some data, _) :=
    if_pos stopped
  rw [writeWithPadding_eq_shape session draws data sending, shaped]
  rfl

end SessionPadding

inductive PlusWaste : List Frame → List Frame → Prop
  | nil : PlusWaste [] []
  | keep (frame : Frame) {frames out : List Frame} (rest : PlusWaste frames out) :
      PlusWaste (frame :: frames) (frame :: out)
  | waste {frame : Frame} (padding : frame.cmd = .waste) {frames out : List Frame}
      (rest : PlusWaste frames out) : PlusWaste frames (frame :: out)

/-- However the written bytes arrive, the frame reader returns `frames` and
otherwise only WASTE frames, and no byte is left over. -/
def Transparent (frames : List Frame) (written : Bytes) : Prop :=
  ∀ stream, ReadAhead.Feeds stream written →
    ∃ out, FrameReader.Reads stream [] out [] ∧ PlusWaste frames out

/-- The padding lengths of the records that the sizes make of `left` bytes of
payload fit the 16-bit length field. -/
def PaddingFits : List Int → Nat → Prop
  | [], _ => True
  | size :: sizes, left =>
      if size = checkMarkSize then left = 0 ∨ PaddingFits sizes left
      else if left > i64AsUsize size then PaddingFits sizes (left - i64AsUsize size)
      else if left > 0 then
        i64AsUsize size ≤ left + frameHeaderSize + 65535 ∧ PaddingFits sizes 0
      else i64AsUsize size ≤ 65535 ∧ PaddingFits sizes 0

instance decidablePaddingFits :
    (sizes : List Int) → (left : Nat) → Decidable (PaddingFits sizes left)
  | [], _ => .isTrue trivial
  | size :: sizes, left =>
      have := decidablePaddingFits sizes
      inferInstanceAs (Decidable (if size = checkMarkSize then _ ∨ _
        else if left > i64AsUsize size then _ else if left > 0 then _ ∧ _ else _ ∧ _))

def SessionPadding.Fits (session : SessionPadding) (draws : Nat → Nat) (len : Nat) :
    Prop :=
  session.sendPadding = true → session.packetCount < session.paddingScheme.stopAt →
    PaddingFits (session.paddingScheme.generateRecordPayloadSizes
      (session.packetCount % 2 ^ 32) draws) len

instance (session : SessionPadding) (draws : Nat → Nat) (len : Nat) :
    Decidable (session.Fits draws len) :=
  inferInstanceAs (Decidable (_ → _ → PaddingFits _ _))

theorem wasteFrame_of_le (len : Nat) (fits : len ≤ 65535) :
    ∃ frame : Frame, wasteFrame len = some frame.toBytes ∧ frame.cmd = .waste ∧
      frame.Fits := by
  refine ⟨⟨0, .waste, List.replicate len 0⟩, ?_, rfl, ?_⟩
  · rw [wasteFrame, if_pos (by simp only [frameHeaderSize, allocLimit]; omega)]
    simp only [Frame.toBytes, List.length_replicate]
  · simpa only [Frame.Fits, List.length_replicate] using fits

theorem writeRecords_of_fits (sizes : List Int) (remaining : Bytes)
    (fits : PaddingFits sizes remaining.length) :
    ∃ wastes : List Frame,
      writeRecords sizes remaining =
          some (remaining ++ wastes.flatMap Frame.toBytes) ∧
        ∀ frame ∈ wastes, frame.cmd = .waste ∧ frame.Fits := by
  induction sizes generalizing remaining with
  | nil => exact ⟨[], by simp [writeRecords], by simp⟩
  | cons size sizes ih =>
      simp only [PaddingFits] at fits
      simp only [writeRecords]
      by_cases mark : size = checkMarkSize
      · rw [if_pos mark] at fits ⊢
        by_cases empty : remaining.isEmpty
        · rw [if_pos empty]
          rw [List.isEmpty_iff] at empty
          exact ⟨[], by simp [empty], by simp⟩
        · rw [if_neg empty]
          rcases fits with done | fits
          · exact absurd (List.isEmpty_iff.mpr (List.length_eq_zero_iff.mp done)) empty
          · exact ih _ fits
      rw [if_neg mark] at fits ⊢
      -- A record full of payload has no padding; the one that ends the payload and
      -- those behind it may.
      by_cases payload : remaining.length > i64AsUsize size
      · rw [if_pos payload] at fits ⊢
        rw [← List.length_drop] at fits
        obtain ⟨wastes, written, padding⟩ := ih _ fits
        refine ⟨wastes, ?_, padding⟩
        simp only [written, Option.bind_eq_bind, Option.bind_some, Option.pure_def]
        rw [← List.append_assoc, List.take_append_drop]
      rw [if_neg payload] at fits ⊢
      by_cases ends : remaining.length > 0
      · rw [if_pos ends] at fits ⊢
        obtain ⟨wastes, written, padding⟩ := ih [] fits.2
        rw [List.nil_append] at written
        split
        · obtain ⟨frame, waste, cmd, small⟩ := wasteFrame_of_le
            (i64AsUsize size - (remaining.length + frameHeaderSize)) (by omega)
          refine ⟨frame :: wastes, ?_, ?_⟩
          · simp only [waste, written, Option.bind_eq_bind, Option.bind_some,
              Option.pure_def, List.flatMap_cons]
          · exact List.forall_mem_cons.mpr ⟨⟨cmd, small⟩, padding⟩
        · refine ⟨wastes, ?_, padding⟩
          simp only [written, Option.bind_eq_bind, Option.bind_some, Option.pure_def]
      · rw [if_neg ends] at fits ⊢
        have empty : remaining = [] := List.length_eq_zero_iff.mp (by omega)
        obtain ⟨wastes, written, padding⟩ := ih [] fits.2
        rw [List.nil_append] at written
        obtain ⟨frame, waste, cmd, small⟩ := wasteFrame_of_le _ fits.1
        refine ⟨frame :: wastes, ?_, ?_⟩
        · simp only [waste, written, Option.bind_eq_bind, Option.bind_some,
            Option.pure_def, List.flatMap_cons, empty, List.nil_append]
        · exact List.forall_mem_cons.mpr ⟨⟨cmd, small⟩, padding⟩

theorem plusWaste_append (frames : List Frame) {wastes : List Frame}
    (padding : ∀ frame ∈ wastes, frame.cmd = .waste) :
    PlusWaste frames (frames ++ wastes) := by
  induction frames with
  | nil =>
      induction wastes with
      | nil => exact .nil
      | cons frame rest ih =>
          exact .waste (padding frame (List.mem_cons_self ..))
            (ih fun other member => padding other (List.mem_cons_of_mem _ member))
  | cons frame rest ih => exact .keep frame ih

theorem transparent_append {frames : List Frame} (wastes : List Frame)
    (fits : ∀ frame ∈ frames, frame.Fits)
    (padding : ∀ frame ∈ wastes, frame.cmd = .waste ∧ frame.Fits) :
    Transparent frames
      (frames.flatMap Frame.toBytes ++ wastes.flatMap Frame.toBytes) := by
  intro stream feeds
  refine ⟨frames ++ wastes, ?_,
    plusWaste_append frames fun frame member => (padding frame member).1⟩
  apply FrameReader.reads_of_feeds _ feeds
  · rw [List.flatMap_append, List.nil_append]
  · intro frame member
    rcases List.mem_append.mp member with kept | added
    · exact fits frame kept
    · exact (padding frame added).2

/-- A write of whole frames is transparent when its padding fits the length
field. -/
theorem writeWithPadding_transparent (session : SessionPadding) (draws : Nat → Nat)
    (frames : List Frame) (data : Bytes) (built : appendFrames [] frames = .ok data)
    (fits : session.Fits draws data.length) :
    ∃ written session', session.writeWithPadding draws data = some (written, session') ∧
      Transparent frames written := by
  obtain ⟨rfl, framesFit⟩ := appendFrames_eq_ok built
  rw [List.nil_append] at fits ⊢
  have plain : Transparent frames (frames.flatMap Frame.toBytes) := by
    simpa using transparent_append [] framesFit (by simp)
  by_cases padded : session.sendPadding = true ∧
      session.packetCount < session.paddingScheme.stopAt
  · obtain ⟨sending, running⟩ := padded
    obtain ⟨wastes, written, padding⟩ := writeRecords_of_fits _ _ (fits sending running)
    rw [session.writeWithPadding_eq draws _ sending running, written]
    exact ⟨_, _, rfl, transparent_append wastes framesFit padding⟩
  · by_cases sending : session.sendPadding = true
    · have stopped := Nat.not_lt.mp fun running => padded ⟨sending, running⟩
      rw [session.writeWithPadding_stopped draws _ sending stopped]
      exact ⟨_, _, rfl, plain⟩
    · rw [SessionPadding.writeWithPadding, if_pos (by simp [sending])]
      exact ⟨_, _, rfl, plain⟩

def firstBatch : List Frame :=
  [⟨0, .settings, asBytes "v=2\n"⟩, ⟨1, .syn, []⟩,
    ⟨1, .psh, [1, 10, 0, 0, 1, 0, 80]⟩]

def narrowScheme : PaddingScheme :=
  ⟨8, [(1, [.range 100 400 (by decide) (by decide) (by decide), .checkMark])], "", []⟩

theorem writeWithPadding_transparent_firstBatch :
    ∃ written session', SessionPadding.writeWithPadding ⟨true, 1, narrowScheme⟩
        (fun _ => 7) (firstBatch.flatMap Frame.toBytes) = some (written, session') ∧
      Transparent firstBatch written :=
  writeWithPadding_transparent _ _ firstBatch _ (by decide) (by decide)

/-! Padding whose length field is cut to 16 bits. -/

theorem mod_seven_of_zeros {count : Nat} {frames : List Frame}
    (zeros : List.replicate count 0 = frames.flatMap Frame.toBytes)
    (fits : ∀ frame ∈ frames, frame.Fits) : count % 7 = 0 := by
  induction frames generalizing count with
  | nil =>
      have := congrArg List.length zeros
      simp only [List.length_replicate, List.flatMap_nil, List.length_nil] at this
      omega
  | cons frame rest ih =>
      have length := congrArg List.length zeros
      simp only [List.length_replicate, List.flatMap_cons, List.length_append,
        Frame.length_toBytes] at length
      rw [List.flatMap_cons, show count = 7 + (count - 7) by omega,
        List.replicate_add] at zeros
      have blank : (⟨0, .waste, []⟩ : Frame).toBytes = List.replicate 7 0 := rfl
      rw [← blank] at zeros
      obtain ⟨_, zeros⟩ := Frame.toBytes_append_inj (by decide)
        (fits frame (List.mem_cons_self ..)) zeros
      have := ih zeros fun other member => fits other (List.mem_cons_of_mem _ member)
      omega

/-- A last WASTE frame whose length field is cut leaves zero bytes that the
reader takes for further frames; it ends inside one of them. -/
theorem not_transparent_of_overflow (frames : List Frame) (len : Nat)
    (fits : ∀ frame ∈ frames, frame.Fits) (overflow : (65536 * (len / 65536)) % 7 ≠ 0)
    (kept : List Frame) {written : Bytes}
    (last : written = frames.flatMap Frame.toBytes ++
      (Frame.header .waste 0 (castU16 len) ++ List.replicate len 0)) :
    ¬Transparent kept written := by
  intro transparent
  obtain ⟨stream, feeds⟩ := ReadAhead.exists_feeds written
  obtain ⟨out, reads, _⟩ := transparent stream feeds
  obtain ⟨same, outFits⟩ := FrameReader.flatMap_toBytes_of_reads feeds reads rfl
  have cut : Frame.header .waste 0 (castU16 len) ++ List.replicate len 0 =
      Frame.toBytes ⟨0, .waste, List.replicate (len % 65536) 0⟩ ++
        List.replicate (65536 * (len / 65536)) 0 := by
    have field : castU16 (len % 65536) = castU16 len := by
      apply UInt16.toNat_inj.mp
      rw [toNat_castU16, toNat_castU16, Nat.mod_mod]
    simp only [Frame.toBytes, List.length_replicate, field, List.append_assoc]
    rw [← List.replicate_add, Nat.mod_add_div]
  rw [List.nil_append, last, cut] at same
  obtain ⟨later, rfl, tail⟩ :=
    Frame.exists_append_of_flatMap_toBytes fits outFits same
  have laterFits : ∀ frame ∈ later, frame.Fits := fun frame member =>
    outFits frame (List.mem_append_right _ member)
  have wasteFits : ∀ frame ∈ [(⟨0, .waste, List.replicate (len % 65536) 0⟩ : Frame)],
      frame.Fits := by
    rw [List.forall_mem_singleton]
    simp only [Frame.Fits, List.length_replicate]
    omega
  obtain ⟨rest, rfl, zeros⟩ :=
    Frame.exists_append_of_flatMap_toBytes wasteFits laterFits (by simpa using tail)
  exact overflow (mod_seven_of_zeros zeros fun frame member =>
    laterFits frame (List.mem_append_right _ member))

theorem writeRecords_last_padding {len : Nat}
    (small : frameHeaderSize + len < allocLimit) :
    writeRecords [usizeAsI64 len] [] =
      some (Frame.header .waste 0 (castU16 len) ++ List.replicate len 0) := by
  simp only [frameHeaderSize, allocLimit] at small
  have noMark : usizeAsI64 len ≠ checkMarkSize := by
    simp only [usizeAsI64, checkMarkSize]
    split <;> omega
  have target : i64AsUsize (usizeAsI64 len) = len :=
    i64AsUsize_usizeAsI64 (by simp only [usizeLimit]; omega)
  have waste : wasteFrame len =
      some (Frame.header .waste 0 (castU16 len) ++ List.replicate len 0) :=
    if_pos (by simp only [frameHeaderSize, allocLimit]; omega)
  simp [writeRecords, noMark, target, waste]

def wideScheme : Bytes := asBytes "stop=8\n1=100-100,65536-65536"

theorem writeWithPadding_wide_record :
    ∃ scheme data, PaddingScheme.parse (fun _ => "") wideScheme = .ok scheme ∧
      appendFrames [] firstBatch = .ok data ∧
        ¬∃ written session', SessionPadding.writeWithPadding ⟨true, 1, scheme⟩ (fun _ => 0)
            data = some (written, session') ∧ Transparent firstBatch written := by
  let scheme : PaddingScheme := ⟨8, [(1, [.fixed 100 (by decide) (by decide),
    .fixed 65536 (by decide) (by decide)])], "", wideScheme⟩
  let waste : Frame := ⟨0, .waste, List.replicate 61 0⟩
  refine ⟨scheme, firstBatch.flatMap Frame.toBytes, by decide, by decide, ?_⟩
  rintro ⟨written, session', result, transparent⟩
  have first : writeRecords (scheme.generateRecordPayloadSizes 1 fun _ => 0)
      (firstBatch.flatMap Frame.toBytes) =
        (writeRecords [usizeAsI64 65536] []).map
          (firstBatch.flatMap Frame.toBytes ++ waste.toBytes ++ ·) := rfl
  rw [SessionPadding.writeWithPadding_eq _ _ _ rfl (by decide)] at result
  change Option.map _ (writeRecords (scheme.generateRecordPayloadSizes 1 _) _) = _ at result
  rw [first, writeRecords_last_padding (by decide)] at result
  cases result
  exact not_transparent_of_overflow (firstBatch ++ [waste]) 65536
    (by decide) (by decide) firstBatch (by rw [List.flatMap_append]; rfl) transparent

end QuicProxy
