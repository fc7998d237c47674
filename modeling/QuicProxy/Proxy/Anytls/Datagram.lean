import QuicProxy.Proxy.Anytls.Session

namespace QuicProxy

/-! What a datagram does to the session that carries it: the length check of
`encode_uot_packet` against the one of `append_frame`. -/

/-- The two objects whose `send_to` makes a packet of UDP over TCP. -/
inductive UotSender where
  | client (socket : AnytlsUdpSocket)
  | server (udp : AnytlsInboundUdp)

namespace UotSender

def isConnect : UotSender → Bool
  | client socket => socket.isConnect
  | server udp => udp.isConnect

def sendTo : UotSender → Bytes → SourceAddr → TargetAddr → Except String (Frame × Nat)
  | client socket => socket.sendTo
  | server udp => udp.sendTo

def address (sender : UotSender) (target : TargetAddr) : Option TargetAddr :=
  if sender.isConnect then none else some target

def packetLen (sender : UotSender) (buf : Bytes) (target : TargetAddr) : Nat :=
  ((sender.address target).elim 0 TargetAddr.encodedLen) + 2 + buf.length

/-- `append_frame` takes the frame of every datagram that `send_to` accepts, and
no write loop with that frame in front of its queue returns when it takes it. -/
structure Harmless (sender : UotSender) (buf : Bytes) (source : SourceAddr)
    (target : TargetAddr) : Prop where
  appends : ∀ frame count, sender.sendTo buf source target = .ok (frame, count) →
    ∀ dst, ∃ out, appendFrame dst frame = .ok out
  goesOn : ∀ frame count, sender.sendTo buf source target = .ok (frame, count) →
    ∀ session next : Session, session.writeTx.head? = some frame →
      session.takeFrame = some next → ∃ buffering buffer, next.writeLoop = .running buffering buffer

theorem sendTo_eq_encode (sender : UotSender) (buf : Bytes) (source : SourceAddr)
    (target : TargetAddr) :
    ∃ (streamId : UInt32) (count : Bytes → Nat), sender.sendTo buf source target =
      (Uot.encodePacket buf (sender.address target)).map fun packet =>
        (⟨streamId, .psh, packet⟩, count packet) := by
  cases sender with
  | client socket => exact ⟨socket.streamId, fun _ => buf.length, rfl⟩
  | server udp => exact ⟨udp.streamId, List.length, rfl⟩

theorem sendTo_eq_ok {sender : UotSender} {buf : Bytes} {source : SourceAddr}
    {target : TargetAddr} {frame : Frame} {count : Nat}
    (sent : sender.sendTo buf source target = .ok (frame, count)) :
    buf.length ≤ 65535 ∧ frame.data = Uot.packetBytes buf (sender.address target) := by
  obtain ⟨streamId, size, same⟩ := sender.sendTo_eq_encode buf source target
  rw [same] at sent
  cases encoded : Uot.encodePacket buf (sender.address target) with
  | error error =>
      rw [encoded] at sent
      cases sent
  | ok packet =>
      rw [encoded] at sent
      cases sent
      exact Uot.encodePacket_eq_ok encoded

theorem sendTo_of_le {sender : UotSender} {buf : Bytes} (fits : buf.length ≤ 65535)
    (source : SourceAddr) (target : TargetAddr) :
    ∃ frame count, sender.sendTo buf source target = .ok (frame, count) ∧
      frame.data = Uot.packetBytes buf (sender.address target) := by
  obtain ⟨streamId, size, same⟩ := sender.sendTo_eq_encode buf source target
  rw [Uot.encodePacket_of_le fits] at same
  exact ⟨_, _, same, rfl⟩

theorem length_packetBytes (sender : UotSender) (buf : Bytes) (target : TargetAddr) :
    (Uot.packetBytes buf (sender.address target)).length = sender.packetLen buf target := by
  unfold Uot.packetBytes packetLen
  cases sender.address target with
  | none =>
      simp only [Option.elim_none, List.nil_append, List.length_append, length_u16ToBe,
        Nat.zero_add]
  | some addr =>
      simp only [Option.elim_some, List.length_append, Uot.length_writeTarget, length_u16ToBe]
      omega

end UotSender

theorem Session.running_of_takeFrame {session next : Session} {frame : Frame}
    (front : session.writeTx.head? = some frame) (fits : frame.Fits)
    (taken : session.takeFrame = some next) :
    ∃ buffering buffer, next.writeLoop = .running buffering buffer := by
  unfold takeFrame at taken
  split at taken
  · next buffering buffer first rest _ queue =>
      rw [queue] at front
      cases front
      split at taken
      · rw [appendFrame_of_fits fits] at taken
        cases taken
        exact ⟨_, _, rfl⟩
      · cases taken
  · cases taken

theorem Session.takeFrame_of_not_fits {session : Session} {buffering : Bool}
    {buffer rest : List Frame} {frame : Frame}
    (loop : session.writeLoop = .running buffering buffer)
    (queue : session.writeTx = frame :: rest)
    (more : takesMore session.side buffering buffer = true) (large : ¬frame.Fits) :
    session.takeFrame = some { session with writeTx := [], writeLoop := .returned } := by
  simp only [takeFrame, loop, queue, more, if_true, appendFrame_of_not_fits large]

theorem UotSender.fits_of_harmless {sender : UotSender} {buf : Bytes} {source : SourceAddr}
    {target : TargetAddr} (harmless : sender.Harmless buf source target) :
    65535 < buf.length ∨ sender.packetLen buf target ≤ 65535 := by
  rcases Nat.lt_or_ge 65535 buf.length with refused | accepted
  · exact Or.inl refused
  · obtain ⟨frame, count, sent, data⟩ := sendTo_of_le accepted source target
    refine Or.inr ?_
    by_contra large
    have outgrows : ¬frame.Fits := by
      rw [Frame.Fits, data, length_packetBytes]
      exact large
    obtain ⟨out, appended⟩ := harmless.appends frame count sent []
    rw [appendFrame_of_not_fits outgrows] at appended
    cases appended

/-- An accepted datagram leaves the session alone exactly when its packet, with
the address, has at most 65535 bytes. -/
theorem uotSender_harmless_iff (sender : UotSender) (buf : Bytes) (source : SourceAddr)
    (target : TargetAddr) :
    sender.Harmless buf source target ↔
      65535 < buf.length ∨ sender.packetLen buf target ≤ 65535 := by
  refine ⟨UotSender.fits_of_harmless, fun bounded => ?_⟩
  have fits : ∀ frame count, sender.sendTo buf source target = .ok (frame, count) →
      frame.Fits := by
    intro frame count sent
    obtain ⟨accepted, data⟩ := UotSender.sendTo_eq_ok sent
    rw [Frame.Fits, data, UotSender.length_packetBytes]
    exact bounded.resolve_left (Nat.not_lt.mpr accepted)
  constructor
  · intro frame count sent dst
    exact ⟨_, appendFrame_of_fits (fits frame count sent) dst⟩
  · intro frame count sent session next front taken
    exact Session.running_of_takeFrame front (fits frame count sent) taken

theorem UotSender.ends_writeLoop_of_length {buf : Bytes} (length : buf.length = 65530) :
    ∃ frame, (UotSender.client ⟨1, false, [], []⟩).sendTo buf .dummy
        (.ip (.v4 ⟨8, 8, 8, 8⟩ 53)) = .ok (frame, 65530) ∧
      (∃ next, ({ Session.start (.client false) [] with writeTx := [frame] } : Session).takeFrame =
        some next ∧ next.writeLoop = .returned) ∧
      ¬(UotSender.client ⟨1, false, [], []⟩).Harmless buf .dummy (.ip (.v4 ⟨8, 8, 8, 8⟩ 53)) := by
  have fits : buf.length ≤ 65535 := by omega
  have encoded := Uot.encodePacket_of_le fits (some (.ip (.v4 ⟨8, 8, 8, 8⟩ 53)))
  refine ⟨⟨1, .psh, Uot.packetBytes buf (some (.ip (.v4 ⟨8, 8, 8, 8⟩ 53)))⟩, ?_, ?_, ?_⟩
  · rw [← length]
    exact congrArg (Except.map _) encoded
  · have outgrows : ¬Frame.Fits
        ⟨1, .psh, Uot.packetBytes buf (some (.ip (.v4 ⟨8, 8, 8, 8⟩ 53)))⟩ := by
      have size : (Uot.packetBytes buf (some (.ip (.v4 ⟨8, 8, 8, 8⟩ 53)))).length =
          7 + 2 + buf.length :=
        UotSender.length_packetBytes (.client ⟨1, false, [], []⟩) buf _
      simp only [Frame.Fits, size]
      omega
    exact ⟨_, Session.takeFrame_of_not_fits rfl rfl rfl outgrows, rfl⟩
  · intro harmless
    rcases UotSender.fits_of_harmless harmless with refused | bounded
    · omega
    · change 7 + 2 + buf.length ≤ 65535 at bounded
      omega

def largeDatagram : Bytes := List.replicate 65530 0

/-- 65530 bytes to an IPv4 address: `send_to` accepts them, and the write loop
that takes their frame returns. -/
theorem large_datagram_ends_writeLoop :
    ∃ frame, (UotSender.client ⟨1, false, [], []⟩).sendTo largeDatagram .dummy
        (.ip (.v4 ⟨8, 8, 8, 8⟩ 53)) = .ok (frame, 65530) ∧
      (∃ next, ({ Session.start (.client false) [] with writeTx := [frame] } : Session).takeFrame =
        some next ∧ next.writeLoop = .returned) ∧
      ¬(UotSender.client ⟨1, false, [], []⟩).Harmless largeDatagram .dummy
        (.ip (.v4 ⟨8, 8, 8, 8⟩ 53)) :=
  UotSender.ends_writeLoop_of_length List.length_replicate

end QuicProxy
