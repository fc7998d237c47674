import QuicProxy.Proxy.Anytls.Segments

namespace QuicProxy

/-! What a server recovers of a UoT stream whose request and packets come cut into PSH
frames. -/

namespace TargetAddr

theorem shortName_of_ofName {name : String} {port : UInt16} (short : (asBytes name).length ≤ 255) :
    (ofName name port).ShortName := by
  unfold ofName
  split
  · trivial
  · exact short

theorem shortName_of_decode {data : Bytes} {target : TargetAddr} {used : Nat}
    (decodes : decode data = .ok (some (target, used))) : target.ShortName := by
  cases data with
  | nil => cases decodes
  | cons atyp body =>
      simp only [decode] at decodes
      split at decodes
      · obtain ⟨result, read, same⟩ := Option.map_eq_some_iff.mp (Except.ok.inj decodes)
        cases same
        exact (Anytls.writeTo_of_v4PortAt read).2.1
      split at decodes
      · simp only [decodeName] at decodes
        split at decodes
        · next bytes port read =>
            split at decodes
            · next name text =>
                cases decodes
                exact shortName_of_ofName (Anytls.writeTo_of_namePortAt read text).1
            · cases decodes
        · cases decodes
      split at decodes
      · obtain ⟨result, read, same⟩ := Option.map_eq_some_iff.mp (Except.ok.inj decodes)
        cases same
        exact (Anytls.writeTo_of_v6PortAt read).2.1
      · cases decodes

theorem decode_of_readFrom {data remaining : Bytes} {target : TargetAddr}
    (read : readFrom data = .ok (target, remaining)) :
    ∃ used, decode data = .ok (some (target, used)) := by
  have reads := readsAs_decode data
  revert reads
  rcases decode data with error | _ | ⟨addr, used⟩
  · rintro ⟨same, -⟩
    cases read.symm.trans same
  · rintro ⟨error, same, -⟩
    cases read.symm.trans same
  · rintro ⟨-, same⟩
    cases read.symm.trans same
    exact ⟨used, rfl⟩

theorem writeTo_of_readFrom {target result : TargetAddr} (short : target.ShortName)
    {data behind more remaining : Bytes} (cut : data ++ behind = target.writeTo ++ more)
    (read : readFrom data = .ok (result, remaining)) :
    result = target.decoded ∧ data = target.writeTo ++ remaining := by
  rcases Nat.lt_or_ge data.length target.writeTo.length with part | full
  · have taken := take_of_append_eq cut (Nat.le_of_lt part)
    obtain ⟨used, decodes⟩ := decode_of_readFrom read
    have incomplete := decode_take_writeTo short part
    rw [taken, decodes] at incomplete
    cases incomplete
  · obtain ⟨rest, rfl, -⟩ := exists_append_of_length_le cut full
    cases (readFrom_writeTo short rest).symm.trans read
    exact ⟨rfl, rfl⟩

theorem decoded_eq_iff (target : TargetAddr) :
    target.decoded = target ↔
      target.Unscoped ∧ ∀ name port, target = .domain name port → ¬IsIpLiteral name := by
  cases target with
  | ip addr =>
      refine ⟨fun same => ⟨ip.inj same, ?_⟩, fun plain => congrArg ip plain.1⟩
      rintro _ _ ⟨⟩
  | domain name port =>
      simp only [decoded, ofName]
      cases literal : IpAddr.parse name.toList with
      | none =>
          refine iff_of_true rfl ⟨trivial, ?_⟩
          rintro _ _ ⟨⟩
          simp [IsIpLiteral, literal]
      | some addr =>
          refine iff_of_false ?_ fun plain => plain.2 name port rfl ?_
          · rintro ⟨⟩
          · simp [IsIpLiteral, literal]

end TargetAddr

namespace Uot

def Packet.bytes {isConnect : Bool} (packet : Packet isConnect) : Bytes :=
  packetBytes packet.payload packet.target

variable {isConnect : Bool} {left : List (Packet isConnect)} {buf later : Bytes}

/-- A buffer that holds the front of some packets has the first one whole, or waits. -/
theorem nextPacket_front (cut : buf ++ later = left.flatMap Packet.bytes) :
    (∃ packet rest more, left = packet :: rest ∧ buf = packet.bytes ++ more ∧
      nextPacket isConnect buf = .ok (some packet.bytes, more)) ∨
    nextPacket isConnect buf = .ok (none, buf) ∧
      ∀ packet ∈ left.head?, buf.length < packet.bytes.length := by
  cases left with
  | nil =>
      obtain ⟨rfl, -⟩ := List.append_eq_nil_iff.mp cut
      refine .inr ⟨?_, nofun⟩
      cases isConnect <;> rfl
  | cons packet rest =>
      rw [List.flatMap_cons] at cut
      rcases Nat.lt_or_ge buf.length packet.bytes.length with part | full
      · have taken := take_of_append_eq cut (Nat.le_of_lt part)
        have next := nextPacket_take packet.fits packet.short part
        rw [packet.mode] at next
        change nextPacket isConnect (packet.bytes.take buf.length) =
          .ok (none, packet.bytes.take buf.length) at next
        rw [taken] at next
        refine .inr ⟨next, ?_⟩
        rintro _ ⟨⟩
        exact part
      · obtain ⟨more, rfl, -⟩ := exists_append_of_length_le cut full
        have next := nextPacket_append packet.fits packet.short more
        rw [packet.mode] at next
        exact .inl ⟨packet, rest, more, rfl, rfl, next⟩

end Uot

namespace Inflow

open Session Uot

/-- A call of `recv_from` gives the next packet, or takes all that has come. -/
inductive PacketRead {isConnect : Bool} (buf : Bytes) (queued : List Bytes) :
    List (Packet isConnect) → ReadResult × Bytes × List StreamEvent →
      List (Packet isConnect) → List Bytes → Prop
  | packet (first : Packet isConnect) (rest : List (Packet isConnect)) (more : Bytes)
      (queued' : List Bytes)
      (split : buf ++ queued.flatten = first.bytes ++ (more ++ queued'.flatten)) :
      PacketRead buf queued (first :: rest) (.ready first.bytes, more, queued'.map .data)
        rest queued'
  | wait (left : List (Packet isConnect))
      (few : ∀ packet ∈ left.head?, (buf ++ queued.flatten).length < packet.bytes.length) :
      PacketRead buf queued left (.pending, buf ++ queued.flatten, []) left []

theorem packetRead {isConnect : Bool} {left : List (Packet isConnect)} {buf later : Bytes}
    {queued : List Bytes} (cut : buf ++ (queued.flatten ++ later) = left.flatMap Packet.bytes) :
    ∃ left' queued', PacketRead buf queued left
      (recvLoop .server isConnect true (queued.map .data) buf) left' queued' := by
  induction queued generalizing buf with
  | nil =>
      rw [List.flatten_nil, List.nil_append] at cut
      rcases nextPacket_front cut with ⟨packet, rest, more, rfl, rfl, next⟩ | ⟨next, few⟩
      · refine ⟨rest, [], ?_⟩
        simp only [List.map_nil, recvLoop, next]
        exact .packet packet rest more [] (by simp)
      · have all : buf ++ ([] : List Bytes).flatten = buf := List.append_nil buf
        have waits : PacketRead buf [] left
            (.pending, buf ++ ([] : List Bytes).flatten, []) left [] :=
          .wait left (by rwa [all])
        rw [all] at waits
        refine ⟨left, [], ?_⟩
        simp only [List.map_nil, recvLoop, next, if_true]
        exact waits
  | cons data queued ih =>
      rw [List.flatten_cons, List.append_assoc] at cut
      rcases nextPacket_front cut with ⟨packet, rest, more, rfl, rfl, next⟩ | ⟨next, few⟩
      · refine ⟨rest, data :: queued, ?_⟩
        simp only [List.map_cons, recvLoop, next]
        exact .packet packet rest more (data :: queued) (List.append_assoc ..)
      · rw [← List.append_assoc] at cut
        obtain ⟨left', queued', read⟩ := ih cut
        refine ⟨left', queued', ?_⟩
        simp only [List.map_cons, recvLoop, next]
        generalize recvLoop .server isConnect true (queued.map .data) (buf ++ data) = result
          at read ⊢
        cases read with
        | packet first _ more _ split =>
            rw [List.append_assoc] at split
            exact .packet first left' more queued' split
        | wait _ few =>
            rw [List.append_assoc] at few ⊢
            exact .wait left few

/-- A stream of packets has been opened: some have been given, and what has come of the
others is in the buffer, in the channel or blocked. -/
structure PacketsKept (streamId : UInt32) {isConnect : Bool} (target : TargetAddr)
    (packets : List (Packet isConnect)) (later : Bytes) (inflow : Inflow) (stream : StreamHandle)
    (blocked : Option Bytes) (left : List (Packet isConnect)) (queued : List Bytes) : Prop where
  serving : Serving streamId inflow.session stream blocked
  opened : inflow.opened = [.packets isConnect target]
  udp : stream.udp = true
  mode : stream.isConnect = isConnect
  queue : stream.queue = queued.map .data
  done : ∃ done, packets = done ++ left ∧ inflow.given = done.map Packet.bytes
  rest : stream.readBuffer ++ (queued.flatten ++ (blocked.toList.flatten ++ later)) =
    left.flatMap Packet.bytes
  clean : ∀ answer ∈ inflow.answers, answer.2 = .pending ∨ answer.2.outcome.isSome

section Packets

variable {streamId : UInt32} {isConnect : Bool} {target : TargetAddr}
  {packets left : List (Packet isConnect)} {later : Bytes} {inflow next : Inflow}
  {stream : StreamHandle} {blocked : Option Bytes} {queued : List Bytes}

theorem PacketsKept.read
    (kept : PacketsKept streamId target packets later inflow stream blocked left queued)
    {session : Session} {size : Nat}
    (serving : Serving streamId session (readHandle .server true size stream).2 blocked) :
    ∃ left' queued', PacketsKept streamId target packets later
        ⟨session, inflow.opened,
          inflow.answers ++ [(size, (readHandle .server true size stream).1)]⟩
        (readHandle .server true size stream).2 blocked left' queued' ∧
      (left'.length < left.length ∨
        queued' = [] ∧ (blocked = none → later = [] → left' = [])) := by
  obtain ⟨left', queued', read⟩ := packetRead kept.rest
  rw [readHandle, kept.udp, if_pos rfl, kept.mode, kept.queue] at serving ⊢
  generalize recvLoop .server isConnect true (queued.map .data) stream.readBuffer = result
    at read serving ⊢
  obtain ⟨done, all, given_⟩ := kept.done
  have rest := kept.rest
  rw [← List.append_assoc] at rest
  have clean {result : ReadResult} (new : result = .pending ∨ result.outcome.isSome) :
      ∀ answer ∈ inflow.answers ++ [(size, result)],
        answer.2 = .pending ∨ answer.2.outcome.isSome :=
    List.forall_mem_append.mpr ⟨kept.clean, List.forall_mem_singleton.mpr new⟩
  cases read with
  | packet first _ more _ split =>
      refine ⟨left', queued', ⟨serving, kept.opened, rfl, rfl, rfl,
        ⟨done ++ [first], ?_, ?_⟩, ?_, clean (.inr rfl)⟩, .inl (Nat.lt_succ_self _)⟩
      · rw [all, List.append_assoc]
        rfl
      · rw [given_append, given_, List.map_append]
        rfl
      · rw [split, List.flatMap_cons, List.append_assoc, List.append_assoc] at rest
        exact List.append_cancel_left rest
  | wait _ few =>
      refine ⟨left, [], ⟨serving, kept.opened, rfl, rfl, rfl, ⟨done, all, ?_⟩, rest,
        clean (.inl rfl)⟩, .inr ⟨rfl, ?_⟩⟩
      · rw [given_append, given_]
        exact List.append_nil _
      · rintro rfl rfl
        cases left with
        | nil => rfl
        | cons first left =>
            have short := few first rfl
            rw [Option.toList_none, List.flatten_nil, List.append_nil, List.append_nil,
              List.flatMap_cons] at rest
            rw [rest, List.length_append] at short
            omega

theorem PacketsKept.queueing {data : Bytes} {session : Session}
    (kept : PacketsKept streamId target packets later inflow stream blocked left queued)
    {after : Bytes} (cut : blocked.toList.flatten ++ later = data ++ after)
    (serving : Serving streamId session (Session.queueing data stream) none) :
    PacketsKept streamId target packets after ⟨session, inflow.opened, inflow.answers⟩
      (Session.queueing data stream) none left (queued ++ [data]) where
  serving := serving
  opened := kept.opened
  udp := kept.udp
  mode := kept.mode
  queue := queue_queueing kept.queue data
  done := kept.done
  rest := by
    have rest := kept.rest
    rw [cut] at rest
    change stream.readBuffer ++ _ = _
    simpa using rest
  clean := kept.clean

theorem PacketsKept.step {input : Input}
    (kept : PacketsKept streamId target packets (input.piece.toList.flatten ++ later) inflow stream
      blocked left queued) (taken : inflow.step streamId input = some next) :
    ∃ stream' blocked' left' queued', PacketsKept streamId target packets later next stream'
      blocked' left' queued' := by
  obtain ⟨stream', blocked', serving, same, served⟩ := kept.serving.step taken
  obtain ⟨session', opened', answers'⟩ := next
  cases same
  cases served with
  | queued data =>
      exact ⟨_, _, left, queued ++ [data], kept.queueing (by simp [Input.piece]) serving⟩
  | waits data =>
      refine ⟨_, _, left, queued, serving, kept.opened, kept.udp, kept.mode, kept.queue, kept.done,
        ?_, kept.clean⟩
      simpa [Input.piece] using kept.rest
  | delivered data =>
      exact ⟨_, _, left, queued ++ [data], kept.queueing (by simp [Input.piece]) serving⟩
  | read _ size =>
      obtain ⟨left', queued', kept, -⟩ := kept.read serving
      exact ⟨_, _, left', queued', kept⟩

theorem PacketsKept.run {inputs : List Input} {final : Inflow}
    (kept : PacketsKept streamId target packets ((pieces inputs).flatten ++ later) inflow stream
      blocked left queued)
    (ran : Machine.run (Inflow.step streamId) inflow inputs = some final) :
    ∃ stream' blocked' left' queued', PacketsKept streamId target packets later final stream'
      blocked' left' queued' := by
  induction inputs generalizing inflow stream blocked left queued with
  | nil =>
      cases ran
      exact ⟨_, _, _, _, kept⟩
  | cons input inputs ih =>
      obtain ⟨next, taken, ran⟩ := Machine.run_cons ran
      rw [← pieces_cons, List.flatten_append, List.append_assoc] at kept
      obtain ⟨_, _, _, _, kept⟩ := kept.step taken
      exact ih kept ran

theorem PacketsKept.empties
    (kept : PacketsKept streamId target packets later inflow stream none left queued) (size : Nat) :
    ∃ count final stream' left', Machine.run (Inflow.step streamId) inflow
        (.replicate count (.read size)) = some final ∧
      PacketsKept streamId target packets later final stream' none left' [] ∧
      (later = [] → left' = []) := by
  induction bound : left.length using Nat.strong_induction_on
    generalizing inflow stream left queued with
  | h count ih =>
      obtain ⟨session, stepped, serving⟩ := kept.serving.step_read size
      obtain ⟨left', queued', kept, progress⟩ := kept.read serving
      rcases progress with fewer | ⟨rfl, last⟩
      · obtain ⟨count, final, stream', left', ran, kept, last⟩ := ih _ (bound ▸ fewer) kept rfl
        refine ⟨count + 1, final, stream', left', ?_, kept, last⟩
        rw [List.replicate_succ, Machine.run_cons_of stepped]
        exact ran
      · exact ⟨1, _, _, left', Machine.run_cons_of stepped [], kept, last rfl⟩

theorem pieces_reads (count size : Nat) : pieces (.replicate count (.read size)) = [] := by
  rw [pieces, List.filterMap_replicate_of_none rfl]

theorem PacketsKept.consumes {behind : List Bytes}
    (kept : PacketsKept streamId target packets (behind.flatten ++ later) inflow stream none left
      []) :
    ∃ inputs final stream' left', pieces inputs = behind ∧
      Machine.run (Inflow.step streamId) inflow inputs = some final ∧
      PacketsKept streamId target packets later final stream' none left' [] := by
  induction behind generalizing inflow stream left with
  | nil => exact ⟨[], inflow, stream, left, rfl, rfl, kept⟩
  | cons data behind ih =>
      have room : stream.queue.length < streamQueueCapacity := kept.queue ▸ by decide
      obtain ⟨session, stepped, serving⟩ := kept.serving.step_psh_room data room
      have cut : (none : Option Bytes).toList.flatten ++ ((data :: behind).flatten ++ later) =
          data ++ (behind.flatten ++ later) := by simp
      obtain ⟨count, middle, _, _, ran, kept, -⟩ := (kept.queueing cut serving).empties 0
      obtain ⟨inputs, final, stream', left', pieces_, more, kept⟩ := ih kept
      refine ⟨.psh data :: (.replicate count (.read 0) ++ inputs), final, stream', left', ?_,
        (Machine.run_cons_of stepped _).trans ((Machine.run_append_of ran _).trans more), kept⟩
      change data :: pieces (.replicate count (.read 0) ++ inputs) = _
      rw [pieces_append, pieces_reads, pieces_]
      rfl

end Packets

/-- The request is recovered as soon as it has come, and each packet by a call of
`recv_from`, in order; once all has come, calls give all packets. -/
structure PacketsFaithful (streamId : UInt32) (mode : UInt8) (target : TargetAddr)
    (packets : List (Packet (mode ≠ 0))) (received : Bytes) (inflow : Inflow) : Prop where
  only : inflow.opened <+: [.packets (mode ≠ 0) target]
  whole : target.toBytes.length < received.length →
    inflow.opened = [.packets (mode ≠ 0) target] ∧
      inflow.given.flatten ++ inflow.session.waiting 0 = received.drop (target.toBytes.length + 1)
  obtained : inflow.given.map (decodePacket · (mode ≠ 0)) <+:
    packets.map fun packet => .ok (packet.target, packet.payload)
  clean : ∀ answer ∈ inflow.answers, answer.2 = .pending ∨ answer.2.outcome.isSome
  moves : inflow.Moves
  delivers : received = mode :: target.toBytes ++ packets.flatMap Packet.bytes →
    inflow.session.readLoop = .reading → ∀ size, ∃ count final,
      Machine.run (step streamId) inflow (.replicate count (.read size)) = some final ∧
        final.given.map (decodePacket · (mode ≠ 0)) =
          packets.map fun packet => .ok (packet.target, packet.payload)

def uotAddress (port : UInt16) : Bytes := (TargetAddr.domain udpOverTcpTarget port).toBytes

/-- Behind the frame with the UoT address. -/
def PacketsRecovered (streamId : UInt32) (port : UInt16) (mode : UInt8) (target : TargetAddr)
    (packets : List (Packet (mode ≠ 0))) (frames : List Bytes) : Prop :=
  ∀ inputs inflow, pieces inputs <+: frames →
    Machine.run (step streamId) (registered streamId) (.psh (uotAddress port) :: inputs) =
      some inflow →
        PacketsFaithful streamId mode target packets (pieces inputs).flatten inflow

/-- The request is in one frame, and the formats carry the addresses unchanged. -/
structure PacketsCut {isConnect : Bool} (target : TargetAddr) (packets : List (Packet isConnect))
    (frames : List Bytes) : Prop where
  short : target.ShortName
  unscoped : target.Unscoped
  named : ∀ name port, target = .domain name port → ¬IsIpLiteral name
  plain : ∀ packet ∈ packets, ∀ addr ∈ packet.target, addr.Unscoped
  first : ∃ request behind, frames = request :: behind ∧
    target.toBytes.length < request.length

section Runs

variable {streamId : UInt32} {port : UInt16} {mode : UInt8} {target : TargetAddr}
  {packets left : List (Packet (mode ≠ 0))} {later : Bytes} {frames behind : List Bytes}
  {inputs : List Input} {inflow : Inflow} {stream : StreamHandle} {blocked : Option Bytes}
  {queued : List Bytes}

theorem decodePackets_bytes {isConnect : Bool} (packets : List (Packet isConnect)) :
    (packets.map Packet.bytes).map (decodePacket · isConnect) = packets.map (.ok ·.carried) := by
  rw [List.map_map]
  exact List.map_congr_left fun packet _ => decodePacket_encode packet

theorem carried_eq_iff {isConnect : Bool} (packet : Packet isConnect) :
    packet.carried = (packet.target, packet.payload) ↔ ∀ addr ∈ packet.target, addr.Unscoped := by
  obtain ⟨target, payload, _, _, _⟩ := packet
  cases target with
  | none => exact iff_of_true rfl nofun
  | some addr =>
      simp only [Packet.carried, Option.map_some, Prod.mk.injEq, Option.some.injEq, and_true,
        Option.mem_def, forall_eq']
      cases addr with
      | ip addr => exact ⟨TargetAddr.ip.inj, congrArg TargetAddr.ip⟩
      | domain name port => exact iff_of_true rfl trivial

theorem stepped_address (streamId : UInt32) (port : UInt16) :
    ∃ session, (registered streamId).step streamId (.psh (uotAddress port)) =
        some ⟨session, [], []⟩ ∧
      Awaiting streamId session (.waitingUotRequest (.domain udpOverTcpTarget port)) := by
  have awaiting := awaiting_registered streamId
  obtain ⟨failed, opened, session', stepped, first⟩ := awaiting.step_first (uotAddress port)
  have short : (TargetAddr.domain udpOverTcpTarget port).ShortName := by
    change (asBytes udpOverTcpTarget).length ≤ 255
    decide
  have parsed := Anytls.parseTargetFromSyn_writeTo short []
  rw [List.append_nil] at parsed
  change Anytls.parseTargetFromSyn (uotAddress port) =
    some (.ok (.domain udpOverTcpTarget port)) at parsed
  cases first with
  | panics failed => cases failed.symm.trans parsed
  | refused error failed => cases failed.symm.trans parsed
  | waits port' waits =>
      cases waits.symm.trans parsed
      exact ⟨_, stepped, awaiting.waits _ failed⟩
  | opened other found named =>
      cases found.symm.trans parsed
      exact absurd rfl (named port)

/-- A request in one frame opens its object, with what came behind it in its channel. -/
theorem packetsKept_opened {isConnect : Bool} {packets : List (Packet isConnect)}
    {session : Session} {remaining : Bytes} (target : TargetAddr)
    (serving : Serving streamId session (inboundHandle streamId true isConnect
      (if remaining.isEmpty then [] else [.data remaining])) none)
    (cut : remaining ++ later = packets.flatMap Packet.bytes) :
    ∃ queued, PacketsKept streamId target packets later
      ⟨session, [.packets isConnect target], []⟩
      (inboundHandle streamId true isConnect
        (if remaining.isEmpty then [] else [.data remaining])) none packets queued := by
  cases remaining with
  | nil => exact ⟨[], serving, rfl, rfl, rfl, rfl, ⟨[], rfl, rfl⟩, cut, nofun⟩
  | cons byte remaining =>
      refine ⟨[byte :: remaining], serving, rfl, rfl, rfl, rfl, ⟨[], rfl, rfl⟩, ?_, nofun⟩
      change [] ++ ([byte :: remaining].flatten ++ ([] ++ later)) = _
      simpa using cut

theorem carried_of_plain {isConnect : Bool} {packets : List (Packet isConnect)}
    (plain : ∀ packet ∈ packets, ∀ addr ∈ packet.target, addr.Unscoped) :
    packets.map (Except.ok (ε := String) ·.carried) =
      packets.map fun packet => .ok (packet.target, packet.payload) :=
  List.map_congr_left fun packet member =>
    congrArg Except.ok ((carried_eq_iff packet).mpr (plain packet member))

theorem PacketsKept.carried {isConnect : Bool} {packets left : List (Packet isConnect)}
    (kept : PacketsKept streamId target packets later inflow stream blocked left queued) :
    inflow.given.map (decodePacket · isConnect) <+: packets.map (.ok ·.carried) ∧
      (left = [] → inflow.given.map (decodePacket · isConnect) = packets.map (.ok ·.carried)) := by
  obtain ⟨done, rfl, given⟩ := kept.done
  rw [given, decodePackets_bytes, List.map_append]
  refine ⟨List.prefix_append .., ?_⟩
  rintro rfl
  exact (List.append_nil _).symm

theorem PacketsKept.faithful {received : Bytes}
    (kept : PacketsKept streamId target packets later inflow stream blocked left queued)
    (plain : ∀ packet ∈ packets, ∀ addr ∈ packet.target, addr.Unscoped)
    (cut : received ++ later = mode :: target.toBytes ++ packets.flatMap Packet.bytes) :
    PacketsFaithful streamId mode target packets received inflow where
  only := by rw [kept.opened]
  whole := fun _ => by
    refine ⟨kept.opened, ?_⟩
    obtain ⟨done, all, given⟩ := kept.done
    have waiting : inflow.session.waiting 0 =
        stream.readBuffer ++ (queued.flatten ++ blocked.toList.flatten) := by
      rw [kept.serving.waiting, kept.queue, chunks_map_data, List.flatten_append]
    have shape : packets.flatMap Packet.bytes =
        inflow.given.flatten ++ inflow.session.waiting 0 ++ later := by
      rw [all, List.flatMap_append, ← kept.rest, given, waiting]
      simp [List.flatMap]
    rw [shape, ← List.append_assoc] at cut
    rw [List.append_cancel_right cut]
    simp
  obtained := by
    rw [← carried_of_plain plain]
    exact kept.carried.1
  clean := kept.clean
  moves := kept.serving.moves
  delivers := fun all loop size => by
    obtain rfl := kept.serving.blocked_of_reading loop
    rw [← all] at cut
    obtain rfl : later = [] := List.append_cancel_left (cut.trans (List.append_nil _).symm)
    obtain ⟨count, final, stream', left', ran, kept, last⟩ := kept.empties size
    refine ⟨count, final, ran, ?_⟩
    rw [← carried_of_plain plain]
    exact kept.carried.2 (last rfl)

theorem faithful_waiting {session : Session} {uot : TargetAddr}
    (waiting : Awaiting streamId session (.waitingUotRequest uot)) :
    PacketsFaithful streamId mode target packets [] ⟨session, [], []⟩ where
  only := List.nil_prefix
  whole := nofun
  obtained := List.nil_prefix
  clean := nofun
  moves := by simp only [Moves, waiting.loop]
  delivers := nofun

theorem packetsRecovered_of_packetsCut (port : UInt16)
    (bytes : frames.flatten = mode :: target.toBytes ++ packets.flatMap Packet.bytes)
    (cut : PacketsCut target packets frames) :
    PacketsRecovered streamId port mode target packets frames := by
  obtain ⟨request, behind, rfl, long⟩ := cut.first
  intro inputs inflow front ran
  obtain ⟨session, first, waiting⟩ := stepped_address streamId port
  rw [Machine.run_cons_of first] at ran
  cases inputs with
  | nil =>
      cases ran
      exact faithful_waiting waiting
  | cons input inputs =>
      obtain ⟨next, taken, ran⟩ := Machine.run_cons ran
      obtain ⟨data, rfl⟩ := waiting.step taken
      obtain ⟨rfl, later⟩ := List.cons_prefix_cons.mp front
      -- The request is whole, with the front of the packets behind it.
      obtain ⟨remaining, rfl, rest⟩ : ∃ remaining, data = mode :: (target.writeTo ++ remaining) ∧
          remaining ++ behind.flatten = packets.flatMap Packet.bytes := by
        rw [List.flatten_cons] at bytes
        exact exists_append_of_length_le bytes long
      obtain ⟨failed, opened, session', stepped, uot⟩ := waiting.step_request ⟨_, [], []⟩
        (mode :: (target.writeTo ++ remaining))
      cases stepped.symm.trans taken
      have same := (TargetAddr.decoded_eq_iff target).mpr ⟨cut.unscoped, cut.named⟩
      have read := TargetAddr.readFrom_writeTo cut.short remaining
      rw [same] at read
      cases uot with
      | refused failed =>
          obtain ⟨error, failed⟩ := failed mode _ rfl
          cases failed.symm.trans read
      | opened mode' body target' remaining' shape found =>
          obtain ⟨rfl, rfl⟩ := List.cons.inj shape
          cases found.symm.trans read
          obtain ⟨more, split⟩ := later
          rw [← split, List.flatten_append] at rest
          have serving := waiting.serving (inboundHandle streamId true (mode ≠ 0)
            (if remaining.isEmpty then [] else [.data remaining])) nofun rfl rfl rfl failed
          obtain ⟨queued, kept⟩ := packetsKept_opened target serving rest
          obtain ⟨_, _, _, _, kept⟩ := kept.run ran
          refine kept.faithful cut.plain ?_
          rw [← rest]
          change mode :: (target.writeTo ++ remaining) ++ (pieces inputs).flatten ++ more.flatten =
            mode :: target.writeTo ++ (remaining ++ ((pieces inputs).flatten ++ more.flatten))
          simp only [List.cons_append, List.append_assoc]

theorem PacketsRecovered.opened_of_all
    (recovered : PacketsRecovered streamId port mode target packets frames)
    (bytes : frames.flatten = mode :: target.toBytes ++ packets.flatMap Packet.bytes)
    (ran : Machine.run (step streamId) (registered streamId) (.psh (uotAddress port) :: inputs) =
      some inflow) (all : pieces inputs = frames) :
    inflow.opened = [.packets (mode ≠ 0) target] := by
  have faithful := recovered inputs inflow (by rw [all]) ran
  rw [all, bytes] at faithful
  refine (faithful.whole ?_).1
  rw [List.length_append, List.length_cons]
  omega

/-- All packets come as the format carries them, so that it has to carry each unchanged. -/
theorem PacketsRecovered.plain
    (recovered : PacketsRecovered streamId port mode target packets frames)
    (ran : Machine.run (step streamId) (registered streamId) (.psh (uotAddress port) :: inputs) =
      some inflow) (cut : pieces inputs ++ behind = frames)
    (kept : PacketsKept streamId target packets behind.flatten inflow stream none left queued) :
    ∀ packet ∈ packets, ∀ addr ∈ packet.target, addr.Unscoped := by
  obtain ⟨count, _, _, _, emptied, kept, -⟩ := kept.empties 0
  rw [← List.append_nil behind.flatten] at kept
  obtain ⟨more, _, _, _, pieces_, consumed, kept⟩ := kept.consumes
  obtain ⟨count', final, _, _, drained, kept, all⟩ := kept.empties 0
  have whole : Machine.run (Inflow.step streamId) (registered streamId)
      (.psh (uotAddress port) :: inputs ++ (.replicate count (.read 0) ++
        (more ++ .replicate count' (.read 0)))) = some final := by
    rw [Machine.run_append_of ran, Machine.run_append_of emptied, Machine.run_append_of consumed,
      drained]
  have shape : pieces (inputs ++ (.replicate count (.read 0) ++
      (more ++ .replicate count' (.read 0)))) = frames := by
    rw [pieces_append, pieces_append, pieces_append, pieces_reads, pieces_reads, pieces_, ← cut,
      List.append_nil, List.nil_append]
  have front : pieces (inputs ++ (.replicate count (.read 0) ++
      (more ++ .replicate count' (.read 0)))) <+: frames := by rw [shape]
  have obtained := (recovered _ final front whole).obtained
  rw [kept.carried.2 (all rfl)] at obtained
  have same := obtained.eq_of_length (by rw [List.length_map, List.length_map])
  intro packet member
  exact (carried_eq_iff packet).mp (Except.ok.inj (List.map_inj_left.mp same packet member))

theorem packetsCut_of_packetsRecovered
    (bytes : frames.flatten = mode :: target.toBytes ++ packets.flatMap Packet.bytes)
    (recovered : PacketsRecovered streamId port mode target packets frames) :
    PacketsCut target packets frames := by
  obtain ⟨session, first, waiting⟩ := stepped_address streamId port
  cases frames with
  | nil => cases bytes
  | cons request behind =>
      obtain ⟨failed, opened, session', stepped, uot⟩ := waiting.step_request ⟨_, [], []⟩ request
      have ran := (Machine.run_cons_of first [.psh request]).trans
        (Machine.run_cons_of stepped [])
      cases uot with
      | refused _ =>
          obtain ⟨final, more⟩ := Refused.run ⟨_, [], []⟩ (waiting.refused failed) behind
          have all : pieces (.psh request :: behind.map .psh) = request :: behind :=
            pieces_psh (request :: behind)
          cases recovered.opened_of_all bytes ((Machine.run_append_of ran _).trans more) all
      | opened mode' body target' remaining shape read =>
          have faithful := recovered [.psh request] _ ⟨behind, rfl⟩ ran
          obtain ⟨-, rfl⟩ := Opening.packets.inj (List.cons_prefix_cons.mp faithful.only).1
          rw [List.flatten_cons, shape] at bytes
          obtain ⟨rfl, bytes⟩ := List.cons.inj bytes
          obtain ⟨used, decodes⟩ := TargetAddr.decode_of_readFrom read
          have short := TargetAddr.shortName_of_decode decodes
          obtain ⟨same, split⟩ := TargetAddr.writeTo_of_readFrom short bytes read
          obtain ⟨unscoped, named⟩ := (TargetAddr.decoded_eq_iff target').mp same.symm
          rw [split] at bytes
          have rest := List.append_cancel_left ((List.append_assoc ..).symm.trans bytes)
          have serving := waiting.serving (inboundHandle streamId true (mode' ≠ 0)
            (if remaining.isEmpty then [] else [.data remaining])) nofun rfl rfl rfl failed
          obtain ⟨queued, kept⟩ := packetsKept_opened target' serving rest
          refine ⟨short, unscoped, named, recovered.plain ran rfl kept, request, behind, rfl, ?_⟩
          rw [shape, split, List.length_cons, List.length_append]
          exact Nat.lt_succ_of_le (Nat.le_add_right ..)

theorem packetsRecovered_iff (streamId : UInt32) (port : UInt16)
    (bytes : frames.flatten = mode :: target.toBytes ++ packets.flatMap Packet.bytes) :
    PacketsRecovered streamId port mode target packets frames ↔
      PacketsCut target packets frames :=
  ⟨packetsCut_of_packetsRecovered bytes, packetsRecovered_of_packetsCut port bytes⟩

end Runs

/-- The server recovers a stream exactly where the address has a frame for itself, and a
UoT stream where the request is in one frame. -/
theorem recovered_iff_cut (streamId : UInt32) :
    (∀ target payload frames, frames.flatten = target.toBytes ++ payload →
      (StreamRecovered streamId target payload frames ↔ StreamCut target frames)) ∧
    ∀ port mode target (packets : List (Packet (mode ≠ 0))) frames,
      frames.flatten = mode :: target.toBytes ++ packets.flatMap Packet.bytes →
        (PacketsRecovered streamId port mode target packets frames ↔
          PacketsCut target packets frames) :=
  ⟨fun _ _ _ bytes => streamRecovered_iff streamId bytes,
    fun port _ _ _ _ bytes => packetsRecovered_iff streamId port bytes⟩

def resolver : TargetAddr := .ip (.v4 ⟨1, 1, 1, 1⟩ 53)

theorem recovered_iff_cut_resolver :
    StreamRecovered 1 resolver [71, 69, 84] [[1, 1, 1, 1, 1, 0, 53], [71], [69, 84]] ∧
      PacketsRecovered 1 0 0 resolver [dnsPacket]
        [[0, 1, 1, 1, 1, 1, 0, 53, 0, 1, 1], [], [1, 1, 0, 53, 0], [1, 7]] := by
  refine ⟨((recovered_iff_cut 1).1 resolver [71, 69, 84] _ rfl).mpr
      ⟨trivial, rfl, nofun, [[71], [69, 84]], rfl, ?_⟩,
    ((recovered_iff_cut 1).2 0 0 resolver [dnsPacket] _ rfl).mpr
      ⟨trivial, rfl, nofun, ?_, _, _, rfl, by decide⟩⟩
  · intro before after split
    have empty : ([] : Bytes) ∈ ([[71], [69, 84]] : List Bytes) := by
      rw [split]
      exact List.mem_append_right _ (List.mem_cons_self ..)
    have none_ : ([] : Bytes) ∉ ([[71], [69, 84]] : List Bytes) := by decide
    exact absurd empty none_
  · intro packet member addr target
    cases List.mem_singleton.mp member
    cases target
    rfl

/-- What comes in one frame with the address is dropped, and a request in two frames is
refused. -/
theorem resolver_not_recovered :
    ((Machine.run (step 1) (registered 1) [.psh (resolver.toBytes ++ [71])]).map fun inflow =>
        (inflow.opened, inflow.session.waiting 0)) = some ([.stream resolver], []) ∧
      (¬∀ target payload frames, frames.flatten = target.toBytes ++ payload →
        StreamRecovered 1 target payload frames) ∧
      ¬∀ target (packets : List (Packet ((0 : UInt8) ≠ 0))) frames,
        frames.flatten = 0 :: target.toBytes ++ packets.flatMap Packet.bytes →
          PacketsRecovered 1 0 0 target packets frames := by
  refine ⟨by decide +kernel, fun all => ?_, fun all => ?_⟩
  · have recovered := all resolver [71] [resolver.toBytes ++ [71]] rfl
    obtain ⟨behind, same, -⟩ := (streamCut_of_streamRecovered rfl recovered).first
    revert same
    exact nofun
  · have recovered := all resolver [dnsPacket] [[0], resolver.toBytes ++ dnsPacket.bytes] rfl
    obtain ⟨request, behind, same, long⟩ := (packetsCut_of_packetsRecovered rfl recovered).first
    cases same
    revert long
    decide

end Inflow

end QuicProxy
