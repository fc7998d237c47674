import QuicProxy.Proxy.AddressParsers
import QuicProxy.Proxy.Anytls.Inflow
import QuicProxy.Proxy.Anytls.UotBuffer

namespace QuicProxy

/-! What a server recovers of a TCP stream whose bytes come cut into PSH frames. -/

namespace Anytls

open TargetAddr

theorem parseTargetFromSyn_writeTo {target : TargetAddr} (short : target.ShortName)
    (rest : Bytes) :
    parseTargetFromSyn (target.writeTo ++ rest) = some (.ok (Uot.decoded target)) := by
  cases target with
  | ip addr =>
      cases addr with
      | v4 addr port =>
          simp only [writeTo, List.cons_append, List.append_assoc, parseTargetFromSyn, if_true,
            v4PortAt_octets]
          rfl
      | v6 addr port flow scope =>
          have noV4 : ¬(4 : UInt8) = 1 := by decide
          have noName : ¬(4 : UInt8) = 3 := by decide
          simp only [writeTo, List.cons_append, List.append_assoc, parseTargetFromSyn, noV4, noName,
            if_false, if_true, v6PortAt_octets]
          rfl
  | domain name port =>
      have lenByte := toNat_lenByte short
      simp only [writeTo, List.cons_append, List.append_assoc]
      have parses (len : UInt8) (tail : Bytes) :
          parseTargetFromSyn (3 :: len :: tail) = parseSynName (len :: tail) := rfl
      rw [parses]
      simp only [parseSynName, namePortAt_append _ _ _ _ lenByte.symm, fromUtf8_asBytes,
        Uot.decoded]

theorem writeTo_of_v4PortAt {body : Bytes} {target : TargetAddr}
    (read : v4PortAt body = some target) :
    target.Unscoped ∧ ShortName target ∧ ∃ rest, 1 :: body = target.writeTo ++ rest := by
  unfold v4PortAt at read
  split at read
  · next a b c d high low rest =>
      cases read
      refine ⟨rfl, trivial, rest, ?_⟩
      simp only [SocketAddr.new, writeTo, u16ToBe_u16FromBe]
      rfl
  · cases read

theorem writeTo_of_v6PortAt {body : Bytes} {target : TargetAddr}
    (read : v6PortAt body = some target) :
    target.Unscoped ∧ ShortName target ∧ ∃ rest, 4 :: body = target.writeTo ++ rest := by
  unfold v6PortAt at read
  split at read
  · next octets =>
      split at read
      · next high low rest dropped =>
          cases read
          refine ⟨rfl, trivial, rest, ?_⟩
          have whole := List.take_append_drop 16 body
          rw [dropped] at whole
          simp only [SocketAddr.new, writeTo, u16ToBe_u16FromBe, Ipv6Addr.ofOctets]
          change 4 :: body = 4 :: (body.take 16 ++ [high, low] ++ rest)
          rw [List.append_assoc]
          exact congrArg _ whole.symm
      · cases read
  · cases read

theorem writeTo_of_parseTargetFromSyn {data : Bytes} {target : TargetAddr}
    (parsed : parseTargetFromSyn data = some (.ok target)) :
    target.Unscoped ∧ ShortName target ∧ ∃ rest, data = target.writeTo ++ rest := by
  cases data with
  | nil => cases parsed
  | cons atyp body =>
      simp only [parseTargetFromSyn] at parsed
      split at parsed
      · next v4 =>
          subst v4
          split at parsed
          · next read =>
              cases parsed
              exact writeTo_of_v4PortAt read
          · cases parsed
      split at parsed
      · next isName =>
          subst isName
          cases body with
          | nil => cases parsed
          | cons len tail =>
              simp only [parseSynName] at parsed
              split at parsed
              · cases parsed
              · next bytes port read =>
                  split at parsed
                  · cases parsed
                  · next name text =>
                      cases parsed
                      obtain ⟨short, shape⟩ := writeTo_of_namePortAt read text
                      exact ⟨trivial, short, shape⟩
      split at parsed
      · next v6 =>
          subst v6
          split at parsed
          · next read =>
              cases parsed
              exact writeTo_of_v6PortAt read
          · cases parsed
      · cases parsed

end Anytls

namespace Inflow

open Session

/-! TCP streams. -/

/-- The stream is opened to its target as soon as the address has come, and to nothing
else.  What is read of it and what waits for it is what has come behind the address; a
read with room gives nothing only at the end of the payload, and once all has come, reads
give all of it. -/
structure StreamFaithful (streamId : UInt32) (target : TargetAddr) (payload received : Bytes)
    (inflow : Inflow) : Prop where
  only : inflow.opened <+: [.stream target]
  whole : target.toBytes.length ≤ received.length → inflow.opened = [.stream target] ∧
    inflow.given.flatten ++ inflow.session.waiting 0 = received.drop target.toBytes.length
  clean : ∀ answer ∈ inflow.answers, answer.2 = .pending ∨ answer.2.outcome.isSome
  ends : ∀ answer ∈ inflow.answers, 0 < answer.1 → answer.2.outcome = some [] →
    inflow.given.flatten = payload
  moves : inflow.Moves
  delivers : received = target.toBytes ++ payload → inflow.session.readLoop = .reading →
    ∀ size, 0 < size → ∃ count final,
      Machine.run (step streamId) inflow (.replicate count (.read size)) = some final ∧
        final.given.flatten = payload

/-- At whatever times the frames come and the object is read. -/
def StreamRecovered (streamId : UInt32) (target : TargetAddr) (payload : Bytes)
    (frames : List Bytes) : Prop :=
  ∀ inputs inflow, pieces inputs <+: frames →
    Machine.run (step streamId) (registered streamId) inputs = some inflow →
      StreamFaithful streamId target payload (pieces inputs).flatten inflow

/-- Only the last pieces are empty. -/
def FullPieces (pieces : List Bytes) : Prop :=
  ∀ before after, pieces = before ++ [] :: after → after.flatten = []

/-- The address has a frame for itself. -/
structure StreamCut (target : TargetAddr) (frames : List Bytes) : Prop where
  short : target.ShortName
  unscoped : target.Unscoped
  other : ∀ port, target ≠ .domain udpOverTcpTarget port
  first : ∃ behind, frames = target.toBytes :: behind ∧ FullPieces behind

/-- An empty piece has been read, behind what had been given. -/
def EndsAt (behind : List Bytes) (given : Bytes) : Prop :=
  ∃ before after, behind = before ++ [] :: after ∧ before.flatten <+: given

theorem EndsAt.mono {behind : List Bytes} {given longer : Bytes} (ends : EndsAt behind given)
    (more : List Bytes) (longer_ : given <+: longer) : EndsAt (behind ++ more) longer := by
  obtain ⟨before, after, rfl, front⟩ := ends
  refine ⟨before, after ++ more, ?_, front.trans longer_⟩
  rw [List.append_assoc]
  rfl

/-- An open TCP stream: what came behind the address has been popped from the channel,
or is in it. -/
structure StreamKept (streamId : UInt32) (target : TargetAddr) (behind : List Bytes)
    (inflow : Inflow) (stream : StreamHandle) (blocked : Option Bytes)
    (popped queued : List Bytes) : Prop where
  serving : Serving streamId inflow.session stream blocked
  opened : inflow.opened = [.stream target]
  tcp : stream.udp = false
  unfinished : stream.finReceived = false
  queue : stream.queue = queued.map .data
  cut : behind = popped ++ (queued ++ blocked.toList)
  balance : popped.flatten = inflow.given.flatten ++ stream.readBuffer
  clean : ∀ answer ∈ inflow.answers, answer.2 = .pending ∨ answer.2.outcome.isSome
  ends : ∀ answer ∈ inflow.answers, 0 < answer.1 → answer.2.outcome = some [] →
    EndsAt behind inflow.given.flatten

theorem queue_queueing {stream : StreamHandle} {queued : List Bytes}
    (queue : stream.queue = queued.map .data) (data : Bytes) :
    (Session.queueing data stream).queue = (queued ++ [data]).map .data := by
  rw [Session.queueing, queue, List.map_append]
  rfl

theorem chunks_map_data (queued : List Bytes) :
    (queued.map StreamEvent.data).filterMap StreamEvent.chunk = queued := by
  rw [List.filterMap_map]
  exact List.filterMap_some

theorem given_append (inflow : Inflow) (session : Session) (opened : List Opening)
    (answer : Nat × ReadResult) :
    (⟨session, opened, inflow.answers ++ [answer]⟩ : Inflow).given =
      inflow.given ++ answer.2.outcome.toList := by
  rw [given, List.filterMap_append]
  cases outcome : answer.2.outcome <;> simp [given, outcome]

theorem pieces_cons (input : Input) (inputs : List Input) :
    input.piece.toList ++ pieces inputs = pieces (input :: inputs) := by
  cases input <;> rfl

section Stream

variable {streamId : UInt32} {target : TargetAddr} {behind : List Bytes} {inflow next : Inflow}
  {stream : StreamHandle} {blocked : Option Bytes} {popped queued : List Bytes}

/-- A read takes the rest of a chunk, or pops one, or finds none. -/
inductive TcpRead (stream : StreamHandle) (size : Nat) (popped : List Bytes) :
    List Bytes → List Bytes → List Bytes → ReadResult → StreamHandle → Prop
  | rest (queued : List Bytes) (left : stream.readBuffer ≠ []) :
      TcpRead stream size popped queued popped queued (.ready (stream.readBuffer.take size))
        { stream with readBuffer := stream.readBuffer.drop size }
  | pop (queued : List Bytes) (chunk : Bytes) (served : stream.readBuffer = []) :
      TcpRead stream size popped (chunk :: queued) (popped ++ [chunk]) queued
        (.ready (chunk.take size))
        { stream with queue := queued.map .data, readBuffer := chunk.drop size }
  | wait (served : stream.readBuffer = []) :
      TcpRead stream size popped [] popped [] .pending stream

theorem tcpRead (tcp : stream.udp = false) (unfinished : stream.finReceived = false)
    (queue : stream.queue = queued.map .data) (size : Nat) (popped : List Bytes) :
    ∃ popped' queued', TcpRead stream size popped queued popped' queued'
      (readHandle .server true size stream).1 (readHandle .server true size stream).2 := by
  rw [readHandle, tcp, if_neg Bool.false_ne_true, readTcp]
  split
  · next served =>
      have served := List.isEmpty_iff.mp served
      rw [if_neg (ne_true_of_eq_false unfinished), queue]
      cases queued with
      | nil => exact ⟨popped, [], .wait served⟩
      | cons chunk queued => exact ⟨_, _, .pop queued chunk served⟩
  · next left =>
      exact ⟨popped, queued, .rest queued fun served => left (List.isEmpty_iff.mpr served)⟩

theorem TcpRead.shortens {size left : Nat} {popped' queued' : List Bytes} {result : ReadResult}
    {stream' : StreamHandle}
    (read : TcpRead stream size popped queued popped' queued' result stream')
    (room : 0 < size)
    (bound : stream.readBuffer.length + queued.flatten.length + queued.length ≤ left + 1) :
    stream'.readBuffer.length + queued'.flatten.length + queued'.length ≤ left := by
  cases read with
  | rest _ some_ =>
      have long := List.length_pos_of_ne_nil some_
      rw [List.length_drop]
      omega
  | pop _ chunk served =>
      simp only [List.flatten_cons, List.length_append, List.length_cons] at bound
      rw [List.length_drop]
      omega
  | wait served =>
      rw [served]
      exact Nat.zero_le left

theorem StreamKept.read (kept : StreamKept streamId target behind inflow stream blocked popped
      queued) {session : Session} {size : Nat} {popped' queued' : List Bytes} {result : ReadResult}
    {stream' : StreamHandle}
    (read : TcpRead stream size popped queued popped' queued' result stream')
    (serving : Serving streamId session stream' blocked) :
    StreamKept streamId target behind
      ⟨session, inflow.opened, inflow.answers ++ [(size, result)]⟩ stream' blocked popped'
      queued' := by
  have given := given_append inflow session inflow.opened (size, result)
  have ends (new : 0 < size → result.outcome = some [] →
      EndsAt behind (inflow.given ++ result.outcome.toList).flatten) :
      ∀ answer ∈ inflow.answers ++ [(size, result)], 0 < answer.1 → answer.2.outcome = some [] →
        EndsAt behind (inflow.given ++ result.outcome.toList).flatten := by
    refine List.forall_mem_append.mpr ⟨?_, List.forall_mem_singleton.mpr new⟩
    intro answer member room nothing
    have before := (kept.ends answer member room nothing).mono []
      (List.prefix_append inflow.given.flatten result.outcome.toList.flatten)
    rwa [List.append_nil, ← List.flatten_append] at before
  have clean (new : result = .pending ∨ result.outcome.isSome) :
      ∀ answer ∈ inflow.answers ++ [(size, result)],
        answer.2 = .pending ∨ answer.2.outcome.isSome :=
    List.forall_mem_append.mpr ⟨kept.clean, List.forall_mem_singleton.mpr new⟩
  cases read with
  | rest _ left =>
      refine ⟨serving, kept.opened, kept.tcp, kept.unfinished, kept.queue, kept.cut, ?_,
        clean (.inr rfl), ?_⟩
      · rw [given, kept.balance]
        simp [ReadResult.outcome]
      · rw [given]
        refine ends fun room nothing => ?_
        have taken := Option.some.inj nothing
        rcases List.take_eq_nil_iff.mp taken with none_ | served
        · omega
        · exact absurd served left
  | pop _ chunk served =>
      have same := kept.balance
      rw [served, List.append_nil] at same
      refine ⟨serving, kept.opened, kept.tcp, kept.unfinished, rfl, ?_, ?_, clean (.inr rfl), ?_⟩
      · rw [kept.cut]
        simp
      · rw [given, List.flatten_append, same]
        simp [ReadResult.outcome]
      · rw [given]
        refine ends fun room nothing => ⟨popped, queued' ++ blocked.toList, ?_, ?_⟩
        · have taken := Option.some.inj nothing
          rcases List.take_eq_nil_iff.mp taken with none_ | empty
          · omega
          · rw [kept.cut, empty]
            rfl
        · rw [same, List.flatten_append]
          exact List.prefix_append ..
  | wait served =>
      refine ⟨serving, kept.opened, kept.tcp, kept.unfinished, kept.queue, kept.cut, ?_,
        clean (.inl rfl), ?_⟩
      · rw [given, kept.balance]
        simp [ReadResult.outcome]
      · rw [given]
        refine ends fun room nothing => ?_
        cases nothing

theorem StreamKept.queueing (kept : StreamKept streamId target behind inflow stream blocked popped
      queued) {session : Session} {data : Bytes} {more : List Bytes}
    (cut : behind ++ more = popped ++ (queued ++ [data]))
    (serving : Serving streamId session (Session.queueing data stream) none) :
    StreamKept streamId target (behind ++ more) ⟨session, inflow.opened, inflow.answers⟩
      (Session.queueing data stream) none popped (queued ++ [data]) where
  serving := serving
  opened := kept.opened
  tcp := kept.tcp
  unfinished := kept.unfinished
  queue := queue_queueing kept.queue data
  cut := by rw [cut, Option.toList_none, List.append_nil]
  balance := kept.balance
  clean := kept.clean
  ends := fun answer member room nothing =>
    (kept.ends answer member room nothing).mono more List.prefix_rfl

theorem StreamKept.step (kept : StreamKept streamId target behind inflow stream blocked popped
      queued) {input : Input} (taken : inflow.step streamId input = some next) :
    ∃ stream' blocked' popped' queued', StreamKept streamId target (behind ++ input.piece.toList)
      next stream' blocked' popped' queued' := by
  obtain ⟨stream', blocked', serving, same, served⟩ := kept.serving.step taken
  obtain ⟨session', opened', answers'⟩ := next
  cases same
  cases served with
  | queued data =>
      have cut : behind ++ [data] = popped ++ (queued ++ [data]) := by
        rw [kept.cut, Option.toList_none, List.append_nil, List.append_assoc]
      exact ⟨_, _, popped, queued ++ [data], kept.queueing cut serving⟩
  | waits data =>
      refine ⟨_, _, popped, queued, serving, kept.opened, kept.tcp, kept.unfinished, kept.queue, ?_,
        kept.balance, kept.clean, fun answer member room nothing =>
          (kept.ends answer member room nothing).mono [data] List.prefix_rfl⟩
      simp [Input.piece, kept.cut]
  | delivered data =>
      have cut : behind ++ [] = popped ++ (queued ++ [data]) := by
        rw [List.append_nil, kept.cut, Option.toList_some]
      exact ⟨_, _, popped, queued ++ [data], kept.queueing cut serving⟩
  | read _ size =>
      obtain ⟨popped', queued', read⟩ := tcpRead kept.tcp kept.unfinished kept.queue size popped
      have piece : behind ++ (Input.read size).piece.toList = behind := List.append_nil _
      rw [piece]
      exact ⟨_, _, popped', queued', kept.read read serving⟩

theorem StreamKept.run (kept : StreamKept streamId target behind inflow stream blocked popped
      queued) {inputs : List Input} {final : Inflow}
    (ran : Machine.run (Inflow.step streamId) inflow inputs = some final) :
    ∃ stream' blocked' popped' queued', StreamKept streamId target (behind ++ pieces inputs)
      final stream' blocked' popped' queued' := by
  induction inputs generalizing inflow behind stream blocked popped queued with
  | nil =>
      cases ran
      rw [pieces, List.filterMap_nil, List.append_nil]
      exact ⟨_, _, _, _, kept⟩
  | cons input inputs ih =>
      obtain ⟨next, taken, ran⟩ := Machine.run_cons ran
      obtain ⟨_, _, _, _, kept⟩ := kept.step taken
      have later := ih kept ran
      rwa [List.append_assoc, pieces_cons] at later

theorem StreamKept.drains (kept : StreamKept streamId target behind inflow stream none popped
      queued) {size : Nat} (room : 0 < size) {left : Nat}
    (bound : stream.readBuffer.length + queued.flatten.length + queued.length ≤ left) :
    ∃ count final,
      Machine.run (Inflow.step streamId) inflow (.replicate count (.read size)) = some final ∧
        final.given.flatten = behind.flatten := by
  induction left generalizing inflow stream popped queued with
  | zero =>
      have served : stream.readBuffer = [] := List.eq_nil_of_length_eq_zero (by omega)
      have nothing : queued = [] := List.eq_nil_of_length_eq_zero (by omega)
      refine ⟨0, inflow, rfl, ?_⟩
      have balance := kept.balance
      rw [served, List.append_nil] at balance
      rw [← balance, kept.cut, nothing]
      simp
  | succ left ih =>
      obtain ⟨session, stepped, serving⟩ := kept.serving.step_read size
      obtain ⟨popped', queued', read⟩ := tcpRead kept.tcp kept.unfinished kept.queue size popped
      have kept' := kept.read read serving
      have fewer : (readHandle .server true size stream).2.readBuffer.length +
          queued'.flatten.length + queued'.length ≤ left := read.shortens room bound
      obtain ⟨count, final, ran, all⟩ := ih kept' fewer
      refine ⟨count + 1, final, ?_, all⟩
      rw [List.replicate_succ, Machine.run_cons_of stepped]
      exact ran

theorem StreamKept.consumes (kept : StreamKept streamId target behind inflow stream none popped [])
    (served : stream.readBuffer = []) (data : Bytes) :
    ∃ next stream' popped', Machine.run (Inflow.step streamId) inflow
        [.psh data, .read (data.length + 1)] = some next ∧
      StreamKept streamId target (behind ++ [data]) next stream' none popped' [] ∧
      stream'.readBuffer = [] ∧
      next.answers = inflow.answers ++ [(data.length + 1, .ready data)] := by
  have room : stream.queue.length < streamQueueCapacity := kept.queue ▸ by decide
  obtain ⟨session, stepped, serving⟩ := kept.serving.step_psh_room data room
  have cut : behind ++ [data] = popped ++ ([] ++ [data]) := by
    rw [kept.cut, Option.toList_none, List.append_nil, List.append_nil, List.nil_append]
  have kept := kept.queueing cut serving
  obtain ⟨session', read', serving'⟩ := kept.serving.step_read (data.length + 1)
  obtain ⟨popped', queued', read⟩ :=
    tcpRead kept.tcp kept.unfinished kept.queue (data.length + 1) popped
  have ran := (Machine.run_cons_of stepped [.read (data.length + 1)]).trans
    (Machine.run_cons_of read' [])
  have kept' := kept.read read serving'
  refine ⟨_, (readHandle .server true (data.length + 1) (Session.queueing data stream)).2,
    popped', ran, ?_⟩
  generalize readHandle .server true (data.length + 1) (Session.queueing data stream) = result
    at read kept' ⊢
  obtain ⟨result, stream'⟩ := result
  cases read with
  | rest _ left => exact absurd served left
  | pop _ chunk _ =>
      rw [List.take_of_length_le (Nat.le_succ _), List.drop_of_length_le (Nat.le_succ _)]
        at kept' ⊢
      exact ⟨kept', rfl, rfl⟩

theorem StreamKept.consumes_all
    (kept : StreamKept streamId target behind inflow stream none popped [])
    (served : stream.readBuffer = []) (more : List Bytes) :
    ∃ inputs next stream' popped', pieces inputs = more ∧
      Machine.run (Inflow.step streamId) inflow inputs = some next ∧
      StreamKept streamId target (behind ++ more) next stream' none popped' [] ∧
      stream'.readBuffer = [] := by
  induction more generalizing behind inflow stream popped with
  | nil =>
      rw [List.append_nil]
      exact ⟨[], inflow, stream, popped, rfl, rfl, kept, served⟩
  | cons data more ih =>
      obtain ⟨middle, _, _, first, kept, served, -⟩ := kept.consumes served data
      obtain ⟨inputs, next, stream', popped', cut, ran, kept, served⟩ := ih kept served
      rw [List.append_assoc] at kept
      refine ⟨_, next, stream', popped', ?_, (Machine.run_append_of first inputs).trans ran, kept,
        served⟩
      rw [← cut]
      rfl

theorem StreamKept.faithful (kept : StreamKept streamId target behind inflow stream blocked popped
      queued) {rest : List Bytes} (front : behind <+: rest) (full : FullPieces rest) :
    StreamFaithful streamId target rest.flatten (target.toBytes ++ behind.flatten) inflow where
  only := by rw [kept.opened]
  whole := fun _ => by
    refine ⟨kept.opened, ?_⟩
    rw [List.drop_left, kept.serving.waiting, kept.queue, chunks_map_data]
    simp only [kept.cut, List.flatten_append, kept.balance, List.append_assoc]
  clean := kept.clean
  ends := fun answer member room nothing => by
    obtain ⟨before, after, shape, given⟩ := kept.ends answer member room nothing
    obtain ⟨more, rfl⟩ := front
    have last := full before (after ++ more) (by rw [shape, List.append_assoc]; rfl)
    have whole : (behind ++ more).flatten = before.flatten := by
      rw [shape, List.append_assoc, List.flatten_append, List.cons_append, List.flatten_cons, last]
      simp
    have some_ : inflow.given.flatten <+: (behind ++ more).flatten := by
      rw [kept.cut, List.append_assoc, List.flatten_append, kept.balance, List.append_assoc]
      exact List.prefix_append ..
    rw [whole] at some_ ⊢
    exact some_.eq_of_length_le given.length_le
  moves := kept.serving.moves
  delivers := fun received loop size room => by
    obtain rfl := kept.serving.blocked_of_reading loop
    rw [← List.append_cancel_left received]
    exact kept.drains room (Nat.le_refl _)

end Stream

/-! From the SYN on. -/

section Runs

variable {streamId : UInt32} {target : TargetAddr} {payload : Bytes} {frames behind : List Bytes}
  {inputs : List Input} {inflow : Inflow}

theorem decoded_of_unscoped (unscoped : target.Unscoped) : Uot.decoded target = target := by
  cases target with
  | ip addr => exact congrArg TargetAddr.ip unscoped
  | domain name port => rfl

theorem toBytes_pos (target : TargetAddr) : 0 < target.toBytes.length := by
  rw [TargetAddr.toBytes, TargetAddr.length_writeTo]
  cases target with
  | ip addr => cases addr <;> exact Nat.succ_pos _
  | domain name port => exact Nat.succ_pos _

theorem faithful_registered (streamId : UInt32) (target : TargetAddr) (payload : Bytes) :
    StreamFaithful streamId target payload [] (registered streamId) where
  only := List.nil_prefix
  whole := fun long => absurd long (Nat.not_le.mpr (toBytes_pos target))
  clean := nofun
  ends := nofun
  moves := trivial
  delivers := fun all => by
    have long := toBytes_pos target
    rw [(List.append_eq_nil_iff.mp all.symm).1] at long
    cases long

theorem pieces_append (first second : List Input) :
    pieces (first ++ second) = pieces first ++ pieces second :=
  List.filterMap_append

theorem pieces_psh (frames : List Bytes) : pieces (frames.map .psh) = frames := by
  rw [pieces, List.filterMap_map]
  exact List.filterMap_some

theorem streamKept_opened {session : Session} {answers : List (Nat × ReadResult)}
    (serving : Serving streamId session (inboundHandle streamId false false []) none)
    (nothing : answers = []) :
    StreamKept streamId target [] ⟨session, [.stream target], answers⟩
      (inboundHandle streamId false false []) none [] [] := by
  subst nothing
  exact ⟨serving, rfl, rfl, rfl, rfl, rfl, rfl, nofun, nofun⟩

theorem streamRecovered_of_streamCut (bytes : frames.flatten = target.toBytes ++ payload)
    (cut : StreamCut target frames) : StreamRecovered streamId target payload frames := by
  obtain ⟨behind, rfl, full⟩ := cut.first
  rw [List.flatten_cons] at bytes
  obtain rfl := List.append_cancel_left bytes
  intro inputs inflow front ran
  cases inputs with
  | nil =>
      cases ran
      exact faithful_registered streamId target behind.flatten
  | cons input inputs =>
      have awaiting := awaiting_registered streamId
      obtain ⟨next, taken, ran⟩ := Machine.run_cons ran
      obtain ⟨data, rfl⟩ := awaiting.step taken
      obtain ⟨rfl, later⟩ := List.cons_prefix_cons.mp front
      obtain ⟨failed, opened, session', stepped, first⟩ := awaiting.step_first target.toBytes
      cases stepped.symm.trans taken
      have parsed := Anytls.parseTargetFromSyn_writeTo cut.short []
      rw [List.append_nil, decoded_of_unscoped cut.unscoped] at parsed
      cases first with
      | panics failed => cases failed.symm.trans parsed
      | refused error failed => cases failed.symm.trans parsed
      | waits port waits =>
          cases waits.symm.trans parsed
          exact absurd rfl (cut.other port)
      | opened other found =>
          cases found.symm.trans parsed
          have serving := awaiting.serving (inboundHandle streamId false false []) nofun
            rfl rfl rfl failed
          obtain ⟨_, _, _, _, kept⟩ := (streamKept_opened serving rfl).run ran
          exact kept.faithful later full

theorem StreamRecovered.opened_of_all
    (recovered : StreamRecovered streamId target payload frames)
    (bytes : frames.flatten = target.toBytes ++ payload)
    (ran : Machine.run (step streamId) (registered streamId) inputs = some inflow)
    (all : pieces inputs = frames) : inflow.opened = [.stream target] := by
  have faithful := recovered inputs inflow (by rw [all]) ran
  rw [all, bytes] at faithful
  refine (faithful.whole ?_).1
  rw [List.length_append]
  exact Nat.le_add_right ..

theorem StreamRecovered.opened_of_refused
    (recovered : StreamRecovered streamId target payload frames)
    (bytes : frames.flatten = target.toBytes ++ payload)
    (ran : Machine.run (step streamId) (registered streamId) inputs = some inflow)
    (cut : pieces inputs ++ behind = frames) (refused : Refused streamId inflow.session) :
    inflow.opened = [.stream target] := by
  obtain ⟨session', more⟩ := refused.run inflow behind
  have all : pieces (inputs ++ behind.map .psh) = frames := by
    rw [pieces_append, pieces_psh, cut]
  have same := recovered.opened_of_all bytes ((Machine.run_append_of ran _).trans more) all
  exact same

theorem StreamRecovered.fullPieces (recovered : StreamRecovered streamId target payload frames)
    {next : Inflow} {data : Bytes} (cut : frames = data :: behind)
    (stepped : (registered streamId).step streamId (.psh data) = some next)
    {stream : StreamHandle} (kept : StreamKept streamId target [] next stream none [] [])
    (served : stream.readBuffer = []) (payload_ : behind.flatten = payload) :
    FullPieces behind := by
  rintro before after rfl
  obtain ⟨inputs, middle, _, _, pieces_, ran, kept, served⟩ := kept.consumes_all served before
  obtain ⟨final, _, popped, last, kept, served, answers⟩ := kept.consumes served []
  have whole : Machine.run (Inflow.step streamId) (registered streamId)
      (.psh data :: (inputs ++ [.psh [], .read 1])) = some final :=
    (Machine.run_cons_of stepped _).trans ((Machine.run_append_of ran _).trans last)
  have shape : pieces (.psh data :: (inputs ++ [.psh [], .read 1])) = data :: (before ++ [[]]) := by
    change data :: pieces (inputs ++ [.psh [], .read 1]) = _
    rw [pieces_append, pieces_]
    rfl
  have front : data :: (before ++ [[]]) <+: frames := by
    have split : before ++ [] :: after = before ++ [[]] ++ after := List.append_cons ..
    rw [cut, split]
    exact ⟨after, rfl⟩
  have ends := (recovered _ final (shape ▸ front) whole).ends (1, .ready [])
    (by rw [answers]; exact List.mem_append_right _ (List.mem_singleton_self _)) Nat.one_pos rfl
  -- All that has come is given.
  have given : final.given.flatten = before.flatten := by
    have balance := kept.balance
    have all := congrArg List.flatten kept.cut
    rw [served, List.append_nil] at balance
    simp only [Option.toList_none, List.append_nil, List.nil_append, List.flatten_append,
      List.flatten_cons, List.flatten_nil, balance] at all
    exact all.symm
  rw [given, ← payload_, List.flatten_append, List.flatten_cons, List.nil_append] at ends
  exact List.append_cancel_left (ends.symm.trans (List.append_nil _).symm)

theorem streamCut_of_streamRecovered (bytes : frames.flatten = target.toBytes ++ payload)
    (recovered : StreamRecovered streamId target payload frames) : StreamCut target frames := by
  have awaiting := awaiting_registered streamId
  cases frames with
  | nil =>
      have long := congrArg List.length bytes
      have := toBytes_pos target
      rw [List.flatten_nil, List.length_append, List.length_nil] at long
      omega
  | cons data behind =>
      obtain ⟨failed, opened, session', stepped, first⟩ := awaiting.step_first data
      have ran := Machine.run_cons_of stepped []
      have front : pieces [.psh data] <+: data :: behind := ⟨behind, rfl⟩
      have faithful := recovered [.psh data] _ front ran
      cases first with
      | panics _ => exact faithful.moves.elim
      | refused error _ =>
          cases recovered.opened_of_refused bytes ran rfl (awaiting.refused failed)
      | waits port _ =>
          have waiting := awaiting.waits (.domain udpOverTcpTarget port) failed
          -- The next frame is read as a request.
          cases behind with
          | nil => cases recovered.opened_of_all bytes ran rfl
          | cons request behind =>
              obtain ⟨failed, opened, session', stepped', uot⟩ :=
                waiting.step_request ⟨_, [], []⟩ request
              have ran := (Machine.run_cons_of stepped [.psh request]).trans
                (Machine.run_cons_of stepped' [])
              cases uot with
              | refused _ =>
                  cases recovered.opened_of_refused bytes ran rfl (waiting.refused failed)
              | opened mode body target' remaining _ _ =>
                  have only := (recovered [.psh data, .psh request] _ ⟨behind, rfl⟩ ran).only
                  cases (List.cons_prefix_cons.mp only).1
      | opened target' parsed other =>
          cases (List.cons_prefix_cons.mp faithful.only).1
          obtain ⟨unscoped, short, rest, rfl⟩ := Anytls.writeTo_of_parseTargetFromSyn parsed
          have serving := awaiting.serving (inboundHandle streamId false false []) nofun
            rfl rfl rfl failed
          have received : (pieces [.psh (target.writeTo ++ rest)]).flatten =
              target.toBytes ++ rest := List.append_nil _
          rw [received] at faithful
          have long : target.toBytes.length ≤ (target.toBytes ++ rest).length := by
            rw [List.length_append]
            exact Nat.le_add_right ..
          have left := (faithful.whole long).2
          rw [serving.waiting, List.drop_left] at left
          -- What came with the address is gone.
          obtain rfl : rest = [] := left.symm
          rw [List.append_nil] at stepped bytes
          have kept : StreamKept streamId target [] _ _ none [] [] :=
            streamKept_opened serving rfl
          have payload_ : behind.flatten = payload := List.append_cancel_left bytes
          have full := recovered.fullPieces (List.append_nil _ ▸ rfl) stepped kept rfl payload_
          exact ⟨short, unscoped, other, behind, by rw [List.append_nil]; rfl, full⟩

theorem streamRecovered_iff (streamId : UInt32)
    (bytes : frames.flatten = target.toBytes ++ payload) :
    StreamRecovered streamId target payload frames ↔ StreamCut target frames :=
  ⟨streamCut_of_streamRecovered bytes, streamRecovered_of_streamCut bytes⟩

end Runs

end Inflow

end QuicProxy
