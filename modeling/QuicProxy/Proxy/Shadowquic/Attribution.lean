import QuicProxy.Proxy.Shadowquic.Sending
import QuicProxy.Proxy.Shadowquic.UdpTrace

namespace QuicProxy

/-! Where the packets that a receiver yields come from: one direction of a
ShadowQUIC connection with everything on its way, and both directions together. -/

/-- The sending half of one endpoint and the receiving half of the other. -/
structure UdpDirection where
  sending : UdpSending
  reception : UdpReception

/-- The inputs of a receiving half that do not come from the network. -/
def UdpInput.Local : UdpInput → Bool
  | arrive | handler _ _ | clean _ | call _ | worker _ _ | recv _ | close _ => true
  | datagram _ | control _ _ _ | accept | header _ _ | packet _ _ => false

inductive UdpDirectionEvent where
  | send (event : Pool.Event UdpSendRequest SendOutcome)
  | receive (input : UdpInput)
  /-- The control stream of a session is read up to the end of a message. -/
  | control (session : Nat)
  | accept
  | header (index : Nat)
  | packet (index : Nat)
  | datagram (index : Nat)
  | lose (index : Nat)

def readAddrAndContextId (stream : Bytes) : Except String ((UInt16 × TargetAddr) × Bytes) := do
  let (target, stream) ← TargetAddr.readFrom stream
  let (id, stream) ← readU16 stream
  pure ((id, target), stream)

/-- A packet of a unistream. -/
def readStreamPacket (stream : Bytes) : Except String (Bytes × Bytes) := do
  let (len, stream) ← readU16 stream
  readExact len.toNat stream

namespace UdpDirection

def new : UdpDirection := ⟨⟨.new, []⟩, .new⟩

/-- The receiving half takes an input, which leaves the network as `senders`. -/
def take (direction : UdpDirection) (senders : UdpSenders) (input : UdpInput) :
    Option UdpDirection :=
  (direction.reception.step input).map fun reception =>
    ⟨⟨senders, direction.sending.calls⟩, reception⟩

/-- A stream that is read up to what is left of it. -/
def readTo (senders : UdpSenders) (index : Nat) (unread : Bytes) : UdpSenders :=
  { senders with
    streams := senders.streams.modify index fun stream => { stream with unread } }

variable (overUnistream : Nat → Bool) (isClient : Bool)

def step (direction : UdpDirection) : UdpDirectionEvent → Option UdpDirection
  | .send event =>
      ((UdpSenders.program overUnistream isClient).step direction.sending event).map fun sending =>
        { direction with sending }
  | .receive input => if input.Local then direction.take direction.sending.shared input else none
  | .control session =>
      let senders := direction.sending.shared
      match readAddrAndContextId (senders.control session) with
      | .error _ => none
      | .ok ((id, target), rest) =>
          direction.take
            { senders with control := Function.update senders.control session rest }
            (.control session target id)
  | .accept =>
      if direction.reception.workers.length < direction.sending.shared.streams.length then
        direction.take direction.sending.shared .accept
      else none
  | .header index =>
      let senders := direction.sending.shared
      match senders.streams[index]? with
      | none => none
      | some stream =>
          match readU16 stream.unread with
          | .error _ => none
          | .ok (id, rest) => direction.take (readTo senders index rest) (.header index id)
  | .packet index =>
      let senders := direction.sending.shared
      match senders.streams[index]? with
      | none => none
      | some stream =>
          match readStreamPacket stream.unread with
          | .error _ => none
          | .ok (data, rest) => direction.take (readTo senders index rest) (.packet index data)
  | .datagram index =>
      let senders := direction.sending.shared
      match senders.datagrams[index]? with
      | none => none
      | some datagram =>
          direction.take { senders with datagrams := senders.datagrams.eraseIdx index }
            (.datagram datagram)
  | .lose index =>
      let senders := direction.sending.shared
      some { direction with
        sending := ⟨{ senders with datagrams := senders.datagrams.eraseIdx index },
          direction.sending.calls⟩ }

/-- Every packet that a receiver has yielded has been sent by the peer's half of
its session, under the address that it comes with. -/
def Attributed (direction : UdpDirection) : Prop :=
  ∀ receiver target payload, (receiver, target, payload) ∈ direction.reception.yielded →
    ∃ send ∈ direction.sending.shared.sends, send.session = receiver ∧
      send.contextAddr.decoded = target ∧ send.payload = some payload

variable {overUnistream isClient}
variable {direction next : UdpDirection} {senders : UdpSenders} {event : UdpDirectionEvent}

/-! What is on the network is what its writers have put there. -/

theorem readAddrAndContextId_bindMessage {target : TargetAddr} (short : target.ShortName)
    (id : UInt16) (rest : Bytes) :
    readAddrAndContextId (UdpSenders.bindMessage target id ++ rest) =
      .ok ((id, target.decoded), rest) := by
  rw [UdpSenders.bindMessage, List.append_assoc]
  simp only [readAddrAndContextId, TargetAddr.toBytes, bind, Except.bind,
    TargetAddr.readFrom_writeTo short, readU16_append]
  rfl

theorem readStreamPacket_streamPacket {payload : Bytes} (short : payload.length < 65536)
    (rest : Bytes) :
    readStreamPacket (UdpSenders.streamPacket payload ++ rest) = .ok (payload, rest) := by
  have length : (castU16 payload.length).toNat = payload.length := by
    rw [toNat_castU16]
    omega
  rw [UdpSenders.streamPacket, List.append_assoc]
  simp only [readStreamPacket, bind, Except.bind, readU16_append, length, readExact_append]

/-- What may be told of a receiving half by what its peer has sent. -/
def trace (sound : senders.Sound) : UdpTrace where
  Bound id receiver target := ∃ context ∈ senders.contexts,
    context.id = id ∧ context.session = receiver ∧ context.target.decoded = target
  Fed id payload := ∃ context ∈ senders.contexts, context.id = id ∧ senders.Sent context payload
  Received receiver target payload := ∃ send ∈ senders.sends, send.session = receiver ∧
    send.contextAddr.decoded = target ∧ send.payload = some payload
  receives := by
    rintro id receiver target payload ⟨context, known, rfl, rfl, rfl⟩
      ⟨other, also, same, send, member, session, contextAddr, own⟩
    obtain rfl := sound.distinct other also context known same
    exact ⟨send, member, session, by rw [contextAddr], own⟩

theorem holds_extends {later : UdpSenders} (sound : senders.Sound) (soundLater : later.Sound)
    (grows : senders.Extends later) {reception : UdpReception}
    (holds : (trace sound).Holds reception) : (trace soundLater).Holds reception := by
  refine holds.mono ?_ ?_ ?_
  · rintro id receiver target ⟨context, known, own⟩
    exact ⟨context, grows.contexts context known, own⟩
  · rintro id payload ⟨context, known, same, sent⟩
    exact ⟨context, grows.contexts context known, same, grows.sent sent⟩
  · rintro receiver target payload ⟨send, member, own⟩
    exact ⟨send, grows.sends send member, own⟩

/-- What the peer has not read of a stream, by the task that reads it. -/
def Unread (stream : UniStream) (packets : Bytes) : Option UniWorker → Prop
  | none | some .accepted => stream.unread = u16ToBe stream.context.id ++ packets
  | some .ended => True
  | some (.searching id) | some (.found _ id) | some (.reading _ id _) | some (.holding _ id _ _) =>
      id = stream.context.id ∧ stream.unread = packets

/-- A stream carries packets of its own context. -/
def Carries (senders : UdpSenders) (stream : UniStream) (worker : Option UniWorker) : Prop :=
  ∃ payloads : List Bytes,
    (∀ payload ∈ payloads, payload.length < 65536 ∧ senders.Sent stream.context payload) ∧
      Unread stream (payloads.flatMap UdpSenders.streamPacket) worker

structure Sound (direction : UdpDirection) : Prop where
  secure : UdpSenders.Secure direction.sending
  holds : (trace secure.shared).Holds direction.reception
  carries : ∀ (index : Nat) stream, direction.sending.shared.streams[index]? = some stream →
    Carries direction.sending.shared stream (direction.reception.workers[index]?)
  accepted : direction.reception.workers.length ≤ direction.sending.shared.streams.length

theorem sound_new : Sound new := ⟨UdpSenders.secure_new, UdpTrace.holds_new, nofun, Nat.le_refl 0⟩

theorem Sound.attributed (sound : Sound direction) : Attributed direction :=
  fun _ _ _ member => sound.holds.yielded _ member

theorem Carries.extends {later : UdpSenders} {stream : UniStream} {worker : Option UniWorker}
    (grows : senders.Extends later) (carries : Carries senders stream worker) :
    Carries later stream worker := by
  obtain ⟨payloads, all, unread⟩ := carries
  exact ⟨payloads, fun payload member => (all payload member).imp_right grows.sent, unread⟩

theorem Carries.work {stream : UniStream} {worker moved : UniWorker}
    (keeps : moved = .ended ∨ worker.contextId ≠ none ∧ moved.contextId = worker.contextId)
    (carries : Carries senders stream (some worker)) : Carries senders stream (some moved) := by
  obtain ⟨payloads, all, unread⟩ := carries
  refine ⟨payloads, all, ?_⟩
  rcases keeps with rfl | ⟨read, same⟩
  · trivial
  · cases worker with
    | accepted | ended => exact absurd rfl read
    | searching | found | reading | holding =>
        cases moved with
        | accepted | ended => cases same
        | searching | found | reading | holding =>
            cases same
            exact unread

end UdpDirection

namespace UdpReception

theorem workers_of_local {state next : UdpReception} {input : UdpInput} (own : input.Local)
    (taken : state.step input = some next) :
    next.workers = state.workers ∨ ∃ index worker moved, state.workers[index]? = some worker ∧
      next.workers = state.workers.set index moved ∧
        (moved = .ended ∨ worker.contextId ≠ none ∧ moved.contextId = worker.contextId) := by
  cases input with
  | datagram | control | accept | header | packet => cases own
  | arrive =>
      left
      cases arrives taken with
      | sent => exact workers_trySend
      | routed | missed | fed | unbound | present | absent | refused | admitted | entered | opened
      | orphaned | queued | full | gone | spawned => rfl
  | handler id stop =>
      left
      obtain ⟨context, -, handled⟩ := Option.bind_eq_some_iff.mp taken
      cases handles handled with
      | sent => exact workers_trySend
      | stopped | found | took | fed | left => rfl
  | clean | close =>
      cases taken
      exact .inl rfl
  | call index =>
      obtain ⟨registry, -, rfl⟩ := Option.map_eq_some_iff.mp taken
      exact .inl rfl
  | recv receiver =>
      simp only [step] at taken
      split at taken <;> cases taken
      exact .inl rfl
  | worker index stop =>
      right
      obtain ⟨worker, found, worked⟩ := Option.bind_eq_some_iff.mp taken
      refine ⟨index, worker, ?_⟩
      cases works worked with
      | gaveUp => exact ⟨.ended, found, rfl, .inl rfl⟩
      | exited => exact ⟨.ended, found, rfl, .inl rfl⟩
      | found => exact ⟨_, found, rfl, .inr ⟨Option.some_ne_none _, rfl⟩⟩
      | bound => exact ⟨_, found, rfl, .inr ⟨Option.some_ne_none _, rfl⟩⟩
      | @delivered receiver id remoteSrc =>
          refine ⟨.reading receiver id remoteSrc, found, ?_,
            .inr ⟨Option.some_ne_none _, rfl⟩⟩
          simp only [setWorker, workers_trySend]

end UdpReception

namespace UdpDirection

variable {overUnistream : Nat → Bool} {isClient : Bool}
variable {direction next : UdpDirection} {senders : UdpSenders} {event : UdpDirectionEvent}

theorem Sound.take (sound : Sound direction) (secure : senders.Sound)
    (grows : direction.sending.shared.Extends senders) {input : UdpInput}
    (given : (trace sound.secure.shared).Input direction.reception input)
    (carries : ∀ reception, direction.reception.step input = some reception →
      (∀ (index : Nat) stream, senders.streams[index]? = some stream →
        Carries senders stream (reception.workers[index]?)) ∧
      reception.workers.length ≤ senders.streams.length)
    (taken : direction.take senders input = some next) : Sound next := by
  obtain ⟨reception, stepped, rfl⟩ := Option.map_eq_some_iff.mp taken
  obtain ⟨streams, accepted⟩ := carries reception stepped
  exact ⟨sound.secure.extends grows secure,
    holds_extends sound.secure.shared secure grows (sound.holds.step given stepped), streams,
    accepted⟩

theorem Unread.append {stream : UniStream} {packets more : Bytes} {worker : Option UniWorker}
    (unread : Unread stream packets worker) :
    Unread { stream with unread := stream.unread ++ more } (packets ++ more) worker := by
  have longer {first : Bytes} (shape : stream.unread = first ++ packets) :
      stream.unread ++ more = first ++ (packets ++ more) := by
    rw [shape, List.append_assoc]
  cases worker with
  | none => exact longer unread
  | some worker =>
      cases worker with
      | accepted => exact longer unread
      | ended => trivial
      | searching | found | reading | holding => exact unread.imp_right (congrArg (· ++ more))

theorem Carries.write {stream : UniStream} {worker : Option UniWorker} {payload : Bytes}
    (short : payload.length < 65536) (sent : senders.Sent stream.context payload)
    (carries : Carries senders stream worker) :
    Carries senders { stream with unread := stream.unread ++ UdpSenders.streamPacket payload }
      worker := by
  obtain ⟨payloads, all, unread⟩ := carries
  refine ⟨payloads ++ [payload], Pool.forall_start all ⟨short, sent⟩, ?_⟩
  rw [List.flatMap_append, List.flatMap_singleton]
  exact unread.append

theorem Sound.send (sound : Sound direction) {sent : Pool.Event UdpSendRequest SendOutcome}
    {sending : UdpSending} (fits : UdpSenders.Fits isClient direction.sending sent)
    (taken : (UdpSenders.program overUnistream isClient).step direction.sending sent =
      some sending) : Sound { direction with sending } := by
  have grows := UdpSenders.extends_of_step taken
  have secure := sound.secure.step fits taken
  obtain ⟨⟨soundShared, calls⟩, holds, carries, accepted⟩ := sound
  have kept := holds_extends soundShared secure.shared grows holds
  rcases Pool.Program.step_cases taken with
    ⟨request, rfl, rfl⟩ | ⟨before, call, rest, outcome, senders, moved, rfl, shape, acted, rfl⟩
  · exact ⟨secure, kept, carries, accepted⟩
  · rw [shape] at calls
    have own := calls call (List.mem_append_right _ (List.mem_cons_self ..))
    rcases (UdpSenders.acts acted).streams own with same | ⟨context, opened⟩ | wrote
    · refine ⟨secure, kept, fun index stream found => ?_, ?_⟩
      · exact (carries index stream (same ▸ found)).extends grows
      · exact same ▸ accepted
    · refine ⟨secure, kept, fun index stream found => ?_, ?_⟩
      · change senders.streams[index]? = some stream at found
        rw [opened] at found
        rcases Pool.getElem?_concat_cases found with earlier | ⟨rfl, rfl⟩
        · exact (carries index stream earlier).extends grows
        · have unaccepted : direction.reception.workers[direction.sending.shared.streams.length]? =
              none := List.getElem?_eq_none accepted
          refine ⟨[], nofun, ?_⟩
          rw [unaccepted]
          exact (List.append_nil _).symm
      · change direction.reception.workers.length ≤ senders.streams.length
        rw [opened, List.length_append]
        exact Nat.le_add_right_of_le accepted
    · obtain ⟨place, payload, short, rfl, origin⟩ := wrote
      refine ⟨secure, kept, fun index stream found => ?_, ?_⟩
      · simp only [UdpSenders.writeStream, List.getElem?_modify] at found
        obtain ⟨old, there, rfl⟩ := Option.map_eq_some_iff.mp found
        have before := (carries index old there).extends grows
        split
        · next here =>
            subst here
            exact before.write short (origin old.context ⟨old, there, rfl⟩)
        · exact before
      · simp only [UdpSenders.writeStream, List.length_modify]
        exact accepted

theorem Sound.receive (sound : Sound direction) {input : UdpInput} (own : input.Local)
    (taken : direction.take direction.sending.shared input = some next) : Sound next := by
  have given : (trace sound.secure.shared).Input direction.reception input := by
    cases input with
    | datagram | control | accept | header | packet => cases own
    | arrive | handler | clean | call | worker | recv | close => trivial
  refine sound.take sound.secure.shared (.refl _) given (fun reception stepped => ?_) taken
  rcases UdpReception.workers_of_local own stepped with
    same | ⟨place, worker, moved, found, set, keeps⟩
  · rw [same]
    exact ⟨sound.carries, sound.accepted⟩
  · rw [set, List.length_set]
    refine ⟨fun index stream there => ?_, sound.accepted⟩
    have before := sound.carries index stream there
    rw [Pool.getElem?_set_of_some found]
    split
    · next here =>
        subst here
        rw [found] at before
        exact before.work keeps
    · exact before

theorem Sound.control (sound : Sound direction) {session : Nat}
    (taken : step overUnistream isClient direction (.control session) = some next) :
    Sound next := by
  obtain ⟨pending, unread, all⟩ := sound.secure.shared.control session
  simp only [step] at taken
  cases pending with
  | nil =>
      rw [unread] at taken
      cases taken
  | cons context rest =>
      obtain ⟨⟨known, own⟩, later⟩ := List.forall_mem_cons.mp all
      have short := sound.secure.shared.shortContext context known
      rw [unread, List.flatMap_cons, readAddrAndContextId_bindMessage short] at taken
      have given : (trace sound.secure.shared).Input direction.reception
          (.control session context.target.decoded context.id) := ⟨context, known, rfl, own, rfl⟩
      refine sound.take (sound.secure.shared.readControl later) ⟨fun _ => id, fun _ => id, id, id⟩
        given (fun reception stepped => ?_) taken
      cases stepped
      exact ⟨sound.carries, sound.accepted⟩

theorem Sound.datagram (sound : Sound direction) {index : Nat}
    (taken : step overUnistream isClient direction (.datagram index) = some next) :
    Sound next := by
  simp only [step] at taken
  split at taken
  · cases taken
  · next datagram found =>
      obtain ⟨context, known, payload, rfl, sent⟩ :=
        sound.secure.shared.datagrams datagram (List.mem_of_getElem? found)
      refine sound.take sound.secure.shared.lose ⟨fun _ => id, fun _ => id, id, id⟩ ?_
        (fun reception stepped => ?_) taken
      · intro high low tail shape
        obtain ⟨first, second, split, value⟩ := u16ToBe_eq context.id
        rw [split] at shape
        cases shape
        exact ⟨context, known, value.symm, sent⟩
      · simp only [UdpReception.step] at stepped
        split at stepped <;> cases stepped <;> exact ⟨sound.carries, sound.accepted⟩

theorem extends_readTo {index : Nat} {unread : Bytes} :
    senders.Extends (readTo senders index unread) :=
  UdpSenders.extends_modifyStream fun _ => rfl

theorem sound_readTo (sound : senders.Sound) {index : Nat} {unread : Bytes} :
    (readTo senders index unread).Sound :=
  sound.modifyStream fun _ => rfl

theorem carries_readTo {index : Nat} {stream : UniStream} {workers : List UniWorker}
    {worker moved : UniWorker} {unread : Bytes}
    (carries : ∀ (index : Nat) stream, senders.streams[index]? = some stream →
      Carries senders stream (workers[index]?))
    (found : senders.streams[index]? = some stream) (there : workers[index]? = some worker)
    (read : Carries senders { stream with unread } (some moved)) (other : Nat) (later : UniStream)
    (found' : (readTo senders index unread).streams[other]? = some later) :
    Carries (readTo senders index unread) later ((workers.set index moved)[other]?) := by
  have grows : senders.Extends (readTo senders index unread) := extends_readTo
  simp only [readTo, List.getElem?_modify] at found'
  obtain ⟨old, same, rfl⟩ := Option.map_eq_some_iff.mp found'
  rw [Pool.getElem?_set_of_some there]
  by_cases here : other = index
  · subst here
    cases found.symm.trans same
    rw [if_pos rfl, if_pos rfl]
    exact read.extends grows
  · rw [if_neg (Ne.symm here), if_neg here]
    exact (carries other old same).extends grows

theorem Sound.header (sound : Sound direction) {index : Nat}
    (taken : step overUnistream isClient direction (.header index) = some next) : Sound next := by
  simp only [step] at taken
  split at taken
  · cases taken
  · next stream found =>
      split at taken
      · cases taken
      · next id rest read =>
          have carried := sound.carries index stream found
          have given : (trace sound.secure.shared).Input direction.reception (.header index id) :=
            trivial
          refine sound.take (sound_readTo sound.secure.shared) extends_readTo given
            (fun reception stepped => ?_) taken
          simp only [UdpReception.step] at stepped
          split at stepped <;> cases stepped
          next there =>
            rw [there] at carried
            obtain ⟨payloads, all, unread⟩ := carried
            have unread : stream.unread = u16ToBe stream.context.id ++
              payloads.flatMap UdpSenders.streamPacket := unread
            rw [unread, readU16_append] at read
            cases read
            refine ⟨?_, ?_⟩
            · exact carries_readTo sound.carries found there ⟨payloads, all, rfl, rfl⟩
            · simp only [UdpReception.setWorker, readTo, List.length_set, List.length_modify]
              exact sound.accepted

theorem Sound.packet (sound : Sound direction) {index : Nat}
    (taken : step overUnistream isClient direction (.packet index) = some next) : Sound next := by
  simp only [step] at taken
  split at taken
  · cases taken
  · next stream found =>
      split at taken
      · cases taken
      · next data rest read =>
          have carried := sound.carries index stream found
          obtain ⟨reception, stepped, -⟩ := Option.map_eq_some_iff.mp taken
          simp only [UdpReception.step] at stepped
          split at stepped <;> cases stepped
          next receiver id remoteSrc there =>
            rw [there] at carried
            obtain ⟨payloads, all, same, unread⟩ := carried
            cases payloads with
            | nil =>
                rw [unread] at read
                cases read
            | cons payload payloads =>
                obtain ⟨⟨short, sent⟩, later⟩ := List.forall_mem_cons.mp all
                rw [unread, List.flatMap_cons, readStreamPacket_streamPacket short] at read
                cases read
                have given : (trace sound.secure.shared).Input direction.reception
                    (.packet index data) := by
                  intro worker reading key reads
                  cases there.symm.trans reading
                  cases reads
                  exact ⟨stream.context,
                    sound.secure.shared.streams stream (List.mem_of_getElem? found), same.symm,
                    sent⟩
                refine sound.take (sound_readTo sound.secure.shared) extends_readTo given
                  (fun reception stepped => ?_) taken
                simp only [UdpReception.step, there] at stepped
                cases stepped
                refine ⟨?_, ?_⟩
                · exact carries_readTo sound.carries found there ⟨payloads, later, same, rfl⟩
                · simp only [UdpReception.setWorker, readTo, List.length_set, List.length_modify]
                  exact sound.accepted

theorem Sound.accept (sound : Sound direction)
    (taken : step overUnistream isClient direction .accept = some next) : Sound next := by
  simp only [step] at taken
  split at taken
  · next unaccepted =>
      have given : (trace sound.secure.shared).Input direction.reception .accept := trivial
      refine sound.take sound.secure.shared (.refl _) given (fun reception stepped => ?_) taken
      cases stepped
      refine ⟨fun index stream found => ?_, ?_⟩
      · have carried := sound.carries index stream found
        rcases Nat.lt_trichotomy index direction.reception.workers.length with
          earlier | same | later
        · rw [List.getElem?_append_left earlier]
          exact carried
        · subst same
          rw [List.getElem?_eq_none (Nat.le_refl _)] at carried
          rw [List.getElem?_concat_length]
          exact carried
        · rw [List.getElem?_eq_none (Nat.le_of_lt later)] at carried
          rw [List.getElem?_eq_none (by rw [List.length_append]; exact later)]
          exact carried
      · rw [List.length_append]
        exact unaccepted
  · cases taken

def Fits (isClient : Bool) (direction : UdpDirection) : UdpDirectionEvent → Prop
  | .send event => UdpSenders.Fits isClient direction.sending event
  | .receive _ | .control _ | .accept | .header _ | .packet _ | .datagram _ | .lose _ => True

instance : (event : UdpDirectionEvent) → Decidable (Fits isClient direction event)
  | .send event => inferInstanceAs (Decidable (UdpSenders.Fits isClient direction.sending event))
  | .receive _ | .control _ | .accept | .header _ | .packet _ | .datagram _ | .lose _ =>
      inferInstanceAs (Decidable True)

theorem Sound.step (sound : Sound direction) (fits : Fits isClient direction event)
    (taken : step overUnistream isClient direction event = some next) : Sound next := by
  cases event with
  | send event =>
      obtain ⟨sending, stepped, rfl⟩ := Option.map_eq_some_iff.mp taken
      exact sound.send fits stepped
  | receive input =>
      simp only [UdpDirection.step] at taken
      split at taken
      · next own => exact sound.receive own taken
      · cases taken
  | control session => exact sound.control taken
  | accept => exact sound.accept taken
  | header index => exact sound.header taken
  | packet index => exact sound.packet taken
  | datagram index => exact sound.datagram taken
  | lose index =>
      cases taken
      have grows : direction.sending.shared.Extends { direction.sending.shared with
          datagrams := direction.sending.shared.datagrams.eraseIdx index } :=
        ⟨fun _ => id, fun _ => id, id, id⟩
      have lost : UdpSenders.Sound { direction.sending.shared with
          datagrams := direction.sending.shared.datagrams.eraseIdx index } :=
        sound.secure.shared.lose
      exact ⟨sound.secure.extends grows lost,
        holds_extends sound.secure.shared lost grows sound.holds, sound.carries, sound.accepted⟩

structure Reliable (overUnistream : Nat → Bool) (isClient : Bool) (direction : UdpDirection) :
    Prop where
  attributed : Attributed direction
  onceEach : UdpSenders.OnceEach direction.sending.shared
  fails : UdpSenders.FailsWhenExhausted overUnistream isClient direction.sending

theorem Sound.reliable (sound : Sound direction) : Reliable overUnistream isClient direction :=
  ⟨sound.attributed, sound.secure.shared.onceEach, sound.secure.failsWhenExhausted⟩

end UdpDirection

/-- Two endpoints, with the datagrams from the client and those to it. -/
structure UdpConnection where
  upload : UdpDirection
  download : UdpDirection

inductive UdpConnectionEvent where
  | upload (event : UdpDirectionEvent)
  | download (event : UdpDirectionEvent)

namespace UdpConnection

def new : UdpConnection := ⟨.new, .new⟩

variable (overUnistream : Nat → Bool)

def step (connection : UdpConnection) : UdpConnectionEvent → Option UdpConnection
  | .upload event =>
      (UdpDirection.step overUnistream true connection.upload event).map fun upload =>
        { connection with upload }
  | .download event =>
      (UdpDirection.step overUnistream false connection.download event).map fun download =>
        { connection with download }

/-- Every address that is sent to has a name of at most 255 bytes, and no endpoint
counts its ids up to 2^32. -/
def Fits (connection : UdpConnection) : UdpConnectionEvent → Prop
  | .upload event => UdpDirection.Fits true connection.upload event
  | .download event => UdpDirection.Fits false connection.download event

def Reliable (connection : UdpConnection) : Prop :=
  connection.upload.Reliable overUnistream true ∧ connection.download.Reliable overUnistream false

def Sound (connection : UdpConnection) : Prop :=
  connection.upload.Sound ∧ connection.download.Sound

instance (connection : UdpConnection) : (event : UdpConnectionEvent) →
    Decidable (Fits connection event)
  | .upload event => inferInstanceAs (Decidable (UdpDirection.Fits true connection.upload event))
  | .download event =>
      inferInstanceAs (Decidable (UdpDirection.Fits false connection.download event))

variable {overUnistream} {connection next : UdpConnection} {event : UdpConnectionEvent}

theorem Sound.step (sound : Sound connection) (fits : Fits connection event)
    (taken : step overUnistream connection event = some next) : Sound next := by
  cases event with
  | upload event =>
      obtain ⟨upload, stepped, rfl⟩ := Option.map_eq_some_iff.mp taken
      exact ⟨sound.1.step fits stepped, sound.2⟩
  | download event =>
      obtain ⟨download, stepped, rfl⟩ := Option.map_eq_some_iff.mp taken
      exact ⟨sound.1, sound.2.step fits stepped⟩

theorem reliable_of_fits {events : List UdpConnectionEvent}
    (fits : Machine.Within (step overUnistream) Fits new events) :
    Machine.Throughout (step overUnistream) (Reliable overUnistream) new events :=
  Machine.throughout_mono (fun sound => ⟨sound.1.reliable, sound.2.reliable⟩)
    (Machine.throughout_of_within Sound Sound.step
      ⟨UdpDirection.sound_new, UdpDirection.sound_new⟩ fits)

/-- A session that sends to a name, and one that sends to an address. -/
def twoSends (name : String) : List UdpConnectionEvent :=
  [.sendTo 0 [5] .dummy (.domain name 80),
    .sendTo 1 [9] .dummy (.ip (.v4 ⟨1, 1, 1, 1⟩ 53))].zipIdx.flatMap fun (request, index) =>
      .upload (.send (.start request)) ::
        List.replicate 5 (.upload (.send (.advance index .ok)))

/-- The first session binds what its control stream says, and gets a datagram. -/
def deliver (datagram : Nat) : List UdpConnectionEvent :=
  [.control 0, .receive (.call 0), .receive (.call 0), .receive (.call 0), .datagram datagram,
    .receive .arrive, .receive .arrive, .receive .arrive, .receive (.recv 0)].map .upload

theorem reliable_short : Machine.Throughout (step fun _ => false) (Reliable fun _ => false) new
    (twoSends "a" ++ deliver 0) :=
  reliable_of_fits (by decide)

/-- A name of 256 bytes, which the control stream says is empty; its first four
bytes are read as a port and the id 2. -/
def longName : String :=
  String.ofList ('a' :: 'a' :: Char.ofNat 0 :: Char.ofNat 2 :: List.replicate 252 'a')

/-- The first session yields what the second one has sent. -/
theorem longName_misattributed : ∃ final,
    Machine.run (step fun _ => false) new (twoSends longName ++ deliver 1) = some final ∧
      (0, TargetAddr.domain "" 24929, [9]) ∈ final.upload.reception.yielded ∧
      ¬final.upload.Attributed := by
  have yielded : (Machine.run (step fun _ => false) new (twoSends longName ++ deliver 1)).map
      (fun final => final.upload.reception.yielded) = some [(0, .domain "" 24929, [9])] := by
    decide +kernel
  have sent : (Machine.run (step fun _ => false) new (twoSends longName ++ deliver 1)).map
      (fun final => final.upload.sending.shared.sends.map fun send =>
        (send.session, send.payload)) = some [(0, some [5]), (1, some [9])] := by
    decide +kernel
  obtain ⟨final, ran, own⟩ := Option.map_eq_some_iff.mp yielded
  rw [ran] at sent
  have sends := Option.some.inj sent
  have member : (0, TargetAddr.domain "" 24929, [9]) ∈ final.upload.reception.yielded :=
    own ▸ List.mem_singleton_self _
  refine ⟨final, ran, member, fun attributed => ?_⟩
  obtain ⟨send, logged, session, -, payload⟩ := attributed _ _ _ member
  have listed : (0, some [9]) ∈ [(0, some [5]), (1, some ([9] : Bytes))] :=
    sends ▸ List.mem_map.mpr ⟨send, logged, by rw [session, payload]⟩
  exact absurd listed (by decide)

end UdpConnection

end QuicProxy
