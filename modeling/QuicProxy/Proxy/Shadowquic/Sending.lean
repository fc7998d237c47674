import Mathlib.Logic.Function.Basic
import QuicProxy.Data.Pool
import QuicProxy.Proxy.Outbound

namespace QuicProxy

/-! The sending half of a ShadowQUIC connection (`src/proxy/shadowquic_udp.rs`):
any number of `send_to` calls on any number of `ShadowQuicUdpPacket`s, which share
`next_context_id`, one operation a step. -/

/-- A call of `send_to`, or of `get_send_context_id` alone for a new session.
Sessions are numbered. -/
inductive UdpSendRequest where
  | sendTo (session : Nat) (buf : Bytes) (source : SourceAddr) (target : TargetAddr)
  | init (session : Nat) (target : TargetAddr)
deriving DecidableEq

structure UdpSend where
  session : Nat
  contextAddr : TargetAddr
  payload : Option Bytes
deriving DecidableEq

def UdpSendRequest.send (isClient : Bool) : UdpSendRequest → UdpSend
  | sendTo session buf source target => ⟨session, if isClient then target else source, some buf⟩
  | init session target => ⟨session, target, none⟩

/-- An id with the session and the address it has been allocated for. -/
structure UdpContext where
  id : UInt16
  session : Nat
  target : TargetAddr
deriving DecidableEq

def UdpSend.context (send : UdpSend) (id : UInt16) : UdpContext :=
  ⟨id, send.session, send.contextAddr⟩

inductive CellState where
  | empty
  | initializing
  | ready (id : UInt16) (stream : Option Nat)
deriving DecidableEq

/-- A `OnceCell`, with the place in the sender maps it has been made for. -/
structure SenderCell where
  session : Nat
  target : TargetAddr
  state : CellState
deriving DecidableEq

/-- A unistream, with the context it has been opened for and what the peer has
not read of it. -/
structure UniStream where
  context : UdpContext
  unread : Bytes
deriving DecidableEq

structure UdpSenders where
  nextContextId : UInt32
  senderMap : Nat → TargetAddr → Option Nat
  cells : List SenderCell
  /-- What the peer has not read of the control stream of a session. -/
  control : Nat → Bytes
  streams : List UniStream
  /-- The datagrams in flight. -/
  datagrams : List Bytes
  /-- How often `next_context_id` has been counted up. -/
  allocations : Nat
  contexts : List UdpContext
  /-- What `get_send_context_id` has returned. -/
  handedOut : List UdpContext
  sends : List UdpSend

inductive UdpSendCall where
  | entering (send : UdpSend) (rebuilt : Bool)
  | asking (send : UdpSend) (rebuilt : Bool) (cell : Nat)
  | allocating (send : UdpSend) (rebuilt : Bool) (cell : Nat)
  /-- In `create_sender`, before the control stream is written. -/
  | binding (send : UdpSend) (rebuilt : Bool) (cell : Nat) (id : UInt16)
  | opening (send : UdpSend) (rebuilt : Bool) (cell : Nat) (id : UInt16)
  | writing (send : UdpSend) (rebuilt : Bool) (id : UInt16) (stream : Option Nat)
  | removing (send : UdpSend) (rebuilt : Bool)
  | sent (count : Nat)
  | failed
  | dropped
deriving DecidableEq

/-- What an operation on the connection comes to; `cancelled` is the future of the
call being dropped. -/
inductive SendOutcome where
  | ok
  | stopped
  | tooLarge
  | failed
  | cancelled
deriving DecidableEq

abbrev UdpSending := Pool.Config UdpSenders UdpSendCall

namespace UdpSenders

def new : UdpSenders := ⟨1, fun _ _ => none, [], fun _ => [], [], [], 0, [], [], []⟩

def setCell (senders : UdpSenders) (cell : Nat) (state : CellState) : UdpSenders :=
  { senders with cells := senders.cells.modify cell fun old => { old with state } }

def insertSender (senders : UdpSenders) (session : Nat) (target : TargetAddr) : UdpSenders :=
  { senders with
    senderMap := Function.update senders.senderMap session
      (Function.update (senders.senderMap session) target (some senders.cells.length))
    cells := senders.cells ++ [⟨session, target, .empty⟩] }

def removeSender (senders : UdpSenders) (session : Nat) (target : TargetAddr) : UdpSenders :=
  { senders with
    senderMap := Function.update senders.senderMap session
      (Function.update (senders.senderMap session) target none) }

def bindMessage (target : TargetAddr) (id : UInt16) : Bytes := target.toBytes ++ u16ToBe id

def writeControl (senders : UdpSenders) (context : UdpContext) : UdpSenders :=
  { senders with
    control := Function.update senders.control context.session
      (senders.control context.session ++ bindMessage context.target context.id) }

def streamPacket (payload : Bytes) : Bytes := u16ToBe (castU16 payload.length) ++ payload

def writeStream (senders : UdpSenders) (stream : Nat) (payload : Bytes) : UdpSenders :=
  { senders with
    streams := senders.streams.modify stream fun old =>
      { old with unread := old.unread ++ streamPacket payload } }

def ready (senders : UdpSenders) (context : UdpContext) (cell : Nat) (stream : Option Nat) :
    UdpSenders :=
  { senders.setCell cell (.ready context.id stream) with
    handedOut := senders.handedOut ++ [context] }

variable (overUnistream : Nat → Bool)

def act (config : UdpSending) : UdpSendCall → SendOutcome → Option (UdpSenders × UdpSendCall)
  | .entering send rebuilt, _ =>
      let senders : UdpSenders := { config.shared with sends := config.shared.sends ++ [send] }
      match senders.senderMap send.session (send.contextAddr) with
      | some cell => some (senders, .asking send rebuilt cell)
      | none =>
          some (senders.insertSender send.session (send.contextAddr),
            .asking send rebuilt senders.cells.length)
  | .asking send rebuilt cell, outcome =>
      if outcome = .cancelled then some (config.shared, .dropped)
      else
        match (config.shared.cells[cell]?).map SenderCell.state with
        | some (.ready id stream) =>
            some ({ config.shared with
                handedOut := config.shared.handedOut ++
                  [send.context id] },
              .writing send rebuilt id stream)
        | some .empty =>
            some (config.shared.setCell cell .initializing, .allocating send rebuilt cell)
        -- another call is initializing the cell
        | some .initializing | none => none
  | .allocating send rebuilt cell, _ =>
      let contextId := config.shared.nextContextId
      let senders : UdpSenders := { config.shared with
        nextContextId := contextId + 1
        allocations := config.shared.allocations + 1 }
      if contextId.toNat < 65536 then
        let id := UInt16.ofNat contextId.toNat
        some ({ senders with
            contexts := senders.contexts ++ [send.context id] },
          .binding send rebuilt cell id)
      else some (senders.setCell cell .empty, .failed)
  | .binding send rebuilt cell id, .ok =>
      let context := send.context id
      let senders := config.shared.writeControl context
      if overUnistream send.session then some (senders, .opening send rebuilt cell id)
      else some (senders.ready context cell none, .writing send rebuilt id none)
  | .opening send rebuilt cell id, .ok =>
      let context := send.context id
      let stream := config.shared.streams.length
      let senders : UdpSenders := { config.shared with
        streams := config.shared.streams ++ [⟨context, u16ToBe id⟩] }
      some (senders.ready context cell (some stream), .writing send rebuilt id (some stream))
  | .binding _ _ cell _, .cancelled | .opening _ _ cell _, .cancelled =>
      some (config.shared.setCell cell .empty, .dropped)
  | .binding _ _ cell _, _ | .opening _ _ cell _, _ =>
      some (config.shared.setCell cell .empty, .failed)
  | .writing send rebuilt id stream, outcome =>
      match send.payload, stream with
      -- `get_send_context_id` alone
      | none, _ => some (config.shared, .sent 0)
      | some payload, some stream =>
          if outcome = .cancelled then some (config.shared, .dropped)
          else if 65536 ≤ payload.length then some (config.shared, .failed)
          else
            match outcome with
            | .ok => some (config.shared.writeStream stream payload, .sent payload.length)
            | .stopped => some (config.shared, .removing send rebuilt)
            | _ => some (config.shared, .failed)
      | some payload, none =>
          match outcome with
          | .ok =>
              some ({ config.shared with
                  datagrams := config.shared.datagrams ++ [u16ToBe id ++ payload] },
                .sent payload.length)
          | .tooLarge => some (config.shared, .sent 0)
          | .cancelled => some (config.shared, .dropped)
          | _ => some (config.shared, .failed)
  | .removing send rebuilt, _ =>
      some (config.shared.removeSender send.session (send.contextAddr),
        if rebuilt then .failed else .entering send true)
  | .sent _, _ | .failed, _ | .dropped, _ => none

def program (isClient : Bool) :
    Pool.Program UdpSenders UdpSendCall UdpSendRequest SendOutcome where
  start request := .entering (request.send isClient) false
  act := act overUnistream

variable {overUnistream}
variable {senders next : UdpSenders} {call moved : UdpSendCall}

def Ended : UdpSendCall → Prop
  | .sent _ | .failed | .dropped => True
  | _ => False

inductive Acts (senders : UdpSenders) :
    UdpSendCall → UdpSenders → UdpSendCall → Prop
  | ended {call moved : UdpSendCall} (ended : Ended moved) : Acts senders call senders moved
  | known {send : UdpSend} {rebuilt : Bool} {cell : Nat}
      (known : senders.senderMap send.session (send.contextAddr) = some cell) :
      Acts senders (.entering send rebuilt)
        { senders with sends := senders.sends ++ [send] } (.asking send rebuilt cell)
  | made {send : UdpSend} {rebuilt : Bool} :
      Acts senders (.entering send rebuilt)
        (insertSender { senders with sends := senders.sends ++ [send] } send.session
          (send.contextAddr))
        (.asking send rebuilt senders.cells.length)
  | answered {send : UdpSend} {rebuilt : Bool} {cell : Nat} {id : UInt16} {stream : Option Nat}
      (ready : (senders.cells[cell]?).map SenderCell.state = some (.ready id stream)) :
      Acts senders (.asking send rebuilt cell)
        { senders with
          handedOut := senders.handedOut ++ [send.context id] }
        (.writing send rebuilt id stream)
  | permitted {send : UdpSend} {rebuilt : Bool} {cell : Nat} :
      Acts senders (.asking send rebuilt cell) (senders.setCell cell .initializing)
        (.allocating send rebuilt cell)
  | allocated {send : UdpSend} {rebuilt : Bool} {cell : Nat}
      (fits : senders.nextContextId.toNat < 65536) :
      Acts senders (.allocating send rebuilt cell)
        { senders with
          nextContextId := senders.nextContextId + 1
          allocations := senders.allocations + 1
          contexts := senders.contexts ++
            [send.context (UInt16.ofNat senders.nextContextId.toNat)] }
        (.binding send rebuilt cell (UInt16.ofNat senders.nextContextId.toNat))
  | exhausted {send : UdpSend} {rebuilt : Bool} {cell : Nat} :
      Acts senders (.allocating send rebuilt cell)
        (setCell { senders with
          nextContextId := senders.nextContextId + 1
          allocations := senders.allocations + 1 } cell .empty) .failed
  | announced {send : UdpSend} {rebuilt : Bool} {cell : Nat} {id : UInt16} :
      Acts senders (.binding send rebuilt cell id)
        (senders.writeControl (send.context id))
        (.opening send rebuilt cell id)
  | bound {send : UdpSend} {rebuilt : Bool} {cell : Nat} {id : UInt16} :
      Acts senders (.binding send rebuilt cell id)
        ((senders.writeControl (send.context id)).ready
          (send.context id) cell none)
        (.writing send rebuilt id none)
  | opened {send : UdpSend} {rebuilt : Bool} {cell : Nat} {id : UInt16} :
      Acts senders (.opening send rebuilt cell id)
        (ready { senders with
          streams := senders.streams ++
            [⟨send.context id, u16ToBe id⟩] }
          (send.context id) cell (some senders.streams.length))
        (.writing send rebuilt id (some senders.streams.length))
  | released {call moved : UdpSendCall} {cell : Nat} (ended : Ended moved) :
      Acts senders call (senders.setCell cell .empty) moved
  | wrote {send : UdpSend} {rebuilt : Bool} {id : UInt16} {stream : Nat} {payload : Bytes}
      (own : send.payload = some payload) (short : payload.length < 65536) :
      Acts senders (.writing send rebuilt id (some stream)) (senders.writeStream stream payload)
        (.sent payload.length)
  | posted {send : UdpSend} {rebuilt : Bool} {id : UInt16} {payload : Bytes}
      (own : send.payload = some payload) :
      Acts senders (.writing send rebuilt id none)
        { senders with datagrams := senders.datagrams ++ [u16ToBe id ++ payload] }
        (.sent payload.length)
  | stopped {send : UdpSend} {rebuilt : Bool} {id : UInt16} {stream : Option Nat} :
      Acts senders (.writing send rebuilt id stream) senders (.removing send rebuilt)
  | removed {send : UdpSend} {rebuilt : Bool} {moved : UdpSendCall}
      (again : moved = .entering send true ∨ Ended moved) :
      Acts senders (.removing send rebuilt)
        (senders.removeSender send.session (send.contextAddr)) moved

theorem acts {config : UdpSending} {outcome : SendOutcome}
    (acted : act overUnistream config call outcome = some (next, moved)) :
    Acts config.shared call next moved := by
  cases call with
  | entering send rebuilt =>
      simp only [act] at acted
      split at acted <;> cases acted
      · next known => exact .known known
      · exact .made
  | asking send rebuilt cell =>
      simp only [act] at acted
      split at acted
      · cases acted
        exact .ended trivial
      · split at acted <;> cases acted
        · next ready => exact .answered ready
        · exact .permitted
  | allocating send rebuilt cell =>
      simp only [act] at acted
      split at acted <;> cases acted
      · next fits => exact .allocated fits
      · exact .exhausted
  | binding send rebuilt cell id =>
      cases outcome with
      | ok =>
          simp only [act] at acted
          split at acted <;> cases acted
          · exact .announced
          · exact .bound
      | stopped | tooLarge | failed | cancelled =>
          cases acted
          exact .released trivial
  | opening send rebuilt cell id =>
      cases outcome with
      | ok =>
          cases acted
          exact .opened
      | stopped | tooLarge | failed | cancelled =>
          cases acted
          exact .released trivial
  | writing send rebuilt id stream =>
      simp only [act] at acted
      split at acted
      · cases acted
        exact .ended trivial
      · next payload stream own =>
          split at acted
          · cases acted
            exact .ended trivial
          · split at acted
            · cases acted
              exact .ended trivial
            · next short =>
                split at acted <;> cases acted
                · exact .wrote own (Nat.lt_of_not_le short)
                · exact .stopped
                · exact .ended trivial
      · next payload own =>
          split at acted <;> cases acted
          · exact .posted own
          · exact .ended trivial
          · exact .ended trivial
          · exact .ended trivial
  | removing send rebuilt =>
      cases acted
      refine .removed ?_
      split
      · exact .inr trivial
      · exact .inl rfl
  | sent | failed | dropped => cases acted

/-! What the sending half keeps: ids have one owner each, and what is on its way
to the peer is under the id of its own session and address. -/

def Owns (senders : UdpSenders) (cell session : Nat) (target : TargetAddr) : Prop :=
  ∃ owner, senders.cells[cell]? = some owner ∧ owner.session = session ∧ owner.target = target

def Opened (senders : UdpSenders) (stream : Nat) (context : UdpContext) : Prop :=
  ∃ opened, senders.streams[stream]? = some opened ∧ opened.context = context

def Sent (senders : UdpSenders) (context : UdpContext) (payload : Bytes) : Prop :=
  ∃ send ∈ senders.sends, send.session = context.session ∧
    send.contextAddr = context.target ∧ send.payload = some payload

structure Extends (old new : UdpSenders) : Prop where
  contexts : ∀ context ∈ old.contexts, context ∈ new.contexts
  sends : ∀ send ∈ old.sends, send ∈ new.sends
  owns : ∀ {cell session target}, old.Owns cell session target → new.Owns cell session target
  opened : ∀ {stream context}, old.Opened stream context → new.Opened stream context

theorem Extends.sent {old new : UdpSenders} (grows : Extends old new) {context : UdpContext}
    {payload : Bytes} (sent : old.Sent context payload) :
    new.Sent context payload := by
  obtain ⟨send, member, own⟩ := sent
  exact ⟨send, grows.sends send member, own⟩

structure Sound (senders : UdpSenders) : Prop where
  counter : senders.nextContextId.toNat = (senders.allocations + 1) % 4294967296
  short : ∀ send ∈ senders.sends, (send.contextAddr).ShortName
  numbered : ∀ context ∈ senders.contexts,
    0 < context.id.toNat ∧ context.id.toNat ≤ senders.allocations
  distinct : ∀ one ∈ senders.contexts, ∀ other ∈ senders.contexts,
    one.id = other.id → one = other
  shortContext : ∀ context ∈ senders.contexts, context.target.ShortName
  mapped : ∀ session target cell, senders.senderMap session target = some cell →
    senders.Owns cell session target
  ready : ∀ owner ∈ senders.cells, ∀ id stream, owner.state = .ready id stream →
    ⟨id, owner.session, owner.target⟩ ∈ senders.contexts ∧
      ∀ opened ∈ stream, senders.Opened opened ⟨id, owner.session, owner.target⟩
  handedOut : ∀ context ∈ senders.handedOut, context ∈ senders.contexts
  streams : ∀ stream ∈ senders.streams, stream.context ∈ senders.contexts
  control : ∀ session, ∃ pending : List UdpContext,
    senders.control session =
      pending.flatMap (fun context => bindMessage context.target context.id) ∧
      ∀ context ∈ pending, context ∈ senders.contexts ∧ context.session = session
  datagrams : ∀ datagram ∈ senders.datagrams, ∃ context ∈ senders.contexts, ∃ payload,
    datagram = u16ToBe context.id ++ payload ∧ senders.Sent context payload

def CallSound (senders : UdpSenders) : UdpSendCall → Prop
  | .entering send _ => (send.contextAddr).ShortName
  | .asking send _ cell | .allocating send _ cell =>
      send ∈ senders.sends ∧ senders.Owns cell send.session (send.contextAddr)
  | .binding send _ cell id | .opening send _ cell id =>
      (send ∈ senders.sends ∧ senders.Owns cell send.session (send.contextAddr)) ∧
        send.context id ∈ senders.contexts
  | .writing send _ id stream =>
      send ∈ senders.sends ∧ send.context id ∈ senders.contexts ∧
        ∀ opened ∈ stream, senders.Opened opened (send.context id)
  | .removing send _ => send ∈ senders.sends
  | .sent _ | .failed | .dropped => True

theorem sound_new : Sound new where
  counter := rfl
  short := nofun
  numbered := nofun
  distinct := nofun
  shortContext := nofun
  mapped := nofun
  ready := nofun
  handedOut := nofun
  streams := nofun
  control _ := ⟨[], rfl, nofun⟩
  datagrams := nofun

theorem CallSound.of_ended (ended : Ended call) : CallSound senders call := by
  cases call with
  | sent | failed | dropped => trivial
  | entering | asking | allocating | binding | opening | writing | removing => exact ended.elim

theorem CallSound.extends (grows : Extends senders next) (sound : CallSound senders call) :
    CallSound next call := by
  cases call with
  | entering => exact sound
  | asking | allocating => exact sound.imp (grows.sends _) grows.owns
  | binding | opening =>
      exact ⟨sound.1.imp (grows.sends _) grows.owns, grows.contexts _ sound.2⟩
  | writing =>
      obtain ⟨sent, known, opened⟩ := sound
      exact ⟨grows.sends _ sent, grows.contexts _ known,
        fun stream here => grows.opened (opened stream here)⟩
  | removing => exact grows.sends _ sound
  | sent | failed | dropped => trivial

/-! The operations, one by one. -/

section Operations

variable {session cell : Nat} {target : TargetAddr} {context : UdpContext} {state : CellState}

theorem Extends.refl (senders : UdpSenders) : Extends senders senders :=
  ⟨fun _ => id, fun _ => id, id, id⟩

theorem Extends.trans {middle : UdpSenders} (first : Extends senders middle)
    (second : Extends middle next) : Extends senders next where
  contexts context member := second.contexts context (first.contexts context member)
  sends send member := second.sends send (first.sends send member)
  owns owned := second.owns (first.owns owned)
  opened here := second.opened (first.opened here)

theorem extends_setCell : Extends senders (senders.setCell cell state) where
  contexts _ := id
  sends _ := id
  owns := by
    rintro place session target ⟨owner, found, own⟩
    refine ⟨if cell = place then { owner with state } else owner, ?_, ?_⟩
    · simp only [setCell, List.getElem?_modify, found]
      split <;> rfl
    · split <;> exact own
  opened := id

theorem Sound.setCell (sound : Sound senders)
    (holds : ∀ id stream, state = .ready id stream → ∀ owner, senders.cells[cell]? = some owner →
      ⟨id, owner.session, owner.target⟩ ∈ senders.contexts ∧
        ∀ opened ∈ stream, senders.Opened opened ⟨id, owner.session, owner.target⟩) :
    Sound (senders.setCell cell state) where
  __ := sound
  mapped session target cell known := extends_setCell.owns (sound.mapped session target cell known)
  ready changed member id stream ready := by
    obtain ⟨place, found⟩ := List.mem_iff_getElem?.mp member
    simp only [UdpSenders.setCell, List.getElem?_modify] at found
    obtain ⟨owner, there, rfl⟩ := Option.map_eq_some_iff.mp found
    by_cases here : cell = place
    · subst here
      rw [if_pos rfl] at ready ⊢
      exact holds id stream ready owner there
    · rw [if_neg here] at ready ⊢
      exact sound.ready owner (List.mem_of_getElem? there) id stream ready

theorem extends_logSend {send : UdpSend} :
    Extends senders { senders with sends := senders.sends ++ [send] } :=
  ⟨fun _ => id, fun _ => List.mem_append_left _, id, id⟩

theorem Sound.logSend (sound : Sound senders) {send : UdpSend}
    (short : (send.contextAddr).ShortName) :
    Sound { senders with sends := senders.sends ++ [send] } where
  __ := sound
  short := Pool.forall_start sound.short short
  datagrams datagram member := by
    obtain ⟨context, known, payload, shape, sent⟩ := sound.datagrams datagram member
    exact ⟨context, known, payload, shape, extends_logSend.sent sent⟩

theorem extends_insertSender : Extends senders (senders.insertSender session target) where
  contexts _ := id
  sends _ := id
  owns := by
    rintro cell session target ⟨owner, found, own⟩
    exact ⟨owner, Pool.getElem?_start found, own⟩
  opened := id

theorem owns_insertSender :
    (senders.insertSender session target).Owns senders.cells.length session target :=
  ⟨_, List.getElem?_concat_length, rfl, rfl⟩

theorem Sound.insertSender (sound : Sound senders) :
    Sound (senders.insertSender session target) where
  __ := sound
  mapped owner key cell known := by
    simp only [UdpSenders.insertSender, Function.update_apply] at known
    split at known
    · next own =>
        subst own
        rw [Function.update_apply] at known
        split at known
        · next same =>
            subst same
            cases known
            exact owns_insertSender
        · exact extends_insertSender.owns (sound.mapped owner key cell known)
    · exact extends_insertSender.owns (sound.mapped owner key cell known)
  ready := Pool.forall_start sound.ready nofun

theorem extends_removeSender : Extends senders (senders.removeSender session target) :=
  ⟨fun _ => id, fun _ => id, id, id⟩

theorem Sound.removeSender (sound : Sound senders) :
    Sound (senders.removeSender session target) where
  __ := sound
  mapped owner key cell known := by
    simp only [UdpSenders.removeSender, Function.update_apply] at known
    split at known
    · next own =>
        subst own
        rw [Function.update_apply] at known
        split at known
        · cases known
        · exact sound.mapped owner key cell known
    · exact sound.mapped owner key cell known

theorem extends_writeControl : Extends senders (senders.writeControl context) :=
  ⟨fun _ => id, fun _ => id, id, id⟩

theorem Sound.writeControl (sound : Sound senders) (known : context ∈ senders.contexts) :
    Sound (senders.writeControl context) where
  __ := sound
  control session := by
    obtain ⟨pending, unread, all⟩ := sound.control session
    simp only [UdpSenders.writeControl, Function.update_apply]
    split
    · next own =>
        subst own
        refine ⟨pending ++ [context], ?_, Pool.forall_start all ⟨known, rfl⟩⟩
        rw [unread, List.flatMap_append, List.flatMap_singleton]
    · exact ⟨pending, unread, all⟩

theorem Sound.readControl (sound : Sound senders) {rest : List UdpContext}
    (all : ∀ context ∈ rest, context ∈ senders.contexts ∧ context.session = session) :
    Sound { senders with
      control := Function.update senders.control session
        (rest.flatMap fun context => bindMessage context.target context.id) } where
  __ := sound
  control other := by
    simp only [Function.update_apply]
    split
    · next own =>
        subst own
        exact ⟨rest, rfl, all⟩
    · exact sound.control other

theorem Sound.handOut (sound : Sound senders) (known : context ∈ senders.contexts) :
    Sound { senders with handedOut := senders.handedOut ++ [context] } where
  __ := sound
  handedOut := Pool.forall_start sound.handedOut known

theorem extends_ready {stream : Option Nat} : Extends senders (senders.ready context cell stream) :=
  extends_setCell.trans ⟨fun _ => id, fun _ => id, id, id⟩

theorem Sound.getReady (sound : Sound senders) {stream : Option Nat}
    (known : context ∈ senders.contexts) (owns : senders.Owns cell context.session context.target)
    (opened : ∀ place ∈ stream, senders.Opened place context) :
    Sound (senders.ready context cell stream) := by
  refine (sound.setCell ?_).handOut known
  rintro id stream' ⟨⟩ owner found
  obtain ⟨owner', found', rfl', rfl''⟩ := owns
  cases found.symm.trans found'
  rw [rfl', rfl'']
  exact ⟨known, opened⟩

theorem extends_openStream {stream : UniStream} :
    Extends senders { senders with streams := senders.streams ++ [stream] } where
  contexts _ := id
  sends _ := id
  owns := id
  opened := by
    rintro place context ⟨opened, found, own⟩
    exact ⟨opened, Pool.getElem?_start found, own⟩

theorem Sound.openStream (sound : Sound senders) {stream : UniStream}
    (known : stream.context ∈ senders.contexts) :
    Sound { senders with streams := senders.streams ++ [stream] } where
  __ := sound
  ready owner member id place here :=
    (sound.ready owner member id place here).imp_right fun opened stream found =>
      extends_openStream.opened (opened stream found)
  streams := Pool.forall_start sound.streams known

theorem extends_modifyStream {place : Nat} {change : UniStream → UniStream}
    (keeps : ∀ stream, (change stream).context = stream.context) :
    Extends senders { senders with streams := senders.streams.modify place change } where
  contexts _ := id
  sends _ := id
  owns := id
  opened := by
    rintro other context ⟨opened, found, own⟩
    simp only [Opened, List.getElem?_modify, found]
    refine ⟨_, rfl, ?_⟩
    split
    · exact (keeps opened).trans own
    · exact own

theorem Sound.modifyStream (sound : Sound senders) {place : Nat}
    {change : UniStream → UniStream} (keeps : ∀ stream, (change stream).context = stream.context) :
    Sound { senders with streams := senders.streams.modify place change } where
  __ := sound
  ready owner member id stream here :=
    (sound.ready owner member id stream here).imp_right fun opened other found =>
      (extends_modifyStream keeps).opened (opened other found)
  streams changed member := by
    obtain ⟨other, found⟩ := List.mem_iff_getElem?.mp member
    rw [List.getElem?_modify] at found
    obtain ⟨stream, there, rfl⟩ := Option.map_eq_some_iff.mp found
    have known := sound.streams stream (List.mem_of_getElem? there)
    split
    · exact (keeps stream).symm ▸ known
    · exact known

theorem Sound.post (sound : Sound senders) {payload : Bytes}
    (known : context ∈ senders.contexts) (sent : senders.Sent context payload) :
    Sound
      { senders with datagrams := senders.datagrams ++ [u16ToBe context.id ++ payload] } where
  __ := sound
  datagrams := Pool.forall_start sound.datagrams ⟨context, known, payload, rfl, sent⟩

theorem Sound.lose (sound : Sound senders) {index : Nat} :
    Sound { senders with datagrams := senders.datagrams.eraseIdx index } where
  __ := sound
  datagrams datagram member := sound.datagrams datagram (List.mem_of_mem_eraseIdx member)

theorem extends_count : Extends senders { senders with
    nextContextId := senders.nextContextId + 1
    allocations := senders.allocations + 1 } :=
  ⟨fun _ => id, fun _ => id, id, id⟩

theorem Sound.count (sound : Sound senders) :
    Sound { senders with
      nextContextId := senders.nextContextId + 1
      allocations := senders.allocations + 1 } where
  __ := sound
  counter := by
    rw [UInt32.toNat_add, sound.counter]
    change (_ + 1) % 4294967296 = (senders.allocations + 1 + 1) % 4294967296
    omega
  numbered context member := (sound.numbered context member).imp_right Nat.le_succ_of_le

theorem Sound.allocate (sound : Sound senders)
    (few : senders.allocations + 1 < 4294967296) (fits : senders.nextContextId.toNat < 65536)
    (id : context.id = UInt16.ofNat senders.nextContextId.toNat)
    (short : context.target.ShortName) :
    Sound { senders with
      nextContextId := senders.nextContextId + 1
      allocations := senders.allocations + 1
      contexts := senders.contexts ++ [context] } := by
  have counted := sound.count
  have number : context.id.toNat = senders.allocations + 1 := by
    rw [id, UInt16.toNat_ofNat', sound.counter]
    have := sound.counter
    omega
  have fresh : ∀ other ∈ senders.contexts, other.id ≠ context.id := by
    intro other member same
    have bound := (sound.numbered other member).2
    rw [same] at bound
    omega
  exact {
    counted with
    numbered := Pool.forall_start counted.numbered (by
      change 0 < context.id.toNat ∧ context.id.toNat ≤ senders.allocations + 1
      omega)
    distinct := Pool.forall_start
      (fun one member => Pool.forall_start (sound.distinct one member)
        fun same => absurd same (fresh one member))
      (Pool.forall_start (fun other member same => absurd same.symm (fresh other member))
        fun _ => rfl)
    shortContext := Pool.forall_start sound.shortContext short
    ready := fun owner member id stream here =>
      (sound.ready owner member id stream here).imp_left (List.mem_append_left _)
    handedOut := fun other member => List.mem_append_left _ (sound.handedOut other member)
    streams := fun stream member => List.mem_append_left _ (sound.streams stream member)
    control := fun session => by
      obtain ⟨pending, unread, all⟩ := sound.control session
      exact ⟨pending, unread, fun other member =>
        (all other member).imp_left (List.mem_append_left _)⟩
    datagrams := fun datagram member => by
      obtain ⟨other, known, payload, shape, sent⟩ := sound.datagrams datagram member
      exact ⟨other, List.mem_append_left _ known, payload, shape, sent⟩ }

end Operations

theorem Acts.extends (acts : Acts senders call next moved) : Extends senders next := by
  cases acts with
  | ended | stopped => exact .refl senders
  | known => exact extends_logSend
  | made => exact extends_logSend.trans extends_insertSender
  | answered | posted => exact ⟨fun _ => id, fun _ => id, id, id⟩
  | permitted | released => exact extends_setCell
  | allocated => exact ⟨fun _ => List.mem_append_left _, fun _ => id, id, id⟩
  | exhausted => exact extends_count.trans extends_setCell
  | announced => exact extends_writeControl
  | bound => exact extends_writeControl.trans extends_ready
  | opened => exact extends_openStream.trans extends_ready
  | wrote => exact extends_modifyStream fun _ => rfl
  | removed => exact extends_removeSender

/-- The call is the one that counts the ids up. -/
def Allocates : UdpSendCall → Prop
  | .allocating _ _ _ => True
  | _ => False

instance : (call : UdpSendCall) → Decidable (Allocates call)
  | .allocating _ _ _ => inferInstanceAs (Decidable True)
  | .entering _ _ | .asking _ _ _ | .binding _ _ _ _ | .opening _ _ _ _ | .writing _ _ _ _
  | .removing _ _ | .sent _ | .failed | .dropped => inferInstanceAs (Decidable False)

theorem Sound.act (sound : Sound senders) (own : CallSound senders call)
    (few : Allocates call → senders.allocations + 1 < 4294967296)
    (acts : Acts senders call next moved) :
    Sound next ∧ CallSound next moved := by
  cases acts with
  | ended ended => exact ⟨sound, .of_ended ended⟩
  | @known send rebuilt cell known =>
      exact ⟨sound.logSend own, List.mem_append_right _ (List.mem_singleton_self send),
        sound.mapped _ _ _ known⟩
  | @made send rebuilt =>
      exact ⟨(sound.logSend own).insertSender,
        List.mem_append_right _ (List.mem_singleton_self send), owns_insertSender⟩
  | @answered send rebuilt cell id stream ready =>
      obtain ⟨sent, owner, found, session, target⟩ := own
      obtain ⟨owner', found', state⟩ := Option.map_eq_some_iff.mp ready
      cases found.symm.trans found'
      have context : (⟨id, owner.session, owner.target⟩ : UdpContext) = send.context id := by
        rw [session, target]
        rfl
      have held := sound.ready owner (List.mem_of_getElem? found) id stream state
      rw [context] at held
      exact ⟨sound.handOut held.1, sent, held⟩
  | permitted => exact ⟨sound.setCell nofun, own.1, extends_setCell.owns own.2⟩
  | @allocated send rebuilt cell fits =>
      have short := sound.short send own.1
      exact ⟨sound.allocate (few trivial) fits rfl short, own,
        List.mem_append_right _ (List.mem_singleton_self _)⟩
  | exhausted => exact ⟨sound.count.setCell nofun, trivial⟩
  | announced => exact ⟨sound.writeControl own.2, own⟩
  | bound =>
      refine ⟨(sound.writeControl own.2).getReady own.2 own.1.2 nofun, own.1.1, own.2, nofun⟩
  | @opened send rebuilt cell id =>
      have opened : ∀ place ∈ some senders.streams.length,
          UdpSenders.Opened { senders with
            streams := senders.streams ++ [⟨send.context id, u16ToBe id⟩] } place
            (send.context id) := by
        rintro _ ⟨⟩
        exact ⟨_, List.getElem?_concat_length, rfl⟩
      exact ⟨(sound.openStream own.2).getReady own.2 own.1.2 opened, own.1.1, own.2, opened⟩
  | released ended => exact ⟨sound.setCell nofun, .of_ended ended⟩
  | wrote => exact ⟨sound.modifyStream fun _ => rfl, trivial⟩
  | @posted send rebuilt id payload here =>
      exact ⟨sound.post own.2.1 ⟨send, own.1, rfl, rfl, here⟩, trivial⟩
  | stopped => exact ⟨sound, own.1⟩
  | removed again =>
      rcases again with rfl | ended
      · exact ⟨sound.removeSender, sound.short _ own⟩
      · exact ⟨sound.removeSender, .of_ended ended⟩

theorem Acts.streams (acts : Acts senders call next moved) (own : CallSound senders call) :
    next.streams = senders.streams ∨
      (∃ context, next.streams = senders.streams ++ [⟨context, u16ToBe context.id⟩]) ∨
      ∃ place payload, payload.length < 65536 ∧ next = senders.writeStream place payload ∧
        ∀ context, senders.Opened place context → senders.Sent context payload := by
  cases acts with
  | ended | known | made | answered | permitted | allocated | exhausted | announced | bound
  | released | posted | stopped | removed => exact .inl rfl
  | opened => exact .inr (.inl ⟨_, rfl⟩)
  | @wrote send rebuilt id stream payload here short =>
      refine .inr (.inr ⟨stream, payload, short, rfl, ?_⟩)
      rintro context ⟨opened, found, rfl⟩
      obtain ⟨opened', found', same⟩ := own.2.2 stream rfl
      cases found.symm.trans found'
      exact ⟨send, own.1, by rw [same]; rfl, by rw [same]; rfl, here⟩

/-! Runs of the calls. -/

structure Secure (config : UdpSending) : Prop where
  shared : Sound config.shared
  calls : ∀ call ∈ config.calls, CallSound config.shared call

/-- Every address has a length byte of its own, and the counter does not come
round. -/
def Fits (isClient : Bool) (config : UdpSending) :
    Pool.Event UdpSendRequest SendOutcome → Prop
  | .start request => (request.send isClient).contextAddr.ShortName
  | .advance index _ =>
      ∀ call ∈ config.calls[index]?, Allocates call → config.shared.allocations + 1 < 4294967296

instance (isClient : Bool) (config : UdpSending) :
    (event : Pool.Event UdpSendRequest SendOutcome) → Decidable (Fits isClient config event)
  | .start request =>
      inferInstanceAs (Decidable (TargetAddr.ShortName (request.send isClient).contextAddr))
  | .advance _ _ => inferInstanceAs (Decidable (∀ _ ∈ _, _ → _))

variable {isClient : Bool} {config after : UdpSending}
  {event : Pool.Event UdpSendRequest SendOutcome}

theorem secure_new : Secure ⟨new, []⟩ := ⟨sound_new, nofun⟩

theorem Secure.extends (secure : Secure config) (grows : Extends config.shared senders)
    (sound : Sound senders) : Secure ⟨senders, config.calls⟩ :=
  ⟨sound, fun call member => (secure.calls call member).extends grows⟩

theorem extends_of_step (taken : (program overUnistream isClient).step config event = some after) :
    Extends config.shared after.shared := by
  rcases Pool.Program.step_cases taken with
    ⟨request, rfl, rfl⟩ | ⟨_, _, _, _, _, _, rfl, -, acted, rfl⟩
  · exact .refl _
  · exact (acts acted).extends

theorem Secure.step (secure : Secure config) (fits : Fits isClient config event)
    (taken : (program overUnistream isClient).step config event = some after) : Secure after := by
  have grows := extends_of_step taken
  rcases Pool.Program.step_cases taken with
    ⟨request, rfl, rfl⟩ | ⟨before, call, rest, outcome, next, moved, rfl, shape, acted, rfl⟩
  · exact ⟨secure.shared, Pool.forall_start secure.calls fits⟩
  · obtain ⟨sound, calls⟩ := secure
    have found : config.calls[before.length]? = some call := by
      rw [shape]
      exact Pool.getElem?_moved
    rw [shape] at calls
    have own := calls call (List.mem_append_right _ (List.mem_cons_self ..))
    obtain ⟨soundNext, ownNext⟩ := sound.act own (fits call found) (acts acted)
    refine ⟨soundNext, Pool.forall_act calls (fun _ => ownNext) fun other here => ?_⟩
    exact here.extends grows

/-- No id is given away twice, and none is zero. -/
def OnceEach (senders : UdpSenders) : Prop :=
  ∀ one ∈ senders.handedOut, one.id ≠ 0 ∧
    ∀ other ∈ senders.handedOut, one.id = other.id → one = other

theorem Sound.onceEach (sound : Sound senders) : OnceEach senders := by
  intro one member
  have known := sound.handedOut one member
  refine ⟨fun zero => ?_,
    fun other also => sound.distinct one known other (sound.handedOut other also)⟩
  have positive := (sound.numbered one known).1
  rw [zero] at positive
  exact absurd positive (by decide)

/-- With every id given away, a call that needs one fails, and gets none. -/
def FailsWhenExhausted (overUnistream : Nat → Bool) (isClient : Bool)
    (config : UdpSending) : Prop :=
  65535 ≤ config.shared.allocations →
    ∀ index outcome after, Fits isClient config (.advance index outcome) →
    (program overUnistream isClient).step config (.advance index outcome) = some after →
      ∀ call ∈ config.calls[index]?, Allocates call →
        after.calls[index]? = some .failed ∧ after.shared.contexts = config.shared.contexts ∧
          after.shared.handedOut = config.shared.handedOut

theorem Secure.failsWhenExhausted (secure : Secure config) :
    FailsWhenExhausted overUnistream isClient config := by
  intro exhausted index outcome after fits taken call found allocates
  rcases Pool.Program.step_cases taken with
    ⟨_, ⟨⟩, -⟩ | ⟨before, call', rest, outcome', next, moved, ⟨⟩, shape, acted, rfl⟩
  have found' : config.calls[before.length]? = some call' := by
    rw [shape]
    exact Pool.getElem?_moved
  cases found.symm.trans found'
  have few := fits call found allocates
  have counter := secure.shared.counter
  rw [Nat.mod_eq_of_lt few] at counter
  cases call with
  | allocating send rebuilt cell =>
      change act overUnistream config (.allocating send rebuilt cell) outcome = _ at acted
      simp only [act] at acted
      split at acted
      · omega
      · cases acted
        exact ⟨Pool.getElem?_moved, rfl, rfl⟩
  | entering | asking | binding | opening | writing | removing | sent | failed | dropped =>
      exact allocates.elim

end UdpSenders

end QuicProxy
