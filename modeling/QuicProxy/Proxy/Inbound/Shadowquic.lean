import QuicProxy.Data.Machine
import QuicProxy.Net.Addr
import QuicProxy.Proxy.Observe.Users

namespace QuicProxy

/-! The connections of the ShadowQuic inbound (`src/proxy/inbound/shadowquic.rs`):
the handlers that register them and bind them to a user, and `remove_user`, which
closes those that are bound to the user.  Every operation on the registry is one
step. -/

/-- Where the handler of a connection is.  `user` is `authed_user`. -/
inductive HandlerPhase where
  | accepted
  | identify
  | bindJls (user : Option String)
  | waiting
  | bind (user : Option String)
  | serving (user : Option String)
  | cleanup
  | close
  | ended
deriving DecidableEq

/-- `authed` is the user that the peer has authenticated as: in the handshake
with JLS, else by the hash that it has sent. -/
structure QuicConn where
  addr : SocketAddr
  authed : Option String
  phase : HandlerPhase
  closed : Bool
deriving DecidableEq

inductive RemovalPhase (shards : Nat) where
  | load
  | store (users : List AuthUser)
  | updateJls
  | collect (left : List (Fin shards)) (stale : List SocketAddr)
  | take (stale : List SocketAddr)
  | shut (conn : Nat) (stale : List SocketAddr)
  | returned (error : Option String)
deriving DecidableEq

structure Removal (shards : Nat) where
  username : String
  phase : RemovalPhase shards
deriving DecidableEq

/-- What the inbound is configured with: the hash functions, whether it uses
JLS, and the shards of its registry. -/
structure ShadowquicSetup (shards : Nat) where
  hashes : Hashes
  isJls : Bool
  shard : SocketAddr → Fin shards

/-- A connection is known by its place in the list of all connections. -/
structure ShadowquicInbound (shards : Nat) where
  users : List AuthUser
  conns : AList fun _ : SocketAddr => Nat × Option String
  connections : List QuicConn
  removals : List (Removal shards)

/-- What a handler learns: whether the observer knows the user, what the peer
has sent with the answer of the observer, or that nothing could be read. -/
inductive HandlerChoice where
  | next
  | account (known : Bool)
  | auth (received : Bytes) (observed : Option String)
  | unread

inductive ShadowquicEvent where
  | accept (addr : SocketAddr) (chosen : Option String)
  | lost (id : Nat)
  | handle (id : Nat) (choice : HandlerChoice)
  | remove (username : String)
  | proceed (index : Nat) (fault : Option String)

namespace ShadowquicInbound

variable {shards : Nat} (setup : ShadowquicSetup shards)

/-- `conns.get_mut(&remote_addr)` and the assignment of the user. -/
def bindUser (addr : SocketAddr) (user : Option String)
    (conns : AList fun _ : SocketAddr => Nat × Option String) :
    AList fun _ : SocketAddr => Nat × Option String :=
  match conns.lookup addr with
  | some (id, _) => conns.insert addr (id, user)
  | none => conns

def handle (inbound : ShadowquicInbound shards) (id : Nat) (conn : QuicConn) :
    HandlerChoice → Option ((AList fun _ : SocketAddr => Nat × Option String) × QuicConn)
  | .next =>
      let conns := inbound.conns
      match conn.phase with
      | .accepted =>
          some (conns.insert conn.addr (id, none),
            { conn with phase := if setup.isJls then .identify else .waiting })
      | .bindJls none => some (conns, { conn with phase := .serving none })
      | .bindJls (some name) =>
          some (bindUser conn.addr (some name) conns, { conn with phase := .serving (some name) })
      | .bind user => some (bindUser conn.addr user conns, { conn with phase := .serving user })
      | .waiting | .serving _ =>
          if conn.closed then some (conns, { conn with phase := .cleanup }) else none
      | .cleanup => some (conns.erase conn.addr, { conn with phase := .close })
      | .close => some (conns, { conn with closed := true, phase := .ended })
      | .identify | .ended => none
  | .account known =>
      match conn.phase with
      | .identify =>
          some (inbound.conns,
            { conn with phase := .bindJls (if known then conn.authed else none) })
      | _ => none
  | .auth received observed =>
      match conn.phase with
      | .waiting =>
          let found := inbound.users.find? fun user =>
            setup.hashes.genSunnyAuthHash user.username user.password = received
          if observed.isNone && found.isNone then
            some (inbound.conns, { conn with phase := .cleanup })
          else
            some (inbound.conns,
              { conn with
                authed := observed <|> found.map (·.username)
                phase := .bind observed })
      | _ => none
  | .unread =>
      match conn.phase with
      | .waiting => some (inbound.conns, { conn with phase := .cleanup })
      | _ => none

def shutConn (connections : List QuicConn) (id : Nat) : List QuicConn :=
  match connections[id]? with
  | some conn => connections.set id { conn with closed := true }
  | none => connections

/-- One operation of `remove_user`. -/
def proceed (inbound : ShadowquicInbound shards) (removal : Removal shards)
    (fault : Option String) : Option (ShadowquicInbound shards × Removal shards) :=
  let username := removal.username
  match removal.phase with
  | .load =>
      some (inbound, { removal with phase := .store (withoutUser username inbound.users) })
  | .store users => some ({ inbound with users := users }, { removal with phase := .updateJls })
  | .updateJls =>
      match setup.isJls, fault with
      | true, some error => some (inbound, { removal with phase := .returned (some error) })
      | _, _ => some (inbound, { removal with phase := .collect (List.finRange shards) [] })
  | .collect (index :: left) stale =>
      let found := inbound.conns.entries.filter fun entry =>
        setup.shard entry.1 = index && entry.2.2 == some username
      some (inbound, { removal with phase := .collect left (stale ++ found.map (·.1)) })
  | .collect [] stale => some (inbound, { removal with phase := .take stale })
  | .take [] => some (inbound, { removal with phase := .returned none })
  | .take (addr :: rest) =>
      match inbound.conns.lookup addr with
      | some (id, _) =>
          some ({ inbound with conns := inbound.conns.erase addr },
            { removal with phase := .shut id rest })
      | none => some (inbound, { removal with phase := .take rest })
  | .shut id rest =>
      some ({ inbound with connections := shutConn inbound.connections id },
        { removal with phase := .take rest })
  | .returned _ => none

def step (inbound : ShadowquicInbound shards) :
    ShadowquicEvent → Option (ShadowquicInbound shards)
  | .accept addr chosen =>
      some { inbound with
        connections := inbound.connections ++
          [⟨addr, if setup.isJls then chosen else none, .accepted, false⟩] }
  | .lost id => some { inbound with connections := shutConn inbound.connections id }
  | .handle id choice =>
      (inbound.connections[id]?).bind fun conn =>
        (handle setup inbound id conn choice).map fun (conns, conn) =>
          { inbound with conns := conns, connections := inbound.connections.set id conn }
  | .remove username =>
      some { inbound with removals := inbound.removals ++ [⟨username, .load⟩] }
  | .proceed index fault =>
      (inbound.removals[index]?).bind fun removal =>
        (proceed setup inbound removal fault).map fun (inbound, removal) =>
          { inbound with removals := inbound.removals.set index removal }

end ShadowquicInbound

end QuicProxy
