import QuicProxy.Proxy.Observe.Credentials

namespace QuicProxy

/-! The connections of the Trojan, AnyTLS and VMess inbounds
(`src/proxy/inbound/trojan.rs`, `anytls.rs`, `vmess.rs`) beside
`Observer::remove_user`.  A connection gets a copy of the user list when it is
accepted, its credential is checked later, and what it opens is dispatched to
the router later still. -/

/-- Where a connection is.  `pending` counts the streams that it has opened and
not dispatched yet; `more` tells whether it can open others. -/
inductive TcpPhase where
  | handshake
  | reading
  | admitted (credential : Bytes) (user : Option String) (pending : Nat) (more : Bool)
  | ended
deriving DecidableEq

structure TcpConn where
  tag : String
  protocol : InboundProtocol
  users : List AuthUser
  phase : TcpPhase
deriving DecidableEq

/-- A stream or packet session that the router has been given. -/
structure Dispatch where
  tag : String
  credential : Bytes
  user : Option String
deriving DecidableEq

/-- Where a call of `Observer::remove_user` is.  Inbounds are known by their
place. -/
inductive RevocationPhase where
  | checkKnown
  | change (left : List Nat)
  | store (inbound : Nat) (users : List AuthUser) (left : List Nat)
  | removeStats
  | removePassword
  | collectCredentials
  | removeCredentials (tags : List String)
  | deleteRecord
  | returned (result : Except String Bool)
deriving DecidableEq

structure Revocation where
  username : String
  phase : RevocationPhase
deriving DecidableEq

structure TcpInbounds where
  server : Server
  conns : List TcpConn
  revocations : List Revocation
  dispatched : List Dispatch

/-- `order` is the order in which the credentials of the observer are walked. -/
inductive ConnEvent where
  | shake
  | check (presented : Bytes) (order : List (Σ _ : String × String, Bytes))
  | openStream
  | dispatch
  | abandon
  | finish

inductive TcpEvent where
  | accept (inbound : Nat)
  | handle (conn : Nat) (event : ConnEvent)
  | remove (username : String)
  | proceed (revocation : Nat) (fault : Option String)

namespace InboundProtocol

/-- The protocols whose inbounds take TCP connections of users. -/
def overTcp : InboundProtocol → Bool
  | trojan | anytls | vmess => true
  | shadowquic | socks5 | http | mix | tun => false

/-- Trojan compares hexadecimal digits without regard to case. -/
def received (presented : Bytes) : InboundProtocol → Bytes
  | trojan => presented.map fun byte => if 65 ≤ byte ∧ byte ≤ 90 then byte + 32 else byte
  | _ => presented

end InboundProtocol

namespace TcpConn

/-- Some user of the copy has the credential. -/
def localOk (hashes : Hashes) (conn : TcpConn) (credential : Bytes) : Bool :=
  conn.users.any fun user =>
    match credentialHash hashes conn.protocol user.username user.password with
    | .ok own => own == credential
    | .error _ => false

/-- VMess decides by the copy alone, and asks the observer only for whom to
count. -/
def admits (hashes : Hashes) (conn : TcpConn) (observed : Option String) (credential : Bytes) :
    Bool :=
  match conn.protocol with
  | .vmess => conn.localOk hashes credential
  | _ => observed.isSome || conn.localOk hashes credential

def check (hashes : Hashes) (conn : TcpConn) (observed : Option String) (credential : Bytes) :
    TcpPhase :=
  if conn.admits hashes observed credential then
    match conn.protocol with
    | .anytls => .admitted credential observed 0 true
    | _ => .admitted credential observed 1 false
  else .ended

end TcpConn

namespace TcpInbounds

variable (hashes : Hashes)

def accepted (tag : String) (inbound : ManagedInbound) : TcpConn where
  tag := tag
  protocol := inbound.protocol
  users := inbound.users
  phase := match inbound.protocol with
    | .vmess => .reading
    | _ => .handshake

/-- What becomes of a connection, with what it dispatches. -/
def handle (observer : Observer) (conn : TcpConn) (event : ConnEvent) :
    Option (TcpPhase × List Dispatch) :=
  match event, conn.phase with
  | .shake, .handshake => some (.reading, [])
  | .check presented order, .reading =>
      if order.Perm observer.userCreds.entries then
        let credential := conn.protocol.received presented
        let observed := (observer.authenticate order conn.tag credential).map Prod.fst
        some (conn.check hashes observed credential, [])
      else none
  | .openStream, .admitted credential user pending true =>
      some (.admitted credential user (pending + 1) true, [])
  | .dispatch, .admitted credential user (pending + 1) more =>
      some (.admitted credential user pending more, [⟨conn.tag, credential, user⟩])
  | .abandon, .admitted credential user (pending + 1) more =>
      some (.admitted credential user pending more, [])
  | .finish, .handshake | .finish, .reading => some (.ended, [])
  | .finish, .admitted credential user pending _ =>
      some (.admitted credential user pending false, [])
  | _, _ => none

def setUsers (index : Nat) (users : List AuthUser) (inbounds : List (String × ManagedInbound)) :
    List (String × ManagedInbound) :=
  inbounds.modify index fun (tag, inbound) => (tag, { inbound with users := users })

/-- The inbounds that `apply_user_change` goes through. -/
def targets (inbounds : List (String × ManagedInbound)) : List Nat :=
  (List.range inbounds.length).filter fun index =>
    (inbounds[index]?).any fun inbound => inbound.2.protocol.supportsUsers

/-- One operation of `Observer::remove_user`. -/
def proceed (server : Server) (revocation : Revocation) (fault : Option String) :
    Option (Server × Revocation) :=
  let username := revocation.username
  let observer := server.observer
  let next (server : Server) (phase : RevocationPhase) : Option (Server × Revocation) :=
    some (server, { revocation with phase := phase })
  match revocation.phase with
  | .checkKnown =>
      if username ∈ observer.userStats then next server (.change (targets server.inbounds))
      else next server (.returned (.ok false))
  | .change [] => next server .removeStats
  | .change (index :: left) =>
      match server.inbounds[index]? with
      | some (_, inbound) => next server (.store index (withoutUser username inbound.users) left)
      | none => next server (.change left)
  | .store index users left =>
      let changed := { server with inbounds := setUsers index users server.inbounds }
      match server.inbounds[index]?, fault with
      | some (tag, ⟨.shadowquic, _⟩), some error =>
          next changed
            (.returned (.error ("apply user to inbound '" ++ tag ++ "' failed: " ++ error)))
      | _, _ => next changed (.change left)
  | .removeStats =>
      next { server with
        observer := { observer with userStats := observer.userStats.erase username } }
        .removePassword
  | .removePassword =>
      next { server with
        observer := { observer with userPasswords := observer.userPasswords.erase username } }
        .collectCredentials
  | .collectCredentials =>
      next server (.removeCredentials
        ((observer.userCreds.keys.filter (·.2 = username)).map Prod.fst))
  | .removeCredentials [] => next server .deleteRecord
  | .removeCredentials (tag :: tags) =>
      next { server with
        observer := { observer with userCreds := observer.userCreds.erase (tag, username) } }
        (.removeCredentials tags)
  | .deleteRecord =>
      next { server with
        observer := { observer with
          userCache := observer.userCache.map fun cache => (cache.delete fault username).2 } }
        (.returned (.ok true))
  | .returned _ => none

def step (state : TcpInbounds) : TcpEvent → Option TcpInbounds
  | .accept index =>
      (state.server.inbounds[index]?).bind fun (tag, inbound) =>
        if inbound.protocol.overTcp then
          some { state with conns := state.conns ++ [accepted tag inbound] }
        else none
  | .handle index event =>
      (state.conns[index]?).bind fun conn =>
        (handle hashes state.server.observer conn event).map fun (phase, dispatched) =>
          { state with
            conns := state.conns.set index { conn with phase := phase }
            dispatched := state.dispatched ++ dispatched }
  | .remove username =>
      some { state with revocations := state.revocations ++ [⟨username, .checkKnown⟩] }
  | .proceed index fault =>
      (state.revocations[index]?).bind fun revocation =>
        (proceed state.server revocation fault).map fun (server, revocation) =>
          { state with
            server := server
            revocations := state.revocations.set index revocation }

def idle (server : Server) : TcpInbounds := ⟨server, [], [], []⟩

end TcpInbounds

end QuicProxy
