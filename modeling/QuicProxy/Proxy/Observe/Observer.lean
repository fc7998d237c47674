import QuicProxy.Data.Machine
import QuicProxy.Proxy.Observe.Users

namespace QuicProxy

/-! Adding and removing users on all inbounds and in the observer
(`src/proxy/observe.rs`, `src/proxy/inbound/mod.rs`). -/

/-- An inbound as far as its users go. -/
structure ManagedInbound where
  protocol : InboundProtocol
  users : List AuthUser
deriving DecidableEq

namespace ManagedInbound

/-- `jls` is the error of `update_jls_users`, if any: ShadowQUIC reports it when
the list is already stored. -/
def addUser (hashes : Hashes) (jls : Option String) (user : AuthUser) (inbound : ManagedInbound) :
    Except String Unit × ManagedInbound :=
  let added := { inbound with users := withUser user inbound.users }
  match inbound.protocol with
  | .trojan | .anytls => (.ok (), added)
  | .vmess =>
      match hashes.parseUuid user.username with
      | .ok _ => (.ok (), added)
      | .error _ => (.error ("vmess user must be a valid uuid: '" ++ user.username ++ "'"), inbound)
  | .shadowquic =>
      match jls with
      | some error => (.error error, added)
      | none => (.ok (), added)
  | .socks5 | .http | .mix | .tun => (.ok (), inbound)

def removeUser (jls : Option String) (username : String) (inbound : ManagedInbound) :
    Except String Unit × ManagedInbound :=
  let removed := { inbound with users := withoutUser username inbound.users }
  match inbound.protocol with
  | .trojan | .anytls | .vmess => (.ok (), removed)
  | .shadowquic =>
      match jls with
      | some error => (.error error, removed)
      | none => (.ok (), removed)
  | .socks5 | .http | .mix | .tun => (.ok (), inbound)

end ManagedInbound

/-- The loop of `apply_user_change`: it stops at the first inbound that reports
an error. -/
def applyUserChange (change : String → ManagedInbound → Except String Unit × ManagedInbound) :
    List (String × ManagedInbound) → Except String Unit × List (String × ManagedInbound)
  | [] => (.ok (), [])
  | (tag, inbound) :: rest =>
      if inbound.protocol.supportsUsers then
        match change tag inbound with
        | (.error error, changed) =>
            (.error ("apply user to inbound '" ++ tag ++ "' failed: " ++ error),
              (tag, changed) :: rest)
        | (.ok (), changed) =>
            let (result, rest) := applyUserChange change rest
            (result, (tag, changed) :: rest)
      else
        let (result, rest) := applyUserChange change rest
        (result, (tag, inbound) :: rest)

structure TrafficSnapshot where
  upload : Nat
  download : Nat
  totalTcp : Nat
  totalUdp : Nat
deriving DecidableEq

def TrafficSnapshot.zero : TrafficSnapshot := ⟨0, 0, 0, 0⟩

structure PersistedUser where
  username : String
  password : String
  traffic : TrafficSnapshot
deriving DecidableEq

abbrev Credentials := AList fun _ : String × String => Bytes

/-- The maps of the observer that are about users; `inbounds` has the protocol
of each registered tag. -/
structure Observer where
  inbounds : List (String × InboundProtocol)
  userStats : Table TrafficSnapshot
  userCreds : Credentials
  userPasswords : Table String
  userCache : Option (KeyedTable PersistedUser.username)

namespace Observer

def Knows (observer : Observer) (username : String) : Prop := username ∈ observer.userStats

instance (observer : Observer) (username : String) : Decidable (observer.Knows username) :=
  inferInstanceAs (Decidable (username ∈ observer.userStats))

def registerInbound (tag : String) (protocol : InboundProtocol) (observer : Observer) : Observer :=
  if tag ∈ observer.inbounds.map Prod.fst then observer
  else { observer with inbounds := observer.inbounds ++ [(tag, protocol)] }

def upsertUser (username : String) (observer : Observer) : Observer :=
  match observer.userStats.lookup username with
  | some _ => observer
  | none => { observer with userStats := observer.userStats.insert username .zero }

def setUserCredential (tag username : String) (credential : Bytes) (observer : Observer) :
    Observer :=
  { observer with userCreds := observer.userCreds.insert (tag, username) credential }

def setUserPassword (username password : String) (observer : Observer) : Observer :=
  { observer with userPasswords := observer.userPasswords.insert username password }

/-- The credential of the user on one inbound, when the protocol has one. -/
def setCredential (hashes : Hashes) (username password : String) (observer : Observer)
    (node : String × InboundProtocol) : Observer :=
  match credentialHash hashes node.2 username password with
  | .ok credential => observer.setUserCredential node.1 username credential
  | .error _ => observer

def savePersisted (fault : Option String) (username : String) (observer : Observer) : Observer :=
  match observer.userCache with
  | none => observer
  | some cache =>
      match observer.userStats.lookup username with
      | none => observer
      | some traffic =>
          let password := (observer.userPasswords.lookup username).getD ""
          let (_, cache) := cache.set fault ⟨username, password, traffic⟩
          { observer with userCache := some cache }

/-- What `add_user` does after the inbounds have the user. -/
def addUser (hashes : Hashes) (fault : Option String) (username password : String)
    (observer : Observer) : Observer :=
  observer.inbounds.foldl (setCredential hashes username password) observer
    |>.upsertUser username
    |>.setUserPassword username password
    |>.savePersisted fault username

def removeCredentials (username : String) (creds : Credentials) : Credentials :=
  let tags := (creds.keys.filter (·.2 = username)).map Prod.fst
  tags.foldl (fun creds tag => creds.erase (tag, username)) creds

/-- What `remove_user` does after the inbounds have dropped the user. -/
def removeUser (fault : Option String) (username : String) (observer : Observer) : Observer where
  inbounds := observer.inbounds
  userStats := observer.userStats.erase username
  userCreds := removeCredentials username observer.userCreds
  userPasswords := observer.userPasswords.erase username
  userCache := observer.userCache.map fun cache => (cache.delete fault username).2

/-- A row of the user cache, as `load_persisted_users` takes it in. -/
def restore (observer : Observer) (row : String × PersistedUser) : Observer :=
  let user := row.2
  { observer with
    userStats := observer.userStats.insert user.username user.traffic
    userPasswords :=
      if user.password = "" then observer.userPasswords
      else observer.userPasswords.insert user.username user.password }

def loadPersistedUsers (fault : Option String) (observer : Observer) : Observer :=
  match observer.userCache with
  | none => observer
  | some cache =>
      match Cache.list fault cache.table with
      | .error _ => observer
      | .ok entries => entries.foldl restore observer

/-- `Observer::new`, for the cache that the configuration names. -/
def new (fault : Option String) (cache : Option (KeyedTable PersistedUser.username)) : Observer :=
  loadPersistedUsers fault ⟨[], ∅, ∅, ∅, cache⟩

end Observer

/-- What fails outside: the JLS update of an inbound, and the user cache. -/
structure UserFaults where
  jls : String → Option String
  cache : Option String

structure Server where
  inbounds : List (String × ManagedInbound)
  observer : Observer

namespace Server

def addUser (hashes : Hashes) (faults : UserFaults) (username password : String)
    (server : Server) : Except String Unit × Server :=
  let user : AuthUser := ⟨username, password⟩
  match applyUserChange (fun tag => ManagedInbound.addUser hashes (faults.jls tag) user)
      server.inbounds with
  | (.error error, inbounds) => (.error error, { server with inbounds })
  | (.ok (), inbounds) =>
      (.ok (), ⟨inbounds, server.observer.addUser hashes faults.cache username password⟩)

def removeUser (faults : UserFaults) (username : String) (server : Server) :
    Except String Bool × Server :=
  if username ∈ server.observer.userStats then
    match applyUserChange (fun tag => ManagedInbound.removeUser (faults.jls tag) username)
        server.inbounds with
    | (.error error, inbounds) => (.error error, { server with inbounds })
    | (.ok (), inbounds) =>
        (.ok true, ⟨inbounds, server.observer.removeUser faults.cache username⟩)
  else (.ok false, server)

/-- The registration of one configured user in `init_inbounds`. -/
def registerUser (hashes : Hashes) (tag : String) (protocol : InboundProtocol)
    (observer : Observer) (user : AuthUser) : Observer :=
  (observer.upsertUser user.username |>.setUserPassword user.username user.password).setCredential
    hashes user.username user.password (tag, protocol)

/-- One round of the loop of `init_inbounds`, for an inbound with its merged
user list. -/
def registerInbound (hashes : Hashes) (server : Server) (configured : String × ManagedInbound) :
    Server :=
  let (tag, inbound) := configured
  let observer := server.observer.registerInbound tag inbound.protocol
  let observer :=
    if inbound.protocol.supportsUsers then
      inbound.users.foldl (registerUser hashes tag inbound.protocol) observer
    else observer
  ⟨server.inbounds ++ [(tag, inbound)], observer⟩

def initInbounds (hashes : Hashes) (observer : Observer)
    (configured : List (String × ManagedInbound)) : Server :=
  configured.foldl (registerInbound hashes) ⟨[], observer⟩

end Server

end QuicProxy
