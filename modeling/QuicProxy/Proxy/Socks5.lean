import QuicProxy.Proxy.AddressRead

namespace QuicProxy

/-! The two ends of a SOCKS5 connection: the outbound that asks for a target and the
inbound that takes the request (`src/proxy/outbound/socks5.rs`,
`src/proxy/inbound/socks5.rs`). -/

namespace Socks5

open ByteParty

structure User where
  username : String
  password : String
deriving DecidableEq

structure Socks5Outbound where
  username : Option String
  password : Option String
deriving DecidableEq

namespace Socks5Outbound

def methods (self : Socks5Outbound) : Bytes :=
  0 :: if self.username.isSome && self.password.isSome then [2] else []

def greeting (self : Socks5Outbound) : Bytes :=
  5 :: castU8 self.methods.length :: self.methods

/-- The lengths are cast to one byte. -/
def authReq (u p : String) : Bytes :=
  1 :: castU8 (asBytes u).length :: asBytes u ++ castU8 (asBytes p).length :: asBytes p

def authResp (status : UInt8) : ByteParty Unit :=
  if status ≠ 0 then Party.throw "SOCKS5 authentication failed" else pure ()

def chosen (self : Socks5Outbound) (version method : UInt8) : ByteParty Unit :=
  if version ≠ 5 then
    Party.throw s!"SOCKS5 proxy handshake failed: invalid version {version.toNat}"
  else if method = 2 then
    match self.username, self.password with
    | some u, some p => do
        Party.writeAll (authReq u p)
        let (_, status) ← readPair
        authResp status
    | _, _ => Party.throw "SOCKS5 proxy requested auth but no credentials provided"
  else if method ≠ 0 then
    Party.throw s!"SOCKS5 proxy handshake failed: unsupported method {method.toNat}"
  else pure ()

/-- What `connect_stream_with` and `connect_packet` begin with. -/
def handshake (self : Socks5Outbound) : ByteParty Unit := do
  Party.writeAll self.greeting
  let (version, method) ← readPair
  self.chosen version method

end Socks5Outbound

def tooLong : TargetAddr → Bool
  | .domain name _ => 255 < (asBytes name).length
  | .ip _ => false

/-- The reply to `CONNECT`; the address in it is read and dropped. -/
def connectReply (version code : UInt8) : ByteParty Unit :=
  if version ≠ 5 then Party.throw "Invalid SOCKS5 reply version"
  else if code ≠ 0 then Party.throw s!"SOCKS5 proxy connect failed: error code {code.toNat}"
  else TargetAddr.readFromStream.ignore

def relayOf : TargetAddr → ByteParty SocketAddr
  | .ip addr => pure addr
  | .domain _ _ =>
      Party.throw "SOCKS5 UDP relay returned domain, which is not supported yet"

def associateReply (version code : UInt8) : ByteParty SocketAddr :=
  if version ≠ 5 then Party.throw "Invalid SOCKS5 reply version"
  else if code ≠ 0 then Party.throw s!"SOCKS5 UDP ASSOCIATE failed: error code {code.toNat}"
  else do
    let relay ← TargetAddr.readFromStream
    relayOf relay

def connected : ByteParty Unit := do
  let (version, code, _) ← readTriple
  connectReply version code

def connect (target : TargetAddr) : ByteParty Unit :=
  if tooLong target then Party.throw "Domain name too long"
  else do
    Party.writeAll (5 :: 1 :: 0 :: target.toBytes)
    connected

def associated : ByteParty SocketAddr := do
  let (version, code, _) ← readTriple
  associateReply version code

namespace Socks5Outbound

/-- `connect_stream_with`, on the stream to the proxy. -/
def connectStreamWith (self : Socks5Outbound) (target : TargetAddr) : ByteParty Unit := do
  self.handshake
  connect target

/-- `connect_packet`, up to the address of the relay. -/
def connectPacket (self : Socks5Outbound) : ByteParty SocketAddr := do
  self.handshake
  Party.writeAll [5, 3, 0, 1, 0, 0, 0, 0, 0, 0]
  associated

end Socks5Outbound

/-! The inbound. -/

inductive Socks5Handler where
  | stream (target : TargetAddr)
  /-- The relay socket, by its local address. -/
  | packet (bound : SocketAddr)
deriving DecidableEq

def method (users : Option (List User)) (methods : Bytes) : ByteParty UInt8 :=
  if users.isSome then
    if 2 ∈ methods then pure 2
    else do
      Party.writeAll [5, 255]
      Party.throw "No acceptable methods (auth required)"
  else if 0 ∈ methods then pure 0
  else do
    Party.writeAll [5, 255]
    Party.throw "No acceptable methods"

def valid (users : Option (List User)) (username password : String) : Bool :=
  match users with
  | some usersList => usersList.any fun u => u.username = username && u.password = password
  | none => false

def verdict (users : Option (List User)) (uname passwd : Bytes) : ByteParty Unit :=
  if valid users (fromUtf8Lossy uname) (fromUtf8Lossy passwd) then Party.writeAll [1, 0]
  else do
    Party.writeAll [1, 1]
    Party.throw "Authentication failed"

def subNegotiation (users : Option (List User)) : ByteParty Unit := do
  let version ← ByteParty.readU8
  if version ≠ 1 then Party.throw "Unsupported auth version"
  else do
    let ulen ← ByteParty.readU8
    let uname ← ByteParty.readExact ulen.toNat
    let plen ← ByteParty.readU8
    let passwd ← ByteParty.readExact plen.toNat
    verdict users uname passwd

def boundAddr (addr : SocketAddr) : Bytes :=
  match addr with
  | .v4 ip port => 1 :: ip.octets ++ u16ToBe port
  | .v6 ip port _ _ => 4 :: ip.octets ++ u16ToBe port

/-- Binding the relay socket may fail. -/
def associate (bound : Except String SocketAddr) : ByteParty Socks5Handler :=
  match bound with
  | .error error => Party.throw error
  | .ok addr => do
      Party.writeAll (5 :: 0 :: 0 :: boundAddr addr)
      pure (.packet addr)

def command (bound : Except String SocketAddr) (version cmd : UInt8) :
    ByteParty Socks5Handler :=
  if version ≠ 5 then Party.throw "Malformed SOCKS5 request"
  else if cmd = 1 then do
    let target ← TargetAddr.readFromStream
    Party.writeAll [5, 0, 0, 1, 0, 0, 0, 0, 0, 0]
    pure (.stream target)
  else if cmd = 3 then do
    let _ ← TargetAddr.readFromStream
    associate bound
  else do
    Party.writeAll [5, 7, 0, 1, 0, 0, 0, 0, 0, 0]
    Party.throw s!"Unsupported command: {cmd.toNat}"

def request (bound : Except String SocketAddr) : ByteParty Socks5Handler := do
  let (version, cmd, _) ← readTriple
  command bound version cmd

def authenticate (users : Option (List User)) (method : UInt8) : ByteParty Unit := do
  Party.writeAll [5, method]
  if method = 2 then subNegotiation users else pure ()

def greeted (users : Option (List User)) (version nmethods : UInt8) : ByteParty Unit :=
  if version ≠ 5 then Party.throw "Not SOCKS5 protocol"
  else do
    let methods ← ByteParty.readExact nmethods.toNat
    let method ← method users methods
    authenticate users method

/-- The handshake of `handle_client`, up to the request. -/
def accept (users : Option (List User)) : ByteParty Unit := do
  let (version, nmethods) ← readPair
  greeted users version nmethods

def handleClient (users : Option (List User)) (bound : Except String SocketAddr) :
    ByteParty Socks5Handler := do
  accept users
  request bound

/-! What the two come to. -/

/-- The inbound takes what the outbound presents. -/
def accepts (users : Option (List User)) (outbound : Socks5Outbound) : Bool :=
  users.all fun users => users.any fun user =>
    outbound.username = some user.username && outbound.password = some user.password

def Socks5Outbound.Fits (outbound : Socks5Outbound) : Prop :=
  ∀ u ∈ outbound.username, ∀ p ∈ outbound.password,
    (asBytes u).length ≤ 255 ∧ (asBytes p).length ≤ 255

/-- The errors of the two when the inbound refuses. -/
def refusal (outbound : Socks5Outbound) : String × String :=
  if outbound.username.isSome && outbound.password.isSome then
    ("SOCKS5 authentication failed", "Authentication failed")
  else
    ("SOCKS5 proxy handshake failed: unsupported method 255",
      "No acceptable methods (auth required)")

section Handshake

variable {users : Option (List User)} {self : Socks5Outbound}

/-- The outbound has greeted and waits for the method. -/
def Socks5Outbound.answered (self : Socks5Outbound) : ByteParty Unit := do
  let (version, method) ← readPair
  self.chosen version method

/-- It has shown its credentials and waits for the verdict. -/
def authenticated : ByteParty Unit := do
  let (_, status) ← readPair
  Socks5Outbound.authResp status

theorem advances_handshake : self.handshake.Advances [] self.greeting self.answered :=
  (Party.Advances.writeAll self.greeting).bind _

theorem advances_answered (version method : UInt8) :
    self.answered.Advances [version, method] [] (self.chosen version method) :=
  (advances_readPair version method).bind _

theorem advances_authenticated (version status : UInt8) :
    authenticated.Advances [version, status] [] (Socks5Outbound.authResp status) :=
  (advances_readPair version status).bind _

theorem advances_chosen {u p : String} (username : self.username = some u)
    (password : self.password = some p) :
    (self.chosen 5 2).Advances [] (Socks5Outbound.authReq u p) authenticated := by
  have shape : self.chosen 5 2 =
      Party.writeAll (Socks5Outbound.authReq u p) >>= fun _ => authenticated := by
    simp only [Socks5Outbound.chosen, username, password]
    rfl
  rw [shape]
  exact (Party.Advances.writeAll _).bind _

theorem toNat_length_methods : (castU8 self.methods.length).toNat = self.methods.length := by
  unfold Socks5Outbound.methods
  split <;> rfl

theorem advances_accept :
    (accept users).Advances self.greeting []
      (method users self.methods >>= authenticate users) :=
  .andThen (advances_readPair 5 (castU8 self.methods.length))
    ((advances_readExact toNat_length_methods.symm).bind _)

theorem advances_authenticate (method : UInt8) :
    (authenticate users method).Advances [] [5, method]
      (if method = 2 then subNegotiation users else pure ()) :=
  (Party.Advances.writeAll [5, method]).bind _

theorem advances_subNegotiation {u p : String} (shortName : (asBytes u).length ≤ 255)
    (shortWord : (asBytes p).length ≤ 255) :
    (subNegotiation users).Advances (Socks5Outbound.authReq u p) []
      (verdict users (asBytes u) (asBytes p)) := by
  have ulen : (asBytes u).length = (castU8 (asBytes u).length).toNat := by
    rw [toNat_castU8]
    omega
  have plen : (asBytes p).length = (castU8 (asBytes p).length).toNat := by
    rw [toNat_castU8]
    omega
  exact .andThen (.readElement "early eof" 1) (.andThen (.readElement "early eof" _)
    (.andThen (advances_readExact ulen) (.andThen (.readElement "early eof" _)
      ((advances_readExact plen).bind _))))

theorem advances_verdict (uname passwd : Bytes) :
    (verdict users uname passwd).Advances []
      [1, if valid users (fromUtf8Lossy uname) (fromUtf8Lossy passwd) then 0 else 1]
      (if valid users (fromUtf8Lossy uname) (fromUtf8Lossy passwd) then pure ()
        else Party.throw "Authentication failed") := by
  unfold verdict
  split
  · exact .writeAll [1, 0]
  · exact (Party.Advances.writeAll [1, 1]).bind _

end Handshake

section Agreement

open Dialogue

variable {α γ : Type} {users : Option (List User)} {self : Socks5Outbound}
  {next : Unit → ByteParty α} {later : Unit → ByteParty γ}

theorem leads_greeting {answer : Bytes} {rest : ByteParty Unit}
    (accepted : (method users self.methods >>= authenticate users).Advances [] answer rest) :
    Leads (start (self.handshake >>= next) (accept users >>= later))
      ⟨self.answered >>= next, rest >>= later, answer, []⟩ := by
  refine (leads_turn (advances_handshake.bind next)).trans ?_
  have both := advances_accept.trans accepted
  rw [List.append_nil] at both
  exact leads_answer (both.bind later)

theorem method_none : method none self.methods = pure 0 := by
  simp [method, Socks5Outbound.methods]

theorem method_some {usersList : List User} :
    method (some usersList) self.methods =
      if self.username.isSome && self.password.isSome then pure 2
      else Party.writeAll [5, 255] >>= fun _ =>
        Party.throw "No acceptable methods (auth required)" := by
  unfold method Socks5Outbound.methods
  cases self.username.isSome && self.password.isSome <;> rfl

theorem leads_plain :
    Leads (start (self.handshake >>= next) (accept none >>= later))
      (start (next ()) (later ())) := by
  have answer : (method none self.methods >>= authenticate none).Advances [] [5, 0] (pure ()) := by
    rw [method_none]
    exact advances_authenticate 0
  exact (leads_greeting answer).trans (leads_turn ((advances_answered 5 0).bind next))

theorem leads_verdict {usersList : List User} {u p : String} (username : self.username = some u)
    (password : self.password = some p) (fits : self.Fits) :
    Leads (start (self.handshake >>= next) (accept (some usersList) >>= later))
      ⟨authenticated >>= next, verdict (some usersList) (asBytes u) (asBytes p) >>= later,
        [], []⟩ := by
  have answer : (method (some usersList) self.methods >>= authenticate (some usersList)).Advances
      [] [5, 2] (subNegotiation (some usersList)) := by
    rw [method_some, username, password]
    exact advances_authenticate 2
  obtain ⟨shortName, shortWord⟩ := fits u username p password
  have shows := (advances_answered 5 2).trans (advances_chosen username password)
  exact (leads_greeting answer).trans ((leads_turn (shows.bind next)).trans
    (leads_answer ((advances_subNegotiation shortName shortWord).bind later)))

theorem accepts_of_some {usersList : List User} {u p : String} (username : self.username = some u)
    (password : self.password = some p) :
    accepts (some usersList) self = valid (some usersList) u p := by
  simp only [accepts, Option.all_some, valid, username, password, Option.some.injEq]
  refine congrArg _ (funext fun user => ?_)
  simp only [eq_comm]

theorem leads_accepted (fits : self.Fits) (accepted : accepts users self = true) :
    Leads (start (self.handshake >>= next) (accept users >>= later))
      (start (next ()) (later ())) := by
  cases users with
  | none => exact leads_plain
  | some usersList =>
      obtain ⟨user, -, presented⟩ := List.any_eq_true.mp accepted
      simp only [Bool.and_eq_true, decide_eq_true_eq] at presented
      obtain ⟨username, password⟩ := presented
      have good := accepted
      rw [accepts_of_some username password] at good
      have decided := @advances_verdict (some usersList) (asBytes user.username)
        (asBytes user.password)
      simp only [fromUtf8Lossy_asBytes, good, if_true] at decided
      exact (leads_verdict username password fits).trans ((leads_answer (decided.bind later)).trans
        (leads_turn ((advances_authenticated 1 0).bind next)))

theorem leads_refused (fits : self.Fits) (refused : accepts users self = false) :
    Leads (start (self.handshake >>= next) (accept users >>= later))
      (start (Party.throw (refusal self).1) (Party.throw (refusal self).2)) := by
  cases users with
  | none => cases refused
  | some usersList =>
      cases both : self.username.isSome && self.password.isSome with
      | false =>
          have answer : (method (some usersList) self.methods >>=
              authenticate (some usersList)).Advances [] [5, 255]
                (Party.throw "No acceptable methods (auth required)") := by
            rw [method_some, both]
            exact ((Party.Advances.writeAll [5, 255]).bind _).bind _
          rw [refusal, both]
          exact (leads_greeting answer).trans
            (leads_turn ((advances_answered 5 255).bind next))
      | true =>
          rw [Bool.and_eq_true, Option.isSome_iff_exists, Option.isSome_iff_exists] at both
          obtain ⟨⟨u, username⟩, p, password⟩ := both
          rw [accepts_of_some username password] at refused
          have decided := @advances_verdict (some usersList) (asBytes u) (asBytes p)
          simp only [fromUtf8Lossy_asBytes, refused, Bool.false_eq_true, if_false] at decided
          rw [refusal, username, password]
          exact (leads_verdict username password fits).trans
            ((leads_answer (decided.bind later)).trans
              (leads_turn ((advances_authenticated 1 1).bind next)))

variable {bound : Except String SocketAddr} {target : TargetAddr}

theorem shortName_of_tooLong (short : tooLong target = false) : target.ShortName := by
  cases target with
  | ip addr => trivial
  | domain name port => exact Nat.le_of_not_lt (of_decide_eq_false short)

theorem advances_connect (short : target.ShortName) :
    (connect target).Advances [] (5 :: 1 :: 0 :: target.toBytes) connected := by
  have fits : tooLong target = false := by
    cases target with
    | ip addr => rfl
    | domain name port => exact decide_eq_false (Nat.not_lt.mpr short)
  rw [connect, fits]
  exact (Party.Advances.writeAll _).bind _

theorem advances_connected : connected.Advances [5, 0, 0, 1, 0, 0, 0, 0, 0, 0] [] (pure ()) :=
  .andThen (advances_readTriple 5 0 0)
    (@TargetAddr.advances_writeTo TargetAddr.dummy trivial).ignore

theorem advances_request {cmd : UInt8} {answer : Bytes} {last : ByteParty Socks5Handler}
    (answered : TargetAddr → ByteParty Socks5Handler)
    (shape : command bound 5 cmd = TargetAddr.readFromStream >>= answered)
    (short : target.ShortName) (answers : (answered target.decoded).Advances [] answer last) :
    (request bound).Advances (5 :: cmd :: 0 :: target.toBytes) answer last := by
  have taken : (command bound 5 cmd).Advances target.writeTo answer last := by
    rw [shape]
    have both : (TargetAddr.readFromStream >>= answered).Advances (target.writeTo ++ [])
        ([] ++ answer) last := .andThen (TargetAddr.advances_writeTo short) answers
    rwa [List.append_nil] at both
  exact .andThen (advances_readTriple 5 cmd 0) taken

theorem advances_request_connect (short : target.ShortName) :
    (request bound).Advances (5 :: 1 :: 0 :: target.toBytes) [5, 0, 0, 1, 0, 0, 0, 0, 0, 0]
      (pure (.stream target.decoded)) :=
  advances_request _ rfl short ((Party.Advances.writeAll _).bind _)

/-- What the two calls and what is on the way behind them come to. -/
def connectOutcome (users : Option (List User)) (self : Socks5Outbound) (target : TargetAddr)
    (payload reply : Bytes) : Dialogue UInt8 String Unit Socks5Handler :=
  if accepts users self then
    if tooLong target then
      start (Party.throw "Domain name too long") (Party.throw "early eof")
    else ⟨pure (), pure (.stream target.decoded), reply, payload⟩
  else start (Party.throw (refusal self).1) (Party.throw (refusal self).2)

/-- In whatever pieces and order the bytes between an outbound and an inbound move,
a `CONNECT` succeeds on both sides or fails on both, with the target that was asked
for, and what each side writes behind it is left to the other whole. -/
theorem connect_ends (users : Option (List User)) (bound : Except String SocketAddr)
    (self : Socks5Outbound) (target : TargetAddr) (payload reply : Bytes) (fits : self.Fits) :
    Machine.Ends step
      (start (self.connectStreamWith target >>= fun _ => Party.writeAll payload)
        (handleClient users bound >>= fun handler =>
          Party.writeAll reply >>= fun _ => pure handler))
      (connectOutcome users self target payload reply) := by
  rw [Socks5Outbound.connectStreamWith, handleClient, Party.bind_assoc, Party.bind_assoc,
    connectOutcome]
  cases accepted : accepts users self with
  | false => exact ends_of_leads (leads_refused fits accepted)
  | true =>
      rw [if_pos rfl]
      cases long : tooLong target with
      | true =>
          rw [if_pos rfl, connect, long]
          refine ends_of_leads ((leads_accepted fits accepted).trans ?_)
          exact leads_eof_right rfl (Nat.zero_lt_succ 2)
      | false =>
          rw [if_neg Bool.false_ne_true]
          have short := shortName_of_tooLong long
          refine ends_of_leads ((leads_accepted fits accepted).trans ?_)
          refine (leads_turn ((advances_connect short).bind _)).trans ?_
          refine (leads_answer ((advances_request_connect short).bind _)).trans ?_
          refine (leads_turn (advances_connected.bind _)).trans ?_
          refine (leads_turn (.writeAll payload)).trans ?_
          exact leads_right ((Party.Advances.writeAll reply).bind _)

theorem connect_ends_accepted :
    Machine.Ends step
      (start (Socks5Outbound.connectStreamWith ⟨some "u", some "p"⟩ (.domain "a.b" 80) >>=
          fun _ => Party.writeAll [7])
        (handleClient (some [⟨"u", "p"⟩]) (.error "no socket") >>= fun handler =>
          Party.writeAll [8, 9] >>= fun _ => pure handler))
      (connectOutcome (some [⟨"u", "p"⟩]) ⟨some "u", some "p"⟩ (.domain "a.b" 80) [7] [8, 9]) :=
  connect_ends _ _ _ _ _ _ fun _ username _ password => by
    cases username
    cases password
    decide +kernel

theorem advances_associate :
    (Party.writeAll [5, 3, 0, 1, 0, 0, 0, 0, 0, 0] >>= fun _ => associated).Advances []
      [5, 3, 0, 1, 0, 0, 0, 0, 0, 0] associated :=
  (Party.Advances.writeAll _).bind _

theorem boundAddr_eq_writeTo (addr : SocketAddr) :
    boundAddr addr = (TargetAddr.ip addr).writeTo := by
  cases addr <;> rfl

theorem advances_request_associate (addr : SocketAddr) :
    (request (.ok addr)).Advances [5, 3, 0, 1, 0, 0, 0, 0, 0, 0]
      (5 :: 0 :: 0 :: boundAddr addr) (pure (.packet addr)) :=
  @advances_request (.ok addr) TargetAddr.dummy 3 _ _ _ rfl trivial
    ((Party.Advances.writeAll _).bind _)

theorem advances_associated (addr : SocketAddr) :
    associated.Advances (5 :: 0 :: 0 :: boundAddr addr) [] (pure addr.unscoped) := by
  have relay : (associateReply 5 0).Advances (boundAddr addr) [] (pure addr.unscoped) := by
    rw [boundAddr_eq_writeTo]
    exact (@TargetAddr.advances_writeTo (.ip addr) trivial).bind _
  exact .andThen (advances_readTriple 5 0 0) relay

/-- What the two come to over a `UDP ASSOCIATE`. -/
def associateOutcome (users : Option (List User)) (self : Socks5Outbound) :
    Except String SocketAddr → Dialogue UInt8 String SocketAddr Socks5Handler
  | .ok addr =>
      if accepts users self then start (pure addr.unscoped) (pure (.packet addr))
      else start (Party.throw (refusal self).1) (Party.throw (refusal self).2)
  | .error error =>
      if accepts users self then start (Party.throw "early eof") (Party.throw error)
      else start (Party.throw (refusal self).1) (Party.throw (refusal self).2)

/-- In whatever pieces and order the bytes move, the outbound learns the address of
the socket that the inbound has bound for it, or both fail. -/
theorem associate_ends (users : Option (List User)) (bound : Except String SocketAddr)
    (self : Socks5Outbound) (fits : self.Fits) :
    Machine.Ends step (start self.connectPacket (handleClient users bound))
      (associateOutcome users self bound) := by
  rw [Socks5Outbound.connectPacket, handleClient]
  cases accepted : accepts users self with
  | false =>
      have refused : associateOutcome users self bound =
          start (Party.throw (refusal self).1) (Party.throw (refusal self).2) := by
        cases bound <;> exact if_neg (Bool.not_eq_true _ ▸ accepted)
      rw [refused]
      exact ends_of_leads (leads_refused fits accepted)
  | true =>
      cases bound with
      | ok addr =>
          rw [associateOutcome, if_pos accepted]
          refine ends_of_leads ((leads_accepted fits accepted).trans ?_)
          refine (leads_turn advances_associate).trans ?_
          refine (leads_answer (advances_request_associate addr)).trans ?_
          exact leads_turn (advances_associated addr)
      | error error =>
          rw [associateOutcome, if_pos accepted]
          refine ends_of_leads ((leads_accepted fits accepted).trans ?_)
          refine (leads_turn advances_associate).trans ?_
          have fails : (request (.error error)).Advances [5, 3, 0, 1, 0, 0, 0, 0, 0, 0] []
              (Party.throw error) :=
            @advances_request (.error error) TargetAddr.dummy 3 _ _ _ rfl trivial (.stay _)
          exact (leads_answer fails).trans (leads_eof rfl (Nat.zero_lt_succ 2))

theorem associate_ends_plain :
    Machine.Ends step
      (start (Socks5Outbound.connectPacket ⟨none, none⟩)
        (handleClient none (.ok (.v4 ⟨127, 0, 0, 1⟩ 5353))))
      (associateOutcome none ⟨none, none⟩ (.ok (.v4 ⟨127, 0, 0, 1⟩ 5353))) :=
  associate_ends _ _ _ fun _ username => by cases username

end Agreement

end Socks5

end QuicProxy
