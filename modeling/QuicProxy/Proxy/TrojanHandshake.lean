import QuicProxy.Proxy.AddressRead
import QuicProxy.Proxy.Inbound.TcpInbounds
import QuicProxy.Proxy.Trojan

namespace QuicProxy

/-! The request of a Trojan outbound and the inbound that reads it
(`src/proxy/outbound/trojan.rs`, `src/proxy/inbound/trojan.rs`). -/

namespace Trojan

/-- `password_hash` of an outbound, as it is computed once. -/
def passwordHash (hashes : Hashes) (password : String) : Bytes :=
  hexEncode (hashes.sha224 (asBytes password))

def generateHandshake (passwordHash : Bytes) (target : TargetAddr) (isUdp : Bool) : Bytes :=
  passwordHash ++ crlf ++ [if isUdp then 3 else 1] ++ target.toBytes ++ crlf

inductive TrojanHandler where
  | stream (target : TargetAddr)
  | udp (target : TargetAddr)
deriving DecidableEq

/-- What an inbound decides by: its users, and what the observer answers to a
credential of this inbound. -/
structure Accounts where
  hashes : Hashes
  users : List AuthUser
  authenticate : Bytes → Option String

namespace Accounts

def localOk (accounts : Accounts) (receivedHash : Bytes) : Bool :=
  accounts.users.any fun u =>
    match credentialHash accounts.hashes .trojan u.username u.password with
    | .ok credential => credential == receivedHash
    | .error _ => false

def admits (accounts : Accounts) (receivedHash : Bytes) : Bool :=
  (accounts.authenticate receivedHash).isSome || accounts.localOk receivedHash

end Accounts

def handler (account : Option String) (cmd : UInt8) (target : TargetAddr) :
    ByteParty (TrojanHandler × Option String) :=
  if cmd = 1 then pure (.stream target, account)
  else if cmd = 3 then pure (.udp target, account)
  else Party.throw s!"Unsupported CMD: {cmd.toNat}"

def readRequest (account : Option String) : ByteParty (TrojanHandler × Option String) := do
  let cmd ← ByteParty.readU8
  let targetAddr ← TargetAddr.readFromStream
  let behind ← ByteParty.readExact 2
  if behind ≠ crlf then Party.throw "Invalid Trojan request: missing CRLF after request"
  else handler account cmd targetAddr

/-- The password hash and the line end behind it. -/
def checkPassword (accounts : Accounts) (buf : Bytes) :
    ByteParty (TrojanHandler × Option String) :=
  if buf.drop 56 ≠ crlf then
    Party.throw ("Invalid Trojan request: missing CRLF after password, got " ++
      toString ((buf.drop 56).map UInt8.toNat))
  else if !accounts.admits (InboundProtocol.trojan.received (buf.take 56)) then
    Party.throw "Invalid Trojan password"
  else readRequest (accounts.authenticate (InboundProtocol.trojan.received (buf.take 56)))

def handleClient (accounts : Accounts) : ByteParty (TrojanHandler × Option String) := do
  let buf ← ByteParty.readExact 58
  checkPassword accounts buf

/-! What the inbound makes of a request. -/

theorem length_hexEncode (bytes : Bytes) : (hexEncode bytes).length = 2 * bytes.length := by
  induction bytes with
  | nil => rfl
  | cons byte bytes ih =>
      have rest : (hexEncode (byte :: bytes)).length = 2 + (hexEncode bytes).length :=
        List.length_append
      rw [rest, ih, List.length_cons]
      omega

theorem received_hexDigit :
    ∀ n < 16, InboundProtocol.trojan.received [hexDigit n] = [hexDigit n] := by
  decide

theorem received_hexEncode (bytes : Bytes) :
    InboundProtocol.trojan.received (hexEncode bytes) = hexEncode bytes := by
  have digit (n : Nat) (small : n < 16) :
      (if 65 ≤ hexDigit n ∧ hexDigit n ≤ 90 then hexDigit n + 32 else hexDigit n) = hexDigit n :=
    List.head_eq_of_cons_eq (received_hexDigit n small)
  show (hexEncode bytes).map _ = _
  rw [hexEncode, List.map_flatMap]
  refine congrArg (bytes.flatMap ·) (funext fun byte => ?_)
  have bound := byte.toNat_lt
  simp only [List.map_cons, List.map_nil]
  rw [digit _ (by omega), digit _ (Nat.mod_lt _ (by decide))]

theorem length_passwordHash {hashes : Hashes} {password : String}
    (sized : (hashes.sha224 (asBytes password)).length = 28) :
    (passwordHash hashes password).length = 56 := by
  rw [passwordHash, length_hexEncode, sized]

variable {accounts : Accounts} {account : Option String} {target : TargetAddr} {hash : Bytes}

def requested (isUdp : Bool) (target : TargetAddr) : TrojanHandler :=
  if isUdp then .udp target else .stream target

theorem advances_readRequest (isUdp : Bool) (short : target.ShortName) :
    (readRequest account).Advances ([if isUdp then 3 else 1] ++ target.toBytes ++ crlf) []
      (pure (requested isUdp target.decoded, account)) := by
  rw [List.append_assoc]
  refine .andThen (.readElement "early eof" _) (.andThen (TargetAddr.advances_writeTo short) ?_)
  have ends := (@ByteParty.advances_readExact 2 crlf rfl).bind fun behind =>
    if behind ≠ crlf then Party.throw "Invalid Trojan request: missing CRLF after request"
    else handler account (if isUdp then 3 else 1) target.decoded
  cases isUdp <;> exact ends

theorem advances_checkPassword (length : hash.length = 56) :
    (handleClient accounts).Advances (hash ++ crlf) []
      (if accounts.admits (InboundProtocol.trojan.received hash) then
        readRequest (accounts.authenticate (InboundProtocol.trojan.received hash))
      else Party.throw "Invalid Trojan password") := by
  have whole : (hash ++ crlf).length = 58 := by
    rw [List.length_append, length]
    rfl
  have checked := (ByteParty.advances_readExact whole).bind (checkPassword accounts)
  have front : (hash ++ crlf).take 56 = hash := length ▸ List.take_left
  have back : (hash ++ crlf).drop 56 = crlf := length ▸ List.drop_left
  have shape : checkPassword accounts (hash ++ crlf) =
      if accounts.admits (InboundProtocol.trojan.received hash) then
        readRequest (accounts.authenticate (InboundProtocol.trojan.received hash))
      else Party.throw "Invalid Trojan password" := by
    rw [checkPassword, front, back, if_neg (not_not_intro rfl)]
    cases accounts.admits (InboundProtocol.trojan.received hash) <;> rfl
  rw [← shape]
  exact checked

open Dialogue

/-- What the inbound comes to with the request of a password, and what it leaves of
the payload behind it. -/
def requestOutcome (accounts : Accounts) (password : String) (target : TargetAddr)
    (isUdp : Bool) (payload : Bytes) :
    Dialogue UInt8 String Unit (TrojanHandler × Option String) :=
  let hash := passwordHash accounts.hashes password
  if accounts.admits hash then
    ⟨pure (), pure (requested isUdp target.decoded, accounts.authenticate hash), [], payload⟩
  else
    ⟨pure (), Party.throw "Invalid Trojan password", [],
      [if isUdp then 3 else 1] ++ target.toBytes ++ crlf ++ payload⟩

/-- In whatever pieces the request and the payload behind it come, the inbound takes
the target and the command that were asked for, and all of the payload is left to
its handler; or it refuses the password. -/
theorem request_ends (accounts : Accounts) (password : String) (target : TargetAddr)
    (isUdp : Bool) (payload : Bytes)
    (sized : (accounts.hashes.sha224 (asBytes password)).length = 28)
    (short : target.ShortName) :
    Machine.Ends step
      (start (Party.writeAll
        (generateHandshake (passwordHash accounts.hashes password) target isUdp ++ payload))
          (handleClient accounts))
      (requestOutcome accounts password target isUdp payload) := by
  have length := length_passwordHash sized
  have lower : InboundProtocol.trojan.received (passwordHash accounts.hashes password) =
      passwordHash accounts.hashes password := received_hexEncode _
  have checked := @advances_checkPassword accounts _ length
  rw [lower] at checked
  have sent : generateHandshake (passwordHash accounts.hashes password) target isUdp ++ payload =
      passwordHash accounts.hashes password ++ crlf ++
        ([if isUdp then 3 else 1] ++ target.toBytes ++ crlf ++ payload) := by
    simp only [generateHandshake, List.append_assoc]
  rw [sent, requestOutcome]
  cases admitted : accounts.admits (passwordHash accounts.hashes password) with
  | true =>
      rw [admitted, if_pos rfl] at checked
      rw [if_pos rfl, ← List.append_assoc]
      exact ends_of_advances (checked.trans (advances_readRequest isUdp short)) payload
  | false =>
      rw [admitted, if_neg Bool.false_ne_true] at checked
      rw [if_neg Bool.false_ne_true]
      exact ends_of_advances checked _

def knownAccounts : Accounts := ⟨knownHashes, [⟨"alice", "a"⟩], fun _ => none⟩

theorem request_ends_known :
    Machine.Ends step
      (start (Party.writeAll
        (generateHandshake (passwordHash knownAccounts.hashes "a") (.domain "a.b" 80) false ++
          [7, 8])) (handleClient knownAccounts))
      (requestOutcome knownAccounts "a" (.domain "a.b" 80) false [7, 8]) :=
  request_ends knownAccounts "a" (.domain "a.b" 80) false [7, 8] (by decide +kernel)
    (by show (asBytes "a.b").length ≤ 255; decide +kernel)

/-! What is taken is well formed. -/

variable {input rest : Bytes} {taken : TrojanHandler × Option String}

theorem parses_handler {cmd : UInt8} (accepted : (handler account cmd target).parses input =
      .ok (taken, rest)) :
    rest = input ∧ (cmd = 1 ∧ taken = (.stream target, account) ∨
      cmd = 3 ∧ taken = (.udp target, account)) := by
  unfold handler at accepted
  split at accepted
  · rename_i connect
    cases accepted
    exact ⟨rfl, Or.inl ⟨connect, rfl⟩⟩
  split at accepted
  · rename_i associate
    cases accepted
    exact ⟨rfl, Or.inr ⟨associate, rfl⟩⟩
  · cases accepted

theorem parses_readRequest (accepted : (readRequest account).parses input = .ok (taken, rest)) :
    ∃ cmd body target, input = cmd :: body ∧
      TargetAddr.readFrom body = .ok (target, crlf ++ rest) ∧
        (cmd = 1 ∧ taken = (.stream target, account) ∨
          cmd = 3 ∧ taken = (.udp target, account)) := by
  rw [readRequest, Party.parses_bind, TargetAddr.parses_readU8] at accepted
  cases input with
  | nil => cases accepted
  | cons cmd body =>
      obtain ⟨given, read, accepted⟩ := TargetAddr.exists_of_bind accepted
      cases read
      rw [Party.parses_bind, TargetAddr.parses_readFrom] at accepted
      obtain ⟨⟨target, behind⟩, found, accepted⟩ := TargetAddr.exists_of_bind accepted
      rw [Party.parses_bind, TargetAddr.parses_readExact] at accepted
      obtain ⟨⟨line, last⟩, read, accepted⟩ := TargetAddr.exists_of_bind accepted
      obtain ⟨shape, -⟩ := TargetAddr.readExact_eq_ok read
      have ends : line = crlf := by
        by_contra other
        rw [if_pos other] at accepted
        cases accepted
      rw [if_neg (not_not_intro ends)] at accepted
      obtain ⟨rfl, command⟩ := parses_handler accepted
      refine ⟨cmd, body, target, rfl, ?_, command⟩
      rw [← ends, ← show behind = line ++ rest from shape]
      exact found

theorem parses_handleClient
    (accepted : (handleClient accounts).parses input = .ok (taken, rest)) :
    ∃ hash cmd body target, input = hash ++ crlf ++ cmd :: body ∧ hash.length = 56 ∧
      accounts.admits (InboundProtocol.trojan.received hash) = true ∧
      TargetAddr.readFrom body = .ok (target, crlf ++ rest) ∧
      taken.2 = accounts.authenticate (InboundProtocol.trojan.received hash) ∧
      (cmd = 1 ∧ taken.1 = .stream target ∨ cmd = 3 ∧ taken.1 = .udp target) := by
  rw [handleClient, Party.parses_bind, TargetAddr.parses_readExact] at accepted
  obtain ⟨⟨buf, later⟩, read, accepted⟩ := TargetAddr.exists_of_bind accepted
  obtain ⟨shape, length⟩ := TargetAddr.readExact_eq_ok read
  have front : (buf.take 56).length = 56 := by
    rw [List.length_take]
    omega
  have ends : buf.drop 56 = crlf := by
    by_contra other
    rw [checkPassword, if_pos other] at accepted
    cases accepted
  have admitted : accounts.admits (InboundProtocol.trojan.received (buf.take 56)) = true := by
    by_contra other
    rw [Bool.not_eq_true] at other
    rw [checkPassword, if_neg (not_not_intro ends), other] at accepted
    cases accepted
  rw [checkPassword, if_neg (not_not_intro ends), admitted] at accepted
  obtain ⟨cmd, body, target, behind, found, command⟩ := parses_readRequest accepted
  refine ⟨buf.take 56, cmd, body, target, ?_, front, admitted, found, ?_, ?_⟩
  · rw [shape, ← ends, List.take_append_drop, ← show later = cmd :: body from behind]
  · rcases command with ⟨-, rfl⟩ | ⟨-, rfl⟩ <;> rfl
  · rcases command with ⟨connect, rfl⟩ | ⟨associate, rfl⟩
    · exact Or.inl ⟨connect, rfl⟩
    · exact Or.inr ⟨associate, rfl⟩

/-- Whatever comes and in whatever pieces, the inbound takes only what begins with a
hash that it admits and goes on as a whole request. -/
theorem wellFormed_of_accepted {turns : List Turn} {closed : String}
    {talk : Dialogue UInt8 String Unit (TrojanHandler × Option String)}
    (ran : Machine.run step
      (start (Party.writeAll input >>= fun _ => Party.throw closed) (handleClient accounts)) turns =
        some talk)
    (accepted : talk.right = pure taken) :
    ∃ hash cmd body target rest, input = hash ++ crlf ++ cmd :: body ∧ hash.length = 56 ∧
      accounts.admits (InboundProtocol.trojan.received hash) = true ∧
      TargetAddr.readFrom body = .ok (target, crlf ++ rest) ∧
      taken.2 = accounts.authenticate (InboundProtocol.trojan.received hash) ∧
      (cmd = 1 ∧ taken.1 = .stream target ∨ cmd = 3 ∧ taken.1 = .udp target) := by
  have same := right_eq_of_ends (ends_hears input closed (handleClient accounts)) ran accepted
  have result : ((handleClient accounts).hears input).1 = .ok taken := by
    injection same
  have parsed : (handleClient accounts).parses input =
      .ok (taken, ((handleClient accounts).hears input).2.2) := by
    rw [Party.parses, result]
    rfl
  obtain ⟨hash, cmd, body, target, found⟩ := parses_handleClient parsed
  exact ⟨hash, cmd, body, target, _, found⟩

theorem wellFormed_of_accepted_known :
    ∃ hash cmd body target rest,
      generateHandshake (passwordHash knownHashes "a") .dummy true = hash ++ crlf ++ cmd :: body ∧
      hash.length = 56 ∧ knownAccounts.admits (InboundProtocol.trojan.received hash) = true ∧
      TargetAddr.readFrom body = .ok (target, crlf ++ rest) ∧
      none = knownAccounts.authenticate (InboundProtocol.trojan.received hash) ∧
      (cmd = 1 ∧ TrojanHandler.udp .dummy = .stream target ∨
        cmd = 3 ∧ TrojanHandler.udp .dummy = .udp target) := by
  have heard : ((handleClient knownAccounts).hears
      (generateHandshake (passwordHash knownHashes "a") .dummy true)).1 =
        .ok (.udp .dummy, none) := by
    rfl
  obtain ⟨turns, ran⟩ := (@ends_hears UInt8 String Unit _
    (generateHandshake (passwordHash knownHashes "a") .dummy true) "closed"
    (handleClient knownAccounts)).exists_run
  exact wellFormed_of_accepted ran (congrArg Party.ret heard)

end Trojan

end QuicProxy
