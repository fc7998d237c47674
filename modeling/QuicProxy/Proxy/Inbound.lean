import QuicProxy.Proxy.Anytls.Uot
import QuicProxy.Proxy.Inbound.Literals
import QuicProxy.Proxy.Vmess.Addr

namespace QuicProxy

/-! The destinations that the inbounds read off their clients, and what the
router's IP conditions see of them. -/

namespace Anytls

open TargetAddr

/-- The domain branch of `parse_target_from_syn`; without a length byte its
index is out of bounds. -/
def parseSynName : Bytes → Option (Except String TargetAddr)
  | [] => none
  | len :: tail =>
      match namePortAt (len :: tail) with
      | none => some (.error "SYN domain data too short")
      | some (bytes, port) =>
          match fromUtf8 bytes with
          | none => some (.error "invalid domain")
          | some name => some (.ok (.domain name port))

/-- `parse_target_from_syn` (`src/proxy/inbound/anytls.rs`); `none` is a panic. -/
def parseTargetFromSyn (data : Bytes) : Option (Except String TargetAddr) :=
  match data with
  | [] => some (.error "empty SYN data")
  | atyp :: body =>
      if atyp = 1 then
        match v4PortAt body with
        | some target => some (.ok target)
        | none => some (.error "SYN IPv4 data too short")
      else if atyp = 3 then parseSynName body
      else if atyp = 4 then
        match v6PortAt body with
        | some target => some (.ok target)
        | none => some (.error "SYN IPv6 data too short")
      else some (.error s!"unsupported ATYP in SYN: {atyp.toNat}")

end Anytls

/-- A client's input to one of the address parsers of the inbounds. -/
inductive ClientAddress where
  | socksStream (bytes : Bytes)
  | socksDatagram (bytes : Bytes)
  | anytlsSyn (bytes : Bytes)
  | uotPacket (bytes : Bytes)
  | vmessHeader (bytes : Bytes)
  | httpConnect (path : List Char)
  | httpHost (host : List Char)
  | httpUrl (url : List Char)

namespace ClientAddress

open TargetAddr

def accepted : ClientAddress → Option TargetAddr
  | socksStream bytes => (readFrom bytes).toOption.map (·.1)
  | socksDatagram bytes => ((decode bytes).toOption.bind id).map (·.1)
  | anytlsSyn bytes => (Anytls.parseTargetFromSyn bytes).bind (·.toOption)
  | uotPacket bytes => (Uot.decodeTarget bytes).toOption.map (·.1)
  | vmessHeader bytes => (Vmess.readAddr bytes).toOption.map (·.1)
  | httpConnect path => (Http.parseTarget path).toOption
  | httpHost host => (Http.parseHostHeader host).toOption
  | httpUrl url => (Http.parseUrlTarget url).toOption

def nameBehind (nameType : UInt8) (text : Bytes → Option String) : Bytes → Option String
  | [] => none
  | atyp :: body =>
      if atyp = nameType then (namePortAt body).bind fun (bytes, _) => text bytes else none

def vmessName : Bytes → Option String
  | _ :: _ :: atyp :: len :: tail =>
      if atyp = 2 then some (fromUtf8Lossy (tail.take len.toNat)) else none
  | _ => none

/-- The name in an input that is not text itself. -/
def givenName : ClientAddress → Option String
  | socksStream bytes => nameBehind 3 fromUtf8 bytes
  | socksDatagram bytes => nameBehind 3 fromUtf8 bytes
  | anytlsSyn bytes => nameBehind 3 fromUtf8 bytes
  | uotPacket bytes => nameBehind 2 (some ∘ fromUtf8Lossy) bytes
  | vmessHeader bytes => vmessName bytes
  | httpConnect _ => none
  | httpHost _ => none
  | httpUrl _ => none

/-- The host of the input, as text; a text that can be read in several ways has the host
of each. -/
def Names : ClientAddress → List Char → Prop
  | httpConnect path, host => ∃ after, Reads path host after
  | httpHost text, host => ∃ after, Reads text host after
  | httpUrl url, host => ∃ user after rest, UrlReads url user host after rest
  | input, host => ∃ name, input.givenName = some name ∧ host = name.toList

/-- The ways in which an inbound can be handed the text of an IP address and take it for
the address. -/
def NamesAsAddress (brackets : Bool) : ClientAddress → Prop
  | socksStream bytes => ∀ name ip, (socksStream bytes).givenName = some name →
      IsLiteral brackets ip name.toList → IpAddr.parse name.toList = some ip
  | socksDatagram bytes => ∀ name ip, (socksDatagram bytes).givenName = some name →
      IsLiteral brackets ip name.toList → IpAddr.parse name.toList = some ip
  | httpConnect path => ∀ host after ip, Reads path host after → IsLiteral brackets ip host →
      WithPort host after
  | httpHost text => ∀ host after ip, Reads text host after → IsLiteral brackets ip host →
      WithPort host after
  | httpUrl url => ∀ user host after rest ip, UrlReads url user host after rest →
      IsLiteral brackets ip host → UrlPlain user host after rest
  | input => ∀ name ip, input.givenName = some name → ¬IsLiteral brackets ip name.toList

end ClientAddress

/-! What the binary parsers make of their input: an address, or something of the given
name. -/

/-- An address where no name is given, else what `make` makes of the name. -/
def TargetAddr.MadeOf (make : String → UInt16 → TargetAddr) (given : Option String)
    (target : TargetAddr) : Prop :=
  (∃ addr, target = ip addr) ∧ given = none ∨
    ∃ name port, target = make name port ∧ given = some name

theorem TargetAddr.eq_ip_of_v4PortAt {body : Bytes} {target : TargetAddr}
    (read : v4PortAt body = some target) : ∃ addr, target = ip addr := by
  unfold v4PortAt at read
  split at read
  · cases read
    exact ⟨_, rfl⟩
  · cases read

theorem TargetAddr.eq_ip_of_v6PortAt {body : Bytes} {target : TargetAddr}
    (read : v6PortAt body = some target) : ∃ addr, target = ip addr := by
  unfold v6PortAt at read
  split at read
  · split at read
    · cases read
      exact ⟨_, rfl⟩
    · cases read
  · cases read

namespace ClientAddress

open TargetAddr

theorem madeOf_ip {make : String → UInt16 → TargetAddr} {given : Option String}
    {target : TargetAddr} (address : ∃ addr, target = ip addr) (none : given = none) :
    MadeOf make given target := .inl ⟨address, none⟩

theorem madeOf_readFrom {stream rest : Bytes} {target : TargetAddr}
    (read : readFrom stream = .ok (target, rest)) :
    MadeOf ofName (nameBehind 3 fromUtf8 stream) target := by
  cases stream with
  | nil => cases read
  | cons atyp body =>
      by_cases name : atyp = 3
      · subst name
        cases body with
        | nil => cases read
        | cons len tail =>
            have other : ¬(3 : UInt8) = 1 := by decide
            simp only [readFrom, readU8, if_neg other, if_true, readExact, bind, Except.bind, pure,
              Except.pure] at read
            split at read
            · cases read
            · next found =>
                split at found
                · cases found
                · cases found
                  split at read
                  · cases read
                  · next port left =>
                      unfold readU16 at left
                      split at left
                      · next high low rest dropped =>
                          cases left
                          dsimp only at dropped read
                          split at read
                          · next text decodes =>
                              cases read
                              refine .inr ⟨text, _, rfl, ?_⟩
                              simp only [nameBehind, if_true, namePortAt, dropped,
                                Option.bind_some, decodes]
                          · cases read
                      · cases left
      · refine madeOf_ip ?_ (if_neg name)
        simp only [readFrom, readU8, if_neg name, bind, Except.bind, pure, Except.pure] at read
        repeat' split at read
        all_goals cases read
        all_goals exact ⟨_, rfl⟩

theorem madeOf_decode {buf : Bytes} {target : TargetAddr} {used : Nat}
    (decodes : decode buf = .ok (some (target, used))) :
    MadeOf ofName (nameBehind 3 fromUtf8 buf) target := by
  cases buf with
  | nil => cases decodes
  | cons atyp body =>
      have otherType (other : atyp ≠ 3) : nameBehind 3 fromUtf8 (atyp :: body) = none :=
        if_neg other
      simp only [decode] at decodes
      split at decodes
      · next v4 =>
          obtain ⟨_, read, same⟩ := Option.map_eq_some_iff.mp (Except.ok.inj decodes)
          cases same
          exact madeOf_ip (eq_ip_of_v4PortAt read) (otherType (by rw [v4]; decide))
      split at decodes
      · next name =>
          subst name
          unfold decodeName at decodes
          split at decodes
          · next bytes port read =>
              split at decodes
              · next text found =>
                  cases decodes
                  refine .inr ⟨text, port, rfl, ?_⟩
                  simp only [nameBehind, if_true, read, Option.bind_some, found]
              · cases decodes
          · cases decodes
      split at decodes
      · next v6 =>
          obtain ⟨_, read, same⟩ := Option.map_eq_some_iff.mp (Except.ok.inj decodes)
          cases same
          exact madeOf_ip (eq_ip_of_v6PortAt read) (otherType (by rw [v6]; decide))
      · cases decodes

theorem madeOf_anytlsSyn {bytes : Bytes} {target : TargetAddr}
    (taken : (anytlsSyn bytes).accepted = some target) :
    MadeOf domain (anytlsSyn bytes).givenName target := by
  cases bytes with
  | nil => cases taken
  | cons atyp body =>
      have otherType (other : atyp ≠ 3) : (anytlsSyn (atyp :: body)).givenName = none :=
        if_neg other
      simp only [accepted, Anytls.parseTargetFromSyn] at taken
      split at taken
      · next v4 =>
          split at taken
          · next read =>
              cases taken
              exact madeOf_ip (eq_ip_of_v4PortAt read) (otherType (by rw [v4]; decide))
          · cases taken
      split at taken
      · next name =>
          subst name
          cases body with
          | nil => cases taken
          | cons len tail =>
              simp only [Anytls.parseSynName] at taken
              split at taken
              · cases taken
              · next bytes port read =>
                  split at taken
                  · cases taken
                  · next text decodes =>
                      cases taken
                      refine .inr ⟨text, port, rfl, ?_⟩
                      simp only [givenName, nameBehind, if_true, read, Option.bind_some,
                        decodes]
      split at taken
      · next v6 =>
          split at taken
          · next read =>
              cases taken
              exact madeOf_ip (eq_ip_of_v6PortAt read) (otherType (by rw [v6]; decide))
          · cases taken
      · cases taken

theorem madeOf_uotPacket {bytes : Bytes} {target : TargetAddr}
    (taken : (uotPacket bytes).accepted = some target) :
    MadeOf domain (uotPacket bytes).givenName target := by
  cases bytes with
  | nil => cases taken
  | cons atyp body =>
      have otherType (other : atyp ≠ 2) : (uotPacket (atyp :: body)).givenName = none :=
        if_neg other
      simp only [accepted, Uot.decodeTarget] at taken
      split at taken
      · next v4 =>
          split at taken
          · next read =>
              cases taken
              exact madeOf_ip (eq_ip_of_v4PortAt read) (otherType (by rw [v4]; decide))
          · cases taken
      split at taken
      · next v6 =>
          split at taken
          · next read =>
              cases taken
              exact madeOf_ip (eq_ip_of_v6PortAt read) (otherType (by rw [v6]; decide))
          · cases taken
      split at taken
      · next name =>
          subst name
          cases body with
          | nil => cases taken
          | cons len tail =>
              simp only [Uot.decodeDomain] at taken
              split at taken
              · next bytes port read =>
                  cases taken
                  refine .inr ⟨fromUtf8Lossy bytes, port, rfl, ?_⟩
                  simp only [givenName, nameBehind, if_true, read, Option.bind_some,
                    Function.comp]
              · cases taken
      · cases taken

theorem madeOf_vmessHeader {bytes : Bytes} {target : TargetAddr}
    (taken : (vmessHeader bytes).accepted = some target) :
    MadeOf domain (vmessHeader bytes).givenName target := by
  match bytes with
  | [] | [_] | [_, _] => cases taken
  | high :: low :: atyp :: buf =>
      have otherType (other : atyp ≠ 2) :
          (vmessHeader (high :: low :: atyp :: buf)).givenName = none := by
        cases buf with
        | nil => rfl
        | cons len tail => exact if_neg other
      simp only [accepted, Vmess.readAddr] at taken
      split at taken
      · next v4 =>
          unfold Vmess.readV4 at taken
          split at taken
          · cases taken
            exact madeOf_ip ⟨_, rfl⟩ (otherType (by rw [v4]; decide))
          · cases taken
      split at taken
      · next name =>
          subst name
          unfold Vmess.readDomain at taken
          split at taken
          · cases taken
          · split at taken
            · cases taken
            · cases taken
              exact .inr ⟨_, _, rfl, rfl⟩
      split at taken
      · next v6 =>
          unfold Vmess.readV6 at taken
          split at taken
          · cases taken
            exact madeOf_ip ⟨_, rfl⟩ (otherType (by rw [v6]; decide))
          · cases taken
      · cases taken

/-! What a given name does to the target. -/

variable {brackets : Bool} {input : ClientAddress} {target : TargetAddr} {given : Option String}

theorem treatedAs_socketAddr (ip : IpAddr) (port : UInt16) :
    (TargetAddr.ip (SocketAddr.new ip port)).TreatedAs ip :=
  treatedAs_iff.mpr ⟨_, rfl, SocketAddr.ip_new ip port⟩

/-- Where a name is tried as an address, it has to be one if it is the text of one. -/
theorem ofName_named_iff (made : MadeOf ofName given target) :
    (target.Canonical brackets ∧ ∀ host ip, (∃ name, given = some name ∧ host = name.toList) →
        IsLiteral brackets ip host → target.TreatedAs ip) ↔
      ∀ name ip, given = some name → IsLiteral brackets ip name.toList →
        IpAddr.parse name.toList = some ip := by
  rcases made with ⟨⟨addr, rfl⟩, rfl⟩ | ⟨name, port, rfl, rfl⟩
  · refine iff_of_true ⟨canonical_ip brackets addr, ?_⟩ ?_
    · rintro _ _ ⟨_, ⟨⟩, -⟩
    · rintro _ _ ⟨⟩
  · constructor
    · rintro ⟨-, treated⟩ _ ip ⟨⟩ literal
      obtain ⟨addr, same, rfl⟩ := treatedAs_iff.mp (treated _ ip ⟨name, rfl, rfl⟩ literal)
      unfold ofName at same
      split at same
      · next ip parsed =>
          cases same
          rw [parsed, SocketAddr.ip_new]
      · cases same
    · intro parses
      unfold ofName
      split
      · next ip parsed =>
          refine ⟨canonical_ip brackets _, ?_⟩
          rintro _ other ⟨_, ⟨⟩, rfl⟩ literal
          rw [literal.eq_of_parse parsed]
          exact treatedAs_socketAddr ip port
      · next unparsed =>
          have plain (ip : IpAddr) : ¬IsLiteral brackets ip name.toList := by
            intro literal
            cases unparsed.symm.trans (parses name ip rfl literal)
          refine ⟨?_, ?_⟩
          · rintro _ _ ⟨⟩
            exact plain
          · rintro _ ip ⟨_, ⟨⟩, rfl⟩ literal
            exact absurd literal (plain ip)

theorem domain_named_iff (made : MadeOf domain given target) :
    (target.Canonical brackets ∧ ∀ host ip, (∃ name, given = some name ∧ host = name.toList) →
        IsLiteral brackets ip host → target.TreatedAs ip) ↔
      ∀ name ip, given = some name → ¬IsLiteral brackets ip name.toList := by
  rcases made with ⟨⟨addr, rfl⟩, rfl⟩ | ⟨name, port, rfl, rfl⟩
  · refine iff_of_true ⟨canonical_ip brackets addr, ?_⟩ ?_
    · rintro _ _ ⟨_, ⟨⟩, -⟩
    · rintro _ _ ⟨⟩
  · constructor
    · rintro ⟨canonical, -⟩ _ ip ⟨⟩
      exact canonical name port rfl ip
    · intro plain
      refine ⟨?_, ?_⟩
      · rintro _ _ ⟨⟩ ip
        exact plain name ip rfl
      · rintro _ ip ⟨_, ⟨⟩, rfl⟩ literal
        exact absurd literal (plain name ip rfl)

theorem takenFrom_named_iff {text : List Char} (taken : TakenFrom text target) :
    (target.Canonical brackets ∧ ∀ host ip, (∃ after, Reads text host after) →
        IsLiteral brackets ip host → target.TreatedAs ip) ↔
      ∀ host after ip, Reads text host after → IsLiteral brackets ip host →
        WithPort host after := by
  rw [← taken.named_iff]
  refine and_congr_right fun _ => ⟨?_, ?_⟩
  · intro treated host after ip reads
    exact treated host ip ⟨after, reads⟩
  · rintro treated host ip ⟨after, reads⟩
    exact treated host after ip reads

/-- An accepted destination is canonical, and treated by every IP and geoip condition like
every address that the client names in text, exactly when the client names addresses only
where the inbound takes their text for the address. -/
theorem canonical_routedByIp_iff (brackets : Bool) (input : ClientAddress) (target : TargetAddr)
    (taken : input.accepted = some target) :
    (target.Canonical brackets ∧ ∀ host ip, input.Names host → IsLiteral brackets ip host →
        target.TreatedAs ip) ↔ input.NamesAsAddress brackets := by
  cases input with
  | socksStream bytes =>
      simp only [accepted] at taken
      cases read : readFrom bytes with
      | error error => rw [read] at taken; cases taken
      | ok result =>
          rw [read] at taken
          cases taken
          exact ofName_named_iff (madeOf_readFrom read)
  | socksDatagram bytes =>
      simp only [accepted] at taken
      match decodes : decode bytes with
      | .error error => rw [decodes] at taken; cases taken
      | .ok none => rw [decodes] at taken; cases taken
      | .ok (some (result, used)) =>
          rw [decodes] at taken
          cases taken
          exact ofName_named_iff (madeOf_decode decodes)
  | anytlsSyn bytes => exact domain_named_iff (madeOf_anytlsSyn taken)
  | uotPacket bytes => exact domain_named_iff (madeOf_uotPacket taken)
  | vmessHeader bytes => exact domain_named_iff (madeOf_vmessHeader taken)
  | httpConnect path => exact takenFrom_named_iff (Http.takenFrom_parseTarget taken)
  | httpHost text =>
      cases taken
      exact takenFrom_named_iff (Http.takenFrom_hostPort 80 text)
  | httpUrl url =>
      refine Iff.trans (and_congr_right fun _ => ⟨?_, ?_⟩) (Http.parseUrlTarget_named_iff taken)
      · intro treated user host after rest ip reads
        exact treated host ip ⟨user, after, rest, reads⟩
      · rintro treated host ip ⟨user, after, rest, reads⟩
        exact treated user host after rest ip reads

theorem canonical_routedByIp_registered_name :
    (httpHost "www.example:8080".toList).accepted = some (.domain "www.example" 8080) ∧
      TargetAddr.Canonical true (.domain "www.example" 8080) ∧
        ∀ host ip, (httpHost "www.example:8080".toList).Names host → IsLiteral true ip host →
          TargetAddr.TreatedAs (.domain "www.example" 8080) ip := by
  have taken : (httpHost "www.example:8080".toList).accepted =
      some (.domain "www.example" 8080) := by decide
  refine ⟨taken, (canonical_routedByIp_iff true _ _ taken).mpr ?_⟩
  rintro host after ip ⟨whole, follows⟩ literal
  cases host with
  | nil =>
      rcases follows with rfl | ⟨port, rfl, -⟩ <;> cases whole
  | cons char host =>
      obtain rfl : 'w' = char := (List.cons.inj whole).1
      have foreign : NetParser.Foreign 'w' := by
        refine ⟨⟨?_, ?_, ?_⟩, ?_, ?_, ?_⟩ <;> decide
      exact absurd List.mem_cons_self (literal.not_mem foreign)

/-- A rule with the network `192.0.2.0/24`. -/
def networkRule : Rule where
  inboundsTag := []
  protocol := []
  network := []
  port := []
  portRange := []
  domain := []
  domainSuffix := []
  queryType := none
  ipCidr := [fun
    | .v4 addr => addr.a == 192 && addr.b == 0 && addr.c == 2
    | .v6 _ => false]
  reverse := none
  geoip := []

theorem httpHost_literal_not_canonical :
    ∃ target, (httpHost "192.0.2.1".toList).accepted = some target ∧
      (∀ brackets, ¬target.Canonical brackets) ∧
        (networkRule.matchesTarget target "http" (some .tcp) none none).1 = false ∧
          (networkRule.matchesTarget (.ip (.v4 ⟨192, 0, 2, 1⟩ 80)) "http" (some .tcp)
            none none).1 = true := by
  refine ⟨.domain "192.0.2.1" 80, by decide, ?_, by decide, by decide⟩
  intro brackets canonical
  exact canonical _ _ rfl (.v4 ⟨192, 0, 2, 1⟩) (.inl (by decide))

/-- An address in brackets without a port is taken for a name too. -/
example : (httpHost "[2001:db8::1]".toList).accepted = some (.domain "[2001:db8::1]" 80) := by
  decide

end ClientAddress

end QuicProxy
