import QuicProxy.Proxy.TargetAddr

namespace QuicProxy

/-! Routing rules and their conditions (`src/proxy/router/rule.rs` and
`src/proxy/router/geoip.rs`). -/

inductive NetworkType where
  | tcp
  | udp
deriving DecidableEq

inductive QType where
  | a
  | aaaa
  | other (code : UInt16)
deriving DecidableEq

structure Geoip where
  cache : Option (String → Option Bool)
  dns : String → Except String IpAddr
  db : IpAddr → Option String
  ipCountry : List String

/-- `resolve_target_base2` (`src/dns/mod.rs`). -/
def resolveTargetBase2 (target : TargetAddr) (dns : String → Except String IpAddr) :
    Except String IpAddr :=
  match target with
  | .ip addr => .ok addr.ip
  | .domain name _ => dns name

def Geoip.lookup (geoip : Geoip) (target : TargetAddr) : Except String Bool :=
  match geoip.cache.bind (· target.host) with
  | some result => .ok result
  | none =>
      match resolveTargetBase2 target geoip.dns with
      | .error error => .error error
      | .ok ip => .ok ((geoip.db ip).any (geoip.ipCountry.contains ·))

def eqIgnoreAsciiCase (first second : Bytes) : Bool :=
  let lower (byte : UInt8) : UInt8 :=
    if 65 ≤ byte ∧ byte ≤ 90 then byte + 32 else byte
  first.map lower == second.map lower

def domainMatchesSuffix (domain suffix : String) : Bool :=
  let domain := asBytes domain
  let suffix := asBytes suffix
  if suffix.isEmpty || decide (domain.length < suffix.length) then false
  else
    let start := domain.length - suffix.length
    eqIgnoreAsciiCase (domain.drop start) suffix &&
      (start == 0 || domain[start - 1]? == some 46)

/-- The conditions of a rule; an absent list is an empty one, except for the
query types, where an empty list matches nothing.  A network is given by the addresses
that it contains (`IpNet::contains`). -/
structure Rule where
  inboundsTag : List String
  protocol : List String
  network : List NetworkType
  port : List UInt16
  portRange : List (UInt16 × UInt16)
  domain : List String
  domainSuffix : List String
  queryType : Option (List QType)
  ipCidr : List (IpAddr → Bool)
  reverse : Option (IpAddr → Option String)
  geoip : List Geoip

namespace Rule

def listCondition [BEq α] (list : List α) (value : Option α) : Bool :=
  list.isEmpty || value.any (list.contains ·)

def inboundsMatch (rule : Rule) (inboundTag : String) : Bool :=
  listCondition rule.inboundsTag (some inboundTag)

def protocolMatch (rule : Rule) (protocol : Option String) : Bool :=
  listCondition rule.protocol protocol

def networkMatch (rule : Rule) (network : Option NetworkType) : Bool :=
  listCondition rule.network network

def portMatch (rule : Rule) (target : TargetAddr) : Bool :=
  (rule.port.isEmpty && rule.portRange.isEmpty) || rule.port.contains target.port ||
    rule.portRange.any fun (first, last) =>
      decide (first ≤ target.port) && decide (target.port ≤ last)

def domainMatch (rule : Rule) (target : TargetAddr) : Bool :=
  (rule.domain.isEmpty && rule.domainSuffix.isEmpty) ||
    match target with
    | .domain name _ =>
        rule.domain.any (fun domain => eqIgnoreAsciiCase (asBytes name) (asBytes domain)) ||
          rule.domainSuffix.any (domainMatchesSuffix name)
    | .ip _ => false

def queryTypeMatch (rule : Rule) (queryType : Option QType) : Bool :=
  match rule.queryType with
  | none => true
  | some types => queryType.any (types.contains ·)

def ipCidrMatch (rule : Rule) (target : TargetAddr) : Bool :=
  rule.ipCidr.isEmpty ||
    match target with
    | .ip addr => rule.ipCidr.any (· addr.ip)
    | .domain _ _ => false

def geoipMatch (rule : Rule) (target : TargetAddr) : Bool :=
  rule.geoip.isEmpty || rule.geoip.any fun geoip =>
    match geoip.lookup target with
    | .ok found => found
    | .error _ => false

/-- `Rule::matches`: whether the rule matches, and the domain that a reverse
lookup puts in the place of the target. -/
def matchesTarget (rule : Rule) (target : TargetAddr) (inboundTag : String)
    (network : Option NetworkType) (protocol : Option String)
    (queryType : Option QType) : Bool × Option TargetAddr :=
  if !rule.inboundsMatch inboundTag then (false, none)
  else if !rule.protocolMatch protocol then (false, none)
  else if !rule.networkMatch network then (false, none)
  else if !rule.portMatch target then (false, none)
  else if !rule.domainMatch target then (false, none)
  else if !rule.queryTypeMatch queryType then (false, none)
  else if !rule.ipCidrMatch target then (false, none)
  else
    match rule.reverse with
    | some reverse =>
        -- A reverse lookup decides the rule; its geoip lists are not looked at.
        match target with
        | .ip addr =>
            match reverse addr.ip with
            | some name => (true, some (.domain name addr.port))
            | none => (false, none)
        | .domain _ _ => (false, none)
    | none => if !rule.geoipMatch target then (false, none) else (true, none)

end Rule

/-! Requests that name an IP address. -/

/-- Every IP and geoip condition treats the target like this address. -/
def TargetAddr.TreatedAs (target : TargetAddr) (ip : IpAddr) : Prop :=
  ∀ rule : Rule,
    rule.ipCidrMatch target = rule.ipCidrMatch (.ip (SocketAddr.new ip target.port)) ∧
      rule.geoipMatch target = rule.geoipMatch (.ip (SocketAddr.new ip target.port))

theorem Geoip.lookup_ip (geoip : Geoip) {first second : SocketAddr}
    (same : first.ip = second.ip) :
    geoip.lookup (.ip first) = geoip.lookup (.ip second) := by
  simp only [lookup, TargetAddr.host, resolveTargetBase2, same]

/-- A rule whose one network is this address. -/
def Rule.onlyIp (ip : IpAddr) : Rule where
  inboundsTag := []
  protocol := []
  network := []
  port := []
  portRange := []
  domain := []
  domainSuffix := []
  queryType := none
  ipCidr := [fun other => decide (other = ip)]
  reverse := none
  geoip := []

theorem TargetAddr.treatedAs_iff {target : TargetAddr} {ip : IpAddr} :
    target.TreatedAs ip ↔ ∃ addr, target = .ip addr ∧ addr.ip = ip := by
  constructor
  · intro treated
    have matched := (treated (Rule.onlyIp ip)).1
    cases target with
    | domain name port =>
        simp [Rule.ipCidrMatch, Rule.onlyIp] at matched
    | ip addr =>
        refine ⟨addr, rfl, ?_⟩
        simpa [Rule.ipCidrMatch, Rule.onlyIp] using matched
  · rintro ⟨addr, rfl, rfl⟩ rule
    have same : addr.ip = (SocketAddr.new addr.ip (TargetAddr.ip addr).port).ip := by
      rw [SocketAddr.ip_new]
    refine ⟨?_, ?_⟩
    · simp only [Rule.ipCidrMatch, ← same]
    · simp only [Rule.geoipMatch, Geoip.lookup_ip _ same]

end QuicProxy
