import QuicProxy.Proxy.Inbound.HttpTargets
import QuicProxy.Proxy.Router.Rule

namespace QuicProxy

/-! Texts that name an IP address, and what the HTTP inbound
(`src/proxy/inbound/http.rs`) makes of the ones with a port and without. -/

open NetParser

/-- The text is that of the address; `brackets` tells whether an IPv6 address in
brackets is one too. -/
def IsLiteral (brackets : Bool) (ip : IpAddr) (text : List Char) : Prop :=
  IpAddr.parse text = some ip ∨
    brackets = true ∧ ∃ v6 scopeId, IsHostV6 v6 scopeId text ∧ ip = .v6 v6

/-- The text of the address as it stands in front of a port. -/
def IsHost (ip : IpAddr) (text : List Char) : Prop :=
  (∃ v4, readIpv4Addr text = some (v4, []) ∧ ip = .v4 v4) ∨
    ∃ v6 scopeId, IsHostV6 v6 scopeId text ∧ ip = .v6 v6

/-- No domain is the text of an IP address. -/
def TargetAddr.Canonical (brackets : Bool) (target : TargetAddr) : Prop :=
  ∀ name port, target = .domain name port → ∀ ip, ¬IsLiteral brackets ip name.toList

/-- What follows a host: nothing, or a port. -/
def IsAfterHost (after : List Char) : Prop :=
  after = [] ∨ ∃ port, after = ':' :: port ∧ (parseUnsigned 65536 port).isSome = true

/-- An address with a port in digits behind it. -/
structure WithPort (host after : List Char) : Prop where
  isHost : ∃ ip, IsHost ip host
  port : ∃ port digits, after = ':' :: digits ∧ IsPort port digits

/-- One way to read the text: as a host, and what follows it. -/
def Reads (text host after : List Char) : Prop := text = host ++ after ∧ IsAfterHost after

variable {brackets : Bool} {ip other : IpAddr} {addr : SocketAddr} {text host after : List Char}
  {target : TargetAddr}

theorem TargetAddr.canonical_ip (brackets : Bool) (addr : SocketAddr) :
    (TargetAddr.ip addr).Canonical brackets := by
  intro name port shape
  cases shape

/-! A text is that of one address. -/

theorem parse_isHostV6 {v6 : Ipv6Addr} {scopeId : UInt32}
    (isHost : IsHostV6 v6 scopeId text) : IpAddr.parse text = none := by
  obtain ⟨inside, rest, rfl, -⟩ := isHost
  have whole : '[' :: inside ++ [']'] = '[' :: (inside ++ [']']) := rfl
  rw [IpAddr.parse, parseWith, readIpAddr, whole, readIpv4Addr_opening, readIpv6Addr_opening]
  rfl

theorem isHostV6_unique {first second : Ipv6Addr} {scopeId otherId : UInt32}
    (one : IsHostV6 first scopeId text) (two : IsHostV6 second otherId text) : first = second := by
  obtain ⟨inside, rest, rfl, read, -⟩ := one
  obtain ⟨inside', rest', same, read', -⟩ := two
  have equal : inside = inside' := List.append_cancel_right (List.cons.inj same).2
  subst equal
  cases read.symm.trans read'
  rfl

theorem IsLiteral.eq_of_parse (literal : IsLiteral brackets ip text)
    (parsed : IpAddr.parse text = some other) : ip = other := by
  rcases literal with here | ⟨-, v6, scopeId, isHost, -⟩
  · exact Option.some.inj (here.symm.trans parsed)
  · cases (parse_isHostV6 isHost).symm.trans parsed

theorem IsLiteral.eq_of_isHost (literal : IsLiteral brackets ip text) (isHost : IsHost other text) :
    ip = other := by
  rcases isHost with ⟨v4, read, rfl⟩ | ⟨v6, scopeId, isHost, rfl⟩
  · exact literal.eq_of_parse (IpAddr.parse_of_readIpv4 read)
  · rcases literal with here | ⟨-, v6', scopeId', isHost', rfl⟩
    · cases (parse_isHostV6 isHost).symm.trans here
    · rw [isHostV6_unique isHost' isHost]

/-! Socket addresses. -/

theorem WithPort.parse (withPort : WithPort host after) : ∃ addr,
    SocketAddr.parse (host ++ after) = some addr ∧ IsHost addr.ip host := by
  obtain ⟨⟨ip, v4 | v6⟩, port, digits, rfl, isPort⟩ := withPort
  · obtain ⟨v4, read, rfl⟩ := v4
    exact ⟨.v4 v4 port, parse_ipv4_port read isPort, .inl ⟨v4, read, rfl⟩⟩
  · obtain ⟨v6, scopeId, isHost, rfl⟩ := v6
    exact ⟨.v6 v6 port 0 scopeId, parse_hostV6_port isHost isPort, .inr ⟨v6, scopeId, isHost, rfl⟩⟩

theorem isPort_of_parseUnsigned {digits : List Char} {value : Nat} (noPlus : '+' ∉ digits)
    (parsed : parseUnsigned 65536 digits = some value) : IsPort (castU16 value) digits := by
  have small := parseUnsigned_lt parsed
  have plain : stripPlus digits = digits := by
    unfold stripPlus
    split
    · exact absurd List.mem_cons_self noPlus
    · rfl
  rw [parseUnsigned, plain] at parsed
  split at parsed
  · cases parsed
  · next some_ =>
      refine ⟨some_, ?_⟩
      rw [(Option.filter_eq_some_iff.mp parsed).1]
      simp [castU16, Nat.mod_eq_of_lt small]

theorem IsLiteral.ne_ip_of_parse (literal : IsLiteral brackets ip text)
    (parsed : SocketAddr.parse text = some addr) : addr.ip ≠ ip := by
  rintro rfl
  rcases literal with here | ⟨-, v6, scopeId, isHost, -⟩
  · cases kind : addr.ip with
    | v4 v4 =>
        rw [kind] at here
        have plain := Http.Host.not_mem_of_read stopsAt_ipv4_colon (IpAddr.parse_v4 here)
        cases (parse_of_noColon plain).symm.trans parsed
    | v6 v6 =>
        rw [kind] at here
        rcases readSocketAddr_whole parsed with read | read
        · obtain ⟨v4, left, port, -, -, rfl⟩ := readSocketAddrV4_parts read
          cases kind
        · obtain ⟨inside, v6', left, closed, port, rfl, -⟩ := readSocketAddrV6_parts read
          have bare := (IpAddr.parse_v6 here).2
          rw [readIpv6Addr_opening] at bare
          cases bare
  · cases (parse_hostV6 isHost).symm.trans parsed

theorem foreign_plus : Foreign '+' := by
  refine ⟨⟨?_, ?_, ?_⟩, ?_, ?_, ?_⟩ <;> decide

/-- A text that names the address of the socket address that it is has its port behind
it. -/
theorem withPort_of_parse (parsed : SocketAddr.parse (host ++ after) = some addr)
    (follows : IsAfterHost after) (literal : IsLiteral brackets addr.ip host) :
    WithPort host after := by
  rcases follows with rfl | ⟨digits, rfl, isSome⟩
  · rw [List.append_nil] at parsed
    exact absurd rfl (literal.ne_ip_of_parse parsed)
  · obtain ⟨value, number⟩ := Option.isSome_iff_exists.mp isSome
    have noPlus : '+' ∉ digits := by
      intro plus
      have none_ := (stopsAt_socketAddr foreign_plus).parseWith_eq_none
        (List.mem_append_right host (List.mem_cons_of_mem ':' plus))
      cases none_.symm.trans parsed
    have isPort := isPort_of_parseUnsigned noPlus number
    refine ⟨?_, _, digits, rfl, isPort⟩
    rcases host_of_parse isPort parsed with ⟨v4, read⟩ | ⟨v6, scopeId, isHost⟩
    · exact ⟨_, .inl ⟨v4, read, rfl⟩⟩
    · exact ⟨_, .inr ⟨v6, scopeId, isHost, rfl⟩⟩

/-! What is made of a text. -/

/-- The target is the socket address that the text is, or a host of the text. -/
def TakenFrom (text : List Char) (target : TargetAddr) : Prop :=
  (∃ addr, SocketAddr.parse text = some addr ∧ target = .ip addr) ∨
    SocketAddr.parse text = none ∧ ∃ host after port, Reads text host after ∧
      target = .domain (String.ofList host) port

theorem Http.takenFrom_domainPort (unparsed : SocketAddr.parse text = none)
    (found : Http.domainPort text = some target) : TakenFrom text target := by
  unfold Http.domainPort at found
  split at found
  · cases found
  · next host digits splits =>
      obtain ⟨value, parsed, rfl⟩ := Option.map_eq_some_iff.mp found
      refine .inr ⟨unparsed, host, _, _, ⟨rsplitOnce_eq_some splits, .inr ⟨digits, rfl, ?_⟩⟩, rfl⟩
      rw [parsed]
      rfl

theorem Http.takenFrom_hostPort (defaultPort : UInt16) (text : List Char) :
    TakenFrom text (Http.hostPort defaultPort text) := by
  unfold Http.hostPort
  split
  · next addr parsed => exact .inl ⟨addr, parsed, rfl⟩
  · next unparsed =>
      cases found : Http.domainPort text with
      | some target => exact Http.takenFrom_domainPort unparsed found
      | none =>
          exact .inr ⟨unparsed, text, [], defaultPort, ⟨(List.append_nil text).symm, .inl rfl⟩, rfl⟩

theorem Http.takenFrom_parseTarget (taken : (Http.parseTarget text).toOption = some target) :
    TakenFrom text target := by
  unfold Http.parseTarget at taken
  split at taken
  · next addr parsed =>
      cases taken
      exact .inl ⟨addr, parsed, rfl⟩
  · next unparsed =>
      split at taken
      · next found =>
          cases taken
          exact Http.takenFrom_domainPort unparsed found
      · cases taken

/-- What is taken from a text is treated like every address that the text names, and is
no such text itself, exactly if it names addresses with a port only. -/
theorem TakenFrom.named_iff (taken : TakenFrom text target) :
    (target.Canonical brackets ∧
        ∀ host after ip, Reads text host after → IsLiteral brackets ip host →
          target.TreatedAs ip) ↔
      ∀ host after ip, Reads text host after → IsLiteral brackets ip host →
        WithPort host after := by
  constructor
  · rintro ⟨-, treated⟩ host after ip ⟨rfl, follows⟩ literal
    obtain ⟨addr, rfl, rfl⟩ :=
      TargetAddr.treatedAs_iff.mp (treated host after ip ⟨rfl, follows⟩ literal)
    rcases taken with ⟨addr', parsed, same⟩ | ⟨-, _, _, _, -, ⟨⟩⟩
    cases same
    exact withPort_of_parse parsed follows literal
  · intro ports
    rcases taken with ⟨addr, parsed, rfl⟩ | ⟨unparsed, host, after, port, reads, rfl⟩
    · refine ⟨TargetAddr.canonical_ip brackets addr, fun host after ip reads literal => ?_⟩
      obtain ⟨addr', parsed', isHost⟩ := (ports host after ip reads literal).parse
      rw [← reads.1] at parsed'
      cases parsed.symm.trans parsed'
      exact TargetAddr.treatedAs_iff.mpr ⟨addr, rfl, (literal.eq_of_isHost isHost).symm⟩
    · have unnamed (host after : List Char) (ip : IpAddr) (reads : Reads text host after) :
          ¬IsLiteral brackets ip host := by
        intro literal
        obtain ⟨addr, parsed, -⟩ := (ports host after ip reads literal).parse
        rw [← reads.1] at parsed
        cases unparsed.symm.trans parsed
      refine ⟨?_, fun host after ip reads literal => absurd literal (unnamed host after ip reads)⟩
      rintro _ _ ⟨⟩ ip
      rw [String.toList_ofList]
      exact unnamed host after ip reads

/-! URLs. -/

/-- All of the URL behind its scheme, if it has one of the two. -/
def Http.behindScheme (url : List Char) : List Char :=
  (Http.stripStart "http://".toList url <|> Http.stripStart "https://".toList url).getD url

/-- User information with its mark, or none. -/
def IsUser (user : List Char) : Prop :=
  user = [] ∨ ∃ info, user = info ++ ['@'] ∧ ∀ mark ∈ ['/', '?', '#'], mark ∉ info

/-- What follows the authority: nothing, a path, a query or a fragment. -/
def IsBehindAuthority (rest : List Char) : Prop :=
  rest = [] ∨ ∃ mark ∈ ['/', '?', '#'], ∃ more, rest = mark :: more

/-- One way to read the URL: its user information, its host, what follows the host, and
all the rest. -/
structure UrlReads (url user host after rest : List Char) : Prop where
  whole : Http.behindScheme url = user ++ (host ++ after) ++ rest
  user : IsUser user
  after : IsAfterHost after
  rest : IsBehindAuthority rest

/-- Without user information, and with nothing but a path behind the address and its
port. -/
structure UrlPlain (user host after rest : List Char) : Prop extends WithPort host after where
  user : user = []
  rest : rest = [] ∨ ∃ more, rest = '/' :: more

variable {url user rest : List Char}

theorem Http.urlAuthority_eq (url : List Char) :
    Http.urlAuthority url = (Http.behindScheme url).takeWhile (· != '/') := rfl

theorem IsAfterHost.noSlash (follows : IsAfterHost after) : '/' ∉ after := by
  rcases follows with rfl | ⟨digits, rfl, isSome⟩
  · exact List.not_mem_nil
  · obtain ⟨value, number⟩ := Option.isSome_iff_exists.mp isSome
    have plain : '/' ∉ digits := by
      intro slash
      rcases isDigit_of_parseUnsigned number '/' slash with plus | digit
      · cases plus
      · cases digit
    simpa using plain

theorem foreign_slash : Foreign '/' := by
  refine ⟨⟨?_, ?_, ?_⟩, ?_, ?_, ?_⟩ <;> decide

/-- A text that names an address has no character that is foreign to socket addresses. -/
theorem IsLiteral.not_mem {mark : Char} (foreign : Foreign mark)
    (literal : IsLiteral brackets ip host) : mark ∉ host := by
  rcases literal with here | ⟨-, v6, scopeId, isHost, -⟩
  · cases ip with
    | v4 v4 =>
        exact Http.Host.not_mem_of_read (stopsAt_ipv4 (toDigit_ten foreign.noDigit) foreign.noDot)
          (IpAddr.parse_v4 here)
    | v6 v6 =>
        exact Http.Host.not_mem_of_read (stopsAt_ipv6 foreign.toOutsideV6) (IpAddr.parse_v6 here).2
  · intro inside
    have parsed := parse_hostV6_port isHost (isPort_toDigits 80)
    have none_ := (stopsAt_socketAddr foreign).parseWith_eq_none
      (List.mem_append_left (':' :: Nat.toDigits 10 (80 : UInt16).toNat) inside)
    cases none_.symm.trans parsed

theorem UrlReads.authority (reads : UrlReads url user host after rest)
    (literal : IsLiteral brackets ip host) (plain : '/' ∉ user) :
    Http.urlAuthority url = user ++ (host ++ after) ++ rest.takeWhile (· != '/') := by
  have front : '/' ∉ user ++ (host ++ after) := by
    simp [plain, literal.not_mem foreign_slash, reads.after.noSlash]
  rw [Http.urlAuthority_eq, reads.whole, Http.takeWhile_append_of_not_mem front]

theorem IsUser.noSlash (isUser : IsUser user) : '/' ∉ user := by
  rcases isUser with rfl | ⟨info, rfl, plain⟩
  · exact List.not_mem_nil
  · simpa using plain '/' List.mem_cons_self

theorem UrlReads.reads (reads : UrlReads url user host after rest)
    (literal : IsLiteral brackets ip host) (user_nil : user = [])
    (path : rest = [] ∨ ∃ more, rest = '/' :: more) :
    Reads (Http.urlAuthority url) host after := by
  refine ⟨?_, reads.after⟩
  rw [reads.authority literal reads.user.noSlash, user_nil]
  rcases path with rfl | ⟨more, rfl⟩ <;> simp

theorem urlReads_of_reads (reads : Reads (Http.urlAuthority url) host after) :
    UrlReads url [] host after ((Http.behindScheme url).dropWhile (· != '/')) where
  whole := by
    rw [List.nil_append, ← reads.1, Http.urlAuthority_eq, List.takeWhile_append_dropWhile]
  user := .inl rfl
  after := reads.2
  rest := by
    have first := List.head?_dropWhile_not (· != '/') (Http.behindScheme url)
    cases behind : (Http.behindScheme url).dropWhile (· != '/') with
    | nil => exact .inl rfl
    | cons mark more =>
        rw [behind] at first
        refine .inr ⟨mark, ?_, more, rfl⟩
        have slash : mark = '/' := by simpa using first
        rw [slash]
        exact List.mem_cons_self

/-- Where the authority is a socket address, an IP address in the URL stands there with
its port. -/
theorem UrlReads.plain_of_parse (reads : UrlReads url user host after rest)
    (parsed : SocketAddr.parse (Http.urlAuthority url) = some addr)
    (literal : IsLiteral brackets addr.ip host) : UrlPlain user host after rest := by
  have absent (mark : Char) (among : mark ∈ ['@', '?', '#']) : mark ∉ Http.urlAuthority url := by
    intro inside
    have none_ := (stopsAt_socketAddr
      (Http.Url.unhosted_of_mem mark among).toForeign).parseWith_eq_none inside
    cases none_.symm.trans parsed
  have authority := reads.authority literal reads.user.noSlash
  have noUser : user = [] := by
    rcases reads.user with nothing | ⟨info, rfl, -⟩
    · exact nothing
    · refine absurd ?_ (absent '@' (by decide))
      rw [authority]
      simp
  have path : rest = [] ∨ ∃ more, rest = '/' :: more := by
    rcases reads.rest with nothing | ⟨mark, among, more, rfl⟩
    · exact .inl nothing
    · by_cases slash : mark = '/'
      · exact .inr ⟨more, by rw [slash]⟩
      · have other : mark ∈ ['@', '?', '#'] := by simp_all
        refine absurd ?_ (absent mark other)
        rw [authority]
        simp [slash]
  have whole := reads.reads literal noUser path
  rw [whole.1] at parsed
  exact { withPort_of_parse parsed whole.2 literal with user := noUser, rest := path }

/-- What is taken from a URL is treated like every address that the URL names, and is no
such text itself, exactly if it names addresses with a port only, without user information
and without a query or a fragment directly behind. -/
theorem Http.parseUrlTarget_named_iff (taken : (Http.parseUrlTarget url).toOption = some target) :
    (target.Canonical brackets ∧
        ∀ user host after rest ip, UrlReads url user host after rest →
          IsLiteral brackets ip host → target.TreatedAs ip) ↔
      ∀ user host after rest ip, UrlReads url user host after rest →
        IsLiteral brackets ip host → UrlPlain user host after rest := by
  cases taken
  have taken := Http.takenFrom_hostPort
    (if (Http.stripStart "https://".toList url).isSome then 443 else 80) (Http.urlAuthority url)
  constructor
  · rintro ⟨-, treated⟩ user host after rest ip reads literal
    obtain ⟨addr, same, rfl⟩ :=
      TargetAddr.treatedAs_iff.mp (treated user host after rest ip reads literal)
    rw [same] at taken
    rcases taken with ⟨addr', parsed, same⟩ | ⟨-, _, _, _, -, ⟨⟩⟩
    cases same
    exact reads.plain_of_parse parsed literal
  · intro plain
    have named := taken.named_iff.mpr fun host after ip reads literal =>
      (plain [] host after _ ip (urlReads_of_reads reads) literal).toWithPort
    refine ⟨named.1, fun user host after rest ip reads literal => ?_⟩
    have here := plain user host after rest ip reads literal
    exact named.2 host after ip (reads.reads literal here.user here.rest) literal

end QuicProxy
