import QuicProxy.Net.Ports
import QuicProxy.Proxy.Http

namespace QuicProxy

/-! The targets of HTTP requests as URIs name them, and which of them
`parse_host_header` and `parse_url_target` (`src/proxy/inbound/http.rs`) read. -/

namespace Http

open NetParser

/-! The form of a URI. -/

def isHexDigit (char : Char) : Bool :=
  char.isDigit || "abcdefABCDEF".toList.contains char

def isNameChar (char : Char) : Bool :=
  char.isAlphanum || "-._~!$&'()*+,;=".toList.contains char

def isUserinfoChar (char : Char) : Bool := isNameChar char || char == ':'

def isSegmentChar (char : Char) : Bool := isNameChar char || char == ':' || char == '@'

def isQueryChar (char : Char) : Bool := isSegmentChar char || char == '/' || char == '?'

/-- Characters of a kind, and bytes written with a percent sign. -/
def encoded (allowed : Char → Bool) : List Char → Bool
  | [] => true
  | '%' :: high :: low :: rest => isHexDigit high && isHexDigit low && encoded allowed rest
  | char :: rest => allowed char && encoded allowed rest

abbrev Component (allowed : Char → Bool) := { text : List Char // encoded allowed text = true }

inductive Host where
  | name (text : Component isNameChar) (nonempty : text.val ≠ [])
      (noV4 : ∀ ip, readIpv4Addr text.val ≠ some (ip, []))
  | v4 (text : List Char) (ip : Ipv4Addr) (read : readIpv4Addr text = some (ip, []))
  | v6 (text : List Char) (ip : Ipv6Addr) (read : readIpv6Addr text = some (ip, []))

def Host.text : Host → List Char
  | name text _ _ => text.val
  | v4 text _ _ => text
  | v6 text _ _ => '[' :: text ++ [']']

def Host.target (port : UInt16) : Host → TargetAddr
  | name text _ _ => .domain (String.ofList text.val) port
  | v4 _ ip _ => .ip (.new (.v4 ip) port)
  | v6 _ ip _ => .ip (.new (.v6 ip) port)

structure Port where
  digits : List Char
  value : UInt16
  isPort : IsPort value digits

structure Authority where
  host : Host
  port : Option Port

def Authority.text (authority : Authority) : List Char :=
  authority.host.text ++ authority.port.elim [] fun port => ':' :: port.digits

def Authority.target (authority : Authority) (defaultPort : UInt16) : TargetAddr :=
  authority.host.target (authority.port.elim defaultPort (·.value))

structure Url where
  https : Bool
  userinfo : Option (Component isUserinfoChar)
  authority : Authority
  path : List (Component isSegmentChar)
  query : Option (Component isQueryChar)
  fragment : Option (Component isQueryChar)

namespace Url

variable (url : Url)

def scheme : List Char := if url.https then "https://".toList else "http://".toList

def user : List Char := url.userinfo.elim [] fun userinfo => userinfo.val ++ ['@']

def pathText : List Char := url.path.flatMap fun segment => '/' :: segment.val

def rest : List Char :=
  (url.query.elim [] fun query => '?' :: query.val) ++
    url.fragment.elim [] fun fragment => '#' :: fragment.val

def text : List Char :=
  url.scheme ++ (url.user ++ url.authority.text ++ (url.pathText ++ url.rest))

def target : TargetAddr := url.authority.target (if url.https then 443 else 80)

end Url

/-! What the parsers read. -/

/-- A name, or an address with a port. -/
def Authority.Plain (authority : Authority) : Prop :=
  authority.port.isSome ∨ ∃ text nonempty noV4, authority.host = .name text nonempty noV4

/-- No user information, and a path before any query or fragment. -/
def Url.Plain (url : Url) : Prop :=
  url.userinfo = none ∧ (url.path ≠ [] ∨ url.query = none ∧ url.fragment = none) ∧
    url.authority.Plain

theorem not_mem_of_encoded {allowed : Char → Bool} {char : Char} (other : allowed char = false)
    (noHex : isHexDigit char = false) (noPercent : char ≠ '%') {text : List Char}
    (isEncoded : encoded allowed text = true) : char ∉ text := by
  induction text using encoded.induct with
  | case1 => exact List.not_mem_nil
  | case2 high low rest ih =>
      simp only [encoded, Bool.and_eq_true] at isEncoded
      obtain ⟨⟨hexHigh, hexLow⟩, later⟩ := isEncoded
      simp only [List.mem_cons, not_or]
      refine ⟨noPercent, ?_, ?_, ih later⟩
      · rintro rfl
        rw [noHex] at hexHigh
        cases hexHigh
      · rintro rfl
        rw [noHex] at hexLow
        cases hexLow
  | case3 first rest _ ih =>
      rw [encoded, Bool.and_eq_true] at isEncoded
      · obtain ⟨here, later⟩ := isEncoded
        simp only [List.mem_cons, not_or]
        refine ⟨?_, ih later⟩
        rintro rfl
        rw [other] at here
        cases here
      · assumption

theorem hostPort_of_parse {text : List Char} {addr : SocketAddr} (defaultPort : UInt16)
    (parsed : SocketAddr.parse text = some addr) : hostPort defaultPort text = .ip addr := by
  rw [hostPort, parsed]

theorem hostPort_of_none {text : List Char} (defaultPort : UInt16)
    (unparsed : SocketAddr.parse text = none) :
    hostPort defaultPort text =
      (domainPort text).getD (.domain (String.ofList text) defaultPort) := by
  rw [hostPort, unparsed]

theorem hostPort_ne_ip {text : List Char} (defaultPort : UInt16)
    (unparsed : SocketAddr.parse text = none) (addr : SocketAddr) :
    hostPort defaultPort text ≠ .ip addr := by
  rw [hostPort_of_none defaultPort unparsed, domainPort]
  intro same
  split at same
  · cases same
  · next port _ => cases read : parseUnsigned 65536 port <;> rw [read] at same <;> cases same

theorem hostPort_named {text digits : List Char} {port : UInt16} (defaultPort : UInt16)
    (isPort : IsPort port digits) (unparsed : SocketAddr.parse (text ++ ':' :: digits) = none) :
    hostPort defaultPort (text ++ ':' :: digits) = .domain (String.ofList text) port := by
  rw [hostPort_of_none defaultPort unparsed, domainPort,
    rsplitOnce_append (isPort.not_mem (by decide))]
  simp [isPort.parseUnsigned, castU16]

theorem hostPort_bare {text : List Char} (defaultPort : UInt16) (plain : ':' ∉ text) :
    hostPort defaultPort text = .domain (String.ofList text) defaultPort := by
  rw [hostPort_of_none defaultPort (parse_of_noColon plain), domainPort,
    rsplitOnce_of_not_mem plain]
  rfl

/-- A character that belongs to no address and no number ends up in the name. -/
theorem hostPort_keeps {mark : Char} {text : List Char} (defaultPort : UInt16)
    (foreign : Foreign mark) (noNumber : mark ≠ '+' ∧ decimalDigit mark = none)
    (among : mark ∈ text) :
    ∃ name port, hostPort defaultPort text = .domain (String.ofList name) port ∧ mark ∈ name := by
  have unparsed : SocketAddr.parse text = none :=
    (stopsAt_socketAddr foreign).parseWith_eq_none among
  rw [hostPort_of_none defaultPort unparsed, domainPort]
  split
  · exact ⟨text, defaultPort, rfl, among⟩
  · next host port splits =>
      cases read : parseUnsigned 65536 port with
      | none => exact ⟨text, defaultPort, rfl, among⟩
      | some value =>
          refine ⟨host, castU16 value, rfl, ?_⟩
          rw [rsplitOnce_eq_some splits] at among
          rcases List.mem_append.mp among with front | back
          · exact front
          · rcases List.mem_cons.mp back with colon | digit
            · exact absurd colon foreign.noColon
            · rcases isDigit_of_parseUnsigned read mark digit with plus | decimal
              · exact absurd plus noNumber.1
              · rw [noNumber.2] at decimal
                cases decimal

/-! Hosts. -/

namespace Host

theorem isHostV6_of_read {text : List Char} {ip : Ipv6Addr}
    (read : readIpv6Addr text = some (ip, [])) : IsHostV6 ip 0 ('[' :: text ++ [']']) :=
  ⟨text, [], rfl, read, rfl⟩

/-- A text that is read whole has none of the characters its reader stops at. -/
theorem not_mem_of_read {reader : List Char → Option (α × List Char)} {stop : Char}
    (stops : StopsAt stop reader) {text : List Char} {value : α}
    (read : reader text = some (value, [])) : stop ∉ text := by
  intro among
  have none_ := stops.parseWith_eq_none among
  rw [parseWith, read] at none_
  cases none_

end Host

theorem Authority.read_iff (authority : Authority) (defaultPort : UInt16) :
    hostPort defaultPort authority.text = authority.target defaultPort ↔ authority.Plain := by
  obtain ⟨host, port⟩ := authority
  cases host with
  | name text nonempty noV4 =>
      have noColon : ':' ∉ text.val :=
        not_mem_of_encoded (by decide) (by decide) (by decide) text.property
      have noOpening : '[' ∉ text.val :=
        not_mem_of_encoded (by decide) (by decide) (by decide) text.property
      have read : hostPort defaultPort (Authority.mk (.name text nonempty noV4) port).text =
          (Authority.mk (.name text nonempty noV4) port).target defaultPort := by
        cases port with
        | none =>
            simp only [Authority.text, Option.elim_none, List.append_nil]
            exact hostPort_bare defaultPort noColon
        | some port =>
            apply hostPort_named defaultPort port.isPort
            apply Option.eq_none_iff_forall_ne_some.mpr
            intro addr parsed
            rcases host_of_parse port.isPort parsed with ⟨ip, read⟩ |
              ⟨ip, scopeId, inside, rest, bracketed, _⟩
            · exact noV4 ip read
            · apply noOpening
              have whole : text.val = '[' :: inside ++ [']'] := bracketed
              rw [whole]
              exact List.mem_cons_self
      exact iff_of_true read (.inr ⟨text, nonempty, noV4, rfl⟩)
  | v4 text ip read =>
      cases port with
      | some port =>
          refine iff_of_true ?_ (.inl rfl)
          exact hostPort_of_parse defaultPort (parse_ipv4_port read port.isPort)
      | none =>
          refine iff_of_false ?_ ?_
          · apply hostPort_ne_ip
            simp only [Authority.text, Option.elim_none, List.append_nil]
            exact parse_of_noColon (Host.not_mem_of_read stopsAt_ipv4_colon read)
          · rintro (given | ⟨_, _, _, same⟩)
            · cases given
            · cases same
  | v6 text ip read =>
      have isHost := Host.isHostV6_of_read read
      cases port with
      | some port =>
          refine iff_of_true ?_ (.inl rfl)
          exact hostPort_of_parse defaultPort (parse_hostV6_port isHost port.isPort)
      | none =>
          refine iff_of_false ?_ ?_
          · apply hostPort_ne_ip
            simp only [Authority.text, Option.elim_none, List.append_nil]
            exact parse_hostV6 isHost
          · rintro (given | ⟨_, _, _, same⟩)
            · cases given
            · cases same

/-! URLs. -/

theorem stripStart_append (start text : List Char) :
    stripStart start (start ++ text) = some text := by
  induction start with
  | nil => rfl
  | cons char start ih => rw [List.cons_append, stripStart, if_pos rfl, ih]

theorem takeWhile_append_of_not_mem {mark : Char} {front : List Char} (plain : mark ∉ front)
    (back : List Char) :
    (front ++ back).takeWhile (· != mark) = front ++ back.takeWhile (· != mark) := by
  apply List.takeWhile_append_of_pos
  intro char member
  exact bne_iff_ne.mpr fun same => plain (same ▸ member)

theorem Host.noSlash (host : Host) : '/' ∉ host.text := by
  have outside : OutsideV6 '/' := ⟨by decide, by decide, by decide⟩
  cases host with
  | name text _ _ => exact not_mem_of_encoded (by decide) (by decide) (by decide) text.property
  | v4 text ip read => exact not_mem_of_read (stopsAt_ipv4 (by decide) (by decide)) read
  | v6 text ip read =>
      have inside := not_mem_of_read (stopsAt_ipv6 outside) read
      simpa [Host.text] using inside

theorem Authority.noSlash (authority : Authority) : '/' ∉ authority.text := by
  obtain ⟨host, port⟩ := authority
  have front := host.noSlash
  cases port with
  | none => simpa [Authority.text] using front
  | some port =>
      have back : '/' ∉ port.digits := port.isPort.not_mem (by decide)
      simp [Authority.text, front, back]

namespace Url

variable (url : Url)

theorem user_noSlash : '/' ∉ url.user := by
  rw [user]
  cases url.userinfo with
  | none => exact List.not_mem_nil
  | some userinfo =>
      have plain : '/' ∉ userinfo.val :=
        not_mem_of_encoded (by decide) (by decide) (by decide) userinfo.property
      simp [plain]

theorem urlAuthority_text : urlAuthority url.text =
    url.user ++ url.authority.text ++ (url.pathText ++ url.rest).takeWhile (· != '/') := by
  have stripped : (stripStart "http://".toList url.text <|>
      stripStart "https://".toList url.text).getD url.text =
        url.user ++ url.authority.text ++ (url.pathText ++ url.rest) := by
    rw [text, scheme]
    cases url.https with
    | true =>
        have other : ∀ rest, stripStart "http://".toList ("https://".toList ++ rest) = none :=
          fun _ => rfl
        simp only [if_true, other, stripStart_append]
        rfl
    | false =>
        simp only [Bool.false_eq_true, if_false, stripStart_append]
        rfl
  have front : '/' ∉ url.user ++ url.authority.text := by
    simp [url.user_noSlash, url.authority.noSlash]
  rw [urlAuthority, stripped, takeWhile_append_of_not_mem front]

theorem defaultPort_text :
    (if (stripStart "https://".toList url.text).isSome then 443 else 80 : UInt16) =
      if url.https then 443 else 80 := by
  rw [text, scheme]
  cases url.https with
  | true => simp only [if_true, stripStart_append, Option.isSome_some]
  | false => rfl

theorem parseUrlTarget_text : parseUrlTarget url.text =
    .ok (hostPort (if url.https then 443 else 80) (urlAuthority url.text)) := by
  simp only [parseUrlTarget, url.defaultPort_text]

/-- Not found in any host. -/
structure Unhosted (mark : Char) : Prop extends Foreign mark where
  noPlus : mark ≠ '+'
  noDecimal : decimalDigit mark = none
  noName : isNameChar mark = false
  noHex : isHexDigit mark = false

theorem not_read_of_mem {mark : Char} (unhosted : Unhosted mark)
    (among : mark ∈ urlAuthority url.text) : parseUrlTarget url.text ≠ .ok url.target := by
  obtain ⟨name, port, read, within⟩ := hostPort_keeps (if url.https then 443 else 80)
    unhosted.toForeign ⟨unhosted.noPlus, unhosted.noDecimal⟩ among
  rw [parseUrlTarget_text, read]
  intro same
  have target := Except.ok.inj same
  rw [Url.target, Authority.target] at target
  cases host : url.authority.host with
  | name text nonempty noV4 =>
      rw [host] at target
      obtain ⟨names, _⟩ := TargetAddr.domain.inj target
      rw [String.ofList_injective names] at within
      exact not_mem_of_encoded unhosted.noName unhosted.noHex unhosted.noPercent text.property
        within
  | v4 text ip inside =>
      rw [host] at target
      cases target
  | v6 text ip inside =>
      rw [host] at target
      cases target

theorem unhosted_of_mem (mark : Char) (among : mark ∈ ['@', '?', '#']) : Unhosted mark := by
  simp only [List.mem_cons, List.not_mem_nil, or_false] at among
  rcases among with rfl | rfl | rfl <;>
    refine ⟨⟨⟨?_, ?_, ?_⟩, ?_, ?_, ?_⟩, ?_, ?_, ?_, ?_⟩ <;> decide

variable {url}

theorem not_read_of_userinfo (given : url.userinfo ≠ none) :
    parseUrlTarget url.text ≠ .ok url.target := by
  obtain ⟨userinfo, given⟩ := Option.ne_none_iff_exists'.mp given
  apply url.not_read_of_mem (unhosted_of_mem '@' (by decide))
  rw [urlAuthority_text, user, given]
  simp

theorem not_read_of_rest (noPath : url.path = [])
    (given : ¬ (url.query = none ∧ url.fragment = none)) :
    parseUrlTarget url.text ≠ .ok url.target := by
  cases query : url.query with
  | some text =>
      apply url.not_read_of_mem (unhosted_of_mem '?' (by decide))
      rw [urlAuthority_text, pathText, noPath, rest, query]
      simp
  | none =>
      cases fragment : url.fragment with
      | none => exact absurd ⟨query, fragment⟩ given
      | some text =>
          apply url.not_read_of_mem (unhosted_of_mem '#' (by decide))
          rw [urlAuthority_text, pathText, noPath, rest, query, fragment]
          simp

theorem urlAuthority_of_plain (noUser : url.userinfo = none)
    (closed : url.path ≠ [] ∨ url.query = none ∧ url.fragment = none) :
    urlAuthority url.text = url.authority.text := by
  have nothing : (url.pathText ++ url.rest).takeWhile (· != '/') = [] := by
    rw [pathText, rest]
    cases path : url.path with
    | cons segment path => rfl
    | nil =>
        rcases closed with some_ | ⟨noQuery, noFragment⟩
        · exact absurd path some_
        · rw [noQuery, noFragment]
          rfl
  rw [urlAuthority_text, nothing, user, noUser]
  simp

theorem read_iff : parseUrlTarget url.text = .ok url.target ↔ url.Plain := by
  by_cases noUser : url.userinfo = none
  · by_cases closed : url.path ≠ [] ∨ url.query = none ∧ url.fragment = none
    · rw [parseUrlTarget_text, urlAuthority_of_plain noUser closed, Except.ok.injEq]
      exact (url.authority.read_iff _).trans
        ⟨fun plain => ⟨noUser, closed, plain⟩, fun plain => plain.2.2⟩
    · refine iff_of_false ?_ fun plain => closed plain.2.1
      have parts := not_or.mp closed
      exact not_read_of_rest (Decidable.not_not.mp parts.1) parts.2
  · exact iff_of_false (not_read_of_userinfo noUser) fun plain => noUser plain.1

end Url

theorem targets_read_iff (authority : Authority) (url : Url) (text : List Char) :
    (parseHostHeader authority.text = .ok (authority.target 80) ↔ authority.Plain) ∧
    (parseUrlTarget url.text = .ok url.target ↔ url.Plain) ∧
    ∀ error, parseHostHeader text ≠ .error error ∧ parseUrlTarget text ≠ .error error := by
  refine ⟨?_, url.read_iff, fun error => ?_⟩
  · rw [parseHostHeader, Except.ok.injEq]
    exact authority.read_iff 80
  · constructor <;> (intro same; cases same)

theorem bareV4_isDomain :
    let authority : Authority := ⟨.v4 "1.2.3.4".toList ⟨1, 2, 3, 4⟩ rfl, none⟩
    authority.text = "1.2.3.4".toList ∧
      authority.target 80 = .ip (.v4 ⟨1, 2, 3, 4⟩ 80) ∧
      parseHostHeader "1.2.3.4".toList = .ok (.domain "1.2.3.4" 80) ∧
      parseUrlTarget "http://h?x".toList = .ok (.domain "h?x" 80) := by
  decide

end Http

end QuicProxy
