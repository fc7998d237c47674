import QuicProxy.Net.Ports
import QuicProxy.Proxy.TargetAddr

namespace QuicProxy

/-! Destinations as text: `from_str`, `from_str2` and `Display`
(`src/proxy/mod.rs`). -/

namespace TargetAddr

open NetParser

def fromStr (s : String) : Except String TargetAddr :=
  match SocketAddr.parse s.toList with
  | some addr => .ok (.ip addr)
  | none =>
      match rsplitOnce ':' s.toList with
      | none => .error s!"Invalid address format '{s}': expected host:port"
      | some (host, portStr) =>
          let host := String.ofList host
          let portStr := String.ofList portStr
          match parseUnsigned 65536 portStr.toList with
          | none => .error s!"Invalid port '{portStr}' in address: {s}"
          | some port =>
              if host.isEmpty then .error s!"Empty hostname in address: {s}"
              else if (asBytes host).length > 255 then
                .error s!"Hostname exceeds 255 characters: {s}"
              else .ok (.domain host (castU16 port))

def fromStr2 (domain : String) (port : UInt16) : Except String TargetAddr :=
  fromStr (String.ofList (domain.toList ++ ':' :: Nat.toDigits 10 port.toNat))

/-- The addresses whose texts are to be read back. -/
def Named : TargetAddr → Prop
  | ip _ => True
  | domain name _ => name ≠ "" ∧ (asBytes name).length ≤ 255 ∧ ¬ IsIpLiteral name

/-- Their texts keep all of them: an IPv6 address has no flow information, and a name
is no IPv6 address in brackets. -/
def Kept : TargetAddr → Prop
  | ip (.v4 _ _) => True
  | ip (.v6 _ _ flowinfo _) => flowinfo = 0
  | domain name _ => ∀ ip scopeId, ¬ IsHostV6 ip scopeId name.toList

theorem fromStr_of_parse {s : List Char} {addr : SocketAddr}
    (parsed : SocketAddr.parse s = some addr) : fromStr (String.ofList s) = .ok (.ip addr) := by
  rw [fromStr, String.toList_ofList, parsed]

theorem fromStr_of_none {s : List Char} (unparsed : SocketAddr.parse s = none) (addr : SocketAddr) :
    fromStr (String.ofList s) ≠ .ok (.ip addr) := by
  rw [fromStr, String.toList_ofList, unparsed]
  simp only
  repeat' split
  all_goals simp

theorem fromStr_named {name : String} {digits : List Char} {port : UInt16}
    (isPort : IsPort port digits)
    (unparsed : SocketAddr.parse (name.toList ++ ':' :: digits) = none) (some_ : name ≠ "")
    (short : (asBytes name).length ≤ 255) :
    fromStr (String.ofList (name.toList ++ ':' :: digits)) = .ok (.domain name port) := by
  have host : String.ofList name.toList = name := String.ofList_toList
  have filled : name.isEmpty = false := by simpa using some_
  rw [fromStr, String.toList_ofList, unparsed, rsplitOnce_append (isPort.not_mem (by decide))]
  simp only [String.toList_ofList, isPort.parseUnsigned, host, filled, Nat.not_lt.mpr short]
  simp [castU16]

/-! What is written is read back. -/

theorem parse_toText_v4 (ip : Ipv4Addr) (port : UInt16) :
    SocketAddr.parse (SocketAddr.v4 ip port).toText = some (.v4 ip port) := by
  have read := readIpv4Addr_toText ip (ends_nil 10)
  rw [List.append_nil] at read
  exact parse_ipv4_port read (isPort_toDigits port)

theorem isHostV6_toText (ip : Ipv6Addr) (scopeId : UInt32) :
    IsHostV6 ip scopeId ('[' :: (ip.toText ++
      if scopeId = 0 then [] else '%' :: Nat.toDigits 10 scopeId.toNat) ++ [']']) := by
  split
  · next none_ =>
      refine ⟨_, [], rfl, ?_, ?_⟩
      · rw [List.append_nil, ip.readIpv6Addr_toText]
      · rw [none_]
        rfl
  · refine ⟨_, '%' :: Nat.toDigits 10 scopeId.toNat, rfl, ?_, ?_⟩
    · rw [stopsAt_ipv6 ⟨by decide, by decide, by decide⟩, ip.readIpv6Addr_toText]
      rfl
    · have whole := decimalValue_toDigits scopeId.toNat []
      rw [List.append_nil] at whole
      have number := readNumber_of_decimalValue whole Nat.toDigits_ne_nil scopeId.toNat_lt
      have given : readGivenChar '%' ('%' :: Nat.toDigits 10 scopeId.toNat) =
          some (Nat.toDigits 10 scopeId.toNat) := rfl
      simp [readScope, readScopeId, given, number]

theorem parse_toText_v6 (ip : Ipv6Addr) (port : UInt16) (flowinfo scopeId : UInt32) :
    SocketAddr.parse (SocketAddr.v6 ip port flowinfo scopeId).toText =
      some (.v6 ip port 0 scopeId) := by
  have parsed := parse_hostV6_port (isHostV6_toText ip scopeId) (isPort_toDigits port)
  rw [List.append_assoc] at parsed
  rw [SocketAddr.toText, List.append_assoc]
  exact parsed

theorem fromStr_toText_iff {target : TargetAddr} (named : target.Named) :
    fromStr (String.ofList target.toText) = .ok target ↔ target.Kept := by
  cases target with
  | ip addr =>
      cases addr with
      | v4 ip port =>
          rw [toText, fromStr_of_parse (parse_toText_v4 ip port)]
          simp [Kept]
      | v6 ip port flowinfo scopeId =>
          rw [toText, fromStr_of_parse (parse_toText_v6 ip port flowinfo scopeId)]
          simp [Kept, eq_comm]
  | domain name port =>
      obtain ⟨some_, short, notLiteral⟩ := named
      have isPort := isPort_toDigits port
      constructor
      · intro same ip scopeId isHost
        rw [toText, fromStr_of_parse (parse_hostV6_port isHost isPort)] at same
        cases same
      · intro kept
        apply fromStr_named isPort _ some_ short
        apply Option.eq_none_iff_forall_ne_some.mpr
        intro addr parsed
        rcases host_of_parse isPort parsed with ⟨ip, read⟩ | ⟨ip, scopeId, isHost⟩
        · apply notLiteral
          rw [IsIpLiteral, IpAddr.parse_of_readIpv4 read]
          rfl
        · exact kept ip scopeId isHost

theorem fromStr2_literal_iff {text : String} {addr : IpAddr} (port : UInt16)
    (written : IpAddr.parse text.toList = some addr) :
    fromStr2 text port = .ok (.ip (SocketAddr.new addr port)) ↔ ∃ ip, addr = .v4 ip := by
  have isPort := isPort_toDigits port
  cases addr with
  | v4 ip =>
      rw [fromStr2, fromStr_of_parse (parse_ipv4_port (IpAddr.parse_v4 written) isPort)]
      simp [SocketAddr.new]
  | v6 ip =>
      obtain ⟨noV4, v6⟩ := IpAddr.parse_v6 written
      have unparsed :
          SocketAddr.parse (text.toList ++ ':' :: Nat.toDigits 10 port.toNat) = none := by
        apply Option.eq_none_iff_forall_ne_some.mpr
        intro addr parsed
        rcases host_of_parse isPort parsed with ⟨ip', read⟩ |
          ⟨ip', scopeId, inside, rest, bracketed, _⟩
        · rw [noV4] at read
          cases read
        · rw [bracketed, List.cons_append, readIpv6Addr_opening] at v6
          cases v6
      constructor
      · exact fun same => absurd same (fromStr_of_none unparsed _)
      · rintro ⟨_, ⟨⟩⟩

/-- A text is read back as what it is of, but for what it leaves out; an IPv6 address
needs brackets that `from_str2` does not put. -/
theorem text_read_iff {target : TargetAddr} (named : target.Named) {text : String} {addr : IpAddr}
    (written : IpAddr.parse text.toList = some addr) (port : UInt16) :
    (fromStr (String.ofList target.toText) = .ok target ↔ target.Kept) ∧
    (fromStr2 (String.ofList addr.toText) port = .ok (.ip (SocketAddr.new addr port)) ↔
      ∃ ip, addr = .v4 ip) ∧
    (fromStr2 text port = .ok (.ip (SocketAddr.new addr port)) ↔ ∃ ip, addr = .v4 ip) := by
  refine ⟨fromStr_toText_iff named, fromStr2_literal_iff port ?_, fromStr2_literal_iff port written⟩
  rw [String.toList_ofList, addr.parse_toText]

theorem text_read_example :
    fromStr (String.ofList (domain "example.com" 443).toText) = .ok (domain "example.com" 443) ∧
      fromStr2 "1.1.1.1" 53 = .ok (ip (SocketAddr.new (.v4 ⟨1, 1, 1, 1⟩) 53)) := by
  have named : (domain "example.com" 443).Named := by
    refine ⟨?_, ?_, ?_⟩ <;> decide
  have written : IpAddr.parse "1.1.1.1".toList = some (.v4 ⟨1, 1, 1, 1⟩) := by decide
  have read := text_read_iff named written 53
  refine ⟨read.1.mpr ?_, read.2.2.mpr ⟨_, rfl⟩⟩
  rintro ip scopeId ⟨inside, rest, same, _⟩
  exact absurd (List.cons.inj same).1 (by decide)

theorem fromStr2_v6_domain :
    IpAddr.parse "2001:db8::1".toList =
        some (.v6 (.ofSegments [0x2001, 0xdb8, 0, 0, 0, 0, 0, 1] rfl)) ∧
      fromStr2 "2001:db8::1" 53 = .ok (domain "2001:db8::1" 53) := by
  decide

end TargetAddr

end QuicProxy
