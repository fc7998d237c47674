import QuicProxy.Net.Stops

namespace QuicProxy

/-! Addresses with a port behind them: which texts are socket addresses. -/

namespace NetParser

variable {α β : Type}

/-! What is left is the end of the text. -/

def Shortens (reader : List Char → Option (α × List Char)) : Prop :=
  ∀ text value rest, reader text = some (value, rest) → rest <:+ text

theorem readGivenChar_eq_some {target : Char} {text rest : List Char}
    (read : readGivenChar target text = some rest) : text = target :: rest := by
  cases text with
  | nil => cases read
  | cons char text =>
      simp only [readGivenChar] at read
      split at read
      · next same =>
          cases read
          rw [same]
      · cases read

theorem readGivenChar_suffix {target : Char} {text rest : List Char}
    (read : readGivenChar target text = some rest) : rest <:+ text := by
  rw [readGivenChar_eq_some read]
  exact List.suffix_cons ..

theorem shortens_number (radix : Nat) (maxDigits : Option Nat) (allowZeroPrefix : Bool)
    (limit : Nat) : Shortens (readNumber radix maxDigits allowZeroPrefix limit) :=
  fun _ _ _ => readNumber_suffix

theorem Shortens.bind {first : List Char → Option (α × List Char)}
    {next : α → List Char → Option (β × List Char)} (shortens : Shortens first)
    (nextShortens : ∀ value, Shortens (next value)) :
    Shortens fun text => (first text).bind fun (value, rest) => next value rest := by
  intro text value rest read
  obtain ⟨⟨middle, left⟩, firstRead, nextRead⟩ := Option.bind_eq_some_iff.mp read
  exact (nextShortens middle left value rest nextRead).trans (shortens text middle left firstRead)

theorem shortens_pure (value : α) : Shortens fun text => some (value, text) := by
  intro text read rest same
  cases same
  exact List.suffix_rfl

theorem shortens_separator {separator : Char} (index : Nat)
    {reader : List Char → Option (α × List Char)} (shortens : Shortens reader) :
    Shortens (readSeparator separator index reader) := by
  intro text value rest read
  simp only [readSeparator] at read
  split at read
  · obtain ⟨left, given, inner⟩ := Option.bind_eq_some_iff.mp read
    exact (shortens left value rest inner).trans (readGivenChar_suffix given)
  · exact shortens text value rest read

theorem shortens_ipv4 : Shortens readIpv4Addr := by
  have octet (index : Nat) :
      Shortens (readSeparator '.' index (readNumber 10 (some 3) false 256)) :=
    shortens_separator index (shortens_number _ _ _ _)
  have whole := (octet 0).bind fun a => (octet 1).bind fun b => (octet 2).bind fun c =>
    (octet 3).bind fun d => shortens_pure (Ipv4Addr.mk (castU8 a) (castU8 b) (castU8 c) (castU8 d))
  exact whole

theorem readGroups_suffix (index left : Nat) (text : List Char) :
    (readGroups index left text).2.2 <:+ text := by
  induction left generalizing index text with
  | zero => exact List.suffix_rfl
  | succ left ih =>
      rw [readGroups]
      split
      · next ip rest embedded =>
          split at embedded
          · exact shortens_separator index shortens_ipv4 text ip rest embedded
          · cases embedded
      · split
        · next group rest read =>
            exact (ih (index + 1) rest).trans
              (shortens_separator index (shortens_number _ _ _ _) text group rest read)
        · exact List.suffix_rfl

theorem shortens_ipv6 : Shortens readIpv6Addr := by
  intro text value rest read
  have front := readGroups_suffix 0 8 text
  simp only [readIpv6Addr] at read
  split at read
  · obtain ⟨ip, _, same⟩ := Option.map_eq_some_iff.mp read
    cases same
    exact front
  · split at read
    · cases read
    · obtain ⟨first, colon, read⟩ := Option.bind_eq_some_iff.mp read
      obtain ⟨second, again, read⟩ := Option.bind_eq_some_iff.mp read
      obtain ⟨ip, _, same⟩ := Option.map_eq_some_iff.mp read
      cases same
      exact (((readGroups_suffix ..).trans (readGivenChar_suffix again)).trans
        (readGivenChar_suffix colon)).trans front

theorem readScope_suffix (text : List Char) : (readScope text).2 <:+ text := by
  rw [readScope]
  cases read : readScopeId text with
  | none => exact List.suffix_rfl
  | some result =>
      obtain ⟨rest, given, read⟩ := Option.bind_eq_some_iff.mp read
      obtain ⟨⟨scope, left⟩, number, same⟩ := Option.bind_eq_some_iff.mp read
      cases same
      exact (readNumber_suffix number).trans (readGivenChar_suffix given)

/-! Decimal numbers. -/

theorem toDigit_ten_eq (char : Char) : toDigit 10 char = decimalDigit char := by
  simp only [toDigit, decimalDigit]
  split
  · next decimal =>
      have small : char.toNat - '0'.toNat < 10 := by
        have nine : '9'.toNat = 57 := rfl
        have zero : '0'.toNat = 48 := rfl
        omega
      rw [Option.filter_some, if_pos (decide_eq_true small)]
  · split
    · rw [Option.filter_some, if_neg (by simp)]
    · split
      · rw [Option.filter_some, if_neg (by simp)]
      · rfl

theorem digits_of_decimalValue {value result : Nat} {text : List Char}
    (decimal : decimalValue value text = some result) (count : Nat) :
    digits 10 value count text = (result, count + text.length, []) := by
  induction text generalizing value count with
  | nil =>
      cases decimal
      rfl
  | cons char text ih =>
      simp only [decimalValue] at decimal
      simp only [digits, toDigit_ten_eq]
      cases found : decimalDigit char with
      | none =>
          rw [found] at decimal
          cases decimal
      | some digit =>
          rw [found] at decimal
          have rest := ih decimal (count + 1)
          rw [List.length_cons, ← Nat.add_assoc, Nat.add_right_comm]
          exact rest

theorem readNumber_of_decimalValue {limit value : Nat} {text : List Char}
    (decimal : decimalValue 0 text = some value) (some_ : text ≠ []) (small : value < limit) :
    readNumber 10 none true limit text = some (value, []) := by
  have length : text.length ≠ 0 := fun empty => some_ (List.length_eq_zero_iff.mp empty)
  simp [readNumber, digits_of_decimalValue decimal, length, small]

/-- A port as it stands in a text: digits alone. -/
def IsPort (port : UInt16) (text : List Char) : Prop :=
  text ≠ [] ∧ decimalValue 0 text = some port.toNat

namespace IsPort

variable {port : UInt16} {text : List Char}

theorem not_mem (isPort : IsPort port text) {char : Char} (other : decimalDigit char = none) :
    char ∉ text := by
  intro within
  have digit := isDigit_of_decimalValue isPort.2 char within
  rw [other] at digit
  cases digit

theorem readPort (isPort : IsPort port text) :
    NetParser.readPort (':' :: text) = some (port, []) := by
  have number := readNumber_of_decimalValue isPort.2 isPort.1 port.toNat_lt
  have given : readGivenChar ':' (':' :: text) = some text := rfl
  simp only [NetParser.readPort, given, Option.bind_eq_bind, Option.bind_some, number,
    Option.pure_def]
  simp [castU16]

theorem parseUnsigned (isPort : IsPort port text) :
    QuicProxy.parseUnsigned 65536 text = some port.toNat := by
  have plain : stripPlus text = text := by
    cases text with
    | nil => rfl
    | cons char text =>
        have noPlus : '+' ≠ char := fun same =>
          isPort.not_mem (by decide : decimalDigit '+' = none)
            (by rw [same]; exact List.mem_cons_self)
        simp only [stripPlus]
        split
        · next same => exact absurd (List.cons.inj same).1.symm noPlus
        · rfl
  rw [QuicProxy.parseUnsigned, plain]
  split
  · exact absurd rfl isPort.1
  · rw [isPort.2, Option.filter_some, if_pos (decide_eq_true port.toNat_lt)]

end IsPort

theorem isPort_toDigits (port : UInt16) : IsPort port (Nat.toDigits 10 port.toNat) := by
  refine ⟨Nat.toDigits_ne_nil, ?_⟩
  have whole := decimalValue_toDigits port.toNat []
  rwa [List.append_nil] at whole

theorem readPort_behind {front text : List Char} (some_ : front ≠ []) (port : UInt16) :
    readPort (front ++ ':' :: text) ≠ some (port, []) := by
  intro read
  obtain ⟨left, given, number⟩ := Option.bind_eq_some_iff.mp read
  obtain ⟨⟨value, rest⟩, number, same⟩ := Option.bind_eq_some_iff.mp number
  cases front with
  | nil => exact some_ rfl
  | cons char front =>
      have colon := readGivenChar_eq_some given
      obtain ⟨rfl, rfl⟩ := List.cons.inj colon
      have stops := stopsAt_number (by decide : toDigit 10 ':' = none) none true 65536 front text
      obtain ⟨_, _, same'⟩ := Option.map_eq_some_iff.mp (stops.symm.trans number)
      cases same
      exact List.cons_ne_nil _ _ (List.append_eq_nil_iff.mp (Prod.mk.inj same').2).2

theorem readPort_mem {text rest : List Char} {port : UInt16}
    (read : readPort text = some (port, rest)) : ':' ∈ text := by
  obtain ⟨left, given, _⟩ := Option.bind_eq_some_iff.mp read
  rw [readGivenChar_eq_some given]
  exact List.mem_cons_self

/-! Socket addresses. -/

/-- An IPv6 address with its zone in brackets. -/
def IsHostV6 (ip : Ipv6Addr) (scopeId : UInt32) (host : List Char) : Prop :=
  ∃ inside rest, host = '[' :: inside ++ [']'] ∧ readIpv6Addr inside = some (ip, rest) ∧
    readScope rest = (scopeId, [])

theorem readIpv4Addr_opening (text : List Char) : readIpv4Addr ('[' :: text) = none := by
  apply readIpv4Addr_of_ends
  rintro char ⟨⟩
  decide

theorem readIpv6Addr_opening (text : List Char) : readIpv6Addr ('[' :: text) = none := by
  have ends : EndsNumber 16 ('[' :: text) := by
    rintro char ⟨⟩
    decide
  have groups : readGroups 0 8 ('[' :: text) = ([], false, '[' :: text) := by
    apply readGroups_stop
    · exact readIpv4Addr_opening text
    · exact (readNumber_of_ends ends : readNumber 16 (some 4) true 65536 ('[' :: text) = none)
  rw [readIpv6Addr, groups]
  rfl

theorem readSocketAddr_opening (text : List Char) :
    readSocketAddr ('[' :: text) = (readIpv6Addr text).bind fun (ip, rest) =>
      (readGivenChar ']' (readScope rest).2).bind fun left =>
        (readPort left).bind fun (port, left) =>
          some (.v6 ip port 0 (readScope rest).1, left) := by
  have v4 : readSocketAddrV4 ('[' :: text) = none := by
    rw [readSocketAddrV4, readIpv4Addr_opening]
    rfl
  rw [readSocketAddr, v4]
  rfl

theorem outsideV6_closing : OutsideV6 ']' := ⟨by decide, by decide, by decide⟩

theorem readSocketAddr_hostV6 {ip : Ipv6Addr} {scopeId : UInt32} {host : List Char}
    (isHost : IsHostV6 ip scopeId host) (more : List Char) :
    readSocketAddr (host ++ more) = (readPort more).bind fun (port, left) =>
      some (.v6 ip port 0 scopeId, left) := by
  obtain ⟨inside, rest, rfl, read, scope⟩ := isHost
  have whole : '[' :: inside ++ [']'] ++ more = '[' :: (inside ++ ']' :: more) := by simp
  have closing : readGivenChar ']' (']' :: more) = some more := rfl
  rw [whole, readSocketAddr_opening, stopsAt_ipv6 outsideV6_closing, read]
  simp only [Option.map_some, Option.bind_some,
    readScope_append (by decide : toDigit 10 ']' = none) (by decide), scope, List.nil_append,
    closing]

theorem parse_hostV6 {ip : Ipv6Addr} {scopeId : UInt32} {host : List Char}
    (isHost : IsHostV6 ip scopeId host) : SocketAddr.parse host = none := by
  have read := readSocketAddr_hostV6 isHost []
  rw [List.append_nil] at read
  rw [SocketAddr.parse, parseWith, read]
  rfl

theorem parse_hostV6_port {ip : Ipv6Addr} {scopeId : UInt32} {host digits : List Char}
    {port : UInt16} (isHost : IsHostV6 ip scopeId host) (isPort : IsPort port digits) :
    SocketAddr.parse (host ++ ':' :: digits) = some (.v6 ip port 0 scopeId) := by
  rw [SocketAddr.parse, parseWith, readSocketAddr_hostV6 isHost, isPort.readPort]
  rfl

theorem stopsAt_ipv4_colon : StopsAt ':' readIpv4Addr := stopsAt_ipv4 (by decide) (by decide)

theorem parse_ipv4_port {port : UInt16} {host digits : List Char} {ip : Ipv4Addr}
    (read : readIpv4Addr host = some (ip, [])) (isPort : IsPort port digits) :
    SocketAddr.parse (host ++ ':' :: digits) = some (.v4 ip port) := by
  have whole : readSocketAddrV4 (host ++ ':' :: digits) = some (.v4 ip port, []) := by
    simp [readSocketAddrV4, stopsAt_ipv4_colon host digits, read, isPort.readPort]
  rw [SocketAddr.parse, parseWith, readSocketAddr, whole]
  rfl

theorem readSocketAddrV4_parts {text rest : List Char} {addr : SocketAddr}
    (read : readSocketAddrV4 text = some (addr, rest)) :
    ∃ ip left port, readIpv4Addr text = some (ip, left) ∧ readPort left = some (port, rest) ∧
      addr = .v4 ip port := by
  obtain ⟨⟨ip, left⟩, first, read⟩ := Option.bind_eq_some_iff.mp read
  obtain ⟨⟨port, rest'⟩, second, same⟩ := Option.bind_eq_some_iff.mp read
  cases same
  exact ⟨ip, left, port, first, second, rfl⟩

theorem readSocketAddrV6_parts {text rest : List Char} {addr : SocketAddr}
    (read : readSocketAddrV6 text = some (addr, rest)) :
    ∃ inside ip left closed port, text = '[' :: inside ∧ readIpv6Addr inside = some (ip, left) ∧
      (readScope left).2 = ']' :: closed ∧ readPort closed = some (port, rest) := by
  obtain ⟨inside, opening, read⟩ := Option.bind_eq_some_iff.mp read
  obtain ⟨⟨ip, left⟩, first, read⟩ := Option.bind_eq_some_iff.mp read
  obtain ⟨closed, closing, read⟩ := Option.bind_eq_some_iff.mp read
  obtain ⟨⟨port, rest'⟩, second, same⟩ := Option.bind_eq_some_iff.mp read
  cases same
  exact ⟨inside, ip, left, closed, port, readGivenChar_eq_some opening, first,
    readGivenChar_eq_some closing, second⟩

theorem readSocketAddr_whole {text : List Char} {addr : SocketAddr}
    (parsed : SocketAddr.parse text = some addr) :
    readSocketAddrV4 text = some (addr, []) ∨ readSocketAddrV6 text = some (addr, []) := by
  have read : readSocketAddr text = some (addr, []) := by
    simp only [SocketAddr.parse, parseWith] at parsed
    split at parsed
    · next read =>
        cases parsed
        exact read
    · cases parsed
  cases v4 : readSocketAddrV4 text with
  | none =>
      right
      simpa [readSocketAddr, v4] using read
  | some result =>
      left
      simpa [readSocketAddr, v4] using read

theorem parse_of_noColon {text : List Char} (plain : ':' ∉ text) :
    SocketAddr.parse text = none := by
  apply Option.eq_none_iff_forall_ne_some.mpr
  intro addr parsed
  apply plain
  rcases readSocketAddr_whole parsed with read | read
  · obtain ⟨ip, left, port, first, second, _⟩ := readSocketAddrV4_parts read
    exact (shortens_ipv4 _ _ _ first).subset (readPort_mem second)
  · obtain ⟨inside, ip, left, closed, port, rfl, first, closing, second⟩ :=
      readSocketAddrV6_parts read
    have suffix := (readScope_suffix left).trans (shortens_ipv6 _ _ _ first)
    rw [closing] at suffix
    exact List.mem_cons_of_mem _ (suffix.subset (List.mem_cons_of_mem _ (readPort_mem second)))

/-- A host and a port are a socket address only where the host is an address. -/
theorem host_of_parse {host digits : List Char} {port : UInt16} {addr : SocketAddr}
    (isPort : IsPort port digits) (parsed : SocketAddr.parse (host ++ ':' :: digits) = some addr) :
    (∃ ip, readIpv4Addr host = some (ip, [])) ∨ ∃ ip scopeId, IsHostV6 ip scopeId host := by
  rcases readSocketAddr_whole parsed with read | read
  · left
    obtain ⟨ip, left, port', first, second, _⟩ := readSocketAddrV4_parts read
    rw [stopsAt_ipv4_colon] at first
    obtain ⟨⟨ip', front⟩, inner, same⟩ := Option.map_eq_some_iff.mp first
    cases same
    have nothing : front = [] := by
      apply Decidable.byContradiction
      intro some_
      exact readPort_behind some_ port' second
    exact ⟨ip, by rw [inner, nothing]⟩
  · right
    obtain ⟨inside, ip, left, closed, port', opening, first, closing, second⟩ :=
      readSocketAddrV6_parts read
    obtain ⟨name, rfl, rfl⟩ : ∃ name, host = '[' :: name ∧ inside = name ++ ':' :: digits := by
      cases host with
      | nil => exact absurd (List.cons.inj opening).1 (by decide)
      | cons char name =>
          obtain ⟨rfl, rfl⟩ := List.cons.inj opening
          exact ⟨name, rfl, rfl⟩
    have among : ']' ∈ name := by
      have suffix := (readScope_suffix left).trans (shortens_ipv6 _ _ _ first)
      rw [closing] at suffix
      rcases List.mem_append.mp (suffix.subset List.mem_cons_self) with front | back
      · exact front
      · rcases List.mem_cons.mp back with same | digit
        · exact absurd same (by decide)
        · exact absurd digit (isPort.not_mem (by decide))
    -- what the readers take ends at the first closing bracket
    obtain ⟨within, tail, rfl, plain⟩ := List.eq_append_cons_of_mem among
    rw [List.append_assoc, List.cons_append, stopsAt_ipv6 outsideV6_closing] at first
    obtain ⟨⟨ip', rest⟩, inner, same⟩ := Option.map_eq_some_iff.mp first
    cases same
    rw [readScope_append (by decide : toDigit 10 ']' = none) (by decide)] at closing
    have scopePlain : ']' ∉ (readScope rest).2 := fun bracket =>
      plain (((readScope_suffix rest).trans (shortens_ipv6 _ _ _ inner)).subset bracket)
    cases zone : (readScope rest).2 with
    | cons char _ =>
        rw [zone] at closing scopePlain
        rw [(List.cons.inj closing).1] at scopePlain
        exact absurd List.mem_cons_self scopePlain
    | nil =>
        rw [zone] at closing
        obtain ⟨_, rfl⟩ := List.cons.inj closing
        have nothing : tail = [] := by
          apply Decidable.byContradiction
          intro some_
          exact readPort_behind some_ port' second
        refine ⟨_, (readScope rest).1, within, rest, ?_, inner, Prod.ext rfl zone⟩
        rw [nothing, List.cons_append]

end NetParser

namespace IpAddr

open NetParser

theorem parse_v4 {text : List Char} {ip : Ipv4Addr} (parsed : parse text = some (.v4 ip)) :
    readIpv4Addr text = some (ip, []) := by
  simp only [parse, parseWith, readIpAddr] at parsed
  cases v4 : readIpv4Addr text with
  | none =>
      rw [v4] at parsed
      cases v6 : readIpv6Addr text with
      | none => simp [v6] at parsed
      | some result =>
          obtain ⟨ip', rest⟩ := result
          cases rest <;> simp [v6] at parsed
  | some result =>
      obtain ⟨ip', rest⟩ := result
      cases rest <;> simp [v4] at parsed
      rw [parsed]

theorem parse_of_readIpv4 {text : List Char} {ip : Ipv4Addr}
    (read : readIpv4Addr text = some (ip, [])) : parse text = some (.v4 ip) := by
  simp [parse, parseWith, readIpAddr, read]

theorem parse_v6 {text : List Char} {ip : Ipv6Addr} (parsed : parse text = some (.v6 ip)) :
    readIpv4Addr text = none ∧ readIpv6Addr text = some (ip, []) := by
  simp only [parse, parseWith, readIpAddr] at parsed
  cases v4 : readIpv4Addr text with
  | none =>
      rw [v4] at parsed
      refine ⟨rfl, ?_⟩
      cases v6 : readIpv6Addr text with
      | none => simp [v6] at parsed
      | some result =>
          obtain ⟨ip', rest⟩ := result
          cases rest <;> simp [v6] at parsed
          rw [parsed]
  | some result =>
      obtain ⟨ip', rest⟩ := result
      cases rest <;> simp [v4] at parsed

theorem readIpv4Addr_toText_v6 (ip : Ipv6Addr) : readIpv4Addr ip.toText = none := by
  rw [Ipv6Addr.toText]
  split
  · exact readIpv4Addr_of_ends (ends_colon _).1
  · apply readIpv4Addr_of_noDot
    simp only
    split
    · simp [hexWords_eq, noDot_groupsText]
    · simp [hexWords_eq, noDot_groupsText]

theorem parse_toText (addr : IpAddr) : parse addr.toText = some addr := by
  cases addr with
  | v4 ip =>
      have read := readIpv4Addr_toText ip (ends_nil 10)
      rw [List.append_nil] at read
      exact parse_of_readIpv4 read
  | v6 ip =>
      simp [parse, parseWith, readIpAddr, toText, readIpv4Addr_toText_v6, ip.readIpv6Addr_toText]

end IpAddr

end QuicProxy
