import QuicProxy.Net.RoundTrip

namespace QuicProxy

/-! Readers in front of a character that they do not take: they read as if the
text ended there. -/

namespace NetParser

variable {α β : Type} {stop : Char} {more : List Char}

def StopsAt (stop : Char) (reader : List Char → Option (α × List Char)) : Prop :=
  ∀ text more, reader (text ++ stop :: more) =
    (reader text).map fun (value, rest) => (value, rest ++ stop :: more)

namespace StopsAt

theorem pure (value : α) : StopsAt stop fun text => some (value, text) := fun _ _ => rfl

theorem bind {first : List Char → Option (α × List Char)}
    {next : α → List Char → Option (β × List Char)} (stops : StopsAt stop first)
    (nextStops : ∀ value, StopsAt stop (next value)) :
    StopsAt stop fun text => (first text).bind fun (value, rest) => next value rest := by
  intro text more
  simp only [stops text more]
  cases first text with
  | none => rfl
  | some result => exact nextStops result.1 result.2 more

theorem map {reader : List Char → Option (α × List Char)} (stops : StopsAt stop reader)
    (f : α → β) :
    StopsAt stop fun text => (reader text).map fun (value, rest) => (f value, rest) := by
  intro text more
  simp only [stops text more, Option.map_map]
  rfl

theorem orElse {first second : List Char → Option (α × List Char)} (stops : StopsAt stop first)
    (secondStops : StopsAt stop second) : StopsAt stop fun text => first text <|> second text := by
  intro text more
  simp only [stops text more, secondStops text more]
  cases first text <;> rfl

theorem parseWith_eq_none {reader : List Char → Option (α × List Char)}
    (stops : StopsAt stop reader) {text : List Char} (within : stop ∈ text) :
    parseWith reader text = none := by
  obtain ⟨before, after, rfl⟩ := List.append_of_mem within
  rw [parseWith, stops before after]
  cases reader before with
  | none => rfl
  | some result =>
      obtain ⟨value, rest⟩ := result
      cases rest <;> rfl

end StopsAt

theorem readGivenChar_append {target : Char} (other : stop ≠ target) (text more : List Char) :
    readGivenChar target (text ++ stop :: more) =
      (readGivenChar target text).map (· ++ stop :: more) := by
  cases text with
  | nil => exact if_neg other
  | cons char text =>
      simp only [List.cons_append, readGivenChar]
      split <;> rfl

theorem stopsAt_given {target : Char} (other : stop ≠ target)
    {reader : List Char → Option (α × List Char)} (stops : StopsAt stop reader) :
    StopsAt stop fun text => (readGivenChar target text).bind reader := by
  intro text more
  simp only [readGivenChar_append other]
  cases readGivenChar target text with
  | none => rfl
  | some rest => exact stops rest more

theorem stopsAt_separator {separator : Char} (other : stop ≠ separator) (index : Nat)
    {reader : List Char → Option (α × List Char)} (stops : StopsAt stop reader) :
    StopsAt stop (readSeparator separator index reader) := by
  intro text more
  rcases Nat.eq_zero_or_pos index with rfl | positive
  · exact stops text more
  · simp only [readSeparator, gt_iff_lt, if_pos positive]
    exact stopsAt_given other stops text more

theorem digits_append {radix : Nat} (noDigit : toDigit radix stop = none) (value count : Nat)
    (text more : List Char) :
    digits radix value count (text ++ stop :: more) =
      ((digits radix value count text).1, (digits radix value count text).2.1,
        (digits radix value count text).2.2 ++ stop :: more) := by
  induction text generalizing value count with
  | nil => simp only [List.nil_append, digits, noDigit]
  | cons char text ih =>
      simp only [List.cons_append, digits]
      cases toDigit radix char with
      | none => rfl
      | some digit => exact ih _ _

theorem stopsAt_number {radix : Nat} (noDigit : toDigit radix stop = none)
    (maxDigits : Option Nat) (allowZeroPrefix : Bool) (limit : Nat) :
    StopsAt stop (readNumber radix maxDigits allowZeroPrefix limit) := by
  intro text more
  cases text with
  | nil => simp [readNumber, digits, noDigit]
  | cons char text =>
      have head : (char :: text ++ stop :: more).head? = (char :: text).head? := rfl
      simp only [readNumber, digits_append noDigit, head]
      repeat' split
      all_goals rfl

theorem toDigit_ten {char : Char} (noDigit : toDigit 16 char = none) : toDigit 10 char = none := by
  simp only [toDigit, Option.filter_eq_none_iff, decide_eq_true_eq] at noDigit ⊢
  intro digit value small
  exact noDigit digit value (by omega)

theorem stopsAt_ipv4 (noDigit : toDigit 10 stop = none) (noDot : stop ≠ '.') :
    StopsAt stop readIpv4Addr := by
  have octet (index : Nat) : StopsAt stop (readSeparator '.' index
      (readNumber 10 (some 3) false 256)) :=
    stopsAt_separator noDot index (stopsAt_number noDigit _ _ _)
  have whole := (octet 0).bind fun a => (octet 1).bind fun b => (octet 2).bind fun c =>
    (octet 3).bind fun d => StopsAt.pure (Ipv4Addr.mk (castU8 a) (castU8 b) (castU8 c) (castU8 d))
  exact whole

theorem readGroups_append (noDigit : toDigit 16 stop = none) (noDot : stop ≠ '.')
    (noColon : stop ≠ ':') (index left : Nat) (text more : List Char) :
    readGroups index left (text ++ stop :: more) =
      ((readGroups index left text).1, (readGroups index left text).2.1,
        (readGroups index left text).2.2 ++ stop :: more) := by
  induction left generalizing index text with
  | zero => rfl
  | succ left ih =>
      have embedded : StopsAt stop fun text =>
          if left > 0 then readSeparator ':' index readIpv4Addr text else none := by
        split
        · exact stopsAt_separator noColon index (stopsAt_ipv4 (toDigit_ten noDigit) noDot)
        · exact fun _ _ => rfl
      have group := stopsAt_separator noColon index (stopsAt_number noDigit (some 4) true 65536)
      have embeddedHere := embedded text more
      simp only at embeddedHere
      simp only [readGroups, embeddedHere, group text more]
      cases (if left > 0 then readSeparator ':' index readIpv4Addr text else none) with
      | some result => rfl
      | none =>
          cases readSeparator ':' index (readNumber 16 (some 4) true 65536) text with
          | none => rfl
          | some result => simp only [Option.map_none, Option.map_some, ih]

/-- A character that no part of an IPv6 address takes. -/
structure OutsideV6 (stop : Char) : Prop where
  noDigit : toDigit 16 stop = none
  noDot : stop ≠ '.'
  noColon : stop ≠ ':'

theorem stopsAt_ipv6 (outside : OutsideV6 stop) : StopsAt stop readIpv6Addr := by
  intro text more
  have groups := readGroups_append outside.noDigit outside.noDot outside.noColon
  simp only [readIpv6Addr, groups]
  split
  · simp only [Option.map_map]
    rfl
  · split
    · rfl
    · generalize readGroups 0 8 text = read
      obtain ⟨head, ipv4, rest⟩ := read
      simp only [readGivenChar_append outside.noColon, Option.bind_eq_bind]
      cases readGivenChar ':' rest with
      | none => rfl
      | some rest =>
          simp only [Option.map_some, Option.bind_some, readGivenChar_append outside.noColon]
          cases readGivenChar ':' rest with
          | none => rfl
          | some rest =>
              simp only [Option.map_some, Option.bind_some, groups, Option.map_map]
              rfl

theorem stopsAt_port (noDigit : toDigit 10 stop = none) (noColon : stop ≠ ':') :
    StopsAt stop readPort := by
  have whole := stopsAt_given noColon
    ((stopsAt_number noDigit none true 65536).bind fun port => StopsAt.pure (castU16 port))
  exact whole

theorem stopsAt_scopeId (noDigit : toDigit 10 stop = none) (noPercent : stop ≠ '%') :
    StopsAt stop readScopeId := by
  have whole := stopsAt_given noPercent
    ((stopsAt_number noDigit none true 4294967296).bind fun scope =>
      StopsAt.pure (UInt32.ofNat scope))
  exact whole

/-- `read_scope_id` where it may be missing. -/
def readScope (text : List Char) : UInt32 × List Char := (readScopeId text).getD (0, text)

theorem readScope_append (noDigit : toDigit 10 stop = none) (noPercent : stop ≠ '%')
    (text more : List Char) :
    readScope (text ++ stop :: more) =
      ((readScope text).1, (readScope text).2 ++ stop :: more) := by
  rw [readScope, stopsAt_scopeId noDigit noPercent, readScope]
  cases readScopeId text <;> rfl

/-- A character that no socket address has. -/
structure Foreign (stop : Char) : Prop extends OutsideV6 stop where
  noPercent : stop ≠ '%'
  noOpening : stop ≠ '['
  noClosing : stop ≠ ']'

theorem stopsAt_socketAddr (foreign : Foreign stop) : StopsAt stop readSocketAddr := by
  have noDigit := toDigit_ten foreign.noDigit
  have port := stopsAt_port noDigit foreign.noColon
  have v4 : StopsAt stop readSocketAddrV4 :=
    (stopsAt_ipv4 noDigit foreign.noDot).bind fun ip => port.bind fun port =>
      StopsAt.pure (SocketAddr.v4 ip port)
  have zone (ip : Ipv6Addr) : StopsAt stop fun text =>
      (readGivenChar ']' (readScope text).2).bind fun rest =>
        (readPort rest).bind fun read =>
          some (SocketAddr.v6 ip read.1 0 (readScope text).1, read.2) := by
    intro text more
    simp only [readScope_append noDigit foreign.noPercent]
    exact stopsAt_given foreign.noClosing
      (port.bind fun port => .pure (SocketAddr.v6 ip port 0 (readScope text).1)) _ more
  have v6 : StopsAt stop readSocketAddrV6 :=
    stopsAt_given foreign.noOpening ((stopsAt_ipv6 foreign.toOutsideV6).bind zone)
  exact v4.orElse v6

end NetParser

end QuicProxy
