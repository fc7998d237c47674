import QuicProxy.Net.Addr

namespace QuicProxy

/-! The address parser of `core::net`: text to `IpAddr` and `SocketAddr`.  Each
reader takes the text that is left and returns what it read with the rest, or
`none`, in which case the source restores its position. -/

namespace NetParser

def toDigit (radix : Nat) (char : Char) : Option Nat :=
  let code := char.toNat
  let value :=
    if '0'.toNat ≤ code ∧ code ≤ '9'.toNat then some (code - '0'.toNat)
    else if 'a'.toNat ≤ code ∧ code ≤ 'z'.toNat then some (code - 'a'.toNat + 10)
    else if 'A'.toNat ≤ code ∧ code ≤ 'Z'.toNat then some (code - 'A'.toNat + 10)
    else none
  value.filter (· < radix)

def digits (radix : Nat) (value count : Nat) : List Char → Nat × Nat × List Char
  | [] => (value, count, [])
  | char :: rest =>
      match toDigit radix char with
      | some digit => digits radix (value * radix + digit) (count + 1) rest
      | none => (value, count, char :: rest)

/-- `read_number`: digits whose number is at least one and at most
`maxDigits`, and whose value is below `limit`. -/
def readNumber (radix : Nat) (maxDigits : Option Nat) (allowZeroPrefix : Bool)
    (limit : Nat) (text : List Char) : Option (Nat × List Char) :=
  let (value, count, rest) := digits radix 0 0 text
  if maxDigits.any (count > ·) then none
  else if count = 0 then none
  else if !allowZeroPrefix && text.head? == some '0' && decide (count > 1) then none
  else if value < limit then some (value, rest)
  else none

def readGivenChar (target : Char) : List Char → Option (List Char)
  | [] => none
  | char :: rest => if char = target then some rest else none

def readSeparator (separator : Char) (index : Nat)
    (inner : List Char → Option (α × List Char)) (text : List Char) :
    Option (α × List Char) :=
  if index > 0 then (readGivenChar separator text).bind inner else inner text

def readIpv4Addr (text : List Char) : Option (Ipv4Addr × List Char) := do
  let octet := readNumber 10 (some 3) false 256
  let (a, text) ← readSeparator '.' 0 octet text
  let (b, text) ← readSeparator '.' 1 octet text
  let (c, text) ← readSeparator '.' 2 octet text
  let (d, text) ← readSeparator '.' 3 octet text
  pure (⟨castU8 a, castU8 b, castU8 c, castU8 d⟩, text)

/-- `read_groups` into `limit` groups from position `index` on: the groups, the
rest, and whether an embedded IPv4 address ended them. -/
def readGroups (index : Nat) : (left : Nat) → List Char →
    List UInt16 × Bool × List Char
  | 0, text => ([], false, text)
  | left + 1, text =>
      -- An embedded IPv4 address needs two groups, so it is not tried for the last.
      match (if left > 0 then readSeparator ':' index readIpv4Addr text else none) with
      | some (ip, rest) =>
          ([u16FromBe ip.a ip.b, u16FromBe ip.c ip.d], true, rest)
      | none =>
          match readSeparator ':' index (readNumber 16 (some 4) true 65536) text with
          | some (group, rest) =>
              let (groups, ipv4, rest) := readGroups (index + 1) left rest
              (castU16 group :: groups, ipv4, rest)
          | none => ([], false, text)

def joinGroups (head tail : List UInt16) : Option Ipv6Addr :=
  let words := head ++ List.replicate (8 - head.length - tail.length) 0 ++ tail
  if length : words.length = 8 then some (Ipv6Addr.ofSegments words length) else none

def readIpv6Addr (text : List Char) : Option (Ipv6Addr × List Char) :=
  let (head, headIpv4, rest) := readGroups 0 8 text
  if head.length = 8 then (joinGroups head []).map (·, rest)
  else if headIpv4 then none
  else do
    let rest ← readGivenChar ':' rest
    let rest ← readGivenChar ':' rest
    -- `::` stands for at least one group of zeros.
    let (tail, _, rest) := readGroups 0 (8 - (head.length + 1)) rest
    (joinGroups head tail).map (·, rest)

def readIpAddr (text : List Char) : Option (IpAddr × List Char) :=
  match readIpv4Addr text with
  | some (ip, rest) => some (.v4 ip, rest)
  | none => (readIpv6Addr text).map fun (ip, rest) => (.v6 ip, rest)

def readPort (text : List Char) : Option (UInt16 × List Char) := do
  let text ← readGivenChar ':' text
  let (port, text) ← readNumber 10 none true 65536 text
  pure (castU16 port, text)

def readScopeId (text : List Char) : Option (UInt32 × List Char) := do
  let text ← readGivenChar '%' text
  let (scope, text) ← readNumber 10 none true 4294967296 text
  pure (UInt32.ofNat scope, text)

def readSocketAddrV4 (text : List Char) : Option (SocketAddr × List Char) := do
  let (ip, text) ← readIpv4Addr text
  let (port, text) ← readPort text
  pure (.v4 ip port, text)

def readSocketAddrV6 (text : List Char) : Option (SocketAddr × List Char) := do
  let text ← readGivenChar '[' text
  let (ip, text) ← readIpv6Addr text
  let (scopeId, text) := (readScopeId text).getD (0, text)
  let text ← readGivenChar ']' text
  let (port, text) ← readPort text
  pure (.v6 ip port 0 scopeId, text)

def readSocketAddr (text : List Char) : Option (SocketAddr × List Char) :=
  readSocketAddrV4 text <|> readSocketAddrV6 text

def parseWith (reader : List Char → Option (α × List Char)) (text : List Char) :
    Option α :=
  match reader text with
  | some (value, []) => some value
  | _ => none

end NetParser

def IpAddr.parse (text : List Char) : Option IpAddr :=
  NetParser.parseWith NetParser.readIpAddr text

def SocketAddr.parse (text : List Char) : Option SocketAddr :=
  NetParser.parseWith NetParser.readSocketAddr text

def IsIpLiteral (text : String) : Prop := (IpAddr.parse text.toList).isSome

instance (text : String) : Decidable (IsIpLiteral text) :=
  inferInstanceAs (Decidable (_ = true))

end QuicProxy
