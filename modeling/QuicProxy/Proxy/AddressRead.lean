import QuicProxy.Data.Dialogue
import QuicProxy.Proxy.TargetAddr

namespace QuicProxy

/-! `TargetAddr::read_from` on a connection whose bytes are still to come
(`src/proxy/mod.rs`). -/

abbrev ByteParty := Party UInt8 String

namespace ByteParty

variable {α : Type}

def readExact (count : Nat) : ByteParty Bytes := Party.readExact "early eof" count

def readU8 : ByteParty UInt8 := Party.readElement "early eof"

def readU16 : ByteParty UInt16 := do
  let high ← readU8
  let low ← readU8
  pure (u16FromBe high low)

/-- A buffer of two bytes, and one of three. -/
def readPair : ByteParty (UInt8 × UInt8) := do
  let buf ← readExact 2
  match buf with
  | [first, second] => pure (first, second)
  | _ => Party.throw "early eof"

def readTriple : ByteParty (UInt8 × UInt8 × UInt8) := do
  let buf ← readExact 3
  match buf with
  | [first, second, third] => pure (first, second, third)
  | _ => Party.throw "early eof"

theorem advances_readExact {count : Nat} {bytes : Bytes} (length : bytes.length = count) :
    (readExact count).Advances bytes [] (pure bytes) := by
  subst length
  exact .readExact "early eof" bytes

theorem advances_readU16 (high low : UInt8) :
    readU16.Advances [high, low] [] (pure (u16FromBe high low)) :=
  .andThen (.readElement "early eof" high)
    (.andThen (.readElement "early eof" low) (.stay (pure (u16FromBe high low))))

theorem advances_readPair (first second : UInt8) :
    readPair.Advances [first, second] [] (pure (first, second)) :=
  .andThen (@advances_readExact 2 [first, second] rfl) (.stay (pure (first, second)))

theorem advances_readTriple (first second third : UInt8) :
    readTriple.Advances [first, second, third] [] (pure (first, second, third)) :=
  .andThen (@advances_readExact 3 [first, second, third] rfl)
    (.stay (pure (first, second, third)))

end ByteParty

namespace TargetAddr

open ByteParty

def v4Read (octets : Bytes) (port : UInt16) : ByteParty TargetAddr :=
  match octets with
  | [a, b, c, d] => pure (ip (SocketAddr.new (.v4 ⟨a, b, c, d⟩) port))
  | _ => Party.throw "early eof"

def nameRead (name : Bytes) (port : UInt16) : ByteParty TargetAddr :=
  match fromUtf8 name with
  | some name => pure (ofName name port)
  | none => Party.throw "Invalid domain"

def v6Read (octets : Bytes) (port : UInt16) : ByteParty TargetAddr :=
  if length : octets.length = 16 then
    pure (ip (SocketAddr.new (.v6 (Ipv6Addr.ofOctets octets length)) port))
  else Party.throw "early eof"

/-- The branches on the type byte. -/
def readBehind (atyp : UInt8) : ByteParty TargetAddr :=
  if atyp = 1 then do
    let octets ← ByteParty.readExact 4
    let port ← ByteParty.readU16
    v4Read octets port
  else if atyp = 3 then do
    let len ← ByteParty.readU8
    let name ← ByteParty.readExact len.toNat
    let port ← ByteParty.readU16
    nameRead name port
  else if atyp = 4 then do
    let octets ← ByteParty.readExact 16
    let port ← ByteParty.readU16
    v6Read octets port
  else Party.throw s!"Invalid ATYP: {atyp.toNat}"

def readFromStream : ByteParty TargetAddr := do
  let atyp ← Party.readElement "faild to read_u8"
  readBehind atyp

theorem exists_of_bind {ε α γ : Type} {first : Except ε α} {next : α → Except ε γ} {value : γ}
    (bound : first >>= next = .ok value) : ∃ given, first = .ok given ∧ next given = .ok value := by
  cases first with
  | error error => cases bound
  | ok given => exact ⟨given, rfl, bound⟩

theorem readExact_eq_ok {count : Nat} {stream bytes rest : Bytes}
    (read : QuicProxy.readExact count stream = .ok (bytes, rest)) :
    stream = bytes ++ rest ∧ bytes.length = count := by
  unfold QuicProxy.readExact at read
  split at read
  · cases read
  · rename_i long
    cases read
    exact ⟨(List.take_append_drop count stream).symm,
      List.length_take_of_le (Nat.le_of_not_lt long)⟩

theorem readU16_eq_ok {stream rest : Bytes} {word : UInt16}
    (read : QuicProxy.readU16 stream = .ok (word, rest)) :
    ∃ high low, stream = high :: low :: rest ∧ word = u16FromBe high low := by
  rcases stream with _ | ⟨high, _ | ⟨low, tail⟩⟩
  · cases read
  · cases read
  · cases read
    exact ⟨high, low, rfl, rfl⟩

/-- A fixed number of bytes and the port behind them, as all of the kinds have them. -/
theorem advances_body {α : Type} {count : Nat} {stream bytes behind rest : Bytes} {port : UInt16}
    (next : Bytes → UInt16 → ByteParty α)
    (body : QuicProxy.readExact count stream = .ok (bytes, behind))
    (word : QuicProxy.readU16 behind = .ok (port, rest)) :
    ∃ used, stream = used ++ rest ∧
      Party.Advances (do
        let bytes ← ByteParty.readExact count
        let port ← ByteParty.readU16
        next bytes port) used [] (next bytes port) := by
  obtain ⟨rfl, length⟩ := readExact_eq_ok body
  obtain ⟨high, low, rfl, rfl⟩ := readU16_eq_ok word
  refine ⟨bytes ++ ([high, low] ++ []), by simp, ?_⟩
  exact .andThen (advances_readExact length) (.andThen (advances_readU16 high low) (.stay _))

theorem advances_readBehind {atyp : UInt8} {stream rest : Bytes} {addr : TargetAddr}
    (read : readFrom (atyp :: stream) = .ok (addr, rest)) :
    ∃ used, stream = used ++ rest ∧ (readBehind atyp).Advances used [] (pure addr) := by
  simp only [readFrom, QuicProxy.readU8] at read
  unfold readBehind
  split at read
  · rename_i v4
    obtain ⟨⟨octets, behind⟩, body, read⟩ := exists_of_bind read
    obtain ⟨⟨port, left⟩, word, read⟩ := exists_of_bind read
    rw [if_pos v4]
    split at read
    · rename_i shape
      cases read
      obtain ⟨used, same, advances⟩ := advances_body v4Read body word
      rw [show octets = _ from shape] at advances
      exact ⟨used, same, advances⟩
    · cases read
  split at read
  · rename_i v4 named
    rw [if_neg v4, if_pos named]
    obtain ⟨⟨len, behind⟩, one, then_name⟩ := exists_of_bind read
    obtain ⟨⟨name, left⟩, body, then_port⟩ := exists_of_bind then_name
    obtain ⟨⟨port, last⟩, word, chosen⟩ := exists_of_bind then_port
    obtain rfl : stream = len :: behind := by
      cases stream with
      | nil => cases one
      | cons byte stream =>
          cases one
          rfl
    cases text : fromUtf8 name with
    | none =>
        simp only [text] at chosen
        cases chosen
    | some host =>
        simp only [text] at chosen
        cases chosen
        obtain ⟨used, same, advances⟩ := advances_body nameRead body word
        rw [nameRead, text] at advances
        exact ⟨[len] ++ used, congrArg (len :: ·) same, .andThen (.readElement _ len) advances⟩
  split at read
  · rename_i v4 named v6
    obtain ⟨⟨octets, behind⟩, body, read⟩ := exists_of_bind read
    obtain ⟨⟨port, left⟩, word, read⟩ := exists_of_bind read
    rw [if_neg v4, if_neg named, if_pos v6]
    split at read
    · rename_i length
      cases read
      obtain ⟨used, same, advances⟩ := advances_body v6Read body word
      rw [v6Read, dif_pos (show octets.length = 16 from length)] at advances
      exact ⟨used, same, advances⟩
    · cases read
  · cases read

/-- What `read_from` makes of the bytes that are there, it makes of them as they
come. -/
theorem advances_of_readFrom {stream rest : Bytes} {addr : TargetAddr}
    (read : readFrom stream = .ok (addr, rest)) :
    ∃ used, stream = used ++ rest ∧ readFromStream.Advances used [] (pure addr) := by
  rcases stream with _ | ⟨atyp, stream⟩
  · cases read
  obtain ⟨used, rfl, advances⟩ := advances_readBehind read
  exact ⟨[atyp] ++ used, rfl, .andThen (.readElement _ atyp) advances⟩

theorem advances_writeTo {target : TargetAddr} (short : target.ShortName) :
    readFromStream.Advances target.writeTo [] (pure target.decoded) := by
  have read := readFrom_writeTo short []
  rw [List.append_nil] at read
  obtain ⟨used, shape, advances⟩ := advances_of_readFrom read
  rw [List.append_nil] at shape
  rw [shape]
  exact advances

theorem parses_readExact (count : Nat) (input : Bytes) :
    (ByteParty.readExact count).parses input = QuicProxy.readExact count input :=
  Party.parses_readExact "early eof" count input

theorem parses_readU8 (input : Bytes) : ByteParty.readU8.parses input = QuicProxy.readU8 input := by
  rw [ByteParty.readU8, Party.parses_readElement]
  cases input <;> rfl

theorem parses_readU16 (input : Bytes) :
    ByteParty.readU16.parses input = QuicProxy.readU16 input := by
  simp only [ByteParty.readU16, Party.parses_bind, parses_readU8]
  rcases input with _ | ⟨high, _ | ⟨low, rest⟩⟩ <;> rfl

theorem parses_readFrom (input : Bytes) : readFromStream.parses input = readFrom input := by
  rw [readFromStream, Party.parses_bind, Party.parses_readElement]
  cases input with
  | nil => rfl
  | cons atyp stream =>
      show (readBehind atyp).parses stream = _
      rw [readBehind, readFrom]
      simp only [QuicProxy.readU8]
      split
      · simp only [Party.parses_bind, parses_readExact, parses_readU16]
        refine congrArg _ (funext fun octets => congrArg _ (funext fun port => ?_))
        rcases octets with ⟨_ | ⟨_, _ | ⟨_, _ | ⟨_, _ | ⟨_, _ | _⟩⟩⟩⟩, _⟩ <;> rfl
      split
      · simp only [Party.parses_bind, parses_readExact, parses_readU16, parses_readU8]
        refine congrArg _ (funext fun len => congrArg _ (funext fun name =>
          congrArg _ (funext fun port => ?_)))
        unfold nameRead
        cases fromUtf8 name.1 <;> rfl
      split
      · simp only [Party.parses_bind, parses_readExact, parses_readU16]
        refine congrArg _ (funext fun octets => congrArg _ (funext fun port => ?_))
        by_cases length : octets.1.length = 16
        · rw [v6Read, dif_pos length, dif_pos length]
          rfl
        · rw [v6Read, dif_neg length, dif_neg length]
          rfl
      · rfl

end TargetAddr

end QuicProxy
