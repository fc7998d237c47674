import QuicProxy.Proxy.Inbound

namespace QuicProxy

/-! The parsers of the SOCKS5 / Trojan address layout against `TargetAddr::decode`:
`TargetAddr::read_from` (`src/proxy/mod.rs`), which reads a stream, and
`parse_target_from_syn` (`src/proxy/inbound/anytls.rs`). -/

namespace TargetAddr

/-- The error of a read that reaches the end of the stream. -/
def IsEof (error : String) : Prop := error = "early eof" ∨ error = "faild to read_u8"

/-- What `read_from` has to do where `decode` gives this. -/
def ReadsAs (buf : Bytes) (read : Except String (TargetAddr × Bytes)) :
    Except String (Option (TargetAddr × Nat)) → Prop
  | .ok (some (addr, used)) => used ≤ buf.length ∧ read = .ok (addr, buf.drop used)
  | .ok none => ∃ error, read = .error error ∧ IsEof error
  | .error error => read = .error error ∧ ¬IsEof error

theorem readsAs_v4 (body : Bytes) : ReadsAs (1 :: body) (readFrom (1 :: body))
    (decode (1 :: body)) := by
  match body with
  | [] | [_] | [_, _] | [_, _, _] | [_, _, _, _] | [_, _, _, _, _] =>
      exact ⟨"early eof", rfl, .inl rfl⟩
  | a :: b :: c :: d :: high :: low :: rest =>
      refine ⟨?_, rfl⟩
      simp only [List.length_cons]
      omega

theorem invalidDomain_not_eof : ¬IsEof "Invalid domain" := by
  rintro (same | same) <;> exact absurd same (by decide)

theorem invalidAtyp_not_eof (atyp : UInt8) : ¬IsEof s!"Invalid ATYP: {atyp.toNat}" := by
  have other {text : String} (first : text.toList.head? ≠ some 'I') :
      s!"Invalid ATYP: {atyp.toNat}" ≠ text := by
    rintro rfl
    refine first ?_
    simp only [String.toList_append]
    rfl
  rintro (same | same)
  · exact other (by decide) same
  · exact other (by decide) same

theorem readsAs_name (body : Bytes) : ReadsAs (3 :: body) (readFrom (3 :: body))
    (decode (3 :: body)) := by
  cases body with
  | nil => exact ⟨"early eof", rfl, .inl rfl⟩
  | cons len tail =>
      change ReadsAs _ _ (decodeName (len :: tail))
      have whole : (3 :: len :: tail).length = tail.length + 2 := rfl
      simp only [readFrom, readU8, bind, Except.bind, decodeName, namePortAt]
      rw [if_neg (by decide), if_pos trivial]
      rcases Nat.lt_or_ge tail.length len.toNat with short | enough
      · rw [readExact_of_length_lt short, List.drop_eq_nil_of_le (Nat.le_of_lt short)]
        exact ⟨"early eof", rfl, .inl rfl⟩
      · rw [readExact_of_le enough]
        rcases port : tail.drop len.toNat with _ | ⟨high, _ | ⟨low, rest⟩⟩
        · exact ⟨"early eof", rfl, .inl rfl⟩
        · exact ⟨"early eof", rfl, .inl rfl⟩
        · have used : (tail.take len.toNat).length = len.toNat := List.length_take_of_le enough
          have long := congrArg List.length port
          simp only [List.length_drop, List.length_cons] at long
          have dropped : (3 :: len :: tail).drop (2 + len.toNat + 2) = rest := by
            rw [show 2 + len.toNat + 2 = len.toNat + 2 + 1 + 1 by omega, List.drop_succ_cons,
              List.drop_succ_cons, ← List.drop_drop, port]
            rfl
          simp only [readU16]
          cases text : fromUtf8 (tail.take len.toNat) with
          | none => exact ⟨rfl, invalidDomain_not_eof⟩
          | some name =>
              simp only [ReadsAs, used, dropped, whole]
              exact ⟨by omega, rfl⟩

theorem readsAs_v6 (body : Bytes) : ReadsAs (4 :: body) (readFrom (4 :: body))
    (decode (4 :: body)) := by
  change ReadsAs _ _ (.ok ((v6PortAt body).map (·, 19)))
  simp only [readFrom, readU8, bind, Except.bind, v6PortAt]
  rw [if_neg (by decide), if_neg (by decide), if_pos trivial]
  rcases Nat.lt_or_ge body.length 16 with short | enough
  · rw [readExact_of_length_lt short, dif_neg (by rw [List.length_take]; omega)]
    exact ⟨"early eof", rfl, .inl rfl⟩
  · have octets : (body.take 16).length = 16 := List.length_take_of_le enough
    rw [readExact_of_le enough, dif_pos octets]
    rcases port : body.drop 16 with _ | ⟨high, _ | ⟨low, rest⟩⟩
    · exact ⟨"early eof", rfl, .inl rfl⟩
    · exact ⟨"early eof", rfl, .inl rfl⟩
    · have long := congrArg List.length port
      simp only [List.length_drop, List.length_cons] at long
      have dropped : (4 :: body).drop 19 = rest := by
        have again := congrArg (List.drop 2) port
        rwa [List.drop_drop] at again
      simp only [readU16, dif_pos octets, Option.map_some, ReadsAs, dropped, List.length_cons]
      exact ⟨by omega, rfl⟩

theorem readsAs_decode (buf : Bytes) : ReadsAs buf (readFrom buf) (decode buf) := by
  cases buf with
  | nil => exact ⟨"faild to read_u8", rfl, .inr rfl⟩
  | cons atyp body =>
      by_cases v4 : atyp = 1
      · exact v4 ▸ readsAs_v4 body
      by_cases name : atyp = 3
      · exact name ▸ readsAs_name body
      by_cases v6 : atyp = 4
      · exact v6 ▸ readsAs_v6 body
      simp only [readFrom, readU8, decode, v4, name, v6, if_false]
      exact ⟨rfl, invalidAtyp_not_eof atyp⟩

/-- `decode` of a buffer is `read_from` of the stream of its bytes. -/
theorem decode_agrees_readFrom (buf : Bytes) :
    (∀ addr used, decode buf = .ok (some (addr, used)) ↔
      used ≤ buf.length ∧ readFrom buf = .ok (addr, buf.drop used)) ∧
    (decode buf = .ok none ↔ ∃ error, readFrom buf = .error error ∧ IsEof error) ∧
    (∀ error, decode buf = .error error ↔ readFrom buf = .error error ∧ ¬IsEof error) := by
  have reads := readsAs_decode buf
  revert reads
  rcases decode buf with error | _ | ⟨addr, used⟩
  · rintro ⟨same, other⟩
    rw [same]
    refine ⟨fun addr used => iff_of_false nofun (fun read => nomatch read.2), ?_, fun error' => ?_⟩
    · refine iff_of_false nofun ?_
      rintro ⟨error', ⟨⟩, eof⟩
      exact other eof
    · constructor
      · rintro ⟨⟩
        exact ⟨rfl, other⟩
      · rintro ⟨⟨⟩, -⟩
        rfl
  · rintro ⟨error, same, eof⟩
    rw [same]
    refine ⟨fun addr used => iff_of_false nofun (fun read => nomatch read.2), ?_, fun error' => ?_⟩
    · exact iff_of_true rfl ⟨error, rfl, eof⟩
    · refine iff_of_false nofun ?_
      rintro ⟨⟨⟩, other⟩
      exact other eof
  · rintro ⟨within, same⟩
    rw [same]
    refine ⟨fun addr' used' => ?_, iff_of_false nofun (fun read => nomatch read.choose_spec.1),
      fun error => iff_of_false nofun (fun read => nomatch read.1)⟩
    constructor
    · rintro ⟨⟩
      exact ⟨within, rfl⟩
    · rintro ⟨within', read⟩
      obtain ⟨rfl, rest⟩ := Prod.mk.inj (Except.ok.inj read)
      -- What is left tells how much was taken.
      have left := congrArg List.length rest
      rw [List.length_drop, List.length_drop] at left
      obtain rfl : used = used' := by omega
      rfl

end TargetAddr

namespace Anytls

open TargetAddr

/-- `parse_target_from_syn` returns, with the address that `decode` finds or with
an error where it finds none. -/
def AgreesWithDecode (data : Bytes) : Prop :=
  ∃ result, parseTargetFromSyn data = some result ∧
    (∀ addr, result = .ok addr ↔ ∃ used, decode data = .ok (some (addr, used))) ∧
    ((∃ error, result = .error error) ↔
      decode data = .ok none ∨ ∃ error, decode data = .error error)

/-- There is more than the type byte of a domain, and no domain in front that is
an IP literal. -/
def PlainSyn (data : Bytes) : Prop :=
  data ≠ [3] ∧ ∀ name port rest, ShortName (.domain name port) →
    data = (TargetAddr.domain name port).writeTo ++ rest → IpAddr.parse name.toList = none

theorem agreesWithDecode_of_ok {data : Bytes} {addr : TargetAddr} {used : Nat}
    (parses : parseTargetFromSyn data = some (.ok addr))
    (decodes : decode data = .ok (some (addr, used))) : AgreesWithDecode data := by
  refine ⟨_, parses, fun addr' => ?_, ?_⟩
  · rw [decodes]
    constructor
    · rintro ⟨⟩
      exact ⟨used, rfl⟩
    · rintro ⟨used', ⟨⟩⟩
      rfl
  · rw [decodes]
    refine iff_of_false (fun failed => nomatch failed.choose_spec) ?_
    rintro (⟨⟨⟩⟩ | ⟨error, ⟨⟩⟩)

theorem agreesWithDecode_of_error {data : Bytes} {error : String}
    (parses : parseTargetFromSyn data = some (.error error))
    (decodes : decode data = .ok none ∨ ∃ error, decode data = .error error) :
    AgreesWithDecode data := by
  refine ⟨_, parses, fun addr => iff_of_false nofun ?_, iff_of_true ⟨error, rfl⟩ decodes⟩
  rintro ⟨used, found⟩
  rcases decodes with none | ⟨error', failed⟩
  · cases none.symm.trans found
  · cases failed.symm.trans found

theorem agreesWithDecode_of_option {data : Bytes} {found : Option TargetAddr} {error : String}
    {used : Nat} (parses : parseTargetFromSyn data = some (found.elim (.error error) .ok))
    (decodes : decode data = .ok (found.map (·, used))) : AgreesWithDecode data := by
  cases found with
  | none => exact agreesWithDecode_of_error parses (.inl decodes)
  | some addr => exact agreesWithDecode_of_ok parses decodes

theorem writeTo_of_namePortAt {body bytes : Bytes} {name : String} {port : UInt16}
    (read : namePortAt body = some (bytes, port)) (text : fromUtf8 bytes = some name) :
    ShortName (.domain name port) ∧
      ∃ rest, 3 :: body = (TargetAddr.domain name port).writeTo ++ rest := by
  cases body with
  | nil => cases read
  | cons len tail =>
      have length := length_of_namePortAt read
      have bound := len.toNat_lt
      have same := asBytes_of_fromUtf8 text
      refine ⟨by change (asBytes name).length ≤ 255; rw [same]; omega, ?_⟩
      simp only [namePortAt] at read
      split at read
      · next high low rest here =>
          obtain ⟨taken, rfl⟩ := Prod.mk.inj (Option.some.inj read)
          have lenByte : castU8 len.toNat = len := by
            apply UInt8.toNat_inj.mp
            rw [toNat_castU8, Nat.mod_eq_of_lt bound]
          refine ⟨rest, ?_⟩
          simp only [writeTo, same, length, lenByte, u16ToBe_u16FromBe, List.cons_append,
            List.append_assoc, List.nil_append]
          rw [← here, ← taken, List.take_append_drop]
      · cases read

theorem plainSyn_of_not_name {atyp : UInt8} {body : Bytes} (other : atyp ≠ 3) :
    PlainSyn (atyp :: body) := by
  refine ⟨fun same => other (List.cons.inj same).1, fun name port rest _ same => ?_⟩
  rw [writeTo, List.cons_append] at same
  exact absurd (List.cons.inj same).1 other

theorem plainSyn_of_decode {data : Bytes} (long : data ≠ [3])
    (names : ∀ addr used, decode data = .ok (some (addr, used)) →
      ∃ name port, addr = .domain name port) : PlainSyn data := by
  refine ⟨long, fun name port rest short same => ?_⟩
  subst same
  obtain ⟨name', port', found⟩ := names _ _ (decode_writeTo short rest)
  cases literal : IpAddr.parse name.toList with
  | none => rfl
  | some addr =>
      simp only [decoded, ofName, literal] at found
      cases found

theorem agreesWithDecode_name (body : Bytes) :
    AgreesWithDecode (3 :: body) ↔ PlainSyn (3 :: body) := by
  cases body with
  | nil =>
      refine iff_of_false ?_ fun plain => plain.1 rfl
      rintro ⟨result, ⟨⟩, -⟩
  | cons len tail =>
      have parses : parseTargetFromSyn (3 :: len :: tail) = parseSynName (len :: tail) := rfl
      have decodes : decode (3 :: len :: tail) = decodeName (len :: tail) := rfl
      unfold parseSynName at parses
      unfold decodeName at decodes
      cases found : namePortAt (len :: tail) with
      | none =>
          simp only [found] at parses decodes
          refine iff_of_true (agreesWithDecode_of_error parses (.inl decodes))
            (plainSyn_of_decode nofun fun addr used same => ?_)
          cases decodes.symm.trans same
      | some read =>
          obtain ⟨bytes, port⟩ := read
          cases text : fromUtf8 bytes with
          | none =>
              simp only [found, text] at parses decodes
              refine iff_of_true (agreesWithDecode_of_error parses (.inr ⟨_, decodes⟩))
                (plainSyn_of_decode nofun fun addr used same => ?_)
              cases decodes.symm.trans same
          | some name =>
              simp only [found, text] at parses decodes
              obtain ⟨short, rest, same⟩ := writeTo_of_namePortAt found text
              cases literal : IpAddr.parse name.toList with
              | none =>
                  rw [ofName, literal] at decodes
                  refine iff_of_true (agreesWithDecode_of_ok parses decodes)
                    (plainSyn_of_decode nofun fun addr used same => ?_)
                  cases decodes.symm.trans same
                  exact ⟨name, port, rfl⟩
              | some addr =>
                  rw [ofName, literal] at decodes
                  refine iff_of_false ?_ fun plain => ?_
                  · rintro ⟨result, parses', agree, -⟩
                    obtain rfl := Option.some.inj (parses.symm.trans parses')
                    obtain ⟨used, decodes'⟩ := (agree _).mp rfl
                    cases decodes.symm.trans decodes'
                  · cases literal.symm.trans (plain.2 name port rest short same)

theorem agreesWithDecode_iff (data : Bytes) : AgreesWithDecode data ↔ PlainSyn data := by
  cases data with
  | nil =>
      refine iff_of_true (agreesWithDecode_of_error rfl (.inl rfl)) ⟨nofun, ?_⟩
      intro name port rest _ same
      cases same
  | cons atyp body =>
      by_cases v4 : atyp = 1
      · subst v4
        refine iff_of_true ?_ (plainSyn_of_not_name (by decide))
        have parses : parseTargetFromSyn (1 :: body) =
            some ((v4PortAt body).elim (.error "SYN IPv4 data too short") .ok) := by
          simp only [parseTargetFromSyn, if_true]
          cases v4PortAt body <;> rfl
        exact agreesWithDecode_of_option parses rfl
      by_cases isName : atyp = 3
      · subst isName
        exact agreesWithDecode_name body
      by_cases v6 : atyp = 4
      · subst v6
        refine iff_of_true ?_ (plainSyn_of_not_name (by decide))
        have parses : parseTargetFromSyn (4 :: body) =
            some ((v6PortAt body).elim (.error "SYN IPv6 data too short") .ok) := by
          simp only [parseTargetFromSyn, v4, isName, if_false, if_true]
          cases v6PortAt body <;> rfl
        exact agreesWithDecode_of_option parses rfl
      have parses : parseTargetFromSyn (atyp :: body) =
          some (.error s!"unsupported ATYP in SYN: {atyp.toNat}") := by
        simp only [parseTargetFromSyn, v4, isName, v6, if_false]
      have decodes : decode (atyp :: body) = .error s!"Invalid ATYP: {atyp.toNat}" := by
        simp only [decode, v4, isName, v6, if_false]
      exact iff_of_true (agreesWithDecode_of_error parses (.inr ⟨_, decodes⟩))
        (plainSyn_of_not_name isName)

theorem missingLength_panics : ¬AgreesWithDecode [3] := by
  rintro ⟨result, ⟨⟩, -⟩

end Anytls

end QuicProxy
