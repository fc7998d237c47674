import QuicProxy.Proxy.Anytls.Uot
import QuicProxy.Proxy.Vmess.Addr
import QuicProxy.Proxy.Http

namespace QuicProxy

/-! The three address encodings against their decoders, for every address an
inbound can hand to an outbound. -/

namespace TargetAddr

def unzoned : TargetAddr → TargetAddr
  | ip addr => ip addr.unscoped
  | domain name port => domain name port

def SameEndpoint (target result : TargetAddr) : Prop := SameAddr target.unzoned result

/-- `write_to` and `decode`: the address comes back and `rest` is left, the
length is the announced one, and a strict part is read as incomplete. -/
def SocksInSync (same : TargetAddr → TargetAddr → Prop) (target : TargetAddr)
    (rest : Bytes) : Prop :=
  (∃ result used, decode (target.writeTo ++ rest) = .ok (some (result, used)) ∧
      (target.writeTo ++ rest).drop used = rest ∧ same target result) ∧
    target.writeTo.length = target.encodedLen ∧
      ∀ count < target.writeTo.length, decode (target.writeTo.take count) = .ok none

def UotInSync (same : TargetAddr → TargetAddr → Prop) (target : TargetAddr)
    (rest : Bytes) : Prop :=
  ∃ result used, Uot.decodeTarget (Uot.writeTarget target ++ rest) = .ok (result, used) ∧
    (Uot.writeTarget target ++ rest).drop used = rest ∧ same target result

def VmessInSync (same : TargetAddr → TargetAddr → Prop) (target : TargetAddr)
    (rest : Bytes) : Prop :=
  ∃ result, Vmess.readAddr (Vmess.writeToBuf target ++ rest) = .ok (result, rest) ∧
    same target result

def InSync (same : TargetAddr → TargetAddr → Prop) (target : TargetAddr) (rest : Bytes) :
    Prop :=
  SocksInSync same target rest ∧ UotInSync same target rest ∧ VmessInSync same target rest

theorem inSync_of_shortName {same : TargetAddr → TargetAddr → Prop} {target : TargetAddr}
    (short : target.ShortName) (socks : same target target.decoded)
    (uot : same target (Uot.decoded target)) (vmess : same target (Vmess.decoded target))
    (rest : Bytes) : InSync same target rest :=
  ⟨⟨⟨_, _, decode_writeTo short rest, List.drop_left, socks⟩, length_writeTo target,
      fun _ strict => decode_take_writeTo short strict⟩,
    ⟨_, _, Uot.decodeTarget_writeTarget short rest, List.drop_left, uot⟩,
    ⟨_, Vmess.readAddr_writeToBuf short rest, vmess⟩⟩

theorem length_le_of_drop {first rest : Bytes} {used : Nat}
    (left : (first ++ rest).drop used = rest) : first.length ≤ used := by
  have := congrArg List.length left
  rw [List.length_drop, List.length_append] at this
  omega

theorem shortName_of_socksInSync {same : TargetAddr → TargetAddr → Prop}
    {target : TargetAddr} {rest : Bytes} (sync : SocksInSync same target rest) :
    target.ShortName := by
  obtain ⟨⟨result, used, decodes, left, _⟩, _⟩ := sync
  cases target with
  | ip addr => trivial
  | domain name port =>
      apply Nat.le_of_not_lt
      intro long
      have := decode_long_domain long rest decodes
      have := length_le_of_drop left
      omega

theorem shortName_of_uotInSync {same : TargetAddr → TargetAddr → Prop}
    {target : TargetAddr} {rest : Bytes} (sync : UotInSync same target rest) :
    target.ShortName := by
  obtain ⟨result, used, decodes, left, _⟩ := sync
  cases target with
  | ip addr => trivial
  | domain name port =>
      apply Nat.le_of_not_lt
      intro long
      have := Uot.decodeTarget_long_domain long rest decodes
      have := length_le_of_drop left
      omega

theorem shortName_of_vmessInSync {same : TargetAddr → TargetAddr → Prop}
    {target : TargetAddr} {rest : Bytes} (sync : VmessInSync same target rest) :
    target.ShortName := by
  obtain ⟨result, decodes, _⟩ := sync
  cases target with
  | ip addr => trivial
  | domain name port =>
      apply Nat.le_of_not_lt
      intro long
      exact Nat.lt_irrefl _ (Vmess.readAddr_long_domain long decodes)

theorem unscoped_of_socksInSync {target : TargetAddr} {rest : Bytes}
    (sync : SocksInSync SameAddr target rest) : target.Unscoped := by
  have short := shortName_of_socksInSync sync
  obtain ⟨⟨result, used, decodes, _, same⟩, _⟩ := sync
  cases target with
  | domain name port => trivial
  | ip addr =>
      rw [decode_writeTo short] at decodes
      cases decodes
      exact ip.inj ((sameAddr_ip_iff ..).mp same)

/-- For every address and every continuation: all three encodings stay in step
exactly when a domain fits its length byte; an IPv6 flow or zone gets lost. -/
theorem inSync_iff (target : TargetAddr) (rest : Bytes) :
    (InSync SameAddr target rest ↔ target.ShortName ∧ target.Unscoped) ∧
      (InSync SameEndpoint target rest ↔ target.ShortName) := by
  refine ⟨⟨?_, ?_⟩, ⟨?_, ?_⟩⟩
  · rintro ⟨socks, _, _⟩
    exact ⟨shortName_of_socksInSync socks, unscoped_of_socksInSync socks⟩
  · rintro ⟨short, unscoped⟩
    cases target with
    | ip addr =>
        have same : SameAddr (ip addr) (ip addr.unscoped) := .inl (congrArg ip unscoped)
        exact inSync_of_shortName short same same same rest
    | domain name port =>
        exact inSync_of_shortName short (sameAddr_ofName name port) (.inl rfl) (.inl rfl)
          rest
  · rintro ⟨socks, _, _⟩
    exact shortName_of_socksInSync socks
  · intro short
    cases target with
    | ip addr => exact inSync_of_shortName short (.inl rfl) (.inl rfl) (.inl rfl) rest
    | domain name port =>
        exact inSync_of_shortName short (sameAddr_ofName name port) (.inl rfl) (.inl rfl)
          rest

def longConnect : List Char := List.replicate 256 'a' ++ ":80".toList

theorem longConnect_not_inSync :
    ∃ target, Http.parseTarget longConnect = .ok target ∧
      ∀ rest, ¬SocksInSync SameEndpoint target rest ∧
        ¬UotInSync SameEndpoint target rest ∧ ¬VmessInSync SameEndpoint target rest := by
  refine ⟨.domain (String.ofList (List.replicate 256 'a')) 80, by decide +kernel, ?_⟩
  have long : ¬ShortName (.domain (String.ofList (List.replicate 256 'a')) 80) := by
    change ¬(asBytes _).length ≤ 255
    decide +kernel
  intro rest
  exact ⟨fun sync => long (shortName_of_socksInSync sync),
    fun sync => long (shortName_of_uotInSync sync),
    fun sync => long (shortName_of_vmessInSync sync)⟩

end TargetAddr

end QuicProxy
