import QuicProxy.Dns.FakeIp

namespace QuicProxy

/-! The addresses that a `FakeIPDNS` gives out, as members of its range
(`src/dns/mod.rs`). -/

inductive IpNet where
  | v4 (addr : Ipv4Addr) (prefixLen : Nat) (bound : prefixLen ≤ 32)
  | v6 (addr : Ipv6Addr) (prefixLen : Nat) (bound : prefixLen ≤ 128)

namespace IpNet

def ipv4? : IpNet → Option Ipv4Net
  | v4 addr prefixLen bound => some ⟨addr, prefixLen, bound⟩
  | v6 _ _ _ => none

def ipv6? : IpNet → Option Ipv6Net
  | v4 _ _ _ => none
  | v6 addr prefixLen bound => some ⟨addr, prefixLen, bound⟩

/-- What `ipnet` says of `IpNet::contains`: the same family and the same leading bits. -/
structure Contains (contains : IpNet → IpAddr → Bool) : Prop where
  v4 : ∀ addr prefixLen bound ip, contains (.v4 addr prefixLen bound) (.v4 ip) = true ↔
    natOfBytes addr.octets / 2 ^ (32 - prefixLen) = natOfBytes ip.octets / 2 ^ (32 - prefixLen)
  v6 : ∀ addr prefixLen bound ip, contains (.v6 addr prefixLen bound) (.v6 ip) = true ↔
    natOfBytes addr.octets / 2 ^ (128 - prefixLen) =
      natOfBytes ip.octets / 2 ^ (128 - prefixLen)
  v4_v6 : ∀ addr prefixLen bound ip, contains (.v4 addr prefixLen bound) (.v6 ip) = false
  v6_v4 : ∀ addr prefixLen bound ip, contains (.v6 addr prefixLen bound) (.v4 ip) = false

end IpNet

namespace Family

def limit : Family → Nat
  | v4 => 2 ^ 32
  | v6 => 2 ^ 128

def ofBits (value : Nat) : Family → IpAddr
  | v4 => .v4 (.ofBits value)
  | v6 => .v6 (.ofBits value)

end Family

namespace FakeIpRange

/-- The ranges that `FakeIPDNS::new` takes from the configuration: of each family
the first that `IpNet::from_str` reads. -/
def configured (overflowChecks : Bool) (fromStr : String → Option IpNet)
    (range : Option (List String)) : FakeIpRange :=
  let nets := (range.getD []).filterMap fromStr
  { ipv4Cidr := (nets.findSome? (·.ipv4?)).getD FakeIpDns.defaultRange.ipv4Cidr
    ipv6Cidr := (nets.findSome? (·.ipv6?)).getD FakeIpDns.defaultRange.ipv6Cidr
    overflowChecks := overflowChecks }

/-- `contains` is that of `ipnet`. -/
def isFakeip (contains : IpNet → IpAddr → Bool) (range : FakeIpRange) : IpAddr → Bool
  | .v4 ip =>
      contains (.v4 range.ipv4Cidr.addr range.ipv4Cidr.prefixLen range.ipv4Cidr.bound) (.v4 ip)
  | .v6 ip =>
      contains (.v6 range.ipv6Cidr.addr range.ipv6Cidr.prefixLen range.ipv6Cidr.bound) (.v6 ip)

def addresses (range : FakeIpRange) : Family → Nat
  | .v4 => 2 ^ (32 - range.ipv4Cidr.prefixLen)
  | .v6 => 2 ^ (128 - range.ipv6Cidr.prefixLen)

/-- The configured address, which may be any of the range. -/
def base (range : FakeIpRange) : Family → Nat
  | .v4 => natOfBytes range.ipv4Cidr.addr.octets
  | .v6 => natOfBytes range.ipv6Cidr.addr.octets

/-- The sum does not overflow, whether or not the build checks that, and the
address is one of the range. -/
def Stays (contains : IpNet → IpAddr → Bool) (range : FakeIpRange) (cursor : UInt64)
    (family : Family) : Prop :=
  ∃ ip, (∀ checks, { range with overflowChecks := checks }.getFakeIp cursor family = some ip) ∧
    range.isFakeip contains ip = true

/-- From the configured address on, the range has room for the offset. -/
def Room (range : FakeIpRange) (cursor : UInt64) (family : Family) : Prop :=
  range.base family % range.addresses family + cursor.toNat % range.addresses family <
    range.addresses family

instance (range : FakeIpRange) (cursor : UInt64) (family : Family) :
    Decidable (range.Room cursor family) :=
  inferInstanceAs (Decidable (_ < _))

/-- Two cursors that differ by less than the number of addresses. -/
def Near (range : FakeIpRange) (family : Family) (first second : UInt64) : Prop :=
  first.toNat < second.toNat + range.addresses family ∧
    second.toNat < first.toNat + range.addresses family

end FakeIpRange

/-! Numbers of addresses. -/

theorem Ipv4Addr.natOfBytes_ofBits {value : Nat} (bound : value < 2 ^ 32) :
    natOfBytes (ofBits value).octets = value := by
  simp only [ofBits, octets, natOfBytes, List.foldl_cons, List.foldl_nil, toNat_castU8]
  omega

theorem Ipv6Addr.natOfBytes_ofBits {value : Nat} (bound : value < 2 ^ 128) :
    natOfBytes (ofBits value).octets = value := by
  rw [ofBits, natOfBytes_bytesOfNat]
  exact Nat.mod_eq_of_lt bound

theorem add_div_eq_iff {size : Nat} (pos : 0 < size) (base offset : Nat) :
    (base + offset) / size = base / size ↔ base % size + offset < size := by
  have split := Nat.div_add_mod base size
  have whole : (base + offset) / size = base / size + (base % size + offset) / size := by
    rw [← Nat.mul_add_div pos, ← Nat.add_assoc, split]
  rw [whole, Nat.add_eq_left, Nat.div_eq_zero_iff_lt pos]

theorem add_lt_of_dvd {size limit base offset : Nat} (divides : size ∣ limit) (bound : base < limit)
    (room : base % size + offset < size) : base + offset < limit := by
  obtain ⟨count, rfl⟩ := divides
  have block : base / size < count := Nat.div_lt_of_lt_mul bound
  have split := Nat.div_add_mod base size
  have last : size * (base / size + 1) ≤ size * count := Nat.mul_le_mul_left size block
  rw [Nat.mul_add_one] at last
  omega

theorem eq_of_mod_eq {size first second : Nat} (order : first ≤ second)
    (near : second < first + size) (same : first % size = second % size) : first = second := by
  have divides : size ∣ second - first := (Nat.modEq_iff_dvd' order).mp same
  have none := Nat.eq_zero_of_dvd_of_lt divides (by omega)
  omega

namespace FakeIpRange

variable {contains : IpNet → IpAddr → Bool} {range : FakeIpRange}
  {cursor first second : UInt64} {family : Family} {ip : IpAddr}

theorem addresses_pos (range : FakeIpRange) (family : Family) : 0 < range.addresses family := by
  cases family with
  | v4 => exact Nat.two_pow_pos _
  | v6 => exact Nat.two_pow_pos _

theorem addresses_dvd (range : FakeIpRange) (family : Family) :
    range.addresses family ∣ family.limit := by
  cases family with
  | v4 => exact Nat.pow_dvd_pow 2 (Nat.sub_le _ _)
  | v6 => exact Nat.pow_dvd_pow 2 (Nat.sub_le _ _)

theorem base_lt (range : FakeIpRange) (family : Family) : range.base family < family.limit := by
  cases family with
  | v4 =>
      have bound := natOfBytes_lt range.ipv4Cidr.addr.octets
      rw [Ipv4Addr.length_octets] at bound
      exact bound
  | v6 =>
      have bound := natOfBytes_lt range.ipv6Cidr.addr.octets
      rw [range.ipv6Cidr.addr.length_octets] at bound
      exact bound

theorem mod_hosts (range : FakeIpRange) (cursor : UInt64) (family : Family) :
    cursor.toNat % range.hosts family = cursor.toNat % range.addresses family := by
  cases family with
  | v4 => rfl
  | v6 =>
      simp only [hosts, addresses]
      split
      · rfl
      · have large : 2 ^ 64 ≤ 2 ^ (128 - range.ipv6Cidr.prefixLen) :=
          Nat.pow_le_pow_right (by omega) (by omega)
        have small := cursor.toNat_lt
        rw [Nat.mod_eq_of_lt small, Nat.mod_eq_of_lt (Nat.lt_of_lt_of_le small large)]

theorem getFakeIp_eq (range : FakeIpRange) (cursor : UInt64) (family : Family) :
    range.getFakeIp cursor family = (addOffset range.overflowChecks family.limit
      (range.base family) (cursor.toNat % range.addresses family)).map family.ofBits := by
  rw [← mod_hosts]
  cases family with
  | v4 => exact range.getFakeIp_v4 cursor
  | v6 => exact range.getFakeIp_v6 cursor

theorem isFakeip_ofBits (law : IpNet.Contains contains) {value : Nat}
    (bound : value < family.limit) :
    range.isFakeip contains (family.ofBits value) = true ↔
      value / range.addresses family = range.base family / range.addresses family := by
  cases family with
  | v4 =>
      refine (law.v4 _ _ _ _).trans ?_
      rw [Ipv4Addr.natOfBytes_ofBits bound]
      exact eq_comm
  | v6 =>
      refine (law.v6 _ _ _ _).trans ?_
      rw [Ipv6Addr.natOfBytes_ofBits bound]
      exact eq_comm

theorem stays_iff (law : IpNet.Contains contains) (range : FakeIpRange) (cursor : UInt64)
    (family : Family) : range.Stays contains cursor family ↔ range.Room cursor family := by
  have member {value : Nat} (bound : value < family.limit) :
      range.isFakeip contains (family.ofBits value) = true ↔
        value / range.addresses family = range.base family / range.addresses family :=
    isFakeip_ofBits law bound
  constructor
  · rintro ⟨ip, drawn, inside⟩
    have checked := drawn true
    rw [getFakeIp_eq, addOffset] at checked
    split at checked
    · rename_i fits
      cases checked
      exact (add_div_eq_iff (range.addresses_pos family) _ _).mp ((member fits).mp inside)
    · cases checked
  · intro room
    have fits := add_lt_of_dvd (range.addresses_dvd family) (range.base_lt family) room
    refine ⟨family.ofBits (range.base family + cursor.toNat % range.addresses family), ?_, ?_⟩
    · intro checks
      rw [getFakeIp_eq]
      exact congrArg (Option.map family.ofBits) (if_pos fits)
    · exact (member fits).mpr ((add_div_eq_iff (range.addresses_pos family) _ _).mpr room)

theorem getFakeIp_ne (differ : first ≠ second) (near : range.Near family first second)
    (drawn : range.getFakeIp first family = some ip) :
    range.getFakeIp second family ≠ some ip := by
  intro again
  have same := getFakeIp_inj drawn again
  rw [mod_hosts, mod_hosts] at same
  refine differ (UInt64.toNat_inj.mp ?_)
  rcases Nat.le_total first.toNat second.toNat with order | order
  · exact eq_of_mod_eq order near.2 same
  · exact (eq_of_mod_eq order near.1 same.symm).symm

/-- Cursors that give addresses of the range, exactly, and different ones always. -/
theorem stays_and_differ (law : IpNet.Contains contains) (range : FakeIpRange) (family : Family) :
    (∀ cursor, range.Stays contains cursor family ↔ range.Room cursor family) ∧
      ∀ first second, first ≠ second → range.Near family first second →
        ∀ ip, range.getFakeIp first family = some ip → range.getFakeIp second family ≠ some ip :=
  ⟨fun cursor => stays_iff law range cursor family,
    fun _ _ differ near _ drawn => getFakeIp_ne differ near drawn⟩

/-- An address in the middle of the default network. -/
def hostBits : FakeIpRange :=
  configured false
    (fun text => if text == "198.18.128.0/16" then
      some (.v4 ⟨198, 18, 128, 0⟩ 16 FakeIpDns.defaultRange.ipv4Cidr.bound) else none)
    (some ["198.18.128.0/16"])

def leadingBits : IpNet → IpAddr → Bool
  | .v4 addr prefixLen _, .v4 ip =>
      natOfBytes addr.octets / 2 ^ (32 - prefixLen) ==
        natOfBytes ip.octets / 2 ^ (32 - prefixLen)
  | .v6 addr prefixLen _, .v6 ip =>
      natOfBytes addr.octets / 2 ^ (128 - prefixLen) ==
        natOfBytes ip.octets / 2 ^ (128 - prefixLen)
  | _, _ => false

theorem contains_leadingBits : IpNet.Contains leadingBits :=
  ⟨fun _ _ _ _ => beq_iff_eq, fun _ _ _ _ => beq_iff_eq, fun _ _ _ _ => rfl, fun _ _ _ _ => rfl⟩

theorem stays_and_differ_hostBits :
    hostBits.Stays leadingBits 32767 .v4 ∧
      hostBits.getFakeIpv4 32767 = some ⟨198, 18, 255, 255⟩ ∧
      hostBits.getFakeIp 1 .v4 ≠ some (.v4 ⟨198, 18, 128, 0⟩) := by
  obtain ⟨stays, differ⟩ := stays_and_differ contains_leadingBits hostBits .v4
  exact ⟨(stays 32767).mpr (by decide), by decide,
    differ 0 1 (by decide) (by unfold Near; decide) _ (by decide)⟩

/-- From the middle on, the second half of the addresses is outside. -/
theorem hostBits_leaves :
    hostBits.getFakeIpv4 32768 = some ⟨198, 19, 0, 0⟩ ∧
      hostBits.isFakeip leadingBits (.v4 ⟨198, 19, 0, 0⟩) = false ∧
        ¬hostBits.Stays leadingBits 32768 .v4 := by
  refine ⟨by decide, by decide, fun stays => ?_⟩
  exact absurd ((stays_iff contains_leadingBits hostBits 32768 .v4).mp stays) (by decide)

end FakeIpRange

end QuicProxy
