import Mathlib.Data.Nat.ModEq
import QuicProxy.Cache
import QuicProxy.Net.RoundTrip
import QuicProxy.Proxy.Router.Rule

namespace QuicProxy

/-! `FakeIPDNS` (`src/dns/mod.rs`): domains are given addresses of a range in
turn, and the cache holds the addresses, their domains and the cursors. -/

/-! Addresses as numbers. -/

/-- The last `count` bytes of a number, the highest first. -/
def bytesOfNat : (count : Nat) → Nat → Bytes
  | 0, _ => []
  | count + 1, value => bytesOfNat count (value / 256) ++ [castU8 value]

theorem length_bytesOfNat (count value : Nat) : (bytesOfNat count value).length = count := by
  induction count generalizing value with
  | zero => rfl
  | succ count ih => simp [bytesOfNat, ih]

theorem natOfBytes_bytesOfNat (count value : Nat) :
    natOfBytes (bytesOfNat count value) = value % 256 ^ count := by
  induction count generalizing value with
  | zero => simp [bytesOfNat, natOfBytes, Nat.mod_one]
  | succ count ih =>
      have shorter := ih (value / 256)
      simp only [natOfBytes] at shorter
      simp only [natOfBytes, bytesOfNat, List.foldl_append, shorter, List.foldl_cons,
        List.foldl_nil, toNat_castU8]
      rw [Nat.pow_succ, Nat.mul_comm (256 ^ count), Nat.mod_mul]
      omega

def Ipv4Addr.ofBits (value : Nat) : Ipv4Addr :=
  ⟨castU8 (value / 16777216), castU8 (value / 65536), castU8 (value / 256), castU8 value⟩

def Ipv6Addr.ofBits (value : Nat) : Ipv6Addr :=
  ⟨bytesOfNat 16 value, length_bytesOfNat 16 value⟩

theorem Ipv4Addr.ofBits_inj {first second : Nat} (first_lt : first < 2 ^ 32)
    (second_lt : second < 2 ^ 32) (same : ofBits first = ofBits second) : first = second := by
  have bytes := Ipv4Addr.mk.inj same
  simp only [← UInt8.toNat_inj, toNat_castU8] at bytes
  omega

theorem Ipv6Addr.ofBits_inj {first second : Nat} (first_lt : first < 2 ^ 128)
    (second_lt : second < 2 ^ 128) (same : ofBits first = ofBits second) : first = second := by
  have bytes := congrArg natOfBytes (Ipv6Addr.mk.inj same)
  simp only [natOfBytes_bytesOfNat] at bytes
  omega

/-! The range. -/

structure Ipv4Net where
  addr : Ipv4Addr
  prefixLen : Nat
  bound : prefixLen ≤ 32

structure Ipv6Net where
  addr : Ipv6Addr
  prefixLen : Nat
  bound : prefixLen ≤ 128

/-- `overflowChecks` is a setting of the build: a sum that overflows is a panic,
or wraps around. -/
structure FakeIpRange where
  ipv4Cidr : Ipv4Net
  ipv6Cidr : Ipv6Net
  overflowChecks : Bool

inductive Family where
  | v4
  | v6
deriving DecidableEq

def QType.family : QType → Option Family
  | .a => some .v4
  | .aaaa => some .v6
  | .other _ => none

/-- `base + offset` in a type with `limit` values; `none` is a panic. -/
def addOffset (checks : Bool) (limit base offset : Nat) : Option Nat :=
  if base + offset < limit then some (base + offset)
  else if checks then none
  else some ((base + offset) % limit)

namespace FakeIpRange

variable (range : FakeIpRange)

def getFakeIpv4 (cursor : UInt64) : Option Ipv4Addr :=
  let totalHosts := 2 ^ (32 - range.ipv4Cidr.prefixLen)
  let offset := cursor.toNat % totalHosts
  let base := natOfBytes range.ipv4Cidr.addr.octets
  (addOffset range.overflowChecks (2 ^ 32) base offset).map Ipv4Addr.ofBits

def getFakeIpv6 (cursor : UInt64) : Option Ipv6Addr :=
  let prefixLen := range.ipv6Cidr.prefixLen
  let base := natOfBytes range.ipv6Cidr.addr.octets
  if prefixLen > 64 then
    let totalHosts := 2 ^ (128 - prefixLen)
    let offset := cursor.toNat % totalHosts
    (addOffset range.overflowChecks (2 ^ 128) base offset).map Ipv6Addr.ofBits
  else (addOffset range.overflowChecks (2 ^ 128) base cursor.toNat).map Ipv6Addr.ofBits

def getFakeIp (cursor : UInt64) : Family → Option IpAddr
  | .v4 => (range.getFakeIpv4 cursor).map IpAddr.v4
  | .v6 => (range.getFakeIpv6 cursor).map IpAddr.v6

/-- How many addresses the cursor goes through before it comes back to the
first one. -/
def hosts : Family → Nat
  | .v4 => 2 ^ (32 - range.ipv4Cidr.prefixLen)
  | .v6 =>
      if range.ipv6Cidr.prefixLen > 64 then 2 ^ (128 - range.ipv6Cidr.prefixLen) else 2 ^ 64

end FakeIpRange

/-! The resolver. -/

structure FakeIpDns where
  cache : Table String
  ipv4Cursor : UInt64
  ipv6Cursor : UInt64

/-- The errors of the cache on the writes of one call of `resolve_internal`, in
their order. -/
structure FakeIpFaults where
  cursor : Option String
  forward : Option String
  ptr : Option String
deriving DecidableEq

namespace Family

def cursorKey : Family → String
  | v4 => "fakeip_ipv4_cursor_index"
  | v6 => "fakeip_ipv6_cursor_index"

def cacheKey (domain : String) : Family → String
  | v4 => domain ++ ":A"
  | v6 => domain ++ ":AAAA"

end Family

def ptrKey (text : String) : String := "ptr:" ++ text

def IpAddr.text (ip : IpAddr) : String := String.ofList ip.toText

/-- The range that is taken when the configuration names none. -/
def FakeIpDns.defaultRange : FakeIpRange where
  ipv4Cidr := ⟨⟨198, 18, 0, 0⟩, 16, by decide⟩
  ipv6Cidr := ⟨⟨[0xfc, 0, 0, 0, 0, 0, 0, 0, 0, 0, 0, 0, 0, 0, 0, 0], rfl⟩, 18, by decide⟩
  overflowChecks := false

namespace FakeIpDns

variable (dns : FakeIpDns)

def cursor : Family → UInt64
  | .v4 => dns.ipv4Cursor
  | .v6 => dns.ipv6Cursor

def fetchAdd : Family → FakeIpDns
  | .v4 => { dns with ipv4Cursor := dns.ipv4Cursor + 1 }
  | .v6 => { dns with ipv6Cursor := dns.ipv6Cursor + 1 }

def loadCursor (fault : Option String) (key : String) (cache : Table String) : UInt64 :=
  match Cache.get fault key cache with
  | .ok (some text) =>
      UInt64.ofNat ((parseUnsigned (2 ^ 64) (trim text.toList)).getD 0)
  | .ok none => 0
  | .error _ => 0

/-- `FakeIPDNS::new` with the cache of an earlier process, and the errors of the cache
on the cursors that it reads. -/
def load (reads : Family → Option String) (cache : Table String) : FakeIpDns where
  cache := cache
  ipv4Cursor := loadCursor (reads .v4) Family.v4.cursorKey cache
  ipv6Cursor := loadCursor (reads .v6) Family.v6.cursorKey cache

/-- The resolver of a process that starts with an empty cache. -/
def empty : FakeIpDns := load (fun _ => none) ∅

def writeCursor (fault : Option String) (family : Family) (value : UInt64) : FakeIpDns :=
  let text := String.ofList (Nat.toDigits 10 value.toNat)
  { dns with cache := (Cache.set fault family.cursorKey text dns.cache).2 }

/-- The error of the cache is dropped. -/
def saveCursor (fault : Option String) (family : Family) : FakeIpDns :=
  dns.writeCursor fault family (dns.cursor family)

def nextCursor (fault : Option String) (family : Family) : UInt64 × FakeIpDns :=
  (dns.cursor family, (dns.fetchAdd family).saveCursor fault family)

def nextIpv4Cursor (fault : Option String) : UInt64 × FakeIpDns := dns.nextCursor fault .v4

def nextIpv6Cursor (fault : Option String) : UInt64 × FakeIpDns := dns.nextCursor fault .v6

def write (fault : Option String) (key value : String) : Except String Unit × FakeIpDns :=
  let (result, cache) := Cache.set fault key value dns.cache
  (result, { dns with cache := cache })

/-- The two mappings, the address first. -/
def store (faults : FakeIpFaults) (family : Family) (domain text : String) :
    Except String String × FakeIpDns :=
  match dns.write faults.forward (family.cacheKey domain) text with
  | (.error error, dns) => (.error error, dns)
  | (.ok (), dns) =>
      match dns.write faults.ptr (ptrKey text) domain with
      | (.error error, dns) => (.error error, dns)
      | (.ok (), dns) => (.ok text, dns)

/-- `resolve_internal` for a domain that is not in the cache.  The result is
`none` when the call panics. -/
def allocate (range : FakeIpRange) (faults : FakeIpFaults) (domain : String) (family : Family) :
    Option (Except String String) × FakeIpDns :=
  let (cursor, dns) := dns.nextCursor faults.cursor family
  match range.getFakeIp cursor family with
  | none => (none, dns)
  | some ip =>
      let (result, dns) := dns.store faults family domain ip.text
      (some result, dns)

def resolveInternal (range : FakeIpRange) (fault : Option String) (faults : FakeIpFaults)
    (domain : String) (qtype : QType) : Option (Except String String) × FakeIpDns :=
  match qtype.family with
  | none => (some (.error "qtype unspported"), dns)
  | some family =>
      match Cache.get fault (family.cacheKey domain) dns.cache with
      | .ok (some text) => (some (.ok text), dns)
      | _ => dns.allocate range faults domain family

/-- The parser of `resolve_v4` and `resolve_v6`. -/
def parseIp (family : Family) (text : String) : Option IpAddr :=
  match family with
  | .v4 => (NetParser.parseWith NetParser.readIpv4Addr (trim text.toList)).map IpAddr.v4
  | .v6 => (NetParser.parseWith NetParser.readIpv6Addr (trim text.toList)).map IpAddr.v6

def resolve (range : FakeIpRange) (fault : Option String) (faults : FakeIpFaults)
    (domain : String) (qtype : QType) (family : Family) :
    Option (Except String IpAddr) × FakeIpDns :=
  match dns.resolveInternal range fault faults domain qtype with
  | (none, dns) => (none, dns)
  | (some (.error error), dns) => (some (.error error), dns)
  | (some (.ok text), dns) =>
      match parseIp family text with
      | none => (some (.error "parse string ip failed"), dns)
      | some ip => (some (.ok ip), dns)

def resolveV4 (range : FakeIpRange) (fault : Option String) (faults : FakeIpFaults)
    (domain : String) : Option (Except String IpAddr) × FakeIpDns :=
  dns.resolve range fault faults domain .a .v4

def resolveV6 (range : FakeIpRange) (fault : Option String) (faults : FakeIpFaults)
    (domain : String) : Option (Except String IpAddr) × FakeIpDns :=
  dns.resolve range fault faults domain .aaaa .v6

def reverseLookup (fault : Option String) (ip : IpAddr) : Option String :=
  match Cache.get fault (ptrKey ip.text) dns.cache with
  | .ok (some domain) =>
      let domain := trim domain.toList
      if domain.isEmpty then none else some (String.ofList domain)
  | .ok none => none
  | .error _ => none

end FakeIpDns

/-! The addresses of a range. -/

theorem addOffset_eq_mod {checks : Bool} {limit base offset sum : Nat}
    (added : addOffset checks limit base offset = some sum) : sum = (base + offset) % limit := by
  simp only [addOffset] at added
  split at added
  · rename_i small
    cases added
    exact (Nat.mod_eq_of_lt small).symm
  · split at added
    · cases added
    · cases added
      rfl

theorem addOffset_inj {checks : Bool} {limit base first second sum : Nat} (first_lt : first < limit)
    (second_lt : second < limit) (added : addOffset checks limit base first = some sum)
    (again : addOffset checks limit base second = some sum) : first = second := by
  have same : (base + first) % limit = (base + second) % limit :=
    (addOffset_eq_mod added).symm.trans (addOffset_eq_mod again)
  have congruent : Nat.ModEq limit first second := Nat.ModEq.add_left_cancel' base same
  rwa [Nat.ModEq, Nat.mod_eq_of_lt first_lt, Nat.mod_eq_of_lt second_lt] at congruent

def IpAddr.family : IpAddr → Family
  | .v4 _ => .v4
  | .v6 _ => .v6

namespace FakeIpRange

variable {range : FakeIpRange} {family : Family} {cursor first second : UInt64} {ip : IpAddr}

theorem hosts_pos (range : FakeIpRange) (family : Family) : 0 < range.hosts family := by
  cases family with
  | v4 => exact Nat.two_pow_pos _
  | v6 =>
      simp only [hosts]
      split
      · exact Nat.two_pow_pos _
      · exact Nat.two_pow_pos _

theorem hosts_le (range : FakeIpRange) (family : Family) : range.hosts family ≤ 2 ^ 64 := by
  cases family with
  | v4 => exact Nat.pow_le_pow_right (by omega) (by omega)
  | v6 =>
      simp only [hosts]
      split
      · exact Nat.pow_le_pow_right (by omega) (by omega)
      · exact Nat.le_refl _

/-- The size of a range divides the number of cursors, so that the addresses
come back in the same order when the cursor wraps around. -/
theorem hosts_dvd (range : FakeIpRange) (family : Family) : range.hosts family ∣ 2 ^ 64 := by
  cases family with
  | v4 => exact Nat.pow_dvd_pow 2 (by omega)
  | v6 =>
      simp only [hosts]
      split
      · exact Nat.pow_dvd_pow 2 (by omega)
      · exact Nat.dvd_refl _

theorem getFakeIp_v4 (range : FakeIpRange) (cursor : UInt64) :
    range.getFakeIp cursor .v4 = (addOffset range.overflowChecks (2 ^ 32)
      (natOfBytes range.ipv4Cidr.addr.octets) (cursor.toNat % range.hosts .v4)).map
        fun value => .v4 (.ofBits value) := by
  simp only [getFakeIp, getFakeIpv4, hosts, Option.map_map, Function.comp_def]

theorem getFakeIp_v6 (range : FakeIpRange) (cursor : UInt64) :
    range.getFakeIp cursor .v6 = (addOffset range.overflowChecks (2 ^ 128)
      (natOfBytes range.ipv6Cidr.addr.octets) (cursor.toNat % range.hosts .v6)).map
        fun value => .v6 (.ofBits value) := by
  simp only [getFakeIp, getFakeIpv6, hosts]
  split
  · simp only [Option.map_map, Function.comp_def]
  · rw [Nat.mod_eq_of_lt cursor.toNat_lt]
    simp only [Option.map_map, Function.comp_def]

theorem getFakeIp_congr
    (same : first.toNat % range.hosts family = second.toNat % range.hosts family) :
    range.getFakeIp first family = range.getFakeIp second family := by
  cases family with
  | v4 => rw [getFakeIp_v4, getFakeIp_v4, same]
  | v6 => rw [getFakeIp_v6, getFakeIp_v6, same]

theorem getFakeIp_inj (drawn : range.getFakeIp first family = some ip)
    (again : range.getFakeIp second family = some ip) :
    first.toNat % range.hosts family = second.toNat % range.hosts family := by
  have below (cursor : UInt64) : cursor.toNat % range.hosts family < range.hosts family :=
    Nat.mod_lt _ (range.hosts_pos family)
  cases family with
  | v4 =>
      have small : range.hosts .v4 ≤ 2 ^ 32 := Nat.pow_le_pow_right (by omega) (by omega)
      rw [getFakeIp_v4, Option.map_eq_some_iff] at drawn again
      obtain ⟨value, added, rfl⟩ := drawn
      obtain ⟨other, added', same⟩ := again
      have bound := addOffset_eq_mod added
      have bound' := addOffset_eq_mod added'
      have equal : other = value := Ipv4Addr.ofBits_inj (by omega) (by omega) (IpAddr.v4.inj same)
      subst equal
      exact addOffset_inj (Nat.lt_of_lt_of_le (below first) small)
        (Nat.lt_of_lt_of_le (below second) small) added added'
  | v6 =>
      have small : range.hosts .v6 ≤ 2 ^ 128 :=
        Nat.le_trans (range.hosts_le .v6) (Nat.pow_le_pow_right (by omega) (by omega))
      rw [getFakeIp_v6, Option.map_eq_some_iff] at drawn again
      obtain ⟨value, added, rfl⟩ := drawn
      obtain ⟨other, added', same⟩ := again
      have bound := addOffset_eq_mod added
      have bound' := addOffset_eq_mod added'
      have equal : other = value := Ipv6Addr.ofBits_inj (by omega) (by omega) (IpAddr.v6.inj same)
      subst equal
      exact addOffset_inj (Nat.lt_of_lt_of_le (below first) small)
        (Nat.lt_of_lt_of_le (below second) small) added added'

theorem family_getFakeIp (drawn : range.getFakeIp cursor family = some ip) :
    ip.family = family := by
  cases family with
  | v4 =>
      obtain ⟨_, _, rfl⟩ := Option.map_eq_some_iff.mp drawn
      rfl
  | v6 =>
      obtain ⟨_, _, rfl⟩ := Option.map_eq_some_iff.mp drawn
      rfl

end FakeIpRange

theorem parseIp_text (ip : IpAddr) : FakeIpDns.parseIp ip.family ip.text = some ip := by
  cases ip with
  | v4 ip =>
      have read := NetParser.readIpv4Addr_toText ip (NetParser.ends_nil 10)
      rw [List.append_nil] at read
      have trimmed := IpAddr.trim_toText (.v4 ip)
      simp only [IpAddr.toText] at trimmed
      simp [IpAddr.family, FakeIpDns.parseIp, IpAddr.text, IpAddr.toText, trimmed,
        NetParser.parseWith, read]
  | v6 ip =>
      have trimmed := IpAddr.trim_toText (.v6 ip)
      simp only [IpAddr.toText] at trimmed
      simp [IpAddr.family, FakeIpDns.parseIp, IpAddr.text, IpAddr.toText, trimmed,
        NetParser.parseWith, ip.readIpv6Addr_toText]

/-! The keys of the cache. -/

section Keys

variable {domain other : String} {family second : Family} {ip : IpAddr}

theorem text_inj {ip other : IpAddr} (same : ip.text = other.text) : ip = other :=
  IpAddr.toText_inj (String.ofList_inj.mp same)

theorem ptrKey_inj {text other : String} (same : ptrKey text = ptrKey other) : text = other := by
  have chars := congrArg String.toList same
  simp only [ptrKey, String.toList_append] at chars
  exact String.toList_inj.mp (List.append_cancel_left chars)

theorem upper_mem_cacheKey (family : Family) (domain : String) :
    'A' ∈ (family.cacheKey domain).toList := by
  cases family with
  | v4 => simp [Family.cacheKey]
  | v6 => simp [Family.cacheKey]

theorem upper_notMem_ptrKey (ip : IpAddr) : 'A' ∉ (ptrKey ip.text).toList := by
  have plain : 'A' ∉ ip.toText := fun member =>
    (ip.isAddressChar_toText _ member).ne_upper rfl
  simp [ptrKey, IpAddr.text, plain]

theorem upper_notMem_cursorKey (family : Family) : 'A' ∉ family.cursorKey.toList := by
  cases family with
  | v4 => simp [Family.cursorKey]
  | v6 => simp [Family.cursorKey]

theorem cacheKey_ne_ptrKey : family.cacheKey domain ≠ ptrKey ip.text := by
  intro same
  have member := upper_mem_cacheKey family domain
  rw [same] at member
  exact upper_notMem_ptrKey ip member

theorem cacheKey_ne_cursorKey : family.cacheKey domain ≠ second.cursorKey := by
  intro same
  have member := upper_mem_cacheKey family domain
  rw [same] at member
  exact upper_notMem_cursorKey second member

theorem ptrKey_ne_cursorKey {text : String} : ptrKey text ≠ family.cursorKey := by
  intro same
  have chars := congrArg (fun key : String => key.toList.head?) same
  cases family with
  | v4 => simp [ptrKey, Family.cursorKey] at chars
  | v6 => simp [ptrKey, Family.cursorKey] at chars

theorem cacheKey_inj (same : family.cacheKey domain = second.cacheKey other) :
    family = second ∧ domain = other := by
  have last := congrArg (fun key : String => key.toList.reverse.take 2) same
  have chars := congrArg String.toList same
  cases family with
  | v4 =>
      cases second with
      | v4 =>
          simp only [Family.cacheKey, String.toList_append] at chars
          exact ⟨rfl, String.toList_inj.mp (List.append_cancel_right chars)⟩
      | v6 => simp [Family.cacheKey] at last
  | v6 =>
      cases second with
      | v4 => simp [Family.cacheKey] at last
      | v6 =>
          simp only [Family.cacheKey, String.toList_append] at chars
          exact ⟨rfl, String.toList_inj.mp (List.append_cancel_right chars)⟩

end Keys

/-! The cursors. -/

theorem cursorKey_inj {family second : Family} (same : family.cursorKey = second.cursorKey) :
    family = second := by
  cases family <;> cases second <;> simp_all [Family.cursorKey]

namespace FakeIpDns

variable {dns : FakeIpDns} {family second : Family} {value : UInt64}

theorem loadCursor_of_lookup {key : String} {cache : Table String}
    (found : cache.lookup key = some (String.ofList (Nat.toDigits 10 value.toNat))) :
    loadCursor none key cache = value := by
  simp only [loadCursor, Cache.get, found, String.toList_ofList,
    parseUnsigned_toDigits value.toNat_lt, Option.getD_some, UInt64.ofNat_toNat]

theorem lookup_write_of_ne {fault : Option String} {key value other : String}
    (differs : other ≠ key) :
    (dns.write fault key value).2.cache.lookup other = dns.cache.lookup other := by
  cases fault with
  | some error => rfl
  | none => exact AList.lookup_insert_ne differs

theorem lookup_writeCursor_of_ne {fault : Option String} {value : UInt64} {key : String}
    (differs : key ≠ family.cursorKey) :
    (dns.writeCursor fault family value).cache.lookup key = dns.cache.lookup key :=
  lookup_write_of_ne differs

theorem loadCursor_writeCursor_self :
    loadCursor none family.cursorKey (dns.writeCursor none family value).cache = value :=
  loadCursor_of_lookup (AList.lookup_insert _)

theorem loadCursor_congr {key : String} {cache other : Table String}
    (same : cache.lookup key = other.lookup key) :
    loadCursor none key cache = loadCursor none key other := by
  simp only [loadCursor, Cache.get, same]

theorem loadCursor_writeCursor_of_ne {fault : Option String} (differs : second ≠ family) :
    loadCursor none second.cursorKey (dns.writeCursor fault family value).cache =
      loadCursor none second.cursorKey dns.cache :=
  loadCursor_congr (lookup_writeCursor_of_ne fun same => differs (cursorKey_inj same))

theorem cursor_writeCursor {fault : Option String} :
    (dns.writeCursor fault family value).cursor second = dns.cursor second := by
  cases second <;> rfl

theorem cursor_write {fault : Option String} {key text : String} :
    (dns.write fault key text).2.cursor family = dns.cursor family := by
  cases family <;> rfl

theorem loadCursor_write {fault : Option String} {key text : String}
    (differs : family.cursorKey ≠ key) :
    loadCursor none family.cursorKey (dns.write fault key text).2.cache =
      loadCursor none family.cursorKey dns.cache :=
  loadCursor_congr (lookup_write_of_ne differs)

theorem cache_fetchAdd (dns : FakeIpDns) (family : Family) :
    (dns.fetchAdd family).cache = dns.cache := by
  cases family <;> rfl

theorem cursor_fetchAdd_self : (dns.fetchAdd family).cursor family = dns.cursor family + 1 := by
  cases family <;> rfl

theorem cursor_fetchAdd_of_ne (differs : second ≠ family) :
    (dns.fetchAdd family).cursor second = dns.cursor second := by
  cases family <;> cases second <;> first | rfl | exact absurd rfl differs

theorem cursor_load (reads : Family → Option String) (cache : Table String) :
    (load reads cache).cursor family = loadCursor (reads family) family.cursorKey cache := by
  cases family <;> rfl

end FakeIpDns

end QuicProxy
