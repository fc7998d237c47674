import QuicProxy.Data.Directory
import QuicProxy.Data.Machine
import QuicProxy.Dns.FakeIp

namespace QuicProxy

/-! `reverse_lookup` against the addresses that the cache holds, over runs of
`resolve_internal` and restarts. -/

namespace FakeIpDns

variable {range : FakeIpRange} {dns next : FakeIpDns} {read : Option String}
  {faults : FakeIpFaults} {domain : String} {qtype : QType} {family : Family} {ip : IpAddr}

def Resolves (dns : FakeIpDns) (family : Family) (domain : String) (ip : IpAddr) : Prop :=
  (dns.cache.lookup (family.cacheKey domain)).bind (parseIp family) = some ip

instance (dns : FakeIpDns) (family : Family) (domain : String) (ip : IpAddr) :
    Decidable (dns.Resolves family domain ip) :=
  inferInstanceAs (Decidable (_ = _))

/-- Every address that the cache resolves a domain to leads back to it. -/
def Inverse (dns : FakeIpDns) : Prop :=
  ∀ family domain ip, dns.Resolves family domain ip → dns.reverseLookup none ip = some domain

/-- What `reverse_lookup` makes of a domain that it finds. -/
def trimmed (domain : String) : Option String :=
  let domain := trim domain.toList
  if domain.isEmpty then none else some (String.ofList domain)

def directory (dns : FakeIpDns) : Directory (Family × String) IpAddr where
  forward name := (dns.cache.lookup (name.1.cacheKey name.2)).bind (parseIp name.1)
  ptr ip := (dns.cache.lookup (ptrKey ip.text)).map (ip.family, ·)

def readName (name : Family × String) : Option (Family × String) :=
  (trimmed name.2).map (name.1, ·)

theorem readName_fixed (first second : Family × String) (reads : readName first = some second) :
    readName second = some second := by
  obtain ⟨domain, clean, rfl⟩ := Option.map_eq_some_iff.mp reads
  have fixed : trimmed domain = some domain := by
    simp only [trimmed] at clean ⊢
    split at clean
    · cases clean
    · rename_i nonempty
      cases clean
      simp only [String.toList_ofList, trim_trim, if_neg nonempty]
  simp only [readName, fixed, Option.map_some]

theorem readName_eq_self_iff :
    readName (family, domain) = some (family, domain) ↔ trimmed domain = some domain := by
  simp [readName, Option.map_eq_some_iff]

theorem family_parseIp {text : String} (parsed : parseIp family text = some ip) :
    ip.family = family := by
  cases family with
  | v4 =>
      obtain ⟨_, _, rfl⟩ := Option.map_eq_some_iff.mp parsed
      rfl
  | v6 =>
      obtain ⟨_, _, rfl⟩ := Option.map_eq_some_iff.mp parsed
      rfl

theorem reverseLookup_eq (dns : FakeIpDns) (ip : IpAddr) :
    dns.reverseLookup none ip = (dns.cache.lookup (ptrKey ip.text)).bind trimmed := by
  simp only [reverseLookup, Cache.get]
  cases dns.cache.lookup (ptrKey ip.text) <;> rfl

theorem resolves_iff (dns : FakeIpDns) (family : Family) (domain : String) (ip : IpAddr) :
    dns.Resolves family domain ip ↔ dns.directory.forward (family, domain) = some ip :=
  Iff.rfl

theorem inverse_iff (dns : FakeIpDns) : dns.Inverse ↔ dns.directory.Inverse readName := by
  have back : ∀ ip, (dns.directory.ptr ip).bind readName =
      (dns.reverseLookup none ip).map (ip.family, ·) := by
    intro ip
    simp only [reverseLookup_eq, directory]
    cases dns.cache.lookup (ptrKey ip.text) <;> rfl
  constructor
  · intro inverse given ip resolves
    obtain ⟨family, domain⟩ := given
    obtain ⟨text, -, parsed⟩ := Option.bind_eq_some_iff.mp resolves
    rw [back, inverse family domain ip resolves, family_parseIp parsed]
    rfl
  · intro inverse family domain ip resolves
    have found := inverse (family, domain) ip resolves
    rw [back] at found
    obtain ⟨other, reverse, same⟩ := Option.map_eq_some_iff.mp found
    rw [reverse, (Prod.mk.inj same).2]

/-! One call. -/

/-- The call finds no address in the cache, or cannot read it. -/
def Misses (dns : FakeIpDns) (read : Option String) (domain : String) (family : Family) : Prop :=
  read ≠ none ∨ dns.cache.lookup (family.cacheKey domain) = none

instance (dns : FakeIpDns) (read : Option String) (domain : String) (family : Family) :
    Decidable (dns.Misses read domain family) :=
  inferInstanceAs (Decidable (_ ∨ _))

theorem Misses.fresh (misses : dns.Misses none domain family) :
    dns.cache.lookup (family.cacheKey domain) = none :=
  misses.resolve_left fun failed => failed rfl

/-- The call gives the domain the address at the cursor, and stores it. -/
structure Allocates (range : FakeIpRange) (dns : FakeIpDns) (read : Option String)
    (faults : FakeIpFaults) (domain : String) (qtype : QType) (family : Family) (ip : IpAddr) :
    Prop where
  supported : qtype.family = some family
  misses : dns.Misses read domain family
  drawn : range.getFakeIp (dns.cursor family) family = some ip
  stored : faults.forward = none

/-- The texts of the addresses in the cache are those of addresses. -/
def Stored (dns : FakeIpDns) : Prop :=
  ∀ family domain text, dns.cache.lookup (family.cacheKey domain) = some text →
    ∃ ip : IpAddr, ip.family = family ∧ text = ip.text

theorem forward_eq_none_iff (stored : dns.Stored) :
    dns.directory.forward (family, domain) = none ↔
      dns.cache.lookup (family.cacheKey domain) = none := by
  cases found : dns.cache.lookup (family.cacheKey domain) with
  | none => simp [directory, found]
  | some text =>
      obtain ⟨ip, rfl, rfl⟩ := stored family domain text found
      simp [directory, found, parseIp_text]

theorem directory_eq
    (forward : ∀ family domain, next.cache.lookup (Family.cacheKey domain family) =
      dns.cache.lookup (Family.cacheKey domain family))
    (ptr : ∀ ip : IpAddr, next.cache.lookup (ptrKey ip.text) = dns.cache.lookup (ptrKey ip.text)) :
    next.directory = dns.directory := by
  rw [directory, directory]
  congr 1
  · funext name
    rw [forward]
  · funext ip
    rw [ptr]

theorem lookup_nextCursor_of_ne {fault : Option String} {key : String}
    (differs : key ≠ family.cursorKey) :
    (dns.nextCursor fault family).2.cache.lookup key = dns.cache.lookup key := by
  rw [nextCursor, saveCursor, lookup_writeCursor_of_ne differs, cache_fetchAdd]

theorem directory_nextCursor (dns : FakeIpDns) (fault : Option String) (family : Family) :
    (dns.nextCursor fault family).2.directory = dns.directory :=
  directory_eq (fun _ _ => lookup_nextCursor_of_ne cacheKey_ne_cursorKey)
    (fun _ => lookup_nextCursor_of_ne ptrKey_ne_cursorKey)

theorem directory_write_forward (dns : FakeIpDns) (ip : IpAddr) (domain : String) :
    (dns.write none (ip.family.cacheKey domain) ip.text).2.directory =
      dns.directory.record (ip.family, domain) ip false := by
  simp only [directory, Directory.record]
  congr 1
  · funext name
    by_cases same : name = (ip.family, domain)
    · subst same
      rw [Function.update_self]
      simp [write, Cache.set, Cache.commit, parseIp_text]
    · have differs : name.1.cacheKey name.2 ≠ ip.family.cacheKey domain := fun keys =>
        same (Prod.ext_iff.mpr (cacheKey_inj keys))
      rw [Function.update_of_ne same, lookup_write_of_ne differs]
  · funext other
    rw [lookup_write_of_ne cacheKey_ne_ptrKey.symm]
    rfl

theorem directory_write_ptr (ip : IpAddr) (domain : String) :
    (dns.write none (ptrKey ip.text) domain).2.directory =
      { dns.directory with
        ptr := Function.update dns.directory.ptr ip (some (ip.family, domain)) } := by
  simp only [directory]
  congr 1
  · funext name
    rw [lookup_write_of_ne cacheKey_ne_ptrKey]
  · funext other
    by_cases same : other = ip
    · subst same
      rw [Function.update_self]
      simp [write, Cache.set, Cache.commit]
    · have differs : ptrKey other.text ≠ ptrKey ip.text := fun keys =>
        same (text_inj (ptrKey_inj keys))
      rw [Function.update_of_ne same, lookup_write_of_ne differs]

/-- What a call of `resolve_internal` can return and leave behind. -/
inductive Call (range : FakeIpRange) (dns : FakeIpDns) (read : Option String)
    (faults : FakeIpFaults) (domain : String) (qtype : QType) :
    Option (Except String String) → FakeIpDns → Prop
  | unsupported (other : qtype.family = none) :
      Call range dns read faults domain qtype (some (.error "qtype unspported")) dns
  | cached {family : Family} {text : String} (supported : qtype.family = some family)
      (works : read = none) (found : dns.cache.lookup (family.cacheKey domain) = some text) :
      Call range dns read faults domain qtype (some (.ok text)) dns
  | panicked {family : Family} (supported : qtype.family = some family)
      (misses : dns.Misses read domain family)
      (overflow : range.getFakeIp (dns.cursor family) family = none) :
      Call range dns read faults domain qtype none (dns.nextCursor faults.cursor family).2
  | refused {family : Family} {ip : IpAddr} {error : String}
      (supported : qtype.family = some family) (misses : dns.Misses read domain family)
      (drawn : range.getFakeIp (dns.cursor family) family = some ip)
      (failed : faults.forward = some error) :
      Call range dns read faults domain qtype (some (.error error))
        (dns.nextCursor faults.cursor family).2
  | allocated {family : Family} {ip : IpAddr}
      (allocates : Allocates range dns read faults domain qtype family ip) :
      Call range dns read faults domain qtype
        (some ((dns.nextCursor faults.cursor family).2.store faults family domain ip.text).1)
        ((dns.nextCursor faults.cursor family).2.store faults family domain ip.text).2

theorem store_refused {text error : String} (failed : faults.forward = some error) :
    dns.store faults family domain text = (.error error, dns) := by
  simp [store, write, Cache.set, Cache.commit, failed]

theorem call_allocate (supported : qtype.family = some family)
    (misses : dns.Misses read domain family) :
    Call range dns read faults domain qtype (dns.allocate range faults domain family).1
      (dns.allocate range faults domain family).2 := by
  cases drawn : range.getFakeIp (dns.cursor family) family with
  | none =>
      simp only [allocate, nextCursor, drawn]
      exact .panicked supported misses drawn
  | some ip =>
      cases stored : faults.forward with
      | some error =>
          simp only [allocate, nextCursor, drawn, store_refused stored]
          exact .refused supported misses drawn stored
      | none =>
          simp only [allocate, nextCursor, drawn]
          exact .allocated ⟨supported, misses, drawn, stored⟩

theorem call_resolveInternal (range : FakeIpRange) (dns : FakeIpDns) (read : Option String)
    (faults : FakeIpFaults) (domain : String) (qtype : QType) :
    Call range dns read faults domain qtype
      (dns.resolveInternal range read faults domain qtype).1
      (dns.resolveInternal range read faults domain qtype).2 := by
  rw [resolveInternal]
  cases supported : qtype.family with
  | none => exact .unsupported supported
  | some family =>
      cases read with
      | some error => exact call_allocate supported (.inl nofun)
      | none =>
          simp only [Cache.get]
          cases found : dns.cache.lookup (family.cacheKey domain) with
          | some text => exact .cached supported rfl found
          | none => exact call_allocate supported (.inr found)

theorem directory_store (dns : FakeIpDns) (ip : IpAddr) (domain : String)
    (stored : faults.forward = none) :
    (dns.store faults ip.family domain ip.text).2.directory =
      dns.directory.record (ip.family, domain) ip faults.ptr.isNone := by
  have forward := directory_write_forward dns ip domain
  cases failed : faults.ptr with
  | some error =>
      have left : (dns.store faults ip.family domain ip.text).2 =
          (dns.write none (ip.family.cacheKey domain) ip.text).2 := by
        simp [store, write, Cache.set, Cache.commit, stored, failed]
      rw [left, forward]
      rfl
  | none =>
      have left : (dns.store faults ip.family domain ip.text).2 =
          ((dns.write none (ip.family.cacheKey domain) ip.text).2.write none (ptrKey ip.text)
            domain).2 := by
        simp [store, write, Cache.set, Cache.commit, stored, failed]
      rw [left, directory_write_ptr, forward]
      rfl

theorem lookup_store (ip : IpAddr) (domain : String) (stored : faults.forward = none) :
    (dns.store faults family domain ip.text).2.cache.lookup (family.cacheKey domain) =
      some ip.text := by
  cases failed : faults.ptr with
  | some error => simp [store, write, Cache.set, Cache.commit, stored, failed]
  | none =>
      simp only [store, write, Cache.set, Cache.commit, stored, failed]
      rw [AList.lookup_insert_ne cacheKey_ne_ptrKey, AList.lookup_insert]

theorem lookup_store_of_ne {text key : String} (forward : key ≠ family.cacheKey domain)
    (ptr : key ≠ ptrKey text) :
    (dns.store faults family domain text).2.cache.lookup key = dns.cache.lookup key := by
  simp only [store, write, Cache.set, Cache.commit]
  cases faults.forward with
  | some error => rfl
  | none =>
      cases faults.ptr with
      | some error => exact AList.lookup_insert_ne forward
      | none => exact (AList.lookup_insert_ne ptr).trans (AList.lookup_insert_ne forward)

namespace Call

variable {result : Option (Except String String)}

theorem directory (call : Call range dns read faults domain qtype result next) :
    (∃ ip, Allocates range dns read faults domain qtype ip.family ip ∧
      next.directory = dns.directory.record (ip.family, domain) ip faults.ptr.isNone) ∨
    (∀ family ip, ¬Allocates range dns read faults domain qtype family ip) ∧
      next.directory = dns.directory := by
  cases call with
  | unsupported other =>
      refine Or.inr ⟨fun family ip allocates => ?_, rfl⟩
      cases other.symm.trans allocates.supported
  | cached supported works found =>
      subst works
      refine Or.inr ⟨fun family ip allocates => ?_, rfl⟩
      cases supported.symm.trans allocates.supported
      cases found.symm.trans allocates.misses.fresh
  | panicked supported misses overflow =>
      refine Or.inr ⟨fun family ip allocates => ?_, directory_nextCursor ..⟩
      cases supported.symm.trans allocates.supported
      cases overflow.symm.trans allocates.drawn
  | refused supported misses drawn failed =>
      refine Or.inr ⟨fun family ip allocates => ?_, directory_nextCursor ..⟩
      cases failed.symm.trans allocates.stored
  | @allocated family ip allocates =>
      have same : ip.family = family := FakeIpRange.family_getFakeIp allocates.drawn
      subst same
      refine Or.inl ⟨ip, allocates, ?_⟩
      rw [directory_store _ ip domain allocates.stored, directory_nextCursor]

theorem stored (call : Call range dns read faults domain qtype result next) (stored : dns.Stored) :
    next.Stored := by
  have drawn (family : Family) : (dns.nextCursor faults.cursor family).2.Stored := by
    intro other name text found
    rw [lookup_nextCursor_of_ne cacheKey_ne_cursorKey] at found
    exact stored other name text found
  cases call with
  | unsupported => exact stored
  | cached => exact stored
  | panicked => exact drawn _
  | refused => exact drawn _
  | @allocated family ip allocates =>
      intro other name text found
      by_cases same : other.cacheKey name = family.cacheKey domain
      · rw [same, lookup_store ip domain allocates.stored] at found
        cases found
        obtain ⟨rfl, -⟩ := cacheKey_inj same
        exact ⟨ip, FakeIpRange.family_getFakeIp allocates.drawn, rfl⟩
      · rw [lookup_store_of_ne same cacheKey_ne_ptrKey] at found
        exact drawn family other name text found

theorem resolves {text : String}
    (call : Call range dns read faults domain qtype (some (.ok text)) next) (stored : dns.Stored) :
    ∃ ip : IpAddr, text = ip.text ∧ next.Resolves ip.family domain ip := by
  generalize answered : some (Except.ok text) = result at call
  cases call with
  | unsupported => cases answered
  | cached supported works found =>
      cases answered
      obtain ⟨ip, rfl, rfl⟩ := stored _ domain _ found
      refine ⟨ip, rfl, ?_⟩
      rw [Resolves, found, Option.bind_some, parseIp_text]
  | panicked => cases answered
  | refused => cases answered
  | @allocated family ip allocates =>
      have same : ip.family = family := FakeIpRange.family_getFakeIp allocates.drawn
      subst same
      have shown : text = ip.text := by
        simp only [store, write, Cache.set, Cache.commit, allocates.stored] at answered
        cases failed : faults.ptr with
        | some error =>
            rw [failed] at answered
            cases answered
        | none =>
            rw [failed] at answered
            cases answered
            rfl
      refine ⟨ip, shown, ?_⟩
      rw [Resolves, lookup_store ip domain allocates.stored, Option.bind_some, parseIp_text]

end Call

end FakeIpDns

/-! Runs. -/

inductive FakeIpEvent where
  | resolve (qtype : QType) (domain : String) (faults : FakeIpFaults)
  | restart (reads : Family → Option String)

namespace FakeIpDns

variable {range : FakeIpRange} {dns next : FakeIpDns} {event : FakeIpEvent}

def step (range : FakeIpRange) (dns : FakeIpDns) : FakeIpEvent → Option FakeIpDns
  | .resolve qtype domain faults =>
      some (dns.resolveInternal range none faults domain qtype).2
  | .restart reads => some (load reads dns.cache)

/-- The answer of a call leads back to its domain, and the call leaves no
address that does not. -/
def AllOrNothing (range : FakeIpRange) (dns : FakeIpDns) : FakeIpEvent → Prop
  | .resolve qtype domain faults =>
      (∀ text, (dns.resolveInternal range none faults domain qtype).1 = some (.ok text) →
        ∃ ip : IpAddr, text = ip.text ∧
          (dns.resolveInternal range none faults domain qtype).2.reverseLookup none ip =
            some domain) ∧
        (dns.resolveInternal range none faults domain qtype).2.Inverse
  | .restart reads => (load reads dns.cache).Inverse

/-- A domain that is given an address has no white space around it, its `ptr`
entry is written too, and the cache resolves no other domain to the address. -/
def StoresBoth (range : FakeIpRange) (dns : FakeIpDns) : FakeIpEvent → Prop
  | .resolve qtype domain faults =>
      ∀ family ip, Allocates range dns none faults domain qtype family ip →
        trimmed domain = some domain ∧ faults.ptr = none ∧
          ∀ other, ¬dns.Resolves family other ip
  | .restart _ => True

structure Reached (dns : FakeIpDns) : Prop where
  stored : dns.Stored
  linked : dns.directory.Linked

theorem reached_empty : empty.Reached := by
  refine ⟨?_, ?_⟩
  · intro family domain text found
    cases found
  · intro name ip leads
    cases leads

theorem Allocates.fresh_directory {faults : FakeIpFaults} {domain : String} {qtype : QType}
    {family : Family} {ip : IpAddr}
    (allocates : Allocates range dns none faults domain qtype family ip)
    (reached : dns.Reached) : dns.directory.forward (family, domain) = none :=
  (forward_eq_none_iff reached.stored).mpr allocates.misses.fresh

theorem Reached.call {faults : FakeIpFaults} {domain : String} {qtype : QType}
    {result : Option (Except String String)} (reached : dns.Reached)
    (call : Call range dns none faults domain qtype result next) : next.Reached := by
  refine ⟨call.stored reached.stored, ?_⟩
  rcases call.directory with ⟨ip, allocates, same⟩ | ⟨-, same⟩
  · rw [same]
    exact reached.linked.record (allocates.fresh_directory reached)
  · rw [same]
    exact reached.linked

theorem Reached.step (reached : dns.Reached) (taken : step range dns event = some next) :
    next.Reached := by
  cases event with
  | restart reads =>
      cases taken
      exact ⟨reached.stored, reached.linked⟩
  | resolve qtype domain faults =>
      cases taken
      exact reached.call (call_resolveInternal range dns none faults domain qtype)

theorem unused_iff (ip : IpAddr) :
    (∀ name, dns.directory.forward name ≠ some ip) ↔
      ∀ other, ¬dns.Resolves ip.family other ip := by
  constructor
  · exact fun unused other => unused (ip.family, other)
  · intro unused given resolves
    obtain ⟨family, other⟩ := given
    obtain ⟨text, -, parsed⟩ := Option.bind_eq_some_iff.mp resolves
    cases family_parseIp parsed
    exact unused other resolves

theorem inverse_step_iff (reached : dns.Reached) (taken : step range dns event = some next) :
    next.Inverse ↔ dns.Inverse ∧ StoresBoth range dns event := by
  cases event with
  | restart reads =>
      cases taken
      exact ⟨fun inverse => ⟨inverse, trivial⟩, And.left⟩
  | resolve qtype domain faults =>
      cases taken
      rw [inverse_iff, inverse_iff]
      rcases (call_resolveInternal range dns none faults domain qtype).directory with
        ⟨ip, allocates, same⟩ | ⟨none_new, same⟩
      · rw [same, Directory.inverse_record_iff readName_fixed reached.linked
          (allocates.fresh_directory reached), readName_eq_self_iff, Option.isNone_iff_eq_none,
          unused_iff]
        refine and_congr_right fun _ => ⟨fun sound family other again => ?_, fun sound =>
          sound ip.family ip allocates⟩
        cases allocates.supported.symm.trans again.supported
        cases allocates.drawn.symm.trans again.drawn
        exact sound
      · rw [same]
        exact ⟨fun inverse => ⟨inverse, fun family ip allocates =>
          absurd allocates (none_new family ip)⟩, And.left⟩

theorem allOrNothing_iff_inverse (reached : dns.Reached)
    (taken : step range dns event = some next) :
    AllOrNothing range dns event ↔ next.Inverse := by
  cases event with
  | restart reads =>
      cases taken
      exact Iff.rfl
  | resolve qtype domain faults =>
      cases taken
      refine ⟨And.right, fun inverse => ⟨fun text answered => ?_, inverse⟩⟩
      have call := call_resolveInternal range dns none faults domain qtype
      rw [answered] at call
      obtain ⟨ip, shown, resolves⟩ := call.resolves reached.stored
      exact ⟨ip, shown, inverse ip.family domain ip resolves⟩

theorem inverse_empty : empty.Inverse := by
  intro family domain ip resolves
  cases resolves

/-- Over every sequence of calls in which any write of the cache may fail, and
of restarts: all calls are all-or-nothing exactly when every domain that is
given an address has no white space around it, gets its `ptr` entry, and gets
an address that no other domain has. -/
theorem allOrNothing_iff (range : FakeIpRange) (events : List FakeIpEvent) :
    Machine.Within (step range) (AllOrNothing range) empty events ↔
      Machine.Within (step range) (StoresBoth range) empty events := by
  have total : ∀ (dns : FakeIpDns) (event : FakeIpEvent), ∃ next,
      step range dns event = some next := by
    intro dns event
    cases event <;> exact ⟨_, rfl⟩
  refine Machine.within_congr (fun dns => dns.Reached ∧ dns.Inverse) ?_ ?_
    ⟨reached_empty, inverse_empty⟩
  · intro dns event given
    obtain ⟨reached, inverse⟩ := given
    obtain ⟨next, taken⟩ := total dns event
    rw [allOrNothing_iff_inverse reached taken, inverse_step_iff reached taken]
    exact and_iff_right inverse
  · intro dns event next given whole taken
    obtain ⟨reached, inverse⟩ := given
    exact ⟨reached.step taken, (allOrNothing_iff_inverse reached taken).mp whole⟩

def noFaults : FakeIpFaults := ⟨none, none, none⟩

/-- The first call fails on its `ptr` entry; the second one answers from the
cache. -/
def lostPtr : List FakeIpEvent :=
  [.resolve .a "example.org" ⟨none, none, some "disk full"⟩, .resolve .a "example.org" noFaults]

theorem lostPtr_not_allOrNothing :
    ¬Machine.Within (step defaultRange) (AllOrNothing defaultRange) empty lostPtr ∧
      ∃ dns, Machine.run (step defaultRange) empty lostPtr = some dns ∧
        (dns.resolveInternal defaultRange none noFaults "example.org" .a).1 =
          some (.ok "198.18.0.0") ∧
        dns.reverseLookup none (.v4 ⟨198, 18, 0, 0⟩) = none := by
  refine ⟨?_, _, rfl, by decide +kernel, by decide +kernel⟩
  intro given
  obtain ⟨first, -⟩ := given
  have resolves : (empty.resolveInternal defaultRange none ⟨none, none, some "disk full"⟩
      "example.org" .a).2.Resolves .v4 "example.org" (.v4 ⟨198, 18, 0, 0⟩) := by
    decide +kernel
  have nothing : (empty.resolveInternal defaultRange none ⟨none, none, some "disk full"⟩
      "example.org" .a).2.reverseLookup none (.v4 ⟨198, 18, 0, 0⟩) = none := by
    decide +kernel
  have back := first.2 .v4 "example.org" (.v4 ⟨198, 18, 0, 0⟩) resolves
  rw [nothing] at back
  cases back

end FakeIpDns

end QuicProxy
