import QuicProxy.Dns.Inverse

namespace QuicProxy

/-! Runs that count the addresses that have been drawn: whether the next one is new. -/

/-- A resolver with the number of addresses of each family that it and the
processes before it have drawn. -/
structure Allocator where
  dns : FakeIpDns
  drawn : Family → Nat

/-- Each with the errors of the cache, if any, on what it reads and writes. -/
inductive LookupEvent where
  | resolve (qtype : QType) (domain : String) (read : Option String) (faults : FakeIpFaults)
  | restart (reads : Family → Option String)

namespace FakeIpDns

/-- The call takes the next address. -/
def Draws (dns : FakeIpDns) (read : Option String) (domain : String) (qtype : QType)
    (family : Family) : Prop :=
  qtype.family = some family ∧ dns.Misses read domain family

instance (dns : FakeIpDns) (read : Option String) (domain : String) (qtype : QType)
    (family : Family) : Decidable (dns.Draws read domain qtype family) :=
  inferInstanceAs (Decidable (_ ∧ _))

/-- The cache resolves no two domains to one address, and every address leads
back to its domain. -/
structure OneToOne (dns : FakeIpDns) : Prop where
  inverse : dns.Inverse
  injective : ∀ family domain other ip, dns.Resolves family domain ip →
    dns.Resolves family other ip → domain = other

theorem oneToOne_iff_inverse (dns : FakeIpDns) : dns.OneToOne ↔ dns.Inverse := by
  refine ⟨OneToOne.inverse, fun inverse => ⟨inverse, ?_⟩⟩
  intro family domain other ip first second
  have names : (family, domain) = (family, other) :=
    (dns.inverse_iff.mp inverse).injective first second
  exact (Prod.mk.inj names).2

end FakeIpDns

namespace Allocator

open FakeIpDns

variable {range : FakeIpRange} {state next final : Allocator} {lookup : LookupEvent}
  {events : List LookupEvent} {family : Family} {ip : IpAddr}

def step (range : FakeIpRange) (state : Allocator) : LookupEvent → Option Allocator
  | .resolve qtype domain read faults =>
      some ⟨(state.dns.resolveInternal range read faults domain qtype).2, fun family =>
        if state.dns.Draws read domain qtype family then state.drawn family + 1
        else state.drawn family⟩
  | .restart reads => some ⟨load reads state.dns.cache, state.drawn⟩

def start : Allocator := ⟨empty, fun _ => 0⟩

/-- The cache holds the cursors: a call that draws an address saves its cursor, and a
restart reads the cursors that have been saved. -/
def Saves (state : Allocator) : LookupEvent → Prop
  | .resolve qtype domain read faults =>
      ∀ family, state.dns.Draws read domain qtype family → faults.cursor = none
  | .restart reads => ∀ family, reads family = none ∨ state.drawn family = 0

/-- Every domain that is given an address has no white space around it and gets its
`ptr` entry too, and an address of the range is left for it. -/
def GivesNew (range : FakeIpRange) (state : Allocator) : LookupEvent → Prop
  | .resolve qtype domain read faults =>
      ∀ family ip, Allocates range state.dns read faults domain qtype family ip →
        trimmed domain = some domain ∧ faults.ptr = none ∧
          state.drawn family < range.hosts family
  | .restart _ => True

def Sparing (range : FakeIpRange) (state : Allocator) (lookup : LookupEvent) : Prop :=
  Saves state lookup ∧ GivesNew range state lookup

/-- No operation of the cache fails. -/
def Works (_ : Allocator) : LookupEvent → Prop
  | .resolve _ _ read faults => read = none ∧ faults = noFaults
  | .restart reads => ∀ family, reads family = none

structure Counting (range : FakeIpRange) (state : Allocator) : Prop where
  stored : state.dns.Stored
  cursor : ∀ family, (state.dns.cursor family).toNat = state.drawn family % 2 ^ 64
  persisted : ∀ family,
    loadCursor none family.cursorKey state.dns.cache = state.dns.cursor family
  used : ∀ family domain ip, state.dns.Resolves family domain ip →
    ∃ count < state.drawn family, range.getFakeIp (UInt64.ofNat count) family = some ip

/-- What a cache that has never failed holds. -/
structure Complete (range : FakeIpRange) (state : Allocator) : Prop where
  linked : state.dns.directory.Linked
  covered : ∀ family, ∀ count < state.drawn family, ∀ ip,
    range.getFakeIp (UInt64.ofNat count) family = some ip →
      ∃ domain, state.dns.Resolves family domain ip

theorem toNat_ofNat_mod (range : FakeIpRange) (family : Family) (count : Nat) :
    (UInt64.ofNat count).toNat % range.hosts family = count % range.hosts family := by
  rw [UInt64.toNat_ofNat']
  exact Nat.mod_mod_of_dvd count (range.hosts_dvd family)

namespace Counting

theorem cursor_mod (counting : Counting range state) (family : Family) :
    (state.dns.cursor family).toNat % range.hosts family =
      state.drawn family % range.hosts family := by
  rw [counting.cursor]
  exact Nat.mod_mod_of_dvd _ (range.hosts_dvd family)

theorem getFakeIp_cursor (counting : Counting range state) (family : Family) :
    range.getFakeIp (UInt64.ofNat (state.drawn family)) family =
      range.getFakeIp (state.dns.cursor family) family :=
  FakeIpRange.getFakeIp_congr
    ((toNat_ofNat_mod range family _).trans (counting.cursor_mod family).symm)

theorem unused (counting : Counting range state)
    (drawn : range.getFakeIp (state.dns.cursor family) family = some ip)
    (left : state.drawn family < range.hosts family) (other : String) :
    ¬state.dns.Resolves family other ip := by
  intro resolves
  obtain ⟨count, before, earlier⟩ := counting.used family other ip resolves
  have same := FakeIpRange.getFakeIp_inj earlier drawn
  rw [toNat_ofNat_mod, counting.cursor_mod, Nat.mod_eq_of_lt left,
    Nat.mod_eq_of_lt (Nat.lt_trans before left)] at same
  omega

theorem left_of_unused (counting : Counting range state) (complete : Complete range state)
    (drawn : range.getFakeIp (state.dns.cursor family) family = some ip)
    (unused : ∀ other, ¬state.dns.Resolves family other ip) :
    state.drawn family < range.hosts family := by
  by_contra exhausted
  have positive := range.hosts_pos family
  have before : state.drawn family - range.hosts family < state.drawn family := by omega
  have same : (state.drawn family - range.hosts family) % range.hosts family =
      state.drawn family % range.hosts family := by
    rw [← Nat.add_mod_right, Nat.sub_add_cancel (by omega)]
  have earlier : range.getFakeIp
      (UInt64.ofNat (state.drawn family - range.hosts family)) family = some ip := by
    rw [← drawn]
    apply FakeIpRange.getFakeIp_congr
    rw [toNat_ofNat_mod, counting.cursor_mod, same]
  obtain ⟨domain, resolves⟩ := complete.covered family _ before ip earlier
  exact unused domain resolves

theorem start : Counting range start := by
  refine ⟨reached_empty.stored, ?_, ?_, ?_⟩
  · intro family
    cases family <;> rfl
  · intro family
    exact (cursor_load (fun _ => none) ∅).symm
  · intro family domain ip resolves
    cases resolves

end Counting

theorem Complete.start : Complete range start := by
  refine ⟨reached_empty.linked, ?_⟩
  intro family count before
  exact absurd before (Nat.not_lt_zero count)

theorem cursor_nextCursor (dns : FakeIpDns) (fault : Option String) (family second : Family) :
    (dns.nextCursor fault family).2.cursor second = (dns.fetchAdd family).cursor second := by
  cases second <;> rfl

/-- What a call that draws an address does to the cursors and to what the cache
holds of them. -/
structure Advances (dns next : FakeIpDns) (family : Family) : Prop where
  own : next.cursor family = dns.cursor family + 1
  others : ∀ second, second ≠ family → next.cursor second = dns.cursor second
  persisted : loadCursor none family.cursorKey next.cache = dns.cursor family + 1
  kept : ∀ second, second ≠ family → loadCursor none second.cursorKey next.cache =
    loadCursor none second.cursorKey dns.cache

theorem advances_nextCursor (dns : FakeIpDns) (family : Family) :
    Advances dns (dns.nextCursor none family).2 family := by
  refine ⟨?_, ?_, ?_, ?_⟩
  · rw [cursor_nextCursor, cursor_fetchAdd_self]
  · intro second differs
    rw [cursor_nextCursor, cursor_fetchAdd_of_ne differs]
  · rw [← cursor_fetchAdd_self]
    exact loadCursor_writeCursor_self
  · intro second differs
    exact loadCursor_congr (lookup_nextCursor_of_ne fun same => differs (cursorKey_inj same))

theorem Advances.store {dns next : FakeIpDns} (advances : Advances dns next family)
    (faults : FakeIpFaults) (domain : String) (ip : IpAddr) :
    Advances dns (next.store faults family domain ip.text).2 family := by
  have cursors : ∀ second, (next.store faults family domain ip.text).2.cursor second =
      next.cursor second := by
    intro second
    simp only [FakeIpDns.store, write, Cache.set, Cache.commit]
    cases faults.forward with
    | some error => rfl
    | none => cases faults.ptr <;> rfl
  have saved : ∀ second : Family, loadCursor none second.cursorKey
      (next.store faults family domain ip.text).2.cache =
        loadCursor none second.cursorKey next.cache := fun second =>
    loadCursor_congr (lookup_store_of_ne cacheKey_ne_cursorKey.symm ptrKey_ne_cursorKey.symm)
  refine ⟨?_, ?_, ?_, ?_⟩
  · rw [cursors, advances.own]
  · intro second differs
    rw [cursors, advances.others second differs]
  · rw [saved, advances.persisted]
  · intro second differs
    rw [saved, advances.kept second differs]

section Calls

variable {dns next : FakeIpDns} {read : Option String} {faults : FakeIpFaults} {domain : String}
  {qtype : QType} {result : Option (Except String String)}

/-- A call draws an address and saves the cursor, or leaves everything as it was. -/
theorem advances_of_call (call : Call range dns read faults domain qtype result next)
    (saves : ∀ family, dns.Draws read domain qtype family → faults.cursor = none) :
    (∃ family, dns.Draws read domain qtype family ∧ Advances dns next family) ∨
      (∀ family, ¬dns.Draws read domain qtype family) ∧ next = dns := by
  have drawing {family : Family} (draws : dns.Draws read domain qtype family) :
      Advances dns (dns.nextCursor faults.cursor family).2 family := by
    rw [saves family draws]
    exact advances_nextCursor dns family
  cases call with
  | unsupported other =>
      refine .inr ⟨fun family draws => ?_, rfl⟩
      cases other.symm.trans draws.1
  | cached supported works found =>
      subst works
      refine .inr ⟨fun family draws => ?_, rfl⟩
      cases supported.symm.trans draws.1
      cases found.symm.trans draws.2.fresh
  | panicked supported misses overflow =>
      exact .inl ⟨_, ⟨supported, misses⟩, drawing ⟨supported, misses⟩⟩
  | refused supported misses drawn failed =>
      exact .inl ⟨_, ⟨supported, misses⟩, drawing ⟨supported, misses⟩⟩
  | @allocated family ip allocates =>
      have draws : dns.Draws read domain qtype family := ⟨allocates.supported, allocates.misses⟩
      exact .inl ⟨family, draws, (drawing draws).store faults domain ip⟩

/-- A domain has the address that it had, or the one that the call allocates. -/
theorem resolves_of_call (call : Call range dns read faults domain qtype result next)
    {other : String} (resolves : next.Resolves family other ip) :
    dns.Resolves family other ip ∨
      Allocates range dns read faults domain qtype family ip := by
  rw [resolves_iff] at resolves
  rcases call.directory with ⟨drawn, allocates, same⟩ | ⟨-, same⟩
  · rw [same] at resolves
    by_cases own : (family, other) = (drawn.family, domain)
    · cases own
      rw [Directory.forward_record_self] at resolves
      cases resolves
      exact .inr allocates
    · rw [Directory.forward_record_of_ne own] at resolves
      exact .inl resolves
  · rw [same] at resolves
    exact .inl resolves

theorem drawn_of_draws (draws : dns.Draws read domain qtype family) (drawn : Family → Nat) :
    (fun second => if dns.Draws read domain qtype second then drawn second + 1
      else drawn second) = Function.update drawn family (drawn family + 1) := by
  funext second
  by_cases same : second = family
  · rw [same, if_pos draws, Function.update_self]
  · rw [Function.update_of_ne same, if_neg]
    exact fun again => same (Option.some.inj (again.1.symm.trans draws.1))

end Calls

namespace Counting

theorem draw {dns : FakeIpDns} (counting : Counting range state) (stored : dns.Stored)
    (advances : Advances state.dns dns family)
    (new : ∀ second domain ip, dns.Resolves second domain ip →
      state.dns.Resolves second domain ip ∨
        second = family ∧ range.getFakeIp (state.dns.cursor family) family = some ip) :
    Counting range ⟨dns, Function.update state.drawn family (state.drawn family + 1)⟩ := by
  refine ⟨stored, fun second => ?_, fun second => ?_, fun second domain ip resolves => ?_⟩
  · by_cases same : second = family
    · subst same
      simp only [advances.own, Function.update_self, UInt64.toNat_add, counting.cursor,
        UInt64.toNat_one, Nat.mod_add_mod]
    · simp only [advances.others second same, Function.update_of_ne same, counting.cursor]
  · by_cases same : second = family
    · subst same
      rw [advances.persisted, advances.own]
    · rw [advances.kept second same, advances.others second same, counting.persisted]
  · rcases new second domain ip resolves with earlier | ⟨rfl, here⟩
    · obtain ⟨count, before, address⟩ := counting.used second domain ip earlier
      refine ⟨count, Nat.lt_of_lt_of_le before ?_, address⟩
      by_cases same : second = family
      · subst same
        simp only [Function.update_self]
        exact Nat.le_succ _
      · simp only [Function.update_of_ne same, Nat.le_refl]
    · refine ⟨state.drawn second, ?_, (counting.getFakeIp_cursor second).trans here⟩
      simp only [Function.update_self, Nat.lt_succ_self]

theorem restart {reads : Family → Option String} (counting : Counting range state)
    (saves : Saves state (.restart reads)) :
    Counting range ⟨load reads state.dns.cache, state.drawn⟩ := by
  have cursors (family : Family) :
      (load reads state.dns.cache).cursor family = state.dns.cursor family := by
    rw [cursor_load]
    rcases saves family with works | undrawn
    · rw [works, counting.persisted]
    · cases failed : reads family with
      | none => exact counting.persisted family
      | some error =>
          refine UInt64.toNat_inj.mp ?_
          rw [counting.cursor, undrawn]
          rfl
  refine ⟨counting.stored, fun family => ?_, fun family => ?_, counting.used⟩
  · simp only [cursors, counting.cursor]
  · simp only [cursors]
    exact counting.persisted family

theorem step (counting : Counting range state) (saves : Saves state lookup)
    (taken : step range state lookup = some next) : Counting range next := by
  cases lookup with
  | restart reads =>
      cases taken
      exact counting.restart saves
  | resolve qtype domain read faults =>
      cases taken
      have call := call_resolveInternal range state.dns read faults domain qtype
      have stored := call.stored counting.stored
      rcases advances_of_call call saves with ⟨family, draws, advances⟩ | ⟨idle, same⟩
      · rw [drawn_of_draws draws]
        refine counting.draw stored advances fun second other ip resolves => ?_
        refine (resolves_of_call call resolves).imp_right fun allocates => ?_
        cases draws.1.symm.trans allocates.supported
        exact ⟨rfl, allocates.drawn⟩
      · rw [same]
        simp only [if_neg (idle _)]
        exact counting

theorem inverse (counting : Counting range state) (inverse : state.dns.Inverse)
    (gives : GivesNew range state lookup) (taken : Allocator.step range state lookup = some next) :
    next.dns.Inverse := by
  cases lookup with
  | restart reads =>
      cases taken
      exact inverse
  | resolve qtype domain read faults =>
      cases taken
      rw [inverse_iff] at inverse ⊢
      rcases (call_resolveInternal range state.dns read faults domain qtype).directory with
        ⟨ip, allocates, same⟩ | ⟨-, same⟩
      · obtain ⟨clean, ptr, left⟩ := gives ip.family ip allocates
        rw [same, ptr]
        exact inverse.record (readName_eq_self_iff.mpr clean)
          ((unused_iff ip).mpr (counting.unused allocates.drawn left))
      · rw [same]
        exact inverse

end Counting

/-! Runs in which the cache works. -/

theorem saves_of_works (works : Works state lookup) : Saves state lookup := by
  cases lookup with
  | restart reads => exact fun family => .inl (works family)
  | resolve qtype domain read faults =>
      intro family draws
      rw [works.2]
      rfl

theorem Complete.step (complete : Complete range state) (counting : Counting range state)
    (works : Works state lookup) (taken : step range state lookup = some next) :
    Complete range next := by
  cases lookup with
  | restart reads =>
      cases taken
      exact ⟨complete.linked, complete.covered⟩
  | resolve qtype domain read faults =>
      cases taken
      obtain ⟨rfl, rfl⟩ := works
      have call := call_resolveInternal range state.dns none noFaults domain qtype
      have reached : state.dns.Reached := ⟨counting.stored, complete.linked⟩
      refine ⟨(reached.call call).linked, ?_⟩
      have kept {second : Family} {other : String} {ip : IpAddr}
          (resolves : state.dns.Resolves second other ip) :
          (state.dns.resolveInternal range none noFaults domain qtype).2.Resolves second other
            ip := by
        rw [resolves_iff] at resolves ⊢
        rcases call.directory with ⟨drawn, allocates, same⟩ | ⟨-, same⟩
        · rw [same]
          exact Directory.forward_record_of_some (allocates.fresh_directory reached) resolves
        · rw [same]
          exact resolves
      intro second count before ip address
      by_cases earlier : count < state.drawn second
      · obtain ⟨other, resolves⟩ := complete.covered second count earlier ip address
        exact ⟨other, kept resolves⟩
      · -- The address has been drawn just now, and has been stored.
        by_cases draws : state.dns.Draws none domain qtype second
        · simp only [if_pos draws] at before
          obtain rfl : count = state.drawn second := by omega
          rw [counting.getFakeIp_cursor] at address
          have allocates : Allocates range state.dns none noFaults domain qtype second ip :=
            ⟨draws.1, draws.2, address, rfl⟩
          refine ⟨domain, ?_⟩
          rw [resolves_iff]
          rcases call.directory with ⟨drawn, again, same⟩ | ⟨none_new, -⟩
          · cases again.supported.symm.trans allocates.supported
            cases again.drawn.symm.trans allocates.drawn
            rw [same, Directory.forward_record_self]
          · exact absurd allocates (none_new second ip)
        · simp only [if_neg draws] at before
          exact absurd before earlier

/-- A step of the allocator as a step of the resolver. -/
def event : LookupEvent → FakeIpEvent
  | .resolve qtype domain _ faults => .resolve qtype domain faults
  | .restart reads => .restart reads

theorem step_dns (works : Works state lookup) (taken : step range state lookup = some next) :
    FakeIpDns.step range state.dns (event lookup) = some next.dns := by
  cases lookup with
  | resolve qtype domain read faults =>
      cases taken
      rw [works.1]
      rfl
  | restart reads =>
      cases taken
      rfl

theorem storesBoth_iff (counting : Counting range state) (complete : Complete range state)
    (works : Works state lookup) :
    StoresBoth range state.dns (event lookup) ↔ Sparing range state lookup := by
  refine Iff.trans ?_ (and_iff_right (saves_of_works works)).symm
  cases lookup with
  | restart reads => exact Iff.rfl
  | resolve qtype domain read faults =>
      obtain ⟨rfl, rfl⟩ := works
      constructor
      · intro sound family ip allocates
        obtain ⟨clean, ptr, unused⟩ := sound family ip allocates
        exact ⟨clean, ptr, counting.left_of_unused complete allocates.drawn unused⟩
      · intro sparing family ip allocates
        obtain ⟨clean, ptr, left⟩ := sparing family ip allocates
        exact ⟨clean, ptr, counting.unused allocates.drawn left⟩

theorem oneToOne_of_sparing (ran : Machine.run (step range) start events = some final)
    (sparing : Machine.Within (step range) (Sparing range) start events) :
    final.dns.OneToOne := by
  rw [oneToOne_iff_inverse]
  have holds : Counting range final ∧ final.dns.Inverse := by
    refine Machine.run_within_invariant (fun state => Counting range state ∧ state.dns.Inverse)
      ?_ ⟨Counting.start, inverse_empty⟩ sparing ran
    rintro state lookup next ⟨counting, inverse⟩ ⟨saves, gives⟩ taken
    exact ⟨counting.step saves taken, counting.inverse inverse gives taken⟩
  exact holds.2

/-- The mapping is one-to-one after every run of calls and restarts, with any failures of
the cache, in which the cursors that are drawn are saved and read back, and every
domain that is given an address has no white space around it, gets its `ptr` entry, and
is given the address before the range is exhausted; and after no other run in which the
cache works. -/
theorem oneToOne_iff (ran : Machine.run (step range) start events = some final) :
    (Machine.Within (step range) (Sparing range) start events → final.dns.OneToOne) ∧
      (Machine.Within (step range) Works start events →
        (final.dns.OneToOne ↔ Machine.Within (step range) (Sparing range) start events)) := by
  refine ⟨oneToOne_of_sparing ran, fun works => ?_⟩
  rw [oneToOne_iff_inverse]
  have whole : final.dns.Inverse ↔
      start.dns.Inverse ∧ Machine.Within (step range) (Sparing range) start events := by
    refine Machine.run_iff_within_of (fun state => Counting range state ∧ Complete range state)
      (fun state => state.dns.Inverse) ?_ ?_ ⟨Counting.start, Complete.start⟩ works ran
    · rintro state lookup next ⟨counting, complete⟩ works taken
      exact ⟨counting.step (saves_of_works works) taken, complete.step counting works taken⟩
    · rintro state lookup next ⟨counting, complete⟩ works taken
      rw [inverse_step_iff ⟨counting.stored, complete.linked⟩ (step_dns works taken),
        storesBoth_iff counting complete works]
  rw [whole]
  exact and_iff_right inverse_empty

/-- One address, `198.18.0.1`. -/
def singleton : FakeIpRange where
  ipv4Cidr := ⟨⟨198, 18, 0, 1⟩, 32, by decide⟩
  ipv6Cidr := FakeIpDns.defaultRange.ipv6Cidr
  overflowChecks := false

def exhausted : List LookupEvent :=
  [.resolve .a "a.org" none noFaults, .resolve .a "b.org" none noFaults]

theorem exhausted_not_oneToOne :
    ∃ final, Machine.run (step singleton) start exhausted = some final ∧
      final.dns.Resolves .v4 "a.org" (.v4 ⟨198, 18, 0, 1⟩) ∧
      final.dns.Resolves .v4 "b.org" (.v4 ⟨198, 18, 0, 1⟩) ∧
      final.dns.reverseLookup none (.v4 ⟨198, 18, 0, 1⟩) = some "b.org" ∧
      ¬final.dns.OneToOne := by
  have first : ∃ final, Machine.run (step singleton) start exhausted = some final ∧
      final.dns.Resolves .v4 "a.org" (.v4 ⟨198, 18, 0, 1⟩) ∧
      final.dns.Resolves .v4 "b.org" (.v4 ⟨198, 18, 0, 1⟩) ∧
      final.dns.reverseLookup none (.v4 ⟨198, 18, 0, 1⟩) = some "b.org" :=
    ⟨_, rfl, by decide +kernel, by decide +kernel, by decide +kernel⟩
  obtain ⟨final, ran, one, two, back⟩ := first
  refine ⟨final, ran, one, two, back, fun oneToOne => ?_⟩
  have same := oneToOne.injective .v4 "a.org" "b.org" _ one two
  revert same
  decide

/-- The first cursor is not saved, so that the process after the restart draws it again. -/
def unsaved : List LookupEvent :=
  [.resolve .a "a.org" none ⟨some "disk full", none, none⟩, .restart fun _ => none,
    .resolve .a "b.org" none noFaults]

example :
    ∃ final, Machine.run (step defaultRange) start unsaved = some final ∧
      final.dns.Resolves .v4 "a.org" (.v4 ⟨198, 18, 0, 0⟩) ∧
      final.dns.Resolves .v4 "b.org" (.v4 ⟨198, 18, 0, 0⟩) :=
  ⟨_, rfl, by decide +kernel, by decide +kernel⟩

/-- A condition that can be evaluated. -/
def Roomy (range : FakeIpRange) (state : Allocator) : LookupEvent → Prop
  | .resolve _ domain _ faults => faults.cursor = none ∧ faults.ptr = none ∧
      trimmed domain = some domain ∧
      state.drawn .v4 < range.hosts .v4 ∧ state.drawn .v6 < range.hosts .v6
  | .restart reads => reads .v4 = none ∧ reads .v6 = none

instance (state : Allocator) : (lookup : LookupEvent) → Decidable (Roomy range state lookup)
  | .resolve _ _ _ _ => inferInstanceAs (Decidable (_ ∧ _ ∧ _ ∧ _ ∧ _))
  | .restart _ => inferInstanceAs (Decidable (_ ∧ _))

theorem sparing_of_roomy (roomy : Roomy range state lookup) : Sparing range state lookup := by
  cases lookup with
  | restart reads =>
      refine ⟨fun family => ?_, trivial⟩
      cases family with
      | v4 => exact .inl roomy.1
      | v6 => exact .inl roomy.2
  | resolve qtype domain read faults =>
      obtain ⟨saved, ptr, clean, four, six⟩ := roomy
      refine ⟨fun _ _ => saved, fun family ip _ => ⟨clean, ptr, ?_⟩⟩
      cases family with
      | v4 => exact four
      | v6 => exact six

/-- Two domains, a restart, and the same domains again; a write and a read in between
may fail. -/
def reloaded (failed : Option String) : List LookupEvent :=
  [.resolve .a "a.org" none noFaults, .resolve .a "b.org" none ⟨none, failed, none⟩,
    .restart fun _ => none, .resolve .aaaa "a.org" none noFaults,
    .resolve .a "a.org" failed noFaults, .resolve .a "b.org" none noFaults]

theorem within_reloaded :
    Machine.Within (step defaultRange) Works start (reloaded none) := by
  refine Machine.within_of_forall (fun event member state => ?_) start
  simp only [reloaded, List.mem_cons, List.not_mem_nil, or_false] at member
  rcases member with rfl | rfl | rfl | rfl | rfl | rfl
  case inr.inr.inl => exact fun _ => rfl
  all_goals exact ⟨rfl, rfl⟩

theorem reloaded_oneToOne :
    (∃ final, Machine.run (step defaultRange) start (reloaded (some "disk full")) = some final ∧
      final.dns.OneToOne) ∧
    ∃ final, Machine.run (step defaultRange) start (reloaded none) = some final ∧
      (final.dns.OneToOne ↔
        Machine.Within (step defaultRange) (Sparing defaultRange) start (reloaded none)) := by
  refine ⟨?_, _, rfl, (oneToOne_iff rfl).2 within_reloaded⟩
  have roomy : Machine.Within (step defaultRange) (Roomy defaultRange) start
      (reloaded (some "disk full")) := by
    decide +kernel
  exact ⟨_, rfl, (oneToOne_iff rfl).1 (Machine.within_mono sparing_of_roomy roomy)⟩

end Allocator

end QuicProxy
