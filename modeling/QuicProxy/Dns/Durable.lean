import QuicProxy.Data.Pool
import QuicProxy.Dns.FakeIp

namespace QuicProxy

/-! `resolve_internal` as calls that interleave, and restarts between them: what
the cache holds of the cursors against the addresses that have been drawn. -/

inductive ResolvePhase where
  | lookup
  | fetchAdd
  | load (cursor : UInt64)
  | save (cursor value : UInt64)
  | forward (text : String)
  | ptr (text : String)
  | returned (result : Option (Except String String))
deriving DecidableEq

structure ResolveCall where
  family : Family
  domain : String
  phase : ResolvePhase
deriving DecidableEq

/-- The resolver with the cursors that it and the processes before it have
drawn, each with its domain, the first one first. -/
structure Resolver where
  dns : FakeIpDns
  drawn : Family → List (String × UInt64)

abbrev ResolveConfig := Pool.Config Resolver ResolveCall

abbrev ResolveChoice := Option String

inductive ResolveEvent where
  | call (event : Pool.Event (Family × String) ResolveChoice)
  | restart (reads : Family → Option String)

namespace ResolveCall

open ResolvePhase

variable {range : FakeIpRange}

def start (request : Family × String) : ResolveCall := ⟨request.1, request.2, lookup⟩

/-- What the call does with the cursor that it has drawn. -/
def allocate (range : FakeIpRange) (family : Family) (cursor : UInt64) : ResolvePhase :=
  match range.getFakeIp cursor family with
  | none => returned none
  | some ip => forward ip.text

def act (range : FakeIpRange) (config : ResolveConfig) (call : ResolveCall)
    (fault : ResolveChoice) : Option (Resolver × ResolveCall) :=
  let resolver := config.shared
  let dns := resolver.dns
  let next (resolver : Resolver) (phase : ResolvePhase) : Option (Resolver × ResolveCall) :=
    some (resolver, { call with phase := phase })
  match call.phase with
  | lookup =>
      match Cache.get fault (call.family.cacheKey call.domain) dns.cache with
      | .ok (some text) => next resolver (returned (some (.ok text)))
      | _ => next resolver fetchAdd
  | fetchAdd =>
      let cursor := dns.cursor call.family
      next ⟨dns.fetchAdd call.family, Function.update resolver.drawn call.family
        (resolver.drawn call.family ++ [(call.domain, cursor)])⟩ (load cursor)
  | load cursor => next resolver (save cursor (dns.cursor call.family))
  | save cursor value =>
      next { resolver with dns := dns.writeCursor fault call.family value }
        (allocate range call.family cursor)
  | forward text =>
      match dns.write fault (call.family.cacheKey call.domain) text with
      | (.error error, dns) =>
          next { resolver with dns := dns } (returned (some (.error error)))
      | (.ok (), dns) => next { resolver with dns := dns } (ptr text)
  | ptr text =>
      match dns.write fault (ptrKey text) call.domain with
      | (.error error, dns) =>
          next { resolver with dns := dns } (returned (some (.error error)))
      | (.ok (), dns) => next { resolver with dns := dns } (returned (some (.ok text)))
  | returned _ => none

def program (range : FakeIpRange) :
    Pool.Program Resolver ResolveCall (Family × String) ResolveChoice :=
  ⟨start, act range⟩

def hasReturned (call : ResolveCall) : Bool :=
  match call.phase with
  | returned _ => true
  | _ => false

/-- The cursor that the call has drawn and not saved yet. -/
def pending (call : ResolveCall) : Option UInt64 :=
  match call.phase with
  | load cursor => some cursor
  | save cursor _ => some cursor
  | _ => none

/-- The operations of a call, as far as they concern the cursors. -/
inductive Move (config : ResolveConfig) (call : ResolveCall) (fault : ResolveChoice) :
    Resolver → ResolveCall → Prop
  | draw (here : call.phase = fetchAdd) :
      Move config call fault
        ⟨config.shared.dns.fetchAdd call.family, Function.update config.shared.drawn call.family
          (config.shared.drawn call.family ++
            [(call.domain, config.shared.dns.cursor call.family)])⟩
        { call with phase := load (config.shared.dns.cursor call.family) }
  | load {cursor : UInt64} (here : call.phase = load cursor) :
      Move config call fault config.shared
        { call with phase := save cursor (config.shared.dns.cursor call.family) }
  | save {cursor value : UInt64} {phase : ResolvePhase} (here : call.phase = save cursor value)
      (done : pending { call with phase := phase } = none) :
      Move config call fault
        { config.shared with dns := config.shared.dns.writeCursor fault call.family value }
        { call with phase := phase }
  | other {dns : FakeIpDns} {phase : ResolvePhase} (before : pending call = none)
      (after : pending { call with phase := phase } = none)
      (cursors : ∀ family, dns.cursor family = config.shared.dns.cursor family)
      (saved : ∀ family : Family, FakeIpDns.loadCursor none family.cursorKey dns.cache =
        FakeIpDns.loadCursor none family.cursorKey config.shared.dns.cache) :
      Move config call fault { config.shared with dns := dns } { call with phase := phase }

theorem pending_allocate (call : ResolveCall) (cursor : UInt64) :
    pending { call with phase := allocate range call.family cursor } = none := by
  simp only [allocate]
  cases range.getFakeIp cursor call.family <;> rfl

theorem move_write {config : ResolveConfig} {call moved : ResolveCall} {fault : ResolveChoice}
    {resolver : Resolver} {key value : String} {phase : ResolvePhase}
    (before : pending call = none) (differs : ∀ family : Family, family.cursorKey ≠ key)
    (after : pending { call with phase := phase } = none)
    (acted : (match config.shared.dns.write fault key value with
      | (.error error, dns) => some ({ config.shared with dns := dns },
          { call with phase := returned (some (.error error)) })
      | (.ok (), dns) => some ({ config.shared with dns := dns },
          { call with phase := phase })) = some (resolver, moved)) :
    Move config call fault resolver moved := by
  have moves : ∀ phase, pending { call with phase := phase } = none → Move config call fault
      { config.shared with dns := (config.shared.dns.write fault key value).2 }
      { call with phase := phase } := fun phase after =>
    .other before after (fun _ => FakeIpDns.cursor_write)
      fun family => FakeIpDns.loadCursor_write (differs family)
  split at acted
  · rename_i error dns written
    cases acted
    rw [written] at moves
    exact moves _ rfl
  · rename_i dns written
    cases acted
    rw [written] at moves
    exact moves phase after

theorem move_of_act {config : ResolveConfig} {call moved : ResolveCall} {fault : ResolveChoice}
    {resolver : Resolver} (acted : act range config call fault = some (resolver, moved)) :
    Move config call fault resolver moved := by
  obtain ⟨family, domain, phase⟩ := call
  cases phase with
  | lookup =>
      simp only [act] at acted
      split at acted
      · cases acted
        exact .other rfl rfl (fun _ => rfl) fun _ => rfl
      · cases acted
        exact .other rfl rfl (fun _ => rfl) fun _ => rfl
  | fetchAdd =>
      cases acted
      exact .draw rfl
  | load cursor =>
      cases acted
      exact .load rfl
  | save cursor value =>
      cases acted
      exact .save rfl (pending_allocate ..)
  | forward text => exact move_write rfl (fun _ => cacheKey_ne_cursorKey.symm) rfl acted
  | ptr text => exact move_write rfl (fun _ => ptrKey_ne_cursorKey.symm) rfl acted
  | returned result => cases acted

end ResolveCall

namespace ResolveConfig

open ResolvePhase ResolveCall

variable {range : FakeIpRange} {config next final : ResolveConfig} {event : ResolveEvent}
  {events : List ResolveEvent} {family : Family}

def Settled (config : ResolveConfig) : Prop := ∀ call ∈ config.calls, call.hasReturned = true

instance (config : ResolveConfig) : Decidable config.Settled :=
  inferInstanceAs (Decidable (∀ call ∈ config.calls, call.hasReturned = true))

/-- A restart takes place when all calls have returned. -/
def step (range : FakeIpRange) (config : ResolveConfig) : ResolveEvent → Option ResolveConfig
  | .call event => (program range).step config event
  | .restart reads =>
      if config.Settled then
        some ⟨{ config.shared with dns := FakeIpDns.load reads config.shared.dns.cache }, []⟩
      else none

def start : ResolveConfig := ⟨⟨FakeIpDns.empty, fun _ => []⟩, []⟩

def persisted (config : ResolveConfig) (family : Family) : UInt64 :=
  FakeIpDns.loadCursor none family.cursorKey config.shared.dns.cache

/-- The next operation of the call: a cursor that it draws does not wrap around,
and a cursor that it saves is written and replaces no later one. -/
def SavesLater (config : ResolveConfig) (fault : ResolveChoice) (call : ResolveCall) : Prop :=
  match call.phase with
  | fetchAdd => (config.shared.dns.cursor call.family).toNat + 1 < 2 ^ 64
  | save _ value => fault = none ∧ config.persisted call.family ≤ value
  | _ => True

/-- At a restart, a cursor that has been drawn is read. -/
def Ordered (config : ResolveConfig) : ResolveEvent → Prop
  | .call (.start _) => True
  | .call (.advance index fault) => ∀ call ∈ config.calls[index]?, SavesLater config fault call
  | .restart reads => ∀ family, reads family = none ∨ config.shared.drawn family = []

/-- Every cursor that has been drawn is below the one that the cache holds, or
its call is about to save it. -/
structure Durable (config : ResolveConfig) : Prop where
  cursor : ∀ family,
    (config.shared.dns.cursor family).toNat = (config.shared.drawn family).length
  drawn : ∀ family index domain (cursor : UInt64),
    (config.shared.drawn family)[index]? = some (domain, cursor) → cursor.toNat = index
  ahead : ∀ call ∈ config.calls, ∀ cursor, call.pending = some cursor →
    cursor.toNat < (config.shared.drawn call.family).length
  loaded : ∀ call ∈ config.calls, ∀ cursor value, call.phase = save cursor value →
    cursor < value ∧ value.toNat ≤ (config.shared.drawn call.family).length
  bounded : ∀ family, (config.persisted family).toNat ≤ (config.shared.drawn family).length
  saved : ∀ family, ∀ index < (config.shared.drawn family).length,
    index < (config.persisted family).toNat ∨
      ∃ call ∈ config.calls, call.family = family ∧
        ∃ cursor, call.pending = some cursor ∧ cursor.toNat = index

theorem durable_start : Durable start := by
  refine ⟨?_, ?_, ?_, ?_, ?_, ?_⟩
  · intro family
    cases family <;> rfl
  · intro family index domain cursor found
    cases found
  · intro call member
    cases member
  · intro call member
    cases member
  · intro family
    cases family <;> exact Nat.le_refl 0
  · intro family index before
    cases before

namespace Durable

theorem begin (durable : Durable config) (request : Family × String) :
    Durable ⟨config.shared, config.calls ++ [ResolveCall.start request]⟩ := by
  refine ⟨durable.cursor, durable.drawn, ?_, ?_, durable.bounded, ?_⟩
  · exact Pool.forall_start durable.ahead fun cursor pending => by cases pending
  · exact Pool.forall_start durable.loaded fun cursor value phase => by cases phase
  · intro family index before
    apply (durable.saved family index before).imp_right
    intro given
    obtain ⟨call, member, drawn⟩ := given
    exact ⟨call, List.mem_append_left _ member, drawn⟩

section Act

variable {before after : List ResolveCall} {call moved : ResolveCall} {fault : ResolveChoice}

theorem ahead_act (durable : Durable config) (calls : config.calls = before ++ call :: after)
    (own : ∀ cursor, moved.pending = some cursor →
      cursor.toNat < (config.shared.drawn moved.family).length) :
    ∀ other ∈ before ++ moved :: after, ∀ cursor, other.pending = some cursor →
      cursor.toNat < (config.shared.drawn other.family).length :=
  Pool.forall_act (calls ▸ durable.ahead) (fun _ => own) fun _ same => same

theorem loaded_act (durable : Durable config) (calls : config.calls = before ++ call :: after)
    (own : ∀ cursor value, moved.phase = save cursor value →
      cursor < value ∧ value.toNat ≤ (config.shared.drawn moved.family).length) :
    ∀ other ∈ before ++ moved :: after, ∀ cursor value, other.phase = save cursor value →
      cursor < value ∧ value.toNat ≤ (config.shared.drawn other.family).length :=
  Pool.forall_act (calls ▸ durable.loaded) (fun _ => own) fun _ same => same

/-- A position that is not below the saved cursor belongs to the call that moves
or to another one. -/
theorem saved_act (durable : Durable config) (calls : config.calls = before ++ call :: after)
    {family : Family} {index : Nat} (drawn : index < (config.shared.drawn family).length) :
    index < (config.persisted family).toNat ∨
      (call.family = family ∧ ∃ cursor, call.pending = some cursor ∧ cursor.toNat = index) ∨
        ∀ moved, ∃ other ∈ before ++ moved :: after, other.family = family ∧
          ∃ cursor, other.pending = some cursor ∧ cursor.toNat = index := by
  apply (durable.saved family index drawn).imp_right
  intro found
  by_cases own : call.family = family ∧ ∃ cursor, call.pending = some cursor ∧ cursor.toNat = index
  · exact Or.inl own
  · exact Or.inr fun moved => (Pool.exists_act (calls ▸ found)).resolve_left own

theorem not_pending_save (done : moved.pending = none) {cursor value : UInt64} :
    moved.phase ≠ save cursor value := by
  intro same
  rw [pending, same] at done
  cases done

theorem length_record (drawn : Family → List (String × UInt64)) (family other : Family)
    (entry : String × UInt64) :
    (Function.update drawn family (drawn family ++ [entry]) other).length =
      (drawn other).length + if other = family then 1 else 0 := by
  by_cases same : other = family
  · subst same
    rw [Function.update_self, List.length_append, if_pos rfl]
    rfl
  · rw [Function.update_of_ne same, if_neg same]
    rfl

theorem getElem?_record {drawn : Family → List (String × UInt64)} {family other : Family}
    {entry found : String × UInt64} {index : Nat}
    (there : (Function.update drawn family (drawn family ++ [entry]) other)[index]? = some found) :
    (drawn other)[index]? = some found ∨
      other = family ∧ index = (drawn family).length ∧ found = entry := by
  by_cases same : other = family
  · subst same
    rw [Function.update_self] at there
    exact (Pool.getElem?_concat_cases there).imp_right fun last => ⟨rfl, last⟩
  · rw [Function.update_of_ne same] at there
    exact Or.inl there

theorem draw (durable : Durable config) (calls : config.calls = before ++ call :: after)
    (here : call.phase = fetchAdd)
    (fits : (config.shared.dns.cursor call.family).toNat + 1 < 2 ^ 64) :
    Durable ⟨⟨config.shared.dns.fetchAdd call.family,
      Function.update config.shared.drawn call.family (config.shared.drawn call.family ++
        [(call.domain, config.shared.dns.cursor call.family)])⟩,
      before ++ { call with phase := ResolvePhase.load (config.shared.dns.cursor call.family) } ::
        after⟩ := by
  have total := durable.cursor call.family
  refine ⟨?_, ?_, ?_, ?_, ?_, ?_⟩
  · intro family
    simp only [length_record]
    by_cases same : family = call.family
    · subst same
      rw [if_pos rfl, FakeIpDns.cursor_fetchAdd_self, UInt64.toNat_add, UInt64.toNat_one,
        Nat.mod_eq_of_lt fits, total]
    · rw [if_neg same, FakeIpDns.cursor_fetchAdd_of_ne same]
      exact durable.cursor family
  · intro family index domain cursor found
    rcases getElem?_record found with earlier | ⟨-, rfl, new⟩
    · exact durable.drawn family index domain cursor earlier
    · cases new
      exact total
  · refine Pool.forall_act (calls ▸ durable.ahead) ?_ ?_
    · intro own cursor drawn
      cases drawn
      simp only [length_record, if_pos, total]
      omega
    · intro other holds cursor drawn
      simp only [length_record]
      exact Nat.lt_of_lt_of_le (holds cursor drawn) (Nat.le_add_right ..)
  · refine Pool.forall_act (calls ▸ durable.loaded) ?_ ?_
    · intro own cursor value phase
      cases phase
    · intro other holds cursor value phase
      simp only [length_record]
      obtain ⟨above, bounded⟩ := holds cursor value phase
      exact ⟨above, Nat.le_trans bounded (Nat.le_add_right ..)⟩
  · intro family
    simp only [length_record, persisted, FakeIpDns.cache_fetchAdd]
    exact Nat.le_trans (durable.bounded family) (Nat.le_add_right ..)
  · intro family index before
    simp only [length_record] at before
    simp only [persisted, FakeIpDns.cache_fetchAdd]
    by_cases earlier : index < (config.shared.drawn family).length
    · apply (durable.saved_act calls earlier).imp_right
      intro found
      rcases found with ⟨-, other, drawn, -⟩ | others
      · rw [pending, here] at drawn
        cases drawn
      · exact others _
    · by_cases same : family = call.family
      · subst same
        rw [if_pos rfl] at before
        refine Or.inr ⟨_, List.mem_append_right _ (List.mem_cons_self ..), rfl, _, rfl, ?_⟩
        omega
      · rw [if_neg same] at before
        exact absurd before earlier

theorem load {cursor : UInt64} (durable : Durable config)
    (calls : config.calls = before ++ call :: after) (here : call.phase = load cursor) :
    Durable ⟨config.shared, before ++
      { call with phase := ResolvePhase.save cursor (config.shared.dns.cursor call.family) } ::
        after⟩ := by
  have member : call ∈ config.calls := by simp [calls]
  have mine : call.pending = some cursor := by rw [pending, here]
  have below := durable.ahead call member cursor mine
  refine ⟨durable.cursor, durable.drawn, durable.ahead_act calls ?_,
    durable.loaded_act calls ?_, durable.bounded, ?_⟩
  · intro other pending
    cases pending
    exact below
  · intro other value phase
    cases phase
    refine ⟨?_, ?_⟩
    · rw [UInt64.lt_iff_toNat_lt, durable.cursor]
      exact below
    · rw [durable.cursor]
  · intro family index before
    apply (durable.saved_act calls before).imp_right
    intro found
    rcases found with ⟨same, other, pending, position⟩ | others
    · rw [mine] at pending
      cases pending
      exact ⟨_, List.mem_append_right _ (List.mem_cons_self ..), same, cursor, rfl, position⟩
    · exact others _

theorem save {cursor value : UInt64} {phase : ResolvePhase} (durable : Durable config)
    (calls : config.calls = before ++ call :: after) (here : call.phase = save cursor value)
    (done : pending { call with phase := phase } = none)
    (later : config.persisted call.family ≤ value) :
    Durable ⟨{ config.shared with
      dns := config.shared.dns.writeCursor none call.family value },
      before ++ { call with phase := phase } :: after⟩ := by
  have member : call ∈ config.calls := by simp [calls]
  obtain ⟨above, bounded⟩ := durable.loaded call member cursor value here
  rw [UInt64.lt_iff_toNat_lt] at above
  rw [UInt64.le_iff_toNat_le] at later
  have mine : call.pending = some cursor := by rw [pending, here]
  refine ⟨?_, durable.drawn, durable.ahead_act calls ?_, durable.loaded_act calls ?_, ?_, ?_⟩
  · intro family
    rw [← durable.cursor]
    exact congrArg UInt64.toNat FakeIpDns.cursor_writeCursor
  · intro other pending
    rw [done] at pending
    cases pending
  · intro other next same
    exact absurd same (not_pending_save done)
  · intro family
    by_cases same : family = call.family
    · subst same
      simp only [persisted, FakeIpDns.loadCursor_writeCursor_self]
      exact bounded
    · simp only [persisted, FakeIpDns.loadCursor_writeCursor_of_ne same]
      exact durable.bounded family
  · intro family index before
    by_cases same : family = call.family
    · subst same
      simp only [persisted, FakeIpDns.loadCursor_writeCursor_self]
      rcases durable.saved_act calls before with earlier | ⟨-, other, drawn, position⟩ | others
      · exact Or.inl (Nat.lt_of_lt_of_le earlier later)
      · rw [mine] at drawn
        cases drawn
        exact Or.inl (position ▸ above)
      · exact Or.inr (others _)
    · simp only [persisted, FakeIpDns.loadCursor_writeCursor_of_ne same]
      apply (durable.saved_act calls before).imp_right
      intro found
      exact found.resolve_left (fun own => same own.1.symm) _

theorem other {dns : FakeIpDns} {phase : ResolvePhase} (durable : Durable config)
    (calls : config.calls = before ++ call :: after) (idle : pending call = none)
    (done : pending { call with phase := phase } = none)
    (cursors : ∀ family, dns.cursor family = config.shared.dns.cursor family)
    (saved : ∀ family : Family, FakeIpDns.loadCursor none family.cursorKey dns.cache =
      FakeIpDns.loadCursor none family.cursorKey config.shared.dns.cache) :
    Durable ⟨{ config.shared with dns := dns },
      before ++ { call with phase := phase } :: after⟩ := by
  refine ⟨?_, durable.drawn, durable.ahead_act calls ?_, durable.loaded_act calls ?_, ?_, ?_⟩
  · intro family
    simp only [cursors]
    exact durable.cursor family
  · intro other pending
    rw [done] at pending
    cases pending
  · intro other next same
    exact absurd same (not_pending_save done)
  · intro family
    simp only [persisted, saved]
    exact durable.bounded family
  · intro family index before
    simp only [persisted, saved]
    apply (durable.saved_act calls before).imp_right
    intro found
    rcases found with ⟨-, other, drawn, -⟩ | others
    · rw [idle] at drawn
      cases drawn
    · exact others _

theorem move {resolver : Resolver} (durable : Durable config)
    (calls : config.calls = before ++ call :: after)
    (ordered : Ordered config (.call (.advance before.length fault)))
    (move : Move config call fault resolver moved) :
    Durable ⟨resolver, before ++ moved :: after⟩ := by
  have saves : SavesLater config fault call := ordered call (by
    rw [calls, Pool.getElem?_moved]
    rfl)
  cases move with
  | draw here =>
      rw [SavesLater, here] at saves
      exact durable.draw calls here saves
  | load here => exact durable.load calls here
  | save here done =>
      rw [SavesLater, here] at saves
      obtain ⟨rfl, later⟩ := saves
      exact durable.save calls here done later
  | other idle done cursors saved => exact durable.other calls idle done cursors saved

end Act

theorem pending_of_returned {call : ResolveCall} (returned : call.hasReturned = true) :
    call.pending = none := by
  obtain ⟨family, domain, phase⟩ := call
  cases phase with
  | returned => rfl
  | _ => cases returned

theorem persisted_of_settled (durable : Durable config) (settled : config.Settled)
    (family : Family) :
    (config.persisted family).toNat = (config.shared.drawn family).length := by
  apply Nat.le_antisymm (durable.bounded family)
  by_contra short
  rcases durable.saved family (config.persisted family).toNat (Nat.lt_of_not_le short) with
    below | ⟨call, member, -, cursor, pending, -⟩
  · exact absurd below (Nat.lt_irrefl _)
  · rw [pending_of_returned (settled call member)] at pending
    cases pending

theorem restart {reads : Family → Option String} (durable : Durable config)
    (settled : config.Settled) (ordered : Ordered config (.restart reads)) :
    Durable ⟨{ config.shared with dns := FakeIpDns.load reads config.shared.dns.cache }, []⟩ := by
  refine ⟨?_, durable.drawn, ?_, ?_, durable.bounded, ?_⟩
  · intro family
    rw [FakeIpDns.cursor_load]
    rcases ordered family with works | undrawn
    · rw [works]
      exact durable.persisted_of_settled settled family
    · cases failed : reads family with
      | none => exact durable.persisted_of_settled settled family
      | some error =>
          rw [undrawn]
          rfl
  · intro call member
    cases member
  · intro call member
    cases member
  · intro family index before
    apply Or.inl
    rw [← durable.persisted_of_settled settled family] at before
    exact before

theorem step (durable : Durable config) (ordered : Ordered config event)
    (taken : step range config event = some next) : Durable next := by
  cases event with
  | restart reads =>
      simp only [ResolveConfig.step] at taken
      split at taken
      · rename_i settled
        cases taken
        exact durable.restart settled ordered
      · cases taken
  | call event =>
      rcases Pool.Program.step_cases taken with ⟨request, rfl, rfl⟩ |
        ⟨before, call, after, fault, resolver, moved, rfl, calls, acted, rfl⟩
      · exact durable.begin request
      · exact durable.move calls ordered (move_of_act acted)

/-- Cursors that have been drawn stand for different addresses until the range
is exhausted. -/
theorem distinct (durable : Durable config)
    (left : (config.shared.drawn family).length ≤ range.hosts family) {first second : Nat}
    {one two : String × UInt64} {ip : IpAddr}
    (here : (config.shared.drawn family)[first]? = some one)
    (there : (config.shared.drawn family)[second]? = some two)
    (address : range.getFakeIp one.2 family = some ip)
    (again : range.getFakeIp two.2 family = some ip) : first = second := by
  have same := FakeIpRange.getFakeIp_inj address again
  obtain ⟨bound, -⟩ := List.getElem?_eq_some_iff.mp here
  obtain ⟨bound', -⟩ := List.getElem?_eq_some_iff.mp there
  rw [durable.drawn family first one.1 one.2 here, durable.drawn family second two.1 two.2 there,
    Nat.mod_eq_of_lt (by omega), Nat.mod_eq_of_lt (by omega)] at same
  exact same

end Durable

/-- No address has been drawn for two calls. -/
def Distinct (range : FakeIpRange) (config : ResolveConfig) (family : Family) : Prop :=
  ∀ (first second : Nat) (one two : String × UInt64) (ip : IpAddr),
    (config.shared.drawn family)[first]? = some one →
    (config.shared.drawn family)[second]? = some two →
      range.getFakeIp one.2 family = some ip → range.getFakeIp two.2 family = some ip →
        first = second

/-- Over any order of the steps of any calls, with restarts when all calls have
returned: if every call that saves its cursor succeeds and does not replace a
later one, and every restart reads the cursors that have been drawn, then whenever
all calls have returned, the cache holds a cursor that is at least the number of
addresses drawn, and no address is drawn twice, before or after a restart, until
the range is exhausted. -/
theorem cursor_durable (range : FakeIpRange)
    (ran : Machine.run (step range) start events = some final)
    (ordered : Machine.Within (step range) Ordered start events) :
    (final.Settled → ∀ family,
      (final.shared.drawn family).length ≤ (final.persisted family).toNat) ∧
      ∀ family, (final.shared.drawn family).length ≤ range.hosts family →
        Distinct range final family := by
  have durable : Durable final := Machine.run_within_invariant Durable Durable.step durable_start
    ordered ran
  refine ⟨fun settled family => ?_, fun family left => ?_⟩
  · rw [durable.persisted_of_settled settled family]
  · exact fun first second one two ip here there address again =>
      durable.distinct left here there address again

/-- Both calls load the cursor before either saves it, and the first one saves
what it has loaded last. -/
def overtaken : List ResolveEvent :=
  let advance (index : Nat) : ResolveEvent := .call (.advance index none)
  [.call (.start (.v4, "a.org")), .call (.start (.v4, "b.org")),
    advance 0, advance 0, advance 0,
    advance 1, advance 1, advance 1, advance 1, advance 1, advance 1,
    advance 0, advance 0, advance 0]

def thirdAfterRestart : List ResolveEvent :=
  let advance : ResolveEvent := .call (.advance 0 none)
  [.restart fun _ => none, .call (.start (.v4, "c.org")), advance, advance, advance, advance, advance, advance]

theorem overtaken_not_durable :
    ∃ middle final, Machine.run (step FakeIpDns.defaultRange) start overtaken = some middle ∧
      middle.calls = [⟨.v4, "a.org", returned (some (.ok "198.18.0.0"))⟩,
        ⟨.v4, "b.org", returned (some (.ok "198.18.0.1"))⟩] ∧
      (middle.shared.drawn .v4).length = 2 ∧ middle.persisted .v4 = 1 ∧
      Machine.run (step FakeIpDns.defaultRange) middle thirdAfterRestart = some final ∧
      final.calls = [⟨.v4, "c.org", returned (some (.ok "198.18.0.1"))⟩] ∧
      (final.shared.drawn .v4).length ≤ FakeIpDns.defaultRange.hosts .v4 := by
  refine ⟨_, _, rfl, ?_, ?_, ?_, rfl, ?_, ?_⟩
  all_goals decide +kernel

/-- One call after the other, with a restart in between. -/
def inTurn : List ResolveEvent :=
  let advance (index : Nat) : ResolveEvent := .call (.advance index none)
  [.call (.start (.v4, "a.org")), advance 0, advance 0, advance 0, advance 0, advance 0, advance 0,
    .call (.start (.v4, "b.org")), advance 1, advance 1, advance 1, advance 1, advance 1,
    advance 1] ++ thirdAfterRestart

instance (config : ResolveConfig) (fault : ResolveChoice) :
    (call : ResolveCall) → Decidable (SavesLater config fault call)
  | ⟨_, _, fetchAdd⟩ => inferInstanceAs (Decidable (_ < _))
  | ⟨_, _, save _ _⟩ => inferInstanceAs (Decidable (_ ∧ _))
  | ⟨_, _, lookup⟩ | ⟨_, _, load _⟩ | ⟨_, _, forward _⟩ | ⟨_, _, ptr _⟩ | ⟨_, _, returned _⟩ =>
      isTrue trivial

instance (config : ResolveConfig) : (event : ResolveEvent) → Decidable (Ordered config event)
  | .call (.advance index fault) =>
      inferInstanceAs (Decidable (∀ call ∈ config.calls[index]?, SavesLater config fault call))
  | .call (.start _) => isTrue trivial
  | .restart reads =>
      decidable_of_iff ((reads .v4 = none ∨ config.shared.drawn .v4 = []) ∧
          (reads .v6 = none ∨ config.shared.drawn .v6 = []))
        ⟨fun both family => match family with
          | .v4 => both.1
          | .v6 => both.2, fun all => ⟨all .v4, all .v6⟩⟩

theorem inTurn_durable :
    ∃ final, Machine.run (step FakeIpDns.defaultRange) start inTurn = some final ∧
      final.Settled ∧ (final.shared.drawn .v4).length = 3 ∧
      (∀ family, (final.shared.drawn family).length ≤ (final.persisted family).toNat) ∧
      Distinct FakeIpDns.defaultRange final .v4 := by
  have reached : ∃ final, Machine.run (step FakeIpDns.defaultRange) start inTurn = some final ∧
      final.Settled ∧ (final.shared.drawn .v4).length = 3 :=
    ⟨_, rfl, by decide +kernel, by decide +kernel⟩
  obtain ⟨final, ran, settled, three⟩ := reached
  obtain ⟨saved, distinct⟩ := cursor_durable FakeIpDns.defaultRange ran (by decide +kernel)
  refine ⟨final, ran, settled, three, saved settled, distinct .v4 ?_⟩
  rw [three]
  decide

end ResolveConfig

end QuicProxy
