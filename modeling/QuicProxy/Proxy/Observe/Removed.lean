import QuicProxy.Proxy.Observe.Persist

namespace QuicProxy

/-! A removed user stays removed, whatever the persister does meanwhile. -/

namespace PersistConfig

open PersistPhase PersistCall

variable {shards : Nat} {hashes : Hashes} {shard : String → Fin shards}
  {config next final : PersistConfig shards} {event : PersistEvent} {events : List PersistEvent}
  {username : String} {index : Nat}

/-- No `add_user` of the user is under way. -/
def AddsReturned (username : String) (config : PersistConfig shards) : Prop :=
  ∀ call ∈ config.calls, ∀ password, call.request = .add username password →
    ∃ result, call.phase = returned result

/-- The entry of the user is gone, and so are all guards on it. -/
def Gone (username : String) (config : PersistConfig shards) : Prop :=
  username ∉ config.shared.userStats ∧
    ∀ call ∈ config.calls, call.phase.guarded ≠ some username

/-- The state while the removal at `index` runs and after it has returned. -/
structure Removing (username : String) (index : Nat) (config : PersistConfig shards) : Prop where
  adds : AddsReturned username config
  removal : ∃ call, config.calls[index]? = some call ∧ call.request = .remove username ∧
    (PastStats call.phase → Gone username config) ∧
      (Finished call.phase → config.shared.record username = none)

theorem act_of_returned {call moved : PersistCall shards} {observer : Observer}
    {choice : PersistChoice} {result : PersistResult} (done : call.phase = returned result) :
    act hashes shard config call choice ≠ some (observer, moved) := by
  obtain ⟨request, phase⟩ := call
  cases done
  cases request <;> nofun

theorem guarded_of_pastStats {phase : PersistPhase shards} (past : PastStats phase) :
    phase.guarded = none := by
  cases phase with
  | load name rest => cases past
  | write record rest => cases past
  | _ => rfl

theorem pastStats_of_finished {phase : PersistPhase shards} (finished : Finished phase) :
    PastStats phase := by
  cases phase with
  | returned result =>
      cases result with
      | removed found =>
          cases found with
          | true => trivial
          | false => cases finished
      | done => cases finished
      | failed error => cases finished
  | _ => cases finished

theorem guarded_start (request : PersistRequest) :
    (PersistCall.start request : PersistCall shards).phase.guarded = none := by
  cases request <;> rfl

theorem Removing.start (removing : Removing username index config) {request : PersistRequest}
    (other : ∀ password, request ≠ .add username password) :
    Removing username index ⟨config.shared, config.calls ++ [PersistCall.start request]⟩ := by
  obtain ⟨call, found, remove, gone, record⟩ := removing.removal
  refine ⟨?_, call, Pool.getElem?_start found, remove, ?_, record⟩
  · apply Pool.forall_start removing.adds
    intro password same
    refine absurd ?_ (other password)
    cases request <;> exact same
  · intro past
    refine ⟨(gone past).1, Pool.forall_start (gone past).2 ?_⟩
    rw [guarded_start]
    nofun

section Act

variable {before after : List (PersistCall shards)} {call moved : PersistCall shards}
  {observer : Observer} {choice : PersistChoice}

theorem AddsReturned.act (adds : AddsReturned username config)
    (calls : config.calls = before ++ call :: after)
    (acted : PersistCall.act hashes shard config call choice = some (observer, moved)) :
    AddsReturned username ⟨observer, before ++ moved :: after⟩ := by
  rw [AddsReturned, calls] at adds
  refine Pool.forall_act adds ?_ fun _ same => same
  intro own password added
  rw [(act_effect acted).request] at added
  obtain ⟨result, done⟩ := own password added
  exact absurd acted (act_of_returned done)

theorem Gone.act (gone : Gone username config) (adds : AddsReturned username config)
    (calls : config.calls = before ++ call :: after)
    (acted : PersistCall.act hashes shard config call choice = some (observer, moved)) :
    Gone username ⟨observer, before ++ moved :: after⟩ := by
  have effect := act_effect acted
  obtain ⟨absent, unguarded⟩ := gone
  have member : call ∈ config.calls := by simp [calls]
  refine ⟨?_, ?_⟩
  · intro present
    rcases effect.stats username present with earlier | ⟨upserts, password, added⟩
    · exact absent earlier
    · obtain ⟨result, done⟩ := adds call member password added
      cases upserts.symm.trans done
  · rw [calls] at unguarded
    refine Pool.forall_act unguarded ?_ fun _ same => same
    intro own guarded
    rcases effect.guards username guarded with earlier | present
    · exact own earlier
    · exact absent present

/-- The removal itself: past the removal of the entry, no guard is left on it. -/
theorem gone_of_past (removes : call.request = .remove username)
    (gone : PastStats call.phase → Gone username config) (adds : AddsReturned username config)
    (calls : config.calls = before ++ call :: after)
    (acted : PersistCall.act hashes shard config call choice = some (observer, moved))
    (past : PastStats moved.phase) : Gone username ⟨observer, before ++ moved :: after⟩ := by
  rcases (act_effect acted).past username removes past with earlier | ⟨unguarded, absent⟩
  · exact (gone earlier).act adds calls acted
  · rw [calls] at unguarded
    refine ⟨absent, Pool.forall_act unguarded ?_ fun _ same => same⟩
    intro _
    rw [guarded_of_pastStats past]
    nofun

theorem record_act (gone : Gone username config) (record : config.shared.record username = none)
    (calls : config.calls = before ++ call :: after) (healthy : choice.fault = none)
    (acted : PersistCall.act hashes shard config call choice = some (observer, moved)) :
    observer.record username = none := by
  rcases (act_effect acted).record username with same | ⟨guarded, -⟩ | ⟨-, deleted⟩
  · exact same.trans record
  · exact absurd guarded (gone.2 call (by simp [calls]))
  · exact deleted healthy

theorem Removing.act (removing : Removing username index config)
    (calls : config.calls = before ++ call :: after) (healthy : choice.fault = none)
    (acted : PersistCall.act hashes shard config call choice = some (observer, moved)) :
    Removing username index ⟨observer, before ++ moved :: after⟩ := by
  obtain ⟨removal, found, removes, gone, record⟩ := removing.removal
  refine ⟨removing.adds.act calls acted, ?_⟩
  by_cases own : index = before.length
  · subst own
    have same : call = removal := by
      rw [calls, Pool.getElem?_moved] at found
      exact Option.some.inj found
    subst same
    have effect := act_effect acted
    refine ⟨moved, Pool.getElem?_moved, effect.request.trans removes, ?_, ?_⟩
    · exact gone_of_past removes gone removing.adds calls acted
    · exact effect.deleted username removes healthy
  · rw [calls, Pool.getElem?_act own] at found
    refine ⟨removal, found, removes, ?_, ?_⟩
    · exact fun past => (gone past).act removing.adds calls acted
    · intro finished
      have past : PastStats removal.phase := pastStats_of_finished finished
      exact record_act (gone past) (record finished) calls healthy acted

end Act

/-- An event that adds no user of that name, and in which the cache works. -/
def Admissible (username : String) : PersistEvent → Prop
  | .start request => ∀ password, request ≠ .add username password
  | .advance _ choice => choice.fault = none

theorem Removing.step (removing : Removing username index config)
    (admissible : Admissible username event)
    (taken : (program hashes shard).step config event = some next) :
    Removing username index next := by
  rcases Pool.Program.step_cases taken with
    ⟨request, rfl, rfl⟩ | ⟨before, call, after, choice, shared, moved, rfl, calls, acted, rfl⟩
  · exact removing.start admissible
  · exact removing.act calls admissible acted

theorem removing_run (idle : AddsReturned username config)
    (admissible : ∀ event ∈ events, Admissible username event)
    (ran : Machine.run (program hashes shard).step config
      (.start (.remove username) :: events) = some final) :
    Removing username config.calls.length final := by
  obtain ⟨begun, taken, ran⟩ := Machine.run_cons ran
  cases taken
  refine Machine.run_within_invariant (Removing username config.calls.length)
    Removing.step ?_
    (Machine.within_of_forall (fun event member _ => admissible event member) _) ran
  refine ⟨Pool.forall_start idle nofun, PersistCall.start (.remove username), ?_, rfl, False.elim,
    False.elim⟩
  exact Pool.getElem?_moved

end PersistConfig

namespace Observer

variable {username : String}

theorem absent_restore {rows : List (String × PersistedUser)}
    (absent : ∀ row ∈ rows, row.2.username ≠ username) {observer : Observer}
    (stats : username ∉ observer.userStats) (passwords : username ∉ observer.userPasswords) :
    username ∉ (rows.foldl restore observer).userStats ∧
      username ∉ (rows.foldl restore observer).userPasswords := by
  induction rows generalizing observer with
  | nil => exact ⟨stats, passwords⟩
  | cons row rows ih =>
      obtain ⟨first, rest⟩ := List.forall_mem_cons.mp absent
      refine ih rest ?_ ?_
      · intro present
        rcases (AList.mem_insert _).mp present with same | earlier
        · exact first same.symm
        · exact stats earlier
      · intro present
        simp only [restore] at present
        split at present
        · exact passwords present
        · rcases (AList.mem_insert _).mp present with same | earlier
          · exact first same.symm
          · exact passwords earlier

/-- A start with a cache that has no record of the user does not bring it
back. -/
theorem absent_new {observer : Observer} (absent : observer.record username = none)
    (fault : Option String) :
    username ∉ (Observer.new fault observer.userCache).userStats ∧
      username ∉ (Observer.new fault observer.userCache).userPasswords := by
  have nothing : username ∉ (∅ : Table TrafficSnapshot) ∧ username ∉ (∅ : Table String) :=
    ⟨AList.notMem_empty _, AList.notMem_empty _⟩
  simp only [Observer.new, loadPersistedUsers]
  split
  · exact nothing
  · rename_i cache same
    split
    · exact nothing
    · rename_i entries listed
      refine absent_restore ?_ nothing.1 nothing.2
      cases fault with
      | some error => cases listed
      | none =>
          cases listed
          intro row member same_name
          obtain ⟨⟨key, user⟩, stored, rfl⟩ := List.mem_map.mp member
          have found : cache.table.lookup key = some user := AList.mem_lookup_iff.mpr stored
          have keyed : user.username = key := cache.keyed key user found
          rw [record, same, Option.bind_some, ← same_name, keyed, found] at absent
          cases absent

end Observer

namespace PersistConfig

open PersistPhase PersistCall

variable {shards : Nat} {config final : PersistConfig shards} {events : List PersistEvent}
  {username : String}

/-- Over any order of the steps of any calls: once a removal of the user has
returned, with no addition of that user under way at its start or started later
and a cache that works, the cache has no record of the user and a restart does
not bring the user back; and no step of the removal changes the record of
another user.  The restart reads the table as the process last committed it: a
crash that loses commits which are not flushed is not modelled. -/
theorem removed_stays_removed (hashes : Hashes) (shard : String → Fin shards)
    (idle : AddsReturned username config)
    (ran : Machine.run (program hashes shard).step config
      (.start (.remove username) :: events) = some final)
    (admissible : ∀ event ∈ events, Admissible username event)
    (completed : final.calls[config.calls.length]? =
      some ⟨.remove username, returned (.removed true)⟩) :
    final.shared.record username = none ∧
      (∀ fault, username ∉ (Observer.new fault final.shared.userCache).userStats ∧
        username ∉ (Observer.new fault final.shared.userCache).userPasswords) ∧
      ∀ first choice rest middle next,
        events = first ++ .advance config.calls.length choice :: rest →
          Machine.run (program hashes shard).step config (.start (.remove username) :: first) =
              some middle →
            (program hashes shard).step middle (.advance config.calls.length choice) = some next →
              ∀ other, other ≠ username →
                next.shared.record other = middle.shared.record other := by
  have absent : final.shared.record username = none := by
    obtain ⟨removal, found, -, -, record⟩ := (removing_run idle admissible ran).removal
    rw [completed] at found
    cases found
    exact record trivial
  refine ⟨absent, fun fault => Observer.absent_new absent fault, ?_⟩
  intro first choice rest middle next equal reached taken other differs
  subst equal
  have earlier : ∀ event ∈ first, Admissible username event := fun event member =>
    admissible event (List.mem_append_left _ member)
  obtain ⟨removal, found, removes, -⟩ := (removing_run idle earlier reached).removal
  rcases Pool.Program.step_cases taken with
    ⟨request, same, -⟩ | ⟨before, call, after, own, shared, moved, same, calls, acted, rfl⟩
  · cases same
  · obtain ⟨length, rfl⟩ := Pool.Event.advance.inj same
    rw [length, calls, Pool.getElem?_moved] at found
    cases found
    rcases (act_effect acted).record other with kept | ⟨-, saves⟩ | ⟨removed, -⟩
    · exact kept
    · exact absurd removes (saves username)
    · cases removes.symm.trans removed
      exact absurd rfl differs

/-- A persister that has seen the user `alice` and is about to save it. -/
def persisting : PersistConfig 1 where
  shared :=
    { inbounds := []
      userStats := (∅ : Table TrafficSnapshot).insert "alice" .zero
      userCreds := ∅
      userPasswords := (∅ : Table String).insert "alice" "a"
      userCache := some .empty }
  calls := [⟨.persist, save "alice" []⟩]

/-- The removal of `alice` waits for the guard of the persister, and deletes the
record that it has written. -/
def removeDuringSave : List PersistEvent :=
  let choice : PersistChoice := ⟨none, none, .zero⟩
  [.advance 1 choice, .advance 1 choice, .advance 0 choice, .advance 0 choice, .advance 0 choice,
    .advance 1 choice, .advance 1 choice, .advance 1 choice, .advance 1 choice]

theorem removed_during_save :
    ∃ final, Machine.run (program knownHashes fun _ => (0 : Fin 1)).step persisting
        (.start (.remove "alice") :: removeDuringSave) = some final ∧
      final.calls[1]? = some ⟨.remove "alice", returned (.removed true)⟩ ∧
        final.shared.record "alice" = none := by
  obtain ⟨final, ran, completed⟩ : ∃ final,
      Machine.run (program knownHashes fun _ => (0 : Fin 1)).step persisting
          (.start (.remove "alice") :: removeDuringSave) = some final ∧
        final.calls[1]? = some ⟨.remove "alice", returned (.removed true)⟩ := ⟨_, rfl, rfl⟩
  refine ⟨final, ran, completed, ?_⟩
  refine (removed_stays_removed knownHashes (fun _ => 0) ?_ ran ?_ completed).1
  · intro call member password same
    rw [List.mem_singleton.mp member] at same
    cases same
  · simp [removeDuringSave, Admissible]

end PersistConfig

end QuicProxy
