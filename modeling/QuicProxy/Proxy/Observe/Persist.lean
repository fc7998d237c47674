import QuicProxy.Data.Pool
import QuicProxy.Proxy.Observe.Observer

namespace QuicProxy

/-! `add_user`, `remove_user` and `persist_users` (`src/proxy/observe.rs`) as
calls that interleave.  The maps are sharded, and a guard on an entry keeps
others from writing to its shard. -/

inductive PersistRequest where
  | add (username password : String)
  | remove (username : String)
  | persist
deriving DecidableEq

inductive PersistResult where
  | done
  | removed (found : Bool)
  | failed (error : String)
deriving DecidableEq

/-- What a call does next.  `save_persisted` has a guard on the entry of its
user in `load` and `write`; `rest` are the users that come after it. -/
inductive PersistPhase (shards : Nat) where
  | checkKnown
  | applyChange
  | setCredentials (nodes : List (String × InboundProtocol))
  | upsertUser
  | setPassword
  | removeStats
  | removePassword
  | removeCredentials
  | deleteRecord
  | collect (left : List (Fin shards)) (names : List String)
  | save (username : String) (rest : List String)
  | load (username : String) (rest : List String)
  | write (record : PersistedUser) (rest : List String)
  | returned (result : PersistResult)
deriving DecidableEq

structure PersistCall (shards : Nat) where
  request : PersistRequest
  phase : PersistPhase shards
deriving DecidableEq

/-- What an operation learns from outside: the error of `apply_user_change`, the
error of the cache, and the counters of the user. -/
structure PersistChoice where
  change : Option String
  fault : Option String
  traffic : TrafficSnapshot

abbrev PersistConfig (shards : Nat) := Pool.Config Observer (PersistCall shards)

namespace PersistPhase

variable {shards : Nat}

def saveNext : List String → PersistPhase shards
  | [] => returned .done
  | username :: rest => save username rest

/-- The user on whose entry the call has a guard. -/
def guarded : PersistPhase shards → Option String
  | load username _ => some username
  | write record _ => some record.username
  | _ => none

end PersistPhase

namespace PersistCall

open PersistPhase

variable {shards : Nat}

def start : PersistRequest → PersistCall shards
  | .add username password => ⟨.add username password, applyChange⟩
  | .remove username => ⟨.remove username, checkKnown⟩
  | .persist => ⟨.persist, collect (List.finRange shards) []⟩

/-- Some call has a guard in the shard of the user, so that no call can write
there. -/
def locked (shard : String → Fin shards) (config : PersistConfig shards) (username : String) :
    Bool :=
  config.calls.any fun call => call.phase.guarded.map shard == some (shard username)

/-- `save_persisted` up to the guard on the entry of the user. -/
def saveUser (observer : Observer) (username : String) (rest : List String) :
    PersistPhase shards :=
  match observer.userCache with
  | none => saveNext rest
  | some _ => if username ∈ observer.userStats then load username rest else saveNext rest

def act (hashes : Hashes) (shard : String → Fin shards) (config : PersistConfig shards)
    (call : PersistCall shards) (choice : PersistChoice) :
    Option (Observer × PersistCall shards) :=
  let observer := config.shared
  let next (observer : Observer) (phase : PersistPhase shards) :
      Option (Observer × PersistCall shards) :=
    some (observer, ⟨call.request, phase⟩)
  match call.phase, call.request with
  | applyChange, .add _ _ =>
      match choice.change with
      | some error => next observer (returned (.failed error))
      | none => next observer (setCredentials observer.inbounds)
  | setCredentials (node :: nodes), .add username password =>
      next (observer.setCredential hashes username password node) (setCredentials nodes)
  | setCredentials [], .add _ _ => next observer upsertUser
  | upsertUser, .add username _ =>
      if locked shard config username then none
      else next (observer.upsertUser username) setPassword
  | setPassword, .add username password =>
      next (observer.setUserPassword username password) (save username [])
  | checkKnown, .remove username =>
      if username ∈ observer.userStats then next observer applyChange
      else next observer (returned (.removed false))
  | applyChange, .remove _ =>
      match choice.change with
      | some error => next observer (returned (.failed error))
      | none => next observer removeStats
  | removeStats, .remove username =>
      if locked shard config username then none
      else next { observer with userStats := observer.userStats.erase username } removePassword
  | removePassword, .remove username =>
      next { observer with userPasswords := observer.userPasswords.erase username }
        removeCredentials
  | removeCredentials, .remove username =>
      next { observer with userCreds := Observer.removeCredentials username observer.userCreds }
        deleteRecord
  | deleteRecord, .remove username =>
      next { observer with
        userCache := observer.userCache.map fun cache => (cache.delete choice.fault username).2 }
        (returned (.removed true))
  | collect (index :: left) names, .persist =>
      next observer (collect left (names ++ observer.userStats.keys.filter (shard · = index)))
  | collect [] names, .persist => next observer (saveNext names)
  | save username rest, .add _ _ | save username rest, .persist =>
      next observer (saveUser observer username rest)
  | load username rest, .add _ _ | load username rest, .persist =>
      let password := (observer.userPasswords.lookup username).getD ""
      next observer (write ⟨username, password, choice.traffic⟩ rest)
  | write record rest, .add _ _ | write record rest, .persist =>
      next { observer with
        userCache := observer.userCache.map fun cache => (cache.set choice.fault record).2 }
        (saveNext rest)
  | _, _ => none

def program (hashes : Hashes) (shard : String → Fin shards) :
    Pool.Program Observer (PersistCall shards) PersistRequest PersistChoice where
  start := start
  act := act hashes shard

end PersistCall

abbrev PersistEvent := Pool.Event PersistRequest PersistChoice

def Observer.record (observer : Observer) (username : String) : Option PersistedUser :=
  observer.userCache.bind (·.table.lookup username)

namespace PersistCall

open PersistPhase

variable {shards : Nat} {hashes : Hashes} {shard : String → Fin shards}
  {config next final : PersistConfig shards} {call moved : PersistCall shards}
  {choice : PersistChoice} {observer : Observer}

/-- The removal has removed the entry of its user. -/
def PastStats : PersistPhase shards → Prop
  | removePassword | removeCredentials | deleteRecord | returned (.removed true) => True
  | _ => False

/-- The removal has returned `Ok(true)`. -/
def Finished : PersistPhase shards → Prop
  | returned (.removed true) => True
  | _ => False

/-- What one operation can do to the entry and the record of a user. -/
structure Effect (shard : String → Fin shards) (config : PersistConfig shards)
    (call : PersistCall shards) (choice : PersistChoice) (observer : Observer)
    (moved : PersistCall shards) : Prop where
  request : moved.request = call.request
  stats : ∀ username, username ∈ observer.userStats →
    username ∈ config.shared.userStats ∨
      call.phase = upsertUser ∧ ∃ password, call.request = .add username password
  guards : ∀ username, moved.phase.guarded = some username →
    call.phase.guarded = some username ∨ username ∈ config.shared.userStats
  record : ∀ username, observer.record username = config.shared.record username ∨
    call.phase.guarded = some username ∧ (∀ name, call.request ≠ .remove name) ∨
      call.request = .remove username ∧
        (choice.fault = none → observer.record username = none)
  past : ∀ username, call.request = .remove username → PastStats moved.phase →
    PastStats call.phase ∨
      (∀ other ∈ config.calls, other.phase.guarded ≠ some username) ∧
        username ∉ observer.userStats
  deleted : ∀ username, call.request = .remove username → choice.fault = none →
    Finished moved.phase → observer.record username = none

theorem Effect.reads (request : moved.request = call.request)
    (stats : observer.userStats = config.shared.userStats)
    (cache : observer.userCache = config.shared.userCache)
    (guards : ∀ username, moved.phase.guarded = some username →
      call.phase.guarded = some username ∨ username ∈ config.shared.userStats)
    (past : PastStats moved.phase → PastStats call.phase)
    (unfinished : ¬Finished moved.phase) :
    Effect shard config call choice observer moved where
  request := request
  stats username present := by
    rw [stats] at present
    exact Or.inl present
  guards := guards
  record username := by
    apply Or.inl
    rw [Observer.record, cache]
    rfl
  past username _ reached := Or.inl (past reached)
  deleted username _ _ finished := absurd finished unfinished

theorem Effect.quiet (request : moved.request = call.request)
    (stats : observer.userStats = config.shared.userStats)
    (cache : observer.userCache = config.shared.userCache)
    (free : moved.phase.guarded = none) (past : PastStats moved.phase → PastStats call.phase)
    (unfinished : ¬Finished moved.phase) :
    Effect shard config call choice observer moved := by
  refine .reads request stats cache ?_ past unfinished
  intro username guarded
  rw [free] at guarded
  cases guarded

theorem guarded_saveNext (rest : List String) :
    (saveNext rest : PersistPhase shards).guarded = none := by
  cases rest <;> rfl

theorem not_pastStats_saveNext (rest : List String) :
    ¬PastStats (saveNext rest : PersistPhase shards) := by
  cases rest <;> exact id

theorem not_finished_saveNext (rest : List String) :
    ¬Finished (saveNext rest : PersistPhase shards) := by
  cases rest <;> exact id

theorem Effect.saveNext {rest : List String}
    (stats : observer.userStats = config.shared.userStats)
    (cache : observer.userCache = config.shared.userCache) :
    Effect shard config call choice observer ⟨call.request, PersistPhase.saveNext rest⟩ :=
  .quiet rfl stats cache (guarded_saveNext rest)
    (fun reached => absurd reached (not_pastStats_saveNext rest)) (not_finished_saveNext rest)

theorem effect_upsertUser (username password : String) :
    Effect shard config ⟨.add username password, upsertUser⟩ choice
      (config.shared.upsertUser username) ⟨.add username password, setPassword⟩ where
  request := rfl
  stats name present := by
    simp only [Observer.upsertUser] at present
    split at present
    · exact Or.inl present
    · rcases (AList.mem_insert _).mp present with rfl | earlier
      · exact Or.inr ⟨rfl, password, rfl⟩
      · exact Or.inl earlier
  guards name guarded := by cases guarded
  record name := by
    apply Or.inl
    simp only [Observer.upsertUser]
    split <;> rfl
  past name same := by cases same
  deleted name same := by cases same

theorem effect_removeStats {username : String} (free : locked shard config username = false) :
    Effect shard config ⟨.remove username, removeStats⟩ choice
      { config.shared with userStats := config.shared.userStats.erase username }
      ⟨.remove username, removePassword⟩ where
  request := rfl
  stats name present := Or.inl (AList.mem_erase.mp present).2
  guards name guarded := by cases guarded
  record name := Or.inl rfl
  past name same _ := by
    cases same
    refine Or.inr ⟨?_, fun present => (AList.mem_erase.mp present).1 rfl⟩
    intro other member guarded
    -- A guard on the entry itself would lock its shard.
    have unlocked := List.any_eq_false.mp free other member
    rw [guarded] at unlocked
    simp at unlocked
  deleted name _ _ same := by cases same

theorem effect_deleteRecord (username : String) :
    Effect shard config ⟨.remove username, deleteRecord⟩ choice
      { config.shared with
        userCache := config.shared.userCache.map fun cache =>
          (cache.delete choice.fault username).2 }
      ⟨.remove username, returned (.removed true)⟩ := by
  have none_left : choice.fault = none →
      (config.shared.userCache.map fun cache =>
        (cache.delete choice.fault username).2).bind (·.table.lookup username) = none := by
    intro healthy
    rw [healthy]
    cases config.shared.userCache with
    | none => rfl
    | some cache => exact AList.lookup_erase ..
  refine ⟨rfl, fun name present => Or.inl present, (fun name guarded => by cases guarded), ?_,
    fun _ _ _ => Or.inl trivial, ?_⟩
  · intro name
    by_cases same : name = username
    · subst same
      exact Or.inr (Or.inr ⟨rfl, none_left⟩)
    · apply Or.inl
      simp only [Observer.record]
      cases config.shared.userCache with
      | none => rfl
      | some cache =>
          cases choice.fault with
          | none => exact KeyedTable.lookup_remove_ne same
          | some error => rfl
  · intro name same healthy _
    cases same
    exact none_left healthy

theorem effect_write {request : PersistRequest} (saves : ∀ name, request ≠ .remove name)
    (record : PersistedUser) (rest : List String) :
    Effect shard config ⟨request, write record rest⟩ choice
      { config.shared with
        userCache := config.shared.userCache.map fun cache => (cache.set choice.fault record).2 }
      ⟨request, PersistPhase.saveNext rest⟩ where
  request := rfl
  stats name present := Or.inl present
  guards name guarded := by
    rw [guarded_saveNext] at guarded
    cases guarded
  record name := by
    by_cases same : name = record.username
    · subst same
      exact Or.inr (Or.inl ⟨rfl, saves⟩)
    · apply Or.inl
      simp only [Observer.record]
      cases config.shared.userCache with
      | none => rfl
      | some cache =>
          cases choice.fault with
          | none => exact KeyedTable.lookup_put_ne same
          | some error => rfl
  past name _ reached := absurd reached (not_pastStats_saveNext rest)
  deleted name _ _ same := absurd same (not_finished_saveNext rest)

theorem effect_saveUser (request : PersistRequest) (username : String) (rest : List String) :
    Effect shard config ⟨request, save username rest⟩ choice config.shared
      ⟨request, saveUser config.shared username rest⟩ := by
  simp only [saveUser]
  split
  · exact .saveNext rfl rfl
  · split
    · rename_i present
      refine .reads rfl rfl rfl ?_ id id
      intro name given
      cases given
      exact Or.inr present
    · exact .saveNext rfl rfl

theorem effect_add {username password : String} {phase : PersistPhase shards}
    (acted : act hashes shard config ⟨.add username password, phase⟩ choice =
      some (observer, moved)) :
    Effect shard config ⟨.add username password, phase⟩ choice observer moved := by
  cases phase with
  | applyChange =>
      simp only [act] at acted
      split at acted <;> cases acted <;> exact .quiet rfl rfl rfl rfl id id
  | setCredentials nodes =>
      cases nodes with
      | nil =>
          cases acted
          exact .quiet rfl rfl rfl rfl id id
      | cons node nodes =>
          cases acted
          refine .quiet rfl ?_ ?_ rfl id id <;>
            (simp only [Observer.setCredential]; split <;> rfl)
  | upsertUser =>
      simp only [act] at acted
      split at acted
      · cases acted
      · cases acted
        exact effect_upsertUser username password
  | setPassword =>
      cases acted
      exact .quiet rfl rfl rfl rfl id id
  | save username rest =>
      cases acted
      exact effect_saveUser ..
  | load username rest =>
      cases acted
      exact .reads rfl rfl rfl (fun name guarded => Or.inl guarded) id id
  | write record rest =>
      cases acted
      exact effect_write (fun _ same => by cases same) record rest
  | collect left names => cases left <;> cases acted
  | checkKnown | removeStats | removePassword | removeCredentials | deleteRecord | returned =>
      cases acted

theorem effect_remove {username : String} {phase : PersistPhase shards}
    (acted : act hashes shard config ⟨.remove username, phase⟩ choice = some (observer, moved)) :
    Effect shard config ⟨.remove username, phase⟩ choice observer moved := by
  cases phase with
  | checkKnown | applyChange =>
      simp only [act] at acted
      split at acted <;> cases acted <;> exact .quiet rfl rfl rfl rfl id id
  | removeStats =>
      simp only [act] at acted
      split at acted
      · cases acted
      · rename_i free
        cases acted
        exact effect_removeStats (Bool.eq_false_iff.mpr free)
  | removePassword | removeCredentials =>
      cases acted
      exact .quiet rfl rfl rfl rfl id id
  | deleteRecord =>
      cases acted
      exact effect_deleteRecord username
  | setCredentials nodes => cases nodes <;> cases acted
  | collect left names => cases left <;> cases acted
  | upsertUser | setPassword | save | load | write | returned => cases acted

theorem effect_persist {phase : PersistPhase shards}
    (acted : act hashes shard config ⟨.persist, phase⟩ choice = some (observer, moved)) :
    Effect shard config ⟨.persist, phase⟩ choice observer moved := by
  cases phase with
  | collect left names =>
      cases left with
      | nil =>
          cases acted
          exact .saveNext rfl rfl
      | cons index left =>
          cases acted
          exact .quiet rfl rfl rfl rfl id id
  | save username rest =>
      cases acted
      exact effect_saveUser ..
  | load username rest =>
      cases acted
      exact .reads rfl rfl rfl (fun name guarded => Or.inl guarded) id id
  | write record rest =>
      cases acted
      exact effect_write (fun _ same => by cases same) record rest
  | setCredentials nodes => cases nodes <;> cases acted
  | applyChange | upsertUser | setPassword | checkKnown | removeStats | removePassword
  | removeCredentials | deleteRecord | returned => cases acted

theorem act_effect (acted : act hashes shard config call choice = some (observer, moved)) :
    Effect shard config call choice observer moved := by
  obtain ⟨request, phase⟩ := call
  cases request with
  | add username password => exact effect_add acted
  | remove username => exact effect_remove acted
  | persist => exact effect_persist acted

end PersistCall

end QuicProxy
