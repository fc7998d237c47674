import QuicProxy.Data.Pool
import QuicProxy.Proxy.Observe.Users

namespace QuicProxy

/-! `add_user` and `remove_user` of the inbounds with users, as calls that
interleave: each loads the list of the `ArcSwap`, computes another one and
stores it. -/

inductive UserUpdate where
  | add (user : AuthUser)
  | remove (username : String)

namespace UserUpdate

def username : UserUpdate → String
  | add user => user.username
  | remove username => username

def apply : UserUpdate → List AuthUser → List AuthUser
  | add user => withUser user
  | remove username => withoutUser username

/-- The list has the added user with its password, or no user of the removed
name. -/
def Applied (users : List AuthUser) : UserUpdate → Prop
  | add user => passwordOf user.username users = some user.password
  | remove username => ∀ user ∈ users, user.username ≠ username

instance (users : List AuthUser) : (update : UserUpdate) → Decidable (update.Applied users)
  | add _ => inferInstanceAs (Decidable (_ = _))
  | remove _ => inferInstanceAs (Decidable (∀ user ∈ users, _))

theorem applied_apply (update : UserUpdate) (users : List AuthUser) :
    update.Applied (update.apply users) := by
  cases update with
  | add user => exact passwordOf_withUser user users
  | remove username =>
      intro user member
      simpa using (List.mem_filter.mp member).2

theorem Applied.apply {update other : UserUpdate} {users : List AuthUser}
    (applied : update.Applied users) (differs : other.username ≠ update.username) :
    update.Applied (other.apply users) := by
  cases update with
  | add user =>
      cases other with
      | add changed => exact (passwordOf_withUser_ne differs users).trans applied
      | remove removed => exact (passwordOf_withoutUser_ne differs users).trans applied
  | remove username =>
      intro user member
      cases other with
      | add changed =>
          rcases mem_withUser member with earlier | new
          · exact applied user earlier
          · rw [new]
            exact differs
      | remove removed => exact applied user (List.mem_of_mem_filter member)

end UserUpdate

inductive UpdateCall where
  | begun (update : UserUpdate)
  | rejected (update : UserUpdate) (error : String)
  | loaded (update : UserUpdate) (users : List AuthUser)
  | computed (update : UserUpdate) (users result : List AuthUser)
  | stored (update : UserUpdate)
  | returned (update : UserUpdate) (result : Except String Unit)

namespace UpdateCall

def update : UpdateCall → UserUpdate
  | begun update | rejected update _ | loaded update _ | computed update _ _
  | stored update | returned update _ => update

/-- The error that keeps an inbound from changing its list: VMess wants the
username of an added user to be a UUID. -/
def rejection (hashes : Hashes) (protocol : InboundProtocol) : UserUpdate → Option String
  | .add user =>
      if protocol = .vmess then
        match hashes.parseUuid user.username with
        | .ok _ => none
        | .error _ => some ("vmess user must be a valid uuid: '" ++ user.username ++ "'")
      else none
  | .remove _ => none

/-- The choice is the error of `update_jls_users`, which ShadowQUIC calls after
it has stored the list. -/
def act (hashes : Hashes) (protocol : InboundProtocol) (users : List AuthUser)
    (call : UpdateCall) (jls : Option String) : Option (List AuthUser × UpdateCall) :=
  match call with
  | begun update =>
      match rejection hashes protocol update with
      | some error => some (users, rejected update error)
      | none => some (users, loaded update users)
  | loaded update read => some (users, computed update read (update.apply read))
  | computed update _ result => some (result, stored update)
  | stored update =>
      match protocol, jls with
      | .shadowquic, some error => some (users, returned update (.error error))
      | _, _ => some (users, returned update (.ok ()))
  | rejected _ _ => none
  | returned _ _ => none

def program (hashes : Hashes) (protocol : InboundProtocol) :
    Pool.Program (List AuthUser) UpdateCall UserUpdate (Option String) where
  start := begun
  act config := act hashes protocol config.shared

def Fresh (users : List AuthUser) : UpdateCall → Prop
  | computed _ read _ => users = read
  | _ => True

instance (users : List AuthUser) : (call : UpdateCall) → Decidable (call.Fresh users)
  | computed _ read _ => inferInstanceAs (Decidable (users = read))
  | begun _ | rejected _ _ | loaded _ _ | stored _ | returned _ _ =>
      inferInstanceAs (Decidable True)

end UpdateCall

abbrev UpdateConfig := Pool.Config (List AuthUser) UpdateCall

abbrev UpdateEvent := Pool.Event UserUpdate (Option String)

namespace UpdateConfig

def Distinct (config : UpdateConfig) : Prop :=
  (config.calls.map (·.update.username)).Nodup

def Updated (config : UpdateConfig) : Prop :=
  ∀ update result, .returned update result ∈ config.calls → update.Applied config.shared

/-- No other call has changed the list since a call that now stores has loaded
it. -/
def StoresFresh (config : UpdateConfig) : UpdateEvent → Prop
  | .start _ => True
  | .advance index _ => ∀ call ∈ config.calls[index]?, call.Fresh config.shared

instance (config : UpdateConfig) : (event : UpdateEvent) → Decidable (StoresFresh config event)
  | .start _ => inferInstanceAs (Decidable True)
  | .advance index _ =>
      inferInstanceAs (Decidable (∀ call ∈ config.calls[index]?, call.Fresh config.shared))

variable {hashes : Hashes} {protocol : InboundProtocol} {config next final : UpdateConfig}
  {event : UpdateEvent} {events : List UpdateEvent}

/-- What a call that has stored its list, or is about to, relies on. -/
def Settled (users : List AuthUser) : UpdateCall → Prop
  | .computed update read result => result = update.apply read
  | .stored update => update.Applied users
  | .returned update _ => update.Applied users
  | _ => True

theorem update_act {users shared : List AuthUser} {call moved : UpdateCall} {jls : Option String}
    (acted : call.act hashes protocol users jls = some (shared, moved)) :
    moved.update = call.update := by
  cases call with
  | begun update =>
      simp only [UpdateCall.act] at acted
      split at acted <;> cases acted <;> rfl
  | stored update =>
      simp only [UpdateCall.act] at acted
      split at acted <;> cases acted <;> rfl
  | loaded update users =>
      cases acted
      rfl
  | computed update users result =>
      cases acted
      rfl
  | rejected update error => cases acted
  | returned update result => cases acted

theorem act_cases {users shared : List AuthUser} {call moved : UpdateCall} {jls : Option String}
    (acted : call.act hashes protocol users jls = some (shared, moved)) :
    (shared = users ∧ (Settled users call → Settled users moved)) ∨
      ∃ update read result, call = .computed update read result ∧ shared = result ∧
        moved = .stored update := by
  cases call with
  | begun update =>
      simp only [UpdateCall.act] at acted
      split at acted <;> cases acted <;> exact Or.inl ⟨rfl, fun _ => trivial⟩
  | stored update =>
      simp only [UpdateCall.act] at acted
      split at acted <;> cases acted <;> exact Or.inl ⟨rfl, fun settled => settled⟩
  | loaded update read =>
      cases acted
      exact Or.inl ⟨rfl, fun _ => rfl⟩
  | computed update read result =>
      cases acted
      exact Or.inr ⟨update, read, _, rfl, rfl, rfl⟩
  | rejected update error => cases acted
  | returned update result => cases acted

theorem Settled.apply {users : List AuthUser} {call : UpdateCall} {other : UserUpdate}
    (settled : Settled users call) (differs : other.username ≠ call.update.username) :
    Settled (other.apply users) call := by
  cases call with
  | stored update => exact UserUpdate.Applied.apply settled differs
  | returned update result => exact UserUpdate.Applied.apply settled differs
  | _ => exact settled

theorem usernames_step
    (taken : (UpdateCall.program hashes protocol).step config event = some next) :
    config.calls.map (·.update.username) <+: next.calls.map (·.update.username) := by
  rcases Pool.Program.step_cases taken with
    ⟨request, -, rfl⟩ | ⟨before, call, after, jls, shared, moved, -, calls, acted, rfl⟩
  · simp
  · simp only [calls, List.map_append, List.map_cons, update_act acted]
    exact List.prefix_rfl

theorem settled_step (settled : ∀ call ∈ config.calls, Settled config.shared call)
    (distinct : Distinct config) (fresh : StoresFresh config event)
    (taken : (UpdateCall.program hashes protocol).step config event = some next) :
    ∀ call ∈ next.calls, Settled next.shared call := by
  rcases Pool.Program.step_cases taken with
    ⟨request, -, rfl⟩ | ⟨before, call, after, jls, shared, moved, rfl, calls, acted, rfl⟩
  · exact Pool.forall_start settled trivial
  · rw [calls] at settled
    rcases act_cases acted with ⟨rfl, own⟩ | ⟨update, read, result, rfl, rfl, rfl⟩
    · exact Pool.forall_act settled own fun _ same => same
    · -- The list is the one that was loaded, so the store is one update of the current list.
      have current : config.shared = read := fresh (.computed update read shared) (by simp [calls])
      have computed : shared = update.apply read :=
        settled (.computed update read shared) (by simp)
      rw [← current] at computed
      have others : ∀ other ∈ before ++ after, update.username ≠ other.update.username := by
        simp only [Distinct, calls, List.map_append, List.map_cons] at distinct
        have perm := List.perm_middle.nodup_iff.mp distinct
        intro other member same
        apply (List.nodup_cons.mp perm).1
        rw [← List.map_append]
        exact List.mem_map.mpr ⟨other, member, same.symm⟩
      intro other member
      change Settled shared other
      rw [computed]
      rcases List.mem_append.mp member with earlier | rest
      · refine (settled other (List.mem_append_left _ earlier)).apply ?_
        exact others other (List.mem_append_left _ earlier)
      · rcases List.mem_cons.mp rest with rfl | later
        · exact update.applied_apply config.shared
        · refine (settled other (List.mem_append_right _ (List.mem_cons_of_mem _ later))).apply ?_
          exact others other (List.mem_append_right _ later)

/-- Over any order of the steps, when every store is made on the list that its
call has loaded: all updates that have completed are in the list. -/
theorem updated_of_storesFresh (hashes : Hashes) (protocol : InboundProtocol)
    (users : List AuthUser)
    (ran : Machine.run (UpdateCall.program hashes protocol).step ⟨users, []⟩ events = some final)
    (fresh : Machine.Within (UpdateCall.program hashes protocol).step StoresFresh ⟨users, []⟩
      events)
    (distinct : Distinct final) : Updated final := by
  have kept : Distinct final → ∀ call ∈ final.calls, Settled final.shared call := by
    refine Machine.run_within_invariant
      (fun config => Distinct config → ∀ call ∈ config.calls, Settled config.shared call)
      ?_ (fun _ => by simp) fresh ran
    intro config event next holds storesFresh taken distinct
    have earlier : Distinct config :=
      List.Nodup.sublist (usernames_step taken).sublist distinct
    exact settled_step (holds earlier) earlier storesFresh taken
  intro update result member
  exact kept distinct _ member

/-- Two users are added to a Trojan inbound, one after the other. -/
def addInTurn : List UpdateEvent :=
  [.start (.add ⟨"alice", "a"⟩), .advance 0 none, .advance 0 none, .advance 0 none,
    .advance 0 none, .start (.add ⟨"bob", "b"⟩), .advance 1 none, .advance 1 none,
    .advance 1 none, .advance 1 none]

/-- Two users are added to a Trojan inbound at the same time. -/
def addTogether : List UpdateEvent :=
  [.start (.add ⟨"alice", "a"⟩), .start (.add ⟨"bob", "b"⟩), .advance 0 none, .advance 1 none,
    .advance 0 none, .advance 0 none, .advance 0 none, .advance 1 none, .advance 1 none,
    .advance 1 none]

def bothAdded (users : List AuthUser) : UpdateConfig :=
  ⟨users, [.returned (.add ⟨"alice", "a"⟩) (.ok ()), .returned (.add ⟨"bob", "b"⟩) (.ok ())]⟩

theorem updated_inTurn :
    Machine.run (UpdateCall.program knownHashes .trojan).step ⟨[], []⟩ addInTurn =
        some (bothAdded [⟨"alice", "a"⟩, ⟨"bob", "b"⟩]) ∧
      Updated (bothAdded [⟨"alice", "a"⟩, ⟨"bob", "b"⟩]) := by
  have ran : Machine.run (UpdateCall.program knownHashes .trojan).step ⟨[], []⟩ addInTurn =
      some (bothAdded [⟨"alice", "a"⟩, ⟨"bob", "b"⟩]) := rfl
  refine ⟨ran, updated_of_storesFresh knownHashes .trojan [] ran (by decide) ?_⟩
  exact show List.Nodup ["alice", "bob"] by decide

theorem addedTogether_not_updated :
    Machine.run (UpdateCall.program knownHashes .trojan).step ⟨[], []⟩ addTogether =
        some (bothAdded [⟨"bob", "b"⟩]) ∧
      Distinct (bothAdded [⟨"bob", "b"⟩]) ∧ ¬Updated (bothAdded [⟨"bob", "b"⟩]) := by
  refine ⟨rfl, show List.Nodup ["alice", "bob"] by decide, ?_⟩
  intro updated
  have alice := updated (.add ⟨"alice", "a"⟩) (.ok ()) (List.mem_cons_self ..)
  revert alice
  decide

end UpdateConfig

end QuicProxy
