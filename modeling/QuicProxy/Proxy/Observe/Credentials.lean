import QuicProxy.Proxy.Observe.Atomic

namespace QuicProxy

/-! `Observer::authenticate`, and when a credential identifies one user. -/

namespace Observer

variable {hashes : Hashes} {fault : Option String} {observer : Observer}
  {username password name tag : String} {credential : Bytes}

/-- `order` is the order in which the map of the credentials is walked. -/
def authenticate (order : List (Σ _ : String × String, Bytes)) (tag : String)
    (credential : Bytes) (observer : Observer) : Option (String × TrafficSnapshot) :=
  (order.find? fun entry => entry.1.1 = tag ∧ entry.2 = credential).bind fun entry =>
    (observer.userStats.lookup entry.1.2).map fun stats => (entry.1.2, stats)

/-- A user that the observer knows, with its current credential on an inbound. -/
def Tracked (observer : Observer) (tag : String) (credential : Bytes) (username : String) : Prop :=
  observer.Knows username ∧ observer.userCreds.lookup (tag, username) = some credential

def Authenticates (observer : Observer) (tag : String) (credential : Bytes)
    (username : String) : Prop :=
  ∀ order, order.Perm observer.userCreds.entries →
    (observer.authenticate order tag credential).map Prod.fst = some username

/-- A credential on an inbound belongs to at most one tracked user, and that is
who it authenticates, in whatever order the map is walked. -/
structure Identifies (observer : Observer) : Prop where
  unique : ∀ tag credential first second, observer.Tracked tag credential first →
    observer.Tracked tag credential second → first = second
  authenticates : ∀ order, order.Perm observer.userCreds.entries →
    ∀ tag credential username,
      (observer.authenticate order tag credential).map Prod.fst = some username ↔
        observer.Tracked tag credential username

/-- No user but this one has the credential that the password gives on the
inbound. -/
def CredentialFree (hashes : Hashes) (username password : String) (observer : Observer)
    (node : String × InboundProtocol) : Prop :=
  ∀ credential, credentialHash hashes node.2 username password = .ok credential →
    ∀ other, observer.Tracked node.1 credential other → other = username

structure Sound (observer : Observer) : Prop where
  known : ∀ tag username credential, observer.userCreds.lookup (tag, username) = some credential →
    observer.Knows username
  unique : ∀ tag credential first second, observer.Tracked tag credential first →
    observer.Tracked tag credential second → first = second

theorem Sound.tracked_of_find (sound : observer.Sound)
    {order : List (Σ _ : String × String, Bytes)} {entry : Σ _ : String × String, Bytes}
    (perm : order.Perm observer.userCreds.entries)
    (first : order.find? (fun entry => entry.1.1 = tag ∧ entry.2 = credential) = some entry) :
    observer.Tracked tag credential entry.1.2 := by
  obtain ⟨⟨entryTag, entryName⟩, value⟩ := entry
  have matching := List.find?_some first
  simp only [Bool.decide_and, Bool.and_eq_true, decide_eq_true_eq] at matching
  obtain ⟨rfl, rfl⟩ := matching
  have stored : observer.userCreds.lookup (entryTag, entryName) = some value :=
    AList.mem_lookup_iff.mpr (perm.mem_iff.mp (List.mem_of_find?_eq_some first))
  exact ⟨sound.known _ _ _ stored, stored⟩

theorem Sound.identifies (sound : observer.Sound) : observer.Identifies where
  unique := sound.unique
  authenticates order perm tag credential username := by
    constructor
    · intro found
      obtain ⟨⟨_, stats⟩, hit, rfl⟩ := Option.map_eq_some_iff.mp found
      obtain ⟨entry, first, known⟩ := Option.bind_eq_some_iff.mp hit
      obtain ⟨_, _, same⟩ := Option.map_eq_some_iff.mp known
      cases same
      exact sound.tracked_of_find perm first
    · intro tracked
      have present : ⟨(tag, username), credential⟩ ∈ order :=
        perm.mem_iff.mpr (AList.mem_lookup_iff.mp tracked.2)
      obtain ⟨entry, first⟩ : ∃ entry,
          order.find? (fun entry => entry.1.1 = tag ∧ entry.2 = credential) = some entry := by
        apply Option.isSome_iff_exists.mp
        rw [List.find?_isSome]
        exact ⟨_, present, by simp⟩
      have other := sound.tracked_of_find perm first
      have same := sound.unique _ _ _ _ other tracked
      obtain ⟨stats, has⟩ := Option.isSome_iff_exists.mp (AList.lookup_isSome.mpr other.1)
      rw [authenticate, first, Option.bind_some, has]
      exact congrArg some same

/-! What adding, removing and registering a user do to the credentials. -/

theorem lookup_setCredential_ne (other : name ≠ username) (node : String × InboundProtocol) :
    (observer.setCredential hashes username password node).userCreds.lookup (tag, name) =
      observer.userCreds.lookup (tag, name) := by
  simp only [setCredential]
  split
  · apply AList.lookup_insert_ne
    intro same
    exact other (Prod.ext_iff.mp same).2
  · rfl

theorem lookup_setCredential {node : String × InboundProtocol}
    (found : (observer.setCredential hashes username password node).userCreds.lookup
      (tag, username) = some credential) :
    observer.userCreds.lookup (tag, username) = some credential ∨
      node.1 = tag ∧ credentialHash hashes node.2 username password = .ok credential := by
  simp only [setCredential] at found
  split at found
  · rename_i value hashed
    by_cases same : tag = node.1
    · subst same
      rw [setUserCredential, AList.lookup_insert] at found
      cases found
      exact Or.inr ⟨rfl, hashed⟩
    · left
      rw [setUserCredential, AList.lookup_insert_ne] at found
      · exact found
      · intro equal
        exact same (Prod.ext_iff.mp equal).1
  · exact Or.inl found

theorem lookup_setCredentials_ne (other : name ≠ username)
    (nodes : List (String × InboundProtocol)) :
    (nodes.foldl (setCredential hashes username password) observer).userCreds.lookup (tag, name) =
      observer.userCreds.lookup (tag, name) := by
  induction nodes generalizing observer with
  | nil => rfl
  | cons node nodes ih => exact ih.trans (lookup_setCredential_ne other node)

theorem lookup_setCredentials {nodes : List (String × InboundProtocol)}
    (found : (nodes.foldl (setCredential hashes username password) observer).userCreds.lookup
      (tag, username) = some credential) :
    observer.userCreds.lookup (tag, username) = some credential ∨
      ∃ node ∈ nodes, node.1 = tag ∧
        credentialHash hashes node.2 username password = .ok credential := by
  induction nodes generalizing observer with
  | nil => exact Or.inl found
  | cons node nodes ih =>
      rcases ih found with earlier | ⟨later, member, hit⟩
      · exact (lookup_setCredential earlier).imp_right fun hit =>
          ⟨node, List.mem_cons_self .., hit⟩
      · exact Or.inr ⟨later, List.mem_cons_of_mem _ member, hit⟩

theorem Sound.grant (sound : observer.Sound) {next : Observer}
    (knows : ∀ name, next.Knows name ↔ name = username ∨ observer.Knows name)
    (others : ∀ tag name, name ≠ username →
      next.userCreds.lookup (tag, name) = observer.userCreds.lookup (tag, name))
    (own : ∀ tag credential, next.userCreds.lookup (tag, username) = some credential →
      observer.userCreds.lookup (tag, username) = some credential ∨
        ∀ other, observer.Tracked tag credential other → other = username) :
    next.Sound := by
  have old : ∀ {tag credential name}, name ≠ username → next.Tracked tag credential name →
      observer.Tracked tag credential name := by
    intro tag credential name other tracked
    refine ⟨((knows name).mp tracked.1).resolve_left other, ?_⟩
    rw [← others tag name other]
    exact tracked.2
  -- A user other than the changed one cannot share a credential with it.
  have apart : ∀ {tag credential name}, next.Tracked tag credential username →
      next.Tracked tag credential name → name = username := by
    intro tag credential name changed tracked
    by_contra other
    rcases own tag credential changed.2 with earlier | free
    · exact other (sound.unique _ _ _ _ (old other tracked)
        ⟨sound.known _ _ _ earlier, earlier⟩)
    · exact other (free name (old other tracked))
  refine ⟨?_, ?_⟩
  · intro tag name credential found
    by_cases same : name = username
    · exact (knows name).mpr (Or.inl same)
    · rw [others tag name same] at found
      exact (knows name).mpr (Or.inr (sound.known _ _ _ found))
  · intro tag credential first second one two
    by_cases firstSame : first = username
    · subst firstSame
      exact (apart one two).symm
    · by_cases secondSame : second = username
      · subst secondSame
        exact apart two one
      · exact sound.unique _ _ _ _ (old firstSame one) (old secondSame two)

theorem userCreds_savePersisted :
    (observer.savePersisted fault username).userCreds = observer.userCreds := by
  simp only [savePersisted]
  split
  · rfl
  · split <;> rfl

theorem userCreds_upsertUser : (observer.upsertUser username).userCreds = observer.userCreds := by
  simp only [upsertUser]
  split <;> rfl

theorem userCreds_addUser :
    (observer.addUser hashes fault username password).userCreds =
      (observer.inbounds.foldl (setCredential hashes username password) observer).userCreds :=
  userCreds_savePersisted.trans userCreds_upsertUser

theorem Sound.addUser (sound : observer.Sound)
    (free : ∀ node ∈ observer.inbounds, CredentialFree hashes username password observer node) :
    (observer.addUser hashes fault username password).Sound := by
  refine sound.grant (fun name => knows_addUser) ?_ ?_
  · intro tag name other
    rw [userCreds_addUser, lookup_setCredentials_ne other]
  · intro tag credential found
    rw [userCreds_addUser] at found
    apply (lookup_setCredentials found).imp_right
    intro given
    obtain ⟨node, member, rfl, hashed⟩ := given
    exact free node member credential hashed

theorem Sound.registerUser {protocol : InboundProtocol} {user : AuthUser}
    (sound : observer.Sound)
    (free : CredentialFree hashes user.username user.password observer (tag, protocol)) :
    (Server.registerUser hashes tag protocol observer user).Sound := by
  refine sound.grant (fun name => knows_registerUser) ?_ ?_
  · intro tag name other
    rw [Server.registerUser, lookup_setCredential_ne other]
    exact congrArg _ userCreds_upsertUser
  · intro tag credential found
    refine (lookup_setCredential found).imp ?_ ?_
    · intro earlier
      exact (congrArg _ userCreds_upsertUser).symm.trans earlier
    · intro given
      obtain ⟨rfl, hashed⟩ := given
      exact free credential hashed

theorem lookup_removeCredentials (creds : Credentials) (tag name : String) :
    (removeCredentials username creds).lookup (tag, name) =
      if name = username then none else creds.lookup (tag, name) := by
  have folded : ∀ (tags : List String) (creds : Credentials),
      (tags.foldl (fun creds tag => creds.erase (tag, username)) creds).lookup (tag, name) =
        if name = username ∧ tag ∈ tags then none else creds.lookup (tag, name) := by
    intro tags
    induction tags with
    | nil => simp
    | cons first tags ih =>
        intro creds
        rw [List.foldl_cons, ih]
        by_cases here : (tag, name) = (first, username)
        · cases here
          simp
        · rw [AList.lookup_erase_ne here]
          simp only [Prod.mk.injEq, not_and] at here
          simp only [List.mem_cons]
          grind
  rw [removeCredentials, folded]
  by_cases same : name = username
  · subst same
    by_cases present : tag ∈ ((creds.keys.filter (·.2 = name)).map Prod.fst)
    · rw [if_pos ⟨rfl, present⟩, if_pos rfl]
    · rw [if_neg (fun both => present both.2), if_pos rfl]
      apply AList.lookup_eq_none.mpr
      intro member
      refine present (List.mem_map.mpr ⟨(tag, name), List.mem_filter.mpr ⟨?_, by simp⟩, rfl⟩)
      exact AList.mem_keys.mp member
  · rw [if_neg (fun both => same both.1), if_neg same]

theorem tracked_removeUser :
    (observer.removeUser fault username).Tracked tag credential name ↔
      name ≠ username ∧ observer.Tracked tag credential name := by
  simp only [Tracked, knows_removeUser]
  rw [removeUser, lookup_removeCredentials]
  by_cases same : name = username
  · simp [same]
  · simp [same]

theorem Sound.removeUser (sound : observer.Sound) :
    (observer.removeUser fault username).Sound where
  known tag name credential found := by
    rw [Observer.removeUser, lookup_removeCredentials] at found
    by_cases same : name = username
    · rw [if_pos same] at found
      cases found
    · rw [if_neg same] at found
      exact knows_removeUser.mpr ⟨same, sound.known _ _ _ found⟩
  unique tag credential first second one two :=
    sound.unique _ _ _ _ (tracked_removeUser.mp one).2 (tracked_removeUser.mp two).2

theorem tracked_addUser (other : name ≠ username) :
    (observer.addUser hashes fault username password).Tracked tag credential name ↔
      observer.Tracked tag credential name := by
  rw [Tracked, knows_addUser, userCreds_addUser, lookup_setCredentials_ne other]
  simp [other, Tracked]

end Observer

/-! Runs. -/

def UserEvent.username : UserEvent → String
  | addUser _ username _ => username
  | removeUser _ username => username

inductive AccountEvent where
  | register (configured : String × ManagedInbound)
  | user (event : UserEvent)

namespace Server

open Observer

variable {hashes : Hashes} {server next final : Server} {event : AccountEvent}
  {events : List AccountEvent}

def account (hashes : Hashes) (server : Server) : AccountEvent → Option Server
  | .register configured => some (server.registerInbound hashes configured)
  | .user event => server.step hashes event

/-- The condition for the users of a configured inbound, one after the other. -/
def RegisterFree (hashes : Hashes) (tag : String) (protocol : InboundProtocol) :
    List AuthUser → Observer → Prop
  | [], _ => True
  | user :: users, observer =>
      CredentialFree hashes user.username user.password observer (tag, protocol) ∧
        RegisterFree hashes tag protocol users (registerUser hashes tag protocol observer user)

/-- Every user that is registered or added, and that no inbound rejects, has
credentials which no other tracked user has on the same inbound. -/
def CredentialsFree (hashes : Hashes) (server : Server) : AccountEvent → Prop
  | .register (tag, inbound) =>
      RegisterFree hashes tag inbound.protocol inbound.users
        (server.observer.registerInbound tag inbound.protocol)
  | .user (.addUser faults username password) =>
      (∀ target ∈ server.inbounds, ¬Rejecting hashes faults ⟨username, password⟩ target) →
        ∀ node ∈ server.observer.inbounds,
          CredentialFree hashes username password server.observer node
  | .user (.removeUser _ _) => True

theorem sound_registerInbound {observer : Observer} (sound : observer.Sound) (tag : String)
    (protocol : InboundProtocol) : (observer.registerInbound tag protocol).Sound := by
  simp only [Observer.registerInbound]
  split
  · exact sound
  · exact ⟨sound.known, sound.unique⟩

theorem RegisterFree.sound {tag : String} {protocol : InboundProtocol} {users : List AuthUser}
    {observer : Observer} (free : RegisterFree hashes tag protocol users observer)
    (sound : observer.Sound) :
    (users.foldl (registerUser hashes tag protocol) observer).Sound := by
  induction users generalizing observer with
  | nil => exact sound
  | cons user users ih => exact ih free.2 (sound.registerUser free.1)

theorem sound_account (sound : server.observer.Sound)
    (free : CredentialsFree hashes server event)
    (taken : server.account hashes event = some next) : next.observer.Sound := by
  cases event with
  | register configured =>
      cases taken
      have registered := sound_registerInbound sound configured.1 configured.2.protocol
      simp only [registerInbound]
      split
      · exact RegisterFree.sound free registered
      · exact registered
  | user event =>
      cases event with
      | addUser faults username password =>
          cases taken
          rcases addUser_cases hashes faults username password server with
            ⟨error, inbounds, failed⟩ | ⟨inbounds, added⟩
          · rw [failed]
            exact sound
          · have accepted : ∀ target ∈ server.inbounds,
                ¬Rejecting hashes faults ⟨username, password⟩ target := by
              intro target member rejects
              obtain ⟨error, failed⟩ := (applyAdd_fails_iff _).mpr ⟨target, member, rejects⟩
              simp only [Server.addUser] at added
              split at added
              · cases added
              · rename_i applied
                rw [applyAdd, applied] at failed
                cases failed
            rw [added]
            exact sound.addUser (free accepted)
      | removeUser faults username =>
          cases taken
          rcases removeUser_cases faults username server with
            ⟨result, inbounds, same⟩ | ⟨inbounds, removed⟩
          · rw [same]
            exact sound
          · rw [removed]
            exact sound.removeUser

theorem tracked_step {event : UserEvent} {name tag : String} {credential : Bytes}
    (other : name ≠ event.username) (taken : server.step hashes event = some next) :
    next.observer.Tracked tag credential name ↔ server.observer.Tracked tag credential name := by
  cases event with
  | addUser faults username password =>
      cases taken
      rcases addUser_cases hashes faults username password server with
        ⟨error, inbounds, failed⟩ | ⟨inbounds, added⟩
      · rw [failed]
      · rw [added]
        exact tracked_addUser other
  | removeUser faults username =>
      cases taken
      rcases removeUser_cases faults username server with
        ⟨result, inbounds, same⟩ | ⟨inbounds, removed⟩
      · rw [same]
      · rw [removed]
        exact tracked_removeUser.trans (and_iff_right other)

theorem authenticates_iff {observer : Observer} (sound : observer.Sound) (tag : String)
    (credential : Bytes) (name : String) :
    observer.Authenticates tag credential name ↔ observer.Tracked tag credential name := by
  have identifies := sound.identifies.authenticates
  constructor
  · intro all
    exact (identifies _ (List.Perm.refl _) ..).mp (all _ (List.Perm.refl _))
  · intro tracked order perm
    exact (identifies order perm ..).mpr tracked

theorem userCreds_new (fault : Option String) (cache : Option (KeyedTable PersistedUser.username)) :
    (Observer.new fault cache).userCreds = ∅ := by
  have folded : ∀ (rows : List (String × PersistedUser)) (observer : Observer),
      (rows.foldl restore observer).userCreds = observer.userCreds := by
    intro rows
    induction rows with
    | nil => exact fun _ => rfl
    | cons row rows ih => exact fun observer => ih (observer.restore row)
  simp only [Observer.new, loadPersistedUsers]
  split
  · rfl
  · split
    · rfl
    · exact folded ..

/-- After any sequence of registrations, additions and removals that meet the
condition, a credential identifies one user; and the next addition or removal
changes nothing about the credentials of the others. -/
theorem identifies_of_credentialsFree (hashes : Hashes) (fault : Option String)
    (cache : Option (KeyedTable PersistedUser.username))
    (ran : Machine.run (account hashes) ⟨[], .new fault cache⟩ events = some final)
    (free : Machine.Within (account hashes) (CredentialsFree hashes) ⟨[], .new fault cache⟩
      events) :
    final.observer.Identifies ∧
      ∀ event next, final.step hashes event = some next →
        CredentialsFree hashes final (.user event) →
          ∀ name, name ≠ event.username → ∀ tag credential,
            next.observer.Authenticates tag credential name ↔
              final.observer.Authenticates tag credential name := by
  have sound : final.observer.Sound := by
    refine Machine.run_within_invariant (fun server => server.observer.Sound) sound_account
      ⟨?_, ?_⟩ free ran
    · intro tag username credential found
      rw [userCreds_new] at found
      cases found
    · intro tag credential first second tracked
      have found := tracked.2
      rw [userCreds_new] at found
      cases found
  refine ⟨sound.identifies, ?_⟩
  intro event next taken kept name other tag credential
  have later : next.observer.Sound := sound_account sound kept taken
  rw [authenticates_iff later, authenticates_iff sound]
  exact tracked_step other taken

/-- A Trojan inbound with the user `alice`, to which `bob` is added with the
given password. -/
def addBob (password : String) : List AccountEvent :=
  [.register trojanInbound, .user (.addUser noFaults "bob" password)]

theorem credentialFree_bob {node : String × InboundProtocol}
    (member : node ∈ [("trojan-in", InboundProtocol.trojan)]) :
    CredentialFree knownHashes "bob" "b"
      ((Observer.new none none).registerInbound "trojan-in" .trojan |>.upsertUser "alice"
        |>.setUserPassword "alice" "a"
        |>.setUserCredential "trojan-in" "alice" (hexEncode (knownHashes.sha224 [97]))) node := by
  rw [List.mem_singleton.mp member]
  intro credential hashed other given
  obtain ⟨-, found⟩ := given
  cases hashed
  by_cases alice : other = "alice"
  · subst alice
    revert found
    decide
  · have absent : (AList.insert ("trojan-in", "alice") (hexEncode (knownHashes.sha224 [97]))
        (∅ : Credentials)).lookup ("trojan-in", other) = none :=
      AList.lookup_insert_ne fun same => alice (Prod.ext_iff.mp same).2
    cases absent.symm.trans found

theorem identifies_addBob :
    ∃ final, Machine.run (account knownHashes) ⟨[], .new none none⟩ (addBob "b") = some final ∧
      final.observer.Identifies := by
  have free : Machine.Within (account knownHashes) (CredentialsFree knownHashes)
      ⟨[], .new none none⟩ (addBob "b") := by
    refine ⟨⟨?_, trivial⟩, ?_⟩
    · intro credential _ other given
      obtain ⟨-, found⟩ := given
      cases found
    · intro next given
      cases given
      exact ⟨fun _ node member => credentialFree_bob member, fun _ _ => trivial⟩
  obtain ⟨final, ran⟩ : ∃ final,
      Machine.run (account knownHashes) ⟨[], .new none none⟩ (addBob "b") = some final := ⟨_, rfl⟩
  exact ⟨final, ran, (identifies_of_credentialsFree knownHashes none none ran free).1⟩

theorem samePassword_not_identified :
    ∃ final, Machine.run (account knownHashes) ⟨[], .new none none⟩ (addBob "a") = some final ∧
      ¬final.observer.Identifies := by
  refine ⟨_, rfl, ?_⟩
  intro identifies
  have same := identifies.unique "trojan-in" (hexEncode (knownHashes.sha224 [97])) "alice" "bob"
    ⟨by decide, rfl⟩ ⟨by decide, rfl⟩
  revert same
  decide

end Server

end QuicProxy
