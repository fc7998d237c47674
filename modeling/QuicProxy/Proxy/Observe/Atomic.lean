import QuicProxy.Proxy.Observe.Observer

namespace QuicProxy

/-! When `Observer::add_user` is all or nothing, and that no inbound then keeps a
user the observer does not know. -/

namespace ManagedInbound

/-- The inbound reports an error when it is told to add the user. -/
def Rejects (hashes : Hashes) (jls : Option String) (user : AuthUser) (inbound : ManagedInbound) :
    Prop :=
  (inbound.protocol = .vmess ∧ ∀ uuid, hashes.parseUuid user.username ≠ .ok uuid) ∨
    (inbound.protocol = .shadowquic ∧ jls ≠ none)

/-- The inbound already has the user, with that password. -/
def Lists (user : AuthUser) (inbound : ManagedInbound) : Prop :=
  passwordOf user.username inbound.users = some user.password

variable {hashes : Hashes} {jls : Option String} {user : AuthUser} {inbound : ManagedInbound}

theorem added_eq_iff :
    { inbound with users := withUser user inbound.users } = inbound ↔ inbound.Lists user := by
  rw [Lists, ← withUser_eq_iff]
  exact ⟨fun same => congrArg ManagedInbound.users same, fun same => by rw [same]⟩

theorem addUser_rejects (rejects : inbound.Rejects hashes jls user) :
    ∃ error changed, inbound.addUser hashes jls user = (.error error, changed) ∧
      (changed = inbound ↔ inbound.protocol = .vmess ∨ inbound.Lists user) := by
  rcases rejects with ⟨vmess, invalid⟩ | ⟨shadowquic, failed⟩
  · simp only [addUser, vmess]
    split
    · rename_i uuid parsed
      exact absurd parsed (invalid uuid)
    · exact ⟨_, _, rfl, by simp⟩
  · obtain ⟨error, rfl⟩ := Option.ne_none_iff_exists'.mp failed
    refine ⟨error, { inbound with users := withUser user inbound.users }, ?_, ?_⟩
    · simp only [addUser, shadowquic]
    · rw [added_eq_iff, shadowquic]
      simp

theorem addUser_accepts (accepts : ¬inbound.Rejects hashes jls user)
    (supports : inbound.protocol.supportsUsers = true) :
    inbound.addUser hashes jls user =
      (.ok (), { inbound with users := withUser user inbound.users }) := by
  obtain ⟨vmess, shadowquic⟩ := not_or.mp accepts
  cases protocol : inbound.protocol with
  | trojan => simp only [addUser, protocol]
  | anytls => simp only [addUser, protocol]
  | vmess =>
      simp only [addUser, protocol]
      split
      · rfl
      · rename_i error failed
        refine absurd ⟨protocol, fun uuid parsed => ?_⟩ vmess
        rw [failed] at parsed
        cases parsed
  | shadowquic =>
      have clean : jls = none := by
        by_contra failed
        exact shadowquic ⟨protocol, failed⟩
      simp only [addUser, protocol, clean]
  | socks5 | http | mix | tun => rw [protocol] at supports; cases supports

theorem addUser_snd (hashes : Hashes) (jls : Option String) (user : AuthUser)
    (inbound : ManagedInbound) :
    (inbound.addUser hashes jls user).2 = inbound ∨
      (inbound.addUser hashes jls user).2 =
        { inbound with users := withUser user inbound.users } := by
  simp only [addUser]
  split
  · exact Or.inr rfl
  · exact Or.inr rfl
  · split
    · exact Or.inr rfl
    · exact Or.inl rfl
  · split <;> exact Or.inr rfl
  all_goals exact Or.inl rfl

theorem removeUser_snd (jls : Option String) (username : String) (inbound : ManagedInbound) :
    (inbound.removeUser jls username).2 =
      if inbound.protocol.supportsUsers then
        { inbound with users := withoutUser username inbound.users }
      else inbound := by
  simp only [removeUser]
  split
  case h_4 protocol =>
    rw [protocol]
    split <;> rfl
  all_goals
    rename_i protocol
    rw [protocol]
    rfl

theorem removeUser_ok (username : String) (inbound : ManagedInbound) :
    (inbound.removeUser none username).1 = .ok () := by
  simp only [removeUser]
  split <;> rfl

theorem Rejects.supports (rejects : inbound.Rejects hashes jls user) :
    inbound.protocol.supportsUsers = true := by
  rcases rejects with ⟨vmess, -⟩ | ⟨shadowquic, -⟩
  · rw [vmess]
    rfl
  · rw [shadowquic]
    rfl

end ManagedInbound

theorem exists_first {α : Type} {holds : α → Prop} {list : List α}
    (some_holds : ∃ item ∈ list, holds item) :
    ∃ before item after, list = before ++ item :: after ∧
      (∀ earlier ∈ before, ¬holds earlier) ∧ holds item := by
  induction list with
  | nil => simp at some_holds
  | cons head tail ih =>
      by_cases here : holds head
      · exact ⟨[], head, tail, rfl, by simp, here⟩
      · obtain ⟨before, item, after, rfl, earlier, found⟩ :=
          ih ((List.exists_mem_cons_iff ..).mp some_holds |>.resolve_left here)
        exact ⟨head :: before, item, after, rfl, List.forall_mem_cons.mpr ⟨here, earlier⟩, found⟩

section Apply

variable (hashes : Hashes) (faults : UserFaults) (user : AuthUser)

/-- `apply_user_change` for an added user. -/
def applyAdd (inbounds : List (String × ManagedInbound)) :
    Except String Unit × List (String × ManagedInbound) :=
  applyUserChange (fun tag => ManagedInbound.addUser hashes (faults.jls tag) user) inbounds

def Rejecting (target : String × ManagedInbound) : Prop :=
  target.2.Rejects hashes (faults.jls target.1) user

/-- The first inbound that rejects the user, if there is one, comes when nothing
has changed: every inbound before it already had the user with that password,
and so did itself unless it checks before it stores. -/
def Harmless (inbounds : List (String × ManagedInbound)) : Prop :=
  ∀ before target after, inbounds = before ++ target :: after →
    (∀ earlier ∈ before, ¬Rejecting hashes faults user earlier) →
      Rejecting hashes faults user target →
        (∀ earlier ∈ before, earlier.2.protocol.supportsUsers = true → earlier.2.Lists user) ∧
          (target.2.protocol = .vmess ∨ target.2.Lists user)

variable {hashes faults user}

theorem applyAdd_fails_iff (inbounds : List (String × ManagedInbound)) :
    (∃ error, (applyAdd hashes faults user inbounds).1 = .error error) ↔
      ∃ target ∈ inbounds, Rejecting hashes faults user target := by
  induction inbounds with
  | nil => simp [applyAdd, applyUserChange]
  | cons target rest ih =>
      obtain ⟨tag, inbound⟩ := target
      simp only [applyAdd, applyUserChange] at ih ⊢
      by_cases rejects : inbound.Rejects hashes (faults.jls tag) user
      · obtain ⟨error, changed, result, -⟩ := ManagedInbound.addUser_rejects rejects
        rw [if_pos rejects.supports, result]
        exact iff_of_true ⟨_, rfl⟩ ⟨_, List.mem_cons_self .., rejects⟩
      · have here : ¬Rejecting hashes faults user (tag, inbound) := rejects
        simp only [List.exists_mem_cons_iff, here, false_or]
        split
        · rename_i supports
          rw [ManagedInbound.addUser_accepts rejects supports]
          exact ih
        · exact ih

theorem harmless_cons_rejecting {target : String × ManagedInbound}
    (rejects : Rejecting hashes faults user target) (rest : List (String × ManagedInbound)) :
    Harmless hashes faults user (target :: rest) ↔
      target.2.protocol = .vmess ∨ target.2.Lists user := by
  constructor
  · intro harmless
    exact (harmless [] target rest rfl (by simp) rejects).2
  · intro fine before other after split accepts _
    cases before with
    | nil =>
        cases split
        exact ⟨by simp, fine⟩
    | cons first before =>
        cases split
        exact absurd rejects (accepts _ (List.mem_cons_self ..))

theorem harmless_cons_accepting {target : String × ManagedInbound}
    (accepts : ¬Rejecting hashes faults user target) (rest : List (String × ManagedInbound)) :
    Harmless hashes faults user (target :: rest) ↔
      ((∃ later ∈ rest, Rejecting hashes faults user later) →
        target.2.protocol.supportsUsers = true → target.2.Lists user) ∧
          Harmless hashes faults user rest := by
  constructor
  · intro harmless
    refine ⟨?_, ?_⟩
    · intro later
      obtain ⟨before, other, after, rfl, earlier, rejects⟩ := exists_first later
      have whole := harmless (target :: before) other after rfl
        (List.forall_mem_cons.mpr ⟨accepts, earlier⟩) rejects
      exact whole.1 target (List.mem_cons_self ..)
    · intro before other after split earlier rejects
      have whole := harmless (target :: before) other after (by rw [split]; rfl)
        (List.forall_mem_cons.mpr ⟨accepts, earlier⟩) rejects
      exact ⟨(List.forall_mem_cons.mp whole.1).2, whole.2⟩
  · intro given before other after split earlier rejects
    obtain ⟨own, later⟩ := given
    cases before with
    | nil =>
        cases split
        exact absurd rejects accepts
    | cons first before =>
        cases split
        have rest := later before other after rfl (List.forall_mem_cons.mp earlier).2 rejects
        refine ⟨List.forall_mem_cons.mpr ⟨own ⟨other, by simp, rejects⟩, rest.1⟩, rest.2⟩

theorem applyAdd_unchanged_iff (inbounds : List (String × ManagedInbound)) :
    (∀ error, (applyAdd hashes faults user inbounds).1 = .error error →
        (applyAdd hashes faults user inbounds).2 = inbounds) ↔
      Harmless hashes faults user inbounds := by
  induction inbounds with
  | nil => simp [applyAdd, applyUserChange, Harmless]
  | cons target rest ih =>
      obtain ⟨tag, inbound⟩ := target
      by_cases rejects : Rejecting hashes faults user (tag, inbound)
      · obtain ⟨error, changed, result, same⟩ := ManagedInbound.addUser_rejects rejects
        rw [harmless_cons_rejecting rejects, ← same]
        simp only [applyAdd, applyUserChange, if_pos rejects.supports, result]
        simp
      · rw [harmless_cons_accepting rejects, ← ih, ← applyAdd_fails_iff]
        simp only [applyAdd, applyUserChange]
        split
        · rename_i supports
          rw [ManagedInbound.addUser_accepts rejects supports]
          simp only [List.cons.injEq, Prod.mk.injEq, true_and, ManagedInbound.added_eq_iff,
            supports, forall_const, forall_exists_index]
          simp only [imp_and, forall_and]
        · rename_i unsupported
          simp [unsupported]

end Apply

/-- An inbound with users is left out only when another one reports an error. -/
theorem mem_applyUserChange
    {change : String → ManagedInbound → Except String Unit × ManagedInbound}
    {inbounds : List (String × ManagedInbound)} {target : String × ManagedInbound}
    (member : target ∈ (applyUserChange change inbounds).2) :
    ∃ inbound, (target.1, inbound) ∈ inbounds ∧
      (target.2 = (change target.1 inbound).2 ∨ target.2 = inbound ∧
        ((applyUserChange change inbounds).1 = .ok () →
          inbound.protocol.supportsUsers = false)) := by
  induction inbounds with
  | nil => cases member
  | cons first rest ih =>
      obtain ⟨tag, inbound⟩ := first
      simp only [applyUserChange] at member ⊢
      split at member
      · rename_i supports
        rw [if_pos supports]
        split at member
        · rename_i error changed result
          rcases List.mem_cons.mp member with rfl | later
          · exact ⟨inbound, List.mem_cons_self .., Or.inl (congrArg Prod.snd result).symm⟩
          · exact ⟨target.2, List.mem_cons_of_mem _ later, Or.inr ⟨rfl, nofun⟩⟩
        · rename_i changed result
          rcases List.mem_cons.mp member with rfl | later
          · exact ⟨inbound, List.mem_cons_self .., Or.inl (congrArg Prod.snd result).symm⟩
          · obtain ⟨found, mem, shape⟩ := ih later
            exact ⟨found, List.mem_cons_of_mem _ mem, shape⟩
      · rename_i unsupported
        rw [if_neg unsupported]
        rcases List.mem_cons.mp member with rfl | later
        · refine ⟨inbound, List.mem_cons_self .., Or.inr ⟨rfl, fun _ => ?_⟩⟩
          exact Bool.eq_false_iff.mpr unsupported
        · obtain ⟨found, mem, shape⟩ := ih later
          exact ⟨found, List.mem_cons_of_mem _ mem, shape⟩

theorem applyUserChange_ok
    {change : String → ManagedInbound → Except String Unit × ManagedInbound}
    (fine : ∀ tag inbound, (change tag inbound).1 = .ok ())
    (inbounds : List (String × ManagedInbound)) :
    (applyUserChange change inbounds).1 = .ok () := by
  induction inbounds with
  | nil => rfl
  | cons first rest ih =>
      obtain ⟨tag, inbound⟩ := first
      simp only [applyUserChange]
      split
      · split
        · rename_i error changed result
          have accepted := fine tag inbound
          rw [result] at accepted
          cases accepted
        · exact ih
      · exact ih

/-! Runs of additions and removals. -/

inductive UserEvent where
  | addUser (faults : UserFaults) (username password : String)
  | removeUser (faults : UserFaults) (username : String)

namespace Observer

variable {hashes : Hashes} {fault : Option String} {username password name : String}
  {observer : Observer}

theorem knows_upsertUser :
    (observer.upsertUser username).Knows name ↔ name = username ∨ observer.Knows name := by
  simp only [Knows, upsertUser]
  split
  · rename_i stats found
    constructor
    · exact Or.inr
    · intro given
      rcases given with rfl | known
      · exact AList.lookup_isSome.mp (Option.isSome_of_eq_some found)
      · exact known
  · exact AList.mem_insert _

theorem userStats_setCredential (node : String × InboundProtocol) :
    (observer.setCredential hashes username password node).userStats = observer.userStats := by
  simp only [setCredential]
  split <;> rfl

theorem userStats_setCredentials (nodes : List (String × InboundProtocol)) :
    (nodes.foldl (setCredential hashes username password) observer).userStats =
      observer.userStats := by
  induction nodes generalizing observer with
  | nil => rfl
  | cons node nodes ih => exact ih.trans (userStats_setCredential node)

theorem userStats_savePersisted :
    (observer.savePersisted fault username).userStats = observer.userStats := by
  simp only [savePersisted]
  split
  · rfl
  · split <;> rfl

theorem knows_addUser :
    (observer.addUser hashes fault username password).Knows name ↔
      name = username ∨ observer.Knows name := by
  rw [Knows, addUser, userStats_savePersisted]
  change (upsertUser username _).Knows name ↔ _
  rw [knows_upsertUser, Knows, userStats_setCredentials]
  rfl

theorem knows_removeUser :
    (observer.removeUser fault username).Knows name ↔ name ≠ username ∧ observer.Knows name :=
  AList.mem_erase

theorem knows_registerUser {tag : String} {protocol : InboundProtocol} {user : AuthUser} :
    (Server.registerUser hashes tag protocol observer user).Knows name ↔
      name = user.username ∨ observer.Knows name := by
  rw [Knows, Server.registerUser, userStats_setCredential]
  exact knows_upsertUser

end Observer

namespace Server

variable {hashes : Hashes} {server next final : Server} {event : UserEvent}
  {events : List UserEvent}

def step (hashes : Hashes) (server : Server) : UserEvent → Option Server
  | .addUser faults username password => some (server.addUser hashes faults username password).2
  | .removeUser faults username => some (server.removeUser faults username).2

def Listed (server : Server) (username : String) : Prop :=
  ∃ target ∈ server.inbounds, target.2.protocol.supportsUsers = true ∧
    ∃ user ∈ target.2.users, user.username = username

/-- `remove_user` finds the user and, when it succeeds, has removed it
everywhere; it can only fail at a JLS update. -/
structure Revocable (server : Server) (username : String) : Prop where
  found : ∀ faults, (server.removeUser faults username).1 ≠ .ok false
  removed : ∀ faults, (server.removeUser faults username).1 = .ok true →
    ¬(server.removeUser faults username).2.Listed username
  succeeds : ∀ faults, (∀ tag, faults.jls tag = none) →
    (server.removeUser faults username).1 = .ok true

def AddsHarmlessly (hashes : Hashes) (server : Server) : UserEvent → Prop
  | .addUser faults username password => Harmless hashes faults ⟨username, password⟩ server.inbounds
  | .removeUser _ _ => True

/-- An `add_user` that fails leaves everything as it was. -/
def Atomic (hashes : Hashes) (faults : UserFaults) (username password : String)
    (server : Server) : Prop :=
  ∀ error, (server.addUser hashes faults username password).1 = .error error →
    (server.addUser hashes faults username password).2 = server

theorem atomic_iff (faults : UserFaults) (username password : String) (server : Server) :
    Atomic hashes faults username password server ↔
      Harmless hashes faults ⟨username, password⟩ server.inbounds := by
  rw [← applyAdd_unchanged_iff]
  simp only [Atomic, addUser, applyAdd]
  split
  · rename_i error inbounds applied
    rw [applied]
    refine forall_congr' fun _ => imp_congr_right fun _ => ?_
    exact ⟨congrArg Server.inbounds, congrArg (Server.mk · server.observer)⟩
  · rename_i inbounds applied
    rw [applied]
    simp

theorem listed_addUser {faults : UserFaults} {username password name : String}
    (listed : (server.addUser hashes faults username password).2.Listed name) :
    name = username ∨ server.Listed name := by
  obtain ⟨target, member, supports, user, mem, same⟩ := listed
  have shape : target ∈ (applyAdd hashes faults ⟨username, password⟩ server.inbounds).2 := by
    simp only [addUser] at member
    split at member <;> (rename_i applied; rw [applyAdd, applied]; exact member)
  obtain ⟨inbound, source, changed⟩ := mem_applyUserChange shape
  have old : target.2 = inbound → server.Listed name := by
    intro unchanged
    refine ⟨(target.1, inbound), source, ?_, user, ?_, same⟩
    · rw [← unchanged]
      exact supports
    · rw [← unchanged]
      exact mem
  rcases changed with new | ⟨unchanged, -⟩
  · rcases ManagedInbound.addUser_snd hashes (faults.jls target.1) ⟨username, password⟩ inbound with
      kept | added
    · exact Or.inr (old (new.trans kept))
    · rw [added] at new
      rw [new] at mem supports
      rcases mem_withUser mem with earlier | named
      · exact Or.inr ⟨(target.1, inbound), source, supports, user, earlier, same⟩
      · exact Or.inl (same.symm.trans named)
  · exact Or.inr (old unchanged)

theorem listed_removeUser {faults : UserFaults} {username name : String}
    (listed : (server.removeUser faults username).2.Listed name) :
    server.Listed name ∧
      ((server.removeUser faults username).1 = .ok true → name ≠ username) := by
  simp only [removeUser] at listed ⊢
  split at listed
  · rename_i known
    rw [if_pos known]
    obtain ⟨target, member, supports, user, mem, same⟩ := listed
    have shape : target ∈ (applyUserChange
        (fun tag => ManagedInbound.removeUser (faults.jls tag) username) server.inbounds).2 := by
      split at member <;> (rename_i applied; rw [applied]; exact member)
    obtain ⟨inbound, source, changed⟩ := mem_applyUserChange shape
    rw [ManagedInbound.removeUser_snd] at changed
    rcases changed with removed | ⟨unchanged, left⟩
    · split at removed
      · rw [removed] at mem supports
        obtain ⟨earlier, other⟩ := List.mem_filter.mp mem
        refine ⟨⟨(target.1, inbound), source, supports, user, earlier, same⟩, fun _ => ?_⟩
        rw [← same]
        simpa using other
      · rename_i unsupported
        rw [removed] at supports
        exact absurd supports unsupported
    · rw [unchanged] at mem supports
      refine ⟨⟨(target.1, inbound), source, supports, user, mem, same⟩, fun succeeded => ?_⟩
      split at succeeded
      · cases succeeded
      · rename_i applied
        have unsupported := left (by rw [applied])
        rw [supports] at unsupported
        cases unsupported
  · rename_i unknown
    rw [if_neg unknown]
    exact ⟨listed, nofun⟩

/-- Every user in the list of an inbound is known to the observer. -/
def AllKnown (server : Server) : Prop :=
  ∀ username, server.Listed username → server.observer.Knows username

theorem AllKnown.revocable (known : server.AllKnown) {username : String}
    (listed : server.Listed username) : server.Revocable username where
  found faults same := by
    have present : username ∈ server.observer.userStats := known username listed
    simp only [removeUser, if_pos present] at same
    split at same <;> cases same
  removed faults succeeded again := (listed_removeUser again).2 succeeded rfl
  succeeds faults healthy := by
    have present : username ∈ server.observer.userStats := known username listed
    have fine : (applyUserChange
        (fun tag => ManagedInbound.removeUser (faults.jls tag) username) server.inbounds).1 =
          .ok () := by
      apply applyUserChange_ok
      intro tag inbound
      rw [healthy tag]
      exact ManagedInbound.removeUser_ok username inbound
    simp only [removeUser, if_pos present]
    split
    · rename_i applied
      rw [applied] at fine
      cases fine
    · rfl

theorem addUser_cases (hashes : Hashes) (faults : UserFaults) (username password : String)
    (server : Server) :
    (∃ error inbounds, server.addUser hashes faults username password =
      (.error error, ⟨inbounds, server.observer⟩)) ∨
    ∃ inbounds, server.addUser hashes faults username password =
      (.ok (), ⟨inbounds, server.observer.addUser hashes faults.cache username password⟩) := by
  simp only [addUser]
  split
  · exact Or.inl ⟨_, _, rfl⟩
  · exact Or.inr ⟨_, rfl⟩

theorem removeUser_cases (faults : UserFaults) (username : String) (server : Server) :
    (∃ result inbounds, server.removeUser faults username =
      (result, ⟨inbounds, server.observer⟩)) ∨
    ∃ inbounds, server.removeUser faults username =
      (.ok true, ⟨inbounds, server.observer.removeUser faults.cache username⟩) := by
  simp only [removeUser]
  split
  · split
    · exact Or.inl ⟨_, _, rfl⟩
    · exact Or.inr ⟨_, rfl⟩
  · exact Or.inl ⟨_, server.inbounds, rfl⟩

theorem AllKnown.step (known : server.AllKnown) (harmless : AddsHarmlessly hashes server event)
    (taken : server.step hashes event = some next) : next.AllKnown := by
  cases event with
  | addUser faults username password =>
      cases taken
      rcases addUser_cases hashes faults username password server with
        ⟨error, inbounds, failed⟩ | ⟨inbounds, added⟩
      · rw [(atomic_iff faults username password server).mpr harmless error (by rw [failed])]
        exact known
      · intro name listed
        have before := listed_addUser listed
        rw [added]
        exact Observer.knows_addUser.mpr (before.imp_right (known name))
  | removeUser faults username =>
      cases taken
      intro name listed
      obtain ⟨earlier, other⟩ := listed_removeUser listed
      rcases removeUser_cases faults username server with
        ⟨result, inbounds, same⟩ | ⟨inbounds, removed⟩
      · rw [same]
        exact known name earlier
      · rw [removed] at other ⊢
        exact Observer.knows_removeUser.mpr ⟨other rfl, known name earlier⟩

theorem knows_registerUsers {tag name : String} {protocol : InboundProtocol}
    (users : List AuthUser) (observer : Observer) :
    (users.foldl (registerUser hashes tag protocol) observer).Knows name ↔
      (∃ user ∈ users, user.username = name) ∨ observer.Knows name := by
  induction users generalizing observer with
  | nil => simp
  | cons user users ih =>
      rw [List.foldl_cons, ih, Observer.knows_registerUser, List.exists_mem_cons_iff, or_left_comm,
        or_assoc, eq_comm]

theorem AllKnown.registerInbound (known : server.AllKnown)
    (configured : String × ManagedInbound) :
    (server.registerInbound hashes configured).AllKnown := by
  have registered : ∀ name, (server.observer.registerInbound configured.1
      configured.2.protocol).Knows name ↔ server.observer.Knows name := by
    intro name
    simp only [Observer.Knows, Observer.registerInbound]
    split <;> rfl
  intro name given
  obtain ⟨target, member, supports, user, mem, same⟩ := given
  simp only [Server.registerInbound] at member ⊢
  rcases List.mem_append.mp member with earlier | last
  · have old := (registered name).mpr (known name ⟨target, earlier, supports, user, mem, same⟩)
    split
    · exact (knows_registerUsers ..).mpr (Or.inr old)
    · exact old
  · rw [List.mem_singleton.mp last] at supports mem
    rw [if_pos supports]
    exact (knows_registerUsers ..).mpr (Or.inl ⟨user, mem, same⟩)

theorem allKnown_initInbounds (hashes : Hashes) (observer : Observer)
    (configured : List (String × ManagedInbound)) :
    (initInbounds hashes observer configured).AllKnown := by
  have folded : ∀ server : Server, server.AllKnown →
      (configured.foldl (Server.registerInbound hashes) server).AllKnown := by
    induction configured with
    | nil => exact fun _ known => known
    | cons first rest ih => exact fun server known => ih _ (known.registerInbound first)
  apply folded
  intro name given
  obtain ⟨target, member, -⟩ := given
  cases member

/-- `add_user` is all or nothing exactly when it is harmless; and after any
sequence of harmless additions and of removals, every user that an inbound has
in its list is known to the observer and can be removed. -/
theorem addUser_atomic_iff (hashes : Hashes) :
    (∀ server faults username password, Atomic hashes faults username password server ↔
      Harmless hashes faults ⟨username, password⟩ server.inbounds) ∧
    ∀ observer configured events final,
      Machine.run (step hashes) (initInbounds hashes observer configured) events = some final →
        Machine.Within (step hashes) (AddsHarmlessly hashes)
          (initInbounds hashes observer configured) events →
          ∀ username, final.Listed username →
            final.observer.Knows username ∧ final.Revocable username := by
  refine ⟨fun server faults username password => atomic_iff faults username password server, ?_⟩
  intro observer configured events final ran within username listed
  have known : final.AllKnown :=
    Machine.run_within_invariant AllKnown AllKnown.step
      (allKnown_initInbounds hashes observer configured) within ran
  exact ⟨known username listed, known.revocable listed⟩

def noFaults : UserFaults := ⟨fun _ => none, none⟩

def trojanInbound : String × ManagedInbound := ("trojan-in", ⟨.trojan, [⟨"alice", "a"⟩]⟩)

def vmessInbound : String × ManagedInbound :=
  ("vmess-in", ⟨.vmess, [⟨"b831381d-6324-4d53-ad4f-8cda48b30811", ""⟩]⟩)

theorem addUser_tracked :
    ∃ final, Machine.run (step knownHashes)
        (initInbounds knownHashes (.new none none) [trojanInbound])
        [.addUser noFaults "bob" "b"] = some final ∧ final.Listed "bob" ∧
      final.observer.Knows "bob" ∧ final.Revocable "bob" := by
  have listed : ((initInbounds knownHashes (.new none none) [trojanInbound]).addUser knownHashes
      noFaults "bob" "b").2.Listed "bob" :=
    ⟨("trojan-in", ⟨.trojan, [⟨"alice", "a"⟩, ⟨"bob", "b"⟩]⟩), List.mem_cons_self .., rfl,
      ⟨"bob", "b"⟩, by simp, rfl⟩
  refine ⟨_, rfl, listed, (addUser_atomic_iff knownHashes).2 (.new none none) [trojanInbound]
    [.addUser noFaults "bob" "b"] _ rfl ⟨?_, fun _ _ => trivial⟩ "bob" listed⟩
  -- The only inbound is a Trojan one, which rejects nobody.
  intro before target after shape _ rejects
  have only : target ∈ [trojanInbound] := by
    change [trojanInbound] = _ at shape
    rw [shape]
    exact List.mem_append_right _ (List.mem_cons_self ..)
  rw [List.mem_singleton.mp only] at rejects
  rcases rejects with ⟨vmess, -⟩ | ⟨shadowquic, -⟩
  · cases vmess
  · cases shadowquic

theorem addUser_leaves_untracked :
    ∃ error failed,
      (initInbounds knownHashes (.new none none) [trojanInbound, vmessInbound]).addUser knownHashes
        noFaults "bob" "b" = (.error error, failed) ∧
      failed.inbounds ≠ [trojanInbound, vmessInbound] ∧ failed.Listed "bob" ∧
      ¬failed.observer.Knows "bob" ∧ (failed.removeUser noFaults "bob").1 = .ok false := by
  refine ⟨_, _, rfl, by decide, ?_, by decide, rfl⟩
  exact ⟨("trojan-in", ⟨.trojan, [⟨"alice", "a"⟩, ⟨"bob", "b"⟩]⟩), List.mem_cons_self .., rfl,
    ⟨"bob", "b"⟩, by simp, rfl⟩

end Server

end QuicProxy
