import QuicProxy.Data.Pool
import QuicProxy.Proxy.Inbound.Shadowquic

namespace QuicProxy

/-! What `remove_user` of the ShadowQuic inbound closes. -/

namespace HandlerPhase

/-- The handler has put the connection into the registry and has not taken it
out yet. -/
def enrolled : HandlerPhase → Bool
  | identify | bindJls _ | waiting | bind _ | serving _ | cleanup => true
  | accepted | close | ended => false

/-- The user that the handler has bound the connection to. -/
def bound : HandlerPhase → Option String
  | serving user => user
  | _ => none

end HandlerPhase

namespace RemovalPhase

variable {shards : Nat}

/-- The connection that a removal has taken out of the registry and is about to
close. -/
def target : RemovalPhase shards → Option Nat
  | shut id _ => some id
  | _ => none

def running : RemovalPhase shards → Bool
  | returned _ => false
  | _ => true

end RemovalPhase

/-- What a handler knows about its own connection. -/
def QuicConn.Consistent (isJls : Bool) (conn : QuicConn) : Prop :=
  match conn.phase with
  | .accepted => isJls = false → conn.authed = none
  | .identify => True
  | .waiting => conn.authed = none
  | .bindJls user | .bind user | .serving user => user ≠ none → conn.authed = user
  | .cleanup | .close | .ended => conn.authed = none ∨ conn.closed = true

namespace ShadowquicInbound

variable {shards : Nat} {setup : ShadowquicSetup shards}
  {inbound next middle final : ShadowquicInbound shards} {event : ShadowquicEvent}
  {username : String} {id : Nat} {conn moved : QuicConn}

/-- Some removal is about to close the connection. -/
def Shutting (inbound : ShadowquicInbound shards) (id : Nat) : Prop :=
  ∃ removal ∈ inbound.removals, removal.phase.target = some id

/-- The entry that the removal takes out of the registry next. -/
def facing (inbound : ShadowquicInbound shards) (removal : Removal shards) :
    Option (Nat × Option String) :=
  match removal.phase with
  | .take (addr :: _) => inbound.conns.lookup addr
  | _ => none

/-- A connection is registered when no other one from its address is; a removal
starts when every open connection of the user is bound to it and no other
removal of that user is under way; and a removal closes only connections that
are bound to its user. -/
def Undisturbed (inbound : ShadowquicInbound shards) : ShadowquicEvent → Prop
  | .handle id _ => ∀ conn ∈ inbound.connections[id]?, conn.phase = .accepted →
      ∀ other ∈ inbound.connections, other.phase.enrolled = true → other.addr ≠ conn.addr
  | .remove username =>
      (∀ conn ∈ inbound.connections, conn.authed = some username → conn.closed = false →
        conn.phase = .serving (some username)) ∧
      ∀ removal ∈ inbound.removals, removal.username = username → removal.phase.running = false
  | .proceed index _ => ∀ removal ∈ inbound.removals[index]?, ∀ entry ∈ inbound.facing removal,
      entry.2 = some removal.username
  | _ => True

structure Registered (setup : ShadowquicSetup shards) (inbound : ShadowquicInbound shards) :
    Prop where
  apart : ∀ (id other : Nat) (conn second : QuicConn), inbound.connections[id]? = some conn →
    inbound.connections[other]? = some second → conn.phase.enrolled = true →
      second.phase.enrolled = true → conn.addr = second.addr → id = other
  entry : ∀ addr id user, inbound.conns.lookup addr = some (id, user) →
    ∃ conn, inbound.connections[id]? = some conn ∧ conn.addr = addr ∧
      conn.phase.enrolled = true ∧ (user ≠ none → conn.authed = user)
  listed : ∀ (id : Nat) (conn : QuicConn), inbound.connections[id]? = some conn →
    conn.phase.enrolled = true → conn.closed = false →
      inbound.conns.lookup conn.addr = some (id, conn.phase.bound) ∨ inbound.Shutting id
  consistent : ∀ conn ∈ inbound.connections, conn.Consistent setup.isJls
  shut : ∀ removal ∈ inbound.removals, ∀ id, removal.phase.target = some id →
    ∃ conn, inbound.connections[id]? = some conn ∧ conn.authed = some removal.username

def opened (users : List AuthUser) : ShadowquicInbound shards := ⟨users, ∅, [], []⟩

theorem registered_opened (users : List AuthUser) :
    Registered setup (opened users) := by
  refine ⟨?_, ?_, ?_, ?_, ?_⟩
  · intro id other conn second found
    cases found
  · intro addr id user found
    cases found
  · intro id conn found
    cases found
  · intro conn member
    cases member
  · intro removal member
    cases member

theorem getElem?_shutConn (connections : List QuicConn) (id other : Nat) :
    (shutConn connections id)[other]? = (connections[other]?).map fun conn =>
      if other = id then { conn with closed := true } else conn := by
  rw [shutConn]
  split
  · rename_i conn found
    rw [Pool.getElem?_set_of_some found]
    by_cases same : other = id
    · subst same
      simp [found]
    · simp [same]
  · rename_i missing
    by_cases same : other = id
    · subst same
      simp [missing]
    · simp [same]

namespace Registered

theorem accept (registered : Registered setup inbound) {new : QuicConn}
    (fresh : new.phase = .accepted) (consistent : new.Consistent setup.isJls) :
    Registered setup { inbound with connections := inbound.connections ++ [new] } := by
  have outside : new.phase.enrolled ≠ true := by
    rw [fresh]
    exact Bool.false_ne_true
  refine ⟨?_, ?_, ?_, ?_, ?_⟩
  · intro id other conn second found present enrolled again same
    rcases Pool.getElem?_concat_cases found with earlier | ⟨-, rfl⟩
    · rcases Pool.getElem?_concat_cases present with also | ⟨-, rfl⟩
      · exact registered.apart id other conn second earlier also enrolled again same
      · exact absurd again outside
    · exact absurd enrolled outside
  · intro addr id user found
    obtain ⟨conn, present, rest⟩ := registered.entry addr id user found
    exact ⟨conn, Pool.getElem?_start present, rest⟩
  · intro id conn found enrolled running
    rcases Pool.getElem?_concat_cases found with earlier | ⟨-, rfl⟩
    · exact registered.listed id conn earlier enrolled running
    · exact absurd enrolled outside
  · exact Pool.forall_start registered.consistent consistent
  · intro removal member id phase
    obtain ⟨conn, present, authed⟩ := registered.shut removal member id phase
    exact ⟨conn, Pool.getElem?_start present, authed⟩

section Move

variable {conns : AList fun _ : SocketAddr => Nat × Option String}

theorem shut_set (registered : Registered setup inbound)
    (found : inbound.connections[id]? = some conn)
    (authed : ∀ name, conn.authed = some name → moved.authed = some name) :
    ∀ removal ∈ inbound.removals, ∀ target, removal.phase.target = some target →
      ∃ now, (inbound.connections.set id moved)[target]? = some now ∧
        now.authed = some removal.username := by
  intro removal member target phase
  obtain ⟨old, present, named⟩ := registered.shut removal member target phase
  by_cases same : target = id
  · subst same
    cases found.symm.trans present
    exact ⟨moved, by rw [Pool.getElem?_set_of_some found, if_pos rfl], authed _ named⟩
  · exact ⟨old, by rw [Pool.getElem?_set_of_some found, if_neg same, present], named⟩

theorem consistent_set (registered : Registered setup inbound)
    (consistent : moved.Consistent setup.isJls) :
    ∀ other ∈ inbound.connections.set id moved, other.Consistent setup.isJls := by
  intro other member
  rcases List.mem_or_eq_of_mem_set member with earlier | rfl
  · exact registered.consistent other earlier
  · exact consistent

/-- A handler moves its connection, and nobody else has an entry under the
address. -/
theorem move (registered : Registered setup inbound) (found : inbound.connections[id]? = some conn)
    (addr : moved.addr = conn.addr)
    (authed : ∀ name, conn.authed = some name → moved.authed = some name)
    (alone : ∀ other second, inbound.connections[other]? = some second → other ≠ id →
      second.phase.enrolled = true → second.addr ≠ conn.addr)
    (others : ∀ other, other ≠ conn.addr → conns.lookup other = inbound.conns.lookup other)
    (own : ∀ other user, conns.lookup conn.addr = some (other, user) →
      other = id ∧ moved.phase.enrolled = true ∧ (user ≠ none → moved.authed = user))
    (listed : moved.phase.enrolled = true → moved.closed = false →
      conns.lookup conn.addr = some (id, moved.phase.bound) ∨ inbound.Shutting id)
    (consistent : moved.Consistent setup.isJls) :
    Registered setup
      { inbound with conns := conns, connections := inbound.connections.set id moved } := by
  have at_set := Pool.getElem?_set_of_some found moved
  refine ⟨?_, ?_, ?_, registered.consistent_set consistent, registered.shut_set found authed⟩
  · intro first second conn₁ conn₂ here there enrolled again same
    simp only [at_set] at here there
    by_cases mine : first = id
    · by_cases too : second = id
      · rw [mine, too]
      · rw [if_pos mine] at here
        rw [if_neg too] at there
        cases here
        exact absurd (same.symm.trans addr) (alone second conn₂ there too again)
    · rw [if_neg mine] at here
      by_cases too : second = id
      · rw [if_pos too] at there
        cases there
        exact absurd (same.trans addr) (alone first conn₁ here mine enrolled)
      · rw [if_neg too] at there
        exact registered.apart first second conn₁ conn₂ here there enrolled again same
  · intro at_addr who user entry
    simp only [at_set]
    by_cases here : at_addr = conn.addr
    · subst here
      obtain ⟨rfl, enrolled, bound⟩ := own who user entry
      exact ⟨moved, if_pos rfl, addr, enrolled, bound⟩
    · rw [others at_addr here] at entry
      obtain ⟨old, present, place, rest⟩ := registered.entry at_addr who user entry
      have differs : who ≠ id := by
        intro equal
        subst equal
        cases found.symm.trans present
        exact here place.symm
      exact ⟨old, by rw [if_neg differs, present], place, rest⟩
  · intro who old present enrolled running
    simp only [at_set] at present
    by_cases mine : who = id
    · rw [if_pos mine] at present
      cases present
      subst mine
      rw [addr]
      exact listed enrolled running
    · rw [if_neg mine] at present
      have elsewhere := alone who old present mine enrolled
      simp only [others old.addr elsewhere]
      exact registered.listed who old present enrolled running

/-- A handler or the network moves a connection without touching the
registry. -/
theorem keep (registered : Registered setup inbound) (found : inbound.connections[id]? = some conn)
    (addr : moved.addr = conn.addr)
    (authed : ∀ name, conn.authed = some name → moved.authed = some name)
    (enrolled : moved.phase.enrolled = conn.phase.enrolled)
    (listed : moved.closed = false → conn.closed = false ∧ moved.phase.bound = conn.phase.bound)
    (consistent : moved.Consistent setup.isJls) :
    Registered setup { inbound with connections := inbound.connections.set id moved } := by
  have at_set := Pool.getElem?_set_of_some found moved
  refine ⟨?_, ?_, ?_, registered.consistent_set consistent, registered.shut_set found authed⟩
  · intro first second conn₁ conn₂ here there inside again same
    have before : ∀ (who : Nat) (now : QuicConn),
        (inbound.connections.set id moved)[who]? = some now → ∃ old,
          inbound.connections[who]? = some old ∧ now.addr = old.addr ∧
            now.phase.enrolled = old.phase.enrolled := by
      intro who now present
      rw [at_set] at present
      by_cases mine : who = id
      · rw [if_pos mine] at present
        cases present
        exact ⟨conn, mine ▸ found, addr, enrolled⟩
      · rw [if_neg mine] at present
        exact ⟨now, present, rfl, rfl⟩
    obtain ⟨old₁, present₁, addr₁, enrolled₁⟩ := before first conn₁ here
    obtain ⟨old₂, present₂, addr₂, enrolled₂⟩ := before second conn₂ there
    exact registered.apart first second old₁ old₂ present₁ present₂ (enrolled₁ ▸ inside)
      (enrolled₂ ▸ again) (addr₁ ▸ addr₂ ▸ same)
  · intro at_addr who user entry
    obtain ⟨old, present, place, inside, bound⟩ := registered.entry at_addr who user entry
    simp only [at_set]
    by_cases mine : who = id
    · subst mine
      cases found.symm.trans present
      refine ⟨moved, if_pos rfl, addr.trans place, enrolled.trans inside, fun some_user => ?_⟩
      cases user with
      | none => exact absurd rfl some_user
      | some name => exact authed name (bound some_user)
    · exact ⟨old, by rw [if_neg mine, present], place, inside, bound⟩
  · intro who old present inside running
    simp only [at_set] at present
    by_cases mine : who = id
    · rw [if_pos mine] at present
      cases present
      subst mine
      obtain ⟨was_running, same⟩ := listed running
      rw [addr, same]
      exact registered.listed who conn found (enrolled ▸ inside) was_running
    · rw [if_neg mine] at present
      exact registered.listed who old present inside running

end Move

theorem lookup_bindUser_self (addr : SocketAddr) (user : Option String)
    (conns : AList fun _ : SocketAddr => Nat × Option String) :
    (bindUser addr user conns).lookup addr =
      (conns.lookup addr).map fun entry => (entry.1, user) := by
  rw [bindUser]
  cases found : conns.lookup addr with
  | none => exact found
  | some entry => exact AList.lookup_insert _

theorem lookup_bindUser_of_ne {addr other : SocketAddr} (differs : other ≠ addr)
    (user : Option String) (conns : AList fun _ : SocketAddr => Nat × Option String) :
    (bindUser addr user conns).lookup other = conns.lookup other := by
  rw [bindUser]
  split
  · exact AList.lookup_insert_ne differs
  · rfl

theorem alone_of_enrolled (registered : Registered setup inbound)
    (found : inbound.connections[id]? = some conn) (enrolled : conn.phase.enrolled = true) :
    ∀ other second, inbound.connections[other]? = some second → other ≠ id →
      second.phase.enrolled = true → second.addr ≠ conn.addr := by
  intro other second present differs inside same
  exact differs (registered.apart other id second conn present found inside enrolled same)

theorem bind (registered : Registered setup inbound)
    (found : inbound.connections[id]? = some conn) (enrolled : conn.phase.enrolled = true)
    {user : Option String} (known : user ≠ none → conn.authed = user) :
    Registered setup { inbound with
      conns := bindUser conn.addr user inbound.conns
      connections := inbound.connections.set id { conn with phase := .serving user } } := by
  have alone := registered.alone_of_enrolled found enrolled
  refine registered.move found rfl (fun _ same => same) alone
    (fun other differs => lookup_bindUser_of_ne differs user inbound.conns) ?_ ?_ known
  · intro other name entry
    rw [lookup_bindUser_self] at entry
    obtain ⟨⟨who, old⟩, present, same⟩ := Option.map_eq_some_iff.mp entry
    cases same
    obtain ⟨second, there, place, inside, -⟩ := registered.entry conn.addr who old present
    refine ⟨?_, rfl, known⟩
    by_contra differs
    exact alone who second there differs inside place
  · intro _ running
    rw [lookup_bindUser_self]
    apply (registered.listed id conn found enrolled running).imp_left
    intro entry
    rw [entry]
    rfl

theorem register (registered : Registered setup inbound) {addr : SocketAddr}
    {authed : Option String} {closed : Bool}
    (found : inbound.connections[id]? = some ⟨addr, authed, .accepted, closed⟩)
    (free : ∀ other ∈ inbound.connections, other.phase.enrolled = true → other.addr ≠ addr)
    (consistent : setup.isJls = false → authed = none) :
    Registered setup { inbound with
      conns := inbound.conns.insert addr (id, none)
      connections := inbound.connections.set id
        ⟨addr, authed, if setup.isJls then .identify else .waiting, closed⟩ } := by
  have phase : (if setup.isJls then HandlerPhase.identify else .waiting).enrolled = true ∧
      (if setup.isJls then HandlerPhase.identify else .waiting).bound = none := by
    cases setup.isJls <;> exact ⟨rfl, rfl⟩
  refine registered.move found rfl (fun _ same => same) ?_
    (fun other differs => AList.lookup_insert_ne differs) ?_ ?_ ?_
  · intro other second present _
    exact free second (List.mem_of_getElem? present)
  · intro other user entry
    rw [AList.lookup_insert] at entry
    cases entry
    exact ⟨rfl, phase.1, fun some_user => absurd rfl some_user⟩
  · intro _ _
    apply Or.inl
    simp only [AList.lookup_insert, phase.2]
  · rw [QuicConn.Consistent]
    cases jls : setup.isJls with
    | true => trivial
    | false => exact consistent jls

theorem leave {conns : AList fun _ : SocketAddr => Nat × Option String}
    (registered : Registered setup inbound) (found : inbound.connections[id]? = some conn)
    (enrolled : conn.phase.enrolled = true)
    (acted : (if conn.closed then some (inbound.conns, { conn with phase := .cleanup })
      else none) = some (conns, moved)) :
    Registered setup
      { inbound with conns := conns, connections := inbound.connections.set id moved } := by
  split at acted
  · rename_i shut
    cases acted
    exact registered.keep found rfl (fun _ same => same) enrolled.symm
      (fun running => absurd (shut.symm.trans running) Bool.noConfusion) (Or.inr shut)
  · cases acted

theorem handled_next {conns : AList fun _ : SocketAddr => Nat × Option String}
    (registered : Registered setup inbound) (found : inbound.connections[id]? = some conn)
    (undisturbed : Undisturbed inbound (.handle id .next))
    (acted : handle setup inbound id conn .next = some (conns, moved)) :
    Registered setup
      { inbound with conns := conns, connections := inbound.connections.set id moved } := by
  have consistent := registered.consistent conn (List.mem_of_getElem? found)
  have others := undisturbed conn found
  obtain ⟨addr, authed, phase, closed⟩ := conn
  cases phase with
  | accepted =>
      cases acted
      exact registered.register found (others rfl) consistent
  | identify => cases acted
  | bindJls user =>
      cases user with
      | none =>
          cases acted
          exact registered.keep found rfl (fun _ same => same) rfl
            (fun running => ⟨running, rfl⟩) fun some_user => absurd rfl some_user
      | some name =>
          cases acted
          exact registered.bind found rfl consistent
  | waiting => exact registered.leave found rfl acted
  | bind user =>
      cases acted
      exact registered.bind found rfl consistent
  | serving user => exact registered.leave found rfl acted
  | cleanup =>
      cases acted
      refine registered.move found rfl (fun _ same => same)
        (registered.alone_of_enrolled found rfl)
        (fun other differs => AList.lookup_erase_ne differs) ?_ (fun inside => ?_) consistent
      · intro other user entry
        rw [AList.lookup_erase] at entry
        cases entry
      · cases inside
  | close =>
      cases acted
      exact registered.keep found rfl (fun _ same => same) rfl
        (fun running => by cases running) (Or.inr rfl)
  | ended => cases acted

theorem handled {conns : AList fun _ : SocketAddr => Nat × Option String} {choice : HandlerChoice}
    (registered : Registered setup inbound) (found : inbound.connections[id]? = some conn)
    (undisturbed : Undisturbed inbound (.handle id choice))
    (acted : handle setup inbound id conn choice = some (conns, moved)) :
    Registered setup
      { inbound with conns := conns, connections := inbound.connections.set id moved } := by
  have consistent := registered.consistent conn (List.mem_of_getElem? found)
  cases choice with
  | next => exact registered.handled_next found undisturbed acted
  | account known =>
      obtain ⟨addr, authed, phase, closed⟩ := conn
      cases phase with
      | identify =>
          cases acted
          refine registered.keep found rfl (fun _ same => same) rfl
            (fun running => ⟨running, rfl⟩) ?_
          intro some_user
          cases known with
          | true => rfl
          | false => exact absurd rfl some_user
      | _ => cases acted
  | auth received observed =>
      obtain ⟨addr, authed, phase, closed⟩ := conn
      cases phase with
      | waiting =>
          have stranger : authed = none := consistent
          simp only [handle] at acted
          split at acted
          · cases acted
            exact registered.keep found rfl (fun _ same => same) rfl
              (fun running => ⟨running, rfl⟩) (Or.inl stranger)
          · cases acted
            refine registered.keep found rfl ?_ rfl (fun running => ⟨running, rfl⟩) ?_
            · intro name same
              rw [stranger] at same
              cases same
            · intro some_user
              cases observed with
              | none => exact absurd rfl some_user
              | some name => rfl
      | _ => cases acted
  | unread =>
      obtain ⟨addr, authed, phase, closed⟩ := conn
      cases phase with
      | waiting =>
          cases acted
          exact registered.keep found rfl (fun _ same => same) rfl
            (fun running => ⟨running, rfl⟩) (Or.inl consistent)
      | _ => cases acted

theorem close (registered : Registered setup inbound) (id : Nat) :
    Registered setup { inbound with connections := shutConn inbound.connections id } := by
  rw [shutConn]
  split
  · rename_i conn found
    have consistent := registered.consistent conn (List.mem_of_getElem? found)
    refine registered.keep found rfl (fun _ same => same) rfl (fun running => by cases running) ?_
    obtain ⟨addr, authed, phase, closed⟩ := conn
    cases phase with
    | cleanup => exact Or.inr rfl
    | close => exact Or.inr rfl
    | ended => exact Or.inr rfl
    | _ => exact consistent
  · exact registered

section Removals

variable {removal later : Removal shards} {index : Nat}

theorem pass (registered : Registered setup inbound)
    (found : inbound.removals[index]? = some removal)
    (before : removal.phase.target = none) (after : later.phase.target = none)
    (users : List AuthUser) :
    Registered setup { inbound with
      users := users
      removals := inbound.removals.set index later } := by
  refine ⟨registered.apart, registered.entry, ?_, registered.consistent, ?_⟩
  · intro id conn present enrolled running
    apply (registered.listed id conn present enrolled running).imp_right
    intro given
    obtain ⟨other, member, phase⟩ := given
    refine ⟨other, Pool.mem_set_of_ne found member ?_, phase⟩
    intro equal
    subst equal
    cases before.symm.trans phase
  · intro other member id phase
    rcases List.mem_or_eq_of_mem_set member with earlier | rfl
    · exact registered.shut other earlier id phase
    · cases after.symm.trans phase

theorem take {addr : SocketAddr} {rest : List SocketAddr} {user : Option String}
    (registered : Registered setup inbound)
    (found : inbound.removals[index]? = some removal)
    (before : removal.phase = .take (addr :: rest))
    (entry : inbound.conns.lookup addr = some (id, user)) (own : user = some removal.username) :
    Registered setup { inbound with
      conns := inbound.conns.erase addr
      removals := inbound.removals.set index { removal with phase := .shut id rest } } := by
  have new : { removal with phase := RemovalPhase.shut id rest } ∈
      inbound.removals.set index { removal with phase := .shut id rest } := by
    refine List.mem_iff_getElem?.mpr ⟨index, ?_⟩
    rw [Pool.getElem?_set_of_some found, if_pos rfl]
  refine ⟨registered.apart, ?_, ?_, registered.consistent, ?_⟩
  · intro other who name present
    have differs : other ≠ addr := by
      intro equal
      subst equal
      rw [AList.lookup_erase] at present
      cases present
    rw [AList.lookup_erase_ne differs] at present
    exact registered.entry other who name present
  · intro who conn present enrolled running
    by_cases here : conn.addr = addr
    · rcases registered.listed who conn present enrolled running with listed | closing
      · rw [here, entry] at listed
        cases listed
        exact Or.inr ⟨_, new, rfl⟩
      · obtain ⟨other, member, phase⟩ := closing
        refine Or.inr ⟨other, Pool.mem_set_of_ne found member ?_, phase⟩
        intro equal
        subst equal
        rw [before] at phase
        cases phase
    · simp only [AList.lookup_erase_ne here]
      apply (registered.listed who conn present enrolled running).imp_right
      intro given
      obtain ⟨other, member, phase⟩ := given
      refine ⟨other, Pool.mem_set_of_ne found member ?_, phase⟩
      intro equal
      subst equal
      rw [before] at phase
      cases phase
  · intro other member who phase
    rcases List.mem_or_eq_of_mem_set member with earlier | rfl
    · exact registered.shut other earlier who phase
    · cases phase
      obtain ⟨conn, present, -, -, authed⟩ := registered.entry addr id user entry
      refine ⟨conn, present, ?_⟩
      rw [authed (by rw [own]; exact Option.some_ne_none _), own]

theorem closeTaken {rest : List SocketAddr} (registered : Registered setup inbound)
    (found : inbound.removals[index]? = some removal) (before : removal.phase = .shut id rest) :
    Registered setup { inbound with
      connections := shutConn inbound.connections id
      removals := inbound.removals.set index { removal with phase := .take rest } } := by
  have closed := registered.close id
  refine ⟨closed.apart, closed.entry, ?_, closed.consistent, ?_⟩
  · intro who conn present enrolled running
    apply (closed.listed who conn present enrolled running).imp_right
    intro given
    obtain ⟨other, member, phase⟩ := given
    refine ⟨other, Pool.mem_set_of_ne found member ?_, phase⟩
    intro equal
    subst equal
    rw [before] at phase
    cases phase
    rw [getElem?_shutConn] at present
    obtain ⟨old, -, rfl⟩ := Option.map_eq_some_iff.mp present
    simp at running
  · intro other member who phase
    rcases List.mem_or_eq_of_mem_set member with earlier | rfl
    · exact closed.shut other earlier who phase
    · cases phase

end Removals

theorem listed_of_authed {name : String} (registered : Registered setup inbound)
    (found : inbound.connections[id]? = some conn) (authed : conn.authed = some name)
    (running : conn.closed = false) :
    conn.phase = .accepted ∨ (∃ user, inbound.conns.lookup conn.addr = some (id, user)) ∨
      inbound.Shutting id := by
  have consistent := registered.consistent conn (List.mem_of_getElem? found)
  by_cases enrolled : conn.phase.enrolled = true
  · refine Or.inr ((registered.listed id conn found enrolled running).imp_left fun entry => ?_)
    exact ⟨_, entry⟩
  · obtain ⟨addr, own, phase, closed⟩ := conn
    cases authed
    cases running
    cases phase with
    | accepted => exact Or.inl rfl
    | close => exact absurd consistent (by simp [QuicConn.Consistent])
    | ended => exact absurd consistent (by simp [QuicConn.Consistent])
    | _ => exact absurd rfl enrolled

theorem proceeded {removal later : Removal shards} {index : Nat} {fault : Option String}
    (registered : Registered setup inbound) (found : inbound.removals[index]? = some removal)
    (undisturbed : Undisturbed inbound (.proceed index fault))
    (acted : proceed setup inbound removal fault = some (next, later)) :
    Registered setup { next with removals := next.removals.set index later } := by
  have taken := undisturbed removal found
  obtain ⟨username, phase⟩ := removal
  cases phase with
  | load =>
      cases acted
      exact registered.pass found rfl rfl _
  | store users =>
      cases acted
      exact registered.pass found rfl rfl _
  | updateJls =>
      simp only [proceed] at acted
      split at acted
      · cases acted
        exact registered.pass found rfl rfl _
      · cases acted
        exact registered.pass found rfl rfl _
  | collect left stale =>
      cases left with
      | nil =>
          cases acted
          exact registered.pass found rfl rfl _
      | cons index left =>
          cases acted
          exact registered.pass found rfl rfl _
  | take stale =>
      cases stale with
      | nil =>
          cases acted
          exact registered.pass found rfl rfl _
      | cons addr rest =>
          simp only [proceed] at acted
          split at acted
          · rename_i id user entry
            cases acted
            exact registered.take found rfl entry (taken (id, user) entry)
          · cases acted
            exact registered.pass found rfl rfl _
  | shut id rest =>
      cases acted
      exact registered.closeTaken found rfl
  | returned error => cases acted

theorem step (registered : Registered setup inbound) (undisturbed : Undisturbed inbound event)
    (taken : step setup inbound event = some next) : Registered setup next := by
  cases event with
  | accept addr chosen =>
      cases taken
      apply registered.accept rfl
      intro plain
      simp [plain]
  | lost id =>
      cases taken
      exact registered.close id
  | handle id choice =>
      obtain ⟨conn, found, mapped⟩ := Option.bind_eq_some_iff.mp taken
      obtain ⟨⟨conns, moved⟩, acted, rfl⟩ := Option.map_eq_some_iff.mp mapped
      exact registered.handled found undisturbed acted
  | remove username =>
      cases taken
      refine ⟨registered.apart, registered.entry, ?_, registered.consistent, ?_⟩
      · intro id conn found enrolled running
        apply (registered.listed id conn found enrolled running).imp_right
        intro given
        obtain ⟨removal, member, rest⟩ := given
        exact ⟨removal, List.mem_append_left _ member, rest⟩
      · apply Pool.forall_start registered.shut
        intro id phase
        cases phase
  | proceed index fault =>
      obtain ⟨removal, found, mapped⟩ := Option.bind_eq_some_iff.mp taken
      obtain ⟨⟨changed, later⟩, acted, rfl⟩ := Option.map_eq_some_iff.mp mapped
      exact registered.proceeded found undisturbed acted

end Registered

/-! One removal. -/

/-- Where the removal still finds the connection. -/
def Pursued (setup : ShadowquicSetup shards) (id : Nat) (addr : SocketAddr) :
    RemovalPhase shards → Prop
  | .load | .store _ | .updateJls => True
  | .collect left stale => setup.shard addr ∈ left ∨ addr ∈ stale
  | .take stale => addr ∈ stale
  | .shut target stale => target = id ∨ addr ∈ stale
  | .returned error => error ≠ none

/-- The removal at `index` reaches every connection among the targets that is
still open, and no other removal of the user is under way. -/
structure Chasing (setup : ShadowquicSetup shards) (username : String) (index : Nat)
    (targets : Nat → Prop) (phase : RemovalPhase shards) (inbound : ShadowquicInbound shards) :
    Prop where
  found : inbound.removals[index]? = some ⟨username, phase⟩
  alone : phase.running = true → ∀ other removal, inbound.removals[other]? = some removal →
    other ≠ index → removal.username = username → removal.phase.running = false
  reached : ∀ id, targets id → ∃ conn, inbound.connections[id]? = some conn ∧
    (conn.closed = true ∨
      conn.phase = .serving (some username) ∧ Pursued setup id conn.addr phase)

/-- What an operation of a removal leaves alone. -/
structure ProceedEffect (inbound next : ShadowquicInbound shards) (removal later : Removal shards) :
    Prop where
  running : removal.phase.running = true
  removals : next.removals = inbound.removals
  username : later.username = removal.username
  connections : next.connections = inbound.connections ∨ ∃ target,
    removal.phase.target = some target ∧
      next.connections = shutConn inbound.connections target

theorem effect_of_proceed {removal later : Removal shards} {fault : Option String}
    (acted : proceed setup inbound removal fault = some (next, later)) :
    ProceedEffect inbound next removal later := by
  obtain ⟨username, phase⟩ := removal
  cases phase with
  | load =>
      cases acted
      exact ⟨rfl, rfl, rfl, Or.inl rfl⟩
  | store users =>
      cases acted
      exact ⟨rfl, rfl, rfl, Or.inl rfl⟩
  | updateJls =>
      simp only [proceed] at acted
      split at acted <;> (cases acted; exact ⟨rfl, rfl, rfl, Or.inl rfl⟩)
  | collect left stale =>
      cases left <;> (cases acted; exact ⟨rfl, rfl, rfl, Or.inl rfl⟩)
  | take stale =>
      cases stale with
      | nil =>
          cases acted
          exact ⟨rfl, rfl, rfl, Or.inl rfl⟩
      | cons addr rest =>
          simp only [proceed] at acted
          split at acted <;> (cases acted; exact ⟨rfl, rfl, rfl, Or.inl rfl⟩)
  | shut target rest =>
      cases acted
      exact ⟨rfl, rfl, rfl, Or.inr ⟨target, rfl, rfl⟩⟩
  | returned error => cases acted

section Handler

variable {choice : HandlerChoice} {conns : AList fun _ : SocketAddr => Nat × Option String}

theorem closed_of_handle (acted : handle setup inbound id conn choice = some (conns, moved))
    (shut : conn.closed = true) : moved.closed = true := by
  obtain ⟨addr, authed, phase, closed⟩ := conn
  cases choice <;> cases phase <;> grind [handle]

theorem closed_of_serving {user : Option String}
    (acted : handle setup inbound id conn choice = some (conns, moved))
    (serving : conn.phase = .serving user) : conn.closed = true := by
  cases choice with
  | next =>
      simp only [handle, serving] at acted
      split at acted
      · assumption
      · cases acted
  | account known => simp [handle, serving] at acted
  | auth received observed => simp [handle, serving] at acted
  | unread => simp [handle, serving] at acted

end Handler

namespace Chasing

variable {index : Nat} {targets : Nat → Prop} {phase : RemovalPhase shards}

theorem listed (chasing : Chasing setup username index targets phase inbound)
    (registered : Registered setup inbound) (active : phase.running = true)
    (idle : phase.target = none) (present : inbound.connections[id]? = some conn)
    (serving : conn.phase = .serving (some username)) (opened : conn.closed = false) :
    inbound.conns.lookup conn.addr = some (id, some username) := by
  have enrolled : conn.phase.enrolled = true := by
    rw [serving]
    rfl
  have authed : conn.authed = some username := by
    have consistent := registered.consistent conn (List.mem_of_getElem? present)
    rw [QuicConn.Consistent, serving] at consistent
    exact consistent (Option.some_ne_none _)
  rcases registered.listed id conn present enrolled opened with entry | ⟨removal, member, shuts⟩
  · rw [entry, serving]
    rfl
  · -- The other removal would be one of the same user.
    obtain ⟨same, present', owner⟩ := registered.shut removal member id shuts
    cases present.symm.trans present'
    rw [authed] at owner
    obtain ⟨place, at_place⟩ := List.mem_iff_getElem?.mp member
    have differs : place ≠ index := by
      intro equal
      subst equal
      rw [chasing.found] at at_place
      cases at_place
      rw [idle] at shuts
      cases shuts
    have stopped := chasing.alone active place removal at_place differs (Option.some.inj owner).symm
    obtain ⟨name, their⟩ := removal
    cases their with
    | shut target rest => cases stopped
    | _ => cases shuts

theorem connections (chasing : Chasing setup username index targets phase inbound)
    (found : next.removals[index]? = some ⟨username, phase⟩)
    (alone : phase.running = true → ∀ other removal, next.removals[other]? = some removal →
      other ≠ index → removal.username = username → removal.phase.running = false)
    (kept : ∀ (id : Nat) (conn : QuicConn), inbound.connections[id]? = some conn →
      (conn.closed = true ∨ conn.phase = .serving (some username)) →
        ∃ now, next.connections[id]? = some now ∧
          (now.closed = true ∨ now = conn)) :
    Chasing setup username index targets phase next := by
  refine ⟨found, alone, fun id target => ?_⟩
  obtain ⟨conn, present, state⟩ := chasing.reached id target
  obtain ⟨now, there, shut | rfl⟩ := kept id conn present (state.imp_right And.left)
  · exact ⟨now, there, Or.inl shut⟩
  · exact ⟨now, there, state⟩

theorem kept_shutConn (target : Nat) (id : Nat) (conn : QuicConn)
    (present : inbound.connections[id]? = some conn) :
    ∃ now, (shutConn inbound.connections target)[id]? = some now ∧
      (now.closed = true ∨ now = conn) := by
  rw [getElem?_shutConn, present, Option.map_some]
  by_cases same : id = target
  · exact ⟨_, rfl, Or.inl (by rw [if_pos same])⟩
  · exact ⟨_, rfl, Or.inr (if_neg same)⟩

theorem handled {choice : HandlerChoice} {conns : AList fun _ : SocketAddr => Nat × Option String}
    (chasing : Chasing setup username index targets phase inbound)
    (found : inbound.connections[id]? = some conn)
    (acted : handle setup inbound id conn choice = some (conns, moved)) :
    Chasing setup username index targets phase
      { inbound with conns := conns, connections := inbound.connections.set id moved } := by
  refine chasing.connections chasing.found chasing.alone ?_
  intro other second present state
  by_cases same : other = id
  · subst same
    cases found.symm.trans present
    refine ⟨moved, by rw [Pool.getElem?_set_of_some found, if_pos rfl], Or.inl ?_⟩
    exact closed_of_handle acted (state.elim id fun serving => closed_of_serving acted serving)
  · exact ⟨second, by rw [Pool.getElem?_set_of_some found, if_neg same, present], Or.inr rfl⟩

theorem others {other : Nat} {removal later : Removal shards} {fault : Option String}
    (chasing : Chasing setup username index targets phase inbound) (differs : other ≠ index)
    (found : inbound.removals[other]? = some removal)
    (acted : proceed setup inbound removal fault = some (next, later)) :
    Chasing setup username index targets phase
      { next with removals := next.removals.set other later } := by
  have effect := effect_of_proceed acted
  refine chasing.connections ?_ ?_ ?_
  · simp only [effect.removals]
    rw [Pool.getElem?_set_of_some found, if_neg (Ne.symm differs), chasing.found]
  · intro active third removal' present elsewhere same
    simp only [effect.removals] at present
    rw [Pool.getElem?_set_of_some found] at present
    split at present
    · rename_i moving
      cases present
      have stopped := chasing.alone active other removal found differs (effect.username ▸ same)
      rw [effect.running] at stopped
      cases stopped
    · exact chasing.alone active third removal' present elsewhere same
  · intro id conn present _
    rcases effect.connections with kept | ⟨target, -, closed⟩
    · exact ⟨conn, by rw [kept, present], Or.inr rfl⟩
    · simp only [closed]
      exact kept_shutConn target id conn present

/-- The removal itself moves on to a phase in which it still finds what is
open. -/
theorem advance {later : RemovalPhase shards}
    (chasing : Chasing setup username index targets phase inbound)
    (active : phase.running = true) (removals : next.removals = inbound.removals)
    (reached : ∀ id, targets id → ∃ conn, next.connections[id]? = some conn ∧
      (conn.closed = true ∨
        conn.phase = .serving (some username) ∧ Pursued setup id conn.addr later)) :
    Chasing setup username index targets later
      { next with removals := next.removals.set index ⟨username, later⟩ } := by
  refine ⟨?_, ?_, reached⟩
  · simp only [removals]
    rw [Pool.getElem?_set_of_some chasing.found, if_pos rfl]
  · intro _ other removal present differs same
    simp only [removals] at present
    rw [Pool.getElem?_set_of_some chasing.found, if_neg differs] at present
    exact chasing.alone active other removal present differs same

theorem pass {later : RemovalPhase shards}
    (chasing : Chasing setup username index targets phase inbound)
    (active : phase.running = true) (removals : next.removals = inbound.removals)
    (connections : next.connections = inbound.connections)
    (pursued : ∀ id conn, inbound.connections[id]? = some conn → conn.closed = false →
      conn.phase = .serving (some username) → Pursued setup id conn.addr phase →
        Pursued setup id conn.addr later) :
    Chasing setup username index targets later
      { next with removals := next.removals.set index ⟨username, later⟩ } := by
  apply chasing.advance active removals
  intro id target
  obtain ⟨conn, present, state⟩ := chasing.reached id target
  refine ⟨conn, by rw [connections, present], ?_⟩
  by_cases shut : conn.closed = true
  · exact Or.inl shut
  · obtain ⟨serving, here⟩ := state.resolve_left shut
    exact Or.inr ⟨serving, pursued id conn present (eq_false_of_ne_true shut) serving here⟩

section Own

variable {later : Removal shards} {fault : Option String}

theorem collect {shard : Fin shards} {left : List (Fin shards)} {stale : List SocketAddr}
    (chasing : Chasing setup username index targets (.collect (shard :: left) stale) inbound)
    (registered : Registered setup inbound)
    (acted : proceed setup inbound ⟨username, .collect (shard :: left) stale⟩ fault =
      some (next, later)) :
    Chasing setup username index targets later.phase
      { next with removals := next.removals.set index later } := by
  cases acted
  refine chasing.pass rfl rfl rfl fun id conn present opened serving here => ?_
  have entry := chasing.listed registered rfl rfl present serving opened
  rcases here with waiting | taken
  · rcases List.mem_cons.mp waiting with now | later
    · refine Or.inr (List.mem_append_right _ (List.mem_map.mpr
        ⟨⟨conn.addr, (id, some username)⟩, List.mem_filter.mpr ⟨?_, ?_⟩, rfl⟩))
      · exact AList.mem_lookup_iff.mp entry
      · simp [now]
    · exact Or.inl later
  · exact Or.inr (List.mem_append_left _ taken)

theorem take {addr : SocketAddr} {rest : List SocketAddr}
    (chasing : Chasing setup username index targets (.take (addr :: rest)) inbound)
    (registered : Registered setup inbound)
    (acted : proceed setup inbound ⟨username, .take (addr :: rest)⟩ fault = some (next, later)) :
    Chasing setup username index targets later.phase
      { next with removals := next.removals.set index later } := by
  have entry : ∀ id conn, inbound.connections[id]? = some conn → conn.closed = false →
      conn.phase = .serving (some username) → conn.addr = addr →
        inbound.conns.lookup addr = some (id, some username) := by
    intro id conn present opened serving same
    rw [← same]
    exact chasing.listed registered rfl rfl present serving opened
  simp only [proceed] at acted
  split at acted
  · rename_i target user found
    cases acted
    refine chasing.pass rfl rfl rfl fun id conn present opened serving here => ?_
    rcases List.mem_cons.mp here with now | later
    · have same := entry id conn present opened serving now
      rw [found] at same
      cases same
      exact Or.inl rfl
    · exact Or.inr later
  · rename_i missing
    cases acted
    refine chasing.pass rfl rfl rfl fun id conn present opened serving here => ?_
    rcases List.mem_cons.mp here with now | later
    · have same := entry id conn present opened serving now
      rw [missing] at same
      cases same
    · exact later

theorem own (chasing : Chasing setup username index targets phase inbound)
    (registered : Registered setup inbound)
    (acted : proceed setup inbound ⟨username, phase⟩ fault = some (next, later)) :
    Chasing setup username index targets later.phase
      { next with removals := next.removals.set index later } := by
  cases phase with
  | load =>
      cases acted
      exact chasing.pass rfl rfl rfl fun _ _ _ _ _ _ => trivial
  | store users =>
      cases acted
      exact chasing.pass rfl rfl rfl fun _ _ _ _ _ _ => trivial
  | updateJls =>
      simp only [proceed] at acted
      split at acted
      · cases acted
        exact chasing.pass rfl rfl rfl fun _ _ _ _ _ _ => Option.some_ne_none _
      · cases acted
        exact chasing.pass rfl rfl rfl fun _ _ _ _ _ _ => Or.inl (List.mem_finRange _)
  | collect left stale =>
      cases left with
      | nil =>
          cases acted
          exact chasing.pass rfl rfl rfl fun _ _ _ _ _ here =>
            here.resolve_left List.not_mem_nil
      | cons shard left =>
          exact chasing.collect registered acted
  | take stale =>
      cases stale with
      | nil =>
          cases acted
          exact chasing.pass rfl rfl rfl fun _ _ _ _ _ here => absurd here List.not_mem_nil
      | cons addr rest =>
          exact chasing.take registered acted
  | shut target rest =>
      cases acted
      refine chasing.advance rfl rfl fun id wanted => ?_
      obtain ⟨conn, present, state⟩ := chasing.reached id wanted
      simp only [getElem?_shutConn, present, Option.map_some]
      refine ⟨_, rfl, ?_⟩
      by_cases same : id = target
      · rw [if_pos same]
        exact Or.inl rfl
      · rw [if_neg same]
        refine state.imp_right (And.imp_right fun here => ?_)
        exact here.resolve_left fun other => same other.symm
  | returned error => cases acted

end Own

theorem step (chasing : Chasing setup username index targets phase inbound)
    (registered : Registered setup inbound) (undisturbed : Undisturbed inbound event)
    (taken : step setup inbound event = some next) :
    ∃ later, Chasing setup username index targets later next := by
  cases event with
  | accept addr chosen =>
      cases taken
      refine ⟨phase, chasing.connections chasing.found chasing.alone ?_⟩
      exact fun id conn present _ => ⟨conn, Pool.getElem?_start present, Or.inr rfl⟩
  | lost target =>
      cases taken
      refine ⟨phase, chasing.connections chasing.found chasing.alone ?_⟩
      exact fun id conn present _ => kept_shutConn target id conn present
  | handle id choice =>
      obtain ⟨conn, found, mapped⟩ := Option.bind_eq_some_iff.mp taken
      obtain ⟨⟨conns, moved⟩, acted, rfl⟩ := Option.map_eq_some_iff.mp mapped
      exact ⟨phase, chasing.handled found acted⟩
  | remove name =>
      cases taken
      refine ⟨phase, chasing.connections (Pool.getElem?_start chasing.found) ?_
        fun id conn present _ => ⟨conn, present, Or.inr rfl⟩⟩
      intro active other removal present differs same
      rcases Pool.getElem?_concat_cases present with earlier | ⟨-, rfl⟩
      · exact chasing.alone active other removal earlier differs same
      · -- The new removal would be one of the same user.
        cases same
        have stopped := undisturbed.2 _ (List.mem_of_getElem? chasing.found) rfl
        cases active.symm.trans stopped
  | proceed other fault =>
      obtain ⟨removal, found, mapped⟩ := Option.bind_eq_some_iff.mp taken
      obtain ⟨⟨changed, later⟩, acted, rfl⟩ := Option.map_eq_some_iff.mp mapped
      by_cases same : other = index
      · subst same
        cases chasing.found.symm.trans found
        exact ⟨later.phase, chasing.own registered acted⟩
      · exact ⟨phase, chasing.others same found acted⟩

theorem start (undisturbed : Undisturbed inbound (.remove username)) :
    Chasing setup username inbound.removals.length
      (fun id => ∃ conn, inbound.connections[id]? = some conn ∧ conn.authed = some username)
      .load { inbound with removals := inbound.removals ++ [⟨username, .load⟩] } := by
  refine ⟨List.getElem?_concat_length, ?_, ?_⟩
  · intro _ other removal present differs same
    rcases Pool.getElem?_concat_cases present with earlier | ⟨last, -⟩
    · exact undisturbed.2 removal (List.mem_of_getElem? earlier) same
    · exact absurd last differs
  · intro id given
    obtain ⟨conn, present, authed⟩ := given
    refine ⟨conn, present, ?_⟩
    by_cases shut : conn.closed = true
    · exact Or.inl shut
    · exact Or.inr ⟨undisturbed.1 conn (List.mem_of_getElem? present) authed
        (eq_false_of_ne_true shut), trivial⟩

end Chasing

variable {first rest : List ShadowquicEvent} {users : List AuthUser}

theorem registered_run (calm : Machine.Within (step setup) Undisturbed (opened users) first)
    (ran : Machine.run (step setup) (opened users) first = some final) :
    Registered setup final :=
  Machine.run_within_invariant (Registered setup) Registered.step (registered_opened users) calm ran

/-- Over any order of accepts, authentications, ends and removals in which no
connection is registered over another one of its address, no removal starts
before the connections of its user are bound or while another removal of that
user runs, and none takes a connection of somebody else: once a removal has
returned, every connection that had authenticated as its user when it started
is closed; and an open connection that has authenticated is in the registry,
unless its handler has not registered it yet or a removal is about to close
it. -/
theorem revoked_closed (setup : ShadowquicSetup shards)
    (begun : Machine.run (step setup) (opened users) first = some middle)
    (ran : Machine.run (step setup) middle (.remove username :: rest) = some final)
    (calm : Machine.Within (step setup) Undisturbed (opened users) first)
    (calm_after : Machine.Within (step setup) Undisturbed middle (.remove username :: rest)) :
    (final.removals[middle.removals.length]? = some ⟨username, .returned none⟩ →
      ∀ (id : Nat) (conn : QuicConn), middle.connections[id]? = some conn →
        conn.authed = some username →
          ∃ now, final.connections[id]? = some now ∧ now.closed = true) ∧
      ∀ (id : Nat) (conn : QuicConn) (name : String), final.connections[id]? = some conn →
        conn.authed = some name → conn.closed = false →
          conn.phase = .accepted ∨ (∃ user, final.conns.lookup conn.addr = some (id, user)) ∨
            final.Shutting id := by
  have registered := registered_run calm begun
  obtain ⟨started, taken, ran⟩ := Machine.run_cons ran
  cases taken
  have both : Registered setup final ∧ ∃ phase, Chasing setup username middle.removals.length
      (fun id => ∃ conn, middle.connections[id]? = some conn ∧ conn.authed = some username)
      phase final := by
    refine Machine.run_within_invariant (fun inbound => Registered setup inbound ∧
      ∃ phase, Chasing setup username middle.removals.length (fun id => ∃ conn,
        middle.connections[id]? = some conn ∧ conn.authed = some username) phase inbound)
      ?_ ⟨registered.step calm_after.1 rfl, .load, Chasing.start calm_after.1⟩
      (calm_after.2 _ rfl) ran
    intro inbound event next given undisturbed taken
    obtain ⟨here, phase, chasing⟩ := given
    exact ⟨here.step undisturbed taken, chasing.step here undisturbed taken⟩
  obtain ⟨registered, phase, chasing⟩ := both
  refine ⟨?_, ?_⟩
  · intro completed id conn present authed
    cases chasing.found.symm.trans completed
    obtain ⟨now, there, shut | ⟨-, pursued⟩⟩ := chasing.reached id ⟨conn, present, authed⟩
    · exact ⟨now, there, shut⟩
    · exact absurd rfl pursued
  · exact fun id conn name => registered.listed_of_authed

def peer : SocketAddr := .v4 ⟨192, 0, 2, 7⟩ 4433

/-- One shard, and peers that send their hash. -/
def sunny : ShadowquicSetup 1 := ⟨knownHashes, false, fun _ => 0⟩

/-- A connection that authenticates as `alice` and is bound to it. -/
def alice : List ShadowquicEvent :=
  [.accept peer none, .handle 0 .next, .handle 0 (.auth [] (some "alice")), .handle 0 .next]

/-- A second connection from the same address is registered. -/
def second : List ShadowquicEvent := [.accept peer none, .handle 1 .next]

def removeAlice : List ShadowquicEvent :=
  [.proceed 0 none, .proceed 0 none, .proceed 0 none, .proceed 0 none, .proceed 0 none,
    .proceed 0 none]

theorem second_not_closed :
    ∃ middle final, Machine.run (step sunny) (opened []) (alice ++ second) = some middle ∧
      middle.connections[0]? = some ⟨peer, some "alice", .serving (some "alice"), false⟩ ∧
      Machine.run (step sunny) middle (.remove "alice" :: removeAlice) = some final ∧
      final.removals[0]? = some ⟨"alice", .returned none⟩ ∧
      final.connections[0]? = some ⟨peer, some "alice", .serving (some "alice"), false⟩ ∧
      final.conns.lookup peer = some (1, none) :=
  ⟨_, _, rfl, by decide +kernel, rfl, by decide +kernel, by decide +kernel, by decide +kernel⟩

instance (inbound : ShadowquicInbound shards) :
    (event : ShadowquicEvent) → Decidable (Undisturbed inbound event)
  | .handle id _ => inferInstanceAs (Decidable (∀ conn ∈ inbound.connections[id]?,
      conn.phase = .accepted → ∀ other ∈ inbound.connections,
        other.phase.enrolled = true → other.addr ≠ conn.addr))
  | .remove username => inferInstanceAs (Decidable (
      (∀ conn ∈ inbound.connections, conn.authed = some username → conn.closed = false →
        conn.phase = .serving (some username)) ∧
      ∀ removal ∈ inbound.removals, removal.username = username →
        removal.phase.running = false))
  | .proceed index _ => inferInstanceAs (Decidable (∀ removal ∈ inbound.removals[index]?,
      ∀ entry ∈ inbound.facing removal, entry.2 = some removal.username))
  | .accept _ _ | .lost _ => isTrue trivial

/-- Without the second connection the removal takes the first one out and closes
it. -/
theorem alice_closed :
    ∃ middle final, Machine.run (step sunny) (opened []) alice = some middle ∧
      Machine.run (step sunny) middle
        (.remove "alice" :: removeAlice ++ [.proceed 0 none, .proceed 0 none]) = some final ∧
      ∃ now, final.connections[0]? = some now ∧ now.closed = true := by
  have reached : ∃ middle final, Machine.run (step sunny) (opened []) alice = some middle ∧
      Machine.run (step sunny) middle (.remove "alice" :: removeAlice ++
        [.proceed 0 none, .proceed 0 none]) = some final ∧
      Machine.Within (step sunny) Undisturbed middle (.remove "alice" :: removeAlice ++
        [.proceed 0 none, .proceed 0 none]) ∧
      middle.connections[0]? = some ⟨peer, some "alice", .serving (some "alice"), false⟩ ∧
      middle.removals.length = 0 ∧
      final.removals[0]? = some ⟨"alice", .returned none⟩ :=
    ⟨_, _, rfl, rfl, by decide +kernel, by decide +kernel, by decide +kernel, by decide +kernel⟩
  obtain ⟨middle, final, begun, ran, calm, authed, none_before, completed⟩ := reached
  have closed := (revoked_closed sunny begun ran (by decide +kernel) calm).1
  rw [none_before] at closed
  exact ⟨middle, final, begun, ran, closed completed 0 _ authed rfl⟩

end ShadowquicInbound

end QuicProxy
