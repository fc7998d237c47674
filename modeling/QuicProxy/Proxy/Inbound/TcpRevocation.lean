import QuicProxy.Data.Pool
import QuicProxy.Proxy.Inbound.TcpInbounds

namespace QuicProxy

/-! What is still dispatched after `Observer::remove_user` on the Trojan, AnyTLS
and VMess inbounds. -/

namespace Observer

theorem tracked_of_authenticate {observer : Observer} {tag name : String} {credential : Bytes}
    {order : List (Σ _ : String × String, Bytes)} (perm : order.Perm observer.userCreds.entries)
    (found : (observer.authenticate order tag credential).map Prod.fst = some name) :
    observer.Tracked tag credential name := by
  obtain ⟨⟨_, stats⟩, hit, rfl⟩ := Option.map_eq_some_iff.mp found
  obtain ⟨⟨⟨entryTag, entryName⟩, value⟩, first, known⟩ := Option.bind_eq_some_iff.mp hit
  obtain ⟨_, has, same⟩ := Option.map_eq_some_iff.mp known
  cases same
  have matching := List.find?_some first
  simp only [Bool.decide_and, Bool.and_eq_true, decide_eq_true_eq] at matching
  obtain ⟨rfl, rfl⟩ := matching
  refine ⟨AList.lookup_isSome.mp (Option.isSome_iff_exists.mpr ⟨_, has⟩), ?_⟩
  exact AList.mem_lookup_iff.mpr (perm.mem_iff.mp (List.mem_of_find?_eq_some first))

end Observer

/-- The server has no user, no credential and no entry that it had not before. -/
structure Server.Shrinks (server next : Server) : Prop where
  inbounds : ∀ (index : Nat) (inbound : String × ManagedInbound),
    next.inbounds[index]? = some inbound → ∃ old, server.inbounds[index]? = some old ∧
      inbound.1 = old.1 ∧ inbound.2.protocol = old.2.protocol ∧
        ∀ user ∈ inbound.2.users, user ∈ old.2.users
  knows : ∀ name, next.observer.Knows name → server.observer.Knows name
  tracked : ∀ tag credential name, next.observer.Tracked tag credential name →
    server.observer.Tracked tag credential name

theorem Server.Shrinks.refl (server : Server) : server.Shrinks server :=
  ⟨fun _ inbound found => ⟨inbound, found, rfl, rfl, fun _ member => member⟩, fun _ known => known,
    fun _ _ _ tracked => tracked⟩

/-- The inbound at the place has no user of that name. -/
def Server.Clean (server : Server) (username : String) (place : Nat) : Prop :=
  ∀ inbound, server.inbounds[place]? = some inbound → inbound.2.protocol.supportsUsers = true →
    ∀ user ∈ inbound.2.users, user.username ≠ username

theorem Server.Shrinks.clean {server next : Server} (shrinks : server.Shrinks next)
    {username : String} {place : Nat} (clean : server.Clean username place) :
    next.Clean username place := by
  intro inbound found supports user member
  obtain ⟨old, present, -, protocol, users⟩ := shrinks.inbounds place inbound found
  exact clean old present (protocol ▸ supports) user (users user member)

namespace RevocationPhase

/-- The removal has taken its user from the list of the inbound. -/
def Settled (place : Nat) : RevocationPhase → Prop
  | change left => place ∉ left
  | store inbound _ left => place ≠ inbound ∧ place ∉ left
  | removeStats | removePassword | collectCredentials | removeCredentials _ | deleteRecord
  | returned (.ok true) => True
  | checkKnown | returned (.ok false) | returned (.error _) => False

/-- The removal has taken its user from `user_stats`. -/
def Forgotten : RevocationPhase → Prop
  | removePassword | collectCredentials | removeCredentials _ | deleteRecord
  | returned (.ok true) => True
  | checkKnown | change _ | store .. | removeStats | returned (.ok false)
  | returned (.error _) => False

end RevocationPhase

namespace Revocation

/-- The list that is stored next is computed from the list that it replaces. -/
def Current (server : Server) (revocation : Revocation) : Prop :=
  match revocation.phase with
  | .store place users _ => ∀ inbound ∈ server.inbounds[place]?,
      users = withoutUser revocation.username inbound.2.users
  | _ => True

structure Purged (server : Server) (revocation : Revocation) : Prop where
  clean : ∀ place, revocation.phase.Settled place → server.Clean revocation.username place
  unknown : revocation.phase.Forgotten → ¬server.observer.Knows revocation.username

theorem Purged.shrink {server next : Server} {revocation : Revocation}
    (purged : revocation.Purged server) (shrinks : server.Shrinks next) :
    revocation.Purged next :=
  ⟨fun place settled => shrinks.clean (purged.clean place settled),
    fun forgotten known => purged.unknown forgotten (shrinks.knows _ known)⟩

end Revocation

namespace TcpInbounds

variable {hashes : Hashes} {state next middle completed final : TcpInbounds} {event : TcpEvent}
  {username tag : String} {credential : Bytes} {server changed : Server}
  {revocation later : Revocation} {fault : Option String}

/-- Every list that a removal stores is computed from the list that it
replaces. -/
def StoresCurrent (state : TcpInbounds) : TcpEvent → Prop
  | .proceed index _ => ∀ revocation ∈ state.revocations[index]?,
      revocation.Current state.server
  | _ => True

theorem getElem?_setUsers (index other : Nat) (users : List AuthUser)
    (inbounds : List (String × ManagedInbound)) :
    (setUsers index users inbounds)[other]? = (inbounds[other]?).map fun inbound =>
      if other = index then (inbound.1, { inbound.2 with users := users }) else inbound := by
  rw [setUsers, List.getElem?_modify]
  cases inbounds[other]? with
  | none => rfl
  | some inbound =>
      by_cases same : other = index
      · simp [same]
      · simp [same, Ne.symm same]

theorem not_mem_targets {inbounds : List (String × ManagedInbound)} {place : Nat}
    {inbound : String × ManagedInbound} (found : inbounds[place]? = some inbound)
    (missing : place ∉ targets inbounds) : inbound.2.protocol.supportsUsers ≠ true := by
  intro supports
  apply missing
  obtain ⟨bound, -⟩ := List.getElem?_eq_some_iff.mp found
  rw [targets, List.mem_filter, List.mem_range, found]
  exact ⟨bound, supports⟩

section Shrinks

variable {place : Nat} {users : List AuthUser}

theorem shrinks_setUsers
    (within : ∀ inbound ∈ server.inbounds[place]?, ∀ user ∈ users, user ∈ inbound.2.users) :
    server.Shrinks { server with inbounds := setUsers place users server.inbounds } := by
  refine ⟨?_, fun _ known => known, fun _ _ _ tracked => tracked⟩
  intro index inbound found
  simp only [getElem?_setUsers] at found
  obtain ⟨old, present, rfl⟩ := Option.map_eq_some_iff.mp found
  refine ⟨old, present, ?_⟩
  by_cases same : index = place
  · subst same
    rw [if_pos rfl]
    exact ⟨rfl, rfl, within old present⟩
  · rw [if_neg same]
    exact ⟨rfl, rfl, fun _ member => member⟩

theorem shrinks_observer {observer : Observer}
    (knows : ∀ name, observer.Knows name → server.observer.Knows name)
    (creds : ∀ key value, observer.userCreds.lookup key = some value →
      server.observer.userCreds.lookup key = some value) :
    server.Shrinks { server with observer := observer } :=
  ⟨fun _ inbound found => ⟨inbound, found, rfl, rfl, fun _ member => member⟩, knows,
    fun tag _ name tracked => ⟨knows name tracked.1, creds (tag, name) _ tracked.2⟩⟩

theorem shrinks_erase_stats (name : String) :
    server.Shrinks { server with observer := { server.observer with
      userStats := server.observer.userStats.erase name } } :=
  shrinks_observer (fun _ known => (AList.mem_erase.mp known).2) fun _ _ stored => stored

theorem shrinks_erase_creds (key : String × String) :
    server.Shrinks { server with observer := { server.observer with
      userCreds := server.observer.userCreds.erase key } } := by
  refine shrinks_observer (fun _ known => known) ?_
  intro other value stored
  by_cases same : other = key
  · subst same
    rw [AList.lookup_erase] at stored
    cases stored
  · rwa [AList.lookup_erase_ne same] at stored

theorem shrinks_proceed (current : revocation.Current server)
    (moved : proceed server revocation fault = some (changed, later)) :
    server.Shrinks changed := by
  obtain ⟨username, phase⟩ := revocation
  cases phase with
  | checkKnown =>
      simp only [proceed] at moved
      split at moved
      all_goals
        cases moved
        exact Server.Shrinks.refl server
  | change left =>
      cases left with
      | nil =>
          cases moved
          exact Server.Shrinks.refl server
      | cons index left =>
          simp only [proceed] at moved
          split at moved
          all_goals
            cases moved
            exact Server.Shrinks.refl server
  | store place users left =>
      have within : ∀ inbound ∈ server.inbounds[place]?, ∀ user ∈ users,
          user ∈ inbound.2.users := by
        intro inbound found user member
        rw [current inbound found] at member
        exact List.mem_of_mem_filter member
      simp only [proceed] at moved
      split at moved
      all_goals
        cases moved
        exact shrinks_setUsers within
  | removeStats =>
      cases moved
      exact shrinks_erase_stats username
  | removePassword =>
      cases moved
      exact shrinks_observer (fun _ known => known) fun _ _ stored => stored
  | collectCredentials =>
      cases moved
      exact Server.Shrinks.refl server
  | removeCredentials tags =>
      cases tags with
      | nil =>
          cases moved
          exact Server.Shrinks.refl server
      | cons tag tags =>
          cases moved
          exact shrinks_erase_creds (tag, username)
  | deleteRecord =>
      cases moved
      exact shrinks_observer (fun _ known => known) fun _ _ stored => stored
  | returned result => cases moved

end Shrinks

theorem clean_setUsers {place : Nat} {users : List AuthUser}
    (current : ∀ inbound ∈ server.inbounds[place]?, users = withoutUser username inbound.2.users) :
    Server.Clean { server with inbounds := setUsers place users server.inbounds } username
      place := by
  intro inbound found _ user member
  simp only [getElem?_setUsers] at found
  obtain ⟨old, present, rfl⟩ := Option.map_eq_some_iff.mp found
  rw [if_pos trivial, current old present] at member
  exact of_decide_eq_true (List.mem_filter.mp member).2

theorem purged_proceed (purged : revocation.Purged server) (current : revocation.Current server)
    (moved : proceed server revocation fault = some (changed, later)) :
    later.Purged changed := by
  have kept := purged.shrink (shrinks_proceed current moved)
  obtain ⟨username, phase⟩ := revocation
  cases phase with
  | checkKnown =>
      simp only [proceed] at moved
      split at moved
      · cases moved
        refine ⟨fun place missing inbound found supports => ?_, False.elim⟩
        exact absurd supports (not_mem_targets found missing)
      · cases moved
        exact ⟨fun _ => False.elim, False.elim⟩
  | change left =>
      cases left with
      | nil =>
          cases moved
          exact ⟨fun place _ => kept.clean place List.not_mem_nil, False.elim⟩
      | cons index left =>
          simp only [proceed] at moved
          split at moved
          · cases moved
            refine ⟨fun place ahead => kept.clean place ?_, False.elim⟩
            exact List.not_mem_cons_of_ne_of_not_mem ahead.1 ahead.2
          · rename_i missing
            cases moved
            refine ⟨fun place ahead => ?_, False.elim⟩
            by_cases same : place = index
            · subst same
              intro inbound found
              cases missing.symm.trans found
            · exact kept.clean place (List.not_mem_cons_of_ne_of_not_mem same ahead)
  | store index users left =>
      simp only [proceed] at moved
      split at moved
      · cases moved
        exact ⟨fun _ => False.elim, False.elim⟩
      · cases moved
        refine ⟨fun place ahead => ?_, False.elim⟩
        by_cases same : place = index
        · subst same
          exact clean_setUsers current
        · exact kept.clean place ⟨same, ahead⟩
  | removeStats =>
      cases moved
      exact ⟨fun place _ => kept.clean place trivial,
        fun _ known => (AList.mem_erase.mp known).1 rfl⟩
  | removePassword | collectCredentials | deleteRecord =>
      cases moved
      exact ⟨fun place _ => kept.clean place trivial, fun _ => kept.unknown trivial⟩
  | removeCredentials tags =>
      cases tags with
      | nil =>
          cases moved
          exact ⟨fun place _ => kept.clean place trivial, fun _ => kept.unknown trivial⟩
      | cons tag tags =>
          cases moved
          exact ⟨fun place _ => kept.clean place trivial, fun _ => kept.unknown trivial⟩
  | returned result => cases moved

theorem step_cases (taken : step hashes state event = some next) :
    (∃ place tag inbound, event = .accept place ∧
      state.server.inbounds[place]? = some (tag, inbound) ∧
        next = { state with conns := state.conns ++ [accepted tag inbound] }) ∨
    (∃ index conn moves phase dispatched, event = .handle index moves ∧
      state.conns[index]? = some conn ∧
        handle hashes state.server.observer conn moves = some (phase, dispatched) ∧
          next = { state with
            conns := state.conns.set index { conn with phase := phase }
            dispatched := state.dispatched ++ dispatched }) ∨
    (∃ username, event = .remove username ∧
      next = { state with revocations := state.revocations ++ [⟨username, .checkKnown⟩] }) ∨
    ∃ index fault revocation changed later, event = .proceed index fault ∧
      state.revocations[index]? = some revocation ∧
        proceed state.server revocation fault = some (changed, later) ∧
          next = { state with
            server := changed
            revocations := state.revocations.set index later } := by
  cases event with
  | accept place =>
      obtain ⟨⟨tag, inbound⟩, found, opened⟩ := Option.bind_eq_some_iff.mp taken
      obtain ⟨-, same⟩ := Option.ite_none_right_eq_some.mp opened
      cases same
      exact Or.inl ⟨place, tag, inbound, rfl, found, rfl⟩
  | handle index moves =>
      obtain ⟨conn, found, mapped⟩ := Option.bind_eq_some_iff.mp taken
      obtain ⟨⟨phase, dispatched⟩, moved, rfl⟩ := Option.map_eq_some_iff.mp mapped
      exact Or.inr (Or.inl ⟨index, conn, moves, phase, dispatched, rfl, found, moved, rfl⟩)
  | remove username =>
      cases taken
      exact Or.inr (Or.inr (Or.inl ⟨username, rfl, rfl⟩))
  | proceed index fault =>
      obtain ⟨revocation, found, mapped⟩ := Option.bind_eq_some_iff.mp taken
      obtain ⟨⟨changed, later⟩, moved, rfl⟩ := Option.map_eq_some_iff.mp mapped
      exact Or.inr (Or.inr (Or.inr
        ⟨index, fault, revocation, changed, later, rfl, found, moved, rfl⟩))

theorem shrinks_step (current : StoresCurrent state event)
    (taken : step hashes state event = some next) : state.server.Shrinks next.server := by
  obtain ⟨_, _, _, rfl, -, rfl⟩ | ⟨_, _, _, _, _, rfl, -, -, rfl⟩ | ⟨_, rfl, rfl⟩ |
    ⟨index, fault, revocation, changed, later, rfl, found, moved, rfl⟩ := step_cases taken
  · exact Server.Shrinks.refl state.server
  · exact Server.Shrinks.refl state.server
  · exact Server.Shrinks.refl state.server
  · exact shrinks_proceed (current revocation found) moved

/-- Each removal has taken away what it is past. -/
def Purged (state : TcpInbounds) : Prop :=
  ∀ revocation ∈ state.revocations, revocation.Purged state.server

theorem Purged.step (purged : state.Purged) (current : StoresCurrent state event)
    (taken : step hashes state event = some next) : next.Purged := by
  have kept : ∀ revocation ∈ state.revocations, revocation.Purged next.server :=
    fun revocation member => (purged revocation member).shrink (shrinks_step current taken)
  obtain ⟨_, _, _, rfl, -, rfl⟩ | ⟨_, _, _, _, _, rfl, -, -, rfl⟩ | ⟨_, rfl, rfl⟩ |
    ⟨index, fault, revocation, changed, later, rfl, found, moved, rfl⟩ := step_cases taken
  · exact kept
  · exact kept
  · exact Pool.forall_start kept ⟨fun _ => False.elim, False.elim⟩
  · intro other member
    rcases List.mem_or_eq_of_mem_set member with earlier | rfl
    · exact kept other earlier
    · exact purged_proceed (purged revocation (List.mem_of_getElem? found))
        (current revocation found) moved

end TcpInbounds

namespace TcpConn

variable {hashes : Hashes} {observer : Observer} {conn : TcpConn} {event : ConnEvent}
  {credential : Bytes} {phase : TcpPhase} {dispatched : List Dispatch}

/-- The connection cannot dispatch anything on the credential. -/
def Quiet (hashes : Hashes) (credential : Bytes) (conn : TcpConn) : Prop :=
  match conn.phase with
  | .handshake | .reading => conn.localOk hashes credential = false
  | .admitted own _ pending more => own = credential → pending = 0 ∧ more = false
  | .ended => True

theorem received_hexEncode (bytes : Bytes) :
    InboundProtocol.received (hexEncode bytes) .trojan = hexEncode bytes := by
  have lower : ∀ digit : Fin 16, ¬(65 ≤ hexDigit digit ∧ hexDigit digit ≤ 90) := by decide
  rw [InboundProtocol.received]
  refine (List.map_congr_left ?_).trans (List.map_id _)
  intro byte member
  rw [hexEncode, List.mem_flatMap] at member
  obtain ⟨value, -, digit⟩ := member
  rcases List.mem_pair.mp digit with rfl | rfl
  · exact if_neg (lower ⟨value.toNat / 16, by have := value.toNat_lt; omega⟩)
  · exact if_neg (lower ⟨value.toNat % 16, by omega⟩)

theorem received_of_localOk (conn : TcpConn) (copied : conn.localOk hashes credential = true) :
    conn.protocol.received credential = credential := by
  cases protocol : conn.protocol with
  | trojan =>
      obtain ⟨user, -, own⟩ := List.any_eq_true.mp copied
      rw [protocol, credentialHash] at own
      rw [← eq_of_beq own]
      exact received_hexEncode _
  | anytls | vmess | shadowquic | socks5 | http | mix | tun => rfl

theorem admits_of_localOk (conn : TcpConn) (copied : conn.localOk hashes credential = true)
    (observed : Option String) : conn.admits hashes observed credential = true := by
  rw [admits]
  split
  · exact copied
  · rw [copied, Bool.or_true]

theorem Quiet.check (quiet : conn.localOk hashes credential = false) {observed : Option String}
    {presented : Bytes} (unknown : presented = credential → observed = none) :
    Quiet hashes credential { conn with phase := conn.check hashes observed presented } := by
  by_cases same : presented = credential
  · subst same
    have refused : conn.admits hashes observed presented = false := by
      rw [unknown rfl, admits]
      split
      · exact quiet
      · exact quiet
    rw [TcpConn.check, if_neg (Bool.eq_false_iff.mp refused)]
    trivial
  · rw [TcpConn.check]
    split
    · split
      · exact fun own => absurd own same
      · exact fun own => absurd own same
    · trivial

/-- Only an admitted connection dispatches, on the credential that it has shown. -/
theorem dispatched_of_handle
    (moved : TcpInbounds.handle hashes observer conn event = some (phase, dispatched)) :
    dispatched = [] ∨ ∃ own user pending more,
      conn.phase = .admitted own user (pending + 1) more ∧
        dispatched = [⟨conn.tag, own, user⟩] := by
  simp only [TcpInbounds.handle] at moved
  split at moved
  case h_2 =>
    obtain ⟨-, same⟩ := Option.ite_none_right_eq_some.mp moved
    cases same
    exact Or.inl rfl
  case h_4 _ _ own user pending more admitted =>
    cases moved
    exact Or.inr ⟨own, user, pending, more, admitted, rfl⟩
  all_goals
    cases moved
    try exact Or.inl rfl

theorem tag_of_handle
    (moved : TcpInbounds.handle hashes observer conn event = some (phase, dispatched)) :
    ∀ dispatch ∈ dispatched, dispatch.tag = conn.tag := by
  intro dispatch member
  obtain rfl | ⟨own, user, pending, more, -, rfl⟩ := dispatched_of_handle moved
  · cases member
  · rw [List.mem_singleton.mp member]

theorem Quiet.ne_of_dispatched (quiet : conn.Quiet hashes credential)
    (moved : TcpInbounds.handle hashes observer conn event = some (phase, dispatched)) :
    ∀ dispatch ∈ dispatched, dispatch.credential ≠ credential := by
  intro dispatch member same
  obtain rfl | ⟨own, user, pending, more, admitted, rfl⟩ := dispatched_of_handle moved
  · cases member
  · rw [List.mem_singleton.mp member] at same
    rw [Quiet, admitted] at quiet
    exact Nat.succ_ne_zero pending (quiet same).1

theorem Quiet.handle (quiet : conn.Quiet hashes credential)
    (untracked : ∀ name, ¬observer.Tracked conn.tag credential name)
    (moved : TcpInbounds.handle hashes observer conn event = some (phase, dispatched)) :
    Quiet hashes credential { conn with phase := phase } := by
  obtain ⟨tag, protocol, users, now⟩ := conn
  cases event with
  | shake =>
      cases now with
      | handshake =>
          cases moved
          exact quiet
      | reading | admitted | ended => cases moved
  | check presented order =>
      cases now with
      | reading =>
          obtain ⟨perm, same⟩ := Option.ite_none_right_eq_some.mp moved
          cases same
          apply Quiet.check quiet
          intro shown
          rw [shown, Option.eq_none_iff_forall_ne_some]
          intro name found
          exact untracked name (Observer.tracked_of_authenticate perm found)
      | handshake | admitted | ended => cases moved
  | openStream =>
      cases now with
      | admitted own user pending more =>
          cases more with
          | false => cases moved
          | true =>
              cases moved
              exact fun mine => absurd (quiet mine).2 Bool.noConfusion
      | handshake | reading | ended => cases moved
  | dispatch | abandon =>
      cases now with
      | admitted own user pending more =>
          cases pending with
          | zero => cases moved
          | succ pending =>
              cases moved
              exact fun mine => absurd (quiet mine).1 (Nat.succ_ne_zero pending)
      | handshake | reading | ended => cases moved
  | finish =>
      cases now with
      | handshake | reading =>
          cases moved
          trivial
      | admitted own user pending more =>
          cases moved
          exact fun mine => ⟨(quiet mine).1, rfl⟩
      | ended => cases moved

end TcpConn

namespace TcpInbounds

variable {hashes : Hashes} {state next completed final : TcpInbounds} {event : TcpEvent}
  {username tag : String} {credential : Bytes} {before : List Dispatch}

/-- Nobody but this user has the credential on the inbound. -/
structure Exclusive (hashes : Hashes) (tag : String) (credential : Bytes) (username : String)
    (server : Server) : Prop where
  listed : ∀ inbound ∈ server.inbounds, inbound.1 = tag → ∀ user ∈ inbound.2.users,
    credentialHash hashes inbound.2.protocol user.username user.password = .ok credential →
      user.username = username
  tracked : ∀ name, server.observer.Tracked tag credential name → name = username

/-- What has been dispatched on the inbound between the two states was not on
the credential. -/
def NotOn (tag : String) (credential : Bytes) (before : List Dispatch) (state : TcpInbounds) :
    Prop :=
  ∃ since, state.dispatched = before ++ since ∧
    ∀ dispatch ∈ since, dispatch.tag = tag → dispatch.credential ≠ credential

/-- Nothing has been dispatched on the credential since, and nothing can be. -/
structure Silenced (hashes : Hashes) (tag : String) (credential : Bytes) (before : List Dispatch)
    (state : TcpInbounds) : Prop where
  listed : ∀ inbound ∈ state.server.inbounds, inbound.1 = tag → ∀ user ∈ inbound.2.users,
    credentialHash hashes inbound.2.protocol user.username user.password ≠ .ok credential
  tracked : ∀ name, ¬state.server.observer.Tracked tag credential name
  conns : ∀ conn ∈ state.conns, conn.tag = tag → conn.Quiet hashes credential
  dispatched : NotOn tag credential before state

theorem supportsUsers_of_credentialHash {protocol : InboundProtocol} {password : String}
    (hashed : credentialHash hashes protocol username password = .ok credential) :
    protocol.supportsUsers = true := by
  cases protocol with
  | shadowquic | trojan | anytls | vmess => rfl
  | socks5 | http | mix | tun => cases hashed

theorem Exclusive.silenced (exclusive : Exclusive hashes tag credential username state.server)
    (quiet : ∀ conn ∈ state.conns, conn.tag = tag → conn.Quiet hashes credential)
    (purged : Revocation.Purged state.server ⟨username, .returned (.ok true)⟩) :
    Silenced hashes tag credential state.dispatched state := by
  refine ⟨?_, ?_, quiet, [], (List.append_nil _).symm, ?_⟩
  · intro inbound member same user present hashed
    obtain ⟨place, found⟩ := List.mem_iff_getElem?.mp member
    exact purged.clean place trivial inbound found (supportsUsers_of_credentialHash hashed) user
      present (exclusive.listed inbound member same user present hashed)
  · intro name tracked
    rw [exclusive.tracked name tracked] at tracked
    exact purged.unknown trivial tracked.1
  · exact fun _ member => absurd member List.not_mem_nil

theorem quiet_accepted {inbound : ManagedInbound}
    (absent : ∀ user ∈ inbound.users,
      credentialHash hashes inbound.protocol user.username user.password ≠ .ok credential) :
    (accepted tag inbound).Quiet hashes credential := by
  have refused : (accepted tag inbound).localOk hashes credential = false := by
    rw [TcpConn.localOk, List.any_eq_false]
    intro user member
    have other := absent user member
    simp only [accepted]
    split
    · rename_i own hashed
      intro same
      rw [hashed, eq_of_beq same] at other
      exact other rfl
    · exact Bool.false_ne_true
  rw [TcpConn.Quiet]
  cases protocol : inbound.protocol with
  | vmess | shadowquic | trojan | anytls | socks5 | http | mix | tun =>
      simp only [accepted, protocol]
      simpa only [accepted, protocol] using refused

theorem Silenced.step (silenced : Silenced hashes tag credential before state)
    (current : StoresCurrent state event) (taken : step hashes state event = some next) :
    Silenced hashes tag credential before next := by
  have shrinks := shrinks_step current taken
  have tracked : ∀ name, ¬next.server.observer.Tracked tag credential name :=
    fun name known => silenced.tracked name (shrinks.tracked tag credential name known)
  have listed : ∀ inbound ∈ next.server.inbounds, inbound.1 = tag → ∀ user ∈ inbound.2.users,
      credentialHash hashes inbound.2.protocol user.username user.password ≠ .ok credential := by
    intro inbound member same user present
    obtain ⟨place, found⟩ := List.mem_iff_getElem?.mp member
    obtain ⟨old, there, tags, protocol, users⟩ := shrinks.inbounds place inbound found
    rw [protocol]
    exact silenced.listed old (List.mem_of_getElem? there) (tags ▸ same) user (users user present)
  obtain ⟨place, name, inbound, rfl, found, rfl⟩ |
    ⟨index, conn, moves, phase, dispatched, rfl, found, moved, rfl⟩ | ⟨_, rfl, rfl⟩ |
    ⟨_, _, _, _, _, rfl, -, -, rfl⟩ := step_cases taken
  · refine ⟨listed, tracked, Pool.forall_start silenced.conns ?_, silenced.dispatched⟩
    intro same
    exact quiet_accepted (silenced.listed _ (List.mem_of_getElem? found) same)
  · have quiet := silenced.conns conn (List.mem_of_getElem? found)
    refine ⟨listed, tracked, ?_, ?_⟩
    · intro other member same
      rcases List.mem_or_eq_of_mem_set member with earlier | rfl
      · exact silenced.conns other earlier same
      · cases same
        exact (quiet rfl).handle silenced.tracked moved
    · obtain ⟨since, all, others⟩ := silenced.dispatched
      refine ⟨since ++ dispatched, by rw [all, List.append_assoc], ?_⟩
      intro dispatch member same
      rcases List.mem_append.mp member with earlier | new
      · exact others dispatch earlier same
      · have own := TcpConn.tag_of_handle moved dispatch new
        exact (quiet (own.symm.trans same)).ne_of_dispatched moved dispatch new
  · exact ⟨listed, tracked, silenced.conns, silenced.dispatched⟩
  · exact ⟨listed, tracked, silenced.conns, silenced.dispatched⟩

/-! A connection that is not quiet has a way to dispatch on the credential. -/

section Loud

variable {conn : TcpConn} {index : Nat}

/-- Some events of connections lead to a dispatch on the credential. -/
def Leads (hashes : Hashes) (tag : String) (credential : Bytes) (state : TcpInbounds) : Prop :=
  ∃ rest final user, Machine.run (step hashes) state rest = some final ∧
    Machine.Within (step hashes) StoresCurrent state rest ∧
      final.dispatched = state.dispatched ++ [⟨tag, credential, user⟩]

theorem Leads.handle {moves : ConnEvent} {phase : TcpPhase}
    (found : state.conns[index]? = some conn)
    (moved : TcpInbounds.handle hashes state.server.observer conn moves = some (phase, []))
    (leads : Leads hashes tag credential
      { state with conns := state.conns.set index { conn with phase := phase } }) :
    Leads hashes tag credential state := by
  obtain ⟨rest, final, user, ran, calm, dispatched⟩ := leads
  have taken : step hashes state (.handle index moves) = some
      { state with conns := state.conns.set index { conn with phase := phase } } := by
    simp [step, found, moved]
  refine ⟨.handle index moves :: rest, final, user, ?_, ⟨trivial, ?_⟩, dispatched⟩
  · rw [Machine.run, taken]
    exact ran
  · intro next same
    cases taken.symm.trans same
    exact calm

theorem leads_pending {user : Option String} {pending : Nat} {more : Bool}
    (found : state.conns[index]? = some conn) (same : conn.tag = tag)
    (admitted : conn.phase = .admitted credential user (pending + 1) more) :
    Leads hashes tag credential state := by
  have taken : step hashes state (.handle index .dispatch) = some { state with
      conns := state.conns.set index { conn with phase := .admitted credential user pending more }
      dispatched := state.dispatched ++ [⟨tag, credential, user⟩] } := by
    simp only [step, found, Option.bind_some, TcpInbounds.handle, admitted, Option.map_some, same]
  exact ⟨[.handle index .dispatch], _, user, Option.bind_eq_some_iff.mpr ⟨_, taken, rfl⟩,
    ⟨trivial, fun _ _ => trivial⟩, rfl⟩

theorem leads_more {user : Option String} (found : state.conns[index]? = some conn)
    (same : conn.tag = tag) (admitted : conn.phase = .admitted credential user 0 true) :
    Leads hashes tag credential state := by
  have moved : TcpInbounds.handle hashes state.server.observer conn .openStream =
      some (.admitted credential user 1 true, []) := by
    simp only [TcpInbounds.handle, admitted]
  exact Leads.handle found moved (leads_pending (Pool.getElem?_set_self found _) same rfl)

theorem leads_reading (found : state.conns[index]? = some conn) (same : conn.tag = tag)
    (reading : conn.phase = .reading) (copied : conn.localOk hashes credential = true) :
    Leads hashes tag credential state := by
  have moved : TcpInbounds.handle hashes state.server.observer conn
      (.check credential state.server.observer.userCreds.entries) = some (conn.check hashes
        ((state.server.observer.authenticate state.server.observer.userCreds.entries conn.tag
          credential).map Prod.fst) credential, []) := by
    simp only [TcpInbounds.handle, reading, if_pos (List.Perm.refl _),
      conn.received_of_localOk copied]
  apply Leads.handle found moved
  rw [TcpConn.check, if_pos (conn.admits_of_localOk copied _)]
  split
  · exact leads_more (Pool.getElem?_set_self found _) same rfl
  · exact leads_pending (Pool.getElem?_set_self found _) same rfl

theorem leads_of_not_quiet (found : state.conns[index]? = some conn) (same : conn.tag = tag)
    (loud : ¬conn.Quiet hashes credential) : Leads hashes tag credential state := by
  cases phase : conn.phase with
  | handshake =>
      have moved : TcpInbounds.handle hashes state.server.observer conn .shake =
          some (.reading, []) := by
        simp only [TcpInbounds.handle, phase]
      simp only [TcpConn.Quiet, phase, Bool.not_eq_false] at loud
      apply Leads.handle found moved
      exact leads_reading (Pool.getElem?_set_self found _) same rfl loud
  | reading =>
      simp only [TcpConn.Quiet, phase, Bool.not_eq_false] at loud
      exact leads_reading found same phase loud
  | admitted own user pending more =>
      simp only [TcpConn.Quiet, phase] at loud
      obtain ⟨rfl, open_still⟩ := Classical.not_imp.mp loud
      cases pending with
      | succ pending => exact leads_pending found same phase
      | zero =>
          cases more with
          | true => exact leads_more found same phase
          | false => exact absurd ⟨rfl, rfl⟩ open_still
  | ended =>
      simp only [TcpConn.Quiet, phase] at loud
      exact absurd trivial loud

end Loud

/-- In every run in which removals store what they have computed from the
current list, when a removal has returned and its user alone had the credential:
however the run goes on, nothing is dispatched on the credential any more,
exactly when no connection that still has to be checked has a copy of the list
with it and every connection that was admitted on it is through. -/
theorem revoked_not_dispatched_iff (hashes : Hashes) {server : Server} {work : List TcpEvent}
    (worked : Machine.run (step hashes) (idle server) work = some completed)
    (calm : Machine.Within (step hashes) StoresCurrent (idle server) work)
    (returned : ⟨username, .returned (.ok true)⟩ ∈ completed.revocations)
    (exclusive : Exclusive hashes tag credential username completed.server) :
    (∀ rest final, Machine.Within (step hashes) StoresCurrent completed rest →
      Machine.run (step hashes) completed rest = some final →
        NotOn tag credential completed.dispatched final) ↔
      ∀ conn ∈ completed.conns, conn.tag = tag → conn.Quiet hashes credential := by
  have purged : completed.Purged :=
    Machine.run_within_invariant Purged Purged.step
      (fun _ member => absurd member List.not_mem_nil) calm worked
  constructor
  · intro never conn member same
    by_contra loud
    obtain ⟨index, found⟩ := List.mem_iff_getElem?.mp member
    obtain ⟨rest, final, user, ran, calm_after, dispatched⟩ := leads_of_not_quiet found same loud
    obtain ⟨since, all, others⟩ := never rest final calm_after ran
    cases List.append_cancel_left (all.symm.trans dispatched)
    exact others _ (List.mem_singleton_self _) rfl rfl
  · intro quiet rest final calm_after ran
    have silenced : Silenced hashes tag credential completed.dispatched final :=
      Machine.run_within_invariant (Silenced hashes tag credential completed.dispatched)
        Silenced.step (exclusive.silenced quiet (purged _ returned)) calm_after ran
    exact silenced.dispatched

/-- The user `alice` on a Trojan and an AnyTLS inbound. -/
def aliceServer : Server :=
  Server.initInbounds knownHashes (.new none none)
    [Server.trojanInbound, ("anytls-in", ⟨.anytls, [⟨"alice", "a"⟩]⟩)]

def aliceTrojan : Bytes := hexEncode (knownHashes.sha224 [97])

def aliceAnytls : Bytes := knownHashes.sha256 [97]

def removeAlice : List TcpEvent := .remove "alice" :: List.replicate 13 (.proceed 0 none)

/-- The Trojan connection is checked when `alice` has been removed; the AnyTLS
session was admitted before. -/
def acceptedBefore : List TcpEvent :=
  [.accept 0, .accept 1, .handle 1 .shake,
    .handle 1 (.check aliceAnytls aliceServer.observer.userCreds.entries)]

theorem removed_still_dispatched :
    ∃ completed final, Machine.run (step knownHashes) (idle aliceServer)
        (acceptedBefore ++ removeAlice) = some completed ∧
      ⟨"alice", .returned (.ok true)⟩ ∈ completed.revocations ∧ completed.dispatched = [] ∧
      Machine.run (step knownHashes) completed
        [.handle 0 .shake, .handle 0 (.check aliceTrojan []), .handle 0 .dispatch,
          .handle 1 .openStream, .handle 1 .dispatch] = some final ∧
      final.dispatched =
        [⟨"trojan-in", aliceTrojan, none⟩, ⟨"anytls-in", aliceAnytls, some "alice"⟩] :=
  ⟨_, _, rfl, by decide +kernel, rfl, rfl, by decide +kernel⟩

instance (server : Server) (revocation : Revocation) : Decidable (revocation.Current server) :=
  match revocation with
  | ⟨username, .store place users _⟩ =>
      inferInstanceAs (Decidable (∀ inbound ∈ server.inbounds[place]?,
        users = withoutUser username inbound.2.users))
  | ⟨_, .checkKnown⟩ | ⟨_, .change _⟩ | ⟨_, .removeStats⟩ | ⟨_, .removePassword⟩
  | ⟨_, .collectCredentials⟩ | ⟨_, .removeCredentials _⟩ | ⟨_, .deleteRecord⟩
  | ⟨_, .returned _⟩ => isTrue trivial

instance (state : TcpInbounds) : (event : TcpEvent) → Decidable (StoresCurrent state event)
  | .proceed index _ => inferInstanceAs (Decidable (∀ revocation ∈ state.revocations[index]?,
      revocation.Current state.server))
  | .accept _ | .handle _ _ | .remove _ => isTrue trivial

/-- A Trojan connection that has dispatched its request before the removal. -/
def throughBefore : List TcpEvent :=
  [.accept 0, .handle 0 .shake,
    .handle 0 (.check aliceTrojan aliceServer.observer.userCreds.entries), .handle 0 .dispatch]

/-- Another connection shows the credential when `alice` has been removed. -/
theorem through_not_dispatched :
    ∃ completed final, Machine.run (step knownHashes) (idle aliceServer)
        (throughBefore ++ removeAlice) = some completed ∧
      Machine.run (step knownHashes) completed
        [.accept 0, .handle 1 .shake, .handle 1 (.check aliceTrojan [])] = some final ∧
      NotOn "trojan-in" aliceTrojan completed.dispatched final := by
  have reached : ∃ completed final, Machine.run (step knownHashes) (idle aliceServer)
        (throughBefore ++ removeAlice) = some completed ∧
      Machine.run (step knownHashes) completed
        [.accept 0, .handle 1 .shake, .handle 1 (.check aliceTrojan [])] = some final ∧
      ⟨"alice", .returned (.ok true)⟩ ∈ completed.revocations ∧
      completed.server.inbounds = [("trojan-in", ⟨.trojan, []⟩), ("anytls-in", ⟨.anytls, []⟩)] ∧
      completed.server.observer.userStats.keys = [] ∧
      completed.conns = [⟨"trojan-in", .trojan, [⟨"alice", "a"⟩],
        .admitted aliceTrojan (some "alice") 0 false⟩] :=
    ⟨_, _, rfl, rfl, by decide +kernel, by decide +kernel, by decide +kernel, by decide +kernel⟩
  obtain ⟨completed, final, worked, ran, returned, inbounds, unknown, conns⟩ := reached
  refine ⟨completed, final, worked, ran, ?_⟩
  refine (revoked_not_dispatched_iff knownHashes worked (by decide +kernel) returned ⟨?_, ?_⟩).mpr
    ?_ _ final (Machine.within_of_forall (by simp [StoresCurrent]) completed) ran
  · intro inbound member _ user present
    rw [inbounds] at member
    have nobody : inbound.2.users = [] := by
      rcases List.mem_pair.mp member with rfl | rfl
      · rfl
      · rfl
    rw [nobody] at present
    cases present
  · intro name tracked
    have known : name ∈ completed.server.observer.userStats.keys := AList.mem_keys.mp tracked.1
    rw [unknown] at known
    cases known
  · intro conn member _
    rw [conns, List.mem_singleton] at member
    rw [member]
    exact fun _ => ⟨rfl, rfl⟩

end TcpInbounds

end QuicProxy
