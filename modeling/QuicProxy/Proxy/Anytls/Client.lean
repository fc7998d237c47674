import QuicProxy.Data.Pool

namespace QuicProxy

/-! The sessions of an AnyTLS client: `get_session`, and the session that streams
share (`src/proxy/outbound/anytls.rs`). -/

/-- Sessions are numbered as `Session::new` returns them.  An abandoned one was made
for a call that has been dropped before it stored it. -/
structure AnytlsClient where
  disableMux : Bool
  currentSession : Option Nat
  created : Nat
  dead : List Nat
  abandoned : List Nat
deriving DecidableEq

namespace AnytlsClient

/-- A call of `get_session`, by the place it has reached, and a session whose loops
end. -/
inductive Call where
  | calling
  | locking
  | rechecking
  | creating (guarded : Bool)
  | storing (session : Nat)
  | returned (session : Nat)
  | failed
  | dropped
  | finishing (session : Nat)
  | finished
deriving DecidableEq

inductive Request where
  | getSession
  | finish (session : Nat)

/-- What `create_session` comes to, or the drop of the future. -/
inductive Answer where
  | ok
  | failed
  | dropped
deriving DecidableEq

abbrev Config := Pool.Config AnytlsClient Call

abbrev Event := Pool.Event Request Answer

namespace Call

def start : Request → Call
  | .getSession => calling
  | .finish session => finishing session

/-- The call has the guard of `create_session_lock`. -/
def holds : Call → Bool
  | rechecking | storing _ => true
  | creating guarded => guarded
  | _ => false

end Call

/-- `live_session`: the session that is left, and the one that is returned. -/
def liveSession (client : AnytlsClient) : AnytlsClient × Option Nat :=
  match client.currentSession with
  | some session =>
      if session ∈ client.dead then ({ client with currentSession := none }, none)
      else (client, some session)
  | none => (client, none)

def checked (client : AnytlsClient) (otherwise : Call) : AnytlsClient × Call :=
  match client.liveSession with
  | (client, some session) => (client, .returned session)
  | (client, none) => (client, otherwise)

def finish (client : AnytlsClient) (session : Nat) : AnytlsClient :=
  if session ∈ client.dead then client else { client with dead := session :: client.dead }

def Free (config : Config) : Prop := ∀ call ∈ config.calls, call.holds = false

instance (config : Config) : Decidable (Free config) :=
  inferInstanceAs (Decidable (∀ call ∈ config.calls, _))

def act (config : Config) (call : Call) (answer : Answer) : Option (AnytlsClient × Call) :=
  let client := config.shared
  match call, answer with
  | .returned _, _ | .failed, _ | .dropped, _ | .finished, _ => none
  | .finishing session, _ =>
      if session < client.created then some (client.finish session, .finished) else none
  | .storing session, .dropped =>
      some ({ client with abandoned := session :: client.abandoned }, .dropped)
  | _, .dropped => some (client, .dropped)
  | .calling, _ =>
      if client.disableMux then some (client, .creating false)
      else some (client.checked .locking)
  | .locking, _ => if Free config then some (client, .rechecking) else none
  | .rechecking, _ => some (client.checked (.creating true))
  | .creating true, .ok =>
      some ({ client with created := client.created + 1 }, .storing client.created)
  | .creating false, .ok =>
      some ({ client with created := client.created + 1 }, .returned client.created)
  | .creating _, .failed => some (client, .failed)
  | .storing session, _ =>
      some ({ client with currentSession := some session }, .returned session)

def program : Pool.Program AnytlsClient Call Request Answer where
  start := Call.start
  act := act

def initial (disableMux : Bool) : Config := ⟨⟨disableMux, none, 0, [], []⟩, []⟩

/-! A client that shares its session. -/

namespace Call

/-- The session that the call has made and not yet stored. -/
def hand : Call → Option Nat
  | storing session => some session
  | _ => none

/-- The call has found no session alive under the guard. -/
def making : Call → Bool
  | creating guarded => guarded
  | storing _ => true
  | _ => false

def session : Call → Option Nat
  | returned session => some session
  | _ => none

end Call

def places (config : Config) : List Nat :=
  config.shared.currentSession.toList ++ config.calls.filterMap Call.hand ++
    (config.shared.dead ++ config.shared.abandoned)

structure Sound (config : Config) : Prop where
  mux : config.shared.disableMux = false
  guarded : ∀ call ∈ config.calls, call ≠ .creating false
  exclusive : Pool.Exclusive Call.holds config.calls
  making : ∀ call ∈ config.calls, call.making = true → config.shared.currentSession = none
  given : ∀ call ∈ config.calls, ∀ session, call.session = some session →
    config.shared.currentSession = some session ∨ session ∈ config.shared.dead
  covered : Pool.Covered config.shared.created (places config)

structure Moves (config : Config) (call : Call) (after : AnytlsClient) (moved : Call) : Prop where
  mux : after.disableMux = config.shared.disableMux
  guarded : moved ≠ .creating false
  taken : moved.holds = true → call.holds = true ∨ Free config
  making : moved.making = true → after.currentSession = none
  slot : call.holds = true ∨ after.currentSession = none ∨
    after.currentSession = config.shared.currentSession
  own : ∀ session, moved.session = some session → after.currentSession = some session
  alive : ∀ session, config.shared.currentSession = some session ∨ session ∈ config.shared.dead →
    after.currentSession = some session ∨ session ∈ after.dead
  created : after.created = config.shared.created ∨
    after.created = config.shared.created + 1 ∧ moved.hand = some config.shared.created
  kept : ∀ session, config.shared.currentSession = some session ∨ call.hand = some session ∨
      session ∈ config.shared.dead ∨ session ∈ config.shared.abandoned →
    after.currentSession = some session ∨ moved.hand = some session ∨
      session ∈ after.dead ∨ session ∈ after.abandoned

section

variable {config next : Config} {call moved otherwise : Call} {answer : Answer}
  {after : AnytlsClient}

theorem moves_of_same (guarded : moved ≠ .creating false) (hand : call.hand = none)
    (taken : moved.holds = true → call.holds = true ∨ Free config)
    (making : moved.making = true → config.shared.currentSession = none)
    (own : ∀ session, moved.session = some session →
      config.shared.currentSession = some session) :
    Moves config call config.shared moved where
  mux := rfl
  guarded := guarded
  taken := taken
  making := making
  slot := .inr (.inr rfl)
  own := own
  alive _ here := here
  created := .inl rfl
  kept session here := by
    rw [hand] at here
    rcases here with current | held | gone
    · exact .inl current
    · cases held
    · exact .inr (.inr gone)

theorem checked_cases (client : AnytlsClient) (otherwise : Call) :
    (client.currentSession = none ∧ client.checked otherwise = (client, otherwise)) ∨
    (∃ session ∈ client.dead, client.currentSession = some session ∧
      client.checked otherwise = ({ client with currentSession := none }, otherwise)) ∨
    ∃ session, client.currentSession = some session ∧
      client.checked otherwise = (client, .returned session) := by
  unfold checked liveSession
  cases current : client.currentSession with
  | none => exact .inl ⟨rfl, rfl⟩
  | some session =>
      dsimp only
      by_cases dead : session ∈ client.dead
      · rw [if_pos dead]
        exact .inr (.inl ⟨session, dead, rfl, rfl⟩)
      · rw [if_neg dead]
        exact .inr (.inr ⟨session, rfl, rfl⟩)

theorem checked_moves (hand : call.hand = none) (guarded : otherwise ≠ .creating false)
    (taken : otherwise.holds = true → call.holds = true) (empty : otherwise.session = none)
    (checked : config.shared.checked otherwise = (after, moved)) :
    Moves config call after moved := by
  rcases checked_cases config.shared otherwise with
    ⟨current, same⟩ | ⟨session, dead, current, same⟩ | ⟨session, current, same⟩
  · cases checked.symm.trans same
    refine moves_of_same guarded hand (fun held => .inl (taken held)) (fun _ => current) ?_
    intro session given
    cases empty.symm.trans given
  · cases checked.symm.trans same
    refine ⟨rfl, guarded, fun held => .inl (taken held), fun _ => rfl, .inr (.inl rfl), ?_, ?_,
      .inl rfl, ?_⟩
    · intro session given
      cases empty.symm.trans given
    · rintro other (here | gone)
      · cases current.symm.trans here
        exact .inr dead
      · exact .inr gone
    · rintro other (here | held | gone)
      · cases current.symm.trans here
        exact .inr (.inr (.inl dead))
      · cases hand.symm.trans held
      · exact .inr (.inr gone)
  · cases checked.symm.trans same
    refine moves_of_same Call.noConfusion hand (fun held => ?_) (fun held => ?_) ?_
    · cases held
    · cases held
    · intro given same
      cases same
      exact current

theorem finish_moves (config : Config) (session : Nat) :
    Moves config (.finishing session) (config.shared.finish session) .finished := by
  have dies (other : Nat) (gone : other ∈ config.shared.dead) :
      other ∈ (config.shared.finish session).dead := by
    unfold finish
    split
    · exact gone
    · exact List.mem_cons_of_mem _ gone
  have fields : (config.shared.finish session).currentSession = config.shared.currentSession ∧
      (config.shared.finish session).created = config.shared.created ∧
      (config.shared.finish session).abandoned = config.shared.abandoned ∧
      (config.shared.finish session).disableMux = config.shared.disableMux := by
    unfold finish
    split
    · exact ⟨rfl, rfl, rfl, rfl⟩
    · exact ⟨rfl, rfl, rfl, rfl⟩
  obtain ⟨current, created, abandoned, mux⟩ := fields
  refine ⟨mux, Call.noConfusion, fun held => ?_, fun held => ?_, .inr (.inr current), ?_, ?_,
    .inl created, ?_⟩
  · cases held
  · cases held
  · intro given same
    cases same
  · rintro other (here | gone)
    · exact .inl (current.trans here)
    · exact .inr (dies other gone)
  · rintro other (here | held | gone | lost)
    · exact .inl (current.trans here)
    · cases held
    · exact .inr (.inr (.inl (dies other gone)))
    · exact .inr (.inr (.inr (abandoned ▸ lost)))

theorem act_moves (mux : config.shared.disableMux = false) (guarded : call ≠ .creating false)
    (making : call.making = true → config.shared.currentSession = none)
    (acted : act config call answer = some (after, moved)) : Moves config call after moved := by
  have nothing (moved : Call) (hand : call.hand = none) (quiet : moved.holds = false)
      (plain : moved ≠ .creating false) (idle : moved.making = false)
      (empty : moved.session = none) : Moves config call config.shared moved := by
    refine moves_of_same plain hand (fun held => ?_) (fun held => ?_) (fun session given => ?_)
    · cases quiet.symm.trans held
    · cases idle.symm.trans held
    · cases empty.symm.trans given
  unfold act at acted
  dsimp only at acted
  split at acted
  iterate 4 cases acted
  · split at acted
    · cases acted
      exact finish_moves config _
    · cases acted
  · rename_i session
    cases acted
    refine ⟨rfl, Call.noConfusion, fun held => ?_, fun held => ?_, .inr (.inr rfl), ?_, fun _ => id,
      .inl rfl, ?_⟩
    · cases held
    · cases held
    · intro given same
      cases same
    · rintro other (current | held | gone | lost)
      · exact .inl current
      · cases held
        exact .inr (.inr (.inr List.mem_cons_self))
      · exact .inr (.inr (.inl gone))
      · exact .inr (.inr (.inr (List.mem_cons_of_mem _ lost)))
  · rename_i notStoring
    cases acted
    refine nothing .dropped ?_ rfl Call.noConfusion rfl rfl
    cases call with
    | storing session => exact absurd rfl (notStoring session)
    | _ => rfl
  · rw [mux] at acted
    refine checked_moves rfl Call.noConfusion (fun held => ?_) rfl (Option.some.inj acted)
    cases held
  · split at acted
    · rename_i free
      cases acted
      refine moves_of_same Call.noConfusion rfl (fun _ => .inr free) (fun held => ?_) ?_
      · cases held
      · intro given same
        cases same
    · cases acted
  · refine checked_moves rfl ?_ (fun _ => rfl) rfl (Option.some.inj acted)
    exact fun same => Bool.noConfusion (Call.creating.inj same)
  · cases acted
    have empty := making rfl
    refine ⟨rfl, Call.noConfusion, fun _ => .inl rfl, fun _ => empty, .inl rfl, ?_, fun _ => id,
      .inr ⟨rfl, rfl⟩, ?_⟩
    · intro given same
      cases same
    · rintro other (current | held | gone)
      · exact .inl current
      · cases held
      · exact .inr (.inr gone)
  · exact absurd rfl guarded
  · cases acted
    exact nothing .failed rfl rfl Call.noConfusion rfl rfl
  · rename_i session _
    cases acted
    have empty := making rfl
    refine ⟨rfl, Call.noConfusion, fun held => ?_, fun held => ?_, .inl rfl, fun _ => id, ?_,
      .inl rfl, ?_⟩
    · cases held
    · cases held
    · rintro other (current | gone)
      · cases empty.symm.trans current
      · exact .inr gone
    · rintro other (current | held | gone)
      · cases empty.symm.trans current
      · exact .inl held
      · exact .inr (.inr gone)

theorem mem_places {session : Nat} : session ∈ places config ↔
    config.shared.currentSession = some session ∨
      (∃ call ∈ config.calls, call.hand = some session) ∨
        session ∈ config.shared.dead ∨ session ∈ config.shared.abandoned := by
  simp only [places, List.mem_append, Option.mem_toList, List.mem_filterMap,
    or_assoc]

theorem sound_initial : Sound (initial false) where
  mux := rfl
  guarded call member := by cases member
  exclusive := Pool.exclusive_nil
  making call member := by cases member
  given call member := by cases member
  covered session old := absurd old (Nat.not_lt_zero session)

theorem Sound.start (sound : Sound config) (request : Request) :
    Sound ⟨config.shared, config.calls ++ [Call.start request]⟩ := by
  have plain : Call.start request ≠ .creating false ∧ (Call.start request).holds = false ∧
      (Call.start request).making = false ∧ (Call.start request).session = none := by
    cases request with
    | getSession | finish => exact ⟨Call.noConfusion, rfl, rfl, rfl⟩
  obtain ⟨guarded, free, idle, empty⟩ := plain
  refine ⟨sound.mux, Pool.forall_start sound.guarded guarded, sound.exclusive.start free,
    Pool.forall_start sound.making fun held => ?_,
    Pool.forall_start sound.given fun session given => ?_, sound.covered.mono ?_⟩
  · cases idle.symm.trans held
  · cases empty.symm.trans given
  · intro session here
    rw [mem_places] at here ⊢
    refine here.imp_right (Or.imp_left ?_)
    rintro ⟨call, member, hand⟩
    exact ⟨call, List.mem_append_left _ member, hand⟩

theorem making_holds {call : Call} (making : call.making = true) : call.holds = true := by
  cases call with
  | creating | storing => exact making
  | _ => cases making

theorem Sound.act {before later : List Call} {client : AnytlsClient}
    (sound : Sound ⟨client, before ++ call :: later⟩)
    (moves : Moves ⟨client, before ++ call :: later⟩ call after moved) :
    Sound ⟨after, before ++ moved :: later⟩ := by
  have here : call ∈ before ++ call :: later := List.mem_append_right _ List.mem_cons_self
  -- another call has the guard only where this one neither has it nor takes it
  have others (held : call.holds = true ∨ moved.holds = true) :
      ∀ other ∈ before ++ later, other.holds = false := by
    rcases held with held | held
    · exact sound.exclusive.other held
    · rcases moves.taken held with held | free
      · exact sound.exclusive.other held
      · exact fun other member => free other (Pool.mem_of_mem_others member)
  refine ⟨moves.mux.trans sound.mux, ?_, sound.exclusive.act fun held => others (.inr held), ?_, ?_,
    ?_⟩
  · exact Pool.forall_act sound.guarded (fun _ => moves.guarded) fun _ => id
  · refine Pool.forall_moved moves.making fun other member making => ?_
    have empty := sound.making other (Pool.mem_of_mem_others member) making
    rcases moves.slot with held | none | same
    · cases (others (.inl held) other member).symm.trans (making_holds making)
    · exact none
    · exact same.trans empty
  · refine Pool.forall_moved (fun session given => .inl (moves.own session given)) ?_
    intro other member session given
    exact moves.alive session (sound.given other (Pool.mem_of_mem_others member) session given)
  · have keeps (session : Nat) (old : session < client.created) :
        session ∈ places ⟨after, before ++ moved :: later⟩ := by
      have mine : moved.hand = some session →
          ∃ other ∈ before ++ moved :: later, other.hand = some session :=
        fun hand => ⟨moved, List.mem_append_right _ List.mem_cons_self, hand⟩
      rw [mem_places]
      rcases mem_places.mp (sound.covered session old) with current | held | gone
      · exact (moves.kept session (.inl current)).imp_right (Or.imp_left mine)
      · rcases Pool.exists_act held with hand | elsewhere
        · exact (moves.kept session (.inr (.inl hand))).imp_right (Or.imp_left mine)
        · exact .inr (.inl elsewhere)
      · exact (moves.kept session (.inr (.inr gone))).imp_right (Or.imp_left mine)
    rcases moves.created with same | ⟨same, hand⟩
    · rw [same]
      exact keeps
    · rw [same]
      refine Pool.Covered.succ keeps (mem_places.mpr (.inr (.inl ⟨moved, ?_, hand⟩)))
      exact List.mem_append_right _ List.mem_cons_self

theorem Sound.step {event : Event} (sound : Sound config)
    (taken : program.step config event = some next) : Sound next := by
  rcases Pool.Program.step_cases taken with
    ⟨request, rfl, rfl⟩ | ⟨before, call, later, answer, client, moved, rfl, shape, acted, rfl⟩
  · exact sound.start request
  · obtain ⟨shared, calls⟩ := config
    cases shape
    have here : call ∈ before ++ call :: later := List.mem_append_right _ List.mem_cons_self
    exact sound.act (act_moves sound.mux (sound.guarded call here) (sound.making call here) acted)

theorem Sound.length_places (sound : Sound config) :
    (places config).length ≤
      config.shared.dead.length + config.shared.abandoned.length + 1 := by
  have hands : (config.calls.filterMap Call.hand).length ≤ 1 := by
    refine sound.exclusive.length_filterMap fun call held => ?_
    cases call with
    | storing session => rfl
    | _ => cases held
  have slot : config.shared.currentSession.toList.length +
      (config.calls.filterMap Call.hand).length ≤ 1 := by
    rcases none_or : config.calls.filterMap Call.hand with _ | ⟨session, rest⟩
    · exact Option.length_toList_le
    · have member : session ∈ config.calls.filterMap Call.hand := none_or ▸ List.mem_cons_self
      obtain ⟨call, present, hand⟩ := List.mem_filterMap.mp member
      have making : call.making = true := by
        cases call with
        | storing session => rfl
        | _ => cases hand
      rw [sound.making call present making, ← none_or]
      exact (Nat.zero_add _).symm ▸ hands
  rw [places]
  simp only [List.length_append]
  omega

/-! A client whose streams each have a session of their own. -/

/-- The places of a call that shares nothing. -/
def Call.Alone : Call → Prop
  | .locking | .rechecking | .creating true | .storing _ => False
  | _ => True

structure Separate (config : Config) : Prop where
  alone : ∀ call ∈ config.calls, call.Alone
  distinct : Pool.Distinct Call.session config.calls
  old : ∀ call ∈ config.calls, ∀ session, call.session = some session →
    session < config.shared.created
  mux : config.shared.disableMux = true

theorem act_alone (alone : call.Alone) (mux : config.shared.disableMux = true)
    (acted : act config call answer = some (after, moved)) :
    moved.Alone ∧ after.disableMux = true ∧ config.shared.created ≤ after.created ∧
      (moved.session = none ∨
        moved.session = some config.shared.created ∧
          after.created = config.shared.created + 1) := by
  unfold act at acted
  dsimp only at acted
  split at acted
  iterate 4 cases acted
  · split at acted
    · cases acted
      unfold finish
      split
      · exact ⟨trivial, mux, Nat.le_refl _, .inl rfl⟩
      · exact ⟨trivial, mux, Nat.le_refl _, .inl rfl⟩
    · cases acted
  · exact alone.elim
  · cases acted
    exact ⟨trivial, mux, Nat.le_refl _, .inl rfl⟩
  · rw [mux] at acted
    cases acted
    exact ⟨trivial, mux, Nat.le_refl _, .inl rfl⟩
  · exact alone.elim
  · exact alone.elim
  · exact alone.elim
  · cases acted
    exact ⟨trivial, mux, Nat.le_succ _, .inr ⟨rfl, rfl⟩⟩
  · cases acted
    exact ⟨trivial, mux, Nat.le_refl _, .inl rfl⟩
  · exact alone.elim

theorem separate_initial : Separate (initial true) where
  alone call member := by cases member
  distinct := List.nodup_nil
  old call member := by cases member
  mux := rfl

theorem Separate.step {event : Event} (separate : Separate config)
    (taken : program.step config event = some next) : Separate next := by
  rcases Pool.Program.step_cases taken with
    ⟨request, rfl, rfl⟩ | ⟨before, call, later, answer, client, moved, rfl, shape, acted, rfl⟩
  · have new : (Call.start request).Alone ∧ (Call.start request).session = none := by
      cases request with
      | getSession | finish => exact ⟨trivial, rfl⟩
    refine ⟨Pool.forall_start separate.alone new.1, separate.distinct.start new.2,
      Pool.forall_start separate.old fun session given => ?_, separate.mux⟩
    cases new.2.symm.trans given
  · obtain ⟨shared, calls⟩ := config
    cases shape
    have here : call ∈ before ++ call :: later := List.mem_append_right _ List.mem_cons_self
    obtain ⟨alone, mux, grows, given⟩ := act_alone (separate.alone call here) separate.mux acted
    have older (other : Call) (member : other ∈ before ++ later) (session : Nat)
        (owns : other.session = some session) : session < shared.created :=
      separate.old other (Pool.mem_of_mem_others member) session owns
    refine ⟨Pool.forall_act separate.alone (fun _ => alone) fun _ => id,
      separate.distinct.change fun session owns other member same => ?_,
      Pool.forall_moved (fun session owns => ?_) fun other member session owns =>
        Nat.lt_of_lt_of_le (older other member session owns) grows, mux⟩
    · rcases given with none | ⟨fresh, -⟩
      · cases none.symm.trans owns
      · cases fresh.symm.trans owns
        exact Nat.lt_irrefl _ (older other member _ same)
    · rcases given with none | ⟨fresh, more⟩
      · cases none.symm.trans owns
      · cases fresh.symm.trans owns
        exact more ▸ Nat.lt_succ_self _

/-- Whatever is called, fails, dies and is dropped in whatever order: streams that
share a session share the one that is alive, one connection is made at a time, and no
more are made than have been lost and one; where multiplexing is disabled no two calls
get the same session. -/
theorem run_getSession {disableMux : Bool} {events : List Event}
    (ran : Machine.run program.step (initial disableMux) events = some config) :
    (disableMux = false →
      (∀ one other, .returned one ∈ config.calls → .returned other ∈ config.calls →
        one ∉ config.shared.dead → other ∉ config.shared.dead → one = other) ∧
      (∀ (index place : Nat) (guarded guarded' : Bool),
        config.calls[index]? = some (.creating guarded) →
          config.calls[place]? = some (.creating guarded') → index = place) ∧
      config.shared.created ≤
        config.shared.dead.length + config.shared.abandoned.length + 1) ∧
    (disableMux = true → ∀ (index place session : Nat),
      config.calls[index]? = some (.returned session) →
        config.calls[place]? = some (.returned session) → index = place) := by
  constructor
  · rintro rfl
    have sound := Machine.run_invariant Sound (fun here taken => here.step taken) sound_initial ran
    refine ⟨fun one other given given' lives lives' => ?_, ?_, ?_⟩
    · have current := (sound.given _ given one rfl).resolve_right lives
      have current' := (sound.given _ given' other rfl).resolve_right lives'
      exact Option.some.inj (current.symm.trans current')
    · intro index place guarded guarded' found found'
      have held {place : Nat} {guarded : Bool}
          (found : config.calls[place]? = some (.creating guarded)) : guarded = true := by
        have plain := sound.guarded _ (List.mem_of_getElem? found)
        cases guarded with
        | true => rfl
        | false => exact absurd rfl plain
      exact sound.exclusive.index_eq found (held found) found' (held found')
    · exact Nat.le_trans sound.covered.le_length sound.length_places
  · rintro rfl index place session found found'
    have separate := Machine.run_invariant Separate (fun here taken => here.step taken)
      separate_initial ran
    exact separate.distinct.index_eq found rfl found' rfl

/-- A burst of two, where the second waits for the first. -/
def burst : List Event :=
  [.start .getSession, .start .getSession, .advance 0 .ok, .advance 1 .ok, .advance 0 .ok,
    .advance 0 .ok, .advance 0 .ok, .advance 0 .ok, .advance 1 .ok, .advance 1 .ok]

theorem run_getSession_burst :
    ∃ config, Machine.run program.step (initial false) burst = some config ∧
      config.calls = [.returned 0, .returned 0] ∧ config.shared.created ≤ 1 := by
  have ran : Machine.run program.step (initial false) burst =
      some ⟨⟨false, some 0, 1, [], []⟩, [.returned 0, .returned 0]⟩ := rfl
  exact ⟨_, ran, rfl, ((run_getSession ran).1 rfl).2.2⟩

end

end AnytlsClient

end QuicProxy
