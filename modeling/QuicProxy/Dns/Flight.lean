import QuicProxy.Data.Bytes
import QuicProxy.Data.Pool
import Mathlib.Data.List.AList

namespace QuicProxy

/-! The table of in-flight queries of a `DnsCache` (`src/dns/cache.rs`): the
callers of `join` that lead a query and those that follow one. -/

namespace Dns

abbrev Outcome := Except String Bytes

/-- A `watch` channel; `linked` says that its sender is there. -/
structure FlightChannel where
  value : Option Outcome
  linked : Bool
deriving DecidableEq

/-- Flights are numbered as they are entered. -/
structure FlightTable where
  inflight : AList fun _ : String => Nat
  channels : List FlightChannel

inductive FlightCall where
  | joining (key : String)
  | leading (key : String) (flight : Nat)
  /-- `finish` has taken the sender out of the table. -/
  | publishing (key : String) (flight : Nat) (outcome : Outcome)
  /-- The sender is dropped next, with what has been sent. -/
  | closing (key : String) (flight : Nat) (sent : Option Outcome)
  | led (key : String) (flight : Nat) (sent : Option Outcome)
  | following (key : String) (flight : Nat)
  | followed (key : String) (flight : Nat) (result : Option Outcome)
  | dropped
deriving DecidableEq

inductive FlightChoice where
  | advance
  /-- A leader calls `finish`. -/
  | finish (outcome : Outcome)
  /-- The caller is dropped. -/
  | drop

namespace FlightTable

def entered (table : FlightTable) (key : String) : FlightTable where
  inflight := table.inflight.insert key table.channels.length
  channels := table.channels ++ [⟨none, true⟩]

def removed (table : FlightTable) (key : String) : FlightTable :=
  { table with inflight := table.inflight.erase key }

def modifyChannel (table : FlightTable) (flight : Nat) (change : FlightChannel → FlightChannel) :
    FlightTable :=
  { table with channels := table.channels.modify flight change }

end FlightTable

namespace FlightCall

/-- `FlightLeader::finish`, up to the `send_replace`. -/
def finish (table : FlightTable) (key : String) (flight : Nat) (outcome : Outcome) :
    FlightTable × FlightCall :=
  match table.inflight.lookup key with
  | some entered => (table.removed key, publishing key entered outcome)
  | none => (table, led key flight none)

/-- The drop of a `FlightLeader`. -/
def release (table : FlightTable) (key : String) (flight : Nat) : FlightTable × FlightCall :=
  match table.inflight.lookup key with
  | some entered => (table.removed key, closing key entered none)
  | none => (table, led key flight none)

/-- `follow`: what `wait_for` finds in the channel. -/
def follow (table : FlightTable) (key : String) (flight : Nat) :
    Option (FlightTable × FlightCall) :=
  match table.channels[flight]? with
  | some ⟨some outcome, _⟩ => some (table, followed key flight (some outcome))
  | some ⟨none, false⟩ => some (table, followed key flight none)
  | some ⟨none, true⟩ => none
  | none => none

def act (table : FlightTable) : FlightCall → FlightChoice → Option (FlightTable × FlightCall)
  | joining key, .advance =>
      match table.inflight.lookup key with
      | some flight => some (table, following key flight)
      | none => some (table.entered key, leading key table.channels.length)
  | leading key flight, .finish outcome => some (finish table key flight outcome)
  | leading key flight, .drop => some (release table key flight)
  | publishing key flight outcome, .advance =>
      some (table.modifyChannel flight fun channel => { channel with value := some outcome },
        closing key flight (some outcome))
  | closing key flight sent, .advance =>
      some (table.modifyChannel flight fun channel => { channel with linked := false },
        led key flight sent)
  | following key flight, .advance => follow table key flight
  | joining _, .drop | following _ _, .drop => some (table, dropped)
  | _, _ => none

/-- The key and the flight of a leader, also after the flight has ended. -/
def flight? : FlightCall → Option (String × Nat)
  | leading key flight | publishing key flight _ | closing key flight _ | led key flight _ =>
      some (key, flight)
  | _ => none

def number? (call : FlightCall) : Option Nat := call.flight?.map Prod.snd

end FlightCall

abbrev FlightConfig := Pool.Config FlightTable FlightCall

abbrev FlightEvent := Pool.Event String FlightChoice

namespace FlightTable

def program : Pool.Program FlightTable FlightCall String FlightChoice where
  start := FlightCall.joining
  act config := FlightCall.act config.shared

def initial : FlightConfig := ⟨⟨∅, []⟩, []⟩

/-- A key has one leader at most.  A follower has a leader of its key, and gets
what that leader has sent, or `None` when the leader has ended without sending
anything; as soon as the leader has ended, nothing keeps the follower waiting.
Without a leader the table is empty. -/
structure SingleFlight (config : FlightConfig) : Prop where
  leader : ∀ {first second : Nat} {key : String} {flight other : Nat},
    config.calls[first]? = some (.leading key flight) →
      config.calls[second]? = some (.leading key other) → first = second
  led : ∀ {key : String} {flight : Nat}, .following key flight ∈ config.calls →
    ∃ call ∈ config.calls, call.flight? = some (key, flight)
  shared : ∀ {key : String} {flight : Nat} {result : Option Outcome},
    .followed key flight result ∈ config.calls →
      ∃ call ∈ config.calls, call = .led key flight result ∨
        call = .closing key flight result ∧ result.isSome
  released : ∀ {key : String} {flight : Nat} {sent : Option Outcome},
    .following key flight ∈ config.calls → .led key flight sent ∈ config.calls →
      FlightCall.act config.shared (.following key flight) .advance =
        some (config.shared, .followed key flight sent)
  empty : (∀ key flight, .leading key flight ∉ config.calls) →
    ∀ key, config.shared.inflight.lookup key = none

/-! What the callers rely on. -/

/-- The state of the channel of a caller's flight. -/
def Sound (table : FlightTable) : FlightCall → Prop
  | .leading _ flight | .publishing _ flight _ => table.channels[flight]? = some ⟨none, true⟩
  | .closing _ flight sent => table.channels[flight]? = some ⟨sent, true⟩
  | .led _ flight sent => table.channels[flight]? = some ⟨sent, false⟩
  | .followed _ flight (some outcome) =>
      ∃ linked, table.channels[flight]? = some ⟨some outcome, linked⟩
  | .followed _ flight none => table.channels[flight]? = some ⟨none, false⟩
  | .joining _ | .following _ _ | .dropped => True

def Led (calls : List FlightCall) : FlightCall → Prop
  | .following key flight | .followed key flight _ =>
      (key, flight) ∈ calls.filterMap FlightCall.flight?
  | _ => True

structure Kept (config : FlightConfig) : Prop where
  sound : ∀ call ∈ config.calls, Sound config.shared call
  led : ∀ call ∈ config.calls, Led config.calls call
  once : Pool.Distinct FlightCall.number? config.calls
  table : ∀ key flight,
    config.shared.inflight.lookup key = some flight ↔ .leading key flight ∈ config.calls

theorem kept_initial : Kept initial where
  sound := nofun
  led := nofun
  once := List.nodup_nil
  table := fun key flight => by
    refine ⟨fun found => ?_, nofun⟩
    rw [show initial.shared.inflight = ∅ from rfl, AList.lookup_empty] at found
    cases found

theorem flight_lt {table : FlightTable} {call : FlightCall} (sound : Sound table call)
    {flight : Nat} (own : call.number? = some flight) : flight < table.channels.length := by
  have there : ∃ channel, table.channels[flight]? = some channel := by
    cases call with
    | leading | publishing | closing | led =>
        cases own
        exact ⟨_, sound⟩
    | joining | following | followed | dropped => cases own
  obtain ⟨channel, found⟩ := there
  exact (List.getElem?_eq_some_iff.mp found).1

theorem Kept.single {config : FlightConfig} (kept : Kept config) : SingleFlight config where
  leader := by
    intro first second key flight other there there'
    have entry := (kept.table key flight).mpr (List.mem_iff_getElem?.mpr ⟨first, there⟩)
    have entry' := (kept.table key other).mpr (List.mem_iff_getElem?.mpr ⟨second, there'⟩)
    cases entry.symm.trans entry'
    exact kept.once.index_eq there rfl there' rfl
  led := fun member => List.mem_filterMap.mp (kept.led _ member)
  shared := by
    intro key flight result member
    obtain ⟨call, leads, own⟩ := List.mem_filterMap.mp (kept.led _ member)
    have follower := kept.sound _ member
    have leader := kept.sound _ leads
    refine ⟨call, leads, ?_⟩
    cases result with
    | none =>
        cases call with
        | leading | publishing | closing =>
            cases own
            cases follower.symm.trans leader
        | led other sent =>
            cases own
            cases follower.symm.trans leader
            exact Or.inl rfl
        | joining | following | followed | dropped => cases own
    | some outcome =>
        obtain ⟨linked, follower⟩ := follower
        cases call with
        | leading | publishing =>
            cases own
            cases follower.symm.trans leader
        | closing other sent =>
            cases own
            cases follower.symm.trans leader
            exact Or.inr ⟨rfl, rfl⟩
        | led other sent =>
            cases own
            cases follower.symm.trans leader
            exact Or.inl rfl
        | joining | following | followed | dropped => cases own
  released := by
    intro key flight sent _ ended
    have channel : config.shared.channels[flight]? = some ⟨sent, false⟩ := kept.sound _ ended
    change FlightCall.follow config.shared key flight = _
    unfold FlightCall.follow
    rw [channel]
    cases sent <;> rfl
  empty := by
    intro none key
    cases found : config.shared.inflight.lookup key with
    | none => rfl
    | some flight => exact absurd ((kept.table key flight).mp found) (none key flight)

/-! Steps. -/

theorem led_mono {calls others : List FlightCall}
    (more : calls.filterMap FlightCall.flight? ⊆ others.filterMap FlightCall.flight?)
    (call : FlightCall) (led : Led calls call) : Led others call := by
  cases call with
  | following | followed => exact more led
  | joining | leading | publishing | closing | led | dropped => trivial

theorem led_of_flight {calls : List FlightCall} {call : FlightCall} {flight : String × Nat}
    (own : call.flight? = some flight) : Led calls call := by
  cases call with
  | following | followed => cases own
  | joining | leading | publishing | closing | led | dropped => trivial

theorem sound_of_channels {table next : FlightTable}
    (same : ∀ flight < table.channels.length, next.channels[flight]? = table.channels[flight]?)
    {call : FlightCall} (sound : Sound table call) : Sound next call := by
  have kept {flight : Nat} {channel : FlightChannel}
      (found : table.channels[flight]? = some channel) : next.channels[flight]? = some channel :=
    (same flight (List.getElem?_eq_some_iff.mp found).1).trans found
  cases call with
  | leading | publishing | closing | led => exact kept sound
  | followed key flight result =>
      cases result with
      | none => exact kept sound
      | some outcome =>
          obtain ⟨linked, found⟩ := sound
          exact ⟨linked, kept found⟩
  | joining | following | dropped => trivial

theorem modifyChannel_self {table : FlightTable} {flight : Nat} {channel : FlightChannel}
    (found : table.channels[flight]? = some channel) (change : FlightChannel → FlightChannel) :
    (table.modifyChannel flight change).channels[flight]? = some (change channel) := by
  simp only [modifyChannel, List.getElem?_modify, found, if_pos]
  rfl

theorem sound_modifyChannel {table : FlightTable} {flight : Nat} {value : Option Outcome}
    (channel : table.channels[flight]? = some ⟨value, true⟩)
    {change : FlightChannel → FlightChannel}
    (keeps : ∀ outcome, value = some outcome → (change ⟨value, true⟩).value = some outcome)
    {call : FlightCall} (other : call.number? ≠ some flight)
    (sound : Sound table call) : Sound (table.modifyChannel flight change) call := by
  have elsewhere {index : Nat} (different : flight ≠ index) :
      (table.modifyChannel flight change).channels[index]? = table.channels[index]? :=
    List.getElem?_modify_ne change _ different
  have here := modifyChannel_self channel change
  cases call with
  | leading key index | publishing key index outcome | closing key index sent
  | led key index sent =>
      have different : flight ≠ index := by
        rintro rfl
        exact other rfl
      exact (elsewhere different).trans sound
  | followed key index result =>
      rcases eq_or_ne flight index with rfl | different
      · cases result with
        | none => cases channel.symm.trans sound
        | some outcome =>
            obtain ⟨linked, found⟩ := sound
            cases channel.symm.trans found
            refine ⟨(change ⟨some outcome, true⟩).linked, here.trans (congrArg some ?_)⟩
            exact congrArg (FlightChannel.mk · _) (keeps outcome rfl)
      · cases result with
        | none => exact (elsewhere different).trans sound
        | some outcome =>
            obtain ⟨linked, found⟩ := sound
            exact ⟨linked, (elsewhere different).trans found⟩
  | joining | following | dropped => trivial

section Step

variable {config : FlightConfig} {before after : List FlightCall} {call moved : FlightCall}

theorem led_act (kept : Kept config) (shape : config.calls = before ++ call :: after)
    (same : moved.flight? = call.flight?) (led : Led config.calls moved) :
    (∀ other ∈ before ++ moved :: after, Led (before ++ moved :: after) other) ∧
      Pool.Distinct FlightCall.number? (before ++ moved :: after) := by
  have flights : (before ++ moved :: after).filterMap FlightCall.flight? =
      config.calls.filterMap FlightCall.flight? := by
    rw [shape]
    exact Pool.filterMap_act same
  have leds := kept.led
  have once := kept.once
  rw [shape] at leds once
  refine ⟨Pool.forall_act leds (fun _ => led_mono (flights ▸ List.Subset.refl _) moved led) ?_,
    once.act (congrArg (Option.map Prod.snd) same)⟩
  intro other given
  rw [← shape] at given
  exact led_mono (flights ▸ List.Subset.refl _) other given

theorem Kept.quiet (kept : Kept config) (shape : config.calls = before ++ call :: after)
    (own : call.flight? = none) (new : moved.flight? = none)
    (sound : Sound config.shared moved) (led : Led config.calls moved) :
    Kept ⟨config.shared, before ++ moved :: after⟩ := by
  obtain ⟨leds, once⟩ := led_act kept shape (new.trans own.symm) led
  have sounds := kept.sound
  rw [shape] at sounds
  refine ⟨Pool.forall_act sounds (fun _ => sound) fun _ => id, leds, once, fun key flight => ?_⟩
  rw [kept.table, shape]
  refine (Pool.mem_act_iff ?_ ?_).symm
  · rintro rfl
    cases own
  · rintro rfl
    cases new

theorem Kept.channel (kept : Kept config) (shape : config.calls = before ++ call :: after)
    {key : String} {flight : Nat} {value : Option Outcome}
    (own : call.flight? = some (key, flight)) (notLeading : call ≠ .leading key flight)
    (new : moved.flight? = some (key, flight)) (notLeading' : moved ≠ .leading key flight)
    (channel : config.shared.channels[flight]? = some ⟨value, true⟩)
    {change : FlightChannel → FlightChannel}
    (keeps : ∀ outcome, value = some outcome → (change ⟨value, true⟩).value = some outcome)
    (sound : Sound (config.shared.modifyChannel flight change) moved) :
    Kept ⟨config.shared.modifyChannel flight change, before ++ moved :: after⟩ := by
  obtain ⟨leds, once⟩ := led_act kept shape (new.trans own.symm) (led_of_flight new)
  refine ⟨fun other member => ?_, leds, once, fun other index => ?_⟩
  · refine Pool.forall_moved sound (fun other present => ?_) other member
    have apart := kept.once
    rw [shape] at apart
    refine sound_modifyChannel channel keeps
      (apart.other (congrArg (Option.map Prod.snd) own) present) (kept.sound other ?_)
    rw [shape]
    exact Pool.mem_of_mem_others present
  · change config.shared.inflight.lookup other = some index ↔ _
    rw [kept.table, shape]
    refine (Pool.mem_act_iff ?_ ?_).symm
    · rintro rfl
      cases own
      exact notLeading rfl
    · rintro rfl
      cases new
      exact notLeading' rfl

theorem Kept.remove {key : String} {flight : Nat} (kept : Kept config)
    (shape : config.calls = before ++ .leading key flight :: after)
    (new : moved.flight? = some (key, flight)) (notLeading : moved ≠ .leading key flight)
    (sound : Sound config.shared moved) :
    Kept ⟨config.shared.removed key, before ++ moved :: after⟩ := by
  obtain ⟨leds, once⟩ := led_act kept shape new (led_of_flight new)
  have sounds := kept.sound
  rw [shape] at sounds
  refine ⟨Pool.forall_act sounds (fun _ => sound) fun _ => id, leds, once, fun other index => ?_⟩
  have leader : config.shared.inflight.lookup key = some flight :=
    (kept.table key flight).mpr (by rw [shape]; simp)
  have notMoved : FlightCall.leading other index ≠ moved := by
    rintro rfl
    cases new
    exact notLeading rfl
  change (config.shared.inflight.erase key).lookup other = some index ↔ _
  rcases eq_or_ne other key with rfl | different
  · rw [AList.lookup_erase]
    refine ⟨nofun, fun member => ?_⟩
    have rest : FlightCall.leading other index ∈ before ++ after := by
      simpa only [List.mem_append, List.mem_cons, notMoved, false_or] using member
    have there : FlightCall.leading other index ∈ config.calls := by
      rw [shape]
      exact Pool.mem_of_mem_others rest
    -- The entry is this leader's own.
    cases ((kept.table other index).mpr there).symm.trans leader
    have apart := kept.once
    rw [shape] at apart
    exact absurd rfl (apart.other rfl rest)
  · rw [AList.lookup_erase_ne different, kept.table, shape]
    refine (Pool.mem_act_iff ?_ notMoved).symm
    rintro ⟨⟩
    exact different rfl

theorem Kept.enter {key : String} (kept : Kept config)
    (shape : config.calls = before ++ .joining key :: after)
    (vacant : config.shared.inflight.lookup key = none) :
    Kept ⟨config.shared.entered key,
      before ++ .leading key config.shared.channels.length :: after⟩ := by
  have same : before.filterMap FlightCall.flight? ++ after.filterMap FlightCall.flight? =
      config.calls.filterMap FlightCall.flight? := by
    rw [shape, List.filterMap_append]
    rfl
  have grows : (before ++ .leading key config.shared.channels.length :: after).filterMap
      FlightCall.flight? = before.filterMap FlightCall.flight? ++
        (key, config.shared.channels.length) :: after.filterMap FlightCall.flight? := by
    rw [List.filterMap_append]
    rfl
  have sounds := kept.sound
  have leds := kept.led
  rw [shape] at sounds leds
  refine ⟨Pool.forall_act sounds (fun _ => ?_) fun other given => ?_,
    Pool.forall_act leds (fun _ => trivial) (led_mono ?_), ?_, fun other index => ?_⟩
  · exact List.getElem?_concat_length
  · exact sound_of_channels (fun index bound => List.getElem?_append_left bound) given
  · rw [← shape, ← same, grows]
    intro flight present
    simp only [List.mem_append, List.mem_cons] at present ⊢
    exact present.imp_right Or.inr
  · have once := kept.once
    rw [shape] at once
    refine once.change fun flight owns other present taken => ?_
    cases owns
    refine Nat.lt_irrefl _ (flight_lt (kept.sound other ?_) taken)
    rw [shape]
    exact Pool.mem_of_mem_others present
  · change (config.shared.inflight.insert key _).lookup other = some index ↔ _
    have new : FlightCall.leading other index = .leading key config.shared.channels.length ↔
        other = key ∧ index = config.shared.channels.length := by
      constructor
      · rintro ⟨⟩
        exact ⟨rfl, rfl⟩
      · rintro ⟨rfl, rfl⟩
        rfl
    have old : FlightCall.leading other index ∈ before ++ after ↔
        config.shared.inflight.lookup other = some index := by
      rw [kept.table, shape]
      simp only [List.mem_append, List.mem_cons, reduceCtorEq, false_or]
    have split : FlightCall.leading other index ∈
        before ++ .leading key config.shared.channels.length :: after ↔
          FlightCall.leading other index = .leading key config.shared.channels.length ∨
            FlightCall.leading other index ∈ before ++ after := by
      simp only [List.mem_append, List.mem_cons]
      exact or_left_comm
    change _ ↔ FlightCall.leading other index ∈ _
    rw [split, new, old]
    rcases eq_or_ne other key with rfl | different
    · rw [AList.lookup_insert, vacant]
      simp only [Option.some.injEq, true_and, reduceCtorEq, or_false]
      exact eq_comm
    · rw [AList.lookup_insert_ne different]
      simp only [different, false_and, false_or]

theorem Kept.act {choice : FlightChoice} {table : FlightTable} (kept : Kept config)
    (shape : config.calls = before ++ call :: after)
    (acted : call.act config.shared choice = some (table, moved)) :
    Kept ⟨table, before ++ moved :: after⟩ := by
  have member : call ∈ config.calls := by
    rw [shape]
    simp
  have own := kept.sound call member
  cases call with
  | joining key =>
      cases choice with
      | advance =>
          simp only [FlightCall.act] at acted
          split at acted
          · rename_i flight found
            cases acted
            have leader := (kept.table key flight).mp found
            exact kept.quiet shape rfl rfl trivial (List.mem_filterMap.mpr ⟨_, leader, rfl⟩)
          · rename_i vacant
            cases acted
            exact kept.enter shape vacant
      | drop =>
          cases acted
          exact kept.quiet shape rfl rfl trivial trivial
      | finish outcome => cases acted
  | leading key flight =>
      have entry := (kept.table key flight).mpr member
      cases choice with
      | finish outcome =>
          simp only [FlightCall.act, FlightCall.finish, entry] at acted
          cases acted
          exact kept.remove shape rfl nofun own
      | drop =>
          simp only [FlightCall.act, FlightCall.release, entry] at acted
          cases acted
          exact kept.remove shape rfl nofun own
      | advance => cases acted
  | publishing key flight outcome =>
      cases choice with
      | advance =>
          cases acted
          refine kept.channel shape rfl ?_ rfl ?_ own ?_ (modifyChannel_self own _)
          all_goals exact nofun
      | finish | drop => cases acted
  | closing key flight sent =>
      cases choice with
      | advance =>
          cases acted
          refine kept.channel shape rfl ?_ rfl ?_ own ?_ (modifyChannel_self own _)
          · exact nofun
          · exact nofun
          · exact fun _ => id
      | finish | drop => cases acted
  | following key flight =>
      have leader := kept.led _ member
      cases choice with
      | advance =>
          simp only [FlightCall.act, FlightCall.follow] at acted
          split at acted
          · rename_i outcome linked channel
            cases acted
            exact kept.quiet shape rfl rfl ⟨linked, channel⟩ leader
          · rename_i channel
            cases acted
            exact kept.quiet shape rfl rfl channel leader
          · cases acted
          · cases acted
      | drop =>
          cases acted
          exact kept.quiet shape rfl rfl trivial trivial
      | finish outcome => cases acted
  | led | followed | dropped => cases choice <;> cases acted

theorem Kept.start (kept : Kept config) (key : String) :
    Kept ⟨config.shared, config.calls ++ [.joining key]⟩ := by
  have same : (config.calls ++ [FlightCall.joining key]).filterMap FlightCall.flight? =
      config.calls.filterMap FlightCall.flight? := by
    rw [List.filterMap_append]
    exact List.append_nil _
  refine ⟨Pool.forall_start kept.sound trivial, Pool.forall_start (fun other member => ?_) trivial,
    kept.once.start rfl, fun other flight => ?_⟩
  · exact led_mono (same ▸ List.Subset.refl _) other (kept.led other member)
  · rw [kept.table]
    simp only [List.mem_append, List.mem_singleton, reduceCtorEq, or_false]

end Step

theorem Kept.step {config next : FlightConfig} {event : FlightEvent} (kept : Kept config)
    (taken : program.step config event = some next) : Kept next := by
  rcases Pool.Program.step_cases taken with
    ⟨key, rfl, rfl⟩ | ⟨before, call, after, choice, table, moved, rfl, shape, acted, rfl⟩
  · exact kept.start key
  · exact kept.act shape acted

/-- In every run, from an empty table. -/
theorem singleFlight (events : List FlightEvent) :
    Machine.Throughout program.step SingleFlight initial events := by
  have kept : Machine.Throughout program.step Kept initial events :=
    Machine.throughout_of_invariant Kept (fun here taken => here.step taken) kept_initial
  exact Machine.throughout_mono Kept.single kept

end FlightTable

end Dns

end QuicProxy
