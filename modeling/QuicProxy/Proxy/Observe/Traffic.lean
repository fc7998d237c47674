import QuicProxy.Data.Pool
import QuicProxy.Proxy.Observe.DstTraffic
import QuicProxy.Proxy.TargetAddr

namespace QuicProxy

/-! The operations on the traffic per destination (`src/proxy/observe.rs`), as
calls that interleave: closed connections are counted in a map in memory,
flushes move the map into a cache, and drains return and clear both. -/

structure ConnectionTracker where
  outboundTag : List String
  finalTarget : TargetAddr
  domain : Option String
  upload : Nat
  download : Nat
deriving DecidableEq

/-- `inc_upload` and `inc_download`. -/
def ConnectionTracker.inc (conn : ConnectionTracker) (upload download : Nat) :
    ConnectionTracker :=
  { conn with
    upload := (conn.upload + upload) % 18446744073709551616
    download := (conn.download + download) % 18446744073709551616 }

/-- `resolve_domain_for_target`, with what `realip2domain` has for the address. -/
def resolveDomainForTarget (cached : Option String) : TargetAddr → Option String
  | .ip addr =>
      cached.bind fun domain =>
        let domain := trim domain.toList
        if domain.isEmpty then none
        else some (String.ofList (domain ++ ':' :: Nat.toDigits 10 addr.port.toNat))
  | .domain _ _ => none

/-- The entry that `remove_connection` adds for a closed connection. -/
def ConnectionTracker.entry (conn : ConnectionTracker) (cached : Option String) (now : Nat) :
    DstTrafficEntry where
  domain :=
    (conn.domain.or (resolveDomainForTarget cached conn.finalTarget)).getD
      (String.ofList conn.finalTarget.toText)
  ip :=
    match conn.finalTarget with
    | .ip addr => String.ofList addr.toText
    | .domain _ _ => ""
  outboundTag := conn.outboundTag.head?.getD ""
  upload := conn.upload
  download := conn.download
  lastActive := now

structure TrafficState where
  connections : AList fun _ : Nat => ConnectionTracker
  dstTraffic : TrafficMap
  dstTrafficCache : Option TrafficMap
  /-- `dst_traffic_flush` is held. -/
  flushing : Bool
  /-- One entry for each connection closed so far. -/
  closed : List DstTrafficEntry
  /-- The entries returned by drains so far. -/
  returned : List DstTrafficEntry
  /-- The batches that a failed merge has dropped. -/
  dropped : List DstTrafficEntry

inductive TrafficRequest where
  | addConnection (id : Nat) (conn : ConnectionTracker)
  | traffic (id upload download : Nat)
  | removeConnection (id : Nat)
  | flushDstTraffic
  | drainDstTraffic

/-- What an operation learns from outside: what `realip2domain` answers, the
time, and the error that the cache of the traffic reports. -/
structure TrafficChoice where
  cached : Option String
  now : Nat
  fault : Option String

inductive TakeReason where
  | flush
  | drain (merged : TrafficMap)

def TakeReason.held (flow : Flow) (destination : String) : TakeReason → Nat
  | flush => 0
  | drain merged => merged.stored flow destination

/-- A call, by what it does next.  `take_dst_traffic` looks at the shards of the
map one after the other, and then removes the keys it saw one by one. -/
inductive TrafficCall (shards : Nat) where
  | addConnection (id : Nat) (conn : ConnectionTracker)
  | traffic (id upload download : Nat)
  | removeConnection (id : Nat)
  | count (entry : DstTrafficEntry)
  | checkLen
  | flush
  | drain
  | drainCache
  | collect (reason : TakeReason) (left : List (Fin shards)) (keys : List String)
  | take (reason : TakeReason) (keys : List String) (batch : List DstTrafficEntry)
  | returned

namespace TrafficCall

open DstTrafficEntry

variable {shards : Nat}

def start : TrafficRequest → TrafficCall shards
  | .addConnection id conn => addConnection id conn
  | .traffic id upload download => traffic id upload download
  | .removeConnection id => removeConnection id
  | .flushDstTraffic => flush
  | .drainDstTraffic => drain

/-- The end of a flush or a drain, with the batch it took from the map. -/
def finish (state : TrafficState) (batch : List DstTrafficEntry) (fault : Option String) :
    TakeReason → TrafficState
  | .flush =>
      match state.dstTrafficCache with
      | none => { state with flushing := false }
      | some cache =>
          match cache.mergeMany fault batch with
          | (.ok (), cache) => { state with dstTrafficCache := some cache, flushing := false }
          | (.error _, cache) =>
              { state with
                dstTrafficCache := some cache
                flushing := false
                dropped := state.dropped ++ batch }
  | .drain merged =>
      let entries := (merged.mergeAll batch).values.mergeSort fun a b => a.domain ≤ b.domain
      { state with flushing := false, returned := state.returned ++ entries }

def act (shard : String → Fin shards) (state : TrafficState) (call : TrafficCall shards)
    (choice : TrafficChoice) : Option (TrafficState × TrafficCall shards) :=
  match call with
  | addConnection id conn =>
      let conn := { conn with domain := resolveDomainForTarget choice.cached conn.finalTarget }
      some ({ state with connections := state.connections.insert id conn }, returned)
  | traffic id upload download =>
      match state.connections.lookup id with
      | none => some (state, returned)
      | some conn =>
          some ({ state with
            connections := state.connections.insert id (conn.inc upload download) },
            returned)
  | removeConnection id =>
      match state.connections.lookup id with
      | none => some (state, returned)
      | some conn =>
          -- The loads and the lookup after the removal commute with every other operation.
          let entry := conn.entry choice.cached choice.now
          some ({ state with
            connections := state.connections.erase id
            closed := state.closed ++ [entry] },
            if entry.upload = 0 ∧ entry.download = 0 then returned else count entry)
  | count entry =>
      some ({ state with dstTraffic := state.dstTraffic.combine TrafficMap.merges_count entry },
        checkLen)
  | checkLen =>
      some (state,
        if state.dstTraffic.table.entries.length ≥ dstTrafficFlushThreshold then flush
        else returned)
  | flush =>
      match state.dstTrafficCache with
      | none => some (state, returned)
      | some _ =>
          if state.flushing then some (state, returned)
          else some ({ state with flushing := true }, collect .flush (List.finRange shards) [])
  | drain =>
      if state.flushing then none else some ({ state with flushing := true }, drainCache)
  | drainCache =>
      match state.dstTrafficCache with
      | none => some (state, collect (.drain .empty) (List.finRange shards) [])
      | some cache =>
          let (merged, cache) := cache.drain choice.fault
          some ({ state with dstTrafficCache := some cache },
            collect (.drain merged) (List.finRange shards) [])
  | collect reason (index :: left) keys =>
      some (state,
        collect reason left (keys ++ state.dstTraffic.table.keys.filter (shard · = index)))
  | collect reason [] keys => some (state, take reason keys [])
  | take reason (key :: keys) batch =>
      match state.dstTraffic.table.lookup key with
      | none => some (state, take reason keys batch)
      | some entry =>
          some ({ state with dstTraffic := state.dstTraffic.remove key },
            take reason keys (batch ++ [entry]))
  | take reason [] batch => some (finish state batch choice.fault reason, returned)
  | returned => none

/-- The bytes for a destination that a call has in hand. -/
def held (flow : Flow) (destination : String) : TrafficCall shards → Nat
  | count entry => bytesTo flow destination [entry]
  | collect reason _ _ => reason.held flow destination
  | take reason _ batch => reason.held flow destination + bytesTo flow destination batch
  | _ => 0

end TrafficCall

namespace TrafficState

open DstTrafficEntry

def start (cache : Option TrafficMap) : TrafficState where
  connections := ∅
  dstTraffic := .empty
  dstTrafficCache := cache
  flushing := false
  -- What the cache has is from connections that were closed before the start.
  closed := (cache.map TrafficMap.values).getD []
  returned := []
  dropped := []

def cached (state : TrafficState) (flow : Flow) (destination : String) : Nat :=
  (state.dstTrafficCache.map (·.stored flow destination)).getD 0

/-- The bytes for a destination that drains returned or that are still in the
map or the cache. -/
def kept (state : TrafficState) (flow : Flow) (destination : String) : Nat :=
  bytesTo flow destination state.returned + state.dstTraffic.stored flow destination +
    state.cached flow destination

end TrafficState

def TrafficCall.program {shards : Nat} (shard : String → Fin shards) :
    Pool.Program TrafficState (TrafficCall shards) TrafficRequest TrafficChoice where
  start := TrafficCall.start
  act config := TrafficCall.act shard config.shared

abbrev TrafficConfig (shards : Nat) := Pool.Config TrafficState (TrafficCall shards)

abbrev TrafficEvent := Pool.Event TrafficRequest TrafficChoice

namespace TrafficConfig

open DstTrafficEntry

variable {shards : Nat}

def start (cache : Option TrafficMap) : TrafficConfig shards := ⟨.start cache, []⟩

/-- The bytes of the closed connections are all accounted for. -/
def Conserved (config : TrafficConfig shards) : Prop :=
  ∀ flow destination,
    bytesTo flow destination config.shared.closed =
      config.shared.kept flow destination +
        (config.calls.map (TrafficCall.held flow destination)).sum

/-- No counter has to saturate. -/
def Small (config : TrafficConfig shards) : Prop :=
  ∀ flow destination, bytesTo flow destination config.shared.closed ≤ u64Max

def MergeFails (config : TrafficConfig shards) (event : TrafficEvent) : Prop :=
  ∃ index choice batch, event = .advance index choice ∧
    config.calls[index]? = some (.take .flush [] batch) ∧ batch ≠ [] ∧
      config.shared.dstTrafficCache.isSome ∧ choice.fault.isSome

end TrafficConfig

/-! Every operation moves bytes, and only a failed merge drops them. -/

namespace TrafficCall

open DstTrafficEntry

variable {shards : Nat} {shard : String → Fin shards} {state next : TrafficState}
  {call moved : TrafficCall shards} {choice : TrafficChoice} {flow : Flow} {destination : String}

theorem finish_failed {batch : List DstTrafficEntry} {error : String} {cache : TrafficMap}
    (some_entry : batch ≠ []) (present : state.dstTrafficCache = some cache) :
    finish state batch (some error) .flush =
      { state with flushing := false, dropped := state.dropped ++ batch } := by
  simp only [finish, present, TrafficMap.mergeMany_failed error some_entry]

theorem finish_merged {batch : List DstTrafficEntry} {fault : Option String}
    {cache : TrafficMap} (fine : batch = [] ∨ fault = none)
    (present : state.dstTrafficCache = some cache) :
    finish state batch fault .flush =
      { state with dstTrafficCache := some (cache.mergeAll batch), flushing := false } := by
  simp only [finish, present, TrafficMap.mergeMany_merged fine]

theorem finish_moves (reason : TakeReason) (batch : List DstTrafficEntry)
    (fault : Option String) (ready : reason = .flush → state.dstTrafficCache.isSome)
    (small : state.kept flow destination +
      (reason.held flow destination + bytesTo flow destination batch) ≤ u64Max) :
    (finish state batch fault reason).kept flow destination +
        bytesTo flow destination (finish state batch fault reason).dropped =
      state.kept flow destination +
        (reason.held flow destination + bytesTo flow destination batch) +
          bytesTo flow destination state.dropped := by
  cases reason with
  | flush =>
      obtain ⟨cache, present⟩ := Option.isSome_iff_exists.mp (ready rfl)
      by_cases fine : batch = [] ∨ fault = none
      · have within : cache.stored flow destination + bytesTo flow destination batch ≤ u64Max := by
          simp only [TrafficState.kept, TrafficState.cached, TakeReason.held, present,
            Option.map_some, Option.getD_some] at small
          omega
        rw [finish_merged fine present]
        simp only [TrafficState.kept, TrafficState.cached, TakeReason.held, present,
          Option.map_some, Option.getD_some, TrafficMap.stored_mergeAll cache batch within]
        omega
      · obtain ⟨some_entry, failed⟩ := not_or.mp fine
        obtain ⟨error, rfl⟩ := Option.ne_none_iff_exists'.mp failed
        rw [finish_failed some_entry present]
        simp only [TrafficState.kept, TrafficState.cached, TakeReason.held, bytesTo_append]
        omega
  | drain merged =>
      have whole := TrafficMap.stored_mergeAll merged batch
        (show merged.stored flow destination + bytesTo flow destination batch ≤ u64Max by
          simp only [TakeReason.held] at small
          omega)
      have sorted : bytesTo flow destination
          ((merged.mergeAll batch).values.mergeSort fun a b => a.domain ≤ b.domain) =
            (merged.mergeAll batch).stored flow destination :=
        (bytesTo_perm (List.mergeSort_perm ..)).trans (TrafficMap.bytesTo_values _)
      simp only [TrafficState.kept, TrafficState.cached, TakeReason.held, finish,
        bytesTo_append, sorted, whole]
      omega

theorem closed_finish (reason : TakeReason) (batch : List DstTrafficEntry)
    (fault : Option String) : (finish state batch fault reason).closed = state.closed := by
  cases reason with
  | flush =>
      simp only [finish]
      split
      · rfl
      · split <;> rfl
  | drain merged => rfl

theorem act_moves (acted : act shard state call choice = some (next, moved))
    (ready : ∀ batch, call = take .flush [] batch → state.dstTrafficCache.isSome)
    (small : state.kept flow destination + call.held flow destination ≤ u64Max) :
    next.kept flow destination + moved.held flow destination +
        bytesTo flow destination next.dropped + bytesTo flow destination state.closed =
      state.kept flow destination + call.held flow destination +
        bytesTo flow destination state.dropped + bytesTo flow destination next.closed := by
  cases call with
  | addConnection id conn =>
      cases acted
      rfl
  | traffic id upload download =>
      simp only [act] at acted
      split at acted <;> cases acted <;> rfl
  | removeConnection id =>
      simp only [act] at acted
      split at acted
      · cases acted
        rfl
      · rename_i conn found
        cases acted
        simp only [TrafficState.kept, TrafficState.cached, bytesTo_append]
        split
        · rename_i idle
          have nothing : bytesTo flow destination [conn.entry choice.cached choice.now] = 0 := by
            cases flow <;> simp [bytesTo_cons, amount, idle]
          rw [nothing]
          rfl
        · simp only [held]
          omega
  | count entry =>
      cases acted
      simp only [held, TrafficState.kept, TrafficState.cached] at small ⊢
      rw [TrafficMap.stored_combine TrafficMap.merges_count _ _ (by omega)]
      omega
  | checkLen =>
      cases acted
      split <;> rfl
  | flush =>
      simp only [act] at acted
      split at acted
      · cases acted
        rfl
      · split at acted <;> cases acted <;> rfl
  | drain =>
      simp only [act] at acted
      split at acted
      · cases acted
      · cases acted
        rfl
  | drainCache =>
      simp only [act] at acted
      split at acted
      · cases acted
        rfl
      · rename_i cache found
        cases acted
        have same : (cache.drain choice.fault).1.stored flow destination +
            (cache.drain choice.fault).2.stored flow destination =
              cache.stored flow destination := TrafficMap.stored_drain ..
        simp only [held, TakeReason.held, TrafficState.kept, TrafficState.cached, found,
          Option.map_some, Option.getD_some]
        omega
  | collect reason left keys =>
      cases left with
      | nil =>
          cases acted
          rfl
      | cons index left =>
          cases acted
          rfl
  | take reason keys batch =>
      cases keys with
      | nil =>
          cases acted
          have moves := finish_moves reason batch choice.fault
            (fun same => ready batch (by rw [same])) small
          rw [closed_finish]
          simp only [held]
          omega
      | cons key keys =>
          simp only [act] at acted
          split at acted
          · cases acted
            rfl
          · rename_i entry found
            cases acted
            have domain := state.dstTraffic.keyed _ _ found
            simp only [held, TrafficState.kept, TrafficState.cached, bytesTo_append,
              TrafficMap.stored_remove, bytesTo_cons, bytesTo_nil, domain]
            by_cases same : key = destination
            · subst same
              rw [if_pos rfl, if_pos rfl, TrafficMap.stored_of_lookup found]
              omega
            · rw [if_neg same, if_neg same]
              omega
  | returned => cases acted

/-- Entries have traffic from the start on, and only flushes with a cache take
batches. -/
def Sound (state : TrafficState) : TrafficCall shards → Prop
  | count entry => entry.Busy
  | collect reason _ _ => reason = .flush → state.dstTrafficCache.isSome
  | take reason _ batch =>
      (reason = .flush → state.dstTrafficCache.isSome) ∧ ∀ entry ∈ batch, entry.Busy
  | _ => True

theorem Sound.mono {other : TrafficCall shards} (sound : other.Sound state)
    (same : next.dstTrafficCache.isSome = state.dstTrafficCache.isSome) :
    other.Sound next := by
  cases other with
  | collect reason left keys => exact fun flush => same.trans (sound flush)
  | take reason keys batch => exact ⟨fun flush => same.trans (sound.1 flush), sound.2⟩
  | _ => exact sound

/-- The batch that an operation drops. -/
def lost (state : TrafficState) (choice : TrafficChoice) :
    TrafficCall shards → List DstTrafficEntry
  | take .flush [] batch =>
      if state.dstTrafficCache.isSome ∧ choice.fault.isSome then batch else []
  | _ => []

def AllBusy (state : TrafficState) : Prop :=
  ∀ key entry, state.dstTraffic.table.lookup key = some entry → entry.Busy

/-- What an operation leaves alone, whatever it moves. -/
structure Effect (state : TrafficState) (call : TrafficCall shards) (choice : TrafficChoice)
    (next : TrafficState) (moved : TrafficCall shards) : Prop where
  cache : next.dstTrafficCache.isSome = state.dstTrafficCache.isSome
  closed : state.closed <+: next.closed
  dropped : next.dropped = state.dropped ++ call.lost state choice
  busy : AllBusy state → call.Sound state → AllBusy next
  sound : AllBusy state → call.Sound state → moved.Sound next

/-- An operation on other parts of the state, in a call that takes no batch. -/
theorem Effect.quiet (cache : next.dstTrafficCache.isSome = state.dstTrafficCache.isSome)
    (closed : state.closed <+: next.closed) (dropped : next.dropped = state.dropped)
    (map : next.dstTraffic = state.dstTraffic) (nothing : call.lost state choice = [])
    (sound : AllBusy state → call.Sound state → moved.Sound next) :
    Effect state call choice next moved where
  cache := cache
  closed := closed
  dropped := by rw [dropped, nothing, List.append_nil]
  busy all _ := by
    intro key entry found
    rw [map] at found
    exact all key entry found
  sound := sound

theorem effect_count (entry : DstTrafficEntry) :
    Effect state (count entry : TrafficCall shards) choice
      { state with dstTraffic := state.dstTraffic.combine TrafficMap.merges_count entry }
      checkLen where
  cache := rfl
  closed := List.prefix_rfl
  dropped := (List.append_nil _).symm
  busy all own := by
    intro key found hit
    simp only [TrafficMap.combine, Cache.mergeEntry] at hit
    by_cases same : key = entry.domain
    · subst same
      split at hit
      · rename_i current present
        rw [AList.lookup_insert] at hit
        cases hit
        exact (all _ _ present).count entry
      · rw [AList.lookup_insert] at hit
        cases hit
        exact own
    · split at hit <;> (rw [AList.lookup_insert_ne same] at hit; exact all key found hit)
  sound _ _ := trivial

theorem effect_take {reason : TakeReason} {key : String} {keys : List String}
    {batch : List DstTrafficEntry} {entry : DstTrafficEntry}
    (found : state.dstTraffic.table.lookup key = some entry) :
    Effect state (take reason (key :: keys) batch : TrafficCall shards) choice
      { state with dstTraffic := state.dstTraffic.remove key }
      (take reason keys (batch ++ [entry])) where
  cache := rfl
  closed := List.prefix_rfl
  dropped := by simp [lost]
  busy all _ := by
    intro other value hit
    simp only [KeyedTable.remove] at hit
    by_cases same : other = key
    · subst same
      rw [AList.lookup_erase] at hit
      cases hit
    · rw [AList.lookup_erase_ne same] at hit
      exact all other value hit
  sound all own := by
    refine ⟨own.1, ?_⟩
    intro value member
    rcases List.mem_append.mp member with earlier | last
    · exact own.2 value earlier
    · rw [List.mem_singleton.mp last]
      exact all key entry found

theorem effect_finish (reason : TakeReason) (batch : List DstTrafficEntry) :
    Effect state (take reason [] batch : TrafficCall shards) choice
      (finish state batch choice.fault reason) returned := by
  cases reason with
  | drain merged => exact .quiet rfl List.prefix_rfl rfl rfl rfl fun _ _ => trivial
  | flush =>
      cases present : state.dstTrafficCache with
      | none =>
          have none_lost : (take .flush [] batch : TrafficCall shards).lost state choice = [] := by
            simp [lost, present]
          refine .quiet ?_ ?_ ?_ ?_ none_lost fun _ _ => trivial <;> simp [finish, present]
      | some cache =>
          by_cases fine : batch = [] ∨ choice.fault = none
          · rw [finish_merged fine present]
            refine .quiet (by simp [present]) List.prefix_rfl rfl rfl ?_ fun _ _ => trivial
            simp only [lost, present]
            rcases fine with rfl | clean
            · exact ite_self _
            · simp [clean]
          · obtain ⟨some_entry, failed⟩ := not_or.mp fine
            obtain ⟨error, fault⟩ := Option.ne_none_iff_exists'.mp failed
            rw [fault, finish_failed some_entry present]
            refine ⟨rfl, List.prefix_rfl, ?_, fun all _ => all, fun _ _ => trivial⟩
            simp [lost, present, fault]

theorem act_effect (acted : act shard state call choice = some (next, moved)) :
    Effect state call choice next moved := by
  cases call with
  | addConnection id conn =>
      cases acted
      exact .quiet rfl List.prefix_rfl rfl rfl rfl fun _ _ => trivial
  | traffic id upload download =>
      simp only [act] at acted
      split at acted <;> cases acted <;>
        exact .quiet rfl List.prefix_rfl rfl rfl rfl fun _ _ => trivial
  | removeConnection id =>
      simp only [act] at acted
      split at acted
      · cases acted
        exact .quiet rfl List.prefix_rfl rfl rfl rfl fun _ _ => trivial
      · cases acted
        refine .quiet rfl (List.prefix_append ..) rfl rfl rfl fun _ _ => ?_
        split
        · trivial
        · rename_i active
          exact not_and_or.mp active
  | count entry =>
      cases acted
      exact effect_count entry
  | checkLen =>
      cases acted
      refine .quiet rfl List.prefix_rfl rfl rfl rfl fun _ _ => ?_
      split <;> trivial
  | flush =>
      simp only [act] at acted
      split at acted
      · cases acted
        exact .quiet rfl List.prefix_rfl rfl rfl rfl fun _ _ => trivial
      · rename_i cache present
        split at acted
        · cases acted
          exact .quiet rfl List.prefix_rfl rfl rfl rfl fun _ _ => trivial
        · cases acted
          refine .quiet rfl List.prefix_rfl rfl rfl rfl fun _ _ _ => ?_
          rw [present]
          rfl
  | drain =>
      simp only [act] at acted
      split at acted
      · cases acted
      · cases acted
        exact .quiet rfl List.prefix_rfl rfl rfl rfl fun _ _ => trivial
  | drainCache =>
      simp only [act] at acted
      split at acted
      · cases acted
        exact .quiet rfl List.prefix_rfl rfl rfl rfl fun _ _ flush => by cases flush
      · rename_i cache present
        cases acted
        refine .quiet ?_ List.prefix_rfl rfl rfl rfl fun _ _ flush => by cases flush
        rw [present]
        rfl
  | collect reason left keys =>
      cases left with
      | nil =>
          cases acted
          refine .quiet rfl List.prefix_rfl rfl rfl rfl fun _ own => ⟨own, ?_⟩
          simp
      | cons index left =>
          cases acted
          exact .quiet rfl List.prefix_rfl rfl rfl rfl fun _ own => own
  | take reason keys batch =>
      cases keys with
      | nil =>
          cases acted
          exact effect_finish reason batch
      | cons key keys =>
          simp only [act] at acted
          split at acted
          · cases acted
            exact .quiet rfl List.prefix_rfl rfl rfl (by simp [lost]) fun _ own => own
          · rename_i entry found
            cases acted
            exact effect_take found
  | returned => cases acted

end TrafficCall

end QuicProxy
