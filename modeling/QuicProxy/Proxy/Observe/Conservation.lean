import QuicProxy.Proxy.Observe.Traffic

namespace QuicProxy

/-! Whole runs of the traffic operations: no byte of a closed connection is lost
or counted twice unless a merge into the cache fails. -/

namespace TrafficConfig

open DstTrafficEntry

variable {shards : Nat} {shard : String → Fin shards} {config next final : TrafficConfig shards}
  {event : TrafficEvent} {events : List TrafficEvent}

structure Sound (config : TrafficConfig shards) : Prop where
  map : TrafficCall.AllBusy config.shared
  dropped : ∀ entry ∈ config.shared.dropped, entry.Busy
  calls : ∀ call ∈ config.calls, call.Sound config.shared

/-- The bytes of the closed connections, with those of the dropped batches. -/
def Balanced (config : TrafficConfig shards) : Prop :=
  ∀ flow destination,
    bytesTo flow destination config.shared.closed =
      config.shared.kept flow destination +
        (config.calls.map (TrafficCall.held flow destination)).sum +
          bytesTo flow destination config.shared.dropped

theorem held_start (flow : Flow) (destination : String) (request : TrafficRequest) :
    (TrafficCall.start request : TrafficCall shards).held flow destination = 0 := by
  cases request <;> rfl

theorem sound_start (state : TrafficState) (request : TrafficRequest) :
    (TrafficCall.start request : TrafficCall shards).Sound state := by
  cases request <;> exact trivial

theorem busy_lost {state : TrafficState} {call : TrafficCall shards} {choice : TrafficChoice}
    (sound : call.Sound state) : ∀ entry ∈ call.lost state choice, entry.Busy := by
  intro entry member
  simp only [TrafficCall.lost] at member
  split at member
  · split at member
    · exact sound.2 entry member
    · cases member
  · cases member

theorem Sound.step (sound : Sound config)
    (taken : (TrafficCall.program shard).step config event = some next) : Sound next := by
  rcases Pool.Program.step_cases taken with
    ⟨request, -, rfl⟩ | ⟨before, call, after, choice, shared, moved, -, calls, acted, rfl⟩
  · exact ⟨sound.map, sound.dropped, Pool.forall_start sound.calls (sound_start ..)⟩
  · have effect := TrafficCall.act_effect acted
    have own : call.Sound config.shared := sound.calls call (by simp [calls])
    refine ⟨effect.busy sound.map own, ?_, ?_⟩
    · intro entry member
      rw [effect.dropped] at member
      rcases List.mem_append.mp member with earlier | new
      · exact sound.dropped entry earlier
      · exact busy_lost own entry new
    · refine Pool.forall_act (calls ▸ sound.calls) ?_ ?_
      · exact effect.sound sound.map
      · exact fun other holds => holds.mono effect.cache

theorem Small.of_step (small : Small next)
    (taken : (TrafficCall.program shard).step config event = some next) : Small config := by
  intro flow destination
  refine le_trans ?_ (small flow destination)
  rcases Pool.Program.step_cases taken with
    ⟨request, -, rfl⟩ | ⟨before, call, after, choice, shared, moved, -, calls, acted, rfl⟩
  · exact le_rfl
  · obtain ⟨more, whole⟩ := (TrafficCall.act_effect acted).closed
    rw [← whole, bytesTo_append]
    exact Nat.le_add_right ..

theorem Balanced.step (balanced : Balanced config) (sound : Sound config) (small : Small config)
    (taken : (TrafficCall.program shard).step config event = some next) : Balanced next := by
  intro flow destination
  have before_eq := balanced flow destination
  have bound := small flow destination
  rcases Pool.Program.step_cases taken with
    ⟨request, -, rfl⟩ | ⟨before, call, after, choice, shared, moved, -, calls, acted, rfl⟩
  · simp only [List.map_append, List.sum_append, List.map_cons, List.map_nil, List.sum_cons,
      List.sum_nil, TrafficCall.program, held_start, Nat.add_zero]
    exact before_eq
  · have own : call.Sound config.shared := sound.calls call (by simp [calls])
    simp only [calls, List.map_append, List.sum_append, List.map_cons, List.sum_cons]
      at before_eq ⊢
    have moves := TrafficCall.act_moves acted (fun batch same => by
        subst same
        exact own.1 rfl)
      (show config.shared.kept flow destination + call.held flow destination ≤ u64Max by omega)
    omega

theorem mergeFails_iff {before after : List (TrafficCall shards)} {call : TrafficCall shards}
    {choice : TrafficChoice} (calls : config.calls = before ++ call :: after) :
    MergeFails config (.advance before.length choice) ↔
      call.lost config.shared choice ≠ [] := by
  have found : config.calls[before.length]? = some call := by simp [calls]
  constructor
  · intro given
    obtain ⟨_, _, batch, same, taking, some_entry, cached, failed⟩ := given
    cases same
    rw [found] at taking
    cases taking
    simpa [TrafficCall.lost, cached, failed] using some_entry
  · intro some_lost
    simp only [TrafficCall.lost] at some_lost
    split at some_lost
    · rename_i batch
      split at some_lost
      · rename_i fails
        exact ⟨_, choice, batch, rfl, found, some_lost, fails.1, fails.2⟩
      · exact absurd rfl some_lost
    · exact absurd rfl some_lost

theorem dropped_step (taken : (TrafficCall.program shard).step config event = some next) :
    next.shared.dropped = [] ↔ ¬MergeFails config event ∧ config.shared.dropped = [] := by
  rcases Pool.Program.step_cases taken with
    ⟨request, rfl, rfl⟩ | ⟨before, call, after, choice, shared, moved, rfl, calls, acted, rfl⟩
  · refine (and_iff_right ?_).symm
    intro given
    obtain ⟨_, _, _, same, _⟩ := given
    cases same
  · rw [mergeFails_iff calls, not_not, and_comm]
    change shared.dropped = [] ↔ _
    rw [(TrafficCall.act_effect acted).dropped, List.append_eq_nil_iff]

theorem dropped_run
    (ran : Machine.run (TrafficCall.program shard).step config events = some final) :
    final.shared.dropped = [] ↔ config.shared.dropped = [] ∧
      Machine.Within (TrafficCall.program shard).step
        (fun config event => ¬MergeFails config event) config events := by
  apply Machine.run_iff_within (fun _ => True) (fun config => config.shared.dropped = [])
    (fun _ _ => trivial) ?_ trivial ran
  intro config event next _ taken
  exact (dropped_step taken).trans and_comm

theorem conserved_iff_dropped (sound : Sound config) (balanced : Balanced config) :
    Conserved config ↔ config.shared.dropped = [] := by
  constructor
  · intro conserved
    apply eq_nil_of_bytesTo sound.dropped
    intro flow destination
    have equal := balanced flow destination
    rw [conserved flow destination] at equal
    omega
  · intro none flow destination
    simpa [none] using balanced flow destination

theorem sound_initial (cache : Option TrafficMap) : Sound (start cache : TrafficConfig shards) where
  map key entry found := by cases found
  dropped := by simp [start, TrafficState.start]
  calls := by simp [start]

theorem balanced_initial (cache : Option TrafficMap) :
    Balanced (start cache : TrafficConfig shards) := by
  intro flow destination
  cases cache with
  | none => rfl
  | some map =>
      simp only [start, TrafficState.start, TrafficState.kept, TrafficState.cached,
        Option.map_some, Option.getD_some, TrafficMap.bytesTo_values]
      simp

/-- In the state that a run reaches, the bytes of all closed connections are the
bytes returned, in the map, in the cache and in hand, exactly when no merge of
entries into the cache has failed. -/
theorem conserved_iff (cache : Option TrafficMap) (shard : String → Fin shards)
    (ran : Machine.run (TrafficCall.program shard).step (start cache) events = some final)
    (small : Small final) :
    Conserved final ↔
      Machine.Within (TrafficCall.program shard).step
        (fun config event => ¬MergeFails config event) (start cache) events := by
  have kept : Sound final ∧ (Small final → Balanced final) := by
    refine Machine.run_invariant (fun config => Sound config ∧ (Small config → Balanced config))
      ?_ ⟨sound_initial cache, fun _ => balanced_initial cache⟩ ran
    intro config event next holds taken
    refine ⟨holds.1.step taken, fun small => ?_⟩
    have earlier := small.of_step taken
    exact (holds.2 earlier).step holds.1 earlier taken
  rw [conserved_iff_dropped kept.1 (kept.2 small), dropped_run ran]
  exact and_iff_right rfl

theorem within_of_healthy
    (healthy : ∀ index choice, .advance index choice ∈ events → choice.fault = none) :
    Machine.Within (TrafficCall.program shard).step
      (fun config event => ¬MergeFails config event) config events := by
  apply Machine.within_of_forall
  intro event member config given
  obtain ⟨index, choice, _, rfl, _, _, _, failed⟩ := given
  rw [healthy index choice member] at failed
  cases failed

/-- A connection to `example.org:443` with ten bytes up and twenty down is
closed, and a flush then moves its entry with the given error of the cache. -/
def closeAndFlush (fault : Option String) : List TrafficEvent :=
  let conn : ConnectionTracker := ⟨["direct"], .domain "example.org" 443, none, 0, 0⟩
  let choice : TrafficChoice := ⟨none, 1700000000, none⟩
  [.start (.addConnection 1 conn), .advance 0 choice,
    .start (.traffic 1 10 20), .advance 1 choice,
    .start (.removeConnection 1), .advance 2 choice, .advance 2 choice, .advance 2 choice,
    .start .flushDstTraffic, .advance 3 choice, .advance 3 choice, .advance 3 choice,
    .advance 3 choice, .advance 3 { choice with fault }]

theorem small_of_closed
    (closed : config.shared.closed = [⟨"example.org:443", "", "direct", 10, 20, 1700000000⟩]) :
    Small config := by
  intro flow destination
  rw [closed, bytesTo_cons, bytesTo_nil, Nat.add_zero]
  split
  · cases flow <;> decide
  · exact Nat.zero_le _

theorem conserved_flushed :
    ∃ final, Machine.run (TrafficCall.program fun _ => (0 : Fin 1)).step (start (some .empty))
        (closeAndFlush none) = some final ∧ Small final ∧ Conserved final := by
  have healthy : ∀ index choice,
      Pool.Event.advance index choice ∈ closeAndFlush none → choice.fault = none := by
    intro index choice member
    simp only [closeAndFlush, List.mem_cons, reduceCtorEq, false_or, Pool.Event.advance.injEq,
      List.not_mem_nil, or_false] at member
    grind
  obtain ⟨final, ran, closed⟩ : ∃ final,
      Machine.run (TrafficCall.program fun _ => (0 : Fin 1)).step (start (some .empty))
          (closeAndFlush none) = some final ∧
        final.shared.closed = [⟨"example.org:443", "", "direct", 10, 20, 1700000000⟩] :=
    ⟨_, rfl, rfl⟩
  have small := small_of_closed closed
  exact ⟨final, ran, small, (conserved_iff _ _ ran small).mpr (within_of_healthy healthy)⟩

theorem failedFlush_not_conserved :
    ∃ final, Machine.run (TrafficCall.program fun _ => (0 : Fin 1)).step (start (some .empty))
        (closeAndFlush (some "disk full")) = some final ∧ Small final ∧
      ¬Conserved final := by
  refine ⟨_, rfl, small_of_closed rfl, ?_⟩
  intro conserved
  have uploaded := conserved .upload "example.org:443"
  revert uploaded
  decide

end TrafficConfig

end QuicProxy
