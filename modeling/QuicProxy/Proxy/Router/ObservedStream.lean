import QuicProxy.Data.AsyncStream
import QuicProxy.Data.Machine
import QuicProxy.Data.Total
import QuicProxy.Proxy.Observe.Stats

namespace QuicProxy

/-! The two `ObservedStream` wrappers of each TCP connection
(`src/proxy/router/observe.rs`) and how the router makes them
(`wrap_streams_with_observer` in `src/proxy/router.rs`). -/

structure ObservedStream where
  stats : StatsRef
  extraStats : Option StatsRef
  userStats : Option StatsRef
  isInbound : Bool

namespace ObservedStream

/-- `ObservedStream::new`. -/
def opened (stream : ObservedStream) (all : AllStats) : AllStats :=
  let all := all.modify stream.stats .incActiveTcp
  let all := all.modifyOption stream.extraStats .incActiveTcp
  if stream.isInbound then all.modifyOption stream.userStats .incActiveTcp else all

/-- `Drop`. -/
def dropped (stream : ObservedStream) (all : AllStats) : AllStats :=
  let all := all.modify stream.stats .decActiveTcp
  let all := all.modifyOption stream.extraStats .decActiveTcp
  if stream.isInbound then all.modifyOption stream.userStats .decActiveTcp else all

/-- What `poll_read` and `poll_write` do with the number of bytes. -/
def count (stream : ObservedStream) (way : TrafficWay) (count : Nat) (all : AllStats)
    (tracker : TrackedBytes) : AllStats × TrackedBytes :=
  let all := all.modify stream.stats (.inc way count)
  let (all, tracker) :=
    if stream.isInbound then
      ((all.modify .global (.addWay way count)).modifyOption stream.userStats (.inc way count),
        tracker.inc way count)
    else (all, tracker)
  (all.modifyOption stream.extraStats (.inc way count), tracker)

def readWay (stream : ObservedStream) : TrafficWay :=
  if stream.isInbound then .upload else .download

def writeWay (stream : ObservedStream) : TrafficWay :=
  if stream.isInbound then .download else .upload

def pollRead (stream : ObservedStream) (read : PollRead) (all : AllStats)
    (tracker : TrackedBytes) : AllStats × TrackedBytes :=
  match read with
  | .ready bytes =>
      if bytes.length > 0 then stream.count stream.readWay bytes.length all tracker
      else (all, tracker)
  | _ => (all, tracker)

def pollWrite (stream : ObservedStream) (result : Poll (Except String Nat)) (all : AllStats)
    (tracker : TrackedBytes) : AllStats × TrackedBytes :=
  match result with
  | .ready (.ok n) =>
      if n > 0 then stream.count stream.writeWay n all tracker else (all, tracker)
  | _ => (all, tracker)

def openedRefs (stream : ObservedStream) : List StatsRef :=
  stream.stats :: (stream.extraStats.toList ++
    if stream.isInbound then stream.userStats.toList else [])

def countedRefs (stream : ObservedStream) : List StatsRef :=
  stream.stats :: ((if stream.isInbound then .global :: stream.userStats.toList else []) ++
    stream.extraStats.toList)

variable {stream : ObservedStream} {all : AllStats}

theorem opened_eq : stream.opened all = all.modifyAll stream.openedRefs .incActiveTcp := by
  unfold opened openedRefs
  simp only [AllStats.modifyOption_eq]
  split
  · exact (AllStats.modifyAll_append ..).symm
  · rw [List.append_nil]
    rfl

theorem dropped_eq : stream.dropped all = all.modifyAll stream.openedRefs .decActiveTcp := by
  unfold dropped openedRefs
  simp only [AllStats.modifyOption_eq]
  split
  · exact (AllStats.modifyAll_append ..).symm
  · rw [List.append_nil]
    rfl

theorem count_fst {way : TrafficWay} {n : Nat} {tracker : TrackedBytes} :
    (stream.count way n all tracker).1 = all.modifyAll stream.countedRefs (.inc way n) := by
  have same : Stats.addWay way n = Stats.inc way n := funext (Stats.addWay_eq_inc way n)
  unfold count countedRefs
  split
  · simp only [same, AllStats.modifyOption_eq]
    exact (AllStats.modifyAll_append ..).symm
  · exact AllStats.modifyOption_eq ..

theorem mem_openedRefs {ref : StatsRef} (other : ref ≠ .global) :
    ref ∈ stream.openedRefs ↔ ref ∈ stream.countedRefs := by
  unfold openedRefs countedRefs
  split <;> simp [other, or_comm]

theorem nodup_openedRefs (distinct : stream.countedRefs.Nodup) : stream.openedRefs.Nodup := by
  unfold openedRefs
  unfold countedRefs at distinct
  split
  · next inbound =>
      rw [if_pos inbound] at distinct
      have fewer : (stream.stats :: (stream.userStats.toList ++ stream.extraStats.toList)).Nodup :=
        distinct.sublist ((List.sublist_cons_self _ _).cons_cons _)
      exact (List.perm_append_comm.cons _).nodup_iff.mp fewer
  · next outbound =>
      rw [if_neg outbound] at distinct
      rwa [List.append_nil]

theorem bytes_opened (ref : StatsRef) (way : TrafficWay) :
    (stream.opened all ref).bytes way = (all ref).bytes way := by
  rw [opened_eq]
  exact AllStats.bytes_modifyAll (Stats.bytes_incActiveTcp · way) ..

theorem active_opened (ref : StatsRef) (distinct : stream.countedRefs.Nodup) :
    (stream.opened all ref).activeTcpConns =
      (all ref).activeTcpConns + if ref ∈ stream.openedRefs then 1 else 0 := by
  rw [opened_eq, AllStats.modifyAll_apply (nodup_openedRefs distinct)]
  split <;> rfl

theorem bytes_dropped (ref : StatsRef) (way : TrafficWay) :
    (stream.dropped all ref).bytes way = (all ref).bytes way := by
  rw [dropped_eq]
  exact AllStats.bytes_modifyAll (Stats.bytes_decActiveTcp · way) ..

theorem active_dropped (ref : StatsRef) (distinct : stream.countedRefs.Nodup) :
    (stream.dropped all ref).activeTcpConns =
      (all ref).activeTcpConns - if ref ∈ stream.openedRefs then 1 else 0 := by
  rw [dropped_eq, AllStats.modifyAll_apply (nodup_openedRefs distinct)]
  split <;> rfl

theorem count_snd {way : TrafficWay} {n : Nat} {tracker : TrackedBytes} :
    (stream.count way n all tracker).2 =
      if stream.isInbound then tracker.inc way n else tracker := by
  unfold count
  split <;> rfl

theorem count_zero {way : TrafficWay} {tracker : TrackedBytes} :
    stream.count way 0 all tracker = (all, tracker) := by
  have same : Stats.inc way 0 = id := by
    funext stats
    cases way <;> simp [Stats.inc]
  have none : ∀ (stats : AllStats) (refs : List StatsRef), stats.modifyAll refs id = stats := by
    intro stats refs
    induction refs generalizing stats with
    | nil => rfl
    | cons ref refs ih => exact (congrArg (AllStats.modifyAll · refs id)
        (Function.update_eq_self ref stats)).trans (ih stats)
  refine Prod.ext (count_fst.trans ?_) (count_snd.trans ?_)
  · rw [same]
    exact none ..
  · cases way <;> simp [TrackedBytes.inc]

/-- A read counts the bytes it gives, and nothing when it waits, fails or ends. -/
theorem pollRead_eq (read : PollRead) (tracker : TrackedBytes) :
    stream.pollRead read all tracker =
      stream.count stream.readWay read.bytes.length all tracker := by
  cases read with
  | pending | failed error => exact count_zero.symm
  | ready bytes =>
      simp only [pollRead]
      split
      · rfl
      · next nothing =>
          rw [show (PollRead.bytes (.ready bytes)).length = 0 by change bytes.length = 0; omega]
          exact count_zero.symm

theorem pollWrite_eq (result : Poll (Except String Nat)) (tracker : TrackedBytes) :
    stream.pollWrite result all tracker =
      stream.count stream.writeWay (reported result) all tracker := by
  match result with
  | .pending | .ready (.error error) => exact count_zero.symm
  | .ready (.ok n) =>
      simp only [pollWrite]
      split
      · rfl
      · next nothing =>
          rw [show reported (.ready (.ok n)) = 0 by change n = 0; omega]
          exact count_zero.symm

end ObservedStream

/-- The arguments of `wrap_streams_with_observer` that choose the counters; the
user is given by the account that its `Stats` belong to. -/
structure RoutedStream where
  inboundTag : String
  outbound : OutboundNode
  user : Option Nat

namespace RoutedStream

/-- `wrap_streams_with_observer` with an observer: the inbound and the outbound
wrapper of the connection with this number. -/
def wrap (routed : RoutedStream) (tags : NodeTags) (connection : Nat) :
    ObservedStream × ObservedStream :=
  let outboundTags := routed.outbound.activeTags
  let outboundTag := routed.outbound.tag
  let outboundStatsTag := outboundTags.getLast?.getD outboundTag
  let inboundStats :=
    (tags.getInboundStats routed.inboundTag).getD (.detached connection true)
  let outboundStats :=
    (tags.getOutboundStats outboundStatsTag).getD (.detached connection false)
  let extraOutboundStats :=
    if outboundTag ≠ outboundStatsTag then tags.getOutboundStats outboundTag else none
  (⟨inboundStats, none, routed.user.map .user, true⟩,
    ⟨outboundStats, extraOutboundStats, none, false⟩)

/-- What is counted where the client's bytes pass: at the inbound, for the user
and in the global totals. -/
def InboundCounts (routed : RoutedStream) : StatsRef → Prop
  | .inbound tag => tag = routed.inboundTag
  | .user account => routed.user = some account
  | .global => True
  | _ => False

/-- What is counted where the destination's bytes pass: at the effective leaf and
at the selector that was routed to. -/
def OutboundCounts (routed : RoutedStream) : StatsRef → Prop
  | .outbound tag => tag = routed.outbound.effectiveTag ∨ tag = routed.outbound.tag
  | _ => False

instance (routed : RoutedStream) : (ref : StatsRef) → Decidable (routed.InboundCounts ref)
  | .inbound _ => inferInstanceAs (Decidable (_ = _))
  | .user _ => inferInstanceAs (Decidable (_ = _))
  | .global => inferInstanceAs (Decidable True)
  | .outbound _ | .detached _ _ => inferInstanceAs (Decidable False)

instance (routed : RoutedStream) : (ref : StatsRef) → Decidable (routed.OutboundCounts ref)
  | .outbound _ => inferInstanceAs (Decidable (_ ∨ _))
  | .inbound _ | .user _ | .global | .detached _ _ => inferInstanceAs (Decidable False)

def Counts (routed : RoutedStream) : Bool → StatsRef → Prop
  | true => routed.InboundCounts
  | false => routed.OutboundCounts

instance (routed : RoutedStream) (isInbound : Bool) (ref : StatsRef) :
    Decidable (routed.Counts isInbound ref) :=
  match isInbound with
  | true => inferInstanceAs (Decidable (routed.InboundCounts ref))
  | false => inferInstanceAs (Decidable (routed.OutboundCounts ref))

def side (routed : RoutedStream) (tags : NodeTags) (connection : Nat) (isInbound : Bool) :
    ObservedStream :=
  if isInbound then (routed.wrap tags connection).1 else (routed.wrap tags connection).2

variable {routed : RoutedStream} {tags : NodeTags} {connection : Nat} {isInbound : Bool}

@[simp] theorem isInbound_side : (routed.side tags connection isInbound).isInbound = isInbound := by
  cases isInbound <;> rfl

theorem side_outbound : routed.side tags connection false =
    ⟨(tags.getOutboundStats routed.outbound.effectiveTag).getD (.detached connection false),
      if routed.outbound.tag ≠ routed.outbound.effectiveTag then
        tags.getOutboundStats routed.outbound.tag
      else none, none, false⟩ := by
  have leaf : routed.outbound.activeTags.getLast?.getD routed.outbound.tag =
      routed.outbound.effectiveTag := by
    rw [OutboundNode.getLast?_activeTags]
    rfl
  change (routed.wrap tags connection).2 = _
  simp only [wrap, leaf]

/-- The refs of an outbound wrapper: the selector's own differ from the leaf's. -/
theorem countedRefs_outbound : (routed.side tags connection false).countedRefs =
    (tags.getOutboundStats routed.outbound.effectiveTag).getD (.detached connection false) ::
      (if routed.outbound.tag ≠ routed.outbound.effectiveTag then
        tags.getOutboundStats routed.outbound.tag
      else none).toList := by
  rw [side_outbound]
  rfl

theorem countedRefs_inbound : (routed.side tags connection true).countedRefs =
    (tags.getInboundStats routed.inboundTag).getD (.detached connection true) :: .global ::
      (routed.user.map .user).toList :=
  congrArg (_ :: _ :: ·) (List.append_nil _)

theorem nodup_countedRefs : (routed.side tags connection isInbound).countedRefs.Nodup := by
  cases isInbound with
  | true =>
      rw [countedRefs_inbound]
      unfold NodeTags.getInboundStats
      cases routed.user with
      | none | some account => split <;> simp
  | false =>
      rw [countedRefs_outbound]
      unfold NodeTags.getOutboundStats
      by_cases differs : routed.outbound.tag = routed.outbound.effectiveTag
      · simp [differs]
      · rw [if_pos differs]
        split <;> split <;> simp [Ne.symm differs]

theorem mem_countedRefs {ref : StatsRef} (known : tags.Known ref) :
    ref ∈ (routed.side tags connection isInbound).countedRefs ↔ routed.Counts isInbound ref := by
  cases isInbound with
  | true =>
      rw [countedRefs_inbound, List.mem_cons, NodeTags.eq_getD_iff known,
        NodeTags.getInboundStats_iff known]
      cases ref with
      | inbound | outbound | user | global | detached => simp [Counts, InboundCounts]
  | false =>
      rw [countedRefs_outbound, List.mem_cons, NodeTags.eq_getD_iff known,
        NodeTags.getOutboundStats_iff known, Option.mem_toList]
      by_cases differs : routed.outbound.tag = routed.outbound.effectiveTag
      · rw [if_neg (not_not_intro differs)]
        cases ref with
        | inbound | outbound | user | global | detached =>
            simp [Counts, OutboundCounts, differs]
      · rw [if_pos differs, NodeTags.getOutboundStats_iff known]
        cases ref with
        | inbound | outbound | user | global | detached => simp [Counts, OutboundCounts]

end RoutedStream

/-! All connections of a server with their wrappers, whose polls and drops take
turns in any order. -/

/-- A wrapper with what its polls have carried so far. -/
structure StreamEnd where
  stream : ObservedStream
  live : Bool
  read : Nat
  written : Nat

namespace StreamEnd

def carried (wrapper : StreamEnd) : TrafficWay → Nat
  | .upload => if wrapper.stream.isInbound then wrapper.read else wrapper.written
  | .download => if wrapper.stream.isInbound then wrapper.written else wrapper.read

def addRead (wrapper : StreamEnd) (count : Nat) : StreamEnd :=
  { wrapper with read := wrapper.read + count }

def addWritten (wrapper : StreamEnd) (count : Nat) : StreamEnd :=
  { wrapper with written := wrapper.written + count }

def close (wrapper : StreamEnd) : StreamEnd := { wrapper with live := false }

variable {wrapper : StreamEnd} {count : Nat}

theorem carried_addRead (way : TrafficWay) : (wrapper.addRead count).carried way =
    wrapper.carried way + if way = wrapper.stream.readWay then count else 0 := by
  cases way with
  | upload | download => cases side : wrapper.stream.isInbound <;>
      simp [carried, addRead, ObservedStream.readWay, side]

theorem carried_addWritten (way : TrafficWay) : (wrapper.addWritten count).carried way =
    wrapper.carried way + if way = wrapper.stream.writeWay then count else 0 := by
  cases way with
  | upload | download => cases side : wrapper.stream.isInbound <;>
      simp [carried, addWritten, ObservedStream.writeWay, side]

end StreamEnd

/-- A connection; `wrapper true` is the one of the inbound stream. -/
structure ObservedConn where
  routed : RoutedStream
  tracker : TrackedBytes
  wrapper : Bool → StreamEnd

namespace ObservedConn

def setWrapper (conn : ObservedConn) (isInbound : Bool) (wrapper : StreamEnd)
    (tracker : TrackedBytes) : ObservedConn :=
  { conn with tracker, wrapper := Function.update conn.wrapper isInbound wrapper }

/-- What a connection adds to a counter, by a measure of its wrappers. -/
def adds (conn : ObservedConn) (measure : StreamEnd → Nat) (ref : StatsRef) : Nat :=
  (if conn.routed.Counts true ref then measure (conn.wrapper true) else 0) +
    if conn.routed.Counts false ref then measure (conn.wrapper false) else 0

variable {conn : ObservedConn} {ref : StatsRef} {isInbound : Bool} {wrapper : StreamEnd}
  {tracker : TrackedBytes}

theorem adds_setWrapper (measure : StreamEnd → Nat) :
    (conn.setWrapper isInbound wrapper tracker).adds measure ref +
        (if conn.routed.Counts isInbound ref then measure (conn.wrapper isInbound) else 0) =
      conn.adds measure ref + if conn.routed.Counts isInbound ref then measure wrapper else 0 := by
  cases isInbound with
  | true | false =>
      simp only [adds, setWrapper, Function.update_self, ne_eq, Bool.false_eq_true,
        Bool.true_eq_false, not_false_eq_true, Function.update_of_ne]
      omega

theorem adds_setWrapper_add (measure : StreamEnd → Nat) {count : Nat}
    (grown : measure wrapper = measure (conn.wrapper isInbound) + count) :
    (conn.setWrapper isInbound wrapper tracker).adds measure ref =
      conn.adds measure ref + if conn.routed.Counts isInbound ref then count else 0 := by
  refine Nat.add_right_cancel ((adds_setWrapper measure).trans ?_)
  split
  · omega
  · rfl

theorem setWrapper_true :
    (conn.setWrapper isInbound wrapper tracker).wrapper true =
      if isInbound then wrapper else conn.wrapper true := by
  cases isInbound <;> rfl

end ObservedConn

structure ObservedTraffic where
  stats : AllStats
  conns : List ObservedConn

namespace ObservedTraffic

/-- A poll is given with the answer of the stream under the wrapper. -/
inductive Event where
  | open (routed : RoutedStream)
  | read (index : Nat) (isInbound : Bool) (result : PollRead)
  | write (index : Nat) (isInbound : Bool) (result : Poll (Except String Nat))
  | drop (index : Nat) (isInbound : Bool)

variable (tags : NodeTags)

def start (stats : AllStats) : ObservedTraffic := ⟨stats, []⟩

def step (traffic : ObservedTraffic) : Event → Option ObservedTraffic
  | .open routed =>
      let side := routed.side tags traffic.conns.length
      some ⟨(side false).opened ((side true).opened traffic.stats),
        traffic.conns ++ [⟨routed, ⟨0, 0⟩, fun isInbound => ⟨side isInbound, true, 0, 0⟩⟩]⟩
  | .read index isInbound result =>
      traffic.conns[index]?.bind fun conn =>
        let wrapper := conn.wrapper isInbound
        if wrapper.live then
          match wrapper.stream.pollRead result traffic.stats conn.tracker with
          | (stats, tracker) =>
              some ⟨stats, traffic.conns.set index (conn.setWrapper isInbound
                (wrapper.addRead result.bytes.length) tracker)⟩
        else none
  | .write index isInbound result =>
      traffic.conns[index]?.bind fun conn =>
        let wrapper := conn.wrapper isInbound
        if wrapper.live then
          match wrapper.stream.pollWrite result traffic.stats conn.tracker with
          | (stats, tracker) =>
              some ⟨stats, traffic.conns.set index (conn.setWrapper isInbound
                (wrapper.addWritten (reported result)) tracker)⟩
        else none
  | .drop index isInbound =>
      traffic.conns[index]?.bind fun conn =>
        let wrapper := conn.wrapper isInbound
        if wrapper.live then
          some ⟨wrapper.stream.dropped traffic.stats,
            traffic.conns.set index (conn.setWrapper isInbound wrapper.close conn.tracker)⟩
        else none

/-- Every byte that a wrapper carries is counted once in the counters of its side,
those of the client's side in the tracker too, and a counter of active
connections counts the live wrappers. -/
structure Accounted (before : AllStats) (traffic : ObservedTraffic) : Prop where
  stats : ∀ ref, tags.Known ref → ∀ way, (traffic.stats ref).bytes way =
    (before ref).bytes way + .ofNat (total (·.adds (·.carried way) ref) traffic.conns)
  tracker : ∀ conn ∈ traffic.conns, ∀ way,
    conn.tracker.bytes way = .ofNat ((conn.wrapper true).carried way)
  active : ∀ ref, tags.Known ref → ref ≠ .global → (traffic.stats ref).activeTcpConns =
    (before ref).activeTcpConns + total (·.adds (·.live.toNat) ref) traffic.conns

/-- The wrappers of a connection are those that the router makes. -/
def Wired (conn : ObservedConn) : Prop :=
  ∃ connection, ∀ isInbound,
    (conn.wrapper isInbound).stream = conn.routed.side tags connection isInbound

structure Sound (before : AllStats) (traffic : ObservedTraffic) : Prop where
  accounted : Accounted tags before traffic
  wired : ∀ conn ∈ traffic.conns, Wired tags conn

variable {tags} {before : AllStats} {traffic next : ObservedTraffic} {event : Event}

theorem sound_start : Sound tags before (start before) where
  accounted := ⟨fun _ _ _ => (UInt64.add_zero _).symm, nofun, fun _ _ _ => rfl⟩
  wired := nofun

theorem Wired.setWrapper {conn : ObservedConn} (wired : Wired tags conn) {isInbound : Bool}
    (wrapper : StreamEnd) (same : wrapper.stream = (conn.wrapper isInbound).stream)
    {tracker : TrackedBytes} : Wired tags (conn.setWrapper isInbound wrapper tracker) := by
  obtain ⟨connection, streams⟩ := wired
  refine ⟨connection, fun side => Eq.trans ?_ (streams side)⟩
  change (Function.update conn.wrapper isInbound wrapper side).stream = _
  by_cases here : side = isInbound
  · subst here
    rw [Function.update_self, same]
  · rw [Function.update_of_ne here]

/-- One connection changes, and the counters by as much as what it adds to them. -/
theorem Sound.change (sound : Sound tags before traffic) {index : Nat} {conn new : ObservedConn}
    {stats : AllStats} (found : traffic.conns[index]? = some conn)
    (bytes : ∀ ref, tags.Known ref → ∀ way, ∃ count,
      (stats ref).bytes way = (traffic.stats ref).bytes way + .ofNat count ∧
        new.adds (·.carried way) ref = conn.adds (·.carried way) ref + count)
    (tracker : ∀ way, new.tracker.bytes way = .ofNat ((new.wrapper true).carried way))
    (active : ∀ ref, tags.Known ref → ref ≠ .global →
      conn.adds (·.live.toNat) ref ≤ (traffic.stats ref).activeTcpConns →
      (stats ref).activeTcpConns + conn.adds (·.live.toNat) ref =
        (traffic.stats ref).activeTcpConns + new.adds (·.live.toNat) ref)
    (wired : Wired tags new) : Sound tags before ⟨stats, traffic.conns.set index new⟩ := by
  have either {other : ObservedConn} (member : other ∈ traffic.conns.set index new) :
      other ∈ traffic.conns ∨ other = new := List.mem_or_eq_of_mem_set member
  refine ⟨⟨fun ref known way => ?_, fun other member => ?_, fun ref known notGlobal => ?_⟩,
    fun other member => ?_⟩
  · obtain ⟨count, counted, grown⟩ := bytes ref known way
    change (stats ref).bytes way = _
    rw [counted, sound.accounted.stats ref known way]
    change _ = _ + UInt64.ofNat (total _ (traffic.conns.set index new))
    rw [total_set_add found grown, UInt64.ofNat_add, UInt64.add_assoc]
  · rcases either member with earlier | rfl
    · exact sound.accounted.tracker other earlier
    · exact tracker
  · have here := sound.accounted.active ref known notGlobal
    have changed := total_set (·.adds (·.live.toNat) ref) new found
    have least : conn.adds (·.live.toNat) ref ≤ total (·.adds (·.live.toNat) ref) traffic.conns :=
      le_total (·.adds (·.live.toNat) ref) (List.mem_of_getElem? found)
    have counted := active ref known notGlobal (by omega)
    change (stats ref).activeTcpConns = _ + total _ (traffic.conns.set index new)
    omega
  · rcases either member with earlier | rfl
    · exact sound.wired other earlier
    · exact wired

theorem Sound.counted (sound : Sound tags before traffic) {index : Nat} {conn : ObservedConn}
    (found : traffic.conns[index]? = some conn) {isInbound : Bool} {way : TrafficWay} {n : Nat}
    (wrapper : StreamEnd) (stream : wrapper.stream = (conn.wrapper isInbound).stream)
    (live : wrapper.live = (conn.wrapper isInbound).live)
    (carried : ∀ other, wrapper.carried other =
      (conn.wrapper isInbound).carried other + if other = way then n else 0)
    {counters : AllStats × TrackedBytes}
    (counted : (conn.wrapper isInbound).stream.count way n traffic.stats conn.tracker = counters) :
    Sound tags before ⟨counters.1, traffic.conns.set index
      (conn.setWrapper isInbound wrapper counters.2)⟩ := by
  have member := List.mem_of_getElem? found
  have wired := sound.wired conn member
  obtain ⟨connection, streams⟩ := wired
  subst counted
  have applied : ∀ ref, tags.Known ref →
      ((conn.wrapper isInbound).stream.count way n traffic.stats conn.tracker).1 ref =
        if conn.routed.Counts isInbound ref then (traffic.stats ref).inc way n
        else traffic.stats ref := by
    intro ref known
    rw [ObservedStream.count_fst, streams isInbound,
      AllStats.modifyAll_apply RoutedStream.nodup_countedRefs]
    simp only [RoutedStream.mem_countedRefs known]
  apply sound.change found
  · intro ref known other
    refine ⟨if conn.routed.Counts isInbound ref ∧ other = way then n else 0, ?_, ?_⟩
    · rw [applied ref known]
      by_cases counts : conn.routed.Counts isInbound ref
      · simp [counts]
      · simp [counts]
    · rw [ObservedConn.adds_setWrapper_add (·.carried other) (carried other), ite_and]
  · intro other
    have side : (conn.wrapper isInbound).stream.isInbound = isInbound := by
      rw [streams isInbound, RoutedStream.isInbound_side]
    rw [ObservedConn.setWrapper_true, ObservedStream.count_snd, side]
    have earlier := sound.accounted.tracker conn member other
    cases isInbound with
    | false => exact earlier
    | true =>
        change (conn.tracker.inc way n).bytes other = UInt64.ofNat (wrapper.carried other)
        rw [TrackedBytes.bytes_inc, carried other, earlier, UInt64.ofNat_add]
  · intro ref known notGlobal least
    have kept : wrapper.live.toNat = (conn.wrapper isInbound).live.toNat + 0 :=
      congrArg Bool.toNat live
    rw [applied ref known, ObservedConn.adds_setWrapper_add (·.live.toNat) kept]
    split
    · rw [Stats.activeTcpConns_inc, Nat.add_zero]
    · rfl
  · exact Wired.setWrapper ⟨connection, streams⟩ wrapper stream

theorem Sound.opened (sound : Sound tags before traffic) {routed : RoutedStream}
    (opened : step tags traffic (.open routed) = some next) : Sound tags before next := by
  obtain rfl := Option.some.inj opened
  have either {conn new : ObservedConn} (member : conn ∈ traffic.conns ++ [new]) :
      conn ∈ traffic.conns ∨ conn = new := by
    rwa [List.mem_append, List.mem_singleton] at member
  refine ⟨⟨fun ref known way => ?_, fun conn member => ?_, fun ref known notGlobal => ?_⟩,
    fun conn member => ?_⟩
  · rw [ObservedStream.bytes_opened, ObservedStream.bytes_opened, total_concat,
      sound.accounted.stats ref known way]
    have nothing : ∀ isInbound, StreamEnd.carried
        ⟨routed.side tags traffic.conns.length isInbound, true, 0, 0⟩ way = 0 := by
      intro isInbound
      cases way <;> exact ite_self _
    simp only [ObservedConn.adds, nothing, ite_self, Nat.add_zero]
  · rcases either member with earlier | rfl
    · exact sound.accounted.tracker conn earlier
    · intro way
      cases way <;> rfl
  · rw [ObservedStream.active_opened _ RoutedStream.nodup_countedRefs,
      ObservedStream.active_opened _ RoutedStream.nodup_countedRefs, total_concat,
      sound.accounted.active ref known notGlobal]
    simp only [ObservedStream.mem_openedRefs notGlobal, RoutedStream.mem_countedRefs known,
      ObservedConn.adds, Bool.toNat_true]
    exact (Nat.add_assoc ..).trans (Nat.add_assoc ..)
  · rcases either member with earlier | rfl
    · exact sound.wired conn earlier
    · exact ⟨_, fun _ => rfl⟩

theorem Sound.dropped (sound : Sound tags before traffic) {index : Nat} {conn : ObservedConn}
    (found : traffic.conns[index]? = some conn) {isInbound : Bool}
    (live : (conn.wrapper isInbound).live = true) :
    Sound tags before ⟨(conn.wrapper isInbound).stream.dropped traffic.stats,
      traffic.conns.set index
        (conn.setWrapper isInbound (conn.wrapper isInbound).close conn.tracker)⟩ := by
  have member := List.mem_of_getElem? found
  obtain ⟨connection, streams⟩ := sound.wired conn member
  have distinct : (conn.wrapper isInbound).stream.countedRefs.Nodup := by
    rw [streams isInbound]
    exact RoutedStream.nodup_countedRefs
  apply sound.change found
  · intro ref known way
    refine ⟨0, ?_, ?_⟩
    · exact (ObservedStream.bytes_dropped ref way).trans (UInt64.add_zero _).symm
    · have same : (conn.wrapper isInbound).close.carried way =
          (conn.wrapper isInbound).carried way + 0 := by cases way <;> rfl
      rw [ObservedConn.adds_setWrapper_add (·.carried way) same, ite_self]
  · intro way
    have earlier := sound.accounted.tracker conn member way
    cases isInbound with
    | false | true => exact earlier
  · intro ref known notGlobal least
    have one : (conn.wrapper isInbound).live.toNat = 1 := congrArg Bool.toNat live
    have changed : (conn.setWrapper isInbound (conn.wrapper isInbound).close conn.tracker).adds
        (·.live.toNat) ref + (if conn.routed.Counts isInbound ref then 1 else 0) =
          conn.adds (·.live.toNat) ref + if conn.routed.Counts isInbound ref then 0 else 0 :=
      one ▸ ObservedConn.adds_setWrapper (·.live.toNat)
    rw [ObservedStream.active_dropped ref distinct]
    simp only [ObservedStream.mem_openedRefs notGlobal, streams isInbound,
      RoutedStream.mem_countedRefs known]
    split at changed
    · next counts =>
        rw [if_pos counts]
        omega
    · next other =>
        rw [if_neg other]
        omega
  · have wired : Wired tags conn := ⟨connection, streams⟩
    exact wired.setWrapper (StreamEnd.close _) rfl

theorem Sound.step (sound : Sound tags before traffic)
    (stepped : step tags traffic event = some next) : Sound tags before next := by
  cases event with
  | «open» routed => exact sound.opened stepped
  | read index isInbound result =>
      obtain ⟨conn, found, stepped⟩ := Option.bind_eq_some_iff.mp stepped
      obtain ⟨live, stepped⟩ := Option.ite_none_right_eq_some.mp stepped
      obtain rfl := Option.some.inj stepped
      exact sound.counted found (StreamEnd.addRead _ _) rfl rfl StreamEnd.carried_addRead
        (ObservedStream.pollRead_eq ..).symm
  | write index isInbound result =>
      obtain ⟨conn, found, stepped⟩ := Option.bind_eq_some_iff.mp stepped
      obtain ⟨live, stepped⟩ := Option.ite_none_right_eq_some.mp stepped
      obtain rfl := Option.some.inj stepped
      exact sound.counted found (StreamEnd.addWritten _ _) rfl rfl StreamEnd.carried_addWritten
        (ObservedStream.pollWrite_eq ..).symm
  | drop index isInbound =>
      obtain ⟨conn, found, stepped⟩ := Option.bind_eq_some_iff.mp stepped
      obtain ⟨live, stepped⟩ := Option.ite_none_right_eq_some.mp stepped
      obtain rfl := Option.some.inj stepped
      exact sound.dropped found live

/-- Whatever order the polls and the drops of all connections come in, the
counters account for every byte and every live wrapper. -/
theorem observed_accounted (before : AllStats) (events : List Event) :
    Machine.Throughout (step tags) (Accounted tags before) (start before) events :=
  Machine.throughout_mono Sound.accounted
    (Machine.throughout_of_invariant (Sound tags before) Sound.step sound_start)

end ObservedTraffic

end QuicProxy
