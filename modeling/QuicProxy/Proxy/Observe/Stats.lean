import Mathlib.Logic.Function.Basic
import Mathlib.Data.List.Nodup
import QuicProxy.Data.Bytes

namespace QuicProxy

/-! The counters of the observer (`src/proxy/observe.rs`): `Stats` of each
inbound, each outbound and each user, and those of everything. -/

inductive TrafficWay where
  | upload
  | download
deriving DecidableEq

structure Stats where
  /-- The active counters count objects in memory, of which there are fewer
  than `2 ^ 64`. -/
  activeTcpConns : Nat
  activeUdpConns : Nat
  totalTcpConns : UInt64
  totalUdpConns : UInt64
  uploadBytes : UInt64
  downloadBytes : UInt64
deriving DecidableEq

namespace Stats

/-- `Stats::default`. -/
def empty : Stats := ⟨0, 0, 0, 0, 0, 0⟩

def bytes (stats : Stats) : TrafficWay → UInt64
  | .upload => stats.uploadBytes
  | .download => stats.downloadBytes

def addTraffic (upload download : Nat) (stats : Stats) : Stats :=
  { stats with
    uploadBytes := stats.uploadBytes + .ofNat upload
    downloadBytes := stats.downloadBytes + .ofNat download }

/-- `inc_upload` and `inc_download`. -/
def inc (way : TrafficWay) (count : Nat) (stats : Stats) : Stats :=
  match way with
  | .upload => { stats with uploadBytes := stats.uploadBytes + .ofNat count }
  | .download => { stats with downloadBytes := stats.downloadBytes + .ofNat count }

/-- `add_traffic` with one of its counts 0. -/
def addWay (way : TrafficWay) (count : Nat) : Stats → Stats :=
  match way with
  | .upload => addTraffic count 0
  | .download => addTraffic 0 count

def incActiveTcp (stats : Stats) : Stats :=
  { stats with
    activeTcpConns := stats.activeTcpConns + 1
    totalTcpConns := stats.totalTcpConns + 1 }

def decActiveTcp (stats : Stats) : Stats :=
  { stats with activeTcpConns := stats.activeTcpConns - 1 }

def incActiveUdp (stats : Stats) : Stats :=
  { stats with
    activeUdpConns := stats.activeUdpConns + 1
    totalUdpConns := stats.totalUdpConns + 1 }

def decActiveUdp (stats : Stats) : Stats :=
  { stats with activeUdpConns := stats.activeUdpConns - 1 }

@[simp] theorem addWay_eq_inc (way : TrafficWay) (count : Nat) (stats : Stats) :
    addWay way count stats = stats.inc way count := by
  cases way with
  | upload => simp [addWay, addTraffic, inc]
  | download => simp [addWay, addTraffic, inc]

@[simp] theorem bytes_inc (way other : TrafficWay) (count : Nat) (stats : Stats) :
    (stats.inc way count).bytes other =
      stats.bytes other + .ofNat (if other = way then count else 0) := by
  cases way with
  | upload | download => cases other <;> simp [inc, bytes]

@[simp] theorem activeTcpConns_inc (way : TrafficWay) (count : Nat) (stats : Stats) :
    (stats.inc way count).activeTcpConns = stats.activeTcpConns := by
  cases way <;> rfl

@[simp] theorem bytes_incActiveTcp (stats : Stats) (way : TrafficWay) :
    stats.incActiveTcp.bytes way = stats.bytes way := by
  cases way <;> rfl

@[simp] theorem bytes_decActiveTcp (stats : Stats) (way : TrafficWay) :
    stats.decActiveTcp.bytes way = stats.bytes way := by
  cases way <;> rfl

@[simp] theorem bytes_incActiveUdp (stats : Stats) (way : TrafficWay) :
    stats.incActiveUdp.bytes way = stats.bytes way := by
  cases way <;> rfl

@[simp] theorem bytes_decActiveUdp (stats : Stats) (way : TrafficWay) :
    stats.decActiveUdp.bytes way = stats.bytes way := by
  cases way <;> rfl

end Stats

/-- The counters of a connection's `ConnectionTracker`. -/
structure TrackedBytes where
  upload : UInt64
  download : UInt64
deriving DecidableEq

namespace TrackedBytes

def bytes (tracker : TrackedBytes) : TrafficWay → UInt64
  | .upload => tracker.upload
  | .download => tracker.download

/-- `inc_upload` and `inc_download`. -/
def inc (way : TrafficWay) (count : Nat) (tracker : TrackedBytes) : TrackedBytes :=
  match way with
  | .upload => { tracker with upload := tracker.upload + .ofNat count }
  | .download => { tracker with download := tracker.download + .ofNat count }

@[simp] theorem bytes_inc (way other : TrafficWay) (count : Nat) (tracker : TrackedBytes) :
    (tracker.inc way count).bytes other =
      tracker.bytes other + .ofNat (if other = way then count else 0) := by
  cases way with
  | upload | download => cases other <;> simp [inc, bytes]

end TrackedBytes

/-- An `Arc<Stats>`, by what it belongs to.  A user's belongs to an account, which
ends when the user is removed; the default of a tag that is not registered
belongs to a wrapper of one connection. -/
inductive StatsRef where
  | inbound (tag : String)
  | outbound (tag : String)
  | user (account : Nat)
  | global
  | detached (connection : Nat) (isInbound : Bool)
deriving DecidableEq

abbrev AllStats := StatsRef → Stats

namespace AllStats

def modify (stats : AllStats) (ref : StatsRef) (change : Stats → Stats) : AllStats :=
  Function.update stats ref (change (stats ref))

def modifyOption (stats : AllStats) (ref : Option StatsRef) (change : Stats → Stats) : AllStats :=
  match ref with
  | some ref => stats.modify ref change
  | none => stats

def modifyAll (stats : AllStats) (refs : List StatsRef) (change : Stats → Stats) : AllStats :=
  refs.foldl (fun stats ref => stats.modify ref change) stats

theorem modify_apply (stats : AllStats) (ref other : StatsRef) (change : Stats → Stats) :
    stats.modify ref change other = if other = ref then change (stats ref) else stats other :=
  Function.update_apply ..

theorem modifyOption_eq (stats : AllStats) (ref : Option StatsRef) (change : Stats → Stats) :
    stats.modifyOption ref change = stats.modifyAll ref.toList change := by
  cases ref <;> rfl

theorem modifyAll_append (stats : AllStats) (first second : List StatsRef)
    (change : Stats → Stats) : stats.modifyAll (first ++ second) change =
      (stats.modifyAll first change).modifyAll second change :=
  List.foldl_append

theorem modifyAll_apply {refs : List StatsRef} (distinct : refs.Nodup) (stats : AllStats)
    (change : Stats → Stats) (ref : StatsRef) :
    stats.modifyAll refs change ref = if ref ∈ refs then change (stats ref) else stats ref := by
  induction refs generalizing stats with
  | nil => rfl
  | cons first refs ih =>
      obtain ⟨fresh, distinct⟩ := List.nodup_cons.mp distinct
      change (stats.modify first change).modifyAll refs change ref = _
      rw [ih distinct, modify_apply]
      by_cases same : ref = first
      · subst same
        simp [fresh]
      · simp [same]

theorem bytes_modifyAll_inc {refs : List StatsRef} (distinct : refs.Nodup) (stats : AllStats)
    (way other : TrafficWay) (count : Nat) (ref : StatsRef) :
    (stats.modifyAll refs (.inc way count) ref).bytes other =
      (stats ref).bytes other + .ofNat (if ref ∈ refs ∧ other = way then count else 0) := by
  rw [modifyAll_apply distinct, ite_and]
  split
  · exact Stats.bytes_inc ..
  · exact (UInt64.add_zero _).symm

theorem bytes_modifyAll {change : Stats → Stats} {way : TrafficWay}
    (same : ∀ stats, (change stats).bytes way = stats.bytes way) (refs : List StatsRef)
    (stats : AllStats) (ref : StatsRef) :
    (stats.modifyAll refs change ref).bytes way = (stats ref).bytes way := by
  induction refs generalizing stats with
  | nil => rfl
  | cons first refs ih =>
      refine (ih (stats.modify first change)).trans ?_
      rw [modify_apply]
      split
      · next here => rw [same, here]
      · rfl

end AllStats

/-- The tags that inbounds and outbounds are registered under. -/
structure NodeTags where
  inbounds : List String
  outbounds : List String

namespace NodeTags

def getInboundStats (tags : NodeTags) (tag : String) : Option StatsRef :=
  if tag ∈ tags.inbounds then some (.inbound tag) else none

def getOutboundStats (tags : NodeTags) (tag : String) : Option StatsRef :=
  if tag ∈ tags.outbounds then some (.outbound tag) else none

/-- The counters that the observer itself holds or that a user's account has. -/
def Known (tags : NodeTags) : StatsRef → Prop
  | .inbound tag => tag ∈ tags.inbounds
  | .outbound tag => tag ∈ tags.outbounds
  | .user _ | .global => True
  | .detached _ _ => False

variable {tags : NodeTags} {ref : StatsRef} {tag : String}

theorem getInboundStats_iff (known : tags.Known ref) :
    tags.getInboundStats tag = some ref ↔ ref = .inbound tag := by
  unfold getInboundStats
  split
  · exact ⟨fun same => (Option.some.inj same).symm, fun same => congrArg some same.symm⟩
  · next absent =>
      refine ⟨nofun, ?_⟩
      rintro rfl
      exact absurd known absent

theorem getOutboundStats_iff (known : tags.Known ref) :
    tags.getOutboundStats tag = some ref ↔ ref = .outbound tag := by
  unfold getOutboundStats
  split
  · exact ⟨fun same => (Option.some.inj same).symm, fun same => congrArg some same.symm⟩
  · next absent =>
      refine ⟨nofun, ?_⟩
      rintro rfl
      exact absurd known absent

theorem eq_getD_iff (known : tags.Known ref) {found : Option StatsRef} {connection : Nat}
    {isInbound : Bool} : ref = found.getD (.detached connection isInbound) ↔ found = some ref := by
  cases found with
  | some other =>
      exact ⟨fun same => congrArg some same.symm, fun same => (Option.some.inj same).symm⟩
  | none =>
      refine ⟨?_, nofun⟩
      rintro rfl
      exact known.elim

end NodeTags

/-- An outbound as the router holds it: a selector has a selected child, unless
its index is out of range. -/
inductive OutboundNode where
  | leaf (tag : String)
  | selector (tag : String) (selected : Option OutboundNode)

namespace OutboundNode

def tag : OutboundNode → String
  | leaf tag | selector tag _ => tag

/-- `get_active_outbound_tags` of a selector, and the tag alone of another
outbound. -/
def activeTags : OutboundNode → List String
  | leaf tag => [tag]
  | selector tag none => [tag]
  | selector tag (some child) => tag :: child.activeTags

def effectiveTag : OutboundNode → String
  | leaf tag => tag
  | selector tag none => tag
  | selector _ (some child) => child.effectiveTag

theorem getLast?_activeTags : (outbound : OutboundNode) →
    outbound.activeTags.getLast? = some outbound.effectiveTag
  | leaf tag => rfl
  | selector tag none => rfl
  | selector tag (some child) => by
      rw [activeTags, List.getLast?_cons, getLast?_activeTags child]
      rfl

end OutboundNode

end QuicProxy
