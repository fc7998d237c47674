import QuicProxy.Data.Interleave
import QuicProxy.Data.StableSort
import QuicProxy.Net.Addr

namespace QuicProxy

/-! The order in which the addresses of a target are dialled (`order_addrs` in
`src/proxy/outbound/dial.rs`). -/

universe u

/-- What `shuffle` of the crate `rand` may do. -/
structure Shuffle (Element : Type u) where
  run : List Element → List Element
  perm : ∀ list, (run list).Perm list

def Shuffle.id (Element : Type u) : Shuffle Element := ⟨fun list => list, List.Perm.refl⟩

def SocketAddr.isIpv6 (addr : SocketAddr) : Bool :=
  match addr.ip with
  | .v4 _ => false
  | .v6 _ => true

structure Shuffles where
  v6 : Shuffle SocketAddr
  v4 : Shuffle SocketAddr

namespace Shuffles

variable (shuffles : Shuffles)

def family (addrs : List SocketAddr) (isIpv6 : Bool) : List SocketAddr :=
  if isIpv6 then shuffles.v6.run (addrs.filter (·.isIpv6))
  else shuffles.v4.run (addrs.filter (!·.isIpv6))

/-- `recentlyFailed` is the set of the addresses in `FAILED_ADDRS` that have not
been there for too long. -/
def orderAddrs (recentlyFailed : IpAddr → Bool) (addrs : List SocketAddr) (preferIpv6 : Bool) :
    List SocketAddr :=
  let ordered := interleave (shuffles.family addrs preferIpv6) (shuffles.family addrs !preferIpv6)
  sortByKey (fun addr => recentlyFailed addr.ip) ordered

end Shuffles

def healthy (recentlyFailed : IpAddr → Bool) (addrs : List SocketAddr) : List SocketAddr :=
  addrs.filter (!recentlyFailed ·.ip)

def FailedLast (recentlyFailed : IpAddr → Bool) (ordered : List SocketAddr) : Prop :=
  ordered.Pairwise fun earlier later =>
    recentlyFailed earlier.ip = true → recentlyFailed later.ip = true

structure Ordered (recentlyFailed : IpAddr → Bool) (addrs : List SocketAddr) (preferIpv6 : Bool)
    (ordered : List SocketAddr) : Prop where
  perm : ordered.Perm addrs
  failedLast : FailedLast recentlyFailed ordered
  preferred : StartsWith SocketAddr.isIpv6 preferIpv6 (healthy recentlyFailed ordered)
  alternates : Alternates SocketAddr.isIpv6 (healthy recentlyFailed ordered)

namespace Shuffles

variable (shuffles : Shuffles)

/-- How many failed addresses stand in the shuffled family before each one that
has not failed: taken in turns, from the preferred family on, these numbers do not
go down. -/
def InStep (recentlyFailed : IpAddr → Bool) (addrs : List SocketAddr) (preferIpv6 : Bool) : Prop :=
  Ascends (gaps (!recentlyFailed ·.ip) 0 (shuffles.family addrs preferIpv6))
    (gaps (!recentlyFailed ·.ip) 0 (shuffles.family addrs !preferIpv6))

variable {shuffles} {recentlyFailed : IpAddr → Bool} {addrs : List SocketAddr} {preferIpv6 : Bool}

theorem perm_family (isIpv6 : Bool) :
    (shuffles.family addrs isIpv6).Perm (addrs.filter (·.isIpv6 == isIpv6)) := by
  rw [family]
  cases isIpv6 with
  | true =>
      rw [if_pos rfl]
      simpa using shuffles.v6.perm (addrs.filter (·.isIpv6))
  | false =>
      rw [if_neg Bool.false_ne_true]
      simpa using shuffles.v4.perm (addrs.filter (!·.isIpv6))

theorem isIpv6_of_mem_family {isIpv6 : Bool} {addr : SocketAddr}
    (member : addr ∈ shuffles.family addrs isIpv6) : addr.isIpv6 = isIpv6 :=
  beq_iff_eq.mp (List.mem_filter.mp ((perm_family isIpv6).mem_iff.mp member)).2

theorem perm_orderAddrs :
    (shuffles.orderAddrs recentlyFailed addrs preferIpv6).Perm addrs := by
  refine (perm_sortByKey _ _).trans ((perm_interleave _ _).trans ?_)
  refine ((perm_family preferIpv6).append (perm_family !preferIpv6)).trans ?_
  have other : (fun addr : SocketAddr => addr.isIpv6 == !preferIpv6) =
      fun addr => !(addr.isIpv6 == preferIpv6) := by
    funext addr
    cases addr.isIpv6 <;> cases preferIpv6 <;> rfl
  rw [other]
  exact List.filter_append_perm (·.isIpv6 == preferIpv6) addrs

theorem failedLast_orderAddrs :
    FailedLast recentlyFailed (shuffles.orderAddrs recentlyFailed addrs preferIpv6) :=
  (pairwise_sortByKey _ _).imp fun ordered failed => Bool.eq_true_of_true_le (failed ▸ ordered)

theorem healthy_orderAddrs :
    healthy recentlyFailed (shuffles.orderAddrs recentlyFailed addrs preferIpv6) =
      (interleave (shuffles.family addrs preferIpv6) (shuffles.family addrs !preferIpv6)).filter
        (!recentlyFailed ·.ip) := by
  rw [healthy, orderAddrs, sortByKey_flag, List.filter_append, List.filter_filter,
    List.filter_filter]
  simp

/-- The addresses of a family that have not failed, in the order of the family. -/
theorem filter_healthy_orderAddrs :
    (healthy recentlyFailed (shuffles.orderAddrs recentlyFailed addrs preferIpv6)).filter
        (·.isIpv6 == preferIpv6) =
      (shuffles.family addrs preferIpv6).filter (!recentlyFailed ·.ip) ∧
    (healthy recentlyFailed (shuffles.orderAddrs recentlyFailed addrs preferIpv6)).filter
        (·.isIpv6 == !preferIpv6) =
      (shuffles.family addrs !preferIpv6).filter (!recentlyFailed ·.ip) := by
  have first_side : ∀ addr ∈ shuffles.family addrs preferIpv6, addr.isIpv6 = preferIpv6 :=
    fun _ => isIpv6_of_mem_family
  have second_side : ∀ addr ∈ shuffles.family addrs !preferIpv6, addr.isIpv6 = !preferIpv6 :=
    fun _ => isIpv6_of_mem_family
  obtain ⟨preferred, other⟩ := filter_interleave first_side second_side
  rw [healthy_orderAddrs, List.filter_comm, preferred, List.filter_comm, other]
  exact ⟨rfl, rfl⟩

theorem preferred_and_alternates_iff :
    StartsWith SocketAddr.isIpv6 preferIpv6
          (healthy recentlyFailed (shuffles.orderAddrs recentlyFailed addrs preferIpv6)) ∧
        Alternates SocketAddr.isIpv6
          (healthy recentlyFailed (shuffles.orderAddrs recentlyFailed addrs preferIpv6)) ↔
      shuffles.InStep recentlyFailed addrs preferIpv6 := by
  obtain ⟨preferred, other⟩ := @filter_healthy_orderAddrs shuffles recentlyFailed addrs preferIpv6
  rw [← eq_interleave_iff, preferred, other, healthy_orderAddrs]
  refine (filter_interleave_cases (fun addr : SocketAddr => !recentlyFailed addr.ip) ?_).1
  rintro first first_member second second_member rfl
  have same := (isIpv6_of_mem_family first_member).symm.trans (isIpv6_of_mem_family second_member)
  exact Bool.not_eq_self preferIpv6 |>.mp same.symm

/-- The order is a permutation with the failed addresses last, and takes turns
exactly when the failed ones have left the families in step. -/
theorem ordered_iff (shuffles : Shuffles) (recentlyFailed : IpAddr → Bool)
    (addrs : List SocketAddr) (preferIpv6 : Bool) :
    Ordered recentlyFailed addrs preferIpv6
        (shuffles.orderAddrs recentlyFailed addrs preferIpv6) ↔
      shuffles.InStep recentlyFailed addrs preferIpv6 := by
  rw [← preferred_and_alternates_iff]
  exact ⟨fun ordered => ⟨ordered.preferred, ordered.alternates⟩,
    fun both => ⟨perm_orderAddrs, failedLast_orderAddrs, both.1, both.2⟩⟩

/-- Two addresses of the preferred family, the first of which has failed, and one
of the other. -/
def failedFirst : List SocketAddr :=
  [.v4 ⟨192, 0, 2, 1⟩ 443, .v4 ⟨192, 0, 2, 2⟩ 443,
    .v6 ⟨[0x20, 0x01, 0x0d, 0xb8, 0, 0, 0, 0, 0, 0, 0, 0, 0, 0, 0, 1], rfl⟩ 443 0 0]

theorem failed_takes_turn :
    (⟨.id _, .id _⟩ : Shuffles).orderAddrs (· == .v4 ⟨192, 0, 2, 1⟩) failedFirst false =
        [failedFirst[2], failedFirst[1], failedFirst[0]] ∧
      ¬Ordered (· == .v4 ⟨192, 0, 2, 1⟩) failedFirst false
        ((⟨.id _, .id _⟩ : Shuffles).orderAddrs (· == .v4 ⟨192, 0, 2, 1⟩) failedFirst false) := by
  refine ⟨by decide, fun ordered => ?_⟩
  obtain ⟨_, ⟨⟩, wrong⟩ := ordered.preferred ⟨failedFirst[1], by decide, rfl⟩
  exact absurd wrong (by decide)

end Shuffles

end QuicProxy
