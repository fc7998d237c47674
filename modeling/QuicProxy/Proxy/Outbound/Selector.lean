import QuicProxy.Data.Pool
import QuicProxy.Data.StableSort
import Mathlib.Data.List.Nodup

namespace QuicProxy

/-! A `SelectorOutbound` (`src/proxy/outbound/selector.rs`): test rounds, manual
selections and connections that choose one of its outbounds at the same time. -/

inductive SelectorType where
  | manual
  | urlTest
deriving DecidableEq

structure SelectorOutbound where
  selectorType : SelectorType
  outboundTags : List String
  tolerance : UInt64
  /-- `new` fails without an outbound. -/
  outbounds_ne : outboundTags ≠ []

structure SelectorState where
  selectedIndex : Nat
  hasCompletedTest : Bool
deriving DecidableEq

structure TestResult where
  index : Nat
  latency : Int64
deriving DecidableEq

/-- What a test round has chosen, and what was selected as it chose. -/
structure TestRound where
  results : List TestResult
  isFirst : Bool
  previous : Nat
  best : Nat
deriving DecidableEq

inductive SelectorRequest where
  | checkAll
  | selectByTag (tag : String)
  /-- `connect_stream` or `connect_packet`. -/
  | connect

inductive SelectorCall where
  | testing
  /-- No outbound is reachable, or the selector is a manual one. -/
  | untested (results : List TestResult)
  | choosing (results : List TestResult) (isFirst : Bool)
  | switching (round : TestRound)
  | tested (round : TestRound)
  | selecting (tag : String)
  | notFound
  | connecting
  | trying (start tries : Nat)
  | updating (index : Nat)
  | updated (index : Nat)
  | used (index : Nat)
  | failed
deriving DecidableEq

/-- The outcome of a test; `none` is a failure. -/
structure TestOutcome where
  index : Nat
  latency : Option Int64
deriving DecidableEq

inductive SelectorChoice where
  | go
  /-- The tests that have come back before the timeout, in their order. -/
  | finished (outcomes : List TestOutcome)
  | attempt (succeeds : Bool)

def i64Max : Int := 9223372036854775807

def i64SaturatingAdd (first second : Int) : Int :=
  max (-i64Max - 1) (min (first + second) i64Max)

def testResults (outcomes : List TestOutcome) : List TestResult :=
  outcomes.filterMap fun outcome => outcome.latency.map (⟨outcome.index, ·⟩)

def reachable (results : List TestResult) : List TestResult :=
  (sortByKey (·.latency.toInt) results).filter (0 < ·.latency.toInt)

namespace SelectorOutbound

variable (selector : SelectorOutbound)

def outboundsCount : Nat := selector.outboundTags.length

/-- The index that `new` starts with; `cached` is the selection of an earlier
process. -/
def initialIndex (default : String) (cached : Option String) : Nat :=
  let selectedTag := (cached.filter (selector.outboundTags.contains ·)).getD default
  selector.outboundTags.zipIdx.foldl
    (fun selectedIndex (tag, index) => if selectedTag = tag then index else selectedIndex) 0

/-- The choice of `reselect_node_by_info`. -/
def bestIndex (results : List TestResult) (isFirst : Bool) (currentIdx : Nat) : Option Nat :=
  (reachable results).head?.map fun least =>
    let current := (reachable results).find? (·.index == currentIdx)
    let tolerance : Int :=
      if selector.tolerance.toNat ≤ i64Max then selector.tolerance.toNat else i64Max
    let toleranceLimit := i64SaturatingAdd least.latency.toInt tolerance
    if isFirst then least.index
    else if current.any (·.latency.toInt ≤ toleranceLimit) then currentIdx
    else least.index

/-- Each outbound is tested once. -/
def Tests (outcomes : List TestOutcome) : Prop :=
  (outcomes.map (·.index)).Nodup ∧ ∀ outcome ∈ outcomes, outcome.index < selector.outboundsCount

instance (outcomes : List TestOutcome) : Decidable (selector.Tests outcomes) :=
  inferInstanceAs (Decidable (_ ∧ _))

/-- The end of `check_all`, up to the swap of `has_completed_test`. -/
def finish (state : SelectorState) (results : List TestResult) : SelectorState × SelectorCall :=
  if selector.selectorType = .urlTest ∧ reachable results ≠ [] then
    ({ state with hasCompletedTest := true }, .choosing results (!state.hasCompletedTest))
  else (state, .untested results)

/-- What follows an attempt of `connect_stream` or `connect_packet`. -/
def attempt (start tries : Nat) (succeeds : Bool) : SelectorCall :=
  let index := (start + tries) % selector.outboundsCount
  if succeeds then if index = start then .used index else .updating index
  else if tries + 1 < selector.outboundsCount then .trying start (tries + 1)
  else .failed

def act (state : SelectorState) : SelectorCall → SelectorChoice →
    Option (SelectorState × SelectorCall)
  | .testing, .finished outcomes =>
      if selector.Tests outcomes then some (selector.finish state (testResults outcomes)) else none
  | .choosing results isFirst, .go =>
      (selector.bestIndex results isFirst state.selectedIndex).map fun best =>
        (state, .switching ⟨results, isFirst, state.selectedIndex, best⟩)
  | .switching round, .go => some ({ state with selectedIndex := round.best }, .tested round)
  | .selecting tag, .go =>
      some (state, (selector.outboundTags.findIdx? (· == tag)).elim .notFound .updating)
  | .connecting, .go =>
      some (state, match selector.selectorType with
        | .manual => .used (state.selectedIndex % selector.outboundsCount)
        | .urlTest => .trying state.selectedIndex 0)
  | .trying start tries, .attempt succeeds => some (state, selector.attempt start tries succeeds)
  | .updating index, .go => some ({ state with selectedIndex := index }, .updated index)
  | _, _ => none

def program : Pool.Program SelectorState SelectorCall SelectorRequest SelectorChoice where
  start
    | .checkAll => .testing
    | .selectByTag tag => .selecting tag
    | .connect => .connecting
  act config := selector.act config.shared

def initial (default : String) (cached : Option String) : Pool.Config SelectorState SelectorCall :=
  ⟨⟨selector.initialIndex default cached, false⟩, []⟩

end SelectorOutbound

abbrev SelectorConfig := Pool.Config SelectorState SelectorCall

abbrev SelectorEvent := Pool.Event SelectorRequest SelectorChoice

/-! What a round may choose. -/

/-- An outbound that is reachable in a round, with a latency within the tolerance
of the least one. -/
def Tolerated (tolerance : UInt64) (results : List TestResult) (index : Nat) : Prop :=
  ∃ result ∈ results, result.index = index ∧ 0 < result.latency.toInt ∧
    ∀ other ∈ results, 0 < other.latency.toInt →
      result.latency.toInt ≤ other.latency.toInt + tolerance.toNat

def Fastest (results : List TestResult) (index : Nat) : Prop := Tolerated 0 results index

def Reached (results : List TestResult) : Prop :=
  ∃ result ∈ results, 0 < result.latency.toInt

structure TestRound.Chosen (tolerance : UInt64) (round : TestRound) : Prop where
  tolerated : Tolerated tolerance round.results round.best
  first : round.isFirst = true → Fastest round.results round.best
  kept : round.isFirst = false →
    (round.best = round.previous ↔ Tolerated tolerance round.results round.previous)
  switched : round.isFirst = false → round.best ≠ round.previous →
    Fastest round.results round.best

section Choice

variable {results : List TestResult} {least : TestResult} {rest : List TestResult}
variable {tolerance : UInt64} {index : Nat}

theorem mem_reachable {result : TestResult} :
    result ∈ reachable results ↔ result ∈ results ∧ 0 < result.latency.toInt := by
  rw [reachable, List.mem_filter, (perm_sortByKey _ results).mem_iff, decide_eq_true_eq]

theorem reachable_ne_nil : reachable results ≠ [] ↔ Reached results := by
  rw [← List.length_pos_iff, List.length_pos_iff_exists_mem]
  exact exists_congr fun result => mem_reachable

theorem Fastest.tolerated (fastest : Fastest results index) :
    Tolerated tolerance results index := by
  obtain ⟨result, member, same, positive, least⟩ := fastest
  refine ⟨result, member, same, positive, fun other inside reached => ?_⟩
  have bound := least other inside reached
  rw [UInt64.toNat_zero] at bound
  omega

theorem fastest_of_reachable (first : reachable results = least :: rest) :
    Fastest results least.index := by
  obtain ⟨member, positive, smallest⟩ := filter_sortByKey_head first
  refine ⟨least, member, rfl, of_decide_eq_true positive, fun other inside reached => ?_⟩
  have bound := smallest other inside (decide_eq_true reached)
  rw [UInt64.toNat_zero]
  omega

theorem le_i64SaturatingAdd_iff {latency least : Int64} {tolerance : Nat}
    (positive : 0 < least.toInt) :
    latency.toInt ≤ i64SaturatingAdd least.toInt
        (if tolerance ≤ i64Max then (tolerance : Int) else i64Max) ↔
      latency.toInt ≤ least.toInt + tolerance := by
  have bound := latency.toInt_lt
  have bound' := least.toInt_lt
  rw [i64SaturatingAdd, i64Max]
  split <;> omega

theorem find?_reachable {result : TestResult} (once : (results.map (·.index)).Nodup)
    (member : result ∈ reachable results) :
    (reachable results).find? (·.index == result.index) = some result := by
  obtain ⟨inside, -⟩ := mem_reachable.mp member
  cases found : (reachable results).find? (·.index == result.index) with
  | none =>
      exact absurd (List.find?_eq_none.mp found result member) (by simp)
  | some other =>
      have same : other.index = result.index := by simpa using List.find?_some found
      obtain ⟨present, -⟩ := mem_reachable.mp (List.mem_of_find?_eq_some found)
      rw [List.inj_on_of_nodup_map once present inside same]

theorem tolerated_iff (once : (results.map (·.index)).Nodup)
    (first : reachable results = least :: rest) :
    Tolerated tolerance results index ↔
      ∃ result ∈ (reachable results).find? (·.index == index),
        result.latency.toInt ≤ least.latency.toInt + tolerance.toNat := by
  obtain ⟨member, positive, smallest⟩ := filter_sortByKey_head first
  constructor
  · rintro ⟨result, inside, rfl, reached, within⟩
    refine ⟨result, find?_reachable once (mem_reachable.mpr ⟨inside, reached⟩), ?_⟩
    exact within least member (of_decide_eq_true positive)
  · rintro ⟨result, found, within⟩
    obtain ⟨inside, reached⟩ := mem_reachable.mp (List.mem_of_find?_eq_some found)
    have same : result.index = index := by simpa using List.find?_some found
    refine ⟨result, inside, same, reached, fun other here above => ?_⟩
    have bound := smallest other here (decide_eq_true above)
    omega

variable (selector : SelectorOutbound)

theorem SelectorOutbound.exists_bestIndex (reached : Reached results) (isFirst : Bool)
    (currentIdx : Nat) : ∃ best, selector.bestIndex results isFirst currentIdx = some best := by
  obtain ⟨least, rest, first⟩ := List.exists_cons_of_ne_nil (reachable_ne_nil.mpr reached)
  rw [bestIndex, first]
  exact ⟨_, rfl⟩

theorem SelectorOutbound.bestIndex_first (first : reachable results = least :: rest) :
    selector.bestIndex results true index = some least.index := by
  rw [bestIndex, first]
  rfl

theorem SelectorOutbound.bestIndex_later (index : Nat) (once : (results.map (·.index)).Nodup)
    (first : reachable results = least :: rest) :
    ∃ best, selector.bestIndex results false index = some best ∧
      (Tolerated selector.tolerance results index ∧ best = index ∨
        ¬Tolerated selector.tolerance results index ∧ best = least.index) := by
  obtain ⟨-, positive, -⟩ := filter_sortByKey_head first
  have same : ((reachable results).find? (·.index == index)).any (·.latency.toInt ≤
      i64SaturatingAdd least.latency.toInt (if selector.tolerance.toNat ≤ i64Max
        then (selector.tolerance.toNat : Int) else i64Max)) = true ↔
          Tolerated selector.tolerance results index := by
    rw [tolerated_iff once first, Option.any_eq_true]
    refine exists_congr fun result => and_congr Iff.rfl ?_
    rw [decide_eq_true_eq, le_i64SaturatingAdd_iff (of_decide_eq_true positive)]
  by_cases tolerated : Tolerated selector.tolerance results index
  · refine ⟨index, ?_, Or.inl ⟨tolerated, rfl⟩⟩
    simp only [bestIndex, first, List.head?_cons, Option.map_some]
    rw [← first, if_neg Bool.false_ne_true, if_pos (same.mpr tolerated)]
  · refine ⟨least.index, ?_, Or.inr ⟨tolerated, rfl⟩⟩
    simp only [bestIndex, first, List.head?_cons, Option.map_some]
    rw [← first, if_neg Bool.false_ne_true, if_neg (fun holds => tolerated (same.mp holds))]

theorem SelectorOutbound.chosen_of_bestIndex {isFirst : Bool} {best : Nat}
    (once : (results.map (·.index)).Nodup)
    (chosen : selector.bestIndex results isFirst index = some best) :
    TestRound.Chosen selector.tolerance ⟨results, isFirst, index, best⟩ := by
  cases first : reachable results with
  | nil =>
      rw [bestIndex, first] at chosen
      cases chosen
  | cons least rest =>
      have fastest := fastest_of_reachable first
      cases isFirst with
      | true =>
          cases (selector.bestIndex_first first).symm.trans chosen
          exact ⟨fastest.tolerated, fun _ => fastest, nofun, nofun⟩
      | false =>
          obtain ⟨other, found, either⟩ := selector.bestIndex_later index once first
          cases found.symm.trans chosen
          rcases either with ⟨tolerated, rfl⟩ | ⟨untolerated, rfl⟩
          · exact ⟨tolerated, nofun, fun _ => ⟨fun _ => tolerated, fun _ => rfl⟩,
              fun _ differs => absurd rfl differs⟩
          · refine ⟨fastest.tolerated, nofun, fun _ => ⟨?_, ?_⟩, fun _ _ => fastest⟩
            · intro same
              have equal : least.index = index := same
              exact equal ▸ fastest.tolerated
            · exact fun tolerated => absurd tolerated untolerated

end Choice

namespace SelectorOutbound

variable {selector : SelectorOutbound}

theorem outboundsCount_pos (selector : SelectorOutbound) : 0 < selector.outboundsCount :=
  List.length_pos_iff.mpr selector.outbounds_ne

theorem initialIndex_lt (selector : SelectorOutbound) (default : String)
    (cached : Option String) : selector.initialIndex default cached < selector.outboundsCount := by
  refine List.foldlRecOn (motive := (· < selector.outboundsCount)) _ _
    selector.outboundsCount_pos ?_
  rintro selectedIndex inside ⟨tag, index⟩ member
  dsimp only
  split
  · exact (List.mem_zipIdx' member).1
  · exact inside

theorem index_lt_of_testResults {outcomes : List TestOutcome} (tests : selector.Tests outcomes) :
    ∀ result ∈ testResults outcomes, result.index < selector.outboundsCount := by
  intro result member
  obtain ⟨outcome, inside, same⟩ := List.mem_filterMap.mp member
  obtain ⟨latency, -, rfl⟩ := Option.map_eq_some_iff.mp same
  exact tests.2 outcome inside

theorem testResults_sublist (outcomes : List TestOutcome) :
    ((testResults outcomes).map (·.index)).Sublist (outcomes.map (·.index)) := by
  induction outcomes with
  | nil => exact List.Sublist.slnil
  | cons outcome outcomes ih =>
      obtain ⟨index, latency⟩ := outcome
      cases latency with
      | none => exact ih.cons index
      | some latency => exact ih.cons_cons index

def Sound (selector : SelectorOutbound) : SelectorCall → Prop
  | .choosing results _ =>
      (results.map (·.index)).Nodup ∧ ∀ result ∈ results, result.index < selector.outboundsCount
  | .switching round | .tested round =>
      round.Chosen selector.tolerance ∧ round.best < selector.outboundsCount
  | .trying start _ => start < selector.outboundsCount
  | .updating index => index < selector.outboundsCount
  | _ => True

def Successful : SelectorCall → Prop
  | .choosing _ _ | .switching _ | .tested _ => True
  | _ => False

structure Kept (selector : SelectorOutbound) (config : SelectorConfig) : Prop where
  inside : config.shared.selectedIndex < selector.outboundsCount
  sound : ∀ call ∈ config.calls, Sound selector call
  completed : config.shared.hasCompletedTest = true ↔ ∃ call ∈ config.calls, Successful call

theorem kept_initial (default : String) (cached : Option String) :
    Kept selector (selector.initial default cached) where
  inside := selector.initialIndex_lt default cached
  sound := nofun
  completed := by
    refine ⟨nofun, ?_⟩
    rintro ⟨call, member, -⟩
    cases member

section Step

variable {config : SelectorConfig} {before after : List SelectorCall} {call moved : SelectorCall}
variable {state : SelectorState}

theorem Kept.move (kept : Kept selector config) (shape : config.calls = before ++ call :: after)
    (inside : state.selectedIndex < selector.outboundsCount) (own : Sound selector moved)
    (same : state.hasCompletedTest = config.shared.hasCompletedTest)
    (alike : Successful moved ↔ Successful call) :
    Kept selector ⟨state, before ++ moved :: after⟩ where
  inside := inside
  sound := Pool.forall_act (shape ▸ kept.sound) (fun _ => own) fun _ => id
  completed := by
    rw [same, kept.completed, shape]
    simp only [List.mem_append, List.mem_cons, or_and_right, exists_or, exists_eq_left, alike]

theorem attempt_cases (selector : SelectorOutbound) (start tries : Nat) (succeeds : Bool) :
    (∃ index, selector.attempt start tries succeeds = .used index) ∨
      selector.attempt start tries succeeds =
        .updating ((start + tries) % selector.outboundsCount) ∨
      selector.attempt start tries succeeds = .trying start (tries + 1) ∨
      selector.attempt start tries succeeds = .failed := by
  simp only [attempt]
  split
  · split
    · exact Or.inl ⟨_, rfl⟩
    · exact Or.inr (Or.inl rfl)
  · split
    · exact Or.inr (Or.inr (Or.inl rfl))
    · exact Or.inr (Or.inr (Or.inr rfl))

theorem Kept.attempt {start tries : Nat} (kept : Kept selector config)
    (shape : config.calls = before ++ .trying start tries :: after) (succeeds : Bool) :
    Kept selector ⟨config.shared, before ++ selector.attempt start tries succeeds :: after⟩ := by
  have inside := kept.sound (.trying start tries) (by rw [shape]; simp)
  rcases selector.attempt_cases start tries succeeds with ⟨index, same⟩ | same | same | same
  · rw [same]
    exact kept.move shape kept.inside trivial rfl Iff.rfl
  · rw [same]
    exact kept.move shape kept.inside (Nat.mod_lt _ selector.outboundsCount_pos) rfl Iff.rfl
  · rw [same]
    exact kept.move shape kept.inside inside rfl Iff.rfl
  · rw [same]
    exact kept.move shape kept.inside trivial rfl Iff.rfl

theorem Kept.finish {outcomes : List TestOutcome} (kept : Kept selector config)
    (shape : config.calls = before ++ .testing :: after) (tests : selector.Tests outcomes)
    (finished : selector.finish config.shared (testResults outcomes) = (state, moved)) :
    Kept selector ⟨state, before ++ moved :: after⟩ := by
  rw [SelectorOutbound.finish] at finished
  split at finished
  · cases finished
    refine ⟨kept.inside, ?_, ?_⟩
    · refine Pool.forall_act (shape ▸ kept.sound) (fun _ => ?_) fun _ => id
      exact ⟨(testResults_sublist outcomes).nodup tests.1, index_lt_of_testResults tests⟩
    · exact ⟨fun _ => ⟨_, List.mem_append_right _ (List.mem_cons_self ..), trivial⟩, fun _ => rfl⟩
  · cases finished
    exact kept.move shape kept.inside trivial rfl Iff.rfl

theorem Kept.act {choice : SelectorChoice} (kept : Kept selector config)
    (shape : config.calls = before ++ call :: after)
    (acted : selector.act config.shared call choice = some (state, moved)) :
    Kept selector ⟨state, before ++ moved :: after⟩ := by
  have own := kept.sound call (by rw [shape]; simp)
  cases call with
  | testing =>
      cases choice with
      | finished outcomes =>
          obtain ⟨tests, finished⟩ := Option.ite_none_right_eq_some.mp acted
          exact kept.finish shape tests (Option.some.inj finished)
      | go | attempt => cases acted
  | choosing results isFirst =>
      cases choice with
      | go =>
          obtain ⟨best, chosen, same⟩ := Option.map_eq_some_iff.mp acted
          cases same
          have right := selector.chosen_of_bestIndex own.1 chosen
          obtain ⟨result, member, equal, -⟩ := right.tolerated
          exact kept.move shape kept.inside ⟨right, equal ▸ own.2 result member⟩ rfl Iff.rfl
      | finished | attempt => cases acted
  | switching round =>
      cases choice with
      | go =>
          cases acted
          exact kept.move shape own.2 own rfl Iff.rfl
      | finished | attempt => cases acted
  | selecting tag =>
      cases choice with
      | go =>
          cases acted
          cases found : selector.outboundTags.findIdx? (· == tag) with
          | none => exact kept.move shape kept.inside trivial rfl Iff.rfl
          | some index =>
              refine kept.move shape kept.inside ?_ rfl Iff.rfl
              exact (List.findIdx?_eq_some_iff_getElem.mp found).1
      | finished | attempt => cases acted
  | connecting =>
      cases choice with
      | go =>
          cases acted
          split
          · exact kept.move shape kept.inside trivial rfl Iff.rfl
          · exact kept.move shape kept.inside kept.inside rfl Iff.rfl
      | finished | attempt => cases acted
  | trying start tries =>
      cases choice with
      | attempt succeeds =>
          cases acted
          exact kept.attempt shape succeeds
      | go | finished => cases acted
  | updating index =>
      cases choice with
      | go =>
          cases acted
          exact kept.move shape own trivial rfl Iff.rfl
      | finished | attempt => cases acted
  | untested | tested | notFound | updated | used | failed => cases choice <;> cases acted

theorem Kept.start (kept : Kept selector config) (request : SelectorRequest) :
    Kept selector ⟨config.shared, config.calls ++ [selector.program.start request]⟩ where
  inside := kept.inside
  sound := Pool.forall_start kept.sound (by cases request <;> trivial)
  completed := by
    have fresh : ¬Successful (selector.program.start request) := by cases request <;> exact id
    rw [kept.completed]
    simp only [List.mem_append, List.mem_singleton, or_and_right, exists_or, exists_eq_left, fresh,
      or_false]

theorem Kept.step {next : SelectorConfig} {event : SelectorEvent} (kept : Kept selector config)
    (taken : selector.program.step config event = some next) : Kept selector next := by
  rcases Pool.Program.step_cases taken with
    ⟨request, rfl, rfl⟩ | ⟨before, call, after, choice, state, moved, rfl, shape, acted, rfl⟩
  · exact kept.start request
  · exact kept.act shape acted

end Step

theorem kept_of_run {default : String} {cached : Option String} {events : List SelectorEvent}
    {config : SelectorConfig}
    (ran : Machine.run selector.program.step (selector.initial default cached) events =
      some config) : Kept selector config :=
  Machine.run_invariant (Kept selector) (fun kept taken => kept.step taken)
    (kept_initial default cached) ran

/-! Rounds that nothing comes between. -/

def checkAll (place : Nat) (outcomes : List TestOutcome) : List SelectorEvent :=
  [.start .checkAll, .advance place (.finished outcomes)] ++
    if reachable (testResults outcomes) = [] then [] else [.advance place .go, .advance place .go]

structure Follows (selector : SelectorOutbound) (config : SelectorConfig)
    (outcomes : List TestOutcome) (next : SelectorConfig) : Prop where
  unreached : ¬Reached (testResults outcomes) →
    next.shared.selectedIndex = config.shared.selectedIndex
  reached : Reached (testResults outcomes) →
    ∃ isFirst, (isFirst = true ↔ ∀ call ∈ config.calls, ¬Successful call) ∧
      TestRound.Chosen selector.tolerance ⟨testResults outcomes, isFirst,
        config.shared.selectedIndex, next.shared.selectedIndex⟩

theorem Kept.checkAll {config : SelectorConfig} (kept : Kept selector config)
    (urlTest : selector.selectorType = .urlTest) {outcomes : List TestOutcome}
    (tests : selector.Tests outcomes) :
    ∃ next, Machine.run selector.program.step config
        (checkAll config.calls.length outcomes) = some next ∧
      Follows selector config outcomes next := by
  obtain ⟨⟨selected, completed⟩, calls⟩ := config
  have finished : selector.program.act ⟨⟨selected, completed⟩, calls ++ [.testing]⟩ .testing
      (.finished outcomes) = some (selector.finish ⟨selected, completed⟩ (testResults outcomes)) :=
    if_pos tests
  by_cases reached : Reached (testResults outcomes)
  · have some_reachable := reachable_ne_nil.mpr reached
    obtain ⟨best, chosen⟩ := selector.exists_bestIndex reached (!completed) selected
    rw [SelectorOutbound.finish, if_pos ⟨urlTest, some_reachable⟩] at finished
    have chooses : selector.program.act
        ⟨⟨selected, true⟩, calls ++ [.choosing (testResults outcomes) (!completed)]⟩
          (.choosing (testResults outcomes) (!completed)) .go =
        some (⟨selected, true⟩, .switching ⟨testResults outcomes, !completed, selected, best⟩) :=
      Option.map_eq_some_iff.mpr ⟨best, chosen, rfl⟩
    refine ⟨⟨⟨best, true⟩, calls ++ [.tested ⟨testResults outcomes, !completed, selected, best⟩]⟩,
      ?_, absurd reached, fun _ => ⟨!completed, ?_, ?_⟩⟩
    · rw [SelectorOutbound.checkAll, if_neg some_reachable]
      refine (Machine.run_cons_of rfl _).trans ?_
      refine (Machine.run_cons_of (Pool.Program.step_last finished) _).trans ?_
      refine (Machine.run_cons_of (Pool.Program.step_last chooses) _).trans ?_
      exact Machine.run_cons_of (Pool.Program.step_last rfl) []
    · have successful : completed = true ↔ ∃ call ∈ calls, Successful call := kept.completed
      rw [Bool.not_eq_true', ← Bool.not_eq_true, successful]
      exact ⟨fun none call member holds => none ⟨call, member, holds⟩,
        fun none ⟨call, member, holds⟩ => none call member holds⟩
    · exact selector.chosen_of_bestIndex
        ((testResults_sublist outcomes).nodup tests.1) chosen
  · have none_reachable : reachable (testResults outcomes) = [] :=
      not_not.mp fun some_reachable => reached (reachable_ne_nil.mp some_reachable)
    rw [SelectorOutbound.finish, if_neg fun both => both.2 none_reachable] at finished
    refine ⟨⟨⟨selected, completed⟩, calls ++ [.untested (testResults outcomes)]⟩, ?_,
      fun _ => rfl, fun here => absurd here reached⟩
    rw [SelectorOutbound.checkAll, if_pos none_reachable]
    refine (Machine.run_cons_of rfl _).trans ?_
    exact Machine.run_cons_of (Pool.Program.step_last finished) []

/-- In every state that test rounds, selections and connections reach, in any
order of their steps. -/
theorem selection (selector : SelectorOutbound) {default : String} {cached : Option String}
    {events : List SelectorEvent} {config : SelectorConfig}
    (ran : Machine.run selector.program.step (selector.initial default cached) events =
      some config) :
    config.shared.selectedIndex < selector.outboundsCount ∧
      (∀ index round next, config.calls[index]? = some (.switching round) →
        selector.program.step config (.advance index .go) = some next →
          next.shared.selectedIndex = round.best ∧ round.Chosen selector.tolerance) ∧
      (selector.selectorType = .urlTest → ∀ outcomes, selector.Tests outcomes →
        ∃ next, Machine.run selector.program.step config
            (checkAll config.calls.length outcomes) = some next ∧
          Follows selector config outcomes next) := by
  have kept := kept_of_run ran
  refine ⟨kept.inside, ?_, fun urlTest _ tests => kept.checkAll urlTest tests⟩
  intro index round next found taken
  have sound := kept.sound _ (List.mem_of_getElem? found)
  simp only [Pool.Program.step, found] at taken
  cases taken
  exact ⟨rfl, sound.1⟩

/-- A selector of three outbounds, with a tolerance of 50 ms. -/
def threeNodes : SelectorOutbound := ⟨.urlTest, ["a", "b", "c"], 50, by decide⟩

/-- A first round, and the first outbound selected by hand. -/
def roundThenSelect : List SelectorEvent :=
  checkAll 0 [⟨1, some 40⟩, ⟨0, some 60⟩, ⟨2, none⟩] ++
    [.start (.selectByTag "a"), .advance 1 .go, .advance 1 .go]

/-- The selected outbound is 50 ms behind the fastest one, and is kept. -/
theorem selection_roundThenSelect :
    ∃ config, Machine.run threeNodes.program.step (threeNodes.initial "c" none) roundThenSelect =
        some config ∧ config.shared.selectedIndex = 0 ∧
      ∃ next, Machine.run threeNodes.program.step config
          (checkAll 2 [⟨0, some 90⟩, ⟨1, some 40⟩]) = some next ∧
        Follows threeNodes config [⟨0, some 90⟩, ⟨1, some 40⟩] next ∧
          next.shared.selectedIndex = 0 := by
  have ran : Machine.run threeNodes.program.step (threeNodes.initial "c" none) roundThenSelect =
      some ⟨⟨0, true⟩, [.tested ⟨[⟨1, 40⟩, ⟨0, 60⟩], true, 2, 1⟩, .updated 0]⟩ := rfl
  obtain ⟨-, -, rounds⟩ := selection threeNodes ran
  obtain ⟨next, again, follows⟩ := rounds rfl [⟨0, some 90⟩, ⟨1, some 40⟩] (by decide)
  refine ⟨_, ran, rfl, next, again, follows, ?_⟩
  have selected := congrArg (Option.map (·.shared.selectedIndex)) again
  exact Option.some.inj selected.symm

end SelectorOutbound

end QuicProxy
