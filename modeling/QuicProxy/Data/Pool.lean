import QuicProxy.Data.Machine
import Mathlib.Algebra.BigOperators.Group.List.Basic
import Mathlib.Data.Fintype.Card
import Mathlib.Data.List.Nodup

namespace QuicProxy

/-! Calls of several functions that run at the same time over one shared state:
a configuration is the shared state with the calls made so far, each at the
place it has reached, and one call moves at a time. -/

namespace Pool

universe u v w x

structure Config (Shared : Type u) (Call : Type v) where
  shared : Shared
  calls : List Call

structure Program (Shared : Type u) (Call : Type v) (Request : Type w) (Choice : Type x) where
  start : Request → Call
  /-- The next operation of a call; `none` is a call that has returned or has to
  wait.  The choice is what the operation learns from outside. -/
  act : Config Shared Call → Call → Choice → Option (Shared × Call)

inductive Event (Request : Type w) (Choice : Type x) where
  | start (request : Request)
  | advance (index : Nat) (choice : Choice)

variable {Shared : Type u} {Call : Type v} {Request : Type w} {Choice : Type x}

theorem exists_split {calls : List Call} {index : Nat} {call : Call}
    (found : calls[index]? = some call) :
    ∃ before after, before.length = index ∧ calls = before ++ call :: after ∧
      ∀ moved, calls.set index moved = before ++ moved :: after := by
  obtain ⟨bound, at_index⟩ := List.getElem?_eq_some_iff.mp found
  refine ⟨calls.take index, calls.drop (index + 1), ?_, ?_, fun moved => ?_⟩
  · rw [List.length_take]
    omega
  · rw [← at_index, List.getElem_cons_drop, List.take_append_drop]
  · rw [List.set_eq_take_append_cons_drop, if_pos bound]

namespace Program

variable (program : Program Shared Call Request Choice)

def step (config : Config Shared Call) : Event Request Choice → Option (Config Shared Call)
  | .start request => some ⟨config.shared, config.calls ++ [program.start request]⟩
  | .advance index choice =>
      match config.calls[index]? with
      | none => none
      | some call =>
          (program.act config call choice).map fun (shared, next) =>
            ⟨shared, config.calls.set index next⟩

variable {program} {config next final : Config Shared Call} {event : Event Request Choice}

theorem step_cases (taken : program.step config event = some next) :
    (∃ request, event = .start request ∧
      next = ⟨config.shared, config.calls ++ [program.start request]⟩) ∨
    ∃ before call after choice shared moved,
      event = .advance before.length choice ∧ config.calls = before ++ call :: after ∧
        program.act config call choice = some (shared, moved) ∧
          next = ⟨shared, before ++ moved :: after⟩ := by
  cases event with
  | start request =>
      cases taken
      exact Or.inl ⟨request, rfl, rfl⟩
  | advance index choice =>
      simp only [step] at taken
      split at taken
      · cases taken
      · rename_i call found
        obtain ⟨⟨shared, moved⟩, acted, rfl⟩ := Option.map_eq_some_iff.mp taken
        obtain ⟨before, after, rfl, shape, replaced⟩ := exists_split found
        exact Or.inr ⟨before, call, after, choice, shared, moved, rfl, shape, acted,
          congrArg _ (replaced moved)⟩

theorem step_last {shared moved_to : Shared} {calls : List Call} {call moved : Call}
    {choice : Choice}
    (acted : program.act ⟨shared, calls ++ [call]⟩ call choice = some (moved_to, moved)) :
    program.step ⟨shared, calls ++ [call]⟩ (.advance calls.length choice) =
      some ⟨moved_to, calls ++ [moved]⟩ := by
  simp only [step, List.getElem?_concat_length, acted, Option.map_some]
  rw [List.set_append_right _ _ (Nat.le_refl _), Nat.sub_self]
  rfl

end Program

/-! The list of calls when a call starts, or when the one between `before` and
`after` moves. -/

section Calls

variable {calls before after : List Call} {call moved : Call} {index : Nat}

theorem getElem?_start {new : List Call} (found : calls[index]? = some call) :
    (calls ++ new)[index]? = some call := by
  obtain ⟨bound, _⟩ := List.getElem?_eq_some_iff.mp found
  rw [List.getElem?_append_left bound]
  exact found

theorem getElem?_concat_cases {last : Call} (found : (calls ++ [last])[index]? = some call) :
    calls[index]? = some call ∨ index = calls.length ∧ call = last := by
  by_cases inside : index < calls.length
  · rw [List.getElem?_append_left inside] at found
    exact Or.inl found
  · obtain ⟨bound, -⟩ := List.getElem?_eq_some_iff.mp found
    rw [List.length_append, List.length_singleton] at bound
    obtain rfl : index = calls.length := by omega
    rw [List.getElem?_concat_length] at found
    exact Or.inr ⟨rfl, (Option.some.inj found).symm⟩

theorem getElem?_set_of_some (found : calls[index]? = some call) (new : Call) (other : Nat) :
    (calls.set index new)[other]? = if other = index then some new else calls[other]? := by
  obtain ⟨bound, -⟩ := List.getElem?_eq_some_iff.mp found
  rw [List.getElem?_set]
  by_cases same : index = other
  · subst same
    rw [if_pos rfl, if_pos rfl, if_pos bound]
  · rw [if_neg same, if_neg (Ne.symm same)]

theorem getElem?_set_self (found : calls[index]? = some call) (new : Call) :
    (calls.set index new)[index]? = some new :=
  (getElem?_set_of_some found new index).trans (if_pos rfl)

theorem mem_set_of_ne {other new : Call} (found : calls[index]? = some call)
    (member : other ∈ calls) (differs : other ≠ call) : other ∈ calls.set index new := by
  obtain ⟨place, present⟩ := List.mem_iff_getElem?.mp member
  have elsewhere : place ≠ index := by
    intro equal
    subst equal
    rw [found] at present
    exact differs (Option.some.inj present).symm
  refine List.mem_iff_getElem?.mpr ⟨place, ?_⟩
  rw [getElem?_set_of_some found, if_neg elsewhere, present]

theorem getElem?_moved : (before ++ moved :: after)[before.length]? = some moved := by
  simp

theorem getElem?_act (other : index ≠ before.length) :
    (before ++ moved :: after)[index]? = (before ++ call :: after)[index]? := by
  rcases Nat.lt_or_gt_of_ne other with earlier | later
  · rw [List.getElem?_append_left earlier, List.getElem?_append_left earlier]
  · obtain ⟨offset, rfl⟩ : ∃ offset, index = before.length + (offset + 1) :=
      ⟨index - before.length - 1, by omega⟩
    rw [List.getElem?_append_right (by omega), List.getElem?_append_right (by omega),
      Nat.add_sub_cancel_left]
    rfl

theorem mem_act {other : Call} (member : other ∈ before ++ call :: after)
    (differs : other ≠ call) : other ∈ before ++ moved :: after := by
  simp only [List.mem_append, List.mem_cons] at member ⊢
  exact member.imp_right fun rest => Or.inr (rest.resolve_left differs)

theorem eq_or_mem_of_mem_act {other : Call} (member : other ∈ before ++ moved :: after) :
    other = moved ∨ other ∈ before ++ after := by
  simp only [List.mem_append, List.mem_cons] at member ⊢
  exact or_left_comm.mp member

theorem mem_act_iff {other : Call} (notCall : other ≠ call) (notMoved : other ≠ moved) :
    other ∈ before ++ moved :: after ↔ other ∈ before ++ call :: after := by
  simp only [List.mem_append, List.mem_cons, notCall, notMoved, false_or]

theorem forall_start {holds : Call → Prop} (all : ∀ other ∈ calls, holds other)
    (new : holds call) : ∀ other ∈ calls ++ [call], holds other := by
  intro other member
  rcases List.mem_append.mp member with earlier | last
  · exact all other earlier
  · rw [List.mem_singleton.mp last]
    exact new

/-- A property that holds of every call by itself: the call that moves has to
reach it again, and the others have to keep it. -/
theorem forall_act {holds kept : Call → Prop} (all : ∀ other ∈ before ++ call :: after, holds other)
    (own : holds call → kept moved) (others : ∀ other, holds other → kept other) :
    ∀ other ∈ before ++ moved :: after, kept other := by
  intro other member
  simp only [List.mem_append, List.mem_cons] at all member
  rcases member with earlier | rfl | later
  · exact others other (all other (Or.inl earlier))
  · exact own (all call (Or.inr (Or.inl rfl)))
  · exact others other (all other (Or.inr (Or.inr later)))

/-- A call that is there before a move is there after it, unless it is the one
that moves. -/
theorem exists_act {holds : Call → Prop} (found : ∃ other ∈ before ++ call :: after, holds other) :
    holds call ∨ ∃ other ∈ before ++ moved :: after, holds other := by
  obtain ⟨other, member, here⟩ := found
  simp only [List.mem_append, List.mem_cons] at member ⊢
  rcases member with earlier | rfl | later
  · exact Or.inr ⟨other, Or.inl earlier, here⟩
  · exact Or.inl here
  · exact Or.inr ⟨other, Or.inr (Or.inr later), here⟩

end Calls

/-! Calls that come to an end. -/

section Endings

variable {program : Program Shared Call Request Choice} {left : Call → Nat} {bound : Nat}

def Event.moves (index : Nat) : Event Request Choice → Bool
  | start _ => false
  | advance place _ => place == index

/-- What is left to do of a call, which may not have started. -/
def rest (left : Call → Nat) (bound : Nat) (config : Config Shared Call) (index : Nat) : Nat :=
  (config.calls[index]?.map left).getD bound

theorem rest_step (starts : ∀ request, left (program.start request) ≤ bound)
    (decreases : ∀ {config call choice shared moved},
      program.act config call choice = some (shared, moved) → left moved < left call)
    {config next : Config Shared Call} {event : Event Request Choice}
    (taken : program.step config event = some next) (index : Nat) :
    rest left bound next index + (if event.moves index then 1 else 0) ≤
      rest left bound config index := by
  rcases Program.step_cases taken with
    ⟨request, rfl, rfl⟩ | ⟨before, call, after, choice, shared, moved, rfl, shape, acted, rfl⟩
  · rw [Event.moves, if_neg Bool.false_ne_true, Nat.add_zero, rest, rest]
    rcases Nat.lt_trichotomy index config.calls.length with inside | rfl | outside
    · rw [List.getElem?_append_left inside]
    · rw [List.getElem?_concat_length, List.getElem?_eq_none (Nat.le_refl _)]
      exact starts request
    · rw [List.getElem?_eq_none (by simp only [List.length_append, List.length_singleton]; omega),
        List.getElem?_eq_none (Nat.le_of_lt outside)]
  · rw [rest, rest, shape]
    by_cases same : index = before.length
    · subst same
      rw [getElem?_moved, getElem?_moved, Event.moves, if_pos (beq_self_eq_true _)]
      exact decreases acted
    · rw [getElem?_act same, Event.moves, if_neg (fun equal => same (beq_iff_eq.mp equal).symm)]
      exact Nat.le_refl _

/-- Where every operation of a call takes something from what is left of it, a call
has no more operations than it had left at the start. -/
theorem Program.run_bounded (starts : ∀ request, left (program.start request) ≤ bound)
    (decreases : ∀ {config call choice shared moved},
      program.act config call choice = some (shared, moved) → left moved < left call)
    {config final : Config Shared Call} {events : List (Event Request Choice)}
    (ran : Machine.run program.step config events = some final) (index : Nat) :
    rest left bound final index + events.countP (Event.moves index) ≤
      rest left bound config index := by
  induction events generalizing config with
  | nil =>
      cases ran
      exact Nat.le_refl _
  | cons event events ih =>
      obtain ⟨next, taken, ran⟩ := Machine.run_cons ran
      have here := rest_step starts decreases taken index
      have later := ih ran
      rw [List.countP_cons]
      omega

end Endings

/-! Calls that own something: no two of them own the same. -/

section Owners

variable {Owned : Type w} {own : Call → Option Owned} {calls before after : List Call}
variable {call moved : Call}

def Distinct (own : Call → Option Owned) (calls : List Call) : Prop :=
  (calls.filterMap own).Nodup

theorem Distinct.index_eq (distinct : Distinct own calls) {first second : Nat} {one other : Call}
    {owned : Owned} (there : calls[first]? = some one) (owns : own one = some owned)
    (there' : calls[second]? = some other) (owns' : own other = some owned) : first = second := by
  have apart := List.pairwise_filterMap.mp distinct
  obtain ⟨bound, rfl⟩ := List.getElem?_eq_some_iff.mp there
  obtain ⟨bound', rfl⟩ := List.getElem?_eq_some_iff.mp there'
  rcases Nat.lt_trichotomy first second with earlier | same | later
  · exact absurd rfl (List.pairwise_iff_getElem.mp apart _ _ bound bound' earlier _ owns _ owns')
  · exact same
  · exact absurd rfl (List.pairwise_iff_getElem.mp apart _ _ bound' bound later _ owns' _ owns)

theorem Distinct.other (distinct : Distinct own (before ++ call :: after)) {owned : Owned}
    (owns : own call = some owned) {other : Call} (member : other ∈ before ++ after) :
    own other ≠ some owned := by
  intro same
  rw [Distinct, List.filterMap_append, List.filterMap_cons, owns] at distinct
  have apart := List.nodup_middle.mp distinct
  rw [← List.filterMap_append] at apart
  exact (List.nodup_cons.mp apart).1 (List.mem_filterMap.mpr ⟨other, member, same⟩)

theorem filterMap_act (same : own moved = own call) :
    (before ++ moved :: after).filterMap own = (before ++ call :: after).filterMap own := by
  rw [List.filterMap_append, List.filterMap_append]
  refine congrArg _ ?_
  simp only [List.filterMap_cons, same]

theorem Distinct.act (distinct : Distinct own (before ++ call :: after))
    (same : own moved = own call) : Distinct own (before ++ moved :: after) := by
  rw [Distinct, filterMap_act same]
  exact distinct

theorem Distinct.change (distinct : Distinct own (before ++ call :: after))
    (fresh : ∀ owned, own moved = some owned → ∀ other ∈ before ++ after, own other ≠ some owned) :
    Distinct own (before ++ moved :: after) := by
  have others : ((before ++ after).filterMap own).Nodup := by
    refine List.Nodup.sublist (List.Sublist.filterMap own ?_) distinct
    exact List.Sublist.append_left (List.sublist_cons_self call after) before
  rw [List.filterMap_append] at others
  rw [Distinct, List.filterMap_append, List.filterMap_cons]
  cases owns : own moved with
  | none => exact others
  | some owned =>
      refine List.nodup_middle.mpr (List.nodup_cons.mpr ⟨fun member => ?_, others⟩)
      rw [← List.filterMap_append] at member
      obtain ⟨other, present, same⟩ := List.mem_filterMap.mp member
      exact fresh owned owns other present same

theorem Distinct.start (distinct : Distinct own calls) (none : own call = none) :
    Distinct own (calls ++ [call]) := by
  rw [Distinct, List.filterMap_append, List.filterMap_cons, none]
  exact (List.append_nil _).symm ▸ distinct

theorem count_filterMap_act [DecidableEq Owned] (own : Call → Option Owned)
    (before after : List Call) (call moved : Call) (owned : Owned) :
    ((before ++ moved :: after).filterMap own).count owned + (own call).toList.count owned =
      ((before ++ call :: after).filterMap own).count owned + (own moved).toList.count owned := by
  have here (one : Call) : ((before ++ one :: after).filterMap own).count owned =
      (before.filterMap own).count owned + (own one).toList.count owned +
        (after.filterMap own).count owned := by
    rw [List.filterMap_append, List.count_append, Nat.add_assoc]
    cases owns : own one with
    | none => rw [List.filterMap_cons_none owns, Option.toList_none, List.count_nil, Nat.zero_add]
    | some given =>
        rw [List.filterMap_cons_some owns, Option.toList_some, List.count_cons,
          List.count_singleton]
        omega
  rw [here, here]
  omega

theorem count_filterMap_set [DecidableEq Owned] (own : Call → Option Owned) {index : Nat}
    (found : calls[index]? = some call) (moved : Call) (owned : Owned) :
    ((calls.set index moved).filterMap own).count owned + (own call).toList.count owned =
      (calls.filterMap own).count owned + (own moved).toList.count owned := by
  obtain ⟨before, after, -, rfl, replaced⟩ := exists_split found
  rw [replaced]
  exact count_filterMap_act own before after call moved owned

theorem mem_of_mem_others {other : Call} (member : other ∈ before ++ after) :
    other ∈ before ++ call :: after := by
  simp only [List.mem_append, List.mem_cons] at member ⊢
  exact member.imp_right Or.inr

/-- The one property is that of the call that moves, the other that of the others. -/
theorem forall_moved {holds : Call → Prop} (own : holds moved)
    (others : ∀ other ∈ before ++ after, holds other) :
    ∀ other ∈ before ++ moved :: after, holds other := by
  intro other member
  simp only [List.mem_append, List.mem_cons] at member
  rcases member with earlier | rfl | later
  · exact others other (List.mem_append_left _ earlier)
  · exact own
  · exact others other (List.mem_append_right _ later)

end Owners

/-! A guard that one call has at a time. -/

section Guard

variable {holds : Call → Bool} {calls before after : List Call} {call moved : Call}

def guardOf (holds : Call → Bool) (call : Call) : Option Unit :=
  if holds call then some () else none

def Exclusive (holds : Call → Bool) (calls : List Call) : Prop := Distinct (guardOf holds) calls

theorem exclusive_nil : Exclusive holds [] := List.nodup_nil

theorem Exclusive.index_eq (exclusive : Exclusive holds calls) {first second : Nat}
    {one other : Call} (there : calls[first]? = some one) (held : holds one = true)
    (there' : calls[second]? = some other) (held' : holds other = true) : first = second :=
  Distinct.index_eq exclusive there (if_pos held) there' (if_pos held')

theorem Exclusive.start (exclusive : Exclusive holds calls) (free : holds call = false) :
    Exclusive holds (calls ++ [call]) :=
  Distinct.start exclusive (if_neg (Bool.not_eq_true _ ▸ free))

theorem Exclusive.other (exclusive : Exclusive holds (before ++ call :: after))
    (held : holds call = true) : ∀ other ∈ before ++ after, holds other = false := by
  intro other member
  by_contra taken
  exact Distinct.other exclusive (if_pos held) member (if_pos (eq_true_of_ne_false taken))

theorem Exclusive.act (exclusive : Exclusive holds (before ++ call :: after))
    (taken : holds moved = true → ∀ other ∈ before ++ after, holds other = false) :
    Exclusive holds (before ++ moved :: after) := by
  refine Distinct.change exclusive fun owned held other member same => ?_
  have holder : holds moved = true := by
    by_contra free
    rw [guardOf, if_neg free] at held
    cases held
  rw [guardOf, taken holder other member, if_neg Bool.false_ne_true] at same
  cases same

theorem Exclusive.length_filterMap {Owned : Type w} {own : Call → Option Owned}
    (exclusive : Exclusive holds calls)
    (held : ∀ call, (own call).isSome = true → holds call = true) :
    (calls.filterMap own).length ≤ 1 := by
  have guards : (calls.filterMap (guardOf holds)).length ≤ 1 := exclusive.length_le_card
  refine Nat.le_trans ?_ guards
  clear exclusive guards
  induction calls with
  | nil => exact Nat.le_refl _
  | cons call calls ih =>
      cases owns : own call with
      | none =>
          rw [List.filterMap_cons_none owns]
          refine Nat.le_trans ih (List.Sublist.length_le ?_)
          exact (List.sublist_cons_self call calls).filterMap _
      | some owned =>
          have guard : guardOf holds call = some () :=
            if_pos (held call (Option.isSome_of_eq_some owns))
          rw [List.filterMap_cons_some owns, List.filterMap_cons_some guard]
          exact Nat.succ_le_succ ih

end Guard

/-! Things that are numbered as they are made. -/

/-- Each of them is in one of these places. -/
def Covered (made : Nat) (places : List Nat) : Prop := ∀ thing < made, thing ∈ places

theorem Covered.mono {made : Nat} {places more : List Nat} (covered : Covered made places)
    (within : places ⊆ more) : Covered made more :=
  fun thing old => within (covered thing old)

theorem Covered.succ {made : Nat} {places : List Nat} (covered : Covered made places)
    (here : made ∈ places) : Covered (made + 1) places := by
  intro thing old
  rcases Nat.lt_succ_iff_lt_or_eq.mp old with earlier | rfl
  · exact covered thing earlier
  · exact here

theorem Covered.le_length {made : Nat} {places : List Nat} (covered : Covered made places) :
    made ≤ places.length := by
  have within : List.range made ⊆ places := fun thing member =>
    covered thing (List.mem_range.mp member)
  have counted := (List.subperm_of_subset List.nodup_range within).length_le
  rwa [List.length_range] at counted

/-- None of them is in two places. -/
def Once (made : Nat) (places : List Nat) : Prop :=
  ∀ thing, places.count thing ≤ if thing < made then 1 else 0

theorem Once.step {made now : Nat} {places more fresh : List Nat} (once : Once made places)
    (numbered : fresh = [] ∨ fresh = [made]) (counted : now = made + fresh.length)
    (conserved : ∀ thing, more.count thing ≤ places.count thing + fresh.count thing) :
    Once now more := by
  subst counted
  intro thing
  have before := once thing
  have here := conserved thing
  rcases numbered with rfl | rfl
  · rw [List.count_nil] at here
    rw [List.length_nil, Nat.add_zero]
    omega
  · rw [List.count_singleton] at here
    rw [List.length_singleton]
    rcases Nat.lt_trichotomy thing made with less | rfl | greater
    · rw [beq_false_of_ne (Nat.ne_of_gt less), if_neg Bool.false_ne_true] at here
      rw [if_pos less] at before
      rw [if_pos (Nat.lt_succ_of_lt less)]
      omega
    · rw [beq_self_eq_true, if_pos rfl] at here
      rw [if_neg (Nat.lt_irrefl _)] at before
      rw [if_pos (Nat.lt_succ_self _)]
      omega
    · rw [beq_false_of_ne (Nat.ne_of_lt greater), if_neg Bool.false_ne_true] at here
      rw [if_neg (Nat.lt_asymm greater)] at before
      omega

theorem Once.nodup {made : Nat} {places : List Nat} (once : Once made places) : places.Nodup := by
  refine List.nodup_iff_count_le_one.mpr fun thing => Nat.le_trans (once thing) ?_
  split
  · exact Nat.le_refl _
  · exact Nat.zero_le _

end Pool

end QuicProxy
