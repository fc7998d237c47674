import Mathlib.Data.List.Perm.Basic

namespace QuicProxy

/-! Two lists that take turns, until one of them is at its end, and what is left
of their order when some elements are taken out. -/

universe u

variable {Element : Type u}

def interleave : List Element → List Element → List Element
  | [], seconds => seconds
  | first :: firsts, [] => first :: firsts
  | first :: firsts, second :: seconds => first :: second :: interleave firsts seconds

/-- As long as both sides remain, no two neighbours are of one side. -/
def Alternates (side : Element → Bool) : List Element → Prop
  | [] => True
  | first :: rest =>
      (∀ second ∈ rest.head?, side first = side second →
        ∀ later ∈ rest, side later = side second) ∧ Alternates side rest

/-- The first element is of the side, if any is. -/
def StartsWith (side : Element → Bool) (start : Bool) (list : List Element) : Prop :=
  (∃ element ∈ list, side element = start) → ∃ first ∈ list.head?, side first = start

/-- For each element that is kept, how many have been taken out before it. -/
def gaps (keep : Element → Bool) : (count : Nat) → List Element → List Nat
  | _, [] => []
  | count, first :: rest =>
      if keep first then count :: gaps keep count rest else gaps keep (count + 1) rest

/-- Taken in turns, the numbers do not go down as long as both lists remain. -/
def Ascends : List Nat → List Nat → Prop
  | first :: firsts, second :: seconds => first ≤ second ∧
      (∀ third ∈ firsts.head?, second ≤ third) ∧ Ascends firsts seconds
  | [], _ => True
  | _ :: _, [] => True

instance decidableAscends : (firsts seconds : List Nat) → Decidable (Ascends firsts seconds)
  | first :: firsts, second :: seconds =>
      have : Decidable (Ascends firsts seconds) := decidableAscends firsts seconds
      inferInstanceAs (Decidable (first ≤ second ∧
        (∀ third ∈ firsts.head?, second ≤ third) ∧ Ascends firsts seconds))
  | [], _ => isTrue trivial
  | _ :: _, [] => isTrue trivial

variable {firsts seconds list : List Element} {first : Element} {side keep : Element → Bool}
variable {start : Bool}

theorem interleave_nil (firsts : List Element) : interleave firsts [] = firsts := by
  cases firsts <;> rfl

theorem interleave_cons (first : Element) (firsts seconds : List Element) :
    interleave (first :: firsts) seconds = first :: interleave seconds firsts := by
  induction firsts generalizing first seconds with
  | nil =>
      rw [interleave_nil]
      cases seconds <;> rfl
  | cons third firsts ih =>
      cases seconds with
      | nil => rfl
      | cons second seconds => rw [interleave, interleave, ih]

theorem perm_interleave (firsts seconds : List Element) :
    (interleave firsts seconds).Perm (firsts ++ seconds) := by
  induction firsts, seconds using interleave.induct with
  | case1 seconds => exact List.Perm.refl seconds
  | case2 first firsts => exact List.Perm.of_eq (List.append_nil _).symm
  | case3 first firsts second seconds ih =>
      exact (ih.cons second).trans List.perm_middle.symm |>.cons first

theorem filter_interleave (first_side : ∀ element ∈ firsts, side element = start)
    (second_side : ∀ element ∈ seconds, side element = !start) :
    (interleave firsts seconds).filter (side · == start) = firsts ∧
      (interleave firsts seconds).filter (side · == !start) = seconds := by
  have sorts (list : List Element) (value : Bool) (all : ∀ element ∈ list, side element = value) :
      list.filter (side · == value) = list ∧ list.filter (side · == !value) = [] := by
    refine ⟨List.filter_eq_self.mpr fun element member => beq_iff_eq.mpr (all element member),
      List.filter_eq_nil_iff.mpr fun element member => ?_⟩
    rw [all element member]
    cases value <;> decide
  induction firsts, seconds using interleave.induct with
  | case1 seconds =>
      have sorted := sorts seconds (!start) second_side
      rw [Bool.not_not] at sorted
      exact ⟨sorted.2, sorted.1⟩
  | case2 first firsts => exact sorts _ start first_side
  | case3 first firsts second seconds ih =>
      obtain ⟨first_here, first_later⟩ := List.forall_mem_cons.mp first_side
      obtain ⟨second_here, second_later⟩ := List.forall_mem_cons.mp second_side
      obtain ⟨firsts_same, seconds_same⟩ := ih first_later second_later
      simp only [interleave, List.filter_cons, first_here, second_here, beq_self_eq_true,
        firsts_same, seconds_same]
      cases start <;> exact ⟨rfl, rfl⟩

theorem alternates_of_forall {value : Bool} (all : ∀ element ∈ list, side element = value) :
    Alternates side list := by
  induction list with
  | nil => trivial
  | cons first rest ih =>
      obtain ⟨-, later⟩ := List.forall_mem_cons.mp all
      refine ⟨fun second head _ element member => ?_, ih later⟩
      rw [later element member, later second (List.mem_of_head? head)]

theorem startsWith_not_iff (here : side first = start) :
    StartsWith side (!start) list ↔ ∀ second ∈ list.head?, side first = side second →
      ∀ later ∈ list, side later = side second := by
  constructor
  · intro starts second head same later member
    by_contra differs
    have other : side later = !start := Bool.eq_not_of_ne fun equal =>
      differs (equal.trans (here.symm.trans same))
    obtain ⟨leader, found, turned⟩ := starts ⟨later, member, other⟩
    cases Option.mem_unique head found
    rw [← same, here] at turned
    exact Bool.eq_not_self start |>.mp turned
  · rintro follows ⟨element, member, other⟩
    cases list with
    | nil => cases member
    | cons second rest =>
        refine ⟨second, rfl, Bool.eq_not_of_ne fun equal => ?_⟩
        have same := follows second rfl (here.trans equal.symm) element member
        rw [other, equal] at same
        exact Bool.not_eq_self start |>.mp same

theorem eq_interleave_iff (side : Element → Bool) (start : Bool) (list : List Element) :
    list = interleave (list.filter (side · == start)) (list.filter (side · == !start)) ↔
      StartsWith side start list ∧ Alternates side list := by
  induction list generalizing start with
  | nil =>
      refine ⟨fun _ => ⟨?_, trivial⟩, fun _ => rfl⟩
      rintro ⟨element, member, -⟩
      cases member
  | cons first rest ih =>
      by_cases here : side first = start
      · have turn := ih (!start)
        rw [Bool.not_not, startsWith_not_iff here] at turn
        have front : (first :: rest).filter (side · == start) =
            first :: rest.filter (side · == start) := List.filter_cons_of_pos (beq_iff_eq.mpr here)
        have back : (first :: rest).filter (side · == !start) = rest.filter (side · == !start) :=
          List.filter_cons_of_neg (by rw [here]; cases start <;> decide)
        rw [front, back, interleave_cons, List.cons_inj_right, turn]
        exact ⟨fun alternates => ⟨fun _ => ⟨first, rfl, here⟩, alternates⟩, And.right⟩
      · have turned : side first = !start := Bool.eq_not_of_ne here
        have front : (first :: rest).filter (side · == start) = rest.filter (side · == start) :=
          List.filter_cons_of_neg fun equal => here (beq_iff_eq.mp equal)
        have back : (first :: rest).filter (side · == !start) =
            first :: rest.filter (side · == !start) :=
          List.filter_cons_of_pos (beq_iff_eq.mpr turned)
        rw [front, back]
        cases leaders : rest.filter (side · == start) with
        | nil =>
            have later : ∀ element ∈ rest, side element = !start := fun element member =>
              Bool.eq_not_of_ne fun equal =>
                List.filter_eq_nil_iff.mp leaders element member (beq_iff_eq.mpr equal)
            have all : ∀ element ∈ first :: rest, side element = !start :=
              List.forall_mem_cons.mpr ⟨turned, later⟩
            have same : rest.filter (side · == !start) = rest :=
              List.filter_eq_self.mpr fun element member => beq_iff_eq.mpr (later element member)
            rw [interleave, same]
            refine ⟨fun _ => ⟨?_, alternates_of_forall all⟩, fun _ => rfl⟩
            rintro ⟨element, member, equal⟩
            rw [all element member] at equal
            exact absurd equal (Bool.not_eq_self start).mp
        | cons leader others =>
            have leads : leader ∈ rest.filter (side · == start) := by
              rw [leaders]
              exact List.mem_cons_self ..
            obtain ⟨member, equal⟩ := List.mem_filter.mp leads
            constructor
            · intro same
              cases (List.cons.inj same).1
              exact absurd (beq_iff_eq.mp equal) here
            · rintro ⟨starts, -⟩
              obtain ⟨_, ⟨⟩, starting⟩ :=
                starts ⟨leader, List.mem_cons_of_mem first member, beq_iff_eq.mp equal⟩
              exact absurd starting here

/-! Elements that are taken out. -/

theorem ascends_cons (first : Nat) (firsts seconds : List Nat) :
    Ascends (first :: firsts) seconds ↔
      (∀ second ∈ seconds.head?, first ≤ second) ∧ Ascends seconds firsts := by
  induction firsts generalizing first seconds with
  | nil =>
      cases seconds with
      | nil => exact ⟨fun _ => ⟨nofun, trivial⟩, fun _ => trivial⟩
      | cons second seconds => simp [Ascends]
  | cons third firsts ih =>
      cases seconds with
      | nil => exact ⟨fun _ => ⟨nofun, trivial⟩, fun _ => trivial⟩
      | cons second seconds => simp [Ascends, ih third seconds]

theorem ascends_map_succ (firsts seconds : List Nat) :
    Ascends (firsts.map (· + 1)) (seconds.map (· + 1)) ↔ Ascends firsts seconds := by
  induction firsts, seconds using Ascends.induct with
  | case1 first firsts second seconds ih => simp [Ascends, ih]
  | case2 seconds => exact Iff.rfl
  | case3 first firsts => exact Iff.rfl

theorem gaps_succ (keep : Element → Bool) (count : Nat) (list : List Element) :
    gaps keep (count + 1) list = (gaps keep count list).map (· + 1) := by
  induction list generalizing count with
  | nil => rfl
  | cons first rest ih =>
      simp only [gaps]
      split
      · rw [ih, List.map_cons]
      · exact ih (count + 1)

theorem gaps_eq_nil_iff {count : Nat} : gaps keep count list = [] ↔ list.filter keep = [] := by
  induction list generalizing count with
  | nil => exact ⟨fun _ => rfl, fun _ => rfl⟩
  | cons first rest ih =>
      simp only [gaps, List.filter_cons]
      split
      · exact ⟨nofun, nofun⟩
      · exact ih

theorem le_head_gaps {count : Nat} {gap : Nat} (head : gap ∈ (gaps keep count list).head?) :
    count ≤ gap := by
  induction list generalizing count with
  | nil => cases head
  | cons first rest ih =>
      rw [gaps] at head
      split at head
      · cases head
        exact Nat.le_refl _
      · exact Nat.le_of_succ_le (ih head)

theorem filter_interleave_cases (keep : Element → Bool)
    (apart : ∀ first ∈ firsts, ∀ second ∈ seconds, first ≠ second) :
    ((interleave firsts seconds).filter keep =
        interleave (firsts.filter keep) (seconds.filter keep) ↔
      Ascends (gaps keep 0 firsts) (gaps keep 0 seconds)) ∧
    ((interleave firsts seconds).filter keep =
        interleave (seconds.filter keep) (firsts.filter keep) ↔
      Ascends (gaps keep 1 seconds) (gaps keep 0 firsts)) := by
  induction size : firsts.length + seconds.length using Nat.strongRecOn
    generalizing firsts seconds with
  | ind length ih =>
      cases firsts with
      | nil =>
          refine ⟨⟨fun _ => trivial, fun _ => rfl⟩, ⟨fun _ => ?_, fun _ => ?_⟩⟩
          · cases gaps keep 1 seconds <;> trivial
          · exact (interleave_nil _).symm
      | cons first firsts =>
          obtain ⟨first_apart, later_apart⟩ := List.forall_mem_cons.mp apart
          obtain ⟨inTurn, ahead⟩ := ih (seconds.length + firsts.length)
            (by rw [← size, List.length_cons]; omega)
            (fun second here third later => (later_apart third later second here).symm) rfl
          rw [interleave_cons]
          by_cases kept : keep first = true
          · rw [List.filter_cons_of_pos kept, List.filter_cons_of_pos kept, interleave_cons,
              List.cons_inj_right, gaps, if_pos kept, ascends_cons]
            refine ⟨inTurn.trans (and_iff_right fun gap _ => Nat.zero_le gap).symm, ?_⟩
            cases others : seconds.filter keep with
            | nil =>
                rw [gaps_eq_nil_iff.mpr others] at inTurn ⊢
                rw [others] at inTurn
                exact ⟨fun _ => trivial, fun _ => congrArg (first :: ·) (inTurn.mpr trivial)⟩
            | cons second rest =>
                have present : second ∈ seconds.filter keep := by
                  rw [others]
                  exact List.mem_cons_self ..
                refine ⟨fun same => ?_, fun ascends => ?_⟩
                · exact absurd (List.cons.inj same).1
                    (first_apart second (List.mem_filter.mp present).1)
                · cases later : gaps keep 1 seconds with
                  | nil => exact absurd (gaps_eq_nil_iff.mp later) (by rw [others]; exact nofun)
                  | cons gap others =>
                      have head : gap ∈ (gaps keep 1 seconds).head? := by
                        rw [later]
                        rfl
                      have large := le_head_gaps head
                      rw [later, ascends_cons] at ascends
                      have small := ascends.1 0 rfl
                      omega
          · rw [List.filter_cons_of_neg kept, List.filter_cons_of_neg kept, gaps, if_neg kept]
            refine ⟨ahead, ?_⟩
            rw [inTurn, gaps_succ, gaps_succ, ascends_map_succ]

end QuicProxy
