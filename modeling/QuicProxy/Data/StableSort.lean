import Mathlib.Data.List.Sort

namespace QuicProxy

/-! Sorting by a key, where elements of one key stay in their order. -/

universe u v

variable {Element : Type u} {Key : Type v} [LinearOrder Key]

def sortByKey (key : Element → Key) (list : List Element) : List Element :=
  list.insertionSort fun first second => key first ≤ key second

variable {key : Element → Key} {list : List Element}

theorem perm_sortByKey (key : Element → Key) (list : List Element) :
    (sortByKey key list).Perm list :=
  List.perm_insertionSort _ list

theorem pairwise_sortByKey (key : Element → Key) (list : List Element) :
    (sortByKey key list).Pairwise fun first second => key first ≤ key second := by
  have total : Std.Total fun first second : Element => key first ≤ key second :=
    ⟨fun first second => le_total (key first) (key second)⟩
  have trans : IsTrans Element fun first second => key first ≤ key second :=
    ⟨fun _ _ _ => le_trans⟩
  exact List.pairwise_insertionSort _ list

/-- The first element that a condition lets through has the least key of those. -/
theorem filter_sortByKey_head {holds : Element → Bool} {least : Element} {rest : List Element}
    (sorted : (sortByKey key list).filter holds = least :: rest) :
    least ∈ list ∧ holds least = true ∧
      ∀ other ∈ list, holds other = true → key least ≤ key other := by
  have member {other : Element} :
      other ∈ least :: rest ↔ other ∈ list ∧ holds other = true := by
    rw [← sorted, List.mem_filter, (perm_sortByKey key list).mem_iff]
  obtain ⟨present, here⟩ := member.mp (List.mem_cons_self ..)
  refine ⟨present, here, fun other inside lets => ?_⟩
  have ordered := (pairwise_sortByKey key list).filter holds
  rw [sorted] at ordered
  rcases List.mem_cons.mp (member.mpr ⟨inside, lets⟩) with rfl | later
  · exact le_refl _
  · exact List.rel_of_pairwise_cons ordered later

theorem orderedInsert_behind {before : Element → Element → Prop} [DecidableRel before]
    {new : Element} {front back : List Element} (behind : ∀ other ∈ front, ¬before new other)
    (ahead : ∀ other ∈ back, before new other) :
    (front ++ back).orderedInsert before new = front ++ new :: back := by
  induction front with
  | nil =>
      cases back with
      | nil => rfl
      | cons second rest =>
          exact List.orderedInsert_cons_of_le _ rest (ahead second (List.mem_cons_self ..))
  | cons first front ih =>
      obtain ⟨here, later⟩ := List.forall_mem_cons.mp behind
      rw [List.cons_append, List.orderedInsert_of_not_le _ _ here, ih later]
      rfl

theorem sortByKey_flag (flag : Element → Bool) (list : List Element) :
    sortByKey flag list = list.filter (!flag ·) ++ list.filter flag := by
  induction list with
  | nil => rfl
  | cons first list ih =>
      rw [sortByKey, List.insertionSort_cons, ← sortByKey, ih]
      cases marked : flag first with
      | false =>
          rw [List.filter_cons_of_pos (by rw [marked]; rfl),
            List.filter_cons_of_neg (by rw [marked]; decide), List.cons_append]
          refine @orderedInsert_behind _ _ _ _ [] _ (List.forall_mem_nil _) fun other _ => ?_
          rw [marked]
          exact Bool.false_le _
      | true =>
          rw [List.filter_cons_of_neg (by rw [marked]; decide), List.filter_cons_of_pos marked]
          refine orderedInsert_behind (fun other member => ?_) fun other member => ?_
          · rw [marked, Bool.eq_false_of_not_eq_true' (List.mem_filter.mp member).2]
            decide
          · rw [marked, (List.mem_filter.mp member).2]

end QuicProxy
