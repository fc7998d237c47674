import Mathlib.Algebra.BigOperators.Group.List.Basic
import Mathlib.Algebra.Order.BigOperators.Group.List
import Mathlib.Algebra.Order.Group.Nat
import Mathlib.Algebra.Ring.Nat

namespace QuicProxy

/-! Totals of what the items of a list count for, as items are added and
replaced. -/

section Total

universe u

variable {Item : Type u} {items : List Item} {index : Nat} {old new : Item}
  {measure : Item → Nat}

def total (measure : Item → Nat) (items : List Item) : Nat := (items.map measure).sum

@[simp] theorem total_nil : total measure [] = 0 := rfl

@[simp] theorem total_concat :
    total measure (items ++ [new]) = total measure items + measure new := by
  simp [total]

theorem le_total (measure : Item → Nat) (member : new ∈ items) :
    measure new ≤ total measure items :=
  List.single_le_sum (fun _ _ => Nat.zero_le _) _ (List.mem_map_of_mem member)

/-- What the old item counted for goes and what the new one counts for comes. -/
theorem total_set (measure : Item → Nat) (new : Item) (found : items[index]? = some old) :
    total measure (items.set index new) + measure old = total measure items + measure new := by
  obtain ⟨bound, rfl⟩ := List.getElem?_eq_some_iff.mp found
  have split : items = items.take index ++ items[index] :: items.drop (index + 1) := by
    rw [List.getElem_cons_drop, List.take_append_drop]
  rw [List.set_eq_take_append_cons_drop, if_pos bound]
  conv_rhs => rw [split]
  simp only [total, List.map_append, List.map_cons, List.sum_append, List.sum_cons]
  omega

theorem total_set_add {count : Nat} (found : items[index]? = some old)
    (grown : measure new = measure old + count) :
    total measure (items.set index new) = total measure items + count := by
  have := total_set measure new found
  omega

theorem total_set_same (found : items[index]? = some old) (same : measure new = measure old) :
    total measure (items.set index new) = total measure items :=
  total_set_add found (same.trans (Nat.add_zero _).symm)

end Total

end QuicProxy
