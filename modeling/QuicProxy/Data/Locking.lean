import Mathlib.Tactic.Common

namespace QuicProxy

/-! Calls that take locks: a call is the list of operations it still has to do,
with the locks it holds.  Returning drops all of them. -/

namespace Locking

universe u

variable {Lock : Type u}

inductive Op (Lock : Type u) where
  | acquire (lock : Lock)
  | release (lock : Lock)
  /-- Wait for the next message of the peer. -/
  | await
  /-- What no lock can stop. -/
  | work

structure Call (Lock : Type u) where
  held : List Lock
  rest : List (Op Lock)

namespace Call

def start (ops : List (Op Lock)) : Call Lock := ⟨[], ops⟩

/-- The next operation of a call while others hold the locks in `taken`; `none`
is a call that has returned or is blocked. -/
def advance [DecidableEq Lock] (taken : List Lock) (call : Call Lock) : Option (Call Lock) :=
  match call.rest with
  | [] => none
  | .acquire lock :: rest =>
      if lock ∈ taken ∨ lock ∈ call.held then none else some ⟨lock :: call.held, rest⟩
  | .release lock :: rest => some ⟨call.held.erase lock, rest⟩
  | .await :: rest => some ⟨call.held, rest⟩
  | .work :: rest => some ⟨call.held, rest⟩

def Waiting (call : Call Lock) : Prop := ∃ rest, call.rest = .await :: rest

end Call

def acquires (ops : List (Op Lock)) : List Lock :=
  ops.filterMap fun
    | .acquire lock => some lock
    | _ => none

/-- The locks that are held at some `await`. -/
def awaitLocks [DecidableEq Lock] : List Lock → List (Op Lock) → List Lock
  | _, [] => []
  | held, .acquire lock :: rest => awaitLocks (lock :: held) rest
  | held, .release lock :: rest => awaitLocks (held.erase lock) rest
  | held, .await :: rest => held ++ awaitLocks held rest
  | held, .work :: rest => awaitLocks held rest

def NoReentry [DecidableEq Lock] : List Lock → List (Op Lock) → Prop
  | _, [] => True
  | held, .acquire lock :: rest => lock ∉ held ∧ NoReentry (lock :: held) rest
  | held, .release lock :: rest => NoReentry (held.erase lock) rest
  | held, .await :: rest => NoReentry held rest
  | held, .work :: rest => NoReentry held rest

instance decidableNoReentry [DecidableEq Lock] :
    (held : List Lock) → (ops : List (Op Lock)) → Decidable (NoReentry held ops)
  | _, [] => inferInstanceAs (Decidable True)
  | held, .acquire lock :: rest =>
      have := decidableNoReentry (lock :: held) rest
      inferInstanceAs (Decidable (lock ∉ held ∧ NoReentry (lock :: held) rest))
  | held, .release lock :: rest => decidableNoReentry (held.erase lock) rest
  | held, .await :: rest => decidableNoReentry held rest
  | held, .work :: rest => decidableNoReentry held rest

theorem awaitLocks_subset [DecidableEq Lock] (held : List Lock) (ops : List (Op Lock)) :
    awaitLocks held ops ⊆ held ++ acquires ops := by
  induction ops generalizing held with
  | nil => simp [awaitLocks]
  | cons op ops ih =>
      intro lock member
      cases op with
      | acquire taken =>
          have := ih _ member
          simp only [acquires, List.cons_append, List.mem_cons, List.mem_append,
            List.filterMap_cons] at this ⊢
          tauto
      | release freed =>
          have := ih _ member
          simp only [acquires, List.mem_append, List.filterMap_cons] at this ⊢
          exact this.imp_left List.mem_of_mem_erase
      | await =>
          rcases List.mem_append.mp member with now | later
          · exact List.mem_append_left _ now
          · exact ih _ later
      | work => exact ih _ member

variable [DecidableEq Lock]

theorem Call.advance_cases {taken : List Lock} {call next : Call Lock}
    (advanced : call.advance taken = some next) :
    awaitLocks next.held next.rest ⊆ awaitLocks call.held call.rest ∧
      acquires next.rest ⊆ acquires call.rest ∧
        (NoReentry call.held call.rest → NoReentry next.held next.rest) := by
  obtain ⟨held, rest⟩ := call
  cases rest with
  | nil => cases advanced
  | cons op rest =>
      cases op with
      | acquire lock =>
          simp only [advance] at advanced
          split at advanced
          · cases advanced
          · cases advanced
            exact ⟨List.Subset.refl _, List.subset_cons_self .., And.right⟩
      | release lock =>
          cases advanced
          exact ⟨List.Subset.refl _, List.Subset.refl _, id⟩
      | await =>
          cases advanced
          exact ⟨List.subset_append_right .., List.Subset.refl _, id⟩
      | work =>
          cases advanced
          exact ⟨List.Subset.refl _, List.Subset.refl _, id⟩

theorem Call.Waiting.held_subset {call : Call Lock} (waiting : call.Waiting) :
    call.held ⊆ awaitLocks call.held call.rest := by
  obtain ⟨rest, shape⟩ := waiting
  rw [shape]
  exact List.subset_append_left ..

theorem Call.advance_of_free {taken : List Lock} {call : Call Lock} (active : call.rest ≠ [])
    (free : ∀ lock ∈ taken, lock ∉ acquires call.rest)
    (once : NoReentry call.held call.rest) : ∃ next, call.advance taken = some next := by
  obtain ⟨held, rest⟩ := call
  cases rest with
  | nil => exact absurd rfl active
  | cons op rest =>
      cases op with
      | acquire lock =>
          have notTaken : lock ∉ taken := fun member =>
            free lock member (List.mem_cons_self ..)
          exact ⟨_, if_neg (not_or.mpr ⟨notTaken, once.1⟩)⟩
      | release lock => exact ⟨_, rfl⟩
      | await => exact ⟨_, rfl⟩
      | work => exact ⟨_, rfl⟩

end Locking

end QuicProxy
