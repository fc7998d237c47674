import Mathlib.Logic.Function.Basic

namespace QuicProxy

/-! Names that are given addresses, and a second table that leads back from an
address to its name.  The two tables are written one after the other, and
`read` is what a reader makes of the name that it finds. -/

structure Directory (Name Addr : Type) where
  forward : Name → Option Addr
  ptr : Addr → Option Name

namespace Directory

variable {Name Addr : Type} {read : Name → Option Name} {directory : Directory Name Addr}
  {name : Name} {addr : Addr} {stored : Bool}

/-- Every address leads back to the name that has it. -/
def Inverse (read : Name → Option Name) (directory : Directory Name Addr) : Prop :=
  ∀ name addr, directory.forward name = some addr → (directory.ptr addr).bind read = some name

/-- No address leads back to a name that does not have it. -/
def Linked (directory : Directory Name Addr) : Prop :=
  ∀ name addr, directory.ptr addr = some name → directory.forward name = some addr

theorem Inverse.injective (inverse : directory.Inverse read) {other : Name}
    (first : directory.forward name = some addr) (second : directory.forward other = some addr) :
    name = other :=
  Option.some.inj ((inverse name addr first).symm.trans (inverse other addr second))

variable [DecidableEq Name] [DecidableEq Addr]

/-- The name is given the address; `stored` tells whether the way back is
written too. -/
def record (directory : Directory Name Addr) (name : Name) (addr : Addr) (stored : Bool) :
    Directory Name Addr where
  forward := Function.update directory.forward name (some addr)
  ptr := if stored then Function.update directory.ptr addr (some name) else directory.ptr

@[simp] theorem forward_record_self :
    (directory.record name addr stored).forward name = some addr :=
  Function.update_self ..

theorem forward_record_of_ne {other : Name} (differs : other ≠ name) :
    (directory.record name addr stored).forward other = directory.forward other :=
  Function.update_of_ne differs ..

theorem forward_record_of_some {other : Name} {old : Addr}
    (fresh : directory.forward name = none) (found : directory.forward other = some old) :
    (directory.record name addr stored).forward other = some old := by
  rw [forward_record_of_ne ?_]
  · exact found
  · intro equal
    subst equal
    rw [fresh] at found
    cases found

theorem ptr_record_self :
    (directory.record name addr true).ptr addr = some name :=
  Function.update_self ..

theorem ptr_record_of_ne {other : Addr} (differs : other ≠ addr) :
    (directory.record name addr stored).ptr other = directory.ptr other := by
  cases stored with
  | false => rfl
  | true => exact Function.update_of_ne differs ..

theorem Linked.record (linked : directory.Linked) (fresh : directory.forward name = none) :
    (directory.record name addr stored).Linked := by
  intro other old leads
  cases stored with
  | false => exact forward_record_of_some fresh (linked other old leads)
  | true =>
      by_cases same : old = addr
      · subst same
        rw [ptr_record_self] at leads
        cases leads
        exact forward_record_self
      · rw [ptr_record_of_ne same] at leads
        exact forward_record_of_some fresh (linked other old leads)

theorem Inverse.record (inverse : directory.Inverse read) (reads : read name = some name)
    (unused : ∀ other, directory.forward other ≠ some addr) :
    (directory.record name addr true).Inverse read := by
  intro other old found
  by_cases same : other = name
  · subst same
    rw [forward_record_self] at found
    cases found
    rw [ptr_record_self]
    exact reads
  · rw [forward_record_of_ne same] at found
    have differs : old ≠ addr := by
      intro equal
      subst equal
      exact unused other found
    rw [ptr_record_of_ne differs]
    exact inverse other old found

/-- What keeps a directory invertible: the name is read as it is written, the
way back is written too, and the address belongs to no other name. -/
theorem inverse_record_iff (fixed : ∀ first second, read first = some second →
      read second = some second)
    (linked : directory.Linked) (fresh : directory.forward name = none) :
    (directory.record name addr stored).Inverse read ↔
      directory.Inverse read ∧ read name = some name ∧ stored = true ∧
        ∀ other, directory.forward other ≠ some addr := by
  constructor
  · intro inverse
    have back := inverse name addr forward_record_self
    have unused : ∀ other, directory.forward other ≠ some addr := by
      intro other found
      have same := inverse.injective forward_record_self (forward_record_of_some fresh found)
      rw [← same, fresh] at found
      cases found
    obtain ⟨written, leads, reads⟩ := Option.bind_eq_some_iff.mp back
    have both : stored = true := by
      cases stored with
      | true => rfl
      | false =>
          -- A way back that was there before belongs to a name that has the address.
          exact absurd (linked written addr leads) (unused written)
    refine ⟨?_, fixed written name reads, both, unused⟩
    intro other old found
    have differs : old ≠ addr := by
      intro equal
      subst equal
      exact unused other found
    rw [← ptr_record_of_ne differs]
    exact inverse other old (forward_record_of_some fresh found)
  · rintro ⟨inverse, reads, rfl, unused⟩
    exact inverse.record reads unused

end Directory

end QuicProxy
