import Mathlib.Algebra.Ring.Nat
import Mathlib.Tactic.Ring
import QuicProxy.Data.Bytes

namespace QuicProxy

/-! Numbers in groups of seven bits, the lowest group first.  The high bit of a byte
says that another group follows. -/

namespace Base128

def value : Bytes → Nat
  | [] => 0
  | byte :: bytes => byte.toNat % 128 + 128 * value bytes

def Continues (bytes : Bytes) : Prop := ∀ byte ∈ bytes, 128 ≤ byte.toNat

theorem continues_nil : Continues [] := fun _ member => absurd member List.not_mem_nil

/-- The number at the front of the bytes and how many bytes it takes. -/
def number : Bytes → Option (Nat × Nat)
  | [] => none
  | byte :: bytes =>
      if byte.toNat < 128 then some (byte.toNat, 1)
      else (number bytes).map fun rest => (byte.toNat % 128 + 128 * rest.1, rest.2 + 1)

theorem value_lt (bytes : Bytes) : value bytes < 128 ^ bytes.length := by
  induction bytes with
  | nil => exact Nat.one_pos
  | cons byte bytes ih =>
      rw [value, List.length_cons, Nat.pow_succ]
      omega

theorem value_lt_of_length_le {bytes : Bytes} {count : Nat} (few : bytes.length ≤ count) :
    value bytes < 128 ^ count :=
  Nat.lt_of_lt_of_le (value_lt bytes) (Nat.pow_le_pow_right (by decide) few)

theorem ended_lt {front : Bytes} {last : UInt8} {count : Nat} (ends : last.toNat < 128)
    (few : front.length < count) : value front + last.toNat * 128 ^ front.length < 128 ^ count := by
  have below := value_lt front
  have bound : last.toNat * 128 ^ front.length ≤ 127 * 128 ^ front.length :=
    Nat.mul_le_mul_right _ (Nat.le_of_lt_succ ends)
  have room : 128 ^ (front.length + 1) ≤ 128 ^ count := Nat.pow_le_pow_right (by decide) few
  rw [Nat.pow_succ] at room
  omega

theorem number_of_front {front : Bytes} (continues : Continues front) {last : UInt8}
    (ends : last.toNat < 128) (more : Bytes) : number (front ++ last :: more) =
      some (value front + last.toNat * 128 ^ front.length, front.length + 1) := by
  induction front with
  | nil =>
      rw [List.nil_append, number, if_pos ends, value, List.length_nil, Nat.pow_zero,
        Nat.mul_one, Nat.zero_add]
  | cons byte front ih =>
      obtain ⟨here, later⟩ := List.forall_mem_cons.mp continues
      rw [List.cons_append, number, if_neg (Nat.not_lt_of_le here), ih later, Option.map_some,
        value, List.length_cons, Nat.pow_succ]
      congr 2
      ring

theorem number_of_continues {bytes : Bytes} (continues : Continues bytes) :
    number bytes = none := by
  induction bytes with
  | nil => rfl
  | cons byte bytes ih =>
      obtain ⟨goes, later⟩ := List.forall_mem_cons.mp continues
      rw [number, if_neg (Nat.not_lt_of_le goes), ih later]
      rfl

theorem number_le {bytes : Bytes} {result count : Nat} (whole : number bytes = some (result, count)) :
    count ≤ bytes.length := by
  induction bytes generalizing result count with
  | nil => cases whole
  | cons byte bytes ih =>
      rw [number] at whole
      split at whole
      · cases whole
        exact Nat.succ_le_succ (Nat.zero_le _)
      · obtain ⟨rest, behind, same⟩ := Option.map_eq_some_iff.mp whole
        cases same
        exact Nat.succ_le_succ (ih behind)

theorem length_lt_of_number {front more : Bytes} (continues : Continues front)
    {result count : Nat} (whole : number (front ++ more) = some (result, count)) :
    front.length < count := by
  induction front generalizing result count with
  | nil =>
      cases more with
      | nil => cases whole
      | cons byte more =>
          rw [List.nil_append, number] at whole
          split at whole
          · cases whole
            exact Nat.one_pos
          · obtain ⟨rest, -, same⟩ := Option.map_eq_some_iff.mp whole
            cases same
            exact Nat.succ_pos _
  | cons byte front ih =>
      obtain ⟨goes, later⟩ := List.forall_mem_cons.mp continues
      rw [List.cons_append, number, if_neg (Nat.not_lt_of_le goes)] at whole
      obtain ⟨rest, behind, same⟩ := Option.map_eq_some_iff.mp whole
      cases same
      exact Nat.succ_lt_succ (ih later behind)

/-- Where the number ends, as far as so many groups go. -/
inductive Shape (count : Nat) (bytes : Bytes) : Prop
  | ends {front : Bytes} {last : UInt8} {more : Bytes} (same : bytes = front ++ last :: more)
      (continues : Continues front) (ends : last.toNat < 128) (few : front.length < count)
  | short (continues : Continues bytes) (few : bytes.length ≤ count)
  | longer {front : Bytes} {next : UInt8} {more : Bytes} (same : bytes = front ++ next :: more)
      (continues : Continues front) (length : front.length = count)

theorem shape (count : Nat) (bytes : Bytes) : Shape count bytes := by
  induction count generalizing bytes with
  | zero =>
      cases bytes with
      | nil => exact .short continues_nil (Nat.le_refl _)
      | cons next more => exact .longer (List.nil_append _).symm continues_nil rfl
  | succ count ih =>
      cases bytes with
      | nil => exact .short continues_nil (Nat.zero_le _)
      | cons byte bytes =>
          rcases Nat.lt_or_ge byte.toNat 128 with ends | goes
          · exact .ends (List.nil_append _).symm continues_nil ends (Nat.succ_pos _)
          · cases ih bytes with
            | @ends front last more same continues ends few =>
                subst same
                exact .ends (List.cons_append ..).symm (List.forall_mem_cons.mpr ⟨goes, continues⟩)
                  ends (Nat.succ_lt_succ few)
            | short continues few =>
                exact .short (List.forall_mem_cons.mpr ⟨goes, continues⟩) (Nat.succ_le_succ few)
            | @longer front next more same continues length =>
                subst same
                exact .longer (List.cons_append ..).symm
                  (List.forall_mem_cons.mpr ⟨goes, continues⟩) (congrArg (· + 1) length)

theorem ends_within {front other more behind : Bytes} {last next : UInt8}
    (same : front ++ last :: more = other ++ next :: behind) (ends : last.toNat < 128)
    (continues : Continues other) : other.length ≤ front.length := by
  by_contra longer
  have here : (front ++ last :: more)[front.length]? =
      (other ++ next :: behind)[front.length]? := by rw [same]
  rw [List.getElem?_append_right (Nat.le_refl _), Nat.sub_self,
    List.getElem?_append_left (Nat.lt_of_not_le longer)] at here
  have goes := continues last (List.mem_of_getElem? here.symm)
  omega

end Base128

end QuicProxy
