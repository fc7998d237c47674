import Mathlib.Algebra.Ring.Nat
import Mathlib.Data.List.Basic
import Mathlib.Data.List.Induction
import Mathlib.Tactic.Common

namespace QuicProxy

/-! Byte strings and the big-endian words every wire format of the proxy is
built from. -/

abbrev Bytes := List UInt8

theorem exists_append_of_length_le {first second left right : Bytes}
    (same : first ++ second = left ++ right) (long : left.length ≤ first.length) :
    ∃ middle, first = left ++ middle ∧ middle ++ second = right := by
  rcases List.append_eq_append_iff.mp same with ⟨middle, rfl, rfl⟩ | ⟨middle, rfl, rfl⟩
  · have empty : middle = [] := by
      rw [List.length_append] at long
      exact List.length_eq_zero_iff.mp (by omega)
    subst empty
    exact ⟨[], by simp, rfl⟩
  · exact ⟨middle, rfl, rfl⟩

theorem take_of_append_eq {first second left right : Bytes}
    (same : first ++ second = left ++ right) (short : first.length ≤ left.length) :
    left.take first.length = first := by
  have front := congrArg (List.take first.length) same
  rwa [List.take_left, List.take_append_of_le_length short, eq_comm] at front

def u16ToBe (word : UInt16) : Bytes :=
  [UInt8.ofNat (word.toNat / 256), UInt8.ofNat (word.toNat % 256)]

def u16FromBe (high low : UInt8) : UInt16 :=
  UInt16.ofNat (high.toNat * 256 + low.toNat)

def u32ToBe (word : UInt32) : Bytes :=
  u16ToBe (UInt16.ofNat (word.toNat / 65536)) ++
    u16ToBe (UInt16.ofNat (word.toNat % 65536))

def u32FromBe (first second third fourth : UInt8) : UInt32 :=
  UInt32.ofNat
    ((u16FromBe first second).toNat * 65536 + (u16FromBe third fourth).toNat)

def u64ToBe (word : UInt64) : Bytes :=
  u32ToBe (UInt32.ofNat (word.toNat / 4294967296)) ++
    u32ToBe (UInt32.ofNat (word.toNat % 4294967296))

def u64FromBe : Bytes → Option UInt64
  | [a, b, c, d, e, f, g, h] =>
      some (UInt64.ofNat ((u32FromBe a b c d).toNat * 4294967296 + (u32FromBe e f g h).toNat))
  | _ => none

def castU8 (n : Nat) : UInt8 := UInt8.ofNat n

def castU16 (n : Nat) : UInt16 := UInt16.ofNat n

@[simp] theorem length_u16ToBe (word : UInt16) : (u16ToBe word).length = 2 := rfl

@[simp] theorem length_u32ToBe (word : UInt32) : (u32ToBe word).length = 4 := rfl

@[simp] theorem length_u64ToBe (word : UInt64) : (u64ToBe word).length = 8 := rfl

@[simp] theorem toNat_castU8 (n : Nat) : (castU8 n).toNat = n % 256 := by
  simp [castU8]

@[simp] theorem toNat_castU16 (n : Nat) : (castU16 n).toNat = n % 65536 := by
  simp [castU16]

theorem u16FromBe_u16ToBe (word : UInt16) :
    u16FromBe (UInt8.ofNat (word.toNat / 256)) (UInt8.ofNat (word.toNat % 256)) =
      word := by
  have bound := word.toNat_lt
  apply UInt16.toNat_inj.mp
  simp only [u16FromBe, UInt16.toNat_ofNat', UInt8.toNat_ofNat']
  omega

theorem u16ToBe_u16FromBe (high low : UInt8) :
    u16ToBe (u16FromBe high low) = [high, low] := by
  have highBound := high.toNat_lt
  have lowBound := low.toNat_lt
  have value : (u16FromBe high low).toNat = high.toNat * 256 + low.toNat := by
    simp only [u16FromBe, UInt16.toNat_ofNat']
    omega
  simp only [u16ToBe, value]
  congr 1
  · apply UInt8.toNat_inj.mp
    simp only [UInt8.toNat_ofNat']
    omega
  · congr 1
    apply UInt8.toNat_inj.mp
    simp only [UInt8.toNat_ofNat']
    omega

theorem u32ToBe_u32FromBe (first second third fourth : UInt8) :
    u32ToBe (u32FromBe first second third fourth) = [first, second, third, fourth] := by
  have highBound := (u16FromBe first second).toNat_lt
  have lowBound := (u16FromBe third fourth).toNat_lt
  have value : (u32FromBe first second third fourth).toNat =
      (u16FromBe first second).toNat * 65536 + (u16FromBe third fourth).toNat := by
    simp only [u32FromBe, UInt32.toNat_ofNat']
    omega
  have high : UInt16.ofNat ((u32FromBe first second third fourth).toNat / 65536) =
      u16FromBe first second := by
    apply UInt16.toNat_inj.mp
    rw [value, UInt16.toNat_ofNat']
    omega
  have low : UInt16.ofNat ((u32FromBe first second third fourth).toNat % 65536) =
      u16FromBe third fourth := by
    apply UInt16.toNat_inj.mp
    rw [value, UInt16.toNat_ofNat']
    omega
  rw [u32ToBe, high, low, u16ToBe_u16FromBe, u16ToBe_u16FromBe]
  rfl

theorem u16ToBe_eq (word : UInt16) :
    ∃ high low, u16ToBe word = [high, low] ∧ u16FromBe high low = word :=
  ⟨_, _, rfl, u16FromBe_u16ToBe word⟩

theorem u32ToBe_eq (word : UInt32) :
    ∃ first second third fourth,
      u32ToBe word = [first, second, third, fourth] ∧
        u32FromBe first second third fourth = word := by
  refine ⟨_, _, _, _, rfl, ?_⟩
  have bound := word.toNat_lt
  simp only [u32FromBe, u16FromBe_u16ToBe]
  apply UInt32.toNat_inj.mp
  simp only [UInt32.toNat_ofNat', UInt16.toNat_ofNat']
  omega

theorem u64FromBe_u64ToBe (word : UInt64) : u64FromBe (u64ToBe word) = some word := by
  obtain ⟨a, b, c, d, high, highValue⟩ := u32ToBe_eq (UInt32.ofNat (word.toNat / 4294967296))
  obtain ⟨e, f, g, h, low, lowValue⟩ := u32ToBe_eq (UInt32.ofNat (word.toNat % 4294967296))
  have bound := word.toNat_lt
  rw [u64ToBe, high, low]
  refine congrArg some (UInt64.toNat_inj.mp ?_)
  rw [highValue, lowValue]
  simp only [UInt64.toNat_ofNat', UInt32.toNat_ofNat']
  omega

/-! Numbers of any length, the highest byte first. -/

def natOfBytes (bytes : Bytes) : Nat :=
  bytes.foldl (fun value byte => value * 256 + byte.toNat) 0

theorem natOfBytes_append_singleton (bytes : Bytes) (byte : UInt8) :
    natOfBytes (bytes ++ [byte]) = natOfBytes bytes * 256 + byte.toNat := by
  simp only [natOfBytes, List.foldl_append, List.foldl_cons, List.foldl_nil]

theorem natOfBytes_lt (bytes : Bytes) : natOfBytes bytes < 256 ^ bytes.length := by
  induction bytes using List.reverseRecOn with
  | nil => exact Nat.one_pos
  | append_singleton bytes byte ih =>
      rw [natOfBytes_append_singleton, List.length_append, List.length_singleton, Nat.pow_succ]
      have small := byte.toNat_lt
      omega

end QuicProxy
