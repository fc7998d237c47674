import Mathlib.Data.List.Infix

namespace QuicProxy

/-! Prefix codes: words of which none begins another one, and the cutting of a
stream of letters into them. -/

universe u v

structure PrefixCode (Symbol : Type u) (Letter : Type v) where
  word : Symbol → List Letter
  nonempty : ∀ symbol, word symbol ≠ []
  prefixFree : ∀ {first second}, word first <+: word second → first = second

namespace PrefixCode

variable {Symbol : Type u} {Letter : Type v} (code : PrefixCode Symbol Letter)

def words (symbols : List Symbol) : List Letter := symbols.flatMap code.word

def Stuck (letters : List Letter) : Prop := ∀ symbol, ¬code.word symbol <+: letters

variable {code} {symbols others : List Symbol} {letters left right : List Letter}

theorem eq_of_prefixes {first second : Symbol} (one : code.word first <+: letters)
    (other : code.word second <+: letters) : first = second := by
  rcases List.prefix_or_prefix_of_prefix one other with shorter | shorter
  · exact code.prefixFree shorter
  · exact (code.prefixFree shorter).symm

theorem exists_cut (code : PrefixCode Symbol Letter) (letters : List Letter) :
    ∃ symbols left, letters = code.words symbols ++ left ∧ code.Stuck left := by
  induction size : letters.length using Nat.strong_induction_on generalizing letters with
  | h length ih =>
      by_cases stuck : code.Stuck letters
      · exact ⟨[], letters, rfl, stuck⟩
      · obtain ⟨symbol, rest, rfl⟩ := not_forall_not.mp stuck
        have positive := List.length_pos_iff.mpr (code.nonempty symbol)
        obtain ⟨symbols, left, rfl, end_stuck⟩ := ih rest.length
          (by rw [← size, List.length_append]; omega) rest rfl
        exact ⟨symbol :: symbols, left, (List.append_assoc ..).symm, end_stuck⟩

theorem cut_unique (same : code.words symbols ++ left = code.words others ++ right)
    (left_stuck : code.Stuck left) (right_stuck : code.Stuck right) :
    symbols = others ∧ left = right := by
  induction symbols generalizing others with
  | nil =>
      cases others with
      | nil => exact ⟨rfl, same⟩
      | cons symbol others =>
          refine absurd ?_ (left_stuck symbol)
          exact ⟨code.words others ++ right, (List.append_assoc ..).symm.trans same.symm⟩
  | cons symbol symbols ih =>
      have begins : code.word symbol <+: code.words (symbol :: symbols) ++ left :=
        ⟨code.words symbols ++ left, (List.append_assoc ..).symm⟩
      cases others with
      | nil =>
          rw [same] at begins
          exact absurd begins (right_stuck symbol)
      | cons other others =>
          have other_begins : code.word other <+: code.words (other :: others) ++ right :=
            ⟨code.words others ++ right, (List.append_assoc ..).symm⟩
          rw [← same] at other_begins
          obtain rfl := eq_of_prefixes begins other_begins
          have rest : code.words symbols ++ left = code.words others ++ right := by
            refine (List.append_right_inj (code.word symbol)).mp ?_
            rw [← List.append_assoc, ← List.append_assoc]
            exact same
          obtain ⟨rfl, rfl⟩ := ih rest
          exact ⟨rfl, rfl⟩

end PrefixCode

/-! Words that branch letter by letter until each is alone. -/

def Apart {Letter : Type v} (first second : List Letter) : Prop :=
  ¬first <+: second ∧ ¬second <+: first

section Apart

variable {Letter : Type v} {letter other : Letter} {first second : List Letter}

theorem Apart.cons (apart : Apart first second) : Apart (letter :: first) (letter :: second) :=
  ⟨fun begins => apart.1 (List.cons_prefix_cons.mp begins).2,
    fun begins => apart.2 (List.cons_prefix_cons.mp begins).2⟩

theorem apart_of_ne (different : letter ≠ other) : Apart (letter :: first) (other :: second) :=
  ⟨fun begins => different (List.cons_prefix_cons.mp begins).1,
    fun begins => different (List.cons_prefix_cons.mp begins).1.symm⟩

end Apart

section Branches

variable {Letter : Type v} [DecidableEq Letter] (alphabet : List Letter)

/-- What follows the letter in the words that it begins. -/
def behind (letter : Letter) (words : List (List Letter)) : List (List Letter) :=
  words.filterMap fun word => if word.head? = some letter then some word.tail else none

/-- Within so many letters the words have been told apart, and every way to go on
leads to one of them. -/
def branches : Nat → List (List Letter) → Bool
  | 0, words => decide (words = [[]])
  | depth + 1, words =>
      decide (words = [[]]) ||
        (words.all fun word => word.head?.any fun letter => decide (letter ∈ alphabet)) &&
          alphabet.all fun letter => branches depth (behind letter words)

variable {alphabet} {depth : Nat} {words : List (List Letter)}

theorem branches_succ (branch : branches alphabet (depth + 1) words = true) :
    words = [[]] ∨ (∀ word ∈ words, ∃ letter ∈ alphabet, ∃ rest, word = letter :: rest) ∧
      ∀ letter ∈ alphabet, branches alphabet depth (behind letter words) = true := by
  rw [branches, Bool.or_eq_true, decide_eq_true_iff, Bool.and_eq_true, List.all_eq_true,
    List.all_eq_true] at branch
  refine branch.imp_right fun ⟨heads, onward⟩ => ⟨fun word member => ?_, onward⟩
  obtain ⟨letter, head, known⟩ := (Option.any_eq_true _ _).mp (heads word member)
  exact ⟨letter, of_decide_eq_true known, List.head?_eq_some_iff.mp head⟩

theorem mem_behind {letter : Letter} {rest : List Letter} :
    rest ∈ behind letter words ↔ letter :: rest ∈ words := by
  rw [behind, List.mem_filterMap]
  constructor
  · rintro ⟨word, member, same⟩
    split at same
    · next head =>
        obtain ⟨tail, rfl⟩ := List.head?_eq_some_iff.mp head
        cases same
        exact member
    · cases same
  · intro member
    exact ⟨letter :: rest, member, if_pos rfl⟩

theorem behind_cons {letter : Letter} {rest : List Letter} :
    behind letter ((letter :: rest) :: words) = rest :: behind letter words :=
  List.filterMap_cons_some (if_pos rfl)

theorem sublist_behind {letter : Letter} {first second : List Letter}
    (sublist : [letter :: first, letter :: second].Sublist words) :
    [first, second].Sublist (behind letter words) := by
  have within : (behind letter [letter :: first, letter :: second]).Sublist
      (behind letter words) := sublist.filterMap _
  rw [behind_cons, behind_cons] at within
  exact within

theorem pairwise_of_branches (branch : branches alphabet depth words = true) :
    words.Pairwise Apart := by
  induction depth generalizing words with
  | zero =>
      rw [of_decide_eq_true branch]
      exact List.pairwise_singleton Apart []
  | succ depth ih =>
      rcases branches_succ branch with rfl | ⟨heads, onward⟩
      · exact List.pairwise_singleton Apart []
      · refine List.pairwise_iff_forall_sublist.mpr fun {first second} sublist => ?_
        obtain ⟨letter, known, rest, rfl⟩ := heads first (sublist.subset (List.mem_cons_self ..))
        obtain ⟨other, -, rest', rfl⟩ := heads second
          (sublist.subset (List.mem_cons_of_mem _ (List.mem_cons_self ..)))
        by_cases same : letter = other
        · subst same
          exact (List.pairwise_iff_forall_sublist.mp (ih (onward letter known))
            (sublist_behind sublist)).cons
        · exact apart_of_ne same

theorem exists_word_of_branches (branch : branches alphabet depth words = true)
    {letters : List Letter} (known : ∀ letter ∈ letters, letter ∈ alphabet)
    (long : depth ≤ letters.length) : ∃ word ∈ words, word <+: letters := by
  induction depth generalizing words letters with
  | zero =>
      rw [of_decide_eq_true branch]
      exact ⟨[], List.mem_singleton_self [], List.nil_prefix⟩
  | succ depth ih =>
      rcases branches_succ branch with rfl | ⟨-, onward⟩
      · exact ⟨[], List.mem_singleton_self [], List.nil_prefix⟩
      · cases letters with
        | nil => exact absurd long (Nat.not_succ_le_zero depth)
        | cons letter letters =>
            obtain ⟨here, later⟩ := List.forall_mem_cons.mp known
            obtain ⟨word, member, begins⟩ := ih (onward letter here) later
              (Nat.le_of_succ_le_succ long)
            exact ⟨letter :: word, mem_behind.mp member,
              List.cons_prefix_cons.mpr ⟨rfl, begins⟩⟩

end Branches

end QuicProxy
