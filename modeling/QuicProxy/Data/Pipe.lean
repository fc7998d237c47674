import Mathlib.Tactic.Common

namespace QuicProxy

/-! A pipe of chunks: who is linked to it pushes chunks, and a reader takes as
many units at a time as it has room for and keeps the rest of a chunk. -/

structure Pipe (α : Type*) where
  /-- What is left of the chunk that the reader began. -/
  buffer : List α
  chunks : List (List α)
  linked : Bool

namespace Pipe

variable {α : Type*}

def contents (pipe : Pipe α) : List α := pipe.buffer ++ pipe.chunks.flatten

/-- A step shows the chunk that it pushes, and the room and the result of a
read. -/
inductive Step (pipe : Pipe α) : Option (List α) → Option (Nat × List α) → Pipe α → Prop
  | stay : Step pipe none none pipe
  | unlink : Step pipe none none { pipe with linked := false }
  | push (chunk : List α) (linked : pipe.linked = true) :
      Step pipe (some chunk) none { pipe with chunks := pipe.chunks ++ [chunk] }
  | serve (size : Nat) (left : pipe.buffer ≠ []) :
      Step pipe none (some (size, pipe.buffer.take size))
        { pipe with buffer := pipe.buffer.drop size }
  | begin (size : Nat) (chunk : List α) (rest : List (List α)) (served : pipe.buffer = [])
      (front : pipe.chunks = chunk :: rest) :
      Step pipe none (some (size, chunk.take size))
        { pipe with buffer := chunk.drop size, chunks := rest }
  | eof (size : Nat) (served : pipe.buffer = []) (nothing : pipe.chunks = [])
      (unlinked : pipe.linked = false) : Step pipe none (some (size, [])) pipe

theorem Step.of_push {pipe next : Pipe α} {chunk : List α} (buffer : next.buffer = pipe.buffer)
    (chunks : next.chunks = pipe.chunks ++ [chunk]) (linked : pipe.linked = true)
    (linked' : next.linked = true) : Step pipe (some chunk) none next := by
  obtain ⟨_, _, _⟩ := next
  cases buffer
  cases chunks
  cases linked'
  rw [← linked]
  exact .push chunk linked

/-- The end has been reached. -/
structure Spent (pipe : Pipe α) : Prop where
  linked : pipe.linked = false
  buffer : pipe.buffer = []
  chunks : pipe.chunks = []

/-- Nobody is linked any more, at most. -/
def Fades (pipe next : Pipe α) : Prop := next = pipe ∨ next = { pipe with linked := false }

variable {pipe next third : Pipe α} {pushed : Option (List α)} {read : Option (Nat × List α)}

theorem Spent.contents (spent : pipe.Spent) : pipe.contents = [] := by
  rw [Pipe.contents, spent.buffer, spent.chunks]
  rfl

theorem Step.conserves (step : pipe.Step pushed read next) :
    (read.map Prod.snd).getD [] ++ next.contents = pipe.contents ++ pushed.getD [] := by
  cases step with
  | stay => exact (List.append_nil _).symm
  | unlink => exact (List.append_nil _).symm
  | push chunk linked =>
      change pipe.buffer ++ (pipe.chunks ++ [chunk]).flatten = pipe.contents ++ chunk
      rw [List.flatten_append, List.flatten_singleton, ← List.append_assoc]
      rfl
  | serve size left =>
      change pipe.buffer.take size ++ (pipe.buffer.drop size ++ pipe.chunks.flatten) = _
      rw [← List.append_assoc, List.take_append_drop]
      exact (List.append_nil _).symm
  | begin size chunk rest served front =>
      change chunk.take size ++ (chunk.drop size ++ rest.flatten) = _
      rw [← List.append_assoc, List.take_append_drop, Pipe.contents, served, front]
      exact (List.append_nil _).symm
  | eof size served nothing unlinked => exact (List.append_nil _).symm

/-- A read with room that gives nothing has found the end, when no chunk is
empty. -/
theorem Step.spent (step : pipe.Step pushed read next) (full : [] ∉ pipe.chunks) {size : Nat}
    (nothing : read = some (size, [])) (room : 0 < size) : pipe.Spent ∧ next = pipe := by
  have taken {data : List α} (nonempty : data ≠ []) : data.take size ≠ [] := by
    rw [Ne, List.take_eq_nil_iff, not_or]
    exact ⟨Nat.ne_of_gt room, nonempty⟩
  cases step with
  | stay | unlink | push => cases nothing
  | serve other left =>
      injection nothing with same
      injection same with equal gave
      subst equal
      exact absurd gave (taken left)
  | begin other chunk rest served front =>
      injection nothing with same
      injection same with equal gave
      subst equal
      refine absurd gave (taken fun empty => full ?_)
      rw [front, empty]
      exact List.mem_cons_self ..
  | eof other served empty unlinked => exact ⟨⟨unlinked, served, empty⟩, rfl⟩

theorem Spent.step (spent : pipe.Spent) (step : pipe.Step pushed read next) :
    next.Spent ∧ pushed = none ∧ (read.map Prod.snd).getD [] = [] := by
  cases step with
  | stay => exact ⟨spent, rfl, rfl⟩
  | unlink => exact ⟨⟨rfl, spent.buffer, spent.chunks⟩, rfl, rfl⟩
  | push chunk linked =>
      rw [spent.linked] at linked
      cases linked
  | serve size left => exact absurd spent.buffer left
  | begin size chunk rest served front =>
      rw [spent.chunks] at front
      cases front
  | eof size served nothing unlinked => exact ⟨spent, rfl, rfl⟩

theorem Spent.eof (spent : pipe.Spent) (spent' : next.Spent) (size : Nat) :
    pipe.Step none (some (size, [])) next := by
  obtain ⟨_, _, _⟩ := pipe
  obtain ⟨_, _, _⟩ := next
  obtain ⟨rfl, rfl, rfl⟩ := spent
  obtain ⟨rfl, rfl, rfl⟩ := spent'
  exact .eof size rfl rfl rfl

theorem Step.full (step : pipe.Step pushed read next) (full : [] ∉ pipe.chunks)
    (nonempty : pushed ≠ some []) : [] ∉ next.chunks := by
  cases step with
  | stay | unlink | serve | eof => exact full
  | push chunk linked =>
      change [] ∉ pipe.chunks ++ [chunk]
      rw [List.mem_append, List.mem_singleton, not_or]
      exact ⟨full, fun empty => nonempty (congrArg some empty.symm)⟩
  | begin size chunk rest served front =>
      intro member
      rw [front] at full
      exact full (List.mem_cons_of_mem _ member)

theorem Step.linked (step : pipe.Step pushed read next) (linked : next.linked = true) :
    pipe.linked = true := by
  cases step with
  | unlink => cases linked
  | stay | push | serve | begin | eof => exact linked

theorem Fades.refl (pipe : Pipe α) : pipe.Fades pipe := Or.inl rfl

theorem Fades.trans (first : pipe.Fades next) (second : next.Fades third) : pipe.Fades third := by
  rcases first with rfl | rfl
  · exact second
  · rcases second with rfl | rfl
    · exact Or.inr rfl
    · exact Or.inr rfl

theorem Fades.step (fades : pipe.Fades next) : pipe.Step none none next := by
  rcases fades with rfl | rfl
  · exact .stay
  · exact .unlink

theorem fades_of_linked (buffer : next.buffer = pipe.buffer) (chunks : next.chunks = pipe.chunks)
    (linked : next.linked = true → pipe.linked = true) : pipe.Fades next := by
  obtain ⟨_, _, linked'⟩ := next
  cases buffer
  cases chunks
  cases linked' with
  | false => exact Or.inr rfl
  | true => exact Or.inl (congrArg (Pipe.mk _ _) (linked rfl).symm)

end Pipe

end QuicProxy
