import QuicProxy.Data.AsyncStream

namespace QuicProxy

/-! A stream with bytes that are read before its own (`PrefixedReadStream` in
`src/utils/mod.rs`). -/

structure PrefixedReadStream where
  stream : List PollRead
  prefixBytes : Bytes

namespace PrefixedReadStream

def pollRead (room : Nat) (stream : PrefixedReadStream) : PollRead × PrefixedReadStream :=
  if stream.prefixBytes.isEmpty then
    match QuicProxy.pollRead room stream.stream with
    | (read, rest) => (read, { stream with stream := rest })
  else
    (.ready (stream.prefixBytes.take room),
      { stream with prefixBytes := stream.prefixBytes.drop room })

/-- Reads into buffers with room for so many bytes, one after the other. -/
def polls : List Nat → PrefixedReadStream → List PollRead × PrefixedReadStream
  | [], stream => ([], stream)
  | room :: rooms, stream =>
      match stream.pollRead room with
      | (read, stream) =>
          match polls rooms stream with
          | (reads, stream) => (read :: reads, stream)

/-- What the stream gives is `bytes`, whatever the sizes of the reads: nothing
else, all of it after enough reads, and no end or error before. -/
structure Delivers (stream : PrefixedReadStream) (bytes : Bytes) : Prop where
  only : ∀ rooms, contents (stream.polls rooms).1 <+: bytes
  whole : ∃ count, ∀ rooms : List Nat, count ≤ rooms.length → (∀ room ∈ rooms, 0 < room) →
    contents (stream.polls rooms).1 = bytes
  steady : ∀ rooms room, 0 < room → ((stream.polls rooms).2.pollRead room).1.stops = true →
    contents (stream.polls rooms).1 = bytes

def remaining (stream : PrefixedReadStream) : Bytes :=
  stream.prefixBytes ++ contents stream.stream

def size (stream : PrefixedReadStream) : Nat := stream.prefixBytes.length + weight stream.stream

variable {stream : PrefixedReadStream} {room : Nat}

theorem remaining_pollRead (room : Nat) (stream : PrefixedReadStream) :
    (stream.pollRead room).1.bytes ++ (stream.pollRead room).2.remaining = stream.remaining := by
  unfold pollRead
  split
  · next empty =>
      have none := List.isEmpty_iff.mp empty
      simp only [remaining, none, List.nil_append]
      exact contents_pollRead room stream.stream
  · simp only [remaining, PollRead.bytes, ← List.append_assoc, List.take_append_drop]

theorem unbroken_pollRead (unbroken : Unbroken stream.stream) :
    Unbroken (stream.pollRead room).2.stream := by
  unfold pollRead
  split
  · exact unbroken.pollRead room
  · exact unbroken

theorem size_pollRead (positive : 0 < room) :
    (stream.pollRead room).2.size ≤ stream.size - 1 := by
  unfold pollRead
  split
  · next empty =>
      by_cases more : stream.stream = []
      · simp only [size, more, List.isEmpty_iff.mp empty]
        exact Nat.le_refl _
      · have := weight_pollRead_lt positive more
        simp only [size]
        omega
  · next full =>
      have : 0 < stream.prefixBytes.length :=
        List.length_pos_iff.mpr fun empty => full (List.isEmpty_iff.mpr empty)
      simp only [size, List.length_drop]
      omega

theorem remaining_of_stops (unbroken : Unbroken stream.stream) (positive : 0 < room)
    (stops : (stream.pollRead room).1.stops = true) : stream.remaining = [] := by
  unfold pollRead at stops
  split at stops
  · next empty =>
      rw [remaining, List.isEmpty_iff.mp empty, List.nil_append]
      exact unbroken.contents_eq_nil positive stops
  · next full =>
      refine absurd (List.isEmpty_iff.mp stops) fun none => full (List.isEmpty_iff.mpr ?_)
      rcases List.take_eq_nil_iff.mp none with zero | empty
      · omega
      · exact empty

theorem remaining_polls (rooms : List Nat) (stream : PrefixedReadStream) :
    contents (stream.polls rooms).1 ++ (stream.polls rooms).2.remaining = stream.remaining := by
  induction rooms generalizing stream with
  | nil => rfl
  | cons room rooms ih =>
      rw [← remaining_pollRead room stream, ← ih (stream.pollRead room).2]
      exact List.append_assoc ..

theorem unbroken_polls (unbroken : Unbroken stream.stream) (rooms : List Nat) :
    Unbroken (stream.polls rooms).2.stream := by
  induction rooms generalizing stream with
  | nil => exact unbroken
  | cons room rooms ih => exact ih (unbroken_pollRead unbroken)

theorem size_polls {rooms : List Nat} (positive : ∀ room ∈ rooms, 0 < room) :
    (stream.polls rooms).2.size ≤ stream.size - rooms.length := by
  induction rooms generalizing stream with
  | nil => exact Nat.le_refl _
  | cons room rooms ih =>
      obtain ⟨here, later⟩ := List.forall_mem_cons.mp positive
      have first : (stream.pollRead room).2.size ≤ stream.size - 1 := size_pollRead here
      change ((stream.pollRead room).2.polls rooms).2.size ≤ stream.size - (rooms.length + 1)
      have rest : ((stream.pollRead room).2.polls rooms).2.size ≤
          (stream.pollRead room).2.size - rooms.length := ih later
      omega

theorem remaining_of_size (none : stream.size = 0) : stream.remaining = [] := by
  obtain ⟨reads, bytes⟩ := stream
  match reads, bytes with
  | [], [] => rfl
  | read :: reads, bytes =>
      have : 0 < weight (read :: reads) := by
        cases read with
        | pending | failed error | ready bytes =>
            simp only [weight, List.map_cons, List.sum_cons]
            omega
      simp only [size] at none
      omega
  | [], byte :: bytes => cases none

theorem delivers_remaining (unbroken : Unbroken stream.stream) :
    stream.Delivers stream.remaining where
  only rooms := ⟨_, remaining_polls rooms stream⟩
  whole := by
    refine ⟨stream.size, fun rooms enough positive => ?_⟩
    have used : (stream.polls rooms).2.size = 0 := by
      have : (stream.polls rooms).2.size ≤ stream.size - rooms.length := size_polls positive
      omega
    rw [← remaining_polls rooms stream, remaining_of_size used, List.append_nil]
  steady rooms room positive stops := by
    have nothing := remaining_of_stops (unbroken_polls unbroken rooms) positive stops
    rw [← remaining_polls rooms stream, nothing, List.append_nil]

theorem Delivers.unique {first second : Bytes} (delivers : stream.Delivers first)
    (other : stream.Delivers second) : first = second := by
  obtain ⟨count, all⟩ := delivers.whole
  obtain ⟨many, every⟩ := other.whole
  have positive : ∀ room ∈ List.replicate (count + many) 1, 0 < room := fun room member =>
    (List.eq_of_mem_replicate member).symm ▸ Nat.one_pos
  rw [← all (.replicate (count + many) 1) (by rw [List.length_replicate]; omega) positive,
    every (.replicate (count + many) 1) (by rw [List.length_replicate]; omega) positive]

end PrefixedReadStream

end QuicProxy
