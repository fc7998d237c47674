import QuicProxy.Data.AsyncStream

namespace QuicProxy

/-! The bytes of a peer as they arrive: cut into pieces, with waits between them
and the end behind them. -/

/-- Pieces and waits only. -/
def IsCut (cut : List PollRead) : Prop := ∀ read ∈ cut, read.stops = false

/-- A cut whose end can be read so many times. -/
def ended (cut : List PollRead) (ends : Nat) : List PollRead :=
  cut ++ List.replicate ends (.ready [])

/-- Every wait comes where `allowed` holds of the bytes before it. -/
def WaitsAt (allowed : Bytes → Prop) : Bytes → List PollRead → Prop
  | _, [] => True
  | before, .pending :: reads => allowed before ∧ WaitsAt allowed before reads
  | before, .ready bytes :: reads => WaitsAt allowed (before ++ bytes) reads
  | before, .failed _ :: reads => WaitsAt allowed before reads

theorem waitsAt_of_forall {allowed : Bytes → Prop} {before : Bytes}
    (always : ∀ more, allowed (before ++ more)) (reads : List PollRead) :
    WaitsAt allowed before reads := by
  induction reads generalizing before with
  | nil => trivial
  | cons read reads ih =>
      cases read with
      | pending =>
          have here := always []
          rw [List.append_nil] at here
          exact ⟨here, ih always⟩
      | ready bytes =>
          refine ih fun more => ?_
          rw [List.append_assoc]
          exact always _
      | failed error => exact ih always

/-- The pieces at the front of a cut, taken off it. -/
structure Passes (cut : List PollRead) (more : Bytes) (rest : List PollRead) : Prop where
  isCut : IsCut rest
  contents : contents cut = more ++ QuicProxy.contents rest
  weight : weight rest + more.length ≤ QuicProxy.weight cut
  waits (allowed : Bytes → Prop) (before : Bytes) :
    WaitsAt allowed before cut ↔ WaitsAt allowed (before ++ more) rest

namespace Passes

theorem nothing {cut : List PollRead} (isCut : IsCut cut) : Passes cut [] cut :=
  ⟨isCut, rfl, Nat.le_refl _, fun allowed before => by rw [List.append_nil]⟩

theorem trans {cut between rest : List PollRead} {first second : Bytes}
    (one : Passes cut first between) (two : Passes between second rest) :
    Passes cut (first ++ second) rest where
  isCut := two.isCut
  contents := by rw [one.contents, two.contents, List.append_assoc]
  weight := by
    have := one.weight
    have := two.weight
    rw [List.length_append]
    omega
  waits allowed before := by
    rw [one.waits, two.waits, List.append_assoc]

variable {cut rest : List PollRead} {more : Bytes}

theorem isCut_rest (passes : Passes cut more (.pending :: rest)) : IsCut rest :=
  (List.forall_mem_cons.mp passes.isCut).2

theorem weight_rest (passes : Passes cut more (.pending :: rest)) :
    QuicProxy.weight rest < QuicProxy.weight cut := by
  have lighter := passes.weight
  change 1 + QuicProxy.weight rest + more.length ≤ QuicProxy.weight cut at lighter
  omega

end Passes

/-- One read of a cut with room for bytes. -/
inductive CutRead (cut : List PollRead) (ends : Nat) : PollRead × List PollRead → Prop
  | waits {rest : List PollRead} (same : cut = .pending :: rest) :
      CutRead cut ends (.pending, ended rest (ends + 1))
  | gives {more : Bytes} {rest : List PollRead} (some_bytes : more ≠ [])
      (passes : Passes cut more rest) : CutRead cut ends (.ready more, ended rest (ends + 1))
  | ends (same : cut = []) : CutRead cut ends (.ready [], ended [] ends)

theorem cutRead {room : Nat} (positive : 0 < room) {cut : List PollRead} (isCut : IsCut cut)
    (ends : Nat) : CutRead cut ends (pollRead room (ended cut (ends + 1))) := by
  cases cut with
  | nil => exact .ends rfl
  | cons read cut =>
      obtain ⟨here, later⟩ := List.forall_mem_cons.mp isCut
      cases read with
      | pending => exact .waits rfl
      | failed error => cases here
      | ready bytes =>
          have some_bytes : bytes ≠ [] := List.isEmpty_eq_false_iff.mp here
          rw [ended, List.cons_append, pollRead]
          split
          · refine .gives some_bytes ⟨later, rfl, ?_, fun allowed before => Iff.rfl⟩
            change weight cut + bytes.length ≤ bytes.length + 1 + weight cut
            omega
          · next long =>
              have taken : bytes.take room ≠ [] := by
                refine List.ne_nil_of_length_pos ?_
                rw [List.length_take]
                omega
              have left : bytes.drop room ≠ [] := by
                refine List.ne_nil_of_length_pos ?_
                rw [List.length_drop]
                omega
              have passes : Passes (.ready bytes :: cut) (bytes.take room)
                  (.ready (bytes.drop room) :: cut) := by
                refine ⟨?_, ?_, ?_, fun allowed before => ?_⟩
                · exact List.forall_mem_cons.mpr ⟨List.isEmpty_eq_false_iff.mpr left, later⟩
                · rw [contents_cons, contents_cons, PollRead.bytes, PollRead.bytes,
                    ← List.append_assoc, List.take_append_drop]
                · change (bytes.drop room).length + 1 + weight cut + (bytes.take room).length ≤
                    bytes.length + 1 + weight cut
                  rw [List.length_take, List.length_drop]
                  omega
                · rw [WaitsAt, WaitsAt, List.append_assoc, List.take_append_drop]
              exact .gives taken passes

/-- Reads that have given the front of `payload`, and its end where they report
one. -/
structure Delivers (payload : Bytes) (answers : List PollRead) : Prop where
  clean (error : String) : .failed error ∉ answers
  front : contents answers <+: payload
  whole (before after : List PollRead) (same : answers = before ++ .ready [] :: after) :
    contents before = payload

namespace Delivers

variable {payload : Bytes} {answers : List PollRead}

theorem nil (payload : Bytes) : Delivers payload [] where
  clean _ := List.not_mem_nil
  front := List.nil_prefix
  whole _ _ same := absurd same.symm (List.append_ne_nil_of_right_ne_nil _ (List.cons_ne_nil _ _))

theorem pending (rest : Delivers payload answers) : Delivers payload (.pending :: answers) where
  clean error member := (List.mem_cons.mp member).elim (by rintro ⟨⟩) (rest.clean error)
  front := rest.front
  whole before after same := by
    cases before with
    | nil => cases same
    | cons read before =>
        obtain ⟨rfl, later⟩ := List.cons.inj same
        exact rest.whole before after later

theorem ready {bytes : Bytes} (some_bytes : bytes ≠ []) (rest : Delivers payload answers) :
    Delivers (bytes ++ payload) (.ready bytes :: answers) where
  clean error member := (List.mem_cons.mp member).elim (by rintro ⟨⟩) (rest.clean error)
  front := (List.prefix_append_right_inj bytes).mpr rest.front
  whole before after same := by
    cases before with
    | nil =>
        obtain ⟨nothing, -⟩ := List.cons.inj same
        exact absurd (PollRead.ready.inj nothing) some_bytes
    | cons read before =>
        obtain ⟨rfl, later⟩ := List.cons.inj same
        exact congrArg (bytes ++ ·) (rest.whole before after later)

theorem end_of_stream (rest : Delivers [] answers) : Delivers [] (.ready [] :: answers) where
  clean error member := (List.mem_cons.mp member).elim (by rintro ⟨⟩) (rest.clean error)
  front := rest.front
  whole before after same := by
    cases before with
    | nil => rfl
    | cons read before =>
        obtain ⟨rfl, later⟩ := List.cons.inj same
        exact rest.whole before after later

end Delivers

end QuicProxy
