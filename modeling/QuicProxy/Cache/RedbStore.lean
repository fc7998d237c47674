import QuicProxy.Data.Pool

namespace QuicProxy

/-! The dirty flag of a cache database (`src/cache/redb_store.rs`): any number of
cache writes and flushes, one operation a step. -/

/-- A redb database: what a transaction does to its state, what is found in it, and what
is found after a crash. -/
structure Redb (Db Change : Type) where
  /-- `begin_write`, which waits while another write transaction is open. -/
  beginWrite : Db → Option Db
  /-- A transaction that is dropped or that fails to commit. -/
  abort : Db → Db
  /-- `commit` with `Durability::None`. -/
  commitNone : Db → Change → Db
  /-- A durable commit without changes. -/
  commitDurable : Db → Db
  committed : Db → List Change
  crashed : Db → List Change

/-- Only commits change what is found, and a durable commit persists all commits before
it. -/
structure Redb.Documented {Db Change : Type} (redb : Redb Db Change) : Prop where
  beginWrite : ∀ {db begun}, redb.beginWrite db = some begun →
    redb.committed begun = redb.committed db ∧ redb.crashed begun = redb.crashed db
  abort : ∀ db, redb.committed (redb.abort db) = redb.committed db ∧
    redb.crashed (redb.abort db) = redb.crashed db
  commitNone : ∀ db change,
    redb.committed (redb.commitNone db change) = redb.committed db ++ [change]
  commitDurable : ∀ db, redb.committed (redb.commitDurable db) = redb.committed db ∧
    redb.crashed (redb.commitDurable db) = redb.committed db

structure SharedDb (Db : Type) where
  db : Db
  dirty : Bool
deriving DecidableEq

inductive DbRequest (Change : Type) where
  | write (change : Change)
  /-- `flush`, by the flusher, at a shutdown or in `drop`. -/
  | flush

inductive DbCall (Change : Type) where
  /-- Before `begin_write` of `begin_cache_write`. -/
  | beginning (change : Change)
  /-- The operations on the tables, which end in an error or at the commit. -/
  | changing (change : Change)
  | committing (change : Change)
  /-- Before the store of the flag. -/
  | marking (change : Change)
  | written (change : Change)
  | writeFailed
  | swapping
  | flushBeginning
  | flushCommitting
  /-- Before the store that restores the flag. -/
  | restoring
  | flushed (ok : Bool)
deriving DecidableEq

namespace DbCall

variable {Db Change : Type}

def start : DbRequest Change → DbCall Change
  | .write change => beginning change
  | .flush => swapping

/-- The choice says whether the operation on the database succeeds. -/
def act (redb : Redb Db Change) (shared : SharedDb Db) :
    DbCall Change → Bool → Option (SharedDb Db × DbCall Change)
  | beginning _, false => some (shared, writeFailed)
  | beginning change, true =>
      (redb.beginWrite shared.db).map fun db => ({ shared with db }, changing change)
  | changing _, false => some ({ shared with db := redb.abort shared.db }, writeFailed)
  | changing change, true => some (shared, committing change)
  | committing _, false => some ({ shared with db := redb.abort shared.db }, writeFailed)
  | committing change, true =>
      some ({ shared with db := redb.commitNone shared.db change }, marking change)
  | marking change, _ => some ({ shared with dirty := true }, written change)
  | swapping, _ =>
      if shared.dirty then some ({ shared with dirty := false }, flushBeginning)
      else some (shared, flushed true)
  | flushBeginning, false => some (shared, restoring)
  | flushBeginning, true =>
      (redb.beginWrite shared.db).map fun db => ({ shared with db }, flushCommitting)
  | flushCommitting, false => some ({ shared with db := redb.abort shared.db }, restoring)
  | flushCommitting, true =>
      some ({ shared with db := redb.commitDurable shared.db }, flushed true)
  | restoring, _ => some ({ shared with dirty := true }, flushed false)
  | written _, _ | writeFailed, _ | flushed _, _ => none

def Returned : DbCall Change → Prop
  | written _ | writeFailed | flushed _ => True
  | _ => False

instance : (call : DbCall Change) → Decidable call.Returned
  | written _ | writeFailed | flushed _ => isTrue trivial
  | beginning _ | changing _ | committing _ | marking _ | swapping | flushBeginning
  | flushCommitting | restoring => isFalse id

/-- A call that will make the pending commits durable or set the flag. -/
def Owes : DbCall Change → Prop
  | marking _ | flushBeginning | flushCommitting | restoring => True
  | _ => False

def Committed (call : DbCall Change) (change : Change) : Prop :=
  call = marking change ∨ call = written change

/-- The change whose commit the call has seen succeed. -/
def reports : DbCall Change → Option Change
  | marking change | written change => some change
  | _ => none

theorem committed_iff {call : DbCall Change} {change : Change} :
    call.Committed change ↔ call.reports = some change := by
  cases call <;> simp [Committed, reports]

theorem Owes.not_returned {call : DbCall Change} (owes : call.Owes) : ¬call.Returned := by
  cases call with
  | marking | flushBeginning | flushCommitting | restoring => exact id
  | beginning | changing | committing | written | writeFailed | swapping | flushed =>
      exact owes.elim

end DbCall

abbrev DbConfig (Db Change : Type) := Pool.Config (SharedDb Db) (DbCall Change)

namespace SharedDb

variable {Db Change : Type}

def program (redb : Redb Db Change) :
    Pool.Program (SharedDb Db) (DbCall Change) (DbRequest Change) Bool where
  start := DbCall.start
  act config := DbCall.act redb config.shared

def opened (db : Db) : DbConfig Db Change := ⟨⟨db, false⟩, []⟩

def Idle (config : DbConfig Db Change) : Prop := ∀ call ∈ config.calls, call.Returned

variable (redb : Redb Db Change)

/-- Every commit is covered by a durable one, and so are the writes that have
returned with success: a crash loses nothing. -/
structure Covered (config : DbConfig Db Change) : Prop where
  commits : redb.crashed config.shared.db = redb.committed config.shared.db
  writes : ∀ change, .written change ∈ config.calls → change ∈ redb.crashed config.shared.db

def FlagTrue (config : DbConfig Db Change) : Prop :=
  Idle config → config.shared.dirty = false → Covered redb config

/-- Commits that a crash would lose are marked, or there is a call that answers for
them. -/
structure Sound (config : DbConfig Db Change) : Prop where
  marked : redb.crashed config.shared.db ≠ redb.committed config.shared.db →
    config.shared.dirty = true ∨ ∃ call ∈ config.calls, call.Owes
  kept : ∀ call ∈ config.calls, ∀ change, call.Committed change →
    change ∈ redb.committed config.shared.db

variable {redb}

theorem sound_opened {stored : Db} (durable : redb.crashed stored = redb.committed stored) :
    Sound redb (opened stored) where
  marked := fun pending => absurd durable pending
  kept := nofun

theorem Sound.flagTrue {config : DbConfig Db Change} (sound : Sound redb config) :
    FlagTrue redb config := by
  intro idle clean
  have commits : redb.crashed config.shared.db = redb.committed config.shared.db := by
    by_contra pending
    rcases sound.marked pending with dirty | ⟨call, member, owes⟩
    · exact absurd (dirty.symm.trans clean) nofun
    · exact owes.not_returned (idle call member)
  refine ⟨commits, fun change returned => ?_⟩
  rw [commits]
  exact sound.kept _ returned change (Or.inr rfl)

/-- What an operation of a call does to what is found in the database, to what a crash
leaves of it, and to the flag. -/
inductive Acts (redb : Redb Db Change) (shared after : SharedDb Db) :
    DbCall Change → DbCall Change → Prop
  | commits (change : Change)
      (grown : redb.committed after.db = redb.committed shared.db ++ [change]) :
      Acts redb shared after (.committing change) (.marking change)
  | marks {call moved : DbCall Change} (found : redb.committed after.db = redb.committed shared.db)
      (dirty : after.dirty = true)
      (reports : ∀ change, moved.reports = some change → call.reports = some change) :
      Acts redb shared after call moved
  | owes {call moved : DbCall Change} (found : redb.committed after.db = redb.committed shared.db)
      (owes : moved.Owes) (silent : moved.reports = none) : Acts redb shared after call moved
  | persists {call moved : DbCall Change}
      (found : redb.committed after.db = redb.committed shared.db)
      (covered : redb.crashed after.db = redb.committed after.db) (silent : moved.reports = none) :
      Acts redb shared after call moved
  | quiet {call moved : DbCall Change} (found : redb.committed after.db = redb.committed shared.db)
      (left : redb.crashed after.db = redb.crashed shared.db) (flag : after.dirty = shared.dirty)
      (calm : ¬call.Owes) (silent : moved.reports = none) : Acts redb shared after call moved

theorem acts (documented : redb.Documented) {shared after : SharedDb Db}
    {call moved : DbCall Change} {ok : Bool}
    (acted : call.act redb shared ok = some (after, moved)) : Acts redb shared after call moved := by
  cases call with
  | beginning change =>
      cases ok with
      | false =>
          cases acted
          exact .quiet rfl rfl rfl id rfl
      | true =>
          obtain ⟨db, begun, same⟩ := Option.map_eq_some_iff.mp acted
          cases same
          obtain ⟨committed, crashed⟩ := documented.beginWrite begun
          exact .quiet committed crashed rfl id rfl
  | changing change =>
      cases ok with
      | false =>
          cases acted
          obtain ⟨committed, crashed⟩ := documented.abort shared.db
          exact .quiet committed crashed rfl id rfl
      | true =>
          cases acted
          exact .quiet rfl rfl rfl id rfl
  | committing change =>
      cases ok with
      | false =>
          cases acted
          obtain ⟨committed, crashed⟩ := documented.abort shared.db
          exact .quiet committed crashed rfl id rfl
      | true =>
          cases acted
          exact .commits change (documented.commitNone shared.db change)
  | marking change =>
      cases acted
      exact .marks rfl rfl fun _ => id
  | swapping =>
      simp only [DbCall.act] at acted
      split at acted
      · cases acted
        exact .owes rfl trivial rfl
      · cases acted
        exact .quiet rfl rfl rfl id rfl
  | flushBeginning =>
      cases ok with
      | false =>
          cases acted
          exact .owes rfl trivial rfl
      | true =>
          obtain ⟨db, begun, same⟩ := Option.map_eq_some_iff.mp acted
          cases same
          exact .owes (documented.beginWrite begun).1 trivial rfl
  | flushCommitting =>
      cases ok with
      | false =>
          cases acted
          exact .owes (documented.abort shared.db).1 trivial rfl
      | true =>
          cases acted
          obtain ⟨committed, crashed⟩ := documented.commitDurable shared.db
          exact .persists committed (crashed.trans committed.symm) rfl
  | restoring =>
      cases acted
      exact .marks rfl rfl nofun
  | written | writeFailed | flushed => cases acted

variable {shared after : SharedDb Db} {call moved : DbCall Change}

/-- What a crash loses is answered for afterwards, or nothing about it changes. -/
theorem Acts.answered (acts : Acts redb shared after call moved) :
    (moved.Owes ∨ after.dirty = true ∨ redb.crashed after.db = redb.committed after.db) ∨
      (¬call.Owes ∧ (redb.crashed after.db = redb.committed after.db ↔
        redb.crashed shared.db = redb.committed shared.db) ∧ after.dirty = shared.dirty) := by
  cases acts with
  | commits change grown => exact Or.inl (Or.inl trivial)
  | marks found dirty reports => exact Or.inl (Or.inr (Or.inl dirty))
  | owes found owes silent => exact Or.inl (Or.inl owes)
  | persists found covered silent => exact Or.inl (Or.inr (Or.inr covered))
  | quiet found left flag calm silent => exact Or.inr ⟨calm, by rw [found, left], flag⟩

theorem Acts.subset (acts : Acts redb shared after call moved) :
    redb.committed shared.db ⊆ redb.committed after.db := by
  cases acts with
  | commits change grown => exact grown ▸ List.subset_append_left _ _
  | marks found | owes found | persists found | quiet found =>
      exact found ▸ List.Subset.refl _

theorem Acts.reported (acts : Acts redb shared after call moved) {change : Change}
    (reported : moved.Committed change) :
    call.Committed change ∨ change ∈ redb.committed after.db := by
  rw [DbCall.committed_iff] at reported ⊢
  cases acts with
  | commits change grown =>
      cases reported
      exact Or.inr (grown ▸ List.mem_concat_self)
  | marks found dirty reports => exact Or.inl (reports change reported)
  | owes found owes silent | persists found covered silent | quiet found left flag calm silent =>
      cases silent.symm.trans reported

variable {config next : DbConfig Db Change} {event : Pool.Event (DbRequest Change) Bool}

theorem Sound.step (documented : redb.Documented) (sound : Sound redb config)
    (taken : (program redb).step config event = some next) : Sound redb next := by
  rcases Pool.Program.step_cases taken with
    ⟨request, rfl, rfl⟩ | ⟨before, call, after, ok, shared, moved, rfl, shape, acted, rfl⟩
  · refine ⟨fun pending => ?_, Pool.forall_start sound.kept ?_⟩
    · refine (sound.marked pending).imp_right ?_
      rintro ⟨call, member, owes⟩
      exact ⟨call, List.mem_append_left _ member, owes⟩
    · cases request with
      | write change | flush => rintro _ (same | same) <;> cases same
  · have marked := sound.marked
    have kept := sound.kept
    rw [shape] at marked kept
    have acts := acts documented acted
    refine ⟨fun pending => ?_, Pool.forall_act kept ?_ fun _ same change committed =>
      acts.subset (same change committed)⟩
    · rcases acts.answered with (owes | dirty | covered) | ⟨calm, same, flag⟩
      · exact Or.inr ⟨moved, by simp, owes⟩
      · exact Or.inl dirty
      · exact absurd covered pending
      · refine (marked (mt same.mpr pending)).imp flag.trans fun found => ?_
        exact (Pool.exists_act found).resolve_left calm
    · intro own change committed
      rcases acts.reported committed with earlier | now
      · exact acts.subset (own change earlier)
      · exact now

/-- In every interleaving of cache writes and flushes, whatever fails. -/
theorem flag_true (documented : redb.Documented) (stored : Db)
    (durable : redb.crashed stored = redb.committed stored)
    (events : List (Pool.Event (DbRequest Change) Bool)) :
    Machine.Throughout (program redb).step (FlagTrue redb) (opened stored) events := by
  have sound : Machine.Throughout (program redb).step (Sound redb) (opened stored) events :=
    Machine.throughout_of_invariant (Sound redb) (fun here taken => here.step documented taken)
      (sound_opened durable)
  exact Machine.throughout_mono Sound.flagTrue sound

/-- The commits that a crash leaves, those after them, and whether a write transaction is
open. -/
def exampleRedb : Redb (List Nat × List Nat × Bool) Nat where
  beginWrite
    | (durable, pending, writing) => if writing then none else some (durable, pending, true)
  abort | (durable, pending, _) => (durable, pending, false)
  commitNone | (durable, pending, _), change => (durable, pending ++ [change], false)
  commitDurable | (durable, pending, _) => (durable ++ pending, [], false)
  committed | (durable, pending, _) => durable ++ pending
  crashed | (durable, _, _) => durable

theorem exampleRedb_documented : exampleRedb.Documented where
  beginWrite := by
    rintro ⟨durable, pending, writing⟩ begun taken
    cases writing with
    | true => cases taken
    | false =>
        cases taken
        exact ⟨rfl, rfl⟩
  abort := fun _ => ⟨rfl, rfl⟩
  commitNone := fun _ _ => (List.append_assoc ..).symm
  commitDurable := fun _ => ⟨List.append_nil _, rfl⟩

/-- A flush fails while another write commits, which leaves the flag set; the next one
succeeds. -/
def failedFlush : List (Pool.Event (DbRequest Nat) Bool) :=
  [.start (.write 1), .advance 0 true, .advance 0 true, .advance 0 true, .advance 0 true,
    .start .flush, .advance 1 true, .start (.write 2), .advance 2 true, .advance 2 true,
    .advance 1 false, .advance 2 true, .advance 1 true, .advance 2 true, .start .flush,
    .advance 3 true, .advance 3 true, .advance 3 true]

theorem flag_true_failedFlush :
    ∃ final, Machine.run (program exampleRedb).step (opened ([], [], false)) failedFlush =
        some final ∧ final.shared.dirty = false ∧ Covered exampleRedb final := by
  have flag := flag_true exampleRedb_documented ([], [], false) rfl failedFlush
  have ran : ∃ final, Machine.run (program exampleRedb).step (opened ([], [], false)) failedFlush =
      some final ∧ final.shared.dirty = false ∧ ∀ call ∈ final.calls, call.Returned :=
    ⟨_, rfl, rfl, by decide⟩
  obtain ⟨final, ran, clean, idle⟩ := ran
  exact ⟨final, ran, clean, flag.final ran idle clean⟩

end SharedDb

end QuicProxy
