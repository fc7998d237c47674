import Mathlib.Logic.Function.Basic
import QuicProxy.Data.Pool
import QuicProxy.Proxy.TargetAddr

namespace QuicProxy

/-! The UDP contexts of a ShadowQUIC connection (`src/proxy/shadowquic_udp.rs`):
`udp_recv_map` and the `binded_context_id` of each receiver, with any number of
`bind_context_id`, `clean` and unistream workers, one map operation a step. -/

/-- Receivers are numbered. -/
structure UdpRegistry where
  udpRecvMap : UInt16 → Option Nat
  bindedContextId : Nat → List (UInt16 × TargetAddr)
  closed : Nat → Bool

namespace UdpRegistry

def bound (registry : UdpRegistry) (receiver : Nat) : List UInt16 :=
  (registry.bindedContextId receiver).map Prod.fst

def removeBinded (registry : UdpRegistry) (receiver : Nat) (id : UInt16) : UdpRegistry :=
  { registry with
    bindedContextId := Function.update registry.bindedContextId receiver
      ((registry.bindedContextId receiver).filter (·.1 ≠ id)) }

def insertBinded (registry : UdpRegistry) (receiver : Nat) (id : UInt16) (target : TargetAddr) :
    UdpRegistry :=
  { registry with
    bindedContextId := Function.update registry.bindedContextId receiver
      ((id, target) :: (registry.bindedContextId receiver).filter (·.1 ≠ id)) }

def publish (registry : UdpRegistry) (receiver : Nat) (id : UInt16) : UdpRegistry :=
  { registry with udpRecvMap := Function.update registry.udpRecvMap id (some receiver) }

/-- `remove_if` with `Arc::ptr_eq`. -/
def unmap (registry : UdpRegistry) (receiver : Nat) (id : UInt16) : UdpRegistry :=
  if registry.udpRecvMap id = some receiver then
    { registry with udpRecvMap := Function.update registry.udpRecvMap id none }
  else registry

def close (registry : UdpRegistry) (receiver : Nat) : UdpRegistry :=
  { registry with closed := Function.update registry.closed receiver true }

variable {registry : UdpRegistry} {receiver other : Nat} {id key : UInt16} {target : TargetAddr}

theorem mem_bound_removeBinded : key ∈ (registry.removeBinded receiver id).bound other ↔
    key ∈ registry.bound other ∧ ¬(other = receiver ∧ key = id) := by
  unfold bound removeBinded
  by_cases here : other = receiver
  · subst here
    simp [and_comm]
  · simp [here]

theorem mem_bound_insertBinded : key ∈ (registry.insertBinded receiver id target).bound other ↔
    key ∈ registry.bound other ∨ (other = receiver ∧ key = id) := by
  unfold bound insertBinded
  by_cases here : other = receiver
  · subst here
    by_cases same : key = id
    · simp [same]
    · simp [same]
  · simp [here]

theorem publish_apply : (registry.publish receiver id).udpRecvMap key =
    if key = id then some receiver else registry.udpRecvMap key :=
  Function.update_apply ..

theorem unmap_eq_some_iff : (registry.unmap receiver id).udpRecvMap key = some other ↔
    registry.udpRecvMap key = some other ∧ ¬(other = receiver ∧ key = id) := by
  unfold unmap
  split
  · next own =>
      change Function.update registry.udpRecvMap id none key = some other ↔ _
      rw [Function.update_apply]
      by_cases same : key = id
      · subst same
        simp [own, eq_comm]
      · simp [same]
  · next foreign =>
      refine (and_iff_left_of_imp fun owns => ?_).symm
      rintro ⟨rfl, rfl⟩
      exact foreign owns

@[simp] theorem bound_unmap : (registry.unmap receiver id).bound = registry.bound := by
  unfold unmap
  split <;> rfl

end UdpRegistry

inductive UdpRequest where
  | bind (receiver : Nat) (target : TargetAddr) (id : UInt16)
  | clean (receiver : Nat)
  /-- A unistream worker after its loop. -/
  | exit (receiver : Nat) (id : UInt16)

/-- A call, by the place it has reached.  `clean` and the exit of a worker take
ids out of both maps in the same way; a worker then closes a receiver that has
none left. -/
inductive UdpCall where
  | binding (receiver : Nat) (target : TargetAddr) (id : UInt16)
  /-- With the guard of the vacant entry. -/
  | inserting (receiver : Nat) (target : TargetAddr) (id : UInt16)
  | publishing (receiver : Nat) (id : UInt16)
  | bound
  | alreadyBound
  | collecting (receiver : Nat)
  | removing (receiver : Nat) (ids : List UInt16) (worker : Bool)
  | unmapping (receiver : Nat) (id : UInt16) (ids : List UInt16) (worker : Bool)
  | cleaned
deriving DecidableEq

namespace UdpCall

def start : UdpRequest → UdpCall
  | .bind receiver target id => binding receiver target id
  | .clean receiver => collecting receiver
  | .exit receiver id => removing receiver [id] true

def guarded : UdpCall → Option UInt16
  | inserting _ _ id | publishing _ id => some id
  | _ => none

def Returned : UdpCall → Prop
  | bound | alreadyBound | cleaned => True
  | _ => False

/-- The id is out of the receiver's own map, and `remove_if` is next. -/
def Unmaps (receiver : Nat) (id : UInt16) : UdpCall → Prop
  | unmapping other key _ _ => other = receiver ∧ key = id
  | _ => False

theorem Unmaps.not_returned {call : UdpCall} {receiver : Nat} {id : UInt16}
    (unmaps : call.Unmaps receiver id) : ¬call.Returned := by
  cases call with
  | unmapping => exact not_false
  | binding | inserting | publishing | bound | alreadyBound | collecting | removing | cleaned =>
      exact unmaps.elim

/-- The call is not about to take out an id that its receiver has bound again
since the call took it out of the receiver's own map. -/
def NotRebound (registry : UdpRegistry) : UdpCall → Prop
  | unmapping receiver id _ _ =>
      registry.udpRecvMap id = some receiver → id ∉ registry.bound receiver
  | _ => True

instance (registry : UdpRegistry) : (call : UdpCall) → Decidable (call.NotRebound registry)
  | unmapping _ _ _ _ => inferInstanceAs (Decidable (_ → _))
  | binding _ _ _ | inserting _ _ _ | publishing _ _ | bound | alreadyBound | collecting _
  | removing _ _ _ | cleaned => inferInstanceAs (Decidable True)

instance : (call : UdpCall) → Decidable call.Returned
  | bound | alreadyBound | cleaned => inferInstanceAs (Decidable True)
  | binding _ _ _ | inserting _ _ _ | publishing _ _ | collecting _ | removing _ _ _
  | unmapping _ _ _ _ => inferInstanceAs (Decidable False)

end UdpCall

abbrev UdpConfig := Pool.Config UdpRegistry UdpCall

abbrev UdpEvent := Pool.Event UdpRequest Unit

namespace UdpRegistry

/-- An operation on an entry waits while another call has its guard. -/
def Locked (config : UdpConfig) (id : UInt16) : Prop :=
  ∃ call ∈ config.calls, call.guarded = some id

instance (config : UdpConfig) (id : UInt16) : Decidable (Locked config id) :=
  inferInstanceAs (Decidable (∃ call ∈ config.calls, call.guarded = some id))

def act (config : UdpConfig) : UdpCall → Unit → Option (UdpRegistry × UdpCall)
  | .binding receiver target id, _ =>
      if Locked config id then none
      else
        match config.shared.udpRecvMap id with
        | none => some (config.shared, .inserting receiver target id)
        | some _ => some (config.shared, .alreadyBound)
  | .inserting receiver target id, _ =>
      some (config.shared.insertBinded receiver id target, .publishing receiver id)
  | .publishing receiver id, _ => some (config.shared.publish receiver id, .bound)
  | .collecting receiver, _ =>
      some (config.shared, .removing receiver (config.shared.bound receiver) false)
  | .removing receiver (id :: ids) worker, _ =>
      some (config.shared.removeBinded receiver id, .unmapping receiver id ids worker)
  | .removing receiver [] worker, _ =>
      some (if worker && (config.shared.bound receiver).isEmpty then config.shared.close receiver
        else config.shared, .cleaned)
  | .unmapping receiver id ids worker, _ =>
      if Locked config id then none
      else some (config.shared.unmap receiver id, .removing receiver ids worker)
  | .bound, _ | .alreadyBound, _ | .cleaned, _ => none

def program : Pool.Program UdpRegistry UdpCall UdpRequest Unit where
  start := UdpCall.start
  act := act

def new : UdpConfig := ⟨⟨fun _ => none, fun _ => [], fun _ => false⟩, []⟩

def Idle (config : UdpConfig) : Prop := ∀ call ∈ config.calls, call.Returned

instance (config : UdpConfig) : Decidable (Idle config) :=
  inferInstanceAs (Decidable (∀ call ∈ config.calls, call.Returned))

/-- The map sends an id to a receiver exactly if the receiver has it. -/
def Agrees (registry : UdpRegistry) : Prop :=
  ∀ receiver id, registry.udpRecvMap id = some receiver ↔ id ∈ registry.bound receiver

def Consistent (config : UdpConfig) : Prop := Idle config → Agrees config.shared

def NotRebound (config : UdpConfig) : UdpEvent → Prop
  | .start _ => True
  | .advance index _ => ∀ call ∈ config.calls[index]?, call.NotRebound config.shared

instance (config : UdpConfig) : (event : UdpEvent) → Decidable (NotRebound config event)
  | .start _ => inferInstanceAs (Decidable True)
  | .advance _ _ => inferInstanceAs (Decidable (∀ call ∈ _, _))

/-- What bindings and cleanups leave alone. -/
structure Respects (config next : UdpConfig) (event : UdpEvent) : Prop where
  occupied : ∀ index receiver target id, event = .advance index () →
    config.calls[index]? = some (.binding receiver target id) →
      config.shared.udpRecvMap id ≠ none →
        next = ⟨config.shared, config.calls.set index .alreadyBound⟩
  owned : ∀ id owner, config.shared.udpRecvMap id = some owner →
    next.shared.udpRecvMap id = some owner ∨ ∃ index, event = .advance index () ∧
      ∃ call ∈ config.calls[index]?, call.Unmaps owner id

/-- Entries under a guard are vacant, and each is guarded once. -/
structure Guarded (config : UdpConfig) : Prop where
  distinct : Pool.Distinct UdpCall.guarded config.calls
  vacant : ∀ call ∈ config.calls, ∀ id ∈ call.guarded, config.shared.udpRecvMap id = none

/-- Where the two maps differ, a call is on its way to make them agree. -/
structure Sound (config : UdpConfig) : Prop where
  guarded : Guarded config
  listed : ∀ receiver id, id ∈ config.shared.bound receiver →
    config.shared.udpRecvMap id = some receiver ∨ .publishing receiver id ∈ config.calls
  mapped : ∀ receiver id, config.shared.udpRecvMap id = some receiver →
    id ∈ config.shared.bound receiver ∨ ∃ call ∈ config.calls, call.Unmaps receiver id
  inserted : ∀ receiver id, .publishing receiver id ∈ config.calls →
    id ∈ config.shared.bound receiver ∨ ∃ call ∈ config.calls, call.Unmaps receiver id

theorem guarded_new : Guarded new := ⟨List.nodup_nil, nofun⟩

theorem sound_new : Sound new := ⟨guarded_new, nofun, nofun, nofun⟩

variable {config next : UdpConfig} {event : UdpEvent}

theorem Sound.consistent (sound : Sound config) : Consistent config := by
  intro idle receiver id
  refine ⟨fun mapped => ?_, fun listed => ?_⟩
  · refine (sound.mapped receiver id mapped).resolve_right ?_
    rintro ⟨call, member, unmaps⟩
    exact unmaps.not_returned (idle call member)
  · exact (sound.listed receiver id listed).resolve_right fun member => idle _ member

theorem guarded_start (request : UdpRequest) : (UdpCall.start request).guarded = none := by
  cases request <;> rfl

theorem Guarded.start (guarded : Guarded config) (request : UdpRequest) :
    Guarded ⟨config.shared, config.calls ++ [.start request]⟩ where
  distinct := guarded.distinct.start (guarded_start request)
  vacant := Pool.forall_start guarded.vacant fun id owns => by
    rw [guarded_start] at owns
    cases owns

theorem Sound.start (sound : Sound config) (request : UdpRequest) :
    Sound ⟨config.shared, config.calls ++ [.start request]⟩ := by
  have unmaps {receiver : Nat} {id : UInt16}
      (found : ∃ call ∈ config.calls, call.Unmaps receiver id) :
      ∃ call ∈ config.calls ++ [.start request], call.Unmaps receiver id := by
    obtain ⟨call, member, here⟩ := found
    exact ⟨call, List.mem_append_left _ member, here⟩
  refine ⟨sound.guarded.start request, ?_, ?_, ?_⟩
  · exact fun receiver id listed => (sound.listed receiver id listed).imp_right
      (List.mem_append_left _)
  · exact fun receiver id mapped => (sound.mapped receiver id mapped).imp_right unmaps
  · intro receiver id found
    rcases List.mem_append.mp found with earlier | last
    · exact (sound.inserted receiver id earlier).imp_right unmaps
    · have same := List.mem_singleton.mp last
      cases request <;> cases same

section Act

variable {before after : List UdpCall} {call moved : UdpCall} {registry : UdpRegistry}

theorem Guarded.move (guarded : Guarded config) (shape : config.calls = before ++ call :: after)
    (fewer : ∀ id, config.shared.udpRecvMap id = none → registry.udpRecvMap id = none)
    (free : moved.guarded = none) : Guarded ⟨registry, before ++ moved :: after⟩ := by
  obtain ⟨distinct, vacant⟩ := guarded
  rw [shape] at distinct vacant
  refine ⟨distinct.change fun id owns => ?_, Pool.forall_moved (fun id owns => ?_) ?_⟩
  · cases free.symm.trans owns
  · cases free.symm.trans owns
  · intro other member id owns
    exact fewer id (vacant other (Pool.mem_of_mem_others member) id owns)

theorem Guarded.publish (guarded : Guarded config) {receiver : Nat} {id : UInt16}
    (shape : config.calls = before ++ .publishing receiver id :: after) :
    Guarded ⟨config.shared.publish receiver id, before ++ .bound :: after⟩ := by
  obtain ⟨distinct, vacant⟩ := guarded
  rw [shape] at distinct vacant
  refine ⟨distinct.change nofun, Pool.forall_moved nofun fun other member key owns => ?_⟩
  have elsewhere : key ≠ id := by
    rintro rfl
    exact distinct.other rfl member owns
  rw [publish_apply, if_neg elsewhere]
  exact vacant other (Pool.mem_of_mem_others member) key owns

theorem Guarded.act (guarded : Guarded config) (shape : config.calls = before ++ call :: after)
    (acted : UdpRegistry.act config call () = some (registry, moved)) :
    Guarded ⟨registry, before ++ moved :: after⟩ := by
  cases call with
  | binding receiver target id =>
      simp only [UdpRegistry.act] at acted
      split at acted
      · cases acted
      · next free =>
          split at acted
          · next none =>
              cases acted
              obtain ⟨distinct, vacant⟩ := guarded
              have alone {other : UdpCall} (member : other ∈ before ++ after) :
                  other.guarded ≠ some id := fun same =>
                free ⟨other, shape ▸ Pool.mem_of_mem_others member, same⟩
              rw [shape] at distinct vacant
              refine ⟨distinct.change ?_, Pool.forall_moved ?_ ?_⟩
              · rintro _ ⟨⟩ other member
                exact alone member
              · rintro _ ⟨⟩
                exact none
              · exact fun other member => vacant other (Pool.mem_of_mem_others member)
          · cases acted
            exact guarded.move shape (fun _ none => none) rfl
  | inserting receiver target id =>
      cases acted
      obtain ⟨distinct, vacant⟩ := guarded
      rw [shape] at distinct vacant
      refine ⟨distinct.act rfl, Pool.forall_moved ?_ ?_⟩
      · exact vacant (.inserting receiver target id)
          (List.mem_append_right _ (List.mem_cons_self ..))
      · exact fun other member => vacant other (Pool.mem_of_mem_others member)
  | publishing receiver id =>
      cases acted
      exact guarded.publish shape
  | collecting receiver =>
      cases acted
      exact guarded.move shape (fun _ none => none) rfl
  | removing receiver ids worker =>
      cases ids with
      | nil =>
          cases acted
          refine guarded.move shape (fun id none => ?_) rfl
          split <;> exact none
      | cons id ids =>
          cases acted
          exact guarded.move shape (fun _ none => none) rfl
  | unmapping receiver id ids worker =>
      simp only [UdpRegistry.act] at acted
      split at acted
      · cases acted
      · cases acted
        refine guarded.move shape (fun key none => ?_) rfl
        refine Option.eq_none_iff_forall_ne_some.mpr fun owner owns => ?_
        cases none.symm.trans (unmap_eq_some_iff.mp owns).1
  | bound | alreadyBound | cleaned => cases acted

/-- A call that moves without changing either map, from a place where no other
call counts on it. -/
theorem Sound.move (sound : Sound config) (shape : config.calls = before ++ call :: after)
    (sameMap : registry.udpRecvMap = config.shared.udpRecvMap)
    (sameBound : registry.bound = config.shared.bound)
    (notPublishing : ∀ receiver id,
      call ≠ .publishing receiver id ∧ moved ≠ .publishing receiver id)
    (notUnmaps : ∀ receiver id, ¬call.Unmaps receiver id)
    (guarded : Guarded ⟨registry, before ++ moved :: after⟩) :
    Sound ⟨registry, before ++ moved :: after⟩ := by
  have publishing : ∀ {receiver id}, .publishing receiver id ∈ before ++ moved :: after ↔
      .publishing receiver id ∈ config.calls := by
    intro receiver id
    obtain ⟨notCall, notMoved⟩ := notPublishing receiver id
    rw [shape]
    exact Pool.mem_act_iff notCall.symm notMoved.symm
  have unmaps : ∀ {receiver id}, (∃ call ∈ config.calls, call.Unmaps receiver id) →
      ∃ call ∈ before ++ moved :: after, call.Unmaps receiver id := by
    intro receiver id found
    rw [shape] at found
    exact (Pool.exists_act found).resolve_left (notUnmaps receiver id)
  refine ⟨guarded, ?_, ?_, ?_⟩
  · intro receiver id listed
    rw [sameBound] at listed
    rw [sameMap, publishing]
    exact sound.listed receiver id listed
  · intro receiver id mapped
    rw [sameMap] at mapped
    rw [sameBound]
    exact (sound.mapped receiver id mapped).imp_right unmaps
  · intro receiver id found
    rw [publishing] at found
    rw [sameBound]
    exact (sound.inserted receiver id found).imp_right unmaps

theorem Sound.insert (sound : Sound config) {receiver : Nat} {target : TargetAddr} {id : UInt16}
    (shape : config.calls = before ++ .inserting receiver target id :: after)
    (guarded : Guarded ⟨config.shared.insertBinded receiver id target,
      before ++ .publishing receiver id :: after⟩) :
    Sound ⟨config.shared.insertBinded receiver id target,
      before ++ .publishing receiver id :: after⟩ := by
  obtain ⟨-, listed, mapped, inserted⟩ := sound
  rw [shape] at listed mapped inserted
  have unmaps {other : Nat} {key : UInt16} (found : ∃ call ∈
      before ++ .inserting receiver target id :: after, call.Unmaps other key) :
      ∃ call ∈ before ++ .publishing receiver id :: after, call.Unmaps other key :=
    (Pool.exists_act found).resolve_left not_false
  have publishing {other : Nat} {key : UInt16}
      (found : .publishing other key ∈ before ++ .inserting receiver target id :: after) :
      .publishing other key ∈ before ++ .publishing receiver id :: after :=
    Pool.mem_act found nofun
  refine ⟨guarded, ?_, ?_, ?_⟩
  · intro other key member
    rcases mem_bound_insertBinded.mp member with earlier | ⟨rfl, rfl⟩
    · exact (listed other key earlier).imp_right publishing
    · exact .inr (List.mem_append_right _ (List.mem_cons_self ..))
  · intro other key owns
    exact (mapped other key owns).imp (mem_bound_insertBinded.mpr ∘ .inl) unmaps
  · intro other key found
    rcases Pool.eq_or_mem_of_mem_act found with same | earlier
    · cases same
      exact .inl (mem_bound_insertBinded.mpr (.inr ⟨rfl, rfl⟩))
    · exact (inserted other key (Pool.mem_of_mem_others earlier)).imp
        (mem_bound_insertBinded.mpr ∘ .inl) unmaps

theorem Sound.publish (sound : Sound config) {receiver : Nat} {id : UInt16}
    (shape : config.calls = before ++ .publishing receiver id :: after) :
    Sound ⟨config.shared.publish receiver id, before ++ .bound :: after⟩ := by
  have guarded := sound.guarded.publish shape
  obtain ⟨⟨-, vacant⟩, listed, mapped, inserted⟩ := sound
  rw [shape] at listed mapped inserted vacant
  have own : .publishing receiver id ∈ before ++ .publishing receiver id :: after :=
    List.mem_append_right _ (List.mem_cons_self ..)
  have free : config.shared.udpRecvMap id = none := vacant _ own id rfl
  have unmaps {other : Nat} {key : UInt16} (found : ∃ call ∈
      before ++ .publishing receiver id :: after, call.Unmaps other key) :
      ∃ call ∈ before ++ .bound :: after, call.Unmaps other key :=
    (Pool.exists_act found).resolve_left not_false
  refine ⟨guarded, ?_, ?_, ?_⟩
  · intro other key member
    rw [publish_apply]
    rcases listed other key member with owns | found
    · split
      · next same =>
          rw [same, free] at owns
          cases owns
      · exact .inl owns
    · by_cases same : UdpCall.publishing other key = .publishing receiver id
      · cases same
        exact .inl (if_pos rfl)
      · exact .inr (Pool.mem_act found same)
  · intro other key owns
    rw [publish_apply] at owns
    split at owns
    · next same =>
        cases owns
        rw [same]
        exact (inserted receiver id own).imp_right unmaps
    · exact (mapped other key owns).imp_right unmaps
  · intro other key found
    have earlier := (Pool.eq_or_mem_of_mem_act found).resolve_left nofun
    exact (inserted other key (Pool.mem_of_mem_others earlier)).imp_right unmaps

theorem Sound.remove (sound : Sound config) {receiver : Nat} {id : UInt16} {ids : List UInt16}
    {worker : Bool}
    (shape : config.calls = before ++ .removing receiver (id :: ids) worker :: after)
    (guarded : Guarded ⟨config.shared.removeBinded receiver id,
      before ++ .unmapping receiver id ids worker :: after⟩) :
    Sound ⟨config.shared.removeBinded receiver id,
      before ++ .unmapping receiver id ids worker :: after⟩ := by
  obtain ⟨-, listed, mapped, inserted⟩ := sound
  rw [shape] at listed mapped inserted
  have unmaps {other : Nat} {key : UInt16} (found : ∃ call ∈
      before ++ .removing receiver (id :: ids) worker :: after, call.Unmaps other key) :
      ∃ call ∈ before ++ .unmapping receiver id ids worker :: after, call.Unmaps other key :=
    (Pool.exists_act found).resolve_left not_false
  have publishing {other : Nat} {key : UInt16}
      (found : .publishing other key ∈ before ++ .removing receiver (id :: ids) worker :: after) :
      .publishing other key ∈ before ++ .unmapping receiver id ids worker :: after :=
    Pool.mem_act found nofun
  have kept {other : Nat} {key : UInt16} (either : key ∈ config.shared.bound other ∨ ∃ call ∈
      before ++ .removing receiver (id :: ids) worker :: after, call.Unmaps other key) :
      key ∈ (config.shared.removeBinded receiver id).bound other ∨ ∃ call ∈
        before ++ .unmapping receiver id ids worker :: after, call.Unmaps other key := by
    by_cases here : other = receiver ∧ key = id
    · exact .inr ⟨_, List.mem_append_right _ (List.mem_cons_self ..), here.1.symm, here.2.symm⟩
    · exact either.imp (fun member => mem_bound_removeBinded.mpr ⟨member, here⟩) unmaps
  refine ⟨guarded, ?_, ?_, ?_⟩
  · intro other key member
    exact (listed other key (mem_bound_removeBinded.mp member).1).imp_right publishing
  · exact fun other key owns => kept (mapped other key owns)
  · intro other key found
    have earlier := (Pool.eq_or_mem_of_mem_act found).resolve_left nofun
    exact kept (inserted other key (Pool.mem_of_mem_others earlier))

/-- An entry that is taken out is not one that its receiver has bound again. -/
theorem Sound.unmap (sound : Sound config) {receiver : Nat} {id : UInt16} {ids : List UInt16}
    {worker : Bool} (shape : config.calls = before ++ .unmapping receiver id ids worker :: after)
    (free : ¬Locked config id)
    (notRebound : config.shared.udpRecvMap id = some receiver →
      id ∉ config.shared.bound receiver)
    (guarded : Guarded ⟨config.shared.unmap receiver id,
      before ++ .removing receiver ids worker :: after⟩) :
    Sound ⟨config.shared.unmap receiver id, before ++ .removing receiver ids worker :: after⟩ := by
  obtain ⟨-, listed, mapped, inserted⟩ := sound
  rw [Locked, shape] at free
  rw [shape] at listed mapped inserted
  have unmaps {other : Nat} {key : UInt16} (foreign : ¬(receiver = other ∧ id = key))
      (found : ∃ call ∈ before ++ .unmapping receiver id ids worker :: after,
        call.Unmaps other key) :
      ∃ call ∈ before ++ .removing receiver ids worker :: after, call.Unmaps other key :=
    (Pool.exists_act found).resolve_left foreign
  have publishing {other : Nat} {key : UInt16}
      (found : .publishing other key ∈ before ++ .unmapping receiver id ids worker :: after) :
      .publishing other key ∈ before ++ .removing receiver ids worker :: after :=
    Pool.mem_act found nofun
  refine ⟨guarded, ?_, ?_, ?_⟩
  · intro other key member
    rw [bound_unmap] at member
    refine (listed other key member).imp (fun owns => ?_) publishing
    refine unmap_eq_some_iff.mpr ⟨owns, ?_⟩
    rintro ⟨rfl, rfl⟩
    exact notRebound owns member
  · intro other key owns
    obtain ⟨earlier, foreign⟩ := unmap_eq_some_iff.mp owns
    rw [bound_unmap]
    exact (mapped other key earlier).imp_right
      (unmaps fun same => foreign ⟨same.1.symm, same.2.symm⟩)
  · intro other key found
    have earlier := (Pool.eq_or_mem_of_mem_act found).resolve_left nofun
    rw [bound_unmap]
    refine (inserted other key (Pool.mem_of_mem_others earlier)).imp_right (unmaps ?_)
    rintro ⟨rfl, rfl⟩
    exact free ⟨_, Pool.mem_of_mem_others earlier, rfl⟩

theorem Sound.act (sound : Sound config) (shape : config.calls = before ++ call :: after)
    (acted : UdpRegistry.act config call () = some (registry, moved))
    (notRebound : call.NotRebound config.shared) : Sound ⟨registry, before ++ moved :: after⟩ := by
  have guarded := sound.guarded.act shape acted
  cases call with
  | binding receiver target id =>
      simp only [UdpRegistry.act] at acted
      split at acted
      · cases acted
      · split at acted <;> cases acted <;>
          exact sound.move shape rfl rfl (fun _ _ => ⟨nofun, nofun⟩) (fun _ _ => not_false) guarded
  | inserting receiver target id =>
      cases acted
      exact sound.insert shape guarded
  | publishing receiver id =>
      cases acted
      exact sound.publish shape
  | collecting receiver =>
      cases acted
      exact sound.move shape rfl rfl (fun _ _ => ⟨nofun, nofun⟩) (fun _ _ => not_false) guarded
  | removing receiver ids worker =>
      cases ids with
      | nil =>
          cases acted
          refine sound.move shape ?_ ?_ (fun _ _ => ⟨nofun, nofun⟩) (fun _ _ => not_false) guarded
          · split <;> rfl
          · split <;> rfl
      | cons id ids =>
          cases acted
          exact sound.remove shape guarded
  | unmapping receiver id ids worker =>
      simp only [UdpRegistry.act] at acted
      split at acted
      · cases acted
      · next free =>
          cases acted
          exact sound.unmap shape free notRebound guarded
  | bound | alreadyBound | cleaned => cases acted

end Act

theorem Guarded.step (guarded : Guarded config) (taken : program.step config event = some next) :
    Guarded next := by
  rcases Pool.Program.step_cases taken with
    ⟨request, rfl, rfl⟩ | ⟨before, call, after, ⟨⟩, registry, moved, rfl, shape, acted, rfl⟩
  · exact guarded.start request
  · exact guarded.act shape acted

theorem Sound.step (sound : Sound config) (notRebound : NotRebound config event)
    (taken : program.step config event = some next) : Sound next := by
  rcases Pool.Program.step_cases taken with
    ⟨request, rfl, rfl⟩ | ⟨before, call, after, ⟨⟩, registry, moved, rfl, shape, acted, rfl⟩
  · exact sound.start request
  · have found : config.calls[before.length]? = some call := by
      rw [shape]
      exact Pool.getElem?_moved
    exact sound.act shape acted (notRebound call found)

theorem Guarded.owned (guarded : Guarded config) {before after : List UdpCall}
    {call moved : UdpCall} {registry : UdpRegistry} (shape : config.calls = before ++ call :: after)
    (acted : UdpRegistry.act config call () = some (registry, moved)) {id : UInt16} {owner : Nat}
    (owns : config.shared.udpRecvMap id = some owner) :
    registry.udpRecvMap id = some owner ∨ call.Unmaps owner id := by
  cases call with
  | binding receiver target key =>
      simp only [UdpRegistry.act] at acted
      split at acted
      · cases acted
      · split at acted <;> cases acted <;> exact .inl owns
  | inserting receiver target key | collecting receiver =>
      cases acted
      exact .inl owns
  | publishing receiver key =>
      cases acted
      have vacant := guarded.vacant (.publishing receiver key)
        (shape ▸ List.mem_append_right _ (List.mem_cons_self ..)) key rfl
      have elsewhere : id ≠ key := by
        rintro rfl
        cases vacant.symm.trans owns
      exact .inl (publish_apply.trans ((if_neg elsewhere).trans owns))
  | removing receiver ids worker =>
      cases ids with
      | nil =>
          cases acted
          left
          split <;> exact owns
      | cons key ids =>
          cases acted
          exact .inl owns
  | unmapping receiver key ids worker =>
      simp only [UdpRegistry.act] at acted
      split at acted
      · cases acted
      · cases acted
        by_cases own : receiver = owner ∧ key = id
        · exact .inr own
        · exact .inl (unmap_eq_some_iff.mpr ⟨owns, fun same => own ⟨same.1.symm, same.2.symm⟩⟩)
  | bound | alreadyBound | cleaned => cases acted

theorem Guarded.respects (guarded : Guarded config)
    (taken : program.step config event = some next) : Respects config next event := by
  rcases Pool.Program.step_cases taken with
    ⟨request, rfl, rfl⟩ | ⟨before, call, after, ⟨⟩, registry, moved, rfl, shape, acted, rfl⟩
  · exact ⟨nofun, fun _ _ owns => .inl owns⟩
  · have found : config.calls[before.length]? = some call := by
      rw [shape]
      exact Pool.getElem?_moved
    refine ⟨?_, fun id owner owns => ?_⟩
    · rintro index receiver target id ⟨⟩ binding occupied
      cases found.symm.trans binding
      change UdpRegistry.act config (.binding receiver target id) () = _ at acted
      simp only [UdpRegistry.act] at acted
      split at acted
      · cases acted
      · split at acted
        · next none => exact absurd none occupied
        · cases acted
          rw [shape]
          simp
    · refine (guarded.owned shape acted owns).imp_right fun unmaps => ?_
      exact ⟨_, rfl, call, found, unmaps⟩

/-- In every run without a stale removal the maps agree whenever no call is under
way; in every run whatever, bindings and cleanups leave alone what is not theirs. -/
theorem registry_consistent (events : List UdpEvent) :
    (Machine.Within program.step NotRebound new events →
      Machine.Throughout program.step Consistent new events) ∧
      Machine.Throughout program.step
        (fun config => ∀ event next, program.step config event = some next →
          Respects config next event) new events := by
  have guarded : Machine.Throughout program.step Guarded new events :=
    Machine.throughout_of_invariant Guarded Guarded.step guarded_new
  refine ⟨fun within => ?_, ?_⟩
  · exact Machine.throughout_mono Sound.consistent
      (Machine.throughout_of_within Sound Sound.step sound_new within)
  · exact Machine.throughout_mono (fun here _ _ taken => Guarded.respects here taken) guarded

/-- Two receivers, of which the second fails to bind the first one's id. -/
def boundTwice : List UdpEvent :=
  [.start (.bind 0 .dummy 7), .advance 0 (), .advance 0 (), .advance 0 (),
    .start (.bind 1 .dummy 7), .advance 1 (), .start (.clean 0), .advance 2 (),
    .advance 2 (), .advance 2 (), .advance 2 ()]

theorem registry_consistent_twice :
    Machine.Throughout program.step Consistent new boundTwice := by
  exact (registry_consistent boundTwice).1 (by decide)

/-- A second worker of an id takes it out of the map after the receiver has bound
it again. -/
def reboundEvents : List UdpEvent :=
  [.start (.bind 0 .dummy 7), .advance 0 (), .advance 0 (), .advance 0 (),
    .start (.exit 0 7), .start (.exit 0 7),
    .advance 1 (), .advance 1 (), .advance 1 (), .advance 2 (),
    .start (.bind 0 .dummy 7), .advance 3 (), .advance 3 (), .advance 3 (),
    .advance 2 (), .advance 2 ()]

theorem rebound_unmapped : ∃ final, Machine.run program.step new reboundEvents = some final ∧
    ¬Consistent final := by
  refine ⟨_, rfl, fun consistent => ?_⟩
  have mapped := (consistent (by decide) 0 7).mpr (by decide)
  exact absurd mapped (by decide)

end UdpRegistry

end QuicProxy
