import QuicProxy.Proxy.Anytls.WriteQueue

namespace QuicProxy

/-! What becomes of the bytes that the TCP streams of a client session accept:
they wait for its write loop, and it gives them to `write_with_padding`. -/

/-- Frames with the TCP stream that sent them, if one did. -/
abbrev OwnedFrames := List (Option Nat × Frame)

def OwnedFrames.by (frames : OwnedFrames) (handle : Nat) : List Frame :=
  (frames.filter fun entry => entry.1 = some handle).map Prod.snd

/-- A client session with the frames that wait for its write loop and those that
have been written, what its TCP streams have accepted, and which of them owe a
Fin.  Frames that wait when the loop ends are lost. -/
structure Ledger where
  session : Session
  waiting : OwnedFrames
  handed : OwnedFrames
  accepted : List (Nat × Bytes)
  fins : List Nat

namespace Ledger

def start (idle : Bool) (settings : Bytes) : Ledger where
  session := .start (.client idle) settings
  waiting := [(none, ⟨0, .settings, settings⟩)]
  handed := []
  accepted := []
  fins := []

def step (ledger : Ledger) (event : Session.Event) : Option Ledger :=
  (ledger.session.step event).map fun session =>
    let actor := (ledger.session.actor event).map Prod.fst
    let queued := session.writeTx.drop ledger.session.writeTx.length
    let handed := ledger.session.handsOver event
    { session
      waiting := ledger.waiting.drop handed ++ queued.map (actor, ·)
      handed := ledger.handed ++ ledger.waiting.take handed
      accepted :=
        ledger.accepted ++ (actor.map fun handle => (handle, ledger.session.reports event)).toList
      fins := ledger.fins ++ if ledger.session.owesFin event then actor.toList else [] }

def acceptedBy (ledger : Ledger) (handle : Nat) : Bytes :=
  (ledger.accepted.filter fun entry => entry.1 = handle).flatMap Prod.snd

/-- What has reached `write_with_padding`, or is on the way while the write loop
runs. -/
def carried (ledger : Ledger) : OwnedFrames :=
  if ledger.session.isWriting then ledger.handed ++ ledger.waiting else ledger.handed

/-- Of every TCP stream, exactly the accepted bytes are carried, in order, and
then its Fin when it owes one; so once the write loop has ended they all have
been written. -/
def Delivers (ledger : Ledger) : Prop :=
  ∀ (handle : Nat) (stream : StreamHandle), ledger.session.handles[handle]? = some stream →
    stream.udp = false →
      ∃ pushes : List Bytes, pushes.flatten = ledger.acceptedBy handle ∧
        ledger.carried.by handle = pushes.map (⟨stream.streamId, .psh, ·⟩) ++
          if handle ∈ ledger.fins then [⟨stream.streamId, .fin, []⟩] else []

/-- No frame of a TCP stream waits for the write loop. -/
def Clear (ledger : Ledger) : Prop := ∀ entry ∈ ledger.waiting, entry.1 = none

/-- The condition on a step: the write loop ends only when no frame of a TCP
stream waits for it, and a TCP stream that owes its Fin is dropped only while
the queue has room for it. -/
structure EndsClear (ledger : Ledger) (event : Session.Event) : Prop where
  loop : ledger.session.stopsWriting event = true → ledger.Clear
  room : ledger.session.dropsOwing event = true →
    ledger.session.writeTx.length < sessionQueueCapacity

instance (ledger : Ledger) : Decidable ledger.Clear :=
  inferInstanceAs (Decidable (∀ entry ∈ ledger.waiting, entry.1 = none))

instance (ledger : Ledger) (event : Session.Event) : Decidable (ledger.EndsClear event) :=
  decidable_of_iff ((ledger.session.stopsWriting event = true → ledger.Clear) ∧
      (ledger.session.dropsOwing event = true →
        ledger.session.writeTx.length < sessionQueueCapacity))
    ⟨fun both => ⟨both.1, both.2⟩, fun ends => ⟨ends.loop, ends.room⟩⟩

end Ledger

/-! Frames by their owner. -/

namespace OwnedFrames

theorem by_append (frames others : OwnedFrames) (handle : Nat) :
    OwnedFrames.by (frames ++ others) handle = frames.by handle ++ others.by handle := by
  unfold OwnedFrames.by
  rw [List.filter_append, List.map_append]

theorem by_own (frames : List Frame) (handle : Nat) :
    OwnedFrames.by (frames.map (some handle, ·)) handle = frames := by
  induction frames with
  | nil => rfl
  | cons frame frames ih =>
      unfold OwnedFrames.by at ih ⊢
      rw [List.map_cons, List.filter_cons, if_pos (decide_eq_true rfl), List.map_cons, ih]

theorem by_eq_nil {frames : OwnedFrames} {handle : Nat}
    (others : ∀ entry ∈ frames, entry.1 ≠ some handle) : frames.by handle = [] := by
  unfold OwnedFrames.by
  rw [List.map_eq_nil_iff, List.filter_eq_nil_iff]
  intro entry member
  rw [decide_eq_true_eq]
  exact others entry member

theorem by_other {owner : Option Nat} {handle : Nat} (different : owner ≠ some handle)
    (frames : List Frame) : OwnedFrames.by (frames.map (owner, ·)) handle = [] := by
  apply by_eq_nil
  intro entry member
  obtain ⟨frame, -, rfl⟩ := List.mem_map.mp member
  exact different

end OwnedFrames

namespace Ledger

def journal (ledger : Ledger) : OwnedFrames := ledger.handed ++ ledger.waiting

/-- The account of a TCP stream: what it accepted, and its Fin when it owes
one. -/
structure Account (ledger : Ledger) (frames : OwnedFrames) (handle : Nat) (streamId : UInt32)
    (pushes : List Bytes) : Prop where
  accepted : pushes.flatten = ledger.acceptedBy handle
  frames : frames.by handle = pushes.map (⟨streamId, .psh, ·⟩) ++
    if handle ∈ ledger.fins then [⟨streamId, .fin, []⟩] else []

def Tcp (ledger : Ledger) (handle : Nat) : Prop :=
  ∃ stream, ledger.session.handles[handle]? = some stream ∧ stream.udp = false

/-- Nothing but the TCP streams is in the ledger, the waiting frames are those
of the session, and the accounts are right. -/
structure Kept (idle : Bool) (ledger : Ledger) : Prop where
  client : ledger.session.side = .client idle
  synced : ∀ buffering buffer, ledger.session.writeLoop = .running buffering buffer →
    ledger.waiting.map Prod.snd = buffer ++ ledger.session.writeTx
  known : ∀ handle, ¬ledger.Tcp handle →
    ledger.journal.by handle = [] ∧ ledger.acceptedBy handle = [] ∧ handle ∉ ledger.fins
  shut : ∀ handle ∈ ledger.fins, ∀ stream, ledger.session.handles[handle]? = some stream →
    stream.finSent = true ∨ stream.live = false
  whole : ∀ (handle : Nat) (stream : StreamHandle), ledger.session.handles[handle]? = some stream →
    stream.udp = false →
      ∃ pushes, [] ∉ pushes ∧ ledger.Account ledger.journal handle stream.streamId pushes
  clear : ledger.session.isWriting = false → ledger.Clear

theorem kept_start (idle : Bool) (settings : Bytes) : (start idle settings).Kept idle where
  client := rfl
  synced := fun _ _ loop => by
    cases loop
    rfl
  known := fun _ _ => ⟨rfl, rfl, List.not_mem_nil⟩
  shut := nofun
  whole := nofun
  clear := nofun

theorem delivers_iff (ledger : Ledger) :
    ledger.Delivers ↔ ∀ (handle : Nat) (stream : StreamHandle),
      ledger.session.handles[handle]? = some stream → stream.udp = false →
        ∃ pushes, ledger.Account ledger.carried handle stream.streamId pushes := by
  constructor
  · intro delivers handle stream there tcp
    obtain ⟨pushes, accepted, frames⟩ := delivers handle stream there tcp
    exact ⟨pushes, accepted, frames⟩
  · intro accounts handle stream there tcp
    obtain ⟨pushes, account⟩ := accounts handle stream there tcp
    exact ⟨pushes, account.accepted, account.frames⟩

/-- Nothing is lost when no frame of a TCP stream waits for a loop that has
ended. -/
theorem by_carried {ledger : Ledger} (clear : ledger.session.isWriting = false → ledger.Clear)
    (handle : Nat) : ledger.carried.by handle = ledger.journal.by handle := by
  unfold carried journal
  cases writing : ledger.session.isWriting with
  | true => rw [if_pos rfl]
  | false =>
      rw [if_neg Bool.false_ne_true, OwnedFrames.by_append]
      have nothing : ledger.waiting.by handle = [] := by
        apply OwnedFrames.by_eq_nil
        intro entry member
        rw [clear writing entry member]
        exact nofun
      rw [nothing, List.append_nil]

theorem Kept.carries {idle : Bool} {ledger : Ledger} (kept : ledger.Kept idle) :
    ledger.Delivers := by
  rw [delivers_iff]
  intro handle stream there tcp
  obtain ⟨pushes, -, account⟩ := kept.whole handle stream there tcp
  exact ⟨pushes, account.accepted, (by_carried kept.clear handle).trans account.frames⟩

/-! What a step adds to the ledger. -/

def queued (ledger next : Ledger) : List Frame :=
  next.session.writeTx.drop ledger.session.writeTx.length

section Step

variable {ledger next : Ledger} {event : Session.Event}

theorem session_step (taken : ledger.step event = some next) :
    ledger.session.step event = some next.session := by
  obtain ⟨session, moved, rfl⟩ := Option.map_eq_some_iff.mp taken
  exact moved

theorem waiting_step (taken : ledger.step event = some next) :
    next.waiting = ledger.waiting.drop (ledger.session.handsOver event) ++
      (ledger.queued next).map ((ledger.session.actor event).map Prod.fst, ·) := by
  obtain ⟨session, moved, rfl⟩ := Option.map_eq_some_iff.mp taken
  rfl

theorem journal_step (taken : ledger.step event = some next) :
    next.journal = ledger.journal ++
      (ledger.queued next).map ((ledger.session.actor event).map Prod.fst, ·) := by
  obtain ⟨session, moved, rfl⟩ := Option.map_eq_some_iff.mp taken
  change ledger.handed ++ ledger.waiting.take _ ++ (ledger.waiting.drop _ ++ _) =
    ledger.handed ++ ledger.waiting ++ _
  rw [List.append_assoc, ← List.append_assoc (ledger.waiting.take _), List.take_append_drop,
    List.append_assoc]
  rfl

theorem untouched (taken : ledger.step event = some next) {handle : Nat}
    (different : (ledger.session.actor event).map Prod.fst ≠ some handle) :
    next.journal.by handle = ledger.journal.by handle ∧
      next.acceptedBy handle = ledger.acceptedBy handle ∧
        (handle ∈ next.fins ↔ handle ∈ ledger.fins) := by
  refine ⟨?_, ?_, ?_⟩
  · rw [journal_step taken, OwnedFrames.by_append, OwnedFrames.by_other different, List.append_nil]
  · obtain ⟨session, moved, rfl⟩ := Option.map_eq_some_iff.mp taken
    unfold acceptedBy
    rw [List.filter_append, List.flatMap_append]
    cases actor : ledger.session.actor event with
    | none => exact List.append_nil _
    | some acting =>
        rw [actor] at different
        have other : acting.1 ≠ handle := fun same => different (congrArg some same)
        change _ ++ List.flatMap Prod.snd (List.filter _ [(acting.1, _)]) = _
        rw [List.filter_cons, if_neg (by rw [decide_eq_true_eq]; exact other), List.filter_nil,
          List.flatMap_nil, List.append_nil]
  · obtain ⟨session, moved, rfl⟩ := Option.map_eq_some_iff.mp taken
    dsimp only
    rw [List.mem_append, or_iff_left]
    split
    · rw [Option.mem_toList]
      exact different
    · exact List.not_mem_nil

theorem touched (taken : ledger.step event = some next) {handle : Nat} {stream : StreamHandle}
    (actor : ledger.session.actor event = some (handle, stream)) :
    next.journal.by handle = ledger.journal.by handle ++ ledger.queued next ∧
      next.acceptedBy handle = ledger.acceptedBy handle ++ ledger.session.reports event ∧
        (handle ∈ next.fins ↔ handle ∈ ledger.fins ∨ ledger.session.owesFin event = true) := by
  refine ⟨?_, ?_, ?_⟩
  · rw [journal_step taken, actor, OwnedFrames.by_append]
    exact congrArg _ (OwnedFrames.by_own (ledger.queued next) handle)
  · obtain ⟨session, moved, rfl⟩ := Option.map_eq_some_iff.mp taken
    unfold acceptedBy
    rw [List.filter_append, List.flatMap_append, actor]
    change _ ++ List.flatMap Prod.snd (List.filter _ [(handle, _)]) = _
    rw [List.filter_cons, if_pos (decide_eq_true rfl), List.filter_nil, List.flatMap_cons,
      List.flatMap_nil, List.append_nil]
  · obtain ⟨session, moved, rfl⟩ := Option.map_eq_some_iff.mp taken
    dsimp only
    rw [List.mem_append, actor]
    refine or_congr_right ?_
    split
    · next owes => exact ⟨fun _ => owes, fun _ => List.mem_singleton.mpr rfl⟩
    · next not => exact ⟨fun none => absurd none List.not_mem_nil, fun owes => absurd owes not⟩

theorem queued_of_queues {added : List Frame}
    (appends : ledger.session.Queues next.session added) : ledger.queued next = added := by
  rw [queued, appends.writeTx, List.drop_left]

theorem queued_eq_nil (fewer : next.session.writeTx.length ≤ ledger.session.writeTx.length) :
    ledger.queued next = [] :=
  List.drop_eq_nil_of_le fewer

variable {idle : Bool}

theorem Kept.adds (kept : ledger.Kept idle) (taken : ledger.step event = some next)
    {handle : Nat} {stream : StreamHandle}
    (actor : ledger.session.actor event = some (handle, stream)) :
    ledger.session.Queues next.session (ledger.queued next) ∧
      ledger.session.Adds event stream (ledger.queued next) := by
  cases Session.writeStep_step kept.client (session_step taken) with
  | queues added appends owned _ =>
      rw [queued_of_queues appends]
      exact ⟨appends, owned handle stream actor⟩
  | takes _ _ _ _ _ _ _ task _ =>
      rw [task] at actor
      cases actor
  | flushes _ _ _ _ _ task _ =>
      rw [task] at actor
      cases actor
  | ends _ _ _ task _ =>
      rw [task] at actor
      cases actor

theorem Kept.synced_step (kept : ledger.Kept idle) (taken : ledger.step event = some next)
    (buffering : Bool) (buffer : List Frame)
    (loop : next.session.writeLoop = .running buffering buffer) :
    next.waiting.map Prod.snd = buffer ++ next.session.writeTx := by
  have tagged (frames : List Frame) :
      (frames.map ((ledger.session.actor event).map Prod.fst, ·)).map Prod.snd = frames := by
    rw [List.map_map]
    exact List.map_id frames
  rw [waiting_step taken, List.map_append, List.map_drop, tagged]
  cases Session.writeStep_step kept.client (session_step taken) with
  | queues added appends _ keeps =>
      rw [keeps, List.drop_zero, queued_of_queues appends, appends.writeTx,
        kept.synced buffering buffer (appends.writeLoop.symm.trans loop), List.append_assoc]
  | takes frame old new front was head becomes _ keeps =>
      rw [becomes] at loop
      cases loop
      rw [keeps, List.drop_zero, kept.synced old front was, head, queued_eq_nil,
        List.append_nil, List.append_assoc]
      · rfl
      · rw [head]
        exact Nat.le_succ _
  | flushes old front was same becomes _ hands =>
      rw [becomes] at loop
      cases loop
      rw [hands, kept.synced old front was, List.drop_left, same, queued_eq_nil,
        List.append_nil]
      · rfl
      · rw [same]
  | ends stopped _ _ _ _ =>
      rw [Session.isWriting, loop] at stopped
      cases stopped

theorem Kept.clear_step (kept : ledger.Kept idle) (taken : ledger.step event = some next)
    (ends : ledger.EndsClear event) (stopped : next.session.isWriting = false) : next.Clear := by
  cases Session.writeStep_step kept.client (session_step taken) with
  | queues added appends owned keeps =>
      have before : ledger.session.isWriting = false := appends.isWriting.symm.trans stopped
      intro entry member
      rw [waiting_step taken, keeps, List.drop_zero, queued_of_queues appends] at member
      rcases List.mem_append.mp member with old | new
      · exact kept.clear before entry old
      · cases actor : ledger.session.actor event with
        | none =>
            rw [actor] at new
            obtain ⟨frame, -, rfl⟩ := List.mem_map.mp new
            rfl
        | some acting =>
            rw [(owned acting.1 acting.2 actor).writing before] at new
            cases new
  | takes _ _ _ _ _ _ becomes _ _ =>
      rw [Session.isWriting, becomes] at stopped
      cases stopped
  | flushes _ _ _ _ becomes _ _ =>
      rw [Session.isWriting, becomes] at stopped
      cases stopped
  | ends _ fewer cause _ keeps =>
      have clear : ledger.Clear := by
        cases writing : ledger.session.isWriting with
        | false => exact kept.clear writing
        | true => exact ends.loop (cause writing)
      intro entry member
      rw [waiting_step taken, keeps, List.drop_zero, queued_eq_nil fewer, List.map_nil,
        List.append_nil] at member
      exact clear entry member

theorem tcp_of_actor {handle : Nat} {stream : StreamHandle}
    (actor : ledger.session.actor event = some (handle, stream)) :
    ledger.session.user handle = some stream ∧ stream.udp = false := by
  have cases {other : Nat}
      (acting : (ledger.session.tcpUser other).map (other, ·) = some (handle, stream)) :
      ledger.session.user handle = some stream ∧ stream.udp = false := by
    obtain ⟨found, filtered, same⟩ := Option.map_eq_some_iff.mp acting
    cases same
    obtain ⟨user, tcp⟩ := Option.filter_eq_some_iff.mp filtered
    exact ⟨user, by simpa using tcp⟩
  cases event with
  | write other data => exact cases actor
  | shutdown other => exact cases actor
  | drop other => exact cases actor
  | _ => cases actor

theorem Kept.goes_on (kept : ledger.Kept idle) (taken : ledger.step event = some next)
    {handle : Nat} {stream : StreamHandle} (there : ledger.session.handles[handle]? = some stream) :
    ∃ other, next.session.handles[handle]? = some other ∧ stream.Continues other := by
  have continues := Session.continues_step kept.client (session_step taken)
  have short := (List.getElem?_eq_some_iff.mp there).1
  obtain ⟨other, found⟩ : ∃ other, next.session.handles[handle]? = some other :=
    ⟨_, List.getElem?_eq_getElem (Nat.lt_of_lt_of_le short continues.length)⟩
  rcases continues.found found with rfl | ⟨before, was, same⟩
  · exact absurd short (Nat.lt_irrefl _)
  · cases there.symm.trans was
    exact ⟨other, found, same⟩

theorem Kept.tcp_step (kept : ledger.Kept idle) (taken : ledger.step event = some next)
    {handle : Nat} (tcp : ledger.Tcp handle) : next.Tcp handle := by
  obtain ⟨stream, there, same⟩ := tcp
  obtain ⟨other, found, continues⟩ := kept.goes_on taken there
  exact ⟨other, found, continues.udp.trans same⟩

theorem different_of_not_tcp {handle : Nat} (other : ¬ledger.Tcp handle) :
    (ledger.session.actor event).map Prod.fst ≠ some handle := by
  intro same
  obtain ⟨acting, actor, rfl⟩ := Option.map_eq_some_iff.mp same
  obtain ⟨user, tcp⟩ := tcp_of_actor actor
  exact other ⟨acting.2, Session.found_of_user user, tcp⟩

theorem actor_of_own {session : Session} {handle : Nat}
    (own : (session.actor event).map Prod.fst = some handle) :
    ∃ stream, session.actor event = some (handle, stream) := by
  obtain ⟨acting, actor, rfl⟩ := Option.map_eq_some_iff.mp own
  exact ⟨acting.2, actor⟩

theorem Kept.known_step (kept : ledger.Kept idle) (taken : ledger.step event = some next)
    (handle : Nat) (other : ¬next.Tcp handle) :
    next.journal.by handle = [] ∧ next.acceptedBy handle = [] ∧ handle ∉ next.fins := by
  have before : ¬ledger.Tcp handle := fun tcp => other (kept.tcp_step taken tcp)
  obtain ⟨frames, accepted, fins⟩ := untouched taken (different_of_not_tcp before)
  rw [frames, accepted, fins]
  exact kept.known handle before

theorem Kept.shut_step (kept : ledger.Kept idle) (taken : ledger.step event = some next)
    (handle : Nat) (member : handle ∈ next.fins) (other : StreamHandle)
    (there : next.session.handles[handle]? = some other) :
    other.finSent = true ∨ other.live = false := by
  have earlier (before : handle ∈ ledger.fins) : other.finSent = true ∨ other.live = false := by
    have tcp : ledger.Tcp handle := by
      apply Classical.byContradiction
      exact fun none => (kept.known handle none).2.2 before
    obtain ⟨stream, was, -⟩ := tcp
    obtain ⟨other', there', goes⟩ := kept.goes_on taken was
    cases there.symm.trans there'
    rcases kept.shut handle before stream was with sent | gone
    · exact Or.inl (goes.finSent sent)
    · refine Or.inr ?_
      rw [← Bool.not_eq_true]
      intro live
      rw [goes.live live] at gone
      cases gone
  rcases eq_or_ne ((ledger.session.actor event).map Prod.fst) (some handle) with own | different
  · obtain ⟨acting, actor⟩ := actor_of_own own
    rcases (touched taken actor).2.2.mp member with before | owes
    · exact earlier before
    · exact Session.shut_of_owesFin (session_step taken) actor owes there
  · exact earlier ((untouched taken different).2.2.mp member)

theorem EndsClear.room_of_owes {stream : StreamHandle} {added : List Frame}
    (ends : ledger.EndsClear event) (adds : ledger.session.Adds event stream added)
    (owes : ledger.session.owesFin event = true) :
    ledger.session.writeTx.length < sessionQueueCapacity := by
  cases event with
  | drop handle => exact ends.room owes
  | _ => exact adds.room owes nofun

theorem Kept.whole_step (kept : ledger.Kept idle) (taken : ledger.step event = some next)
    (ends : ledger.EndsClear event) (handle : Nat) (other : StreamHandle)
    (there : next.session.handles[handle]? = some other) (tcp : other.udp = false) :
    ∃ pushes, [] ∉ pushes ∧ next.Account next.journal handle other.streamId pushes := by
  have continues := Session.continues_step kept.client (session_step taken)
  rcases continues.found there with rfl | ⟨stream, was, goes⟩
  · have new : ¬ledger.Tcp ledger.session.handles.length := by
      rintro ⟨stream, was, -⟩
      exact absurd (List.getElem?_eq_some_iff.mp was).1 (Nat.lt_irrefl _)
    obtain ⟨frames, accepted, fins⟩ := untouched taken (different_of_not_tcp new)
    obtain ⟨nothing, none, absent⟩ := kept.known _ new
    refine ⟨[], List.not_mem_nil, (accepted.trans none).symm, ?_⟩
    rw [frames, nothing, if_neg fun member => absent (fins.mp member)]
    rfl
  · obtain ⟨pushes, nonempty, accepted, frames⟩ :=
      kept.whole handle stream was (goes.udp.symm.trans tcp)
    rw [goes.streamId]
    rcases eq_or_ne ((ledger.session.actor event).map Prod.fst) (some handle) with own | different
    · obtain ⟨acting, actor⟩ := actor_of_own own
      obtain ⟨user, -⟩ := tcp_of_actor actor
      cases was.symm.trans (Session.found_of_user user)
      obtain ⟨frames', accepted', fins⟩ := touched taken actor
      have adds := (kept.adds taken actor).2
      obtain ⟨more, reported, nonempty', silent, added⟩ := adds.frames
      refine ⟨pushes ++ more, ?_, ?_, ?_⟩
      · rw [List.mem_append, not_or]
        exact ⟨nonempty, nonempty'⟩
      · rw [List.flatten_append, accepted, reported, accepted']
      · rw [frames', frames, added, List.map_append]
        have live : stream.live = true := by
          have both := (Option.filter_eq_some_iff.mp user).2
          rw [Bool.and_eq_true] at both
          exact both.1
        have fin : (if ledger.session.owesFin event = true ∧
              ledger.session.writeTx.length < sessionQueueCapacity then
            [(⟨stream.streamId, .fin, []⟩ : Frame)] else []) =
              if ledger.session.owesFin event = true then [⟨stream.streamId, .fin, []⟩] else [] :=
          if_congr (and_iff_left_of_imp (ends.room_of_owes adds)) rfl rfl
        rw [fin]
        rcases Decidable.em (handle ∈ ledger.fins) with before | fresh
        · -- A stream that owes its Fin accepts nothing more.
          have sent : stream.finSent = true := by
            rcases kept.shut handle before stream was with sent | gone
            · exact sent
            · rw [live] at gone
              cases gone
          have owes : ledger.session.owesFin event ≠ true := by
            intro owes
            rw [adds.owes owes] at sent
            cases sent
          rw [silent sent, if_pos before, if_pos (fins.mpr (Or.inl before)), if_neg owes,
            List.map_nil, List.append_nil, List.append_nil, List.append_nil]
        · rw [if_neg fresh, List.append_nil, List.append_assoc]
          refine congrArg _ (congrArg _ (if_congr ?_ rfl rfl))
          rw [fins, or_iff_right fresh]
    · obtain ⟨frames', accepted', fins⟩ := untouched taken different
      refine ⟨pushes, nonempty, accepted.trans accepted'.symm, ?_⟩
      rw [frames', frames]
      exact congrArg _ (if_congr fins.symm rfl rfl)

theorem Kept.step (kept : ledger.Kept idle) (ends : ledger.EndsClear event)
    (taken : ledger.step event = some next) : next.Kept idle where
  client := Session.side_step kept.client (session_step taken)
  synced := kept.synced_step taken
  known := kept.known_step taken
  shut := kept.shut_step taken
  whole := kept.whole_step taken ends
  clear := kept.clear_step taken ends

/-! A step that breaks the condition loses something. -/

/-- Two accounts of the same bytes have the same frames, when one continues the
other. -/
theorem nothing_lost {streamId : UInt32} {pushes pushes' : List Bytes} {fin : Prop}
    [Decidable fin] {extra : List Frame} (nonempty : [] ∉ pushes)
    (same : pushes'.flatten = pushes.flatten)
    (frames : pushes.map (⟨streamId, .psh, ·⟩) ++ (if fin then [⟨streamId, .fin, []⟩] else []) =
      pushes'.map (⟨streamId, .psh, ·⟩) ++ (if fin then [⟨streamId, .fin, []⟩] else []) ++ extra) :
    extra = [] := by
  rcases Decidable.em fin with due | none
  · rw [if_pos due] at frames
    cases extra using List.reverseRecOn with
    | nil => rfl
    | append_singleton extra last =>
        rw [← List.append_assoc] at frames
        have front := (List.append_inj' frames rfl).1
        -- The Fin is the last frame, and only pushes come before it.
        have member : (⟨streamId, .fin, []⟩ : Frame) ∈
            pushes.map ((⟨streamId, .psh, ·⟩) : Bytes → Frame) := by
          rw [front]
          simp
        obtain ⟨bytes, -, different⟩ := List.mem_map.mp member
        cases different
  · rw [if_neg none, List.append_nil, List.append_nil] at frames
    obtain ⟨front, back, rfl, first, rest⟩ := List.map_eq_append_iff.mp frames
    have equal : front = pushes' := by
      refine (List.map_inj_right fun bytes bytes' framed => ?_).mp first
      cases framed
      rfl
    rw [equal, List.flatten_append, List.self_eq_append_right, List.flatten_eq_nil_iff] at same
    rw [← rest, List.map_eq_nil_iff]
    cases back with
    | nil => rfl
    | cons bytes back =>
        refine absurd ?_ nonempty
        rw [← same bytes (List.mem_cons_self ..)]
        exact List.mem_append_right _ (List.mem_cons_self ..)

theorem actor_of_stopsWriting (stops : ledger.session.stopsWriting event = true) :
    ledger.session.actor event = none := by
  cases event with
  | take | flush | writeCloser => rfl
  | _ => cases stops

theorem handed_step (taken : ledger.step event = some next) :
    next.handed = ledger.handed ++ ledger.waiting.take (ledger.session.handsOver event) := by
  obtain ⟨session, moved, rfl⟩ := Option.map_eq_some_iff.mp taken
  rfl

theorem Kept.clear_of_delivers (kept : ledger.Kept idle) (taken : ledger.step event = some next)
    (delivers : next.Delivers) (stops : ledger.session.stopsWriting event = true) :
    ledger.Clear := by
  have task := actor_of_stopsWriting stops
  obtain ⟨stopped, keeps⟩ := Session.stopped_of_stopsWriting (session_step taken) stops
  have nothing (handle : Nat) : ledger.waiting.by handle = [] := by
    have different : (ledger.session.actor event).map Prod.fst ≠ some handle := by
      rw [task]
      exact nofun
    obtain ⟨-, accepted', fins⟩ := untouched taken different
    rcases Classical.em (ledger.Tcp handle) with tcp | none
    · obtain ⟨stream, there, same⟩ := tcp
      obtain ⟨other, there', goes⟩ := kept.goes_on taken there
      obtain ⟨pushes, nonempty, accepted, frames⟩ := kept.whole handle stream there same
      obtain ⟨pushes', delivered, given⟩ :=
        (delivers_iff next).mp delivers handle other there' (goes.udp.trans same)
      have handed : next.carried = ledger.handed := by
        rw [carried, stopped, if_neg Bool.false_ne_true, handed_step taken, keeps,
          List.take_zero, List.append_nil]
      rw [handed, goes.streamId] at given
      rw [journal, OwnedFrames.by_append, given] at frames
      rw [if_congr fins rfl rfl] at frames
      exact nothing_lost nonempty (delivered.trans (accepted'.trans accepted.symm)) frames.symm
    · have empty := (kept.known handle none).1
      rw [journal, OwnedFrames.by_append, List.append_eq_nil_iff] at empty
      exact empty.2
  intro entry member
  cases owner : entry.1 with
  | none => rfl
  | some handle =>
      have none := nothing handle
      unfold OwnedFrames.by at none
      rw [List.map_eq_nil_iff, List.filter_eq_nil_iff] at none
      exact absurd (decide_eq_true owner) (none entry member)

theorem Kept.room_of_delivers (kept : ledger.Kept idle) (taken : ledger.step event = some next)
    (delivers : next.Delivers) {handle : Nat} (drop : event = .drop handle)
    (owes : ledger.session.owesFin event = true) :
    ledger.session.writeTx.length < sessionQueueCapacity := by
  apply Classical.byContradiction
  intro full
  obtain ⟨writing, stream, actor⟩ : ledger.session.isWriting = true ∧
      ∃ stream, ledger.session.actor event = some (handle, stream) := by
    subst drop
    rw [Session.owesFin, Bool.and_eq_true] at owes
    obtain ⟨stream, filtered, -⟩ := Option.any_eq_true _ _ |>.mp owes.2
    exact ⟨owes.1, stream, by rw [Session.actor, filtered]; rfl⟩
  obtain ⟨user, tcp⟩ := tcp_of_actor actor
  have there := Session.found_of_user user
  obtain ⟨appends, adds⟩ := kept.adds taken actor
  obtain ⟨frames', -, fins⟩ := touched taken actor
  have nothing : ledger.queued next = [] := by
    obtain ⟨more, reported, nonempty, -, added⟩ := adds.frames
    subst drop
    have none : more = [] := by
      cases more with
      | nil => rfl
      | cons bytes more =>
          have empty := List.flatten_eq_nil_iff.mp reported bytes (List.mem_cons_self ..)
          exact absurd (empty ▸ List.mem_cons_self ..) nonempty
    rw [added, none, if_neg fun both => full both.2]
    rfl
  obtain ⟨pushes, -, -, frames⟩ := kept.whole handle stream there tcp
  obtain ⟨other, there', goes⟩ := kept.goes_on taken there
  obtain ⟨pushes', -, given⟩ :=
    (delivers_iff next).mp delivers handle other there' (goes.udp.trans tcp)
  have carried : next.carried = next.journal := by
    unfold Ledger.carried
    rw [appends.isWriting, writing, if_pos rfl]
    rfl
  have fresh : handle ∉ ledger.fins := by
    intro before
    have live := (Option.filter_eq_some_iff.mp user).2
    rw [Bool.and_eq_true] at live
    rcases kept.shut handle before stream there with sent | gone
    · rw [adds.owes owes] at sent
      cases sent
    · rw [live.1] at gone
      cases gone
  -- The Fin that falls due is not among the pushes.
  rw [carried, frames', nothing, List.append_nil, frames, if_neg fresh, List.append_nil,
    if_pos (fins.mpr (Or.inr owes))] at given
  have member : (⟨other.streamId, .fin, []⟩ : Frame) ∈
      pushes.map ((⟨stream.streamId, .psh, ·⟩) : Bytes → Frame) := by
    rw [given]
    exact List.mem_append_right _ (List.mem_singleton.mpr rfl)
  obtain ⟨bytes, -, different⟩ := List.mem_map.mp member
  have same : Command.psh = Command.fin := congrArg Frame.cmd different
  cases same

end Step

/-- What the TCP streams of a client session accept reaches `write_with_padding`
in exactly the runs in which the write loop ends with none of their frames left
and no Fin finds the queue full. -/
theorem written_iff (idle : Bool) (settings : Bytes) (events : List Session.Event)
    (final : Ledger) (ran : Machine.run step (start idle settings) events = some final) :
    Machine.Throughout step Delivers (start idle settings) events ↔
      Machine.Within step EndsClear (start idle settings) events := by
  apply Machine.throughout_iff_within (Kept idle) Delivers
  · intro ledger event next kept ends taken
    exact kept.step ends taken
  · intro ledger event next kept _ taken
    constructor
    · intro delivers
      refine ⟨kept.clear_of_delivers taken delivers, fun owes => ?_⟩
      cases event with
      | drop handle => exact kept.room_of_delivers taken delivers rfl owes
      | _ => cases owes
    · intro ends
      exact (kept.step ends taken).carries
  · exact kept_start idle settings
  · exact (kept_start idle settings).carries
  · exact ran

def connected : List Session.Event :=
  [.connect false (.ip (.v4 ⟨192, 0, 2, 1⟩ 443)), .connectSend 0, .connectSend 0,
    .take, .take, .take, .flush true]

def drainedThenClosed : List Session.Event :=
  connected ++ [.write 0 [7], .drop 0, .take, .take, .flush true, .writeCloser]

theorem written_drained :
    ∃ final, Machine.run step (start true []) drainedThenClosed = some final ∧
      Machine.Throughout step Delivers (start true []) drainedThenClosed := by
  refine ⟨_, rfl, ?_⟩
  exact (written_iff true [] drainedThenClosed _ rfl).mpr (by decide)

def writtenThenClosed : List Session.Event :=
  connected ++ [.write 0 [7], .drop 0, .writeCloser]

/-- The drop of the last stream finishes the session, and the write loop selects
its `closer` before what is in the queue. -/
theorem drop_loses_written :
    ∃ final, Machine.run step (start true []) writtenThenClosed = some final ∧
      final.session.failed = false ∧ final.session.isWriting = false ∧
        final.acceptedBy 0 = [7] ∧ final.handed.by 0 = [] ∧ ¬final.Delivers := by
  refine ⟨_, rfl, rfl, rfl, rfl, rfl, fun delivers => ?_⟩
  obtain ⟨pushes, -, frames⟩ := delivers 0 _ rfl rfl
  exact absurd (List.append_eq_nil_iff.mp frames.symm).2 nofun

end Ledger

end QuicProxy
