import QuicProxy.Data.Machine
import QuicProxy.Data.Pool
import QuicProxy.Proxy.Anytls.Padding

namespace QuicProxy

/-! Which policy each write of an AnyTLS client session is padded with: both
loops of the session count packets (`src/proxy/outbound/anytls.rs`). -/

namespace PaddingScheme

theorem parseLines_stopAt {stopAt : Nat} {policies : List (Nat × List PaddingEntry)}
    {lines : List (List Char)} {result : Nat × List (Nat × List PaddingEntry)}
    (bound : stopAt < 2 ^ 32) (parsed : parseLines stopAt policies lines = .ok result) :
    result.1 < 2 ^ 32 := by
  fun_induction parseLines stopAt policies lines with
  | case1 =>
      cases parsed
      exact bound
  | case2 stopAt policies line rest _ ih => exact ih bound parsed
  | case3 => cases parsed
  | case4 stopAt policies line rest key value _ _ stop number ih =>
      exact ih (parseUnsigned_lt number) parsed
  | case5 stopAt policies line rest key value _ _ _ ih => exact ih bound parsed
  | case6 => cases parsed
  | case7 stopAt policies line rest key value _ _ pktIdx _ entries _ ih => exact ih bound parsed

theorem stopAt_of_parse {md5Hex : Bytes → String} {raw : Bytes} {scheme : PaddingScheme}
    (parsed : parse md5Hex raw = .ok scheme) : scheme.stopAt < 2 ^ 32 := by
  unfold parse at parsed
  split at parsed
  · cases parsed
  · split at parsed
    · cases parsed
    · next lines =>
        cases parsed
        exact parseLines_stopAt (by omega) lines

end PaddingScheme

/-- A call of `write_with_padding`: the scheme and the random numbers it used and
what it gives to the transport, `none` when it panics. -/
structure PaddedWrite where
  scheme : PaddingScheme
  draws : Nat → Nat
  data : Bytes
  written : Option Bytes

inductive ReadRound where
  | reading
  /-- The frame has been handled and is not counted yet. -/
  | handled
  | returned

inductive WriteRound where
  | waiting
  /-- The packet has its number, the scheme is not locked yet. -/
  | numbered (pkt : Nat) (data : Bytes)
  | returned

/-- A client session as far as its padding goes, with the calls of
`write_with_padding` so far. -/
structure PaddedSession where
  padding : SessionPadding
  readLoop : ReadRound
  writeLoop : WriteRound
  writes : List PaddedWrite

namespace PaddedSession

inductive Event where
  | frame (cmd : Command) (data : Bytes)
  | count
  /-- The read loop ends by an error or the closer. -/
  | readEnd
  /-- Another session of the client has received a scheme. -/
  | update (raw : Bytes)
  | write (data : Bytes)
  | shape (draws : Nat → Nat) (ok : Bool)
  /-- The write loop ends at its channel or the closer. -/
  | writeEnd

/-- `Session::new`; packet 0 is the authentication. -/
def start (scheme : PaddingScheme) : PaddedSession :=
  ⟨⟨true, 1, scheme⟩, .reading, .waiting, []⟩

variable (md5Hex : Bytes → String)

def updateScheme (session : PaddedSession) (raw : Bytes) : PaddedSession :=
  match PaddingScheme.parse md5Hex raw with
  | .ok scheme => { session with padding.paddingScheme := scheme }
  | .error _ => session

/-- One round of `read_loop` up to its end, where the frame is counted. -/
def readFrame (session : PaddedSession) (cmd : Command) (data : Bytes) : PaddedSession :=
  match cmd with
  | .alert => { session with readLoop := .returned }
  | .updatePaddingScheme => { session.updateScheme md5Hex data with readLoop := .handled }
  | _ => { session with readLoop := .handled }

def step (session : PaddedSession) : Event → Option PaddedSession
  | .frame cmd data =>
      match session.readLoop with
      | .reading => some (session.readFrame md5Hex cmd data)
      | _ => none
  | .count =>
      match session.readLoop with
      | .handled => some { session with padding := session.padding.number, readLoop := .reading }
      | _ => none
  | .readEnd => some { session with readLoop := .returned }
  | .update raw => some (session.updateScheme md5Hex raw)
  | .write data =>
      match session.writeLoop with
      | .waiting =>
          if session.padding.sendPadding then
            some { session with
              padding := session.padding.number
              writeLoop := .numbered session.padding.packetCount data }
          else
            some { session with
              writes := session.writes ++ [⟨session.padding.paddingScheme, id, data, some data⟩] }
      | _ => none
  | .shape draws ok =>
      match session.writeLoop with
      | .numbered pkt data =>
          match session.padding.shape pkt draws data with
          | (written, padding) =>
              some { session with
                padding
                writeLoop := if ok && written.isSome then .waiting else .returned
                writes := session.writes ++
                  [⟨session.padding.paddingScheme, draws, data, written⟩] }
      | _ => none
  | .writeEnd =>
      match session.writeLoop with
      | .waiting => some { session with writeLoop := .returned }
      | _ => none

/-- No write up to this one has an index that its scheme stops at; the first
write has index 1. -/
def Padded (writes : List PaddedWrite) (index : Nat) : Prop :=
  ∀ earlier ≤ index, ∀ write, writes[earlier]? = some write → earlier + 1 < write.scheme.stopAt

/-- Each write takes the policy of its own index, until the first one whose
index is not below `stop_at`. -/
def FollowsScheme (writes : List PaddedWrite) : Prop :=
  ∀ index write, writes[index]? = some write →
    (Padded writes index → write.written = writeRecords
      (write.scheme.generateRecordPayloadSizes (index + 1) write.draws) write.data) ∧
    (¬Padded writes index → write.written = some write.data)

/-- A frame is counted only when padding has stopped. -/
def CountsWrites (session : PaddedSession) : Event → Prop
  | .count => session.padding.sendPadding = false
  | _ => True

instance (session : PaddedSession) : (event : Event) → Decidable (session.CountsWrites event)
  | .count => inferInstanceAs (Decidable (_ = false))
  | .frame _ _ | .readEnd | .update _ | .write _ | .shape _ _ | .writeEnd =>
      inferInstanceAs (Decidable True)

def AllPadded (writes : List PaddedWrite) : Prop :=
  ∀ index write, writes[index]? = some write → index + 1 < write.scheme.stopAt

theorem padded_concat_of_lt {writes : List PaddedWrite} {last : PaddedWrite} {index : Nat}
    (inside : index < writes.length) : Padded (writes ++ [last]) index ↔ Padded writes index := by
  refine forall_congr' fun earlier => forall_congr' fun below => forall_congr' fun write => ?_
  rw [List.getElem?_append_left (by omega)]

theorem padded_concat_last {writes : List PaddedWrite} {last : PaddedWrite} :
    Padded (writes ++ [last]) writes.length ↔
      AllPadded writes ∧ writes.length + 1 < last.scheme.stopAt := by
  constructor
  · intro padded
    refine ⟨fun index write found => ?_, padded _ (Nat.le_refl _) last List.getElem?_concat_length⟩
    have inside := (List.getElem?_eq_some_iff.mp found).1
    exact padded index (Nat.le_of_lt inside) write (Pool.getElem?_start found)
  · rintro ⟨all, fits⟩ earlier below write found
    rcases Pool.getElem?_concat_cases found with found | ⟨rfl, rfl⟩
    · exact all earlier write found
    · exact fits

theorem FollowsScheme.concat {writes : List PaddedWrite} {last : PaddedWrite}
    (follows : FollowsScheme writes)
    (shaped : AllPadded writes → writes.length + 1 < last.scheme.stopAt →
      last.written = writeRecords
        (last.scheme.generateRecordPayloadSizes (writes.length + 1) last.draws) last.data)
    (plain : ¬(AllPadded writes ∧ writes.length + 1 < last.scheme.stopAt) →
      last.written = some last.data) : FollowsScheme (writes ++ [last]) := by
  intro index write found
  rcases Pool.getElem?_concat_cases found with earlier | ⟨rfl, rfl⟩
  · rw [padded_concat_of_lt (List.getElem?_eq_some_iff.mp earlier).1]
    exact follows index write earlier
  · rw [padded_concat_last]
    exact ⟨fun both => shaped both.1 both.2, plain⟩

/-! The invariant: while padding is on, the counter is the index of the next
write. -/

def OnIndex (session : PaddedSession) : Prop :=
  match session.writeLoop with
  | .waiting => session.padding.packetCount = session.writes.length + 1
  | .numbered pkt _ => pkt = session.writes.length + 1 ∧
      session.padding.packetCount = session.writes.length + 2
  | .returned => True

structure Sound (session : PaddedSession) : Prop where
  follows : FollowsScheme session.writes
  schemes : ∀ write ∈ session.writes, write.scheme.stopAt < 2 ^ 32
  scheme : session.padding.paddingScheme.stopAt < 2 ^ 32
  sending : session.padding.sendPadding = true → AllPadded session.writes ∧ session.OnIndex
  stopped : session.padding.sendPadding = false → ¬AllPadded session.writes
  numbered : ∀ pkt data, session.writeLoop = .numbered pkt data →
    session.padding.sendPadding = true

theorem sound_start {scheme : PaddingScheme} (bound : scheme.stopAt < 2 ^ 32) :
    Sound (start scheme) where
  follows := nofun
  schemes := nofun
  scheme := bound
  sending := fun _ => ⟨nofun, rfl⟩
  stopped := nofun
  numbered := nofun

variable {md5Hex} {session next : PaddedSession} {event : Event}

theorem Sound.few (sound : session.Sound) (all : AllPadded session.writes) :
    session.writes.length < 2 ^ 32 := by
  by_contra many
  have last : session.writes.length - 1 < session.writes.length := by omega
  have found := List.getElem?_eq_getElem last
  have below := all _ _ found
  have bound := sound.schemes _ (List.getElem_mem last)
  omega

/-- The padding of a session is what the invariant is about, and not its read loop. -/
theorem Sound.of_same (sound : session.Sound) (padding : next.padding = session.padding)
    (writeLoop : next.writeLoop = session.writeLoop) (writes : next.writes = session.writes) :
    next.Sound := by
  obtain ⟨_, _, _, _⟩ := next
  cases padding
  cases writeLoop
  cases writes
  exact ⟨sound.follows, sound.schemes, sound.scheme, sound.sending, sound.stopped, sound.numbered⟩

theorem Sound.updateScheme (sound : session.Sound) (raw : Bytes) :
    (session.updateScheme md5Hex raw).Sound := by
  unfold PaddedSession.updateScheme
  split
  · next scheme parsed =>
      exact ⟨sound.follows, sound.schemes, PaddingScheme.stopAt_of_parse parsed, sound.sending,
        sound.stopped, sound.numbered⟩
  · exact sound

theorem Sound.readFrame (sound : session.Sound) (cmd : Command) (data : Bytes) :
    (session.readFrame md5Hex cmd data).Sound := by
  unfold PaddedSession.readFrame
  split
  · exact sound.of_same rfl rfl rfl
  · exact (sound.updateScheme data).of_same rfl rfl rfl
  · exact sound.of_same rfl rfl rfl

theorem Sound.ended (sound : session.Sound) :
    ({ session with writeLoop := .returned } : PaddedSession).Sound :=
  ⟨sound.follows, sound.schemes, sound.scheme, fun sends => ⟨(sound.sending sends).1, trivial⟩,
    sound.stopped, nofun⟩

theorem Sound.number (sound : session.Sound) (data : Bytes)
    (sends : session.padding.sendPadding = true) (waiting : session.writeLoop = .waiting) :
    ({ session with
      padding := session.padding.number
      writeLoop := .numbered session.padding.packetCount data } : PaddedSession).Sound := by
  obtain ⟨all, onIndex⟩ := sound.sending sends
  have few := sound.few all
  rw [OnIndex, waiting] at onIndex
  refine ⟨sound.follows, sound.schemes, sound.scheme, fun _ => ⟨all, onIndex, ?_⟩, ?_,
    fun _ _ _ => sends⟩
  · change (session.padding.packetCount + 1) % 2 ^ 64 = session.writes.length + 2
    rw [onIndex, Nat.mod_eq_of_lt (by omega)]
  · exact fun off => absurd (sends.symm.trans off) nofun

theorem Sound.plain (sound : session.Sound) (data : Bytes)
    (off : session.padding.sendPadding = false) :
    ({ session with
      writes := session.writes ++ [⟨session.padding.paddingScheme, id, data, some data⟩] } :
        PaddedSession).Sound := by
  have stopped := sound.stopped off
  refine ⟨sound.follows.concat (fun all => absurd all stopped) fun _ => rfl, ?_, sound.scheme,
    fun sends => absurd (sends.symm.trans off) nofun, fun _ all => ?_, sound.numbered⟩
  · intro write member
    rcases List.mem_append.mp member with earlier | last
    · exact sound.schemes write earlier
    · rw [List.mem_singleton.mp last]
      exact sound.scheme
  · exact stopped fun index write found => all index write (Pool.getElem?_start found)

theorem Sound.shape (sound : session.Sound) {pkt : Nat} {data : Bytes} (draws : Nat → Nat)
    (numbered : session.writeLoop = .numbered pkt data) (after : WriteRound)
    (done : after = .waiting ∨ after = .returned) :
    ({ session with
      padding := (session.padding.shape pkt draws data).2
      writeLoop := after
      writes := session.writes ++ [⟨session.padding.paddingScheme, draws, data,
        (session.padding.shape pkt draws data).1⟩] } : PaddedSession).Sound := by
  have sends := sound.numbered pkt data numbered
  obtain ⟨all, onIndex⟩ := sound.sending sends
  have few := sound.few all
  rw [OnIndex, numbered] at onIndex
  obtain ⟨rfl, counted⟩ := onIndex
  have schemes : ∀ write ∈ session.writes ++ [(⟨session.padding.paddingScheme, draws, data,
      (session.padding.shape (session.writes.length + 1) draws data).1⟩ : PaddedWrite)],
      write.scheme.stopAt < 2 ^ 32 := by
    intro write member
    rcases List.mem_append.mp member with earlier | last
    · exact sound.schemes write earlier
    · rw [List.mem_singleton.mp last]
      exact sound.scheme
  have idle : ∀ pkt data, after ≠ .numbered pkt data := by
    rintro pkt data rfl
    rcases done with same | same <;> cases same
  revert schemes
  unfold SessionPadding.shape
  split
  · next beyond =>
      -- The first index that is not below `stop_at`.
      intro schemes
      refine ⟨sound.follows.concat (fun _ fits => absurd fits (by simp only; omega)) fun _ => rfl,
        schemes, sound.scheme, nofun, fun _ every => ?_,
        fun pkt data same => absurd same (idle pkt data)⟩
      have last := every _ _ List.getElem?_concat_length
      simp only at last
      omega
  · next under =>
      intro schemes
      have small : (session.writes.length + 1) % 2 ^ 32 = session.writes.length + 1 := by
        have := sound.scheme
        exact Nat.mod_eq_of_lt (by omega)
      refine ⟨sound.follows.concat (fun _ _ => by simp only [small])
        fun other => absurd ⟨all, by simp only; omega⟩ other, schemes, sound.scheme,
        fun _ => ⟨fun index write found => ?_, ?_⟩, fun off => absurd (sends.symm.trans off) nofun,
        fun pkt data same => absurd same (idle pkt data)⟩
      · rcases Pool.getElem?_concat_cases found with earlier | ⟨rfl, rfl⟩
        · exact all index write earlier
        · simp only
          omega
      · rcases done with rfl | rfl
        · change session.padding.packetCount = (session.writes ++ [_]).length + 1
          rw [counted, List.length_append, List.length_singleton]
        · trivial

theorem Sound.step (sound : session.Sound) (counts : session.CountsWrites event)
    (taken : step md5Hex session event = some next) : next.Sound := by
  cases event with
  | frame cmd data =>
      simp only [PaddedSession.step] at taken
      split at taken
      · cases taken
        exact sound.readFrame cmd data
      · cases taken
  | count =>
      have off : session.padding.sendPadding = false := counts
      simp only [PaddedSession.step] at taken
      split at taken
      · cases taken
        exact ⟨sound.follows, sound.schemes, sound.scheme,
          fun sends => absurd (Eq.trans (Eq.symm sends) off) nofun, sound.stopped, sound.numbered⟩
      · cases taken
  | readEnd =>
      cases taken
      exact sound.of_same rfl rfl rfl
  | update raw =>
      cases taken
      exact sound.updateScheme raw
  | write data =>
      simp only [PaddedSession.step] at taken
      split at taken
      · next waiting =>
          split at taken
          · next sends =>
              cases taken
              exact sound.number data sends waiting
          · next off =>
              cases taken
              exact sound.plain data (Bool.eq_false_iff.mpr off)
      · cases taken
  | shape draws ok =>
      simp only [PaddedSession.step] at taken
      split at taken
      · next pkt data numbered =>
          cases taken
          refine sound.shape draws numbered _ ?_
          split
          · exact Or.inl rfl
          · exact Or.inr rfl
      · cases taken
  | writeEnd =>
      simp only [PaddedSession.step] at taken
      split at taken
      · cases taken
        exact sound.ended
      · cases taken

/-- In every run in which no frame is counted before padding has stopped. -/
theorem follows_scheme {raw : Bytes} {scheme : PaddingScheme} (events : List Event)
    (parsed : PaddingScheme.parse md5Hex raw = .ok scheme)
    (counts : Machine.Within (step md5Hex) CountsWrites (start scheme) events) :
    Machine.Throughout (step md5Hex) (fun session => FollowsScheme session.writes)
      (start scheme) events := by
  have sound : Machine.Throughout (step md5Hex) Sound (start scheme) events :=
    Machine.throughout_of_within Sound (fun sound counts taken => sound.step counts taken)
      (sound_start (PaddingScheme.stopAt_of_parse parsed)) counts
  exact Machine.throughout_mono (fun sound => sound.follows) sound

def twoPolicies : Bytes := asBytes "stop=2\n1=20-20"

def twoPoliciesScheme : PaddingScheme :=
  ⟨2, [(1, [.fixed 20 (by decide) (by decide)])], "", twoPolicies⟩

/-- The second write is the one that stops padding; what the server sends after
it is counted. -/
theorem follows_scheme_stopped :
    Machine.Throughout (step fun _ => "") (fun session => FollowsScheme session.writes)
      (start twoPoliciesScheme)
      [.write [1], .shape id true, .write [2], .shape id true,
        .frame .serverSettings (asBytes "v=2"), .count, .write [3]] := by
  have parsed : PaddingScheme.parse (fun _ => "") twoPolicies = .ok twoPoliciesScheme := by decide
  exact follows_scheme _ parsed (by decide)

/-- The server's settings come before the first write, which is then padded as
the second one. -/
theorem frame_shifts_policy :
    PaddingScheme.parse (fun _ => "") twoPolicies = .ok twoPoliciesScheme ∧
      ∃ final, Machine.run (step fun _ => "") (start twoPoliciesScheme)
        [.frame .serverSettings (asBytes "v=2"), .count, .write [1], .shape id true] = some final ∧
          ¬FollowsScheme final.writes := by
  refine ⟨by decide, _, rfl, fun follows => ?_⟩
  have first := (follows 0 _ rfl).1 fun earlier below write found => by
    obtain rfl : earlier = 0 := Nat.le_zero.mp below
    cases found
    decide
  exact absurd first (by decide)

end PaddedSession

end QuicProxy
