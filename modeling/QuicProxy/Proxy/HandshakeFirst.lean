import QuicProxy.Proxy.Hysteria2.TcpStream
import QuicProxy.Proxy.LazyHandshake

namespace QuicProxy

open Hysteria2 (Hy2TcpStream ResponseReader)

/-! The two adapters that send their request with the first bytes of the user, in
every run over every stream under them. -/

variable {State : Type}

/-- The request goes out once and before the bytes of the user, and what is
reported as accepted has been written. -/
theorem handshake_once (io : AsyncWrite State) (state : State) (reads : List PollRead)
    (handshake : Bytes) (calls : List PollCall) :
    Machine.Throughout (Polled.step (LazyHandshakeStream.poll io))
        (fun polled =>
          PrefixOnce handshake polled.adapter.stream polled.accepted polled.last)
        (Polled.start (LazyHandshakeStream.new (.opened state) reads handshake)) calls ∧
      Machine.Throughout (Polled.step (Hy2TcpStream.poll io))
        (fun polled => PrefixOnce handshake polled.adapter.send polled.accepted polled.last)
        (Polled.start (Hy2TcpStream.new (.opened state) reads handshake)) calls := by
  constructor
  · have led := LazyHandshakeStream.isLed_start io state reads handshake
    exact Headed.once_throughout (LazyHandshakeStream.sound io handshake) calls led rfl
  · have led := Hy2TcpStream.isLed_start io state reads handshake
    exact Headed.once_throughout (Hy2TcpStream.sound io handshake) calls led rfl

/-- No answer passes the request over in exactly the runs of
`LazyHandshakeStream` whose calls do not, and in those of `Hy2TcpStream`. -/
theorem handshake_not_withheld (io : AsyncWrite State) (state : State)
    (reads : List PollRead) (handshake : Bytes) (calls : List PollCall) :
    (Machine.Throughout (Polled.step (LazyHandshakeStream.poll io))
        (fun polled => NotWithheld handshake polled.adapter.stream polled.last)
        (Polled.start (LazyHandshakeStream.new (.opened state) reads handshake)) calls ↔
      Machine.Within (Polled.step (LazyHandshakeStream.poll io)) (LazyHandshakeStream.Prompt io)
        (Polled.start (LazyHandshakeStream.new (.opened state) reads handshake)) calls) ∧
    (Machine.Within (Polled.step (Hy2TcpStream.poll io)) (Hy2TcpStream.Prompt io)
        (Polled.start (Hy2TcpStream.new (.opened state) reads handshake)) calls →
      Machine.Throughout (Polled.step (Hy2TcpStream.poll io))
        (fun polled => NotWithheld handshake polled.adapter.send polled.last)
        (Polled.start (Hy2TcpStream.new (.opened state) reads handshake)) calls) := by
  constructor
  · have led := LazyHandshakeStream.isLed_start io state reads handshake
    have shows :=
      Headed.shows_throughout_iff (LazyHandshakeStream.sound io handshake) calls led rfl
    refine shows.trans ⟨fun honest => ?_, fun prompt => ?_⟩
    · exact Machine.within_mono (LazyHandshakeStream.honest_iff_prompt io _ _).mp honest
    · exact Machine.within_mono (LazyHandshakeStream.honest_iff_prompt io _ _).mpr prompt
  · intro prompt
    have led := Hy2TcpStream.isLed_start io state reads handshake
    have shows := Headed.shows_throughout_iff (Hy2TcpStream.sound io handshake) calls led rfl
    exact shows.mpr (Machine.within_mono (Hy2TcpStream.honest_of_prompt io) prompt)

def takesAll : AsyncWrite Unit where
  pollWrite := fun _ buf => (.ready (.ok (Fin.last buf.length)), ())
  pollWriteVectored := fun _ bufs => (.ready (.ok (Fin.last bufs.flatten.length)), ())
  pollFlush := fun _ => (.ready (.ok ()), ())
  pollShutdown := fun _ => (.ready (.ok ()), ())

theorem handshake_not_withheld_after_write :
    Machine.Throughout (Polled.step (Hy2TcpStream.poll takesAll))
      (fun polled => NotWithheld [5] polled.adapter.send polled.last)
      (Polled.start (Hy2TcpStream.new (.opened ()) [] [5])) [.write [7], .flush, .read 1] := by
  refine (handshake_not_withheld takesAll () [] [5] [.write [7], .flush, .read 1]).2 ?_
  have request : Hy2TcpStream.writeRequest takesAll (.opened ()) [5] [7] =
      (.ready (.ok 1), none, ⟨(), [.write [5, 7] 2]⟩) := by
    rw [Hy2TcpStream.writeRequest]
    rfl
  have first : Polled.step (Hy2TcpStream.poll takesAll)
      (Polled.start (Hy2TcpStream.new (.opened ()) [] [5])) (.write [7]) =
        some ⟨⟨⟨(), [.write [5, 7] 2]⟩, [], none, .new⟩, [7], some (.wrote (.ready (.ok 1)))⟩ := by
    simp only [Polled.step, Polled.start, Hy2TcpStream.poll, Hy2TcpStream.pollWrite,
      Hy2TcpStream.new, request]
    rfl
  rw [Machine.within_cons_iff first]
  refine ⟨trivial, rfl, fun next flushed => ?_⟩
  cases flushed
  exact ⟨Or.inl rfl, fun _ _ => trivial⟩

/-- A half-close or a read before the first write leaves the request unsent, as
does the flush of `Hy2TcpStream`. -/
theorem handshake_withheld :
    (¬ Machine.Throughout (Polled.step (LazyHandshakeStream.poll takesAll))
        (fun polled => NotWithheld [5] polled.adapter.stream polled.last)
        (Polled.start (LazyHandshakeStream.new (.opened ()) [] [5])) [.shutdown]) ∧
      (¬ Machine.Throughout (Polled.step (LazyHandshakeStream.poll takesAll))
        (fun polled => NotWithheld [5] polled.adapter.stream polled.last)
        (Polled.start (LazyHandshakeStream.new (.opened ()) [] [5])) [.read 1]) ∧
      (¬ Machine.Throughout (Polled.step (Hy2TcpStream.poll takesAll))
        (fun polled => NotWithheld [5] polled.adapter.send polled.last)
        (Polled.start (Hy2TcpStream.new (.opened ()) [] [5])) [.flush]) ∧
      (¬ Machine.Throughout (Polled.step (Hy2TcpStream.poll takesAll))
        (fun polled => NotWithheld [5] polled.adapter.send polled.last)
        (Polled.start (Hy2TcpStream.new (.opened ()) [] [5])) [.shutdown]) ∧
      (¬ Machine.Throughout (Polled.step (Hy2TcpStream.poll takesAll))
        (fun polled => NotWithheld [5] polled.adapter.send polled.last)
        (Polled.start (Hy2TcpStream.new (.opened ()) [] [5])) [.read 1]) := by
  refine ⟨fun shows => ?_, fun shows => ?_, fun shows => ?_, fun shows => ?_, fun shows => ?_⟩
  · have out := (shows.final rfl).shutdown rfl
    exact absurd out.length_le (by decide)
  · exact absurd ((shows.final rfl).read rfl) (by decide)
  · have out := (shows.final rfl).flush rfl
    exact absurd out.length_le (by decide)
  · have out := (shows.final rfl).shutdown rfl
    exact absurd out.length_le (by decide)
  · have waits : (Hy2TcpStream.new (.opened ()) [] [5]).pollRead 1 =
        (.pending, Hy2TcpStream.new (.opened ()) [] [5]) := by
      simp only [Hy2TcpStream.pollRead, Hy2TcpStream.new, ResponseReader.new]
      rw [Hy2TcpStream.pollResponse, ResponseReader.parseStep]
      rfl
    have offered := (shows.final rfl).read (congrArg (some ∘ PollAnswer.read ∘ Prod.fst) waits)
    change ((Hy2TcpStream.new (.opened ()) [] [5]).pollRead 1).2.send.offered = true at offered
    rw [waits] at offered
    exact absurd offered (by decide)

end QuicProxy
