import EventRelay.Proofs.Lasting
import EventRelay.Proofs.Playing

/-!
# The transitions of a stream

What a stream plays and whether it plays make up its mode. A request moves a stream to the mode
that the table of transitions has for it, or, if its replay thereby runs and is at its end at once,
one step further: a forward replay goes live and a reverse one stops. By itself, when a timer goes
off or somebody joins, a stream takes that last step only.
-/

namespace EventRelay

/-! ## The table -/

inductive Mode where
  | liveStopped | livePlaying | replayStopped | replayPlaying
  deriving DecidableEq

def Stream.mode (s : Stream) : Mode :=
  match s.live, s.playing with
  | true, false => .liveStopped
  | true, true => .livePlaying
  | false, false => .replayStopped
  | false, true => .replayPlaying

/-- A request to a stream. -/
inductive Control where
  | start | stop
  | seek (position : Position)
  | speed (speed : Binary32)

/-- The table of transitions, for a stream whose replay has this speed. A request for a speed finds
its entry here if the speed can be set. -/
def Mode.entry (speed : Binary32) : Mode → Control → Mode
  | liveStopped, .start => livePlaying
  | liveStopped, .stop => liveStopped
  | liveStopped, .seek (.time _) => replayStopped
  | liveStopped, .seek .eof => liveStopped
  | liveStopped, .speed x => if x.isAtLeastOne then liveStopped else replayStopped
  | livePlaying, .start => livePlaying
  | livePlaying, .stop => liveStopped
  | livePlaying, .seek (.time _) => replayPlaying
  | livePlaying, .seek .eof => livePlaying
  | livePlaying, .speed x => if x.isAtLeastOne then livePlaying else replayPlaying
  | replayStopped, .start => replayPlaying
  | replayStopped, .stop => replayStopped
  | replayStopped, .seek (.time _) => replayStopped
  | replayStopped, .seek .eof => liveStopped
  | replayStopped, .speed _ => replayStopped
  | replayPlaying, .start => replayPlaying
  | replayPlaying, .stop => replayStopped
  | replayPlaying, .seek (.time _) => replayPlaying
  | replayPlaying, .seek .eof => if speed.isNegative then replayPlaying else livePlaying
  | replayPlaying, .speed _ => replayPlaying

/-- The mode that a request is to lead to: a speed of zero stops, and what is not a finite number is
not taken for a speed. -/
def Mode.target (speed : Binary32) (mode : Mode) : Control → Mode
  | .speed x =>
    if x.isZero then mode.entry speed .stop
    else if x.isFinite then mode.entry speed (.speed x)
    else mode
  | request => mode.entry speed request

theorem Stream.mode_eq_iff {s : Stream} {m : Mode} : s.mode = m ↔
    match m with
    | .liveStopped => s.live = true ∧ s.playing = false
    | .livePlaying => s.live = true ∧ s.playing = true
    | .replayStopped => s.live = false ∧ s.playing = false
    | .replayPlaying => s.live = false ∧ s.playing = true := by
  unfold mode
  cases m <;> cases s.live <;> cases s.playing <;> simp

/-! ## The end of history -/

/-- Greater than zero. -/
def Binary32.isPositive (x : Binary32) : Bool := !x.signed && !x.isZero && !x.isNaN

/-- The replay is paused with nothing at hand, and the fetch that this calls for brings nothing or
fails. -/
structure Replay.Ended (r : Replay) (config : ReplayConfig) (archive : Archive) : Prop where
  paused : r.running = false
  buffer : r.buffer = []
  fetch : ∀ events cursor,
    r.cursor.fetch archive r.direction config.bufferSize = .ok (events, cursor) → events = []

/-- A fetch that brings nothing leaves the cursor where it is. -/
theorem Cursor.eq_of_fetch_nil {c after : Cursor} {archive : Archive} {d : Direction} {size : Nat}
    (fetched : c.fetch archive d size = .ok ([], after)) : after = c := by
  unfold Cursor.fetch at fetched
  split at fetched
  · cases fetched
  · simp only [Except.ok.injEq, Prod.mk.injEq] at fetched
    rw [fetched.1] at fetched
    exact fetched.2.symm

namespace Replay

variable {r : Replay} {config : ReplayConfig} {archive : Archive}

theorem isPositive_of_forward (speed : acceptsSpeed r.speed = true)
    (forward : r.direction = .forward) : r.speed.isPositive = true := by
  rw [direction, Direction.ofSpeed] at forward
  split_ifs at forward with negative
  simp only [acceptsSpeed, Binary32.isFinite, Bool.and_eq_true, Bool.not_eq_true', bne_iff_ne]
    at speed
  simp only [Binary32.isNegative, Binary32.isNaN, beq_false_of_ne speed.2, speed.1] at negative
  simp only [Binary32.isPositive, Binary32.isNaN, beq_false_of_ne speed.2, speed.1]
  simpa using negative

theorem forward_of_isPositive (positive : r.speed.isPositive = true) : r.direction = .forward := by
  simp only [Binary32.isPositive, Bool.and_eq_true, Bool.not_eq_true'] at positive
  rw [direction, Direction.ofSpeed, if_neg (by simp [Binary32.isNegative, positive.1.1])]

theorem isNegative_of_reverse (reverse : r.direction = .reverse) : r.speed.isNegative = true := by
  rw [direction, Direction.ofSpeed] at reverse
  split_ifs at reverse with negative
  exact negative

theorem isNegative_of_forward (forward : r.direction = .forward) : r.speed.isNegative = false := by
  rw [direction, Direction.ofSpeed] at forward
  split_ifs at forward with negative
  exact Bool.eq_false_of_not_eq_true negative

theorem Ended.pause (ended : r.Ended config archive) : r.pause.Ended config archive := by
  obtain ⟨hb, hc, hs⟩ := r.pause_fields
  refine ⟨r.not_running_pause, hb.trans ended.buffer, ?_⟩
  rw [hc, direction, hs]
  exact ended.fetch

/-- A replay with nothing at hand after it has looked is as it was before, and has nothing to
find. -/
theorem fill_nil (none : (r.fill config archive).buffer = []) : r.fill config archive = r ∧
    ∀ events cursor, r.cursor.fetch archive r.direction config.bufferSize = .ok (events, cursor) →
      events = [] := by
  unfold fill at none ⊢
  split_ifs at none ⊢ with empty
  · split at none
    · next events cursor fetched =>
      obtain rfl : events = [] := none
      obtain rfl := Cursor.eq_of_fetch_nil fetched
      refine ⟨?_, fun events cursor again => ?_⟩
      · rw [← empty]
      · cases fetched.symm.trans again
        rfl
    · next failed =>
      rw [failed]
      exact ⟨rfl, nofun⟩
  · exact absurd none empty

theorem proceed_exhausted_iff {now : Instant} :
    (r.proceed config archive now).2 = .exhausted ↔ r.buffer = [] ∧ ∀ events cursor,
      r.cursor.fetch archive r.direction config.bufferSize = .ok (events, cursor) →
        events = [] := by
  rw [proceed, (schedule_spec now (r.fill config archive)).2.2.2.2.2]
  constructor
  · intro empty
    obtain ⟨same, unfetched⟩ := fill_nil empty
    exact ⟨same ▸ empty, unfetched⟩
  · rintro ⟨empty, unfetched⟩
    rw [fill, if_pos empty]
    split
    · next events cursor fetched => exact unfetched events cursor fetched
    · exact empty

/-- A replay that is exhausted is paused where it is. -/
theorem proceed_exhausted {now : Instant}
    (exhausted : (r.proceed config archive now).2 = .exhausted) :
    (r.proceed config archive now).1 = { r with running := false, timer := none } ∧
      (r.proceed config archive now).1.Ended config archive := by
  have empty := (schedule_spec now (r.fill config archive)).2.2.2.2.2.1 exhausted
  obtain ⟨same, unfetched⟩ := fill_nil empty
  rw [same] at empty
  have paused : (r.proceed config archive now).1 = { r with running := false, timer := none } := by
    simp only [proceed, same, schedule, scheduleBy, empty]
  exact ⟨paused, paused ▸ ⟨rfl, empty, unfetched⟩⟩

theorem run_exhausted_iff {now : Instant} : (r.run config archive now).2 = .exhausted ↔
    (r.running && r.timer.isSome) = false ∧ (r.proceed config archive now).2 = .exhausted := by
  unfold run
  split_ifs with pending
  · simp [pending]
  · simp [Bool.eq_false_of_not_eq_true pending]

theorem run_exhausted {now : Instant} (exhausted : (r.run config archive now).2 = .exhausted) :
    (r.run config archive now).1 = { r with running := false, timer := none } ∧
      (r.run config archive now).1.Ended config archive := by
  unfold run at exhausted ⊢
  split_ifs at exhausted ⊢
  exact proceed_exhausted exhausted

theorem permanent_speed (config : ReplayConfig) (archive : Archive) :
    Permanent config archive fun r => acceptsSpeed r.speed = true where
  start := by decide
  seek r hs now p := speed_seek.symm ▸ hs
  setSpeed r _ now x accepted := speed_setSpeed.symm ▸ accepted
  pause r hs := r.pause_fields.2.2.symm ▸ hs
  takeDue r hs := by
    obtain ⟨due, rest, -, hdue, -⟩ := takeDue_eq config r
    rw [hdue]
    exact hs
  proceed r hs now := (speed_proceed config now r).symm ▸ hs

end Replay

namespace Hub

def control (h : Hub) (i : StreamId) : Control → Hub
  | .start => h.startStream i
  | .stop => h.stopStream i
  | .seek p => h.seekStream i p
  | .speed x => (h.setSpeed i x).1

section Control

variable {h : Hub} {i : StreamId}

theorem confined_control (request : Control) : Confined i h (h.control i request) := by
  cases request with
  | start => exact confined_startStream h i
  | stop => exact confined_stopStream h i
  | seek p => exact confined_seekStream h i p
  | speed x => exact confined_setSpeed h i x

theorem silent_control (request : Control) : Silent i h (h.control i request) := by
  cases request with
  | start => exact silent_startStream
  | stop => exact silent_stopStream
  | seek p => exact silent_seekStream p
  | speed x => exact silent_setSpeed x

theorem steady_control (hi : h.Steady i) (request : Control) : (h.control i request).Steady i := by
  cases request with
  | start => exact steady_startStream hi
  | stop => exact steady_stopStream hi
  | seek p => exact steady_seekStream hi p
  | speed x => exact steady_setSpeed hi x

end Control

/-- What is not a finite number is refused, and nothing changes. -/
theorem setSpeed_of_infinite {x : Binary32} (infinite : x.isFinite = false) (h : Hub)
    (i : StreamId) : h.setSpeed i x = (h, false) := by
  have notZero : x.isZero = false := by
    simp only [Binary32.isFinite, bne_eq_false_iff_eq] at infinite
    simp [Binary32.isZero, infinite]
  rw [setSpeed, if_neg (by simp [notZero]), if_pos (by simp [Replay.acceptsSpeed, infinite])]

/-- A stream has come to this mode, or has come from it to the end of history and one step beyond:
live if it plays forwards, and to a stop if it plays backwards. -/
inductive Arrives (h : Hub) (i : StreamId) : Mode → Prop
  | there {mode : Mode} (same : (h.stream i).mode = mode) : Arrives h i mode
  | live (ended : (h.stream i).replay.Ended h.config h.archive)
      (forwards : (h.stream i).replay.speed.isPositive = true)
      (mode : (h.stream i).mode = .livePlaying) : Arrives h i .replayPlaying
  | stopped (ended : (h.stream i).replay.Ended h.config h.archive)
      (backwards : (h.stream i).replay.speed.isNegative = true)
      (mode : (h.stream i).mode = .replayStopped) : Arrives h i .replayPlaying

section Arrives

variable {h : Hub} {i : StreamId} (known : i < h.streams.length)
  (speed : Replay.acceptsSpeed (h.stream i).replay.speed = true)

include known speed

theorem arrives_handleExhausted (hm : (h.stream i).mode = .replayPlaying)
    (ended : (h.stream i).replay.Ended h.config h.archive) :
    (h.handleExhausted i).Arrives i .replayPlaying := by
  obtain ⟨replaying, playing⟩ := Stream.mode_eq_iff.1 hm
  unfold handleExhausted
  split
  · next forward =>
    have hs := stream_goLive known
    have confined := confined_goLive h i
    refine .live ?_ ?_ ?_
    · rw [hs, confined.config, confined.archive]
      exact ended.pause
    · rw [hs]
      dsimp only
      rw [(h.stream i).replay.pause_fields.2.2]
      exact Replay.isPositive_of_forward speed forward
    · rw [hs]
      exact Stream.mode_eq_iff.2 ⟨rfl, playing⟩
  · next reverse =>
    have hs := stream_modifyStream_self known fun s => { s with playing := false }
    refine .stopped ?_ ?_ ?_
    · rw [hs]
      exact ended
    · rw [hs]
      exact Replay.isNegative_of_reverse reverse
    · rw [hs]
      exact Stream.mode_eq_iff.2 ⟨replaying, rfl⟩

theorem arrives_runReplay (hm : (h.stream i).mode = .replayPlaying) :
    (h.runReplay i).Arrives i .replayPlaying := by
  unfold runReplay
  split_ifs
  · refine .there ?_
    rw [pauseReplay, stream_modifyReplay known]
    exact hm
  · have hs := stream_modifyReplay known fun r => (r.run h.config h.archive h.now).1
    dsimp only
    split
    · refine .there ?_
      rw [hs]
      exact hm
    · next exhausted =>
      refine arrives_handleExhausted ((confined_modifyReplay h i _).known known) ?_ ?_ ?_
      · rw [hs]
        exact (Replay.speed_run ..).symm ▸ speed
      · rw [hs]
        exact hm
      · rw [hs]
        exact (Replay.run_exhausted exhausted).2

/-- A stream that plays goes on with the live feed, or with its replay. -/
theorem arrives_play (playing : (h.stream i).playing = true) :
    (h.play i).Arrives i (h.stream i).mode := by
  unfold play
  split_ifs with live
  · refine .there ?_
    rw [(registerLive_eq h i).1]
  · have hm : (h.stream i).mode = .replayPlaying :=
      Stream.mode_eq_iff.2 ⟨Bool.eq_false_of_not_eq_true live, playing⟩
    rw [hm]
    exact arrives_runReplay known speed hm

/-! ### Requests -/

theorem arrives_startStream :
    (h.startStream i).Arrives i ((h.stream i).mode.entry (h.stream i).replay.speed .start) := by
  have hs : (h.setPlaying i true).stream i = { h.stream i with playing := true } :=
    stream_modifyStream_self known _
  unfold startStream
  split_ifs with playing
  · refine .there ?_
    rcases live : (h.stream i).live with _ | _ <;> simp [Stream.mode, Mode.entry, live, playing]
  · have started := arrives_play (h := h.setPlaying i true) (i := i)
      ((confined_setPlaying h i true).known known) (by rw [hs]; exact speed) (by rw [hs])
    have entry : (h.stream i).mode.entry (h.stream i).replay.speed .start =
        ((h.setPlaying i true).stream i).mode := by
      rw [hs]
      rcases live : (h.stream i).live with _ | _ <;> simp [Stream.mode, Mode.entry, live, playing]
    rw [entry]
    exact started

omit speed in
theorem mode_stopStream :
    ((h.stopStream i).stream i).mode = (h.stream i).mode.entry (h.stream i).replay.speed .stop := by
  have hs : (h.setPlaying i false).stream i = { h.stream i with playing := false } :=
    stream_modifyStream_self known _
  have known' := (confined_setPlaying h i false).known known
  have entry : (h.stream i).mode.entry (h.stream i).replay.speed .stop =
      ((h.setPlaying i false).stream i).mode := by
    rw [hs]
    rcases live : (h.stream i).live with _ | _ <;>
      rcases playing : (h.stream i).playing with _ | _ <;>
      simp [Stream.mode, Mode.entry, live, playing]
  rw [entry]
  unfold stopStream
  dsimp only
  split_ifs with stopped
  · rw [hs, Stream.mode, Stream.mode]
    simp at stopped
    simp [stopped]
  · have out := (confined_deregisterLive (h.setPlaying i false) i).known known'
    rw [seekReplay, stream_modifyReplay out, deregisterLive_stream]
    rfl
  · rw [pauseReplay, stream_modifyReplay known']
    rfl

theorem arrives_leaveLive (p : Position) : (h.leaveLive i p).Arrives i
    (if (h.stream i).playing then .replayPlaying else .replayStopped) := by
  have hs := stream_leaving known p
  have sought := (confined_setLive h i false).trans (confined_seekReplay _ i p)
  unfold leaveLive
  dsimp only
  rw [hs]
  dsimp only
  split_ifs with playing
  · have out := sought.trans (confined_deregisterLive _ i)
    refine arrives_runReplay (out.known known) ?_ ?_
    · rw [deregisterLive_stream, hs]
      exact Replay.speed_seek.symm ▸ speed
    · rw [deregisterLive_stream, hs]
      exact Stream.mode_eq_iff.2 ⟨rfl, playing⟩
  · refine .there ?_
    rw [hs]
    exact Stream.mode_eq_iff.2 ⟨rfl, Bool.eq_false_of_not_eq_true playing⟩

theorem arrives_seekStream (p : Position) : (h.seekStream i p).Arrives i
    ((h.stream i).mode.entry (h.stream i).replay.speed (.seek p)) := by
  have hs : (h.seekReplay i p).stream i =
      { h.stream i with replay := (h.stream i).replay.seek h.now p } := stream_modifyReplay known _
  have sought := confined_seekReplay h i p
  have runs (hm : (h.stream i).mode = .replayPlaying) :
      ((h.seekReplay i p).runReplay i).Arrives i .replayPlaying := by
    refine arrives_runReplay (sought.known known) ?_ ?_
    · rw [hs]
      exact Replay.speed_seek.symm ▸ speed
    · rw [hs]
      exact hm
  have left := arrives_leaveLive known speed p
  cases hm : (h.stream i).mode with
  | liveStopped =>
    obtain ⟨live, stopped⟩ := Stream.mode_eq_iff.1 hm
    simp only [stopped, Bool.false_eq_true, if_false] at left
    cases p with
    | eof => simpa only [seekStream, live, Mode.entry] using .there hm
    | time t => simpa only [seekStream, live, Mode.entry] using left
  | livePlaying =>
    obtain ⟨live, playing⟩ := Stream.mode_eq_iff.1 hm
    simp only [playing, if_true] at left
    cases p with
    | eof => simpa only [seekStream, live, Mode.entry] using .there hm
    | time t => simpa only [seekStream, live, Mode.entry] using left
  | replayStopped =>
    obtain ⟨replaying, stopped⟩ := Stream.mode_eq_iff.1 hm
    cases p with
    | eof =>
      simp only [seekStream, replaying, stopped, Bool.not_false, if_true, Mode.entry]
      refine .there ?_
      rw [setLive, stream_modifyStream_self (sought.known known), hs]
      exact Stream.mode_eq_iff.2 ⟨rfl, stopped⟩
    | time t =>
      simp only [seekStream, replaying, stopped, Bool.false_eq_true, if_false, Mode.entry]
      exact .there (hs ▸ hm)
  | replayPlaying =>
    obtain ⟨replaying, playing⟩ := Stream.mode_eq_iff.1 hm
    cases p with
    | eof =>
      simp only [seekStream, replaying, playing, Bool.not_true, Bool.false_eq_true, if_false,
        Mode.entry]
      split_ifs
      · exact runs hm
      · refine .there ?_
        rw [stream_goLive known]
        exact Stream.mode_eq_iff.2 ⟨rfl, playing⟩
    | time t => simpa only [seekStream, replaying, playing, if_true, Mode.entry] using runs hm

omit speed in
/-- A speed that can be set. The live feed keeps to its own pace, and slower than that there is only
history. -/
theorem arrives_setSpeed {x : Binary32} (some : x.isZero = false) (finite : x.isFinite = true) :
    (h.setSpeed i x).1.Arrives i
      ((h.stream i).mode.entry (h.stream i).replay.speed (.speed x)) := by
  have hs : (h.modifyReplay i (·.setSpeed h.now x)).stream i =
      { h.stream i with replay := (h.stream i).replay.setSpeed h.now x } :=
    stream_modifyReplay known _
  have paced := confined_modifyReplay h i (·.setSpeed h.now x)
  have known' := paced.known known
  have accepted : Replay.acceptsSpeed x = true := by simp [Replay.acceptsSpeed, some, finite]
  have speed' : Replay.acceptsSpeed
      ((h.modifyReplay i (·.setSpeed h.now x)).stream i).replay.speed = true := by
    rw [hs]
    exact Replay.speed_setSpeed.symm ▸ accepted
  have left := arrives_leaveLive known' speed' .eof
  have mode : ((h.modifyReplay i (·.setSpeed h.now x)).stream i).mode = (h.stream i).mode := by
    rw [hs]
    rfl
  rw [← mode, setSpeed, if_neg (by simp [some]), if_neg (by simp [accepted])]
  -- from here on the speed is set, and all is about what the stream plays with it
  generalize h.modifyReplay i (·.setSpeed h.now x) = m at known' speed' left ⊢
  dsimp only
  cases hm : (m.stream i).mode with
  | liveStopped =>
    obtain ⟨live, stopped⟩ := Stream.mode_eq_iff.1 hm
    simp only [stopped, Bool.false_eq_true, if_false] at left
    simp only [live, if_true, Mode.entry]
    split_ifs
    · exact .there hm
    · exact left
  | livePlaying =>
    obtain ⟨live, playing⟩ := Stream.mode_eq_iff.1 hm
    simp only [playing, if_true] at left
    simp only [live, if_true, Mode.entry]
    split_ifs
    · exact .there hm
    · exact left
  | replayStopped =>
    obtain ⟨replaying, stopped⟩ := Stream.mode_eq_iff.1 hm
    simp only [replaying, stopped, Bool.false_eq_true, if_false, Mode.entry]
    exact .there hm
  | replayPlaying =>
    obtain ⟨replaying, playing⟩ := Stream.mode_eq_iff.1 hm
    simp only [replaying, playing, Bool.false_eq_true, if_false, if_true, Mode.entry]
    exact arrives_runReplay known' speed' hm

theorem arrives_control (request : Control) : (h.control i request).Arrives i
    ((h.stream i).mode.target (h.stream i).replay.speed request) := by
  cases request with
  | start => exact arrives_startStream known speed
  | stop => exact .there (mode_stopStream known)
  | seek p => exact arrives_seekStream known speed p
  | speed x =>
    rw [control, Mode.target]
    split_ifs with zero finite
    · rw [setSpeed, if_pos zero]
      exact .there (mode_stopStream known)
    · exact arrives_setSpeed known (Bool.eq_false_of_not_eq_true zero) finite
    · rw [setSpeed_of_infinite (by simpa using finite)]
      exact .there rfl

/-! ### Without a request -/

omit speed in
theorem mode_idle : ((h.idle i).stream i).mode = (h.stream i).mode := by
  have leave (m : Hub) :
      (if (m.stream i).attached then m.unsubscribeIfIdle i else m).stream = m.stream := by
    unfold unsubscribeIfIdle
    split_ifs <;> rfl
  unfold idle
  dsimp only
  rw [leave]
  split_ifs
  · rfl
  · rw [pauseReplay, stream_modifyReplay known]
    rfl

omit speed in
theorem mode_send (batch : List Message) :
    ((h.send i batch).1.stream i).mode = (h.stream i).mode := by
  rw [stream_send known]
  rfl

omit speed in
theorem mode_deliver (events : List Message) :
    ((h.deliver i events).stream i).mode = (h.stream i).mode := by
  have known' := (confined_send h i events).known known
  unfold deliver
  dsimp only
  split_ifs
  · exact (mode_idle known').trans (mode_send known events)
  · exact mode_send known events

theorem arrives_resume (epoch : Nat) : (h.resume i epoch).Arrives i (h.stream i).mode := by
  have hs := stream_modifyReplay known fun r => (r.proceed h.config h.archive h.now).1
  have same : ((h.modifyReplay i fun r => (r.proceed h.config h.archive h.now).1).stream i).mode =
      (h.stream i).mode := by
    rw [hs]
    rfl
  unfold resume
  split_ifs
  · exact .there rfl
  split
  · exact .there same
  · next exhausted =>
    unfold replayExhausted
    dsimp only
    split_ifs with overtaken
    · exact .there same
    · simp only [Bool.or_eq_true, Bool.not_eq_true', not_or, Bool.not_eq_true,
        Bool.not_eq_false] at overtaken
      have hm := Stream.mode_eq_iff (m := .replayPlaying).2 overtaken.1
      rw [← same, hm]
      refine arrives_handleExhausted ((confined_modifyReplay h i _).known known) ?_ hm ?_
      · rw [hs]
        exact (Replay.speed_proceed ..).symm ▸ speed
      · rw [hs]
        exact (Replay.proceed_exhausted exhausted).2

theorem arrives_fire (epoch : Nat) : (h.fire i epoch).Arrives i (h.stream i).mode := by
  have hs := stream_modifyReplay known fun r => (r.takeDue h.config).1
  have confined := confined_modifyReplay h i fun r => (r.takeDue h.config).1
  have known' := confined.known known
  have taken := (Replay.permanent_speed h.config h.archive).takeDue _ speed
  have speed' : Replay.acceptsSpeed
      ((h.modifyReplay i fun r => (r.takeDue h.config).1).stream i).replay.speed = true := by
    rw [hs]
    exact taken
  have mode : ((h.modifyReplay i fun r => (r.takeDue h.config).1).stream i).mode =
      (h.stream i).mode := by
    rw [hs]
    rfl
  rw [fire_eq, ← mode]
  -- from here on all that matters is the stream after the events due are taken
  generalize (h.modifyReplay i fun r => (r.takeDue h.config).1) = m at mode known' speed' ⊢
  dsimp only
  split_ifs
  · exact .there mode.symm
  · exact arrives_resume known' speed' epoch
  · rw [← mode_deliver known' ((h.stream i).replay.takeDue h.config).2]
    exact arrives_resume ((confined_deliver m i _).known known')
      (lasting_deliver (Replay.permanent_speed m.config m.archive).toLasting _ speed') epoch

theorem arrives_addSubscriber (c : ConnId) :
    (h.addSubscriber i c).Arrives i (h.stream i).mode := by
  have resumed {m : Hub} (known : i < m.streams.length)
      (speed : Replay.acceptsSpeed (m.stream i).replay.speed = true) :
      (if (m.stream i).playing then m.play i else m).Arrives i (m.stream i).mode := by
    split_ifs with playing
    · exact arrives_play known speed playing
    · exact .there rfl
  by_cases joined : (h.audience i).contains c = true
  · rw [addSubscriber, if_pos joined]
    exact resumed known speed
  · have hs := stream_enrol_self known c
    have same : ((h.enrol i c).stream i).mode = (h.stream i).mode := by
      rw [hs]
      rfl
    rw [addSubscriber, if_neg joined, ← same]
    exact resumed (m := h.enrol i c) (by rwa [streams_enrol]) (by rw [hs]; exact speed)

omit speed in
theorem mode_removeSubscriber (c : ConnId) :
    ((h.removeSubscriber i c).stream i).mode = (h.stream i).mode := by
  have hs := stream_modifyStream_self known
    fun s => { s with subscribers := s.subscribers.filter fun d => h.isAlive d && d != c }
  have left : ((h.modifyStream i fun s => { s with
      subscribers := s.subscribers.filter fun d => h.isAlive d && d != c }).stream i).mode =
        (h.stream i).mode := by
    rw [hs]
    rfl
  unfold removeSubscriber
  dsimp only
  split_ifs
  · refine (mode_idle ?_).trans left
    rw [modifyStream, List.length_modify]
    exact known
  · exact left

end Arrives

/-- How a stream moves. Requests lead to the mode that the table has for them, and a speed is
refused just if it is not finite. Timers, and those who join or leave, make the stream take no step
but the one at the end of history. -/
structure Obeys (h : Hub) (i : StreamId) : Prop where
  requests : ∀ request, (h.control i request).Arrives i
    ((h.stream i).mode.target (h.stream i).replay.speed request)
  stops : ∀ x : Binary32, x.isZero = true → h.setSpeed i x = (h.stopStream i, true)
  accepts : ∀ x : Binary32, x.isFinite = true → (h.setSpeed i x).2 = true
  refuses : ∀ x : Binary32, x.isFinite = false → h.setSpeed i x = (h, false)
  timers : ∀ epoch, (h.fire i epoch).Arrives i (h.stream i).mode
  joins : ∀ c, (h.addSubscriber i c).Arrives i (h.stream i).mode
  leaves : ∀ c, ((h.removeSubscriber i c).stream i).mode = (h.stream i).mode
  loses : ∀ batch, ((h.send i batch).1.stream i).mode = (h.stream i).mode

end Hub

/-- A stream that a relay comes to have, whoever watches it. -/
def Stream.Reached (s : Stream) : Prop :=
  ∃ archive config epoch readOnly acts i subscribers,
    let r := (Relay.start archive config epoch readOnly).steps acts
    i < r.hub.streams.length ∧ s = { r.hub.stream i with subscribers }

theorem Relay.replays_speed (acts : List Act) : ∀ {r : Relay},
    r.hub.Replays (fun r => Replay.acceptsSpeed r.speed = true) →
    (r.steps acts).hub.Replays fun r => Replay.acceptsSpeed r.speed = true := by
  induction acts with
  | nil => exact fun all => all
  | cons act acts ih =>
    exact fun all => ih (replays_step (Replay.permanent_speed _ _) all act)

theorem Stream.Reached.speed {s : Stream} (reached : s.Reached) :
    Replay.acceptsSpeed s.replay.speed = true := by
  obtain ⟨archive, config, epoch, readOnly, acts, i, subscribers, known, rfl⟩ := reached
  exact Relay.replays_speed acts (fun _ hi => absurd hi (Nat.not_lt_zero _)) i known

/-- A stream of any hub obeys the table, whatever the store holds and whoever watches. -/
theorem Stream.Reached.obeys {h : Hub} {i : StreamId} (known : i < h.streams.length)
    (reached : (h.stream i).Reached) : h.Obeys i where
  requests := Hub.arrives_control known reached.speed
  stops x zero := if_pos zero
  accepts x finite := by
    unfold Hub.setSpeed
    dsimp only
    split_ifs with zero refused
    · rfl
    · simp [Replay.acceptsSpeed, zero, finite] at refused
    all_goals rfl
  refuses x infinite := Hub.setSpeed_of_infinite infinite h i
  timers := Hub.arrives_fire known reached.speed
  joins := Hub.arrives_addSubscriber known reached.speed
  leaves := Hub.mode_removeSubscriber known
  loses := Hub.mode_send known

/-- A stream that is sent to the start of a history without events goes live as soon as it is
started, and stops if it is to play backwards. -/
theorem Stream.Reached.obeys_empty :
    let r := (Relay.start ⟨.memory, fun _ => false⟩ ⟨1, 250, by decide, by decide⟩ 0 false).steps
      [.accept 4, .handle 0 (.control (.current 0 (.seek (.time 0)))),
        .handle 0 (.control (.current 0 .start))]
    0 < r.hub.streams.length ∧ (r.hub.stream 0).Reached ∧ (r.hub.stream 0).mode = .livePlaying ∧
      (r.hub.control 0 (.speed ⟨0xbf800000⟩)).Arrives 0 .replayPlaying ∧
      ((r.hub.control 0 (.speed ⟨0xbf800000⟩)).stream 0).mode = .replayStopped := by
  intro r
  have known : 0 < r.hub.streams.length := by decide
  have reached : (r.hub.stream 0).Reached := ⟨_, _, _, _, _, 0, _, known, rfl⟩
  have live : (r.hub.stream 0).mode = .livePlaying := by decide
  have arrives := (obeys known reached).requests (.speed ⟨0xbf800000⟩)
  have target : Mode.target (r.hub.stream 0).replay.speed .livePlaying
      (.speed ⟨0xbf800000⟩) = .replayPlaying := by decide
  rw [live, target] at arrives
  exact ⟨known, reached, live, arrives, by decide⟩

end EventRelay
