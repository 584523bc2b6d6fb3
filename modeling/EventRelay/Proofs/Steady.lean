import EventRelay.Proofs.Confined
import EventRelay.Proofs.Upcoming

/-!
# Live or replaying, and never stuck

A stream plays either the live feed or history. While its replay runs it is playing and not live,
and while it is in the live set it is playing and live: so the two never feed it together. And a
stream that is playing before somebody is fed by one of them: it is in the live set if it is live,
and its replay runs, with its timer pending, if it is not. A stream that nobody watches may rest.

Each of the operations on a stream leaves it so. They are made of a few changes, of which those in
the middle of an operation only keep the first half: the second is restored at the end, by joining
the live set or by running the replay.
-/

namespace EventRelay.Hub

/-- The stream is in the live set. -/
def Listed (h : Hub) (i : StreamId) : Prop := ((h.stream i).uid, i) ∈ h.live

/-- Live and replay exclude each other. -/
structure Exclusive (h : Hub) (i : StreamId) : Prop where
  known : i < h.streams.length
  attached : (h.stream i).attached = true
  running : (h.stream i).replay.running = true →
    (h.stream i).live = false ∧ (h.stream i).playing = true
  listed : h.Listed i → (h.stream i).live = true ∧ (h.stream i).playing = true

/-- And no timer is pending but that of a replay that runs. -/
structure Apart (h : Hub) (i : StreamId) : Prop extends Exclusive h i where
  timed : (h.stream i).replay.Timed

/-- A playing stream that somebody watches is fed. -/
def Served (h : Hub) (i : StreamId) : Prop :=
  (h.stream i).playing = true → h.audience i ≠ [] →
    if (h.stream i).live then h.Listed i else (h.stream i).replay.running = true

structure Steady (h : Hub) (i : StreamId) : Prop extends Apart h i where
  served : h.Served i

section Steady

variable {h : Hub} {i : StreamId}

theorem Apart.steady_of_audience (hi : h.Apart i) (none : h.audience i = []) : h.Steady i where
  toApart := hi
  served _ ha := absurd none ha

theorem Apart.steady_of_playing (hi : h.Apart i) (stopped : (h.stream i).playing = false) :
    h.Steady i where
  toApart := hi
  served hp := by
    rw [stopped] at hp
    cases hp

theorem Exclusive.not_listed (hi : h.Exclusive i) (hl : (h.stream i).live = false) :
    ¬h.Listed i := by
  intro listed
  rw [(hi.listed listed).1] at hl
  cases hl

theorem Exclusive.not_running (hi : h.Exclusive i) (hl : (h.stream i).live = true) :
    (h.stream i).replay.running = false := by
  by_contra hr
  rw [(hi.running (by simpa using hr)).1] at hl
  cases hl

theorem Confined.audience_eq_nil {h' : Hub} (hc : Confined i h h') (none : h.audience i = []) :
    h'.audience i = [] := by
  refine List.eq_nil_iff_forall_not_mem.2 fun c hm => ?_
  have := hc.audience hm
  rw [none] at this
  cases this

/-! ## Changes to the stream itself -/

theorem stream_modifyStream_self (known : i < h.streams.length) (f : Stream → Stream) :
    (h.modifyStream i f).stream i = f (h.stream i) := by
  rw [stream_modifyStream, if_pos ⟨rfl, known⟩]

theorem exclusive_modifyStream (hi : h.Exclusive i) {f : Stream → Stream}
    (uid : (f (h.stream i)).uid = (h.stream i).uid)
    (attached : (f (h.stream i)).attached = (h.stream i).attached)
    (running : (f (h.stream i)).replay.running = true →
      (f (h.stream i)).live = false ∧ (f (h.stream i)).playing = true)
    (listed : h.Listed i → (f (h.stream i)).live = true ∧ (f (h.stream i)).playing = true) :
    (h.modifyStream i f).Exclusive i := by
  have hs := stream_modifyStream_self hi.known f
  refine ⟨?_, ?_, ?_, ?_⟩
  · rw [modifyStream, List.length_modify]
    exact hi.known
  · rw [hs, attached, hi.attached]
  · rwa [hs]
  · rw [Listed, hs, uid]
    exact listed

theorem apart_modifyStream (hi : h.Exclusive i) {f : Stream → Stream}
    (uid : (f (h.stream i)).uid = (h.stream i).uid)
    (attached : (f (h.stream i)).attached = (h.stream i).attached)
    (timed : (f (h.stream i)).replay.Timed)
    (running : (f (h.stream i)).replay.running = true →
      (f (h.stream i)).live = false ∧ (f (h.stream i)).playing = true)
    (listed : h.Listed i → (f (h.stream i)).live = true ∧ (f (h.stream i)).playing = true) :
    (h.modifyStream i f).Apart i := by
  refine ⟨exclusive_modifyStream hi uid attached running listed, ?_⟩
  rwa [stream_modifyStream_self hi.known]

theorem stream_modifyReplay (known : i < h.streams.length) (f : Replay → Replay) :
    (h.modifyReplay i f).stream i = { h.stream i with replay := f (h.stream i).replay } :=
  stream_modifyStream_self known _

/-- Whatever is done to a replay, if it does not make it run. -/
theorem exclusive_modifyReplay (hi : h.Exclusive i) {f : Replay → Replay}
    (running : (f (h.stream i).replay).running = true → (h.stream i).replay.running = true) :
    (h.modifyReplay i f).Exclusive i := by
  have changed := exclusive_modifyStream hi (f := fun s => { s with replay := f s.replay }) rfl rfl
    (fun hr => hi.running (running hr)) hi.listed
  exact ⟨changed.known, changed.attached, changed.running, changed.listed⟩

theorem apart_modifyReplay (hi : h.Exclusive i) {f : Replay → Replay}
    (timed : (f (h.stream i).replay).Timed)
    (running : (f (h.stream i).replay).running = true → (h.stream i).replay.running = true) :
    (h.modifyReplay i f).Apart i := by
  refine ⟨exclusive_modifyReplay hi running, ?_⟩
  rwa [stream_modifyReplay hi.known]

theorem apart_pauseReplay (hi : h.Exclusive i) : (h.pauseReplay i).Apart i :=
  apart_modifyReplay hi (Replay.pause_timed _) fun hr => by
    rw [Replay.not_running_pause] at hr
    cases hr

theorem apart_seekReplay (hi : h.Apart i) (p : Position) : (h.seekReplay i p).Apart i :=
  apart_modifyReplay hi.toExclusive (Replay.seek_timed hi.timed _ p) fun hr => by
    rwa [Replay.running_seek] at hr

/-! ## The live set -/

/-- Only what the live set says of the stream has changed. -/
theorem apart_live (hi : h.Apart i) {live : Index}
    (listed : ((h.stream i).uid, i) ∈ live →
      (h.stream i).live = true ∧ (h.stream i).playing = true) : ({ h with live } : Hub).Apart i :=
  ⟨⟨hi.known, hi.attached, hi.running, listed⟩, hi.timed⟩

theorem registerLive_eq (h : Hub) (i : StreamId) :
    (h.registerLive i).stream = h.stream ∧ (h.registerLive i).audience = h.audience := by
  unfold registerLive
  split_ifs <;> exact ⟨rfl, rfl⟩

theorem listed_registerLive (hi : h.Apart i) (watched : h.audience i ≠ []) :
    (h.registerLive i).Listed i := by
  have hw : ¬((h.subscriberCount i = 0 || !(h.stream i).attached) = true) := by
    simp [subscriberCount, hi.attached, watched]
  rw [Listed, (registerLive_eq h i).1, registerLive, if_neg hw]
  exact (mem_insert i).2 (.inl rfl)

theorem steady_registerLive (hi : h.Apart i) (live : (h.stream i).live = true)
    (playing : (h.stream i).playing = true) : (h.registerLive i).Steady i := by
  obtain ⟨hs, ha⟩ := registerLive_eq h i
  refine ⟨⟨⟨?_, ?_, ?_, ?_⟩, ?_⟩, fun _ watched => ?_⟩
  · exact (confined_registerLive h i).known hi.known
  · rw [hs]
    exact hi.attached
  · rw [hs]
    exact hi.running
  · rw [hs]
    exact fun _ => ⟨live, playing⟩
  · rw [hs]
    exact hi.timed
  · rw [ha] at watched
    rw [hs, if_pos live]
    exact listed_registerLive hi watched

theorem apart_unsubscribeIfIdle (hi : h.Apart i) : (h.unsubscribeIfIdle i).Apart i := by
  unfold unsubscribeIfIdle
  split_ifs
  · exact apart_live hi fun he => absurd rfl (mem_erase.1 he).2
  · exact hi

theorem deregisterLive_stream (h : Hub) (i : StreamId) :
    (h.deregisterLive i).stream = h.stream := by
  unfold deregisterLive
  split_ifs <;> rfl

theorem not_listed_deregisterLive (attached : (h.stream i).attached = true) :
    ¬(h.deregisterLive i).Listed i := by
  rw [Listed, deregisterLive_stream, deregisterLive, if_pos attached]
  exact fun he => (mem_erase.1 he).2 rfl

/-- A stream that is fed by neither. -/
theorem apart_of_quiet {h' : Hub} (hi : h.Exclusive i) (hc : Confined i h h')
    (timed : (h'.stream i).replay.Timed) (quiet : (h'.stream i).replay.running = false)
    (unlisted : ¬h'.Listed i) : h'.Apart i where
  known := hc.known hi.known
  attached := by
    rw [hc.attached]
    exact hi.attached
  timed := timed
  running hr := by
    rw [quiet] at hr
    cases hr
  listed hl := absurd hl unlisted

/-! ## Feeding a stream -/

/-- Even with its timer gone off: the pause of a replay stops it for good. -/
theorem apart_idle (hi : h.Exclusive i)
    (timed : (h.stream i).live = true → (h.stream i).replay.Timed) : (h.idle i).Apart i := by
  have leave {m : Hub} (hm : m.Apart i) :
      Apart (if (m.stream i).attached then m.unsubscribeIfIdle i else m) i := by
    split_ifs
    · exact apart_unsubscribeIfIdle hm
    · exact hm
  refine leave ?_
  split_ifs with live
  · exact ⟨hi, timed live⟩
  · exact apart_pauseReplay hi

theorem steady_idle (hi : h.Exclusive i)
    (timed : (h.stream i).live = true → (h.stream i).replay.Timed) (none : h.audience i = []) :
    (h.idle i).Steady i :=
  (apart_idle hi timed).steady_of_audience ((confined_idle h i).audience_eq_nil none)

theorem steady_goLive (hi : h.Apart i) : (h.goLive i).Steady i := by
  have paused := apart_pauseReplay hi.toExclusive
  have hp : (h.pauseReplay i).stream i =
      { h.stream i with replay := (h.stream i).replay.pause } := stream_modifyReplay hi.known _
  have quiet : (h.stream i).replay.pause.running = false := Replay.not_running_pause _
  have live : ((h.pauseReplay i).setLive i true).Apart i := by
    refine apart_modifyStream paused.toExclusive rfl rfl paused.timed (fun hr => ?_) fun hl => ?_
    · rw [hp] at hr
      exact absurd hr (by simp [quiet])
    · exact ⟨rfl, (paused.listed hl).2⟩
  have isLive : (((h.pauseReplay i).setLive i true).stream i).live = true := by
    rw [setLive, stream_modifyStream_self paused.known]
  unfold goLive
  dsimp only
  split_ifs with playing
  · exact steady_registerLive live isLive playing
  · exact live.steady_of_playing (Bool.eq_false_of_not_eq_true playing)

theorem steady_handleExhausted (hi : h.Apart i) (replaying : (h.stream i).live = false)
    (ended : (h.stream i).replay.running = false) : (h.handleExhausted i).Steady i := by
  unfold handleExhausted
  split
  · exact steady_goLive hi
  · refine Apart.steady_of_playing ?_ ?_
    · refine apart_modifyStream hi.toExclusive rfl rfl hi.timed (fun hr => ?_) fun hl => ?_
      · exact absurd hr (by simp [ended])
      · exact absurd hl (hi.not_listed replaying)
    · rw [stream_modifyStream_self hi.known]

theorem run_outcome (r : Replay) (config : ReplayConfig) (archive : Archive) (now : Instant) :
    (r.run config archive now).2 = .scheduled ↔
      (r.run config archive now).1.running = true := by
  unfold Replay.run
  split_ifs with hr
  · simp only [Bool.and_eq_true] at hr
    simp [hr.1]
  · unfold Replay.proceed Replay.schedule Replay.scheduleBy
    split <;> simp [Replay.arm]

/-- A stream that plays history before somebody has its replay run, or is past its end. -/
theorem steady_runReplay (hi : h.Apart i) (replaying : (h.stream i).live = false)
    (playing : (h.stream i).playing = true) : (h.runReplay i).Steady i := by
  unfold runReplay
  split_ifs with none
  · have none : h.audience i = [] := List.length_eq_zero_iff.1 none
    exact (apart_pauseReplay hi.toExclusive).steady_of_audience
      ((confined_pauseReplay h i).audience_eq_nil none)
  · have hs := stream_modifyReplay hi.known fun r => (r.run h.config h.archive h.now).1
    have ran : (h.modifyReplay i fun r => (r.run h.config h.archive h.now).1).Apart i := by
      have timed := Replay.run_timed hi.timed h.config h.archive h.now
      have := apart_modifyStream hi.toExclusive
        (f := fun s => { s with replay := (s.replay.run h.config h.archive h.now).1 }) rfl rfl timed
        (fun _ => ⟨replaying, playing⟩) hi.listed
      exact ⟨⟨this.known, this.attached, this.running, this.listed⟩, this.timed⟩
    dsimp only
    split
    · next ho =>
      refine ⟨ran, fun _ _ => ?_⟩
      rw [hs, if_neg (by simp [replaying])]
      exact (run_outcome ..).1 ho
    · next ho =>
      refine steady_handleExhausted ran (by rw [hs]; exact replaying) ?_
      rw [hs]
      by_contra hr
      have := (run_outcome (h.stream i).replay h.config h.archive h.now).2 (by simpa using hr)
      rw [this] at ho
      cases ho

theorem steady_play (hi : h.Apart i) (playing : (h.stream i).playing = true) :
    (h.play i).Steady i := by
  unfold play
  split_ifs with live
  · exact steady_registerLive hi live playing
  · exact steady_runReplay hi (by simpa using live) playing

/-! ## Control -/

theorem steady_startStream (hi : h.Steady i) : (h.startStream i).Steady i := by
  unfold startStream
  split_ifs
  · exact hi
  · refine steady_play ?_ ?_
    · exact apart_modifyStream hi.toExclusive rfl rfl hi.timed (fun hr => ⟨(hi.running hr).1, rfl⟩)
        fun hl => ⟨(hi.listed hl).1, rfl⟩
    · rw [setPlaying, stream_modifyStream_self hi.known]

theorem steady_stopStream (hi : h.Steady i) : (h.stopStream i).Steady i := by
  have confined := confined_stopStream h i
  have hs : (h.setPlaying i false).stream i = { h.stream i with playing := false } :=
    stream_modifyStream_self hi.known _
  have known := (confined_setPlaying h i false).known hi.known
  unfold stopStream at confined ⊢
  dsimp only at confined ⊢
  split_ifs at confined ⊢ with stopped live
  · exact hi
  · rw [hs] at live
    have hd := deregisterLive_stream (h.setPlaying i false) i
    have out := not_listed_deregisterLive (h := h.setPlaying i false) (i := i)
      (by rw [hs]; exact hi.attached)
    have known' := (confined_deregisterLive _ i).known known
    have hr : (((h.setPlaying i false).deregisterLive i).seekReplay i
        (.time (h.setPlaying i false).wallClock)).stream i = _ := stream_modifyReplay known' _
    refine (apart_of_quiet hi.toExclusive confined ?_ ?_ ?_).steady_of_playing ?_
    · rw [hr, hd, hs]
      exact Replay.seek_timed hi.timed _ _
    · rw [hr, hd, hs, Replay.running_seek]
      exact hi.not_running live
    · rw [Listed, hr]
      exact out
    · rw [hr, hd, hs]
  · rw [hs] at live
    have hr : ((h.setPlaying i false).pauseReplay i).stream i = _ := stream_modifyReplay known _
    refine (apart_of_quiet hi.toExclusive confined ?_ ?_ ?_).steady_of_playing ?_
    · rw [hr]
      exact Replay.pause_timed _
    · rw [hr, Replay.not_running_pause]
    · rw [Listed, hr, hs]
      exact hi.not_listed (Bool.eq_false_of_not_eq_true live)
    · rw [hr, hs]

/-- A stream that has left the live feed for a place in history. -/
theorem stream_leaving (known : i < h.streams.length) (p : Position) :
    ((h.setLive i false).seekReplay i p).stream i =
      { h.stream i with live := false, replay := (h.stream i).replay.seek h.now p } := by
  have known' := (confined_setLive h i false).known known
  have := stream_modifyReplay known' (·.seek (h.setLive i false).now p)
  rw [setLive, stream_modifyStream_self known] at this
  exact this

theorem steady_leaveLive (hi : h.Apart i) (live : (h.stream i).live = true) (p : Position) :
    (h.leaveLive i p).Steady i := by
  have quiet := hi.not_running live
  have sought := (confined_setLive h i false).trans (confined_seekReplay _ i p)
  have hs := stream_leaving hi.known p
  have timed : (((h.setLive i false).seekReplay i p).stream i).replay.Timed := by
    rw [hs]
    exact Replay.seek_timed hi.timed _ p
  have stopped : (((h.setLive i false).seekReplay i p).stream i).replay.running = false := by
    rw [hs, Replay.running_seek]
    exact quiet
  unfold leaveLive
  dsimp only
  split_ifs with playing
  · have out : ¬(((h.setLive i false).seekReplay i p).deregisterLive i).Listed i :=
      not_listed_deregisterLive (by rw [hs]; exact hi.attached)
    have hd := deregisterLive_stream ((h.setLive i false).seekReplay i p) i
    have confined := sought.trans (confined_deregisterLive _ i)
    refine steady_runReplay (apart_of_quiet hi.toExclusive confined ?_ ?_ out) ?_ ?_
    · rwa [hd]
    · rwa [hd]
    · rw [hd, hs]
    · rwa [hd]
  · have notPlaying := Bool.eq_false_of_not_eq_true playing
    refine Apart.steady_of_playing ?_ notPlaying
    refine apart_of_quiet hi.toExclusive sought timed stopped fun hl => ?_
    rw [Listed, hs] at hl
    rw [hs, (hi.listed hl).2] at notPlaying
    cases notPlaying

theorem steady_seekStream (hi : h.Steady i) (p : Position) : (h.seekStream i p).Steady i := by
  have sought := apart_seekReplay hi.toApart p
  have hs : (h.seekReplay i p).stream i =
      { h.stream i with replay := (h.stream i).replay.seek h.now p } :=
    stream_modifyReplay hi.known _
  unfold seekStream
  dsimp only
  split
  · exact hi
  · next live => exact steady_leaveLive hi.toApart live _
  · next replaying =>
    split_ifs with stopped
    · have notPlaying : (h.stream i).playing = false := by simpa using stopped
      refine Apart.steady_of_playing ?_ ?_
      · refine apart_modifyStream sought.toExclusive rfl rfl sought.timed (fun hr => ?_)
          fun hl => ?_
        · have := (sought.running hr).2
          rw [hs, notPlaying] at this
          cases this
        · exact ⟨rfl, (sought.listed hl).2⟩
      · rw [setLive, stream_modifyStream_self sought.known, hs]
        exact notPlaying
    · refine steady_runReplay sought ?_ ?_
      · rw [hs]
        exact replaying
      · rw [hs]
        simpa using stopped
    · exact steady_goLive hi.toApart
  · next replaying =>
    split_ifs with playing
    · refine steady_runReplay sought ?_ ?_
      · rw [hs]
        exact replaying
      · rw [hs]
        exact playing
    · refine sought.steady_of_playing ?_
      rw [hs]
      exact Bool.eq_false_of_not_eq_true playing

theorem steady_setSpeed (hi : h.Steady i) (speed : Binary32) : (h.setSpeed i speed).1.Steady i := by
  have hs : (h.modifyReplay i (·.setSpeed h.now speed)).stream i =
      { h.stream i with replay := (h.stream i).replay.setSpeed h.now speed } :=
    stream_modifyReplay hi.known _
  have running : ((h.stream i).replay.setSpeed h.now speed).running =
      (h.stream i).replay.running := by
    unfold Replay.setSpeed
    split_ifs
    · exact (Replay.rearm_fields _ _).2.2.2.1
    · rfl
  have paced : (h.modifyReplay i (·.setSpeed h.now speed)).Apart i :=
    apart_modifyReplay hi.toExclusive (Replay.setSpeed_timed hi.timed _ _) fun hr => running ▸ hr
  unfold setSpeed
  dsimp only
  split_ifs with zero accepted live fast playing
  · exact steady_stopStream hi
  · exact hi
  · refine ⟨paced, fun hp ha => ?_⟩
    rw [hs] at hp live
    rw [hs, if_pos live, Listed, hs]
    rw [audience, hs] at ha
    have := hi.served hp ha
    rw [if_pos live] at this
    exact this
  · exact steady_leaveLive paced live .eof
  · exact steady_runReplay paced (Bool.eq_false_of_not_eq_true live) playing
  · exact paced.steady_of_playing (Bool.eq_false_of_not_eq_true playing)

theorem steady_describe (hi : h.Steady i) (description : String) :
    (h.describe i description).Steady i := by
  have hs : (h.describe i description).stream i = { h.stream i with description } :=
    stream_modifyStream_self hi.known _
  refine ⟨apart_modifyStream hi.toExclusive rfl rfl hi.timed hi.running hi.listed, fun hp ha => ?_⟩
  rw [audience, hs] at ha
  rw [hs] at hp
  rw [hs, Listed, hs]
  exact hi.served hp ha

/-! ## Those who watch -/

/-- A stream that loses subscribers is none the worse. -/
theorem steady_subscribers (hi : h.Steady i) {f : Stream → List ConnId}
    (sub : f (h.stream i) ⊆ (h.stream i).subscribers) :
    (h.modifyStream i fun s => { s with subscribers := f s }).Steady i := by
  have hs : (h.modifyStream i fun s => { s with subscribers := f s }).stream i =
      { h.stream i with subscribers := f (h.stream i) } := stream_modifyStream_self hi.known _
  refine ⟨apart_modifyStream hi.toExclusive rfl rfl hi.timed hi.running hi.listed,
    fun hp ha => ?_⟩
  obtain ⟨c, hc⟩ := List.exists_mem_of_ne_nil _ ha
  rw [Confined.mem_audience, hs] at hc
  have watched : h.audience i ≠ [] :=
    List.ne_nil_of_mem (Confined.mem_audience.2 ⟨sub hc.1, hc.2⟩)
  rw [hs] at hp
  rw [hs, Listed, hs]
  exact hi.served hp watched

theorem steady_removeSubscriber (hi : h.Steady i) (c : ConnId) :
    (h.removeSubscriber i c).Steady i := by
  have left : (h.modifyStream i fun s => { s with
      subscribers := s.subscribers.filter fun d => h.isAlive d && d != c }).Steady i :=
    steady_subscribers hi (List.filter_subset_self _)
  unfold removeSubscriber
  dsimp only
  split_ifs with none
  · refine steady_idle left.toExclusive (fun _ => left.timed) ?_
    rw [audience, none]
    rfl
  · exact left

/-- What matters to a stream is itself, its place in the live set, and who is still there. -/
theorem Steady.congr {h' : Hub} (hi : h.Steady i) (streams : h.streams.length ≤ h'.streams.length)
    (stream : h'.stream i = h.stream i) (listed : h'.Listed i ↔ h.Listed i)
    (alive : ∀ c ∈ (h.stream i).subscribers, h'.isAlive c = true → h.isAlive c = true) :
    h'.Steady i := by
  refine ⟨⟨⟨?_, ?_, ?_, ?_⟩, ?_⟩, fun hp ha => ?_⟩
  · exact Nat.lt_of_lt_of_le hi.known streams
  · rw [stream]
    exact hi.attached
  · rw [stream]
    exact hi.running
  · rw [listed, stream]
    exact hi.listed
  · rw [stream]
    exact hi.timed
  · obtain ⟨c, hc⟩ := List.exists_mem_of_ne_nil _ ha
    rw [Confined.mem_audience, stream] at hc
    rw [stream] at hp
    rw [stream, listed]
    exact hi.served hp (List.ne_nil_of_mem (Confined.mem_audience.2 ⟨hc.1, alive c hc.1 hc.2⟩))

theorem steady_send (hi : h.Steady i) (batch : List Message) : (h.send i batch).1.Steady i := by
  obtain ⟨connections, kept, hsend, -, sub, sent⟩ := send_eq h i batch
  rw [hsend]
  have after : ({ h with connections } : Hub).Steady i :=
    hi.congr (Nat.le_refl _) rfl Iff.rfl fun c _ hc => (sent.alive c).symm.trans hc
  exact steady_subscribers after sub.subset

theorem steady_unsubscribeIfIdle (hi : h.Steady i) : (h.unsubscribeIfIdle i).Steady i := by
  have out := apart_unsubscribeIfIdle hi.toApart
  by_cases none : h.audience i = []
  · exact out.steady_of_audience ((confined_unsubscribeIfIdle h i).audience_eq_nil none)
  · have same : h.unsubscribeIfIdle i = h := by
      rw [unsubscribeIfIdle, if_neg]
      exact fun h0 => none (List.length_eq_zero_iff.1 h0)
    rw [same]
    exact hi

theorem steady_deliver (hi : h.Steady i) (events : List Message) :
    (h.deliver i events).Steady i := by
  have sent := steady_send hi events
  unfold deliver
  dsimp only
  split_ifs with none
  · simp only [Bool.and_eq_true] at none
    exact steady_idle sent.toExclusive (fun _ => sent.timed)
      (List.length_eq_zero_iff.1 (of_decide_eq_true none.2))
  · exact sent

/-! ## Timers -/

theorem proceed_cases (r : Replay) (config : ReplayConfig) (archive : Archive) (now : Instant) :
    (r.proceed config archive now).1.Timed ∧
      ((r.proceed config archive now).2 = .scheduled ∧
        (r.proceed config archive now).1.running = true ∨
      (r.proceed config archive now).2 = .exhausted ∧
        (r.proceed config archive now).1.running = false ∧
        (r.proceed config archive now).1.epoch = r.epoch) := by
  have filled : (r.fill config archive).epoch = r.epoch := by
    unfold Replay.fill
    split_ifs
    · split <;> rfl
    · rfl
  refine ⟨Replay.schedule_timed _ now, ?_⟩
  unfold Replay.proceed Replay.schedule Replay.scheduleBy
  split
  · exact .inr ⟨rfl, rfl, filled⟩
  · exact .inl ⟨rfl, rfl⟩

/-- A replay that goes on after its timer went off. -/
theorem steady_resume (hi : h.Exclusive i) (hr : (h.stream i).replay.running = true)
    {epoch : Nat} (he : (h.stream i).replay.epoch = epoch) : (h.resume i epoch).Steady i := by
  obtain ⟨replaying, playing⟩ := hi.running hr
  obtain ⟨timed, outcome⟩ := proceed_cases (h.stream i).replay h.config h.archive h.now
  have hs := stream_modifyReplay hi.known fun r => (r.proceed h.config h.archive h.now).1
  have on : (h.modifyReplay i fun r => (r.proceed h.config h.archive h.now).1).Apart i :=
    apart_modifyReplay hi timed fun _ => hr
  rw [resume, if_neg (by simp [hr, he])]
  rcases outcome with ⟨ho, running⟩ | ⟨ho, ended, same⟩
  · rw [ho]
    refine ⟨on, fun _ _ => ?_⟩
    rw [hs, if_neg (by simp [replaying])]
    exact running
  · rw [ho]
    dsimp only
    rw [replayExhausted, hs]
    dsimp only
    rw [if_neg (by simp [replaying, playing, same, he])]
    exact steady_handleExhausted on (by rw [hs]; exact replaying) (by rw [hs]; exact ended)

/-- A delivery by a replay that runs: the replay is left alone, unless nobody is left to watch. -/
theorem deliver_running (hi : h.Exclusive i) (hr : (h.stream i).replay.running = true)
    (events : List Message) : (h.deliver i events).Steady i ∨
      (h.deliver i events).Exclusive i ∧
        ((h.deliver i events).stream i).replay = (h.stream i).replay := by
  obtain ⟨connections, kept, hsend, -, -, -⟩ := send_eq h i events
  have hs : (h.send i events).1.stream i = { h.stream i with subscribers := kept } := by
    rw [hsend]
    exact stream_modifyStream_self hi.known _
  have sent : (h.send i events).1.Exclusive i := by
    rw [hsend]
    have unsent : ({ h with connections } : Hub).Exclusive i :=
      ⟨hi.known, hi.attached, hi.running, hi.listed⟩
    exact exclusive_modifyStream unsent rfl rfl hi.running hi.listed
  unfold deliver
  dsimp only
  split_ifs with none
  · simp only [Bool.and_eq_true] at none
    refine .inl (steady_idle sent (fun live => ?_)
      (List.length_eq_zero_iff.1 (of_decide_eq_true none.2)))
    rw [hs, (hi.running hr).1] at live
    cases live
  · exact .inr ⟨sent, by rw [hs]⟩

theorem steady_fire (hi : h.Steady i) (epoch : Nat) : (h.fire i epoch).Steady i := by
  have resume {m : Hub} (hm : m.Steady i ∨ m.Exclusive i ∧ (m.stream i).replay.running = true ∧
      (m.stream i).replay.epoch = epoch) : (m.resume i epoch).Steady i := by
    rcases hm with hm | ⟨hm, hr, he⟩
    · by_cases on : (m.stream i).replay.epoch ≠ epoch || !(m.stream i).replay.running
      · rwa [Hub.resume, if_pos on]
      · simp only [Bool.or_eq_true, decide_eq_true_eq, Bool.not_eq_true', not_or, not_not,
          Bool.not_eq_false] at on
        exact steady_resume hm.toExclusive on.2 on.1
    · exact steady_resume hm hr he
  rw [fire_eq]
  split_ifs with he
  · exact hi
  · have he : (h.stream i).replay.epoch = epoch := not_not.1 he
    obtain ⟨due, rest, -, hdue, -⟩ := Replay.takeDue_eq h.config (h.stream i).replay
    have hs := stream_modifyReplay hi.known fun r => (r.takeDue h.config).1
    rw [hdue] at hs
    refine resume ?_
    rcases hr : (h.stream i).replay.running with _ | _
    · have took : (h.modifyReplay i fun r => (r.takeDue h.config).1).Steady i := by
        refine ⟨apart_modifyReplay hi.toExclusive ?_ fun h => ?_, fun hp ha => ?_⟩
        · rw [hdue]
          simp [Replay.Timed, hr]
        · rw [hdue] at h
          exact h
        · rw [audience, hs] at ha
          rw [hs] at hp
          have := hi.served hp ha
          rw [hr] at this
          rw [hs, Listed, hs]
          split_ifs at this ⊢
          exact this
      split_ifs
      · exact .inl took
      · exact .inl (steady_deliver took _)
    · have took : (h.modifyReplay i fun r => (r.takeDue h.config).1).Exclusive i :=
        exclusive_modifyReplay hi.toExclusive fun _ => hr
      split_ifs with none
      · exact .inr ⟨took, by rw [hs]; exact hr, by rw [hs]; exact he⟩
      · rcases deliver_running took (by rw [hs]; exact hr) _ with steady | ⟨sent, same⟩
        · exact .inl steady
        · exact .inr ⟨sent, by rw [same, hs]; exact hr, by rw [same, hs]; exact he⟩

end Steady

end EventRelay.Hub
