import EventRelay.Proofs.Lockstep
import EventRelay.Proofs.Loyal

/-!
# Watching among others

A connection watches a stream, and others come and go. A stream that plays before somebody is fed
already: when one more joins it, it is in the live set or its timer is pending, and nothing is left
to do; and as long as one stays it does not fall idle. So the connection cannot tell a hub that
others have joined and left from one where they have not, and what the stream does next, and sends,
is the same in both.
-/

namespace EventRelay

namespace Hub

/-! ## A connection in its seat -/

/-- The connection watches the stream, once, and no other stream; and the stream is told from others
by its uid, also in the live set. -/
structure Seated (i : StreamId) (c : ConnId) (h : Hub) : Prop where
  steady : h.Steady i
  watching : c ∈ h.audience i
  away : ∀ j, j ≠ i → c ∉ h.audience j
  once : (h.audience i).Nodup
  uids : ∀ j, j ≠ i → (h.stream j).uid ≠ (h.stream i).uid
  live_uid : ∀ e ∈ h.live, e.1 = (h.stream e.2).uid
  live_nodup : h.live.Nodup
  subscribers : ∀ j, ∀ d ∈ (h.stream j).subscribers, d < h.connections.length

section Seated

variable {h h' : Hub} {i j : StreamId} {c d : ConnId} {held : List (Option StreamId)}

theorem Sound.seated (hs : h.Sound held) (hc : c ∈ h.audience i) : Seated i c h where
  steady := hs.steady i (hs.known_of_catalog (hs.catalog_of_watched (List.ne_nil_of_mem hc)))
  watching := hc
  away _ hj := hs.away hc hj
  once := hs.audience_nodup i
  uids j hj := by
    have hi := hs.known_of_catalog (hs.catalog_of_watched (List.ne_nil_of_mem hc))
    by_cases known : j < h.streams.length
    · exact hs.uid_ne hi known hj
    · rw [Relay.stream_eq_default known, hs.uids i hi]
      intro zero
      have := congrArg UInt32.toNat zero
      have few := Nat.lt_trans hi hs.few
      rw [UInt32.toNat_ofNat', show (default : Stream).uid.toNat = 0 from rfl] at this
      omega
  live_uid := hs.live_uid
  live_nodup := hs.live_nodup
  subscribers j d hd := by
    rw [hs.connections]
    exact hs.subscribers j d hd

theorem Seated.known (hs : Seated i c h) : i < h.streams.length := hs.steady.known

theorem Seated.watched (hs : Seated i c h) : h.audience i ≠ [] := List.ne_nil_of_mem hs.watching

theorem Seated.listed_iff (hs : Seated i c h) : h.Listed i ↔ i ∈ h.live.map (·.2) :=
  listed_iff_of_uid hs.live_uid

/-- The stream is fed what is received just if it plays live. -/
theorem Seated.listed_iff_live (hs : Seated i c h) :
    h.Listed i ↔ (h.stream i).live = true ∧ (h.stream i).playing = true := by
  refine ⟨hs.steady.listed, fun ⟨live, playing⟩ => ?_⟩
  have served := hs.steady.served playing hs.watched
  rwa [if_pos live] at served

/-- Steps on one stream after the other leave the connection in its seat, as long as they leave it a
subscriber. -/
theorem Seated.confined (hs : Seated i c h) (hc : Confined j h h')
    (steady : j = i → h'.Steady i) (stays : j = i → c ∈ (h'.stream i).subscribers) :
    Seated i c h' where
  steady := by
    by_cases hj : j = i
    · exact steady hj
    · exact hs.steady.confined hc (Ne.symm hj) (Ne.symm (hs.uids j hj))
  watching := by
    obtain ⟨subscribed, alive⟩ := Confined.mem_audience.1 hs.watching
    refine Confined.mem_audience.2 ⟨?_, (hc.alive c).trans alive⟩
    by_cases hj : j = i
    · exact stays hj
    · rwa [hc.others i (Ne.symm hj)]
  away k hk hm := hs.away k hk (hc.audience hm)
  once := hs.once.sublist (hc.sublist_audience i)
  uids k hk := by
    rw [hc.uid_eq, hc.uid_eq]
    exact hs.uids k hk
  live_uid e he := by
    rw [hc.uid_eq]
    rcases hc.listed e he with he | ⟨rfl, -⟩
    · exact hs.live_uid e he
    · rfl
  live_nodup := hc.once hs.live_nodup
  subscribers k d hd := by
    rw [hc.connections]
    by_cases hk : k = j
    · subst hk
      exact hs.subscribers k d (hc.subscribers.subset hd)
    · rw [hc.others k hk] at hd
      exact hs.subscribers k d hd

/-- What happens to connections short of their coming back, and to the store and the clock, does
not matter. -/
theorem Seated.congr (hs : Seated i c h) (streams : h'.streams = h.streams)
    (live : h'.live = h.live) (connections : h.connections.length ≤ h'.connections.length)
    (alive : ∀ d < h.connections.length, h'.isAlive d = true → h.isAlive d = true)
    (stays : h'.isAlive c = true) : Seated i c h' := by
  have stream : h'.stream = h.stream := by
    funext j
    rw [Hub.stream, Hub.stream, streams]
  have sub (j : StreamId) : (h'.audience j).Sublist (h.audience j) := by
    have left : h'.audience j = (h.audience j).filter h'.isAlive := by
      rw [audience, audience, stream, List.filter_filter]
      refine List.filter_congr fun d hd => ?_
      by_cases there : h'.isAlive d = true
      · simp [there, alive d (hs.subscribers j d hd) there]
      · simp [there]
    rw [left]
    exact List.filter_sublist
  refine ⟨?steady, ?watching, ?away, ?once, ?uids, ?live_uid, ?live_nodup, ?subscribers⟩
  case steady =>
    refine hs.steady.congr (by rw [streams]) (by rw [stream]) ?_
      fun d hd => alive d (hs.subscribers i d hd)
    rw [Listed, Listed, stream, live]
  case watching =>
    refine Confined.mem_audience.2 ⟨?_, stays⟩
    rw [stream]
    exact (Confined.mem_audience.1 hs.watching).1
  case away =>
    exact fun j hj hm => hs.away j hj ((sub j).subset hm)
  case once =>
    exact hs.once.sublist (sub i)
  case uids =>
    rw [stream]
    exact hs.uids
  case live_uid =>
    rw [stream, live]
    exact hs.live_uid
  case live_nodup =>
    rw [live]
    exact hs.live_nodup
  case subscribers =>
    rw [stream]
    exact fun j d hd => (hs.subscribers j d hd).trans_le connections

end Seated

/-! ## Hubs that the connection cannot tell apart -/

/-- Two hubs in which the stream plays the same, and the connection has been sent the same. -/
structure Alike (i : StreamId) (c : ConnId) (h h' : Hub) : Prop extends Resembles i h h' where
  connection : h'.connection c = h.connection c
  known : i < h.streams.length
  known' : i < h'.streams.length
  watching : c ∈ h.audience i
  watching' : c ∈ h'.audience i

section Alike

variable {h h' h'' m m' : Hub} {i j : StreamId} {c d : ConnId}

theorem subscriberCount_ne_zero (hc : c ∈ h.audience i) : h.subscriberCount i ≠ 0 :=
  fun none => List.ne_nil_of_mem hc (List.length_eq_zero_iff.1 none)

theorem watched_iff (hc : c ∈ h.audience i) (hc' : c ∈ h'.audience i) :
    h'.subscriberCount i = 0 ↔ h.subscriberCount i = 0 :=
  iff_of_false (subscriberCount_ne_zero hc') (subscriberCount_ne_zero hc)

theorem Alike.symm (ha : Alike i c h h') : Alike i c h' h where
  archive := ha.archive.symm
  config := ha.config.symm
  clock := ha.clock.symm
  stream := ha.stream.symm
  watched := ha.watched.symm
  connection := ha.connection.symm
  known := ha.known'
  known' := ha.known
  watching := ha.watching'
  watching' := ha.watching

theorem Alike.trans (h₁ : Alike i c h h') (h₂ : Alike i c h' h'') : Alike i c h h'' where
  archive := h₂.archive.trans h₁.archive
  config := h₂.config.trans h₁.config
  clock := h₂.clock.trans h₁.clock
  stream := h₂.stream.trans h₁.stream
  watched := h₂.watched.trans h₁.watched
  connection := h₂.connection.trans h₁.connection
  known := h₁.known
  known' := h₂.known'
  watching := h₁.watching
  watching' := h₂.watching'

/-- Both have changed what the stream plays, in the same way. -/
theorem Alike.silent (ha : Alike i c h h') (hc : Confined i h m) (hc' : Confined i h' m')
    (hs : Silent i h m) (hs' : Silent i h' m') (clock : m.clock = h.clock)
    (clock' : m'.clock = h'.clock) (stream : (m'.stream i).sketch = (m.stream i).sketch) :
    Alike i c m m' where
  archive := hc'.archive.trans (ha.archive.trans hc.archive.symm)
  config := hc'.config.trans (ha.config.trans hc.config.symm)
  clock := clock'.trans (ha.clock.trans clock.symm)
  stream
  watched := by
    rw [subscriberCount, subscriberCount, hs.audience, hs'.audience]
    exact ha.watched
  connection := by
    rw [hs.connection, hs'.connection]
    exact ha.connection
  known := hc.known ha.known
  known' := hc'.known ha.known'
  watching := hs.audience ▸ ha.watching
  watching' := hs'.audience ▸ ha.watching'

theorem Alike.modifyStream (ha : Alike i c h h') {f : Stream → Stream}
    (uid : ∀ s, (f s).uid = s.uid) (attached : ∀ s, (f s).attached = s.attached)
    (joins : ∀ s, (f s).joins = s.joins) (subscribers : ∀ s, (f s).subscribers = s.subscribers)
    (sketch : ∀ s s', s'.sketch = s.sketch → (f s').sketch = (f s).sketch) :
    Alike i c (h.modifyStream i f) (h'.modifyStream i f) := by
  refine ha.silent (confined_modifyStream h i uid attached joins (by rw [subscribers]))
    (confined_modifyStream h' i uid attached joins (by rw [subscribers]))
    (silent_modifyStream subscribers) (silent_modifyStream subscribers) rfl rfl ?_
  rw [stream_modifyStream_self ha.known, stream_modifyStream_self ha.known']
  exact sketch _ _ ha.stream

theorem alike_lockstep : Lockstep i (Alike i c) where
  resembles ha := ha.toResembles
  replay {h h' f} rounds ha := by
    refine ha.silent (confined_modifyReplay h i _) (confined_modifyReplay h' i _)
      (silent_modifyReplay _) (silent_modifyReplay _) rfl rfl ?_
    have told (m : Hub) (known : i < m.streams.length) :
        ((m.modifyReplay i (f m.config m.archive m.now)).stream i).sketch =
          { (m.stream i).sketch with
            replay := f m.config m.archive m.now.rounded (m.stream i).replay.rounded } := by
      rw [stream_modifyReplay known, ← rounds]
      rfl
    rw [told h ha.known, told h' ha.known', ha.stream, ha.replay, ha.config, ha.archive, ha.now]
  setLive live ha := ha.modifyStream (fun _ => rfl) (fun _ => rfl) (fun _ => rfl) (fun _ => rfl)
    fun _ _ => congrArg fun s : Stream => { s with live }
  setPlaying playing ha := ha.modifyStream (fun _ => rfl) (fun _ => rfl) (fun _ => rfl)
    (fun _ => rfl) fun _ _ => congrArg fun s : Stream => { s with playing }
  registerLive {h h'} ha :=
    ha.silent (confined_registerLive h i) (confined_registerLive h' i) silent_registerLive
      silent_registerLive (inert_clock.registerLive h i) (inert_clock.registerLive h' i) (by
        rw [(registerLive_eq h i).1, (registerLive_eq h' i).1]
        exact ha.stream)
  deregisterLive {h h'} ha :=
    ha.silent (confined_deregisterLive h i) (confined_deregisterLive h' i) silent_deregisterLive
      silent_deregisterLive (inert_clock.deregisterLive h i) (inert_clock.deregisterLive h' i) (by
        rw [deregisterLive_stream, deregisterLive_stream]
        exact ha.stream)
  unsubscribeIfIdle {h h'} ha := by
    have same (m : Hub) (hc : c ∈ m.audience i) : m.unsubscribeIfIdle i = m :=
      if_neg (subscriberCount_ne_zero hc)
    rw [same h ha.watching, same h' ha.watching']
    exact ha

/-! ## The same is sent -/

theorem sketch_of_sent {batch : List Message} (hs : Sent i c batch h m) :
    (m.stream i).sketch = (h.stream i).sketch := by
  obtain ⟨subscribers, stream⟩ := hs.stream
  rw [stream]
  rfl

/-- Both have sent the connection a batch that it took. -/
theorem Alike.sent (ha : Alike i c h h') {batch : List Message} (hs : Sent i c batch h m)
    (hs' : Sent i c batch h' m') (config : m.config = h.config) (config' : m'.config = h'.config)
    (clock : m.clock = h.clock) (clock' : m'.clock = h'.clock) (known : i < m.streams.length)
    (known' : i < m'.streams.length) (opened : (m.connection c).closed = false) :
    Alike i c m m' := by
  rw [hs.connection] at opened
  have watching := hs.watching (Connection.send_of_open opened).1
  rw [← ha.connection] at opened
  have watching' := hs'.watching (Connection.send_of_open opened).1
  refine ⟨⟨?_, ?_, ?_, ?_, watched_iff watching watching'⟩, ?_, known, known', watching, watching'⟩
  · rw [hs.archive, hs'.archive, ha.archive]
  · rw [config, config', ha.config]
  · rw [clock, clock', ha.clock]
  · rw [sketch_of_sent hs, sketch_of_sent hs', ha.stream]
  · rw [hs.connection, hs'.connection, ha.connection]

theorem Alike.deliver (ha : Alike i c h h') (once : (h.audience i).Nodup)
    (once' : (h'.audience i).Nodup) (events : List Message)
    (opened : ((h.deliver i events).connection c).closed = false) :
    Alike i c (h.deliver i events) (h'.deliver i events) := by
  have same : (h'.deliver i events).connection c = (h.deliver i events).connection c := by
    rw [connection_deliver ha.known once ha.watching,
      connection_deliver ha.known' once' ha.watching', ha.connection]
  have confined := confined_deliver h i events
  have confined' := confined_deliver h' i events
  exact ha.sent (sent_deliver ha.known once ha.watching events opened)
    (sent_deliver ha.known' once' ha.watching' events (same ▸ opened)) confined.config
    confined'.config (inert_clock.deliver h i events) (inert_clock.deliver h' i events)
    (confined.known ha.known) (confined'.known ha.known') opened

/-- A timer of the stream goes off. -/
theorem Alike.fire (ha : Alike i c h h') (once : (h.audience i).Nodup)
    (once' : (h'.audience i).Nodup) (epoch : Nat)
    (opened : ((h.fire i epoch).connection c).closed = false) :
    Alike i c (h.fire i epoch) (h'.fire i epoch) := by
  have taken : Alike i c (h.modifyReplay i fun r => (r.takeDue h.config).1)
      (h'.modifyReplay i fun r => (r.takeDue h'.config).1) :=
    alike_lockstep.replay Replay.rounds_takeDue ha
  have silent (m : Hub) : Silent i m (m.modifyReplay i fun r => (r.takeDue m.config).1) :=
    silent_modifyReplay _
  rw [fire_eq] at opened ⊢
  rw [fire_eq, ha.epoch]
  dsimp only at opened ⊢
  rw [ha.takeDue_eq]
  split_ifs at opened ⊢ with late none
  · exact ha
  · exact alike_lockstep.resume taken epoch
  · rw [(silent_resume epoch).connection] at opened
    refine alike_lockstep.resume (taken.deliver ?_ ?_ _ opened) epoch
    · rw [(silent h).audience]
      exact once
    · rw [(silent h').audience]
      exact once'

theorem config_broadcast (h : Hub) (batch : List Message) : (h.broadcast batch).config = h.config :=
  broadcast_same (fun h i batch => (confined_send h i batch).config)
    (fun h i => (confined_unsubscribeIfIdle h i).config) h batch

theorem streams_broadcast (h : Hub) (batch : List Message) :
    (h.broadcast batch).streams.length = h.streams.length :=
  @broadcast_same _ (fun h => h.streams.length) (fun h i batch => (confined_send h i batch).streams)
    (fun h i => (confined_unsubscribeIfIdle h i).streams) h batch

/-- What is received is sent on in both, or in neither. -/
theorem Alike.broadcast (ha : Alike i c h h') (hs : Seated i c h) (hs' : Seated i c h')
    (batch : List Message) (opened : ((h.broadcast batch).connection c).closed = false) :
    Alike i c (h.broadcast batch) (h'.broadcast batch) := by
  have known (m : Hub) (hm : i < m.streams.length) : i < (m.broadcast batch).streams.length := by
    rwa [streams_broadcast]
  have listed : h'.Listed i ↔ h.Listed i := by
    rw [hs.listed_iff_live, hs'.listed_iff_live, ha.live, ha.playing]
  by_cases some : batch = []
  · simpa [Hub.broadcast, some] using ha
  by_cases fed : h.Listed i
  · have sent {m : Hub} (hm : Seated i c m) (fed : m.Listed i) :
        Sent i c batch m (m.broadcast batch) :=
      sent_broadcast (hm.listed_iff.1 fed) (fed_nodup_of_uid hm.live_nodup hm.live_uid) hm.known
        hm.once hm.watching (fun j _ hj => hm.away j hj) some
    exact ha.sent (sent hs fed) (sent hs' (listed.2 fed)) (config_broadcast h batch)
      (config_broadcast h' batch) (inert_clock.broadcast h batch) (inert_clock.broadcast h' batch)
      (known h ha.known) (known h' ha.known') opened
  · have aside {m : Hub} (hm : Seated i c m) (out : ¬m.Listed i) :
        Alike i c m (m.broadcast batch) := by
      have out' := mt hm.listed_iff.2 out
      have aside := aside_broadcast (c := c) out'
        (fun j hj => hm.away j fun e => out' (e ▸ hj)) batch
      have watching := aside.mem_audience.2 hm.watching
      exact ⟨⟨aside.archive, config_broadcast m batch, inert_clock.broadcast m batch,
        by rw [aside.stream], watched_iff hm.watching watching⟩, aside.connection, hm.known,
        known m hm.known, hm.watching, watching⟩
    exact (aside hs fed).symm.trans (ha.trans (aside hs' (mt listed.1 fed)))

end Alike

/-! ## What others do -/

section Others

variable {h : Hub} {i j : StreamId} {c d : ConnId}

theorem Seated.alike_refl (hs : Seated i c h) : Alike i c h h where
  archive := rfl
  config := rfl
  clock := rfl
  stream := rfl
  watched := Iff.rfl
  connection := rfl
  known := hs.known
  known' := hs.known
  watching := hs.watching
  watching' := hs.watching

/-- What happens to another stream does not show. -/
theorem Seated.alike_confined (hs : Seated i c h) {m : Hub} (hc : Confined j h m) (hj : j ≠ i)
    (clock : m.clock = h.clock) : Alike i c h m := by
  have aside := hc.aside (Ne.symm hj) (hs.away j hj)
  have watching := aside.mem_audience.2 hs.watching
  exact ⟨⟨aside.archive, hc.config, clock, by rw [aside.stream], watched_iff hs.watching watching⟩,
    aside.connection, hs.known, hc.known hs.known, hs.watching, watching⟩

/-- A stream that plays before somebody is fed already. -/
theorem Seated.alike_play (hs : Seated i c h) (playing : (h.stream i).playing = true) :
    Alike i c h (h.play i) := by
  have served := hs.steady.served playing hs.watched
  have confined := confined_play h i
  have silent : Silent i h (h.play i) := silent_play
  have watching : c ∈ (h.play i).audience i := silent.audience.symm ▸ hs.watching
  refine ⟨⟨confined.archive, confined.config, inert_clock.play h i, congrArg Stream.sketch ?_,
    watched_iff hs.watching watching⟩, silent.connection c, hs.known, confined.known hs.known,
    hs.watching, watching⟩
  unfold Hub.play
  split_ifs at served ⊢ with live
  · rw [(registerLive_eq h i).1]
  · -- a replay that runs with its timer pending is left alone
    obtain ⟨timer, armed, -⟩ := hs.steady.timed.exists_timer served
    have ran : ∀ config archive now,
        (h.stream i).replay.run config archive now = ((h.stream i).replay, .scheduled) :=
      fun _ _ _ => if_pos (by simp [served, armed])
    rw [runReplay, if_neg (subscriberCount_ne_zero hs.watching)]
    simp only [ran]
    rw [stream_modifyReplay hs.known, ran]

theorem enrol_of_unknown (hj : ¬j < h.streams.length) (d : ConnId) : h.enrol j d = h := by
  rw [Hub.enrol, Hub.modifyStream, List.modify_eq_self (Nat.not_lt.1 hj)]

theorem Seated.watching_enrol (hs : Seated i c h) (hj : j < h.streams.length) (d : ConnId) :
    c ∈ (h.enrol j d).audience i := by
  obtain ⟨subscribed, alive⟩ := Confined.mem_audience.1 hs.watching
  refine Confined.mem_audience.2 ⟨?_, alive⟩
  by_cases hji : i = j
  · subst hji
    rw [stream_enrol_self hj]
    exact List.mem_append_left _ subscribed
  · rwa [stream_enrol_ne d hji]

/-- Another connection is put down as a subscriber. -/
theorem Seated.enrol (hs : Seated i c h) (hj : j < h.streams.length)
    (hd : d < h.connections.length) (new : d ∉ h.audience j) (other : d ≠ c) :
    Seated i c (h.enrol j d) := by
  refine ⟨?steady, hs.watching_enrol hj d, fun k hk hm => ?away, ?once, fun k hk => ?uids,
    fun e he => ?live_uid, hs.live_nodup, fun k e he => ?subscribers⟩
  case steady =>
    by_cases hji : j = i
    · subst hji
      have apart : (h.enrol j d).Apart j := apart_modifyStream hs.steady.toExclusive rfl rfl
        hs.steady.timed hs.steady.running hs.steady.listed
      refine ⟨apart, fun playing _ => ?_⟩
      rw [Listed, stream_enrol_self hj] at *
      exact hs.steady.served playing hs.watched
    · refine hs.steady.congr (Nat.le_of_eq (streams_enrol h j d).symm)
        (stream_enrol_ne d (Ne.symm hji)) ?_ fun _ _ ha => ha
      rw [Listed, Listed, stream_enrol_ne d (Ne.symm hji)]
      rfl
  case away =>
    exact hs.away k hk ((mem_audience_enrol hj hm).resolve_right fun e => other e.1.symm)
  case once =>
    by_cases hji : j = i
    · subst hji
      have joined := hs.once.concat new
      rw [List.concat_eq_append] at joined
      exact joined.sublist (sublist_audience_enrol hj d j)
    · have same : (h.enrol j d).audience i = h.audience i := by
        rw [audience, audience, stream_enrol_ne d (Ne.symm hji)]
        rfl
      rw [same]
      exact hs.once
  case uids =>
    rw [uid_enrol hj, uid_enrol hj]
    exact hs.uids k hk
  case live_uid =>
    rw [uid_enrol hj]
    exact hs.live_uid e he
  case subscribers =>
    by_cases hk : k = j
    · subst hk
      rw [stream_enrol_self hj] at he
      rcases List.mem_append.1 he with he | he
      · exact hs.subscribers k e he
      · rw [List.mem_singleton.1 he]
        exact hd
    · rw [stream_enrol_ne d hk] at he
      exact hs.subscribers k e he

theorem Seated.alike_enrol (hs : Seated i c h) (hj : j < h.streams.length) (d : ConnId) :
    Alike i c h (h.enrol j d) := by
  have watching := hs.watching_enrol hj d
  refine ⟨⟨rfl, rfl, rfl, ?_, watched_iff hs.watching watching⟩, rfl, hs.known, ?_, hs.watching,
    watching⟩
  · by_cases hji : i = j
    · subst hji
      rw [stream_enrol_self hj]
      rfl
    · rw [stream_enrol_ne d hji]
  · rw [streams_enrol]
    exact hs.known

/-- A stream resumes for another connection. -/
theorem Seated.resume (hs : Seated i c h) : let m := if (h.stream j).playing then h.play j else h
    Seated i c m ∧ Alike i c h m := by
  dsimp only
  split_ifs with playing
  · by_cases hji : j = i
    · subst hji
      refine ⟨hs.confined (confined_play h j) (fun _ => steady_play hs.steady.toApart playing)
        fun _ => ?_, hs.alike_play playing⟩
      have silent : Silent j h (h.play j) := silent_play
      exact silent.subscribers ▸ (Confined.mem_audience.1 hs.watching).1
    · exact ⟨hs.confined (confined_play h j) (fun e => absurd e hji) fun e => absurd e hji,
        hs.alike_confined (confined_play h j) hji (inert_clock.play h j)⟩
  · exact ⟨hs, hs.alike_refl⟩

/-- Another connection joins a stream. -/
theorem Seated.addSubscriber (hs : Seated i c h) (hd : d < h.connections.length) (other : d ≠ c) :
    Seated i c (h.addSubscriber j d) ∧ Alike i c h (h.addSubscriber j d) := by
  by_cases joined : d ∈ h.audience j
  · have present : (h.audience j).contains d = true := by simpa using joined
    rw [Hub.addSubscriber, if_pos present]
    exact hs.resume
  · rw [addSubscriber_eq joined]
    by_cases hj : j < h.streams.length
    · obtain ⟨seated, alike⟩ := (hs.enrol hj hd joined other).resume (j := j)
      exact ⟨seated, (hs.alike_enrol hj d).trans alike⟩
    · rw [enrol_of_unknown hj]
      exact hs.resume

/-- Another connection leaves a stream. -/
theorem Seated.removeSubscriber (hs : Seated i c h) (other : d ≠ c) :
    Seated i c (h.removeSubscriber j d) ∧ Alike i c h (h.removeSubscriber j d) := by
  have confined := confined_removeSubscriber h j d
  have clock := inert_clock.removeSubscriber h j d
  by_cases hji : j = i
  · subst hji
    obtain ⟨subscribed, alive⟩ := Confined.mem_audience.1 hs.watching
    have stays : c ∈ (h.stream j).subscribers.filter fun e => h.isAlive e && e != d :=
      List.mem_filter.2 ⟨subscribed, by simp [alive, Ne.symm other]⟩
    have left : h.removeSubscriber j d = h.modifyStream j fun s => { s with
        subscribers := s.subscribers.filter fun e => h.isAlive e && e != d } := by
      rw [Hub.removeSubscriber, stream_modifyStream_self hs.known,
        if_neg (List.ne_nil_of_mem stays)]
    have stream : (h.removeSubscriber j d).stream j = { h.stream j with
        subscribers := (h.stream j).subscribers.filter fun e => h.isAlive e && e != d } := by
      rw [left, stream_modifyStream_self hs.known]
    have seated : Seated j c (h.removeSubscriber j d) :=
      hs.confined confined (fun _ => steady_removeSubscriber hs.steady d) fun _ => by
        rw [stream]
        exact stays
    refine ⟨seated, ⟨confined.archive, confined.config, clock, ?_,
      watched_iff hs.watching seated.watching⟩, ?_, hs.known, seated.known, hs.watching,
      seated.watching⟩
    · rw [stream]
      rfl
    · rw [left]
      rfl
  · exact ⟨hs.confined confined (fun e => absurd e hji) fun e => absurd e hji,
      hs.alike_confined confined hji clock⟩

end Others

end Hub

end EventRelay
