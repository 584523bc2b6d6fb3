import EventRelay.Proofs.Elsewhere
import EventRelay.Proofs.Playing

/-!
# The hand-off

A connection watches a stream that has been sent to a place in history. Events are received all the
while, and are stored before they are sent to the live streams. As long as the stream replays, an
event that is received comes up in its turn, unless it is behind the cursor of the replay; and once
the stream is live, it is sent on. So between the two nothing is lost and nothing is sent twice.
-/

namespace EventRelay

/-- Requests that leave a stream where it is and as fast as it is. -/
def Payload.spares : Payload → Bool
  | .stop | .seek _ | .speed _ | .subscribeStream _ => false
  | _ => true

/-- Such a request starts the stream of its session or describes it, or does nothing to it. -/
theorem Desk.handleControl_of_spares (d : Desk) {i : StreamId} (hi : d.session.stream = some i)
    {m : Message} (spares : m.payload.spares = true) :
    (d.handleControl m).1.hub = d.hub ∨ (d.handleControl m).1.hub = d.hub.startStream i ∨
      ∃ text, (d.handleControl m).1.hub = d.hub.describe i text := by
  have onStream (f : Hub → StreamId → Hub) : (d.onStream f).hub = f d.hub i := by
    rw [onStream, streamFor, hi]
  obtain ⟨timestamp, version, payload⟩ := m
  cases payload with
  | start => exact .inr (.inl (onStream fun h i => h.startStream i))
  | streamDescription text => exact .inr (.inr ⟨text, onStream fun h i => h.describe i text⟩)
  | stop | seek | speed | subscribeStream => cases spares
  | _ => exact .inl rfl

/-- A run is stored whole. No store holds more events than can be numbered by signed 64-bit
numbers. -/
def Archive.Takes (a : Archive) (run : List Message) : Prop :=
  (a.appendBatch run).2 = none ∧ a.store.count + run.length ≤ TableStore.maxLimit

instance (a : Archive) : DecidablePred a.Takes := fun _ => inferInstanceAs (Decidable (_ ∧ _))

theorem Archive.Takes.serves {a : Archive} {log run : List Message} (ht : a.Takes run)
    (h : a.Serves log) (bounded : Bounded run) : (a.appendBatch run).1.Serves (log ++ run) := by
  obtain ⟨ok, room⟩ := ht
  unfold appendBatch at ok ⊢
  split_ifs at ok ⊢
  exact ⟨h.holds.appendAll ok room, h.up,
    fun m hm => (List.mem_append.1 hm).elim (h.bounded m) (bounded m)⟩

namespace Relay

/-- The events that are received. -/
def Act.events : Act → List Message
  | .handle _ (.data run) => run
  | _ => []

/-- What may happen while a connection watches a stream play: runs of events are received and
stored, by any session, and timers go off; the sessions that hold the stream start it, if they
direct it at all, and those that do not hold it do not come to; and the connection is drained, and
is neither closed nor gone. -/
def Spares (r : Relay) (i : StreamId) (c : ConnId) : Act → Prop
  | .handle _ (.data run) => r.hub.archive.Takes run ∧ Bounded run
  | .handle s (.control m) =>
    if (r.session s).stream = some i then m.payload.spares = true
    else ((r.step (.handle s (.control m))).session s).stream ≠ some i
  | .disconnect s => (r.session s).stream ≠ some i
  | .vanish s | .reply s _ | .close s | .dropWriter s | .drop s => s ≠ c
  | .accept _ | .drain _ | .tick _ | .late .. | .wait _ => True
  | .fail .. => False

instance (r : Relay) (i : StreamId) (c : ConnId) : DecidablePred (r.Spares i c)
  | .handle _ (.data _) => inferInstanceAs (Decidable (_ ∧ _))
  | .handle s (.control m) => inferInstanceAs (Decidable
    (if (r.session s).stream = some i then m.payload.spares = true
      else ((r.step (.handle s (.control m))).session s).stream ≠ some i))
  | .disconnect s => inferInstanceAs (Decidable ((r.session s).stream ≠ some i))
  | .vanish s | .reply s _ | .close s | .dropWriter s | .drop s =>
    inferInstanceAs (Decidable (s ≠ c))
  | .accept _ | .drain _ | .tick _ | .late .. | .wait _ => inferInstanceAs (Decidable True)
  | .fail .. => inferInstanceAs (Decidable False)

/-- A connection is left to watch a stream play, and stays open: there is room in its queue for
whatever it is sent. -/
def Attends (i : StreamId) (c : ConnId) : Relay → List Act → Prop
  | _, [] => True
  | r, act :: acts => r.Allows act ∧ r.Spares i c act ∧
    ((r.step act).hub.connection c).closed = false ∧ Attends i c (r.step act) acts

instance (i : StreamId) (c : ConnId) :
    ∀ (r : Relay) (acts : List Act), Decidable (Attends i c r acts)
  | _, [] => inferInstanceAs (Decidable True)
  | r, act :: acts =>
    have : Decidable (Attends i c (r.step act) acts) := instDecidableAttends i c _ acts
    inferInstanceAs (Decidable (r.Allows act ∧ r.Spares i c act ∧
      ((r.step act).hub.connection c).closed = false ∧ Attends i c (r.step act) acts))

/-- What the writer of a connection takes. -/
def drained (c : ConnId) (r : Relay) : Act → List Message
  | .drain s => if s = c then (r.hub.connection c).queue.flatten else []
  | _ => []

/-- The events that come to be replayed by a stream: they are received while it replays, and are
not behind its cursor. -/
def caught (i : StreamId) (r : Relay) (act : Act) : List Message :=
  if (r.hub.stream i).live then []
  else act.events.filter fun m => (r.hub.stream i).replay.cursor.last ≤ m.timestamp

/-- The events that are received while a stream is live. -/
def relayed (i : StreamId) (r : Relay) (act : Act) : List Message :=
  if (r.hub.stream i).live then act.events else []

/-- What there is of something in a run of acts. -/
def gather (f : Relay → Act → List Message) : Relay → List Act → List Message
  | _, [] => []
  | r, act :: acts => f r act ++ gather f (r.step act) acts

/-- The connection has been sent `sent` of the events that are wanted of the history, and those
that were fed to the stream since it is live. -/
structure Follows (r : Relay) (i : StreamId) (c : ConnId) (t : Int64)
    (log wanted fed sent : List Message) : Prop where
  sound : r.Sound
  writable : r.readOnly = false
  serves : r.hub.archive.Serves log
  watching : c ∈ r.hub.audience i
  plays : (r.hub.stream i).Plays t log wanted fed sent

section Step

variable {r : Relay} {i : StreamId} {c : ConnId} {t : Int64} {log wanted fed sent : List Message}

theorem readOnly_step (r : Relay) (act : Act) : (r.step act).readOnly = r.readOnly := by
  cases act with
  | tick i =>
    rw [step]
    split <;> rfl
  | _ => rfl

/-- What comes of an act: some more events are sent, and are drained or queued. -/
structure Outcome (r : Relay) (i : StreamId) (c : ConnId) (act : Act)
    (t : Int64) (log wanted fed sent more : List Message) : Prop where
  follows : (r.step act).Follows i c t (log ++ act.events) (wanted ++ r.caught i act)
    (fed ++ r.relayed i act) (sent ++ more)
  received : r.drained c act ++ ((r.step act).hub.connection c).queue.flatten =
    (r.hub.connection c).queue.flatten ++ more

theorem caught_of_events {act : Act} (none : act.events = []) : r.caught i act = [] := by
  rw [caught, none]
  split_ifs <;> rfl

theorem relayed_of_events {act : Act} (none : act.events = []) : r.relayed i act = [] := by
  rw [relayed, none]
  split_ifs <;> rfl

/-- An act that brings no events in. -/
theorem Follows.quiet (h : r.Follows i c t log wanted fed sent) {act : Act} (allowed : r.Allows act)
    (none : act.events = []) (archive : (r.step act).hub.archive = r.hub.archive)
    {more : List Message} (watching : c ∈ (r.step act).hub.audience i)
    (plays : ((r.step act).hub.stream i).Plays t log wanted fed (sent ++ more))
    (received : r.drained c act ++ ((r.step act).hub.connection c).queue.flatten =
      (r.hub.connection c).queue.flatten ++ more) :
    r.Outcome i c act t log wanted fed sent more where
  follows := by
    rw [none, caught_of_events none, relayed_of_events none, List.append_nil, List.append_nil,
      List.append_nil]
    exact ⟨h.sound.step allowed, (readOnly_step r act).trans h.writable, archive ▸ h.serves,
      watching, plays⟩
  received := received

theorem Follows.aside (h : r.Follows i c t log wanted fed sent) {act : Act} (allowed : r.Allows act)
    (none : act.events = []) (aside : Hub.Aside i c r.hub (r.step act).hub)
    (kept : r.drained c act = []) : r.Outcome i c act t log wanted fed sent [] := by
  refine h.quiet allowed none aside.archive (aside.mem_audience.2 h.watching) ?_ ?_
  · rw [aside.stream, List.append_nil]
    exact h.plays
  · rw [kept, aside.connection, List.nil_append, List.append_nil]

theorem Follows.known (h : r.Follows i c t log wanted fed sent) : i < r.hub.streams.length :=
  h.sound.hub.known_of_catalog
    (h.sound.hub.catalog_of_watched (List.ne_nil_of_mem h.watching))

theorem Follows.hub_data (h : r.Follows i c t log wanted fed sent) (s : SessionId)
    (run : List Message) :
    (r.step (.handle s (.data run))).hub = (r.hub.stored run).broadcast run := by
  rw [step, Desk.handleRun, Desk.handleData_eq, if_neg (by simp [desk, h.writable])]
  rfl

/-- What is received is stored and then broadcast. -/
theorem Follows.broadcast (h : r.Follows i c t log wanted fed sent) {s : SessionId}
    {run more : List Message} (allowed : r.Allows (.handle s (.data run)))
    (spares : r.Spares i c (.handle s (.data run)))
    (archive : ((r.hub.stored run).broadcast run).archive = (r.hub.stored run).archive)
    (watching : c ∈ ((r.hub.stored run).broadcast run).audience i)
    (plays : (((r.hub.stored run).broadcast run).stream i).Plays t (log ++ run)
      (wanted ++ r.caught i (.handle s (.data run))) (fed ++ r.relayed i (.handle s (.data run)))
      (sent ++ more))
    (queue : (((r.hub.stored run).broadcast run).connection c).queue.flatten =
      (r.hub.connection c).queue.flatten ++ more) :
    r.Outcome i c (.handle s (.data run)) t log wanted fed sent more := by
  obtain ⟨takes, bounded⟩ := spares
  rw [← h.hub_data s run] at archive watching plays queue
  have serves := takes.serves h.serves bounded
  exact ⟨⟨h.sound.step allowed, (readOnly_step r _).trans h.writable, archive ▸ serves, watching,
    plays⟩, queue⟩

/-- As long as the stream replays, a run that is received only grows history. -/
theorem Follows.data_replaying (h : r.Follows i c t log wanted fed sent) {s : SessionId}
    {run : List Message} (allowed : r.Allows (.handle s (.data run)))
    (spares : r.Spares i c (.handle s (.data run))) (replaying : (r.hub.stream i).live = false) :
    r.Outcome i c (.handle s (.data run)) t log wanted fed sent [] := by
  obtain ⟨rfl, covers⟩ := h.plays.covers replaying
  have out : ¬(r.hub.stored run).Listed i :=
    (h.sound.hub.steady i h.known).not_listed replaying
  have aside := (h.sound.hub.stored run).aside_broadcast
    (Hub.Confined.mem_audience.1 h.watching).1 out run
  refine h.broadcast allowed spares aside.archive (aside.mem_audience.2 h.watching) ?_ ?_
  · rw [aside.stream, caught, relayed, replaying, List.append_nil]
    exact .replaying replaying (covers.append h.serves.bounded spares.2)
  · rw [aside.connection, List.append_nil]
    rfl

/-- Once the stream is live, a run that is received is sent on. -/
theorem Follows.data_live (h : r.Follows i c t log wanted fed sent) {s : SessionId}
    {run : List Message} (allowed : r.Allows (.handle s (.data run)))
    (spares : r.Spares i c (.handle s (.data run))) (live : (r.hub.stream i).live = true)
    (stays : (((r.hub.stored run).broadcast run).connection c).closed = false) :
    r.Outcome i c (.handle s (.data run)) t log wanted fed sent run := by
  obtain ⟨playing, rfl⟩ := h.plays.all live
  have listed : (r.hub.stored run).Listed i := by
    have served := (h.sound.hub.steady i h.known).served playing (List.ne_nil_of_mem h.watching)
    rwa [if_pos live] at served
  have goesOn {s' : Stream} (live' : s'.live = true) (playing' : s'.playing = true) :
      s'.Plays t (log ++ run) (wanted ++ r.caught i (.handle s (.data run)))
        (fed ++ r.relayed i (.handle s (.data run))) (inOrder wanted ++ fed ++ run) := by
    rw [caught, relayed, live, if_pos rfl, if_pos rfl, List.append_nil, List.append_assoc]
    exact .live _ live' playing'
  by_cases none : run = []
  · have same : (r.hub.stored run).broadcast run = r.hub.stored run := if_pos none
    refine h.broadcast allowed spares (by rw [same]) (by rw [same]; exact h.watching) ?_ ?_
    · rw [same]
      exact goesOn live playing
    · rw [same, none, List.append_nil]
      rfl
  · have sent := (h.sound.hub.stored run).sent_broadcast h.watching listed none
    rw [sent.connection] at stays
    obtain ⟨taken, queued⟩ := Connection.send_of_open stays
    obtain ⟨subscribers, stream⟩ := sent.stream
    refine h.broadcast allowed spares sent.archive (sent.watching taken) ?_ ?_
    · rw [stream]
      exact goesOn live playing
    · rw [sent.connection, queued, List.flatten_append, List.flatten_singleton]
      rfl

/-- The timer of the stream goes off. -/
theorem Follows.tick (h : r.Follows i c t log wanted fed sent) (allowed : r.Allows (.tick i))
    (stays : ((r.step (.tick i)).hub.connection c).closed = false) :
    ∃ more, r.Outcome i c (.tick i) t log wanted fed sent more := by
  obtain ⟨timer, pending⟩ := Option.isSome_iff_exists.1 allowed.1
  have hub : (r.step (.tick i)).hub = r.hub.fire i timer.epoch := by
    rw [step, pending]
    rfl
  rw [hub] at stays
  obtain ⟨due, plays, queued, watching⟩ := Hub.plays_fire h.serves
    (h.sound.hub.steady i h.known).toApart (h.sound.hub.audience_nodup i) h.watching h.plays pending
    stays
  refine ⟨due, h.quiet allowed rfl ?_ ?_ ?_ ?_⟩
  · rw [hub]
    exact (Hub.confined_fire _ i _).archive
  · rwa [hub]
  · rwa [hub]
  · rw [hub]
    exact queued

/-- A session that holds the stream directs it. -/
theorem Follows.direct (h : r.Follows i c t log wanted fed sent) {s : SessionId} {m : Message}
    (allowed : r.Allows (.handle s (.control m))) (holds : (r.session s).stream = some i)
    (spares : m.payload.spares = true) :
    ∃ more, r.Outcome i c (.handle s (.control m)) t log wanted fed sent more := by
  have onStream {f : Hub → StreamId → Hub} (confined : Hub.Confined i r.hub (f r.hub i))
      (silent : Hub.Silent i r.hub (f r.hub i))
      (plays : ((f r.hub i).stream i).Plays t log wanted fed sent)
      (hub : (r.step (.handle s (.control m))).hub = f r.hub i) :
      r.Outcome i c (.handle s (.control m)) t log wanted fed sent [] := by
    refine h.quiet allowed rfl ?_ ?_ ?_ ?_
    · rw [hub]
      exact confined.archive
    · rw [hub, silent.audience]
      exact h.watching
    · rw [hub, List.append_nil]
      exact plays
    · rw [hub, silent.connection, List.append_nil]
      rfl
  rcases (r.desk s).handleControl_of_spares holds spares with hub | hub | ⟨text, hub⟩
  · exact ⟨[], onStream (f := fun h _ => h) (.refl i _) .refl h.plays hub⟩
  · refine ⟨[], onStream (Hub.confined_startStream _ i) Hub.silent_startStream ?_ hub⟩
    exact Hub.plays_startStream h.serves h.known h.plays
  · refine ⟨[], onStream (f := fun h i => h.describe i text) (Hub.confined_describe _ i text)
      (Hub.silent_modifyStream fun _ => rfl) ?_ hub⟩
    rw [Hub.describe, Hub.stream_modifyStream_self h.known]
    exact h.plays.congr rfl rfl rfl

theorem Follows.step (h : r.Follows i c t log wanted fed sent) {act : Act} (allowed : r.Allows act)
    (spares : r.Spares i c act) (stays : ((r.step act).hub.connection c).closed = false) :
    ∃ more, r.Outcome i c act t log wanted fed sent more := by
  have own {s : SessionId} (hs : s < r.sessions.length) : (r.session s).connection = s :=
    h.sound.connections s hs
  have other {s : SessionId} (hs : s < r.sessions.length) (hc : s ≠ c)
      (f : Connection → Connection) : Hub.Aside i c r.hub (r.modifyConnection s f).hub :=
    aside_modifyConnection (by rwa [own hs]) f
  have ready := allowed.1
  cases act with
  | handle s run =>
    cases run with
    | data run =>
      rcases live : (r.hub.stream i).live with _ | _
      · exact ⟨[], h.data_replaying allowed spares live⟩
      · rw [h.hub_data] at stays
        exact ⟨run, h.data_live allowed spares live stays⟩
    | control m =>
      by_cases holds : (r.session s).stream = some i
      · rw [Spares, if_pos holds] at spares
        exact h.direct allowed holds spares
      · rw [Spares, if_neg holds] at spares
        have after : ((r.desk s).handleControl m).1.session.stream ≠ some i := by
          have same : (r.step (.handle s (.control m))).session s =
              ((r.desk s).handleControl m).1.session :=
            (session_set r ready _).trans (if_pos rfl)
          rwa [same] at spares
        exact ⟨[], h.aside allowed rfl
          ((h.sound.desk ready).aside_handleControl h.watching holds allowed.2 after) rfl⟩
  | disconnect s =>
    exact ⟨[], h.aside allowed rfl ((h.sound.desk ready).aside_disconnect h.watching spares) rfl⟩
  | vanish s => exact ⟨[], h.aside allowed rfl (other ready spares Connection.drop) rfl⟩
  | reply s batch => exact ⟨[], h.aside allowed rfl (other ready spares _) rfl⟩
  | close s => exact ⟨[], h.aside allowed rfl (other ready spares _) rfl⟩
  | dropWriter s => exact ⟨[], h.aside allowed rfl (other ready spares _) rfl⟩
  | drop s => exact ⟨[], h.aside allowed rfl (other ready spares _) rfl⟩
  | accept capacity =>
    have known : c < r.hub.connections.length :=
      Hub.lt_of_isAlive (Hub.Confined.mem_audience.1 h.watching).2
    exact ⟨[], h.aside allowed rfl (aside_accept known capacity) rfl⟩
  | wait now => exact ⟨[], h.aside allowed rfl ⟨rfl, rfl, rfl⟩ rfl⟩
  | fail request on => exact spares.elim
  | late j epoch =>
    have superseded : r.hub.fire j epoch = r.hub := if_pos (Nat.ne_of_gt ready)
    refine ⟨[], h.aside allowed rfl ?_ rfl⟩
    rw [Relay.step, modifyHub, superseded]
    exact .refl
  | tick j =>
    by_cases hj : j = i
    · subst hj
      exact h.tick allowed stays
    · refine ⟨[], h.aside allowed rfl ?_ rfl⟩
      obtain ⟨timer, pending⟩ := Option.isSome_iff_exists.1 ready
      rw [Relay.step, pending]
      exact (Hub.confined_fire r.hub j timer.epoch).aside (Ne.symm hj)
        (h.sound.hub.away h.watching hj)
  | drain s =>
    by_cases hs : s = c
    · subst hs
      have connection : (r.step (.drain s)).hub.connection s = (r.hub.connection s).drain.1 := by
        rw [Relay.step, modifyConnection, own ready, Hub.connection_modifyConnection,
          if_pos ⟨rfl, Hub.lt_of_isAlive (Hub.Confined.mem_audience.1 h.watching).2⟩]
      refine ⟨[], h.quiet allowed rfl rfl ?_ ?_ ?_⟩
      · obtain ⟨subscribed, alive⟩ := Hub.Confined.mem_audience.1 h.watching
        refine Hub.Confined.mem_audience.2 ⟨subscribed, ?_⟩
        rw [Hub.isAlive, connection]
        exact alive
      · rw [List.append_nil]
        exact h.plays
      · rw [drained, if_pos rfl, connection]
        rfl
    · exact ⟨[], h.aside allowed rfl (other ready hs _) (if_neg hs)⟩

/-- What holds of a whole run of acts. -/
theorem Follows.steps : ∀ {acts : List Act} {r : Relay} {log wanted fed sent : List Message},
    r.Follows i c t log wanted fed sent → Attends i c r acts → ∃ log' more,
      (r.steps acts).Follows i c t log' (wanted ++ gather (caught i) r acts)
        (fed ++ gather (relayed i) r acts) (sent ++ more) ∧
      gather (drained c) r acts ++ ((r.steps acts).hub.connection c).queue.flatten =
        (r.hub.connection c).queue.flatten ++ more
  | [], r, log, wanted, fed, sent, h, _ => by
    refine ⟨log, [], ?_, ?_⟩
    · rw [gather, gather, List.append_nil, List.append_nil, List.append_nil]
      exact h
    · rw [List.append_nil]
      rfl
  | act :: acts, r, log, wanted, fed, sent, h, ⟨allowed, spares, stays, attends⟩ => by
    obtain ⟨more, follows, received⟩ := h.step allowed spares stays
    obtain ⟨log', rest, follows', received'⟩ := follows.steps attends
    refine ⟨log', more ++ rest, ?_, ?_⟩
    · rw [gather, gather, ← List.append_assoc, ← List.append_assoc, ← List.append_assoc]
      exact follows'
    · rw [gather, List.append_assoc, ← List.append_assoc _ more, ← received, List.append_assoc,
        ← received']
      rfl

end Step

/-! ## From a seek on -/

section Seek

variable {r : Relay} {i : StreamId} {c : ConnId} {log : List Message}

theorem archive_streamFor (d : Desk) : d.streamFor.1.hub.archive = d.hub.archive := by
  unfold Desk.streamFor
  split
  · rfl
  · exact Hub.archive_addSubscriber ..

/-- A stream that is sent to a time replays what is stored from that time on. -/
theorem Sound.follows_seek (hr : r.Sound) (writable : r.readOnly = false)
    (serves : r.hub.archive.Serves log) {s : SessionId} {m : Message} {t : Int64}
    (seeks : m.payload = .seek (.time t)) (allowed : r.Allows (.handle s (.control m)))
    (held : ((r.step (.handle s (.control m))).session s).stream = some i)
    (watching : c ∈ (r.step (.handle s (.control m))).hub.audience i)
    (forwards : ((r.step (.handle s (.control m))).hub.stream i).replay.direction = .forward) :
    (r.step (.handle s (.control m))).Follows i c t log (log.filter fun m => t ≤ m.timestamp)
      [] [] := by
  have sound := hr.step allowed
  have done : ((r.desk s).handleControl m).1 =
      (r.desk s).onStream fun h i => h.seekStream i (.time t) := by
    rw [Desk.handleControl, seeks]
  have hub : (r.step (.handle s (.control m))).hub =
      (r.desk s).streamFor.1.hub.seekStream (r.desk s).streamFor.2 (.time t) :=
    congrArg Desk.hub done
  have few : (r.desk s).streamFor.1.hub.streams.length < 4294967295 := by
    have := allowed.2
    rw [hub, (Hub.confined_seekStream ..).streams] at this
    exact this
  obtain ⟨turn, stream⟩ := (hr.desk allowed.1).streamFor few
  have found := turn.sound (hr.desk allowed.1)
  have same : (r.step (.handle s (.control m))).session s = (r.desk s).streamFor.1.session := by
    have kept : ((r.desk s).handleControl m).1.session = (r.desk s).streamFor.1.session := by
      rw [done]
      rfl
    exact (session_set r allowed.1 _).trans ((if_pos rfl).trans kept)
  have hi : (r.desk s).streamFor.2 = i := by
    rw [same, stream] at held
    exact Option.some.inj held
  rw [hi] at hub
  have archive : (r.desk s).streamFor.1.hub.archive = r.hub.archive := archive_streamFor _
  have sought := (Hub.confined_seekStream (r.desk s).streamFor.1.hub i (.time t)).archive
  refine ⟨sound, (readOnly_step r _).trans writable, ?_, watching, ?_⟩
  · rw [hub, sought, archive]
    exact serves
  · rw [hub] at forwards ⊢
    have known := found.known (hi ▸ stream)
    refine Hub.plays_seekStream (archive.symm ▸ serves) known ?_ t
    rw [← forwards]
    exact congrArg Direction.ofSpeed (Hub.speed_seekStream known t).symm

/-- A stream is sent to a time and plays forwards from there, and a connection watches. Whatever is
received meanwhile, and whenever timers go off, the connection is sent in turn the events from that
time on: those that were stored when the stream was sent there, and those that came in and were not
behind the cursor, which is at the last event fetched. When the stream is live all of them have been
sent, each once, and after them, each once, the events received since. -/
theorem Reachable.hands_off (reachable : r.Reachable) (writable : r.readOnly = false)
    (holds : r.hub.archive.store.Holds log) (bounded : Bounded log)
    (up : r.hub.archive.failing .fetch = false) {s : SessionId} {m : Message} {t : Int64}
    (seeks : m.payload = .seek (.time t)) (allowed : r.Allows (.handle s (.control m)))
    (held : ((r.step (.handle s (.control m))).session s).stream = some i)
    (watching : c ∈ (r.step (.handle s (.control m))).hub.audience i)
    (forwards : ((r.step (.handle s (.control m))).hub.stream i).replay.direction = .forward)
    {acts : List Act} (attends : Attends i c (r.step (.handle s (.control m))) acts) :
    let sought := r.step (.handle s (.control m))
    let final := sought.steps acts
    let replay := (final.hub.stream i).replay
    let wanted := log.filter (fun m => t ≤ m.timestamp) ++ gather (caught i) sought acts
    ∃ sent, gather (drained c) sought acts ++ (final.hub.connection c).queue.flatten =
        (sought.hub.connection c).queue.flatten ++ sent ∧
      ((final.hub.stream i).live = false → sent <+: inOrder wanted ∧
        replay.cursor.last = lastTime t (sent ++ replay.buffer)) ∧
      ((final.hub.stream i).live = true →
        sent = inOrder wanted ++ gather (relayed i) sought acts) := by
  intro sought final replay wanted
  have start : sought.Follows i c t log _ [] [] :=
    reachable.sound.follows_seek writable ⟨holds, up, bounded⟩ seeks allowed held watching forwards
  obtain ⟨log', sent, follows, whole⟩ := start.steps attends
  have plays := follows.plays
  rw [List.nil_append, List.nil_append] at plays
  refine ⟨sent, whole, fun replaying => ?_, fun live => (plays.all live).2⟩
  obtain ⟨-, covers⟩ := plays.covers replaying
  exact ⟨⟨_, covers.whole⟩, covers.last⟩

/-- Two events of one time are replayed, and a third that comes in meanwhile. A fourth is sent
on. -/
theorem Reachable.hands_off_twins :
    let event (name : String) : Message := .current 7 (.test ⟨name, []⟩)
    let twins : Store := (Store.memory.appendBatch [event "a", event "b"]).1
    let r := (start ⟨twins, fun _ => false⟩ ⟨1, 250, by decide, by decide⟩ 0 false).steps
      [.accept 4, .accept 4]
    let acts : List Act := [.handle 0 (.control (.current 0 .start)), .handle 1 (.data [event "c"]),
      .tick 0, .tick 0, .tick 0, .drain 0, .handle 1 (.data [event "d"])]
    let sought := r.step (.handle 0 (.control (.current 0 (.seek (.time 7)))))
    gather (drained 0) sought acts ++ ((sought.steps acts).hub.connection 0).queue.flatten =
      [event "a", event "b", event "c", event "d"] := by
  intro event twins r acts sought
  have reachable : r.Reachable := by
    refine ⟨_, _, _, _, _, ?_, rfl⟩
    decide
  have empty : Store.memory.Holds [] := .memory
  have holds : r.hub.archive.store.Holds [event "a", event "b"] :=
    empty.append [event "a", event "b"] (by decide)
  have attends : Attends 0 0 sought acts := by decide
  have live : ((sought.steps acts).hub.stream 0).live = true := by decide
  obtain ⟨sent, whole, -, all⟩ := hands_off reachable rfl holds (by decide) rfl rfl (by decide)
    (by decide) (by decide) (by decide) attends
  have earlier : (sought.hub.connection 0).queue.flatten = [] := by decide
  have wanted : [event "a", event "b"].filter (fun m => (7 : Int64) ≤ m.timestamp) ++
      gather (caught 0) sought acts = [event "a", event "b", event "c"] := by decide
  have fed : gather (relayed 0) sought acts = [event "d"] := by decide
  rw [whole, all live, earlier, wanted, fed, inOrder_of_ordered (by decide)]
  rfl

end Seek

end Relay

end EventRelay
