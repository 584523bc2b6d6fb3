import EventRelay.Proofs.Seated
import EventRelay.Proofs.Transitions

/-!
# Undisturbed by others

A connection watches a stream through a run of requests, events and timers. Others join the stream
and leave it, fall behind, and go. Whatever they do changes neither what the stream plays nor what
the connection is sent, and when.
-/

namespace EventRelay

namespace Hub

/-! ## One move -/

/-- What can happen around a stream that a connection watches: requests to the stream, events that
are received and events that are recorded, timers, the passing of time, and that the connection is
drained. And what others do meanwhile: they are let in, they join streams and leave them, and
something happens to their connections. -/
inductive Move where
  | control (request : Control)
  | describe (description : String)
  | receive (batch : List Message)
  | record (run : List Message)
  | tick (j : StreamId)
  | wait (ms : Nat)
  | drain
  | connect (capacity : Nat)
  | join (j : StreamId) (d : ConnId)
  | leave (j : StreamId) (d : ConnId)
  | change (d : ConnId) (connection : Connection)

/-- Others have no part in it. -/
def Move.own : Move → Bool
  | .connect _ | .join .. | .leave .. | .change .. => false
  | _ => true

/-- It is done by others than this connection, or happens to others. -/
def Move.Other (c : ConnId) : Move → Prop
  | .join _ d | .leave _ d | .change d _ => d ≠ c
  | _ => True

/-- The timer of a stream goes off, if one is pending. -/
def tick (h : Hub) (j : StreamId) : Hub :=
  match (h.stream j).replay.timer with
  | none => h
  | some timer => h.fire j timer.epoch

/-- One move around the stream. Only those that have been let in join, and nobody who is gone comes
back. -/
def move (i : StreamId) (c : ConnId) (h : Hub) : Move → Hub
  | .control request => h.control i request
  | .describe description => h.describe i description
  | .receive batch => h.broadcast batch
  | .record run => h.stored run
  | .tick j => h.tick j
  | .wait ms => { h with now := ⟨ms, h.now.turn + 1⟩ }
  | .drain => (h.drain c).1
  | .connect capacity => (h.connect capacity).1
  | .join j d => if d < h.connections.length then h.addSubscriber j d else h
  | .leave j d => h.removeSubscriber j d
  | .change d connection => h.modifyConnection d fun old =>
    { connection with alive := old.alive && connection.alive }

section Move

variable {h h' : Hub} {i j : StreamId} {c d : ConnId}

theorem Seated.broadcast (hs : Seated i c h) (batch : List Message)
    (opened : ((h.broadcast batch).connection c).closed = false) :
    Seated i c (h.broadcast batch) := by
  have send {j : StreamId} {m : Hub} (hs : Seated i c m)
      (opened : ((m.send j batch).1.connection c).closed = false) :
      Seated i c (m.send j batch).1 := by
    obtain ⟨subscribed, alive⟩ := Confined.mem_audience.1 hs.watching
    refine hs.confined (confined_send m j batch) (fun hj => ?_) fun _ =>
      (loyal_send j batch).subscribed i subscribed alive opened
    subst hj
    exact steady_send hs.steady batch
  have sends : ∀ (is : List StreamId) (m : Hub), Seated i c m →
      ((m.sendStreams batch is).1.connection c).closed = false →
        Seated i c (m.sendStreams batch is).1 := by
    intro is
    induction is with
    | nil => exact fun _ hs _ => hs
    | cons j is ih =>
      intro m hs opened
      exact ih _ (send hs ((loyal_sendStreams batch is _).opened opened)) opened
  have idles : ∀ (is : List StreamId) (m : Hub), Seated i c m →
      Seated i c (is.foldl unsubscribeIfIdle m) := by
    intro is
    induction is with
    | nil => exact fun _ hs => hs
    | cons j is ih =>
      intro m hs
      have silent : (m.unsubscribeIfIdle j).stream = m.stream := by
        unfold unsubscribeIfIdle
        split_ifs <;> rfl
      refine ih _ (hs.confined (confined_unsubscribeIfIdle m j) (fun hj => ?_) fun _ => ?_)
      · subst hj
        exact steady_unsubscribeIfIdle hs.steady
      · rw [silent]
        exact (Confined.mem_audience.1 hs.watching).1
  unfold Hub.broadcast at opened ⊢
  split_ifs at opened ⊢
  · exact hs
  · exact idles _ _ (sends _ h hs ((loyal_unsubscribeAll _ _).opened opened))

theorem Seated.alike_tick (hs : Seated i c h) (hj : j ≠ i) : Alike i c h (h.tick j) := by
  unfold Hub.tick
  split
  · exact hs.alike_refl
  · exact hs.alike_confined (confined_fire h j _) hj (inert_clock.fire h j _)

theorem Seated.tick (hs : Seated i c h) (opened : ((h.tick j).connection c).closed = false) :
    Seated i c (h.tick j) := by
  unfold Hub.tick at opened ⊢
  split at opened
  · exact hs
  · next timer _ =>
    obtain ⟨subscribed, alive⟩ := Confined.mem_audience.1 hs.watching
    refine hs.confined (confined_fire h j timer.epoch) (fun hj => ?_) fun _ =>
      (loyal_fire j timer.epoch).subscribed i subscribed alive opened
    subst hj
    exact steady_fire hs.steady timer.epoch

theorem Alike.tick (ha : Alike i c h h') (hs : Seated i c h) (hs' : Seated i c h')
    (opened : ((h.tick i).connection c).closed = false) : Alike i c (h.tick i) (h'.tick i) := by
  have timers : ((h'.stream i).replay.timer.map (·.epoch)) =
      ((h.stream i).replay.timer.map (·.epoch)) := by
    have := congrArg (fun r : Replay => r.timer.map (·.epoch)) ha.replay
    simpa [Replay.rounded, Function.comp_def] using this
  unfold Hub.tick at opened ⊢
  rcases ht : (h.stream i).replay.timer with _ | timer <;>
    rcases ht' : (h'.stream i).replay.timer with _ | timer' <;> simp [ht, ht'] at timers opened
  · exact ha
  · simp only [timers]
    exact ha.fire hs.once hs'.once timer.epoch opened

/-- Something happens to a connection that does not bring it back, nor do away with the one in its
seat. -/
theorem Seated.modifyConnection (hs : Seated i c h) {f : Connection → Connection}
    (alive : (f (h.connection d)).alive = true → (h.connection d).alive = true)
    (stays : d = c → (f (h.connection d)).alive = (h.connection d).alive) :
    Seated i c (h.modifyConnection d f) := by
  refine hs.congr rfl rfl (Nat.le_of_eq (List.length_modify ..).symm) (fun e _ he => ?_) ?_
  · rw [isAlive, connection_modifyConnection] at he
    split_ifs at he with hde
    · rw [isAlive, ← hde.1]
      exact alive he
    · exact he
  · have there := (Confined.mem_audience.1 hs.watching).2
    rw [isAlive, connection_modifyConnection]
    split_ifs with hdc
    · rw [stays hdc.1, hdc.1]
      exact there
    · exact there

theorem Seated.alike_modifyConnection (hs : Seated i c h) {f : Connection → Connection}
    (seated : Seated i c (h.modifyConnection d f)) (other : d ≠ c) :
    Alike i c h (h.modifyConnection d f) := by
  refine ⟨⟨rfl, rfl, rfl, rfl, watched_iff hs.watching seated.watching⟩, ?_, hs.known, seated.known,
    hs.watching, seated.watching⟩
  rw [connection_modifyConnection, if_neg fun e => other e.1]

theorem Seated.connect (hs : Seated i c h) (capacity : Nat) :
    Seated i c (h.connect capacity).1 ∧ Alike i c h (h.connect capacity).1 := by
  obtain ⟨subscribed, alive⟩ := Confined.mem_audience.1 hs.watching
  have known := hs.subscribers i c subscribed
  have seated : Seated i c (h.connect capacity).1 := by
    refine hs.congr rfl rfl (by simp [Hub.connect]) (fun d hd ha => ?_) ?_
    · rwa [isAlive_connect h capacity hd] at ha
    · rwa [isAlive_connect h capacity known]
  exact ⟨seated, ⟨rfl, rfl, rfl, rfl, watched_iff hs.watching seated.watching⟩,
    connection_connect h capacity known, hs.known, seated.known, hs.watching, seated.watching⟩

/-- Whatever happens, the connection keeps its seat as long as it is open. -/
theorem Seated.move (hs : Seated i c h) {m : Move} (other : m.Other c)
    (opened : ((h.move i c m).connection c).closed = false) : Seated i c (h.move i c m) := by
  obtain ⟨subscribed, alive⟩ := Confined.mem_audience.1 hs.watching
  cases m with
  | control request =>
    have silent : Silent i h (h.control i request) := silent_control request
    exact hs.confined (confined_control request) (fun _ => steady_control hs.steady request)
      fun _ => silent.subscribers.symm ▸ subscribed
  | describe description =>
    have silent : Silent i h (h.describe i description) := silent_modifyStream fun _ => rfl
    exact hs.confined (confined_describe h i description)
      (fun _ => steady_describe hs.steady description) fun _ => silent.subscribers.symm ▸ subscribed
  | receive batch => exact hs.broadcast batch opened
  | record run => exact hs.congr rfl rfl (Nat.le_refl _) (fun _ _ ha => ha) alive
  | tick j => exact hs.tick opened
  | wait ms => exact hs.congr rfl rfl (Nat.le_refl _) (fun _ _ ha => ha) alive
  | drain => exact hs.modifyConnection (fun ha => ha) fun _ => rfl
  | connect capacity => exact (hs.connect capacity).1
  | join j d =>
    unfold Hub.move
    dsimp only
    split_ifs with known
    · exact (hs.addSubscriber known other).1
    · exact hs
  | leave j d => exact (hs.removeSubscriber other).1
  | change d connection =>
    exact hs.modifyConnection (fun ha => (Bool.and_eq_true_iff.1 ha).1) fun e => absurd e other

/-- What others do does not show. -/
theorem Seated.alike_move (hs : Seated i c h) {m : Move} (other : m.Other c)
    (foreign : m.own = false) : Alike i c h (h.move i c m) := by
  cases m with
  | connect capacity => exact (hs.connect capacity).2
  | join j d =>
    unfold Hub.move
    dsimp only
    split_ifs with known
    · exact (hs.addSubscriber known other).2
    · exact hs.alike_refl
  | leave j d => exact (hs.removeSubscriber other).2
  | change d connection =>
    refine hs.alike_modifyConnection (hs.modifyConnection ?_ ?_) other
    · exact fun ha => (Bool.and_eq_true_iff.1 ha).1
    · exact fun e => absurd e other
  | _ => cases foreign

/-- The same move has the same effect in both. -/
theorem Alike.move (ha : Alike i c h h') (hs : Seated i c h) (hs' : Seated i c h') {m : Move}
    (own : m.own = true) (opened : ((h.move i c m).connection c).closed = false) :
    Alike i c (h.move i c m) (h'.move i c m) := by
  cases m with
  | control request =>
    cases request with
    | start => exact alike_lockstep.startStream ha
    | stop => exact alike_lockstep.stopStream ha
    | seek p => exact alike_lockstep.seekStream ha p
    | speed x => exact alike_lockstep.setSpeed ha x
  | describe description =>
    exact ha.modifyStream (fun _ => rfl) (fun _ => rfl) (fun _ => rfl) (fun _ => rfl)
      fun _ _ => congrArg fun s : Stream => { s with description }
  | receive batch => exact ha.broadcast hs hs' batch opened
  | record run =>
    exact ⟨⟨by rw [Hub.move, Hub.move, stored, stored, ha.archive], ha.config, ha.clock, ha.stream,
      ha.watched⟩, ha.connection, ha.known, ha.known', ha.watching, ha.watching'⟩
  | tick j =>
    by_cases hj : j = i
    · subst hj
      exact ha.tick hs hs' opened
    · exact (hs.alike_tick hj).symm.trans (ha.trans (hs'.alike_tick hj))
  | wait ms =>
    have wall : h'.epoch = h.epoch := congrArg Prod.snd ha.clock
    exact ⟨⟨ha.archive, ha.config, congrArg (Prod.mk ms) wall, ha.stream, ha.watched⟩,
      ha.connection, ha.known, ha.known', ha.watching, ha.watching'⟩
  | drain =>
    have seated {m : Hub} (hm : Seated i c m) : Seated i c (m.drain c).1 :=
      hm.modifyConnection (fun ha => ha) fun _ => rfl
    have drained {m : Hub} (hm : Seated i c m) :
        (m.drain c).1.connection c = (m.connection c).drain.1 := by
      have known := hm.subscribers i c (Confined.mem_audience.1 hm.watching).1
      rw [Hub.drain, connection_modifyConnection, if_pos ⟨rfl, known⟩]
    have watching := (seated hs).watching
    have watching' := (seated hs').watching
    refine ⟨⟨ha.archive, ha.config, ha.clock, ha.stream, watched_iff watching watching'⟩, ?_,
      ha.known, ha.known', watching, watching'⟩
    exact (drained hs').trans ((congrArg (·.drain.1) ha.connection).trans (drained hs).symm)
  | _ => cases own

/-- A connection that is closed stays so. -/
theorem opened_of_move {m : Move} (own : m.own = true)
    (opened : ((h.move i c m).connection c).closed = false) :
    (h.connection c).closed = false := by
  cases m with
  | control request =>
    have silent : Silent i h (h.control i request) := silent_control request
    rwa [Hub.move, silent.connection] at opened
  | receive batch => exact (loyal_broadcast batch).opened opened
  | tick j =>
    unfold Hub.move Hub.tick at opened
    dsimp only at opened
    split at opened
    · exact opened
    · exact (loyal_fire j _).opened opened
  | drain =>
    rw [Hub.move, Hub.drain, connection_modifyConnection] at opened
    split_ifs at opened <;> exact opened
  | describe | record | wait => exact opened
  | _ => cases own

end Move

/-! ## Runs -/

section Run

variable {h h' : Hub} {i : StreamId} {c : ConnId}

def run (i : StreamId) (c : ConnId) : Hub → List Move → Hub := List.foldl (move i c)

/-- What the connection receives in a run, and when. -/
def receipts (i : StreamId) (c : ConnId) : Hub → List Move → List (Nat × List Message)
  | _, [] => []
  | h, m :: moves => received c h (h.move i c m) ++ receipts i c (h.move i c m) moves

theorem opened_of_run : ∀ {moves : List Move} {h : Hub}, (∀ m ∈ moves, m.own = true) →
    ((h.run i c moves).connection c).closed = false → (h.connection c).closed = false
  | [], _, _, opened => opened
  | m :: moves, _, own, opened => by
    rw [List.forall_mem_cons] at own
    exact opened_of_move own.1 (opened_of_run own.2 opened)

/-- What others do adds nothing to what the connection receives, and the rest of the run goes as it
does without it. -/
theorem Alike.run : ∀ {moves : List Move} {h h' : Hub}, Alike i c h h' → Seated i c h →
    Seated i c h' → (∀ m ∈ moves, m.Other c) →
    ((h.run i c (moves.filter (·.own))).connection c).closed = false →
      h'.receipts i c moves = h.receipts i c (moves.filter (·.own)) ∧
      Alike i c (h.run i c (moves.filter (·.own))) (h'.run i c moves)
  | [], _, _, ha, _, _, _, _ => ⟨rfl, ha⟩
  | m :: moves, h, h', ha, hs, hs', others, opened => by
    rw [List.forall_mem_cons] at others
    by_cases own : m.own = true
    · rw [List.filter_cons_of_pos own] at opened ⊢
      have opened₁ : ((h.move i c m).connection c).closed = false :=
        opened_of_run (fun n hn => (List.mem_filter.1 hn).2) opened
      have after := ha.move hs hs' own opened₁
      have opened₁' : ((h'.move i c m).connection c).closed = false := by
        rw [after.connection]
        exact opened₁
      obtain ⟨same, alike⟩ :=
        after.run (hs.move others.1 opened₁) (hs'.move others.1 opened₁') others.2 opened
      refine ⟨?_, alike⟩
      have time : (h'.move i c m).now.ms = (h.move i c m).now.ms := congrArg Prod.fst after.clock
      rw [receipts, receipts, received, received, same, after.connection, ha.connection, time]
    · have foreign := Bool.eq_false_of_not_eq_true own
      rw [List.filter_cons_of_neg own] at opened ⊢
      have aside := hs'.alike_move others.1 foreign
      have opened' : ((h'.move i c m).connection c).closed = false := by
        rw [aside.connection, ha.connection]
        exact opened_of_run (fun n hn => (List.mem_filter.1 hn).2) opened
      obtain ⟨same, alike⟩ :=
        (ha.trans aside).run hs (hs'.move others.1 opened') others.2 opened
      refine ⟨?_, alike⟩
      rw [receipts, received, same, aside.connection, List.drop_length]
      rfl

end Run

end Hub

namespace Relay

/-- A connection watches a stream, and stays open through a run of requests to the stream, events
that are received and recorded, timers and time. Whatever others do in between, joining and leaving,
falling behind and going, the connection receives the same batches in the same order at the same
times, and is left as it would be left; the stream is live and playing as it would be, and its timer
goes off when it would. -/
theorem Reachable.undisturbed {r : Relay} (h : r.Reachable) {i : StreamId} {c : ConnId}
    (watching : c ∈ r.hub.audience i) (moves : List Hub.Move) (others : ∀ m ∈ moves, m.Other c)
    (opened : ((r.hub.run i c (moves.filter (·.own))).connection c).closed = false) :
    r.hub.receipts i c moves = r.hub.receipts i c (moves.filter (·.own)) ∧
    let alone := r.hub.run i c (moves.filter (·.own))
    let among := r.hub.run i c moves
    c ∈ among.audience i ∧ among.connection c = alone.connection c ∧
      among.now.ms = alone.now.ms ∧
      (among.stream i).live = (alone.stream i).live ∧
      (among.stream i).playing = (alone.stream i).playing ∧
      (among.stream i).replay.timer.map (·.due.ms) =
        (alone.stream i).replay.timer.map (·.due.ms) := by
  have seated := h.sound.hub.seated watching
  obtain ⟨same, alike⟩ := seated.alike_refl.run seated seated others opened
  refine ⟨same, alike.watching', alike.connection, congrArg Prod.fst alike.clock, alike.live,
    alike.playing, ?_⟩
  have := congrArg (fun r : Replay => r.timer.map (·.due.ms)) alike.replay
  simpa [Replay.rounded, Instant.rounded, Function.comp_def] using this

/-- Somebody watches a replay. Another joins while it runs, with room for one batch, then falls
behind, and leaves: what the first is sent, it is sent all the same. -/
theorem Reachable.undisturbed_joined :
    let once : Store := (Store.memory.appendBatch [.current 7 (.test ⟨"a", []⟩)]).1
    let r := (start ⟨once, fun _ => false⟩ ⟨10, 250, by decide, by decide⟩ 0 false).steps
      [.accept 4, .handle 0 (.control (.current 0 (.seek (.time 0)))),
        .handle 0 (.control (.current 0 .start))]
    r.hub.receipts 0 0 [.connect 1, .join 0 1, .wait 7, .tick 0, .control .stop,
        .receive [.current 9 (.test ⟨"b", []⟩)], .control .start,
        .change 1 ⟨1, [], true, true, true⟩,
        .receive [.current 9 (.test ⟨"c", []⟩)], .leave 0 1] =
      r.hub.receipts 0 0 [.wait 7, .tick 0, .control .stop,
        .receive [.current 9 (.test ⟨"b", []⟩)], .control .start,
        .receive [.current 9 (.test ⟨"c", []⟩)]] := by
  intro once r
  have reachable : r.Reachable := by
    refine ⟨_, _, _, _, _, ?_, rfl⟩
    decide
  have watching : 0 ∈ r.hub.audience 0 := by decide
  exact (reachable.undisturbed watching _ (by simp [Hub.Move.Other]) (by decide)).1

end Relay

end EventRelay
