import EventRelay.Proofs.Boundaries
import EventRelay.Proofs.Echoes
import EventRelay.Serving

/-!
# Frames that are refused

A peer sends whole frames, some of them with a payload that does not decode. Such a frame is refused
and does nothing else: whatever other sessions do in between, the relay is left as it is without the
frame, and the peer is queued the same but for the refusal. Nor does the connection suffer, as long
as its queue does not overflow.
-/

namespace EventRelay

namespace Hub

section Queue

variable {h h' m m' : Hub} {c : ConnId} {q q' : List (List Message)}

theorem overflowed_queue (full : (h.connection c).Overflowed) (d : ConnId) (batch : List Message) :
    ((h.queue d batch).1.connection c).Overflowed := by
  rw [Hub.queue, connection_modifyConnection]
  split_ifs with he
  · rw [he.1, Connection.send_of_closed full.1]
    exact full
  · exact full

/-- Counted from what is queued now. -/
theorem Echoes.rebase (he : Echoes c q q' h h') :
    Echoes c (h.connection c).queue (h'.connection c).queue h h' := by
  obtain ⟨known, opened, draining, fewer, more, queued, rfl⟩ := he
  rw [connection_requeue known]
  refine ⟨known, opened, draining, ?_, [], (List.append_nil _).symm, by rw [List.append_nil]⟩
  rw [queued]
  simpa using fewer

/-- A batch is queued in the one hub only. -/
theorem Echoes.extra (he : Echoes c q q' h h') (whole : (h.connection c).queue = q)
    (batch : List Message) (inTime : ¬((h.queue c batch).1.connection c).Overflowed) :
    Echoes c (q ++ [batch]) q' (h.queue c batch).1 h' ∧ (h.queue c batch).2 = none ∧
      ((h.queue c batch).1.connection c).queue = q ++ [batch] := by
  have room := he.hasRoom inTime
  obtain ⟨known, opened, draining, fewer, more, queued, rfl⟩ := he
  have none : more = [] := by simpa [whole] using queued
  rw [queue_of_room opened room, whole, none, List.append_nil, connection_requeue known]
  have fewer : q'.length ≤ (q ++ [batch]).length := by
    rw [List.length_append]
    exact Nat.le_add_right_of_le fewer
  have extra := echoes_requeue known opened draining fewer []
  rw [List.append_nil, List.append_nil] at extra
  exact ⟨extra, rfl, rfl⟩

/-- The same is queued in both from one moment to the next. -/
theorem Echoes.received (he : Echoes c (h.connection c).queue (h'.connection c).queue m m') :
    received c h' m' = received c h m := by
  obtain ⟨known, -, -, -, more, queued, rfl⟩ := he
  rw [Hub.received, Hub.received, connection_requeue known, queued, List.drop_left, List.drop_left]
  rfl

end Queue

end Hub

namespace Relay

/-! ## What a frame is answered with -/

/-- Queues what a frame is answered with, and hangs up if it cannot be queued. -/
def respond (r : Relay) (s : SessionId) (replies : List Message) : Relay :=
  if replies = [] then r
  else
    let (hub, e) := r.hub.queue (r.session s).connection replies
    if e.isSome then { r with hub }.hangUp s else { r with hub }

section Respond

variable {r r' : Relay} {s : SessionId} {c : ConnId} {q q' : List (List Message)}

theorem serveFrame_eq (content : Wire.Decoded) :
    r.serveFrame s content = (r.answer s content).1.respond s (r.answer s content).2 := rfl

theorem overflowed_hangUp (full : (r.hub.connection c).Overflowed) :
    ((r.hangUp s).hub.connection c).Overflowed := by
  have same : (r.disconnect s).hub.connection c = r.hub.connection c :=
    ((r.desk s).regards_disconnect.hushed c).closed full.1
  rw [hangUp, modifyConnection, Hub.connection_modifyConnection, same]
  split_ifs with he
  · rw [he.1, same]
    exact ⟨rfl, full.2⟩
  · exact full

theorem overflowed_respond (full : (r.hub.connection c).Overflowed) (replies : List Message) :
    ((r.respond s replies).hub.connection c).Overflowed := by
  have sent := Hub.overflowed_queue full (r.session s).connection replies
  unfold respond
  dsimp only
  split_ifs
  · exact full
  · exact overflowed_hangUp sent
  · exact sent

/-- Replies to the session are queued. -/
theorem respond_of_taken {replies : List Message} (some : replies ≠ [])
    (taken : (r.hub.queue (r.session s).connection replies).2 = none) :
    r.respond s replies = r.modifyHub fun h => (h.queue (r.session s).connection replies).1 := by
  unfold respond
  rw [if_neg some]
  dsimp only
  rw [taken]
  rfl

theorem inTime_of_respond {replies : List Message} (some : replies ≠ [])
    (inTime : ¬((r.respond s replies).hub.connection c).Overflowed) :
    ¬((r.hub.queue (r.session s).connection replies).1.connection c).Overflowed := by
  intro full
  refine inTime ?_
  unfold respond
  rw [if_neg some]
  dsimp only
  split_ifs
  · exact overflowed_hangUp full
  · exact full

theorem Echoes.respond (hr : Echoes s c q q' r r') (replies : List Message)
    (inTime : ¬((r.respond s replies).hub.connection c).Overflowed) :
    Echoes s c q q' (r.respond s replies) (r'.respond s replies) := by
  by_cases none : replies = []
  · simpa only [Relay.respond, none, if_true] using hr
  · have queued := inTime_of_respond none inTime
    rw [hr.connection] at queued
    obtain ⟨sent, taken, taken'⟩ := hr.hub.queue_self replies queued
    rw [respond_of_taken none (hr.connection ▸ taken),
      respond_of_taken none (by rw [hr.session, hr.connection, taken']), hr.session, hr.connection]
    exact hr.modifyHub (fun h => (h.queue c replies).1) sent

/-- A frame that decodes is handled. -/
theorem Echoes.serveFrame (hr : Echoes s c q q' r r') (batch : List Message)
    (inTime : ¬((r.serveFrame s (.ok batch)).hub.connection c).Overflowed) :
    Echoes s c q q' (r.serveFrame s (.ok batch)) (r'.serveFrame s (.ok batch)) := by
  rw [serveFrame_eq] at inTime ⊢
  rw [serveFrame_eq]
  have handled : ¬((r.handleBatch s batch).1.hub.connection c).Overflowed :=
    fun full => inTime (overflowed_respond full _)
  obtain ⟨turn, replies⟩ := (hr.desk s).handleRuns (Run.ofBatch batch) handled
  have put := hr.put hr.known turn
  have same : (r'.answer s (.ok batch)).2 = (r.answer s (.ok batch)).2 := replies
  rw [same]
  exact Echoes.respond put _ inTime

/-- A frame that does not decode is refused, and that is all. -/
theorem Echoes.refuse (hr : Echoes s c q q' r r') (whole : (r.hub.connection c).queue = q)
    (fault : Wire.PartialDecode)
    (inTime : ¬((r.serveFrame s (.error fault)).hub.connection c).Overflowed) :
    Echoes s c (q ++ [[Desk.nack r.hub]]) q' (r.serveFrame s (.error fault)) r' ∧
      Hub.received c r.hub (r.serveFrame s (.error fault)).hub =
        [(r.hub.now.ms, [Desk.nack r.hub])] := by
  have refused : (r.serveFrame s (.error fault)) = r.respond s [Desk.nack r.hub] := rfl
  rw [refused] at inTime ⊢
  have queued := inTime_of_respond (by simp) inTime
  rw [hr.connection] at queued
  obtain ⟨extra, taken, queue⟩ := hr.hub.extra whole _ queued
  rw [respond_of_taken (by simp) (hr.connection ▸ taken), hr.connection]
  refine ⟨⟨extra, hr.sessions, hr.readOnly, hr.known, hr.connection, hr.own⟩, ?_⟩
  rw [Relay.modifyHub, Hub.received, queue, whole, List.drop_left]
  rfl

theorem Echoes.isOpen (hr : Echoes s c q q' r r') : r.isOpen s = true ∧ r'.isOpen s = true := by
  have closed : (r'.hub.connection c).closed = (r.hub.connection c).closed := by
    obtain ⟨queue, same⟩ := hr.hub.eq_requeue
    rw [same, Hub.connection_requeue hr.hub.known]
  rw [Relay.isOpen, Relay.isOpen, hr.session, hr.connection, closed, hr.hub.opened]
  exact ⟨rfl, rfl⟩

theorem Echoes.ready_iff (hr : Echoes s c q q' r r') (act : Act) : r'.Ready act ↔ r.Ready act := by
  cases act <;> simp only [Ready, hr.sessions, hr.hub.stream]

theorem Echoes.rebase (hr : Echoes s c q q' r r') :
    Echoes s c (r.hub.connection c).queue (r'.hub.connection c).queue r r' :=
  ⟨hr.hub.rebase, hr.sessions, hr.readOnly, hr.known, hr.connection, hr.own⟩

/-- The queue of the connection is drained. -/
theorem Echoes.drain (hr : Echoes s c q q' r r') :
    Echoes s c [] [] (r.step (.drain s)) (r'.step (.drain s)) ∧
      Hub.received c r'.hub (r'.step (.drain s)).hub =
        Hub.received c r.hub (r.step (.drain s)).hub := by
  obtain ⟨known, opened, draining, -, more, -, same⟩ := hr.hub
  have hub : (r.step (.drain s)).hub = r.hub.requeue c [] := by
    rw [Relay.step, Relay.modifyConnection, hr.connection]
    rfl
  have hub' : (r'.step (.drain s)).hub = r.hub.requeue c [] := by
    rw [← Hub.requeue_requeue (q' ++ more) [], ← same, Relay.step, Relay.modifyConnection,
      hr.session, hr.connection]
    rfl
  refine ⟨⟨?_, hr.sessions, hr.readOnly, hr.known, hr.connection, hr.own⟩, ?_⟩
  · rw [hub, hub']
    exact Hub.echoes_requeue known opened draining (Nat.le_refl [].length) []
  · rw [hub, hub', Hub.received, Hub.received, Hub.connection_requeue known, List.drop_nil,
      List.drop_nil]

/-- Nothing but what is queued to the connection tells them apart. -/
theorem Echoes.eq_requeue (hr : Echoes s c q q' r r') :
    ∃ queue, r' = r.modifyHub (·.requeue c queue) := by
  obtain ⟨queue, hub⟩ := hr.hub.eq_requeue
  have sessions := hr.sessions
  have readOnly := hr.readOnly
  cases r'
  dsimp only at hub sessions readOnly
  subst hub sessions readOnly
  exact ⟨_, rfl⟩

/-- A relay and itself. -/
theorem Sound.echoes (hr : r.Sound) (known : s < r.sessions.length)
    (opened : (r.hub.connection s).closed = false)
    (draining : (r.hub.connection s).draining = true) :
    Echoes s s (r.hub.connection s).queue (r.hub.connection s).queue r r where
  hub := by
    refine ⟨length_connections hr ▸ known, opened, draining, Nat.le_refl _, [],
      (List.append_nil _).symm, ?_⟩
    rw [List.append_nil, Hub.requeue_self]
  sessions := rfl
  readOnly := rfl
  known := known
  connection := hr.connections s known
  own t ht other := by rwa [hr.connections t ht]

end Respond

end Relay

namespace Serving

open Wire

/-! ## Passes -/

/-- A session whose peer has sent nothing yet. -/
def start (r : Relay) (s : SessionId) (f : Framing) (source : Source) : Serving :=
  ⟨r, s, some (.start f source)⟩

/-- These frames are read next, however they arrive, and whatever comes after them. -/
def Awaits (f : Framing) (frames : List RawFrame) (v : Serving) : Prop :=
  ∃ reader failure rest count size, v.reader = some reader ∧
    reader.At f failure .header ((frames.map RawFrame.bytes).flatten ++ rest) count size

/-- What can happen while a peer is served: the next frame is read, or something happens besides. -/
inductive Event where
  | frame (x : RawFrame)
  | act (act : Relay.Act)

/-- It is not a frame with a payload that does not decode. -/
def Event.sound : Event → Bool
  | .frame x => x.content.isOk
  | .act _ => true

/-- Frames are whole and within the limit, and acts are those of others. -/
def Event.Proper (s : SessionId) (f : Framing) : Event → Prop
  | .frame x => x.Whole f
  | .act a => a.Beside s

instance (s : SessionId) (f : Framing) : DecidablePred (Event.Proper s f)
  | .frame x => inferInstanceAs (Decidable (x.Whole f))
  | .act a => inferInstanceAs (Decidable (a.Beside s))

/-- The frames that the peer sends for these events. -/
def frames : List Event → List RawFrame
  | [] => []
  | .frame x :: events => x :: frames events
  | .act _ :: events => frames events

/-- What is read does not depend on the event; it is what the peer has sent. Acts that are not
possible when their turn comes do nothing. -/
def turn (v : Serving) : Event → Serving
  | .frame _ => v.pass
  | .act act => if v.relay.Ready act then { v with relay := v.relay.step act } else v

def run : Serving → List Event → Serving := List.foldl turn

/-- What a connection is queued in a run, event by event. -/
def account (c : ConnId) : Serving → List Event → List (Event × List (Nat × List Message))
  | _, [] => []
  | v, e :: events =>
    (e, Hub.received c v.relay.hub (v.turn e).relay.hub) :: account c (v.turn e) events

/-- The queue of a connection does not overflow in a run. -/
def InTime (c : ConnId) : Serving → List Event → Prop
  | _, [] => True
  | v, e :: events =>
    ¬((v.turn e).relay.hub.connection c).Overflowed ∧ InTime c (v.turn e) events

instance (c : ConnId) : ∀ (v : Serving) (events : List Event), Decidable (InTime c v events)
  | _, [] => inferInstanceAs (Decidable True)
  | v, e :: events =>
    have : Decidable (InTime c (v.turn e) events) := instDecidableInTime c (v.turn e) events
    inferInstanceAs (Decidable
      (¬((v.turn e).relay.hub.connection c).Overflowed ∧ InTime c (v.turn e) events))

section Run

variable {v v' : Serving} {s : SessionId} {c : ConnId} {f : Framing} {x : RawFrame}
  {more : List RawFrame} {e : Event} {events : List Event}

theorem pass_eq {reader reader' : FrameReader} {content : Decoded} (there : v.reader = some reader)
    (opened : v.relay.isOpen v.session = true)
    (read : reader.readFrame = (reader', .ok (some content))) :
    v.pass = ⟨v.relay.serveFrame v.session content, v.session, some reader'⟩ := by
  rw [pass, there]
  dsimp only
  rw [if_pos opened, read]

/-- A pass reads a whole frame, and is behind it then. -/
theorem Awaits.pass (ha : v.Awaits f (x :: more)) (whole : x.Whole f)
    (opened : v.relay.isOpen v.session = true) :
    v.pass.Awaits f more ∧ v.pass.relay = v.relay.serveFrame v.session x.content ∧
      v.pass.session = v.session := by
  obtain ⟨reader, failure, rest, count, size, there, ahead⟩ := ha
  rw [List.map_cons, List.flatten_cons, List.append_assoc] at ahead
  obtain ⟨read, behind⟩ := ahead.readFrame_whole whole
  rw [pass_eq there opened (Prod.ext rfl read)]
  exact ⟨⟨_, failure, rest, _, _, rfl, behind⟩, rfl, rfl⟩

/-- Two sessions that are served the same events, but for the frames that the first is to refuse. -/
structure Echoes (s : SessionId) (c : ConnId) (f : Framing) (events : List Event)
    (v v' : Serving) : Prop where
  session : v.session = s
  session' : v'.session = s
  relay : Relay.Echoes s c (v.relay.hub.connection c).queue (v'.relay.hub.connection c).queue
    v.relay v'.relay
  awaits : v.Awaits f (frames events)
  awaits' : v'.Awaits f (frames (events.filter Event.sound))

theorem Echoes.frame (h : Echoes s c f (.frame x :: events) v v') {batch : List Message}
    (good : x.content = .ok batch) (whole : x.Whole f)
    (inTime : ¬((v.turn (.frame x)).relay.hub.connection c).Overflowed) :
    Echoes s c f events (v.turn (.frame x)) (v'.turn (.frame x)) ∧
      Hub.received c v'.relay.hub (v'.turn (.frame x)).relay.hub =
        Hub.received c v.relay.hub (v.turn (.frame x)).relay.hub := by
  obtain ⟨rfl, session', relay, awaits, awaits'⟩ := h
  rw [List.filter_cons_of_pos (by rw [Event.sound, good]; rfl)] at awaits'
  obtain ⟨opened, opened'⟩ := relay.isOpen
  obtain ⟨behind, served, same⟩ := awaits.pass whole opened
  obtain ⟨behind', served', same'⟩ := awaits'.pass whole (session' ▸ opened')
  rw [good] at served served'
  rw [session'] at served'
  rw [turn, served] at inTime
  have after := relay.serveFrame batch inTime
  rw [← served, ← served'] at after
  exact ⟨⟨same, same'.trans session', after.rebase, behind, behind'⟩, after.hub.received⟩

theorem Echoes.act {act : Relay.Act} (h : Echoes s c f (.act act :: events) v v')
    (beside : act.Beside s) (inTime : ¬((v.turn (.act act)).relay.hub.connection c).Overflowed) :
    Echoes s c f events (v.turn (.act act)) (v'.turn (.act act)) ∧
      Hub.received c v'.relay.hub (v'.turn (.act act)).relay.hub =
        Hub.received c v.relay.hub (v.turn (.act act)).relay.hub := by
  obtain ⟨rfl, session', relay, awaits, awaits'⟩ := h
  unfold turn at inTime ⊢
  dsimp only at inTime ⊢
  simp only [relay.ready_iff act]
  split_ifs at inTime ⊢ with ready
  · by_cases drain : act = .drain v.session
    · subst drain
      obtain ⟨after, same⟩ := relay.drain
      exact ⟨⟨rfl, session', after.rebase, awaits, awaits'⟩, same⟩
    · have after := relay.step ready beside drain inTime
      exact ⟨⟨rfl, session', after.rebase, awaits, awaits'⟩, after.hub.received⟩
  · exact ⟨⟨rfl, session', relay, awaits, awaits'⟩, relay.hub.received⟩

/-- Such an event has the same effect in both. -/
theorem Echoes.sound (h : Echoes s c f (e :: events) v v') (good : e.sound = true)
    (proper : e.Proper s f) (inTime : ¬((v.turn e).relay.hub.connection c).Overflowed) :
    Echoes s c f events (v.turn e) (v'.turn e) ∧
      Hub.received c v'.relay.hub (v'.turn e).relay.hub =
        Hub.received c v.relay.hub (v.turn e).relay.hub := by
  cases e with
  | act act => exact h.act proper inTime
  | frame x =>
    rcases hx : x.content with fault | batch
    · rw [Event.sound, hx] at good
      cases good
    · exact h.frame hx proper inTime

/-- The first refuses a frame that the second does not get. -/
theorem Echoes.refuse (h : Echoes s c f (e :: events) v v') (bad : e.sound = false)
    (proper : e.Proper s f) (inTime : ¬((v.turn e).relay.hub.connection c).Overflowed) :
    Echoes s c f events (v.turn e) v' ∧ Hub.received c v.relay.hub (v.turn e).relay.hub =
      [(v.relay.hub.now.ms, [Desk.nack v.relay.hub])] := by
  obtain ⟨rfl, session', relay, awaits, awaits'⟩ := h
  rw [List.filter_cons_of_neg (by simp [bad])] at awaits'
  rcases e with x | act
  · rcases hx : x.content with fault | batch
    · obtain ⟨behind, served, same⟩ := awaits.pass proper relay.isOpen.1
      rw [hx] at served
      rw [turn, served] at inTime
      obtain ⟨after, queued⟩ := relay.refuse rfl fault inTime
      rw [← served] at after queued
      exact ⟨⟨same, session', after.rebase, behind, awaits'⟩, queued⟩
    · rw [Event.sound, hx] at bad
      cases bad
  · cases bad

/-- What is refused adds nothing but the refusals, and the rest of the run goes as it does without
it. -/
theorem Echoes.run : ∀ {past later : List Event} {v v' : Serving},
    Echoes s c f (past ++ later) v v' → (∀ e ∈ past, e.Proper s f) → v.InTime c past →
      Echoes s c f later (v.run past) (v'.run (past.filter Event.sound)) ∧
      (v.account c past).filter (·.1.sound) = v'.account c (past.filter Event.sound) ∧
      ∀ entry ∈ v.account c past, entry.1.sound = false →
        ∃ ms timestamp, entry.2 = [(ms, [.current timestamp (.status .nack)])]
  | [], _, _, _, h, _, _ => ⟨h, rfl, by simp [account]⟩
  | e :: past, later, v, v', h, proper, inTime => by
    rw [List.forall_mem_cons] at proper
    cases good : e.sound with
    | true =>
      obtain ⟨after, same⟩ := h.sound good proper.1 inTime.1
      obtain ⟨rest, accounts, refused⟩ := after.run proper.2 inTime.2
      rw [List.filter_cons_of_pos good, account, account, same, ← accounts]
      refine ⟨rest, List.filter_cons_of_pos good, List.forall_mem_cons.2 ⟨fun bad => ?_, refused⟩⟩
      rw [good] at bad
      cases bad
    | false =>
      obtain ⟨after, queued⟩ := h.refuse good proper.1 inTime.1
      obtain ⟨rest, accounts, refused⟩ := after.run proper.2 inTime.2
      have bad : ¬e.sound = true := by simp [good]
      rw [List.filter_cons_of_neg bad, account, ← accounts]
      exact ⟨rest, List.filter_cons_of_neg bad,
        List.forall_mem_cons.2 ⟨fun _ => ⟨_, _, queued⟩, refused⟩⟩

theorem InTime.past : ∀ {past later : List Event} {v : Serving},
    v.InTime c (past ++ later) → v.InTime c past
  | [], _, _, _ => trivial
  | _ :: _, _, _, h => ⟨h.1, h.2.past⟩

/-! ## A stream served at once -/

theorem run_of_stopped (stopped : v.reader = none) :
    ∀ frames : List RawFrame, v.run (frames.map .frame) = v
  | [] => rfl
  | x :: frames => by
    have still : v.turn (.frame x) = v := by rw [turn, Serving.pass, stopped]
    rw [List.map_cons, run, List.foldl_cons, still]
    exact run_of_stopped stopped frames

theorem pass_of_ends {reader : FrameReader} {rest : Bytes} {count size : Nat}
    {ending : Except ConnectionError (Option Decoded)} (there : v.reader = some reader)
    (ahead : reader.At f none .header rest count size) (ends : f.Ends none rest ending) :
    v.pass = v.stop := by
  have read := (ahead.readFrame_ends ends).1
  rw [pass, there]
  dsimp only
  split_ifs
  · rcases hread : reader.readFrame with ⟨reader', result⟩
    rw [hread] at read
    subst read
    cases ends <;> rfl
  · rfl

end Run

theorem pass_run_eq_serveStream {f : Framing} {rest : Bytes}
    {ending : Except ConnectionError (Option Decoded)} (ends : f.Ends none rest ending) :
    ∀ {frames : List RawFrame} {v : Serving} {reader : FrameReader} {count size : Nat},
    (∀ x ∈ frames, x.Whole f) → v.reader = some reader →
    reader.At f none .header ((frames.map RawFrame.bytes).flatten ++ rest) count size →
      (v.run (frames.map .frame)).pass.relay = v.relay.serveStream v.session
        (readStream f ((frames.map RawFrame.bytes).flatten ++ rest))
  | [], v, reader, count, size, _, there, ahead => by
    have stopped : (v.run []).pass = v.stop := pass_of_ends there ahead ends
    rw [List.map_nil, stopped, List.map_nil, List.flatten_nil, List.nil_append,
      readStream_ends ends]
    cases ending <;> rfl
  | x :: frames, v, reader, count, size, whole, there, ahead => by
    rw [List.forall_mem_cons] at whole
    have flat : ((x :: frames).map RawFrame.bytes).flatten ++ rest =
        x.bytes ++ ((frames.map RawFrame.bytes).flatten ++ rest) := by
      rw [List.map_cons, List.flatten_cons, List.append_assoc]
    rw [flat] at ahead ⊢
    rw [readStream_whole whole.1, Relay.serveStream, List.map_cons, run, List.foldl_cons]
    obtain ⟨read, behind⟩ := ahead.readFrame_whole whole.1
    split_ifs with opened
    · have pass := pass_eq there opened (Prod.ext rfl read)
      rw [turn, pass]
      exact pass_run_eq_serveStream ends whole.2 rfl behind
    · have pass : v.pass = v.stop := by
        rw [Serving.pass, there]
        exact if_neg opened
      have stopped : (v.turn (.frame x)).run (frames.map .frame) = v.stop := by
        rw [turn, pass]
        exact run_of_stopped rfl frames
      rw [run] at stopped
      rw [stopped]
      rfl

/-- Where nothing happens besides, a stream that is served pass by pass as it arrives is served as
it is when it is all there. -/
theorem run_eq_serveStream {r : Relay} {s : SessionId} {f : Framing} {source : Source}
    {frames : List RawFrame} {rest : Bytes} {ending : Except ConnectionError (Option Decoded)}
    (failure : source.failure = none) (cuts : f.Cuts none source.bytes frames rest ending) :
    ((start r s f source).run (frames.map .frame)).pass.relay =
      r.serveStream s (readStream f source.bytes) := by
  have ahead := FrameReader.start_at f source
  rw [failure, cuts.stream_eq] at ahead
  rw [cuts.stream_eq]
  exact pass_run_eq_serveStream cuts.ends cuts.whole rfl ahead

/-! ## Malformed frames -/

/-- A peer sends whole frames, any of which may have a payload that does not decode, while anything
goes on besides. As long as the queue of its connection does not overflow, the relay is at any time
as it is if these frames are not sent, but for what is queued to that connection, and the connection
is open. What is queued to it at each event is the same, and for each frame that does not decode it
is one refusal. -/
theorem refuses_malformed {r : Relay} (reachable : r.Reachable) {s : SessionId}
    (known : s < r.sessions.length) (opened : r.isOpen s = true)
    (draining : (r.hub.connection (r.session s).connection).draining = true) {f : Framing}
    {source source' : Source} {events : List Event} {rest rest' : Bytes}
    (proper : ∀ e ∈ events, e.Proper s f)
    (arriving : source.bytes = ((frames events).map RawFrame.bytes).flatten ++ rest)
    (arriving' : source'.bytes =
      ((frames (events.filter Event.sound)).map RawFrame.bytes).flatten ++ rest')
    (inTime : (start r s f source).InTime (r.session s).connection events) :
    let c := (r.session s).connection
    let v := start r s f source
    let v' := start r s f source'
    (∀ past, past <+: events → (v.run past).reader.isSome = true ∧
      (v.run past).relay.isOpen s = true ∧
      ∃ queue, (v'.run (past.filter Event.sound)).relay =
        (v.run past).relay.modifyHub (·.requeue c queue)) ∧
    (v.account c events).filter (·.1.sound) = v'.account c (events.filter Event.sound) ∧
    ∀ entry ∈ v.account c events, entry.1.sound = false →
      ∃ ms timestamp, entry.2 = [(ms, [.current timestamp (.status .nack)])] := by
  intro c v v'
  have sound := reachable.sound
  have own : (r.session s).connection = s := sound.connections s known
  have closed : (r.hub.connection s).closed = false := by
    rw [Relay.isOpen, own] at opened
    simpa using opened
  rw [own] at draining inTime
  have echoes : Echoes s s f events v v' :=
    ⟨rfl, rfl, sound.echoes known closed draining,
      ⟨_, _, rest, 0, 0, rfl, arriving ▸ FrameReader.start_at f source⟩,
      ⟨_, _, rest', 0, 0, rfl, arriving' ▸ FrameReader.start_at f source'⟩⟩
  rw [show c = s from own]
  refine ⟨?_, ?_⟩
  · rintro past ⟨later, rfl⟩
    obtain ⟨after, -, -⟩ := echoes.run (fun e he => proper e (by simp [he])) inTime.past
    obtain ⟨reader, -, -, -, -, there, -⟩ := after.awaits
    exact ⟨by rw [there]; rfl, after.relay.isOpen.1, after.relay.eq_requeue⟩
  · rw [← List.append_nil events] at echoes
    exact (echoes.run proper inTime).2

/-- A greeting, a request to start with something behind it that is no record, what another session
has received, a request to start, and more that is received; in two chunks that are cut inside a
header. -/
theorem refuses_malformed_between :
    let r := (Relay.start ⟨.memory, fun _ => false⟩ ⟨10, 250, by decide, by decide⟩ 0 false).steps
      [.accept 4, .accept 4]
    let hello : RawFrame :=
      ⟨⟨18, 1⟩, [0, 28, 0, 1, 0, 0, 0, 0, 0, 0, 0, 0, 0, 0, 0, 2, 0, 1]⟩
    let play : RawFrame := ⟨⟨16, 1⟩, [0, 21, 0, 1, 0, 0, 0, 0, 0, 0, 0, 0, 0, 0, 0, 0]⟩
    let noise : RawFrame :=
      ⟨⟨18, 2⟩, [0, 21, 0, 1, 0, 0, 0, 0, 0, 0, 0, 0, 0, 0, 0, 0, 7, 7]⟩
    let first : Event := .act (.handle 1 (.data [.current 7 (.test ⟨"a", []⟩)]))
    let second : Event := .act (.handle 1 (.data [.current 8 (.test ⟨"b", []⟩)]))
    let events := [.frame hello, .frame noise, first, .frame play, second]
    let sent := hello.bytes ++ noise.bytes ++ play.bytes
    let source : Source := ⟨[sent.take 27, sent.drop 27], none⟩
    let source' : Source := ⟨[hello.bytes, play.bytes], none⟩
    let c := (r.session 0).connection
    ((start r 0 .standard source).account c events).filter (·.1.sound) =
      (start r 0 .standard source').account c [.frame hello, first, .frame play, second] := by
  intro r hello play noise first second events sent source source' c
  have reachable : r.Reachable := by
    refine ⟨_, _, _, _, _, ?_, rfl⟩
    decide
  have proper : ∀ e ∈ events, e.Proper 0 .standard := by decide
  have arriving : source.bytes = ((frames events).map RawFrame.bytes).flatten ++ [] := by decide
  have arriving' : source'.bytes =
      ((frames (events.filter Event.sound)).map RawFrame.bytes).flatten ++ [] := by decide
  have inTime : (start r 0 .standard source).InTime c events := by decide
  exact (refuses_malformed reachable (by decide) (by decide) (by decide) proper arriving arriving'
    inTime).2.1

end Serving

end EventRelay
