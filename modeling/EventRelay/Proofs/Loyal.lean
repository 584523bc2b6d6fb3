import EventRelay.Proofs.Playing
import EventRelay.Proofs.Sessions

/-!
# Who stays subscribed

A connection stops watching a stream when its session leaves that stream, or when it is sent
something that it cannot take. In the second case it is closed by then, and a closed connection is
never queued anything again. So a connection that is open watches the stream that its session holds,
whatever the other sessions do and whatever the streams send.
-/

namespace EventRelay

theorem Connection.send_of_closed {c : Connection} (h : c.closed = true) (batch : List Message) :
    c.send batch = (c, some .closed) := if_pos h

namespace Hub

/-- A step has not touched a connection if it was closed, and has not done away with it. -/
structure Hushed (c : ConnId) (h h' : Hub) : Prop where
  alive : h'.isAlive c = h.isAlive c
  closed : (h.connection c).closed = true → h'.connection c = h.connection c

/-- And a connection that is open still watches what it did. -/
structure Loyal (c : ConnId) (h h' : Hub) : Prop extends Hushed c h h' where
  subscribed : ∀ i, c ∈ (h.stream i).subscribers → h.isAlive c = true →
    (h'.connection c).closed = false → c ∈ (h'.stream i).subscribers

section Loyal

variable {h h' h'' : Hub} {i : StreamId} {c c' : ConnId}

theorem Hushed.trans (h₁ : Hushed c h h') (h₂ : Hushed c h' h'') : Hushed c h h'' where
  alive := h₂.alive.trans h₁.alive
  closed hc := by
    have same := h₁.closed hc
    exact (h₂.closed (same ▸ hc)).trans same

theorem Hushed.opened (hh : Hushed c h h') (ho : (h'.connection c).closed = false) :
    (h.connection c).closed = false := by
  by_contra hc
  have hc := Bool.eq_true_of_not_eq_false hc
  rw [hh.closed hc, hc] at ho
  cases ho

theorem Loyal.refl : Loyal c h h := ⟨⟨rfl, fun _ => rfl⟩, fun _ hc _ _ => hc⟩

theorem Loyal.trans (h₁ : Loyal c h h') (h₂ : Loyal c h' h'') : Loyal c h h'' where
  toHushed := h₁.toHushed.trans h₂.toHushed
  subscribed i hc ha ho :=
    h₂.subscribed i (h₁.subscribed i hc ha (h₂.opened ho)) (h₁.alive.trans ha) ho

theorem hushed_of_connections (same : h'.connections = h.connections) : Hushed c h h' := by
  have connection : h'.connection c = h.connection c := by
    rw [Hub.connection, Hub.connection, same]
  exact ⟨by rw [isAlive, isAlive, connection], fun _ => connection⟩

/-- What leaves connections and subscribers alone. -/
theorem loyal_of_connections (same : h'.connections = h.connections)
    (subscribers : ∀ j, (h.stream j).subscribers ⊆ (h'.stream j).subscribers) : Loyal c h h' where
  toHushed := hushed_of_connections same
  subscribed j hc _ _ := subscribers j hc

theorem Silent.loyal (hs : Silent i h h') (hc : Confined i h h') : Loyal c h h' := by
  refine loyal_of_connections hs.connections fun j => ?_
  by_cases hj : j = i
  · rw [hj, hs.subscribers]
    exact List.Subset.refl _
  · rw [hc.others j hj]
    exact List.Subset.refl _

/-! ## Sending -/

theorem hushed_sendTo (d : ConnId) (batch : List Message) :
    Hushed c h (h.sendTo d batch).1 := by
  by_cases hd : d = c
  · subst hd
    by_cases ha : h.isAlive d = true
    · obtain ⟨sent, -⟩ := sendTo_self ha batch
      refine ⟨?_, fun hc => ?_⟩
      · rw [isAlive, sent, alive_send, isAlive]
      · rw [sent, Connection.send_of_closed hc]
    · rw [sendTo, if_pos (by simpa using ha)]
      exact Loyal.refl.toHushed
  · have same := sendTo_ne (h := h) hd batch
    exact ⟨by rw [isAlive, isAlive, same], fun _ => same⟩

theorem hushed_sendAll (batch : List Message) : ∀ (cs : List ConnId) (h : Hub),
    Hushed c h (h.sendAll batch cs).1
  | [], _ => Loyal.refl.toHushed
  | d :: cs, _ => (hushed_sendTo d batch).trans (hushed_sendAll batch cs _)

/-- Who is still open has taken the batch. -/
theorem mem_sendAll (batch : List Message) : ∀ {cs : List ConnId} {h : Hub}, c ∈ cs →
    h.isAlive c = true → ((h.sendAll batch cs).1.connection c).closed = false →
      c ∈ (h.sendAll batch cs).2
  | d :: cs, h, hc, ha, ho => by
    rw [sendAll] at ho ⊢
    dsimp only at ho ⊢
    by_cases hd : d = c
    · subst hd
      obtain ⟨sent, taken⟩ := sendTo_self ha batch
      have ho := (hushed_sendAll batch cs _).opened ho
      rw [sent] at ho
      rw [taken, (Connection.send_of_open ho).1]
      exact List.mem_cons_self
    · have hc := (List.mem_cons.1 hc).resolve_left (Ne.symm hd)
      have kept := mem_sendAll batch hc ((hushed_sendTo d batch).alive.trans ha) ho
      split_ifs
      · exact List.mem_cons_of_mem _ kept
      · exact kept

theorem loyal_send (i : StreamId) (batch : List Message) : Loyal c h (h.send i batch).1 := by
  have sent := hushed_sendAll (c := c) batch (h.stream i).subscribers h
  refine ⟨sent.trans (hushed_of_connections rfl), fun j hc ha ho => ?_⟩
  by_cases hj : j = i
  · subst hj
    by_cases known : j < h.streams.length
    · rw [stream_send known]
      exact mem_sendAll batch hc ha ho
    · rw [Relay.stream_eq_default known] at hc
      cases hc
  · rwa [(confined_send h i batch).others j hj]

theorem loyal_deliver (i : StreamId) (events : List Message) : Loyal c h (h.deliver i events) := by
  have sent := loyal_send (c := c) (h := h) i events
  unfold deliver
  dsimp only
  split_ifs
  · exact sent.trans (silent_idle.loyal (confined_idle _ i))
  · exact sent

theorem loyal_fire (i : StreamId) (epoch : Nat) : Loyal c h (h.fire i epoch) := by
  have confined := confined_modifyReplay h i fun r => (r.takeDue h.config).1
  have taken : Loyal c h _ := (silent_modifyReplay _).loyal confined
  have resumed (m : Hub) : Loyal c m (m.resume i epoch) :=
    (silent_resume epoch).loyal (confined_resume m i epoch)
  rw [fire_eq]
  dsimp only
  split_ifs
  · exact .refl
  · exact taken.trans (resumed _)
  · exact (taken.trans (loyal_deliver i _)).trans (resumed _)

theorem loyal_sendStreams (batch : List Message) : ∀ (is : List StreamId) (h : Hub),
    Loyal c h (h.sendStreams batch is).1
  | [], _ => .refl
  | i :: is, _ => (loyal_send i batch).trans (loyal_sendStreams batch is _)

theorem loyal_unsubscribeAll : ∀ (is : List StreamId) (h : Hub),
    Loyal c h (is.foldl unsubscribeIfIdle h)
  | [], _ => .refl
  | i :: is, h =>
    (silent_unsubscribeIfIdle.loyal (confined_unsubscribeIfIdle h i)).trans
      (loyal_unsubscribeAll is _)

theorem loyal_broadcast (batch : List Message) : Loyal c h (h.broadcast batch) := by
  unfold broadcast
  split_ifs
  · exact .refl
  · exact (loyal_sendStreams batch _ h).trans (loyal_unsubscribeAll _ _)

/-! ## Coming and going -/

theorem silent_resumeFor (h : Hub) (i : StreamId) :
    Silent i h (if (h.stream i).playing then h.play i else h) := by
  split_ifs
  · exact silent_play
  · exact .refl

theorem loyal_enrol : Loyal c h (h.enrol i c') := by
  refine loyal_of_connections rfl fun j => ?_
  rw [enrol, stream_modifyStream]
  split_ifs with hj
  · rw [← hj.1]
    exact List.subset_append_left ..
  · exact List.Subset.refl _

theorem loyal_addSubscriber : Loyal c h (h.addSubscriber i c') := by
  have resumed (m : Hub) : Loyal c m (if (m.stream i).playing then m.play i else m) := by
    refine (silent_resumeFor m i).loyal ?_
    split_ifs
    · exact confined_play m i
    · exact .refl i m
  by_cases joined : (h.audience i).contains c' = true
  · rw [addSubscriber, if_pos joined]
    exact resumed h
  · rw [addSubscriber, if_neg joined]
    exact loyal_enrol.trans (resumed (h.enrol i c'))

theorem mem_addSubscriber (known : i < h.streams.length) (c : ConnId) :
    c ∈ ((h.addSubscriber i c).stream i).subscribers := by
  by_cases joined : (h.audience i).contains c = true
  · rw [addSubscriber, if_pos joined, (silent_resumeFor h i).subscribers]
    exact (Confined.mem_audience.1 (List.contains_iff_mem.1 joined)).1
  · rw [addSubscriber, if_neg joined, (silent_resumeFor _ i).subscribers,
      stream_modifyStream_self known]
    exact List.mem_append_right _ List.mem_cons_self

theorem loyal_createStream : Loyal c h h.createStream.1 := by
  refine loyal_of_connections rfl fun j => ?_
  rw [stream_createStream]
  split_ifs with new
  · rw [new, Relay.stream_eq_default (Nat.lt_irrefl _)]
    exact List.nil_subset _
  · exact List.Subset.refl _

theorem loyal_removeIfAbandoned : Loyal c h (h.removeIfAbandoned i).1 := by
  unfold removeIfAbandoned
  dsimp only
  split_ifs <;> exact loyal_of_connections rfl fun _ => List.Subset.refl _

theorem hushed_removeSubscriber : Hushed c h (h.removeSubscriber i c') := by
  unfold removeSubscriber
  dsimp only
  split_ifs
  · exact hushed_of_connections (silent_idle (i := i)).connections
  · exact hushed_of_connections rfl

theorem loyal_removeSubscriber (hc : c ≠ c') : Loyal c h (h.removeSubscriber i c') := by
  have left : Loyal c h (h.modifyStream i fun s =>
      { s with subscribers := s.subscribers.filter fun d => h.isAlive d && d != c' }) := by
    refine ⟨hushed_of_connections rfl, fun j hm ha _ => ?_⟩
    rw [stream_modifyStream]
    split_ifs with hj
    · rw [hj.1]
      exact List.mem_filter.2 ⟨hm, by simp [ha, hc]⟩
    · exact hm
  unfold removeSubscriber
  dsimp only
  split_ifs
  · exact left.trans (silent_idle.loyal (confined_idle _ i))
  · exact left

end Loyal

end Hub

namespace Desk

open Hub

/-! ## Sessions at work -/

/-- The connection of the session, if it is open, watches the stream that the session holds. -/
def Watches (d : Desk) : Prop :=
  ∀ i, d.session.stream = some i → d.hub.isAlive d.session.connection = true →
    (d.hub.connection d.session.connection).closed = false →
      d.session.connection ∈ (d.hub.stream i).subscribers

/-- The session has done something: the other connections watch what they did, and its own watches
what the session holds now. -/
structure Regards (d d' : Desk) : Prop where
  connection : d'.session.connection = d.session.connection
  hushed : ∀ c, Hushed c d.hub d'.hub
  others : ∀ c ≠ d.session.connection, Loyal c d.hub d'.hub
  own : d.Watches → d'.Watches

section Regards

variable {d d' d'' : Desk} {held : List (Option StreamId)}

theorem Watches.loyal (hw : d.Watches) {hub : Hub}
    (loyal : Loyal d.session.connection d.hub hub) : Watches { d with hub } := by
  intro i hi alive opened
  have alive : d.hub.isAlive d.session.connection = true := loyal.alive.symm.trans alive
  exact loyal.subscribed i (hw i hi alive (loyal.opened opened)) alive opened

theorem Regards.trans (h₁ : d.Regards d') (h₂ : d'.Regards d'') : d.Regards d'' where
  connection := h₂.connection.trans h₁.connection
  hushed c := (h₁.hushed c).trans (h₂.hushed c)
  others c hc := (h₁.others c hc).trans (h₂.others c (h₁.connection ▸ hc))
  own hw := h₂.own (h₁.own hw)

/-- The session does nothing to what it holds, nor to what others do. -/
theorem regards_of_loyal {hub : Hub} (loyal : ∀ c, Loyal c d.hub hub) :
    d.Regards { d with hub } where
  connection := rfl
  hushed c := (loyal c).toHushed
  others c _ := loyal c
  own hw := hw.loyal (loyal _)

theorem regards_join {i : StreamId} (known : i < d.hub.streams.length) :
    d.Regards (d.join i) where
  connection := rfl
  hushed _ := loyal_addSubscriber.toHushed
  others _ _ := loyal_addSubscriber
  own _ j hj _ _ := by
    rw [← Option.some.inj hj]
    exact mem_addSubscriber known _

theorem regards_leave (i : StreamId) :
    d.Regards ({ d with session := { d.session with stream := none } }.leave i) where
  connection := rfl
  hushed _ := hushed_removeSubscriber.trans loyal_removeIfAbandoned.toHushed
  others _ hc := (loyal_removeSubscriber hc).trans loyal_removeIfAbandoned
  own _ _ hj := by cases hj

theorem regards_streamFor (d : Desk) : d.Regards d.streamFor.1 := by
  unfold Desk.streamFor
  rcases d.session.stream with _ | i
  · have created : d.Regards { d with hub := d.hub.createStream.1 } :=
      regards_of_loyal fun _ => loyal_createStream
    refine created.trans (regards_join ?_)
    rw [streams_createStream]
    exact Nat.lt_succ_self _
  · exact regards_of_loyal fun _ => .refl

theorem regards_onStream {f : Hub → StreamId → Hub} (silent : ∀ h i, Silent i h (f h i))
    (confined : ∀ h i, Confined i h (f h i)) : d.Regards (d.onStream f) :=
  d.regards_streamFor.trans <| regards_of_loyal fun _ => (silent _ _).loyal (confined _ _)

theorem regards_disconnect (d : Desk) : d.Regards d.disconnect := by
  unfold Desk.disconnect
  split
  · exact regards_of_loyal fun _ => .refl
  · next i _ => exact regards_leave i

theorem Sound.regards_subscribe (hd : d.Sound held) (uid : UInt32) :
    d.Regards (d.subscribe uid).1 := by
  unfold Desk.subscribe
  rcases ht : d.hub.getStream? uid with _ | target
  · exact regards_of_loyal fun _ => .refl
  have listed := mem_catalog ht
  rcases hs : d.session.stream with _ | current
  · exact regards_join (hd.hub.catalog _ listed).1
  · dsimp only
    split_ifs with same
    · exact regards_of_loyal fun _ => .refl
    · have listed' : (uid, target) ∈ (d.leave current).hub.catalog :=
        mem_catalog_leave listed (Ne.symm same) d.session.connection
      have known := ((hd.leave hs).catalog _ listed').1
      -- between the stream that it leaves and the one that it joins the session holds none
      exact (regards_leave current).trans (regards_join known)

theorem regards_handleData (d : Desk) (run : List Message) : d.Regards (d.handleData run).1 := by
  rw [handleData_eq]
  refine regards_of_loyal fun c => ?_
  split_ifs
  · exact loyal_broadcast run
  · have stored : Loyal c d.hub (d.hub.stored run) :=
      loyal_of_connections rfl fun _ => List.Subset.refl _
    exact stored.trans (loyal_broadcast run)

theorem Sound.regards_handleControl (hd : d.Sound held) (m : Message) :
    d.Regards (d.handleControl m).1 := by
  obtain ⟨timestamp, version, payload⟩ := m
  cases payload with
  | start => exact regards_onStream (fun _ _ => silent_startStream) confined_startStream
  | stop => exact regards_onStream (fun _ _ => silent_stopStream) confined_stopStream
  | seek p => exact regards_onStream (fun _ _ => silent_seekStream p) (confined_seekStream · · p)
  | speed x => exact regards_onStream (fun _ _ => silent_setSpeed x) (confined_setSpeed · · x)
  | subscribeStream uid => exact hd.regards_subscribe uid
  | streamDescription text =>
    have silent (h : Hub) (i : StreamId) : Silent i h (h.describe i text) :=
      silent_modifyStream fun _ => rfl
    exact regards_onStream silent (confined_describe · · text)
  | _ => exact regards_of_loyal fun _ => .refl

theorem Sound.regards_handleRun (hd : d.Sound held) (run : Run) :
    d.Regards (d.handleRun run).1 := by
  cases run with
  | data events => exact d.regards_handleData events
  | control m => exact hd.regards_handleControl m

end Regards

end Desk

end EventRelay
