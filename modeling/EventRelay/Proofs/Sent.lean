import EventRelay.Proofs.Tidy

/-!
# What a subscriber is sent

A connection that watches a stream is sent what that stream sends, once, and nothing of what
happens to others.
-/

namespace EventRelay

/-- A connection that is open after a batch was sent has taken the batch. -/
theorem Connection.send_of_open {c : Connection} {batch : List Message}
    (h : (c.send batch).1.closed = false) :
    (c.send batch).2 = none ∧ (c.send batch).1.queue = c.queue ++ [batch] := by
  unfold send close at h ⊢
  split_ifs at h ⊢ with closed draining room
  · rw [closed] at h
    cases h
  · exact ⟨rfl, rfl⟩

namespace Hub

/-- A step has left a stream and a connection alone. -/
structure Aside (i : StreamId) (c : ConnId) (h h' : Hub) : Prop where
  archive : h'.archive = h.archive
  stream : h'.stream i = h.stream i
  connection : h'.connection c = h.connection c

/-- A batch has been sent to a connection that watches a stream. At most the stream has lost
subscribers, and the connection is among them unless it took the batch. -/
structure Sent (i : StreamId) (c : ConnId) (batch : List Message) (h h' : Hub) : Prop where
  archive : h'.archive = h.archive
  stream : ∃ subscribers, h'.stream i = { h.stream i with subscribers }
  connection : h'.connection c = ((h.connection c).send batch).1
  watching : ((h.connection c).send batch).2 = none → c ∈ h'.audience i
  taken : c ∈ (h'.stream i).subscribers → ((h.connection c).send batch).2 = none

/-- What a connection is queued from one moment to the next, and at what time. -/
def received (c : ConnId) (h h' : Hub) : List (Nat × List Message) :=
  ((h'.connection c).queue.drop (h.connection c).queue.length).map (h'.now.ms, ·)

section Sent

variable {h h' h'' : Hub} {held : List (Option StreamId)} {i j : StreamId} {c : ConnId}
  {batch : List Message}

theorem Aside.refl : Aside i c h h := ⟨rfl, rfl, rfl⟩

theorem Aside.trans (h₁ : Aside i c h h') (h₂ : Aside i c h' h'') : Aside i c h h'' :=
  ⟨h₂.archive.trans h₁.archive, h₂.stream.trans h₁.stream, h₂.connection.trans h₁.connection⟩

theorem Aside.mem_audience (ha : Aside i c h h') : c ∈ h'.audience i ↔ c ∈ h.audience i := by
  rw [Confined.mem_audience, Confined.mem_audience, isAlive, isAlive, ha.stream, ha.connection]

theorem Confined.aside (hc : Confined j h h') (hj : i ≠ j) (away : c ∉ h.audience j) :
    Aside i c h h' := ⟨hc.archive, hc.others i hj, hc.queues c away⟩

theorem Aside.sent (h₁ : Aside i c h h') (h₂ : Sent i c batch h' h'') : Sent i c batch h h'' where
  archive := h₂.archive.trans h₁.archive
  stream := h₁.stream ▸ h₂.stream
  connection := h₁.connection ▸ h₂.connection
  watching := h₁.connection ▸ h₂.watching
  taken := h₁.connection ▸ h₂.taken

theorem Sent.aside (h₁ : Sent i c batch h h') (h₂ : Aside i c h' h'') : Sent i c batch h h'' where
  archive := h₂.archive.trans h₁.archive
  stream := h₂.stream ▸ h₁.stream
  connection := h₂.connection.trans h₁.connection
  watching ok := h₂.mem_audience.2 (h₁.watching ok)
  taken hc := h₁.taken (h₂.stream ▸ hc)

/-! ## Sending -/

theorem lt_of_isAlive (ha : h.isAlive c = true) : c < h.connections.length := by
  by_contra hlt
  rw [isAlive, connection, List.getD_eq_getElem?_getD,
    List.getElem?_eq_none (Nat.not_lt.1 hlt)] at ha
  cases ha

theorem sendTo_self (ha : h.isAlive c = true) (batch : List Message) :
    (h.sendTo c batch).1.connection c = ((h.connection c).send batch).1 ∧
      (h.sendTo c batch).2 = ((h.connection c).send batch).2.isNone := by
  rw [sendTo, if_neg (by simp [ha])]
  refine ⟨?_, rfl⟩
  rw [queue]
  dsimp only
  rw [connection_modifyConnection, if_pos ⟨rfl, lt_of_isAlive ha⟩]

theorem sendTo_ne {d : ConnId} (hd : d ≠ c) (batch : List Message) :
    (h.sendTo d batch).1.connection c = h.connection c := by
  unfold sendTo queue
  split_ifs
  · rfl
  · dsimp only
    rw [connection_modifyConnection, if_neg fun e => hd e.1]

theorem sendAll_away (batch : List Message) : ∀ {cs : List ConnId} {h : Hub}, c ∉ cs →
    (h.sendAll batch cs).1.connection c = h.connection c
  | [], _, _ => rfl
  | d :: cs, h, away => by
    rw [List.mem_cons, not_or] at away
    exact (sendAll_away batch away.2).trans (sendTo_ne (Ne.symm away.1) batch)

theorem sendAll_once (batch : List Message) : ∀ {cs : List ConnId} {h : Hub}, c ∈ cs →
    cs.count c ≤ 1 → h.isAlive c = true →
      (h.sendAll batch cs).1.connection c = ((h.connection c).send batch).1 ∧
        (((h.connection c).send batch).2 = none ↔ c ∈ (h.sendAll batch cs).2)
  | d :: cs, h, hc, once, ha => by
    rw [sendAll]
    dsimp only
    by_cases hd : d = c
    · subst hd
      rw [List.count_cons_self] at once
      have away : d ∉ cs := List.count_eq_zero.1 (by omega)
      obtain ⟨sent, taken⟩ := sendTo_self ha batch
      refine ⟨(sendAll_away batch away).trans sent, ?_⟩
      have later : d ∉ ((h.sendTo d batch).1.sendAll batch cs).2 :=
        fun hm => away ((sublist_sendAll batch cs _).subset hm)
      rw [taken]
      rcases ((h.connection d).send batch).2 with _ | e
      · simp
      · simpa using later
    · have hc := (List.mem_cons.1 hc).resolve_left (Ne.symm hd)
      rw [List.count_cons_of_ne hd] at once
      have same := sendTo_ne (h := h) hd batch
      obtain ⟨sent, kept⟩ := sendAll_once batch hc once
        (h := (h.sendTo d batch).1) (by rw [isAlive, same]; exact ha)
      rw [same] at sent kept
      refine ⟨sent, ?_⟩
      split_ifs
      · rw [List.mem_cons, or_iff_right (Ne.symm hd)]
        exact kept
      · exact kept

theorem stream_send (hi : i < h.streams.length) (batch : List Message) :
    (h.send i batch).1.stream i =
      { h.stream i with subscribers := (h.sendAll batch (h.stream i).subscribers).2 } := by
  obtain ⟨connections, hall⟩ := sendAll_eq batch (h.stream i).subscribers h
  rw [send]
  dsimp only
  rw [hall]
  exact stream_modifyStream_self (h := { h with connections }) hi _

theorem sent_send (hi : i < h.streams.length) (once : (h.audience i).Nodup)
    (hc : c ∈ h.audience i) (batch : List Message) : Sent i c batch h (h.send i batch).1 := by
  obtain ⟨subscribed, alive⟩ := Confined.mem_audience.1 hc
  have count : (h.stream i).subscribers.count c ≤ 1 := by
    rw [← List.count_filter alive]
    exact List.nodup_iff_count_le_one.1 once c
  obtain ⟨sent, kept⟩ := sendAll_once batch subscribed count alive
  have confined := confined_send h i batch
  have stream := stream_send hi batch
  refine ⟨confined.archive, ⟨_, stream⟩, sent, fun ok => Confined.mem_audience.2 ⟨?_, ?_⟩,
    fun hc => ?_⟩
  · rw [stream]
    exact kept.1 ok
  · rw [confined.alive]
    exact alive
  · rw [stream] at hc
    exact kept.2 hc

/-! ## The live feed -/

theorem aside_sendStreams (batch : List Message) : ∀ {is : List StreamId} {h : Hub}, i ∉ is →
    (∀ j ∈ is, c ∉ h.audience j) → Aside i c h (h.sendStreams batch is).1
  | [], _, _, _ => .refl
  | j :: is, h, out, away => by
    rw [List.mem_cons, not_or] at out
    have confined := confined_send h j batch
    exact (confined.aside out.1 (away j (by simp))).trans <|
      aside_sendStreams batch out.2 fun k hk hm => away k (by simp [hk]) (confined.audience hm)

theorem sent_sendStreams (batch : List Message) : ∀ {is : List StreamId} {h : Hub}, i ∈ is →
    is.Nodup → i < h.streams.length → (h.audience i).Nodup → c ∈ h.audience i →
      (∀ j ∈ is, j ≠ i → c ∉ h.audience j) → Sent i c batch h (h.sendStreams batch is).1
  | j :: is, h, hi, distinct, known, once, hc, away => by
    rw [List.nodup_cons] at distinct
    have confined := confined_send h j batch
    have rest (k : StreamId) (hk : k ∈ is) (hki : k ≠ i) : c ∉ (h.send j batch).1.audience k :=
      fun hm => away k (by simp [hk]) hki (confined.audience hm)
    by_cases hj : j = i
    · subst hj
      refine (sent_send known once hc batch).aside (aside_sendStreams batch distinct.1 ?_)
      exact fun k hk => rest k hk fun e => distinct.1 (e ▸ hk)
    · have past := confined.aside (Ne.symm hj) (away j (by simp) hj)
      have hi := (List.mem_cons.1 hi).resolve_left (Ne.symm hj)
      exact past.sent (sent_sendStreams batch hi distinct.2 (confined.known known)
        (once.sublist (confined.sublist_audience i)) (past.mem_audience.2 hc) rest)

theorem aside_unsubscribeAll : ∀ (is : List StreamId) (h : Hub),
    Aside i c h (is.foldl unsubscribeIfIdle h)
  | [], _ => .refl
  | j :: is, h => by
    refine Aside.trans ?_ (aside_unsubscribeAll is _)
    unfold unsubscribeIfIdle
    split_ifs <;> exact ⟨rfl, rfl, rfl⟩

/-- Where every entry of the live set is under the uid of its stream, a stream is in it just if it
is fed. -/
theorem listed_iff_of_uid (uid : ∀ e ∈ h.live, e.1 = (h.stream e.2).uid) :
    h.Listed i ↔ i ∈ h.live.map (·.2) := by
  rw [Listed, List.mem_map]
  constructor
  · exact fun hl => ⟨_, hl, rfl⟩
  · rintro ⟨e, he, rfl⟩
    rwa [← uid e he]

theorem fed_nodup_of_uid (nodup : h.live.Nodup) (uid : ∀ e ∈ h.live, e.1 = (h.stream e.2).uid) :
    (h.live.map (·.2)).Nodup :=
  nodup.map_on fun a ha b hb e => Prod.ext ((uid a ha).trans (e ▸ (uid b hb).symm)) e

theorem Tidy.live_uid (ht : h.Tidy held) : ∀ e ∈ h.live, e.1 = (h.stream e.2).uid :=
  fun e he => (ht.catalog e (ht.live e he)).2

theorem Tidy.listed_iff (ht : h.Tidy held) : h.Listed i ↔ i ∈ h.live.map (·.2) :=
  listed_iff_of_uid ht.live_uid

theorem Tidy.fed_nodup (ht : h.Tidy held) : (h.live.map (·.2)).Nodup :=
  fed_nodup_of_uid ht.live_nodup ht.live_uid

/-- What is received passes by a stream outside of the live set, and those that watch no stream of
it. -/
theorem aside_broadcast (out : i ∉ h.live.map (·.2))
    (away : ∀ j ∈ h.live.map (·.2), c ∉ h.audience j) (batch : List Message) :
    Aside i c h (h.broadcast batch) := by
  unfold broadcast
  split_ifs
  · exact .refl
  · exact (aside_sendStreams batch out away).trans (aside_unsubscribeAll _ _)

theorem Tidy.aside_broadcast (ht : h.Tidy held) (hc : c ∈ (h.stream i).subscribers)
    (out : ¬h.Listed i) (batch : List Message) : Aside i c h (h.broadcast batch) := by
  rw [ht.listed_iff] at out
  exact Hub.aside_broadcast out (fun j hj hm => out (ht.watches_one hc hm ▸ hj)) batch

/-- A stream that is fed once sends on what is received to those that watch no other stream. -/
theorem sent_broadcast (fed : i ∈ h.live.map (·.2)) (distinct : (h.live.map (·.2)).Nodup)
    (known : i < h.streams.length) (once : (h.audience i).Nodup) (hc : c ∈ h.audience i)
    (away : ∀ j ∈ h.live.map (·.2), j ≠ i → c ∉ h.audience j) (some : batch ≠ []) :
    Sent i c batch h (h.broadcast batch) := by
  rw [broadcast, if_neg some]
  exact (sent_sendStreams batch fed distinct known once hc away).aside (aside_unsubscribeAll _ _)

/-- A stream of the live set sends on what is received. -/
theorem Tidy.sent_broadcast (ht : h.Tidy held) (hc : c ∈ h.audience i) (hl : h.Listed i)
    (some : batch ≠ []) : Sent i c batch h (h.broadcast batch) :=
  Hub.sent_broadcast (ht.listed_iff.1 hl) ht.fed_nodup (ht.catalog _ (ht.live _ hl)).1
    (ht.audience_nodup i) hc (fun _ _ hj => ht.away hc hj) some

end Sent

end Hub

end EventRelay
