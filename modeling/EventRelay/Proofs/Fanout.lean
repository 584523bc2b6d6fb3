import EventRelay.Proofs.Apiece
import EventRelay.Proofs.Heard

/-!
# What a broadcast comes to

Where nobody watches two streams, a broadcast reaches each connection that watches a stream of the
live set once. Whoever has no room for it is closed and dropped, and a stream that loses all of its
subscribers so leaves the live set.
-/

namespace EventRelay

namespace Connection

variable {c : Connection} {batch : List Message}

/-- The next batch will be taken. -/
def Takes (c : Connection) : Prop := c.closed = false ∧ c.HasRoom

instance : DecidablePred Takes := fun _ => inferInstanceAs (Decidable (_ ∧ _))

theorem send_of_takes (takes : c.Takes) (batch : List Message) :
    c.send batch = ({ c with queue := c.queue ++ [batch] }, none) :=
  send_of_room takes.1 takes.2 batch

theorem send_of_not_takes (full : ¬c.Takes) (batch : List Message) :
    (c.send batch).1 = c.close ∧ (c.send batch).2 ≠ none := by
  by_cases closed : c.closed = true
  · rw [send, if_pos closed]
    exact ⟨by rw [close, ← closed], Option.some_ne_none _⟩
  · rw [Bool.not_eq_true] at closed
    exact send_of_full closed (fun room => full ⟨closed, room⟩) batch

end Connection

namespace Hub

variable {h : Hub} {i j : StreamId} {c : ConnId} {batch : List Message}

/-- No connection watches two streams, or one twice, and the live set has one entry for a uid, of a
stream that is called so. -/
structure Fanned (h : Hub) : Prop where
  nodup : ∀ i, (h.audience i).Nodup
  one : ∀ {c i j}, c ∈ h.audience i → c ∈ h.audience j → i = j
  live : ∀ e ∈ h.live, e.2 < h.streams.length ∧ e.1 = (h.stream e.2).uid
  keys : (h.live.map (·.1)).Nodup

theorem Fanned.fed_nodup (hf : h.Fanned) : (h.live.map (·.2)).Nodup :=
  fed_nodup_of_uid hf.keys.of_map fun e he => (hf.live e he).2

theorem Fanned.known (hf : h.Fanned) (hi : i ∈ h.live.map (·.2)) : i < h.streams.length := by
  obtain ⟨e, he, rfl⟩ := List.mem_map.1 hi
  exact (hf.live e he).1

/-- The connection watches a stream of the live set. -/
def Reaches (h : Hub) (c : ConnId) : Prop := ∃ e ∈ h.live, c ∈ h.audience e.2

instance (h : Hub) : DecidablePred h.Reaches :=
  fun c => inferInstanceAs (Decidable (∃ e ∈ h.live, c ∈ h.audience e.2))

/-- The connection will take the next batch. One that is gone takes none. -/
def takes (h : Hub) (c : ConnId) : Bool := h.isAlive c && decide (h.connection c).Takes

/-- The subscribers of a stream that will take the next batch. -/
def takers (h : Hub) (i : StreamId) : List ConnId := (h.stream i).subscribers.filter h.takes

/-- A batch has been sent, once, to everybody who watches a stream of the live set. These streams
have kept the subscribers that took it, and the live set the streams that have any left. -/
def fanOut (h : Hub) (batch : List Message) : Hub :=
  { h with
    connections := h.connections.mapIdx fun c x => if h.Reaches c then (x.send batch).1 else x
    streams := h.streams.mapIdx fun i s =>
      if i ∈ h.live.map (·.2) then { s with subscribers := h.takers i } else s
    live := h.live.filter fun e => h.takers e.2 ≠ [] }

theorem Reaches.known (reached : h.Reaches c) : c < h.connections.length :=
  let ⟨_, _, hc⟩ := reached
  lt_of_isAlive (Confined.mem_audience.1 hc).2

/-- There is nothing to a connection that was never let in. -/
theorem connection_eq_default (unknown : ¬c < h.connections.length) : h.connection c = default := by
  rw [connection, List.getD_eq_getElem?_getD, List.getElem?_eq_none (Nat.not_lt.1 unknown)]
  rfl

theorem getD_mapIdx {α : Type*} (f : Nat → α → α) (xs : List α) (n : Nat) (x : α) :
    (xs.mapIdx f).getD n x = if n < xs.length then f n (xs.getD n x) else x := by
  rw [List.getD_eq_getElem?_getD, List.getElem?_mapIdx, List.getD_eq_getElem?_getD]
  by_cases known : n < xs.length
  · simp [known]
  · simp [known]

theorem connection_fanOut (h : Hub) (batch : List Message) (c : ConnId) :
    (h.fanOut batch).connection c =
      if h.Reaches c then ((h.connection c).send batch).1 else h.connection c := by
  rw [connection, fanOut, getD_mapIdx]
  by_cases known : c < h.connections.length
  · rw [if_pos known]
    rfl
  · rw [if_neg known, if_neg fun reached => known (Reaches.known reached),
      connection_eq_default known]

theorem stream_fanOut (h : Hub) (batch : List Message) (i : StreamId) :
    (h.fanOut batch).stream i =
      if i ∈ h.live.map (·.2) then { h.stream i with subscribers := h.takers i }
      else h.stream i := by
  rw [stream, fanOut, getD_mapIdx]
  by_cases known : i < h.streams.length
  · rw [if_pos known]
    rfl
  · rw [if_neg known, takers, Relay.stream_eq_default known]
    split_ifs <;> rfl

/-! ## Sending to one stream -/

/-- Those that are kept are those that take it, where no one that is there comes up twice. -/
theorem kept_sendAll (batch : List Message) : ∀ {cs : List ConnId} {h : Hub},
    (cs.filter h.isAlive).Nodup → (h.sendAll batch cs).2 = cs.filter h.takes
  | [], _, _ => rfl
  | c :: cs, h, once => by
    have rest : (cs.filter h.isAlive).Nodup :=
      once.sublist ((List.sublist_cons_self c cs).filter _)
    rw [sendAll]
    dsimp only
    by_cases alive : h.isAlive c = true
    · rw [List.filter_cons_of_pos alive, List.nodup_cons, List.mem_filter] at once
      obtain ⟨sent, taken⟩ := sendTo_self alive batch
      have isAlive : (h.sendTo c batch).1.isAlive = h.isAlive :=
        funext fun d => (hushed_sendTo c batch).alive
      have same : cs.filter (h.sendTo c batch).1.takes = cs.filter h.takes := by
        refine List.filter_congr fun d hd => ?_
        unfold takes
        by_cases other : c = d
        · exact absurd ⟨other ▸ hd, alive⟩ once.1
        · rw [isAlive, sendTo_ne other]
      rw [kept_sendAll batch (isAlive ▸ rest), same, taken, List.filter_cons, takes, alive,
        Bool.true_and]
      by_cases takes : (h.connection c).Takes
      · simp [Connection.send_of_takes takes, takes]
      · have refused := (Connection.send_of_not_takes takes batch).2
        simp [takes, Option.isNone_iff_eq_none, refused]
    · have dead : h.sendTo c batch = (h, false) := if_pos (by simpa using alive)
      have none : ¬h.takes c = true := by simp [takes, alive]
      rw [dead, kept_sendAll batch rest, List.filter_cons_of_neg none]
      rfl

theorem kept_send (known : i < h.streams.length) (once : (h.audience i).Nodup)
    (batch : List Message) :
    (h.send i batch).1.stream i = { h.stream i with subscribers := h.takers i } ∧
      (h.send i batch).2 = !(h.takers i).isEmpty := by
  have kept : (h.sendAll batch (h.stream i).subscribers).2 = h.takers i := kept_sendAll batch once
  refine ⟨by rw [stream_send known, kept], ?_⟩
  rw [send]
  dsimp only
  rw [kept]

/-! ## Sending to the streams of the live set -/

/-- Sending to a stream makes no difference to who of another will take a batch. -/
theorem takers_send (hf : h.Fanned) (hj : i ≠ j) (batch : List Message) :
    (h.send j batch).1.takers i = h.takers i := by
  have confined := confined_send h j batch
  rw [takers, takers, confined.others i hj]
  refine List.filter_congr fun c hi => ?_
  unfold takes
  rw [confined.alive]
  by_cases alive : h.isAlive c = true
  · rw [confined.queues c fun hm => hj (hf.one (Confined.mem_audience.2 ⟨hi, alive⟩) hm)]
  · simp [alive]

theorem Fanned.confined {h' : Hub} (hf : h.Fanned) (hc : Confined i h h')
    (live : h'.live = h.live) : h'.Fanned where
  nodup j := (hf.nodup j).sublist (hc.sublist_audience j)
  one hi hj := hf.one (hc.audience hi) (hc.audience hj)
  live e he := by
    rw [hc.uid_eq]
    obtain ⟨known, uid⟩ := hf.live e (live ▸ he)
    exact ⟨hc.known known, uid⟩
  keys := live ▸ hf.keys

theorem live_send (h : Hub) (i : StreamId) (batch : List Message) :
    (h.send i batch).1.live = h.live := by
  obtain ⟨connections, kept, hsend, -⟩ := send_eq h i batch
  rw [hsend]
  rfl

theorem stream_sendStreams (batch : List Message) : ∀ {is : List StreamId} {h : Hub}, i ∉ is →
    (h.sendStreams batch is).1.stream i = h.stream i
  | [], _, _ => rfl
  | j :: is, h, out => by
    rw [List.mem_cons, not_or] at out
    exact (stream_sendStreams batch out.2).trans ((confined_send h j batch).others i out.1)

theorem kept_sendStreams (batch : List Message) : ∀ {is : List StreamId} {h : Hub}, h.Fanned →
    is.Nodup → (∀ i ∈ is, i < h.streams.length) →
      (∀ i ∈ is, (h.sendStreams batch is).1.stream i =
        { h.stream i with subscribers := h.takers i }) ∧
      (h.sendStreams batch is).2 = is.filter fun i => (h.takers i).isEmpty
  | [], _, _, _, _ => ⟨nofun, rfl⟩
  | j :: is, h, hf, distinct, known => by
    rw [List.nodup_cons] at distinct
    rw [List.forall_mem_cons] at known
    have confined := confined_send h j batch
    obtain ⟨kept, reached⟩ := kept_send known.1 (hf.nodup j) batch
    obtain ⟨rest, idle⟩ := kept_sendStreams batch (hf.confined confined (live_send h j batch))
      distinct.2 fun i hi => confined.known (known.2 i hi)
    have other {i : StreamId} (hi : i ∈ is) : i ≠ j := ne_of_mem_of_not_mem hi distinct.1
    have takers {i : StreamId} (hi : i ∈ is) : (h.send j batch).1.takers i = h.takers i :=
      takers_send hf (other hi) batch
    refine ⟨fun i hi => ?_, ?_⟩
    · rcases List.mem_cons.1 hi with rfl | hi
      · exact (stream_sendStreams batch distinct.1).trans kept
      · rw [sendStreams]
        refine (rest i hi).trans ?_
        rw [takers hi, confined.others i (other hi)]
    · rw [sendStreams]
      dsimp only
      rw [idle, List.filter_congr fun i hi => by rw [takers hi], reached, List.filter_cons]
      cases (h.takers j).isEmpty <;> rfl

/-- Streams that nobody watches leave the live set, and nothing else happens. -/
theorem live_unsubscribeAll : ∀ (is : List StreamId) {h : Hub}, (∀ i ∈ is, h.audience i = []) →
    is.foldl unsubscribeIfIdle h =
      { h with live := h.live.filter fun e => ∀ i ∈ is, e.1 ≠ (h.stream i).uid }
  | [], h, _ => by simp
  | i :: is, h, idle => by
    rw [List.forall_mem_cons] at idle
    have out : h.unsubscribeIfIdle i = h.unsubscribe (h.stream i).uid :=
      if_pos (List.length_eq_zero_iff.2 idle.1)
    have rest := live_unsubscribeAll is (h := h.unsubscribe (h.stream i).uid) idle.2
    rw [List.foldl_cons, out, rest]
    simp only [Hub.unsubscribe, Index.erase, List.filter_filter, List.forall_mem_cons]
    refine congrArg (fun live => { h with live }) (List.filter_congr fun e _ => ?_)
    rw [Bool.eq_iff_iff]
    simp [Hub.stream, and_comm]

/-! ## The live feed -/

/-- A broadcast changes connections, streams and the live set only. -/
theorem broadcast_frame (h : Hub) (batch : List Message) :
    h.broadcast batch = { h with
      connections := (h.broadcast batch).connections
      streams := (h.broadcast batch).streams
      live := (h.broadcast batch).live } := by
  have same := @broadcast_same _
    (fun g : Hub => ({ g with connections := [], streams := [], live := [] } : Hub))
    (fun h i batch => by
      obtain ⟨connections, kept, hsend, -⟩ := send_eq h i batch
      rw [hsend]
      rfl)
    (fun h i => by
      unfold unsubscribeIfIdle
      split_ifs <;> rfl) h batch
  exact congrArg (fun g : Hub => { g with
    connections := (h.broadcast batch).connections
    streams := (h.broadcast batch).streams
    live := (h.broadcast batch).live }) same

theorem ext_getD {α : Type*} {xs ys : List α} {d : α} (length : xs.length = ys.length)
    (same : ∀ n, xs.getD n d = ys.getD n d) : xs = ys := by
  refine List.ext_getElem length fun n hx hy => ?_
  simpa [List.getD_eq_getElem?_getD, hx, hy] using same n

theorem connection_broadcast (hf : h.Fanned) (some : batch ≠ []) (c : ConnId) :
    (h.broadcast batch).connection c =
      if h.Reaches c then ((h.connection c).send batch).1 else h.connection c := by
  split_ifs with reached
  · obtain ⟨e, he, hc⟩ := reached
    have fed : e.2 ∈ h.live.map (·.2) := List.mem_map_of_mem he
    exact (sent_broadcast fed hf.fed_nodup (hf.known fed) (hf.nodup _) hc
      (fun _ _ hj hm => hj (hf.one hm hc)) some).connection
  · refine (aside_broadcast (i := h.streams.length) (fun hi => (hf.known hi).false)
      (fun j hj hm => ?_) batch).connection
    obtain ⟨e, he, rfl⟩ := List.mem_map.1 hj
    exact reached ⟨e, he, hm⟩

/-- What a broadcast comes to. -/
theorem broadcast_eq_fanOut (hf : h.Fanned) (some : batch ≠ []) :
    h.broadcast batch = h.fanOut batch := by
  obtain ⟨kept, idle⟩ := kept_sendStreams batch hf hf.fed_nodup fun _ => hf.known
  have fed : (h.sendStreams batch (h.live.map (·.2))).1.live = h.live :=
    sendStreams_same live_send batch _ h
  have others (i : StreamId) (hi : i ∉ h.live.map (·.2)) :
      (h.sendStreams batch (h.live.map (·.2))).1.stream i = h.stream i :=
    stream_sendStreams batch hi
  have pruned : h.broadcast batch = (h.sendStreams batch (h.live.map (·.2))).2.foldl
      unsubscribeIfIdle (h.sendStreams batch (h.live.map (·.2))).1 := if_neg some
  generalize h.sendStreams batch (h.live.map (·.2)) = sent at kept idle fed others pruned
  obtain ⟨m, gone⟩ := sent
  dsimp only at kept idle fed others pruned
  have empty {i : StreamId} : i ∈ gone ↔ i ∈ h.live.map (·.2) ∧ h.takers i = [] := by
    rw [idle, List.mem_filter, List.isEmpty_iff]
  rw [live_unsubscribeAll gone fun i hi => by
    rw [audience, kept i (empty.1 hi).1, (empty.1 hi).2]
    rfl, fed] at pruned
  have connections : (h.broadcast batch).connections = (h.fanOut batch).connections := by
    refine ext_getD (d := default)
      ((thins_broadcast h batch).connections.trans List.length_mapIdx.symm) fun c => ?_
    exact (connection_broadcast hf some c).trans (connection_fanOut h batch c).symm
  have streams : (h.broadcast batch).streams = (h.fanOut batch).streams := by
    refine ext_getD (d := default)
      ((streams_broadcast h batch).trans List.length_mapIdx.symm) fun i => ?_
    refine Eq.trans ?_ (stream_fanOut h batch i).symm
    rw [pruned]
    split_ifs with hi
    · exact kept i hi
    · exact others i hi
  have live : (h.broadcast batch).live = (h.fanOut batch).live := by
    rw [pruned]
    refine List.filter_congr fun e he => decide_eq_decide.2 ⟨fun stays none => ?_, ?_⟩
    · have fed : e.2 ∈ h.live.map (·.2) := List.mem_map_of_mem he
      refine stays e.2 (empty.2 ⟨fed, none⟩) ?_
      rw [kept e.2 fed]
      exact (hf.live e he).2
    · intro left i hi uid
      obtain ⟨fed, none⟩ := empty.1 hi
      rw [kept i fed] at uid
      obtain ⟨e', he', rfl⟩ := List.mem_map.1 fed
      obtain rfl : e = e' :=
        List.inj_on_of_nodup_map hf.keys he he' (uid.trans (hf.live e' he').2.symm)
      exact left none
  rw [broadcast_frame, connections, streams, live]
  rfl

end Hub

theorem Relay.Apiece.fanned {r : Relay} (hr : r.Apiece) : r.hub.Fanned where
  nodup := hr.nodup
  one := hr.one
  live e he := by
    obtain ⟨known, uid⟩ := hr.hub.live e he
    exact ⟨known, uid.trans (hr.hub.uids _ known).symm⟩
  keys := hr.hub.keys

end EventRelay
