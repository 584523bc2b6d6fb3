import EventRelay.Proofs.Abandoned
import EventRelay.Proofs.Recut

/-!
# A control message stays with the streams of its session

A control message plays, stops and moves the stream of its session, makes one for it, or moves the
session to another. Whatever it sets off, such as a replay that comes to its end, a hand-off to the
live feed, or a stream given up, nothing else is touched: no queue, no recorded event, no other
stream, no entry of another stream in the catalog and in the live set, and no other session.
-/

namespace EventRelay

namespace Hub

/-- A step has touched nothing but the streams of this list, and entries under their uids. -/
structure Within (own : Index) (h h' : Hub) : Prop where
  archive : h'.archive = h.archive
  streams : h.streams.length ≤ h'.streams.length
  uids : ∀ i < h.streams.length, (h'.stream i).uid = (h.stream i).uid
  others : ∀ i, (∀ o ∈ own, o.2 ≠ i) → h'.stream i = h.stream i
  named : ∀ e ∈ h'.catalog, e ∈ h.catalog ∨ e ∈ own
  unnamed : ∀ e ∈ h.catalog, (∀ o ∈ own, o.1 ≠ e.1) → e ∈ h'.catalog
  listed : ∀ e ∈ h'.live, e ∈ h.live ∨ e ∈ own
  unlisted : ∀ e ∈ h.live, (∀ o ∈ own, o.1 ≠ e.1) → e ∈ h'.live

section Within

variable {own own' : Index} {h h' h'' : Hub} {i : StreamId}

theorem Within.refl (own : Index) (h : Hub) : Within own h h where
  archive := rfl
  streams := Nat.le_refl _
  uids _ _ := rfl
  others _ _ := rfl
  named _ he := .inl he
  unnamed _ he _ := he
  listed _ he := .inl he
  unlisted _ he _ := he

theorem Within.trans (h₁ : Within own h h') (h₂ : Within own h' h'') : Within own h h'' where
  archive := h₂.archive.trans h₁.archive
  streams := Nat.le_trans h₁.streams h₂.streams
  uids i hi := (h₂.uids i (Nat.lt_of_lt_of_le hi h₁.streams)).trans (h₁.uids i hi)
  others i hi := (h₂.others i hi).trans (h₁.others i hi)
  named e he := (h₂.named e he).elim (h₁.named e) .inr
  unnamed e he hu := h₂.unnamed e (h₁.unnamed e he hu) hu
  listed e he := (h₂.listed e he).elim (h₁.listed e) .inr
  unlisted e he hu := h₂.unlisted e (h₁.unlisted e he hu) hu

theorem Within.mono (hw : Within own h h') (sub : own ⊆ own') : Within own' h h' where
  archive := hw.archive
  streams := hw.streams
  uids := hw.uids
  others i hi := hw.others i fun o ho => hi o (sub ho)
  named e he := (hw.named e he).imp_right (sub ·)
  unnamed e he hu := hw.unnamed e he fun o ho => hu o (sub ho)
  listed e he := (hw.listed e he).imp_right (sub ·)
  unlisted e he hu := hw.unlisted e he fun o ho => hu o (sub ho)

/-- An entry of the catalog under no uid of the list stays as it is. -/
theorem Within.mem_catalog (hw : Within own h h') {e : UInt32 × StreamId}
    (hu : ∀ o ∈ own, o.1 ≠ e.1) : e ∈ h'.catalog ↔ e ∈ h.catalog :=
  ⟨fun he => (hw.named e he).resolve_right fun ho => hu e ho rfl, fun he => hw.unnamed e he hu⟩

theorem Within.mem_live (hw : Within own h h') {e : UInt32 × StreamId}
    (hu : ∀ o ∈ own, o.1 ≠ e.1) : e ∈ h'.live ↔ e ∈ h.live :=
  ⟨fun he => (hw.listed e he).resolve_right fun ho => hu e ho rfl, fun he => hw.unlisted e he hu⟩

/-- The entry of a stream, wherever it stands. -/
def entry (h : Hub) (i : StreamId) : UInt32 × StreamId := ((h.stream i).uid, i)

theorem Within.entry_eq (hw : Within own h h') (hi : i < h.streams.length) :
    h'.entry i = h.entry i := by
  rw [entry, entry, hw.uids i hi]

/-! ## The steps of a control message -/

theorem Confined.within (hc : Confined i h h') : Within [h.entry i] h h' where
  archive := hc.archive
  streams := Nat.le_of_eq hc.streams.symm
  uids _ _ := hc.uid_eq _
  others j hj := hc.others j (Ne.symm (hj _ (List.mem_singleton_self _)))
  named _ he := .inl (hc.catalog ▸ he)
  unnamed _ he _ := hc.catalog.symm ▸ he
  listed e he := (hc.listed e he).imp_right fun new => List.mem_singleton.2 new.1
  unlisted e he hu := hc.unlisted e he (Ne.symm (hu _ (List.mem_singleton_self _)))

theorem Confined.entry_eq (hc : Confined i h h') (j : StreamId) : h'.entry j = h.entry j := by
  rw [entry, entry, hc.uid_eq]

theorem entry_enrol (h : Hub) (i j : StreamId) (c : ConnId) :
    (h.enrol i c).entry j = h.entry j := by
  rw [entry, entry, enrol, stream_modifyStream]
  split_ifs with same
  · rw [same.1]
  · rfl

theorem within_enrol (h : Hub) (i : StreamId) (c : ConnId) :
    Within [h.entry i] h (h.enrol i c) where
  archive := rfl
  streams := Nat.le_of_eq (streams_enrol h i c).symm
  uids _ _ := congrArg Prod.fst (entry_enrol h i _ c)
  others _ hj := stream_enrol_ne c (Ne.symm (hj _ (List.mem_singleton_self _)))
  named _ he := .inl he
  unnamed _ he _ := he
  listed _ he := .inl he
  unlisted _ he _ := he

theorem within_addSubscriber (h : Hub) (i : StreamId) (c : ConnId) :
    Within [h.entry i] h (h.addSubscriber i c) ∧
      (h.addSubscriber i c).entry i = h.entry i := by
  obtain ⟨m, rfl | rfl, confined⟩ := confined_addSubscriber h i c
  · exact ⟨confined.within, confined.entry_eq i⟩
  · have played := confined.within
    rw [entry_enrol] at played
    exact ⟨(within_enrol h i c).trans played, (confined.entry_eq i).trans (entry_enrol h i i c)⟩

/-- A stream that is given up takes its entries along. -/
theorem within_removeIfAbandoned (h : Hub) (i : StreamId) :
    Within [h.entry i] h (h.removeIfAbandoned i).1 := by
  have away {index : Index} : ∀ e ∈ index, (∀ o ∈ [h.entry i], o.1 ≠ e.1) →
      e ∈ index.erase (h.stream i).uid := fun e he hu =>
    mem_erase.2 ⟨he, Ne.symm (hu _ (List.mem_singleton_self _))⟩
  unfold removeIfAbandoned
  dsimp only
  split_ifs
  · exact ⟨rfl, Nat.le_refl _, fun _ _ => rfl, fun _ _ => rfl, fun _ he => .inl (mem_erase.1 he).1,
      away, fun _ he => .inl (mem_erase.1 he).1, away⟩
  · exact .refl _ h

theorem within_leave (h : Hub) (i : StreamId) (c : ConnId) :
    Within [h.entry i] h ((h.removeSubscriber i c).removeIfAbandoned i).1 := by
  have left := confined_removeSubscriber h i c
  have given := within_removeIfAbandoned (h.removeSubscriber i c) i
  rw [left.entry_eq] at given
  exact left.within.trans given

theorem within_createStream (h : Hub) :
    Within [(h.nextUid, h.streams.length)] h h.createStream.1 where
  archive := rfl
  streams := Nat.le_of_lt (streams_createStream h ▸ Nat.lt_succ_self _)
  uids _ hj := by
    rw [stream_createStream, if_neg (Nat.ne_of_lt hj)]
  others j hj := by
    rw [stream_createStream, if_neg (Ne.symm (hj _ (List.mem_singleton_self _)))]
  named e he := ((mem_insert _).1 he).elim (fun new => .inr (List.mem_singleton.2 new))
    fun old => .inl old.1
  unnamed e he hu := (mem_insert _).2 (.inr ⟨he, Ne.symm (hu _ (List.mem_singleton_self _))⟩)
  listed _ he := .inl he
  unlisted _ he _ := he

theorem entry_createStream (h : Hub) :
    h.createStream.1.entry h.createStream.2 = (h.nextUid, h.streams.length) := by
  have new : h.createStream.2 = h.streams.length := rfl
  rw [entry, stream_createStream, if_pos new]
  rfl

end Within

end Hub

namespace Desk

open Hub

/-- A session has touched no streams but those of this list. It holds each of them before or after,
and each is one of the catalog or has just been made. -/
structure Touches (d d' : Desk) (own : Index) : Prop where
  within : Within own d.hub d'.hub
  held : ∀ o ∈ own, d.session.stream = some o.2 ∨ d'.session.stream = some o.2
  entry : ∀ o ∈ own, o = d'.hub.entry o.2
  found : ∀ o ∈ own, o ∈ d.hub.catalog ∨ o = (d.hub.nextUid, d.hub.streams.length)
  made : d'.hub.streams.length = d.hub.streams.length ∨ d.session.stream = none ∧
    d'.session.stream = some d.hub.streams.length ∧
    d'.hub.streams.length = d.hub.streams.length + 1

variable {d d' : Desk} {held : List (Option StreamId)} {i : StreamId}

theorem touches_self (d : Desk) : d.Touches d [] :=
  ⟨.refl [] d.hub, nofun, nofun, nofun, .inl rfl⟩

/-- The session does something to a stream that it holds. -/
theorem Touches.confined {o : UInt32 × StreamId} (h : d.Touches d' [o]) {hub : Hub}
    (hc : Confined o.2 d'.hub hub) : d.Touches { d' with hub } [o] where
  within := by
    have own := h.entry o (List.mem_singleton_self o)
    have step := hc.within
    rw [← own] at step
    exact h.within.trans step
  held := h.held
  entry x hx := (h.entry x hx).trans (hc.entry_eq x.2).symm
  found := h.found
  made := hc.streams.symm ▸ h.made

theorem Sound.entry_mem (hd : d.Sound held) (hi : d.session.stream = some i) :
    d.hub.entry i ∈ d.hub.catalog := by
  have session := hd.session
  rw [hi] at session
  exact hd.hub.holding i (List.mem_of_getElem? session)

/-- The stream of a session is the one that it holds, or one that is made for it. -/
theorem Sound.touches_streamFor (hd : d.Sound held) :
    ∃ o : UInt32 × StreamId, d.Touches d.streamFor.1 [o] ∧ o.2 = d.streamFor.2 := by
  unfold Desk.streamFor
  rcases hs : d.session.stream with _ | i
  · dsimp only
    obtain ⟨joined, same⟩ := within_addSubscriber d.hub.createStream.1 d.hub.createStream.2
      d.session.connection
    rw [entry_createStream] at joined same
    refine ⟨(d.hub.nextUid, d.hub.streams.length), ⟨?_, ?_, ?_, ?_, ?_⟩, rfl⟩
    · exact (within_createStream d.hub).trans joined
    · exact List.forall_mem_singleton.2 (.inr rfl)
    · exact List.forall_mem_singleton.2 same.symm
    · exact List.forall_mem_singleton.2 (.inr rfl)
    · refine .inr ⟨hs, rfl, ?_⟩
      rw [streams_addSubscriber, streams_createStream]
  · refine ⟨d.hub.entry i, ⟨.refl _ d.hub, ?_, ?_, ?_, .inl rfl⟩, rfl⟩
    · exact List.forall_mem_singleton.2 (.inl hs)
    · exact List.forall_mem_singleton.2 rfl
    · exact List.forall_mem_singleton.2 (.inl (hd.entry_mem hs))

theorem Sound.touches_onStream (hd : d.Sound held) {f : Hub → StreamId → Hub}
    (confined : ∀ h i, Confined i h (f h i)) : ∃ own, d.Touches (d.onStream f) own := by
  obtain ⟨o, touches, same⟩ := hd.touches_streamFor
  exact ⟨[o], touches.confined (same ▸ confined _ _)⟩

/-- Moving touches the stream that is left and the one that is joined. -/
theorem Sound.touches_subscribe (hd : d.Sound held) (uid : UInt32) :
    ∃ own, d.Touches (d.subscribe uid).1 own := by
  unfold Desk.subscribe
  rcases ht : d.hub.getStream? uid with _ | target
  · exact ⟨[], touches_self d⟩
  have listed := mem_catalog ht
  obtain ⟨known, hu⟩ : target < d.hub.streams.length ∧ uid = (d.hub.stream target).uid :=
    hd.hub.catalog _ listed
  have named : d.hub.entry target ∈ d.hub.catalog := by
    rwa [Hub.entry, ← hu]
  rcases hs : d.session.stream with _ | current
  · obtain ⟨joined, same⟩ := within_addSubscriber d.hub target d.session.connection
    refine ⟨[d.hub.entry target], joined, ?_, ?_, ?_, .inl (streams_addSubscriber ..)⟩
    · exact List.forall_mem_singleton.2 (.inr rfl)
    · exact List.forall_mem_singleton.2 same.symm
    · exact List.forall_mem_singleton.2 (.inl named)
  · dsimp only
    split_ifs with stays
    · exact ⟨[], touches_self d⟩
    have left : Within [d.hub.entry current] d.hub (d.leave current).hub :=
      within_leave d.hub current d.session.connection
    obtain ⟨joined, -⟩ := within_addSubscriber (d.leave current).hub target d.session.connection
    rw [left.entry_eq known] at joined
    have both : Within [d.hub.entry current, d.hub.entry target] d.hub
        ((d.leave current).hub.addSubscriber target d.session.connection) :=
      (left.mono (by simp)).trans (joined.mono (by simp))
    have pair {p : UInt32 × StreamId → Prop} (hc : p (d.hub.entry current))
        (ht : p (d.hub.entry target)) : ∀ o ∈ [d.hub.entry current, d.hub.entry target], p o :=
      List.forall_mem_cons.2 ⟨hc, List.forall_mem_singleton.2 ht⟩
    refine ⟨_, both, pair (.inl hs) (.inr rfl), pair ?_ ?_, pair ?_ ?_, .inl ?_⟩
    · exact (both.entry_eq (hd.known hs)).symm
    · exact (both.entry_eq known).symm
    · exact .inl (hd.entry_mem hs)
    · exact .inl named
    · exact (streams_addSubscriber ..).trans (streams_leave d.hub current d.session.connection)

/-- A control message touches the streams that its session holds, before or after. -/
theorem Sound.touches_handleControl (hd : d.Sound held) (m : Message) :
    ∃ own, d.Touches (d.handleControl m).1 own := by
  obtain ⟨timestamp, version, payload⟩ := m
  cases payload with
  | start => exact hd.touches_onStream confined_startStream
  | stop => exact hd.touches_onStream confined_stopStream
  | seek p => exact hd.touches_onStream (confined_seekStream · · p)
  | speed x => exact hd.touches_onStream (confined_setSpeed · · x)
  | subscribeStream uid => exact hd.touches_subscribe uid
  | streamDescription text => exact hd.touches_onStream (confined_describe · · text)
  | _ => exact ⟨[], touches_self d⟩

/-! ### What is left alone -/

/-- The session holds the stream, before or after. -/
def Own (d d' : Desk) (i : StreamId) : Prop :=
  d.session.stream = some i ∨ d'.session.stream = some i

section Touches

variable {own : Index} {e : UInt32 × StreamId} (h : d.Touches d' own)
include h

theorem Touches.stream_eq (other : ¬d.Own d' i) : d'.hub.stream i = d.hub.stream i :=
  h.within.others i fun o ho same => other (same ▸ h.held o ho)

/-- Entries under other uids than those of the session's streams stay. -/
theorem Touches.mem_of_uid (other : ∀ i, d.Own d' i → (d'.hub.stream i).uid ≠ e.1) :
    (e ∈ d'.hub.catalog ↔ e ∈ d.hub.catalog) ∧ (e ∈ d'.hub.live ↔ e ∈ d.hub.live) := by
  have away : ∀ o ∈ own, o.1 ≠ e.1 := fun o ho same =>
    other o.2 (h.held o ho) ((congrArg Prod.fst (h.entry o ho)).symm.trans same)
  exact ⟨h.within.mem_catalog away, h.within.mem_live away⟩

/-- An entry of another stream is under another uid. -/
theorem Touches.ne_uid (hd : d.Sound held) (he : e ∈ d.hub.catalog) (other : ¬d.Own d' e.2) :
    ∀ o ∈ own, o.1 ≠ e.1 := by
  intro o ho same
  rcases h.found o ho with listed | rfl
  · obtain ⟨known, uid⟩ := hd.hub.catalog o listed
    have equal := hd.hub.eq_of_uid known he (same ▸ uid)
    exact other (equal ▸ h.held o ho)
  · exact hd.hub.ne_nextUid he same.symm

/-- Entries of other streams than those of the session stay. -/
theorem Touches.mem_of_stream (hd : d.Sound held) (other : ¬d.Own d' e.2) :
    (e ∈ d'.hub.catalog ↔ e ∈ d.hub.catalog) ∧ (e ∈ d'.hub.live ↔ e ∈ d.hub.live) := by
  have new : e ∉ own := fun he => other (h.held e he)
  refine ⟨⟨fun he => ?_, fun he => ?_⟩, fun he => ?_, fun he => ?_⟩
  · exact (h.within.named e he).resolve_right new
  · exact h.within.unnamed e he (h.ne_uid hd he other)
  · exact (h.within.listed e he).resolve_right new
  · exact h.within.unlisted e he (h.ne_uid hd (hd.hub.live e he) other)

end Touches

end Desk

namespace Relay

open Hub

/-- A control message that a session handles touches only the streams that the session holds before
or after: its own, and the one that is made for it or that it moves to. The queues and the recorded
events stay as they are, as does every other stream in all that it has. The catalog and the live set
change at most under the uids of those streams, and have the same entries of other streams. No
stream is made but the one that is made for the session, and the other sessions hold what they
held. -/
theorem Reachable.control_touches_own {r : Relay} (h : r.Reachable) {s : SessionId}
    (hs : s < r.sessions.length) {m : Message} (control : m.isData = false) :
    let r' := (r.handle s m).1
    let own (i : StreamId) : Prop :=
      (r.session s).stream = some i ∨ (r'.session s).stream = some i
    r'.hub.connections = r.hub.connections ∧ r'.hub.archive = r.hub.archive ∧
      (∀ i, ¬own i → r'.hub.stream i = r.hub.stream i) ∧
      (∀ e : UInt32 × StreamId, (∀ i, own i → (r'.hub.stream i).uid ≠ e.1) →
        (e ∈ r'.hub.catalog ↔ e ∈ r.hub.catalog) ∧ (e ∈ r'.hub.live ↔ e ∈ r.hub.live)) ∧
      (∀ e : UInt32 × StreamId, ¬own e.2 →
        (e ∈ r'.hub.catalog ↔ e ∈ r.hub.catalog) ∧ (e ∈ r'.hub.live ↔ e ∈ r.hub.live)) ∧
      (r'.hub.streams.length = r.hub.streams.length ∨ (r.session s).stream = none ∧
        (r'.session s).stream = some r.hub.streams.length ∧
        r'.hub.streams.length = r.hub.streams.length + 1) ∧
      ∀ t, t ≠ s → r'.session t = r.session t := by
  intro r' own
  have hd := h.sound.desk hs
  obtain ⟨touched, touches⟩ := hd.touches_handleControl m
  have step : r' = r.put s ((r.desk s).handleControl m).1 := by
    simp only [r', Relay.handle, Desk.handle, control, Bool.false_eq_true, if_false]
  have after : r'.session s = ((r.desk s).handleControl m).1.session := by
    rw [step, session_put r hs, if_pos rfl]
  have same (i : StreamId) : own i ↔ (r.desk s).Own ((r.desk s).handleControl m).1 i := by
    simp only [own, after]
    rfl
  have hub : r'.hub = ((r.desk s).handleControl m).1.hub := congrArg Relay.hub step
  simp only [hub, after, same]
  refine ⟨Desk.connections_handleControl _ m, touches.within.archive, fun i other => ?_,
    fun e other => ?_, fun e other => ?_, touches.made, fun t ht => ?_⟩
  · exact touches.stream_eq other
  · exact touches.mem_of_uid other
  · exact touches.mem_of_stream hd other
  · rw [step, session_put r hs, if_neg ht]

/-- A session that starts has a stream made for it, while another watches its replay. -/
theorem Reachable.control_touches_own_beside :
    let once : Store := (Store.memory.appendBatch [.current 7 (.test ⟨"a", []⟩)]).1
    let r := (start ⟨once, fun _ => false⟩ ⟨10, 250, by decide, by decide⟩ 0 false).steps
      [.accept 4, .accept 4, .handle 0 (.control (.current 0 (.seek (.time 0)))),
        .handle 0 (.control (.current 0 .start))]
    let r' := (r.handle 1 (.current 0 .start)).1
    (r.hub.stream 0).replay.running = true ∧ (r'.session 1).stream = some 1 ∧
      r'.hub.stream 0 = r.hub.stream 0 ∧ r'.hub.connections = r.hub.connections ∧
      ((1, 0) ∈ r'.hub.catalog ↔ (1, 0) ∈ r.hub.catalog) ∧ r'.session 0 = r.session 0 := by
  intro once r r'
  have reachable : r.Reachable := by
    refine ⟨_, _, _, _, _, ?_, rfl⟩
    decide +kernel
  obtain ⟨queues, -, others, -, entries, -, sessions⟩ :=
    control_touches_own reachable (s := 1) (by decide +kernel) (m := .current 0 .start) rfl
  have other : ¬((r.session 1).stream = some 0 ∨ (r'.session 1).stream = some 0) := by
    decide +kernel
  exact ⟨by decide +kernel, by decide +kernel, others 0 other, queues, (entries (1, 0) other).1,
    sessions 0 (by decide)⟩

end Relay

end EventRelay
