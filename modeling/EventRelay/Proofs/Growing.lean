import EventRelay.Proofs.Upcoming

/-!
# Replaying a log that grows

While a replay plays forwards, events are stored that are not behind its cursor. They come up in
their turn: what the replay has sent and what it has yet to send are at all times the events that
were there when it set out and those that came in before the cursor, in order. So a replay that
comes to its end has sent just these.
-/

namespace EventRelay

open Direction

/-- The time of the last of some events, and without any another time. -/
def lastTime (t : Int64) (ms : List Message) : Int64 := (ms.getLast?.map (·.timestamp)).getD t

theorem le_lastTime {ms : List Message} (h : forward.Ordered ms) {m : Message} (hm : m ∈ ms)
    (t : Int64) : m.timestamp ≤ lastTime t ms := by
  obtain ⟨xs, x, rfl⟩ := (List.eq_nil_or_concat' ms).resolve_left (List.ne_nil_of_mem hm)
  rw [lastTime, List.getLast?_concat]
  rcases List.mem_append.1 hm with hm | hm
  · exact place_forward_le.1 ((List.pairwise_append.1 h).2.2 m hm x (by simp))
  · rw [List.mem_singleton.1 hm]
    exact Int64.le_refl _

/-- The store is there, and this is its log. -/
structure Archive.Serves (a : Archive) (log : List Message) : Prop where
  holds : a.store.Holds log
  up : a.failing .fetch = false
  bounded : Bounded log

namespace Replay

/-- What a replay has sent since it was sent to a time and what it has yet to send are the events
wanted, in order. The cursor is at the last event fetched. -/
structure Covers (r : Replay) (t : Int64) (log wanted sent : List Message) : Prop where
  forwards : r.direction = .forward
  refetches : r.cursor.refetches = true
  settled : r.cursor.Settled log
  last : r.cursor.last = lastTime t (sent ++ r.buffer)
  whole : sent ++ r.upcoming log = inOrder wanted

variable {r : Replay} {t : Int64} {log wanted sent : List Message}

theorem upcoming_forwards (h : r.direction = .forward) :
    r.upcoming log = r.buffer ++ r.cursor.ahead .forward (inOrder log) := by
  rw [upcoming, h, history]

theorem Covers.congr {r' : Replay} (h : r.Covers t log wanted sent) (hb : r'.buffer = r.buffer)
    (hc : r'.cursor = r.cursor) (hs : r'.speed = r.speed) : r'.Covers t log wanted sent := by
  have hd : r'.direction = r.direction := congrArg Direction.ofSpeed hs
  refine ⟨hd.trans h.forwards, hc ▸ h.refetches, hc ▸ h.settled, ?_, ?_⟩
  · rw [hb, hc]
    exact h.last
  · rw [upcoming_congr hb hc hd]
    exact h.whole

theorem covers_seek (forwards : r.direction = .forward) (bounded : Bounded log) (now : Instant)
    (t : Int64) : (r.seek now (.time t)).Covers t log (log.filter fun m => t ≤ m.timestamp) [] where
  forwards := direction_seek.trans forwards
  refetches := by
    rw [cursor_seek]
    rfl
  settled := by
    rw [cursor_seek]
    exact Position.settled_cursor _ log
  last := by
    rw [cursor_seek, buffer_seek]
    rfl
  whole := by
    rw [List.nil_append, upcoming_seek bounded, forwards, Position.course, inOrder_filter]
    exact List.filter_congr fun m _ => by rw [decide_eq_decide, place_forward_le]

theorem Covers.ordered (h : r.Covers t log wanted sent) :
    forward.Ordered (sent ++ r.buffer ++ r.cursor.ahead .forward (inOrder log)) := by
  have whole := h.whole
  rw [upcoming_forwards h.forwards, ← List.append_assoc] at whole
  exact whole ▸ inOrder_ordered wanted

/-- Nothing that has been fetched lies past the cursor. -/
theorem Covers.passed (h : r.Covers t log wanted sent) {m : Message} (hm : m ∈ sent ++ r.buffer) :
    m.timestamp ≤ r.cursor.last := by
  rw [h.last]
  exact le_lastTime (List.pairwise_append.1 h.ordered).1 hm t

/-- Events that are stored behind the cursor are missed, all others are played in their turn. -/
theorem Covers.append (h : r.Covers t log wanted sent) (bounded : Bounded log) {ms : List Message}
    (bounded' : Bounded ms) : r.Covers t (log ++ ms)
      (wanted ++ ms.filter fun m => r.cursor.last ≤ m.timestamp) sent := by
  have whole := h.whole
  rw [upcoming_forwards h.forwards, ← List.append_assoc] at whole
  refine ⟨h.forwards, h.refetches, h.settled.append ms, h.last, ?_⟩
  rw [upcoming_forwards h.forwards, ← List.append_assoc,
    Cursor.ahead_append h.settled bounded h.refetches bounded']
  -- what comes in lies at the cursor or past it, and what has been fetched does not
  refine eq_inOrder (List.pairwise_append.2 ⟨(List.pairwise_append.1 h.ordered).1,
    inOrder_ordered _, fun a ha b hb => ?_⟩) fun t' => ?_
  · have hb : r.cursor.last ≤ b.timestamp := by
      rcases List.mem_append.1 (mem_inOrder.1 hb) with hb | hb
      · exact place_forward_le.1 (Cursor.place_le_of_mem_ahead (d := .forward) hb)
      · simpa using (List.mem_filter.1 hb).2
    exact place_forward_le.2 (Int64.le_trans (h.passed ha) hb)
  · rw [eventsAt_append, eventsAt_inOrder, eventsAt_append t' (Cursor.ahead ..),
      ← List.append_assoc, ← eventsAt_append, whole, eventsAt_inOrder, eventsAt_append]

theorem Covers.take {due rest : List Message} (h : r.Covers t log wanted sent)
    (hb : r.buffer = due ++ rest) :
    { r with timer := none, buffer := rest }.Covers t log wanted (sent ++ due) where
  forwards := h.forwards
  refetches := h.refetches
  settled := h.settled
  last := by
    rw [h.last, hb, List.append_assoc]
  whole := by
    rw [← h.whole, upcoming, upcoming, hb, List.append_assoc, List.append_assoc]
    rfl

section Play

variable {archive : Archive} (config : ReplayConfig) (now : Instant)
  (serves : archive.Serves log)

include serves

theorem Covers.fill (h : r.Covers t log wanted sent) :
    (r.fill config archive).Covers t log wanted sent ∧
      ((r.fill config archive).buffer = [] → sent = inOrder wanted) := by
  obtain ⟨holds, up, bounded⟩ := serves
  unfold Replay.fill
  split_ifs with hb
  · have sharp : r.cursor.Sharp .forward := h.settled.sharp bounded
    rw [h.forwards, Cursor.fetch_eq holds up sharp h.settled, history]
    dsimp only
    have split := (List.take_append_drop config.bufferSize
      (r.cursor.ahead .forward (inOrder log))).symm
    have whole := h.whole
    rw [upcoming_forwards h.forwards, hb, List.nil_append] at whole
    rcases hm : ((r.cursor.ahead .forward (inOrder log)).take config.bufferSize).getLast?
      with _ | m
    · have none := List.getLast?_eq_none_iff.1 hm
      have all : r.cursor.ahead .forward (inOrder log) = [] :=
        (List.take_eq_nil_iff.1 none).resolve_left (Nat.ne_of_gt config.bufferSize_pos)
      rw [none]
      refine ⟨h.congr hb.symm rfl rfl, fun _ => ?_⟩
      rw [← whole, all, List.append_nil]
    · refine ⟨⟨h.forwards, Cursor.refetches_advance hm,
        Cursor.settled_advance (d := .forward) split hm sharp h.settled, ?_, ?_⟩, fun none => ?_⟩
      · have last : (r.cursor.advance _).last = m.timestamp := Cursor.last_advance hm
        rw [lastTime, List.getLast?_append, hm]
        exact last
      · have rest := Cursor.ahead_advance (d := .forward) split hm sharp h.settled
        rw [history] at rest
        rw [upcoming_forwards (by exact h.forwards), rest, List.take_append_drop]
        exact whole
      · rw [none] at hm
        cases hm
  · exact ⟨h, fun none => absurd none hb⟩

/-- A replay that plays on has sent all that is wanted when it comes to its end. -/
theorem Covers.proceed (h : r.Covers t log wanted sent) :
    (r.proceed config archive now).1.Covers t log wanted sent ∧
      ((r.proceed config archive now).2 = .exhausted → sent = inOrder wanted) := by
  obtain ⟨filled, all⟩ := h.fill config serves
  obtain ⟨hb, hc, hs, -, -, ended⟩ := schedule_spec now (r.fill config archive)
  exact ⟨filled.congr hb hc hs, fun ho => all (ended.1 ho)⟩

theorem Covers.run (h : r.Covers t log wanted sent) :
    (r.run config archive now).1.Covers t log wanted sent ∧
      ((r.run config archive now).2 = .exhausted → sent = inOrder wanted) := by
  unfold Replay.run
  split_ifs
  · exact ⟨h, nofun⟩
  · exact h.proceed config now serves

end Play

end Replay

end EventRelay
