import EventRelay.Proofs.Passes

/-!
# From either end of history

The ends of history are numbers: its start is the time zero, with the events at it, and its end the
greatest of all times, without. Stored are events of any time. So forwards from the start come the
events from zero on, in reverse from the end those before the greatest time, and the two courses are
each other's reverse just if no event is outside. An event of a negative time is only ever replayed
in reverse, and one at the greatest time only forwards.
-/

namespace EventRelay

open Direction

theorem reverse_history (log : List Message) :
    (history .reverse log).reverse = history .forward log := List.reverse_reverse _

namespace Cursor

/-- From the start of history a cursor reaches the events from zero on. -/
theorem ahead_start (log : List Message) :
    (Position.cursor (.time 0)).ahead .forward (history .forward log) =
      (history .forward log).filter fun m => 0 ≤ m.timestamp := by
  refine List.filter_congr fun m _ => decide_eq_decide.2 ?_
  have origin : ((Position.cursor (.time 0)).origin .forward).toInt = -1 := by decide
  rw [Int64.le_iff_toInt_le, place, place, origin]
  exact Iff.rfl

/-- And from its end those before the greatest time. -/
theorem ahead_eof (log : List Message) :
    (Position.cursor .eof).ahead .reverse (history .reverse log) =
      (history .reverse log).filter fun m => m.timestamp < Int64.maxValue :=
  List.filter_congr fun _ _ => decide_eq_decide.2 place_reverse_lt

end Cursor

namespace Solo

section Ends

variable {log : List Message} {s s' : Solo}

/-- From the start of history forwards and from its end in reverse: each replay delivers the events
between the two ends that are numbers, and the whole history, one replay the reverse of the other,
just if it lies between them. -/
theorem from_either_end (reachable : s.Reachable) (holds : s.archive.store.Holds log)
    (up : s.archive.failing .fetch = false) (listening : s.listening = true)
    (forward : s.replay.direction = .forward) (reachable' : s'.Reachable)
    (holds' : s'.archive.store.Holds log) (up' : s'.archive.failing .fetch = false)
    (listening' : s'.listening = true) (reverse : s'.replay.direction = .reverse) :
    let onward := (history .forward log).filter fun m => 0 ≤ m.timestamp
    let backward := (history .reverse log).filter fun m => m.timestamp < Int64.maxValue
    (s.step (.seek (.time 0))).Delivers .forward onward ∧
    (s'.step (.seek .eof)).Delivers .reverse backward ∧
    (onward = history .forward log ↔ ∀ m ∈ log, 0 ≤ m.timestamp) ∧
    (backward = history .reverse log ↔ ∀ m ∈ log, m.timestamp < Int64.maxValue) ∧
    (backward.reverse = onward ↔ ∀ m ∈ log, 0 ≤ m.timestamp ∧ m.timestamp < Int64.maxValue) := by
  intro onward backward
  have first := playing_seek reachable.timed holds up listening (.time 0)
  have last := playing_seek reachable'.timed holds' up' listening' .eof
  refine ⟨?_, ?_, ?_, ?_, ?_⟩
  · have upcoming : (s.step (.seek (.time 0))).replay.upcoming log = onward := by
      rw [step, Replay.upcoming, Replay.buffer_seek, Replay.direction_seek, Replay.cursor_seek,
        forward, List.nil_append, Cursor.ahead_start]
    rw [forward] at first
    exact upcoming ▸ first.delivers
  · have upcoming : (s'.step (.seek .eof)).replay.upcoming log = backward := by
      rw [step, Replay.upcoming, Replay.buffer_seek, Replay.direction_seek, Replay.cursor_seek,
        reverse, List.nil_append, Cursor.ahead_eof]
    rw [reverse] at last
    exact upcoming ▸ last.delivers
  · simp [onward, List.filter_eq_self, mem_history]
  · simp [backward, List.filter_eq_self, mem_history]
  · have turned : backward.reverse =
        (history .forward log).filter fun m => m.timestamp < Int64.maxValue := by
      rw [← reverse_history, List.filter_reverse]
    rw [turned]
    constructor
    · -- an event outside would be in one of the two courses only
      intro same m hm
      have alike : m.timestamp < Int64.maxValue ↔ 0 ≤ m.timestamp := by
        have mem := congrArg (m ∈ ·) same
        simpa [onward, mem_history, hm] using mem
      rw [Int64.lt_iff_toInt_lt, Int64.le_iff_toInt_le] at alike
      have hM : Int64.maxValue.toInt = 9223372036854775807 := rfl
      have h0 : (0 : Int64).toInt = 0 := rfl
      rw [Int64.lt_iff_toInt_lt, Int64.le_iff_toInt_le]
      omega
    · intro between
      refine List.filter_congr fun m hm => decide_eq_decide.2 ?_
      obtain ⟨low, high⟩ := between m (mem_history.1 hm)
      exact iff_of_true high low

/-- An event on either side of the ends, and one between them. -/
theorem from_either_end_outside :
    let event (t : Int64) : Message := .current t (.test ⟨"a", []⟩)
    let log := [event (-5), event 3, event Int64.maxValue]
    let s := start ⟨10, 1, by decide, by decide⟩ ⟨(Store.memory.appendBatch log).1, fun _ => false⟩
    let s' := s.step (.speed ⟨0xbf800000⟩)
    let onward := s.step (.seek (.time 0))
    let backward := s'.step (.seek .eof)
    delivered ((onward.steps [.run, .tick, .tick]).since onward) =
        [event 3, event Int64.maxValue] ∧
      delivered ((backward.steps [.run, .tick, .tick]).since backward) =
        [event 3, event (-5)] := by
  intro event log s s' onward backward
  have holds : s.archive.store.Holds log :=
    (Store.Holds.memory : Store.memory.Holds []).append log (by decide)
  have reachable : s.Reachable := ⟨_, _, [], trivial, rfl⟩
  have reachable' : s'.Reachable := ⟨_, _, [.speed ⟨0xbf800000⟩], by decide, rfl⟩
  obtain ⟨first, last, -⟩ := from_either_end reachable holds rfl rfl (by decide) reachable'
    holds rfl rfl (by decide)
  rw [(first [.run, .tick, .tick] (by decide) (by decide)).whole (by decide),
    (last [.run, .tick, .tick] (by decide) (by decide)).whole (by decide), history, history,
    inOrder_of_ordered (by decide)]
  decide

/-- An event before the start of history and one at its end: the first is not delivered forwards
from the start, and the last not in reverse from the end. -/
theorem ends_missed :
    let event (t : Int64) : Message := .current t (.test ⟨"a", []⟩)
    let log := [event (-5), event 3, event Int64.maxValue]
    let s := start ⟨10, 1, by decide, by decide⟩ ⟨(Store.memory.appendBatch log).1, fun _ => false⟩
    let onward := s.step (.seek (.time 0))
    let backward := (s.step (.speed ⟨0xbf800000⟩)).step (.seek .eof)
    let acts : List Act := [.run, .tick, .tick]
    (Store.memory.appendBatch log).2 = none ∧
      onward.Allowed acts ∧ 0 < onward.ends acts ∧
      event (-5) ∉ delivered ((onward.steps acts).since onward) ∧
      backward.Allowed acts ∧ 0 < backward.ends acts ∧
      event Int64.maxValue ∉ delivered ((backward.steps acts).since backward) ∧
      delivered ((backward.steps acts).since backward) ≠
        (delivered ((onward.steps acts).since onward)).reverse := by
  decide

end Ends

end Solo

end EventRelay
