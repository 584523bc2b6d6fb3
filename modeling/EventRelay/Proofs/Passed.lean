import EventRelay.Proofs.Passes

/-!
# No event twice while the log grows

A replay goes on while events are stored at any times, also behind its cursor and at its very time.
What it has sent and what it has at hand are events that its cursor has passed, in order. Events
that come in behind the cursor join those passed, and so do no harm. Those that come in at the time
of the cursor matter, for of this time a number of events counts as taken, the first ones in the
order of play. Forwards the newcomers follow the ones taken, and each event is sent at most once. In
reverse they stand in front of them: they are counted as taken in their place, and the events taken
come up again.
-/

namespace EventRelay

open Direction

/-! ## What a cursor has passed -/

/-- A log in order stays as it is, up to what comes in between. -/
theorem inOrder_sublist (log ms : List Message) :
    (inOrder log).Sublist (inOrder (log ++ ms)) := by
  have resorted : inOrder (log ++ ms) = inOrder (inOrder log ++ ms) :=
    eq_of_eventsAt (inOrder_ordered _) (inOrder_ordered _) fun t => by
      simp only [eventsAt_inOrder, eventsAt_append]
  rw [resorted]
  exact List.sublist_mergeSort le_timestamp_trans le_timestamp_total
    (List.pairwise_mergeSort le_timestamp_trans le_timestamp_total log)
    (List.sublist_append_left ..)

theorem history_sublist (d : Direction) (log ms : List Message) :
    (history d log).Sublist (history d (log ++ ms)) := by
  cases d
  · exact inOrder_sublist log ms
  · exact (inOrder_sublist log ms).reverse

theorem history_filter (d : Direction) (p : Message → Bool) (log : List Message) :
    history d (log.filter p) = (history d log).filter p := by
  cases d
  · exact inOrder_filter p log
  · rw [history, history, inOrder_filter, List.filter_reverse]

namespace Cursor

variable {c : Cursor} {d : Direction} {log ms : List Message}

/-- The events behind the origin of the cursor, and those taken at its time. -/
def passed (c : Cursor) (d : Direction) (ms : List Message) : List Message :=
  (ms.filter fun m => d.place m.timestamp ≤ d.place (c.origin d)) ++ (c.reach d ms).take c.skip

/-- History is what has been passed and then what lies ahead. -/
theorem passed_append_ahead :
    c.passed d (history d log) ++ c.ahead d (history d log) = history d log := by
  have down : (history d log).Pairwise fun a b =>
      decide (d.place b.timestamp ≤ d.place (c.origin d)) = true →
        decide (d.place a.timestamp ≤ d.place (c.origin d)) = true :=
    (history_ordered d log).imp fun {a b} hab hb => by
      rw [decide_eq_true_eq] at hb ⊢
      omega
  have beyond : c.reach d (history d log) = (history d log).filter fun m =>
      !decide (d.place m.timestamp ≤ d.place (c.origin d)) :=
    List.filter_congr fun m _ => by simp only [← decide_not, Int.not_le]
  rw [passed, ahead, List.append_assoc, List.take_append_drop, beyond, ← takeWhile_eq_filter down,
    ← dropWhile_eq_filter down, List.takeWhile_append_dropWhile]

theorem passed_sublist : (c.passed d (history d log)).Sublist (history d log) := by
  conv_rhs => rw [← passed_append_ahead (c := c)]
  exact List.sublist_append_left ..

/-- The events fetched have been passed. -/
theorem passed_advance {taken rest : List Message} {m : Message}
    (split : c.ahead d (history d log) = taken ++ rest) (hm : taken.getLast? = some m)
    (sharp : c.Sharp d) (settled : c.Settled log) :
    (c.advance taken).passed d (history d log) = c.passed d (history d log) ++ taken := by
  have whole : (c.advance taken).passed d (history d log) ++
      (c.advance taken).ahead d (history d log) = history d log := passed_append_ahead
  rw [ahead_advance split hm sharp settled] at whole
  refine List.append_cancel_right (whole.trans ?_)
  rw [List.append_assoc, ← split, passed_append_ahead]

/-- Nothing comes in between the events of which some have been taken and these: forwards what comes
in follows them, and in reverse it is of another time. -/
def Spares (c : Cursor) (d : Direction) (ms : List Message) : Prop :=
  d = .forward ∨ (0 < c.skip → ∀ m ∈ ms, m.timestamp ≠ c.last)

instance (c : Cursor) (d : Direction) : DecidablePred (c.Spares d) := fun ms =>
  inferInstanceAs (Decidable (d = .forward ∨ (0 < c.skip → ∀ m ∈ ms, m.timestamp ≠ c.last)))

theorem take_reach (sharp : c.Sharp d) (settled : c.Settled log) :
    (c.reach d (history d log)).take c.skip = (eventsAt c.last (history d log)).take c.skip := by
  rcases Nat.eq_zero_or_pos c.skip with h | h
  · rw [h, List.take_zero, List.take_zero]
  · rw [reach_of_skip sharp h, (history_ordered d log).filter_le,
      List.take_append_of_le_length (by rw [length_eventsAt_history]; exact settled)]

/-- Events that come in leave those counted as taken in their places. -/
theorem take_reach_append (sharp : c.Sharp d) (settled : c.Settled log) (spares : c.Spares d ms) :
    (c.reach d (history d (log ++ ms))).take c.skip = (c.reach d (history d log)).take c.skip := by
  rw [take_reach sharp settled, take_reach sharp (settled.append ms)]
  rcases d with _ | _
  -- forwards the new events of that time follow those taken, in reverse they would come before them
  · rw [history, history, eventsAt_inOrder, eventsAt_inOrder, eventsAt_append,
      List.take_append_of_le_length settled]
  · rcases Nat.eq_zero_or_pos c.skip with h | h
    · rw [h, List.take_zero, List.take_zero]
    · have none : eventsAt c.last ms = [] := List.filter_eq_nil_iff.2 fun m hm ht =>
        (spares.resolve_left Direction.noConfusion) h m hm (beq_iff_eq.1 ht)
      rw [history, history, eventsAt_reverse, eventsAt_reverse, eventsAt_inOrder,
        eventsAt_inOrder, eventsAt_append, none, List.append_nil]

/-- What has been passed stays passed. -/
theorem passed_append (sharp : c.Sharp d) (settled : c.Settled log) (spares : c.Spares d ms) :
    (c.passed d (history d log)).Sublist (c.passed d (history d (log ++ ms))) := by
  rw [passed, passed, take_reach_append sharp settled spares, ← history_filter, ← history_filter,
    List.filter_append]
  exact (history_sublist d _ _).append_right _

end Cursor

/-! ## A replay that goes on -/

namespace Replay

/-- The replay goes in a direction through a log and has sent these events since a seek. What it has
sent and has at hand is in order and not past the cursor, and unless it was disturbed it is part of
what the cursor has passed. -/
structure Traces (undisturbed : Prop) (r : Replay) (d : Direction) (log sent : List Message) :
    Prop where
  direction : r.direction = d
  settled : r.cursor.Settled log
  sharp : r.cursor.Sharp d
  ordered : d.Ordered (sent ++ r.buffer)
  behind : ∀ m ∈ sent ++ r.buffer,
    0 < r.cursor.skip ∧ d.place m.timestamp ≤ d.place r.cursor.last
  once : undisturbed → (sent ++ r.buffer).Sublist (r.cursor.passed d (history d log))

section Traces

variable {undisturbed : Prop} {r r' : Replay} {d : Direction} {log sent : List Message}

theorem Traces.congr (h : r.Traces undisturbed d log sent) (hb : r'.buffer = r.buffer)
    (hc : r'.cursor = r.cursor) (hs : r'.speed = r.speed) : r'.Traces undisturbed d log sent where
  direction := (congrArg Direction.ofSpeed hs).trans h.direction
  settled := hc ▸ h.settled
  sharp := hc ▸ h.sharp
  ordered := hb ▸ h.ordered
  behind := by
    rw [hb, hc]
    exact h.behind
  once := by
    rw [hb, hc]
    exact h.once

theorem traces_seek (r : Replay) (now : Instant) (p : Position) (log : List Message) :
    (r.seek now p).Traces True r.direction log [] where
  direction := direction_seek
  settled := by
    rw [cursor_seek]
    exact p.settled_cursor log
  sharp := by
    rw [cursor_seek]
    rcases p with t | _ <;> exact nofun
  ordered := by
    rw [buffer_seek]
    exact .nil
  behind := by
    rw [buffer_seek]
    exact nofun
  once _ := by
    rw [buffer_seek]
    exact List.nil_sublist _

/-- Events leave what is at hand, to be sent or to be lost. -/
theorem Traces.take (h : r.Traces undisturbed d log sent) (sent' rest : List Message)
    (hr : (sent' ++ rest).Sublist (sent ++ r.buffer)) :
    { r with timer := none, buffer := rest }.Traces undisturbed d log sent' where
  direction := h.direction
  settled := h.settled
  sharp := h.sharp
  ordered := h.ordered.sublist hr
  behind m hm := h.behind m (hr.subset hm)
  once hu := hr.trans (h.once hu)

theorem Traces.append (h : r.Traces undisturbed d log sent) (ms : List Message) :
    r.Traces (undisturbed ∧ r.cursor.Spares d ms) d (log ++ ms) sent where
  direction := h.direction
  settled := h.settled.append ms
  sharp := h.sharp
  ordered := h.ordered
  behind := h.behind
  once hu := (h.once hu.1).trans (Cursor.passed_append h.sharp h.settled hu.2)

/-- What is fetched lies ahead of the cursor, and so after all that was fetched before. -/
theorem Traces.fetched (h : r.Traces undisturbed d log sent) (hb : r.buffer = [])
    {taken rest : List Message} {m : Message}
    (split : r.cursor.ahead d (history d log) = taken ++ rest) (hm : taken.getLast? = some m) :
    { r with buffer := taken, cursor := r.cursor.advance taken }.Traces undisturbed d log
      sent := by
  have ordered := h.ordered
  have behind := h.behind
  have once := h.once
  rw [hb, List.append_nil] at ordered behind once
  -- what was sent is not past the cursor, and the next page is asked for from the cursor on
  have before : ∀ a ∈ sent, ∀ b ∈ taken, d.place a.timestamp ≤ d.place b.timestamp := by
    intro a ha b hb
    obtain ⟨hskip, hle⟩ := behind a ha
    have hahead : b ∈ r.cursor.ahead d (history d log) :=
      split ▸ List.mem_append_left _ hb
    have hreach := List.mem_of_mem_drop hahead
    rw [Cursor.reach_of_skip h.sharp hskip] at hreach
    exact Int.le_trans hle (of_decide_eq_true (List.mem_filter.1 hreach).2)
  have ordered' : d.Ordered (taken ++ rest) := split ▸ Cursor.ahead_ordered
  refine ⟨h.direction, Cursor.settled_advance split hm h.sharp h.settled,
    Cursor.sharp_advance split hm,
    List.pairwise_append.2 ⟨ordered, (List.pairwise_append.1 ordered').1, before⟩, ?_, ?_⟩
  · intro a ha
    have last : (r.cursor.advance taken).last = m.timestamp := Cursor.last_advance hm
    refine ⟨Cursor.skip_advance_pos hm, last ▸ ?_⟩
    rcases List.mem_append.1 ha with ha | ha
    · exact before a ha m (List.mem_of_getLast? hm)
    · exact Cursor.place_le_of_mem_taken split hm ha
  · intro hu
    have passed := Cursor.passed_advance split hm h.sharp h.settled
    exact passed ▸ (once hu).append_right taken

section Play

variable {archive : Archive} (config : ReplayConfig) (now : Instant)
  (holds : archive.store.Holds log)

include holds

theorem Traces.fill (h : r.Traces undisturbed d log sent) :
    (r.fill config archive).Traces undisturbed d log sent := by
  unfold Replay.fill
  split_ifs with hb
  · rcases up : archive.failing .fetch with _ | _
    · rw [h.direction, Cursor.fetch_eq holds up h.sharp h.settled]
      dsimp only
      have split := (List.take_append_drop config.bufferSize
        (r.cursor.ahead d (history d log))).symm
      rcases hm : ((r.cursor.ahead d (history d log)).take config.bufferSize).getLast? with _ | m
      · rw [List.getLast?_eq_none_iff.1 hm]
        exact h.congr hb.symm rfl rfl
      · exact h.fetched hb split hm
    · have down : r.cursor.fetch archive r.direction config.bufferSize =
          .error Archive.unavailable := by
        simp only [Cursor.fetch, Archive.fetch, up, if_true]
      rw [down]
      exact h
  · exact h

theorem Traces.proceed (h : r.Traces undisturbed d log sent) :
    (r.proceed config archive now).1.Traces undisturbed d log sent := by
  obtain ⟨hb, hc, hs, -⟩ := schedule_spec now (r.fill config archive)
  exact (h.fill config holds).congr hb hc hs

theorem Traces.run (h : r.Traces undisturbed d log sent) :
    (r.run config archive now).1.Traces undisturbed d log sent := by
  unfold Replay.run
  split_ifs
  · exact h
  · exact h.proceed config now holds

end Play

end Traces

end Replay

/-! ## A pass while the log grows -/

namespace Solo

/-- What may happen in a pass: everything but a seek and a change of direction. -/
def Act.Onward (d : Direction) : Act → Prop
  | .seek _ => False
  | .speed x => Replay.acceptsSpeed x = true → Direction.ofSpeed x = d
  | _ => True

instance (d : Direction) : DecidablePred (Act.Onward d)
  | .seek _ => inferInstanceAs (Decidable False)
  | .speed x =>
    inferInstanceAs (Decidable (Replay.acceptsSpeed x = true → Direction.ofSpeed x = d))
  | .run | .pause | .tick | .late _ | .wait _ | .append _ | .fail .. | .leave =>
    inferInstanceAs (Decidable True)

/-- What an act adds to the log. -/
def gains (s : Solo) : Act → List Message
  | .append events =>
    if s.archive.failing .append then [] else s.archive.store.accepted events
  | _ => []

/-- What acts add to the log. -/
def stored : Solo → List Act → List Message
  | _, [] => []
  | s, act :: acts => s.gains act ++ (s.step act).stored acts

/-- No event comes in that disturbs the events counted as taken. -/
def Undisturbed (d : Direction) : Solo → List Act → Prop
  | _, [] => True
  | s, act :: acts => s.replay.cursor.Spares d (s.gains act) ∧ (s.step act).Undisturbed d acts

instance (d : Direction) : ∀ (s : Solo) (acts : List Act), Decidable (s.Undisturbed d acts)
  | _, [] => inferInstanceAs (Decidable True)
  | s, act :: acts =>
    have : Decidable ((s.step act).Undisturbed d acts) := instDecidableUndisturbed d _ acts
    inferInstanceAs (Decidable (s.replay.cursor.Spares d (s.gains act) ∧
      (s.step act).Undisturbed d acts))

theorem undisturbed_forward : ∀ (s : Solo) (acts : List Act), s.Undisturbed .forward acts
  | _, [] => trivial
  | _, _ :: acts => ⟨.inl rfl, undisturbed_forward _ acts⟩

/-- The replay of a store with this log has sent these events since a seek. -/
structure Traces (undisturbed : Prop) (s : Solo) (d : Direction) (log sent : List Message) :
    Prop where
  holds : s.archive.store.Holds log
  replay : s.replay.Traces undisturbed d log sent

section Steps

variable {undisturbed : Prop} {s : Solo} {d : Direction} {log sent : List Message}

theorem delivered_append (told more : List Notice) :
    delivered (more ++ told).reverse = delivered told.reverse ++ delivered more.reverse := by
  rw [delivered, List.reverse_append, List.flatMap_append]
  rfl

/-- What a timer does after it has sent the events due. -/
def goOn (s : Solo) (epoch : Nat) : Solo :=
  if s.replay.running then
    let (replay, outcome) := s.replay.proceed s.config s.archive s.now
    let s := { s with replay }
    match outcome with
    | .scheduled => s
    | .exhausted => s.tell (.exhausted s.now.ms epoch)
  else s

theorem Traces.goOn (h : s.Traces undisturbed d log sent) (epoch : Nat) :
    ∃ told, (s.goOn epoch).heard = told ++ s.heard ∧ delivered told.reverse = [] ∧
      (s.goOn epoch).Traces undisturbed d log sent := by
  have played := h.replay.proceed s.config s.now h.holds
  unfold Solo.goOn
  split_ifs
  · rcases hp : s.replay.proceed s.config s.archive s.now with ⟨replay, _ | _⟩ <;>
      rw [hp] at played
    · exact ⟨[], rfl, rfl, h.holds, played⟩
    · exact ⟨[.exhausted s.now.ms epoch], rfl, rfl, h.holds, played⟩
  · exact ⟨[], rfl, rfl, h⟩

/-- A timer sends events from the front of what is at hand, or loses them if nobody listens. -/
theorem Traces.fire (h : s.Traces undisturbed d log sent) (epoch : Nat) :
    ∃ told, (s.fire epoch).heard = told ++ s.heard ∧
      (s.fire epoch).Traces undisturbed d log (sent ++ delivered told.reverse) := by
  by_cases he : s.replay.epoch = epoch
  case neg =>
    rw [fire_of_ne (Ne.symm he)]
    exact ⟨[], rfl, by simpa [delivered] using h⟩
  obtain ⟨due, rest, hbuffer, hdue, -⟩ := Replay.takeDue_eq s.config s.replay
  have hfire : s.fire epoch =
      let s := { s with replay := { s.replay with timer := none, buffer := rest } }
      if !s.listening then { s with replay := s.replay.pause }
      else (if due = [] then s else s.tell (.delivered s.now.ms due)).goOn epoch := by
    rw [Solo.fire, Solo.fireBy, if_neg (not_not_intro he), hdue]
    by_cases nothing : due = [] <;> simp only [nothing, if_true, if_false] <;> rfl
  rw [hfire]
  dsimp only
  split_ifs with hl hd
  · obtain ⟨hb, hc, hs⟩ := Replay.pause_fields { s.replay with timer := none, buffer := rest }
    have lost := h.replay.take sent rest
      (hbuffer ▸ (List.sublist_append_right due rest).append_left sent)
    exact ⟨[], rfl, h.holds, by simpa [delivered] using lost.congr hb hc hs⟩
  · have kept := h.replay.take sent rest (by simp [hbuffer, hd])
    obtain ⟨told, heard, none, traces⟩ := Traces.goOn
      (s := { s with replay := { s.replay with timer := none, buffer := rest } })
      ⟨h.holds, kept⟩ epoch
    exact ⟨told, heard, by rwa [none, List.append_nil]⟩
  · have kept := h.replay.take (sent ++ due) rest (by simp [hbuffer])
    obtain ⟨told, heard, none, traces⟩ := Traces.goOn (s := Solo.tell
      { s with replay := { s.replay with timer := none, buffer := rest } }
      (.delivered s.now.ms due)) ⟨h.holds, kept⟩ epoch
    refine ⟨told ++ [.delivered s.now.ms due], by rw [heard]; simp [tell], ?_⟩
    rw [delivered_append, none, List.append_nil]
    simpa [delivered, Notice.events] using traces

theorem Traces.quiet {s' : Solo} (h : s.Traces undisturbed d log sent)
    (heard : s'.heard = s.heard) (archive : s'.archive.store = s.archive.store)
    (replay : s'.replay.Traces undisturbed d log sent) :
    ∃ told, s'.heard = told ++ s.heard ∧
      s'.Traces undisturbed d log (sent ++ delivered told.reverse) :=
  ⟨[], heard, archive ▸ h.holds, by simpa [delivered] using replay⟩

/-- Of an act that adds nothing to the log. -/
theorem Traces.step_of_ne_append (h : s.Traces undisturbed d log sent) {act : Act}
    (onward : act.Onward d) (quiet : ∀ events, act ≠ .append events) :
    ∃ told, (s.step act).heard = told ++ s.heard ∧
      (s.step act).Traces undisturbed d log (sent ++ delivered told.reverse) := by
  cases act with
  | seek p => exact onward.elim
  | append events => exact absurd rfl (quiet events)
  | speed x =>
    rw [step]
    split_ifs with hx
    · have hd : Direction.ofSpeed x = d := onward hx
      refine h.quiet rfl rfl ?_
      rw [Replay.setSpeed_same (hd.trans h.replay.direction.symm)]
      exact ⟨hd, h.replay.settled, h.replay.sharp, h.replay.ordered, h.replay.behind,
        h.replay.once⟩
    · exact h.quiet rfl rfl h.replay
  | run => exact h.quiet rfl rfl (h.replay.run s.config s.now h.holds)
  | pause =>
    obtain ⟨hb, hc, hs⟩ := s.replay.pause_fields
    exact h.quiet rfl rfl (h.replay.congr hb hc hs)
  | tick =>
    rw [step]
    split
    · exact h.quiet rfl rfl h.replay
    · exact h.fire _
  | late epoch => exact h.fire epoch
  | wait | fail | leave => exact h.quiet rfl rfl h.replay

theorem Traces.append (h : s.Traces undisturbed d log sent) (events : List Message)
    (room : (log ++ s.gains (.append events)).length ≤ TableStore.maxLimit) :
    (s.step (.append events)).heard = s.heard ∧ (s.step (.append events)).Traces
      (undisturbed ∧ s.replay.cursor.Spares d (s.gains (.append events))) d
      (log ++ s.gains (.append events)) sent := by
  refine ⟨rfl, ?_, h.replay.append _⟩
  rw [gains] at room ⊢
  rw [step, Archive.appendBatch]
  split_ifs at room ⊢ with failing
  · simpa using h.holds
  · exact h.holds.append events room

theorem Traces.imp {undisturbed' : Prop} (h : s.Traces undisturbed d log sent)
    (hu : undisturbed' → undisturbed) : s.Traces undisturbed' d log sent where
  holds := h.holds
  replay := { h.replay with once := fun h' => h.replay.once (hu h') }

/-- What an act of a pass preserves. -/
theorem Traces.step (h : s.Traces undisturbed d log sent) {act : Act} (onward : act.Onward d)
    (room : (log ++ s.gains act).length ≤ TableStore.maxLimit) :
    ∃ told, (s.step act).heard = told ++ s.heard ∧ (s.step act).Traces
      (undisturbed ∧ s.replay.cursor.Spares d (s.gains act)) d
      (log ++ s.gains act) (sent ++ delivered told.reverse) := by
  by_cases ha : ∃ events, act = .append events
  · obtain ⟨events, rfl⟩ := ha
    obtain ⟨heard, traces⟩ := h.append events room
    exact ⟨[], heard, by simpa [delivered] using traces⟩
  · have quiet : ∀ events, act ≠ .append events := fun events he => ha ⟨events, he⟩
    have none : s.gains act = [] := by cases act <;> first | rfl | exact absurd rfl (quiet _)
    obtain ⟨told, heard, traces⟩ := h.step_of_ne_append onward quiet
    exact ⟨told, heard, by simpa [none] using traces.imp And.left⟩

/-- What the acts of a pass preserve. -/
theorem Traces.steps : ∀ {acts : List Act} {undisturbed : Prop} {s : Solo}
    {log sent : List Message}, s.Traces undisturbed d log sent →
    (∀ act ∈ acts, act.Onward d) → (log ++ s.stored acts).length ≤ TableStore.maxLimit →
    ∃ told, (s.steps acts).heard = told ++ s.heard ∧ (s.steps acts).Traces
      (undisturbed ∧ s.Undisturbed d acts) d (log ++ s.stored acts)
      (sent ++ delivered told.reverse)
  | [], _, s, log, sent, h, _, _ =>
    ⟨[], rfl, by simpa [Solo.steps, delivered, stored] using h.imp And.left⟩
  | act :: acts, _, s, log, sent, h, onward, room => by
    rw [List.forall_mem_cons] at onward
    rw [stored, ← List.append_assoc] at room
    obtain ⟨told, heard, traces⟩ := h.step onward.1 (by
      rw [List.length_append] at room
      omega)
    obtain ⟨more, heard', traces'⟩ := traces.steps onward.2 room
    refine ⟨more ++ told, by rw [steps_cons, heard', heard, List.append_assoc], ?_⟩
    rw [delivered_append, ← List.append_assoc, stored, ← List.append_assoc]
    exact traces'.imp fun hu => ⟨⟨hu.1, hu.2.1⟩, hu.2.2⟩

end Steps

/-- From a seek on, while events come in at any times, a replay delivers events in the order of
play, and each event that has been stored at most once, as long as in reverse no event comes in at
the very time of which events have been taken. -/
theorem delivers_once {s : Solo} {log : List Message} (holds : s.archive.store.Holds log)
    (p : Position) {acts : List Act} (onward : ∀ act ∈ acts, act.Onward s.replay.direction)
    (room : (log ++ (s.step (.seek p)).stored acts).length ≤ TableStore.maxLimit) :
    let sought := s.step (.seek p)
    let final := sought.steps acts
    let d := s.replay.direction
    final.archive.store.Holds (log ++ sought.stored acts) ∧
    d.Ordered (delivered (final.since sought)) ∧
    (d = .forward ∨ sought.Undisturbed d acts →
      (delivered (final.since sought)).Sublist (history d (log ++ sought.stored acts))) := by
  intro sought final d
  have start : sought.Traces True d log [] := ⟨holds, Replay.traces_seek s.replay s.now p log⟩
  obtain ⟨told, heard, traces⟩ := start.steps onward room
  rw [List.nil_append, ← since_eq heard] at traces
  refine ⟨traces.holds, (List.pairwise_append.1 traces.replay.ordered).1, fun hu => ?_⟩
  have undisturbed : sought.Undisturbed d acts := by
    rcases hu with hd | hu
    · exact hd ▸ undisturbed_forward sought acts
    · exact hu
  exact (List.sublist_append_left ..).trans
    ((traces.replay.once ⟨trivial, undisturbed⟩).trans Cursor.passed_sublist)

/-- Two events of one time in reverse, while others come in on either side of it. -/
theorem delivers_once_reverse :
    let a : Message := .current 7 (.test ⟨"a", []⟩)
    let b : Message := .current 7 (.test ⟨"b", []⟩)
    let c : Message := .current 9 (.test ⟨"c", []⟩)
    let e : Message := .current 3 (.test ⟨"e", []⟩)
    let s := (start ⟨1, 1, by decide, by decide⟩
      ⟨(Store.memory.appendBatch [a, b]).1, fun _ => false⟩).step (.speed ⟨0xbf800000⟩)
    let sought := s.step (.seek .eof)
    let acts : List Act := [.run, .append [c, e], .tick, .tick, .tick]
    s.replay.direction = .reverse ∧ delivered ((sought.steps acts).since sought) = [b, a, e] ∧
      [b, a, e].Sublist (history .reverse [a, b, c, e]) := by
  intro a b c e s sought acts
  have holds : s.archive.store.Holds [a, b] :=
    (Store.Holds.memory : Store.memory.Holds []).append [a, b] (by decide)
  have told : delivered ((sought.steps acts).since sought) = [b, a, e] := by decide
  have reverse : s.replay.direction = .reverse := by decide
  have stored : [a, b] ++ sought.stored acts = [a, b, c, e] := by decide
  have once : (delivered ((sought.steps acts).since sought)).Sublist
      (history s.replay.direction ([a, b] ++ sought.stored acts)) :=
    (delivers_once holds .eof (by decide) (by decide)).2.2 (.inr (by decide))
  rw [told, reverse, stored] at once
  exact ⟨reverse, told, once⟩

/-- An event in reverse that is sent again, because another one of its time has come in. -/
theorem delivers_twice_reverse :
    let a : Message := .current 7 (.test ⟨"a", []⟩)
    let b : Message := .current 7 (.test ⟨"b", []⟩)
    let s := (start ⟨1, 1, by decide, by decide⟩
      ⟨(Store.memory.appendBatch [a]).1, fun _ => false⟩).step (.speed ⟨0xbf800000⟩)
    let sought := s.step (.seek .eof)
    let acts : List Act := [.run, .append [b], .tick, .tick]
    s.replay.direction = .reverse ∧ (∀ act ∈ acts, act.Onward s.replay.direction) ∧
      s.Allowed (.seek .eof :: acts) ∧ sought.stored acts = [b] ∧
      delivered ((sought.steps acts).since sought) = [a, a] := by
  decide

end Solo

end EventRelay
