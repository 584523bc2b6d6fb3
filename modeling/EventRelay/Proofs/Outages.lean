import EventRelay.Proofs.Passes

/-!
# A pass before a store that fails at times

A replay asks the store only with nothing at hand. Where the store fails then, the replay is paused
in its place: the cursor, the clock and the speed are as they were, nothing is at hand before and
after, and the end is reported as at the end of history. So the events delivered and those upcoming
are together still the course of the pass, and a replay that is run again whenever the end has been
reported delivers what it would have delivered before a store that never fails.
-/

namespace EventRelay

namespace Replay

variable {r : Replay} {config : ReplayConfig} {archive : Archive}

/-- With nothing at hand and nothing to be had a replay is paused where it is. -/
theorem proceed_of_failing (failing : archive.failing .fetch = true) (empty : r.buffer = [])
    (now : Instant) :
    r.proceed config archive now = ({ r with running := false, timer := none }, .exhausted) := by
  simp only [proceed, fill_of_failing failing, schedule, scheduleBy, empty]

end Replay

namespace Solo

/-- The act has the store asked: nothing is at hand, or nothing is left once what is due has been
delivered. -/
def Fetches (s : Solo) : Act → Prop
  | .run => s.replay.running = false ∧ s.replay.buffer = []
  | .tick => s.replay.timer.isSome = true ∧ (s.replay.takeDue s.config).1.buffer = []
  | _ => False

instance (s : Solo) : DecidablePred s.Fetches
  | .run => inferInstanceAs (Decidable (_ ∧ _))
  | .tick => inferInstanceAs (Decidable (_ ∧ _))
  | .seek _ | .speed _ | .pause | .late _ | .wait _ | .append _ | .fail .. | .leave =>
    inferInstanceAs (Decidable False)

/-- A replay plays a log in a direction before somebody who listens, and its store may fail. -/
structure Attended (d : Direction) (log : List Message) (s : Solo) : Prop where
  holds : s.archive.store.Holds log
  listening : s.listening = true
  direction : s.replay.direction = d
  settled : s.replay.cursor.Settled log
  sharp : s.replay.cursor.Sharp d
  timed : s.replay.Timed
  anchored : s.replay.Anchored

/-- The same replay before a store that answers. -/
def mended (s : Solo) : Solo := { s with archive := s.archive.setFailing .fetch false }

section Step

variable {d : Direction} {log : List Message} {s : Solo} {act : Act}

theorem Playing.attended (h : s.Playing d log) : s.Attended d log := { h with }

theorem Attended.playing (h : s.Attended d log) (up : s.archive.failing .fetch = false) :
    s.Playing d log := { h with up }

theorem up_mended (s : Solo) : s.mended.archive.failing .fetch = false := by
  simp [mended, Archive.setFailing]

theorem Attended.mended (h : s.Attended d log) : s.mended.Playing d log :=
  { h with up := s.up_mended }

theorem attended_seek (timed : s.replay.Timed) (holds : s.archive.store.Holds log)
    (listening : s.listening = true) (p : Position) :
    (s.step (.seek p)).Attended s.replay.direction log :=
  { (playing_seek (s := s.mended) timed holds s.up_mended listening p).attended with holds }

/-- What does not ask the store comes to the same before one that answers. -/
theorem step_of_not_fetches (h : s.Attended d log) (steady : act.Steady d)
    (allowed : s.Allows act) (unasked : ¬s.Fetches act) :
    s.step act = { s.mended.step act with archive := s.archive } := by
  cases act with
  | seek | append | fail | leave => exact steady.elim
  | pause | wait => rfl
  | late epoch =>
    have early : epoch ≠ s.replay.epoch := Nat.ne_of_lt allowed
    have here : s.step (.late epoch) = s := fire_of_ne early
    have there : s.mended.step (.late epoch) = s.mended := fire_of_ne early
    rw [here, there]
    rfl
  | speed x =>
    simp only [step]
    split_ifs <;> rfl
  | run =>
    simp only [step, Solo.run, Replay.run, mended]
    by_cases running : s.replay.running = true
    · obtain ⟨timer, ht, -⟩ := h.timed.exists_timer running
      simp [running, ht]
    · have stopped : s.replay.running = false := by simpa using running
      have some : s.replay.buffer ≠ [] := fun empty => unasked ⟨stopped, empty⟩
      simp [stopped, Replay.proceed, Replay.fill_of_ne_nil some]
  | tick =>
    have some : (s.replay.takeDue s.config).1.buffer ≠ [] := fun empty => unasked ⟨allowed, empty⟩
    rw [step_tick_eq h.timed h.listening allowed,
      step_tick_eq h.mended.timed h.mended.listening allowed]
    simp only [Replay.proceed, Replay.fill_of_ne_nil some, mended]

/-- Where a store that is asked fails, what was at hand has been delivered, the end is reported and
the replay is paused. All else is as it was. -/
theorem step_of_fetches (h : s.Attended d log) (failing : s.archive.failing .fetch = true)
    (asked : s.Fetches act) : ∃ told,
    s.step act = { s with
      replay := { s.replay with buffer := [], running := false, timer := none }
      heard := told ++ s.heard } ∧
    delivered told.reverse = s.replay.buffer ∧ s.reports act = 1 := by
  cases act with
  | seek | append | fail | leave | pause | wait | late | speed => exact asked.elim
  | run =>
    obtain ⟨stopped, empty⟩ := asked
    have nothing : s.run = ({ s with
        replay := { s.replay with buffer := [], running := false, timer := none } },
        .exhausted) := by
      rw [Solo.run, Replay.run, stopped]
      simp only [Bool.false_and, Bool.false_eq_true, if_false,
        Replay.proceed_of_failing failing empty]
      rw [← empty]
    refine ⟨[], by rw [step, nothing]; rfl, empty.symm, ?_⟩
    rw [reports, nothing]
    rfl
  | tick =>
    obtain ⟨pending, empty⟩ := asked
    obtain ⟨due, rest, hbuffer, hdue, -⟩ := Replay.takeDue_eq s.config s.replay
    rw [hdue] at empty
    obtain rfl : rest = [] := empty
    have stepped := step_tick_eq h.timed h.listening pending
    rw [hdue] at stepped
    dsimp only at stepped
    rw [Replay.proceed_of_failing failing rfl] at stepped
    refine ⟨_, stepped, ?_, ?_⟩
    · rw [delivered_tickNotices, hbuffer, List.append_nil]
    · rw [reports_of_heard (by simp) (by rw [stepped]), countP_tickNotices]
      rfl

/-- What leaves the course of a pass alone, though the store may fail. -/
def Act.Patient (d : Direction) (act : Act) : Prop :=
  act.Steady d ∨ ∃ request on, act = .fail request on

/-- What a step keeps: together the events delivered and those upcoming are the same list. -/
theorem Attended.step (h : s.Attended d log) (patient : act.Patient d) (allowed : s.Allows act) :
    ∃ told, (s.step act).Attended d log ∧ (s.step act).heard = told ++ s.heard ∧
      delivered told.reverse ++ (s.step act).replay.upcoming log = s.replay.upcoming log := by
  rcases patient with steady | ⟨request, on, rfl⟩
  · rcases up : s.archive.failing .fetch with _ | _
    · obtain ⟨told, o⟩ := step_outcome (h.playing up) steady allowed
      exact ⟨told, o.playing.attended, o.heard, o.whole⟩
    by_cases asked : s.Fetches act
    · obtain ⟨told, stepped, all, -⟩ := step_of_fetches h up asked
      rw [stepped]
      refine ⟨told, { h with anchored := nofun, timed := rfl }, rfl, ?_⟩
      rw [all]
      rfl
    · have allowed' : s.mended.Allows act := by cases act <;> exact allowed
      obtain ⟨told, o⟩ := step_outcome h.mended steady allowed'
      rw [step_of_not_fetches h steady allowed asked]
      exact ⟨told, { o.playing.attended with holds := h.holds }, o.heard, o.whole⟩
  · exact ⟨[], { h with }, rfl, rfl⟩

/-- What a whole run keeps. -/
theorem Attended.steps : ∀ {acts : List Act} {s : Solo}, s.Attended d log →
    (∀ act ∈ acts, act.Patient d) → s.Allowed acts →
    ∃ told, (s.steps acts).Attended d log ∧ (s.steps acts).heard = told ++ s.heard ∧
      delivered told.reverse ++ (s.steps acts).replay.upcoming log = s.replay.upcoming log
  | [], s, h, _, _ => ⟨[], h, rfl, rfl⟩
  | act :: acts, s, h, patient, allowed => by
    rw [List.forall_mem_cons] at patient
    obtain ⟨told, attended, heard, whole⟩ := h.step patient.1 allowed.1
    obtain ⟨more, attended', heard', whole'⟩ := attended.steps patient.2 allowed.2
    refine ⟨more ++ told, attended', by rw [steps_cons, heard', heard, List.append_assoc], ?_⟩
    rw [delivered, List.reverse_append, List.flatMap_append, List.append_assoc]
    exact (congrArg (delivered told.reverse ++ ·) whole').trans whole

end Step

/-! ## Run again and again -/

/-- The pending timer goes off. With none pending the end has been reported, or the replay has not
been started: it is run. -/
def next (s : Solo) : Act := if s.replay.timer.isSome then .tick else .run

/-- Plays on before a store of which one step after the other finds it failing or not, as listed. In
a step the store is asked at most once, so every pattern of failing fetches can be listed. -/
def playOn : Solo → List Bool → Solo
  | s, [] => s
  | s, failing :: later =>
    let s := s.step (.fail .fetch failing)
    (s.step s.next).playOn later

section PlayOn

variable {d : Direction} {log : List Message}

theorem playOn_append : ∀ (first : List Bool) (s : Solo) (later : List Bool),
    s.playOn (first ++ later) = (s.playOn first).playOn later
  | [], _, _ => rfl
  | _ :: first, _, later => playOn_append first _ later

theorem steady_next (s : Solo) : s.next.Steady d := by
  unfold next
  split_ifs <;> trivial

theorem allows_next (s : Solo) : s.Allows s.next := by
  unfold next
  split_ifs with pending
  · exact pending
  · trivial

/-- Playing on is a run like any other. -/
theorem playOn_eq_steps : ∀ (outages : List Bool) (s : Solo),
    ∃ acts, s.playOn outages = s.steps acts ∧ (∀ act ∈ acts, act.Patient d) ∧ s.Allowed acts
  | [], s => ⟨[], rfl, nofun, trivial⟩
  | failing :: later, s => by
    let s' := s.step (.fail .fetch failing)
    obtain ⟨acts, played, patient, allowed⟩ := playOn_eq_steps later (s'.step s'.next)
    refine ⟨.fail .fetch failing :: s'.next :: acts, played, ?_, trivial, allows_next s', allowed⟩
    rw [List.forall_mem_cons, List.forall_mem_cons]
    exact ⟨.inr ⟨_, _, rfl⟩, .inl (steady_next s'), patient⟩

/-- The replay has come to its end, or comes to it in so many steps: it is started if it is not
running, and then its timers go off. -/
def Near (s : Solo) (log : List Message) (n : Nat) : Prop :=
  s.Over log ∨ s.budget log + (if s.replay.running then 0 else 1) ≤ n

/-- Before a store that answers each step brings the end nearer. -/
theorem near_next {s : Solo} (h : s.Playing d log) {n : Nat} (near : s.Near log (n + 1)) :
    (s.step s.next).Near log n := by
  obtain ⟨told, o⟩ := step_outcome h (steady_next s) (allows_next s)
  have spends := o.budget
  rcases near with finished | near
  · rw [over_iff] at finished
    exact .inl (over_iff.2 (by omega))
  by_cases running : s.replay.running = true
  · obtain ⟨timer, ht, -⟩ := h.timed.exists_timer running
    have tick : s.next = .tick := if_pos (by rw [ht]; rfl)
    rw [if_pos tick] at spends
    rw [if_pos running] at near
    rcases o.running (by simp [tick]) (.inl running) with running' | ended
    · exact .inr (by rw [if_pos running']; omega)
    · exact .inl (o.ended ended)
  · have run : s.next = .run := by
      refine if_neg fun pending => running ?_
      obtain ⟨timer, ht⟩ := Option.isSome_iff_exists.1 pending
      exact (h.timed.epoch_eq ht).1
    rw [if_neg running] at near
    rcases o.running (by simp [run]) (.inr run) with running' | ended
    · exact .inr (by rw [if_pos running']; omega)
    · exact .inl (o.ended ended)

/-- Before a store that answers a replay comes to its end, and stays there. -/
theorem over_playOn : ∀ (n : Nat) {s : Solo}, s.Attended d log → s.Near log n →
    (s.playOn (List.replicate n false)).Over log
  | 0, _, _, .inl finished => finished
  | 0, s, _, .inr spent => by
    have none : s.budget log = 0 := by omega
    exact over_iff.2 none
  | n + 1, s, h, near => by
    have up : (s.step (.fail .fetch false)).Playing d log := h.mended
    obtain ⟨told, o⟩ := step_outcome up (steady_next _) (allows_next _)
    exact over_playOn n o.playing.attended (near_next up near)

/-- Whatever fetches fail, a replay that is run again whenever the end has been reported delivers
what was upcoming. -/
theorem Attended.delivers {s : Solo} (h : s.Attended d log) (outages : List Bool) {later : Nat}
    (enough : (s.replay.upcoming log).length + 2 ≤ later) : ∃ told,
    (s.playOn (outages ++ List.replicate later false)).heard = told ++ s.heard ∧
      delivered told.reverse = s.replay.upcoming log := by
  obtain ⟨acts, played, patient, allowed⟩ := playOn_eq_steps (d := d) outages s
  obtain ⟨told, attended, -, whole⟩ := h.steps patient allowed
  rw [← played] at attended whole
  have near : (s.playOn outages).Near log later := by
    have shorter := congrArg List.length whole
    rw [List.length_append] at shorter
    refine .inr ?_
    rw [budget]
    split_ifs <;> omega
  have finished := over_playOn later attended near
  obtain ⟨acts, played, patient, allowed⟩ :=
    playOn_eq_steps (d := d) (outages ++ List.replicate later false) s
  obtain ⟨told, attended, heard, whole⟩ := h.steps patient allowed
  rw [← playOn_append] at finished
  rw [← played] at heard whole
  refine ⟨told, heard, ?_⟩
  rwa [finished.1, List.append_nil] at whole

/-- From a seek on, whatever fetches fail meanwhile: what is delivered is the course so far, and
where a fetch fails the replay is paused with nothing at hand and is otherwise left as it was. A
replay that is run again whenever the end has been reported delivers in the end what it would have
delivered without a failure, the course. -/
theorem resumes {s : Solo} (reachable : s.Reachable) (holds : s.archive.store.Holds log)
    (bounded : Bounded log) (listening : s.listening = true) (p : Position) {acts : List Act}
    (patient : ∀ act ∈ acts, act.Patient s.replay.direction)
    (allowed : (s.step (.seek p)).Allowed acts) :
    let sought := s.step (.seek p)
    let now := sought.steps acts
    let course := p.course s.replay.direction log
    delivered (now.since sought) <+: course ∧
    (∀ act, now.Fetches act → now.archive.failing .fetch = true → ∃ told,
      now.step act = { now with
        replay := { now.replay with buffer := [], running := false, timer := none }
        heard := told ++ now.heard } ∧
      delivered told.reverse = now.replay.buffer ∧ now.reports act = 1) ∧
    ∀ outages later, course.length + 2 ≤ later →
      delivered ((now.playOn (outages ++ List.replicate later false)).since sought) =
        delivered ((sought.playOn (List.replicate later false)).since sought) ∧
      delivered ((sought.playOn (List.replicate later false)).since sought) = course := by
  intro sought now course
  have start : sought.Attended s.replay.direction log :=
    attended_seek reachable.timed holds listening p
  have whole : sought.replay.upcoming log = course := Replay.upcoming_seek bounded
  obtain ⟨told, attended, heard, split⟩ := start.steps patient allowed
  rw [whole] at split
  refine ⟨?_, fun act asked failing => step_of_fetches attended failing asked,
    fun outages later enough => ?_⟩
  · rw [since_eq heard]
    exact ⟨_, split⟩
  · have shorter := congrArg List.length split
    rw [List.length_append] at shorter
    have left : ((sought.steps acts).replay.upcoming log).length + 2 ≤ later := by omega
    obtain ⟨more, heard', rest⟩ := attended.delivers outages left
    obtain ⟨all, heard'', never⟩ := start.delivers [] (whole ▸ enough)
    have undisturbed : delivered ((sought.playOn (List.replicate later false)).since sought) =
        course := (congrArg delivered (since_eq heard'')).trans (never.trans whole)
    refine ⟨?_, undisturbed⟩
    rw [heard, ← List.append_assoc] at heard'
    rw [undisturbed, since_eq heard', ← split, ← rest, delivered, List.reverse_append,
      List.flatMap_append]
    rfl

/-- Three events, the first two of one time and fetched one by one. The store fails between the two,
and twice more until the end. -/
theorem resumes_twins :
    let event (t : Int64) (text : String) : Message := .current t (.test ⟨text, []⟩)
    let stored := [event 7 "a", event 7 "b", event 9 "c"]
    let s := start ⟨1, 1, by decide, by decide⟩
      ⟨(Store.memory.appendBatch stored).1, fun _ => false⟩
    let sought := s.step (.seek (.time 7))
    let now := sought.steps [.run, .fail .fetch true, .tick]
    now.replay.running = false ∧ now.replay.cursor = ⟨7, false, 1⟩ ∧
      delivered (now.since sought) = [event 7 "a"] ∧ now.reports .run = 1 ∧
      delivered ((now.playOn ([true, false, true] ++ List.replicate 5 false)).since sought) =
        stored := by
  intro event stored s sought now
  have holds : s.archive.store.Holds stored :=
    (Store.Holds.memory : Store.memory.Holds []).append stored (by decide)
  have reachable : s.Reachable := ⟨_, _, [], trivial, rfl⟩
  have forwards : s.replay.direction = .forward := by decide
  have course : (Position.time 7).course s.replay.direction stored = stored := by
    rw [forwards, Position.course, history, inOrder_of_ordered (by decide)]
    decide
  have patient : ∀ act ∈ [Act.run, .fail .fetch true, .tick], act.Patient s.replay.direction := by
    simp [Act.Patient, Act.Steady]
  obtain ⟨-, unread, all⟩ := resumes reachable holds (by decide) rfl (.time 7) patient (by decide)
  obtain ⟨again, never⟩ := all [true, false, true] 5 (by rw [course]; decide)
  obtain ⟨told, -, -, reported⟩ := unread .run (by decide) (by decide)
  exact ⟨by decide, by decide, by decide, reported, by rw [again, never, course]⟩

end PlayOn

end Solo

end EventRelay
