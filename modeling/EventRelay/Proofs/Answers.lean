import EventRelay.Proofs.OnDisk
import EventRelay.Proofs.Storable

/-!
# Both kinds of store give the same answers

A session of requests to a store is answered from the log alone: what has been appended so far says
what each request yields. Both kinds of store answer in this way as long as only storable events
are appended, so they cannot be told apart, and no request fails. A store in a file answers as its
table does, and when it is closed and opened again it has the same table: all that has been
committed is there, and a table that is there is not made anew.
-/

namespace EventRelay

open Wire

namespace Store

inductive Operation where
  | append (m : Message)
  | appendBatch (ms : List Message)
  | fetch (t : Int64) (d : Direction) (max : Nat)
  | range
  | count
  deriving DecidableEq, Inhabited

inductive Reply where
  | done
  | events (ms : List Message)
  | range (ends : Option (Int64 × Int64))
  | count (n : Nat)
  deriving DecidableEq, Inhabited

/-- What comes next in a session: a request, or the store is closed and opened again. -/
inductive Turn where
  | request (op : Operation)
  | reopen
  deriving DecidableEq, Inhabited

/-! ## What a store answers -/

/-- The answer to an append. -/
def outcome : Option StoreError → Except StoreError Reply
  | none => .ok .done
  | some e => .error e

/-- The store after a request, and its answer. -/
def perform (s : Store) : Operation → Store × Except StoreError Reply
  | .append m => ((s.append m).1, outcome (s.append m).2)
  | .appendBatch ms => ((s.appendBatch ms).1, outcome (s.appendBatch ms).2)
  | .fetch t d max => (s, (s.fetch t d max).map .events)
  | .range => (s, .ok (.range s.range))
  | .count => (s, .ok (.count s.count))

/-- The answers of a session. -/
def answers {σ : Type} (serve : σ → Turn → σ × Except StoreError Reply) (s : σ) :
    List Turn → List (Except StoreError Reply)
  | [] => []
  | turn :: turns => (serve s turn).2 :: answers serve (serve s turn).1 turns

/-- A store without a file stays open. -/
def serve (s : Store) : Turn → Store × Except StoreError Reply
  | .request op => s.perform op
  | .reopen => (s, .ok .done)

end Store

namespace Engine

open Store

variable {File Handle : Type} (engine : Engine File Handle) (name : String)

def perform (s : FileStore Handle) : Operation → FileStore Handle × Except StoreError Reply
  | .append m => ((engine.appendBatch s [m]).1, outcome (engine.appendBatch s [m]).2)
  | .appendBatch ms => ((engine.appendBatch s ms).1, outcome (engine.appendBatch s ms).2)
  | .fetch t d max => (s, (s.table.fetch t d max).map .events)
  | .range => (s, .ok (.range s.table.range))
  | .count => (s, .ok (.count s.table.count))

/-- The store in a file that goes by this name. -/
def serve (s : FileStore Handle) : Turn → FileStore Handle × Except StoreError Reply
  | .request op => engine.perform s op
  | .reopen =>
    match engine.reopen name s with
    | .ok s => (s, .ok .done)
    | .error e => (s, .error e)

end Engine

namespace Store

/-! ## What the log answers -/

/-- The events that a request appends. -/
def Operation.added : Operation → List Message
  | .append m => [m]
  | .appendBatch ms => ms
  | _ => []

/-- The first and the last time in a log. -/
def ends (log : List Message) : Option (Int64 × Int64) :=
  match (log.map (·.timestamp)).min?, (log.map (·.timestamp)).max? with
  | some first, some last => some (first, last)
  | _, _ => none

def Turn.added : Turn → List Message
  | request op => op.added
  | reopen => []

/-- What a request yields when this log has been appended. -/
def Operation.reply (log : List Message) : Operation → Reply
  | .append _ | .appendBatch _ => .done
  | .fetch t d max =>
    .events (((history d log).filter fun m => d.place t < d.place m.timestamp).take max)
  | .range => .range (ends log)
  | .count => .count log.length

def Turn.reply (log : List Message) : Turn → Reply
  | request op => op.reply log
  | reopen => .done

/-- What a session yields. -/
def replies (log : List Message) : List Turn → List Reply
  | [] => []
  | turn :: turns => turn.reply log :: replies (log ++ turn.added) turns

/-! ## The first and the last time -/

instance : Std.LawfulOrderMax Int64 where
  max_eq_or a b := by
    change (if a ≤ b then b else a) = a ∨ (if a ≤ b then b else a) = b
    split_ifs <;> simp
  max_le_iff a b c := by
    change (if a ≤ b then b else a) ≤ c ↔ a ≤ c ∧ b ≤ c
    grind

/-- The ends of a log are the times of events between which all its times lie. -/
theorem ends_eq_some {log : List Message} {first last : Int64}
    (hf : first ∈ log.map (·.timestamp)) (hl : last ∈ log.map (·.timestamp))
    (h : ∀ t ∈ log.map (·.timestamp), first ≤ t ∧ t ≤ last) : ends log = some (first, last) := by
  simp only [ends, List.min?_eq_some_iff.2 ⟨hf, fun t ht => (h t ht).1⟩,
    List.max?_eq_some_iff.2 ⟨hl, fun t ht => (h t ht).2⟩]

end Store

open Store

theorem OrderedStore.Keeps.range {s : OrderedStore} {log : List Message} (h : s.Keeps log) :
    s.range = ends log := by
  have ordered : s.entries.Pairwise fun a b => a.timestamp ≤ b.timestamp := by
    have := inOrder_ordered log
    rw [← h.events] at this
    exact (List.pairwise_map.1 this).imp fun hab => Direction.place_forward_le.1 hab
  have times (t : Int64) : t ∈ log.map (·.timestamp) ↔ t ∈ s.entries.map (·.timestamp) := by
    rw [← (inOrder_perm log |>.map _).mem_iff, ← h.events, List.map_map]
    rfl
  -- the entries are in order, so the first and the last of them are the ends
  rcases hs : s.entries with _ | ⟨e, es⟩
  · have hlog : log = [] := by
      rw [← List.length_eq_zero_iff, ← length_inOrder, ← h.events, hs]
      rfl
    simp [OrderedStore.range, hs, hlog, ends]
  rw [hs] at times ordered
  have last (x : Entry) (hx : x ∈ e :: es) :
      x.timestamp ≤ ((e :: es).getLast (List.cons_ne_nil e es)).timestamp := by
    rw [← List.dropLast_append_getLast (List.cons_ne_nil e es)] at hx ordered
    rcases List.mem_append.1 hx with hx | hx
    · exact (List.pairwise_append.1 ordered).2.2 x hx _ (List.mem_singleton_self _)
    · rw [List.mem_singleton.1 hx]
      exact Int64.le_refl _
  have range_eq : s.range =
      some (e.timestamp, ((e :: es).getLast (List.cons_ne_nil e es)).timestamp) := by
    simp only [OrderedStore.range, hs, List.head?_cons,
      List.getLast?_eq_some_getLast (List.cons_ne_nil e es)]
  rw [range_eq]
  symm
  refine ends_eq_some ((times _).2 (List.mem_map_of_mem List.mem_cons_self))
    ((times _).2 (List.mem_map_of_mem (List.getLast_mem _))) fun t ht => ?_
  obtain ⟨x, hx, rfl⟩ := List.mem_map.1 ((times t).1 ht)
  refine ⟨?_, last x hx⟩
  rcases List.mem_cons.1 hx with rfl | hx
  · exact Int64.le_refl _
  · exact List.rel_of_pairwise_cons ordered hx

theorem TableStore.foldl_ends (rs : List Row) (low high : Int64) :
    rs.foldl (fun (low, high) r => (min low r.timestamp, max high r.timestamp)) (low, high) =
      ((rs.map (·.timestamp)).foldl min low, (rs.map (·.timestamp)).foldl max high) := by
  induction rs generalizing low high with
  | nil => rfl
  | cons r rs ih => simp only [List.foldl_cons, List.map_cons, ih]

theorem TableStore.Keeps.range {s : TableStore} {log : List Message} (h : s.Keeps log) :
    s.range = ends log := by
  have times : log.map (·.timestamp) = s.rows.map (·.timestamp) := by
    rw [← h.events, List.map_map]
    exact List.map_congr_left fun r hr => (h.sound r hr).timestamp.symm
  rw [ends, times, TableStore.range]
  rcases s.rows with _ | ⟨r, rs⟩
  · rfl
  · simp only [foldl_ends, List.map_cons, List.min?_cons', List.max?_cons']

namespace Store

theorem Holds.range {s : Store} {log : List Message} (h : s.Holds log) : s.range = ends log := by
  have keeps := h.keeps.1
  rcases s with s | s
  · exact OrderedStore.Keeps.range keeps
  · exact TableStore.Keeps.range keeps

/-! ## Request by request -/

/-- A store that has been filled with storable events. -/
structure Serves (s : Store) (log : List Message) : Prop where
  holds : s.Holds log
  storable : ∀ m ∈ log, m.Storable

theorem serves_memory : memory.Serves [] := ⟨.memory, nofun⟩

theorem serves_database : database.Serves [] := ⟨.database, nofun⟩

/-- A batch of storable events is not refused. -/
theorem appendBatch_storable (s : Store) {ms : List Message} (hms : ∀ m ∈ ms, m.Storable) :
    (s.appendBatch ms).2 = none := by
  rcases s with s | s
  · exact appendBatch_isData s fun m hm => (hms m hm).isData
  · exact s.appendBatch_storable hms

section Step

variable {s : Store} {log : List Message}

theorem Serves.appendBatch (h : s.Serves log) {ms : List Message} (hms : ∀ m ∈ ms, m.Storable)
    (room : log.length + ms.length ≤ TableStore.maxLimit) :
    (s.appendBatch ms).2 = none ∧ (s.appendBatch ms).1.Serves (log ++ ms) := by
  have ok := s.appendBatch_storable hms
  exact ⟨ok, h.holds.appendAll ok (by rwa [h.holds.count_eq]),
    List.forall_mem_append.2 ⟨h.storable, hms⟩⟩

/-- A request is answered from the log, and leaves a store that serves the log it leads to. -/
theorem Serves.perform (h : s.Serves log) {op : Operation} (hop : ∀ m ∈ op.added, m.Storable)
    (room : log.length + op.added.length ≤ TableStore.maxLimit) :
    (s.perform op).2 = .ok (op.reply log) ∧ (s.perform op).1.Serves (log ++ op.added) := by
  cases op with
  | append m =>
    obtain ⟨ok, hs⟩ := h.appendBatch hop room
    exact ⟨congrArg outcome ok, hs⟩
  | appendBatch ms =>
    obtain ⟨ok, hs⟩ := h.appendBatch hop room
    exact ⟨congrArg outcome ok, hs⟩
  | fetch t d max =>
    refine ⟨?_, by simpa only [Store.perform, Operation.added, List.append_nil] using h⟩
    rw [Store.perform, h.holds.fetch]
    rfl
  | range =>
    refine ⟨?_, by simpa only [Store.perform, Operation.added, List.append_nil] using h⟩
    rw [Store.perform, h.holds.range]
    rfl
  | count =>
    refine ⟨?_, by simpa only [Store.perform, Operation.added, List.append_nil] using h⟩
    rw [Store.perform, h.holds.count_eq]
    rfl

theorem Serves.serve (h : s.Serves log) {turn : Turn} (hadded : ∀ m ∈ turn.added, m.Storable)
    (room : log.length + turn.added.length ≤ TableStore.maxLimit) :
    (s.serve turn).2 = .ok (turn.reply log) ∧ (s.serve turn).1.Serves (log ++ turn.added) := by
  cases turn with
  | request op => exact h.perform hadded room
  | reopen => exact ⟨rfl, (List.append_nil log).symm ▸ h⟩

/-- A session is answered from the log. -/
theorem Serves.answers (h : s.Serves log) {turns : List Turn}
    (hadded : ∀ turn ∈ turns, ∀ m ∈ turn.added, m.Storable)
    (room : log.length + (turns.flatMap (·.added)).length ≤ TableStore.maxLimit) :
    Store.answers Store.serve s turns = (replies log turns).map .ok := by
  induction turns generalizing s log with
  | nil => rfl
  | cons turn turns ih =>
    rw [List.forall_mem_cons] at hadded
    rw [List.flatMap_cons, List.length_append] at room
    obtain ⟨hreply, hs⟩ := h.serve hadded.1 (by omega)
    rw [Store.answers, replies, List.map_cons, hreply, ih hs hadded.2]
    rw [List.length_append]
    omega

end Step

end Store

namespace Engine

open Store

/-! ## The store in a file -/

section Faithful

variable {File Handle : Type} {engine : Engine File Handle} {sound : Handle → Prop}

/-- The table is what the file has of it. -/
structure Keeps (engine : Engine File Handle) (sound : Handle → Prop) (s : FileStore Handle) :
    Prop where
  sound : sound s.handle
  loads : engine.load s.handle = .ok (.ofTable s.table)

namespace Faithful

variable (faithful : engine.Faithful sound) {s : FileStore Handle}
include faithful

theorem finish {handle : Handle} (usable : sound handle) {before : Database}
    (loads : engine.load handle = .ok before) (after : Database) : ∃ written,
    engine.finish handle before after = .ok written ∧ sound written ∧
      engine.load written = .ok after := by
  unfold Engine.finish
  split_ifs with same
  · exact ⟨handle, rfl, usable, same ▸ loads⟩
  · exact faithful.commit usable after

/-- The table of a database is made if it is not there. -/
theorem initSchema {handle : Handle} (usable : sound handle) {database : Database}
    (loads : engine.load handle = .ok database) : ∃ s, engine.initSchema handle = .ok s ∧
    s.table = database.events.getD .empty ∧ engine.Keeps sound s := by
  obtain ⟨made, hmade, usable', loads'⟩ :=
    faithful.finish usable loads { database with events := some (database.events.getD .empty) }
  obtain ⟨indexed, hindexed, usable'', loads''⟩ :=
    faithful.finish usable' loads' (.ofTable (database.events.getD .empty))
  refine ⟨⟨indexed, database.events.getD .empty⟩, ?_, rfl, usable'', loads''⟩
  simp only [Engine.initSchema, loads, bind, Except.bind, hmade, hindexed, pure, Except.pure]

theorem openStore {file : File} {handle : Handle} (connects : engine.connect file = .ok handle)
    (usable : sound handle) {database : Database} (loads : engine.load handle = .ok database)
    (name : String) : ∃ s, engine.openStore name file = .ok s ∧
      s.table = database.events.getD .empty ∧ engine.Keeps sound s := by
  obtain ⟨s, made, table, keeps⟩ := faithful.initSchema usable loads
  exact ⟨s, by simp only [Engine.openStore, connects, made, Except.mapError], table, keeps⟩

/-- A store that is opened again has the table that it had. -/
theorem reopen (keeps : engine.Keeps sound s) (name : String) : ∃ again,
    engine.reopen name s = .ok again ∧ again.table = s.table ∧ engine.Keeps sound again := by
  obtain ⟨handle, connects, usable, loads⟩ := faithful.reconnect keeps.sound
  exact faithful.openStore connects usable (loads.trans keeps.loads) name

/-- A batch is refused or appended as it is to the table, and is committed. -/
theorem appendBatch (keeps : engine.Keeps sound s) (ms : List Message) : ∃ s' error,
    engine.appendBatch s ms = (s', error) ∧ s.table.appendBatch ms = (s'.table, error) ∧
      engine.Keeps sound s' := by
  rcases encoded : TableStore.encodeAll ms with e | rows
  · have refused : s.table.appendBatch ms = (s.table, some e) := by
      rw [TableStore.appendBatch, encoded]
    exact ⟨s, some e, by rw [Engine.appendBatch, refused], refused, keeps⟩
  · obtain ⟨table, taken⟩ : ∃ table, s.table.appendBatch ms = (table, none) :=
      ⟨_, by rw [TableStore.appendBatch, encoded]⟩
    obtain ⟨written, committed, usable, loads⟩ :=
      faithful.finish keeps.sound keeps.loads (.ofTable table)
    exact ⟨⟨written, table⟩, none, by rw [Engine.appendBatch, taken]; simp only [committed], taken,
      usable, loads⟩

/-- A store in a file answers as its table does. -/
theorem serve (keeps : engine.Keeps sound s) (name : String) (turn : Turn) : ∃ s' answer,
    engine.serve name s turn = (s', answer) ∧
      Store.serve (.table s.table) turn = (.table s'.table, answer) ∧ engine.Keeps sound s' := by
  have appends (ms : List Message) : ∃ s' error, engine.appendBatch s ms = (s', error) ∧
      (Store.table s.table).appendBatch ms = (.table s'.table, error) ∧
      engine.Keeps sound s' := by
    obtain ⟨s', error, appended, same, keeps⟩ := faithful.appendBatch keeps ms
    exact ⟨s', error, appended, by rw [Store.appendBatch, same], keeps⟩
  cases turn with
  | reopen =>
    obtain ⟨again, reopened, table, keeps⟩ := faithful.reopen keeps name
    exact ⟨again, .ok .done, by rw [Engine.serve, reopened], by rw [Store.serve, table], keeps⟩
  | request op =>
    cases op with
    | append m =>
      obtain ⟨s', error, appended, same, keeps⟩ := appends [m]
      refine ⟨s', outcome error, by rw [Engine.serve, perform, appended], ?_, keeps⟩
      rw [Store.serve, Store.perform, Store.append, same]
    | appendBatch ms =>
      obtain ⟨s', error, appended, same, keeps⟩ := appends ms
      refine ⟨s', outcome error, by rw [Engine.serve, perform, appended], ?_, keeps⟩
      rw [Store.serve, Store.perform, same]
    | fetch | range | count => exact ⟨s, _, rfl, rfl, keeps⟩

theorem answers (keeps : engine.Keeps sound s) (name : String) (turns : List Turn) :
    answers (engine.serve name) s turns = answers Store.serve (.table s.table) turns := by
  induction turns generalizing s with
  | nil => rfl
  | cons turn turns ih =>
    obtain ⟨s', answer, served, same, keeps⟩ := faithful.serve keeps name turn
    rw [Store.answers, Store.answers, served, same, ih keeps]

end Faithful

end Faithful

end Engine

namespace Store

/-- A store in memory and one in a file that is blank at first give the same answer to every
request, however often the one in the file is closed and opened again in between, and neither gives
an error: each answer is what the events appended so far say. The events appended are storable, and
not more than there are numbers for rows. -/
theorem answers_memory_eq_database {File Handle : Type} {engine : Engine File Handle}
    {sound : Handle → Prop} (faithful : engine.Faithful sound) (name : String) {file : File}
    {handle : Handle} (connects : engine.connect file = .ok handle) (usable : sound handle)
    (blank : engine.load handle = .ok .blank) (turns : List Turn)
    (storable : ∀ turn ∈ turns, ∀ m ∈ turn.added, m.Storable)
    (room : (turns.flatMap (·.added)).length ≤ TableStore.maxLimit) :
    ∃ s, engine.openStore name file = .ok s ∧
      answers serve memory turns = answers (engine.serve name) s turns ∧
      answers (engine.serve name) s turns = (replies [] turns).map .ok := by
  obtain ⟨s, opened, table, keeps⟩ := faithful.openStore connects usable blank name
  have room : ([] : List Message).length + (turns.flatMap (·.added)).length ≤
      TableStore.maxLimit := by simpa using room
  have hm := serves_memory.answers storable room
  have hd := serves_database.answers storable room
  have same : answers (engine.serve name) s turns = answers serve database turns := by
    rw [faithful.answers keeps name turns, table]
    rfl
  exact ⟨s, opened, hm.trans (hd.symm.trans same.symm), same.trans hd⟩

/-- Three events, two of them at one time, in a file of a disk that is closed and opened again
before and after the last two come. -/
theorem answers_memory_eq_database_twins :
    let a : Message := ⟨7, 3, .test ⟨"é", [1]⟩⟩
    let b : Message := ⟨-2, 1, .nodeStatus ⟨.v4 1, .connect⟩⟩
    let c : Message := ⟨7, 1, .gps ⟨.v6 1 2, ⟨0⟩, ⟨9218868437227405313⟩, ⟨0⟩⟩⟩
    let turns : List Turn := [.request (.append a), .request (.fetch 8 .reverse 1), .reopen,
      .request (.appendBatch [b, c]), .reopen, .request (.fetch 8 .reverse 2),
      .request (.fetch Int64.minValue .forward (2 ^ 64)), .request (.fetch (-3) .forward 0),
      .request .range, .request .count]
    let disk : Disk := .ofDirectory (Place.ofText "/tmp")
    let engine := Disk.engine { path := Utf8.encode "events.db" }
    ∃ s, engine.openStore "events.db" disk = .ok s ∧
      answers serve memory turns = answers (engine.serve "events.db") s turns ∧
      answers (engine.serve "events.db") s turns = [.ok .done, .ok (.events [a]), .ok .done,
        .ok .done, .ok .done, .ok (.events [c, a]), .ok (.events [b, a, c]), .ok (.events []),
        .ok (.range (some (-2, 7))), .ok (.count 3)] := by
  intro a b c turns disk engine
  have storable : ∀ turn ∈ turns, ∀ m ∈ turn.added, m.Storable := by
    have ha : a.Storable := ⟨rfl, by
      simp [a, Payload.Fits, maxFieldLength]
      decide⟩
    have hb : b.Storable := ⟨rfl, by simp [b, Payload.Fits]⟩
    have hc : c.Storable := ⟨rfl, by simp [c, Payload.Fits]⟩
    simp [turns, Turn.added, Operation.added, ha, hb, hc]
  let place := Place.ofText "/tmp/events.db"
  have found : disk.openFile { path := Utf8.encode "events.db" } = .ok place := by decide +kernel
  have missing : disk.file? place = none := by decide +kernel
  have faithful := Disk.engine_faithful (l := { path := Utf8.encode "events.db" })
    ⟨by decide +kernel, by decide +kernel⟩
  have connects : engine.connect disk = .ok (disk, place) := congrArg (Except.map _) found
  have blank : engine.load (disk, place) = .ok .blank := by
    simp only [engine, Disk.engine, missing]
    rfl
  obtain ⟨s, opened, same, -⟩ := answers_memory_eq_database faithful "events.db" connects
    ⟨found, by decide +kernel⟩ blank turns storable (by decide)
  exact ⟨s, opened, same, same.symm.trans (by decide +kernel)⟩

end Store

end EventRelay
