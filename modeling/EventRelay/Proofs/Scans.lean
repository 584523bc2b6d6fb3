import EventRelay.Proofs.Insertion

/-!
# Scans of the store in memory

The entries of a store held in order stand in the order of their keys, and no key stands twice, for
a new entry has a number above all others. The numbers tell in which order the events came, so that
the order of the keys is the order of the times, with the events of one time as they came. A fetch
is a scan of the keys from the least key of a time, and is bounded strictly by that time: no number
is below the first.
-/

namespace EventRelay

open Direction

namespace OrderedStore

/-! ## Keys -/

theorem before_trans {a b c : Entry} (hab : a.before b = true) (hbc : b.before c = true) :
    a.before c = true := by
  simp only [Entry.before, Entry.below, Bool.or_eq_true, decide_eq_true_eq, Bool.and_eq_true,
    beq_iff_eq] at hab hbc ⊢
  grind

/-- The keys stand in order, each of them once. -/
def Ascending (es : List Entry) : Prop := es.Pairwise fun a b => a.before b = true

/-- An entry with a new number finds its place between the keys. -/
theorem ascending_insert {e : Entry} : ∀ {es : List Entry}, (∀ x ∈ es, x.number < e.number) →
    Ascending es → Ascending (insert e es)
  | [], _, _ => List.pairwise_singleton ..
  | x :: es, fresh, h => by
    obtain ⟨hx, hes⟩ := List.pairwise_cons.1 h
    rw [insert]
    split_ifs with hb
    · refine List.pairwise_cons.2 ⟨fun y hy => ?_, h⟩
      rcases List.mem_cons.1 hy with rfl | hy
      · exact hb
      · exact before_trans hb (hx y hy)
    · have after : x.before e = true := by
        have lt := fresh x List.mem_cons_self
        simp only [Entry.before, Entry.below, Bool.or_eq_true, decide_eq_true_eq,
          Bool.and_eq_true, beq_iff_eq] at hb ⊢
        grind
      refine List.pairwise_cons.2 ⟨fun y hy => ?_,
        ascending_insert (fun z hz => fresh z (List.mem_cons_of_mem x hz)) hes⟩
      rcases mem_insert.1 hy with rfl | hy
      · exact after
      · exact hx y hy

/-! ## The log behind the keys -/

/-- The entries are this log: their keys stand in order, and their numbers tell how they came. -/
structure Records (s : OrderedStore) (log : List Message) : Prop where
  keeps : s.Keeps log
  numbered : s.Numbered
  ascending : Ascending s.entries
  came : (byNumber s.entries).map (·.event) = log

theorem records_empty : empty.Records [] where
  keeps := ⟨by simp [empty, inOrder], by simp [empty]⟩
  numbered := ⟨.nil, nofun⟩
  ascending := .nil
  came := congrArg (List.map Entry.event) (List.mergeSort_nil ..)

theorem Records.append {s s' : OrderedStore} {log : List Message} {m : Message}
    (h : s.Records log) (ok : s.append m = .ok s') : s'.Records (log ++ [m]) := by
  obtain ⟨numbered, came⟩ := h.numbered.append ok
  refine ⟨h.keeps.append ok, numbered, ?_, by rw [came, h.came]⟩
  rw [OrderedStore.append] at ok
  split_ifs at ok
  cases ok
  exact ascending_insert h.numbered.fresh h.ascending

/-- Of a batch the events in front of the first other message are kept. -/
theorem appendBatch_eq (s : OrderedStore) (ms : List Message) :
    s.appendBatch ms = ((s.appendBatch (ms.takeWhile (·.isData))).1,
      (ms.find? (!·.isData)).map fun m => .notData m.kind) := by
  induction ms generalizing s with
  | nil => rfl
  | cons m ms ih =>
    by_cases hm : m.isData = true
    · simp only [appendBatch, OrderedStore.append, hm, if_true, List.takeWhile_cons,
        List.find?_cons, Bool.not_true]
      exact ih _
    · simp [appendBatch, OrderedStore.append, hm]

theorem Records.appendBatch {ms : List Message} {s : OrderedStore} {log : List Message}
    (h : s.Records log) : (s.appendBatch ms).1.Records (log ++ ms.takeWhile (·.isData)) :=
  holds_appendBatch Records (fun h ok => h.append ok) h

/-- The time that a scan up starts from is the next one, and there is one but after the last. -/
theorem following?_toInt (t : Int64) : (following? t).map Int64.toInt =
    if t = Int64.maxValue then none else some (t.toInt + 1) := by
  split_ifs with last
  · rw [following?_eq_none.2 last, Option.map_none]
  · obtain ⟨next, h⟩ := Option.ne_none_iff_exists'.1 (mt following?_eq_none.1 last)
    rw [h, Option.map_some, toInt_following? h]

end OrderedStore

namespace Store

/-- The store after requests made one after the other. -/
def after (s : Store) (ops : List Operation) : Store := ops.foldl (fun s op => (s.perform op).1) s

/-- What a store in memory has accepted of requests, in the order in which it came. -/
def log (ops : List Operation) : List Message := ops.flatMap fun op => memory.accepted op.added

/-- A request leaves a store in memory that records what is accepted of it. -/
theorem records_perform {s : OrderedStore} {log : List Message} (h : s.Records log)
    (op : Operation) : ∃ s' : OrderedStore, ((ordered s).perform op).1 = ordered s' ∧
      s'.Records (log ++ memory.accepted op.added) := by
  cases op with
  | append m => exact ⟨(s.appendBatch [m]).1, rfl, h.appendBatch⟩
  | appendBatch ms => exact ⟨(s.appendBatch ms).1, rfl, h.appendBatch⟩
  | fetch | range | count => exact ⟨s, rfl, (List.append_nil log).symm ▸ h⟩

theorem records_after {s : OrderedStore} {log : List Message} (h : s.Records log)
    (ops : List Operation) : ∃ s' : OrderedStore, (ordered s).after ops = ordered s' ∧
      s'.Records (log ++ Store.log ops) := by
  induction ops generalizing s log with
  | nil => exact ⟨s, rfl, (List.append_nil log).symm ▸ h⟩
  | cons op ops ih =>
    obtain ⟨s₁, first, h₁⟩ := records_perform h op
    obtain ⟨s', later, h'⟩ := ih h₁
    refine ⟨s', ?_, by rwa [List.append_assoc] at h'⟩
    rw [← later, ← first]
    rfl

/-- Whatever has been asked of a store in memory, its answers are those of the events that it has
accepted, in the order of their times and those of one time as they came. A fetch forward is the
first of those after a time, and one in reverse the first of those before it, the last in front.
Where a scan starts is no overflow: there is a next time, but after the last, and nothing is after
that. The range is the least and the greatest time, and the count is the number of events.

A message that is no event is refused and leaves the store as it was; of a batch the events in front
of the first such message are accepted. The keys of the entries stand in order, each once, and the
numbers in them tell how the events came. -/
theorem memory_answers_from_log (ops : List Operation) :
    (∀ t max, (memory.after ops).fetch t .forward max =
      .ok ((inOrder ((log ops).filter fun m => t < m.timestamp)).take max)) ∧
    (∀ t max, (memory.after ops).fetch t .reverse max =
      .ok ((inOrder ((log ops).filter fun m => m.timestamp < t)).reverse.take max)) ∧
    (∀ t, (OrderedStore.following? t).map Int64.toInt =
      if t = Int64.maxValue then none else some (t.toInt + 1)) ∧
    (memory.after ops).range = ends (log ops) ∧
    (memory.after ops).count = (log ops).length ∧
    (∀ m, ((memory.after ops).append m).2 = if m.isData then none else some (.notData m.kind)) ∧
    (∀ m, m.isData = false → ((memory.after ops).append m).1 = memory.after ops) ∧
    (∀ ms, (memory.after ops).appendBatch ms =
      (((memory.after ops).appendBatch (ms.takeWhile (·.isData))).1,
        (ms.find? (!·.isData)).map fun m => .notData m.kind)) ∧
    ∃ s, memory.after ops = ordered s ∧ OrderedStore.Ascending s.entries ∧
      (OrderedStore.byNumber s.entries).map (·.event) = log ops := by
  obtain ⟨s, hs, records⟩ := records_after OrderedStore.records_empty ops
  rw [List.nil_append] at records
  have hs : memory.after ops = ordered s := hs
  rw [hs]
  refine ⟨fun t max => ?forward, fun t max => ?reverse, OrderedStore.following?_toInt,
    records.keeps.range, ?count, fun m => ?answer, fun m other => ?refused, fun ms => ?batch,
    s, rfl, records.ascending, records.came⟩
  case forward =>
    simp only [fetch, records.keeps.fetch, history, inOrder_filter, place_forward_lt]
  case reverse =>
    simp only [fetch, records.keeps.fetch, history, inOrder_filter, place_reverse_lt,
      List.filter_reverse]
  case count =>
    have := congrArg List.length records.keeps.events
    rwa [List.length_map, length_inOrder] at this
  case answer =>
    rcases hm : m.isData <;>
      simp [append, appendBatch, OrderedStore.appendBatch, OrderedStore.append, hm]
  case refused =>
    simp [append, appendBatch, OrderedStore.appendBatch, OrderedStore.append, other]
  case batch =>
    simp only [appendBatch]
    rw [OrderedStore.appendBatch_eq]

/-- Three events at the first and the last of all times, and a message refused. -/
theorem memory_answers_from_log_extremes :
    let a : Message := ⟨Int64.maxValue, 1, .test ⟨"a", [1]⟩⟩
    let b : Message := ⟨Int64.minValue, 1, .test ⟨"b", []⟩⟩
    let c : Message := ⟨Int64.minValue, 1, .nodeStatus ⟨.v4 1, .connect⟩⟩
    let stop : Message := ⟨0, 1, .stop⟩
    let s := memory.after [.append a, .appendBatch [b, stop, a], .append stop, .append c]
    s.fetch Int64.maxValue .forward 5 = .ok [] ∧ s.fetch Int64.minValue .forward 5 = .ok [a] ∧
      s.fetch Int64.minValue .reverse 5 = .ok [] ∧ s.fetch Int64.maxValue .reverse 5 = .ok [c, b] ∧
      s.range = some (Int64.minValue, Int64.maxValue) ∧ (s.append stop).1 = s := by
  intro a b c stop s
  obtain ⟨up, down, -, range, -, -, refused, -⟩ := memory_answers_from_log
    [.append a, .appendBatch [b, stop, a], .append stop, .append c]
  have early : (log [.append a, .appendBatch [b, stop, a], .append stop, .append c]).filter
      (fun m => m.timestamp < Int64.maxValue) = [b, c] := by decide +kernel
  have sorted : inOrder [b, c] = [b, c] := inOrder_of_ordered (by decide)
  refine ⟨(up _ _).trans (by decide +kernel), (up _ _).trans (by decide +kernel),
    (down _ _).trans (by decide +kernel), (down _ _).trans ?_, range.trans (by decide +kernel),
    refused stop rfl⟩
  rw [early, sorted]
  rfl

end Store

end EventRelay
