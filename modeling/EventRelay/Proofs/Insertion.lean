import EventRelay.Proofs.Answers

/-!
# The events of a store in order of insertion

A store held in order numbers its entries as they come, and a store of rows adds each at the end. So
the events can be put back into the order in which they came, and appending a batch adds what the
store accepts of it behind all others. A batch of events is accepted as a whole or not at all.
-/

namespace EventRelay

namespace OrderedStore

/-- Entries have numbers of their own, given out already. -/
structure Numbered (s : OrderedStore) : Prop where
  distinct : (s.entries.map (·.number)).Nodup
  fresh : ∀ e ∈ s.entries, e.number < s.nextNumber

def byNumber (es : List Entry) : List Entry := es.mergeSort fun a b => a.number ≤ b.number

theorem byNumber_sorted (es : List Entry) :
    (byNumber es).Pairwise fun a b => a.number ≤ b.number := by
  refine (List.pairwise_mergeSort (fun a b c => ?_) (fun a b => ?_) es).imp fun {a b} h => ?_
  · simpa only [decide_eq_true_eq] using Nat.le_trans
  · simpa only [Bool.or_eq_true, decide_eq_true_eq] using Nat.le_total a.number b.number
  · simpa only [decide_eq_true_eq] using h

theorem insert_perm (e : Entry) : ∀ es : List Entry, (insert e es).Perm (e :: es)
  | [] => .refl _
  | x :: es => by
    rw [insert]
    split_ifs
    · exact .refl _
    · exact ((insert_perm e es).cons x).trans (.swap ..)

/-- An entry under a new number is the last by number. -/
theorem byNumber_insert {e : Entry} {es : List Entry} (distinct : (es.map (·.number)).Nodup)
    (fresh : ∀ x ∈ es, x.number < e.number) :
    byNumber (insert e es) = byNumber es ++ [e] := by
  have perm : (byNumber (insert e es)).Perm (byNumber es ++ [e]) := by
    refine (List.mergeSort_perm ..).trans ((insert_perm e es).trans ?_)
    exact ((List.mergeSort_perm es _).symm.cons e).trans (List.perm_append_singleton ..).symm
  have mem {x : Entry} (hx : x ∈ byNumber es ++ [e]) : x ∈ e :: es :=
    (List.perm_append_singleton ..).trans ((List.mergeSort_perm es _).cons e) |>.mem_iff.1 hx
  refine perm.eq_of_pairwise (fun a b ha hb hab hba => ?_) (byNumber_sorted _) ?_
  · have all : ((e :: es).map (·.number)).Nodup := by
      refine List.nodup_cons.2 ⟨fun he => ?_, distinct⟩
      obtain ⟨x, hx, same⟩ := List.mem_map.1 he
      exact absurd same (Nat.ne_of_lt (fresh x hx))
    exact List.inj_on_of_nodup_map all (mem (perm.mem_iff.1 ha)) (mem hb) (Nat.le_antisymm hab hba)
  · refine List.pairwise_append.2 ⟨byNumber_sorted es, List.pairwise_singleton .., ?_⟩
    intro a ha b hb
    rw [List.mem_singleton.1 hb]
    exact Nat.le_of_lt (fresh a ((List.mergeSort_perm es _).mem_iff.1 ha))

theorem Numbered.append {s s' : OrderedStore} {m : Message} (h : s.Numbered)
    (ok : s.append m = .ok s') :
    s'.Numbered ∧ (byNumber s'.entries).map (·.event) =
      (byNumber s.entries).map (·.event) ++ [m] := by
  rw [OrderedStore.append] at ok
  split_ifs at ok
  cases ok
  refine ⟨⟨?_, fun e he => ?_⟩, ?_⟩
  · refine ((insert_perm _ s.entries).map (·.number)).nodup_iff.2 ?_
    refine List.nodup_cons.2 ⟨?_, h.distinct⟩
    intro hn
    obtain ⟨x, hx, same⟩ := List.mem_map.1 hn
    exact absurd same (Nat.ne_of_lt (h.fresh x hx))
  · rcases mem_insert.1 he with rfl | he
    · exact Nat.lt_succ_self _
    · exact Nat.lt_succ_of_lt (h.fresh e he)
  · rw [byNumber_insert h.distinct h.fresh, List.map_append]
    rfl

theorem Numbered.appendBatch (ms : List Message) {s : OrderedStore} (h : s.Numbered) :
    (s.appendBatch ms).1.Numbered ∧ (byNumber (s.appendBatch ms).1.entries).map (·.event) =
      (byNumber s.entries).map (·.event) ++ ms.takeWhile (·.isData) := by
  refine holds_appendBatch (fun s log =>
    s.Numbered ∧ (byNumber s.entries).map (·.event) = log) ?_ ⟨h, rfl⟩
  rintro s s' log m ⟨h, rfl⟩ ok
  exact h.append ok

end OrderedStore

namespace TableStore

theorem events_insertAll : ∀ {ms : List Message} {rows : List (Int64 × UInt16 × Wire.Bytes)}
    (s : TableStore), encodeAll ms = .ok rows →
    (rows.foldl (fun s (ts, tag, record) => s.insert ts tag record) s).rows.map (·.event) =
      s.rows.map (·.event) ++ ms
  | [], rows, s, ok => by
    cases ok
    simp
  | m :: ms, rows, s, ok => by
    rw [encodeAll] at ok
    rcases hm : encode m with e | ⟨t, tag, record⟩
    · simp only [hm, reduceCtorEq] at ok
    rcases hms : encodeAll ms with e | rest
    · simp only [hm, hms, reduceCtorEq] at ok
    simp only [hm, hms, Except.ok.injEq] at ok
    subst ok
    have row : Row.event ⟨s.nextNumber, t, tag, record⟩ = m := by
      simp [Row.event, (decode_of_encode hm).2]
    rw [List.foldl_cons, events_insertAll _ hms]
    simp [insert, row]

end TableStore

namespace Store

/-- The events of a store, in the order in which they came. -/
def events : Store → List Message
  | ordered s => (OrderedStore.byNumber s.entries).map (·.event)
  | table s => s.rows.map (·.event)

/-- A store held in order tells from the numbers of its entries which came first. -/
def Numbered : Store → Prop
  | ordered s => s.Numbered
  | table _ => True

theorem numbered_memory : memory.Numbered := ⟨.nil, nofun⟩

theorem numbered_database : database.Numbered := trivial

variable {s : Store} {ms : List Message}

/-- What is accepted of a batch comes behind all that is there. -/
theorem Numbered.appendBatch (h : s.Numbered) (ms : List Message) :
    (s.appendBatch ms).1.Numbered ∧ (s.appendBatch ms).1.events = s.events ++ s.accepted ms := by
  rcases s with s | s
  · exact OrderedStore.Numbered.appendBatch ms h
  · refine ⟨trivial, ?_⟩
    rcases hms : TableStore.encodeAll ms with e | rows
    · simp only [Store.appendBatch, TableStore.appendBatch, accepted, hms, Except.isOk,
        Except.toBool, Bool.false_eq_true, if_false, List.append_nil]
    · simp only [Store.appendBatch, TableStore.appendBatch, accepted, hms, Except.isOk,
        Except.toBool, if_true]
      exact TableStore.events_insertAll s hms

/-- A refused batch of events leaves nothing behind. -/
theorem appendBatch_refused (data : ∀ m ∈ ms, m.isData = true)
    (refused : (s.appendBatch ms).2 ≠ none) : (s.appendBatch ms).1 = s := by
  rcases s with s | s
  · exact absurd (appendBatch_isData s data) refused
  · rcases hms : TableStore.encodeAll ms with e | rows
    · simp only [Store.appendBatch, TableStore.appendBatch, hms]
    · simp [Store.appendBatch, TableStore.appendBatch, hms] at refused

/-- The log of a store that was filled is what it holds, in the order in which it came. -/
theorem Holds.events_eq {log : List Message} (h : s.Holds log) :
    s.Numbered ∧ s.events = log := by
  induction h with
  | memory => exact ⟨numbered_memory, congrArg (List.map Entry.event) (List.mergeSort_nil ..)⟩
  | database => exact ⟨numbered_database, rfl⟩
  | append ms h room ih =>
    obtain ⟨numbered, events⟩ := ih.1.appendBatch ms
    exact ⟨numbered, by rw [events, ih.2]⟩

end Store

end EventRelay
