import EventRelay.Proofs.Order
import EventRelay.Proofs.RoundTrip
import EventRelay.Store
import Mathlib.Data.List.Nodup
import Mathlib.Data.List.TakeWhile

/-!
# What a store holds

A store holds a log: the events that it has taken in, in the order in which they came. Of a batch a
store held in order takes the events up to the first message that is none, and a store of rows takes
all or nothing. What either serves is read off the log: the events on the far side of a time, in the
order of play.
-/

namespace EventRelay

open Direction Wire

/-! ## The store held in order -/

namespace OrderedStore

/-- The entries are a log put in order, under numbers given out already. -/
structure Keeps (s : OrderedStore) (log : List Message) : Prop where
  events : s.entries.map (·.event) = inOrder log
  numbered : ∀ e ∈ s.entries, e.number < s.nextNumber

section Insert

variable {e x : Entry} {es : List Entry}

/-- An entry with a new number comes after all entries of its time. -/
theorem before_iff (fresh : x.number < e.number) :
    e.before x = true ↔ e.timestamp < x.timestamp := by
  simp only [Entry.before, Entry.below, Bool.or_eq_true, decide_eq_true_eq, Bool.and_eq_true,
    beq_iff_eq]
  constructor
  · rintro (h | ⟨-, h⟩)
    · exact h
    · omega
  · exact .inl

theorem mem_insert {y : Entry} : ∀ {es : List Entry}, y ∈ insert e es ↔ y = e ∨ y ∈ es
  | [] => by simp [insert]
  | x :: es => by
    rw [insert]
    split_ifs
    · simp
    · simp only [List.mem_cons, mem_insert]
      exact or_left_comm

theorem insert_ordered : ∀ {es : List Entry}, (∀ x ∈ es, x.number < e.number) →
    forward.Ordered (es.map (·.event)) → forward.Ordered ((insert e es).map (·.event))
  | [], _, _ => List.pairwise_singleton ..
  | x :: es, fresh, h => by
    obtain ⟨hx, hes⟩ := List.pairwise_cons.1 h
    rw [insert]
    split_ifs with hb
    · have hlt := (before_iff (fresh x (by simp))).1 hb
      refine List.pairwise_cons.2 ⟨fun y hy => ?_, h⟩
      have hex := place_forward_le.2 (Int64.le_of_lt hlt)
      rcases List.mem_cons.1 hy with rfl | hy
      · exact hex
      · exact Int.le_trans hex (hx y hy)
    · have hle : x.timestamp ≤ e.timestamp :=
        Int64.not_lt.1 fun hlt => hb ((before_iff (fresh x (by simp))).2 hlt)
      refine List.pairwise_cons.2 ⟨fun y hy => ?_,
        insert_ordered (fun z hz => fresh z (by simp [hz])) hes⟩
      obtain ⟨z, hz, rfl⟩ := List.mem_map.1 hy
      rcases mem_insert.1 hz with rfl | hz
      · exact place_forward_le.2 hle
      · exact hx _ (List.mem_map_of_mem hz)

theorem eventsAt_insert (t : Int64) : ∀ {es : List Entry}, (∀ x ∈ es, x.number < e.number) →
    forward.Ordered (es.map (·.event)) →
    eventsAt t ((insert e es).map (·.event)) = eventsAt t (es.map (·.event) ++ [e.event])
  | [], _, _ => rfl
  | x :: es, fresh, h => by
    obtain ⟨hx, hes⟩ := List.pairwise_cons.1 h
    rw [insert]
    split_ifs with hb
    · have hlt := (before_iff (fresh x (by simp))).1 hb
      -- nothing that follows is of the time of the new entry
      have later : e.event.timestamp = t → eventsAt t ((x :: es).map (·.event)) = [] := by
        rintro rfl
        refine List.eq_nil_iff_forall_not_mem.2 fun m hm => ?_
        obtain ⟨hm, ht⟩ := mem_eventsAt.1 hm
        have hxm : x.timestamp ≤ m.timestamp := by
          rcases List.mem_cons.1 hm with rfl | hm
          · exact Int64.le_refl _
          · exact place_forward_le.1 (hx m hm)
        rw [ht] at hxm
        exact Int64.not_lt.2 hxm hlt
      rw [List.map_cons, eventsAt_append, eventsAt_cons, eventsAt_cons]
      split_ifs with ht
      · rw [later ht]
        rfl
      · simp [eventsAt]
    · rw [List.map_cons, eventsAt_cons, List.map_cons, List.cons_append, eventsAt_cons,
        eventsAt_insert t (fun z hz => fresh z (by simp [hz])) hes]

end Insert

theorem Keeps.append {s s' : OrderedStore} {log : List Message} {m : Message} (h : s.Keeps log)
    (hs : s.append m = .ok s') : s'.Keeps (log ++ [m]) := by
  have ordered : forward.Ordered (s.entries.map (·.event)) := h.events ▸ inOrder_ordered log
  rw [OrderedStore.append] at hs
  split_ifs at hs
  · obtain rfl := Except.ok.inj hs
    refine ⟨eq_inOrder (insert_ordered h.numbered ordered) fun t => ?_, fun e he => ?_⟩
    · rw [eventsAt_insert t h.numbered ordered, h.events, eventsAt_append, eventsAt_append,
        eventsAt_inOrder]
    · rcases mem_insert.1 he with rfl | he
      · exact Nat.lt_succ_self _
      · exact Nat.lt_succ_of_lt (h.numbered e he)

/-- What holds of a store and its log, and stays so with every event accepted, stays so with a
batch. -/
theorem holds_appendBatch (holds : OrderedStore → List Message → Prop)
    (step : ∀ {s s' : OrderedStore} {log : List Message} {m : Message}, holds s log →
      s.append m = .ok s' → holds s' (log ++ [m])) :
    ∀ {ms : List Message} {s : OrderedStore} {log : List Message}, holds s log →
      holds (s.appendBatch ms).1 (log ++ ms.takeWhile (·.isData))
  | [], s, log, h => by simpa [OrderedStore.appendBatch] using h
  | m :: ms, s, log, h => by
    by_cases hd : m.isData = true
    · obtain ⟨s', hm⟩ : ∃ s', s.append m = .ok s' := ⟨_, if_pos hd⟩
      have : holds (s'.appendBatch ms).1 (log ++ m :: ms.takeWhile (·.isData)) := by
        rw [← List.singleton_append, ← List.append_assoc]
        exact holds_appendBatch holds step (step h hm)
      simpa only [OrderedStore.appendBatch, hm, List.takeWhile_cons, hd, if_true] using this
    · have hm : s.append m = .error (.notData m.kind) := if_neg hd
      simpa only [OrderedStore.appendBatch, hm, List.takeWhile_cons, hd, if_false,
        List.append_nil, Bool.false_eq_true] using h

theorem Keeps.appendBatch {ms : List Message} {s : OrderedStore} {log : List Message}
    (h : s.Keeps log) : (s.appendBatch ms).1.Keeps (log ++ ms.takeWhile (·.isData)) :=
  holds_appendBatch Keeps (fun h ok => h.append ok) h

/-! ### Bounds of a scan -/

/-- No key of a time lies below its least one. -/
theorem below_zero (e : Entry) (t : Int64) : e.below t 0 = decide (e.timestamp < t) := by
  simp [Entry.below]

/-- The time that follows is one later, without overflow. -/
theorem toInt_following? {t next : Int64} (h : following? t = some next) :
    next.toInt = t.toInt + 1 := by
  rw [following?] at h
  split_ifs at h with last
  cases h
  have low := Int64.le_toInt t
  have high := Int64.toInt_lt t
  have below : t.toInt ≠ Int64.maxValue.toInt := fun same => last (Int64.toInt_inj.1 same)
  rw [Int64.toInt_maxValue] at below
  rw [Int64.toInt_add, Int64.toInt_one, Int.bmod_eq_of_le] <;> omega

theorem following?_eq_none {t : Int64} : following? t = none ↔ t = Int64.maxValue := by
  rw [following?]
  split_ifs with last <;> simp [last]

theorem lt_following?_iff {t u next : Int64} (h : following? t = some next) : u < next ↔ u ≤ t := by
  rw [Int64.lt_iff_toInt_lt, Int64.le_iff_toInt_le, toInt_following? h]
  omega

theorem fetch_forward (s : OrderedStore) (t : Int64) (n : Nat) : s.fetch t .forward n =
    ((s.entries.dropWhile fun e => e.timestamp ≤ t).take n).map (·.event) := by
  rw [OrderedStore.fetch]
  split
  · next last =>
    have all : (s.entries.dropWhile fun e => e.timestamp ≤ t) = [] := by
      refine List.dropWhile_eq_nil_iff.2 fun e _ => ?_
      rw [following?_eq_none.1 last, decide_eq_true_eq]
      exact Int64.le_maxValue _
    rw [all, List.take_nil, List.map_nil]
  · next next h =>
    simp only [below_zero, lt_following?_iff h]

theorem fetch_reverse (s : OrderedStore) (t : Int64) (n : Nat) : s.fetch t .reverse n =
    ((s.entries.takeWhile fun e => e.timestamp < t).reverse.take n).map (·.event) := by
  simp only [OrderedStore.fetch, below_zero]

theorem Keeps.fetch {s : OrderedStore} {log : List Message} (h : s.Keeps log) (t : Int64)
    (d : Direction) (n : Nat) :
    s.fetch t d n = ((history d log).filter fun m => d.place t < d.place m.timestamp).take n := by
  have ordered := inOrder_ordered log
  rcases d with _ | _
  · have beyond : (s.entries.dropWhile fun e => e.timestamp ≤ t).map (·.event) =
        (inOrder log).filter fun m => forward.place t < forward.place m.timestamp := by
      have down : (inOrder log).Pairwise fun a b =>
          decide (b.timestamp ≤ t) = true → decide (a.timestamp ≤ t) = true :=
        ordered.imp fun {a b} hab hb => by
          rw [decide_eq_true_eq] at hb ⊢
          exact Int64.le_trans (place_forward_le.1 hab) hb
      have := dropWhile_eq_filter down
      rw [← h.events, List.dropWhile_map] at this
      rw [← h.events]
      refine this.trans (List.filter_congr fun m _ => ?_)
      simp only [place_forward_lt, ← decide_not, Int64.not_le]
    simp only [fetch_forward, List.map_take, beyond, history]
  · have beyond : (s.entries.takeWhile fun e => e.timestamp < t).map (·.event) =
        (inOrder log).filter fun m => reverse.place t < reverse.place m.timestamp := by
      have down : (inOrder log).Pairwise fun a b =>
          decide (b.timestamp < t) = true → decide (a.timestamp < t) = true :=
        ordered.imp fun {a b} hab hb => by
          rw [decide_eq_true_eq] at hb ⊢
          exact Int64.lt_of_le_of_lt (place_forward_le.1 hab) hb
      have := takeWhile_eq_filter down
      rw [← h.events, List.takeWhile_map] at this
      rw [← h.events]
      refine this.trans (List.filter_congr fun m _ => ?_)
      simp only [place_reverse_lt]
    simp only [fetch_reverse, List.map_take, List.map_reverse, beyond, history,
      List.filter_reverse]

end OrderedStore

/-! ## The store of rows -/

/-- The event in the frame of a row. -/
def Row.event (r : Row) : Message :=
  match Framing.standard.decode r.record with
  | .ok [m] => m
  | _ => default

/-- A row as it is made for an event. -/
structure Row.Sound (r : Row) : Prop where
  timestamp : r.timestamp = r.event.timestamp
  record : Framing.standard.decode r.record = .ok [r.event]

namespace TableStore

/-- The rows are a log in its own order. -/
structure Keeps (s : TableStore) (log : List Message) : Prop where
  events : s.rows.map (·.event) = log
  sound : ∀ r ∈ s.rows, r.Sound
  increasing : s.rows.Pairwise fun a b => a.number < b.number
  numbered : ∀ r ∈ s.rows, r.number < s.nextNumber

theorem regular_of_isData {m : Message} (h : m.isData = true) : m.payload.Regular := by
  unfold Message.isData Message.kind at h
  cases hp : m.payload <;> simp_all [Payload.kind, Kind.isData, Payload.Regular]

theorem decode_of_encode {m : Message} {t : Int64} {tag : UInt16} {record : Bytes}
    (h : encode m = .ok (t, tag, record)) :
    t = m.timestamp ∧ Framing.standard.decode record = .ok [m] := by
  unfold encode at h
  split_ifs at h with hd
  rcases hf : Framing.standard.encode [m] with e | frame
  · simp only [hf, reduceCtorEq] at h
  · simp only [hf, Except.ok.injEq, Prod.mk.injEq] at h
    obtain ⟨rfl, -, rfl⟩ := h
    obtain ⟨hb, records, hr, hl, rfl⟩ := Framing.encode_ok.1 hf
    exact ⟨rfl, Framing.decode_encode hb hr hl (by simpa using regular_of_isData hd)⟩

theorem Keeps.insert {s : TableStore} {log : List Message} {m : Message} {tag : UInt16}
    {record : Bytes} (h : s.Keeps log)
    (hr : Framing.standard.decode record = .ok [m]) :
    (s.insert m.timestamp tag record).Keeps (log ++ [m]) := by
  have hm : Row.event ⟨s.nextNumber, m.timestamp, tag, record⟩ = m := by simp [Row.event, hr]
  refine ⟨?_, ?_, ?_, ?_⟩
  · simp [TableStore.insert, h.events, hm]
  · intro r hmem
    rcases List.mem_append.1 hmem with hmem | hmem
    · exact h.sound r hmem
    · obtain rfl := List.mem_singleton.1 hmem
      exact ⟨by rw [hm], by rw [hm, hr]⟩
  · refine List.pairwise_append.2 ⟨h.increasing, List.pairwise_singleton .., ?_⟩
    intro a ha b hb
    obtain rfl := List.mem_singleton.1 hb
    exact h.numbered a ha
  · intro r hmem
    rcases List.mem_append.1 hmem with hmem | hmem
    · exact Nat.lt_succ_of_lt (h.numbered r hmem)
    · obtain rfl := List.mem_singleton.1 hmem
      exact Nat.lt_succ_self _

theorem Keeps.insertAll : ∀ {ms : List Message} {rows : List (Int64 × UInt16 × Bytes)}
    {s : TableStore} {log : List Message}, s.Keeps log → encodeAll ms = .ok rows →
    (rows.foldl (fun s (ts, tag, record) => s.insert ts tag record) s).Keeps (log ++ ms)
  | [], rows, s, log, h, hrows => by
    obtain rfl := Except.ok.inj hrows
    simpa using h
  | m :: ms, rows, s, log, h, hrows => by
    rw [encodeAll] at hrows
    rcases hm : encode m with e | ⟨t, tag, record⟩
    · simp only [hm, reduceCtorEq] at hrows
    rcases hms : encodeAll ms with e | rest
    · simp only [hm, hms, reduceCtorEq] at hrows
    simp only [hm, hms, Except.ok.injEq] at hrows
    obtain ⟨rfl, hr⟩ := decode_of_encode hm
    subst hrows
    have : (rest.foldl _ (s.insert m.timestamp tag record)).Keeps (log ++ [m] ++ ms) :=
      (h.insert hr).insertAll hms
    rwa [List.append_assoc] at this

/-! ### Queries -/

theorem ascending_iff {a b : Row} : ascending a b = true ↔
    a.timestamp < b.timestamp ∨ a.timestamp = b.timestamp ∧ a.number ≤ b.number := by
  simp [ascending]

theorem ascending_trans (a b c : Row) (hab : ascending a b = true) (hbc : ascending b c = true) :
    ascending a c = true := by
  rw [ascending_iff] at *
  grind

theorem ascending_total (a b : Row) : (ascending a b || ascending b a) = true := by
  rw [Bool.or_eq_true, ascending_iff, ascending_iff]
  grind

theorem le_of_ascending {a b : Row} (h : ascending a b = true) : a.timestamp ≤ b.timestamp := by
  rw [ascending_iff] at h
  grind

theorem decodeRows_sound : ∀ {rs : List Row} {seen : List (List Message)}, (∀ r ∈ rs, r.Sound) →
    decodeRows rs seen = .ok (seen.reverse.flatten ++ rs.map (·.event))
  | [], seen, _ => by simp [decodeRows]
  | r :: rs, seen, h => by
    rw [decodeRows, (h r (by simp)).record]
    dsimp only
    rw [decodeRows_sound fun x hx => h x (by simp [hx])]
    simp

section Sorted

variable {rs : List Row} (sound : ∀ r ∈ rs, r.Sound)
  (numbers : rs.Pairwise fun a b => a.number < b.number)

include sound numbers

theorem map_mergeSort_ascending :
    (rs.mergeSort ascending).map (·.event) = inOrder (rs.map (·.event)) := by
  have mem {r : Row} (hr : r ∈ rs.mergeSort ascending) : r.Sound :=
    sound r ((List.mergeSort_perm ..).mem_iff.1 hr)
  refine eq_inOrder ?_ fun t => ?_
  · refine List.pairwise_map.2 (List.Pairwise.imp_of_mem ?_
      (List.pairwise_mergeSort ascending_trans ascending_total rs))
    intro a b ha hb h
    rw [place_forward_le, ← (mem ha).timestamp, ← (mem hb).timestamp]
    exact le_of_ascending h
  · rw [eventsAt, eventsAt, List.filter_map, List.filter_map]
    congr 1
    refine filter_mergeSort ascending_trans ascending_total ?_
    refine (numbers.filter _).imp_of_mem fun {a b} ha hb h => ?_
    obtain ⟨ha, hta⟩ := List.mem_filter.1 ha
    obtain ⟨hb, htb⟩ := List.mem_filter.1 hb
    simp only [Function.comp_apply, beq_iff_eq] at hta htb
    rw [ascending_iff, (sound a ha).timestamp, (sound b hb).timestamp, hta, htb]
    exact .inr ⟨rfl, Nat.le_of_lt h⟩

omit sound in
theorem mergeSort_descending :
    rs.mergeSort (fun a b => ascending b a) = (rs.mergeSort ascending).reverse := by
  have distinct : (rs.map (·.number)).Nodup :=
    List.pairwise_map.2 (numbers.imp fun h => Nat.ne_of_lt h)
  refine @List.Perm.eq_of_pairwise _ (fun a b => ascending b a = true) _ _ ?_
    (List.pairwise_mergeSort (fun a b c hab hbc => ascending_trans c b a hbc hab)
      (fun a b => ascending_total b a) rs)
    (List.pairwise_reverse.2 (List.pairwise_mergeSort ascending_trans ascending_total rs))
    ((List.mergeSort_perm ..).trans
      ((List.mergeSort_perm ..).symm.trans (List.reverse_perm _).symm))
  intro a b ha hb hba hab
  have ha : a ∈ rs := (List.mergeSort_perm ..).mem_iff.1 ha
  have hb : b ∈ rs := (List.mergeSort_perm ..).mem_iff.1 (List.mem_reverse.1 hb)
  refine List.inj_on_of_nodup_map distinct ha hb ?_
  rw [ascending_iff] at hab hba
  grind

end Sorted

theorem Keeps.fetch {s : TableStore} {log : List Message} (h : s.Keeps log)
    (room : log.length ≤ maxLimit) (t : Int64) (d : Direction) (n : Nat) :
    s.fetch t d n =
      .ok (((history d log).filter fun m => d.place t < d.place m.timestamp).take n) := by
  have query (p : Row → Bool) (q : Message → Bool) (hpq : ∀ r ∈ s.rows, p r = q r.event) :
      ((s.rows.filter p).mergeSort ascending).map (·.event) = (inOrder log).filter q := by
    rw [map_mergeSort_ascending (fun r hr => h.sound r (List.mem_of_mem_filter hr))
      (h.increasing.filter p), ← inOrder_filter, ← h.events, List.filter_map]
    congr 2
    exact List.filter_congr hpq
  have all {ms : List Message} (q : Message → Bool) (hm : ms.length = log.length) :
      (ms.filter q).take (min n maxLimit) = (ms.filter q).take n := by
    have := List.length_filter_le q ms
    rw [← List.take_take, List.take_of_length_le (i := maxLimit) (by omega)]
  have selected (rs : List Row) (hrs : ∀ r ∈ rs, r ∈ s.rows) :
      decodeRows rs [] = .ok (rs.map (·.event)) :=
    (decodeRows_sound fun r hr => h.sound r (hrs r hr)).trans (by simp)
  rcases d with _ | _
  · have beyond := query (fun r => t < r.timestamp)
      (fun m => forward.place t < forward.place m.timestamp) fun r hr => by
        simp only [(h.sound r hr).timestamp, place_forward_lt]
    rw [TableStore.fetch, select, selected, List.map_take, beyond, all _ (length_inOrder log)]
    · rfl
    · intro r hr
      exact List.mem_of_mem_filter ((List.mergeSort_perm ..).mem_iff.1 (List.mem_of_mem_take hr))
  · have beyond := query (fun r => r.timestamp < t)
      (fun m => reverse.place t < reverse.place m.timestamp) fun r hr => by
        simp only [(h.sound r hr).timestamp, place_reverse_lt]
    rw [TableStore.fetch, select, mergeSort_descending (h.increasing.filter _), selected,
      List.map_take, List.map_reverse, beyond, ← List.filter_reverse,
      all _ (by rw [List.length_reverse, length_inOrder])]
    · rfl
    · intro r hr
      exact List.mem_of_mem_filter
        ((List.mergeSort_perm ..).mem_iff.1 (List.mem_reverse.1 (List.mem_of_mem_take hr)))

end TableStore

/-! ## Either store -/

namespace Store

/-- What a store takes in of a batch. -/
def accepted (s : Store) (ms : List Message) : List Message :=
  match s with
  | ordered _ => ms.takeWhile (·.isData)
  | table _ => if (TableStore.encodeAll ms).isOk then ms else []

/-- The store has been filled with this log, batch by batch. No store holds more events than can be
numbered by signed 64-bit numbers. -/
inductive Holds : Store → List Message → Prop
  | memory : Holds memory []
  | database : Holds database []
  | append {s : Store} {log : List Message} (ms : List Message) (h : Holds s log)
      (room : (log ++ s.accepted ms).length ≤ TableStore.maxLimit) :
      Holds (s.appendBatch ms).1 (log ++ s.accepted ms)

/-- The events in a store are a log, kept in the way of the store. -/
def Keeps (s : Store) (log : List Message) : Prop :=
  match s with
  | ordered s => s.Keeps log
  | table s => s.Keeps log

theorem Holds.keeps {s : Store} {log : List Message} (h : s.Holds log) :
    s.Keeps log ∧ log.length ≤ TableStore.maxLimit := by
  induction h with
  | memory => exact ⟨⟨by simp [OrderedStore.empty, inOrder], by simp [OrderedStore.empty]⟩, by simp⟩
  | database => exact ⟨⟨rfl, by simp [TableStore.empty], .nil, by simp [TableStore.empty]⟩, by simp⟩
  | @append s log ms h room ih =>
    refine ⟨?_, room⟩
    rcases s with s | s
    · exact ih.1.appendBatch
    · rcases hms : TableStore.encodeAll ms with e | rows
      · simpa only [appendBatch, TableStore.appendBatch, accepted, hms, Except.isOk, Except.toBool,
          Bool.false_eq_true, if_false, List.append_nil] using ih.1
      · simpa only [appendBatch, TableStore.appendBatch, accepted, hms, Except.isOk, Except.toBool,
          if_true, Keeps] using TableStore.Keeps.insertAll ih.1 hms

theorem Holds.count_eq {s : Store} {log : List Message} (h : s.Holds log) :
    s.count = log.length := by
  have keeps := h.keeps.1
  rcases s with s | s
  · have := congrArg List.length (OrderedStore.Keeps.events keeps)
    rwa [List.length_map, length_inOrder] at this
  · have := congrArg List.length (TableStore.Keeps.events keeps)
    rwa [List.length_map] at this

theorem isData_of_appendBatch : ∀ {ms : List Message} {s : OrderedStore},
    (s.appendBatch ms).2 = none → ∀ m ∈ ms, m.isData = true
  | [], _, _ => nofun
  | m :: ms, s, h => by
    rw [OrderedStore.appendBatch, OrderedStore.append] at h
    split_ifs at h with hd
    exact List.forall_mem_cons.2 ⟨hd, isData_of_appendBatch h⟩

theorem appendBatch_isData : ∀ {ms : List Message} (s : OrderedStore),
    (∀ m ∈ ms, m.isData = true) → (s.appendBatch ms).2 = none
  | [], _, _ => rfl
  | m :: ms, s, h => by
    rw [List.forall_mem_cons] at h
    simp only [OrderedStore.appendBatch, OrderedStore.append, h.1, if_true,
      appendBatch_isData _ h.2]

theorem accepted_of_appendBatch {s : Store} {ms : List Message} (h : (s.appendBatch ms).2 = none) :
    s.accepted ms = ms := by
  rcases s with s | s
  · exact List.takeWhile_eq_self_iff.2 (isData_of_appendBatch h)
  · rcases hms : TableStore.encodeAll ms with e | rows
    · simp only [appendBatch, TableStore.appendBatch, hms, reduceCtorEq] at h
    · simp only [accepted, hms, Except.isOk, Except.toBool, if_true]

/-- A batch that was not refused is in the log. -/
theorem Holds.appendAll {s : Store} {log ms : List Message} (h : s.Holds log)
    (ok : (s.appendBatch ms).2 = none) (room : s.count + ms.length ≤ TableStore.maxLimit) :
    (s.appendBatch ms).1.Holds (log ++ ms) := by
  have all := accepted_of_appendBatch ok
  rw [h.count_eq] at room
  have := h.append ms (by rw [all, List.length_append]; exact room)
  rwa [all] at this

/-- A store serves its log: the events on the far side of a time, in the order of play. -/
theorem Holds.fetch {s : Store} {log : List Message} (h : s.Holds log) (t : Int64) (d : Direction)
    (n : Nat) : s.fetch t d n =
      .ok (((history d log).filter fun m => d.place t < d.place m.timestamp).take n) := by
  obtain ⟨keeps, room⟩ := h.keeps
  rcases s with s | s
  · exact congrArg Except.ok (OrderedStore.Keeps.fetch keeps t d n)
  · exact TableStore.Keeps.fetch keeps room t d n

end Store

end EventRelay
