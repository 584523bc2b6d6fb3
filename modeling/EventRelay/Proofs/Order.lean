import EventRelay.Message
import EventRelay.Store.Common
import Mathlib.Tactic.SplitIfs
import Mathlib.Data.List.Pairwise

/-!
# The order of play

Events are played in the order of their times, those of one time in the order in which they came,
and in reverse in exactly the reverse of that order. Both orders are treated as one: a direction
gives each time a place, and play goes up the places.

A list in order is known by the events it has at each time: two lists in order with the same
events, in the same sequence, at every time are the same list. So a sorted list is never taken
apart by how it was sorted.
-/

namespace EventRelay

namespace Direction

/-- Where a time stands in the order of play. -/
def place : Direction → Int64 → Int
  | forward, t => t.toInt
  | reverse, t => -t.toInt

theorem place_inj {d : Direction} {s t : Int64} : d.place s = d.place t ↔ s = t := by
  cases d
  · exact Int64.toInt_inj
  · simp only [place, Int.neg_inj]
    exact Int64.toInt_inj

theorem place_forward_le {s t : Int64} : forward.place s ≤ forward.place t ↔ s ≤ t :=
  Int64.le_iff_toInt_le.symm

theorem place_forward_lt {s t : Int64} : forward.place s < forward.place t ↔ s < t :=
  Int64.lt_iff_toInt_lt.symm

theorem place_reverse_le {s t : Int64} : reverse.place s ≤ reverse.place t ↔ t ≤ s := by
  simp only [place, Int64.le_iff_toInt_le]
  omega

theorem place_reverse_lt {s t : Int64} : reverse.place s < reverse.place t ↔ t < s := by
  simp only [place, Int64.lt_iff_toInt_lt]
  omega

/-- Events in the order of play. -/
def Ordered (d : Direction) (ms : List Message) : Prop :=
  ms.Pairwise fun a b => d.place a.timestamp ≤ d.place b.timestamp

instance (d : Direction) : DecidablePred d.Ordered := fun ms =>
  inferInstanceAs (Decidable (ms.Pairwise _))

end Direction

open Direction

/-- The events of one time. -/
def eventsAt (t : Int64) (ms : List Message) : List Message := ms.filter (·.timestamp == t)

theorem mem_eventsAt {t : Int64} {ms : List Message} {m : Message} :
    m ∈ eventsAt t ms ↔ m ∈ ms ∧ m.timestamp = t := by
  simp [eventsAt]

theorem eventsAt_append (t : Int64) (xs ys : List Message) :
    eventsAt t (xs ++ ys) = eventsAt t xs ++ eventsAt t ys := List.filter_append ..

theorem eventsAt_cons (t : Int64) (m : Message) (ms : List Message) :
    eventsAt t (m :: ms) = if m.timestamp = t then m :: eventsAt t ms else eventsAt t ms := by
  simp [eventsAt, List.filter_cons]

theorem eventsAt_reverse (t : Int64) (ms : List Message) :
    eventsAt t ms.reverse = (eventsAt t ms).reverse := List.filter_reverse ..

theorem eventsAt_filter (t : Int64) (p : Message → Bool) (ms : List Message) :
    eventsAt t (ms.filter p) = (eventsAt t ms).filter p := by
  simp only [eventsAt, List.filter_filter, Bool.and_comm]

/-- Events of one time pass a test of times together. -/
theorem filter_eventsAt (t : Int64) (p : Int64 → Bool) (ms : List Message) :
    (eventsAt t ms).filter (fun m => p m.timestamp) = if p t then eventsAt t ms else [] := by
  split_ifs with hp
  · refine List.filter_eq_self.2 fun m hm => ?_
    rwa [(mem_eventsAt.1 hm).2]
  · refine List.filter_eq_nil_iff.2 fun m hm => ?_
    rwa [(mem_eventsAt.1 hm).2]

theorem eventsAt_of_forall {s : Int64} {ms : List Message} (h : ∀ m ∈ ms, m.timestamp = s)
    (t : Int64) : eventsAt t ms = if t = s then ms else [] := by
  split_ifs with hs
  · exact List.filter_eq_self.2 fun m hm => beq_iff_eq.2 ((h m hm).trans hs.symm)
  · refine List.filter_eq_nil_iff.2 fun m hm => ?_
    rw [h m hm, beq_iff_eq]
    exact fun e => hs e.symm

/-! ## Lists in order -/

/-- What holds of no event unless it holds of all before it holds of a first part. -/
theorem takeWhile_eq_filter {α : Type} {p : α → Bool} : ∀ {xs : List α},
    xs.Pairwise (fun a b => p b = true → p a = true) → xs.takeWhile p = xs.filter p
  | [], _ => rfl
  | x :: xs, h => by
    rw [List.takeWhile_cons, List.filter_cons]
    split_ifs with hp
    · rw [takeWhile_eq_filter h.of_cons]
    · exact (List.filter_eq_nil_iff.2 fun y hy hpy => hp (List.rel_of_pairwise_cons h hy hpy)).symm

theorem dropWhile_eq_filter {α : Type} {p : α → Bool} : ∀ {xs : List α},
    xs.Pairwise (fun a b => p b = true → p a = true) → xs.dropWhile p = xs.filter fun a => !p a
  | [], _ => rfl
  | x :: xs, h => by
    rw [List.dropWhile_cons, List.filter_cons]
    by_cases hp : p x = true
    · simp only [hp, if_true, dropWhile_eq_filter h.of_cons, Bool.not_true, Bool.false_eq_true,
        if_false]
    · have rest : xs.filter (fun a => !p a) = xs := by
        refine List.filter_eq_self.2 fun y hy => ?_
        rw [Bool.not_eq_true', ← Bool.not_eq_true]
        exact fun hpy => hp (List.rel_of_pairwise_cons h hy hpy)
      simp only [hp, Bool.not_false, if_true, rest, Bool.false_eq_true, if_false]

section Ordered

variable {d : Direction} {xs ys : List Message}

theorem Direction.Ordered.filter (h : d.Ordered xs) (p : Message → Bool) :
    d.Ordered (xs.filter p) := List.Pairwise.filter p h

theorem Direction.Ordered.drop (h : d.Ordered xs) (n : Nat) : d.Ordered (xs.drop n) :=
  List.Pairwise.drop h

/-- From a time on, the events of that time come first. -/
theorem Direction.Ordered.filter_le (h : d.Ordered xs) (t : Int64) :
    xs.filter (fun m => d.place t ≤ d.place m.timestamp) =
      eventsAt t xs ++ xs.filter fun m => d.place t < d.place m.timestamp := by
  have split : (xs.filter fun m => d.place t ≤ d.place m.timestamp).Pairwise fun a b =>
      decide (d.place b.timestamp ≤ d.place t) = true →
        decide (d.place a.timestamp ≤ d.place t) = true :=
    (h.filter _).imp fun {a b} hab hb => by
      rw [decide_eq_true_eq] at hb ⊢
      omega
  rw [← List.takeWhile_append_dropWhile (p := fun m => d.place m.timestamp ≤ d.place t)
      (l := xs.filter _), takeWhile_eq_filter split, dropWhile_eq_filter split, List.filter_filter,
    List.filter_filter, eventsAt]
  congr 1
  · refine List.filter_congr fun m _ => ?_
    rw [Bool.eq_iff_iff, Bool.and_eq_true, decide_eq_true_eq, decide_eq_true_eq, beq_iff_eq,
      ← place_inj (d := d)]
    omega
  · refine List.filter_congr fun m _ => ?_
    rw [Bool.eq_iff_iff, Bool.and_eq_true, decide_eq_true_eq, decide_eq_true_eq, Bool.not_eq_true',
      decide_eq_false_iff_not]
    omega

/-- What comes first comes first at its own time. -/
theorem head_eventsAt {x : Message} (h : d.Ordered ys)
    (same : ∀ t, eventsAt t (x :: xs) = eventsAt t ys) (first : ∀ y ∈ ys,
      d.place x.timestamp ≤ d.place y.timestamp) : ∃ rest, ys = x :: rest := by
  have hx : x ∈ ys := (mem_eventsAt.1 (same x.timestamp ▸ mem_eventsAt.2 ⟨by simp, rfl⟩)).1
  rcases ys with _ | ⟨y, rest⟩
  · cases hx
  · have hy : d.place y.timestamp ≤ d.place x.timestamp := by
      rcases List.mem_cons.1 hx with rfl | hx
      · exact Int.le_refl _
      · exact List.rel_of_pairwise_cons h hx
    have ht : y.timestamp = x.timestamp :=
      Direction.place_inj.1 (Int.le_antisymm hy (first y (by simp)))
    have := same x.timestamp
    rw [eventsAt_cons, eventsAt_cons, if_pos rfl, if_pos ht, List.cons.injEq] at this
    exact ⟨rest, by rw [this.1]⟩

/-- A list in order is known by what it has at each time. -/
theorem eq_of_eventsAt : ∀ {xs ys : List Message}, d.Ordered xs → d.Ordered ys →
    (∀ t, eventsAt t xs = eventsAt t ys) → xs = ys
  | [], ys, _, _, same => by
    rcases ys with _ | ⟨y, ys⟩
    · rfl
    · have := same y.timestamp
      simp [eventsAt] at this
  | x :: xs, ys, hx, hy, same => by
    have first : ∀ y ∈ ys, d.place x.timestamp ≤ d.place y.timestamp := by
      intro y hm
      have : y ∈ x :: xs :=
        (mem_eventsAt.1 (same y.timestamp ▸ mem_eventsAt.2 ⟨hm, rfl⟩)).1
      rcases List.mem_cons.1 this with rfl | h
      · exact Int.le_refl _
      · exact List.rel_of_pairwise_cons hx h
    obtain ⟨rest, rfl⟩ := head_eventsAt hy same first
    have : xs = rest := by
      refine eq_of_eventsAt hx.of_cons hy.of_cons fun t => ?_
      have := same t
      simp only [eventsAt_cons] at this
      split_ifs at this
      · exact List.cons.inj this |>.2
      · exact this
    rw [this]

end Ordered

/-! ## Sorting -/

/-- What is in order already keeps its sequence when the rest is sorted around it. -/
theorem filter_mergeSort {α : Type} {le : α → α → Bool}
    (trans : ∀ a b c, le a b = true → le b c = true → le a c = true)
    (total : ∀ a b, (le a b || le b a) = true) {xs : List α} {p : α → Bool}
    (h : (xs.filter p).Pairwise fun a b => le a b = true) :
    (xs.mergeSort le).filter p = xs.filter p := by
  have sub : (xs.filter p).Sublist ((xs.mergeSort le).filter p) := by
    have := (List.sublist_mergeSort trans total h List.filter_sublist).filter p
    simpa only [List.filter_filter, Bool.and_self] using this
  exact (sub.eq_of_length ((List.mergeSort_perm xs le).filter p).length_eq.symm).symm

/-- The events of a log in the order of their times, those of one time as they came. -/
def inOrder (log : List Message) : List Message :=
  log.mergeSort fun a b => a.timestamp ≤ b.timestamp

section InOrder

variable {log : List Message}

theorem le_timestamp_trans (a b c : Message) (hab : decide (a.timestamp ≤ b.timestamp) = true)
    (hbc : decide (b.timestamp ≤ c.timestamp) = true) :
    decide (a.timestamp ≤ c.timestamp) = true := by
  simp only [decide_eq_true_eq] at hab hbc ⊢
  exact Int64.le_trans hab hbc

theorem le_timestamp_total (a b : Message) :
    (decide (a.timestamp ≤ b.timestamp) || decide (b.timestamp ≤ a.timestamp)) = true := by
  simpa using Int64.le_total _ _

theorem inOrder_perm (log : List Message) : (inOrder log).Perm log := List.mergeSort_perm ..

theorem mem_inOrder {m : Message} : m ∈ inOrder log ↔ m ∈ log := (inOrder_perm log).mem_iff

theorem length_inOrder (log : List Message) : (inOrder log).length = log.length :=
  (inOrder_perm log).length_eq

theorem inOrder_ordered (log : List Message) : forward.Ordered (inOrder log) :=
  (List.pairwise_mergeSort le_timestamp_trans le_timestamp_total log).imp fun h =>
    place_forward_le.2 (by simpa using h)

theorem eventsAt_inOrder (t : Int64) (log : List Message) :
    eventsAt t (inOrder log) = eventsAt t log := by
  refine filter_mergeSort le_timestamp_trans le_timestamp_total ?_
  refine List.pairwise_of_forall_mem_list fun a ha b hb => ?_
  rw [(mem_eventsAt.1 ha).2, (mem_eventsAt.1 hb).2]
  simp

theorem eq_inOrder {xs : List Message} (h : forward.Ordered xs)
    (same : ∀ t, eventsAt t xs = eventsAt t log) : xs = inOrder log :=
  eq_of_eventsAt h (inOrder_ordered log) fun t => by rw [same, eventsAt_inOrder]

theorem inOrder_of_ordered (h : forward.Ordered log) : inOrder log = log :=
  (eq_inOrder h fun _ => rfl).symm

theorem inOrder_filter (p : Message → Bool) (log : List Message) :
    inOrder (log.filter p) = (inOrder log).filter p :=
  (eq_inOrder ((inOrder_ordered log).filter p) fun t => by
    rw [eventsAt_filter, eventsAt_filter, eventsAt_inOrder]).symm

end InOrder

/-- The events of a log in the order of play. -/
def history (d : Direction) (log : List Message) : List Message :=
  match d with
  | .forward => inOrder log
  | .reverse => (inOrder log).reverse

theorem history_ordered (d : Direction) (log : List Message) : d.Ordered (history d log) := by
  cases d
  · exact inOrder_ordered log
  · refine List.pairwise_reverse.2 ((inOrder_ordered log).imp fun h => ?_)
    exact place_reverse_le.2 (place_forward_le.1 h)

theorem mem_history {d : Direction} {log : List Message} {m : Message} :
    m ∈ history d log ↔ m ∈ log := by
  cases d <;> simp [history, mem_inOrder]

end EventRelay
