import EventRelay.Proofs.Contents
import EventRelay.Replay.Cursor
import Mathlib.Data.List.TakeWhile

/-!
# What lies ahead of a cursor

A cursor splits history in two, the events taken and those ahead. What lies ahead is what the store
serves from the cursor's origin, less the events at its time that have been taken. A fetch takes the
first events ahead, and the cursor after it has the others ahead of it, whether the fetch ends
between two times or in the middle of the events of one.

Origins lie next to the time of the cursor. An event at the very first or last time could not be
told from none there, so times are strictly between the two.
-/

namespace EventRelay

open Direction

/-- No event of a log is at the least or the greatest time. -/
def Bounded (log : List Message) : Prop :=
  ∀ m ∈ log, Int64.minValue < m.timestamp ∧ m.timestamp < Int64.maxValue

instance : DecidablePred Bounded := fun log => inferInstanceAs (Decidable (∀ m ∈ log, _))

namespace Cursor

theorem toInt_before (t : Int64) : (before t).toInt = max (t.toInt - 1) Int64.minValue.toInt := by
  have hmin := t.minValue_le_toInt
  have hmax := t.toInt_lt
  have hm : Int64.minValue.toInt = -9223372036854775808 := rfl
  unfold before
  split_ifs with h
  · subst h
    omega
  · have hne : t.toInt ≠ Int64.minValue.toInt := fun e => h (Int64.toInt_inj.1 e)
    have ht : (t - 1).toInt = t.toInt - 1 := by
      rw [Int64.toInt_sub, show (1 : Int64).toInt = 1 from rfl]
      exact Int.bmod_eq_of_le (by omega) (by omega)
    omega

theorem toInt_after (t : Int64) : (after t).toInt = min (t.toInt + 1) Int64.maxValue.toInt := by
  have hmin := t.minValue_le_toInt
  have hmax := t.toInt_le
  have hm : Int64.minValue.toInt = -9223372036854775808 := rfl
  have hM : Int64.maxValue.toInt = 9223372036854775807 := rfl
  unfold after
  split_ifs with h
  · subst h
    omega
  · have hne : t.toInt ≠ Int64.maxValue.toInt := fun e => h (Int64.toInt_inj.1 e)
    have ht : (t + 1).toInt = t.toInt + 1 := by
      rw [Int64.toInt_add, show (1 : Int64).toInt = 1 from rfl]
      exact Int.bmod_eq_of_le (by omega) (by omega)
    omega

section Ahead

variable (c : Cursor) (d : Direction) (ms : List Message)

/-- The events at the time of the cursor are fetched: some of them are to be taken or skipped. -/
def refetches : Bool := c.inclusive || c.seen > 0

/-- What the store serves from the origin of the cursor. -/
def reach : List Message := ms.filter fun m => d.place (c.origin d) < d.place m.timestamp

/-- The events that have not been taken. -/
def ahead : List Message := (c.reach d ms).drop c.skip

/-- The events that count as taken at the time of the cursor are in the log. -/
def Settled : Prop := c.skip ≤ (eventsAt c.last ms).length

/-- If events at the time of the cursor are to be skipped, the store serves that time. -/
def Sharp : Prop := 0 < c.skip → d.place (c.origin d) < d.place c.last

end Ahead

variable {c : Cursor} {d : Direction} {log : List Message}

theorem origin_lt {t : Int64} (hmin : Int64.minValue < t) (hmax : t < Int64.maxValue) :
    d.place (c.origin d) < d.place t ↔
      if c.refetches then d.place c.last ≤ d.place t else d.place c.last < d.place t := by
  rw [Int64.lt_iff_toInt_lt] at hmin hmax
  unfold origin refetches
  split_ifs with h
  · rcases d with _ | _
    · simp only [place, toInt_before]
      omega
    · simp only [place, toInt_after]
      omega
  · rfl

theorem reach_eq (bounded : Bounded log) : c.reach d (history d log) =
    if c.refetches then (history d log).filter fun m => d.place c.last ≤ d.place m.timestamp
    else (history d log).filter fun m => d.place c.last < d.place m.timestamp := by
  have lt {m : Message} (hm : m ∈ history d log) :=
    origin_lt (c := c) (d := d) (bounded m (mem_history.1 hm)).1 (bounded m (mem_history.1 hm)).2
  split_ifs with h <;> refine List.filter_congr fun m hm => decide_eq_decide.2 ?_
  · rw [lt hm, if_pos h]
  · rw [lt hm, if_neg h]

theorem ahead_ordered : d.Ordered (c.ahead d (history d log)) :=
  ((history_ordered d log).filter _).drop _

theorem length_eventsAt_history (t : Int64) :
    (eventsAt t (history d log)).length = (eventsAt t log).length := by
  cases d
  · rw [history, eventsAt_inOrder]
  · rw [history, eventsAt_reverse, List.length_reverse, eventsAt_inOrder]

theorem refetches_of_skip (h : 0 < c.skip) : c.inclusive = false ∧ c.skip = c.seen ∧
    c.refetches = true := by
  unfold skip at h ⊢
  split_ifs at h ⊢ with hi
  · omega
  · exact ⟨by simpa using hi, rfl, by simp [refetches, h]⟩

theorem origin_of_refetches (h : c.refetches = true) : c.origin d =
    match d with
    | .forward => before c.last
    | .reverse => after c.last := if_pos h

/-- What is ahead of a cursor is not before it. -/
theorem place_le_of_mem_ahead {m : Message} (hm : m ∈ c.ahead d (history d log)) :
    d.place c.last ≤ d.place m.timestamp := by
  have reached := of_decide_eq_true (List.mem_filter.1 (List.mem_of_mem_drop hm)).2
  by_cases refetches : c.refetches = true
  · have hmin := c.last.minValue_le_toInt
    have hmax := c.last.toInt_le
    rw [origin_of_refetches refetches] at reached
    rcases d with _ | _
    · simp only [place, toInt_before] at reached ⊢
      omega
    · simp only [place, toInt_after] at reached ⊢
      omega
  · have here : c.origin d = c.last := if_neg refetches
    rw [here] at reached
    exact Int.le_of_lt reached

theorem place_origin_lt_iff (refetches : c.refetches = true)
    (h : d.place (c.origin d) < d.place c.last) (t : Int64) :
    d.place (c.origin d) < d.place t ↔ d.place c.last ≤ d.place t := by
  rw [origin_of_refetches refetches] at h ⊢
  rcases d with _ | _
  · simp only [place, toInt_before] at h ⊢
    omega
  · simp only [place, toInt_after] at h ⊢
    omega

theorem reach_of_skip (sharp : c.Sharp d) (h : 0 < c.skip) (ms : List Message) :
    c.reach d ms = ms.filter fun m => d.place c.last ≤ d.place m.timestamp :=
  List.filter_congr fun m _ => decide_eq_decide.2
    (place_origin_lt_iff (refetches_of_skip h).2.2 (sharp h) m.timestamp)

/-- Of a log without extreme times an event at one can have been taken. -/
theorem Settled.sharp (settled : c.Settled log) (bounded : Bounded log) : c.Sharp d := by
  intro h
  obtain ⟨m, hm⟩ := List.exists_mem_of_length_pos (Nat.lt_of_lt_of_le h settled)
  obtain ⟨hm, ht⟩ := mem_eventsAt.1 hm
  rw [← ht, origin_lt (bounded m hm).1 (bounded m hm).2, if_pos (refetches_of_skip h).2.2, ht]

/-- The events to be skipped are the first ones served, and all at the time of the cursor. -/
theorem timestamp_of_mem_skipped (sharp : c.Sharp d) (settled : c.Settled log) {m : Message}
    (hm : m ∈ (c.reach d (history d log)).take c.skip) : m.timestamp = c.last := by
  have hskip : 0 < c.skip := by
    by_contra h
    rw [Nat.eq_zero_of_not_pos h, List.take_zero] at hm
    cases hm
  rw [reach_of_skip sharp hskip, (history_ordered d log).filter_le,
    List.take_append_of_le_length (by rw [length_eventsAt_history]; exact settled)] at hm
  exact (mem_eventsAt.1 (List.mem_of_mem_take hm)).2

theorem dropTaken_reach (sharp : c.Sharp d) (settled : c.Settled log) (size : Nat) :
    c.dropTaken ((c.reach d (history d log)).take (size + c.skip)) =
      (c.ahead d (history d log)).take size := by
  have all : (((c.reach d (history d log)).take (size + c.skip)).take c.skip).takeWhile
      (fun m => m.timestamp == c.last) = (c.reach d (history d log)).take c.skip := by
    rw [List.take_take, Nat.min_eq_left (by omega)]
    refine List.takeWhile_eq_self_iff.2 fun m hm => ?_
    exact beq_iff_eq.2 (timestamp_of_mem_skipped sharp settled hm)
  rw [dropTaken, all, List.length_take, ahead]
  rcases Nat.le_total c.skip (c.reach d (history d log)).length with h | h
  · rw [Nat.min_eq_left h, List.drop_take, Nat.add_sub_cancel]
  · rw [Nat.min_eq_right h, List.drop_of_length_le h, List.take_nil]
    exact List.drop_of_length_le (List.length_take_le' _ _)

/-- A fetch takes the first events ahead. -/
theorem fetch_eq {archive : Archive} (holds : archive.store.Holds log)
    (up : archive.failing .fetch = false) (sharp : c.Sharp d) (settled : c.Settled log)
    (size : Nat) : c.fetch archive d size =
      .ok ((c.ahead d (history d log)).take size,
        c.advance ((c.ahead d (history d log)).take size)) := by
  have served : archive.fetch (c.origin d) d (size + c.skip) =
      .ok ((c.reach d (history d log)).take (size + c.skip)) := by
    simp only [Archive.fetch, up, Bool.false_eq_true, if_false, holds.fetch, reach]
  simp only [Cursor.fetch, served, dropTaken_reach sharp settled]

/-! ## Moving on -/

/-- In order, the events at the last time are the last events. -/
theorem trailing_eq {xs : List Message} (h : d.Ordered xs) {t : Int64}
    (last : ∀ m ∈ xs, d.place m.timestamp ≤ d.place t) :
    trailing xs t = (xs.filter fun m => d.place t ≤ d.place m.timestamp).length := by
  have latest : ∀ m ∈ xs, (m.timestamp == t) = decide (d.place t ≤ d.place m.timestamp) := by
    intro m hm
    have := last m hm
    rw [Bool.eq_iff_iff, beq_iff_eq, decide_eq_true_eq, ← place_inj (d := d)]
    omega
  have up : xs.reverse.Pairwise fun a b =>
      (b.timestamp == t) = true → (a.timestamp == t) = true := by
    refine List.pairwise_reverse.2 (List.Pairwise.imp_of_mem ?_ h)
    intro a b ha hb hab hat
    rw [latest a ha, decide_eq_true_eq] at hat
    rw [latest b hb, decide_eq_true_eq]
    omega
  rw [trailing, takeWhile_eq_filter up, List.filter_reverse, List.length_reverse,
    List.filter_congr latest]

section Advance

variable {taken rest : List Message} {m : Message}

theorem advance_of_getLast? (hm : taken.getLast? = some m) : c.advance taken =
    { last := m.timestamp
      inclusive := false
      seen := if !c.inclusive && m.timestamp == c.last then c.seen + trailing taken m.timestamp
        else trailing taken m.timestamp } := by
  simp only [advance, hm]

theorem last_advance (hm : taken.getLast? = some m) : (c.advance taken).last = m.timestamp := by
  rw [advance_of_getLast? hm]

theorem trailing_pos (hm : taken.getLast? = some m) : 0 < trailing taken m.timestamp := by
  obtain ⟨xs, rfl⟩ := List.getLast?_eq_some_iff.1 hm
  rw [trailing, List.reverse_append, List.reverse_singleton, List.singleton_append,
    List.takeWhile_cons, if_pos (beq_self_eq_true _)]
  exact Nat.succ_pos _

theorem refetches_advance (hm : taken.getLast? = some m) : (c.advance taken).refetches = true := by
  have pos := trailing_pos hm
  rw [advance_of_getLast? hm, refetches, Bool.false_or, decide_eq_true_eq]
  dsimp only
  split_ifs <;> omega

theorem skip_advance_pos (hm : taken.getLast? = some m) : 0 < (c.advance taken).skip := by
  have pos := trailing_pos hm
  rw [advance_of_getLast? hm, skip]
  simp only [Bool.false_eq_true, if_false]
  split_ifs <;> omega

variable (split : c.ahead d (history d log) = taken ++ rest) (hm : taken.getLast? = some m)

include split hm

theorem place_le_of_mem_taken {x : Message} (hx : x ∈ taken) :
    d.place x.timestamp ≤ d.place m.timestamp := by
  obtain ⟨xs, rfl⟩ := List.getLast?_eq_some_iff.1 hm
  have ordered : d.Ordered (xs ++ [m] ++ rest) := split ▸ ahead_ordered
  rcases List.mem_append.1 hx with hx | hx
  · exact (List.pairwise_append.1 (List.pairwise_append.1 ordered).1).2.2 x hx m (by simp)
  · rw [List.mem_singleton.1 hx]

theorem place_le_of_mem_rest {x : Message} (hx : x ∈ rest) :
    d.place m.timestamp ≤ d.place x.timestamp := by
  have ordered : d.Ordered (taken ++ rest) := split ▸ ahead_ordered
  exact (List.pairwise_append.1 ordered).2.2 m (List.mem_of_getLast? hm) x hx

omit hm in
theorem reach_split : c.reach d (history d log) =
    (c.reach d (history d log)).take c.skip ++ (taken ++ rest) := by
  rw [← split, ahead, List.take_append_drop]

theorem place_origin_lt : d.place (c.origin d) < d.place m.timestamp := by
  have reached : m ∈ c.reach d (history d log) := by
    rw [reach_split split]
    simp [List.mem_of_getLast? hm]
  exact of_decide_eq_true (List.mem_filter.1 reached).2

/-- An event that was served is not at the time that nothing is served after. -/
theorem sharp_advance : (c.advance taken).Sharp d := by
  intro _
  have reached := place_origin_lt split hm
  have hmin := (c.origin d).minValue_le_toInt
  have hmax := (c.origin d).toInt_le
  have hm' : Int64.minValue.toInt = -9223372036854775808 := rfl
  have hM : Int64.maxValue.toInt = 9223372036854775807 := rfl
  rw [origin_of_refetches (refetches_advance hm), last_advance hm]
  rcases d with _ | _
  · simp only [place, toInt_before] at reached ⊢
    omega
  · simp only [place, toInt_after] at reached ⊢
    omega

theorem reach_advance : (c.advance taken).reach d (history d log) =
    (c.reach d (history d log)).filter fun x => d.place m.timestamp ≤ d.place x.timestamp := by
  have reached := place_origin_lt split hm
  rw [reach_of_skip (sharp_advance split hm) (skip_advance_pos hm), last_advance hm, reach,
    List.filter_filter]
  refine List.filter_congr fun x _ => ?_
  rw [Bool.eq_iff_iff, Bool.and_eq_true, decide_eq_true_eq, decide_eq_true_eq]
  omega

variable (sharp : c.Sharp d) (settled : c.Settled log)

include sharp settled

theorem length_skipped : (((c.reach d (history d log)).take c.skip).filter
    fun x => d.place m.timestamp ≤ d.place x.timestamp).length =
      if !c.inclusive && m.timestamp == c.last then c.seen else 0 := by
  by_cases hskip : 0 < c.skip
  · obtain ⟨hi, hseen, hr⟩ := refetches_of_skip hskip
    have same {x : Message} := timestamp_of_mem_skipped (m := x) sharp settled
    have within : d.place c.last ≤ d.place m.timestamp :=
      (place_origin_lt_iff hr (sharp hskip) _).1 (place_origin_lt split hm)
    by_cases hl : m.timestamp = c.last
    · have long : c.skip ≤ (c.reach d (history d log)).length := by
        rw [reach_of_skip sharp hskip, (history_ordered d log).filter_le, List.length_append,
          length_eventsAt_history]
        exact Nat.le_add_right_of_le settled
      rw [List.filter_eq_self.2 fun x hx => by rw [same hx, hl]; simp, List.length_take,
        Nat.min_eq_left long, hseen, hi, hl, beq_self_eq_true]
      rfl
    · have : d.place m.timestamp ≠ d.place c.last := fun e => hl (place_inj.1 e)
      rw [List.filter_eq_nil_iff.2 fun x hx => by rw [same hx, decide_eq_true_eq]; omega,
        beq_false_of_ne hl, Bool.and_false]
      rfl
  · have hskip : c.skip = 0 := Nat.eq_zero_of_not_pos hskip
    rw [hskip, List.take_zero, List.filter_nil, List.length_nil]
    split_ifs with h
    · rw [skip] at hskip
      split_ifs at hskip with hi
      · simp [hi] at h
      · exact hskip.symm
    · rfl

/-- What the cursor counts after a fetch are the events from the last time on that were passed over
or taken. -/
theorem skip_advance : (c.advance taken).skip =
    (((c.reach d (history d log)).take c.skip ++ taken).filter
      fun x => d.place m.timestamp ≤ d.place x.timestamp).length := by
  have ordered : d.Ordered (taken ++ rest) := split ▸ ahead_ordered
  rw [List.filter_append, List.length_append, length_skipped split hm sharp settled,
    ← trailing_eq (List.pairwise_append.1 ordered).1 fun x hx => place_le_of_mem_taken split hm hx,
    advance_of_getLast? hm, skip]
  simp only [Bool.false_eq_true, if_false]
  split_ifs
  · rfl
  · omega

theorem settled_advance : (c.advance taken).Settled log := by
  have ordered : d.Ordered (c.reach d (history d log)) := (history_ordered d log).filter _
  rw [reach_split split] at ordered
  have upTo : ∀ x ∈ (c.reach d (history d log)).take c.skip ++ taken,
      decide (d.place m.timestamp ≤ d.place x.timestamp) = (x.timestamp == m.timestamp) := by
    intro x hx
    have : d.place x.timestamp ≤ d.place m.timestamp := by
      rcases List.mem_append.1 hx with hx | hx
      · exact (List.pairwise_append.1 ordered).2.2 x hx m (by simp [List.mem_of_getLast? hm])
      · exact place_le_of_mem_taken split hm hx
    rw [Bool.eq_iff_iff, decide_eq_true_eq, beq_iff_eq, ← place_inj (d := d)]
    omega
  have sub : ((c.reach d (history d log)).take c.skip ++ taken).Sublist (history d log) := by
    refine List.Sublist.trans ?_ (List.filter_sublist (p := fun m =>
      d.place (c.origin d) < d.place m.timestamp))
    change List.Sublist _ (c.reach d (history d log))
    conv_rhs => rw [reach_split split, ← List.append_assoc]
    exact List.sublist_append_left ..
  rw [Settled, skip_advance split hm sharp settled, last_advance hm,
    ← length_eventsAt_history (d := d), eventsAt, List.filter_congr upTo]
  exact (sub.filter _).length_le

/-- What is not taken stays ahead. -/
theorem ahead_advance : (c.advance taken).ahead d (history d log) = rest := by
  have later : rest.filter (fun x => d.place m.timestamp ≤ d.place x.timestamp) = rest :=
    List.filter_eq_self.2 fun x hx => decide_eq_true (place_le_of_mem_rest split hm hx)
  have reached : (c.reach d (history d log)).filter
      (fun x => d.place m.timestamp ≤ d.place x.timestamp) =
        (((c.reach d (history d log)).take c.skip ++ taken).filter
          fun x => d.place m.timestamp ≤ d.place x.timestamp) ++ rest := by
    conv_lhs => rw [reach_split split, ← List.append_assoc, List.filter_append, later]
  rw [ahead, reach_advance split hm, skip_advance split hm sharp settled, reached,
    List.drop_left]

end Advance

/-- After a fetch the events not taken by it lie ahead. -/
theorem fetch_spec {archive : Archive} (holds : archive.store.Holds log)
    (up : archive.failing .fetch = false) (sharp : c.Sharp d) (settled : c.Settled log)
    {size : Nat} (pos : 0 < size) : ∃ taken c', c.fetch archive d size = .ok (taken, c') ∧
      c.ahead d (history d log) = taken ++ c'.ahead d (history d log) ∧ c'.Settled log ∧
      c'.Sharp d ∧ (taken = [] → c.ahead d (history d log) = []) := by
  refine ⟨_, _, fetch_eq holds up sharp settled size, ?_⟩
  have split := (List.take_append_drop size (c.ahead d (history d log))).symm
  rcases hm : ((c.ahead d (history d log)).take size).getLast? with _ | m
  · have none : (c.ahead d (history d log)).take size = [] := List.getLast?_eq_none_iff.1 hm
    have all : c.ahead d (history d log) = [] := by
      rcases List.take_eq_nil_iff.1 none with h | h
      · omega
      · exact h
    simp only [none, advance, List.getLast?_nil, List.nil_append]
    exact ⟨trivial, settled, sharp, fun _ => all⟩
  · rw [ahead_advance split hm sharp settled]
    refine ⟨split, settled_advance split hm sharp settled, sharp_advance split hm, fun h => ?_⟩
    rw [h] at hm
    cases hm

/-! ## A log that grows -/

section Growth

variable {ms : List Message} (settled : c.Settled log)

include settled

theorem Settled.append (ms : List Message) : c.Settled (log ++ ms) := by
  rw [Settled, eventsAt_append, List.length_append]
  exact Nat.le_add_right_of_le settled

variable (bounded : Bounded log) (refetches : c.refetches = true)

include bounded refetches

/-- Ahead are the events at the time of the cursor that are not taken, and all later ones. -/
theorem eventsAt_ahead (t : Int64) : eventsAt t (c.ahead .forward (inOrder log)) =
    if t = c.last then (eventsAt t log).drop c.skip
    else if c.last < t then eventsAt t log else [] := by
  have whole : c.ahead .forward (inOrder log) = (eventsAt c.last log).drop c.skip ++
      (inOrder log).filter fun m => forward.place c.last < forward.place m.timestamp := by
    rw [ahead, show inOrder log = history .forward log from rfl, reach_eq bounded, if_pos refetches,
      history, (inOrder_ordered log).filter_le, eventsAt_inOrder,
      List.drop_append_of_le_length settled]
  have here : ∀ m ∈ (eventsAt c.last log).drop c.skip, m.timestamp = c.last := fun m hm =>
    (mem_eventsAt.1 (List.mem_of_mem_drop hm)).2
  rw [whole, eventsAt_append, eventsAt_of_forall here, eventsAt_filter, eventsAt_inOrder,
    filter_eventsAt t fun s => forward.place c.last < forward.place s]
  simp only [decide_eq_true_eq, place_forward_lt]
  split_ifs with hl hlt hlt
  · exact absurd hlt (hl ▸ Int64.lt_irrefl)
  · rw [hl, List.append_nil]
  · rw [List.nil_append]
  · rfl

/-- Events that come in join those ahead, unless they are behind the cursor. -/
theorem ahead_append (bounded' : Bounded ms) : c.ahead .forward (inOrder (log ++ ms)) =
    inOrder (c.ahead .forward (inOrder log) ++ ms.filter fun m => c.last ≤ m.timestamp) := by
  have both : Bounded (log ++ ms) := fun m hm =>
    (List.mem_append.1 hm).elim (bounded m) (bounded' m)
  refine eq_inOrder (ahead_ordered (d := .forward)) fun t => ?_
  rw [eventsAt_ahead (settled.append ms) both refetches, eventsAt_append, eventsAt_append,
    eventsAt_ahead settled bounded refetches, eventsAt_filter,
    filter_eventsAt t fun s => c.last ≤ s]
  simp only [decide_eq_true_eq]
  split_ifs with hl hle hlt hle hle
  · rw [hl, List.drop_append_of_le_length settled]
  · exact absurd (Int64.le_of_eq hl.symm) hle
  · rfl
  · exact absurd (Int64.le_of_lt hlt) hle
  · exact ((Int64.lt_or_eq_of_le hle).elim hlt fun e => hl e.symm).elim
  · rfl

end Growth

end Cursor

end EventRelay
