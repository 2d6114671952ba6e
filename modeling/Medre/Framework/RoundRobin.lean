import Medre.Framework.Dict

/-! # Queues that are served in turn

Every key has a queue, and the keys with something queued stand in a line: the first one gives
an element and goes to the end of the line unless its queue is then empty. -/

namespace Medre.Framework

open List

/-- A queue for each key, the line of the keys, and the number of elements. -/
structure RoundRobin (κ α : Type) where
  order : List κ
  queues : Dict κ (List α)
  total : ℕ

namespace RoundRobin

variable {κ α : Type}

def empty : RoundRobin κ α where
  order := []
  queues := .empty
  total := 0

variable [DecidableEq κ]

def queue (q : RoundRobin κ α) (k : κ) : List α := (q.queues.get? k).getD []

/-- `l` as the queue of `k`; an empty queue is not kept. -/
def withQueue (q : RoundRobin κ α) (k : κ) (l : List α) : Dict κ (List α) :=
  if l.isEmpty then q.queues.erase k else q.queues.set k l

/-- `a` at the end of the queue of `k`. -/
def push (q : RoundRobin κ α) (k : κ) (a : α) : RoundRobin κ α where
  order := if (q.queue k).isEmpty then q.order ++ [k] else q.order
  queues := q.queues.set k (q.queue k ++ [a])
  total := q.total + 1

/-- The first element of the first key in the line. A key without a queue only leaves
the line. -/
def next (q : RoundRobin κ α) : RoundRobin κ α × Option (κ × α) :=
  match q.order with
  | [] => (q, none)
  | k :: rest =>
    match q.queue k with
    | [] => ({ q with order := rest }, none)
    | a :: as =>
      ({ order := if as.isEmpty then rest else rest ++ [k]
         queues := q.withQueue k as
         total := q.total - 1 }, some (k, a))

/-- `a` taken out of the queue of `k`, if it is there. -/
def remove [DecidableEq α] (q : RoundRobin κ α) (k : κ) (a : α) : RoundRobin κ α × Bool :=
  if a ∈ q.queue k then
    ({ order := if ((q.queue k).erase a).isEmpty then q.order.filter (· ≠ k) else q.order
       queues := q.withQueue k ((q.queue k).erase a)
       total := q.total - 1 }, true)
  else (q, false)

/-- The line holds each key with a queue once, and the number of elements is right. -/
structure WF (q : RoundRobin κ α) : Prop where
  nodup : q.order.Nodup
  mem_order : ∀ k, k ∈ q.order ↔ q.queue k ≠ []
  total : q.total = q.queues.total List.length

/-- The keys that stand before `k`. -/
def ahead (q : RoundRobin κ α) (k : κ) : List κ := q.order.takeWhile (· ≠ k)

variable {q : RoundRobin κ α} {k k' : κ} {a : α} {l : List α}

@[simp] theorem queue_empty : (empty : RoundRobin κ α).queue k = [] := rfl

theorem WF.empty : (empty : RoundRobin κ α).WF where
  nodup := nodup_nil
  mem_order := fun k => by simp [RoundRobin.empty, queue]
  total := rfl

/-! ## The queues -/

theorem get?_withQueue : ((q.withQueue k l).get? k').getD [] =
    if k' = k then l else q.queue k' := by
  cases l with
  | nil =>
    show ((q.queues.erase k).get? k').getD [] = _
    rw [Dict.get?_erase]
    split <;> rfl
  | cons a as =>
    show ((q.queues.set k (a :: as)).get? k').getD [] = _
    rw [Dict.get?_set]
    split <;> rfl

theorem queue_push : (q.push k a).queue k' = if k' = k then q.queue k ++ [a] else q.queue k' := by
  show ((q.queues.set k (q.queue k ++ [a])).get? k').getD [] = _
  rw [Dict.get?_set]
  split <;> rfl

variable {rest : List κ} {as : List α}

/-- What `next` does when the line is right. -/
theorem next_eq (horder : q.order = k :: rest) (hqueue : q.queue k = a :: as) :
    q.next = ({ order := if as.isEmpty then rest else rest ++ [k]
                queues := q.withQueue k as
                total := q.total - 1 }, some (k, a)) := by
  unfold next
  rw [horder]
  simp only [hqueue]

theorem queue_next (horder : q.order = k :: rest) (hqueue : q.queue k = a :: as) :
    q.next.1.queue k' = if k' = k then as else q.queue k' := by
  rw [next_eq horder hqueue]
  exact get?_withQueue

theorem total_next (horder : q.order = k :: rest)
    (hqueue : q.queue k = a :: as) : q.next.1.total = q.total - 1 := by
  rw [next_eq horder hqueue]

theorem WF.next_cases (h : q.WF) :
    (q.order = [] ∧ q.next = (q, none)) ∨
      ∃ k rest a as, q.order = k :: rest ∧ q.queue k = a :: as ∧
        q.next = ({ order := if as.isEmpty then rest else rest ++ [k]
                    queues := q.withQueue k as
                    total := q.total - 1 }, some (k, a)) := by
  cases horder : q.order with
  | nil =>
    left
    refine ⟨rfl, ?_⟩
    unfold next
    rw [horder]
  | cons k rest =>
    right
    cases hqueue : q.queue k with
    | nil => exact absurd hqueue ((h.mem_order k).mp (horder ▸ mem_cons_self))
    | cons a as => exact ⟨k, rest, a, as, rfl, hqueue, next_eq horder hqueue⟩

/-! ## The line stays right -/

theorem length_queue : ((q.queues.get? k).map List.length).getD 0 = (q.queue k).length := by
  unfold queue
  cases q.queues.get? k <;> rfl

theorem total_withQueue :
    (q.withQueue k l).total List.length + (q.queue k).length =
      q.queues.total List.length + l.length := by
  cases l with
  | nil =>
    have h := Dict.total_erase (d := q.queues) (k := k) (f := List.length)
    rw [length_queue] at h
    exact h
  | cons a as =>
    have h := Dict.total_set (d := q.queues) (k := k) (v := a :: as) (f := List.length)
    rw [length_queue] at h
    exact h

theorem WF.push (h : q.WF) (k : κ) (a : α) : (q.push k a).WF := by
  have hmem := h.mem_order k
  refine ⟨?_, ?_, ?_⟩
  · show (if (q.queue k).isEmpty then q.order ++ [k] else q.order).Nodup
    split
    · rename_i hempty
      refine h.nodup.append (nodup_singleton k) (disjoint_singleton.mpr ?_)
      rw [hmem, not_not]
      exact isEmpty_iff.mp hempty
    · exact h.nodup
  · intro k'
    rw [queue_push]
    show k' ∈ (if (q.queue k).isEmpty then q.order ++ [k] else q.order) ↔ _
    by_cases hk : k' = k
    · subst hk
      simp only [if_true, ne_eq, append_eq_nil_iff, cons_ne_nil, and_false,
        not_false_eq_true, iff_true]
      split
      · exact mem_append_right _ (mem_singleton.mpr rfl)
      · rename_i hempty
        exact hmem.mpr fun heq => hempty (isEmpty_iff.mpr heq)
    · rw [if_neg hk, ← h.mem_order k']
      split
      · simp [hk]
      · exact Iff.rfl
  · have hset := Dict.total_set (d := q.queues) (k := k) (v := q.queue k ++ [a])
      (f := List.length)
    rw [length_queue, length_append, length_singleton] at hset
    have htotal := h.total
    show q.total + 1 = (q.queues.set k (q.queue k ++ [a])).total List.length
    omega

theorem WF.next (h : q.WF) : q.next.1.WF := by
  rcases h.next_cases with ⟨-, heq⟩ | ⟨k, rest, a, as, horder, hqueue, heq⟩
  · rw [heq]
    exact h
  have hnodup := h.nodup
  rw [horder, nodup_cons] at hnodup
  refine ⟨?_, ?_, ?_⟩
  · rw [heq]
    show (if as.isEmpty then rest else rest ++ [k]).Nodup
    split
    · exact hnodup.2
    · exact hnodup.2.append (nodup_singleton k) (disjoint_singleton.mpr hnodup.1)
  · intro k'
    rw [queue_next horder hqueue, heq]
    show k' ∈ (if as.isEmpty then rest else rest ++ [k]) ↔ _
    have hmem := h.mem_order k'
    rw [horder, mem_cons] at hmem
    by_cases hk : k' = k
    · subst hk
      cases as with
      | nil => simp [hnodup.1]
      | cons b bs => simp
    · rw [if_neg hk, ← hmem]
      split <;> simp [hk]
  · have hwith := total_withQueue (q := q) (k := k) (l := as)
    have htotal := h.total
    rw [hqueue, length_cons] at hwith
    rw [heq]
    show q.total - 1 = (q.withQueue k as).total List.length
    omega

section Remove

variable [DecidableEq α]

theorem remove_eq (ha : a ∈ q.queue k) :
    q.remove k a =
      ({ order := if ((q.queue k).erase a).isEmpty then q.order.filter (· ≠ k) else q.order
         queues := q.withQueue k ((q.queue k).erase a)
         total := q.total - 1 }, true) := if_pos ha

theorem remove_of_not_mem (ha : a ∉ q.queue k) : q.remove k a = (q, false) := if_neg ha

theorem queue_remove (ha : a ∈ q.queue k) :
    (q.remove k a).1.queue k' = if k' = k then (q.queue k).erase a else q.queue k' := by
  rw [remove_eq ha]
  exact get?_withQueue

theorem WF.remove (h : q.WF) (ha : a ∈ q.queue k) : (q.remove k a).1.WF := by
  refine ⟨?_, ?_, ?_⟩
  · rw [remove_eq ha]
    show (if ((q.queue k).erase a).isEmpty then q.order.filter (· ≠ k) else q.order).Nodup
    split
    · exact h.nodup.filter _
    · exact h.nodup
  · intro k'
    rw [queue_remove ha, remove_eq ha]
    show k' ∈ (if ((q.queue k).erase a).isEmpty then q.order.filter (· ≠ k) else q.order) ↔ _
    have hmem := h.mem_order k'
    by_cases hk : k' = k
    · subst hk
      rw [if_pos rfl]
      split
      · rename_i hempty
        simp [isEmpty_iff.mp hempty]
      · rename_i hempty
        rw [hmem]
        refine iff_of_true (ne_nil_of_mem ha) fun heq => hempty ?_
        rw [heq]
        rfl
    · rw [if_neg hk, ← hmem]
      split
      · simp [hk]
      · exact Iff.rfl
  · have hwith := total_withQueue (q := q) (k := k) (l := (q.queue k).erase a)
    have htotal := h.total
    have hlen := length_erase_of_mem ha
    have hpos := length_pos_of_mem ha
    rw [remove_eq ha]
    show q.total - 1 = (q.withQueue k ((q.queue k).erase a)).total List.length
    omega

end Remove

theorem WF.order_eq_nil_iff (h : q.WF) : q.order = [] ↔ q.total = 0 := by
  constructor
  · intro hnil
    rw [h.total, Dict.total, List.sum_eq_zero_iff_forall_eq_nat]
    intro n hn
    obtain ⟨⟨k, l⟩, hitem, rfl⟩ := mem_map.mp hn
    have hqueue : q.queue k = l := by
      rw [queue, Dict.mem_items.mp hitem]
      rfl
    have hempty : q.queue k = [] := by
      by_contra hne
      have hmem := (h.mem_order k).mpr hne
      rw [hnil] at hmem
      cases hmem
    rw [← hqueue, hempty]
    rfl
  · intro hzero
    refine eq_nil_iff_forall_not_mem.mpr fun k hk => ?_
    have hne := (h.mem_order k).mp hk
    have herase := Dict.total_erase (d := q.queues) (k := k) (f := List.length)
    rw [length_queue] at herase
    have hpos := length_pos_iff.mpr hne
    have htotal := h.total
    omega

theorem WF.total_of_single (h : q.WF) (hothers : ∀ k', k' ≠ k → q.queue k' = []) :
    q.total = (q.queue k).length := by
  have herase := Dict.total_erase (d := q.queues) (k := k) (f := List.length)
  have hzero : (q.queues.erase k).total List.length = 0 := by
    rw [Dict.total, List.sum_eq_zero_iff_forall_eq_nat]
    intro n hn
    obtain ⟨⟨k', l⟩, hitem, rfl⟩ := mem_map.mp hn
    have hget := Dict.mem_items.mp hitem
    rw [Dict.get?_erase] at hget
    split at hget
    · cases hget
    · rename_i hk
      have hqueue := hothers k' hk
      rw [queue, hget] at hqueue
      exact congrArg List.length hqueue
  rw [length_queue] at herase
  have htotal := h.total
  omega

/-! ## Those before a key -/

theorem takeWhile_append_of_mem {l m : List κ} (hk : k ∈ l) :
    (l ++ m).takeWhile (· ≠ k) = l.takeWhile (· ≠ k) := by
  induction l with
  | nil => exact absurd hk not_mem_nil
  | cons b l ih =>
    by_cases hb : b = k
    · simp [hb]
    · have hk' : k ∈ l := (mem_cons.mp hk).resolve_left (Ne.symm hb)
      simpa [hb] using ih hk'

theorem takeWhile_filter_sublist {p : κ → Bool} (hk : p k = true) (l : List κ) :
    ((l.filter p).takeWhile (· ≠ k)).Sublist (l.takeWhile (· ≠ k)) := by
  induction l with
  | nil => exact List.Sublist.refl _
  | cons b l ih =>
    by_cases hb : b = k
    · subst hb
      simp [hk]
    · by_cases hp : p b = true
      · simpa [hb, hp] using ih
      · simpa [hb, hp] using ih.cons b

theorem ahead_push (hk : k ∈ q.order) : (q.push k' a).ahead k = q.ahead k := by
  show List.takeWhile _ (if (q.queue k').isEmpty then q.order ++ [k'] else q.order) = _
  split
  · exact takeWhile_append_of_mem hk
  · rfl

theorem ahead_next (horder : q.order = k' :: rest)
    (hqueue : q.queue k' = a :: as) (hne : k' ≠ k) (hk : k ∈ q.order) :
    q.ahead k = k' :: q.next.1.ahead k := by
  have hrest : k ∈ rest := by
    rw [horder, mem_cons] at hk
    exact hk.resolve_left (Ne.symm hne)
  have hnext : q.next.1.ahead k = rest.takeWhile (· ≠ k) := by
    rw [next_eq horder hqueue]
    split
    · rfl
    · exact takeWhile_append_of_mem hrest
  rw [hnext, ahead, horder]
  simp [hne]

theorem ahead_remove [DecidableEq α] (hk : k ∈ (q.remove k' a).1.order) :
    ((q.remove k' a).1.ahead k).Sublist (q.ahead k) := by
  by_cases ha : a ∈ q.queue k'
  · rw [remove_eq ha] at hk ⊢
    split at hk
    · rw [if_pos ‹_›]
      exact takeWhile_filter_sublist (p := fun b => b ≠ k') (mem_filter.mp hk).2 q.order
    · rw [if_neg ‹_›]
      exact List.Sublist.refl _
  · rw [remove_of_not_mem ha]

end RoundRobin

end Medre.Framework
