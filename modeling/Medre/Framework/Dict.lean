import Mathlib.Algebra.Order.Ring.Int
import Mathlib.Data.List.Nodup
import Mathlib.Tactic.Common

/-! # Dictionaries in insertion order -/

namespace Medre.Framework

open List

theorem filter_map_fixed {α : Type} {f : α → α} {q : α → Bool} (hq : ∀ a, q (f a) = q a)
    (hf : ∀ a, q a = true → f a = a) {l : List α} : (l.map f).filter q = l.filter q := by
  have hcomp : q ∘ f = q := funext hq
  rw [filter_map, hcomp]
  calc (l.filter q).map f = (l.filter q).map id :=
        map_congr_left fun a ha => hf a (mem_filter.mp ha).2
    _ = l.filter q := map_id _

/-- A dictionary: its items, oldest key first. -/
structure Dict (α β : Type) where
  items : List (α × β)
  nodup : (items.map Prod.fst).Nodup

namespace Dict

variable {α β : Type}

def empty : Dict α β where
  items := []
  nodup := nodup_nil

def keys (d : Dict α β) : List α := d.items.map Prod.fst

/-- `while len(d) > n: d.pop(next(iter(d)))`. -/
def prune (d : Dict α β) (n : ℕ) : Dict α β where
  items := d.items.drop (d.items.length - n)
  nodup := by
    rw [map_drop]
    exact d.nodup.sublist (drop_sublist _ _)

/-- The sum of `f` over the values. -/
def total (f : β → ℕ) (d : Dict α β) : ℕ := (d.items.map fun i => f i.2).sum

@[simp] theorem keys_empty : (empty : Dict α β).keys = [] := rfl

theorem prune_of_le {d : Dict α β} {n : ℕ} (h : d.keys.length ≤ n) : d.prune n = d := by
  have hzero : d.items.length - n = 0 := by
    rw [keys, length_map] at h
    exact Nat.sub_eq_zero_of_le h
  unfold prune
  congr 1
  rw [hzero]
  rfl

variable [DecidableEq α]

def get? (d : Dict α β) (k : α) : Option β :=
  (d.items.find? fun i => i.1 = k).map Prod.snd

/-- `d[k] = v`: a key that is present keeps its place. -/
def set (d : Dict α β) (k : α) (v : β) : Dict α β :=
  if h : k ∈ d.keys then
    { items := d.items.map fun i => if i.1 = k then (k, v) else i
      nodup := by
        have hkeys : (d.items.map fun i => if i.1 = k then (k, v) else i).map Prod.fst =
            d.items.map Prod.fst := by
          rw [map_map]
          refine map_congr_left fun i _ => ?_
          show (if i.1 = k then (k, v) else i).1 = i.1
          split
          · exact Eq.symm ‹_›
          · rfl
        rw [hkeys]
        exact d.nodup }
  else
    { items := d.items ++ [(k, v)]
      nodup := by
        rw [map_append]
        exact d.nodup.append (nodup_singleton _) (disjoint_singleton.mpr h) }

/-- `d.pop(k, None)`. -/
def erase (d : Dict α β) (k : α) : Dict α β where
  items := d.items.filter fun i => i.1 ≠ k
  nodup := d.nodup.sublist (filter_sublist.map Prod.fst)

variable {d : Dict α β} {k k' : α} {v : β}

@[simp] theorem get?_empty : (empty : Dict α β).get? k = none := rfl

theorem mem_keys : k ∈ d.keys ↔ ∃ v, d.get? k = some v := by
  constructor
  · intro h
    obtain ⟨i, hi, rfl⟩ := mem_map.mp h
    cases hfind : d.items.find? fun j => j.1 = i.1 with
    | none => exact absurd (decide_eq_true rfl) (find?_eq_none.mp hfind i hi)
    | some j => exact ⟨j.2, by rw [get?, hfind]; rfl⟩
  · rintro ⟨v, h⟩
    obtain ⟨j, hj, -⟩ := Option.map_eq_some_iff.mp h
    have hk := of_decide_eq_true (find?_some (p := fun i : α × β => decide (i.1 = k)) hj)
    exact hk ▸ mem_map_of_mem (mem_of_find?_eq_some hj)

theorem get?_eq_none : d.get? k = none ↔ k ∉ d.keys := by
  rw [mem_keys]
  cases d.get? k <;> simp

theorem mem_items : (k, v) ∈ d.items ↔ d.get? k = some v := by
  constructor
  · intro h
    obtain ⟨items, hnodup⟩ := d
    show (items.find? _).map _ = _
    induction items with
    | nil => exact absurd h not_mem_nil
    | cons i items ih =>
      obtain ⟨hfree, hrest⟩ := nodup_cons.mp hnodup
      rcases mem_cons.mp h with rfl | h
      · simp
      · have hne : i.1 ≠ k := fun heq => hfree (heq ▸ mem_map_of_mem h)
        simpa [hne] using ih hrest h
  · intro h
    obtain ⟨j, hj, rfl⟩ := Option.map_eq_some_iff.mp h
    have hk := of_decide_eq_true (find?_some (p := fun i : α × β => decide (i.1 = k)) hj)
    rw [← hk]
    exact mem_of_find?_eq_some hj

theorem items_set (h : k ∉ d.keys) : (d.set k v).items = d.items ++ [(k, v)] := by
  rw [set, dif_neg h]

theorem items_prune_set (h : k ∉ d.keys) {n : ℕ} {i : α × β} {l : List (α × β)}
    (hitems : d.items = i :: l) (hn : d.items.length = n) :
    ((d.set k v).prune n).items = l ++ [(k, v)] := by
  have hdrop : (d.set k v).items.length - n = 1 := by
    rw [items_set h, length_append, length_singleton, hn, Nat.add_sub_cancel_left]
  show (d.set k v).items.drop _ = _
  rw [hdrop, items_set h, hitems]
  rfl

theorem get?_set : (d.set k v).get? k' = if k' = k then some v else d.get? k' := by
  by_cases h : k ∈ d.keys
  · rw [set, dif_pos h]
    show ((d.items.map fun i => if i.1 = k then (k, v) else i).find? fun i => i.1 = k').map
      Prod.snd = _
    rw [find?_map]
    have hpred : ((fun i : α × β => decide (i.1 = k')) ∘ fun i => if i.1 = k then (k, v) else i) =
        fun i => decide (i.1 = k') := by
      funext i
      show decide ((if i.1 = k then (k, v) else i).1 = k') = _
      split
      · simp [*]
      · rfl
    rw [hpred]
    by_cases hk : k' = k
    · subst hk
      obtain ⟨w, hw⟩ := mem_keys.mp h
      obtain ⟨j, hj, -⟩ := Option.map_eq_some_iff.mp hw
      have hjk := of_decide_eq_true (find?_some (p := fun i : α × β => decide (i.1 = k')) hj)
      simp [hj, hjk]
    · rw [if_neg hk, get?]
      cases hj : d.items.find? fun i => i.1 = k' with
      | none => rfl
      | some j =>
        have hjk := of_decide_eq_true (find?_some (p := fun i : α × β => decide (i.1 = k')) hj)
        simp [hjk, hk]
  · rw [get?, items_set h, find?_append]
    by_cases hk : k' = k
    · subst hk
      rw [Option.map_eq_none_iff.mp (get?_eq_none.mpr h)]
      simp
    · rw [if_neg hk, get?]
      cases d.items.find? fun i => i.1 = k' with
      | none => simp [Ne.symm hk]
      | some j => rfl

@[simp] theorem get?_set_self : (d.set k v).get? k = some v := by
  rw [get?_set, if_pos rfl]

theorem get?_set_of_ne (h : k' ≠ k) : (d.set k v).get? k' = d.get? k' := by
  rw [get?_set, if_neg h]

theorem mem_keys_set : k' ∈ (d.set k v).keys ↔ k' = k ∨ k' ∈ d.keys := by
  rw [mem_keys, mem_keys, get?_set]
  by_cases h : k' = k <;> simp [h]

theorem get?_erase : (d.erase k).get? k' = if k' = k then none else d.get? k' := by
  show ((d.items.filter fun i => i.1 ≠ k).find? fun i => i.1 = k').map Prod.snd = _
  rw [find?_filter]
  by_cases hk : k' = k
  · subst hk
    simp
  · rw [if_neg hk, get?]
    congr 2
    funext i
    by_cases hi : i.1 = k' <;> simp [hi, hk]

section Total

variable {f : β → ℕ}

theorem total_erase : (d.erase k).total f + ((d.get? k).map f).getD 0 = d.total f := by
  obtain ⟨items, hnodup⟩ := d
  show ((items.filter fun i => i.1 ≠ k).map fun i => f i.2).sum +
    (((items.find? fun i => i.1 = k).map Prod.snd).map f).getD 0 = (items.map fun i => f i.2).sum
  induction items with
  | nil => rfl
  | cons i items ih =>
    obtain ⟨hfree, hrest⟩ := nodup_cons.mp hnodup
    by_cases hi : i.1 = k
    · -- the key stands nowhere else
      have hall : items.filter (fun j => j.1 ≠ k) = items := by
        rw [filter_eq_self]
        intro j hj
        refine decide_eq_true fun heq => hfree ?_
        rw [hi, ← heq]
        exact mem_map_of_mem hj
      simp only [filter_cons, find?_cons, hi, ne_eq, not_true_eq_false, decide_false,
        decide_true, Bool.false_eq_true, if_false, map_cons, sum_cons, Option.map_some,
        Option.getD_some]
      rw [hall, Nat.add_comm]
    · have ih := ih hrest
      simp only [filter_cons, find?_cons, hi, ne_eq, not_false_eq_true, decide_true,
        decide_false, if_true, map_cons, sum_cons] at ih ⊢
      omega

theorem total_set : (d.set k v).total f + ((d.get? k).map f).getD 0 = d.total f + f v := by
  by_cases h : k ∈ d.keys
  · -- a key keeps its place: take it out of both dictionaries
    have herase : ((d.set k v).erase k).items = (d.erase k).items := by
      rw [set, dif_pos h]
      refine filter_map_fixed ?_ ?_
      · intro i
        by_cases hi : i.1 = k <;> simp [hi]
      · intro i hi
        exact if_neg (of_decide_eq_true hi)
    have htotal : ((d.set k v).erase k).total f = (d.erase k).total f := by
      unfold total
      rw [herase]
    have hnew := total_erase (d := d.set k v) (k := k) (f := f)
    have hold := total_erase (d := d) (k := k) (f := f)
    rw [get?_set_self, Option.map_some, Option.getD_some] at hnew
    omega
  · rw [get?_eq_none.mpr h, total, items_set h, map_append, sum_append]
    simp [total]

end Total

section Fold

variable {ι : Type} {f : ι → α} {g : ι → β} {l : List ι}

theorem get?_foldl_set_of_not_mem (h : k ∉ l.map f) :
    (l.foldl (fun d i => d.set (f i) (g i)) d).get? k = d.get? k := by
  induction l generalizing d with
  | nil => rfl
  | cons i l ih =>
    rw [map_cons, mem_cons, not_or] at h
    exact (ih h.2).trans (get?_set_of_ne h.1)

theorem get?_foldl_set (hnodup : (l.map f).Nodup) {i : ι} (hi : i ∈ l) :
    (l.foldl (fun d i => d.set (f i) (g i)) d).get? (f i) = some (g i) := by
  induction l generalizing d with
  | nil => exact absurd hi not_mem_nil
  | cons j l ih =>
    obtain ⟨hfree, hrest⟩ := nodup_cons.mp hnodup
    rcases mem_cons.mp hi with rfl | hi
    · exact (get?_foldl_set_of_not_mem hfree).trans get?_set_self
    · exact ih hrest hi

theorem mem_keys_foldl_set {g : Dict α β → ι → β} :
    k ∈ (l.foldl (fun d i => d.set (f i) (g d i)) d).keys ↔ k ∈ l.map f ∨ k ∈ d.keys := by
  induction l generalizing d with
  | nil => simp
  | cons i l ih =>
    rw [foldl_cons, ih, mem_keys_set, map_cons, mem_cons]
    tauto

end Fold

theorem get?_prune {n : ℕ} (h : (d.prune n).get? k = some v) : d.get? k = some v := by
  rw [← mem_items] at h ⊢
  exact mem_of_mem_drop h

end Dict

end Medre.Framework
