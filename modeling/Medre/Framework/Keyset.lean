import Mathlib.Data.List.Pairwise
import Mathlib.Data.List.Sort
import Mathlib.Order.MinMax
import Mathlib.Order.Nat
import Mathlib.Tactic.Common

/-! # Keyset paging

A log in ascending order of a key is read in pieces: the first few records after a position,
whose last key is the next position. -/

namespace Medre.Framework.Keyset

open List

variable {α κ : Type} [LinearOrder κ] (key : α → κ)

/-- The keys increase along the log. -/
def Ascending (log : List α) : Prop := log.Pairwise fun x y => key x < key y

def after (log : List α) (a : κ) : List α := log.filter fun x => a < key x

variable {key} {log : List α} {a : κ}

theorem Ascending.filter (h : Ascending key log) (keep : α → Bool) :
    Ascending key (log.filter keep) :=
  List.Pairwise.filter keep h

theorem Ascending.after (h : Ascending key log) (a : κ) : Ascending key (after key log a) :=
  h.filter _

theorem lt_of_mem_after {x : α} (h : x ∈ after key log a) : a < key x :=
  of_decide_eq_true (mem_filter.mp h).2

theorem after_filter {log : List α} {keep : α → Bool} {a : κ} :
    after key (log.filter keep) a = (after key log a).filter keep := by
  simp only [after, filter_filter, Bool.and_comm]

theorem after_after {b : κ} (h : a ≤ b) : after key (after key log a) b = after key log b := by
  unfold after
  rw [filter_filter]
  refine filter_congr fun x _ => ?_
  rw [Bool.and_eq_left_iff_imp, decide_eq_true_eq, decide_eq_true_eq]
  exact lt_of_le_of_lt h

/-- In a log cut in two, the last key of the first half separates the halves. -/
theorem after_append {pre post : List α} (h : Ascending key (pre ++ post)) {x : α}
    (hx : pre.getLast? = some x) : after key (pre ++ post) (key x) = post := by
  obtain ⟨init, rfl⟩ := List.getLast?_eq_some_iff.mp hx
  obtain ⟨hpre, hpost, hcross⟩ := pairwise_append.mp h
  obtain ⟨-, -, hinit⟩ := pairwise_append.mp hpre
  have hnone : after key (init ++ [x]) (key x) = [] := by
    refine filter_eq_nil_iff.mpr fun y hy => ?_
    rw [decide_eq_true_eq, not_lt]
    rcases mem_append.mp hy with hy | hy
    · exact (hinit y hy x (mem_singleton.mpr rfl)).le
    · rw [mem_singleton.mp hy]
  have hall : after key post (key x) = post := by
    refine filter_eq_self.mpr fun y hy => ?_
    exact decide_eq_true (hcross x (mem_append_right _ (mem_singleton.mpr rfl)) y hy)
  unfold after at hnone hall ⊢
  rw [filter_append, hnone, hall, nil_append]

theorem after_take (h : Ascending key log) {n : ℕ} {x : α}
    (hx : ((after key log a).take n).getLast? = some x) :
    after key log (key x) = (after key log a).drop n := by
  have hasc := h.after a
  have hmem : x ∈ after key log a := mem_of_mem_take (mem_of_getLast? hx)
  rw [← after_after (lt_of_mem_after hmem).le]
  rw [← take_append_drop n (after key log a)] at hasc
  have hsplit := after_append hasc hx
  rwa [take_append_drop] at hsplit

theorem Ascending.max?_eq (h : Ascending key log) {x : α} (hx : log.getLast? = some x) :
    (log.map key).max? = some (key x) := by
  rw [List.max?_eq_some_iff]
  refine ⟨mem_map_of_mem (mem_of_getLast? hx), ?_⟩
  intro b hb
  obtain ⟨y, hy, rfl⟩ := mem_map.mp hb
  obtain ⟨init, rfl⟩ := List.getLast?_eq_some_iff.mp hx
  rcases mem_append.mp hy with hy | hy
  · exact ((pairwise_append.mp h).2.2 y hy x (mem_singleton.mpr rfl)).le
  · rw [mem_singleton.mp hy]

theorem Ascending.eq_of_perm {other : List α} (h : Ascending key log)
    (h' : Ascending key other) (hperm : log.Perm other) : log = other := by
  refine hperm.eq_of_pairwise ?_ h h'
  intro x y _ _ hxy hyx
  exact absurd hyx hxy.not_gt

theorem ascending_insertionSort {r : α → α → Prop} [DecidableRel r]
    (hr : ∀ a b, r a b ↔ key a ≤ key b) (hne : log.Pairwise fun a b => key a ≠ key b) :
    Ascending key (log.insertionSort r) := by
  have htotal : Std.Total r := ⟨fun a b => by rw [hr, hr]; exact le_total _ _⟩
  have htrans : IsTrans α r := ⟨fun a b c => by rw [hr, hr, hr]; exact le_trans⟩
  have hapart := ((perm_insertionSort r log).pairwise_iff fun h => Ne.symm h).mpr hne
  apply ((pairwise_insertionSort r log).and hapart).imp
  rintro a b ⟨hab, hne⟩
  exact lt_of_le_of_ne ((hr a b).mp hab) hne

/-! ## Reading more than is needed -/

/-- `rows` is the beginning of `all`, and the whole of it unless it already has more than
`limit` records. -/
structure Reads (limit : ℕ) (rows all : List α) : Prop where
  isPrefix : rows <+: all
  enough : limit < rows.length ∨ rows = all

namespace Reads

variable {limit : ℕ} {rows all : List α}

theorem refl (limit : ℕ) (all : List α) : Reads limit all all := ⟨prefix_rfl, .inr rfl⟩

theorem take_eq (h : Reads limit rows all) : rows.take limit = all.take limit := by
  rcases h.enough with hlt | rfl
  · obtain ⟨rest, rfl⟩ := h.isPrefix
    rw [take_append_of_le_length hlt.le]
  · rfl

theorem lt_length_iff (h : Reads limit rows all) : limit < rows.length ↔ limit < all.length := by
  rcases h.enough with hlt | rfl
  · exact iff_of_true hlt (lt_of_lt_of_le hlt h.isPrefix.length_le)
  · rfl

end Reads

/-! ## Page after page -/

/-- The pages of a list: each is as long as its limit, and more than that is left, but for the
last. `k` is the number of the first page. -/
inductive Pages (limits : ℕ → ℕ) : ℕ → List α → List (List α) → Prop
  | last {k : ℕ} {all : List α} (h : all.length ≤ limits k) : Pages limits k all [all]
  | more {k : ℕ} {all : List α} {rest : List (List α)} (h : limits k < all.length)
      (hrest : Pages limits (k + 1) (all.drop (limits k)) rest) :
      Pages limits k all (all.take (limits k) :: rest)

namespace Pages

variable {limits : ℕ → ℕ} {k : ℕ} {all : List α} {pages : List (List α)}

theorem flatten_eq (h : Pages limits k all pages) : pages.flatten = all := by
  induction h with
  | last _ => exact append_nil _
  | more _ _ ih => rw [flatten_cons, ih, take_append_drop]

theorem length_eq (h : Pages limits k all pages) {i : ℕ} (hi : i + 1 < pages.length) :
    (pages[i]).length = limits (k + i) := by
  induction h generalizing i with
  | last _ => simp at hi
  | @more k all rest hlt _ ih =>
    cases i with
    | zero => simp [hlt.le]
    | succ i =>
      simp only [length_cons, Nat.add_lt_add_iff_right] at hi
      have hpage := ih hi
      rw [getElem_cons_succ, hpage, Nat.add_right_comm, Nat.add_assoc]

end Pages

end Medre.Framework.Keyset
