import Mathlib.Data.List.Dedup
import Mathlib.Data.List.Induction
import Mathlib.Data.List.Nodup
import Mathlib.Data.List.Perm.Subperm
import Mathlib.Data.List.Sort
import Mathlib.Tactic.Common

/-! # The first record of each group

The records of a log are ordered by some relation; the log decides between records that the
relation does not tell apart. -/

namespace Medre.Framework

open List

variable {α κ : Type}

/-! ## Positions in a log -/

section Positions

variable {log : List α} {x y : α}

theorem not_pair_sublist_swap (hlog : log.Nodup) (h : [x, y] <+ log) : ¬[y, x] <+ log := by
  induction log with
  | nil => exact absurd h.length_le (by simp)
  | cons a log ih =>
    obtain ⟨hnew, hlog⟩ := nodup_cons.mp hlog
    intro hswap
    cases h with
    | cons _ h =>
      cases hswap with
      | cons _ hswap => exact ih hlog h hswap
      | cons_cons _ hswap => exact hnew (h.subset (by simp))
    | cons_cons _ h =>
      cases hswap with
      | cons _ hswap => exact hnew (hswap.subset (by simp))
      | cons_cons _ hswap => exact hnew (h.subset (by simp))

theorem pair_sublist_or_swap (hx : x ∈ log) (hy : y ∈ log) (hne : x ≠ y) :
    [x, y] <+ log ∨ [y, x] <+ log := by
  induction log with
  | nil => cases hx
  | cons a log ih =>
    rcases mem_cons.mp hx with rfl | hx'
    · have hy' := (mem_cons.mp hy).resolve_left hne.symm
      exact .inl ((singleton_sublist.mpr hy').cons_cons x)
    · rcases mem_cons.mp hy with rfl | hy'
      · exact .inr ((singleton_sublist.mpr hx').cons_cons y)
      · exact (ih hx' hy').imp (·.cons a) (·.cons a)

theorem pair_sublist_of_concat {a : α} (h : [x, y] <+ log ++ [a]) (hne : y ≠ a) :
    [x, y] <+ log := by
  obtain ⟨front, back, heq, hfront, hback⟩ := sublist_append_iff.mp h
  rcases sublist_singleton.mp hback with rfl | rfl
  · rw [heq, append_nil]
    exact hfront
  · have hlast := congrArg List.getLast? heq
    rw [List.getLast?_concat] at hlast
    cases hlast
    exact absurd rfl hne

end Positions

/-! ## A stable order -/

section Order

variable (le : α → α → Prop) (log : List α)

/-- `x` comes before `y`: by the relation, or by the log where the relation does not
decide. -/
def Before (x y : α) : Prop := le x y ∧ (le y x → [x, y] <+ log)

variable {le log} [DecidableRel le] [Std.Total le]

/-- A stable sort puts the records in that order. -/
theorem pair_sublist_insertionSort_iff [IsTrans α le] (hlog : log.Nodup) {x y : α} (hx : x ∈ log)
    (hy : y ∈ log) (hne : x ≠ y) : [x, y] <+ log.insertionSort le ↔ Before le log x y := by
  have hsorted := pairwise_insertionSort le log
  have hnodup : (log.insertionSort le).Nodup := (perm_insertionSort le log).nodup_iff.mpr hlog
  constructor
  · intro h
    refine ⟨pairwise_pair.mp (hsorted.sublist h), ?_⟩
    intro hyx
    rcases pair_sublist_or_swap hx hy hne with hpos | hpos
    · exact hpos
    · exact absurd (pair_sublist_insertionSort hyx hpos) (not_pair_sublist_swap hnodup h)
  · rintro ⟨hxy, hlater⟩
    by_cases hyx : le y x
    · exact pair_sublist_insertionSort hxy (hlater hyx)
    · have hx' := (mem_insertionSort le).mpr hx
      have hy' := (mem_insertionSort le).mpr hy
      refine (pair_sublist_or_swap hx' hy' hne).resolve_right ?_
      intro h
      exact hyx (pairwise_pair.mp (hsorted.sublist h))

end Order

/-! ## The first of each group -/

section Firsts

variable [DecidableEq κ] (key : α → κ)

/-- The first record of each group, in order. -/
def firsts (l : List α) : List α :=
  l.foldl (fun kept a => if kept.any fun b => key b = key a then kept else kept ++ [a]) []

variable {key} {l : List α}

theorem firsts_concat (l : List α) (a : α) :
    firsts key (l ++ [a]) =
      if (firsts key l).any fun b => key b = key a then firsts key l
      else firsts key l ++ [a] :=
  foldl_concat ..

theorem firsts_subset (l : List α) : firsts key l ⊆ l := by
  induction l using List.reverseRecOn with
  | nil => exact List.Subset.refl _
  | append_singleton l a ih =>
    have hleft : firsts key l ⊆ l ++ [a] := List.Subset.trans ih (subset_append_left _ _)
    rw [firsts_concat]
    split_ifs
    · exact hleft
    · exact append_subset.mpr ⟨hleft, subset_append_right _ _⟩

theorem exists_mem_firsts (key : α → κ) {y : α} (hy : y ∈ l) :
    ∃ x ∈ firsts key l, key x = key y := by
  induction l using List.reverseRecOn with
  | nil => cases hy
  | append_singleton l a ih =>
    rw [firsts_concat]
    split_ifs with hany
    · rcases mem_append.mp hy with hy | hy
      · exact ih hy
      · obtain rfl := mem_singleton.mp hy
        simpa only [any_eq_true, decide_eq_true_eq] using hany
    · rcases mem_append.mp hy with hy | hy
      · obtain ⟨x, hx, hkey⟩ := ih hy
        exact ⟨x, mem_append_left _ hx, hkey⟩
      · exact ⟨y, mem_append_right _ hy, rfl⟩

theorem nodup_map_firsts (l : List α) : ((firsts key l).map key).Nodup := by
  induction l using List.reverseRecOn with
  | nil => exact nodup_nil
  | append_singleton l a ih =>
    rw [firsts_concat]
    split_ifs with hany
    · exact ih
    · rw [map_append, map_singleton, nodup_append]
      refine ⟨ih, nodup_singleton _, ?_⟩
      intro k hk k' hk' heq
      obtain ⟨b, hb, rfl⟩ := mem_map.mp hk
      rw [mem_singleton.mp hk'] at heq
      exact hany (any_eq_true.mpr ⟨b, hb, decide_eq_true heq⟩)

theorem length_firsts_le {rows : List α} (h : l ⊆ rows) :
    (firsts key l).length ≤ ((rows.map key).dedup).length := by
  have hsub : (firsts key l).map key ⊆ (rows.map key).dedup := by
    intro k hk
    obtain ⟨x, hx, rfl⟩ := mem_map.mp hk
    exact mem_dedup.mpr (mem_map_of_mem (h (firsts_subset l hx)))
  have hle := (subperm_of_subset (nodup_map_firsts l) hsub).length_le
  rwa [length_map] at hle

theorem mem_firsts (hl : l.Nodup) {x : α} :
    x ∈ firsts key l ↔ x ∈ l ∧ ∀ y ∈ l, y ≠ x → key y = key x → [x, y] <+ l := by
  induction l using List.reverseRecOn with
  | nil => simp [firsts]
  | append_singleton l a ih =>
    obtain ⟨hl, -, hnew⟩ := nodup_append.mp hl
    have hfresh : ∀ y ∈ l, y ≠ a := fun y hy => hnew y hy a (mem_singleton_self a)
    -- a record of `l` is the first of its group in `l ++ [a]` if it is in `l`
    have hold (hx : x ∈ l) :
        x ∈ firsts key l ↔
          ∀ y ∈ l ++ [a], y ≠ x → key y = key x → [x, y] <+ l ++ [a] := by
      rw [ih hl]
      constructor
      · rintro ⟨-, h⟩ y hy hne hkey
        rcases mem_append.mp hy with hy | hy
        · exact (h y hy hne hkey).trans (sublist_append_left _ _)
        · exact (singleton_sublist.mpr hx).append (singleton_sublist.mpr hy)
      · intro h
        refine ⟨hx, fun y hy hne hkey => ?_⟩
        exact pair_sublist_of_concat (h y (mem_append_left _ hy) hne hkey) (hfresh y hy)
    rw [firsts_concat]
    by_cases hxa : x = a
    · subst hxa
      have hout : x ∉ firsts key l := fun h => hfresh x (firsts_subset l h) rfl
      have hlast (y : α) (hy : y ∈ l) : ¬[x, y] <+ l ++ [x] := fun h =>
        hfresh x ((pair_sublist_of_concat h (hfresh y hy)).subset (by simp)) rfl
      split_ifs with hany
      · simp only [any_eq_true, decide_eq_true_eq] at hany
        obtain ⟨b, hb, hkey⟩ := hany
        have hbl := firsts_subset l hb
        refine iff_of_false hout ?_
        rintro ⟨-, h⟩
        exact hlast b hbl (h b (mem_append_left _ hbl) (hfresh b hbl) hkey)
      · refine iff_of_true (mem_append_right _ (mem_singleton_self x))
          ⟨mem_append_right _ (mem_singleton_self x), ?_⟩
        intro y hy hne hkey
        have hyl := (mem_append.mp hy).resolve_right (by simpa using hne)
        obtain ⟨b, hb, hbkey⟩ := exists_mem_firsts key hyl
        exact absurd (any_eq_true.mpr ⟨b, hb, decide_eq_true (hbkey.trans hkey)⟩) hany
    · have hmem : x ∈ l ++ [a] ↔ x ∈ l := by simp [hxa]
      have hleft : (x ∈ if (firsts key l).any fun b => key b = key a then firsts key l
          else firsts key l ++ [a]) ↔ x ∈ firsts key l := by
        split_ifs
        · rfl
        · simp [hxa]
      rw [hleft, hmem]
      constructor
      · intro h
        have hx := firsts_subset l h
        exact ⟨hx, (hold hx).mp h⟩
      · rintro ⟨hx, h⟩
        exact (hold hx).mpr h

end Firsts

end Medre.Framework
