import Mathlib.Data.List.Basic
import Mathlib.Data.List.Pairwise
import Mathlib.Tactic.Common

/-! # Tables under declared constraints

A table holds its rows in insertion order together with the proof that they meet a check on
every row and that no two of them clash. A statement that would break this has no result. -/

namespace Medre.Framework

open List

/-- What a table declares: a check on rows and the clashes between rows. -/
structure Constraint (ρ : Type) where
  check : ρ → Bool
  clash : ρ → ρ → Bool

variable {ρ : Type}

variable {p : ρ → Bool}

theorem find?_of_unique {l : List ρ} {a : ρ} (ha : a ∈ l) (hp : p a = true)
    (h : ∀ b ∈ l, p b = true → b = a) : l.find? p = some a := by
  cases hf : l.find? p with
  | none => exact absurd hp (List.find?_eq_none.mp hf a ha)
  | some b => rw [h b (mem_of_find?_eq_some hf) (List.find?_some hf)]

/-- Rows that meet the declaration `c`. -/
structure Table (c : Constraint ρ) where
  rows : List ρ
  checked : ∀ r ∈ rows, c.check r = true
  apart : rows.Pairwise fun r s => c.clash r s = false

namespace Table

variable {c : Constraint ρ}

def empty : Table c where
  rows := []
  checked := by simp
  apart := List.Pairwise.nil

/-- The table with the given rows, when they meet the declaration. -/
def ofRows (rows : List ρ) : Option (Table c) :=
  if h : (∀ r ∈ rows, c.check r = true) ∧
      rows.Pairwise fun r s => c.clash r s = false then
    some ⟨rows, h.1, h.2⟩
  else none

def insert (t : Table c) (r : ρ) : Option (Table c) := ofRows (t.rows ++ [r])

/-- `UPDATE ... WHERE p`: `f` is the `SET` clause. -/
def update (t : Table c) (p : ρ → Bool) (f : ρ → ρ) : Option (Table c) :=
  ofRows (t.rows.map fun r => if p r then f r else r)

/-- `DELETE ... WHERE p`. -/
def delete (t : Table c) (p : ρ → Bool) : Table c where
  rows := t.rows.filter fun r => !p r
  checked := fun r hr => t.checked r (mem_filter.mp hr).1
  apart := t.apart.sublist filter_sublist

@[simp] theorem rows_empty : (empty : Table c).rows = [] := rfl

@[simp] theorem rows_delete (t : Table c) (p : ρ → Bool) :
    (t.delete p).rows = t.rows.filter fun r => !p r := rfl

theorem rows_ofRows {rows : List ρ} {t : Table c} (h : ofRows rows = some t) : t.rows = rows := by
  unfold ofRows at h
  split at h
  · cases h
    rfl
  · cases h

variable {t t' : Table c}

theorem rows_insert {r : ρ} (h : t.insert r = some t') :
    t'.rows = t.rows ++ [r] := rows_ofRows h

variable {f : ρ → ρ}

theorem rows_update (h : t.update p f = some t') :
    t'.rows = t.rows.map fun r => if p r then f r else r := rows_ofRows h

theorem update_some {t : Table c} (hcheck : ∀ r ∈ t.rows, p r = true → c.check (f r) = true)
    (hclash : ∀ r s, c.clash (if p r then f r else r) (if p s then f s else s) = c.clash r s) :
    ∃ t', t.update p f = some t' := by
  refine ⟨_, dif_pos ⟨?_, ?_⟩⟩
  · intro r' hr'
    obtain ⟨r, hr, rfl⟩ := mem_map.mp hr'
    by_cases hp : p r = true
    · rw [if_pos hp]
      exact hcheck r hr hp
    · rw [if_neg hp]
      exact t.checked r hr
  · refine pairwise_map.mpr (t.apart.imp ?_)
    intro r s hrs
    rw [hclash]
    exact hrs

theorem insert_some {t : Table c} {r : ρ} (hcheck : c.check r = true)
    (hclash : ∀ s ∈ t.rows, c.clash s r = false) : ∃ t', t.insert r = some t' := by
  refine ⟨_, dif_pos ⟨?_, ?_⟩⟩
  · intro s hs
    rcases mem_append.mp hs with hs | hs
    · exact t.checked s hs
    · rw [mem_singleton.mp hs]
      exact hcheck
  · refine pairwise_append.mpr ⟨t.apart, pairwise_singleton _ _, ?_⟩
    intro s hs r' hr'
    rw [mem_singleton.mp hr']
    exact hclash s hs

@[ext] theorem ext {t u : Table c} (h : t.rows = u.rows) : t = u := by
  cases t
  cases u
  cases h
  rfl

theorem eq_of_clash (hsymm : ∀ r s, c.clash r s = c.clash s r) (t : Table c)
    {r s : ρ} (hr : r ∈ t.rows) (hs : s ∈ t.rows) (h : c.clash r s = true) :
    r = s := by
  by_contra hne
  have : Std.Symm fun x y => c.clash x y = false := ⟨fun x y hxy => by rw [hsymm, hxy]⟩
  have hapart := t.apart.forall hr hs hne
  rw [h] at hapart
  cases hapart

theorem not_clash_of_insert {r s : ρ} (h : t.insert r = some t')
    (hs : s ∈ t.rows) : c.clash s r = false := by
  have hp := t'.apart
  rw [rows_insert h] at hp
  exact (pairwise_append.mp hp).2.2 s hs r (mem_singleton.mpr rfl)

theorem check_of_insert {r : ρ} (h : t.insert r = some t') : c.check r = true := by
  refine t'.checked r ?_
  rw [rows_insert h]
  exact mem_append_right _ (mem_singleton.mpr rfl)

theorem mem_update (h : t.update p f = some t') {s : ρ} :
    s ∈ t'.rows ↔ ∃ r ∈ t.rows, s = if p r then f r else r := by
  rw [rows_update h, mem_map]
  constructor
  · rintro ⟨r, hr, rfl⟩
    exact ⟨r, hr, rfl⟩
  · rintro ⟨r, hr, rfl⟩
    exact ⟨r, hr, rfl⟩

/-- A statement whose rows would clash with each other changes at most one. -/
theorem countP_le_one (t : Table c)
    (hp : ∀ r s, p r = true → p s = true → c.clash r s = true) : t.rows.countP p ≤ 1 := by
  rw [countP_eq_length_filter]
  have hpair := t.apart.sublist (filter_sublist (p := p))
  match hrows : t.rows.filter p with
  | [] => exact Nat.zero_le 1
  | [_] => exact Nat.le_refl 1
  | r :: s :: rest =>
    rw [hrows] at hpair
    have hfree : c.clash r s = false := (pairwise_cons.mp hpair).1 s mem_cons_self
    have hr := (mem_filter.mp (hrows ▸ mem_cons_self : r ∈ t.rows.filter p)).2
    have hs := (mem_filter.mp (hrows ▸ mem_cons_of_mem r mem_cons_self : s ∈ t.rows.filter p)).2
    rw [hp r s hr hs] at hfree
    cases hfree

theorem eq_of_update_none (h : t.update p f = some t') (hzero : t.rows.countP p = 0) : t' = t := by
  refine ext ((rows_update h).trans ?_)
  refine (map_congr_left fun r hr => ?_).trans (map_id _)
  rw [if_neg (countP_eq_zero.mp hzero r hr)]
  rfl

theorem mem_insert {r s : ρ} (h : t.insert r = some t') : s ∈ t'.rows ↔ s ∈ t.rows ∨ s = r := by
  rw [rows_insert h, mem_append, mem_singleton]

end Table

end Medre.Framework
