import Mathlib.Algebra.Order.Ring.Int
import Mathlib.Data.List.Infix
import Mathlib.Algebra.Order.BigOperators.Group.List

/-! # Greedy splitting of a list under a capacity

A piece takes as many elements as its capacity holds and is then cut back behind the last space
that follows a non-space, if the list goes on. The capacity may depend on the number of the
piece. -/

namespace Medre.Framework

open List

variable {α : Type} {weight : α → ℕ} {space : α → Bool}

def load (weight : α → ℕ) (xs : List α) : ℕ := (xs.map weight).sum

@[simp] theorem load_nil : load weight [] = 0 := rfl

@[simp] theorem load_cons (x : α) (xs : List α) :
    load weight (x :: xs) = weight x + load weight xs := rfl

@[simp] theorem load_append (xs ys : List α) :
    load weight (xs ++ ys) = load weight xs + load weight ys := by
  simp [load]

/-- `n` elements from the front fit, and not one more. -/
structure Reaches (weight : α → ℕ) (capacity : ℕ) (xs : List α) (n : ℕ) : Prop where
  le_length : n ≤ xs.length
  fits : load weight (xs.take n) ≤ capacity
  most : ∀ m ≤ xs.length, load weight (xs.take m) ≤ capacity → m ≤ n

/-- A space with a non-space before it. -/
def IsBreak (space : α → Bool) (xs : List α) (i : ℕ) : Prop :=
  (∃ c, xs[i]? = some c ∧ space c = true) ∧ ∃ j < i, ∃ c, xs[j]? = some c ∧ space c = false

/-- The length of the piece cut off `xs`. -/
inductive Cut (weight : α → ℕ) (space : α → Bool) (capacity : ℕ) (xs : List α) : ℕ → Prop where
  | whole : Reaches weight capacity xs xs.length → Cut weight space capacity xs xs.length
  | soft {n i : ℕ} : Reaches weight capacity xs n → n < xs.length → i < n →
      IsBreak space xs i → (∀ j < n, IsBreak space xs j → j ≤ i) →
      Cut weight space capacity xs (i + 1)
  | hard {n : ℕ} : Reaches weight capacity xs n → n < xs.length →
      (∀ j < n, ¬IsBreak space xs j) → Cut weight space capacity xs n

/-- The pieces of `xs` from piece number `i` on. -/
inductive GreedySplit (weight : α → ℕ) (space : α → Bool) (capacity : ℕ → ℕ) :
    ℕ → List α → List (List α) → Prop where
  | done (i : ℕ) : GreedySplit weight space capacity i [] []
  | next {i k : ℕ} {xs : List α} {pieces : List (List α)} :
      Cut weight space (capacity i) xs k → 0 < k →
      GreedySplit weight space capacity (i + 1) (xs.drop k) pieces →
      GreedySplit weight space capacity i xs (xs.take k :: pieces)

/-! ## One piece -/

section Cut

variable {capacity capacity' n m k k' : ℕ} {xs gap : List α}

theorem Cut.reaches (h : Cut weight space capacity xs k) :
    ∃ n, Reaches weight capacity xs n ∧ k ≤ n := by
  cases h with
  | whole hr => exact ⟨_, hr, Nat.le_refl _⟩
  | soft hr _ hi => exact ⟨_, hr, hi⟩
  | hard hr => exact ⟨_, hr, Nat.le_refl _⟩

theorem load_take_le (xs : List α) (h : k ≤ n) :
    load weight (xs.take k) ≤ load weight (xs.take n) := by
  have hsplit : (xs.take n).take k ++ (xs.take n).drop k = xs.take n :=
    take_append_drop k (xs.take n)
  rw [take_take, Nat.min_eq_left h] at hsplit
  rw [← hsplit, load_append]
  exact Nat.le_add_right _ _

theorem Cut.load_le (h : Cut weight space capacity xs k) : load weight (xs.take k) ≤ capacity := by
  obtain ⟨n, hr, hk⟩ := h.reaches
  exact (load_take_le xs hk).trans hr.fits

theorem Reaches.mono (h : Reaches weight capacity xs n)
    (h' : Reaches weight capacity' (gap ++ xs) m) (hcap : capacity' ≤ capacity) :
    m ≤ gap.length + n := by
  by_cases hm : m ≤ gap.length
  · exact hm.trans (Nat.le_add_right _ _)
  · have hfit := h'.fits
    have hlen := h'.le_length
    rw [take_append, take_of_length_le (by omega), load_append] at hfit
    rw [length_append] at hlen
    have hle := h.most (m - gap.length) (by omega) (by omega)
    omega

theorem IsBreak.append {i : ℕ} (h : IsBreak space xs i) (gap : List α) :
    IsBreak space (gap ++ xs) (gap.length + i) := by
  obtain ⟨⟨c, hc, hspace⟩, j, hj, d, hd, hword⟩ := h
  refine ⟨⟨c, ?_, hspace⟩, gap.length + j, by omega, d, ?_, hword⟩
  · rw [List.getElem?_append_right (Nat.le_add_right _ _), Nat.add_sub_cancel_left]
    exact hc
  · rw [List.getElem?_append_right (Nat.le_add_right _ _), Nat.add_sub_cancel_left]
    exact hd

theorem IsBreak.of_append {i j : ℕ} (h : IsBreak space (gap ++ xs) j)
    (hi : IsBreak space xs i) (hij : gap.length + i < j) : IsBreak space xs (j - gap.length) := by
  obtain ⟨⟨c, hc, hspace⟩, -⟩ := h
  obtain ⟨-, l, hl, d, hd, hword⟩ := hi
  rw [List.getElem?_append_right (by omega)] at hc
  exact ⟨⟨c, hc, hspace⟩, l, by omega, d, hd, hword⟩

/-- The end of a piece is monotone in its start and in its capacity. -/
theorem Cut.mono (h : Cut weight space capacity xs k)
    (h' : Cut weight space capacity' (gap ++ xs) k') (hcap : capacity' ≤ capacity) :
    k' ≤ gap.length + k := by
  cases h with
  | whole hr =>
    obtain ⟨m, hm, hk'⟩ := h'.reaches
    exact hk'.trans (hr.mono hm hcap)
  | hard hr =>
    obtain ⟨m, hm, hk'⟩ := h'.reaches
    exact hk'.trans (hr.mono hm hcap)
  | @soft n i hr hn hi hbreak hlast =>
    have hbreak' := hbreak.append gap
    cases h' with
    | whole hm =>
      have hle := hr.mono hm hcap
      rw [length_append] at hle ⊢
      omega
    | @hard _ hm hlt hnone =>
      -- the break of the shorter list lies behind what the longer one reaches
      by_contra hgt
      exact hnone _ (by omega) hbreak'
    | @soft m j hm _ hj hjbreak _ =>
      have hle := hr.mono hm hcap
      by_contra hgt
      have hback := hjbreak.of_append hbreak (by omega)
      have := hlast _ (by omega) hback
      omega

end Cut

/-! ## All pieces -/

namespace GreedySplit

variable {capacity capacity' : ℕ → ℕ} {i : ℕ} {xs ys : List α} {pieces pieces' : List (List α)}

theorem flatten_eq (h : GreedySplit weight space capacity i xs pieces) : pieces.flatten = xs := by
  induction h with
  | done => rfl
  | next _ _ _ ih => rw [flatten_cons, ih, take_append_drop]

theorem ne_nil (h : GreedySplit weight space capacity i xs pieces) : ∀ p ∈ pieces, p ≠ [] := by
  induction h with
  | done => exact fun p hp => absurd hp not_mem_nil
  | @next i k xs pieces hcut hk hrest ih =>
    intro p hp
    rcases mem_cons.mp hp with rfl | hp
    · obtain ⟨n, hr, hkn⟩ := hcut.reaches
      have := hr.le_length
      rw [← length_pos_iff, length_take]
      omega
    · exact ih p hp

theorem load_le (h : GreedySplit weight space capacity i xs pieces) {j : ℕ} {p : List α}
    (hp : pieces[j]? = some p) : load weight p ≤ capacity (i + j) := by
  induction h generalizing j with
  | done => simp at hp
  | @next i k xs pieces hcut hk hrest ih =>
    cases j with
    | zero =>
      cases hp
      exact hcut.load_le
    | succ j =>
      have := ih hp
      rwa [Nat.add_assoc, Nat.add_comm 1 j] at this

theorem pieces_nil (h : GreedySplit weight space capacity i [] pieces) : pieces = [] := by
  have hflat := h.flatten_eq
  cases pieces with
  | nil => rfl
  | cons p ps =>
    have hne := h.ne_nil p mem_cons_self
    rw [flatten_cons, append_eq_nil_iff] at hflat
    exact absurd hflat.1 hne

/-- The greedy splitter stays ahead: with less to split and no less room in every piece
it needs no more pieces. -/
theorem length_le (h : GreedySplit weight space capacity i xs pieces)
    (h' : GreedySplit weight space capacity' i ys pieces') (hcap : ∀ j, capacity' j ≤ capacity j)
    (hsuffix : xs <:+ ys) : pieces.length ≤ pieces'.length := by
  -- along the pieces of the list that is behind; the other one may end first
  induction h' generalizing xs pieces with
  | done =>
    rw [suffix_nil.mp hsuffix] at h
    rw [h.pieces_nil]
  | @next i k' ys pieces' hcut' hk' hrest' ih =>
    cases h with
    | done => exact Nat.zero_le _
    | @next _ k _ pieces hcut hk hrest =>
      obtain ⟨gap, rfl⟩ := hsuffix
      have hend := hcut.mono hcut' (hcap i)
      refine Nat.succ_le_succ (ih hrest ?_)
      refine ⟨((gap ++ xs).drop k').take (gap.length + k - k'), ?_⟩
      have hdrop : xs.drop k = ((gap ++ xs).drop k').drop (gap.length + k - k') := by
        rw [drop_drop, Nat.add_sub_cancel' hend, drop_append,
          drop_of_length_le (l := gap) (by omega), nil_append,
          Nat.add_sub_cancel_left]
      rw [hdrop, take_append_drop]

end GreedySplit

end Medre.Framework
