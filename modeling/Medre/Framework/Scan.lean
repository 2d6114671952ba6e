import Mathlib.Data.Finset.Card
import Mathlib.Tactic.Common

/-! # Scans that keep their place

Each call looks at the keys that follow the place where the last one stopped, and starts over
once it has come to the end. -/

namespace Medre.Framework

variable {κ : Type} [LinearOrder κ]

/-- The calls of a scan of `keys`: call `i` starts from `place i`. It comes to the end and
starts over, or stops at a later key; it has dealt with all keys in between. -/
structure Scan (keys : Finset κ) (start : κ) (place : ℕ → κ) (dealt : ℕ → κ → Prop) : Prop where
  moves : ∀ i,
    (place (i + 1) = start ∧ ∀ k ∈ keys, place i < k → dealt i k) ∨
      (place i < place (i + 1) ∧ place (i + 1) ∈ keys ∧
        ∀ k ∈ keys, place i < k → k ≤ place (i + 1) → dealt i k)

namespace Scan

variable {keys : Finset κ} {start : κ} {place : ℕ → κ} {dealt : ℕ → κ → Prop}

def left (keys : Finset κ) (place : κ) : ℕ := (keys.filter fun k => place < k).card

theorem left_le (keys : Finset κ) (place : κ) : left keys place ≤ keys.card :=
  Finset.card_filter_le _ _

theorem left_lt {p q : κ} (hlt : p < q) (hq : q ∈ keys) : left keys q < left keys p := by
  refine Finset.card_lt_card (Finset.ssubset_iff_of_subset ?_ |>.mpr ⟨q, ?_, ?_⟩)
  · intro k hk
    rw [Finset.mem_filter] at hk ⊢
    exact ⟨hk.1, hlt.trans hk.2⟩
  · exact Finset.mem_filter.mpr ⟨hq, hlt⟩
  · intro h
    exact lt_irrefl q (Finset.mem_filter.mp h).2

theorem wraps (h : Scan keys start place dealt) (i : ℕ) :
    ∃ j, j ≤ left keys (place i) ∧ place (i + j + 1) = start := by
  induction hn : left keys (place i) using Nat.strong_induction_on generalizing i with
  | _ n ih =>
    subst hn
    rcases h.moves i with ⟨hstart, -⟩ | ⟨hlt, hmem, -⟩
    · exact ⟨0, Nat.zero_le _, hstart⟩
    · have hless := left_lt hlt hmem
      obtain ⟨j, hj, hwrap⟩ := ih _ hless (i + 1) rfl
      refine ⟨j + 1, by omega, ?_⟩
      rw [← hwrap]
      congr 1
      omega

/-- A key ahead of the place is dealt with before the scan starts over. -/
theorem reaches (h : Scan keys start place dealt) {k : κ} (hk : k ∈ keys) (i : ℕ)
    (hahead : place i < k) : ∃ j, j ≤ left keys (place i) ∧ dealt (i + j) k := by
  induction hn : left keys (place i) using Nat.strong_induction_on generalizing i with
  | _ n ih =>
    subst hn
    rcases h.moves i with ⟨-, hall⟩ | ⟨hlt, hmem, hpart⟩
    · exact ⟨0, Nat.zero_le _, hall k hk hahead⟩
    · rcases le_or_gt k (place (i + 1)) with hle | hgt
      · exact ⟨0, Nat.zero_le _, hpart k hk hahead hle⟩
      · have hless := left_lt hlt hmem
        obtain ⟨j, hj, hdealt⟩ := ih _ hless (i + 1) hgt rfl
        refine ⟨j + 1, by omega, ?_⟩
        have hcall : i + 1 + j = i + (j + 1) := by omega
        exact hcall ▸ hdealt

/-- Two rounds deal with every key. -/
theorem complete (h : Scan keys start place dealt) (hstart : ∀ k ∈ keys, start < k) {k : κ}
    (hk : k ∈ keys) : ∃ i, i < 2 * (keys.card + 1) ∧ dealt i k := by
  obtain ⟨j, hj, hwrap⟩ := h.wraps 0
  obtain ⟨l, hl, hdealt⟩ := h.reaches hk (0 + j + 1) (hwrap ▸ hstart k hk)
  have hfirst := left_le keys (place 0)
  have hsecond := left_le keys (place (0 + j + 1))
  exact ⟨0 + j + 1 + l, by omega, hdealt⟩

end Scan

end Medre.Framework
