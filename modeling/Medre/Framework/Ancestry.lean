import Mathlib.Data.List.Chain
import Mathlib.Order.Bounds.Basic
import Mathlib.Tactic.Common

/-! # Chains of a partial parent function

From every node there is one way up. On a finite set of nodes it ends at a node
without a parent or enters a cycle, after a number of steps that is unique. -/

namespace Medre.Framework

open List

variable {α : Type*} {parent : α → Option α} {a b c r : α} {m n : ℕ}

/-- The node `n` steps up. -/
def ancestor (parent : α → Option α) : ℕ → α → Option α
  | 0, a => some a
  | n + 1, a => (parent a).bind (ancestor parent n)

theorem ancestor_add (parent : α → Option α) (m n : ℕ) (a : α) :
    ancestor parent (m + n) a = (ancestor parent m a).bind (ancestor parent n) := by
  induction m generalizing a with
  | zero => rw [Nat.zero_add]; rfl
  | succ m ih =>
    rw [Nat.succ_add]
    show (parent a).bind (ancestor parent (m + n)) =
      ((parent a).bind (ancestor parent m)).bind (ancestor parent n)
    cases parent a with
    | none => rfl
    | some b => exact ih b

theorem ancestor_trans (hab : ancestor parent m a = some b) (hbc : ancestor parent n b = some c) :
    ancestor parent (m + n) a = some c := by
  rw [ancestor_add, hab]
  exact hbc

theorem ancestor_one (h : parent a = some b) : ancestor parent 1 a = some b := by
  simp [ancestor, h]

/-- What holds of a node and is handed on to parents holds of all ancestors. -/
theorem ancestor_closed {P : α → Prop} (hP : ∀ x y, P x → parent x = some y → P y) (ha : P a)
    (h : ancestor parent n a = some b) : P b := by
  induction n generalizing a with
  | zero => exact Option.some.inj h ▸ ha
  | succ n ih =>
    obtain ⟨x, hx, h⟩ := Option.bind_eq_some_iff.mp h
    exact ih (hP a x ha hx) h

/-- Two parent functions that agree on the ancestors of a node. -/
theorem ancestor_congr {parent' : α → Option α}
    (h : ∀ n x, ancestor parent n a = some x → parent' x = parent x) (n : ℕ) :
    ancestor parent' n a = ancestor parent n a := by
  induction n generalizing a with
  | zero => rfl
  | succ n ih =>
    show (parent' a).bind _ = (parent a).bind _
    rw [h 0 a rfl]
    cases hp : parent a with
    | none => rfl
    | some b => exact ih fun n x hx => h (n + 1) x (by simpa [ancestor, hp] using hx)

/-! ## Where a chain leads -/

variable (parent) in
/-- The node is its own ancestor. -/
def OnCycle (a : α) : Prop := ∃ n, ancestor parent (n + 1) a = some a

variable (parent) in
/-- The chain of `a` ends after `n` steps. -/
def EndsAt (a : α) (n : ℕ) (r : α) : Prop := ancestor parent n a = some r ∧ parent r = none

variable (parent) in
/-- The chain of `a` enters a cycle after `n` steps. -/
def Enters (a : α) (n : ℕ) (c : α) : Prop :=
  ancestor parent n a = some c ∧ OnCycle parent c ∧
    ∀ m < n, ∀ x, ancestor parent m a = some x → ¬OnCycle parent x

theorem OnCycle.parent_some (h : OnCycle parent a) : ∃ b, parent a = some b := by
  obtain ⟨n, hn⟩ := h
  obtain ⟨b, hb, -⟩ := Option.bind_eq_some_iff.mp hn
  exact ⟨b, hb⟩

theorem OnCycle.of_parent (h : OnCycle parent a) (hb : parent a = some b) : OnCycle parent b := by
  obtain ⟨n, hn⟩ := h
  refine ⟨n, ancestor_trans (b := a) ?_ (ancestor_one hb)⟩
  rw [ancestor, hb] at hn
  exact hn

theorem OnCycle.ancestor (h : OnCycle parent a) (hb : ancestor parent n a = some b) :
    OnCycle parent b :=
  ancestor_closed (fun _ _ h hp => h.of_parent hp) h hb

theorem OnCycle.way_back (h : OnCycle parent a) (hb : Framework.ancestor parent n a = some b) :
    ∃ m, Framework.ancestor parent m b = some a := by
  induction n generalizing a with
  | zero => exact ⟨0, by rw [Option.some.inj hb]; rfl⟩
  | succ n ih =>
    obtain ⟨x, hx, hb⟩ := Option.bind_eq_some_iff.mp hb
    obtain ⟨m, hm⟩ := ih (h.of_parent hx) hb
    obtain ⟨k, hk⟩ := h
    rw [Framework.ancestor, hx] at hk
    exact ⟨m + k, ancestor_trans hm hk⟩

theorem EndsAt.not_above (h : EndsAt parent a n r) (hlt : n < m) : ancestor parent m a = none := by
  obtain ⟨k, rfl⟩ := Nat.exists_eq_add_of_lt hlt
  rw [Nat.add_assoc, ancestor_add, h.1]
  show (parent r).bind _ = none
  rw [h.2]
  rfl

theorem EndsAt.unique {r' : α} (h : EndsAt parent a n r) (h' : EndsAt parent a m r') :
    n = m ∧ r = r' := by
  have hnm : n = m := by
    refine Nat.le_antisymm (Nat.le_of_not_lt fun hlt => ?_) (Nat.le_of_not_lt fun hlt => ?_)
    · cases h.1.symm.trans (h'.not_above hlt)
    · cases h'.1.symm.trans (h.not_above hlt)
  subst hnm
  exact ⟨rfl, Option.some.inj (h.1.symm.trans h'.1)⟩

theorem Enters.unique {c' : α} (h : Enters parent a n c) (h' : Enters parent a m c') :
    n = m ∧ c = c' := by
  have hnm : n = m := by
    refine Nat.le_antisymm (Nat.le_of_not_lt fun hlt => ?_) (Nat.le_of_not_lt fun hlt => ?_)
    · exact h.2.2 m hlt c' h'.1 h'.2.1
    · exact h'.2.2 n hlt c h.1 h.2.1
  subst hnm
  exact ⟨rfl, Option.some.inj (h.1.symm.trans h'.1)⟩

theorem EndsAt.not_enters (h : EndsAt parent a n r) : ¬Enters parent a m c := by
  rintro ⟨hc, hcycle, -⟩
  have hle : m ≤ n := by
    refine Nat.le_of_not_lt fun hlt => ?_
    rw [h.not_above hlt] at hc
    cases hc
  obtain ⟨k, rfl⟩ := Nat.exists_eq_add_of_le hle
  have hr : ancestor parent k c = some r := by
    have hn := h.1
    rw [ancestor_add, hc] at hn
    exact hn
  obtain ⟨b, hb⟩ := (hcycle.ancestor hr).parent_some
  rw [h.2] at hb
  cases hb

theorem EndsAt.child (h : EndsAt parent b n r) (hab : parent a = some b) :
    EndsAt parent a (n + 1) r := by
  refine ⟨?_, h.2⟩
  rw [ancestor, hab]
  exact h.1

theorem Enters.child (h : Enters parent b n c) (hab : parent a = some b)
    (ha : ¬OnCycle parent a) : Enters parent a (n + 1) c := by
  refine ⟨?_, h.2.1, ?_⟩
  · rw [ancestor, hab]
    exact h.1
  · intro m hm x hx
    cases m with
    | zero => exact Option.some.inj hx ▸ ha
    | succ m =>
      rw [ancestor, hab] at hx
      exact h.2.2 m (Nat.lt_of_succ_lt_succ hm) x hx

section Congr

variable {parent' : α → Option α}
  (h : ∀ n x, ancestor parent n a = some x → parent' x = parent x)

include h

theorem EndsAt.congr (he : EndsAt parent a n r) : EndsAt parent' a n r :=
  ⟨(ancestor_congr h n).trans he.1, (h n r he.1).trans he.2⟩

theorem onCycle_congr : OnCycle parent' a ↔ OnCycle parent a :=
  exists_congr fun n => by rw [ancestor_congr h (n + 1)]

theorem agree_ancestor (hb : ancestor parent m a = some b) :
    ∀ n x, ancestor parent n b = some x → parent' x = parent x :=
  fun n x hx => h (m + n) x (ancestor_trans hb hx)

theorem Enters.congr (he : Enters parent a n c) : Enters parent' a n c := by
  refine ⟨(ancestor_congr h n).trans he.1, (onCycle_congr (agree_ancestor h he.1)).mpr he.2.1, ?_⟩
  intro m hm x hx
  rw [ancestor_congr h m] at hx
  rw [onCycle_congr (agree_ancestor h hx)]
  exact he.2.2 m hm x hx

end Congr

/-- The nodes of a list that follow each other up to the last, whose parent is the
first: the cycle through any of them. -/
theorem cycle_mem_iff {l : List α} (hchain : l.IsChain fun x y => parent x = some y)
    (hne : l ≠ []) (hlast : parent (l.getLast hne) = some (l.head hne)) (ha : a ∈ l) :
    OnCycle parent a ∧ ∀ x, x ∈ l ↔ ∃ n, ancestor parent n a = some x := by
  -- from every node on, the rest of the list and then the first node
  have hdown : ∀ x ∈ l, ∃ n, ancestor parent (n + 1) x = some (l.head hne) := by
    intro x hx
    obtain ⟨pre, post, rfl⟩ := append_of_mem hx
    have hrest := (isChain_append.mp hchain).2.1
    have hlast' : parent ((x :: post).getLast (by simp)) = some ((pre ++ x :: post).head hne) := by
      rw [← hlast, getLast_append_of_ne_nil _ (by simp)]
    revert hlast'
    generalize (pre ++ x :: post).head hne = first
    clear hlast hchain hx hne ha
    induction post generalizing x with
    | nil => exact fun h => ⟨0, ancestor_one h⟩
    | cons y post ih =>
      intro h
      rw [isChain_cons_cons] at hrest
      obtain ⟨n, hn⟩ := ih y hrest.2 (by simpa using h)
      exact ⟨n + 1, by rw [ancestor, hrest.1]; exact hn⟩
  have hup : ∀ x ∈ l, ∃ n, ancestor parent n (l.head hne) = some x := by
    intro x hx
    obtain ⟨pre, post, rfl⟩ := append_of_mem hx
    cases pre with
    | nil => exact ⟨0, rfl⟩
    | cons y pre =>
      show ∃ n, ancestor parent n y = some x
      clear hdown hlast hx ha hne
      induction pre generalizing y with
      | nil => exact ⟨1, ancestor_one (isChain_cons_cons.mp hchain).1⟩
      | cons z pre ih =>
        obtain ⟨hyz, hrest⟩ := isChain_cons_cons.mp hchain
        obtain ⟨n, hn⟩ := ih z hrest
        exact ⟨n + 1, by rw [ancestor, hyz]; exact hn⟩
  obtain ⟨n, hn⟩ := hdown a ha
  refine ⟨?_, fun x => ⟨?_, ?_⟩⟩
  · obtain ⟨m, hm⟩ := hup a ha
    refine ⟨n + m, ?_⟩
    rw [Nat.add_right_comm]
    exact ancestor_trans hn hm
  · intro hx
    obtain ⟨m, hm⟩ := hup x hx
    exact ⟨n + 1 + m, ancestor_trans hn hm⟩
  · rintro ⟨k, hk⟩
    refine ancestor_closed (P := (· ∈ l)) ?_ ha hk
    intro y z hy hz
    obtain ⟨pre, post, rfl⟩ := append_of_mem hy
    cases post with
    | nil =>
      rw [getLast_append_of_ne_nil _ (by simp)] at hlast
      rw [Option.some.inj (hz.symm.trans hlast)]
      exact head_mem hne
    | cons w post =>
      have hrest := (isChain_append.mp hchain).2.1
      rw [Option.some.inj (hz.symm.trans (isChain_cons_cons.mp hrest).1)]
      simp

end Medre.Framework
