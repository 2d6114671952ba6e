import Mathlib.Data.List.MinMax
import Mathlib.Data.Prod.Lex
import Mathlib.Data.Int.Order.Basic
import Mathlib.Tactic.Common
import Mathlib.Tactic.Linarith

/-! # Selecting the current record of a log

Among the ranked records the highest rank leads and append order breaks ties, among the plain
ones append order leads, and the later of the two leaders is current. -/

namespace Medre.Framework

open List

/-- How a record takes part in the selection. -/
inductive Standing where
  | ranked (rank : ℤ)
  | plain
deriving DecidableEq, Repr

def Standing.isRanked : Standing → Bool
  | .ranked _ => true
  | .plain => false

def Standing.rank : Standing → ℤ
  | .ranked n => n
  | .plain => 0

/-- The first of the records with the greatest key. -/
abbrev greatest {α κ : Type} [LinearOrder κ] (key : α → κ) (l : List α) : Option α :=
  l.argmax key

/-- Keys that order the elements alike have the same maximum. -/
theorem argmax_congr {α β γ : Type} [LinearOrder β] [LinearOrder γ] {f : α → β} {g : α → γ}
    (l : List α) (h : ∀ a ∈ l, ∀ b ∈ l, f a < f b ↔ g a < g b) :
    greatest f l = greatest g l := by
  induction l using List.reverseRecOn with
  | nil => rfl
  | append_singleton l a ih =>
    have hl : l.argmax f = l.argmax g := ih fun x hx y hy =>
      h x (mem_append_left _ hx) y (mem_append_left _ hy)
    rw [greatest, greatest, argmax_concat, argmax_concat, hl]
    cases hm : l.argmax g with
    | none => rfl
    | some m =>
      have hiff := h m (mem_append_left _ (argmax_mem hm)) a
        (mem_append_right _ (mem_singleton.mpr rfl))
      simp only [hiff]

section

variable {ρ : Type} (c : ρ → Option Standing) (seq : ρ → ℤ) (rows : List ρ)

/-- `ORDER BY rank DESC, sequence DESC`. -/
def rankKey (r : ρ) : ℤ ×ₗ ℤ := toLex (((c r).map Standing.rank).getD 0, seq r)

def rankedLeader : Option ρ :=
  greatest (rankKey c seq) (rows.filter fun r => (c r).any Standing.isRanked)

def plainLeader : Option ρ := greatest seq (rows.filter fun r => c r = some .plain)

/-- The later of the two leaders. -/
def select : Option ρ :=
  greatest seq ((rankedLeader c seq rows).toList ++ (plainLeader c seq rows).toList)

/-! ## What is selected -/

/-- `r` leads the ranked records. -/
def IsTop (r : ρ) : Prop :=
  r ∈ rows ∧ ∃ n, c r = some (.ranked n) ∧
    ∀ s ∈ rows, ∀ m, c s = some (.ranked m) → m < n ∨ (m = n ∧ seq s ≤ seq r)

/-- `r` leads the plain records. -/
def IsLast (r : ρ) : Prop :=
  r ∈ rows ∧ c r = some .plain ∧ ∀ s ∈ rows, c s = some .plain → seq s ≤ seq r

/-- `r` is current. -/
def Leads (r : ρ) : Prop :=
  (IsTop c seq rows r ∧ ∀ b, IsLast c seq rows b → seq b < seq r) ∨
    (IsLast c seq rows r ∧ ∀ t, IsTop c seq rows t → seq t < seq r)

/-- No two records share a position. -/
def Sequenced : Prop := ∀ r ∈ rows, ∀ s ∈ rows, seq r = seq s → r = s

variable {c seq rows}

variable {r : ρ}

theorem standing_isRanked : (c r).any Standing.isRanked = true ↔ ∃ n, c r = some (.ranked n) := by
  cases h : c r with
  | none => simp
  | some k => cases k <;> simp [Standing.isRanked]

theorem rankKey_le {r s : ρ} {n m : ℤ} (hr : c r = some (.ranked n)) (hs : c s = some (.ranked m)) :
    rankKey c seq s ≤ rankKey c seq r ↔ m < n ∨ (m = n ∧ seq s ≤ seq r) := by
  simp [rankKey, hr, hs, Standing.rank, Prod.Lex.toLex_le_toLex]

theorem rankedLeader_isTop (h : rankedLeader c seq rows = some r) : IsTop c seq rows r := by
  have hmem := mem_filter.mp (argmax_mem h)
  obtain ⟨n, hn⟩ := standing_isRanked.mp hmem.2
  refine ⟨hmem.1, n, hn, ?_⟩
  intro s hs m hm
  rw [← rankKey_le hn hm]
  exact le_of_mem_argmax (mem_filter.mpr ⟨hs, standing_isRanked.mpr ⟨m, hm⟩⟩) h

theorem rankedLeader_eq_none (h : rankedLeader c seq rows = none) (hr : r ∈ rows)
    (n : ℤ) : c r ≠ some (.ranked n) := by
  intro hn
  have hmem : r ∈ rows.filter fun r => (c r).any Standing.isRanked :=
    mem_filter.mpr ⟨hr, standing_isRanked.mpr ⟨n, hn⟩⟩
  rw [argmax_eq_none.mp h] at hmem
  cases hmem

theorem plainLeader_isLast (h : plainLeader c seq rows = some r) : IsLast c seq rows r := by
  have hmem := mem_filter.mp (argmax_mem h)
  refine ⟨hmem.1, of_decide_eq_true hmem.2, ?_⟩
  intro s hs hplain
  exact le_of_mem_argmax (mem_filter.mpr ⟨hs, decide_eq_true hplain⟩) h

theorem plainLeader_eq_none (h : plainLeader c seq rows = none) (hr : r ∈ rows) :
    c r ≠ some .plain := by
  intro hplain
  have hmem : r ∈ rows.filter fun r => c r = some .plain :=
    mem_filter.mpr ⟨hr, decide_eq_true hplain⟩
  rw [argmax_eq_none.mp h] at hmem
  cases hmem

theorem IsTop.unique (hseq : Sequenced seq rows) {r s : ρ} (hr : IsTop c seq rows r)
    (hs : IsTop c seq rows s) : r = s := by
  obtain ⟨hmem, n, hn, hmax⟩ := hr
  obtain ⟨hmem', m, hm, hmax'⟩ := hs
  have h1 := hmax s hmem' m hm
  have h2 := hmax' r hmem n hn
  exact hseq r hmem s hmem' (by omega)

theorem IsLast.unique (hseq : Sequenced seq rows) {r s : ρ} (hr : IsLast c seq rows r)
    (hs : IsLast c seq rows s) : r = s := by
  have h1 := hr.2.2 s hs.1 hs.2.1
  have h2 := hs.2.2 r hr.1 hr.2.1
  exact hseq r hr.1 s hs.1 (le_antisymm h2 h1)

theorem rankedLeader_eq_some_iff (hseq : Sequenced seq rows) :
    rankedLeader c seq rows = some r ↔ IsTop c seq rows r := by
  refine ⟨rankedLeader_isTop, fun h => ?_⟩
  cases hl : rankedLeader c seq rows with
  | none =>
    obtain ⟨hr, n, hn, -⟩ := h
    exact absurd hn (rankedLeader_eq_none hl hr n)
  | some s => rw [(rankedLeader_isTop hl).unique hseq h]

theorem IsTop.not_isLast (hr : IsTop c seq rows r) : ¬IsLast c seq rows r := by
  intro hlast
  obtain ⟨-, n, hn, -⟩ := hr
  rw [hlast.2.1] at hn
  cases hn

theorem exists_isLast (seq : ρ → ℤ) (hr : r ∈ rows) (hplain : c r = some .plain) :
    ∃ b, IsLast c seq rows b := by
  cases h : plainLeader c seq rows with
  | none => exact absurd hplain (plainLeader_eq_none h hr)
  | some b => exact ⟨b, plainLeader_isLast h⟩

theorem Leads.unique (hseq : Sequenced seq rows) {r s : ρ} (hr : Leads c seq rows r)
    (hs : Leads c seq rows s) : r = s := by
  rcases hr with ⟨hr, hlater⟩ | ⟨hr, hlater⟩ <;> rcases hs with ⟨hs, hlater'⟩ | ⟨hs, hlater'⟩
  · exact hr.unique hseq hs
  · exact absurd (hlater s hs) (not_lt_of_gt (hlater' r hr))
  · exact absurd (hlater s hs) (not_lt_of_gt (hlater' r hr))
  · exact hr.unique hseq hs

theorem Leads.mem (h : Leads c seq rows r) : r ∈ rows := by
  rcases h with ⟨h, -⟩ | ⟨h, -⟩ <;> exact h.1

theorem leads_of_select (hseq : Sequenced seq rows) (h : select c seq rows = some r) :
    Leads c seq rows r := by
  have hmem := argmax_mem h
  rw [mem_append, Option.mem_toList, Option.mem_toList] at hmem
  have hle : ∀ s ∈ (rankedLeader c seq rows).toList ++ (plainLeader c seq rows).toList,
      seq s ≤ seq r := fun s hs => le_of_mem_argmax hs h
  rcases hmem with hr | hr
  · have htop := rankedLeader_isTop hr
    refine .inl ⟨htop, ?_⟩
    intro b hb
    cases hp : plainLeader c seq rows with
    | none => exact absurd hb.2.1 (plainLeader_eq_none hp hb.1)
    | some b' =>
      obtain rfl := (plainLeader_isLast hp).unique hseq hb
      refine lt_of_le_of_ne (hle b' (by simp [hp])) ?_
      intro heq
      exact htop.not_isLast (hseq b' hb.1 r htop.1 heq ▸ hb)
  · have hlast := plainLeader_isLast hr
    refine .inr ⟨hlast, ?_⟩
    intro t ht
    cases hp : rankedLeader c seq rows with
    | none =>
      obtain ⟨hmem, n, hn, -⟩ := ht
      exact absurd hn (rankedLeader_eq_none hp hmem n)
    | some t' =>
      obtain rfl := (rankedLeader_isTop hp).unique hseq ht
      refine lt_of_le_of_ne (hle t' (by simp [hp])) ?_
      intro heq
      exact ht.not_isLast (hseq t' ht.1 r hlast.1 heq ▸ hlast)

theorem select_eq_none_iff : select c seq rows = none ↔ ∀ r ∈ rows, c r = none := by
  unfold select
  rw [argmax_eq_none, append_eq_nil_iff, Option.toList_eq_nil_iff, Option.toList_eq_nil_iff]
  constructor
  · rintro ⟨hranked, hplain⟩ r hr
    cases hc : c r with
    | none => rfl
    | some k =>
      cases k with
      | ranked n => exact absurd hc (rankedLeader_eq_none hranked hr n)
      | plain => exact absurd hc (plainLeader_eq_none hplain hr)
  · intro h
    constructor
    · cases hl : rankedLeader c seq rows with
      | none => rfl
      | some r =>
        obtain ⟨hr, n, hn, -⟩ := rankedLeader_isTop hl
        rw [h r hr] at hn
        cases hn
    · cases hl : plainLeader c seq rows with
      | none => rfl
      | some r =>
        have hlast := plainLeader_isLast hl
        have hn := hlast.2.1
        rw [h r hlast.1] at hn
        cases hn

theorem select_eq_some_iff (hseq : Sequenced seq rows) :
    select c seq rows = some r ↔ Leads c seq rows r := by
  constructor
  · exact leads_of_select hseq
  · intro h
    cases hs : select c seq rows with
    | none =>
      have hnone := select_eq_none_iff.mp hs r h.mem
      rcases h with ⟨⟨-, n, hn, -⟩, -⟩ | ⟨⟨-, hplain, -⟩, -⟩
      · rw [hnone] at hn
        cases hn
      · rw [hnone] at hplain
        cases hplain
    | some s => rw [(leads_of_select hseq hs).unique hseq h]

/-! ## Two readings -/

/-- The same standing with its rank given by `f`. -/
def Standing.rerank (f : ℤ → ℤ) : Standing → Standing
  | .ranked n => .ranked (f n)
  | .plain => .plain

/-- A reading that ranks the same records by other numbers selects the same one if the
numbers order them alike. -/
theorem select_rerank (f : ℤ → ℤ) {d : ρ → Option Standing}
    (hd : ∀ r ∈ rows, d r = (c r).map (Standing.rerank f))
    (horder : ∀ r ∈ rows, ∀ s ∈ rows, ∀ n m, c r = some (.ranked n) → c s = some (.ranked m) →
      ((n < m ∨ n = m ∧ seq r < seq s) ↔ (f n < f m ∨ f n = f m ∧ seq r < seq s))) :
    select c seq rows = select d seq rows := by
  have hisRanked : ∀ r ∈ rows, (c r).any Standing.isRanked = (d r).any Standing.isRanked := by
    intro r hr
    rw [hd r hr]
    cases c r with
    | none => rfl
    | some k => cases k <;> rfl
  have hplain : ∀ r ∈ rows, c r = some .plain ↔ d r = some .plain := by
    intro r hr
    rw [hd r hr]
    cases c r with
    | none => simp
    | some k => cases k <;> simp [Standing.rerank]
  have hranked : rankedLeader c seq rows = rankedLeader d seq rows := by
    rw [rankedLeader, rankedLeader, ← filter_congr hisRanked]
    refine argmax_congr _ fun r hr s hs => ?_
    obtain ⟨hr, hn⟩ := mem_filter.mp hr
    obtain ⟨hs, hm⟩ := mem_filter.mp hs
    obtain ⟨n, hn⟩ := standing_isRanked.mp hn
    obtain ⟨m, hm⟩ := standing_isRanked.mp hm
    simpa [rankKey, hd r hr, hd s hs, hn, hm, Standing.rerank, Standing.rank,
      Prod.Lex.toLex_lt_toLex] using horder r hr s hs n m hn hm
  have hlast : plainLeader c seq rows = plainLeader d seq rows := by
    rw [plainLeader, plainLeader, filter_congr fun r hr => decide_eq_decide.mpr (hplain r hr)]
  rw [select, select, hranked, hlast]

theorem select_congr {d : ρ → Option Standing} (h : ∀ r ∈ rows, c r = d r) :
    select c seq rows = select d seq rows := by
  refine select_rerank id (fun r hr => ?_) fun r _ s _ n m _ _ => Iff.rfl
  rw [← h r hr]
  cases c r with
  | none => rfl
  | some k => cases k <;> rfl

/-! ## Leaving records out -/

/-- The reading that leaves out the records outside `p`. -/
def restrict (p : ρ → Bool) (c : ρ → Option Standing) (r : ρ) : Option Standing :=
  if p r then c r else none

theorem restrict_some {p : ρ → Bool} {k : Standing} :
    restrict p c r = some k ↔ p r = true ∧ c r = some k := by
  unfold restrict
  by_cases h : p r = true <;> simp [h]

end

end Medre.Framework
