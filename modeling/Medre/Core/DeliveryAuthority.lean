import Medre.Framework.Selection
import Medre.Storage.Schema

/-! # The in-memory rule of current delivery authority (`delivery_authority.py`)

Python's `max` keeps the first of several maxima, as `greatest` does, and its `x or y` falls
through on `None`, `0` and the empty text alike, unlike `COALESCE`. -/

namespace Medre.Core

open List Medre.Framework Medre.Storage

variable {t : Table outboxConstraint} {r s : OutboxRow}

/-- `int(n or 1)`. -/
def orOne (n : ℤ) : ℤ := if n = 0 then 1 else n

/-! ## The current outbox generation -/

def effectiveGeneration (r : OutboxRow) : ℤ :=
  match r.activeAttempt with
  | some a => if a = 0 then orOne r.attemptNumber else a
  | none => orOne r.attemptNumber

/-- The part of `_outbox_rank` behind the generation. -/
def outboxTieRank (r : OutboxRow) : String ×ₗ String ×ₗ String :=
  toLex (r.updatedAt, toLex (r.createdAt, r.outboxId))

def outboxRank (r : OutboxRow) : ℤ ×ₗ String ×ₗ String ×ₗ String :=
  toLex (effectiveGeneration r, outboxTieRank r)

def selectCurrentOutbox (items : List OutboxRow) : Option OutboxRow :=
  greatest outboxRank items

/-! ## The current receipt -/

/-- `ReceiptAuthority`: the committed pointers `(outbox_id, receipt_id, attempt)`. -/
structure ReceiptAuthority where
  committed : List (String × String × ℤ)

def ReceiptAuthority.generationFor (authority : ReceiptAuthority) (r : ReceiptRow) : Option ℤ :=
  let outboxId := r.outboxId.getD ""
  if outboxId = "" ∨ r.receiptId = "" then none
  else
    (authority.committed.find? fun t => t.1 = outboxId && t.2.1 = r.receiptId).map fun t => t.2.2

def committedPointer (o : OutboxRow) : Option (String × String × ℤ) :=
  let receiptId := o.receiptId.getD ""
  if receiptId = "" ∨ o.outboxId = "" then none
  else some (o.outboxId, receiptId, orOne o.attemptNumber)

/-- `authority_index(outbox_items).get(identity)`. -/
def authorityIndex (items : List OutboxRow) (identity : DeliveryIdentity) :
    Option ReceiptAuthority :=
  match items.filter fun o => o.identity = identity with
  | [] => none
  | own => some { committed := own.filterMap committedPointer }

def appendRank (r : ReceiptRow) : ℤ ×ₗ String ×ₗ String :=
  toLex (r.sequence, toLex (r.createdAt, r.receiptId))

/-- `_generation_rank`; it is asked of committed receipts only. -/
def generationRank (authority : ReceiptAuthority) (r : ReceiptRow) :
    ℤ ×ₗ ℤ ×ₗ String ×ₗ String :=
  toLex ((authority.generationFor r).getD 0, appendRank r)

def selectCurrentReceipt (receipts : List ReceiptRow) :
    Option ReceiptAuthority → Option ReceiptRow
  | none => greatest appendRank receipts
  | some authority =>
    let outboxBacked := receipts.filter fun r => (authority.generationFor r).isSome
    let outboxless := receipts.filter fun r => orNone r.outboxId = none
    let candidates := (greatest (generationRank authority) outboxBacked).toList ++
      (greatest appendRank outboxless).toList
    greatest appendRank candidates

/-- `DeliveryAuthorityResolver(receipts, outbox_items).current(identity)`. -/
def resolverCurrent (receipts : List ReceiptRow) (items : List OutboxRow)
    (identity : DeliveryIdentity) : Option ReceiptRow :=
  selectCurrentReceipt (receipts.filter fun r => r.identity = identity)
    (authorityIndex items identity)

/-! ## Generations in Python and in SQL -/

/-- On stored rows Python's generation is SQL's `COALESCE`, with 0 read as 1. -/
theorem effectiveGeneration_eq (hr : r ∈ t.rows) : effectiveGeneration r = orOne r.generation := by
  have hc : r.check = true := t.checked r hr
  simp only [OutboxRow.check, Bool.and_eq_true, decide_eq_true_eq] at hc
  unfold effectiveGeneration OutboxRow.generation
  cases ha : r.activeAttempt with
  | none => rfl
  | some a =>
    have hnext : a = r.attemptNumber + 1 := by simpa [ha] using hc.1.1.1.2
    have hne : a ≠ 0 := by omega
    simp [orOne, hne]

theorem outboxRank_le :
    outboxRank s ≤ outboxRank r ↔ effectiveGeneration s < effectiveGeneration r ∨
      (effectiveGeneration s = effectiveGeneration r ∧ outboxTieRank s ≤ outboxTieRank r) :=
  Prod.Lex.toLex_le_toLex

theorem outboxTieRank_injective (hr : r ∈ t.rows) (hs : s ∈ t.rows)
    (h : outboxTieRank r = outboxTieRank s) : r = s := by
  refine outbox_eq_of_id t hr hs ?_
  simp only [outboxTieRank, EmbeddingLike.apply_eq_iff_eq, Prod.mk.injEq] at h
  exact h.2.2

/-- The current row in Python: of the delivery's rows none is at a newer generation, a 0 read as
1, and none at its own has later times or, at the same times, a greater id. -/
theorem selectCurrentOutbox_eq_some_iff {identity : DeliveryIdentity} (hr : r ∈ t.rows)
    (hident : r.identity = identity) :
    selectCurrentOutbox (t.rows.filter fun o => o.identity = identity) = some r ↔
      ∀ s ∈ t.rows, s.identity = identity → orOne s.generation < orOne r.generation ∨
        (orOne s.generation = orOne r.generation ∧ outboxTieRank s ≤ outboxTieRank r) := by
  have hmemr : r ∈ t.rows.filter fun o => o.identity = identity :=
    mem_filter.mpr ⟨hr, decide_eq_true hident⟩
  have hrank : ∀ s ∈ t.rows, outboxRank s ≤ outboxRank r ↔ _ := fun s hs => by
    rw [outboxRank_le, effectiveGeneration_eq hs, effectiveGeneration_eq hr]
  constructor
  · intro h s hs hsident
    exact (hrank s hs).mp (le_of_mem_argmax (mem_filter.mpr ⟨hs, decide_eq_true hsident⟩) h)
  · intro h
    cases hsel : selectCurrentOutbox (t.rows.filter fun o => o.identity = identity) with
    | none =>
      rw [argmax_eq_none.mp hsel] at hmemr
      cases hmemr
    | some s =>
      obtain ⟨hs, hsident⟩ := mem_filter.mp (argmax_mem hsel)
      have heq : outboxRank s = outboxRank r :=
        le_antisymm ((hrank s hs).mpr (h s hs (of_decide_eq_true hsident)))
          (le_of_mem_argmax hmemr hsel)
      rw [outboxTieRank_injective hs hr (congrArg (fun k => (ofLex k).2) heq)]

/-- The strictly newest generation of a delivery is current in Python exactly
when it does not tie, at generation 1, with a staged row that ranks above it. -/
theorem selectCurrentOutbox_eq_iff (t : Table outboxConstraint) (identity : DeliveryIdentity)
    (hr : r ∈ t.rows) (hident : r.identity = identity)
    (hnewest : ∀ s ∈ t.rows, s.identity = identity → s.outboxId ≠ r.outboxId →
      s.generation < r.generation) :
    selectCurrentOutbox (t.rows.filter fun o => o.identity = identity) = some r ↔
      ¬(r.generation = 1 ∧ ∃ s ∈ t.rows, s.identity = identity ∧ s.generation = 0 ∧
        outboxTieRank r < outboxTieRank s) := by
  rw [selectCurrentOutbox_eq_some_iff hr hident]
  constructor
  · rintro h ⟨hone, s, hs, hsident, hzero, hlt⟩
    rcases h s hs hsident with hgen | ⟨-, hle⟩
    · rw [hone, hzero] at hgen
      exact absurd hgen (by decide)
    · exact absurd hle (not_le_of_gt hlt)
  · intro h s hs hsident
    by_cases hid : s.outboxId = r.outboxId
    · rw [outbox_eq_of_id t hs hr hid]
      exact .inr ⟨rfl, le_rfl⟩
    have hlt := hnewest s hs hsident hid
    by_cases htie : r.generation = 1 ∧ s.generation = 0
    · refine .inr ⟨by rw [htie.1, htie.2]; rfl, not_lt.mp fun hlt => ?_⟩
      exact h ⟨htie.1, s, hs, hsident, htie.2, hlt⟩
    · left
      unfold orOne
      split <;> split <;> omega

end Medre.Core
