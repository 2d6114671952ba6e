import Medre.Storage.Permanence

/-! # What a call may do to one outbox row

`Change` has one constructor for each `UPDATE delivery_outbox`, with what its `WHERE` clause has
established. Every fact about the life of a row is read off it. -/

namespace Medre.Storage

open Medre.Framework

/-! ## The `mark_outbox_*` family -/

/-- The arguments a mark passes to `_update_outbox_status`. -/
def MarkCall.update : MarkCall → StatusUpdate
  | .sent o r n w =>
    { outboxId := o, newStatus := .sent, allowedFrom := some [.inProgress, .queued]
      receiptId := r, attemptNumber := n, expectedWorkerId := w }
  | .queued o r n w =>
    { outboxId := o, newStatus := .queued, allowedFrom := some [.inProgress]
      receiptId := r, attemptNumber := n, expectedWorkerId := w }
  | .retryWait o t r k d e n w =>
    { outboxId := o, newStatus := .retryWait, allowedFrom := some [.inProgress]
      receiptId := r, attemptNumber := n, failureKind := k, failureKindDetail := d
      errorSummary := e, nextAttemptAt := some t, expectedWorkerId := w }
  | .deadLettered o r k d e n w =>
    { outboxId := o, newStatus := .deadLettered
      allowedFrom := some [.inProgress, .retryWait], receiptId := r, attemptNumber := n
      failureKind := k, failureKindDetail := d, errorSummary := e, expectedWorkerId := w }
  | .cancelled o e r k n w =>
    { outboxId := o, newStatus := .cancelled
      allowedFrom := some [.pending, .inProgress, .retryWait, .queued], receiptId := r
      attemptNumber := n, failureKind := k, errorSummary := e, expectedWorkerId := w }
  | .abandoned o e r k n w =>
    { outboxId := o, newStatus := .abandoned
      allowedFrom := some [.pending, .inProgress, .retryWait, .queued], receiptId := r
      attemptNumber := n, failureKind := k, errorSummary := e, expectedWorkerId := w }

theorem markOutbox_eq (m : MarkCall) (now : Datetime) :
    markOutbox m now = updateOutboxStatus m.update now := by
  cases m <;> rfl

variable {r : OutboxRow}

theorem StatusUpdate.guards_id {u : StatusUpdate} (h : u.guards r = true) :
    r.outboxId = u.outboxId := by
  simp only [StatusUpdate.guards, Bool.and_eq_true, decide_eq_true_eq] at h
  exact h.1.1.1.1

namespace MarkCall

theorem update_newStatus (m : MarkCall) :
    m.update.newStatus ≠ .inProgress ∧ m.update.newStatus ≠ .pending := by
  cases m <;> exact ⟨nofun, nofun⟩

theorem update_schedule (m : MarkCall) :
    m.update.nextAttemptAt.isSome = decide (m.update.newStatus = .retryWait) := by
  cases m <;> rfl

theorem update_valid (m : MarkCall) (h : m.update.guards r = true) :
    validateOutboxTransition r.status m.update.newStatus = true := by
  have hfrom : m.update.allowedFrom.all (fun from' => from'.contains r.status) = true := by
    simp only [StatusUpdate.guards, Bool.and_eq_true] at h
    exact h.2
  revert hfrom
  cases m <;> cases r.status <;> first | exact fun _ => rfl | exact nofun

end MarkCall

/-! ## Changes -/

/-- What the call may do to a row of an outbox that holds `rows`. -/
inductive Change (rows : List OutboxRow) : Op → OutboxRow → OutboxRow → Prop
  | claim {now w : String} {secs : ℤ} {cands : List String} {f : ClaimFilters}
      {cutoff lease : String} {r : OutboxRow} (h : r.claimable rows now cutoff f = true) :
      Change rows (.claimDueOutboxItems now w secs cands f) r (r.claim now lease w)
  | reserve {o w : String} {n : ℤ} {now : Datetime} {r : OutboxRow}
      (h : r.reservable rows o w n = true) :
      Change rows (.reserveOutboxAttempt o w n now) r (r.reserve (nowIso now))
  | renew {o w l : String} {now : Datetime} {r : OutboxRow} (h : r.ownedBy o w = true) :
      Change rows (.renewOutboxLease o w l now) r (r.renew l (nowIso now))
  | release {o w : String} {st : OutboxStatus} {now : Datetime} {r : OutboxRow}
      (h : r.ownedBy o w = true) (hactive : r.activeAttempt = none)
      (hst : st.isClaimable = true) :
      Change rows (.releaseOutboxClaim o w st now) r (r.releaseClaim st (nowIso now))
  | mark {m : MarkCall} {now : Datetime} {r : OutboxRow} (h : m.update.guards r = true) :
      Change rows (.markOutbox m now) r (m.update.apply (nowIso now) r)
  | finalizeSent {c : DeferredHandoffFinalization} {r : OutboxRow}
      (h : r.finalizable (c.receipt.outboxId.getD "") c.receipt.identity
        c.receipt.attemptNumber = true) :
      Change rows (.finalizeDeferredHandoff c) r
        (r.finalizeSent c.receipt.createdAt.isoformat c.receipt.receiptId)
  | finalizeTerminal {c : TerminalOutboxFinalization} {r : OutboxRow}
      (h : r.finalizable (c.lifecycleReceipt.outboxId.getD "") c.lifecycleReceipt.identity
        c.lifecycleReceipt.attemptNumber = true)
      (hworker : c.expectedWorkerId.all (fun w => r.workerId = some w) = true) :
      Change rows (.finalizeOutboxTerminal c) r
        (r.finalizeTerminal c.terminalStatus c.lifecycleReceipt.failureKind
          c.lifecycleReceipt.createdAt.isoformat c.lifecycleReceipt.receiptId)
  | retire {now : Datetime} {limit : ℤ} {observed : String} {r : OutboxRow}
      (hst : r.status.isClaimable = true) (h : r.unclaimed = true) :
      Change rows (.retireExpiredUnstartedOutbox now limit) r (r.retire observed)
  | cancel {d : CancelUnstartedDecision} {now : Datetime} {r : OutboxRow}
      (hst : r.status.isClaimable = true) (h : r.unclaimed = true) :
      Change rows (.cancelUnstartedDelivery d now) r (r.cancel (nowIso now))

theorem OutboxRow.claimable_status {rows : List OutboxRow} {now cutoff : String}
    {f : ClaimFilters} (h : r.claimable rows now cutoff f = true) :
    r.status.isClaimable = true ∨ r.status = .inProgress ∨ r.status = .queued := by
  simp only [OutboxRow.claimable, OutboxRow.dueStatus, Bool.and_eq_true, Bool.or_eq_true,
    decide_eq_true_eq] at h
  rcases h.1.1.1.1 with (h | h) | h
  · exact .inl h
  · exact .inr (.inl h.1)
  · exact .inr (.inr h.1)

theorem OutboxRow.finalizable_status {o : String} {i : DeliveryIdentity} {n : ℤ}
    (h : r.finalizable o i n = true) :
    r.status = .queued ∨ r.status = .inProgress := by
  simp only [OutboxRow.finalizable, Bool.and_eq_true, Bool.or_eq_true, decide_eq_true_eq] at h
  exact h.2

theorem TerminalOutboxFinalization.terminalStatus_isTerminal
    (c : TerminalOutboxFinalization) : c.terminalStatus.isTerminal = true := by
  unfold terminalStatus
  cases c.lifecycleReceipt.status <;> rfl

namespace Change

variable {rows : List OutboxRow} {op : Op} {r r' : OutboxRow}

theorem keys (h : Change rows op r r') :
    r'.outboxId = r.outboxId ∧ r'.eventId = r.eventId ∧ r'.identity = r.identity ∧
      r'.targetChannel = r.targetChannel ∧ r'.metadata = r.metadata := by
  cases h <;> exact ⟨rfl, rfl, rfl, rfl, rfl⟩

theorem live (h : Change rows op r r') : r.status.isTerminal = false := by
  cases h with
  | claim h =>
    rcases OutboxRow.claimable_status h with h | h | h
    · cases hs : r.status <;> simp_all [OutboxStatus.isClaimable, OutboxStatus.isTerminal]
    · rw [h]
      rfl
    · rw [h]
      rfl
  | reserve h =>
    simp only [OutboxRow.reservable, Bool.and_eq_true, decide_eq_true_eq] at h
    rw [h.1.1.1.2]
    rfl
  | renew h =>
    simp only [OutboxRow.ownedBy, Bool.and_eq_true, decide_eq_true_eq] at h
    rw [h.2]
    rfl
  | release h hactive hst =>
    simp only [OutboxRow.ownedBy, Bool.and_eq_true, decide_eq_true_eq] at h
    rw [h.2]
    rfl
  | mark h =>
    simp only [StatusUpdate.guards, Bool.and_eq_true, Bool.not_eq_true'] at h
    exact h.1.1.1.2
  | finalizeSent h =>
    rcases OutboxRow.finalizable_status h with h | h <;> rw [h] <;> rfl
  | finalizeTerminal h hworker =>
    rcases OutboxRow.finalizable_status h with h | h <;> rw [h] <;> rfl
  | retire hst h =>
    cases hs : r.status <;> simp_all [OutboxStatus.isClaimable, OutboxStatus.isTerminal]
  | cancel hst h =>
    cases hs : r.status <;> simp_all [OutboxStatus.isClaimable, OutboxStatus.isTerminal]

theorem generation_le (h : Change rows op r r') : r.generation ≤ r'.generation := by
  cases h with
  | reserve h =>
    simp only [OutboxRow.reservable, Bool.and_eq_true, Option.isNone_iff_eq_none] at h
    simp only [OutboxRow.generation, OutboxRow.reserve, h.1.1.2, Option.getD_none, Option.getD_some]
    omega
  | mark h =>
    rename_i m now
    simp only [StatusUpdate.guards, Bool.and_eq_true] at h
    have hattempt := h.1.1.2
    cases hn : m.update.attemptNumber with
    | none =>
      have hgen : (m.update.apply (nowIso now) r).generation = r.generation := by
        simp [OutboxRow.generation, StatusUpdate.apply, hn, m.update_newStatus.1]
      exact hgen.ge
    | some n =>
      have hgen : (m.update.apply (nowIso now) r).generation = n := by
        simp [OutboxRow.generation, StatusUpdate.apply, hn]
      rw [hgen]
      simp only [hn, Option.all_some, Bool.or_eq_true, Bool.and_eq_true,
        decide_eq_true_eq, Option.isNone_iff_eq_none] at hattempt
      rcases hattempt with ⟨hactive, hle⟩ | hactive
      · rw [OutboxRow.generation, hactive]
        exact hle
      · rw [OutboxRow.generation, hactive]
        rfl
  | _ => exact le_refl _

theorem terminal_clean (h : Change rows op r r') (ht : r'.status.isTerminal = true) :
    r'.workerId = none ∧ r'.leaseUntil = none ∧ r'.nextAttemptAt = none := by
  cases h with
  | claim h => cases ht
  | reserve h =>
    simp only [OutboxRow.reservable, Bool.and_eq_true, decide_eq_true_eq] at h
    have hst : r.status = .inProgress := h.1.1.1.2
    simp [OutboxRow.reserve, hst, OutboxStatus.isTerminal] at ht
  | renew h =>
    simp only [OutboxRow.ownedBy, Bool.and_eq_true, decide_eq_true_eq] at h
    simp [OutboxRow.renew, h.2, OutboxStatus.isTerminal] at ht
  | release h hactive hst =>
    rename_i o w st now
    cases st <;> simp_all [OutboxRow.releaseClaim, OutboxStatus.isTerminal,
      OutboxStatus.isClaimable]
  | mark h =>
    rename_i m now
    have ht' : m.update.newStatus.isTerminal = true := ht
    have hnext : m.update.nextAttemptAt = none := by
      have hs := m.update_schedule
      cases hn : m.update.newStatus <;> simp_all [OutboxStatus.isTerminal]
    simp [StatusUpdate.apply, ht', hnext]
  | finalizeSent h => exact ⟨rfl, rfl, rfl⟩
  | finalizeTerminal h hworker => exact ⟨rfl, rfl, rfl⟩
  | retire hst h => exact ⟨rfl, rfl, rfl⟩
  | cancel hst h =>
    simp only [OutboxRow.unclaimed, Bool.and_eq_true, Option.isNone_iff_eq_none] at h
    exact ⟨h.1.1.2, h.2, rfl⟩

end Change

end Medre.Storage
