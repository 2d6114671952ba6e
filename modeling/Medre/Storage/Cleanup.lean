import Mathlib.Data.List.Sort
import Medre.Storage.Finalize

/-! # The deadline sweep (`_deadline_cleanup.py`) and operator decisions -/

namespace Medre.Storage

open Medre.Framework

/-! ## The deadline sweep -/

def deadlineRetirementFailureKind : String := "deadline_exceeded"

def deadlineRetirementSummary : String :=
  "Effective delivery deadline elapsed before dispatch; unstarted work retired"

namespace OutboxRow

/-- No claim, reservation or lease. -/
def unclaimed (r : OutboxRow) : Bool :=
  r.activeAttempt.isNone && r.workerId.isNone && r.lockedAt.isNone && r.leaseUntil.isNone

/-- `(created_at, outbox_id)`, the order of the sweep. -/
def sweepKey (r : OutboxRow) : String × String := (r.createdAt, r.outboxId)

def sweepLt (a b : String × String) : Bool := a.1 < b.1 || (a.1 = b.1 && a.2 < b.2)

/-- The `WHERE` clause of `_CANDIDATES_SQL`. -/
def sweepCandidate (after : String × String) (r : OutboxRow) : Bool :=
  r.status.isClaimable && r.unclaimed && sweepLt after r.sweepKey

/-- The `WHERE` clause of `_RETIRE_CAS_SQL` against the observed row. -/
def retirable (rows : List OutboxRow) (seen r : OutboxRow) : Bool :=
  r.outboxId = seen.outboxId && r.status = seen.status &&
    r.attemptNumber = seen.attemptNumber && r.updatedAt = seen.updatedAt &&
    r.unclaimed && r.noSiblingFrom rows r.generation

/-- The `SET` clause of `_RETIRE_CAS_SQL`. -/
def retire (observed : String) (r : OutboxRow) : OutboxRow :=
  { r with
    status := .abandoned
    failureKind := some deadlineRetirementFailureKind
    failureKindDetail := none
    nextAttemptAt := none
    updatedAt := observed
    lockedAt := none
    leaseUntil := none
    workerId := none
    errorSummary := none }

end OutboxRow

/-- One bound of `_deadline_bounds`: `none` skips the row. -/
def normalizedBound (what : String) : Option String → Except Err (Option (List String))
  | none => .ok (some [])
  | some text =>
    match utcMicroseconds text what with
    | .ok t => .ok (some [t])
    | .error e => if e.isValueError then .ok none else .error e

def Db.deadlineBounds (db : Db) (eventId outboxId : String) :
    Except Err (Option (List String)) :=
  let ceiling :=
    (db.policies.rows.find? fun p => p.eventId = eventId).map AccessPolicy.hardCeiling
  let dependency :=
    (db.dependencies.rows.find? fun d =>
      d.eventId = eventId && d.ownerKind = .outbox && d.ownerId = outboxId).bind
        Dependency.deadline
  match normalizedBound "Event ceiling" ceiling with
  | .error e => .error e
  | .ok none => .ok none
  | .ok (some b1) =>
    match normalizedBound "Target deadline" dependency with
    | .error e => .error e
    | .ok none => .ok none
    | .ok (some b2) =>
      match frozenPlanDeadline (db.dispatchContext outboxId) with
      | .error e => if e.isValueError then .ok none else .error e
      | .ok frozen =>
        match normalizedBound "Frozen plan deadline" frozen with
        | .error e => .error e
        | .ok none => .ok none
        | .ok (some b3) => .ok (some (b1 ++ b2 ++ b3))

structure DeadlineRetirement where
  outboxId : String
  eventId : String
  attemptNumber : ℤ
  priorStatus : OutboxStatus
  effectiveDeadline : String
  retiredAt : String
deriving DecidableEq, Repr

/-- The guarded retirement of one candidate and its settlement. -/
def retireCandidate (observed effective : String) (seen : OutboxRow) :
    StoreTx (Option DeadlineRetirement) := do
  let rows ← Tx.query fun db => db.outbox.rows
  let count ← updateOutbox (OutboxRow.retirable rows seen) (OutboxRow.retire observed)
  if count ≠ 1 then pure none
  else
    settleOutboxContentDependency seen.outboxId seen.eventId observed
    retireOutboxSnapshot seen.outboxId
    outboxDiagnosticOps (some "") (some deadlineRetirementSummary) observed seen.outboxId
    pure (some
      { outboxId := seen.outboxId, eventId := seen.eventId
        attemptNumber := seen.attemptNumber, priorStatus := seen.status
        effectiveDeadline := effective, retiredAt := observed })

def sweepRow (observed : String) (seen : OutboxRow) : StoreTx (Option DeadlineRetirement) := do
  let bounds ← Tx.query fun db => db.deadlineBounds seen.eventId seen.outboxId
  let bounds ← Tx.lift bounds
  match bounds.bind List.min? with
  | none => pure none
  | some effective =>
    if observed < effective then pure none
    else retireCandidate observed effective seen

structure Sweep where
  retired : List DeadlineRetirement := []
  examined : ℕ := 0
  cursor : String × String

/-- The candidates of one page, in order, until the limit is reached. -/
def sweepPage (observed : String) (limit : ℕ) : List OutboxRow → Sweep → StoreTx Sweep
  | [], s => pure s
  | seen :: page, s => do
    let retirement ← sweepRow observed seen
    let s : Sweep :=
      { retired := s.retired ++ retirement.toList
        examined := s.examined + 1
        cursor := seen.sweepKey }
    if retirement.isSome && limit ≤ s.retired.length then pure s
    else sweepPage observed limit page s

/-- `_CANDIDATES_SQL`. -/
def Db.sweepCandidates (db : Db) (after : String × String) (pageSize : ℕ) : List OutboxRow :=
  ((db.outbox.rows.filter (OutboxRow.sweepCandidate after)).insertionSort
    fun r s => !OutboxRow.sweepLt s.sweepKey r.sweepKey).take pageSize

/-- The `while` loop. Every round examines a row, so `budget` rounds suffice. -/
def sweepLoop (observed : String) (limit budget : ℕ) : (fuel : ℕ) → Sweep → StoreTx Sweep
  | 0, s => pure s
  | fuel + 1, s =>
    if limit ≤ s.retired.length ∨ budget ≤ s.examined then pure s
    else do
      let pageSize := min 100 (budget - s.examined)
      let page ← Tx.query fun db => db.sweepCandidates s.cursor pageSize
      match page.getLast? with
      | none => pure { s with cursor := ("", "") }
      | some last =>
        let s ← sweepPage observed limit page s
        if page.length < pageSize ∧ s.cursor.2 = last.outboxId then
          pure { s with cursor := ("", "") }
        else sweepLoop observed limit budget fuel s

/-- The sweep position rides the same transaction. -/
def saveCursor (cursor : String × String) : StoreTx Unit :=
  Tx.modify fun db => { db with sweepCursor := some cursor }

def retireExpiredUnstartedOutbox (now : Datetime) (limit : ℤ) :
    StoreTx (List DeadlineRetirement) := do
  let observed ← Tx.lift (utcMicroseconds now.isoformat "Cleanup clock")
  Tx.require (1 ≤ limit && limit ≤ 500)
    (.valueError "The deadline cleanup limit must be an integer between 1 and 500")
  let cursor ← Tx.query fun db => db.sweepCursor.getD ("", "")
  let budget := max 25 limit.toNat
  let s ← sweepLoop observed limit.toNat budget budget { cursor }
  saveCursor s.cursor
  pure s.retired

/-! ## Operator decisions -/

def boundedText (s : String) : Bool := pyStrip s ≠ "" && s.length ≤ 512

/-- `_validate_decision_fields`. -/
def decisionFieldChecks (decisionId actorId outboxId expectedUpdatedAt : String)
    (identity : DeliveryIdentity) : Except Err Unit :=
  if !boundedText decisionId then
    .error (.valueError "decision_id must be a non-empty bounded string")
  else if !boundedText actorId then
    .error (.valueError "actor_id must be a non-empty bounded string")
  else if !boundedText outboxId then
    .error (.valueError "outbox_id must be a non-empty bounded string")
  else if !boundedText expectedUpdatedAt then
    .error (.valueError "expected_updated_at must be a non-empty bounded string")
  else if !identity.complete then
    .error (.valueError "A complete event/plan/adapter identity is required")
  else if !(boundedText identity.eventId && boundedText identity.deliveryPlanId &&
      boundedText identity.targetAdapter) then
    .error (.valueError "Delivery identity must contain bounded non-empty strings")
  else if identity.targetChannel.any (fun c => 512 < c.length) then
    .error (.valueError "Delivery channel must be bounded")
  else .ok ()

structure DecisionRequest where
  decisionId : String
  actorId : String
  identity : DeliveryIdentity
  outboxId : String
  expectedGeneration : ℤ
  expectedStatus : OutboxStatus
  expectedUpdatedAt : String

/-- `CancelUnstartedDecision.__post_init__`. -/
def cancelChecks (d : DecisionRequest) : Except Err Unit :=
  match decisionFieldChecks d.decisionId d.actorId d.outboxId d.expectedUpdatedAt
      d.identity with
  | .error e => .error e
  | .ok () =>
    if !d.expectedStatus.isClaimable then
      .error (.valueError "Only pending or retry_wait work can be cancelled")
    else if d.expectedGeneration < 0 then
      .error (.valueError "Expected generation must be nonnegative")
    else .ok ()

structure CancelUnstartedDecision extends DecisionRequest where
  valid : cancelChecks toDecisionRequest = .ok ()

def DecisionRequest.row (d : DecisionRequest) (action : DecisionAction) (now : String) :
    DecisionRow where
  decisionId := d.decisionId
  actorId := d.actorId
  eventId := d.identity.eventId
  deliveryPlanId := d.identity.deliveryPlanId
  targetAdapter := d.identity.targetAdapter
  targetChannel := d.identity.targetChannel
  outboxId := d.outboxId
  observedGeneration := d.expectedGeneration
  observedUpdatedAt := d.expectedUpdatedAt
  observedStatus := d.expectedStatus
  action := action
  recordedAt := now

/-- A repeated decision is compared field by field, its time apart. -/
def DecisionRow.sameRequest (old new : DecisionRow) : Bool :=
  { old with recordedAt := new.recordedAt } = new

/-- A competing generation of the decided delivery. -/
def Db.competingGeneration (db : Db) (d : DecisionRequest) : Bool :=
  db.outbox.rows.any fun r =>
    r.eventId = d.identity.eventId && r.deliveryPlanId = d.identity.deliveryPlanId &&
      r.targetAdapter = d.identity.targetAdapter &&
      r.targetChannel.getD "" = d.identity.targetChannel.getD "" &&
      r.outboxId ≠ d.outboxId && d.expectedGeneration ≤ r.generation

/-- The `WHERE` clause of the cancellation. -/
def OutboxRow.cancellable (d : DecisionRequest) (r : OutboxRow) : Bool :=
  r.outboxId = d.outboxId && r.activeAttempt.isNone &&
    r.attemptNumber = d.expectedGeneration && r.status = d.expectedStatus &&
    r.updatedAt = d.expectedUpdatedAt

/-- The `SET` clause of the cancellation. -/
def OutboxRow.cancel (now : String) (r : OutboxRow) : OutboxRow :=
  { r with status := .cancelled, updatedAt := now, nextAttemptAt := none }

/-- What the two decisions share: a bound id repeats its request or refuses another one; a new
one is decided on the row it names, and audited. -/
def decideOnce (request : DecisionRequest) (audit : DecisionRow)
    (decided : OutboxRow → StoreTx Unit) : StoreTx Bool := do
  match ← Tx.query fun db =>
      db.decisions.rows.find? fun o => o.decisionId = request.decisionId with
  | some old =>
    Tx.require (old.sameRequest audit)
      (.decisionRefused "Decision ID already binds another request")
    pure false
  | none =>
    match ← Tx.query fun db => db.outboxRow? request.outboxId with
    | none => Tx.raise (.decisionRefused "Exact destination no longer exists")
    | some r =>
      Tx.require (r.identity = request.identity)
        (.decisionRefused "Exact destination no longer exists")
      decided r
      insertDecision audit
      pure true

def cancelUnstartedDelivery (d : CancelUnstartedDecision) (now : Datetime) : StoreTx Bool :=
  let request := d.toDecisionRequest
  decideOnce request (request.row .cancelUnstarted (nowIso now)) fun r => do
    Tx.require (r.cancellable request && r.unclaimed)
      (.decisionRefused "Stale generation or active attempt; nothing cancelled")
    let competing ← Tx.query fun db => db.competingGeneration request
    Tx.require (!competing) (.decisionRefused "A competing delivery generation exists")
    let count ← updateOutbox (OutboxRow.cancellable request) (OutboxRow.cancel (nowIso now))
    Tx.require (count = 1) (.decisionRefused "Concurrent attempt changed; nothing cancelled")
    settleOutboxContentDependency request.outboxId request.identity.eventId (nowIso now)
    retireOutboxSnapshot request.outboxId

/-- The actions an exact-target acknowledgement may record. -/
inductive ExactTargetAction where
  | resolveUncertain
  | resumeScheduled
deriving DecidableEq, Repr

def ExactTargetAction.decision : ExactTargetAction → DecisionAction
  | .resolveUncertain => .resolveUncertain
  | .resumeScheduled => .resumeScheduled

structure ExactTargetDecision extends DecisionRequest where
  action : ExactTargetAction
  valid : decisionFieldChecks decisionId actorId outboxId expectedUpdatedAt identity =
    .ok ()
  nonnegative : 0 ≤ expectedGeneration

/-- `record_exact_target_decision`: the audit row alone; the outbox row is never
modified. -/
def recordExactTargetDecision (d : ExactTargetDecision) (now : Datetime) : StoreTx Bool :=
  let request := d.toDecisionRequest
  decideOnce request (request.row d.action.decision (nowIso now)) fun r => do
    Tx.require (r.status ≠ .deadLettered)
      (.decisionRefused ("Reopening terminal failed or dead-lettered work requires" ++
        " a separate send-capable authority"))
    Tx.require (r.status ≠ .sent && r.status ≠ .cancelled)
      (.decisionRefused
        "Completed or cancelled delivery work is not decidable by this authority")
    Tx.require (r.status.isClaimable && r.unclaimed)
      (.decisionRefused ("In-progress, queued or uncertain native work is not" ++
        " decidable by this authority"))
    Tx.require (r.cancellable request)
      (.decisionRefused "Stale observed state; nothing decided")
    let competing ← Tx.query fun db => db.competingGeneration request
    Tx.require (!competing) (.decisionRefused "A competing delivery generation exists")

end Medre.Storage
