import Medre.Storage.Content

/-! # The delivery outbox (`_outbox.py`, `_evidence_diagnostics.py`)

`UPDATE` statements are a guard (the `WHERE` clause) and a row function (the `SET` clause), both
under the name of the call they belong to. -/

namespace Medre.Storage

open Medre.Framework

/-! ## Diagnostics of an outbox row -/

/-- `_INSERT_OUTBOX_DIAGNOSTIC`: keyed by the row's attempt inside the transaction; an empty text
is recorded only where it clears one. -/
def insertOutboxDiagnostic (field : DiagnosticField) (value createdAt outboxId : String) :
    StoreTx Unit := do
  let db ← Tx.query id
  match db.outboxRow? outboxId with
  | none => pure ()
  | some r =>
    let inline' :=
      match field with
      | .errorSummary => r.errorSummary
      | _ => r.failureKindDetail
    let shown := db.diagnostics.rows.any fun d =>
      d.family = .outbox && d.rowId = r.outboxId && d.attempt = r.attemptNumber &&
        d.field = field && d.diagnostic ≠ ""
    if value ≠ "" || inline'.isSome || shown then
      insertDiagnostic
        { family := .outbox, rowId := r.outboxId, attempt := r.attemptNumber, field
          diagnostic := value, createdAt }
    else pure ()

/-- An unset field leaves no row. -/
def outboxDiagnosticOp (field : DiagnosticField) (value : Option String)
    (createdAt outboxId : String) : StoreTx Unit :=
  match value with
  | none => pure ()
  | some text => insertOutboxDiagnostic field text createdAt outboxId

/-- `outbox_diagnostic_ops`, in column order. -/
def outboxDiagnosticOps (failureKindDetail errorSummary : Option String)
    (createdAt outboxId : String) : StoreTx Unit := do
  outboxDiagnosticOp .failureKindDetail failureKindDetail createdAt outboxId
  outboxDiagnosticOp .errorSummary errorSummary createdAt outboxId

/-! ## Creation -/

def normalizeReplayRunId (value : Option String) : Option String :=
  orNone (value.map pyStrip)

/-- `DeliveryOutboxItem`. An absent metadata mapping is the empty one. -/
structure DeliveryOutboxItem where
  outboxId : String
  eventId : String
  routeId : String
  deliveryPlanId : String
  targetAdapter : String
  targetChannel : Option String := none
  targetAddress : Option String := none
  attemptNumber : ℤ := 1
  activeAttempt : Option ℤ := none
  status : Option OutboxStatus := some .pending
  failureKind : Option String := none
  failureKindDetail : Option String := none
  nextAttemptAt : Option String := none
  createdAt : Option String := none
  updatedAt : Option String := none
  lastAttemptAt : Option String := none
  lockedAt : Option String := none
  leaseUntil : Option String := none
  workerId : Option String := none
  payloadHash : Option String := none
  receiptId : Option String := none
  parentReceiptId : Option String := none
  errorSummary : Option String := none
  dispatchSource : Option DeliverySource := none
  replayRunId : Option String := none
  metadata : List (String × Json) := []
deriving Repr

structure OutboxDispatchSnapshotWrite where
  kind : SnapshotKind
  context : List (String × Json)
deriving Repr

def DeliveryOutboxItem.identity (item : DeliveryOutboxItem) : DeliveryIdentity :=
  .of item.eventId item.deliveryPlanId item.targetAdapter item.targetChannel

/-- The dispatch source a creation stores. -/
def DeliveryOutboxItem.storedSource (item : DeliveryOutboxItem)
    (allocateNewGeneration : Bool) : DeliverySource :=
  item.dispatchSource.getD (if allocateNewGeneration then .replay else .live)

/-- The checks before the transaction; the answer is the dispatch source that
is stored. -/
def createChecks (item : DeliveryOutboxItem) (allocateNewGeneration : Bool)
    (snapshot : Option OutboxDispatchSnapshotWrite) : Except Err DeliverySource :=
  let runId := normalizeReplayRunId item.replayRunId
  let status := item.status.getD .pending
  let source := item.storedSource allocateNewGeneration
  if item.dispatchSource = some .live && runId.isSome then
    .error (.valueError "live delivery cannot carry replay_run_id")
  else if source = .retry then .error (.valueError "invalid dispatch_source 'retry'")
  else if runId.isSome && !allocateNewGeneration then
    .error (.valueError "named replay provenance requires allocate_new_generation=True")
  else if source = .live && runId.isSome then
    .error (.valueError "live dispatch_source cannot carry replay_run_id")
  else if source = .replay && !allocateNewGeneration then
    .error (.valueError "replay dispatch_source requires allocate_new_generation=True")
  else if status ≠ .pending && status ≠ .inProgress then
    .error (.valueError ("create_outbox_item does not permit initial status '" ++
      status.text ++ "'; expected one of ['pending', 'in_progress']"))
  else if snapshot.isSome && item.metadata ≠ [] then
    .error (.valueError ("outbox dispatch context must have one owner: frozen snapshot " ++
      "or historical inline metadata, not both"))
  else .ok source

/-- `insert_params`: the row a creation inserts at attempt `n`. -/
def DeliveryOutboxItem.row (item : DeliveryOutboxItem) (source : DeliverySource)
    (n : ℤ) (now : String) : OutboxRow where
  outboxId := item.outboxId
  eventId := item.eventId
  routeId := item.routeId
  deliveryPlanId := item.deliveryPlanId
  targetAdapter := item.targetAdapter
  targetChannel := orNone item.targetChannel
  targetAddress := item.targetAddress
  attemptNumber := n
  activeAttempt := item.activeAttempt
  status := item.status.getD .pending
  failureKind := item.failureKind
  failureKindDetail := none
  nextAttemptAt := item.nextAttemptAt
  createdAt := (orNone item.createdAt).getD now
  updatedAt := (orNone item.updatedAt).getD now
  lastAttemptAt := item.lastAttemptAt
  lockedAt := item.lockedAt
  leaseUntil := item.leaseUntil
  workerId := item.workerId
  payloadHash := item.payloadHash
  receiptId := item.receiptId
  parentReceiptId := item.parentReceiptId
  errorSummary := none
  dispatchSource := source
  replayRunId := normalizeReplayRunId item.replayRunId
  metadata := .obj item.metadata

/-- The first of two rows under `ORDER BY generation DESC, outbox_id DESC`. -/
def newerRow (r s : OutboxRow) : OutboxRow :=
  if r.generation < s.generation ∨ (r.generation = s.generation ∧ r.outboxId < s.outboxId)
  then s else r

def newestRow : List OutboxRow → Option OutboxRow
  | [] => none
  | r :: rs => some (rs.foldl newerRow r)

/-- `select_sql`: equal or newer work of the same delivery. -/
def Db.adoptable (db : Db) (item : DeliveryOutboxItem) : Option OutboxRow :=
  newestRow (db.outbox.rows.filter fun r =>
    r.eventId = item.eventId && r.deliveryPlanId = item.deliveryPlanId &&
      r.targetAdapter = item.targetAdapter && r.targetChannel = orNone item.targetChannel &&
      (item.attemptNumber ≤ r.attemptNumber ||
        r.activeAttempt.any (item.attemptNumber ≤ ·)))

/-- Rows of the item's delivery, `NULL` and empty channels alike. -/
def OutboxRow.ofItem (item : DeliveryOutboxItem) (r : OutboxRow) : Bool :=
  r.eventId = item.eventId && r.deliveryPlanId = item.deliveryPlanId &&
    r.targetAdapter = item.targetAdapter &&
    r.targetChannel.getD "" = (orNone item.targetChannel).getD ""

/-- `generation_select_sql`. -/
def Db.maxGeneration (db : Db) (item : DeliveryOutboxItem) : Option ℤ :=
  ((db.outbox.rows.filter (OutboxRow.ofItem item)).map OutboxRow.generation).max?

/-- `replay_run_select_sql`. -/
def Db.replayRun (db : Db) (item : DeliveryOutboxItem) (runId : String) :
    Option OutboxRow :=
  db.outbox.rows.find? fun r => r.ofItem item && r.replayRunId = some runId

/-- The frozen dispatch context of a new row, under the attempt it committed. -/
def OutboxDispatchSnapshotWrite.row (s : OutboxDispatchSnapshotWrite) (outboxId : String)
    (n : ℤ) (now : String) : Snapshot where
  outboxId := outboxId
  attemptNumber := n
  snapshotVersion := 1
  snapshotKind := s.kind
  context := .obj s.context
  createdAt := now

def insertSnapshot? : Option Snapshot → StoreTx Unit
  | none => pure ()
  | some s => insertSnapshot s

/-- `post_insert_ops`: diagnostics, then the frozen dispatch context. -/
def postInsertOps (item : DeliveryOutboxItem) (n : ℤ) (now : String)
    (snapshot : Option OutboxDispatchSnapshotWrite) : StoreTx Unit := do
  outboxDiagnosticOps item.failureKindDetail item.errorSummary now item.outboxId
  insertSnapshot? (snapshot.map fun s => s.row item.outboxId n now)

/-- What a creation did: it inserted a row, or found the one to adopt. -/
inductive Created where
  | inserted (row : OutboxRow)
  | adopted (row : OutboxRow)
deriving Repr

/-- The `INSERT` of a creation with everything that rides its transaction. -/
def insertGeneration (item : DeliveryOutboxItem) (row : OutboxRow) (adopts : Bool)
    (planDeadline : Option String) (now : String)
    (snapshot : Option OutboxDispatchSnapshotWrite) : StoreTx Created := do
  insertOutbox row
  Tx.onlyIf adopts (insertOutboxDependency row.outboxId row.eventId now planDeadline)
  postInsertOps item row.attemptNumber now snapshot
  pure (.inserted row)

def syncAtomicCreateOutbox (item : DeliveryOutboxItem) (source : DeliverySource)
    (planDeadline : Option String) (now : String)
    (snapshot : Option OutboxDispatchSnapshotWrite) : StoreTx Created := do
  match ← Tx.query fun db => db.adoptable item with
  | some row => pure (.adopted row)
  | none =>
    insertGeneration item (item.row source item.attemptNumber now) true planDeadline now
      snapshot

/-- `_sync_atomic_create_outbox_generation`: a replay generation adopts no
content dependency. -/
def syncAtomicCreateOutboxGeneration (item : DeliveryOutboxItem) (source : DeliverySource)
    (planDeadline : Option String) (now : String)
    (snapshot : Option OutboxDispatchSnapshotWrite) : StoreTx Created := do
  let existing ← Tx.query fun db =>
    (normalizeReplayRunId item.replayRunId).bind (db.replayRun item)
  match existing with
  | some row => pure (.adopted row)
  | none =>
    let maxAttempt ← Tx.query fun db => db.maxGeneration item
    insertGeneration item (item.row source (maxAttempt.getD 0 + 1) now)
      (source ≠ .replay) planDeadline now snapshot

def foreignKeyFailed : Err := .integrityError "FOREIGN KEY constraint failed"

/-- The frozen plan deadline a creation hands to the adoption. -/
def snapshotDeadline : Option OutboxDispatchSnapshotWrite → Except Err (Option String)
  | none => .ok none
  | some s => frozenPlanDeadline (.obj s.context)

/-- What the `IntegrityError` handler of a creation does: a lost race adopts the
winner's row. -/
def createRace (item : DeliveryOutboxItem) (allocateNewGeneration : Bool) (e : Err) :
    StoreTx Created := do
  if e = foreignKeyFailed then
    Tx.raise (.storageError "Outbox create failed: FOREIGN KEY constraint failed")
  else
    match e with
    | .integrityError _ =>
      if allocateNewGeneration then Tx.raise e
      else
        match ← Tx.query fun db => db.adoptable item with
        | some row => pure (.adopted row)
        | none => Tx.raise e
    | _ => Tx.raise e

def createOutboxItem (item : DeliveryOutboxItem) (allocateNewGeneration : Bool)
    (snapshot : Option OutboxDispatchSnapshotWrite) (now : Datetime) :
    StoreTx Created := do
  let source ← Tx.lift (createChecks item allocateNewGeneration snapshot)
  let planDeadline ← Tx.lift (snapshotDeadline snapshot)
  Tx.require (!(allocateNewGeneration && item.activeAttempt.isSome))
    (.valueError "allocate_new_generation requires active_attempt=None")
  let body :=
    if allocateNewGeneration then
      syncAtomicCreateOutboxGeneration item source planDeadline (nowIso now) snapshot
    else syncAtomicCreateOutbox item source planDeadline (nowIso now) snapshot
  match ← Tx.attempt body with
  | .ok created => pure created
  | .error e => createRace item allocateNewGeneration e

/-! ## Claims and reservations -/

def staleQueuedGraceSeconds : ℤ := 300

/-- The filters of one claim. -/
structure ClaimFilters where
  excludedAdapters : List String := []
  initialOnly : Bool := false
  onePerAdapter : Bool := false

namespace OutboxRow

/-- `status IN (claimable)`, a lapsed lease, or a stale queue entry. -/
def dueStatus (now staleCutoff : String) (r : OutboxRow) : Bool :=
  r.status.isClaimable ||
    (r.status = .inProgress && r.leaseUntil.all (· ≤ now)) ||
    (r.status = .queued && r.updatedAt ≤ staleCutoff)

def passesFilters (rows : List OutboxRow) (now : String) (f : ClaimFilters)
    (r : OutboxRow) : Bool :=
  !f.excludedAdapters.contains r.targetAdapter &&
    (!f.onePerAdapter || rows.all fun s =>
      !(s.outboxId ≠ r.outboxId && s.targetAdapter = r.targetAdapter &&
        s.status = .inProgress && s.leaseUntil.any (now < ·))) &&
    (!f.initialOnly ||
      (r.attemptNumber = 0 && r.activeAttempt.isNone &&
        (r.status = .pending || r.status = .retryWait || r.status = .inProgress)))

/-- The `WHERE` clause of the claim. -/
def claimable (rows : List OutboxRow) (now staleCutoff : String) (f : ClaimFilters)
    (r : OutboxRow) : Bool :=
  r.dueStatus now staleCutoff && r.nextAttemptAt.all (· ≤ now) &&
    r.leaseUntil.all (· ≤ now) && r.noSiblingFrom rows r.generation &&
    r.passesFilters rows now f

def claim (now leaseUntil workerId : String) (r : OutboxRow) : OutboxRow :=
  { r with
    status := .inProgress
    lockedAt := some now
    leaseUntil := some leaseUntil
    workerId := some workerId
    updatedAt := now
    nextAttemptAt := none }

/-- The `WHERE` clause of a reservation. -/
def reservable (rows : List OutboxRow) (outboxId workerId : String) (fromAttempt : ℤ)
    (r : OutboxRow) : Bool :=
  r.outboxId = outboxId && r.workerId = some workerId && r.status = .inProgress &&
    r.activeAttempt.isNone && r.attemptNumber = fromAttempt &&
    r.noSiblingFrom rows (r.attemptNumber + 1)

def reserve (now : String) (r : OutboxRow) : OutboxRow :=
  { r with
    activeAttempt := some (r.attemptNumber + 1)
    dispatchSource := if r.attemptNumber = 0 then .live else .retry
    lastAttemptAt := some now
    updatedAt := now }

def ownedBy (outboxId workerId : String) (r : OutboxRow) : Bool :=
  r.outboxId = outboxId && r.workerId = some workerId && r.status = .inProgress

def renew (leaseUntil now : String) (r : OutboxRow) : OutboxRow :=
  { r with leaseUntil := some leaseUntil, updatedAt := now }

/-- The `SET` clause of a release; the schedule is not among the columns. -/
def releaseClaim (releaseStatus : OutboxStatus) (now : String) (r : OutboxRow) : OutboxRow :=
  { r with
    lockedAt := none
    leaseUntil := none
    workerId := none
    status := releaseStatus
    updatedAt := now }

end OutboxRow

def addSecondsIso (iso : String) (seconds : ℤ) : Except Err String :=
  match Datetime.fromisoformat iso with
  | .error _ => .ok iso
  | .ok d => liftPy ((d.addSeconds seconds).map Datetime.isoformat)

/-- The conditional `UPDATE` of `claim_due_outbox_items` for the candidates of the `SELECT`; the
answer lists the rows the worker owns then. -/
def claimDueOutboxItems (now workerId : String) (leaseSeconds : ℤ)
    (candidates : List String) (f : ClaimFilters) : StoreTx (List OutboxRow) := do
  let leaseUntil ← Tx.lift (addSecondsIso now leaseSeconds)
  let parsed ← Tx.lift (liftPy (Datetime.fromisoformat now))
  let cutoff ← Tx.lift (liftPy (parsed.addSeconds (-staleQueuedGraceSeconds)))
  let rows ← Tx.query fun db => db.outbox.rows
  let _ ← updateOutbox
    (fun r => candidates.contains r.outboxId && r.claimable rows now cutoff.isoformat f)
    (OutboxRow.claim now leaseUntil workerId)
  Tx.query fun db => db.outbox.rows.filter fun r =>
    candidates.contains r.outboxId && r.workerId = some workerId &&
      r.status = .inProgress && r.noSiblingFrom db.outbox.rows r.generation

def reserveOutboxAttempt (outboxId workerId : String) (fromAttempt : ℤ) (now : Datetime) :
    StoreTx (Option ℤ) := do
  let rows ← Tx.query fun db => db.outbox.rows
  let count ← updateOutbox (OutboxRow.reservable rows outboxId workerId fromAttempt)
    (OutboxRow.reserve (nowIso now))
  pure (if count = 1 then some (fromAttempt + 1) else none)

def renewOutboxLease (outboxId workerId leaseUntil : String) (now : Datetime) :
    StoreTx Bool := do
  let _ ← updateOutbox (OutboxRow.ownedBy outboxId workerId)
    (OutboxRow.renew leaseUntil (nowIso now))
  Tx.query fun db => db.outbox.rows.any (OutboxRow.ownedBy outboxId workerId)

def releaseOutboxClaim (outboxId workerId : String) (releaseStatus : OutboxStatus)
    (now : Datetime) : StoreTx Unit := do
  Tx.require releaseStatus.isClaimable
    (.valueError ("Invalid release_status: '" ++ releaseStatus.text ++ "'"))
  let _ ← updateOutbox
    (fun r => r.ownedBy outboxId workerId && r.activeAttempt.isNone)
    (OutboxRow.releaseClaim releaseStatus (nowIso now))

/-! ## Status transitions -/

/-- The arguments of `_update_outbox_status`. -/
structure StatusUpdate where
  outboxId : String
  newStatus : OutboxStatus
  allowedFrom : Option (List OutboxStatus) := none
  receiptId : Option String := none
  attemptNumber : Option ℤ := none
  failureKind : Option String := none
  failureKindDetail : Option String := none
  errorSummary : Option String := none
  nextAttemptAt : Option String := none
  expectedWorkerId : Option String := none

namespace StatusUpdate

/-- The `WHERE` clause. -/
def guards (u : StatusUpdate) (r : OutboxRow) : Bool :=
  r.outboxId = u.outboxId && !r.status.isTerminal &&
    u.attemptNumber.all (fun n =>
      (r.activeAttempt.isNone && r.attemptNumber ≤ n) || r.activeAttempt = some n) &&
    u.expectedWorkerId.all (fun w => r.workerId = some w) &&
    u.allowedFrom.all (fun from' => from'.contains r.status)

/-- `new_status in ("queued", "sent")`. -/
def clearsFailure (u : StatusUpdate) : Bool :=
  u.newStatus = .queued || u.newStatus = .sent

/-- The `SET` clause. -/
def apply (u : StatusUpdate) (now : String) (r : OutboxRow) : OutboxRow :=
  { r with
    status := u.newStatus
    updatedAt := now
    receiptId := u.receiptId.or r.receiptId
    attemptNumber :=
      match u.attemptNumber with
      | some n => n
      | none => if u.newStatus ≠ .inProgress then r.generation else r.attemptNumber
    activeAttempt :=
      if u.attemptNumber.isSome || u.newStatus ≠ .inProgress then none
      else r.activeAttempt
    failureKind := if u.clearsFailure then none else u.failureKind.or r.failureKind
    failureKindDetail :=
      if u.clearsFailure || u.newStatus.isTerminal then none else r.failureKindDetail
    errorSummary := if u.clearsFailure then none else r.errorSummary
    nextAttemptAt := u.nextAttemptAt
    lastAttemptAt :=
      if u.clearsFailure || u.newStatus = .retryWait then some now else r.lastAttemptAt
    lockedAt :=
      if u.newStatus.isTerminal || u.newStatus = .queued || u.newStatus = .retryWait
      then none else r.lockedAt
    leaseUntil :=
      if u.newStatus.isTerminal || u.newStatus = .queued || u.newStatus = .retryWait
      then none else r.leaseUntil
    workerId :=
      if u.newStatus.isTerminal || u.newStatus = .queued || u.newStatus = .retryWait
      then none else r.workerId }

/-- The detail recorded with the transition: an error terminal without one
records an explicit clear. -/
def diagnosticDetail (u : StatusUpdate) : Option String :=
  if u.newStatus.isTerminal && u.newStatus ≠ .sent then
    u.failureKindDetail.or (some "")
  else u.failureKindDetail

end StatusUpdate

/-- The settlement half of `sync_transition_outbox_and_settle`. -/
def settleTransition (outboxId now : String) : StoreTx Unit := do
  retireOutboxSnapshot outboxId
  match ← Tx.query fun db => db.outboxRow? outboxId with
  | none => Tx.raise (.integrityError "Terminal outbox disappeared")
  | some r => settleOutboxContentDependency outboxId r.eventId now

/-- `_update_outbox_status`; a terminal status settles in the same
transaction. -/
def updateOutboxStatus (u : StatusUpdate) (now : Datetime) : StoreTx Bool := do
  Tx.require (u.newStatus ≠ .retryWait || u.nextAttemptAt.isSome)
    (.valueError "next_attempt_at is required when transitioning to retry_wait")
  let count ← updateOutbox u.guards (u.apply (nowIso now))
  if count = 0 then pure false
  else
    outboxDiagnosticOps u.diagnosticDetail u.errorSummary (nowIso now) u.outboxId
    Tx.onlyIf u.newStatus.isTerminal (settleTransition u.outboxId (nowIso now))
    pure (count = 1)

def markOutboxSent (outboxId : String) (receiptId : Option String)
    (attemptNumber : Option ℤ) (expectedWorkerId : Option String) (now : Datetime) :
    StoreTx Bool :=
  updateOutboxStatus
    { outboxId, newStatus := .sent, allowedFrom := some [.inProgress, .queued], receiptId
      attemptNumber, expectedWorkerId } now

def markOutboxQueued (outboxId : String) (receiptId : Option String)
    (attemptNumber : Option ℤ) (expectedWorkerId : Option String) (now : Datetime) :
    StoreTx Bool :=
  updateOutboxStatus
    { outboxId, newStatus := .queued, allowedFrom := some [.inProgress], receiptId
      attemptNumber, expectedWorkerId } now

def markOutboxRetryWait (outboxId nextAttemptAt : String)
    (receiptId failureKind failureKindDetail errorSummary : Option String)
    (attemptNumber : Option ℤ) (expectedWorkerId : Option String) (now : Datetime) :
    StoreTx Bool :=
  updateOutboxStatus
    { outboxId, newStatus := .retryWait, allowedFrom := some [.inProgress], receiptId
      attemptNumber, failureKind, failureKindDetail, errorSummary
      nextAttemptAt := some nextAttemptAt, expectedWorkerId } now

def markOutboxDeadLettered (outboxId : String)
    (receiptId failureKind failureKindDetail errorSummary : Option String)
    (attemptNumber : Option ℤ) (expectedWorkerId : Option String) (now : Datetime) :
    StoreTx Bool :=
  updateOutboxStatus
    { outboxId, newStatus := .deadLettered, allowedFrom := some [.inProgress, .retryWait]
      receiptId, attemptNumber, failureKind, failureKindDetail, errorSummary
      expectedWorkerId } now

def markOutboxCancelled (outboxId : String)
    (errorSummary receiptId failureKind : Option String) (attemptNumber : Option ℤ)
    (expectedWorkerId : Option String) (now : Datetime) : StoreTx Bool :=
  updateOutboxStatus
    { outboxId, newStatus := .cancelled
      allowedFrom := some [.pending, .inProgress, .retryWait, .queued], receiptId
      attemptNumber, failureKind, errorSummary, expectedWorkerId } now

def markOutboxAbandoned (outboxId : String)
    (errorSummary receiptId failureKind : Option String) (attemptNumber : Option ℤ)
    (expectedWorkerId : Option String) (now : Datetime) : StoreTx Bool :=
  updateOutboxStatus
    { outboxId, newStatus := .abandoned
      allowedFrom := some [.pending, .inProgress, .retryWait, .queued], receiptId
      attemptNumber, failureKind, errorSummary, expectedWorkerId } now

end Medre.Storage
