import Medre.Storage.Outbox

/-! # Receipt-backed finalization of outbox rows (`_receipt.py`, `_delivery_finalize.py`)

A command here carries the proof that the checks of its `__post_init__` passed. -/

namespace Medre.Storage

open Medre.Framework

/-! ## Receipts -/

/-- `DeliveryReceipt`, the fields that delivery authority reads. -/
structure DeliveryReceipt where
  receiptId : String
  eventId : String
  deliveryPlanId : String
  targetAdapter : String
  targetChannel : Option String := none
  status : ReceiptStatus
  receiptKind : ReceiptKind
  error : Option String := none
  failureKind : Option String := none
  capabilityReason : Option String := none
  renderingEvidence : Option String := none
  adapterMessageId : Option String := none
  attemptNumber : ℤ := 1
  parentReceiptId : Option String := none
  source : DeliverySource := .live
  replayRunId : Option String := none
  outboxId : Option String := none
  confirmationLevel : ConfirmationLevel := .unknown
  createdAt : Datetime
deriving DecidableEq

def DeliveryReceipt.identity (r : DeliveryReceipt) : DeliveryIdentity :=
  .of r.eventId r.deliveryPlanId r.targetAdapter r.targetChannel

/-- `AUTOINCREMENT`. -/
def Db.nextSequence (db : Db) : ℤ :=
  (db.receipts.rows.map ReceiptRow.sequence).foldr max 0 + 1

/-- `_receipt_insert_params`, at the sequence number the table assigns. -/
def DeliveryReceipt.row (r : DeliveryReceipt) (sequence : ℤ) : Except Err ReceiptRow :=
  let runId := normalizeReplayRunId r.replayRunId
  if r.source = .live && runId.isSome then
    .error (.valueError "live delivery cannot carry replay_run_id")
  else
    .ok
      { sequence
        receiptId := r.receiptId
        eventId := r.eventId
        deliveryPlanId := r.deliveryPlanId
        targetAdapter := r.targetAdapter
        targetChannel := orNone r.targetChannel
        status := r.status
        receiptKind := r.receiptKind
        failureKind := r.failureKind
        adapterMessageId := r.adapterMessageId
        attemptNumber := r.attemptNumber
        parentReceiptId := r.parentReceiptId
        source := r.source
        replayRunId := runId
        outboxId := r.outboxId
        confirmationLevel := r.confirmationLevel
        createdAt := r.createdAt.isoformat }

/-- One op of `diagnostic_write_ops`: empty texts leave no row. -/
def receiptDiagnostic (r : DeliveryReceipt) (field : DiagnosticField) :
    Option String → StoreTx Unit
  | none => pure ()
  | some text =>
    if text = "" then pure ()
    else
      insertDiagnostic
        { family := .receipt, rowId := r.receiptId, attempt := r.attemptNumber, field
          diagnostic := text, createdAt := r.createdAt.isoformat }

/-- `_INSERT_RECEIPT` with `_receipt_diagnostic_ops`. -/
def writeReceipt (r : DeliveryReceipt) : StoreTx Unit := do
  let sequence ← Tx.query Db.nextSequence
  let row ← Tx.lift (r.row sequence)
  insertReceipt row
  receiptDiagnostic r .error r.error
  receiptDiagnostic r .capabilityReason r.capabilityReason
  receiptDiagnostic r .renderingEvidence r.renderingEvidence

def appendReceipt (r : DeliveryReceipt) : StoreTx Unit := writeReceipt r

/-! ## Native references -/

structure NativeMessageRef where
  id : String
  eventId : String
  adapter : String
  nativeChannelId : Option String := none
  nativeMessageId : String
  nativeThreadId : Option String := none
  nativeRelationId : Option String := none
  direction : Direction
  metadata : List (String × Json) := []
  createdAt : Datetime

/-- `_native_ref_insert_params`. -/
def NativeMessageRef.row (r : NativeMessageRef) : NativeRefRow where
  id := r.id
  eventId := r.eventId
  adapter := r.adapter
  nativeChannelId := r.nativeChannelId
  nativeMessageId := r.nativeMessageId
  nativeThreadId := r.nativeThreadId
  nativeRelationId := r.nativeRelationId
  direction := r.direction
  metadata := .obj r.metadata
  createdAt := r.createdAt.isoformat

def Db.resolveNativeRef (db : Db) (adapter : String) (nativeChannelId : Option String)
    (nativeMessageId : String) : Option String :=
  (db.nativeRefs.rows.find? fun n =>
    n.adapter = adapter && n.nativeChannelId = nativeChannelId &&
      n.nativeMessageId = nativeMessageId).map NativeRefRow.eventId

/-! ## Deferred hand-off -/

/-- `DeferredHandoffFinalization.__post_init__`. -/
def deferredChecks (receipt : DeliveryReceipt) (nativeRef : Option NativeMessageRef) :
    Except Err Unit :=
  if nativeRef.any (fun n => n.direction ≠ .outbound) then
    .error (.valueError "deferred hand-off finalization requires an outbound native ref")
  else if receipt.receiptKind ≠ .attempt || receipt.status ≠ .sent then
    .error (.valueError "deferred hand-off finalization requires sent attempt evidence")
  else if receipt.receiptId = "" then
    .error (.valueError "deferred sent receipt requires receipt_id")
  else if orNone receipt.outboxId = none then
    .error (.valueError "deferred sent receipt requires outbox_id")
  else if !receipt.identity.complete then
    .error (.valueError "deferred sent receipt requires complete delivery identity")
  else if receipt.attemptNumber < 1 then
    .error (.valueError "deferred sent receipt attempt_number must be >= 1")
  else
    match nativeRef with
    | none =>
      if receipt.adapterMessageId.isSome then
        .error (.valueError "sent receipt with adapter_message_id requires a native_ref")
      else .ok ()
    | some n =>
      if receipt.adapterMessageId.isNone then
        .error (.valueError "native_ref requires adapter_message_id on the sent receipt")
      else if n.eventId ≠ receipt.eventId then
        .error (.valueError "native_ref.event_id must match receipt.event_id")
      else if n.adapter ≠ receipt.targetAdapter then
        .error (.valueError "native_ref.adapter must match receipt.target_adapter")
      else if some n.nativeMessageId ≠ receipt.adapterMessageId then
        .error (.valueError
          "native_ref.native_message_id must match receipt.adapter_message_id")
      else .ok ()

structure DeferredHandoffFinalization where
  receipt : DeliveryReceipt
  nativeRef : Option NativeMessageRef := none
  valid : deferredChecks receipt nativeRef = .ok ()

/-- The guard shared by the two finalizations: the exact row, identity and
generation, still in flight. -/
def OutboxRow.finalizable (outboxId : String) (identity : DeliveryIdentity)
    (attemptNumber : ℤ) (r : OutboxRow) : Bool :=
  r.outboxId = outboxId && r.eventId = identity.eventId &&
    r.deliveryPlanId = identity.deliveryPlanId &&
    r.targetAdapter = identity.targetAdapter &&
    r.targetChannel = identity.targetChannel && attemptNumber = r.generation &&
    (r.status = .queued || r.status = .inProgress)

/-- The `SET` clause of `_FINALIZE_QUEUED_OUTBOX_SENT`. -/
def OutboxRow.finalizeSent (transitionTime receiptId : String) (r : OutboxRow) : OutboxRow :=
  { r with
    status := .sent
    attemptNumber := r.generation
    activeAttempt := none
    failureKind := none
    failureKindDetail := none
    nextAttemptAt := none
    updatedAt := transitionTime
    lastAttemptAt := some transitionTime
    lockedAt := none
    leaseUntil := none
    workerId := none
    receiptId := some receiptId
    errorSummary := none }

/-- The native reference of a hand-off, unless its identity resolves already. -/
def insertHandoffRef (nativeRef : Option NativeMessageRef) (resolved : Bool) : StoreTx Unit :=
  match nativeRef with
  | some n => if resolved then pure () else insertNativeRef n.row
  | none => pure ()

def finalizeDeferredHandoff (c : DeferredHandoffFinalization) : StoreTx Bool := do
  let receipt := c.receipt
  let outboxId := receipt.outboxId.getD ""
  let at' := receipt.createdAt.isoformat
  -- invalid receipt fields raise before the transaction starts
  let _ ← Tx.lift (receipt.row 0)
  let existing ← Tx.query fun db => c.nativeRef.bind fun n =>
    db.resolveNativeRef n.adapter n.nativeChannelId n.nativeMessageId
  Tx.require (existing.all fun e => c.nativeRef.all fun n => e = n.eventId)
    (.storageError ("Native identity already maps to a different canonical event: " ++
      existing.getD ""))
  let count ← updateOutbox
    (OutboxRow.finalizable outboxId receipt.identity receipt.attemptNumber)
    (OutboxRow.finalizeSent at' receipt.receiptId)
  if count ≠ 1 then pure false
  else
    insertHandoffRef c.nativeRef existing.isSome
    writeReceipt receipt
    settleOutboxContentDependency outboxId receipt.eventId at'
    retireOutboxSnapshot outboxId
    pure true

/-! ## Terminal outcomes -/

/-- The outbox status of an error-terminal lifecycle receipt. -/
def ReceiptStatus.errorTerminal : ReceiptStatus → Option OutboxStatus
  | .deadLettered => some .deadLettered
  | .cancelled => some .cancelled
  | .abandoned => some .abandoned
  | _ => none

/-- `TerminalOutboxFinalization.__post_init__`. -/
def terminalChecks (receipt : DeliveryReceipt) (attempt : Option DeliveryReceipt) :
    Except Err Unit :=
  if receipt.receiptKind ≠ .lifecycle then
    .error (.valueError "terminal outbox finalization requires lifecycle evidence")
  else if receipt.status.errorTerminal = none then
    .error (.valueError ("terminal outbox finalization requires an error-terminal " ++
      "lifecycle status, got '" ++ receipt.status.text ++ "'"))
  else if orNone receipt.outboxId = none then
    .error (.valueError "terminal lifecycle receipt requires outbox_id")
  else if receipt.receiptId = "" then
    .error (.valueError "terminal lifecycle receipt requires receipt_id")
  else if !receipt.identity.complete then
    .error (.valueError "terminal lifecycle receipt requires complete delivery identity")
  else if receipt.attemptNumber < 1 then
    .error (.valueError "terminal lifecycle receipt attempt_number must be >= 1")
  else
    match attempt with
    | none => .ok ()
    | some a =>
      if a.receiptKind ≠ .attempt then
        .error (.valueError "attempt_receipt must be attempt evidence")
      else if a.receiptId = "" then
        .error (.valueError "terminal attempt_receipt requires receipt_id")
      else if a.status ≠ .failed then
        .error (.valueError "terminal attempt_receipt must have status='failed'")
      else if a.identity ≠ receipt.identity ∨ a.outboxId ≠ receipt.outboxId ∨
          a.attemptNumber ≠ receipt.attemptNumber ∨
          receipt.parentReceiptId ≠ some a.receiptId then
        .error (.valueError ("terminal lifecycle receipt must be linked to the same " ++
          "delivery attempt as attempt_receipt"))
      else .ok ()

structure TerminalOutboxFinalization where
  lifecycleReceipt : DeliveryReceipt
  attemptReceipt : Option DeliveryReceipt := none
  expectedWorkerId : Option String := none
  valid : terminalChecks lifecycleReceipt attemptReceipt = .ok ()

def TerminalOutboxFinalization.terminalStatus (c : TerminalOutboxFinalization) :
    OutboxStatus :=
  c.lifecycleReceipt.status.errorTerminal.getD .abandoned

/-- `error_summary`: at most 512 characters, or `None`. -/
def TerminalOutboxFinalization.errorSummary (c : TerminalOutboxFinalization) :
    Option String :=
  (orNone c.lifecycleReceipt.error).map fun e => String.ofList (e.toList.take 512)

/-- The `SET` clause of `_FINALIZE_OUTBOX_TERMINAL`. -/
def OutboxRow.finalizeTerminal (status : OutboxStatus) (failureKind : Option String)
    (transitionTime receiptId : String) (r : OutboxRow) : OutboxRow :=
  { r with
    status := status
    attemptNumber := r.generation
    activeAttempt := none
    failureKind := failureKind
    failureKindDetail := none
    nextAttemptAt := none
    updatedAt := transitionTime
    lockedAt := none
    leaseUntil := none
    workerId := none
    receiptId := some receiptId
    errorSummary := none }

/-- The `WHERE` clause of `_FINALIZE_OUTBOX_TERMINAL`. -/
def TerminalOutboxFinalization.meets (c : TerminalOutboxFinalization) (r : OutboxRow) : Bool :=
  r.finalizable (c.lifecycleReceipt.outboxId.getD "") c.lifecycleReceipt.identity
    c.lifecycleReceipt.attemptNumber && c.expectedWorkerId.all fun w => r.workerId = some w

/-- Invalid receipt fields raise before the transaction starts. -/
def attemptReceiptCheck : Option DeliveryReceipt → Except Err Unit
  | none => .ok ()
  | some a => (a.row 0).map fun _ => ()

def writeAttemptReceipt : Option DeliveryReceipt → StoreTx Unit
  | none => pure ()
  | some a => writeReceipt a

def finalizeOutboxTerminal (c : TerminalOutboxFinalization) : StoreTx Bool := do
  let receipt := c.lifecycleReceipt
  let outboxId := receipt.outboxId.getD ""
  let at' := receipt.createdAt.isoformat
  let _ ← Tx.lift (receipt.row 0)
  Tx.lift (attemptReceiptCheck c.attemptReceipt)
  let count ← updateOutbox c.meets
    (OutboxRow.finalizeTerminal c.terminalStatus receipt.failureKind at' receipt.receiptId)
  if count ≠ 1 then pure false
  else
    outboxDiagnosticOps (some "") (some (c.errorSummary.getD "")) at' outboxId
    writeAttemptReceipt c.attemptReceipt
    writeReceipt receipt
    settleOutboxContentDependency outboxId receipt.eventId at'
    retireOutboxSnapshot outboxId
    pure true

end Medre.Storage
