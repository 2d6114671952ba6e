import Medre.Framework.Selection
import Medre.Storage.Observations

/-! # Event-scoped content collection (`_collection.py`, `_count.py`)

The collector, its dry run and the preview decide on one projection of an event's content and its
owners; only the collector writes, in the transaction that reads. -/

namespace Medre.Storage

open Medre.Framework

/-! ## Probes -/

/-- The names of `_EVENT_COPY_PROBES`. -/
inductive CopyProbe where
  | canonicalText
  | inconsistentAdmissionIdentity
  | relationExcerpts
  | incomingRelationExcerpts
  | opaqueEnvelope
  | relationRecords
  | opaqueRelationRecords
  | nativeReferences
  | deliveryReceipts
  | deliveryObservations
  | outboxRecords
  | radioPlans
  | attachmentAssociations
  | sharedAttachmentReferences
  | operatorDecisions
  | ingressWork
  | retainedDiagnostics
  | activeIngress
  | activeOutbox
  | unsettledMandatoryOwners
  | unretiredOutboxSnapshots
  | unrevokedOptionalGrants
deriving DecidableEq, Repr

namespace CopyProbe

def text : CopyProbe → String
  | .canonicalText => "canonical_text"
  | .inconsistentAdmissionIdentity => "inconsistent_admission_identity"
  | .relationExcerpts => "relation_excerpts"
  | .incomingRelationExcerpts => "incoming_relation_excerpts"
  | .opaqueEnvelope => "opaque_envelope"
  | .relationRecords => "relation_records"
  | .opaqueRelationRecords => "opaque_relation_records"
  | .nativeReferences => "native_references"
  | .deliveryReceipts => "delivery_receipts"
  | .deliveryObservations => "delivery_observations"
  | .outboxRecords => "outbox_records"
  | .radioPlans => "radio_plans"
  | .attachmentAssociations => "attachment_associations"
  | .sharedAttachmentReferences => "shared_attachment_references"
  | .operatorDecisions => "operator_decisions"
  | .ingressWork => "ingress_work"
  | .retainedDiagnostics => "retained_diagnostics"
  | .activeIngress => "active_ingress"
  | .activeOutbox => "active_outbox"
  | .unsettledMandatoryOwners => "unsettled_mandatory_owners"
  | .unretiredOutboxSnapshots => "unretired_outbox_snapshots"
  | .unrevokedOptionalGrants => "unrevoked_optional_grants"

end CopyProbe

def wholesaleBlockerProbes : List CopyProbe :=
  [.opaqueEnvelope, .opaqueRelationRecords, .incomingRelationExcerpts, .radioPlans,
    .attachmentAssociations, .operatorDecisions]

def integrityBlockerProbes : List CopyProbe := [.inconsistentAdmissionIdentity]

def liveBlockerProbes : List CopyProbe :=
  [.activeIngress, .activeOutbox, .unsettledMandatoryOwners, .unretiredOutboxSnapshots,
    .unrevokedOptionalGrants]

/-- `_EVIDENCE_FAMILY_TABLES`. -/
def evidenceFamilies : List CopyProbe :=
  [.deliveryReceipts, .deliveryObservations, .outboxRecords, .nativeReferences, .ingressWork]

def validRelationTypes : List String := ["reply", "reaction", "edit", "delete", "thread"]

/-- The JSON column holds `'{}'`. -/
def emptyObject : Json → Bool
  | .obj [] => true
  | _ => false

/-! ## The columns that may hold content -/

/-- `_evidence_content_probe` of the receipts. -/
def ReceiptRow.bearsContent (r : ReceiptRow) : Bool :=
  r.error.isSome || r.capabilityReason.isSome || r.renderingEvidence.isSome

/-- `_evidence_content_probe` of the observations. -/
def ObservationRow.bearsContent (o : ObservationRow) : Bool :=
  o.error.isSome || !emptyObject o.metadata

/-- `_evidence_content_probe` of the outbox. -/
def OutboxRow.bearsContent (r : OutboxRow) : Bool :=
  r.failureKindDetail.isSome || r.errorSummary.isSome || !emptyObject r.metadata

/-- `_evidence_content_probe` of the native references. -/
def NativeRefRow.bearsContent (r : NativeRefRow) : Bool := !emptyObject r.metadata

/-- `_evidence_content_probe` of the ingress work. -/
def IngressWork.bearsContent (w : IngressWork) : Bool := w.lastError.isSome

/-! ## Counting -/

def Db.bodyRows (db : Db) (e : String) : List BodyContent :=
  db.bodyContent.rows.filter fun b => b.eventId = e

/-- The rows of `event_relation_excerpts` whose relation is of the event. -/
def Db.excerpts (db : Db) (e : String) : List String :=
  db.relations.rows.filterMap fun r => if r.eventId = e then r.excerpt else none

def Db.outboxOf (db : Db) (e outboxId : String) : Bool :=
  db.outbox.rows.any fun r => r.outboxId = outboxId && r.eventId = e

/-- The relation quotes the event, by its id or by one of its native references. -/
def Db.quotes (db : Db) (e : String) (r : RelationRow) : Bool :=
  r.eventId ≠ e &&
    (r.targetEventId = some e ||
      db.nativeRefs.rows.any fun n =>
        n.eventId = e && r.targetNativeAdapter = some n.adapter &&
          r.targetNativeChannelId = n.nativeChannelId &&
          r.targetNativeMessageId = some n.nativeMessageId)

namespace SqliteStore

def collected (s : SqliteStore) (e : String) : Bool :=
  s.collectionLog.rows.any fun l => l.eventId = e

/-- The probe `inconsistent_admission_identity`. -/
def inconsistentIdentity (s : SqliteStore) (e : String) : Bool :=
  let identities := s.db.bodyIdentity.rows.filter fun i => i.eventId = e
  let bodies := s.db.bodyContent.rows.any fun b => b.eventId = e
  let quoted := s.db.relations.rows.any fun r => r.eventId = e && r.excerpt.isSome
  identities.isEmpty ||
    identities.any (fun i =>
      (!i.presentAtAdmission && bodies) ||
        (i.presentAtAdmission && !bodies && !s.collected e)) ||
    (s.collected e && (bodies || quoted))

/-- The diagnostic hangs on evidence of the event. -/
def retainedDiagnostic (s : SqliteStore) (e : String) (d : Diagnostic) : Bool :=
  match d.family with
  | .receipt => s.db.receipts.rows.any fun r => r.eventId = e && r.receiptId = d.rowId
  | .observation => s.observations.rows.any fun o => o.eventId = e && o.observationId = d.rowId
  | .outbox => s.db.outboxOf e d.rowId
  | .ingress => d.rowId = e

/-- `_EVENT_COPY_PROBES`. -/
def copyCount (s : SqliteStore) (e : String) : CopyProbe → ℕ
  | .canonicalText => s.db.bodyContent.rows.countP fun b => b.eventId = e
  | .inconsistentAdmissionIdentity => if s.inconsistentIdentity e then 1 else 0
  | .relationExcerpts => s.db.relations.rows.countP fun r => r.eventId = e && r.excerpt.isSome
  | .incomingRelationExcerpts =>
    s.db.relations.rows.countP fun r => r.excerpt.isSome && s.db.quotes e r
  | .opaqueEnvelope => s.db.events.rows.countP fun c =>
    c.eventId = e && (!emptyObject c.payload || !emptyObject c.metadata)
  | .relationRecords => s.db.relations.rows.countP fun r => r.eventId = e
  | .opaqueRelationRecords => s.db.relations.rows.countP fun r =>
    r.eventId = e && (r.key.isSome || !emptyObject r.metadata ||
      !validRelationTypes.contains r.relationType)
  | .nativeReferences => s.db.nativeRefs.rows.countP fun n => n.eventId = e
  | .deliveryReceipts => s.db.receipts.rows.countP fun r => r.eventId = e
  | .deliveryObservations => s.observations.rows.countP fun o => o.eventId = e
  | .outboxRecords => s.db.outbox.rows.countP fun o => o.eventId = e
  | .radioPlans => s.db.radio.rows.countP fun r => s.db.outboxOf e r.outboxId
  | .attachmentAssociations => s.associations.rows.countP fun a => a.eventId = e
  | .sharedAttachmentReferences => s.associations.rows.countP fun a =>
    a.eventId = e && s.associations.rows.any fun other =>
      other.contentRef = a.contentRef && other.eventId ≠ e
  | .operatorDecisions => s.db.decisions.rows.countP fun d => d.eventId = e
  | .ingressWork => s.db.ingressWork.rows.countP fun w => w.eventId = e
  | .retainedDiagnostics => s.db.diagnostics.rows.countP (s.retainedDiagnostic e)
  | .activeIngress => s.db.ingressWork.rows.countP fun w =>
    w.eventId = e && !(w.status = .completed || w.status = .failed)
  | .activeOutbox => s.db.outbox.rows.countP fun o => o.eventId = e && !o.status.isTerminal
  | .unsettledMandatoryOwners => s.db.dependencies.rows.countP fun d =>
    d.eventId = e && d.releasedAt.isNone
  | .unretiredOutboxSnapshots => s.db.snapshots.rows.countP fun t => s.db.outboxOf e t.outboxId
  | .unrevokedOptionalGrants => s.db.grants.rows.countP fun g =>
    g.eventId = e && g.revokedAt.isNone && g.expiredAt.isNone

/-- The probes `<family>_content`; no other probe has one. -/
def contentCount (s : SqliteStore) (e : String) : CopyProbe → ℕ
  | .deliveryReceipts => s.db.receipts.rows.countP fun r => r.eventId = e && r.bearsContent
  | .deliveryObservations => s.observations.rows.countP fun o => o.eventId = e && o.bearsContent
  | .outboxRecords => s.db.outbox.rows.countP fun o => o.eventId = e && o.bearsContent
  | .nativeReferences => s.db.nativeRefs.rows.countP fun n => n.eventId = e && n.bearsContent
  | .ingressWork => s.db.ingressWork.rows.countP fun w => w.eventId = e && w.bearsContent
  | _ => 0

end SqliteStore

def releaseBlockers (count content : CopyProbe → ℕ) : List CopyProbe :=
  let sorted (probes : List CopyProbe) := probes.insertionSort fun a b => a.text ≤ b.text
  (liveBlockerProbes ++ integrityBlockerProbes).filter (fun p => count p ≠ 0) ++
    sorted (wholesaleBlockerProbes.filter fun p => count p ≠ 0) ++
    sorted (evidenceFamilies.filter fun p => content p ≠ 0)

/-- The blockers of an event on the projection `_EVENT_COPY_SQL`. -/
def SqliteStore.blockers (s : SqliteStore) (e : String) : List CopyProbe :=
  releaseBlockers (s.copyCount e) (s.contentCount e)

/-! ## The decision -/

inductive BaseState where
  | alreadyCollected
  | blocked
  | empty
  | eligible
deriving DecidableEq, Repr

/-- What `_read_collection_state` returns. -/
structure CollectionState where
  baseState : BaseState
  blockers : List CopyProbe
  rows : ℕ
  logicalBytes : ℕ
deriving DecidableEq, Repr

def Db.contentRows (db : Db) (e : String) : ℕ := (db.bodyRows e).length + (db.excerpts e).length

/-- `length(CAST(... AS BLOB))` summed over the bodies and the excerpts. -/
def Db.contentBytes (db : Db) (e : String) : ℕ :=
  ((db.bodyRows e).map fun b => b.body.utf8ByteSize).sum +
    ((db.excerpts e).map String.utf8ByteSize).sum

def SqliteStore.readCollectionState (s : SqliteStore) (e : String) : Except Err CollectionState :=
  if !s.db.hasEvent e then
    .error (.storageError "Content collection requires an admitted event")
  else
    let blockers := s.blockers e
    let measure := (s.db.bodyRows e).length
    let rows := s.db.contentRows e
    let logicalBytes := s.db.contentBytes e
    match s.db.bodyIdentity? e with
    | none => .error (.storageError "Collection requires a valid admission identity")
    | some identity =>
      if s.collected e && rows ≠ 0 then
        .error (.storageError "Collected content was unexpectedly recreated")
      else if !s.collected e && !identity && measure ≠ 0 then
        .error (.storageError "Body row exists but admission recorded no body")
      else if !s.collected e && identity && measure = 0 then
        .error (.storageError "Admission body is missing without collection record")
      else if s.collected e then .ok ⟨.alreadyCollected, blockers, rows, logicalBytes⟩
      else if !blockers.isEmpty then .ok ⟨.blocked, blockers, rows, logicalBytes⟩
      else if rows = 0 then .ok ⟨.empty, blockers, rows, logicalBytes⟩
      else .ok ⟨.eligible, blockers, rows, logicalBytes⟩

/-- `RETENTION_PREVIEW_OUTCOMES`. -/
inductive PreviewOutcome where
  | eligible
  | blocked
  | empty
  | alreadyCollected
  | inconsistent
deriving DecidableEq, Repr

/-- `sync_preview_event_collection_state`; all errors of the decision are
`StorageError`s. -/
def SqliteStore.previewEventCollectionState (s : SqliteStore) (e : String) : PreviewOutcome :=
  match s.readCollectionState e with
  | .error _ => .inconsistent
  | .ok c =>
    match c.baseState with
    | .alreadyCollected => .alreadyCollected
    | .blocked => .blocked
    | .empty => .empty
    | .eligible => .eligible

/-! ## The activation boundary -/

def normalizeAdmissionWatermark (value : String) : Except Err String :=
  let unaware : Err := .valueError "The admission watermark must be an aware timestamp"
  match Datetime.fromisoformat value with
  | .error .valueError => .error unaware
  | .error e => .error (.pyError e)
  | .ok instant =>
    match instant.utcoffset with
    | none => .error unaware
    | some _ =>
      match instant.astimezoneUtc with
      | .ok d => .ok d.isoformatMicroseconds
      | .error e => .error (.pyError e)

/-- `ORDER BY epoch DESC LIMIT 1`. -/
def SqliteStore.latestRetentionEpoch (s : SqliteStore) : Option RetentionEpoch :=
  greatest RetentionEpoch.epoch s.epochs.rows

/-- The event is admitted after the boundary of the epoch. -/
def SqliteStore.insideActivation (s : SqliteStore) (e : String) (active : RetentionEpoch) :
    Except Err Unit :=
  let outside : Err :=
    .contentCollectionEpochChanged "Candidate is outside the current activation boundary"
  match s.db.events.rows.find? fun c => c.eventId = e with
  | none => .error outside
  | some admission =>
    match active.admissionWatermark with
    | none => .ok ()
    | some watermark => do
      let boundary ← normalizeAdmissionWatermark watermark
      if admission.createdAt ≤ boundary then .error outside else .ok ()

/-- The check of a `retention_epoch` against the current activation. -/
def SqliteStore.activationFence (s : SqliteStore) (e : String) :
    Option ℤ → Except Err Unit
  | none => .ok ()
  | some epoch =>
    let changed : Err :=
      .contentCollectionEpochChanged "Retention activation changed during collection"
    match s.latestRetentionEpoch with
    | none => .error changed
    | some active =>
      if active.epoch ≠ epoch then .error changed else s.insideActivation e active

/-! ## The transaction -/

/-- `DELETE FROM event_relation_excerpts` of the event's relations. -/
def deleteExcerpts (e : String) : StoreTx Unit := do
  let _ ← updateTable Db.relations (fun db t => { db with relations := t })
    "event_relation_excerpts" (fun r => r.eventId = e) fun r => { r with excerpt := none }

/-- `DELETE FROM event_body_content`. -/
def deleteBodyContent (e : String) : StoreTx Unit :=
  Tx.modify fun db => { db with bodyContent := db.bodyContent.delete fun b => b.eventId = e }

/-- `INSERT INTO event_content_collection_log`. -/
def insertCollectionReceipt (r : CollectionReceipt) : SqliteTx Unit := do
  let t ← Tx.query SqliteStore.collectionLog
  match t.insert r with
  | some t' => Tx.modify fun s => { s with collectionLog := t' }
  | none => Tx.raise (.integrityError "constraint failed: event_content_collection_log")

inductive CollectionStatus where
  | collected
  | alreadyCollected
  | blocked
  | empty
  | dryRun
deriving DecidableEq, Repr

/-- The report of `collect_event_content`. -/
structure CollectionReport where
  eventId : String
  status : CollectionStatus
  dryRun : Bool
  blockers : List CopyProbe
  candidateRows : ℕ
  candidateLogicalBytes : ℕ
  rowsRemoved : ℕ
  logicalBytesRemoved : ℕ
deriving DecidableEq, Repr

/-- The status of a decision that is not carried out. -/
def BaseState.undone : BaseState → CollectionStatus
  | .alreadyCollected => .alreadyCollected
  | .blocked => .blocked
  | .empty => .empty
  | .eligible => .dryRun

/-- The report on a decision; rows are removed by a collection only. -/
def CollectionState.report (c : CollectionState) (e : String) (dryRun : Bool)
    (status : CollectionStatus) : CollectionReport where
  eventId := e
  status := status
  dryRun := dryRun
  blockers := c.blockers
  candidateRows := c.rows
  candidateLogicalBytes := c.logicalBytes
  rowsRemoved := if status = .collected then c.rows else 0
  logicalBytesRemoved := if status = .collected then c.logicalBytes else 0

def removeContent (e : String) (c : CollectionState) (now : Datetime) : SqliteTx Unit := do
  onContent (onDb (deleteExcerpts e))
  onContent (onDb (deleteBodyContent e))
  insertCollectionReceipt
    { eventId := e, collectedAt := now.isoformatMicroseconds, rowsRemoved := c.rows
      logicalBytesRemoved := c.logicalBytes }

/-- `collect_event_content`; a dry run rolls a transaction back that wrote nothing. -/
def collectEventContent (e : String) (dryRun : Bool) (retentionEpoch : Option ℤ)
    (now : Datetime) : SqliteTx CollectionReport := do
  Tx.require (retentionEpoch.all fun k => 1 ≤ k)
    (.valueError "Retention epoch must be a positive integer")
  Tx.require (e ≠ "") (.valueError "A bounded event ID is required")
  let s ← Tx.query id
  Tx.lift (s.activationFence e retentionEpoch)
  let c ← Tx.lift (s.readCollectionState e)
  if c.baseState = .eligible && !dryRun then
    removeContent e c now
    pure (c.report e dryRun .collected)
  else pure (c.report e dryRun c.baseState.undone)

end Medre.Storage
