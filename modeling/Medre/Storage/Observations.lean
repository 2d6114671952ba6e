import Medre.Storage.AttachmentAdmission

/-! # Post-handoff evidence (`_observation.py`) and the tables of retention

An observation is appended in the transaction that checks its outbox attempt. Its free-form text
goes to the diagnostics, its provider metadata stays in the row. -/

namespace Medre.Storage

open Medre.Framework

/-! ## Tables -/

/-- `DELIVERY_OBSERVATION_STATE_VALUES`. -/
inductive ObservationState where
  | delivered
  | failed
  | rejected
  | cancelled
deriving DecidableEq, Repr

/-- `delivery_observations`. -/
structure ObservationRow where
  observationId : String
  eventId : String
  deliveryPlanId : String
  targetAdapter : String
  targetChannel : Option String
  nativeChannelId : Option String
  outboxId : String
  attemptNumber : ℤ
  adapterMessageId : Option String
  state : ObservationState
  confirmationLevel : ConfirmationLevel
  error : Option String := none
  metadata : Json
  observedAt : String

/-- `event_content_collection_log`; the only policy is `'relay-only'`. -/
structure CollectionReceipt where
  eventId : String
  collectedAt : String
  rowsRemoved : ℕ
  logicalBytesRemoved : ℕ
deriving DecidableEq, Repr

/-- `RETENTION_EPOCH_ACTIVATORS`. -/
inductive EpochActivator where
  | runtimeFirstStart
  | operator
deriving DecidableEq, Repr

/-- `content_retention_epochs`; the only mode is `'relay-only'`. -/
structure RetentionEpoch where
  epoch : ℤ
  activatedAt : String
  admissionWatermark : Option String
  lastObservedActiveAt : Option String
  activatedBy : EpochActivator
deriving DecidableEq, Repr

/-- The whole store: the delivery tables, the attachments, the observations and the
tables of retention. -/
structure SqliteStore extends ContentStore where
  observations : Table (distinctOn ObservationRow.observationId)
  collectionLog : Table (distinctOn CollectionReceipt.eventId)
  epochs : Table (distinctOn RetentionEpoch.epoch)

def SqliteStore.empty : SqliteStore :=
  { ContentStore.empty with observations := .empty, collectionLog := .empty, epochs := .empty }

abbrev SqliteTx := Tx SqliteStore Err

/-- A statement on the tables without observations and retention. -/
def onContent {α : Type} (x : ContentTx α) : SqliteTx α :=
  Tx.within SqliteStore.toContentStore (fun s c => { s with toContentStore := c }) x

/-! ## Observations -/

/-- `DeliveryObservation`, checked on construction. -/
structure DeliveryObservation where
  observationId : String
  eventId : String
  deliveryPlanId : String
  targetAdapter : String
  targetChannel : Option String := none
  nativeChannelId : Option String := none
  outboxId : String
  attemptNumber : ℤ := 1
  adapterMessageId : Option String := none
  state : ObservationState := .delivered
  confirmationLevel : ConfirmationLevel := .unknown
  error : Option String := none
  metadata : List (String × Json) := []
  observedAt : Datetime
  positive : 1 ≤ attemptNumber
  named : observationId ≠ "" ∧ eventId ≠ "" ∧ deliveryPlanId ≠ "" ∧ targetAdapter ≠ "" ∧
    outboxId ≠ ""

/-- `diagnostic_write_ops` of an observation. -/
def observationDiagnostic (o : DeliveryObservation) (attempt : ℤ) : StoreTx Unit :=
  match o.error with
  | none => pure ()
  | some text =>
    if text = "" then pure ()
    else
      insertDiagnostic
        { family := .observation, rowId := o.observationId, attempt, field := .error
          diagnostic := text, createdAt := o.observedAt.isoformat }

/-- `INSERT INTO delivery_observations ... ON CONFLICT(observation_id) DO NOTHING`, and
the diagnostic of a row that was inserted. -/
def insertObservation (o : DeliveryObservation) (row : ObservationRow) : SqliteTx Bool := do
  let t ← Tx.query SqliteStore.observations
  match t.insert row with
  | none => pure false
  | some t' =>
    Tx.modify fun s => { s with observations := t' }
    onContent (onDb (observationDiagnostic o row.attemptNumber))
    pure true

/-- The `WHERE` clause of `_INSERT_OBSERVATION`. -/
def DeliveryObservation.observes (o : DeliveryObservation) (r : OutboxRow) : Bool :=
  r.outboxId = o.outboxId && r.eventId = o.eventId && r.deliveryPlanId = o.deliveryPlanId &&
    r.targetAdapter = o.targetAdapter && o.attemptNumber = r.generation &&
    (r.status = .inProgress || r.status = .queued || r.status = .sent)

def appendDeliveryObservation (o : DeliveryObservation) : SqliteTx Bool := do
  match ← Tx.query fun s => s.db.outbox.rows.find? o.observes with
  | none => pure false
  | some r =>
    insertObservation o
      { observationId := o.observationId
        eventId := r.eventId
        deliveryPlanId := r.deliveryPlanId
        targetAdapter := r.targetAdapter
        targetChannel := r.targetChannel
        nativeChannelId := orNone o.nativeChannelId
        outboxId := r.outboxId
        attemptNumber := r.generation
        adapterMessageId := o.adapterMessageId
        state := o.state
        confirmationLevel := o.confirmationLevel
        metadata := .obj o.metadata
        observedAt := o.observedAt.isoformat }

/-- The ordinal an observation names in its `radio_packet`, when the packet names the
observed attempt and the state is one a packet can have. -/
def DeliveryObservation.packetOrdinal (o : DeliveryObservation) : Option ℕ := do
  let packet ← (Json.fieldOf o.metadata "radio_packet").bind Json.fields?
  let number (key : String) : Option ℕ :=
    match Json.fieldOf packet key with
    | some (.number literal) => Json.natLiteral? literal
    | _ => none
  let ordinal ← number "ordinal"
  let origin ← number "origin_attempt_number"
  if (origin : ℤ) = o.attemptNumber ∧
      (Json.fieldOf packet "origin_outbox_id").bind Json.str? = some o.outboxId ∧
      o.adapterMessageId.isSome ∧
      (o.state = .delivered →
        o.confirmationLevel = .remoteService ∨ o.confirmationLevel = .endToEnd) then
    some ordinal
  else none

/-- The checkpoint is that of the outbox row and of the observed delivery. -/
def DeliveryObservation.sameParent (o : DeliveryObservation) (p : DeliveryAttemptProvenance)
    (r : OutboxRow) : Bool :=
  p.eventId = r.eventId && p.deliveryPlanId = r.deliveryPlanId &&
    p.targetAdapter = r.targetAdapter && p.targetChannel.getD "" = r.targetChannel.getD "" &&
    o.eventId = p.eventId && o.deliveryPlanId = p.deliveryPlanId &&
    o.targetAdapter = p.targetAdapter && o.targetChannel = p.targetChannel

/-- The accepted part of the checkpoint is the origin of the observed packet. -/
def DeliveryObservation.provenBy (o : DeliveryObservation) (codec : HandoffCodec)
    (saved : StoredRadioAttempt) (ordinal : ℕ) : Except Err Bool :=
  match if ordinal = 0 then none else saved.progress.parts[ordinal - 1]? with
  | none => .ok false
  | some part =>
    if part.state ≠ .accepted then .ok false
    else
      match codec.fromPart part saved.provenance with
      | .error _ => .error (.storageError "Retained radio attempt evidence is invalid")
      | .ok evidence =>
        .ok (evidence.origin =
            some ⟨saved.provenance.outboxId, saved.provenance.attemptNumber⟩ &&
          evidence.nativeMessageId = o.adapterMessageId &&
          evidence.nativeChannelId = o.nativeChannelId)

def appendRadioPacketObservation (codec : HandoffCodec) (o : DeliveryObservation) :
    SqliteTx Bool := do
  match o.packetOrdinal with
  | none => pure false
  | some ordinal =>
    match ← Tx.query fun s => s.db.radio.rows.find? fun r =>
        r.outboxId = o.outboxId && r.attemptNumber = o.attemptNumber with
    | none => pure false
    | some row =>
      let saved ← Tx.lift (decodeRow row)
      match ← Tx.query fun s => s.db.outboxRow? o.outboxId with
      | none => pure false
      | some parent =>
        if !o.sameParent saved.provenance parent then pure false
        else
          let proven ← Tx.lift (o.provenBy codec saved ordinal)
          if !proven then pure false
          else
            insertObservation o
              { observationId := o.observationId
                eventId := saved.provenance.eventId
                deliveryPlanId := saved.provenance.deliveryPlanId
                targetAdapter := saved.provenance.targetAdapter
                targetChannel := saved.provenance.targetChannel
                nativeChannelId := o.nativeChannelId
                outboxId := saved.provenance.outboxId
                attemptNumber := saved.provenance.attemptNumber
                adapterMessageId := o.adapterMessageId
                state := o.state
                confirmationLevel := o.confirmationLevel
                metadata := .obj o.metadata
                observedAt := o.observedAt.isoformat }

end Medre.Storage
