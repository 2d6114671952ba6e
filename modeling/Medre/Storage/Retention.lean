import Medre.Storage.Collection

/-! # Activation epochs, candidate paging and the retention preview (`_retention.py`)

Opening an epoch pins the greatest admission text in the transaction that inserts it; pages and
previews read the same order strictly after it. -/

namespace Medre.Storage

open Medre.Framework

/-! ## Epochs -/

def utcIso (now : Datetime) : Except Err String :=
  match now.utcoffset with
  | none => .error (.valueError "Observation time must be timezone aware")
  | some _ =>
    match now.astimezoneUtc with
    | .ok d => .ok d.isoformatMicroseconds
    | .error e => .error (.pyError e)

/-- `SELECT MAX(created_at) FROM canonical_events`. -/
def Db.maxCreatedAt (db : Db) : Option String := (db.events.rows.map EventRow.createdAt).max?

/-- The boundary of a new epoch: it never moves backward. -/
def nextWatermark (observed previous : Option String) : Option String :=
  match previous with
  | none => observed
  | some p =>
    match observed with
    | none => some p
    | some w => if w < p then some p else some w

/-- The number `AUTOINCREMENT` assigns; epochs are not deleted. -/
def SqliteStore.nextEpoch (s : SqliteStore) : ℤ :=
  match s.latestRetentionEpoch with
  | none => 1
  | some latest => latest.epoch + 1

/-- The epoch `sync_open_retention_epoch` inserts. -/
def SqliteStore.newEpoch (s : SqliteStore) (activatedBy : EpochActivator) (activatedAt : String) :
    RetentionEpoch where
  epoch := s.nextEpoch
  activatedAt := activatedAt
  admissionWatermark := nextWatermark s.db.maxCreatedAt
    (s.latestRetentionEpoch.bind RetentionEpoch.admissionWatermark)
  lastObservedActiveAt := none
  activatedBy := activatedBy

def openRetentionEpoch (activatedBy : EpochActivator) (now : Datetime) :
    SqliteTx RetentionEpoch := do
  let activatedAt ← Tx.lift (utcIso now)
  let s ← Tx.query id
  let opened := s.newEpoch activatedBy activatedAt
  match s.epochs.insert opened with
  | some t => Tx.modify fun s => { s with epochs := t }
  | none => Tx.raise (.integrityError "constraint failed: content_retention_epochs")
  pure opened

def RetentionEpoch.observe (observedAt : String) (r : RetentionEpoch) : RetentionEpoch :=
  { r with lastObservedActiveAt := some observedAt }

def observeRetentionHeartbeat (epoch : ℤ) (now : Datetime) : SqliteTx Unit := do
  let observedAt ← Tx.lift (utcIso now)
  let s ← Tx.query id
  Tx.require (s.latestRetentionEpoch.any fun latest => latest.epoch = epoch)
    (.contentCollectionEpochChanged "Retention activation changed before heartbeat")
  match s.epochs.update (fun r => r.epoch = epoch && r.lastObservedActiveAt.all (· < observedAt))
      (RetentionEpoch.observe observedAt) with
  | some t => Tx.modify fun s => { s with epochs := t }
  | none => Tx.raise (.integrityError "constraint failed: content_retention_epochs")

/-! ## Pages -/

def retentionBatchMax : ℤ := 100

/-- `(created_at, event_id) > (?, ?)`. -/
def EventRow.after (cursor : String × String) (e : EventRow) : Bool :=
  cursor.1 < e.createdAt || (cursor.1 = e.createdAt && cursor.2 < e.eventId)

/-- `ORDER BY created_at, event_id`. -/
def admissionOrder (rows : List EventRow) : List EventRow :=
  rows.insertionSort fun a b =>
    a.createdAt < b.createdAt ∨ (a.createdAt = b.createdAt ∧ a.eventId ≤ b.eventId)

structure CandidatePage where
  eventIds : List String
  nextAfter : Option (String × String)
  hasMore : Bool
deriving DecidableEq, Repr

def normalizeWatermark? : Option String → Except Err (Option String)
  | none => .ok none
  | some w => (normalizeAdmissionWatermark w).map some

/-- The rows a page is cut from: strictly after the cursor inside the epoch, else
strictly after the boundary. -/
def Db.candidates (db : Db) (after : Option (String × String)) (watermark : Option String) :
    List EventRow :=
  admissionOrder <| db.events.rows.filter fun e =>
    match after, watermark with
    | none, none => true
    | none, some w => w < e.createdAt
    | some cursor, none => e.after cursor
    | some cursor, some w => if w < cursor.1 then e.after cursor else w < e.createdAt

def EventRow.place (e : EventRow) : String × String := (e.createdAt, e.eventId)

def pageCollectionCandidates (after : Option (String × String)) (limit : ℤ)
    (watermark : Option String) (s : SqliteStore) : Except Err CandidatePage := do
  if ¬(1 ≤ limit ∧ limit ≤ retentionBatchMax) then
    .error (.valueError "A collection candidate page limit must be an integer in [1, 100]")
  else if watermark = some "" then
    .error (.valueError "The admission watermark must be a timestamp or absent")
  else if after.any fun cursor => cursor.1 = "" || cursor.2 = "" then
    .error (.valueError
      "A collection candidate cursor must be a non-empty (created_at, event_id) pair")
  else
    let boundary ← normalizeWatermark? watermark
    let rows := (s.db.candidates after boundary).take (limit.toNat + 1)
    if after.any fun cursor => rows.head?.any fun e => !e.after cursor then
      .error (.runtimeError "collection candidate scan did not advance its keyset")
    else
      let page := rows.take limit.toNat
      .ok
        { eventIds := page.map EventRow.eventId
          nextAfter := page.getLast?.map EventRow.place
          hasMore := limit.toNat < rows.length }

/-! ## The preview -/

/-- The counts of `_preview_content_retention_in_snapshot`; without an epoch nothing is
examined. -/
structure RetentionPreview where
  epoch : Option ℤ
  examined : List String
  hasMore : Bool
  nextAfter : Option (String × String)
  count : PreviewOutcome → ℕ

def previewContentRetention (limit : ℕ) (after : Option (String × String)) (s : SqliteStore) :
    Except Err RetentionPreview :=
  match s.latestRetentionEpoch with
  | none => .ok ⟨none, [], false, none, fun _ => 0⟩
  | some active => do
    let boundary ← normalizeWatermark? active.admissionWatermark
    let page := (admissionOrder (s.db.events.rows.filter fun e =>
      boundary.all (· < e.createdAt) && after.all e.after)).take (limit + 1)
    let examined := page.take limit
    .ok
      { epoch := some active.epoch
        examined := examined.map EventRow.eventId
        hasMore := limit < page.length
        nextAfter := examined.getLast?.map EventRow.place
        count := fun o =>
          examined.countP fun e => s.previewEventCollectionState e.eventId = o }

/-! ## The machine -/

/-- A call on the whole store. -/
inductive StoreCall where
  | op (op : Op)
  | admitContent (c : AdmitCall)
  | appendDeliveryObservation (o : DeliveryObservation)
  | appendRadioPacketObservation (o : DeliveryObservation)
  | collectEventContent (eventId : String) (dryRun : Bool) (retentionEpoch : Option ℤ)
      (now : Datetime)
  | openRetentionEpoch (activatedBy : EpochActivator) (now : Datetime)
  | observeRetentionHeartbeat (epoch : ℤ) (now : Datetime)

inductive StoreAnswer where
  | op (a : Answer)
  | admitted (r : ContentAdmission)
  | flag (b : Bool)
  | collection (r : CollectionReport)
  | epoch (r : RetentionEpoch)
  | unit

/-- The transaction of a call. -/
def StoreCall.exec (x : Externals) : StoreCall → SqliteTx StoreAnswer
  | .op o => do
    let a ← onContent (onDb (Storage.exec x o))
    pure (.op a)
  | .admitContent c => do
    let r ← onContent (admitIngressContent c)
    pure (.admitted r)
  | .appendDeliveryObservation o => do
    let b ← Storage.appendDeliveryObservation o
    pure (.flag b)
  | .appendRadioPacketObservation o => do
    let b ← Storage.appendRadioPacketObservation x.handoffs o
    pure (.flag b)
  | .collectEventContent e dryRun epoch now => do
    let r ← Storage.collectEventContent e dryRun epoch now
    pure (.collection r)
  | .openRetentionEpoch by' now => do
    let r ← Storage.openRetentionEpoch by' now
    pure (.epoch r)
  | .observeRetentionHeartbeat epoch now => do
    Storage.observeRetentionHeartbeat epoch now
    pure .unit

def storeStep (x : Externals) (s : SqliteStore) (c : StoreCall) :
    SqliteStore × Except Err StoreAnswer :=
  (c.exec x).commit s

/-- The store after a list of calls on a fresh one. -/
def storeAfter (x : Externals) (calls : List StoreCall) : SqliteStore :=
  run (storeStep x) SqliteStore.empty calls

end Medre.Storage
