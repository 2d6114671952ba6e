import Medre.Storage.Grants

/-! # Radio attempt checkpoints (`_radio.py`, `storage/radio.py`, `storage/radio_handoff.py`)

Every writer checks the current outbox claim in the same transaction. The msgspec encoding of a
handoff is left open. -/

namespace Medre.Storage

open Medre.Framework Medre.Rendering

/-! ## Stored checkpoints -/

def partTransitions (p : RadioPartProgress) : ℤ :=
  match p.state with
  | .unsent => 0
  | .submitting => 1
  | .accepted | .unknown => 2

def transitions (parts : List RadioPartProgress) : ℤ := (parts.map partTransitions).sum

/-- `StoredRadioAttempt`: a checkpoint that names its own attempt and whose
revision counts the retained transitions. -/
structure StoredRadioAttempt where
  provenance : DeliveryAttemptProvenance
  progress : RadioAttemptProgress
  revision : ℤ
  ownOutbox : provenance.outboxId = progress.outboxId
  ownAttempt : provenance.attemptNumber = progress.attemptNumber
  counted : revision = transitions progress.parts
deriving DecidableEq

/-- The constructor of `StoredRadioAttempt`. -/
def StoredRadioAttempt.make (provenance : DeliveryAttemptProvenance)
    (progress : RadioAttemptProgress) (revision : ℤ) : Except Err StoredRadioAttempt :=
  if h : provenance.outboxId = progress.outboxId ∧
      provenance.attemptNumber = progress.attemptNumber ∧
      revision = transitions progress.parts then
    .ok ⟨provenance, progress, revision, h.1, h.2.1, h.2.2⟩
  else .error (.valueError "radio checkpoint identity or revision is inconsistent")

def liftText {α : Type} : Except String α → Except Err α
  | .ok a => .ok a
  | .error text => .error (.valueError text)

/-- The body of `_decode`, before its errors are wrapped. -/
def decodeBody (row : RadioRow) : Except Err StoredRadioAttempt := do
  let baseline ← liftText (RadioAttemptProgress.fromData row.plan row.outboxId
    row.attemptNumber row.planFingerprint)
  if baseline.parts.any fun p => p.state ≠ .unsent then
    .error (.valueError "plan binding is not an initial snapshot")
  else if row.parts.length ≠ baseline.parts.length then
    .error (.valueError "progress does not cover the immutable plan")
  else
    let progress ← liftText (RadioAttemptProgress.make baseline.outboxId
      baseline.attemptNumber baseline.plan row.parts)
    StoredRadioAttempt.make row.provenance progress row.revision

/-- `_decode`. -/
def decodeRow (row : RadioRow) : Except Err StoredRadioAttempt :=
  match decodeBody row with
  | .ok saved => .ok saved
  | .error _ => .error (.storageError "Retained radio attempt evidence is invalid")

/-! ## Local handoffs -/

structure RadioHandoffOrigin where
  outboxId : String
  attemptNumber : ℤ
deriving DecidableEq, Repr

structure RadioLocalHandoff where
  ordinal : ℤ
  nativeMessageId : Option String
  nativeChannelId : Option String
  confirmationLevel : ConfirmationLevel
  origin : Option RadioHandoffOrigin := none
  payloadFingerprint : Option String := none
deriving DecidableEq, Repr

/-- The msgspec codec of `RadioLocalHandoff`. -/
structure HandoffCodec where
  decode : String → Option RadioLocalHandoff
  encode : RadioLocalHandoff → String

def HandoffCodec.fromPart (codec : HandoffCodec) (part : RadioPartProgress)
    (provenance : DeliveryAttemptProvenance) : Except Err RadioLocalHandoff :=
  if part.state ≠ .accepted then
    .error (.valueError "radio continuation requires accepted local handoffs")
  else
    match part.handoffId with
    | none => .error (.valueError "radio continuation requires accepted local handoffs")
    | some text =>
      match codec.decode text with
      | none => .error (.valueError "radio handoff does not decode")
      | some value =>
        if value.ordinal ≠ part.ordinal then
          .error (.valueError "radio handoff ordinal or original claim is invalid")
        else
          .ok { value with
            origin := value.origin.or
              (some ⟨provenance.outboxId, provenance.attemptNumber⟩) }

/-- `history.get((outbox_id, attempt_number))`. -/
def recordOf (history : List StoredRadioAttempt) (o : RadioHandoffOrigin) :
    Option StoredRadioAttempt :=
  history.reverse.find? fun s =>
    s.provenance.outboxId = o.outboxId && s.provenance.attemptNumber = o.attemptNumber

/-- One accepted part of `_accepted_prefix`, resolved to its original row. -/
def HandoffCodec.acceptedPart (codec : HandoffCodec) (saved : StoredRadioAttempt)
    (history : List StoredRadioAttempt) (part : RadioPartProgress) :
    Except Err RadioPartProgress := do
  let evidence ← codec.fromPart part saved.provenance
  match evidence.origin, evidence.payloadFingerprint with
  | some o, some _ =>
    match recordOf history o with
    | none => .error (.valueError "radio handoff origin is absent or newer than its owner")
    | some origin =>
      if saved.provenance.attemptNumber < origin.provenance.attemptNumber then
        .error (.valueError "radio handoff origin is absent or newer than its owner")
      else
        match origin.progress.parts[part.ordinal.toNat - 1]? with
        | none => .error (.valueError "list index out of range")
        | some first => do
          let original ← codec.fromPart first origin.provenance
          if original ≠ evidence ∨
              original.origin ≠ some ⟨origin.provenance.outboxId,
                origin.provenance.attemptNumber⟩ then
            .error (.valueError "radio handoff origin contradicts original acceptance")
          else
            let accepted : RadioPartProgress :=
              { ordinal := part.ordinal, state := .accepted
                handoffId := some (codec.encode evidence) }
            let _ ← liftText accepted.check
            .ok accepted
  | _, _ => .error (.valueError "radio handoff lacks continuation payload evidence")

/-- The loop of `_accepted_prefix`. -/
def HandoffCodec.acceptedParts (codec : HandoffCodec) (saved : StoredRadioAttempt)
    (history : List StoredRadioAttempt) :
    List RadioPartProgress → Except Err (List RadioPartProgress)
  | [] => .ok []
  | part :: parts =>
    match part.state with
    | .submitting | .unknown =>
      .error (.valueError "uncertain radio handoffs cannot be continued")
    | .unsent => codec.acceptedParts saved history parts
    | .accepted => do
      let accepted ← codec.acceptedPart saved history part
      let rest ← codec.acceptedParts saved history parts
      .ok (accepted :: rest)

def HandoffCodec.acceptedPrefix (codec : HandoffCodec) (saved : StoredRadioAttempt)
    (history : List StoredRadioAttempt) : Except Err (List RadioPartProgress) :=
  codec.acceptedParts saved history saved.progress.parts

/-! ## The claim fence -/

/-- `except (ValueError, TypeError)` catches this. -/
def Err.isValueOrTypeError (e : Err) : Bool := e.isValueError || e = .pyError .typeError

/-- The `WHERE` clause of `_owns`. -/
def OutboxRow.holdsClaim (rows : List OutboxRow) (outboxId : String)
    (workerId : Option String) (attemptNumber : ℤ) (r : OutboxRow) : Bool :=
  r.outboxId = outboxId && r.workerId = workerId && r.status = .inProgress &&
    r.generation = attemptNumber && r.noSiblingFrom rows attemptNumber

/-- `_owns`. -/
def Db.ownsClaim (db : Db) (claim : DeliveryAttemptProvenance) (workerId : Option String)
    (now : String) : Except Err Bool :=
  match db.outbox.rows.find? (OutboxRow.holdsClaim db.outbox.rows claim.outboxId workerId
      claim.attemptNumber) with
  | none => .ok false
  | some r =>
    let sameClaim : Bool := r.eventId = claim.eventId &&
      r.deliveryPlanId = claim.deliveryPlanId && r.targetAdapter = claim.targetAdapter &&
      r.targetChannel.getD "" = claim.targetChannel.getD "" &&
      r.dispatchSource = claim.source && r.replayRunId = claim.replayRunId
    match r.leaseUntil with
    | none => .ok sameClaim
    | some leaseUntil =>
      match liftPy (Datetime.fromisoformat leaseUntil) >>= utc with
      | .error e => if e.isValueOrTypeError then .ok false else .error e
      | .ok lease => if lease ≤ now then .ok false else .ok sameClaim

/-! ## Transactions -/

/-- `_radio_transaction`: SQLite errors surface as one `StorageError`. -/
def radioTransaction {α : Type} (x : StoreTx α) : StoreTx α := do
  match ← Tx.attempt x with
  | .ok a => pure a
  | .error (.integrityError _) =>
    Tx.raise (.storageError "Radio checkpoint transaction failed")
  | .error e => Tx.raise e

def decodeAll : List RadioRow → Except Err (List StoredRadioAttempt)
  | [] => .ok []
  | row :: rows => do
    let saved ← decodeRow row
    let rest ← decodeAll rows
    .ok (saved :: rest)

/-- `prior`: radio rows whose parent belongs to the delivery. -/
def Db.radioHistory (db : Db) (identity : DeliveryIdentity) : List RadioRow :=
  db.radio.rows.filter fun row =>
    db.outbox.rows.any fun parent =>
      parent.outboxId = row.outboxId && parent.identity = identity

/-- The loop over the history in `_bind_radio_attempt`: `true` goes on. -/
def bindChecks (provenance : DeliveryAttemptProvenance) (plan : RadioTextPlan) :
    List StoredRadioAttempt → Except Err Bool
  | [] => .ok true
  | saved :: history =>
    if saved.provenance.identity ≠ provenance.identity then
      .error (.storageError
        "Retained radio attempt delivery identity contradicts its parent")
    else if saved.progress.plan ≠ plan then
      .error (.storageError "Radio wire plan contradicts its existing binding")
    else if saved.provenance = provenance ∨
        provenance.attemptNumber ≤ saved.provenance.attemptNumber then .ok false
    else bindChecks provenance plan history

/-- `max(history, key=attempt_number)`: the first of the largest. -/
def latestAttempt : List StoredRadioAttempt → Option StoredRadioAttempt
  | [] => none
  | s :: rest => some (rest.foldl (fun m t =>
    if m.provenance.attemptNumber < t.provenance.attemptNumber then t else m) s)

/-- Every stored attempt's own accepted prefix starts the inherited one. -/
def HandoffCodec.extendsAll (codec : HandoffCodec) (history : List StoredRadioAttempt)
    (inherited : List RadioPartProgress) : List StoredRadioAttempt → Except Err Bool
  | [] => .ok true
  | saved :: rest => do
    let older ← codec.acceptedPrefix saved history
    if older ≠ inherited.take older.length then .ok false
    else codec.extendsAll history inherited rest

/-- The progress a continuation binds, or `None`. -/
def HandoffCodec.continuation (codec : HandoffCodec) (progress : RadioAttemptProgress)
    (predecessor : StoredRadioAttempt) (history : List StoredRadioAttempt) :
    Except Err (Option RadioAttemptProgress) := do
  let inherited ← codec.acceptedPrefix predecessor history
  if ¬(0 < inherited.length ∧ inherited.length < progress.plan.parts.length) then .ok none
  else if !(← codec.extendsAll history inherited history) then .ok none
  else
    let bound ← liftText (RadioAttemptProgress.make progress.outboxId progress.attemptNumber
      progress.plan (inherited ++ progress.parts.drop inherited.length))
    .ok (some bound)

/-- The progress to insert: fresh, or the explicit continuation of the latest
stored attempt. -/
def HandoffCodec.boundProgress (codec : HandoffCodec) (progress : RadioAttemptProgress)
    (history : List StoredRadioAttempt) :
    Option StoredRadioAttempt → Except Err (Option RadioAttemptProgress)
  | none =>
    if history.any fun saved => saved.progress.parts.any fun p => p.state ≠ .unsent then
      .ok none
    else .ok (some progress)
  | some predecessor =>
    if latestAttempt history ≠ some predecessor then .ok none
    else
      match codec.continuation progress predecessor history with
      | .ok bound => .ok bound
      | .error _ => .error (.storageError "Radio continuation evidence is invalid")

/-- `bind_radio_attempt` (no predecessor) and `resume_radio_attempt`. -/
def bindRadioAttempt (codec : HandoffCodec) (provenance : DeliveryAttemptProvenance)
    (workerId : Option String) (plan : RadioTextPlan)
    (predecessor : Option StoredRadioAttempt) (now : Datetime) :
    StoreTx (Option StoredRadioAttempt) := do
  let progress ← Tx.lift (liftText (RadioAttemptProgress.bind provenance.outboxId
    provenance.attemptNumber plan))
  radioTransaction do
    let db ← Tx.query id
    let owned ← Tx.lift (db.ownsClaim provenance workerId (nowIso now))
    if !owned then pure none
    else
      let history ← Tx.lift (decodeAll (db.radioHistory provenance.identity))
      let fresh ← Tx.lift (bindChecks provenance plan history)
      if !fresh then pure none
      else
        match ← Tx.lift (codec.boundProgress progress history predecessor) with
        | none => pure none
        | some bound =>
          let revision : ℤ := 2 * (bound.parts.countP fun p => p.state = .accepted)
          insertRadio
            { outboxId := provenance.outboxId
              attemptNumber := provenance.attemptNumber
              planFingerprint := plan.fingerprint
              plan := progress.toData
              provenance
              parts := bound.parts
              revision
              createdAt := nowIso now
              updatedAt := nowIso now }
          let stored ← Tx.lift (StoredRadioAttempt.make provenance bound revision)
          pure (some stored)

def Db.radioRow? (db : Db) (outboxId : String) (attemptNumber : ℤ) : Option RadioRow :=
  db.radio.rows.find? fun r => r.outboxId = outboxId && r.attemptNumber = attemptNumber

/-- The compare-and-set `UPDATE` both checkpoint writers issue. -/
def writeCheckpoint (claim : DeliveryAttemptProvenance) (expectedRevision : ℤ)
    (result : StoredRadioAttempt) (now : String) : StoreTx (Option StoredRadioAttempt) := do
  let count ← updateRadio
    (fun r => r.outboxId = claim.outboxId && r.attemptNumber = claim.attemptNumber &&
      r.revision = expectedRevision)
    (fun r => { r with
      parts := result.progress.parts, revision := result.revision, updatedAt := now })
  pure (if count = 1 then some result else none)

/-- `_checkpoint_radio_attempt` behind the native-start gate. -/
def checkpointRadioAttempt (expected : StoredRadioAttempt) (workerId : Option String)
    (updated : RadioAttemptProgress) (now : Datetime) :
    StoreTx (Option StoredRadioAttempt) := do
  let claim := expected.provenance
  let db ← Tx.query id
  let owned ← Tx.lift (db.ownsClaim claim workerId (nowIso now))
  if !owned then pure none
  else
    match db.radioRow? claim.outboxId claim.attemptNumber with
    | none => pure none
    | some row =>
      let saved ← Tx.lift (decodeRow row)
      if saved ≠ expected then pure none
      else
        let result ← Tx.lift (StoredRadioAttempt.make claim updated (expected.revision + 1))
        writeCheckpoint claim expected.revision result (nowIso now)

/-- The `native_start` gate: the caller's deadline and the content fence. -/
def nativeStart (claim : DeliveryAttemptProvenance) (workerId : Option String)
    (deadline : Option Datetime) (observed : Datetime) : StoreTx Bool := do
  if deadline.any fun d => d.instant ≤ observed.instant then pure false
  else
    match orNone workerId with
    | none => pure false
    | some worker =>
      let text ← Tx.lift (utc observed)
      nativeSubmissionAuthorized claim.eventId claim.outboxId worker claim.attemptNumber text

/-- `_utc(deadline)` of an explicit deadline. -/
def deadlineCheck : Option Datetime → Except Err Unit
  | none => .ok ()
  | some d => (utc d).map fun _ => ()

/-- `begin_radio_part`. The gate and the claim fence read the clock apart. -/
def beginRadioPart (expected : StoredRadioAttempt) (workerId : Option String) (ordinal : ℤ)
    (deadline : Option Datetime) (observed now : Datetime) :
    StoreTx (Option StoredRadioAttempt) := do
  Tx.lift (deadlineCheck deadline)
  let updated ← Tx.lift (liftText (expected.progress.begin ordinal))
  radioTransaction do
    let started ← nativeStart expected.provenance workerId deadline observed
    if !started then pure none
    else checkpointRadioAttempt expected workerId updated now

def observeRadioPart (expected : StoredRadioAttempt) (workerId : Option String)
    (ordinal : ℤ) (handoffId : Option String) (now : Datetime) :
    StoreTx (Option StoredRadioAttempt) := do
  let updated ← Tx.lift (liftText (expected.progress.observe ordinal handoffId))
  radioTransaction (checkpointRadioAttempt expected workerId updated now)

def recoverRadioAttempt (provenance : DeliveryAttemptProvenance) (workerId : Option String)
    (now : Datetime) : StoreTx (Option StoredRadioAttempt) :=
  radioTransaction do
    let db ← Tx.query id
    let owned ← Tx.lift (db.ownsClaim provenance workerId (nowIso now))
    if !owned then pure none
    else
      match db.radioRow? provenance.outboxId provenance.attemptNumber with
      | none => pure none
      | some row =>
        let saved ← Tx.lift (decodeRow row)
        if saved.provenance ≠ provenance then pure none
        else
          let recovered ← Tx.lift (liftText saved.progress.afterRestart)
          if recovered = saved.progress then pure (some saved)
          else
            let result ← Tx.lift
              (StoredRadioAttempt.make provenance recovered (saved.revision + 1))
            writeCheckpoint provenance saved.revision result (nowIso now)

end Medre.Storage
