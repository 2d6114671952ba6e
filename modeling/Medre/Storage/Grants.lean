import Medre.Storage.Admission

/-! # Content read grants and the native-start fence (`_content_grants.py`)

Calls that raise after their transaction committed answer with an `Except`
inside the transaction; calls that raise inside it roll back. -/

namespace Medre.Storage

open Medre.Framework

/-- Third-party decoding, left open: SQLite's `json()` of a text, and msgspec's of a projected
event row, which yields its payload. -/
structure EventCodec where
  jsonText : String → Option Json
  rowToEvent : EventRow → List RelationRow → Except Err (List (String × Json))

/-! ## Optional body holds -/

/-- `ContentHold.scope`. -/
inductive HoldScope where
  | body
  | replyExcerpt
  | attachment
deriving DecidableEq, Repr

/-- `ContentHold.__post_init__`. -/
def holdChecks (consumer : String) (expiresAt : Datetime) (issuedAt : Option Datetime) :
    Except Err Unit :=
  let misplaced : Err := .valueError "Hold issue time must precede expiry and have a timezone"
  if pyStrip consumer = "" || 128 < consumer.length then
    .error (.valueError "A bounded consumer identity is required")
  else if expiresAt.utcoffset.isNone then
    .error (.valueError "Hold expiration must be timezone aware")
  else
    match issuedAt with
    | none => .ok ()
    | some issuedAt =>
      if issuedAt.utcoffset.isNone then .error misplaced
      else do
        let issued ← liftPy issuedAt.astimezoneUtc
        let expires ← liftPy expiresAt.astimezoneUtc
        if expires.instant ≤ issued.instant then .error misplaced else .ok ()

structure ContentHold where
  consumer : String
  scope : HoldScope
  expiresAt : Datetime
  mandatory : Bool := false
  issuedAt : Option Datetime := none
  valid : holdChecks consumer expiresAt issuedAt = .ok ()

/-- `AvailabilityPolicy.__post_init__`; a hold bound is in microseconds. -/
def policyChecks (hardCeiling : Datetime) (maxOptionalHold : ℤ) (consumers : List String) :
    Except Err Unit :=
  if hardCeiling.utcoffset.isNone then
    .error (.valueError "Hard ceiling must be timezone aware")
  else if consumers.any fun c => pyStrip c = "" || 128 < c.length then
    .error (.valueError "Optional consumers must be bounded non-empty identities")
  else if ¬(0 < maxOptionalHold ∧ maxOptionalHold ≤ 30 * 86400000000) then
    .error (.valueError "Optional hold limit must be in (0,30 days]")
  else .ok ()

/-- `AvailabilityPolicy`; the consumers are a set. -/
structure AvailabilityPolicy where
  hardCeiling : Datetime
  maxOptionalHold : ℤ
  allowedOptionalConsumers : List String := []
  valid : policyChecks hardCeiling maxOptionalHold allowedOptionalConsumers = .ok ()

/-- `sorted(frozenset)`. -/
def AvailabilityPolicy.sortedConsumers (p : AvailabilityPolicy) : List String :=
  p.allowedOptionalConsumers.dedup.insertionSort (· ≤ ·)

def observeOptionalExpiry (eventId observed : String) : StoreTx Unit := do
  let _ ← updateGrants
    (fun g => g.eventId = eventId && g.expiredAt.isNone && g.revokedAt.isNone &&
      g.expiresAt ≤ observed)
    (fun g => { g with expiredAt := some observed })

structure HoldTexts where
  ceiling : String
  issue : String
  expiry : String
  observed : String

/-- The checks of `sync_issue_body_hold` before its transaction. Instants are
compared, not wall clocks. -/
def holdWindowChecks (hold : ContentHold) (policy : AvailabilityPolicy) (now : Datetime) :
    Except Err HoldTexts := do
  let notLive : Err := .valueError "Hold must be issued by now and live at issue time"
  let _ ← utc now
  if hold.scope ≠ .body || hold.mandatory then
    .error (.valueError "Only optional body holds are available in this slice")
  else
    match hold.issuedAt with
    | none => .error notLive
    | some issuedAt =>
      let issued ← liftPy issuedAt.astimezoneUtc
      let expires ← liftPy hold.expiresAt.astimezoneUtc
      let observed ← liftPy now.astimezoneUtc
      let ceiling ← liftPy policy.hardCeiling.astimezoneUtc
      if observed.instant < issued.instant ∨ expires.instant ≤ observed.instant ∨
          expires.instant ≤ issued.instant then .error notLive
      else if !policy.allowedOptionalConsumers.contains hold.consumer then
        .error (.valueError "Consumer not allowed by content policy")
      else if ceiling.instant < expires.instant then
        .error (.valueError "Hold cannot outlive the hard ceiling")
      else if policy.maxOptionalHold < expires.instant - issued.instant then
        .error (.valueError "Hold exceeds the bounded optional duration")
      else if ceiling.instant ≤ observed.instant then
        .error (.valueError "Cannot issue a hold after the hard ceiling")
      else
        .ok
          { ceiling := ceiling.isoformatMicroseconds
            issue := issued.isoformatMicroseconds
            expiry := expires.isoformatMicroseconds
            observed := observed.isoformatMicroseconds }

/-- The event's policy is installed once and compared ever after. -/
def installPolicy (eventId : String) (policy : AvailabilityPolicy) (t : HoldTexts)
    (current : Option AccessPolicy) : StoreTx Unit :=
  match current with
  | some p =>
    Tx.require (p.hardCeiling = t.ceiling && p.allowedConsumers = policy.sortedConsumers &&
        p.maxOptionalHoldMicroseconds = policy.maxOptionalHold)
      (.valueError "Content policy is immutable for this event")
  | none =>
    insertPolicy
      { eventId, hardCeiling := t.ceiling, allowedConsumers := policy.sortedConsumers
        maxOptionalHoldMicroseconds := policy.maxOptionalHold, createdAt := t.observed }

/-- A grant is installed once; an exact repetition of a live one is accepted. -/
def installGrant (eventId consumer : String) (t : HoldTexts) (old : Option AccessGrant) :
    StoreTx Unit :=
  match old with
  | some g =>
    Tx.require (g.issuedAt = t.issue && g.expiresAt = t.expiry && g.revokedAt.isNone &&
        g.expiredAt.isNone)
      (.valueError "Content hold cannot be replaced or resurrected")
  | none => insertGrant { eventId, consumer, issuedAt := t.issue, expiresAt := t.expiry }

/-- The mutations of `sync_issue_body_hold` behind its savepoint. -/
def holdMutation (eventId consumer : String) (policy : AvailabilityPolicy) (t : HoldTexts) :
    StoreTx Unit := do
  let db ← Tx.query id
  let owned := db.dependencies.rows.any fun d =>
    d.eventId = eventId && d.ownerKind.isSource
  Tx.require (!(owned || db.hasEvent eventId) || db.sourceDependencyLive eventId)
    (.valueError
      "Expired mandatory content or a missing owner cannot gain new optional holds")
  installPolicy eventId policy t (db.policies.rows.find? fun p => p.eventId = eventId)
  let old ← Tx.query fun db =>
    db.grants.rows.find? fun g => g.eventId = eventId && g.consumer = consumer
  installGrant eventId consumer t old

/-- `issue_optional_body_hold`. A refused mutation is undone to its savepoint and the expiry
observations commit; every other error rolls the call back. -/
def issueBodyHold (eventId : String) (hold : ContentHold) (policy : AvailabilityPolicy)
    (now : Datetime) : StoreTx (Except Err Unit) := do
  Tx.require (eventId ≠ "") (.valueError "A non-empty event identifier is required")
  let texts ← Tx.lift (holdWindowChecks hold policy now)
  let admitted ← Tx.query fun db =>
    db.bodyIdentity.rows.any fun b => b.eventId = eventId
  Tx.require admitted (.valueError "Content policy requires an admitted event")
  observeMandatoryExpiry eventId texts.observed
  observeOptionalExpiry eventId texts.observed
  match ← Tx.attempt (holdMutation eventId hold.consumer policy texts) with
  | .ok () => pure (.ok ())
  | .error e => if e.isValueError then pure (.error e) else Tx.raise e

/-- `revoke_optional_body_hold`. -/
def revokeBodyHold (eventId consumer : String) (now : Datetime) : StoreTx Bool := do
  Tx.require (eventId ≠ "" && consumer ≠ "")
    (.valueError "A non-empty event ID and consumer are required")
  let observed ← Tx.lift (utc now)
  observeOptionalExpiry eventId observed
  let count ← updateGrants
    (fun g => g.eventId = eventId && g.consumer = consumer && g.revokedAt.isNone &&
      g.expiredAt.isNone)
    (fun g => { g with revokedAt := some observed })
  pure (count = 1)

/-! ## Reads -/

inductive ContentBodyRead where
  | denied
  | unavailable
  | retained (body : String)
deriving DecidableEq, Repr

/-- `ORDER BY c.field='body' DESC LIMIT 1`. -/
def Db.bodyText (db : Db) (eventId : String) : Option String :=
  let ofField (f : BodyField) :=
    (db.bodyContent.rows.find? fun b => b.eventId = eventId && b.field = f).map
      BodyContent.body
  (ofField .body).or (ofField .text)

def Db.bodyIdentity? (db : Db) (eventId : String) : Option Bool :=
  (db.bodyIdentity.rows.find? fun b => b.eventId = eventId).map
    BodyIdentity.presentAtAdmission

/-- What a granted body read answers after its transaction. -/
def bodyRead (missing : String) : Option String → Bool → Except Err ContentBodyRead
  | _, false => .ok .unavailable
  | some body, true => .ok (.retained body)
  | none, true => .error (.storageError missing)

/-- The grant and policy conditions of a consumer read. -/
def AccessGrant.readable (eventId consumer observed : String) (g : AccessGrant) : Bool :=
  g.eventId = eventId && g.consumer = consumer && g.revokedAt.isNone &&
    g.expiredAt.isNone && g.issuedAt ≤ observed && observed < g.expiresAt

def AccessPolicy.openAt (eventId observed : String) (p : AccessPolicy) : Bool :=
  p.eventId = eventId && observed < p.hardCeiling

/-- The join of grant and policy that authorizes a consumer. -/
def Db.consumerAuthorized (db : Db) (eventId consumer observed : String) : Bool :=
  db.hasEvent eventId && db.policies.rows.any (AccessPolicy.openAt eventId observed) &&
    db.grants.rows.any (AccessGrant.readable eventId consumer observed)

/-- `read_body_for_consumer`. -/
def readAuthorizedBody (eventId consumer : String) (now : Datetime) :
    StoreTx (Except Err ContentBodyRead) := do
  Tx.require (eventId ≠ "" && consumer ≠ "")
    (.valueError "A non-empty event ID and consumer are required")
  let observed ← Tx.lift (utc now)
  observeMandatoryExpiry eventId observed
  observeOptionalExpiry eventId observed
  let db ← Tx.query id
  if db.consumerAuthorized eventId consumer observed then
    match db.bodyIdentity? eventId with
    | none => pure (.error (.storageError "Admitted event has no valid body identity"))
    | some present =>
      pure (bodyRead "Body admission fact disagrees with separate text content"
        (db.bodyText eventId) present)
  else pure (.ok .denied)

/-- A live outbox owner: `status IN ('pending', 'in_progress', 'retry_wait')`. -/
def Db.outboxOwner (db : Db) (eventId outboxId : String) : Bool :=
  db.outbox.rows.any fun r => r.outboxId = outboxId && r.eventId = eventId &&
    (r.status = .pending || r.status = .inProgress || r.status = .retryWait)

/-- `read_body_for_outbox`. -/
def readOutboxBody (eventId outboxId : String) (now : Datetime) :
    StoreTx (Except Err ContentBodyRead) := do
  Tx.require (eventId ≠ "" && outboxId ≠ "")
    (.valueError "An exact event ID and outbox ID are required")
  let observed ← Tx.lift (utc now)
  observeMandatoryExpiry eventId observed
  let db ← Tx.query id
  if db.outboxOwner eventId outboxId &&
      db.outboxContentAuthority eventId outboxId observed then
    match db.bodyIdentity? eventId with
    | none => pure (.ok .denied)
    | some present =>
      pure (bodyRead "Admitted body is missing from separated content storage"
        (db.bodyText eventId) present)
  else pure (.ok .denied)

/-- `owner_kind` of an owned-event read. -/
inductive ReadOwner where
  | ingress
  | outbox (outboxId : String)
  | replay
  | reply
deriving DecidableEq, Repr

/-- What an owned-event read answers to an empty identity. -/
def ReadOwner.missingIdentity : ReadOwner → String
  | .outbox _ => "An event and outbox identity are required"
  | .ingress => "An event identity is required"
  | .replay | .reply => "An exact event ID is required"

/-- An authorized projection: the row, its relations, and the payload with the
separated texts put back. -/
structure EventRead where
  row : EventRow
  relations : List RelationRow
  payload : List (String × Json)

inductive AuthorizedEventRead where
  | denied
  | retained (event : EventRead)

/-- The composed routing namespace: the typed facts, else the inline value. -/
def Db.composedRouting (codec : EventCodec) (db : Db) (e : EventRow) : Except Err Json :=
  match db.routingFacts.rows.find? fun f => f.eventId = e.eventId with
  | some f =>
    .ok (.obj
      [("matched_routes", .arr (f.matchedRoutes.map Json.str)),
       ("fanout_group", (f.fanoutGroup.map Json.str).getD .null),
       ("route_trace", .arr f.routeTrace)])
  | none =>
    match e.metadata.fields?.bind (Json.fieldOf · "routing") with
    | none => .ok .null
    | some (.str text) =>
      match codec.jsonText text with
      | some j => .ok j
      | none => .error (.storageError "Content grant operation failed: malformed JSON")
    | some j => .ok j

/-- The marker that selects canonical text in a reply projection. -/
def replyPayload (e : EventRow) : Json :=
  match e.payload.fields?.bind (Json.fieldOf · "formatting") with
  | some _ => .obj [("formatting", .obj [])]
  | none => .obj []

/-- `AUTHORIZED_EVENT_COLUMNS`, `REPLY_COLUMNS` or `REPLY_BODY_COLUMNS`. -/
def Db.projectEvent (codec : EventCodec) (db : Db) (owner : ReadOwner)
    (quoteGrantOnly : Bool) (e : EventRow) : Except Err EventRow :=
  if owner = .reply && quoteGrantOnly then
    .ok { e with payload := replyPayload e, metadata := .obj [] }
  else
    match db.composedRouting codec e with
    | .error err => .error err
    | .ok routing =>
      let metadata := e.metadata.setField "routing" routing
      if owner = .reply then .ok { e with payload := replyPayload e, metadata }
      else .ok { e with metadata }

/-- The assembly of an authorized event; every inconsistency raises. -/
def Db.assembleEvent (codec : EventCodec) (db : Db) (owner : ReadOwner)
    (quoteGrantOnly : Bool) (e : EventRow) : Except Err AuthorizedEventRead :=
  match db.projectEvent codec owner quoteGrantOnly e with
  | .error err => .error err
  | .ok row =>
    let relations :=
      if owner = .reply then []
      else db.relations.rows.filter fun r => r.eventId = e.eventId
    match codec.rowToEvent row relations with
    | .error err => .error err
    | .ok payload =>
      if (payloadText payload .body).isSome || (payloadText payload .text).isSome then
        .error (.storageError "Canonical envelope contains separated body content")
      else
        match db.bodyIdentity? e.eventId with
        | none =>
          .error (.storageError "Admitted event has no valid body identity")
        | some present =>
          let bodies :=
            if owner = .reply && !present then []
            else db.bodyContent.rows.filter fun b => b.eventId = e.eventId
          let full := payload ++
            bodies.map fun b => (b.field.key, Json.str b.body)
          if bodyPresent full ≠ present then
            .error (.storageError
              "Body admission fact disagrees with separate text content")
          else .ok (.retained { row, relations, payload := full })

def Db.replyQuoteGrantLive (db : Db) (eventId observed : String) : Bool :=
  db.policies.rows.any (AccessPolicy.openAt eventId observed) &&
    db.grants.rows.any (AccessGrant.readable eventId "reply_quotes" observed)

/-- The durable owner of an owned-event read exists. -/
def Db.readOwner (db : Db) (eventId : String) : ReadOwner → Bool
  | .outbox outboxId => db.outboxOwner eventId outboxId
  | .ingress => db.ingressWork.rows.any fun w =>
    w.eventId = eventId && (w.status = .pending || w.status = .processing)
  | .replay | .reply => db.hasEvent eventId

/-- The content authority of an owned-event read. -/
def Db.readAuthority (db : Db) (eventId observed : String) : ReadOwner → Bool
  | .replay => db.sourceDependencyLive eventId
  | .reply =>
    db.sourceDependencyLive eventId || db.replyQuoteGrantLive eventId observed
  | .outbox outboxId => db.outboxContentAuthority eventId outboxId observed
  | .ingress =>
    db.dependencies.rows.any (Dependency.ownerLive eventId .ingress eventId observed)

/-- `read_event_for_ingress`, `read_event_for_outbox`, `read_event_for_replay`
and the event read of `read_reply_context`. -/
def readOwnedEvent (codec : EventCodec) (eventId : String) (owner : ReadOwner)
    (now : Datetime) : StoreTx AuthorizedEventRead := do
  Tx.require (eventId ≠ "" && owner ≠ .outbox "") (.valueError owner.missingIdentity)
  let observed ← Tx.lift (utc now)
  observeMandatoryExpiry eventId observed
  Tx.onlyIf (owner = .reply) (observeOptionalExpiry eventId observed)
  let db ← Tx.query id
  if !db.readOwner eventId owner then pure .denied
  else if db.hasEvent eventId && !db.readAuthority eventId observed owner then pure .denied
  else
    match db.events.rows.find? fun e => e.eventId = eventId with
    | none => pure .denied
    | some e =>
      let quoteGrantOnly := !db.sourceDependencyLive eventId
      Tx.lift (db.assembleEvent codec owner quoteGrantOnly e)

/-! ## The native-start fence -/

/-- `_native_submission_authorized`, inside the caller's transaction. -/
def nativeSubmissionAuthorized (eventId outboxId workerId : String) (attemptNumber : ℤ)
    (observed : String) : StoreTx Bool := do
  observeMandatoryExpiry eventId observed
  let db ← Tx.query id
  let owner := db.outbox.rows.find?
    (OutboxRow.ownsAttempt db.outbox.rows eventId outboxId workerId attemptNumber)
  match owner.bind OutboxRow.leaseUntil with
  | none => pure false
  | some leaseUntil =>
    let lease : Except Err String :=
      match Datetime.fromisoformat leaseUntil with
      | .error e => .error (.pyError e)
      | .ok d => utc d
    match lease with
    | .error e => if e.isValueError then pure false else Tx.raise e
    | .ok lease =>
      if lease ≤ observed then pure false
      else
        let elapsed ← Tx.lift (db.effectiveDeadlineElapsed eventId outboxId observed)
        if elapsed then pure false
        else if !db.hasEvent eventId then pure false
        else pure (db.outboxContentAuthority eventId outboxId observed)

def authorizeNativeSubmission (eventId outboxId workerId : String) (attemptNumber : ℤ)
    (now : Datetime) : StoreTx Bool := do
  Tx.require (eventId ≠ "" && outboxId ≠ "")
    (.valueError "An event and outbox identity are required")
  Tx.require (workerId ≠ "") (.valueError "A concrete outbox worker is required")
  Tx.require (1 ≤ attemptNumber)
    (.valueError "A positive reserved attempt number is required")
  let observed ← Tx.lift (utc now)
  nativeSubmissionAuthorized eventId outboxId workerId attemptNumber observed

end Medre.Storage
