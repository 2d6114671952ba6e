import Mathlib.Data.List.Sort
import Medre.Storage.Finalize

/-! # Admission and the durable ingress queue (`_event.py`, `_ingress.py`)

The envelope, the body rows, the routing facts, the relations and the source dependency of an
event commit together. A call reads the clock once here. -/

namespace Medre.Storage

open Medre.Framework

/-! ## Events -/

structure RoutingMetadata where
  matchedRoutes : List String := []
  fanoutGroup : Option String := none
  routeTrace : List Json := []

/-- `EventMetadata`: the namespaces that are present, and the routing namespace;
or an untyped mapping that is stored verbatim. -/
inductive EventMetadata where
  | typed (namespaces : List (String × Json)) (routing : Option RoutingMetadata)
  | untyped (value : Json)

structure EventRelation where
  relationType : String
  targetEventId : Option String := none
  targetNativeAdapter : Option String := none
  targetNativeChannelId : Option String := none
  targetNativeMessageId : Option String := none
  targetNativeThreadId : Option String := none
  key : Option String := none
  fallbackText : Option String := none
  metadata : List (String × Json) := []

structure CanonicalEvent where
  eventId : String
  eventKind : String
  schemaVersion : ℤ := 1
  timestamp : Datetime
  sourceAdapter : String
  sourceTransportId : String
  sourceChannelId : Option String := none
  parentEventId : Option String := none
  lineage : List String := []
  relations : List EventRelation := []
  payload : List (String × Json) := []
  metadata : EventMetadata := .typed [] none
  depth : ℤ := 0
  traceId : Option String := none
  rootEventId : Option String := none
  conversationId : Option String := none
  sourceNativeAdapter : Option String := none
  sourceNativeChannelId : Option String := none
  sourceNativeMessageId : Option String := none
  sourceNativeThreadId : Option String := none

def BodyField.key : BodyField → String
  | .body => "body"
  | .text => "text"

/-- The string value a payload holds under `body` or `text`. -/
def payloadText (payload : List (String × Json)) (field : BodyField) : Option String :=
  (Json.fieldOf payload field.key).bind Json.str?

/-- `isinstance(payload.get("body"), str) or ("body" not in payload and
isinstance(payload.get("text"), str))`. -/
def bodyPresent (payload : List (String × Json)) : Bool :=
  (payloadText payload .body).isSome ||
    ((Json.fieldOf payload "body").isNone && (payloadText payload .text).isSome)

/-- `envelope_payload`: the payload without its separated texts. -/
def envelopePayload (payload : List (String × Json)) : List (String × Json) :=
  payload.filter fun f =>
    !((f.1 = "body" && (payloadText payload .body).isSome) ||
      (f.1 = "text" && (payloadText payload .text).isSome))

def serializeMetadata : EventMetadata → Json
  | .typed namespaces _ => .obj namespaces
  | .untyped value => value

/-- `_INSERT_EVENT` parameters. -/
def CanonicalEvent.row (e : CanonicalEvent) (now : String) : EventRow where
  eventId := e.eventId
  eventKind := e.eventKind
  schemaVersion := e.schemaVersion
  timestamp := e.timestamp.isoformat
  sourceAdapter := e.sourceAdapter
  sourceTransportId := e.sourceTransportId
  sourceChannelId := e.sourceChannelId
  parentEventId := e.parentEventId
  lineage := e.lineage
  payload := .obj (envelopePayload e.payload)
  metadata := serializeMetadata e.metadata
  depth := e.depth
  traceId := e.traceId
  rootEventId := e.rootEventId
  conversationId := e.conversationId
  sourceNativeAdapter := e.sourceNativeAdapter
  sourceNativeChannelId := e.sourceNativeChannelId
  sourceNativeMessageId := e.sourceNativeMessageId
  sourceNativeThreadId := e.sourceNativeThreadId
  createdAt := now

def insertEvent : EventRow → StoreTx Unit :=
  insertInto Db.events (fun db t => { db with events := t }) "canonical_events"

/-- `body_admission_op`. -/
def insertBodyIdentity : BodyIdentity → StoreTx Unit :=
  insertInto Db.bodyIdentity (fun db t => { db with bodyIdentity := t })
    "event_body_identity"

def insertBodyContent : BodyContent → StoreTx Unit :=
  insertInto Db.bodyContent (fun db t => { db with bodyContent := t })
    "event_body_content"

def insertRoutingFacts : RoutingFacts → StoreTx Unit :=
  insertInto Db.routingFacts (fun db t => { db with routingFacts := t })
    "event_routing_facts"

def insertRelationRow : RelationRow → StoreTx Unit :=
  insertInto Db.relations (fun db t => { db with relations := t }) "event_relations"

/-- One op of `body_content_ops`. -/
def bodyContentOp (e : CanonicalEvent) (now : String) (field : BodyField) : StoreTx Unit :=
  match payloadText e.payload field with
  | none => pure ()
  | some body => insertBodyContent { eventId := e.eventId, field, body, createdAt := now }

/-- `routing_facts_op`; the table bounds the trace at 16 entries. -/
def routingFactsOp (e : CanonicalEvent) (now : String) : StoreTx Unit :=
  match e.metadata with
  | .typed _ (some routing) => do
    Tx.require (routing.routeTrace.length ≤ 16)
      (.integrityError "constraint failed: event_routing_facts")
    insertRoutingFacts
      { eventId := e.eventId, matchedRoutes := routing.matchedRoutes
        fanoutGroup := routing.fanoutGroup, routeTrace := routing.routeTrace
        recordedAt := now }
  | _ => pure ()

/-- `_relation_op` and `_relation_excerpt_op`. -/
def insertRelation (eventId now : String) (r : EventRelation) : StoreTx Unit := do
  let next ← Tx.query fun db =>
    (db.relations.rows.map RelationRow.id).foldr max 0 + 1
  insertRelationRow
    { id := next
      eventId
      relationType := r.relationType
      targetEventId := r.targetEventId
      targetNativeAdapter := r.targetNativeAdapter
      targetNativeChannelId := r.targetNativeChannelId
      targetNativeMessageId := r.targetNativeMessageId
      targetNativeThreadId := r.targetNativeThreadId
      key := r.key
      metadata := .obj r.metadata
      createdAt := now
      excerpt := r.fallbackText }

def insertRelations (eventId now : String) : List EventRelation → StoreTx Unit
  | [] => pure ()
  | r :: rs => do
    insertRelation eventId now r
    insertRelations eventId now rs

/-- The ops of one event up to its source dependency. -/
def eventOps (e : CanonicalEvent) (now : String) : StoreTx Unit := do
  insertEvent (e.row now)
  insertBodyIdentity
    { eventId := e.eventId, presentAtAdmission := bodyPresent e.payload, recordedAt := now }
  bodyContentOp e now .body
  bodyContentOp e now .text
  routingFactsOp e now
  insertRelations e.eventId now e.relations

def append (e : CanonicalEvent) (now : Datetime) : StoreTx Unit := do
  eventOps e (nowIso now)
  insertDependency
    { eventId := e.eventId, ownerKind := .append, ownerId := e.eventId
      acquiredAt := nowIso now }

/-! ## Durable ingress -/

structure AdmissionResult where
  eventId : String
  created : Bool
  provenance : IngressProvenance
  workStatus : IngressStatus
deriving DecidableEq, Repr

def insertIngressWork (w : IngressWork) : StoreTx Unit := do
  insertInto Db.ingressWork (fun db t => { db with ingressWork := t })
    "durable_ingress_work" w
  requireEvent w.eventId

/-- The admitted deadline and the ceiling that rides the same transaction. -/
def contentLimit (contentDeadline : Option Datetime) (now : Datetime) :
    Except Err (Option (String × ℤ)) :=
  match contentDeadline with
  | none => .ok none
  | some deadline =>
    match deadline.utcoffset with
    | none => .error (.valueError "Content deadline must be timezone-aware")
    | some _ =>
      match deadline.astimezoneUtc with
      | .error e => .error (.pyError e)
      | .ok normalized =>
        if normalized.instant ≤ now.instant then
          .error (.valueError "Content deadline must be after admission time")
        else
          .ok (some (normalized.isoformatMicroseconds,
            normalized.instant - now.instant))

/-- The ceiling of an admitted deadline, unless one is installed. -/
def installCeiling (eventId : String) (limit : Option (String × ℤ))
    (installed : Option AccessPolicy) (now : String) : StoreTx Unit :=
  match limit, installed with
  | some (ceiling, hold), none =>
    insertPolicy
      { eventId, hardCeiling := ceiling, allowedConsumers := []
        maxOptionalHoldMicroseconds := hold, createdAt := now }
  | _, _ => pure ()

def insertInboundRef : Option NativeMessageRef → StoreTx Unit
  | some r => insertNativeRef r.row
  | none => pure ()

/-- `sync_admit_ingress` for an event that is not stored yet. -/
def admitNew (e : CanonicalEvent) (inboundRef : Option NativeMessageRef)
    (limit : Option (String × ℤ)) (work : IngressWork) (now : Datetime) : StoreTx Unit := do
  let installed ← Tx.query fun db => db.policies.rows.find? fun p => p.eventId = e.eventId
  Tx.require
    (limit.all fun l => installed.all fun p => p.hardCeiling = l.1)
    (.storageError "Admission refused: the installed content ceiling does not match")
  eventOps e (nowIso now)
  insertDependency
    { eventId := e.eventId, ownerKind := .ingress, ownerId := e.eventId
      acquiredAt := now.isoformatMicroseconds, deadline := limit.map Prod.fst }
  installCeiling e.eventId limit installed now.isoformatMicroseconds
  insertInboundRef inboundRef
  insertIngressWork work

/-- The work row of an admission. -/
def ingressWorkOf (provenance : IngressProvenance) (suppressRouting : Bool) (now : Datetime)
    (eventId : String) : IngressWork :=
  { eventId, provenance
    status := if suppressRouting || provenance = .history then .suppressedHistory else .pending
    createdAt := now.isoformatMicroseconds, updatedAt := now.isoformatMicroseconds }

/-- The stored event that an admission finds under its identity. -/
def Db.knownEvent (db : Db) (eventId : String) : Option NativeMessageRef → Option String
  | some r => db.resolveNativeRef r.adapter r.nativeChannelId r.nativeMessageId
  | none => if db.hasEvent eventId then some eventId else none

/-- `sync_admit_ingress` for a known event: a missing work row is repaired. -/
def admitKnown (work : IngressWork) : StoreTx AdmissionResult := do
  match ← Tx.query fun db => db.ingressWork.rows.find? fun w => w.eventId = work.eventId with
  | some w =>
    pure { eventId := work.eventId, created := false, provenance := w.provenance
           workStatus := w.status }
  | none =>
    insertIngressWork work
    pure { eventId := work.eventId, created := false, provenance := work.provenance
           workStatus := work.status }

/-- `admit_ingress` without attachment bytes. -/
def admitIngress (e : CanonicalEvent) (inboundRef : Option NativeMessageRef)
    (provenance : IngressProvenance) (suppressRouting : Bool)
    (contentDeadline : Option Datetime) (now : Datetime) : StoreTx AdmissionResult := do
  Tx.require (inboundRef.all fun r => r.eventId = e.eventId)
    (.valueError "inbound_ref.event_id must match event.event_id")
  let limit ← Tx.lift (contentLimit contentDeadline now)
  let work := ingressWorkOf provenance suppressRouting now
  match ← Tx.query fun db => db.knownEvent e.eventId inboundRef with
  | none =>
    admitNew e inboundRef limit (work e.eventId) now
    pure { eventId := e.eventId, created := true, provenance
           workStatus := (work e.eventId).status }
  | some known => admitKnown (work known)

/-- The rows `CLAIM_INGRESS_SELECT` may return. -/
def IngressWork.claimable (now : String) (w : IngressWork) : Bool :=
  w.status = .pending || (w.status = .processing && w.leaseUntil.any (· ≤ now))

def IngressWork.claim (now leaseUntil workerId : String) (w : IngressWork) : IngressWork :=
  { w with
    status := .processing
    attempts := w.attempts + 1
    lockedAt := some now
    leaseUntil := some leaseUntil
    workerId := some workerId
    updatedAt := now }

/-- `claim_ingress_work`: the oldest claimable rows. -/
def claimIngressWork (workerId : String) (limit : ℕ) (leaseSeconds : Rat) (now : Datetime) :
    StoreTx (List String) := do
  let lease ← Tx.lift (liftPy (now.addTimedelta leaseSeconds))
  let rows ← Tx.query fun db =>
    ((db.ingressWork.rows.filter (IngressWork.claimable (nowIso now))).insertionSort
      fun v w => v.createdAt < w.createdAt ∨
        (v.createdAt = w.createdAt ∧ v.eventId ≤ w.eventId)).take limit
  let ids := rows.map IngressWork.eventId
  let _ ← updateIngressWork (fun w => ids.contains w.eventId)
    (IngressWork.claim (nowIso now) lease.isoformat workerId)
  pure ids

def IngressWork.ownedBy (eventId workerId : String) (w : IngressWork) : Bool :=
  w.eventId = eventId && w.status = .processing && w.workerId = some workerId

/-- `complete_ingress_work`: the guarded completion releases the source owner. -/
def completeIngressWork (eventId workerId : String) (now : Datetime) : StoreTx Bool := do
  let count ← updateIngressWork (IngressWork.ownedBy eventId workerId) fun w =>
    { w with
      status := .completed
      updatedAt := nowIso now
      lockedAt := none
      leaseUntil := none
      workerId := none
      lastError := none }
  if count ≠ 1 then pure false
  else
    let _ ← updateDependencies
      (fun d => d.eventId = eventId && d.ownerKind = .ingress && d.ownerId = eventId &&
        d.releasedAt.isNone) (release (nowIso now))
    pure true

/-- How an owned ingress claim ends without completing. -/
inductive IngressReturn where
  | release
  | defer
  | fail
deriving DecidableEq, Repr

/-- The error text of a returned claim, keyed by the row's attempts. -/
def ingressDiagnosticOp (work : Option IngressWork) (error now : String) : StoreTx Unit :=
  match work with
  | some w =>
    insertDiagnostic
      { family := .ingress, rowId := w.eventId, attempt := w.attempts
        field := .lastError, diagnostic := String.ofList (error.toList.take 1000)
        createdAt := now }
  | none => pure ()

/-- `release_ingress_work`, `defer_ingress_work` and `fail_ingress_work`: one
guarded statement each, with the error text in the side table. -/
def returnIngressWork (how : IngressReturn) (eventId workerId error : String)
    (now : Datetime) : StoreTx Bool := do
  let count ← updateIngressWork (IngressWork.ownedBy eventId workerId) fun w =>
    { w with
      status := if how = .fail then .failed else .pending
      attempts := if how = .defer then max 0 (w.attempts - 1) else w.attempts
      updatedAt := nowIso now
      lockedAt := none
      leaseUntil := none
      workerId := none }
  if count = 0 then pure false
  else
    let work ← Tx.query fun db => db.ingressWork.rows.find? fun w => w.eventId = eventId
    ingressDiagnosticOp work error (nowIso now)
    pure (count = 1)

def renewIngressWorkLease (eventId workerId : String) (leaseSeconds : Rat) (now : Datetime) :
    StoreTx Bool := do
  Tx.require (0 < leaseSeconds) (.valueError "lease_seconds must be positive")
  let lease ← Tx.lift (liftPy (now.addTimedelta leaseSeconds))
  let count ← updateIngressWork (IngressWork.ownedBy eventId workerId) fun w =>
    { w with leaseUntil := some lease.isoformat, updatedAt := nowIso now }
  pure (count = 1)

/-- `INSERT OR IGNORE INTO native_message_refs`. -/
def insertOrIgnoreNativeRef (r : NativeRefRow) : StoreTx Unit := do
  let t ← Tx.query Db.nativeRefs
  match t.insert r with
  | none => pure ()
  | some t' =>
    Tx.modify fun db => { db with nativeRefs := t' }
    requireEvent r.eventId

/-- `store_native_ref`: resolve before insert. -/
def storeNativeRef (r : NativeMessageRef) : StoreTx Unit := do
  let known ← Tx.query fun db =>
    db.resolveNativeRef r.adapter r.nativeChannelId r.nativeMessageId
  Tx.onlyIf known.isNone (insertOrIgnoreNativeRef r.row)

end Medre.Storage
