import Medre.Framework.Table
import Medre.Framework.Transaction
import Medre.Framework.Datetime
import Medre.Rendering.RadioProgress

/-! # The SQLite schema of the delivery store

`TEXT` is `String`, a nullable column is an `Option`, JSON columns hold the decoded value, and
rows stand in `rowid` order. Foreign keys are checked where a child row is inserted. -/

namespace Medre.Storage

open Medre.Framework Medre.Rendering

/-! ## Vocabularies -/

/-- `OUTBOX_STATUSES`. -/
inductive OutboxStatus where
  | pending
  | inProgress
  | queued
  | sent
  | retryWait
  | deadLettered
  | cancelled
  | abandoned
deriving DecidableEq, Repr

namespace OutboxStatus

def text : OutboxStatus → String
  | .pending => "pending"
  | .inProgress => "in_progress"
  | .queued => "queued"
  | .sent => "sent"
  | .retryWait => "retry_wait"
  | .deadLettered => "dead_lettered"
  | .cancelled => "cancelled"
  | .abandoned => "abandoned"

/-- `TERMINAL_OUTBOX_STATUSES`. -/
def isTerminal : OutboxStatus → Bool
  | .sent | .deadLettered | .cancelled | .abandoned => true
  | _ => false

/-- `CLAIMABLE_OUTBOX_STATUSES`. -/
def isClaimable : OutboxStatus → Bool
  | .pending | .retryWait => true
  | _ => false

end OutboxStatus

/-- The declared state machine, `OUTBOX_TRANSITIONS`. -/
def outboxTransitions : OutboxStatus → List OutboxStatus
  | .pending => [.inProgress, .cancelled, .abandoned]
  | .retryWait => [.inProgress, .cancelled, .deadLettered, .abandoned]
  | .queued => [.inProgress, .sent, .cancelled, .abandoned]
  | .inProgress =>
    [.pending, .queued, .sent, .retryWait, .deadLettered, .cancelled, .abandoned]
  | _ => []

def validateOutboxTransition (source target : OutboxStatus) : Bool :=
  (outboxTransitions source).contains target

inductive DeliverySource where
  | live
  | replay
  | retry
deriving DecidableEq, Repr

def DeliverySource.text : DeliverySource → String
  | .live => "live"
  | .replay => "replay"
  | .retry => "retry"

inductive ReceiptKind where
  | attempt
  | lifecycle
deriving DecidableEq, Repr

/-- `RECEIPT_STATUSES`. -/
inductive ReceiptStatus where
  | queued
  | sent
  | failed
  | deadLettered
  | cancelled
  | abandoned
  | suppressed
deriving DecidableEq, Repr

def ReceiptStatus.text : ReceiptStatus → String
  | .queued => "queued"
  | .sent => "sent"
  | .failed => "failed"
  | .deadLettered => "dead_lettered"
  | .cancelled => "cancelled"
  | .abandoned => "abandoned"
  | .suppressed => "suppressed"

inductive ConfirmationLevel where
  | unknown
  | localQueue
  | localTransport
  | remoteService
  | endToEnd
deriving DecidableEq, Repr

/-- Owners of a mandatory content dependency. -/
inductive OwnerKind where
  | ingress
  | append
  | outbox
deriving DecidableEq, Repr

/-- `owner_kind IN ('ingress', 'append')`: the admission owners. -/
def OwnerKind.isSource : OwnerKind → Bool
  | .ingress | .append => true
  | .outbox => false

inductive SnapshotKind where
  | staged
  | direct
deriving DecidableEq, Repr

inductive BodyField where
  | body
  | text
deriving DecidableEq, Repr

inductive DiagnosticFamily where
  | receipt
  | observation
  | outbox
  | ingress
deriving DecidableEq, Repr

inductive DiagnosticField where
  | error
  | capabilityReason
  | renderingEvidence
  | failureKindDetail
  | errorSummary
  | lastError
deriving DecidableEq, Repr

inductive IngressStatus where
  | pending
  | processing
  | completed
  | failed
  | suppressedHistory
deriving DecidableEq, Repr

inductive IngressProvenance where
  | live
  | recovered
  | history
deriving DecidableEq, Repr

inductive Direction where
  | inbound
  | outbound
deriving DecidableEq, Repr

inductive DecisionAction where
  | cancelUnstarted
  | resolveUncertain
  | resumeScheduled
deriving DecidableEq, Repr

/-! ## Delivery identity -/

/-- `DeliveryIdentity`: one logical delivery target. The absent and the empty
channel are one identity, so a value never holds the empty one. -/
structure DeliveryIdentity where
  eventId : String
  deliveryPlanId : String
  targetAdapter : String
  targetChannel : Option String
  normalized : targetChannel ≠ some ""
deriving DecidableEq

def DeliveryIdentity.of (eventId deliveryPlanId targetAdapter : String)
    (targetChannel : Option String) : DeliveryIdentity where
  eventId := eventId
  deliveryPlanId := deliveryPlanId
  targetAdapter := targetAdapter
  targetChannel := orNone targetChannel
  normalized := orNone_ne_empty targetChannel

def DeliveryIdentity.complete (d : DeliveryIdentity) : Bool :=
  d.eventId ≠ "" && d.deliveryPlanId ≠ "" && d.targetAdapter ≠ ""

/-! ## Rows -/

/-- `delivery_outbox`. -/
structure OutboxRow where
  outboxId : String
  eventId : String
  routeId : String := ""
  deliveryPlanId : String
  targetAdapter : String
  targetChannel : Option String := none
  targetAddress : Option String := none
  attemptNumber : ℤ := 1
  activeAttempt : Option ℤ := none
  status : OutboxStatus := .pending
  failureKind : Option String := none
  failureKindDetail : Option String := none
  nextAttemptAt : Option String := none
  createdAt : String
  updatedAt : String
  lastAttemptAt : Option String := none
  lockedAt : Option String := none
  leaseUntil : Option String := none
  workerId : Option String := none
  payloadHash : Option String := none
  receiptId : Option String := none
  parentReceiptId : Option String := none
  errorSummary : Option String := none
  dispatchSource : DeliverySource := .live
  replayRunId : Option String := none
  metadata : Json := .obj []
deriving Repr

namespace OutboxRow

/-- `COALESCE(active_attempt, attempt_number)`. -/
def generation (r : OutboxRow) : ℤ := r.activeAttempt.getD r.attemptNumber

def identity (r : OutboxRow) : DeliveryIdentity :=
  .of r.eventId r.deliveryPlanId r.targetAdapter r.targetChannel

/-- The identity columns of two rows agree, `NULL` and empty channels alike. -/
def sameDelivery (r s : OutboxRow) : Bool :=
  r.eventId = s.eventId && r.deliveryPlanId = s.deliveryPlanId &&
    r.targetAdapter = s.targetAdapter &&
    r.targetChannel.getD "" = s.targetChannel.getD ""

theorem sameDelivery_iff (r s : OutboxRow) : r.sameDelivery s = true ↔ r.identity = s.identity := by
  simp only [sameDelivery, identity, DeliveryIdentity.of, DeliveryIdentity.mk.injEq,
    orNone_eq_iff, Bool.and_eq_true, decide_eq_true_eq]
  tauto

/-- `NOT EXISTS (sibling ... generation >= g)`, the fence every dispatching
statement carries. -/
def noSiblingFrom (rows : List OutboxRow) (r : OutboxRow) (g : ℤ) : Bool :=
  rows.all fun s => !(s.outboxId ≠ r.outboxId && s.sameDelivery r && g ≤ s.generation)

theorem noSiblingFrom_iff (rows : List OutboxRow) (r : OutboxRow) (g : ℤ) :
    noSiblingFrom rows r g = true ↔
      ∀ s ∈ rows, s.outboxId ≠ r.outboxId → s.identity = r.identity →
        s.generation < g := by
  simp only [noSiblingFrom, List.all_eq_true, Bool.not_eq_true', Bool.and_eq_false_iff,
    decide_eq_false_iff_not, not_not, not_le, ← sameDelivery_iff]
  constructor
  · intro h s hs hne hsame
    rcases h s hs with (h | h) | h
    · exact absurd h hne
    · rw [hsame] at h
      cases h
    · exact h
  · intro h s hs
    by_cases hne : s.outboxId = r.outboxId
    · exact .inl (.inl hne)
    · cases hsame : s.sameDelivery r with
      | false => exact .inl (.inr rfl)
      | true => exact .inr (h s hs hne hsame)

end OutboxRow

/-- `canonical_events`. -/
structure EventRow where
  eventId : String
  eventKind : String
  schemaVersion : ℤ
  timestamp : String
  sourceAdapter : String
  sourceTransportId : String
  sourceChannelId : Option String := none
  parentEventId : Option String := none
  lineage : List String := []
  payload : Json := .obj []
  metadata : Json := .obj []
  depth : ℤ := 0
  traceId : Option String := none
  rootEventId : Option String := none
  conversationId : Option String := none
  sourceNativeAdapter : Option String := none
  sourceNativeChannelId : Option String := none
  sourceNativeMessageId : Option String := none
  sourceNativeThreadId : Option String := none
  createdAt : String
deriving Repr

/-- `event_routing_facts`. -/
structure RoutingFacts where
  eventId : String
  matchedRoutes : List String
  fanoutGroup : Option String
  routeTrace : List Json
  recordedAt : String
deriving Repr

/-- `event_body_identity`. -/
structure BodyIdentity where
  eventId : String
  presentAtAdmission : Bool
  recordedAt : String
deriving DecidableEq, Repr

/-- `event_body_content`. -/
structure BodyContent where
  eventId : String
  field : BodyField
  body : String
  createdAt : String
deriving DecidableEq, Repr

/-- `event_content_dependencies`. -/
structure Dependency where
  eventId : String
  ownerKind : OwnerKind
  ownerId : String
  acquiredAt : String
  deadline : Option String := none
  releasedAt : Option String := none
deriving DecidableEq, Repr

/-- `event_content_access_policies`. -/
structure AccessPolicy where
  eventId : String
  hardCeiling : String
  allowedConsumers : List String
  maxOptionalHoldMicroseconds : ℤ
  createdAt : String
deriving DecidableEq, Repr

/-- `event_content_access_grants`; the only scope is `'body'`. -/
structure AccessGrant where
  eventId : String
  consumer : String
  issuedAt : String
  expiresAt : String
  revokedAt : Option String := none
  expiredAt : Option String := none
deriving DecidableEq, Repr

/-- `event_relations` with the excerpt of `event_relation_excerpts`. -/
structure RelationRow where
  id : ℕ
  eventId : String
  relationType : String
  targetEventId : Option String := none
  targetNativeAdapter : Option String := none
  targetNativeChannelId : Option String := none
  targetNativeMessageId : Option String := none
  targetNativeThreadId : Option String := none
  key : Option String := none
  metadata : Json := .obj []
  createdAt : String
  excerpt : Option String := none
deriving Repr

/-- `native_message_refs`. -/
structure NativeRefRow where
  id : String
  eventId : String
  adapter : String
  nativeChannelId : Option String := none
  nativeMessageId : String
  nativeThreadId : Option String := none
  nativeRelationId : Option String := none
  direction : Direction
  metadata : Json := .obj []
  createdAt : String
deriving Repr

/-- `delivery_receipts`, the columns delivery authority and collection read. -/
structure ReceiptRow where
  sequence : ℤ
  receiptId : String
  eventId : String
  deliveryPlanId : String
  targetAdapter : String
  targetChannel : Option String := none
  status : ReceiptStatus
  receiptKind : ReceiptKind
  error : Option String := none
  failureKind : Option String := none
  capabilityReason : Option String := none
  adapterMessageId : Option String := none
  attemptNumber : ℤ := 1
  parentReceiptId : Option String := none
  source : DeliverySource := .live
  replayRunId : Option String := none
  renderingEvidence : Option String := none
  outboxId : Option String := none
  confirmationLevel : ConfirmationLevel := .unknown
  createdAt : String
deriving DecidableEq, Repr

def ReceiptRow.identity (r : ReceiptRow) : DeliveryIdentity :=
  .of r.eventId r.deliveryPlanId r.targetAdapter r.targetChannel

/-- `delivery_evidence_diagnostics`. -/
structure Diagnostic where
  family : DiagnosticFamily
  rowId : String
  attempt : ℤ
  field : DiagnosticField
  diagnostic : String
  createdAt : String
deriving DecidableEq, Repr

/-- `delivery_outbox_snapshots`. -/
structure Snapshot where
  outboxId : String
  attemptNumber : ℤ
  snapshotVersion : ℤ
  snapshotKind : SnapshotKind
  context : Json
  createdAt : String
deriving Repr

/-- `durable_ingress_work`. -/
structure IngressWork where
  eventId : String
  provenance : IngressProvenance
  status : IngressStatus
  attempts : ℤ := 0
  lastError : Option String := none
  createdAt : String
  updatedAt : String
  lockedAt : Option String := none
  leaseUntil : Option String := none
  workerId : Option String := none
deriving DecidableEq, Repr

/-- `operator_delivery_decisions`. -/
structure DecisionRow where
  decisionId : String
  actorId : String
  eventId : String
  deliveryPlanId : String
  targetAdapter : String
  targetChannel : Option String
  outboxId : String
  observedGeneration : ℤ
  observedUpdatedAt : String
  observedStatus : OutboxStatus
  action : DecisionAction
  recordedAt : String
deriving DecidableEq, Repr

/-- `DeliveryAttemptProvenance`: the identity and dispatch mechanism of one
attempt, normalized and checked on construction. -/
structure DeliveryAttemptProvenance where
  eventId : String
  deliveryPlanId : String
  targetAdapter : String
  targetChannel : Option String
  outboxId : String
  attemptNumber : ℤ
  source : DeliverySource
  replayRunId : Option String
  named : pyStrip eventId ≠ "" ∧ pyStrip deliveryPlanId ≠ "" ∧
    pyStrip targetAdapter ≠ "" ∧ pyStrip outboxId ≠ ""
  positive : 1 ≤ attemptNumber
  liveUnnamed : source = .live → replayRunId = none
  channelNormalized : targetChannel ≠ some ""
deriving DecidableEq

def DeliveryAttemptProvenance.identity (p : DeliveryAttemptProvenance) : DeliveryIdentity :=
  .of p.eventId p.deliveryPlanId p.targetAdapter p.targetChannel

/-- `radio_attempt_progress`. -/
structure RadioRow where
  outboxId : String
  attemptNumber : ℤ
  planFingerprint : String
  plan : RadioProgressData
  provenance : DeliveryAttemptProvenance
  parts : List RadioPartProgress
  revision : ℤ
  createdAt : String
  updatedAt : String
deriving DecidableEq

/-! ## Constraints -/

def distinctOn {ρ κ : Type} [DecidableEq κ] (key : ρ → κ) : Constraint ρ where
  check _ := true
  clash r s := key r = key s

/-- A primary key and a check on rows. -/
def keyed {ρ κ : Type} [DecidableEq κ] (key : ρ → κ) (check : ρ → Bool) :
    Constraint ρ where
  check := check
  clash r s := key r = key s

theorem eq_of_key {ρ κ : Type} [DecidableEq κ] {key : ρ → κ} {check : ρ → Bool}
    (t : Table (keyed key check)) {r s : ρ} (hr : r ∈ t.rows) (hs : s ∈ t.rows)
    (h : key r = key s) : r = s := by
  refine t.eq_of_clash ?_ hr hs (decide_eq_true h)
  intro a b
  simp [keyed, eq_comm]

/-- The `CHECK` on `replay_run_id`. -/
def replayRunIdOk (x : Option String) : Bool := x.all fun s => s ≠ "" && s = sqlTrim s

namespace OutboxRow

/-- The `CHECK` constraints of `delivery_outbox`. -/
def check (r : OutboxRow) : Bool :=
  0 ≤ r.attemptNumber &&
    r.activeAttempt.all (fun a => a = r.attemptNumber + 1) &&
    (r.activeAttempt.isNone || r.status = .inProgress) &&
    (r.dispatchSource ≠ .live || r.replayRunId.isNone) &&
    replayRunIdOk r.replayRunId

/-- `UNIQUE(event, plan, adapter, channel, attempt)` together with the partial
index on `NULL` channels. -/
def sameAttempt (r s : OutboxRow) : Bool :=
  r.eventId = s.eventId && r.deliveryPlanId = s.deliveryPlanId &&
    r.targetAdapter = s.targetAdapter && r.targetChannel = s.targetChannel &&
    r.attemptNumber = s.attemptNumber

/-- `idx_outbox_replay_run_identity_unique`. -/
def sameReplayRun (r s : OutboxRow) : Bool :=
  r.sameDelivery s && r.replayRunId.any (· ≠ "") && r.replayRunId = s.replayRunId

def clash (r s : OutboxRow) : Bool :=
  r.outboxId = s.outboxId || r.sameAttempt s || r.sameReplayRun s

end OutboxRow

def outboxConstraint : Constraint OutboxRow := ⟨OutboxRow.check, OutboxRow.clash⟩

def dependencyConstraint : Constraint Dependency :=
  keyed (fun d => (d.eventId, d.ownerKind, d.ownerId)) fun d =>
    d.ownerId ≠ "" && d.deadline.all fun t => d.acquiredAt < t

def policyConstraint : Constraint AccessPolicy :=
  keyed AccessPolicy.eventId fun p => 0 < p.maxOptionalHoldMicroseconds

def grantConstraint : Constraint AccessGrant :=
  keyed (fun g => (g.eventId, g.consumer)) fun g =>
    1 ≤ g.consumer.length && g.consumer.length ≤ 128 && g.issuedAt < g.expiresAt

def snapshotConstraint : Constraint Snapshot :=
  keyed Snapshot.outboxId fun s => 0 ≤ s.attemptNumber && s.snapshotVersion = 1

/-- `receipt_id` is unique; `sequence` is the primary key. -/
def receiptConstraint : Constraint ReceiptRow where
  check r :=
    1 ≤ r.attemptNumber &&
      (match r.receiptKind with
        | .attempt => [ReceiptStatus.queued, .sent, .failed].contains r.status
        | .lifecycle =>
          [ReceiptStatus.deadLettered, .cancelled, .abandoned, .suppressed].contains
            r.status) &&
      (r.source ≠ .live || r.replayRunId.isNone) && replayRunIdOk r.replayRunId
  clash r s := r.receiptId = s.receiptId || r.sequence = s.sequence

/-- SQL uniqueness: a `NULL` channel clashes with nothing. -/
def nativeRefConstraint : Constraint NativeRefRow where
  check _ := true
  clash r s :=
    r.id = s.id ||
      (r.adapter = s.adapter && r.nativeChannelId.isSome &&
        r.nativeChannelId = s.nativeChannelId && r.nativeMessageId = s.nativeMessageId)

def diagnosticConstraint : Constraint Diagnostic where
  check d := d.rowId ≠ "" && 0 ≤ d.attempt
  clash _ _ := false

def radioConstraint : Constraint RadioRow :=
  keyed (fun r => (r.outboxId, r.attemptNumber)) fun r =>
    1 ≤ r.attemptNumber && r.planFingerprint.length = 64 && 0 ≤ r.revision

def decisionConstraint : Constraint DecisionRow :=
  keyed DecisionRow.decisionId fun d =>
    (d.observedStatus = .pending || d.observedStatus = .retryWait) &&
      0 ≤ d.observedGeneration

/-! ## The database -/

/-- The tables the modelled transactions read or write. `sweepCursor` is the
deadline cleanup key of `_medre_schema_meta`. -/
structure Db where
  events : Table (distinctOn EventRow.eventId)
  routingFacts : Table (distinctOn RoutingFacts.eventId)
  bodyIdentity : Table (distinctOn BodyIdentity.eventId)
  bodyContent : Table (distinctOn fun b : BodyContent => (b.eventId, b.field))
  relations : Table (distinctOn RelationRow.id)
  ingressWork : Table (distinctOn IngressWork.eventId)
  nativeRefs : Table nativeRefConstraint
  dependencies : Table dependencyConstraint
  policies : Table policyConstraint
  grants : Table grantConstraint
  outbox : Table outboxConstraint
  snapshots : Table snapshotConstraint
  receipts : Table receiptConstraint
  diagnostics : Table diagnosticConstraint
  decisions : Table decisionConstraint
  radio : Table radioConstraint
  sweepCursor : Option (String × String)

def Db.empty : Db where
  events := .empty
  routingFacts := .empty
  bodyIdentity := .empty
  bodyContent := .empty
  relations := .empty
  ingressWork := .empty
  nativeRefs := .empty
  dependencies := .empty
  policies := .empty
  grants := .empty
  outbox := .empty
  snapshots := .empty
  receipts := .empty
  diagnostics := .empty
  decisions := .empty
  radio := .empty
  sweepCursor := none

/-- What a storage call raises. Texts are the source's. -/
inductive Err where
  | valueError (text : String)
  | storageError (text : String)
  | integrityError (text : String)
  | decisionRefused (text : String)
  | contentCollectionEpochChanged (text : String)
  | contentCollectionTransientError (text : String)
  | runtimeError (text : String)
  | pyError (e : PyError)
deriving DecidableEq, Repr

abbrev StoreTx := Tx Db Err

namespace OutboxRow

theorem clash_comm (r s : OutboxRow) : r.clash s = s.clash r := by
  have hsame : ∀ r s : OutboxRow, r.clash s = true → s.clash r = true := by
    intro r s h
    simp only [clash, sameAttempt, sameReplayRun, sameDelivery, Bool.or_eq_true,
      Bool.and_eq_true, decide_eq_true_eq] at h ⊢
    rcases h with (h | ⟨⟨⟨⟨h1, h2⟩, h3⟩, h4⟩, h5⟩) |
      ⟨⟨⟨⟨⟨h1, h2⟩, h3⟩, h4⟩, h5⟩, h6⟩
    · exact .inl (.inl h.symm)
    · exact .inl (.inr ⟨⟨⟨⟨h1.symm, h2.symm⟩, h3.symm⟩, h4.symm⟩, h5.symm⟩)
    · exact .inr ⟨⟨⟨⟨⟨h1.symm, h2.symm⟩, h3.symm⟩, h4.symm⟩, h6 ▸ h5⟩, h6.symm⟩
  exact Bool.eq_iff_iff.mpr ⟨hsame r s, hsame s r⟩

end OutboxRow

theorem outbox_eq_of_id (t : Table outboxConstraint) {r s : OutboxRow} (hr : r ∈ t.rows)
    (hs : s ∈ t.rows) (h : r.outboxId = s.outboxId) : r = s := by
  refine t.eq_of_clash OutboxRow.clash_comm hr hs ?_
  show r.clash s = true
  simp [OutboxRow.clash, h]

theorem outbox_nodup (t : Table outboxConstraint) : t.rows.Nodup := by
  refine t.apart.imp ?_
  rintro r s hclash rfl
  simp [outboxConstraint, OutboxRow.clash] at hclash

theorem outbox_generation_le (t : Table outboxConstraint) {r : OutboxRow} (hr : r ∈ t.rows) :
    r.generation = r.attemptNumber ∨
      (r.activeAttempt = some (r.attemptNumber + 1) ∧
        r.generation = r.attemptNumber + 1) := by
  have hc : r.check = true := t.checked r hr
  simp only [OutboxRow.check, Bool.and_eq_true] at hc
  cases ha : r.activeAttempt with
  | none =>
    left
    simp [OutboxRow.generation, ha]
  | some a =>
    right
    have : a = r.attemptNumber + 1 := by
      simpa [ha] using hc.1.1.1.2
    subst this
    simp [OutboxRow.generation, ha]

theorem outbox_generation_nonneg (t : Table outboxConstraint) {r : OutboxRow}
    (hr : r ∈ t.rows) : 0 ≤ r.generation := by
  have hc : r.check = true := t.checked r hr
  simp only [OutboxRow.check, Bool.and_eq_true, decide_eq_true_eq] at hc
  rcases outbox_generation_le t hr with h | ⟨-, h⟩ <;> omega

end Medre.Storage
