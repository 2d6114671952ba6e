import Medre.Core.Attachments
import Medre.Storage.NativeRefs

/-! # Admission with attachment bytes (`_ingress.py`, `connection.py`)

One transaction also decides on the retention: content that is there already is shared, new
content has to fit the quota, and an event whose bytes are not kept says so. -/

namespace Medre.Storage

open Medre.Framework Medre.Core Tx

/-! ## Tables -/

/-- `attachment_blobs`. -/
structure AttachmentBlob where
  contentRef : String
  sizeBytes : ℕ
  mediaKind : String
  mimeType : Option String
  createdAt : String
  data : List UInt8

/-- `event_attachment_associations`. -/
structure AttachmentAssociation where
  eventId : String
  contentRef : String
  createdAt : String

/-- The database with its attachment tables. -/
structure ContentStore where
  db : Db
  blobs : Table (distinctOn AttachmentBlob.contentRef)
  associations : Table (distinctOn AttachmentAssociation.eventId)

def ContentStore.empty : ContentStore := ⟨Db.empty, .empty, .empty⟩

abbrev ContentTx := Tx ContentStore Err

/-- A statement on the tables without attachments. -/
def onDb {α : Type} (x : StoreTx α) : ContentTx α :=
  Tx.within ContentStore.db (fun s db => { s with db }) x

/-- `INSERT OR IGNORE INTO attachment_blobs`. -/
def insertOrIgnoreBlob (b : AttachmentBlob) : ContentTx Unit :=
  Tx.modify fun s => { s with blobs := (s.blobs.insert b).getD s.blobs }

/-- `INSERT INTO event_attachment_associations`, with its foreign keys. -/
def insertAssociation (a : AttachmentAssociation) : ContentTx Unit := do
  let t ← Tx.query ContentStore.associations
  match t.insert a with
  | none => Tx.raise (.integrityError "constraint failed: event_attachment_associations")
  | some t' =>
    Tx.modify fun s => { s with associations := t' }
    onDb (requireEvent a.eventId)
    let known ← Tx.query fun s => s.blobs.rows.any fun b => b.contentRef = a.contentRef
    Tx.require known (.integrityError "FOREIGN KEY constraint failed")

/-- `SELECT COALESCE(SUM(size_bytes), 0) FROM attachment_blobs`. -/
def ContentStore.retainedBytes (s : ContentStore) : ℕ :=
  (s.blobs.rows.map AttachmentBlob.sizeBytes).sum

/-! ## The plan -/

structure AttachmentLimits where
  maxAttachmentBytes : ℕ := 10485760
  maxRetainedBytes : ℕ := 268435456
  positive : 0 < maxAttachmentBytes ∧ 0 < maxRetainedBytes := by decide

/-- `InboundAttachmentContent`; the declared size is never read. -/
structure InboundAttachmentContent where
  data : List UInt8

structure AttachmentAdmissionFact where
  retained : Bool
  contentRef : Option String
  sizeBytes : ℕ
  reason : Option UnavailableReason
deriving DecidableEq, Repr

/-- `AttachmentAdmissionPlan`: the two forms of the event, of which the transaction
takes one, and the content to retain. -/
structure AttachmentAdmissionPlan where
  contentRef : String
  sizeBytes : ℕ
  maxRetainedBytes : ℕ
  retainedEvent : CanonicalEvent
  unavailableEvent : CanonicalEvent
  blob : Option AttachmentBlob
  forcedUnavailableReason : Option UnavailableReason

/-- `make_fact`; there is a reason exactly when the bytes are not retained. -/
def AttachmentAdmissionPlan.makeFact (p : AttachmentAdmissionPlan)
    (reason : Option UnavailableReason) : AttachmentAdmissionFact where
  retained := reason.isNone
  contentRef := if reason.isNone then some p.contentRef else none
  sizeBytes := p.sizeBytes
  reason := reason

def eventWithAttachmentDescriptor (e : CanonicalEvent) (d : AttachmentDescriptor) :
    Except Err CanonicalEvent :=
  match d.toPayload with
  | .error err => .error err
  | .ok j => .ok { e with payload := Json.putField e.payload attachmentPayloadKey j }

def buildAttachmentPlan (e : CanonicalEvent) (attachment : InboundAttachmentContent)
    (limits : AttachmentLimits) (now : String) : Except Err AttachmentAdmissionPlan :=
  match declaredDescriptorFromEventPayload e.payload with
  | .error err => .error err
  | .ok none =>
    .error (.valueError ("attachment bytes supplied for an event without a declared " ++
      "attachment descriptor: " ++ e.eventId))
  | .ok (some declared) =>
    let measured := attachment.data.length
    let contentRef := contentRefOf attachment.data
    if limits.maxAttachmentBytes < measured then
      match eventWithAttachmentDescriptor e (declared.withUnavailable .oversized) with
      | .error err => .error err
      | .ok unavailable =>
        .ok { contentRef, sizeBytes := measured, maxRetainedBytes := limits.maxRetainedBytes
              retainedEvent := unavailable, unavailableEvent := unavailable, blob := none
              forcedUnavailableReason := some .oversized }
    else
      match eventWithAttachmentDescriptor e
          (declared.withRetainedContent contentRef measured) with
      | .error err => .error err
      | .ok retained =>
        match eventWithAttachmentDescriptor e (declared.withUnavailable .quotaExceeded) with
        | .error err => .error err
        | .ok quota =>
          .ok { contentRef, sizeBytes := measured
                maxRetainedBytes := limits.maxRetainedBytes
                retainedEvent := retained, unavailableEvent := quota
                blob := some
                  { contentRef, sizeBytes := measured, mediaKind := declared.kind
                    mimeType := declared.mimeType, createdAt := now
                    data := attachment.data }
                forcedUnavailableReason := none }

/-! ## The transaction -/

/-- The arguments of one `admit_ingress` call, and its clock. -/
structure AdmitCall where
  event : CanonicalEvent
  inboundRef : Option NativeMessageRef := none
  provenance : IngressProvenance := .live
  suppressRouting : Bool := false
  attachment : Option InboundAttachmentContent := none
  attachmentLimits : Option AttachmentLimits := none
  contentDeadline : Option Datetime := none
  now : Datetime

/-- `AdmissionResult`, with the outcome for the bytes. -/
structure ContentAdmission extends AdmissionResult where
  attachment : Option AttachmentAdmissionFact
deriving DecidableEq, Repr

namespace AdmitCall

variable (c : AdmitCall)

/-- `attachment_limits or AttachmentLimits()`. -/
def limits : AttachmentLimits := c.attachmentLimits.getD {}

def work : String → IngressWork := ingressWorkOf c.provenance c.suppressRouting c.now

def dependency (limit : Option (String × ℤ)) : Dependency :=
  { eventId := c.event.eventId, ownerKind := .ingress, ownerId := c.event.eventId
    acquiredAt := c.now.isoformatMicroseconds, deadline := limit.map Prod.fst }

def knownEvent (db : Db) : Option String := db.knownEvent c.event.eventId c.inboundRef

def plan : Except Err (Option AttachmentAdmissionPlan) :=
  match c.attachment with
  | none => .ok none
  | some a =>
    (buildAttachmentPlan c.event a c.limits c.now.isoformatMicroseconds).map some

end AdmitCall

/-- Why the bytes are not retained: too large, or new and over the quota. -/
def AttachmentAdmissionPlan.unavailable (p : AttachmentAdmissionPlan) (s : ContentStore) :
    Option UnavailableReason :=
  match p.forcedUnavailableReason with
  | some reason => some reason
  | none =>
    if s.blobs.rows.any (fun b => b.contentRef = p.contentRef) then none
    else if p.maxRetainedBytes < s.retainedBytes + p.sizeBytes then some .quotaExceeded
    else none

/-- The decision on the bytes: the plan, and why it is not carried out. -/
def retention (plan : Option AttachmentAdmissionPlan) (s : ContentStore) :
    Option (AttachmentAdmissionPlan × Option UnavailableReason) :=
  plan.map fun p => (p, p.unavailable s)

/-- The form of the event that is stored. -/
def chosenEvent (e : CanonicalEvent) :
    Option (AttachmentAdmissionPlan × Option UnavailableReason) → CanonicalEvent
  | none => e
  | some (p, none) => p.retainedEvent
  | some (p, some _) => p.unavailableEvent

/-- `retain_ops`, for an event whose bytes are retained. -/
def retainContent (eventId now : String) :
    Option (AttachmentAdmissionPlan × Option UnavailableReason) → ContentTx Unit
  | some (p, none) =>
    match p.blob with
    | some b => do
      insertOrIgnoreBlob b
      insertAssociation { eventId, contentRef := p.contentRef, createdAt := now }
    | none => pure ()
  | _ => pure ()

def eventAdmissionOps (c : AdmitCall) (e : CanonicalEvent) (limit : Option (String × ℤ)) :
    StoreTx Unit := do
  eventOps e (nowIso c.now)
  insertDependency (c.dependency limit)

/-- `sync_admit_ingress` for an event that is not stored yet. -/
def admitNewContent (c : AdmitCall) (limit : Option (String × ℤ))
    (plan : Option AttachmentAdmissionPlan) : ContentTx (Option AttachmentAdmissionFact) := do
  let installed ← Tx.query fun s =>
    s.db.policies.rows.find? fun p => p.eventId = c.event.eventId
  Tx.require
    (limit.all fun l => installed.all fun p => p.hardCeiling = l.1)
    (.storageError "Admission refused: the installed content ceiling does not match")
  let decision ← Tx.query (retention plan)
  onDb (eventAdmissionOps c (chosenEvent c.event decision) limit)
  onDb (installCeiling c.event.eventId limit installed c.now.isoformatMicroseconds)
  retainContent c.event.eventId c.now.isoformatMicroseconds decision
  onDb (insertInboundRef c.inboundRef)
  onDb (insertIngressWork (c.work c.event.eventId))
  pure (decision.map fun d => d.1.makeFact d.2)

def ContentStore.existingAttachmentFact (s : ContentStore) (eventId : String) :
    Option AttachmentAdmissionFact := do
  let a ← s.associations.rows.find? fun a => a.eventId = eventId
  let b ← s.blobs.rows.find? fun b => b.contentRef = a.contentRef
  pure { retained := true, contentRef := some a.contentRef, sizeBytes := b.sizeBytes
         reason := none }

/-- `admit_ingress`. -/
def admitIngressContent (c : AdmitCall) : ContentTx ContentAdmission := do
  Tx.require (c.inboundRef.all fun r => r.eventId = c.event.eventId)
    (.valueError "inbound_ref.event_id must match event.event_id")
  let limit ← Tx.lift (contentLimit c.contentDeadline c.now)
  let plan ← Tx.lift c.plan
  match ← Tx.query fun s => c.knownEvent s.db with
  | some known =>
    let result ← onDb (admitKnown (c.work known))
    let fact ← Tx.query fun s => s.existingAttachmentFact known
    pure { result with attachment := fact }
  | none =>
    let fact ← admitNewContent c limit plan
    pure { eventId := c.event.eventId, created := true, provenance := c.provenance
           workStatus := (c.work c.event.eventId).status, attachment := fact }

def admitStep (s : ContentStore) (c : AdmitCall) : ContentStore × Except Err ContentAdmission :=
  (admitIngressContent c).commit s

def contentAfter (calls : List AdmitCall) : ContentStore :=
  run admitStep ContentStore.empty calls

def Db.storedDescriptor (db : Db) (eventId : String) :
    Except Err (Option AttachmentDescriptor) :=
  match db.events.rows.find? fun e => e.eventId = eventId with
  | none => .ok none
  | some row => attachmentDescriptorFromEventPayload ((Json.fields? row.payload).getD [])

/-! ## Calls that find their event -/

section Known

variable {c : AdmitCall} {s s' : ContentStore}

@[simp] theorem run_onDb {α : Type} {x : StoreTx α} {a : α} :
    (onDb x).run s = .ok (a, s') ↔ ∃ db', x.run s.db = .ok (a, db') ∧ s' = { s with db := db' } :=
  run_within

/-- What a call that finds its event does: nothing, unless the work row is missing. -/
theorem run_admitKnown {known : String} {r : AdmissionResult} {db db' : Db}
    (h : (admitKnown (c.work known)).run db = .ok (r, db')) :
    r.eventId = known ∧ r.created = false ∧
      ((∃ w ∈ db.ingressWork.rows, w.eventId = known) → db' = db) := by
  simp only [admitKnown, run_bind, run_query] at h
  obtain ⟨found, _, ⟨hfound, rfl⟩, hrest⟩ := h
  cases found with
  | some w =>
    obtain ⟨rfl, rfl⟩ := run_pure.mp hrest
    exact ⟨rfl, rfl, fun _ => rfl⟩
  | none =>
    obtain ⟨_, db1, hwork, hpure⟩ := run_bind.mp hrest
    obtain ⟨rfl, rfl⟩ := run_pure.mp hpure
    refine ⟨rfl, rfl, ?_⟩
    rintro ⟨w, hw, hid⟩
    exact absurd (decide_eq_true hid) (List.find?_eq_none.mp hfound w hw)

end Known

end Medre.Storage
