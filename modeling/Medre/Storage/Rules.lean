import Medre.Storage.System

/-! # What a call is made of

`StatementRules` lists the kinds of statement; `exec_follows` shows that a relation that all of
them respect is respected by every call. -/

namespace Medre.Storage

open List Medre.Framework

variable {item : DeliveryOutboxItem} {allocate : Bool} {now : Datetime}
  {snapshot : Option OutboxDispatchSnapshotWrite} {field : DiagnosticField}
  {consumer createdAt observed : String} {planDeadline workerId : Option String}
  {r : Option NativeMessageRef} {e : CanonicalEvent} {limit : ℕ} {s : Sweep}
  {policy : AvailabilityPolicy} {claim provenance : DeliveryAttemptProvenance}

variable {d d' : Dependency} {g g' : AccessGrant} {eventId outboxId : String}

/-! ## Tables -/

/-- The components of the database. -/
inductive TableName where
  | events
  | routingFacts
  | bodyIdentity
  | bodyContent
  | relations
  | ingressWork
  | nativeRefs
  | dependencies
  | policies
  | grants
  | outbox
  | snapshots
  | receipts
  | diagnostics
  | decisions
  | radio
  | sweepCursor
deriving DecidableEq, Repr

def TableName.Content : TableName → Type
  | .events => Table (distinctOn EventRow.eventId)
  | .routingFacts => Table (distinctOn RoutingFacts.eventId)
  | .bodyIdentity => Table (distinctOn BodyIdentity.eventId)
  | .bodyContent => Table (distinctOn fun b : BodyContent => (b.eventId, b.field))
  | .relations => Table (distinctOn RelationRow.id)
  | .ingressWork => Table (distinctOn IngressWork.eventId)
  | .nativeRefs => Table nativeRefConstraint
  | .dependencies => Table dependencyConstraint
  | .policies => Table policyConstraint
  | .grants => Table grantConstraint
  | .outbox => Table outboxConstraint
  | .snapshots => Table snapshotConstraint
  | .receipts => Table receiptConstraint
  | .diagnostics => Table diagnosticConstraint
  | .decisions => Table decisionConstraint
  | .radio => Table radioConstraint
  | .sweepCursor => Option (String × String)

def Db.table (db : Db) : (t : TableName) → t.Content
  | .events => db.events
  | .routingFacts => db.routingFacts
  | .bodyIdentity => db.bodyIdentity
  | .bodyContent => db.bodyContent
  | .relations => db.relations
  | .ingressWork => db.ingressWork
  | .nativeRefs => db.nativeRefs
  | .dependencies => db.dependencies
  | .policies => db.policies
  | .grants => db.grants
  | .outbox => db.outbox
  | .snapshots => db.snapshots
  | .receipts => db.receipts
  | .diagnostics => db.diagnostics
  | .decisions => db.decisions
  | .radio => db.radio
  | .sweepCursor => db.sweepCursor

/-! ## What may become of a row -/

namespace Dependency

/-- The primary key. -/
def key (d : Dependency) : String × OwnerKind × String := (d.eventId, d.ownerKind, d.ownerId)

theorem key_eq {e o : String} {k : OwnerKind} :
    key d = (e, k, o) ↔ d.eventId = e ∧ d.ownerKind = k ∧ d.ownerId = o := by
  simp [key]

theorem key_inj : key d = key d' ↔
    d.eventId = d'.eventId ∧ d.ownerKind = d'.ownerKind ∧ d.ownerId = d'.ownerId := key_eq

/-- `d'` is what `d` has become: itself, or its release. -/
def Stems (d d' : Dependency) : Prop :=
  d' = d ∨ (d.releasedAt = none ∧ ∃ at', d' = release at' d)

theorem Stems.refl (d : Dependency) : d.Stems d := .inl rfl

theorem Stems.trans {d'' : Dependency} (h : d.Stems d') (h' : d'.Stems d'') : d.Stems d'' := by
  rcases h with rfl | ⟨hnone, at', rfl⟩
  · exact h'
  · rcases h' with rfl | ⟨hreleased, -⟩
    · exact .inr ⟨hnone, at', rfl⟩
    · cases hreleased

theorem Stems.key_eq (h : d.Stems d') : d'.key = d.key := by
  rcases h with rfl | ⟨-, at', rfl⟩ <;> rfl

theorem Stems.deadline_eq (h : d.Stems d') : d'.deadline = d.deadline := by
  rcases h with rfl | ⟨-, at', rfl⟩ <;> rfl

theorem Stems.eq_of_released (h : d.Stems d') (hr : d.releasedAt.isSome = true) : d' = d := by
  rcases h with rfl | ⟨hnone, -⟩
  · rfl
  · rw [hnone] at hr
    cases hr

end Dependency

namespace AccessGrant

/-- The primary key. -/
def key (g : AccessGrant) : String × String := (g.eventId, g.consumer)

/-- Observed expired, or revoked. -/
def closed (g : AccessGrant) : Bool := g.expiredAt.isSome || g.revokedAt.isSome

/-- `g'` is what `g` has become: itself, or `g` with one tombstone. -/
def Stems (g g' : AccessGrant) : Prop :=
  g' = g ∨ (g.closed = false ∧ g'.key = g.key ∧ g'.closed = true)

theorem Stems.trans {g'' : AccessGrant} (h : g.Stems g') (h' : g'.Stems g'') : g.Stems g'' := by
  rcases h with rfl | ⟨hopen, hkey, hclosed⟩
  · exact h'
  · rcases h' with rfl | ⟨hopen', -, -⟩
    · exact .inr ⟨hopen, hkey, hclosed⟩
    · rw [hclosed] at hopen'
      cases hopen'

theorem Stems.key_eq (h : g.Stems g') : g'.key = g.key := by
  rcases h with rfl | ⟨-, hkey, -⟩
  · rfl
  · exact hkey

theorem Stems.eq_of_closed (h : g.Stems g') (hc : g.closed = true) : g' = g := by
  rcases h with rfl | ⟨hopen, -, -⟩
  · rfl
  · rw [hc] at hopen
    cases hopen

end AccessGrant

theorem AccessGrant.stems_expire (h : g.closed = false) (observed : String) :
    g.Stems { g with expiredAt := some observed } :=
  .inr ⟨h, rfl, rfl⟩

theorem AccessGrant.stems_revoke (h : g.closed = false) (observed : String) :
    g.Stems { g with revokedAt := some observed } :=
  .inr ⟨h, rfl, by simp [AccessGrant.closed]⟩

/-! ## Footprints of calls -/

/-- The tables of an admitted envelope. -/
def eventTables : List TableName :=
  [.events, .bodyIdentity, .bodyContent, .routingFacts, .relations]

/-- The tables a call may write. -/
def Op.writes : Op → List TableName
  | .append .. => [.dependencies] ++ eventTables
  | .admitIngress .. => [.policies, .nativeRefs, .ingressWork, .dependencies] ++ eventTables
  | .claimIngressWork .. | .renewIngressWorkLease .. => [.ingressWork]
  | .completeIngressWork .. => [.ingressWork, .dependencies]
  | .returnIngressWork .. => [.ingressWork, .diagnostics]
  | .storeNativeRef .. => [.nativeRefs]
  | .appendReceipt .. => [.receipts, .diagnostics]
  | .createOutboxItem .. => [.outbox, .dependencies, .diagnostics, .snapshots]
  | .claimDueOutboxItems .. | .reserveOutboxAttempt .. | .renewOutboxLease ..
  | .releaseOutboxClaim .. => [.outbox]
  | .markOutbox .. => [.outbox, .dependencies, .diagnostics, .snapshots]
  | .finalizeDeferredHandoff .. =>
    [.outbox, .nativeRefs, .receipts, .diagnostics, .dependencies, .snapshots]
  | .finalizeOutboxTerminal .. =>
    [.outbox, .receipts, .diagnostics, .dependencies, .snapshots]
  | .retireExpiredUnstartedOutbox .. =>
    [.sweepCursor, .outbox, .dependencies, .snapshots, .diagnostics]
  | .cancelUnstartedDelivery .. => [.outbox, .dependencies, .snapshots, .decisions]
  | .recordExactTargetDecision .. => [.decisions]
  | .issueBodyHold .. => [.dependencies, .grants, .policies]
  | .revokeBodyHold .. => [.grants]
  | .readAuthorizedBody .. | .readOwnedEvent .. => [.dependencies, .grants]
  | .readOutboxBody .. | .authorizeNativeSubmission .. => [.dependencies]
  | .bindRadioAttempt .. | .observeRadioPart .. | .recoverRadioAttempt .. => [.radio]
  | .beginRadioPart .. => [.dependencies, .radio]

/-- The keys under which a call may add a dependency: an admission its source,
and a creation that is not a replay the row it inserts. -/
def Op.mayOwn : Op → String × OwnerKind × String → Prop
  | .append e _, k => k = (e.eventId, .append, e.eventId)
  | .admitIngress e .., k => k = (e.eventId, .ingress, e.eventId)
  | .createOutboxItem item allocate _ _, k =>
    k = (item.eventId, .outbox, item.outboxId) ∧ item.storedSource allocate ≠ .replay
  | _, _ => False

/-! ## Statements -/

/-- `E` is respected by every statement a call may issue: tables in `S` are written, a dependency
is added under a key in `own` and changed by its release, a grant by a tombstone. -/
structure StatementRules (E : Evolution Db) (S : List TableName)
    (own : String × OwnerKind × String → Prop) : Prop where
  event : .events ∈ S → ∀ r, Tx.Follows E (insertEvent r)
  bodyIdentity : .bodyIdentity ∈ S → ∀ r, Tx.Follows E (insertBodyIdentity r)
  bodyContent : .bodyContent ∈ S → ∀ r, Tx.Follows E (insertBodyContent r)
  routingFacts : .routingFacts ∈ S → ∀ r, Tx.Follows E (insertRoutingFacts r)
  relation : .relations ∈ S → ∀ r, Tx.Follows E (insertRelationRow r)
  ingressInsert : .ingressWork ∈ S → ∀ r, Tx.Follows E (insertIngressWork r)
  ingressUpdate : .ingressWork ∈ S → ∀ p f, Tx.Follows E (updateIngressWork p f)
  nativeRef : .nativeRefs ∈ S → ∀ r, Tx.Follows E (insertNativeRef r)
  nativeRefOrIgnore : .nativeRefs ∈ S → ∀ r, Tx.Follows E (insertOrIgnoreNativeRef r)
  dependency : .dependencies ∈ S → ∀ d, own d.key → Tx.Follows E (insertDependency d)
  releases : .dependencies ∈ S → ∀ p at',
    (∀ d : Dependency, p d = true → d.releasedAt = none) →
      Tx.Follows E (updateDependencies p (release at'))
  policy : .policies ∈ S → ∀ p, Tx.Follows E (insertPolicy p)
  grant : .grants ∈ S → ∀ g, Tx.Follows E (insertGrant g)
  tombstones : .grants ∈ S → ∀ p f, (∀ g : AccessGrant, p g = true → g.Stems (f g)) →
    Tx.Follows E (updateGrants p f)
  outboxInsert : .outbox ∈ S → ∀ r, Tx.Follows E (insertOutbox r)
  outboxUpdate : .outbox ∈ S → ∀ p f, Tx.Follows E (updateOutbox p f)
  snapshotInsert : .snapshots ∈ S → ∀ s, Tx.Follows E (insertSnapshot s)
  snapshotRetire : .snapshots ∈ S → ∀ o, Tx.Follows E (retireOutboxSnapshot o)
  receipt : .receipts ∈ S → ∀ r, Tx.Follows E (insertReceipt r)
  diagnostic : .diagnostics ∈ S → ∀ d, Tx.Follows E (insertDiagnostic d)
  decision : .decisions ∈ S → ∀ d, Tx.Follows E (insertDecision d)
  radioInsert : .radio ∈ S → ∀ r, Tx.Follows E (insertRadio r)
  radioUpdate : .radio ∈ S → ∀ p f, Tx.Follows E (updateRadio p f)
  cursor : .sweepCursor ∈ S → ∀ c, Tx.Follows E (saveCursor c)

variable {E : Evolution Db} {S : List TableName} {own : String × OwnerKind × String → Prop}

theorem follows_answering {α : Type} {tag : α → Answer} {x : StoreTx α} (h : Tx.Follows E x) :
    Tx.Follows E (answering tag x) := .bind h fun _ => .pure _

theorem follows_createRace {e : Err} : Tx.Follows E (createRace item allocate e) := by
  refine .ite (.raise _) ?_
  split
  · refine .ite (.raise _) (.bind (.query _) fun found => ?_)
    cases found with
    | none => exact .raise _
    | some row => exact .pure _
  · exact .raise _

theorem follows_radioTransaction {α : Type} {x : StoreTx α} (h : Tx.Follows E x) :
    Tx.Follows E (radioTransaction x) := by
  refine .bind (.attempt h) fun r => ?_
  split
  · exact .pure _
  · exact .raise _
  · exact .raise _

theorem adoptedDependency_key {db : Db} {now : String} {frozenPlan : Option String}
    (h : db.adoptedDependency outboxId eventId now frozenPlan = some d) :
    d.key = (eventId, .outbox, outboxId) := by
  unfold Db.adoptedDependency at h
  split at h
  · cases h
  · dsimp only at h
    split at h
    · cases h
    · split at h
      · cases h
      · cases h
        rfl

theorem createChecks_source {source : DeliverySource}
    (h : createChecks item allocate snapshot = .ok source) :
    source = item.storedSource allocate ∧ (source = .replay → allocate = true) := by
  unfold createChecks at h
  dsimp only at h
  repeat' (split at h; · cases h)
  rename_i hreplay _ _
  cases h
  refine ⟨rfl, fun hs => ?_⟩
  simpa [hs] using hreplay

variable (R : StatementRules E S own)

include R

/-! ## Functions -/

theorem follows_insertOutboxDiagnostic (h : .diagnostics ∈ S) {value : String} :
    Tx.Follows E (insertOutboxDiagnostic field value createdAt outboxId) := by
  refine .bind (.query _) fun db => ?_
  cases db.outboxRow? outboxId with
  | none => exact .pure _
  | some r => exact .ite (R.diagnostic h _) (.pure _)

theorem follows_outboxDiagnosticOp (h : .diagnostics ∈ S) {value : Option String} :
    Tx.Follows E (outboxDiagnosticOp field value createdAt outboxId) := by
  cases value with
  | none => exact .pure _
  | some text => exact follows_insertOutboxDiagnostic R h

theorem follows_outboxDiagnosticOps (h : .diagnostics ∈ S) {detail summary : Option String} :
    Tx.Follows E (outboxDiagnosticOps detail summary createdAt outboxId) :=
  .bind (follows_outboxDiagnosticOp R h) fun _ =>
    follows_outboxDiagnosticOp R h

theorem follows_settle (h : .dependencies ∈ S) {at' : String} :
    Tx.Follows E (settleOutboxContentDependency outboxId eventId at') := by
  refine .bind (R.releases h _ _ ?_) fun _ => .pure _
  intro d hd
  simp only [Bool.and_eq_true] at hd
  exact Option.isNone_iff_eq_none.mp hd.2

theorem follows_observeMandatoryExpiry (h : .dependencies ∈ S) :
    Tx.Follows E (observeMandatoryExpiry eventId observed) := by
  refine .bind (R.releases h _ _ ?_) fun _ => .pure _
  intro d hd
  simp only [Dependency.lapsedAt, Bool.and_eq_true] at hd
  exact Option.isNone_iff_eq_none.mp hd.2.1

theorem follows_observeOptionalExpiry (h : .grants ∈ S) :
    Tx.Follows E (observeOptionalExpiry eventId observed) := by
  refine .bind (R.tombstones h _ _ ?_) fun _ => .pure _
  intro g hg
  simp only [Bool.and_eq_true, Option.isNone_iff_eq_none] at hg
  exact AccessGrant.stems_expire (by simp [AccessGrant.closed, hg.1.2, hg.1.1.2]) observed

theorem follows_insertOutboxDependency (h : .dependencies ∈ S)
    (hown : own (eventId, .outbox, outboxId)) {now : String} :
    Tx.Follows E (insertOutboxDependency outboxId eventId now planDeadline) := by
  refine .bind (.lift _) fun _ => .bind (.lift _) fun observed => .bind (.lift _) fun plan =>
    .bind (R.releases h _ _ ?_) fun _ => .bind_query fun db => ?_
  · intro d hd
    simp only [Dependency.lapsedAt, Bool.and_eq_true] at hd
    exact Option.isNone_iff_eq_none.mp hd.2.1
  · cases hd : db.adoptedDependency outboxId eventId observed.isoformatMicroseconds plan with
    | none => exact .pure _
    | some d => exact R.dependency h d (adoptedDependency_key hd ▸ hown)

theorem follows_postInsertOps (hd : .diagnostics ∈ S) (hs : .snapshots ∈ S) {n : ℤ} {now : String} :
    Tx.Follows E (postInsertOps item n now snapshot) := by
  refine .bind (follows_outboxDiagnosticOps R hd) fun _ => ?_
  cases snapshot with
  | none => exact .pure _
  | some s => exact R.snapshotInsert hs _

theorem follows_receiptDiagnostic (h : .diagnostics ∈ S) {r : DeliveryReceipt}
    {text : Option String} :
    Tx.Follows E (receiptDiagnostic r field text) := by
  cases text with
  | none => exact .pure _
  | some text => exact .ite (.pure _) (R.diagnostic h _)

theorem follows_writeReceipt (hr : .receipts ∈ S) (hd : .diagnostics ∈ S)
    {r : DeliveryReceipt} : Tx.Follows E (writeReceipt r) :=
  .bind (.query _) fun _ => .bind (.lift _) fun _ => .bind (R.receipt hr _) fun _ =>
    .bind (follows_receiptDiagnostic R hd) fun _ =>
      .bind (follows_receiptDiagnostic R hd) fun _ => follows_receiptDiagnostic R hd

theorem follows_nativeSubmissionAuthorized (h : .dependencies ∈ S) {workerId : String}
    {attemptNumber : ℤ} :
    Tx.Follows E (nativeSubmissionAuthorized eventId outboxId workerId attemptNumber
      observed) := by
  refine .bind (follows_observeMandatoryExpiry R h) fun _ => .bind (.query _) fun db => ?_
  dsimp only
  split
  · exact .pure _
  · split
    · exact .ite (.pure _) (.raise _)
    · exact .ite (.pure _) (.bind (.lift _) fun _ => .ite (.pure _) (.ite (.pure _) (.pure _)))

/-! ## Admission and ingress -/

theorem follows_bodyContentOp (h : .bodyContent ∈ S) {now : String} {field : BodyField} :
    Tx.Follows E (bodyContentOp e now field) := by
  unfold bodyContentOp
  split
  · exact .pure _
  · exact R.bodyContent h _

theorem follows_routingFactsOp (h : .routingFacts ∈ S) {now : String} :
    Tx.Follows E (routingFactsOp e now) := by
  unfold routingFactsOp
  split
  · exact .bind (.require _ _) fun _ => R.routingFacts h _
  · exact .pure _

theorem follows_insertRelations (h : .relations ∈ S) {now : String}
    {relations : List EventRelation} :
    Tx.Follows E (insertRelations eventId now relations) := by
  induction relations with
  | nil => exact .pure _
  | cons r rs ih => exact .bind (.bind (.query _) fun _ => R.relation h _) fun _ => ih

theorem follows_eventOps (hS : eventTables ⊆ S) {now : String} : Tx.Follows E (eventOps e now) :=
  .bind (R.event (hS (by decide)) _) fun _ =>
    .bind (R.bodyIdentity (hS (by decide)) _) fun _ =>
    .bind (follows_bodyContentOp R (hS (by decide))) fun _ =>
    .bind (follows_bodyContentOp R (hS (by decide))) fun _ =>
    .bind (follows_routingFactsOp R (hS (by decide))) fun _ =>
    follows_insertRelations R (hS (by decide))

theorem follows_installCeiling (h : .policies ∈ S)
    {limit : Option (String × ℤ)} {installed : Option AccessPolicy} {now : String} :
    Tx.Follows E (installCeiling eventId limit installed now) := by
  unfold installCeiling
  split
  · exact R.policy h _
  · exact .pure _

theorem follows_insertInboundRef (h : .nativeRefs ∈ S) : Tx.Follows E (insertInboundRef r) := by
  cases r with
  | none => exact .pure _
  | some r => exact R.nativeRef h _

theorem follows_admitIngress
    (hS : [.policies, .nativeRefs, .ingressWork, .dependencies] ++ eventTables ⊆ S)
    (hown : own (e.eventId, .ingress, e.eventId)) {inboundRef : Option NativeMessageRef}
    {provenance : IngressProvenance} {suppressRouting : Bool} {contentDeadline : Option Datetime} :
    Tx.Follows E
      (admitIngress e inboundRef provenance suppressRouting contentDeadline now) := by
  refine .bind (.require _ _) fun _ => .bind (.lift _) fun limit =>
    .bind (.query _) fun existing => ?_
  cases existing with
  | none =>
    refine .bind ?_ fun _ => .pure _
    exact .bind (.query _) fun _ => .bind (.require _ _) fun _ =>
      .bind (follows_eventOps R (fun _ h => hS (mem_append_right _ h))) fun _ =>
      .bind (R.dependency (hS (by decide)) _ hown) fun _ =>
      .bind (follows_installCeiling R (hS (by decide))) fun _ =>
      .bind (follows_insertInboundRef R (hS (by decide))) fun _ =>
      R.ingressInsert (hS (by decide)) _
  | some known =>
    refine .bind (.query _) fun work => ?_
    cases work with
    | none => exact .bind (R.ingressInsert (hS (by decide)) _) fun _ => .pure _
    | some w => exact .pure _

theorem follows_completeIngressWork (hS : [.ingressWork, .dependencies] ⊆ S) {workerId : String} :
    Tx.Follows E (completeIngressWork eventId workerId now) := by
  refine .bind (R.ingressUpdate (hS (by decide)) _ _) fun _ =>
    .ite (.pure _) (.bind (R.releases (hS (by decide)) _ _ ?_) fun _ => .pure _)
  intro d hd
  simp only [Bool.and_eq_true] at hd
  exact Option.isNone_iff_eq_none.mp hd.2

theorem follows_returnIngressWork (hS : [.ingressWork, .diagnostics] ⊆ S) (how : IngressReturn)
    {workerId error : String} :
    Tx.Follows E (returnIngressWork how eventId workerId error now) := by
  refine .bind (R.ingressUpdate (hS (by decide)) _ _) fun _ =>
    .ite (.pure _) (.bind (.query _) fun work => .bind ?_ fun _ => .pure _)
  cases work with
  | none => exact .pure _
  | some w => exact R.diagnostic (hS (by decide)) _

/-! ## The outbox -/

theorem follows_insertGeneration (hS : [.outbox, .dependencies, .diagnostics, .snapshots] ⊆ S)
    {row : OutboxRow} {adopts : Bool} {now : String}
    (hown : adopts = true → own (row.eventId, .outbox, row.outboxId)) :
    Tx.Follows E (insertGeneration item row adopts planDeadline now snapshot) := by
  refine .bind (R.outboxInsert (hS (by decide)) _) fun _ => .bind ?_ fun _ =>
    .bind (follows_postInsertOps R (hS (by decide)) (hS (by decide))) fun _ => .pure _
  cases adopts with
  | false => exact .pure _
  | true => exact follows_insertOutboxDependency R (hS (by decide)) (hown rfl)

theorem follows_createOutboxItem (hS : [.outbox, .dependencies, .diagnostics, .snapshots] ⊆ S)
    (hown : item.storedSource allocate ≠ .replay →
      own (item.eventId, .outbox, item.outboxId)) :
    Tx.Follows E (createOutboxItem item allocate snapshot now) := by
  refine .bind_lift fun source hchecks => .bind (.lift _) fun planDeadline =>
    .bind (.require _ _) fun _ =>
    .bind (.attempt (.branch (fun _ => ?_) fun hplain => ?_)) fun created => ?_
  · obtain ⟨rfl, -⟩ := createChecks_source hchecks
    refine .bind (.query _) fun existing => ?_
    cases existing with
    | none =>
      refine .bind (.query _) fun _ => follows_insertGeneration R hS ?_
      exact fun hadopts => hown (of_decide_eq_true hadopts)
    | some row => exact .pure _
  · obtain ⟨rfl, hreplay⟩ := createChecks_source hchecks
    refine .bind (.query _) fun found => ?_
    cases found with
    | none =>
      refine follows_insertGeneration R hS ?_
      exact fun _ => hown fun hs => hplain (hreplay hs)
    | some row => exact .pure _
  · cases created with
    | ok c => exact .pure _
    | error e => exact follows_createRace

theorem follows_settleTransition (hs : .snapshots ∈ S) (hd : .dependencies ∈ S) {now : String} :
    Tx.Follows E (settleTransition outboxId now) := by
  refine .bind (R.snapshotRetire hs _) fun _ => .bind (.query _) fun found => ?_
  cases found with
  | none => exact .raise _
  | some r => exact follows_settle R hd

theorem follows_updateOutboxStatus (hS : [.outbox, .dependencies, .diagnostics, .snapshots] ⊆ S)
    {u : StatusUpdate} : Tx.Follows E (updateOutboxStatus u now) :=
  .bind (.require _ _) fun _ => .bind (R.outboxUpdate (hS (by decide)) _ _) fun _ =>
    .ite (.pure _)
      (.bind (follows_outboxDiagnosticOps R (hS (by decide))) fun _ =>
        .bind (.onlyIf _ (follows_settleTransition R (hS (by decide)) (hS (by decide))))
          fun _ => .pure _)

theorem follows_markOutbox (hS : [.outbox, .dependencies, .diagnostics, .snapshots] ⊆ S)
    {m : MarkCall} : Tx.Follows E (markOutbox m now) := by
  cases m <;> exact follows_updateOutboxStatus R hS

theorem follows_insertHandoffRef (h : .nativeRefs ∈ S) {resolved : Bool} :
    Tx.Follows E (insertHandoffRef r resolved) := by
  cases r with
  | none => exact .pure _
  | some n => exact .ite (.pure _) (R.nativeRef h _)

theorem follows_finalizeDeferredHandoff
    (hS : [.outbox, .nativeRefs, .receipts, .diagnostics, .dependencies, .snapshots] ⊆ S)
    {c : DeferredHandoffFinalization} : Tx.Follows E (finalizeDeferredHandoff c) :=
  .bind (.lift _) fun _ => .bind (.query _) fun existing => .bind (.require _ _) fun _ =>
    .bind (R.outboxUpdate (hS (by decide)) _ _) fun _ => .ite (.pure _)
      (.bind (follows_insertHandoffRef R (hS (by decide))) fun _ =>
        .bind (follows_writeReceipt R (hS (by decide)) (hS (by decide))) fun _ =>
        .bind (follows_settle R (hS (by decide))) fun _ =>
        .bind (R.snapshotRetire (hS (by decide)) _) fun _ => .pure _)

theorem follows_writeAttemptReceipt (hr : .receipts ∈ S) (hd : .diagnostics ∈ S)
    {r : Option DeliveryReceipt} : Tx.Follows E (writeAttemptReceipt r) := by
  cases r with
  | none => exact .pure _
  | some a => exact follows_writeReceipt R hr hd

theorem follows_finalizeOutboxTerminal
    (hS : [.outbox, .receipts, .diagnostics, .dependencies, .snapshots] ⊆ S)
    {c : TerminalOutboxFinalization} : Tx.Follows E (finalizeOutboxTerminal c) :=
  .bind (.lift _) fun _ => .bind (.lift _) fun _ =>
    .bind (R.outboxUpdate (hS (by decide)) _ _) fun _ => .ite (.pure _)
      (.bind (follows_outboxDiagnosticOps R (hS (by decide))) fun _ =>
        .bind (follows_writeAttemptReceipt R (hS (by decide)) (hS (by decide))) fun _ =>
        .bind (follows_writeReceipt R (hS (by decide)) (hS (by decide))) fun _ =>
        .bind (follows_settle R (hS (by decide))) fun _ =>
        .bind (R.snapshotRetire (hS (by decide)) _) fun _ => .pure _)

/-! ## Cleanup and decisions -/

theorem follows_sweepRow (hS : [.outbox, .dependencies, .snapshots, .diagnostics] ⊆ S)
    {seen : OutboxRow} : Tx.Follows E (sweepRow observed seen) := by
  refine .bind (.query _) fun _ => .bind (.lift _) fun bounds => ?_
  split
  · exact .pure _
  · exact .ite (.pure _) (.bind (.query _) fun _ =>
      .bind (R.outboxUpdate (hS (by decide)) _ _) fun _ => .ite (.pure _)
        (.bind (follows_settle R (hS (by decide))) fun _ =>
          .bind (R.snapshotRetire (hS (by decide)) _) fun _ =>
          .bind (follows_outboxDiagnosticOps R (hS (by decide))) fun _ => .pure _))

theorem follows_sweepPage (hS : [.outbox, .dependencies, .snapshots, .diagnostics] ⊆ S)
    {page : List OutboxRow} :
    Tx.Follows E (sweepPage observed limit page s) := by
  induction page generalizing s with
  | nil => exact .pure _
  | cons seen page ih =>
    exact .bind (follows_sweepRow R hS) fun _ => .ite (.pure _) ih

theorem follows_sweepLoop (hS : [.outbox, .dependencies, .snapshots, .diagnostics] ⊆ S)
    {budget fuel : ℕ} :
    Tx.Follows E (sweepLoop observed limit budget fuel s) := by
  induction fuel generalizing s with
  | zero => exact .pure _
  | succ fuel ih =>
    refine .ite (.pure _) (.bind (.query _) fun page => ?_)
    split
    · exact .pure _
    · exact .bind (follows_sweepPage R hS) fun _ => .ite (.pure _) ih

theorem follows_retireExpired
    (hS : [.sweepCursor, .outbox, .dependencies, .snapshots, .diagnostics] ⊆ S) {limit : ℤ} :
    Tx.Follows E (retireExpiredUnstartedOutbox now limit) :=
  .bind (.lift _) fun _ => .bind (.require _ _) fun _ => .bind (.query _) fun _ =>
    .bind (follows_sweepLoop R (fun _ h => hS (mem_cons_of_mem _ h))) fun _ =>
    .bind (R.cursor (hS (by decide)) _) fun _ => .pure _

theorem follows_decideOnce (h : .decisions ∈ S) {request : DecisionRequest} {audit : DecisionRow}
    {decided : OutboxRow → StoreTx Unit} (hd : ∀ r, Tx.Follows E (decided r)) :
    Tx.Follows E (decideOnce request audit decided) := by
  refine .bind (.query _) fun old => ?_
  cases old with
  | some old => exact .bind (.require _ _) fun _ => .pure _
  | none =>
    refine .bind (.query _) fun found => ?_
    cases found with
    | none => exact .raise _
    | some r =>
      exact .bind (.require _ _) fun _ => .bind (hd r) fun _ => .bind (R.decision h _) fun _ =>
        .pure _

theorem follows_cancelUnstartedDelivery (hS : [.outbox, .dependencies, .snapshots, .decisions] ⊆ S)
    {d : CancelUnstartedDecision} : Tx.Follows E (cancelUnstartedDelivery d now) :=
  follows_decideOnce R (hS (by decide)) fun _ =>
    .bind (.require _ _) fun _ => .bind (.query _) fun _ => .bind (.require _ _) fun _ =>
    .bind (R.outboxUpdate (hS (by decide)) _ _) fun _ => .bind (.require _ _) fun _ =>
    .bind (follows_settle R (hS (by decide))) fun _ => R.snapshotRetire (hS (by decide)) _

theorem follows_recordExactTargetDecision (h : .decisions ∈ S) {d : ExactTargetDecision} :
    Tx.Follows E (recordExactTargetDecision d now) :=
  follows_decideOnce R h fun _ =>
    .bind (.require _ _) fun _ => .bind (.require _ _) fun _ => .bind (.require _ _) fun _ =>
    .bind (.require _ _) fun _ => .bind (.query _) fun _ => .require _ _

/-! ## Content grants and reads -/

theorem follows_holdMutation (hp : .policies ∈ S) (hg : .grants ∈ S) {t : HoldTexts} :
    Tx.Follows E (holdMutation eventId consumer policy t) := by
  refine .bind (.query _) fun db => .bind (.require _ _) fun _ => .bind ?_ fun _ =>
    .bind (.query _) fun old => ?_
  · cases db.policies.rows.find? fun p => p.eventId = eventId with
    | none => exact R.policy hp _
    | some p => exact .require _ _
  · cases old with
    | none => exact R.grant hg _
    | some g => exact .require _ _

theorem follows_issueBodyHold (hS : [.dependencies, .grants, .policies] ⊆ S) (hold : ContentHold) :
    Tx.Follows E (issueBodyHold eventId hold policy now) := by
  refine .bind (.require _ _) fun _ => .bind (.lift _) fun _ => .bind (.query _) fun _ =>
    .bind (.require _ _) fun _ =>
    .bind (follows_observeMandatoryExpiry R (hS (by decide))) fun _ =>
    .bind (follows_observeOptionalExpiry R (hS (by decide))) fun _ =>
    .bind (.attempt (follows_holdMutation R (hS (by decide)) (hS (by decide)))) fun done => ?_
  cases done with
  | ok u => exact .pure _
  | error e => exact .ite (.pure _) (.raise _)

theorem follows_revokeBodyHold (h : .grants ∈ S) :
    Tx.Follows E (revokeBodyHold eventId consumer now) := by
  refine .bind (.require _ _) fun _ => .bind (.lift _) fun observed =>
    .bind (follows_observeOptionalExpiry R h) fun _ =>
    .bind (R.tombstones h _ _ ?_) fun _ => .pure _
  intro g hg
  simp only [Bool.and_eq_true, Option.isNone_iff_eq_none] at hg
  exact AccessGrant.stems_revoke (by simp [AccessGrant.closed, hg.1.2, hg.2]) observed

theorem follows_readAuthorizedBody (hS : [.dependencies, .grants] ⊆ S) :
    Tx.Follows E (readAuthorizedBody eventId consumer now) := by
  refine .bind (.require _ _) fun _ => .bind (.lift _) fun _ =>
    .bind (follows_observeMandatoryExpiry R (hS (by decide))) fun _ =>
    .bind (follows_observeOptionalExpiry R (hS (by decide))) fun _ =>
    .bind (.query _) fun db => .ite ?_ (.pure _)
  cases db.bodyIdentity? eventId <;> exact .pure _

theorem follows_readOutboxBody (h : .dependencies ∈ S) :
    Tx.Follows E (readOutboxBody eventId outboxId now) := by
  refine .bind (.require _ _) fun _ => .bind (.lift _) fun _ =>
    .bind (follows_observeMandatoryExpiry R h) fun _ =>
    .bind (.query _) fun db => .ite ?_ (.pure _)
  cases db.bodyIdentity? eventId <;> exact .pure _

theorem follows_readOwnedEvent (hS : [.dependencies, .grants] ⊆ S) {codec : EventCodec}
    {owner : ReadOwner} :
    Tx.Follows E (readOwnedEvent codec eventId owner now) := by
  refine .bind (.require _ _) fun _ => .bind (.lift _) fun _ =>
    .bind (follows_observeMandatoryExpiry R (hS (by decide))) fun _ =>
    .bind (.onlyIf _ (follows_observeOptionalExpiry R (hS (by decide)))) fun _ =>
    .bind (.query _) fun db => .ite (.pure _) (.ite (.pure _) ?_)
  split
  · exact .pure _
  · exact .lift _

/-! ## Radio checkpoints -/

theorem follows_bindRadioAttempt (h : .radio ∈ S) {codec : HandoffCodec}
    {plan : Rendering.RadioTextPlan} {predecessor : Option StoredRadioAttempt} :
    Tx.Follows E (bindRadioAttempt codec provenance workerId plan predecessor now) := by
  refine .bind (.lift _) fun _ => follows_radioTransaction (.bind (.query _) fun db =>
    .bind (.lift _) fun _ => .ite (.pure _) (.bind (.lift _) fun _ => .bind (.lift _) fun _ =>
      .ite (.pure _) (.bind (.lift _) fun bound => ?_)))
  cases bound with
  | none => exact .pure _
  | some bound => exact .bind (R.radioInsert h _) fun _ => .bind (.lift _) fun _ => .pure _

theorem follows_writeCheckpoint (h : .radio ∈ S) {revision : ℤ} {result : StoredRadioAttempt}
    {now : String} :
    Tx.Follows E (writeCheckpoint claim revision result now) :=
  .bind (R.radioUpdate h _ _) fun _ => .pure _

theorem follows_checkpointRadioAttempt (h : .radio ∈ S) {expected : StoredRadioAttempt}
    {updated : Rendering.RadioAttemptProgress} :
    Tx.Follows E (checkpointRadioAttempt expected workerId updated now) := by
  refine .bind (.query _) fun db => .bind (.lift _) fun _ => .ite (.pure _) ?_
  split
  · exact .pure _
  · exact .bind (.lift _) fun _ => .ite (.pure _)
      (.bind (.lift _) fun _ => follows_writeCheckpoint R h)

theorem follows_nativeStart (h : .dependencies ∈ S) {deadline : Option Datetime}
    {observed : Datetime} :
    Tx.Follows E (nativeStart claim workerId deadline observed) := by
  refine .ite (.pure _) ?_
  split
  · exact .pure _
  · exact .bind (.lift _) fun _ => follows_nativeSubmissionAuthorized R h

theorem follows_recoverRadioAttempt (h : .radio ∈ S) :
    Tx.Follows E (recoverRadioAttempt provenance workerId now) := by
  refine follows_radioTransaction (.bind (.query _) fun db => .bind (.lift _) fun _ =>
    .ite (.pure _) ?_)
  split
  · exact .pure _
  · exact .bind (.lift _) fun _ => .ite (.pure _) (.bind (.lift _) fun _ => .ite (.pure _)
      (.bind (.lift _) fun _ => follows_writeCheckpoint R h))

omit R

/-! ## Calls -/

/-- A relation that every statement a call may issue respects is respected by
the call. -/
theorem exec_follows (x : Externals) (op : Op) (R : StatementRules E op.writes op.mayOwn) :
    Tx.Follows E (exec x op) := by
  cases op with
  | append e now =>
    exact follows_answering (.bind (follows_eventOps R (subset_append_right _ _))
      fun _ => R.dependency (mem_cons_self ..) _ rfl)
  | admitIngress e r p s d now =>
    exact follows_answering (follows_admitIngress R (List.Subset.refl _) rfl)
  | claimIngressWork w l s now =>
    exact follows_answering (.bind (.lift _) fun _ => .bind (.query _) fun _ =>
      .bind (R.ingressUpdate (mem_cons_self ..) _ _) fun _ => .pure _)
  | completeIngressWork e w now =>
    exact follows_answering (follows_completeIngressWork R (List.Subset.refl _))
  | returnIngressWork h e w t now =>
    exact follows_answering (follows_returnIngressWork R (List.Subset.refl _) h)
  | renewIngressWorkLease e w s now =>
    exact follows_answering (.bind (.require _ _) fun _ => .bind (.lift _) fun _ =>
      .bind (R.ingressUpdate (mem_cons_self ..) _ _) fun _ => .pure _)
  | storeNativeRef r =>
    exact follows_answering (.bind (.query _) fun _ =>
      .onlyIf _ (R.nativeRefOrIgnore (mem_cons_self ..) _))
  | appendReceipt r =>
    exact follows_answering (follows_writeReceipt R (mem_cons_self ..)
      (mem_cons_of_mem _ (mem_cons_self ..)))
  | createOutboxItem i a s now =>
    exact follows_answering (follows_createOutboxItem R (List.Subset.refl _) fun h => ⟨rfl, h⟩)
  | claimDueOutboxItems now w l c f =>
    exact follows_answering (.bind (.lift _) fun _ => .bind (.lift _) fun _ =>
      .bind (.lift _) fun _ => .bind (.query _) fun _ =>
      .bind (R.outboxUpdate (mem_cons_self ..) _ _) fun _ => .query _)
  | reserveOutboxAttempt o w n now =>
    exact follows_answering (.bind (.query _) fun _ =>
      .bind (R.outboxUpdate (mem_cons_self ..) _ _) fun _ => .pure _)
  | renewOutboxLease o w l now =>
    exact follows_answering (.bind (R.outboxUpdate (mem_cons_self ..) _ _) fun _ => .query _)
  | releaseOutboxClaim o w s now =>
    exact follows_answering (.bind (.require _ _) fun _ =>
      .bind (R.outboxUpdate (mem_cons_self ..) _ _) fun _ => .pure _)
  | markOutbox m now =>
    exact follows_answering (follows_markOutbox R (List.Subset.refl _))
  | finalizeDeferredHandoff c =>
    exact follows_answering (follows_finalizeDeferredHandoff R (List.Subset.refl _))
  | finalizeOutboxTerminal c =>
    exact follows_answering (follows_finalizeOutboxTerminal R (List.Subset.refl _))
  | retireExpiredUnstartedOutbox now l =>
    exact follows_answering (follows_retireExpired R (List.Subset.refl _))
  | cancelUnstartedDelivery d now =>
    exact follows_answering (follows_cancelUnstartedDelivery R (List.Subset.refl _))
  | recordExactTargetDecision d now =>
    exact follows_answering (follows_recordExactTargetDecision R (mem_cons_self ..))
  | issueBodyHold e h p now =>
    exact follows_answering (follows_issueBodyHold R (List.Subset.refl _) h)
  | revokeBodyHold e c now =>
    exact follows_answering (follows_revokeBodyHold R (mem_cons_self ..))
  | readAuthorizedBody e c now =>
    exact follows_answering (follows_readAuthorizedBody R (List.Subset.refl _))
  | readOutboxBody e o now =>
    exact follows_answering (follows_readOutboxBody R (mem_cons_self ..))
  | readOwnedEvent e o now =>
    exact follows_answering (follows_readOwnedEvent R (List.Subset.refl _))
  | authorizeNativeSubmission e o w n now =>
    exact follows_answering (.bind (.require _ _) fun _ => .bind (.require _ _) fun _ =>
      .bind (.require _ _) fun _ => .bind (.lift _) fun _ =>
      follows_nativeSubmissionAuthorized R (mem_cons_self ..))
  | bindRadioAttempt p w plan pre now =>
    exact follows_answering (follows_bindRadioAttempt R (mem_cons_self ..))
  | beginRadioPart s w k d o now =>
    exact follows_answering (.bind (.lift _) fun _ => .bind (.lift _) fun _ =>
      follows_radioTransaction (.bind (follows_nativeStart R (mem_cons_self ..))
        fun _ => .ite (.pure _) (follows_checkpointRadioAttempt R
          (mem_cons_of_mem _ (mem_cons_self ..)))))
  | observeRadioPart s w k h now =>
    exact follows_answering (.bind (.lift _) fun _ => follows_radioTransaction
      (follows_checkpointRadioAttempt R (mem_cons_self ..)))
  | recoverRadioAttempt p w now =>
    exact follows_answering (follows_recoverRadioAttempt R (mem_cons_self ..))

theorem step_follows (x : Externals) (db : Db) (op : Op)
    (R : StatementRules E op.writes op.mayOwn) : E.rel db (step x db op).1 := by
  rcases Tx.commit_cases (exec x op) db with ⟨a, db', hrun, hc⟩ | ⟨e, hc⟩
  · rw [step, hc]
    exact exec_follows x op R db a db' hrun
  · rw [step, hc]
    exact E.refl db

end Medre.Storage
