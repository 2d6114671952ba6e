import Medre.Storage.Decisions
import Medre.Storage.DeliveryAgreement

/-! # The exact-target preview (`exact_target.py`) and the cancellation it previews

The preview ranks the rows of a delivery in Python, by `generation or 1`, and refuses more
than one live row; the cancellation compares raw generations in SQL. -/

namespace Medre.Observability

open List Medre.Framework Medre.Core Medre.Storage Tx

/-! ## The preview -/

inductive ExactTargetCategory where
  | notFound
  | ambiguous
  | stale
  | pending
  | inProgress
  | awaitingFeedback
  | retryScheduled
  | completed
  | cancelled
  | inspectNative
  | previewReplay
  | needsOperatorAction
  | contentUnavailable
  | routeOrPlanChanged
deriving DecidableEq, Repr

/-- `ExactTargetSelection`. Its construction refuses the empty channel, which a normalized
identity has not. -/
structure ExactTargetSelection where
  identity : DeliveryIdentity
  complete : identity.complete = true

def retryableKinds : List String := ["adapter_transient", "retry_exhausted"]

def classifyOutboxStatus (status : OutboxStatus) (activeAttempt : Option ℤ)
    (failureKind : Option String) : ExactTargetCategory :=
  match status with
  | .sent => .completed
  | .cancelled => .cancelled
  | .abandoned => .inspectNative
  | .deadLettered =>
    if failureKind.any retryableKinds.contains then .previewReplay else .needsOperatorAction
  | .inProgress => .inProgress
  | .pending => if activeAttempt.isSome then .inProgress else .pending
  | .queued => if activeAttempt.isSome then .inProgress else .awaitingFeedback
  | .retryWait => if activeAttempt.isSome then .inProgress else .retryScheduled

structure ObservedStatement where
  identity : DeliveryIdentity
  outboxId : Option String := none
  attemptNumber : Option ℤ := none
  activeAttempt : Option ℤ := none
  status : Option OutboxStatus := none
  updatedAt : Option String := none
  nextAttemptAt : Option String := none
  payloadHash : Option String := none

def observedStatement (identity : DeliveryIdentity) : Option OutboxRow → ObservedStatement
  | none => { identity }
  | some item =>
    { identity, outboxId := some item.outboxId, attemptNumber := some item.attemptNumber
      activeAttempt := item.activeAttempt, status := some item.status
      updatedAt := some item.updatedAt, nextAttemptAt := item.nextAttemptAt
      payloadHash := item.payloadHash }

structure ExactTargetPreview where
  identity : DeliveryIdentity
  category : ExactTargetCategory
  observedFingerprint : String
  outboxId : Option String := none
  attemptNumber : Option ℤ := none
  activeAttempt : Option ℤ := none
  status : Option OutboxStatus := none
  updatedAt : Option String := none
  nextAttemptAt : Option String := none
  payloadHash : Option String := none
  snapshotPresent : Bool := false
  snapshotKind : Option SnapshotKind := none
  excludedSiblingCount : ℕ := 0
  cancelEligible : Bool := false

def cancelEligible (item : OutboxRow) : Bool :=
  (item.status = .pending || item.status = .retryWait) && item.activeAttempt.isNone &&
    item.workerId.isNone && item.lockedAt.isNone && item.leaseUntil.isNone

/-- `bool(value)` of a decoded number. -/
def zeroLiteral (literal : String) : Bool :=
  (literal.toList.takeWhile fun c => c ≠ 'e' && c ≠ 'E').all fun c =>
    c = '0' || c = '.' || c = '-'

/-- `value or None`. -/
def orAbsent : Option Json → Option Json
  | none | some .null | some (.bool false) | some (.str "") | some (.arr []) | some (.obj []) =>
    none
  | some (.number literal) => if zeroLiteral literal then none else some (.number literal)
  | some value => some value

/-- `mapping.get(key) == text`. -/
def isText (value : Option Json) (text : String) : Bool := value.bind Json.str? = some text

/-- `get_outbox_dispatch_context` of a row: the document of its live snapshot. -/
def dispatchDocument (db : Db) (item : OutboxRow) :
    Except Err (Option (SnapshotKind × List (String × Json))) :=
  let owned := db.outbox.rows.any fun o =>
    o.outboxId = item.outboxId && o.eventId = item.eventId &&
      o.deliveryPlanId = item.deliveryPlanId && o.targetAdapter = item.targetAdapter &&
      o.targetChannel = orNone item.targetChannel && !o.status.isTerminal
  match db.snapshots.rows.find? fun s => s.outboxId = item.outboxId && owned with
  | none => .ok none
  | some s =>
    if s.snapshotVersion ≠ 1 then
      .error (.storageError "Outbox dispatch snapshot has unknown shape version")
    else
      match s.context.fields? with
      | none => .error (.storageError "Outbox dispatch snapshot is malformed")
      | some fields => .ok (some (s.snapshotKind, fields))

def stagedBindingContradiction (kind : SnapshotKind) (context : List (String × Json))
    (item : OutboxRow) : Option Bool :=
  if kind ≠ .staged then some false
  else do
    let plan ← (Json.fieldOf context "plan").bind Json.fields?
    let route ← (Json.fieldOf context "route").bind Json.fields?
    let target ← (Json.fieldOf plan "target").bind Json.fields?
    let routeId := orAbsent (Json.fieldOf plan "route_id")
    let channel := orAbsent (Json.fieldOf target "channel")
    some (!isText (Json.fieldOf plan "plan_id") item.deliveryPlanId ||
      !isText (Json.fieldOf plan "event_id") item.eventId ||
      !(if item.routeId = "" then routeId.isNone else isText routeId item.routeId) ||
      !isText (Json.fieldOf route "id") item.routeId ||
      !isText (Json.fieldOf target "adapter") item.targetAdapter ||
      !(match orNone item.targetChannel with
        | none => channel.isNone
        | some c => isText channel c))

/-- What a preview makes of the snapshot of its row: whether there is one, its kind, and
whether its plan contradicts the row. -/
def snapshotBinding (db : Db) (item : OutboxRow) : Bool × Option SnapshotKind × Option Bool :=
  match dispatchDocument db item with
  | .error _ => (true, none, none)
  | .ok none => (false, none, some false)
  | .ok (some (kind, context)) => (true, some kind, stagedBindingContradiction kind context item)

def validateExpectedObservation (expectedFingerprint : Option String)
    (expectedGeneration : Option ℤ) : Except Err Unit :=
  if expectedFingerprint = some "" then
    .error (.valueError "expected_fingerprint must be a nonempty string")
  else if expectedGeneration.any (· < 0) then
    .error (.valueError ("expected_generation must be the persisted finalized attempt counter," ++
      " including zero for never-dispatched work"))
  else .ok ()

def needsContent (category : ExactTargetCategory) : Bool :=
  category = .pending || category = .retryScheduled || category = .previewReplay ||
    category = .needsOperatorAction

/-- The content read of a preview, when its category needs one. -/
def previewRead (codec : EventCodec) (identity : DeliveryIdentity) (category : ExactTargetCategory)
    (now : Datetime) : StoreTx (Option AuthorizedEventRead) :=
  if needsContent category then do
    let read ← readOwnedEvent codec identity.eventId .replay now
    pure (some read)
  else pure none

section Preview

variable (codec : EventCodec) (fingerprint : ObservedStatement → String)

def unmatchedPreview (identity : DeliveryIdentity) (category : ExactTargetCategory) :
    ExactTargetPreview :=
  { identity, category, observedFingerprint := fingerprint (observedStatement identity none) }

def matchingRows (db : Db) (identity : DeliveryIdentity) : List OutboxRow :=
  (db.outbox.rows.filter fun r => r.eventId = identity.eventId).filter fun r =>
    r.identity = identity

def liveRows (db : Db) (identity : DeliveryIdentity) : List OutboxRow :=
  (matchingRows db identity).filter fun r => !r.status.isTerminal

/-- The preview of the selected row, after its content read. -/
def itemPreview (db : Db) (identity : DeliveryIdentity) (expectedFingerprint : Option String)
    (expectedGeneration : Option ℤ) (item : OutboxRow) (read : Option AuthorizedEventRead) :
    ExactTargetPreview :=
  let (snapshotPresent, snapshotKind, binding) := snapshotBinding db item
  let observedFingerprint := fingerprint (observedStatement identity (some item))
  let category :=
    if read.any (fun r => r matches .denied) then .contentUnavailable
    else if expectedFingerprint.any (· ≠ observedFingerprint) ||
        expectedGeneration.any (fun g => item.attemptNumber ≠ g || item.activeAttempt.isSome) then
      .stale
    else
      match binding with
      | some true => .routeOrPlanChanged
      | none => .ambiguous
      | some false => classifyOutboxStatus item.status item.activeAttempt item.failureKind
  { identity, category, observedFingerprint, outboxId := some item.outboxId
    attemptNumber := some item.attemptNumber, activeAttempt := item.activeAttempt
    status := some item.status, updatedAt := some item.updatedAt
    nextAttemptAt := item.nextAttemptAt, payloadHash := item.payloadHash
    snapshotPresent, snapshotKind
    excludedSiblingCount :=
      (db.outbox.rows.filter fun r => r.eventId = identity.eventId).length - 1
    cancelEligible := cancelEligible item }

/-- `preview_exact_target`, in one state of the store. No two rows have the same rank, so their
order does not matter. -/
def previewExactTarget (selection : ExactTargetSelection) (expectedFingerprint : Option String)
    (expectedGeneration : Option ℤ) (now : Datetime) : StoreTx ExactTargetPreview := do
  Tx.lift (validateExpectedObservation expectedFingerprint expectedGeneration)
  let identity := selection.identity
  let db ← Tx.query id
  if !db.hasEvent identity.eventId then pure (unmatchedPreview fingerprint identity .notFound)
  else if (matchingRows db identity).isEmpty || 1 < (liveRows db identity).length then
    pure (unmatchedPreview fingerprint identity .ambiguous)
  else
    match selectCurrentOutbox (matchingRows db identity) with
    | none => pure (unmatchedPreview fingerprint identity .ambiguous)
    | some item =>
      let read ← previewRead codec identity
        (classifyOutboxStatus item.status item.activeAttempt item.failureKind) now
      pure (itemPreview fingerprint db identity expectedFingerprint expectedGeneration item read)

end Preview

/-! ## Which row a preview reports -/

section Reports

variable {db : Db} {identity : DeliveryIdentity}

theorem matchingRows_eq (db : Db) (identity : DeliveryIdentity) :
    matchingRows db identity = db.outbox.rows.filter fun r => r.identity = identity := by
  rw [matchingRows, filter_filter]
  refine filter_congr fun r _ => ?_
  rw [Bool.and_eq_left_iff_imp, decide_eq_true_eq, decide_eq_true_eq]
  rintro rfl
  rfl

variable {r : OutboxRow}

theorem mem_matchingRows :
    r ∈ matchingRows db identity ↔ r ∈ db.outbox.rows ∧ r.identity = identity := by
  rw [matchingRows_eq, mem_filter, decide_eq_true_eq]

theorem mem_liveRows :
    r ∈ liveRows db identity ↔
      r ∈ db.outbox.rows ∧ r.identity = identity ∧ r.status.isTerminal = false := by
  rw [liveRows, mem_filter, mem_matchingRows, Bool.not_eq_true', and_assoc]

theorem cancelEligible_iff :
    cancelEligible r = true ↔ r.status.isClaimable = true ∧ r.unclaimed = true := by
  have hstatus : (decide (r.status = .pending) || decide (r.status = .retryWait)) =
      r.status.isClaimable := by
    cases r.status <;> rfl
  rw [cancelEligible, hstatus, OutboxRow.unclaimed]
  simp only [Bool.and_eq_true, and_assoc]

theorem live_of_claimable (h : r.status.isClaimable = true) : r.status.isTerminal = false := by
  cases hs : r.status <;> rw [hs] at h <;> first | rfl | cases h

theorem liveRows_le_one (hr : r ∈ liveRows db identity) :
    ¬1 < (liveRows db identity).length ↔ ∀ s ∈ liveRows db identity, s.outboxId = r.outboxId := by
  have hids : (liveRows db identity).Pairwise fun r s => r.outboxId ≠ s.outboxId := by
    refine List.Pairwise.sublist (filter_sublist.trans
      (filter_sublist.trans filter_sublist)) (db.outbox.apart.imp ?_)
    intro r s hclash heq
    simp [outboxConstraint, OutboxRow.clash, heq] at hclash
  rw [not_lt]
  constructor
  · intro hle s hs
    rcases hl : liveRows db identity with _ | ⟨t, _ | ⟨u, rest⟩⟩
    · rw [hl] at hr
      cases hr
    · rw [hl] at hr hs
      rw [mem_singleton.mp hr, mem_singleton.mp hs]
    · rw [hl, length_cons, length_cons] at hle
      omega
  · intro hall
    rcases hl : liveRows db identity with _ | ⟨t, _ | ⟨u, rest⟩⟩
    · exact Nat.zero_le 1
    · exact Nat.le_refl 1
    · rw [hl] at hids hall
      have hne := (pairwise_cons.mp hids).1 u mem_cons_self
      refine absurd ?_ hne
      rw [hall t mem_cons_self, hall u (mem_cons_of_mem _ mem_cons_self)]

/-- The preview of a delivery returns and reports the row as one that can be cancelled. -/
def Reports (codec : EventCodec) (fingerprint : ObservedStatement → String)
    (selection : ExactTargetSelection) (expectedFingerprint : Option String)
    (expectedGeneration : Option ℤ) (now : Datetime) (db : Db) (r : OutboxRow) : Prop :=
  ∃ preview db', (previewExactTarget codec fingerprint selection expectedFingerprint
      expectedGeneration now).run db = .ok (preview, db') ∧
    preview.outboxId = some r.outboxId ∧ preview.cancelEligible = true

def Readable (codec : EventCodec) (identity : DeliveryIdentity) (now : Datetime) (db : Db) : Prop :=
  ∃ read db', (readOwnedEvent codec identity.eventId .replay now).run db = .ok (read, db')

theorem needsContent_of_eligible (h : cancelEligible r = true) :
    needsContent (classifyOutboxStatus r.status r.activeAttempt r.failureKind) = true := by
  obtain ⟨hclaimable, hunclaimed⟩ := cancelEligible_iff.mp h
  simp only [OutboxRow.unclaimed, Bool.and_eq_true, Option.isNone_iff_eq_none] at hunclaimed
  rw [hunclaimed.1.1.1]
  cases hs : r.status <;> rw [hs] at hclaimable <;> first | rfl | cases hclaimable

theorem reports_iff {codec : EventCodec} {fingerprint : ObservedStatement → String}
    {selection : ExactTargetSelection} {expectedFingerprint : Option String}
    {expectedGeneration : Option ℤ} {now : Datetime}
    (hexpected : validateExpectedObservation expectedFingerprint expectedGeneration = .ok ())
    (hr : r ∈ db.outbox.rows) (hevent : db.hasEvent r.eventId = true) :
    Reports codec fingerprint selection expectedFingerprint expectedGeneration now db r ↔
      r.identity = selection.identity ∧ cancelEligible r = true ∧
      (∀ s ∈ liveRows db selection.identity, s.outboxId = r.outboxId) ∧
      selectCurrentOutbox (matchingRows db selection.identity) = some r ∧
      Readable codec selection.identity now db := by
  constructor
  · rintro ⟨preview, db', hrun, hid, heligible⟩
    simp only [previewExactTarget, run_bind, run_lift, run_query] at hrun
    obtain ⟨_, _, ⟨-, rfl⟩, _, _, ⟨rfl, rfl⟩, hrun⟩ := hrun
    rcases run_ite.mp hrun with ⟨-, hpure⟩ | ⟨-, hrun⟩
    · obtain ⟨rfl, -⟩ := run_pure.mp hpure
      cases hid
    rcases run_ite.mp hrun with ⟨-, hpure⟩ | ⟨hone, hrun⟩
    · obtain ⟨rfl, -⟩ := run_pure.mp hpure
      cases hid
    cases hsel : selectCurrentOutbox (matchingRows db selection.identity) with
    | none =>
      simp only [id_eq, hsel] at hrun
      obtain ⟨rfl, -⟩ := run_pure.mp hrun
      cases hid
    | some item =>
      simp only [id_eq, hsel, run_bind, run_pure] at hrun
      obtain ⟨read, db₁, hread, rfl, -⟩ := hrun
      obtain ⟨hitem, hident⟩ := mem_matchingRows.mp (argmax_mem hsel)
      obtain rfl : item = r := outbox_eq_of_id db.outbox hitem hr (Option.some.inj hid)
      have hlive : item ∈ liveRows db selection.identity :=
        mem_liveRows.mpr ⟨hr, hident, live_of_claimable (cancelEligible_iff.mp heligible).1⟩
      rw [Bool.or_eq_true, not_or, decide_eq_true_eq] at hone
      refine ⟨hident, heligible, (liveRows_le_one hlive).mp hone.2, rfl, ?_⟩
      rw [previewRead, if_pos (needsContent_of_eligible heligible)] at hread
      simp only [run_bind, run_pure] at hread
      obtain ⟨answer, db₂, hread, -, -⟩ := hread
      exact ⟨answer, db₂, hread⟩
  · rintro ⟨hident, heligible, honly, hsel, answer, db', hread⟩
    have hlive : r ∈ liveRows db selection.identity :=
      mem_liveRows.mpr ⟨hr, hident, live_of_claimable (cancelEligible_iff.mp heligible).1⟩
    have hstored : db.hasEvent selection.identity.eventId = true := by
      rw [← hident]
      exact hevent
    have hsome : (matchingRows db selection.identity).isEmpty = false := by
      rw [isEmpty_eq_false_iff_exists_mem]
      exact ⟨r, mem_matchingRows.mpr ⟨hr, hident⟩⟩
    have hpreviewRead : (previewRead codec selection.identity
        (classifyOutboxStatus r.status r.activeAttempt r.failureKind) now).run db =
          .ok (some answer, db') := by
      rw [previewRead, if_pos (needsContent_of_eligible heligible)]
      simp only [run_bind, run_pure]
      exact ⟨answer, db', hread, rfl, rfl⟩
    have hone := (liveRows_le_one hlive).mpr honly
    refine ⟨itemPreview fingerprint db selection.identity expectedFingerprint
      expectedGeneration r (some answer), db', ?_, rfl, heligible⟩
    simp only [previewExactTarget, run_bind, run_lift, run_query]
    refine ⟨(), db, ⟨hexpected, rfl⟩, db, db, ⟨rfl, rfl⟩, ?_⟩
    rw [if_neg (by simp [hstored]), if_neg (by simp [hsome, hone])]
    simp only [hsel, run_bind, run_pure]
    exact ⟨some answer, db', hpreviewRead, rfl, rfl⟩

end Reports

/-! ## Which row a cancellation accepts -/

def cancelRequest (decisionId actorId : String) (identity : DeliveryIdentity) (r : OutboxRow) :
    DecisionRequest where
  decisionId := decisionId
  actorId := actorId
  identity := identity
  outboxId := r.outboxId
  expectedGeneration := r.attemptNumber
  expectedStatus := r.status
  expectedUpdatedAt := r.updatedAt

/-- The decision can be constructed and the call answers `True`. -/
def Cancels (x : Externals) (decisionId actorId : String) (identity : DeliveryIdentity)
    (now : Datetime) (db : Db) (r : OutboxRow) : Prop :=
  ∃ valid : cancelChecks (cancelRequest decisionId actorId identity r) = .ok (),
    (step x db (.cancelUnstartedDelivery ⟨_, valid⟩ now)).2 = .ok (.flag true)

/-- Bounded non-blank strings. -/
def boundedIdentity (identity : DeliveryIdentity) : Bool :=
  boundedText identity.eventId && boundedText identity.deliveryPlanId &&
    boundedText identity.targetAdapter && identity.targetChannel.all boundedText

/-- The row stands so that it can be cancelled. -/
structure Cancellable (identity : DeliveryIdentity) (rows : List OutboxRow) (r : OutboxRow) :
    Prop where
  mem : r ∈ rows
  ofDelivery : r.identity = identity
  eligible : cancelEligible r = true
  newest : ∀ s ∈ rows, s.outboxId ≠ r.outboxId → s.identity = identity →
    s.generation < r.attemptNumber
  outboxId : boundedText r.outboxId = true
  updatedAt : boundedText r.updatedAt = true

section Cancels

variable {x : Externals} {db : Db} {decisionId actorId : String} {identity : DeliveryIdentity}
  {now : Datetime} {r : OutboxRow}

theorem complete_of_bounded (h : boundedIdentity identity = true) : identity.complete = true := by
  have hne : ∀ t : String, boundedText t = true → t ≠ "" := by
    rintro t ht rfl
    exact absurd ht (by decide)
  simp only [boundedIdentity, Bool.and_eq_true] at h
  simp only [DeliveryIdentity.complete, Bool.and_eq_true, decide_eq_true_eq]
  exact ⟨⟨hne _ h.1.1.1, hne _ h.1.1.2⟩, hne _ h.1.2⟩

theorem cancelChecks_iff (hid : boundedText decisionId = true) (hactor : boundedText actorId = true)
    (hident : boundedIdentity identity = true) (hgen : 0 ≤ r.attemptNumber) :
    cancelChecks (cancelRequest decisionId actorId identity r) = .ok () ↔
      boundedText r.outboxId = true ∧ boundedText r.updatedAt = true ∧
        r.status.isClaimable = true := by
  have hcomplete := complete_of_bounded hident
  simp only [boundedIdentity, Bool.and_eq_true] at hident
  have hchannel : identity.targetChannel.any (fun c => decide (512 < c.length)) = false := by
    cases hc : identity.targetChannel with
    | none => rfl
    | some c =>
      have := hident.2
      simp only [hc, Option.all_some, boundedText, Bool.and_eq_true, decide_eq_true_eq] at this
      simp only [Option.any_some, decide_eq_false_iff_not]
      omega
  have hnonneg : ¬r.attemptNumber < 0 := not_lt_of_ge hgen
  simp only [cancelChecks, decisionFieldChecks, cancelRequest, hid, hactor, hcomplete, hident.1.1.1,
    hident.1.1.2, hident.1.2, hchannel, hnonneg, Bool.not_true, Bool.and_self, Bool.false_eq_true,
    if_false, Bool.not_eq_true']
  by_cases h1 : boundedText r.outboxId = true
  · by_cases h2 : boundedText r.updatedAt = true
    · by_cases h3 : r.status.isClaimable = true <;> simp [h1, h2, h3]
    · simp [h1, h2]
  · simp [h1]

theorem cancels_iff (hid : boundedText decisionId = true) (hactor : boundedText actorId = true)
    (hident : boundedIdentity identity = true) (hfresh : db.decision? decisionId = none)
    (hevents : ∀ r ∈ db.outbox.rows, db.hasEvent r.eventId = true) (hr : r ∈ db.outbox.rows) :
    Cancels x decisionId actorId identity now db r ↔ Cancellable identity db.outbox.rows r := by
  have hgen : 0 ≤ r.attemptNumber := by
    have hc : r.check = true := db.outbox.checked r hr
    simp only [OutboxRow.check, Bool.and_eq_true, decide_eq_true_eq] at hc
    exact hc.1.1.1.1
  constructor
  · rintro ⟨valid, hstep⟩
    obtain ⟨houtbox, hupdated, hclaimable⟩ := (cancelChecks_iff hid hactor hident hgen).mp valid
    obtain ⟨a, ha, hrun⟩ := run_of_answer rfl hstep
    cases ha
    rcases run_cancelUnstartedDelivery hrun with ⟨hfalse, -⟩ | ⟨-, -, ⟨s, hs⟩, -⟩
    · cases hfalse
    · obtain rfl : s = r := outbox_eq_of_id db.outbox hs.mem hr hs.outboxId
      refine ⟨hr, hs.identity, cancelEligible_iff.mpr ⟨hclaimable, hs.unclaimed⟩, ?_, houtbox,
        hupdated⟩
      intro t ht hne hsame
      exact hs.newest t ht hne (hsame.trans hs.identity.symm)
  · intro h
    obtain ⟨hclaimable, hunclaimed⟩ := cancelEligible_iff.mp h.eligible
    have valid := (cancelChecks_iff hid hactor hident hgen).mpr
      ⟨h.outboxId, h.updatedAt, hclaimable⟩
    refine ⟨valid, ?_⟩
    have hobserves : Observes (cancelRequest decisionId actorId identity r) db.outbox.rows r :=
      ⟨hr, rfl, h.ofDelivery, rfl, rfl, rfl, hunclaimed, fun s hs hne hsame =>
        h.newest s hs hne (hsame.trans h.ofDelivery)⟩
    have hevent : db.hasEvent identity.eventId = true := by
      rw [← h.ofDelivery]
      exact hevents r hr
    obtain ⟨db', hrun⟩ :=
      @cancel_of_observes db now ⟨cancelRequest decisionId actorId identity r, valid⟩ r hfresh
        hobserves hevent
    rw [step_of_run rfl hrun]

end Cancels

/-! ## The preview and the cancellation -/

/-- What has to hold of the rows of a delivery for the preview to show exactly the row that
can be cancelled. -/
structure PreviewMatches (db : Db) (identity : DeliveryIdentity) (readable : Prop) : Prop where
  /-- No other row is live beside one that can be cancelled. -/
  alone : ∀ r, Cancellable identity db.outbox.rows r → ∀ s ∈ liveRows db identity,
    s.outboxId = r.outboxId
  /-- A row at attempt 1 that can be cancelled ranks above every staged one. -/
  staged : ∀ r, Cancellable identity db.outbox.rows r →
    ¬(r.generation = 1 ∧ ∃ s ∈ db.outbox.rows, s.identity = identity ∧ s.generation = 0 ∧
      outboxTieRank r < outboxTieRank s)
  /-- The event of a row that can be cancelled can be read. -/
  read : ∀ r, Cancellable identity db.outbox.rows r → readable
  /-- A waiting row without a second live one, at the newest generation when 0 is read as 1 and of
  those the greatest in its times and id, has texts that a decision may carry, and no row that
  ties with it is at its own raw generation or a newer one. -/
  shown : ∀ r ∈ db.outbox.rows, r.identity = identity → cancelEligible r = true →
    (∀ s ∈ liveRows db identity, s.outboxId = r.outboxId) →
    (∀ s ∈ db.outbox.rows, s.identity = identity → orOne s.generation < orOne r.generation ∨
      (orOne s.generation = orOne r.generation ∧ outboxTieRank s ≤ outboxTieRank r)) →
    readable →
    boundedText r.outboxId = true ∧ boundedText r.updatedAt = true ∧
      ∀ s ∈ db.outbox.rows, s.outboxId ≠ r.outboxId → s.identity = identity →
        orOne s.generation = orOne r.generation → s.generation < r.generation

section Matches

variable {x : Externals} {fingerprint : ObservedStatement → String}
  {selection : ExactTargetSelection} {expectedFingerprint : Option String}
  {expectedGeneration : Option ℤ} {now clock : Datetime} {db : Db} {decisionId actorId : String}

theorem generation_of_eligible {r : OutboxRow} (h : cancelEligible r = true) :
    r.generation = r.attemptNumber := by
  have hunclaimed := (cancelEligible_iff.mp h).2
  simp only [OutboxRow.unclaimed, Bool.and_eq_true, Option.isNone_iff_eq_none] at hunclaimed
  rw [OutboxRow.generation, hunclaimed.1.1.1, Option.getD_none]

/-- The preview reports the row that can be cancelled exactly when the rows of the delivery read
alike to both. -/
theorem reports_cancels_iff
    (hexpected : validateExpectedObservation expectedFingerprint expectedGeneration = .ok ())
    (hid : boundedText decisionId = true) (hactor : boundedText actorId = true)
    (hident : boundedIdentity selection.identity = true) (hfresh : db.decision? decisionId = none)
    (hevents : ∀ r ∈ db.outbox.rows, db.hasEvent r.eventId = true) :
    (∀ r ∈ db.outbox.rows,
      Reports x.events fingerprint selection expectedFingerprint expectedGeneration clock db r ↔
        Cancels x decisionId actorId selection.identity now db r) ↔
      PreviewMatches db selection.identity (Readable x.events selection.identity clock db) := by
  have hcancels : ∀ r ∈ db.outbox.rows,
      Cancels x decisionId actorId selection.identity now db r ↔
        Cancellable selection.identity db.outbox.rows r :=
    fun r hr => cancels_iff hid hactor hident hfresh hevents hr
  have hreports := fun r hr => @reports_iff db r x.events fingerprint selection expectedFingerprint
    expectedGeneration clock hexpected hr (hevents r hr)
  have hcurrent : ∀ r, Cancellable selection.identity db.outbox.rows r →
      (selectCurrentOutbox (matchingRows db selection.identity) = some r ↔
        ¬(r.generation = 1 ∧ ∃ s ∈ db.outbox.rows, s.identity = selection.identity ∧
          s.generation = 0 ∧ outboxTieRank r < outboxTieRank s)) := by
    intro r h
    rw [matchingRows_eq]
    refine selectCurrentOutbox_eq_iff db.outbox selection.identity h.mem h.ofDelivery ?_
    intro s hs hsame hne
    rw [generation_of_eligible h.eligible]
    exact h.newest s hs hne hsame
  constructor
  · intro h
    have hshown : ∀ r, Cancellable selection.identity db.outbox.rows r → _ := fun r hr =>
      (hreports r hr.mem).mp ((h r hr.mem).mpr ((hcancels r hr.mem).mpr hr))
    refine ⟨fun r hr => (hshown r hr).2.2.1, fun r hr => (hcurrent r hr).mp (hshown r hr).2.2.2.1,
      fun r hr => (hshown r hr).2.2.2.2, ?_⟩
    intro r hr hsame heligible honly hfirst hread
    have hsel := (selectCurrentOutbox_eq_some_iff hr hsame).mpr hfirst
    rw [← matchingRows_eq] at hsel
    have hcancel := (hcancels r hr).mp
      ((h r hr).mp ((hreports r hr).mpr ⟨hsame, heligible, honly, hsel, hread⟩))
    refine ⟨hcancel.outboxId, hcancel.updatedAt, fun s hs hne hs' _ => ?_⟩
    rw [generation_of_eligible heligible]
    exact hcancel.newest s hs hne hs'
  · intro h r hr
    rw [hreports r hr, hcancels r hr]
    constructor
    · rintro ⟨hsame, heligible, honly, hsel, hread⟩
      rw [matchingRows_eq] at hsel
      have hfirst := (selectCurrentOutbox_eq_some_iff hr hsame).mp hsel
      obtain ⟨houtbox, hupdated, htie⟩ := h.shown r hr hsame heligible honly hfirst hread
      refine ⟨hr, hsame, heligible, ?_, houtbox, hupdated⟩
      intro s hs hne hs'
      rw [← generation_of_eligible heligible]
      rcases hfirst s hs hs' with hlt | ⟨heq, -⟩
      · unfold orOne at hlt
        split at hlt <;> split at hlt <;> omega
      · exact htie s hs hne hs' heq
    · intro hc
      exact ⟨hc.ofDelivery, hc.eligible, h.alone r hc, (hcurrent r hc).mpr (h.staged r hc),
        h.read r hc⟩

end Matches

/-- Operator decisions along any run of the store: a call that raises or is answered `False`
changes nothing; one answered `True` binds its id for good; an acknowledgement writes the audit
table alone and a cancellation what `Cancelled` says. The preview shows exactly the row that a
cancellation under a fresh id accepts, exactly if the rows of the delivery read alike to both. -/
theorem operator_decisions_exact (x : Externals) (ops : List Op) :
    (∀ op row, op.decisionRow = some row →
      ((step x (stateAfter x ops) op).2 ≠ .ok (.flag true) →
        (step x (stateAfter x ops) op).1 = stateAfter x ops) ∧
      ((step x (stateAfter x ops) op).2 = .ok (.flag true) → ∀ later,
        (run (step x) (step x (stateAfter x ops) op).1 later).decision? row.decisionId = some row ∧
        ∀ op' row', op'.decisionRow = some row' → row'.decisionId = row.decisionId →
          (step x (run (step x) (step x (stateAfter x ops) op).1 later) op').2 ≠
            .ok (.flag true) ∧
          (row.sameRequest row' = true →
            (step x (run (step x) (step x (stateAfter x ops) op).1 later) op').2 =
              .ok (.flag false)))) ∧
    (∀ d now t, t ≠ .decisions →
      (step x (stateAfter x ops) (.recordExactTargetDecision d now)).1.table t =
        (stateAfter x ops).table t) ∧
    (∀ d now, (step x (stateAfter x ops) (.cancelUnstartedDelivery d now)).2 = .ok (.flag true) →
      (∃ r, Observes d.toDecisionRequest (stateAfter x ops).outbox.rows r ∧
        (r.status = .pending ∨ r.status = .retryWait)) ∧
      Cancelled d.toDecisionRequest (nowIso now) (stateAfter x ops)
        (step x (stateAfter x ops) (.cancelUnstartedDelivery d now)).1) ∧
    ∀ fingerprint selection expectedFingerprint expectedGeneration clock now decisionId actorId,
      boundedIdentity selection.identity = true →
      validateExpectedObservation expectedFingerprint expectedGeneration = .ok () →
      boundedText decisionId = true → boundedText actorId = true →
      (stateAfter x ops).decision? decisionId = none →
      ((∀ r ∈ (stateAfter x ops).outbox.rows,
        Reports x.events fingerprint selection expectedFingerprint expectedGeneration clock
            (stateAfter x ops) r ↔
          Cancels x decisionId actorId selection.identity now (stateAfter x ops) r) ↔
        PreviewMatches (stateAfter x ops) selection.identity
          (Readable x.events selection.identity clock (stateAfter x ops))) := by
  refine ⟨?_, ?_, ?_, ?_⟩
  · intro op row hop
    refine ⟨?_, fun htrue later => decision_kept hop htrue later⟩
    intro hne
    rcases step_decision hop with ⟨htrue, -⟩ | ⟨-, hdb, -⟩ | ⟨-, hdb⟩
    · exact absurd htrue hne
    · exact hdb
    · exact hdb
  · intro d now t ht
    exact step_table x _ _ (by simpa [Op.writes] using ht)
  · intro d now htrue
    obtain ⟨a, ha, hrun⟩ := run_of_answer rfl htrue
    cases ha
    rcases run_cancelUnstartedDelivery hrun with ⟨hfalse, -⟩ | ⟨-, -, ⟨r, hr⟩, hdone⟩
    · cases hfalse
    · refine ⟨⟨r, hr, ?_⟩, hdone⟩
      have hclaimable := d.expectedStatus_isClaimable
      rw [← hr.status] at hclaimable
      cases hs : r.status <;> rw [hs] at hclaimable <;>
        first | exact .inl rfl | exact .inr rfl | cases hclaimable
  · intro fingerprint selection expectedFingerprint expectedGeneration clock now decisionId actorId
      hident hexpected hid hactor hfresh
    exact reports_cancels_iff hexpected hid hactor hident hfresh (outbox_hasEvent x ops)

open Medre.Storage.Sample in
/-- The replay is the only live row and can be cancelled; the preview shows the staged row, which
is cancelled. -/
theorem preview_shows_settled_row :
    let db := stateAfter externals stagedCancelled
    (∃ preview db', (previewExactTarget externals.events (fun _ => "") ⟨staged.identity, rfl⟩ none
        none (clock 4)).run db = .ok (preview, db') ∧
      preview.outboxId = some "staged" ∧ preview.cancelEligible = false) ∧
    ∃ r ∈ db.outbox.rows, r.outboxId = "replay" ∧
      Cancels externals "decision" "operator" staged.identity (clock 4) db r :=
  ⟨⟨_, _, rfl, rfl, rfl⟩, _, mem_cons_of_mem _ mem_cons_self, rfl, by decide, rfl⟩

namespace Sample

open Medre.Storage.Sample

/-- One delivery that waits. -/
def oneWaiting : List Op :=
  [.append event (clock 0), .createOutboxItem pending false none (clock 1)]

def cancelWaiting : CancelUnstartedDecision where
  decisionId := "decision"
  actorId := "operator"
  identity := pending.identity
  outboxId := pending.outboxId
  expectedGeneration := 1
  expectedStatus := .pending
  expectedUpdatedAt := nowIso (clock 1)
  valid := by decide

end Sample

open Medre.Storage.Sample in
/-- The waiting delivery is shown, is cancelled once, and its decision cannot be repeated. -/
theorem operator_decisions_exact_waiting :
    (step externals (stateAfter externals Sample.oneWaiting)
        (.cancelUnstartedDelivery Sample.cancelWaiting (clock 2))).2 = .ok (.flag true) ∧
      (step externals (step externals (stateAfter externals Sample.oneWaiting)
          (.cancelUnstartedDelivery Sample.cancelWaiting (clock 2))).1
        (.cancelUnstartedDelivery Sample.cancelWaiting (clock 3))).2 = .ok (.flag false) ∧
      ∀ r ∈ (stateAfter externals Sample.oneWaiting).outbox.rows,
        Reports externals.events (fun _ => "") ⟨pending.identity, rfl⟩ none none (clock 2)
            (stateAfter externals Sample.oneWaiting) r ↔
          Cancels externals "decision" "operator" pending.identity (clock 2)
            (stateAfter externals Sample.oneWaiting) r := by
  obtain ⟨hdecided, -, -, hpreview⟩ := operator_decisions_exact externals Sample.oneWaiting
  have htrue : (step externals (stateAfter externals Sample.oneWaiting)
      (.cancelUnstartedDelivery Sample.cancelWaiting (clock 2))).2 = .ok (.flag true) := rfl
  have hkept :=
    (hdecided (.cancelUnstartedDelivery Sample.cancelWaiting (clock 2)) _ rfl).2 htrue []
  refine ⟨htrue, ?_, ?_⟩
  · exact (hkept.2 (.cancelUnstartedDelivery Sample.cancelWaiting (clock 3)) _ rfl rfl).2 rfl
  · have hids : ∀ r ∈ (stateAfter externals Sample.oneWaiting).outbox.rows,
        r.outboxId = "outbox" := by
      decide
    have hgens : ∀ r ∈ (stateAfter externals Sample.oneWaiting).outbox.rows, r.generation = 1 := by
      decide
    have htexts : ∀ r ∈ (stateAfter externals Sample.oneWaiting).outbox.rows,
        boundedText r.outboxId = true ∧ boundedText r.updatedAt = true := by
      decide
    refine (hpreview (fun _ => "") ⟨pending.identity, rfl⟩ none none (clock 2) (clock 2) "decision"
      "operator" (by decide) rfl (by decide) (by decide) rfl).mpr ⟨?_, ?_, ?_, ?_⟩
    · intro r hr s hs
      rw [hids s (mem_liveRows.mp hs).1, hids r hr.mem]
    · rintro r - ⟨-, s, hs, -, hzero, -⟩
      rw [hgens s hs] at hzero
      cases hzero
    · exact fun _ _ => ⟨_, _, rfl⟩
    · intro r hr _ _ _ _ _
      refine ⟨(htexts r hr).1, (htexts r hr).2, ?_⟩
      intro s hs hne
      exact absurd ((hids s hs).trans (hids r hr).symm) hne

end Medre.Observability
