import Medre.Storage.Creation

/-! # `OutboxManager.create_for_delivery`

The call turns a routed plan into an outbox row and reports who owns it. Its transaction and the
read of the row that follows are two steps. -/

namespace Medre.Pipeline

open List Medre.Framework Medre.Storage

/-! ## The call -/

def outboxRenewalDurationSeconds : ℤ := 60

def outboxCreationFailedReason : String := "outbox_creation_failed"

structure OutboxContext where
  outboxId : Option String
  created : Bool
  pipelineWorker : String
  skipReason : Option String
  attemptNumber : Option ℤ := none
  replayDuplicate : Bool := false
deriving DecidableEq, Repr

structure RouteDestination where
  kind : String
  destinationHash : Option String
  destinationName : Option String
  metadata : List (String × Json) := []

/-- What one call of `create_for_delivery` reads of its arguments, with its two clock readings and
the two identifiers it draws; `route`, `plan` and `routing` after `to_builtins`. -/
structure DeliveryRequest where
  eventId : String
  routing : Option Json := none
  routeId : String
  route : Json := .null
  planId : String
  plan : Json := .null
  capabilityLevel : Option String := none
  method : String := "direct"
  capabilityField : Option String := none
  capabilityReason : Option String := none
  deadline : Option Datetime := none
  channel : Option String := none
  destination : Option RouteDestination := none
  adapterName : String
  source : DeliverySource := .live
  replayRunId : Option String := none
  pending : Bool := false
  /-- `uuid.uuid4().hex[:12]`. -/
  workerHex : String
  /-- `uuid.uuid4()`. -/
  uuid : String
  now : Datetime
  /-- The reading of `create_outbox_item`. -/
  storedAt : Datetime

/-- `normalize_delivery_provenance` on a known source. -/
def normalizeDeliveryProvenance (source : DeliverySource) (replayRunId : Option String) :
    Except Err (DeliverySource × Option String) :=
  let runId := normalizeReplayRunId replayRunId
  if source = .live && runId.isSome then
    .error (.valueError "live delivery cannot carry replay_run_id")
  else .ok (source, runId)

namespace DeliveryRequest

variable (r : DeliveryRequest)

def outboxId : String := "obox-" ++ r.uuid

def pipelineWorker : String := "pipeline:" ++ r.workerHex

def identity : DeliveryIdentity := .of r.eventId r.planId r.adapterName r.channel

def textOrNull : Option String → Json
  | none => .null
  | some s => .str s

def reducedContext : List (String × Json) :=
  (match r.destination with
    | none => []
    | some d =>
      [("destination_kind", .str d.kind),
        ("destination_hash", textOrNull d.destinationHash),
        ("destination_name", textOrNull d.destinationName),
        ("destination_metadata", .obj d.metadata)]) ++
    [("capability_level", textOrNull r.capabilityLevel),
      ("delivery_strategy", .str r.method),
      ("capability_field", textOrNull r.capabilityField),
      ("capability_reason", textOrNull r.capabilityReason),
      ("deadline", textOrNull (r.deadline.map Datetime.isoformat))]

def dispatchSnapshot : Except Err OutboxDispatchSnapshotWrite :=
  if r.pending then
    if r.source ≠ .live then
      .error (.valueError "only live ingress can stage initial delivery")
    else
      match r.routing with
      | none => .error (.valueError "initial staging requires the accepted routing decision")
      | some routing =>
        .ok { kind := .staged
              context := [("route", r.route), ("plan", r.plan), ("routing", routing)] }
  else .ok { kind := .direct, context := r.reducedContext }

/-- The row the call asks for, which expires at `leaseUntil` unless it is staged. -/
def outboxItem (runId : Option String) (leaseUntil : String) : DeliveryOutboxItem where
  outboxId := r.outboxId
  eventId := r.eventId
  routeId := r.routeId
  deliveryPlanId := r.planId
  targetAdapter := r.adapterName
  targetChannel := r.channel
  targetAddress := r.destination.bind RouteDestination.destinationHash
  attemptNumber := if r.pending then 0 else 1
  status := some (if r.pending then .pending else .inProgress)
  lockedAt := if r.pending then none else some r.now.isoformat
  leaseUntil := if r.pending then none else some leaseUntil
  workerId := if r.pending then none else some r.pipelineWorker
  dispatchSource := some r.source
  replayRunId := if r.source = .replay then runId else none

/-- The transaction the call puts to the store, or what it raises before. -/
def transaction (runId : Option String) : Except Err Op := do
  let leaseUntil ← liftPy (r.now.addSeconds outboxRenewalDurationSeconds)
  let snapshot ← r.dispatchSnapshot
  pure (.createOutboxItem (r.outboxItem runId leaseUntil.isoformat) (r.source = .replay)
    (some snapshot) r.storedAt)

/-- A second execution of a run, which found the row of the first. -/
def replayDuplicate (runId : Option String) (created : OutboxRow) : Bool :=
  r.source = .replay && runId.isSome && created.outboxId ≠ r.outboxId &&
    created.replayRunId = runId

/-- Why the caller does not own the row, if it does not. -/
def skipReason (runId : Option String) (created : OutboxRow) : Option String :=
  if r.replayDuplicate runId created then some ("replay_run_claimed:" ++ created.status.text)
  else if created.status.isTerminal then some ("terminal:" ++ created.status.text)
  else if r.pending then some "staged"
  else if created.status = .pending || created.status = .retryWait || created.status = .queued
  then some ("active:" ++ created.status.text)
  else if created.status = .inProgress && created.workerId ≠ some r.pipelineWorker then
    some ("active:other_worker:" ++ (orNone created.workerId).getD "unknown")
  else none

def settled (runId : Option String) (created : OutboxRow) : OutboxContext where
  outboxId := some created.outboxId
  created := true
  pipelineWorker := (orNone created.workerId).getD r.pipelineWorker
  skipReason := r.skipReason runId created
  attemptNumber := some created.generation
  replayDuplicate := r.replayDuplicate runId created

def failed : OutboxContext where
  outboxId := none
  created := false
  pipelineWorker := r.pipelineWorker
  skipReason := some outboxCreationFailedReason

/-- The answer, by what the transaction answered and the store the row is read from. -/
def context (runId : Option String) (answer : Except Err Answer) (later : Db) : OutboxContext :=
  match answer with
  | .ok (.created c) =>
    match later.outboxRow? c.row.outboxId with
    | some created => r.settled runId created
    | none => r.failed
  | _ => r.failed

/-- The call returns `ctx` in the history `ops`: it raised at first, or its transaction came after
`before` and it read the row after `between`. -/
inductive Returns (x : Externals) (ops : List Op) : OutboxContext → Prop
  | unprepared {source : DeliverySource} {runId : Option String} {e : Err}
      (hsource : normalizeDeliveryProvenance r.source r.replayRunId = .ok (source, runId))
      (h : r.transaction runId = .error e) : Returns x ops r.failed
  | answered {source : DeliverySource} {runId : Option String} {before between : List Op}
      {op : Op}
      (hsource : normalizeDeliveryProvenance r.source r.replayRunId = .ok (source, runId))
      (h : r.transaction runId = .ok op) (hpre : before ++ op :: between <+: ops) :
      Returns x ops (r.context runId (step x (stateAfter x before) op).2
        (stateAfter x (before ++ op :: between)))

/-! ## A run is executed once -/

variable {r} {x : Externals} {ops : List Op} {runId : Option String}

theorem transaction_ok {op : Op} (h : r.transaction runId = .ok op) :
    ∃ leaseUntil snapshot, op = .createOutboxItem (r.outboxItem runId leaseUntil)
      (r.source = .replay) (some snapshot) r.storedAt := by
  obtain ⟨leaseUntil, -, h⟩ := ok_of_bind h
  obtain ⟨snapshot, -, h⟩ := ok_of_bind h
  exact ⟨_, _, (Except.ok.inj h).symm⟩

theorem context_owned {answer : Except Err Answer} {later : Db}
    (h : (r.context runId answer later).skipReason = none) :
    ∃ c created, answer = .ok (.created c) ∧ created ∈ later.outbox.rows ∧
      created.outboxId = c.row.outboxId ∧ r.skipReason runId created = none := by
  unfold context at h
  split at h
  · rename_i c
    split at h
    · rename_i created hread
      obtain ⟨hmem, hid⟩ := (outboxRow?_eq_some_iff _ _ _).mp hread
      exact ⟨c, created, rfl, hmem, hid, h⟩
    · cases h
  · cases h

theorem source_of_answer {db : Db} {leaseUntil : String} {allocate : Bool}
    {snapshot : Option OutboxDispatchSnapshotWrite} {now : Datetime} {ans : Answer}
    (h : (step x db (.createOutboxItem (r.outboxItem runId leaseUntil) allocate snapshot
      now)).2 = .ok ans) : r.source ≠ .retry := by
  obtain ⟨c, -, hrun⟩ := run_of_answer rfl h
  simp only [createOutboxItem, Tx.run_bind, Tx.run_lift] at hrun
  obtain ⟨source, _, ⟨hchecks, -⟩, -⟩ := hrun
  intro hretry
  simp [createChecks, outboxItem, DeliveryOutboxItem.storedSource, hretry] at hchecks

/-- A call that names a run and owns its row inserted it: the run's row has the
identifier that the call drew. -/
theorem Returns.owns_run {ctx : OutboxContext} (h : r.Returns x ops ctx)
    (howned : ctx.skipReason = none) {name : String}
    (hname : normalizeReplayRunId r.replayRunId = some name) :
    ∃ row ∈ (stateAfter x ops).outbox.rows, row.outboxId = r.outboxId ∧
      row.identity = r.identity ∧ row.replayRunId = some name := by
  cases h with
  | unprepared hsource h => cases howned
  | @answered source runId before between op hsource h hpre =>
    obtain ⟨leaseUntil, snapshot, rfl⟩ := transaction_ok h
    obtain ⟨c, created, hans, hread, hid, hskip⟩ := context_owned howned
    have hretry := source_of_answer hans
    -- a live call cannot name a run
    obtain ⟨hlive, rfl⟩ : r.source ≠ .live ∧ runId = some name := by
      unfold normalizeDeliveryProvenance at hsource
      simp only [hname, Option.isSome_some, Bool.and_true, decide_eq_true_eq] at hsource
      split at hsource
      · cases hsource
      · rename_i hlive
        cases hsource
        exact ⟨hlive, rfl⟩
    have hreplay : r.source = .replay := by
      cases hs : r.source with
      | live => exact absurd hs hlive
      | retry => exact absurd hs hretry
      | replay => rfl
    have heffect := create_effect x (channelsNormal_stateAfter x before) hans
    obtain ⟨hmem, hident⟩ := heffect.row_mem
    have hnamed : c.row.replayRunId = some name := by
      simp only [hreplay, decide_true] at heffect
      refine heffect.named ?_
      simp only [outboxItem, hreplay, if_true]
      exact normalizeReplayRunId_some hname
    -- the row that was read is the row of the answer, later
    obtain ⟨row, hrow, hrowid, hrowident, hrowrun⟩ :=
      rowsStay_of_prefix x (prefix_append (before ++ [_]) between) c.row
        ((run_snoc (step x) Db.empty before _).symm ▸ hmem)
    rw [append_assoc, singleton_append] at hrow
    obtain rfl := outbox_eq_of_id _ hread hrow (hid.trans hrowid.symm)
    have hown : created.outboxId = r.outboxId := by
      by_contra hne
      have hdup : r.replayDuplicate (some name) created = true := by
        simp [replayDuplicate, hreplay, hne, hrowrun, hnamed]
      rw [skipReason, if_pos hdup] at hskip
      cases hskip
    obtain ⟨last, hlast, hlastid, hlastident, hlastrun⟩ := rowsStay_of_prefix x hpre created hread
    exact ⟨last, hlast, hlastid.trans hown, (hlastident.trans hrowident).trans hident,
      (hlastrun.trans hrowrun).trans hnamed⟩

end DeliveryRequest

/-! ## Idempotence -/

/-- `create_outbox_item` at the end of the history. -/
def createAfter (x : Externals) (ops : List Op) (item : DeliveryOutboxItem) (allocate : Bool)
    (snapshot : Option OutboxDispatchSnapshotWrite) (now : Datetime) :
    Db × Except Err Answer :=
  step x (stateAfter x ops) (.createOutboxItem item allocate snapshot now)

/-- Outbox creation after any history of calls. No creation touches a row that is there. A plain
one at attempt `n` answers with work at or above `n`, or inserts a row above all others; so
creations at one attempt leave one row. A named run has one row for good, which every call that
names it answers with and at most one `create_for_delivery` owns. An unnamed replay inserts a
generation above all earlier ones. -/
theorem outbox_creation_idempotent (x : Externals) (ops : List Op) :
    (∀ item allocate snapshot now,
      KeepsRows (stateAfter x ops) (createAfter x ops item allocate snapshot now).1) ∧
    (∀ item allocate snapshot now c,
      (createAfter x ops item allocate snapshot now).2 = .ok (.created c) →
        CreateEffect (stateAfter x ops) (createAfter x ops item allocate snapshot now).1 item
          allocate c) ∧
    (∀ d n, (∀ op ∈ ops, op.CreatesAt d n) → CreatedIn x ops d →
      ((stateAfter x ops).rowsOf d).length = 1) ∧
    (∀ r ∈ (stateAfter x ops).outbox.rows, ∀ s ∈ (stateAfter x ops).outbox.rows,
      ∀ runId ≠ "", r.identity = s.identity → r.replayRunId = some runId →
        s.replayRunId = some runId → r = s) ∧
    (∀ item allocate snapshot now c runId,
      (createAfter x ops item allocate snapshot now).2 = .ok (.created c) →
        normalizeReplayRunId item.replayRunId = some runId →
          c.row ∈ (createAfter x ops item allocate snapshot now).1.outbox.rows ∧
            c.row.identity = item.identity ∧ c.row.replayRunId = some runId) ∧
    (∀ after, RowsStay (stateAfter x ops) (stateAfter x (ops ++ after))) ∧
    (∀ (r s : DeliveryRequest) rctx sctx runId, r.Returns x ops rctx → s.Returns x ops sctx →
      r.identity = s.identity → normalizeReplayRunId r.replayRunId = some runId →
        normalizeReplayRunId s.replayRunId = some runId →
          rctx.skipReason = none → sctx.skipReason = none → r.outboxId = s.outboxId) ∧
    (∀ item snapshot now c,
      (createAfter x ops item true snapshot now).2 = .ok (.created c) →
        normalizeReplayRunId item.replayRunId = none →
          ∃ row, c = .inserted row ∧
            AddsRow (stateAfter x ops) (createAfter x ops item true snapshot now).1 item true
              row) := by
  have heffect : ∀ item allocate snapshot now c,
      (createAfter x ops item allocate snapshot now).2 = .ok (.created c) →
        CreateEffect (stateAfter x ops) (createAfter x ops item allocate snapshot now).1 item
          allocate c := fun item allocate snapshot now c h =>
    create_effect x (channelsNormal_stateAfter x ops) h
  refine ⟨fun item allocate snapshot now => create_keepsRows x item allocate snapshot now,
    heffect, ?_, ?_, ?_, ?_, ?_, ?_⟩
  · intro d n hops hcreated
    have hle := (oneRow_stateAfter x hops).length
    have hpos := length_pos_iff.mpr hcreated.rowsOf_ne
    omega
  · intro r hr s hs runId hne hident hrun hrun'
    exact replayRun_unique hr hs hne hident hrun hrun'
  · intro item allocate snapshot now c runId h hname
    have hc := heffect item allocate snapshot now c h
    obtain rfl := create_named_allocates x h hname
    exact ⟨hc.row_mem.1, hc.row_mem.2, hc.named hname⟩
  · intro after
    exact rowsStay_of_prefix x (prefix_append ops after)
  · intro r s rctx sctx runId hr hs hident hname hname' howned howned'
    -- both rows are the row of the run
    obtain ⟨row, hrow, hid, hrowident, hrun⟩ := hr.owns_run howned hname
    obtain ⟨row', hrow', hid', hrowident', hrun'⟩ := hs.owns_run howned' hname'
    have heq := replayRun_unique hrow hrow' (normalizeReplayRunId_ne hname)
      ((hrowident.trans hident).trans hrowident'.symm) hrun hrun'
    rw [← hid, ← hid', heq]
  · intro item snapshot now c h hname
    exact (heffect item true snapshot now c h).unnamed hname

namespace Sample

open Storage.Sample

/-- The sample delivery, staged. -/
def staged : DeliveryOutboxItem :=
  { item with outboxId := "staged", attemptNumber := 0, status := some .pending
              workerId := none, leaseUntil := none }

def stagedTwice : List Op :=
  [.append event (clock 0), .createOutboxItem staged false none (clock 1),
    .createOutboxItem { staged with outboxId := "again" } false none (clock 2)]

end Sample

open Storage.Sample Sample in
theorem outbox_creation_idempotent_staged :
    ((stateAfter externals stagedTwice).rowsOf staged.identity).length = 1 :=
  (outbox_creation_idempotent externals stagedTwice).2.2.1 staged.identity 0
    (forall_mem_cons.mpr ⟨trivial, forall_mem_cons.mpr ⟨fun _ => ⟨rfl, rfl⟩,
      forall_mem_cons.mpr ⟨fun _ => ⟨rfl, rfl⟩, fun _ h => absurd h not_mem_nil⟩⟩⟩)
    ⟨[.append event (clock 0)], staged, false, none, clock 1, _, ⟨[_], rfl⟩, rfl, rfl⟩

open Storage.Sample Sample in
/-- Work at attempt 0 is below a creation at attempt 1, which inserts a second row of the
delivery. -/
theorem staged_then_direct_two_rows :
    ((stateAfter externals [.append event (clock 0),
        .createOutboxItem staged false none (clock 1),
        .createOutboxItem item false none (clock 2)]).rowsOf item.identity).length = 2 := by
  decide +kernel

end Medre.Pipeline
