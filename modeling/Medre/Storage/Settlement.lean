import Medre.Storage.Generations

/-! # The life of an outbox row -/

namespace Medre.Storage

open List Medre.Framework Tx

variable {s : Snapshot} {db' : Db} {f : OutboxRow → OutboxRow} {r r' : OutboxRow}

/-! ## Rows that are created -/

namespace Creates

variable {db : Db} {op : Op} {row : OutboxRow} {snapshot : Option Snapshot}

theorem status_cases (h : Creates db op row snapshot) :
    row.status = .pending ∨ row.status = .inProgress := by
  have hchecks : ∀ {item : DeliveryOutboxItem} {allocate : Bool}
      {s : Option OutboxDispatchSnapshotWrite} {source : DeliverySource},
      createChecks item allocate s = .ok source →
        item.status.getD .pending = .pending ∨ item.status.getD .pending = .inProgress := by
    intro item allocate s source hok
    by_contra hne
    rw [not_or] at hne
    unfold createChecks at hok
    dsimp only at hok
    repeat' (split at hok; · cases hok)
    rename_i hst _
    simp [hne.1, hne.2] at hst
  cases h with
  | plain hok hnone => exact hchecks hok
  | generation hok hactive => exact hchecks hok

theorem live (h : Creates db op row snapshot) : row.status.isTerminal = false := by
  rcases h.status_cases with hst | hst <;> rw [hst] <;> rfl

theorem snapshot_owner (h : Creates db op row snapshot) (hs : s ∈ snapshot.toList) :
    s.outboxId = row.outboxId := by
  cases h with
  | plain hok hnone =>
    rw [Option.mem_toList, Option.map_eq_some_iff] at hs
    obtain ⟨w, -, rfl⟩ := hs
    rfl
  | generation hok hactive =>
    rw [Option.mem_toList, Option.map_eq_some_iff] at hs
    obtain ⟨w, -, rfl⟩ := hs
    rfl

theorem owner (h : Creates db op row snapshot) {d : Dependency} (hd : op.mayOwn d.key) :
    d.ownerId = row.outboxId ∧ d.eventId = row.eventId := by
  cases h with
  | plain hok hnone =>
    have hkey := Dependency.key_eq.mp hd.1
    exact ⟨hkey.2.2, hkey.1⟩
  | generation hok hactive =>
    have hkey := Dependency.key_eq.mp hd.1
    exact ⟨hkey.2.2, hkey.1⟩

end Creates

/-! ## Terminal settlement -/

/-- What is stored beside the outbox belongs to a row of it, and a terminal row
has nothing left. -/
structure SettledStore (db : Db) : Prop where
  snapshots : ∀ s ∈ db.snapshots.rows, ∃ r ∈ db.outbox.rows, r.outboxId = s.outboxId ∧
    r.status.isTerminal = false
  dependencies : ∀ d ∈ db.dependencies.rows, d.ownerKind = .outbox →
    ∃ r ∈ db.outbox.rows, r.outboxId = d.ownerId ∧ r.eventId = d.eventId ∧
      (r.status.isTerminal = true → d.releasedAt.isSome = true)
  unclaimed : ∀ r ∈ db.outbox.rows, r.status.isTerminal = true →
    r.workerId = none ∧ r.leaseUntil = none ∧ r.nextAttemptAt = none

variable {db : Db}

theorem SettledStore.rewritten {op : Op} (hs : SettledStore db) (h : Rewrites op db db' f)
    (owned : ∀ d' ∈ db'.dependencies.rows, d'.ownerKind = .outbox →
      ∃ d ∈ db.dependencies.rows, d.Stems d') : SettledStore db' := by
  have hmem : ∀ r ∈ db.outbox.rows, f r ∈ db'.outbox.rows := by
    intro r hr
    rw [h.rows]
    exact mem_map_of_mem hr
  refine ⟨?_, ?_, ?_⟩
  · intro s hsnap
    obtain ⟨hold, hlive⟩ := (h.snapshots s).mp hsnap
    obtain ⟨r, hr, hid, hr'⟩ := hs.snapshots s hold
    exact ⟨f r, hmem r hr, (h.keys hr).1.trans hid, hlive r hr hid hr'⟩
  · intro d' hd' hkind
    obtain ⟨d, hd, hstems⟩ := owned d' hd' hkind
    have hkey := Dependency.key_inj.mp hstems.key_eq
    obtain ⟨r, hr, hid, hevent, hreleased⟩ := hs.dependencies d hd (hkey.2.1 ▸ hkind)
    refine ⟨f r, hmem r hr, ?_, ?_, ?_⟩
    · rw [(h.keys hr).1, hid, hkey.2.2]
    · rw [(h.keys hr).2.1, hevent, hkey.1]
    · intro hterm
      cases hr' : r.status.isTerminal with
      | true =>
        -- it was terminal before: its dependency was released and stays so
        rw [hstems.eq_of_released (hreleased hr')]
        exact hreleased hr'
      | false =>
        refine h.released r hr hr' hterm d' hd' ?_
        rw [Dependency.key, hkind, hkey.1, hkey.2.2, hevent, hid]
  · intro r' hr' hterm
    rw [h.rows, mem_map] at hr'
    obtain ⟨r, hr, rfl⟩ := hr'
    rcases h.change r hr with heq | hc
    · rw [heq] at hterm ⊢
      exact hs.unclaimed r hr hterm
    · exact hc.terminal_clean hterm

theorem settledStore_step (x : Externals) (db : Db) (op : Op) (hs : SettledStore db) :
    SettledStore (step x db op).1 := by
  cases step_outbox x db op with
  | rewritten f h owned => exact hs.rewritten h owned
  | created row snapshot h rows snapshots =>
    have hold : ∀ r ∈ db.outbox.rows, r ∈ (step x db op).1.outbox.rows := by
      intro r hr
      rw [rows]
      exact mem_append_left _ hr
    have hnew : row ∈ (step x db op).1.outbox.rows := by
      rw [rows]
      exact mem_append_right _ (mem_singleton.mpr rfl)
    refine ⟨?_, ?_, ?_⟩
    · intro s hsnap
      rw [snapshots, mem_append] at hsnap
      rcases hsnap with hsnap | hsnap
      · obtain ⟨r, hr, hid, hlive⟩ := hs.snapshots s hsnap
        exact ⟨r, hold r hr, hid, hlive⟩
      · exact ⟨row, hnew, (h.snapshot_owner hsnap).symm, h.live⟩
    · intro d' hd' hkind
      rcases (step_content x db op).origin d' hd' with ⟨d, hd, hstems⟩ | hown
      · have hkey := Dependency.key_inj.mp hstems.key_eq
        obtain ⟨r, hr, hid, hevent, hreleased⟩ := hs.dependencies d hd (hkey.2.1 ▸ hkind)
        refine ⟨r, hold r hr, hid.trans hkey.2.2.symm, hevent.trans hkey.1.symm, ?_⟩
        intro hterm
        rw [hstems.eq_of_released (hreleased hterm)]
        exact hreleased hterm
      · refine ⟨row, hnew, (h.owner hown).1.symm, (h.owner hown).2.symm, ?_⟩
        intro hterm
        rw [h.live] at hterm
        cases hterm
    · intro r hr hterm
      rw [rows, mem_append, mem_singleton] at hr
      rcases hr with hr | rfl
      · exact hs.unclaimed r hr hterm
      · rw [h.live] at hterm
        cases hterm

theorem settledStore_stateAfter (x : Externals) (ops : List Op) :
    SettledStore (stateAfter x ops) := by
  refine run_invariant (settledStore_step x) ⟨?_, ?_, ?_⟩ ops
  all_goals exact fun _ h => absurd h not_mem_nil

theorem terminal_final (x : Externals) (hr : r ∈ db.outbox.rows)
    (ht : r.status.isTerminal = true) (ops : List Op) : r ∈ (run (step x) db ops).outbox.rows := by
  refine run_invariant (I := fun db : Db => r ∈ db.outbox.rows) ?_ hr ops
  intro db op hr
  cases step_outbox x db op with
  | rewritten f h owned =>
    rw [h.rows]
    exact mem_map.mpr ⟨r, hr, h.terminal_eq hr ht⟩
  | created row snapshot h rows snapshots =>
    rw [rows]
    exact mem_append_left _ hr

theorem snapshot_kept (x : Externals) (hs : s ∈ db.snapshots.rows) (ops : List Op) :
    s ∈ (run (step x) db ops).snapshots.rows ∨
      ∃ r ∈ (run (step x) db ops).outbox.rows, r.outboxId = s.outboxId ∧
        r.status.isTerminal = true := by
  refine run_invariant (I := fun db : Db => s ∈ db.snapshots.rows ∨
    ∃ r ∈ db.outbox.rows, r.outboxId = s.outboxId ∧ r.status.isTerminal = true) ?_ (.inl hs) ops
  rintro db op (hs | ⟨r, hr, hid, ht⟩)
  · cases step_outbox x db op with
    | rewritten f h owned =>
      by_cases hlive : ∀ r ∈ db.outbox.rows, r.outboxId = s.outboxId →
          r.status.isTerminal = false → (f r).status.isTerminal = false
      · exact .inl ((h.snapshots s).mpr ⟨hs, hlive⟩)
      · push Not at hlive
        obtain ⟨r, hr, hid, -, hterm⟩ := hlive
        refine .inr ⟨f r, ?_, (h.keys hr).1.trans hid, by simpa using hterm⟩
        rw [h.rows]
        exact mem_map_of_mem hr
    | created row snapshot h rows snapshots =>
      left
      rw [snapshots]
      exact mem_append_left _ hs
  · exact .inr ⟨r, terminal_final x hr ht [op], hid, ht⟩

theorem snapshot_eq_of_id (t : Table snapshotConstraint) {s' : Snapshot} (hs : s ∈ t.rows)
    (hs' : s' ∈ t.rows) (h : s.outboxId = s'.outboxId) : s = s' :=
  eq_of_key t hs hs' h

theorem Creates.snapshot_eq {item : DeliveryOutboxItem} {allocate : Bool}
    {write : OutboxDispatchSnapshotWrite} {now : Datetime} {row : OutboxRow}
    {stored : Option Snapshot}
    (h : Creates db (.createOutboxItem item allocate (some write) now) row stored) :
    stored = some (write.row row.outboxId row.attemptNumber (nowIso now)) := by
  cases h <;> rfl

/-- Terminal settlement is complete and final: a terminal row has no snapshot, no unreleased
dependency, no claim and no schedule and is never changed again; any other row still has exactly
its snapshot. -/
theorem terminal_settlement (x : Externals) (ops : List Op) :
    (∀ r ∈ (stateAfter x ops).outbox.rows, r.status.isTerminal = true →
      (∀ s ∈ (stateAfter x ops).snapshots.rows, s.outboxId ≠ r.outboxId) ∧
      (∀ d ∈ (stateAfter x ops).dependencies.rows, d.ownerKind = .outbox →
        d.ownerId = r.outboxId → d.releasedAt.isSome = true) ∧
      (r.activeAttempt = none ∧ r.workerId = none ∧ r.leaseUntil = none ∧
        r.nextAttemptAt = none) ∧
      ∀ later, (stateAfter x (ops ++ later)).outboxRow? r.outboxId = some r) ∧
    ∀ before item allocate write now after row,
      ops = before ++ .createOutboxItem item allocate (some write) now :: after →
      (step x (stateAfter x before) (.createOutboxItem item allocate (some write) now)).2 =
        .ok (.created (.inserted row)) →
      ∀ r, (stateAfter x ops).outboxRow? row.outboxId = some r → r.status.isTerminal = false →
        ∀ s, (s ∈ (stateAfter x ops).snapshots.rows ∧ s.outboxId = row.outboxId) ↔
          s = write.row row.outboxId row.attemptNumber (nowIso now) := by
  have hsettled := settledStore_stateAfter x ops
  refine ⟨?_, ?_⟩
  · intro r hr ht
    refine ⟨?_, ?_, ⟨?_, hsettled.unclaimed r hr ht⟩, ?_⟩
    · intro s hs hid
      obtain ⟨r', hr', hid', hlive⟩ := hsettled.snapshots s hs
      rw [outbox_eq_of_id _ hr' hr (hid'.trans hid), ht] at hlive
      cases hlive
    · intro d hd hkind hid
      obtain ⟨r', hr', hid', -, hreleased⟩ := hsettled.dependencies d hd hkind
      rw [outbox_eq_of_id _ hr' hr (hid'.trans hid)] at hreleased
      exact hreleased ht
    · -- the table admits a reservation on rows in progress only
      have hcheck : r.check = true := (stateAfter x ops).outbox.checked r hr
      simp only [OutboxRow.check, Bool.and_eq_true, Bool.or_eq_true, decide_eq_true_eq,
        Option.isNone_iff_eq_none] at hcheck
      rcases hcheck.1.1.2 with hnone | hprogress
      · exact hnone
      · rw [hprogress] at ht
        cases ht
    · intro later
      refine (outboxRow?_eq_some_iff _ _ _).mpr ⟨?_, rfl⟩
      rw [stateAfter, run_append]
      exact terminal_final x hr ht later
  · rintro before item allocate write now after row rfl hans r hrow hlive s
    obtain ⟨c, hc, hrun⟩ := run_of_answer rfl hans
    cases hc
    obtain ⟨hr, hid⟩ := (outboxRow?_eq_some_iff _ _ _).mp hrow
    -- the snapshot is there when the row is inserted, and afterwards
    have hkept : write.row row.outboxId row.attemptNumber (nowIso now) ∈
        (stateAfter x (before ++ .createOutboxItem item allocate (some write) now ::
          after)).snapshots.rows := by
      rcases run_create hrun with ⟨row', heq, -⟩ | ⟨row', stored, heq, hc, -, hsnaps⟩
      · cases heq
      cases heq
      have hmem : write.row row.outboxId row.attemptNumber (nowIso now) ∈
          (step x (stateAfter x before)
            (.createOutboxItem item allocate (some write) now)).1.snapshots.rows := by
        rw [hsnaps, hc.snapshot_eq]
        exact mem_append_right _ (mem_singleton.mpr rfl)
      have hrest : stateAfter x (before ++ .createOutboxItem item allocate (some write) now ::
          after) = run (step x) (step x (stateAfter x before)
            (.createOutboxItem item allocate (some write) now)).1 after := by
        rw [stateAfter, run_append]
        rfl
      rw [hrest] at hr ⊢
      rcases snapshot_kept x hmem after with hkept | ⟨r', hr', hid', ht⟩
      · exact hkept
      · rw [outbox_eq_of_id _ hr' hr (hid'.trans hid.symm), hlive] at ht
        cases ht
    constructor
    · rintro ⟨hs, hsid⟩
      exact snapshot_eq_of_id _ hs hkept hsid
    · rintro rfl
      exact ⟨hkept, rfl⟩

namespace Sample

def snapshot : OutboxDispatchSnapshotWrite := { kind := .direct, context := [] }

/-- The sample row with a snapshot, dispatched and sent. -/
def sent : List Op :=
  [.append event (clock 0), .createOutboxItem item false (some snapshot) (clock 1),
    .markOutbox (.sent "outbox" (some "receipt") (some 1) none) (clock 2)]

end Sample

open Sample in
theorem terminal_settlement_sent :
    ∃ r ∈ (stateAfter externals sent).outbox.rows, r.status = .sent ∧
      (∀ s ∈ (stateAfter externals sent).snapshots.rows, s.outboxId ≠ r.outboxId) ∧
      r.workerId = none := by
  refine ⟨_, mem_cons_self, rfl, ?_⟩
  have h := (terminal_settlement externals sent).1 _ mem_cons_self rfl
  exact ⟨h.1, h.2.2.1.2.1⟩

/-! ## The declared state machine -/

/-- The call dead-letters a queued row: its guard admits `queued`, which
`OUTBOX_TRANSITIONS` does not let go to `dead_lettered`. -/
def DeadLettersQueued (db : Db) : Op → Prop
  | .finalizeOutboxTerminal c =>
    c.terminalStatus = .deadLettered ∧
      ∃ r ∈ db.outbox.rows, c.meets r = true ∧ r.status = .queued
  | _ => False

theorem TerminalOutboxFinalization.terminalStatus_cases (c : TerminalOutboxFinalization) :
    c.terminalStatus = .deadLettered ∨ c.terminalStatus = .cancelled ∨
      c.terminalStatus = .abandoned := by
  unfold terminalStatus
  cases c.lifecycleReceipt.status <;> simp [ReceiptStatus.errorTerminal]

/-- Every other change of a status is declared. -/
theorem Change.declared {op : Op} (hr : r ∈ db.outbox.rows)
    (h : Change db.outbox.rows op r r') (hop : ¬DeadLettersQueued db op)
    (hne : r'.status ≠ r.status) : validateOutboxTransition r.status r'.status = true := by
  cases h with
  | claim h =>
    rcases OutboxRow.claimable_status h with hst | hst | hst
    · cases hs : r.status <;> rw [hs] at hst <;> first | rfl | cases hst
    · exact absurd hst.symm hne
    · rw [hst]
      rfl
  | reserve h => exact absurd rfl hne
  | renew h => exact absurd rfl hne
  | release h hactive hst =>
    rename_i o w st now
    simp only [OutboxRow.ownedBy, Bool.and_eq_true, decide_eq_true_eq] at h
    rw [h.2]
    cases st <;> first | rfl | cases hst
  | mark h => exact MarkCall.update_valid _ h
  | finalizeSent h =>
    rcases OutboxRow.finalizable_status h with hst | hst <;> rw [hst] <;> rfl
  | finalizeTerminal h hworker =>
    rename_i c
    have hterm := c.terminalStatus_cases
    rcases OutboxRow.finalizable_status h with hst | hst
    · rcases hterm with ht | ht | ht
      · refine absurd ⟨ht, r, hr, ?_, hst⟩ hop
        rw [TerminalOutboxFinalization.meets, Bool.and_eq_true]
        exact ⟨h, hworker⟩
      · rw [hst, ht]
        rfl
      · rw [hst, ht]
        rfl
    · rcases hterm with ht | ht | ht <;> rw [hst, ht] <;> rfl
  | retire hst h =>
    cases hs : r.status <;> rw [hs] at hst <;> first | rfl | cases hst
  | cancel hst h =>
    cases hs : r.status <;> rw [hs] at hst <;> first | rfl | cases hst

theorem Rewrites.row_eq {op : Op} (h : Rewrites op db db' f) (hr : r ∈ db.outbox.rows)
    (hr' : r' ∈ db'.outbox.rows) (hid : r'.outboxId = r.outboxId) : r' = f r := by
  rw [h.rows, mem_map] at hr'
  obtain ⟨r0, hr0, rfl⟩ := hr'
  rw [outbox_eq_of_id db.outbox hr0 hr ((h.keys hr0).1.symm.trans hid)]

theorem step_declared (x : Externals) {op : Op} (hop : ¬DeadLettersQueued db op)
    (hr : r ∈ db.outbox.rows) (hr' : r' ∈ (step x db op).1.outbox.rows)
    (hid : r'.outboxId = r.outboxId) (hne : r'.status ≠ r.status) :
    validateOutboxTransition r.status r'.status = true := by
  cases step_outbox x db op with
  | rewritten f h owned =>
    obtain rfl := h.row_eq hr hr' hid
    rcases h.change r hr with heq | hc
    · rw [heq] at hne
      exact absurd rfl hne
    · exact hc.declared hr hop hne
  | created row snapshot h rows snapshots =>
    have hsame : r ∈ (step x db op).1.outbox.rows := by
      rw [rows]
      exact mem_append_left _ hr
    rw [outbox_eq_of_id _ hr' hsame hid] at hne
    exact absurd rfl hne

/-- The storage calls refine the declared state machine except where `finalize_outbox_terminal`
dead-letters a queued row: without such a call every status change is declared, and each that
commits makes an undeclared one. -/
theorem outbox_transitions_declared (x : Externals) (ops : List Op) :
    ((∀ before op after, ops = before ++ op :: after →
        ¬DeadLettersQueued (stateAfter x before) op) →
      ∀ before op after, ops = before ++ op :: after →
        ∀ r ∈ (stateAfter x before).outbox.rows,
          ∀ r' ∈ (step x (stateAfter x before) op).1.outbox.rows, r'.outboxId = r.outboxId →
            r'.status ≠ r.status → validateOutboxTransition r.status r'.status = true) ∧
    ∀ before op after, ops = before ++ op :: after →
      DeadLettersQueued (stateAfter x before) op →
      (step x (stateAfter x before) op).2 = .ok (.flag true) →
        ∃ r ∈ (stateAfter x before).outbox.rows,
          ∃ r' ∈ (step x (stateAfter x before) op).1.outbox.rows, r'.outboxId = r.outboxId ∧
            r'.status ≠ r.status ∧ validateOutboxTransition r.status r'.status = false := by
  refine ⟨?_, ?_⟩
  · intro hops before op after heq r hr r' hr' hid hne
    exact step_declared x (hops before op after heq) hr hr' hid hne
  · intro before op after heq hop hans
    cases op with
    | finalizeOutboxTerminal c =>
      obtain ⟨hdead, r, hr, hmeets, hst⟩ := hop
      obtain ⟨b, -, hrun⟩ := run_of_answer rfl hans
      have hrew := run_finalizeTerminal hrun
      refine ⟨r, hr, r.finalizeTerminal c.terminalStatus c.lifecycleReceipt.failureKind
        c.lifecycleReceipt.createdAt.isoformat c.lifecycleReceipt.receiptId, ?_, ?_⟩
      · rw [hrew.rows]
        exact mem_map.mpr ⟨r, hr, if_pos hmeets⟩
      · refine ⟨rfl, ?_, ?_⟩
        · show c.terminalStatus ≠ r.status
          rw [hdead, hst]
          decide
        · rw [hdead, hst]
          rfl
    | _ => exact hop.elim

namespace Sample

def queued : List Op :=
  created ++ [.markOutbox (.queued "outbox" none (some 1) none) (clock 2)]

/-- The lifecycle receipt of a deferred failure. -/
def deadLetter : DeliveryReceipt :=
  { receiptId := "dead", eventId := "event", deliveryPlanId := "plan", targetAdapter := "radio"
    status := .deadLettered, receiptKind := .lifecycle, outboxId := some "outbox"
    createdAt := clock 3 }

def deadLettered : Op :=
  .finalizeOutboxTerminal { lifecycleReceipt := deadLetter, valid := by decide }

end Sample

open Sample in
/-- A deferred failure dead-letters the queued sample row. -/
theorem queued_dead_lettered :
    ∃ r ∈ (stateAfter externals queued).outbox.rows,
      ∃ r' ∈ (step externals (stateAfter externals queued) deadLettered).1.outbox.rows,
        r'.outboxId = r.outboxId ∧ r.status = .queued ∧ r'.status = .deadLettered ∧
          validateOutboxTransition r.status r'.status = false :=
  ⟨_, mem_cons_self, _, mem_cons_self, rfl, rfl, rfl, rfl⟩

open Sample in
/-- The run up to the hand-off makes declared changes only. -/
theorem outbox_transitions_declared_queued :
    ∀ r ∈ (stateAfter externals created).outbox.rows,
      ∀ r' ∈ (stateAfter externals queued).outbox.rows, r'.outboxId = r.outboxId →
        r'.status ≠ r.status → validateOutboxTransition r.status r'.status = true := by
  refine (outbox_transitions_declared externals queued).1 ?_ created _ [] rfl
  intro before op after heq
  have hmem : op ∈ queued := heq ▸ mem_append_right _ mem_cons_self
  simp only [queued, created, cons_append, nil_append, mem_cons, not_mem_nil, or_false] at hmem
  rcases hmem with rfl | rfl | rfl <;> exact id

/-! ## The schedule of waiting retries -/

/-- Every waiting retry has a schedule. -/
def RetriesScheduled (db : Db) : Prop :=
  ∀ r ∈ db.outbox.rows, r.status = .retryWait → r.nextAttemptAt ≠ none

/-- The call releases a claim to `retry_wait` whose row has no schedule: the claim
cleared it and the release does not set one. -/
def ReleasesUnscheduled (db : Db) : Op → Prop
  | .releaseOutboxClaim o w .retryWait _ =>
    ∃ r ∈ db.outbox.rows, r.ownedBy o w = true ∧ r.activeAttempt = none ∧
      r.nextAttemptAt = none
  | _ => False

theorem Change.scheduled {op : Op} (hr : r ∈ db.outbox.rows)
    (h : Change db.outbox.rows op r r') (hop : ¬ReleasesUnscheduled db op)
    (hwait : r'.status = .retryWait) : r'.nextAttemptAt ≠ none := by
  cases h with
  | claim h => cases hwait
  | reserve h =>
    simp only [OutboxRow.reservable, Bool.and_eq_true, decide_eq_true_eq] at h
    rw [show r.status = .retryWait from hwait] at h
    cases h.1.1.1.2
  | renew h =>
    simp only [OutboxRow.ownedBy, Bool.and_eq_true, decide_eq_true_eq] at h
    rw [show r.status = .retryWait from hwait] at h
    cases h.2
  | release h hactive hst =>
    rename_i o w st now
    obtain rfl : st = .retryWait := hwait
    intro hnone
    exact hop ⟨r, hr, h, hactive, hnone⟩
  | mark h =>
    rename_i m now
    have hschedule := m.update_schedule
    rw [show m.update.newStatus = .retryWait from hwait] at hschedule
    intro hnone
    rw [show m.update.nextAttemptAt = none from hnone] at hschedule
    cases hschedule
  | finalizeSent h => cases hwait
  | finalizeTerminal h hworker =>
    rename_i c
    have hterm := c.terminalStatus_isTerminal
    rw [show c.terminalStatus = .retryWait from hwait] at hterm
    cases hterm
  | retire hst h => cases hwait
  | cancel hst h => cases hwait

theorem retriesScheduled_step (x : Externals) (db : Db) (op : Op) (h : RetriesScheduled db)
    (hop : ¬ReleasesUnscheduled db op) : RetriesScheduled (step x db op).1 := by
  intro r' hr' hwait
  cases step_outbox x db op with
  | rewritten f hf owned =>
    rw [hf.rows, mem_map] at hr'
    obtain ⟨r, hr, rfl⟩ := hr'
    rcases hf.change r hr with heq | hc
    · rw [heq] at hwait ⊢
      exact h r hr hwait
    · exact hc.scheduled hr hop hwait
  | created row snapshot hc rows snapshots =>
    rw [rows, mem_append, mem_singleton] at hr'
    rcases hr' with hr' | rfl
    · exact h r' hr' hwait
    · rcases hc.status_cases with hst | hst <;> rw [hst] at hwait <;> cases hwait

theorem step_release (x : Externals) {o w : String} (now : Datetime)
    (hr : r ∈ db.outbox.rows) (howned : r.ownedBy o w = true) (hactive : r.activeAttempt = none) :
    r.releaseClaim .retryWait (nowIso now) ∈
      (step x db (.releaseOutboxClaim o w .retryWait now)).1.outbox.rows := by
  have hguard : (fun s : OutboxRow => s.ownedBy o w && s.activeAttempt.isNone) r = true := by
    simp [howned, hactive]
  obtain ⟨t, ht⟩ := Table.update_some (t := db.outbox)
    (p := fun s : OutboxRow => s.ownedBy o w && s.activeAttempt.isNone)
    (f := OutboxRow.releaseClaim .retryWait (nowIso now))
    (by
      intro s hs hp
      have hcheck : s.check = true := db.outbox.checked s hs
      rw [Bool.and_eq_true, Option.isNone_iff_eq_none] at hp
      show (s.releaseClaim .retryWait (nowIso now)).check = true
      simp only [OutboxRow.check, OutboxRow.releaseClaim, Bool.and_eq_true] at hcheck ⊢
      refine ⟨⟨⟨hcheck.1.1.1, ?_⟩, hcheck.1.2⟩, hcheck.2⟩
      simp [hp.2])
    (by
      intro s s'
      split <;> split <;> rfl)
  have hrun : (releaseOutboxClaim o w .retryWait now).run db =
      .ok ((), { db with outbox := t }) := by
    simp only [releaseOutboxClaim, run_bind, run_require, run_pure]
    exact ⟨(), db, ⟨rfl, rfl⟩, _, _, run_updateTable.mpr ⟨t, ht, rfl, rfl⟩, trivial, rfl⟩
  have hexec : (exec x (.releaseOutboxClaim o w .retryWait now)).run db =
      .ok (.unit, { db with outbox := t }) := by
    simp only [exec, answering, run_bind, run_pure]
    exact ⟨_, _, hrun, trivial, rfl⟩
  rw [step, commit_ok hexec]
  exact (Table.mem_update ht).mpr ⟨r, hr, (if_pos hguard).symm⟩

/-- Waiting retries have a schedule along a run exactly when no call of it
releases an unscheduled claim to `retry_wait`. -/
theorem retries_scheduled_iff (x : Externals) (ops : List Op) :
    (∀ before after, ops = before ++ after → RetriesScheduled (stateAfter x before)) ↔
      ∀ before op after, ops = before ++ op :: after →
        ¬ReleasesUnscheduled (stateAfter x before) op := by
  constructor
  · rintro h before op after rfl hop
    have hafter := h (before ++ [op]) after (by rw [append_assoc]; rfl)
    cases op with
    | releaseOutboxClaim o w st now =>
      cases st with
      | retryWait =>
        obtain ⟨r, hr, howned, hactive, hnone⟩ := hop
        rw [stateAfter, run_snoc] at hafter
        exact hafter _ (step_release x now hr howned hactive) rfl hnone
      | _ => exact hop
    | _ => exact hop
  · rintro hops before after rfl
    refine run_invariant_of (fun db op => retriesScheduled_step x db op)
      (fun r hr => absurd hr not_mem_nil) before ?_
    rintro pre op post rfl
    exact hops pre op (post ++ after) (by rw [append_assoc]; rfl)

namespace Sample

/-- Work that no worker holds. -/
def pending : DeliveryOutboxItem :=
  { outboxId := "outbox", eventId := "event", routeId := "route", deliveryPlanId := "plan"
    targetAdapter := "radio" }

def handedBack : List Op :=
  [.append event (clock 0), .createOutboxItem pending false none (clock 1),
    .claimDueOutboxItems "2026-01-01T00:02:00+00:00" "retry" 60 ["outbox"] {},
    .releaseOutboxClaim "outbox" "retry" .retryWait (clock 3)]

end Sample

open Sample in
/-- A waiting retry without a schedule. -/
theorem retry_wait_unscheduled :
    ∃ r ∈ (stateAfter externals handedBack).outbox.rows,
      r.status = .retryWait ∧ r.nextAttemptAt = none :=
  ⟨_, mem_cons_self, rfl, rfl⟩

end Medre.Storage
