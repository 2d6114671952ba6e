import Medre.Storage.Admitted

/-! # Operator decisions (`_operator_decision.py`) along any run of the store

A decision id is bound by its first commit and by nothing after it. What a cancellation writes is
said by `Cancelled`, table by table. -/

namespace Medre.Storage

open List Medre.Framework Tx

/-! ## One call -/

def Db.decision? (db : Db) (decisionId : String) : Option DecisionRow :=
  db.decisions.rows.find? fun o => o.decisionId = decisionId

/-- The row a decision is about stands as it was observed, in nobody's hands, and above every
other row of its delivery. -/
structure Observes (d : DecisionRequest) (rows : List OutboxRow) (r : OutboxRow) : Prop where
  mem : r ∈ rows
  outboxId : r.outboxId = d.outboxId
  identity : r.identity = d.identity
  generation : r.attemptNumber = d.expectedGeneration
  status : r.status = d.expectedStatus
  updatedAt : r.updatedAt = d.expectedUpdatedAt
  unclaimed : r.unclaimed = true
  newest : ∀ s ∈ rows, s.outboxId ≠ r.outboxId → s.identity = r.identity →
    s.generation < r.attemptNumber

structure Cancelled (d : DecisionRequest) (now : String) (db db' : Db) : Prop where
  outbox : db'.outbox.rows =
    db.outbox.rows.map fun r => if r.outboxId = d.outboxId then r.cancel now else r
  dependencies : db'.dependencies.rows = db.dependencies.rows.map fun p =>
    if p.eventId = d.identity.eventId && p.ownerKind = .outbox && p.ownerId = d.outboxId &&
      p.releasedAt.isNone then release now p else p
  snapshots : db'.snapshots.rows = db.snapshots.rows.filter fun s => s.outboxId ≠ d.outboxId
  decisions : db'.decisions.rows = db.decisions.rows ++ [d.row .cancelUnstarted now]
  others : ∀ t, t ∉ [.outbox, .dependencies, .snapshots, .decisions] → db'.table t = db.table t

variable {db db' : Db} {now : Datetime} {a : Bool}

theorem competingGeneration_iff {d : DecisionRequest} :
    db.competingGeneration d = false ↔ ∀ s ∈ db.outbox.rows, s.outboxId ≠ d.outboxId →
      s.identity = d.identity → s.generation < d.expectedGeneration := by
  simp only [Db.competingGeneration, any_eq_false, Bool.and_eq_true, decide_eq_true_eq,
    not_and, not_le, OutboxRow.identity, DeliveryIdentity.of]
  obtain ⟨e, p, ad, ch, hch⟩ := d.identity
  simp only [DeliveryIdentity.mk.injEq]
  refine forall₂_congr fun s _ => ?_
  have hchannel : orNone s.targetChannel = ch ↔ s.targetChannel.getD "" = ch.getD "" := by
    rw [← orNone_eq_iff, orNone_of_ne hch]
  tauto

theorem observes_iff {d : DecisionRequest} {r : OutboxRow} (hr : r ∈ db.outbox.rows) :
    Observes d db.outbox.rows r ↔ r.identity = d.identity ∧
      (r.cancellable d = true ∧ r.unclaimed = true) ∧ db.competingGeneration d = false := by
  simp only [OutboxRow.cancellable, Bool.and_eq_true, decide_eq_true_eq,
    Option.isNone_iff_eq_none, competingGeneration_iff]
  constructor
  · intro h
    have hactive : r.activeAttempt = none := by
      have := h.unclaimed
      simp only [OutboxRow.unclaimed, Bool.and_eq_true, Option.isNone_iff_eq_none] at this
      exact this.1.1.1
    refine ⟨h.identity, ⟨⟨⟨⟨⟨h.outboxId, hactive⟩, h.generation⟩, h.status⟩, h.updatedAt⟩,
      h.unclaimed⟩, ?_⟩
    rw [← h.outboxId, ← h.identity, ← h.generation]
    exact h.newest
  · rintro ⟨hident, ⟨⟨⟨⟨⟨hid, -⟩, hgen⟩, hstatus⟩, hupdated⟩, hunclaimed⟩, hnewest⟩
    refine ⟨hr, hid, hident, hgen, hstatus, hupdated, hunclaimed, ?_⟩
    rw [hid, hident, hgen]
    exact hnewest

/-- A cancellation that does not raise repeats a decision and writes nothing, or cancels the
row it observed. -/
theorem run_cancelUnstartedDelivery {d : CancelUnstartedDecision}
    (h : (cancelUnstartedDelivery d now).run db = .ok (a, db')) :
    (a = false ∧ db' = db ∧ ∃ old, db.decision? d.decisionId = some old ∧
      old.sameRequest (d.toDecisionRequest.row .cancelUnstarted (nowIso now)) = true) ∨
    (a = true ∧ db.decision? d.decisionId = none ∧
      (∃ r, Observes d.toDecisionRequest db.outbox.rows r) ∧
      Cancelled d.toDecisionRequest (nowIso now) db db') := by
  have hframe : ∀ t, t ∉ [.outbox, .dependencies, .snapshots, .decisions] →
      db'.table t = db.table t :=
    follows_cancelUnstartedDelivery (footprint_rules _ fun _ => False) (List.Subset.refl _)
      db a db' h
  rcases run_decideOnce h with ⟨rfl, rfl, hold⟩ | ⟨rfl, hnone, r, hr, hident, _, h, haudit⟩
  · exact .inl ⟨rfl, rfl, hold⟩
  simp only [run_bind, run_query, run_require] at h
  obtain ⟨_, _, ⟨hguard, rfl⟩, _, _, ⟨rfl, rfl⟩, _, _, ⟨hcompeting, rfl⟩, n, db1, hupd, _, _,
    ⟨-, rfl⟩, _, db2, hsettle, hretire⟩ := h
  have hobserves : Observes d.toDecisionRequest db.outbox.rows r := by
    refine (observes_iff hr).mpr ⟨hident, ?_, ?_⟩
    · exact Bool.and_eq_true_iff.mp hguard
    · exact Bool.not_eq_true' _ ▸ hcompeting
  refine .inr ⟨rfl, hnone, ⟨r, hobserves⟩, ?_⟩
  obtain ⟨t, hu, -, rfl⟩ := run_updateTable.mp hupd
  simp only [settleOutboxContentDependency, run_bind, run_pure] at hsettle
  obtain ⟨_, _, hrelease, -, rfl⟩ := hsettle
  obtain ⟨t', hu', -, rfl⟩ := run_updateTable.mp hrelease
  simp only [retireOutboxSnapshot, run_modify] at hretire
  obtain rfl := hretire
  simp only [insertDecision, run_bind, run_requireEvent] at haudit
  obtain ⟨_, _, hinsert, -, rfl⟩ := haudit
  obtain ⟨t'', hu'', rfl⟩ := run_insertInto.mp hinsert
  refine ⟨?_, Table.rows_update hu', ?_, Table.rows_insert hu'', hframe⟩
  · -- the guarded row is the one that was read
    refine (Table.rows_update hu).trans (map_congr_left fun s hs => ?_)
    by_cases hid : s.outboxId = d.outboxId
    · have hsr : s = r := outbox_eq_of_id db.outbox hs hr (hid.trans hobserves.outboxId.symm)
      rw [if_pos hid, if_pos (hsr ▸ (Bool.and_eq_true_iff.mp hguard).1)]
    · rw [if_neg hid]
      simp [OutboxRow.cancellable, hid]
  · refine filter_congr fun s _ => ?_
    simp

theorem run_recordExactTargetDecision {d : ExactTargetDecision}
    (h : (recordExactTargetDecision d now).run db = .ok (a, db')) :
    (a = false ∧ db' = db ∧ ∃ old, db.decision? d.decisionId = some old ∧
      old.sameRequest (d.toDecisionRequest.row d.action.decision (nowIso now)) = true) ∨
    (a = true ∧ db.decision? d.decisionId = none ∧
      (∃ r, Observes d.toDecisionRequest db.outbox.rows r) ∧
      db'.decisions.rows =
        db.decisions.rows ++ [d.toDecisionRequest.row d.action.decision (nowIso now)] ∧
      ∀ t, t ≠ .decisions → db'.table t = db.table t) := by
  have hframe : ∀ t, t ∉ [TableName.decisions] → db'.table t = db.table t :=
    follows_recordExactTargetDecision (footprint_rules _ fun _ => False) mem_cons_self db a db' h
  rcases run_decideOnce h with ⟨rfl, rfl, hold⟩ | ⟨rfl, hnone, r, hr, hident, _, h, haudit⟩
  · exact .inl ⟨rfl, rfl, hold⟩
  simp only [run_bind, run_query, run_require] at h
  obtain ⟨_, _, ⟨-, rfl⟩, _, _, ⟨-, rfl⟩, _, _, ⟨hfree, rfl⟩, _, _, ⟨hguard, rfl⟩, _, _,
    ⟨rfl, rfl⟩, hcompeting, rfl⟩ := h
  simp only [insertDecision, run_bind, run_requireEvent] at haudit
  obtain ⟨_, _, hinsert, -, rfl⟩ := haudit
  obtain ⟨t, hu, rfl⟩ := run_insertInto.mp hinsert
  refine .inr ⟨rfl, hnone, ⟨r, ?_⟩, Table.rows_insert hu, fun t ht => hframe t (by simpa)⟩
  refine (observes_iff hr).mpr ⟨hident, ⟨hguard, ?_⟩, ?_⟩
  · exact (Bool.and_eq_true_iff.mp hfree).2
  · exact Bool.not_eq_true' _ ▸ hcompeting

theorem decision?_eq_none {id : String} (h : db.decision? id = none) :
    ∀ o ∈ db.decisions.rows, o.decisionId ≠ id := by
  intro o ho
  simpa using List.find?_eq_none.mp h o ho

theorem clash_cancel {p : OutboxRow → Bool} {t : String} (r s : OutboxRow) :
    (if p r then r.cancel t else r).clash (if p s then s.cancel t else s) = r.clash s := by
  split <;> split <;> rfl

theorem cancel_of_observes {d : CancelUnstartedDecision} {r : OutboxRow}
    (hfresh : db.decision? d.decisionId = none) (hr : Observes d.toDecisionRequest db.outbox.rows r)
    (hevent : db.hasEvent d.identity.eventId = true) :
    ∃ db', (cancelUnstartedDelivery d now).run db = .ok (true, db') := by
  obtain ⟨hident, ⟨hguard, hunclaimed⟩, hcompeting⟩ := (observes_iff hr.mem).mp hr
  have hfound : db.outboxRow? d.outboxId = some r :=
    (outboxRow?_eq_some_iff db d.outboxId r).mpr ⟨hr.mem, hr.outboxId⟩
  have hguards : ∀ s : OutboxRow, s.cancellable d.toDecisionRequest = true →
      s.outboxId = d.outboxId ∧ s.activeAttempt = none := by
    intro s hs
    simp only [OutboxRow.cancellable, Bool.and_eq_true, decide_eq_true_eq,
      Option.isNone_iff_eq_none] at hs
    exact hs.1.1.1
  -- the three writes before the audit row break no constraint
  obtain ⟨t, hu⟩ : ∃ t, db.outbox.update (OutboxRow.cancellable d.toDecisionRequest)
      (OutboxRow.cancel (nowIso now)) = some t := by
    refine Table.update_some ?_ (clash_cancel)
    intro s hs hp
    have hc : s.check = true := db.outbox.checked s hs
    have hactive := (hguards s hp).2
    show (s.cancel (nowIso now)).check = true
    simp only [OutboxRow.check, OutboxRow.cancel, Bool.and_eq_true, hactive] at hc ⊢
    exact ⟨⟨⟨hc.1.1.1, rfl⟩, hc.1.2⟩, hc.2⟩
  have hone : db.outbox.rows.countP (OutboxRow.cancellable d.toDecisionRequest) = 1 := by
    refine Nat.le_antisymm (db.outbox.countP_le_one ?_) ?_
    · intro s s' hs hs'
      have hid := (hguards s hs).1.trans (hguards s' hs').1.symm
      simp [outboxConstraint, OutboxRow.clash, hid]
    · exact countP_pos_iff.mpr ⟨r, hr.mem, hguard⟩
  obtain ⟨t', hu'⟩ : ∃ t', db.dependencies.update (fun p => p.eventId = d.identity.eventId &&
      p.ownerKind = .outbox && p.ownerId = d.outboxId && p.releasedAt.isNone)
      (release (nowIso now)) = some t' := by
    refine Table.update_some (fun p hp _ => db.dependencies.checked p hp) ?_
    intro p q
    split <;> split <;> rfl
  obtain ⟨t'', hu''⟩ : ∃ t'', db.decisions.insert
      (d.toDecisionRequest.row .cancelUnstarted (nowIso now)) = some t'' := by
    refine Table.insert_some ?_ ?_
    · have hclaimable := d.expectedStatus_isClaimable
      have hgen : 0 ≤ d.expectedGeneration := by
        have hc : r.check = true := db.outbox.checked r hr.mem
        simp only [OutboxRow.check, Bool.and_eq_true, decide_eq_true_eq] at hc
        rw [← hr.generation]
        exact hc.1.1.1.1
      simp only [decisionConstraint, keyed, DecisionRequest.row, Bool.and_eq_true,
        Bool.or_eq_true, decide_eq_true_eq]
      refine ⟨?_, hgen⟩
      cases hstatus : d.expectedStatus <;> rw [hstatus] at hclaimable <;>
        first | exact .inl rfl | exact .inr rfl | cases hclaimable
    · intro o ho
      exact decide_eq_false (decision?_eq_none hfresh o ho)
  refine ⟨{ db with outbox := t, dependencies := t', decisions := t'',
                    snapshots := db.snapshots.delete fun s => s.outboxId = d.outboxId }, ?_⟩
  simp only [cancelUnstartedDelivery, decideOnce, run_bind, run_query]
  refine ⟨none, db, ⟨hfresh, rfl⟩, ?_⟩
  simp only [run_bind, run_query]
  refine ⟨some r, db, ⟨hfound, rfl⟩, ?_⟩
  simp only [run_bind, run_query, run_require, run_pure,
    settleOutboxContentDependency, retireOutboxSnapshot, run_modify, insertDecision,
    run_requireEvent]
  refine ⟨(), db, ⟨decide_eq_true hident, rfl⟩, (), _, ⟨(), db, ⟨?_, rfl⟩, false, db,
    ⟨hcompeting, rfl⟩, (), db, ⟨rfl, rfl⟩, 1, { db with outbox := t },
    run_updateTable.mpr ⟨t, hu, hone.symm, rfl⟩, (), _, ⟨rfl, rfl⟩, (),
    { db with outbox := t, dependencies := t' },
    ⟨_, _, run_updateTable.mpr ⟨t', hu', rfl, rfl⟩, trivial, rfl⟩, rfl⟩, (), _,
    ⟨(), _, run_insertInto.mpr ⟨t'', hu'', rfl⟩, hevent, rfl⟩, trivial, rfl⟩
  rw [hguard, hunclaimed]
  rfl

/-! ## One call of a run -/

/-- The audit row of a decision call. -/
def Op.decisionRow : Op → Option DecisionRow
  | .cancelUnstartedDelivery d now =>
    some (d.toDecisionRequest.row .cancelUnstarted (nowIso now))
  | .recordExactTargetDecision d now =>
    some (d.toDecisionRequest.row d.action.decision (nowIso now))
  | _ => none

variable {x : Externals} {op : Op} {row : DecisionRow}

theorem step_decision (hop : op.decisionRow = some row) :
    ((step x db op).2 = .ok (.flag true) ∧ db.decision? row.decisionId = none ∧
      (step x db op).1.decisions.rows = db.decisions.rows ++ [row]) ∨
    ((step x db op).2 = .ok (.flag false) ∧ (step x db op).1 = db ∧
      ∃ old, db.decision? row.decisionId = some old ∧ old.sameRequest row = true) ∨
    ((∃ e, (step x db op).2 = .error e) ∧ (step x db op).1 = db) := by
  cases hans : (step x db op).2 with
  | error e => exact .inr (.inr ⟨⟨e, rfl⟩, step_of_error hans⟩)
  | ok ans =>
    cases op <;> try cases hop
    · obtain ⟨b, rfl, hrun⟩ := run_of_answer rfl hans
      rcases run_cancelUnstartedDelivery hrun with ⟨rfl, hdb, hold⟩ | ⟨rfl, hnone, -, hdone⟩
      · exact .inr (.inl ⟨rfl, hdb, hold⟩)
      · exact .inl ⟨rfl, hnone, hdone.decisions⟩
    · obtain ⟨b, rfl, hrun⟩ := run_of_answer rfl hans
      rcases run_recordExactTargetDecision hrun with
        ⟨rfl, hdb, hold⟩ | ⟨rfl, hnone, -, hrows, -⟩
      · exact .inr (.inl ⟨rfl, hdb, hold⟩)
      · exact .inl ⟨rfl, hnone, hrows⟩

theorem step_repeated (hop : op.decisionRow = some row) {old : DecisionRow}
    (hold : db.decision? row.decisionId = some old) (hsame : old.sameRequest row = true) :
    (step x db op).2 = .ok (.flag false) := by
  have hrun : ∀ {request : DecisionRequest} {decided : OutboxRow → StoreTx Unit},
      request.decisionId = row.decisionId →
      (decideOnce request row decided).run db = .ok (false, db) := by
    intro request decided hid
    simp only [decideOnce, run_bind, run_query]
    refine ⟨some old, db, ⟨hid ▸ hold, rfl⟩, ?_⟩
    simp only [run_bind, run_require, run_pure]
    exact ⟨(), db, ⟨hsame, rfl⟩, trivial, rfl⟩
  cases op <;> try cases hop
  all_goals rw [step_of_run rfl (hrun rfl)]

theorem decisions_grow (x : Externals) (db : Db) (op : Op) :
    db.decisions.rows <+: (step x db op).1.decisions.rows := by
  cases hop : op.decisionRow with
  | some row =>
    rcases step_decision hop with ⟨-, -, hrows⟩ | ⟨-, hdb, -⟩ | ⟨-, hdb⟩
    · rw [hrows]
      exact prefix_append _ _
    · exact ⟨[], by rw [hdb, append_nil]⟩
    · exact ⟨[], by rw [hdb, append_nil]⟩
  | none =>
    have hoff : .decisions ∉ op.writes := by
      cases op <;> first | cases hop; done | simp [Op.writes, eventTables]
    have hsame : (step x db op).1.decisions = db.decisions := step_table x db op hoff
    exact hsame ▸ prefix_rfl

theorem run_decisions_grow (x : Externals) {db : Db} (ops : List Op) :
    db.decisions.rows <+: (run (step x) db ops).decisions.rows :=
  run_evolves (I := fun _ => True) (R := fun a b : Db => a.decisions.rows <+: b.decisions.rows)
    (fun _ => prefix_rfl) (fun h h' => h.trans h') (fun _ _ h => h)
    (fun db op _ => decisions_grow x db op) trivial ops

theorem decision?_of_mem (h : row ∈ db.decisions.rows) :
    db.decision? row.decisionId = some row := by
  exact find?_of_unique h (decide_eq_true rfl) fun o ho hid =>
    eq_of_key db.decisions ho h (of_decide_eq_true hid)

/-- A committed decision's audit row stays, no other call on its id is answered `True`, and one
with the same fields is answered `False`. -/
theorem decision_kept (hop : op.decisionRow = some row)
    (htrue : (step x db op).2 = .ok (.flag true)) (later : List Op) :
    (run (step x) (step x db op).1 later).decision? row.decisionId = some row ∧
      ∀ op' row', op'.decisionRow = some row' → row'.decisionId = row.decisionId →
        (step x (run (step x) (step x db op).1 later) op').2 ≠ .ok (.flag true) ∧
        (row.sameRequest row' = true →
          (step x (run (step x) (step x db op).1 later) op').2 = .ok (.flag false)) := by
  have hmem : row ∈ (step x db op).1.decisions.rows := by
    rcases step_decision hop with ⟨-, -, hrows⟩ | ⟨hfalse, -⟩ | ⟨⟨e, herr⟩, -⟩
    · rw [hrows]
      exact mem_append_right _ (mem_singleton.mpr rfl)
    · rw [htrue] at hfalse
      cases hfalse
    · rw [htrue] at herr
      cases herr
  have hkept := decision?_of_mem ((run_decisions_grow x later).mem hmem)
  refine ⟨hkept, ?_⟩
  intro op' row' hop' hid
  rw [← hid] at hkept
  refine ⟨?_, step_repeated hop' hkept⟩
  intro hagain
  rcases step_decision hop' with ⟨-, hnone, -⟩ | ⟨hfalse, -⟩ | ⟨⟨e, herr⟩, -⟩
  · rw [hkept] at hnone
    cases hnone
  · rw [hagain] at hfalse
    cases hfalse
  · rw [hagain] at herr
    cases herr

end Medre.Storage
