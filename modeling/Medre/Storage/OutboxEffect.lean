import Medre.Storage.OutboxChange

/-! # What a call may do to the outbox and to the snapshots of its rows

A call either rewrites rows along `Change`, settling those that become terminal, or inserts one
row. -/

namespace Medre.Storage

open List Medre.Framework Tx

variable {r : OutboxRow} {p : OutboxRow → Bool} {t : Table outboxConstraint} {at' w : String}
  {u : Unit} {now : Datetime} {n : ℤ}

/-! ## Effects -/

/-- From `db` to `db'` the rows are rewritten by `f`, each along `Change`; a row
that becomes terminal is settled and nothing else is. -/
structure Rewrites (op : Op) (db db' : Db) (f : OutboxRow → OutboxRow) : Prop where
  rows : db'.outbox.rows = db.outbox.rows.map f
  change : ∀ r ∈ db.outbox.rows, f r = r ∨ Change db.outbox.rows op r (f r)
  snapshots : ∀ s, s ∈ db'.snapshots.rows ↔
    s ∈ db.snapshots.rows ∧ ∀ r ∈ db.outbox.rows, r.outboxId = s.outboxId →
      r.status.isTerminal = false → (f r).status.isTerminal = false
  released : ∀ r ∈ db.outbox.rows, r.status.isTerminal = false →
    (f r).status.isTerminal = true → ∀ d ∈ db'.dependencies.rows,
      d.key = (r.eventId, .outbox, r.outboxId) → d.releasedAt.isSome = true

/-- A creation that inserts `row`, with the snapshot it stores. -/
inductive Creates (db : Db) : Op → OutboxRow → Option Snapshot → Prop
  | plain {item : DeliveryOutboxItem} {snapshot : Option OutboxDispatchSnapshotWrite}
      {now : Datetime} {source : DeliverySource}
      (hchecks : createChecks item false snapshot = .ok source)
      (hnone : db.adoptable item = none) (hevent : db.hasEvent item.eventId = true) :
      Creates db (.createOutboxItem item false snapshot now)
        (item.row source item.attemptNumber (nowIso now))
        (snapshot.map fun s => s.row item.outboxId item.attemptNumber (nowIso now))
  | generation {item : DeliveryOutboxItem} {snapshot : Option OutboxDispatchSnapshotWrite}
      {now : Datetime} {source : DeliverySource}
      (hchecks : createChecks item true snapshot = .ok source)
      (hactive : item.activeAttempt = none) (hevent : db.hasEvent item.eventId = true) :
      Creates db (.createOutboxItem item true snapshot now)
        (item.row source ((db.maxGeneration item).getD 0 + 1) (nowIso now))
        (snapshot.map fun s =>
          s.row item.outboxId ((db.maxGeneration item).getD 0 + 1) (nowIso now))

/-- What a call does to the outbox. Only the insertion of a row adds a
dependency that an outbox row owns. -/
inductive OutboxEffect (op : Op) (db db' : Db) : Prop
  | rewritten (f : OutboxRow → OutboxRow) (h : Rewrites op db db' f)
      (owned : ∀ d' ∈ db'.dependencies.rows, d'.ownerKind = .outbox →
        ∃ d ∈ db.dependencies.rows, d.Stems d')
  | created (row : OutboxRow) (snapshot : Option Snapshot) (h : Creates db op row snapshot)
      (rows : db'.outbox.rows = db.outbox.rows ++ [row])
      (snapshots : db'.snapshots.rows = db.snapshots.rows ++ snapshot.toList)

namespace Rewrites

variable {op : Op} {db db' : Db} {f : OutboxRow → OutboxRow}

theorem keys (h : Rewrites op db db' f) (hr : r ∈ db.outbox.rows) :
    (f r).outboxId = r.outboxId ∧ (f r).eventId = r.eventId ∧
      (f r).identity = r.identity ∧ (f r).targetChannel = r.targetChannel ∧
      (f r).metadata = r.metadata := by
  rcases h.change r hr with heq | hc
  · rw [heq]
    exact ⟨rfl, rfl, rfl, rfl, rfl⟩
  · exact hc.keys

theorem terminal_eq (h : Rewrites op db db' f) (hr : r ∈ db.outbox.rows)
    (ht : r.status.isTerminal = true) : f r = r := by
  rcases h.change r hr with heq | hc
  · exact heq
  · rw [hc.live] at ht
    cases ht

theorem same (ho : db'.outbox = db.outbox) (hs : db'.snapshots = db.snapshots) :
    Rewrites op db db' id where
  rows := by rw [ho, map_id]
  change _ _ := .inl rfl
  snapshots s := by
    rw [hs]
    exact ⟨fun h => ⟨h, fun _ _ _ hlive => hlive⟩, And.left⟩
  released r _ hlive hterm := by
    have hterm' : r.status.isTerminal = true := hterm
    rw [hlive] at hterm'
    cases hterm'

theorem after {db'' : Db} {S : List TableName} (h : Rewrites op db db' f)
    (hw : (offTables S).rel db' db'') (ho : .outbox ∉ S) (hs : .snapshots ∉ S)
    (hd : .dependencies ∉ S) : Rewrites op db db'' f where
  rows := by
    have heq : db''.outbox = db'.outbox := hw .outbox ho
    rw [heq]
    exact h.rows
  change := h.change
  snapshots := by
    have heq : db''.snapshots = db'.snapshots := hw .snapshots hs
    rw [heq]
    exact h.snapshots
  released := by
    have heq : db''.dependencies = db'.dependencies := hw .dependencies hd
    rw [heq]
    exact h.released

end Rewrites

/-! ## Single `UPDATE`s -/

variable {f : OutboxRow → OutboxRow}

theorem rewrites_update {op : Op} {db : Db} (hu : db.outbox.update p f = some t)
    (hchange : ∀ r ∈ db.outbox.rows, p r = true → Change db.outbox.rows op r (f r))
    (hlive : ∀ r ∈ db.outbox.rows, p r = true → (f r).status.isTerminal = false) :
    Rewrites op db { db with outbox := t } fun r => if p r then f r else r where
  rows := Table.rows_update hu
  change r hr := by
    by_cases hp : p r = true
    · rw [if_pos hp]
      exact .inr (hchange r hr hp)
    · rw [if_neg hp]
      exact .inl rfl
  snapshots s := by
    refine ⟨fun h => ⟨h, ?_⟩, And.left⟩
    intro r hr _ hr'
    by_cases hp : p r = true
    · rw [if_pos hp]
      exact hlive r hr hp
    · rw [if_neg hp]
      exact hr'
  released r hr hr' hterm := by
    by_cases hp : p r = true
    · rw [if_pos hp, hlive r hr hp] at hterm
      cases hterm
    · rw [if_neg hp, hr'] at hterm
      cases hterm

/-- From `a` to `b` the work of one outbox row is settled: its snapshot is gone, its dependency
released, and nothing else touched. -/
structure Settled (outboxId eventId : String) (a b : Db) : Prop where
  outbox : b.outbox = a.outbox
  snapshots : ∀ s, s ∈ b.snapshots.rows ↔ s ∈ a.snapshots.rows ∧ s.outboxId ≠ outboxId
  released : ∀ d ∈ b.dependencies.rows, d.key = (eventId, .outbox, outboxId) →
    d.releasedAt.isSome = true

/-- An `UPDATE` that ends one row, together with its settlement. -/
theorem rewrites_settled {op : Op} {db db' : Db} {o e : String} (hu : db.outbox.update p f = some t)
    (hchange : ∀ r ∈ db.outbox.rows, p r = true → Change db.outbox.rows op r (f r))
    (hterm : ∀ r ∈ db.outbox.rows, p r = true → (f r).status.isTerminal = true)
    (hid : ∀ r ∈ db.outbox.rows, p r = true → r.outboxId = o ∧ r.eventId = e)
    (hsome : ∃ r ∈ db.outbox.rows, p r = true) (hs : Settled o e { db with outbox := t } db') :
    Rewrites op db db' fun r => if p r then f r else r where
  rows := by
    rw [hs.outbox]
    exact Table.rows_update hu
  change r hr := by
    by_cases hp : p r = true
    · rw [if_pos hp]
      exact .inr (hchange r hr hp)
    · rw [if_neg hp]
      exact .inl rfl
  snapshots s := by
    rw [hs.snapshots]
    refine and_congr_right fun _ => ⟨?_, ?_⟩
    · intro hne r hr heq hlive
      by_cases hp : p r = true
      · exact absurd (heq.symm.trans (hid r hr hp).1) hne
      · rw [if_neg hp]
        exact hlive
    · -- the ended row would have ended under its snapshot
      intro h heq
      obtain ⟨r, hr, hp⟩ := hsome
      have hlive := h r hr ((hid r hr hp).1.trans heq.symm) (hchange r hr hp).live
      rw [if_pos hp, hterm r hr hp] at hlive
      cases hlive
  released r hr hlive hr' := by
    by_cases hp : p r = true
    · rw [(hid r hr hp).1, (hid r hr hp).2]
      exact hs.released
    · rw [if_neg hp, hlive] at hr'
      cases hr'

namespace Settled

variable {o e : String} {a b c : Db} {S : List TableName}

theorem before (h : (offTables S).rel a b) (ho : .outbox ∉ S) (hs : .snapshots ∉ S)
    (hbc : Settled o e b c) : Settled o e a c where
  outbox := hbc.outbox.trans (h .outbox ho)
  snapshots s := by
    have heq : b.snapshots = a.snapshots := h .snapshots hs
    rw [hbc.snapshots, heq]
  released := hbc.released

theorem after (hab : Settled o e a b) (h : (offTables S).rel b c) (ho : .outbox ∉ S)
    (hs : .snapshots ∉ S) (hd : .dependencies ∉ S) : Settled o e a c where
  outbox := (h .outbox ho).trans hab.outbox
  snapshots s := by
    have heq : c.snapshots = b.snapshots := h .snapshots hs
    rw [heq]
    exact hab.snapshots s
  released := by
    have heq : c.dependencies = b.dependencies := h .dependencies hd
    rw [heq]
    exact hab.released

end Settled

theorem run_settle {o e : String} {db db' : Db}
    (h : (settleOutboxContentDependency o e at').run db = .ok (u, db')) :
    ∃ t, db' = { db with dependencies := t } ∧
      ∀ d ∈ t.rows, d.key = (e, .outbox, o) → d.releasedAt.isSome = true := by
  simp only [settleOutboxContentDependency, run_bind, run_pure] at h
  obtain ⟨n, db1, hupd, -, rfl⟩ := h
  obtain ⟨t, hu, -, rfl⟩ := run_updateTable.mp hupd
  refine ⟨t, rfl, ?_⟩
  intro d hd hkey
  obtain ⟨d0, -, rfl⟩ := (Table.mem_update hu).mp hd
  by_cases hp : d0.eventId = e && d0.ownerKind = .outbox && d0.ownerId = o && d0.releasedAt.isNone
  · rw [if_pos hp]
    rfl
  · rw [if_neg hp] at hkey ⊢
    obtain ⟨h1, h2, h3⟩ : d0.eventId = e ∧ d0.ownerKind = .outbox ∧ d0.ownerId = o := by
      simpa [Dependency.key] using hkey
    cases hreleased : d0.releasedAt with
    | some at' => rfl
    | none => simp [h1, h2, h3, hreleased] at hp

theorem settled_of_settle_retire {o e : String} {a b c : Db} {v : Unit}
    (h : (settleOutboxContentDependency o e at').run a = .ok (u, b))
    (h' : (retireOutboxSnapshot o).run b = .ok (v, c)) : Settled o e a c := by
  obtain ⟨t, rfl, hreleased⟩ := run_settle h
  obtain rfl := run_modify.mp h'
  refine ⟨rfl, ?_, hreleased⟩
  intro s
  simp

theorem settled_of_settleTransition {o now : String} {a b : Db} (hr : r ∈ a.outbox.rows)
    (hid : r.outboxId = o) (h : (settleTransition o now).run a = .ok (u, b)) :
    Settled o r.eventId a b := by
  simp only [settleTransition, run_bind, run_query] at h
  obtain ⟨u1, db1, h1, found, db2, ⟨rfl, rfl⟩, h2⟩ := h
  obtain rfl := run_modify.mp h1
  cases hf : Db.outboxRow? { a with
      snapshots := a.snapshots.delete fun s => s.outboxId = o } o with
  | none =>
    rw [hf] at h2
    exact (run_raise.mp h2).elim
  | some r' =>
    rw [hf] at h2
    have hmem : r' ∈ a.outbox.rows := mem_of_find?_eq_some hf
    have hid' : r'.outboxId = o := by simpa using List.find?_some hf
    obtain rfl := outbox_eq_of_id a.outbox hmem hr (hid'.trans hid.symm)
    obtain ⟨t, rfl, hreleased⟩ := run_settle h2
    refine ⟨rfl, ?_, hreleased⟩
    intro s
    simp

variable {o : String}

theorem countP_le_one (t : Table outboxConstraint)
    (hp : ∀ r, p r = true → r.outboxId = o) : t.rows.countP p ≤ 1 := by
  refine t.countP_le_one fun r s hr hs => ?_
  show r.clash s = true
  simp [OutboxRow.clash, hp r hr, hp s hs]

theorem rewrites_none {op : Op} {db : Db}
    (hu : db.outbox.update p f = some t) (hzero : db.outbox.rows.countP p = 0) :
    Rewrites op db { db with outbox := t } fun r => if p r then f r else r := by
  have hnone : ∀ r ∈ db.outbox.rows, ¬p r = true := countP_eq_zero.mp hzero
  exact rewrites_update hu (fun r hr hp => absurd hp (hnone r hr)) fun r hr hp =>
    absurd hp (hnone r hr)

theorem rewrites_missed {op : Op} {db : Db} (hu : db.outbox.update p f = some t)
    (hp : ∀ r, p r = true → r.outboxId = o) (hcount : db.outbox.rows.countP p ≠ 1) :
    Rewrites op db { db with outbox := t } fun r => if p r then f r else r := by
  have hle := countP_le_one db.outbox hp
  exact rewrites_none hu (by omega)

/-! ## Claims and reservations -/

section Calls

variable {db db' : Db}

theorem rewrites_claim {now : String} {secs : ℤ} {cands : List String} {f : ClaimFilters}
    {a : List OutboxRow} (h : (claimDueOutboxItems now w secs cands f).run db = .ok (a, db')) :
    ∃ g, Rewrites (.claimDueOutboxItems now w secs cands f) db db' g := by
  simp only [claimDueOutboxItems, run_bind, run_lift, run_query] at h
  obtain ⟨lease, _, ⟨-, rfl⟩, parsed, _, ⟨-, rfl⟩, cutoff, _, ⟨-, rfl⟩, rows, _,
    ⟨rfl, rfl⟩, n, db1, hupd, -, rfl⟩ := h
  obtain ⟨t, hu, -, rfl⟩ := run_updateTable.mp hupd
  refine ⟨_, rewrites_update hu ?_ fun _ _ _ => rfl⟩
  intro r hr hp
  rw [Bool.and_eq_true] at hp
  exact .claim hp.2

theorem run_reserve {a : Option ℤ} (h : (reserveOutboxAttempt o w n now).run db = .ok (a, db')) :
    Rewrites (.reserveOutboxAttempt o w n now) db db'
        (fun r => if r.reservable db.outbox.rows o w n then r.reserve (nowIso now) else r) ∧
      (∀ k, a = some k → k = n + 1 ∧
        ∃ r ∈ db.outbox.rows, r.reservable db.outbox.rows o w n = true) ∧
      (a = none → ∀ r ∈ db.outbox.rows, r.reservable db.outbox.rows o w n = false) := by
  simp only [reserveOutboxAttempt, run_bind, run_query, run_pure] at h
  obtain ⟨rows, _, ⟨rfl, rfl⟩, count, db1, hupd, rfl, rfl⟩ := h
  obtain ⟨t, hu, rfl, rfl⟩ := run_updateTable.mp hupd
  refine ⟨rewrites_update hu (fun r hr hp => .reserve hp) ?_, ?_, ?_⟩
  · intro r hr hp
    have hc : Change db.outbox.rows (.reserveOutboxAttempt o w n now) r _ := .reserve hp
    exact hc.live
  · intro k hk
    split at hk
    · rename_i hone
      obtain ⟨r, hr, hp⟩ := countP_pos_iff.mp (hone ▸ Nat.one_pos)
      exact ⟨(Option.some.inj hk).symm, r, hr, hp⟩
    · cases hk
  · intro hnone r hr
    have hle := countP_le_one db.outbox (p := OutboxRow.reservable db.outbox.rows o w n)
      (o := o) fun r hp => by
        simp only [OutboxRow.reservable, Bool.and_eq_true, decide_eq_true_eq] at hp
        exact hp.1.1.1.1.1
    split at hnone
    · cases hnone
    · have hzero : db.outbox.rows.countP (OutboxRow.reservable db.outbox.rows o w n) = 0 := by
        omega
      exact Bool.eq_false_of_not_eq_true (countP_eq_zero.mp hzero r hr)

variable {a : Bool}

theorem rewrites_renew {o l : String} (h : (renewOutboxLease o w l now).run db = .ok (a, db')) :
    ∃ g, Rewrites (.renewOutboxLease o w l now) db db' g := by
  simp only [renewOutboxLease, run_bind, run_query] at h
  obtain ⟨n, db1, hupd, -, rfl⟩ := h
  obtain ⟨t, hu, -, rfl⟩ := run_updateTable.mp hupd
  refine ⟨_, rewrites_update hu (fun r hr hp => .renew hp) ?_⟩
  intro r hr hp
  have hc : Change db.outbox.rows (.renewOutboxLease o w l now) r _ := .renew hp
  exact hc.live

theorem rewrites_release {st : OutboxStatus} {a : Unit}
    (h : (releaseOutboxClaim o w st now).run db = .ok (a, db')) :
    ∃ g, Rewrites (.releaseOutboxClaim o w st now) db db' g := by
  simp only [releaseOutboxClaim, run_bind, run_require, run_pure] at h
  obtain ⟨_, _, ⟨hst, rfl⟩, n, db1, hupd, -, rfl⟩ := h
  obtain ⟨t, hu, -, rfl⟩ := run_updateTable.mp hupd
  refine ⟨_, rewrites_update hu ?_ ?_⟩
  · intro r hr hp
    rw [Bool.and_eq_true, Option.isNone_iff_eq_none] at hp
    exact .release hp.1 hp.2 hst
  · intro r hr hp
    cases st <;> first | rfl | cases hst

/-! ## Terminal transitions -/

theorem CancelUnstartedDecision.expectedStatus_isClaimable (d : CancelUnstartedDecision) :
    d.expectedStatus.isClaimable = true := by
  have h := d.valid
  unfold cancelChecks at h
  split at h
  · cases h
  · split at h
    · cases h
    · rename_i hst
      simpa using hst

theorem rewrites_mark {m : MarkCall} (h : (Storage.markOutbox m now).run db = .ok (a, db')) :
    ∃ g, Rewrites (.markOutbox m now) db db' g := by
  rw [markOutbox_eq] at h
  simp only [updateOutboxStatus, run_bind, run_require] at h
  obtain ⟨_, _, ⟨-, rfl⟩, n, db1, hupd, hrest⟩ := h
  obtain ⟨t, hu, rfl, rfl⟩ := run_updateTable.mp hupd
  refine ⟨fun r => if m.update.guards r then m.update.apply (nowIso now) r else r, ?_⟩
  have hchange : ∀ r ∈ db.outbox.rows, m.update.guards r = true →
      Change db.outbox.rows (.markOutbox m now) r (m.update.apply (nowIso now) r) :=
    fun r _ hp => .mark hp
  rcases run_ite.mp hrest with ⟨hzero, hpure⟩ | ⟨hcount, hrest⟩
  · obtain ⟨-, rfl⟩ := run_pure.mp hpure
    exact rewrites_none hu hzero
  · simp only [run_bind, run_onlyIf, run_pure] at hrest
    obtain ⟨_, db2, hdiag, _, db3, hsettle, -, rfl⟩ := hrest
    have hframe := follows_outboxDiagnosticOps
      (footprint_rules [.diagnostics] fun _ => False) (by decide) _ _ _ hdiag
    rcases hsettle with ⟨hterm, hsettle⟩ | ⟨hlive, rfl⟩
    · -- the settlement reads the event of the row it has just ended
      obtain ⟨r, hr, hp⟩ := countP_pos_iff.mp (Nat.pos_of_ne_zero hcount)
      have hid : ∀ s ∈ db.outbox.rows, m.update.guards s = true →
          s.outboxId = m.update.outboxId := fun s _ hs => StatusUpdate.guards_id hs
      have hmem : m.update.apply (nowIso now) r ∈ db2.outbox.rows := by
        have heq : db2.outbox = t := hframe .outbox (by decide)
        rw [heq]
        exact (Table.mem_update hu).mpr ⟨r, hr, (if_pos hp).symm⟩
      have hs := settled_of_settleTransition hmem (hid r hr hp) hsettle
      refine rewrites_settled hu hchange (fun _ _ _ => hterm) ?_ ⟨r, hr, hp⟩
        (hs.before hframe (by decide) (by decide))
      intro s hs' hps
      have heq := outbox_eq_of_id db.outbox hs' hr ((hid s hs' hps).trans (hid r hr hp).symm)
      rw [heq]
      exact ⟨hid r hr hp, rfl⟩
    · exact (rewrites_update hu hchange fun _ _ _ => hlive).after hframe (by decide)
        (by decide) (by decide)

theorem finalizable_keys {i : DeliveryIdentity} (h : r.finalizable o i n = true) :
    r.outboxId = o ∧ r.eventId = i.eventId := by
  simp only [OutboxRow.finalizable, Bool.and_eq_true, decide_eq_true_eq] at h
  exact ⟨h.1.1.1.1.1.1, h.1.1.1.1.1.2⟩

theorem rewrites_finalizeDeferred {c : DeferredHandoffFinalization}
    (h : (finalizeDeferredHandoff c).run db = .ok (a, db')) :
    ∃ g, Rewrites (.finalizeDeferredHandoff c) db db' g := by
  simp only [finalizeDeferredHandoff, run_bind, run_lift, run_query, run_require] at h
  obtain ⟨_, _, ⟨-, rfl⟩, _, _, ⟨rfl, rfl⟩, _, _, ⟨-, rfl⟩, n, db1, hupd, hrest⟩ := h
  obtain ⟨t, hu, rfl, rfl⟩ := run_updateTable.mp hupd
  rcases run_ite.mp hrest with ⟨hcount, hpure⟩ | ⟨hcount, hrest⟩
  · obtain ⟨-, rfl⟩ := run_pure.mp hpure
    exact ⟨_, rewrites_missed hu (fun r hp => (finalizable_keys hp).1) hcount⟩
  · simp only [run_bind, run_pure] at hrest
    obtain ⟨_, db2, href, _, db3, hreceipt, _, db4, hsettle, _, db5, hretire, -, rfl⟩ := hrest
    have hframe := (offTables [.nativeRefs, .receipts, .diagnostics]).trans
      (follows_insertHandoffRef (footprint_rules _ fun _ => False) (by decide) _ _ _ href)
      (follows_writeReceipt (footprint_rules _ fun _ => False) (by decide) (by decide) _ _ _
        hreceipt)
    have hs := (settled_of_settle_retire hsettle hretire).before hframe (by decide) (by decide)
    have hsome := countP_pos_iff.mp (not_not.mp hcount ▸ Nat.one_pos)
    exact ⟨_, rewrites_settled hu (fun r _ hp => .finalizeSent hp) (fun _ _ _ => rfl)
      (fun r _ hp => finalizable_keys hp) hsome hs⟩

theorem run_finalizeTerminal {c : TerminalOutboxFinalization}
    (h : (finalizeOutboxTerminal c).run db = .ok (a, db')) :
    Rewrites (.finalizeOutboxTerminal c) db db' fun r =>
      if c.meets r then
        r.finalizeTerminal c.terminalStatus c.lifecycleReceipt.failureKind
          c.lifecycleReceipt.createdAt.isoformat c.lifecycleReceipt.receiptId
      else r := by
  simp only [finalizeOutboxTerminal, run_bind, run_lift] at h
  obtain ⟨_, _, ⟨-, rfl⟩, _, _, ⟨-, rfl⟩, n, db1, hupd, hrest⟩ := h
  obtain ⟨t, hu, rfl, rfl⟩ := run_updateTable.mp hupd
  have hkeys : ∀ r, c.meets r = true → r.outboxId = c.lifecycleReceipt.outboxId.getD "" ∧
      r.eventId = c.lifecycleReceipt.eventId := by
    intro r hp
    rw [TerminalOutboxFinalization.meets, Bool.and_eq_true] at hp
    exact finalizable_keys hp.1
  rcases run_ite.mp hrest with ⟨hcount, hpure⟩ | ⟨hcount, hrest⟩
  · obtain ⟨-, rfl⟩ := run_pure.mp hpure
    exact rewrites_missed hu (fun r hp => (hkeys r hp).1) hcount
  · simp only [run_bind, run_pure] at hrest
    obtain ⟨_, db2, hdiag, _, db3, hattempt, _, db4, hreceipt, _, db5, hsettle, _, db6,
      hretire, -, rfl⟩ := hrest
    have hframe := (offTables [.receipts, .diagnostics]).trans
      (follows_outboxDiagnosticOps (footprint_rules _ fun _ => False) (by decide) _ _
        _ hdiag)
      ((offTables [.receipts, .diagnostics]).trans
        (follows_writeAttemptReceipt (footprint_rules _ fun _ => False) (by decide) (by decide)
          _ _ _ hattempt)
        (follows_writeReceipt (footprint_rules _ fun _ => False) (by decide) (by decide) _ _
          _ hreceipt))
    have hs := (settled_of_settle_retire hsettle hretire).before hframe (by decide) (by decide)
    refine rewrites_settled hu ?_ (fun _ _ _ => c.terminalStatus_isTerminal)
      (fun r _ hp => hkeys r hp) ?_ hs
    · intro r _ hp
      rw [TerminalOutboxFinalization.meets, Bool.and_eq_true] at hp
      exact .finalizeTerminal hp.1 hp.2
    · exact countP_pos_iff.mp (not_not.mp hcount ▸ Nat.one_pos)

theorem run_decideOnce {request : DecisionRequest} {audit : DecisionRow}
    {decided : OutboxRow → StoreTx Unit}
    (h : (decideOnce request audit decided).run db = .ok (a, db')) :
    (a = false ∧ db' = db ∧ ∃ old,
      db.decisions.rows.find? (fun o => o.decisionId = request.decisionId) = some old ∧
      old.sameRequest audit = true) ∨
    (a = true ∧ db.decisions.rows.find? (fun o => o.decisionId = request.decisionId) = none ∧
      ∃ r ∈ db.outbox.rows, r.identity = request.identity ∧ ∃ db₁,
        (decided r).run db = .ok ((), db₁) ∧ (insertDecision audit).run db₁ = .ok ((), db')) := by
  simp only [decideOnce, run_bind, run_query] at h
  obtain ⟨old, _, ⟨hold, rfl⟩, h⟩ := h
  cases old with
  | some old =>
    simp only [run_bind, run_require, run_pure] at h
    obtain ⟨_, _, ⟨hsame, rfl⟩, rfl, rfl⟩ := h
    exact .inl ⟨rfl, rfl, old, hold, hsame⟩
  | none =>
    simp only [run_bind, run_query] at h
    obtain ⟨found, _, ⟨hfound, rfl⟩, h⟩ := h
    cases found with
    | none => exact (run_raise.mp h).elim
    | some r =>
      simp only [run_bind, run_require, run_pure] at h
      obtain ⟨_, _, ⟨hident, rfl⟩, _, db₁, hdecided, _, _, haudit, rfl, rfl⟩ := h
      exact .inr ⟨rfl, hold, r, mem_of_find?_eq_some hfound, of_decide_eq_true hident, db₁,
        hdecided, haudit⟩

theorem rewrites_cancel {d : CancelUnstartedDecision}
    (h : (cancelUnstartedDelivery d now).run db = .ok (a, db')) :
    ∃ g, Rewrites (.cancelUnstartedDelivery d now) db db' g := by
  rcases run_decideOnce h with ⟨-, rfl, -⟩ | ⟨-, -, r, hr, hident, _, h, haudit⟩
  · exact ⟨id, .same rfl rfl⟩
  simp only [run_bind, run_query, run_require] at h
  obtain ⟨_, _, ⟨hguard, rfl⟩, _, _, ⟨-, rfl⟩, _, _, ⟨-, rfl⟩, n, db1, hupd, _, _, ⟨hone, rfl⟩, _,
    db2, hsettle, hretire⟩ := h
  obtain ⟨t, hu, rfl, rfl⟩ := run_updateTable.mp hupd
  have hid : ∀ s : OutboxRow, s.cancellable d.toDecisionRequest = true →
      s.outboxId = d.outboxId := by
    intro s hs
    simp only [OutboxRow.cancellable, Bool.and_eq_true, decide_eq_true_eq] at hs
    exact hs.1.1.1.1
  rw [Bool.and_eq_true] at hguard
  -- the guarded row is the one that was read
  have honly : ∀ s ∈ db.outbox.rows, s.cancellable d.toDecisionRequest = true → s = r := by
    intro s hs hp
    exact outbox_eq_of_id db.outbox hs hr ((hid s hp).trans (hid r hguard.1).symm)
  have hs := (settled_of_settle_retire hsettle hretire).after
    ((footprint_rules [.decisions] fun _ => False).decision (by decide) _ _ _ _ haudit)
    (by decide) (by decide) (by decide)
  refine ⟨_, rewrites_settled hu ?_ (fun _ _ _ => rfl) ?_ ⟨r, hr, hguard.1⟩ hs⟩
  · intro s hs hp
    obtain rfl := honly s hs hp
    refine .cancel ?_ hguard.2
    have hstatus : s.status = d.expectedStatus := by
      simp only [OutboxRow.cancellable, Bool.and_eq_true, decide_eq_true_eq] at hp
      exact hp.1.2
    rw [hstatus]
    exact d.expectedStatus_isClaimable
  · intro s hs hp
    obtain rfl := honly s hs hp
    refine ⟨hid s hp, ?_⟩
    rw [← hident]
    rfl

end Calls

end Medre.Storage
