import Medre.Storage.Schema

/-! # SQL statements on one table of the database

A statement that breaks a constraint raises and so rolls its transaction back. The table it
writes is given by its projection and its replacement. -/

namespace Medre.Storage

open Medre.Framework Tx

section Generic

variable {ρ : Type} {c : Constraint ρ}

/-- `UPDATE ... SET f WHERE p`; the answer is the row count. -/
def updateTable (get : Db → Table c) (put : Db → Table c → Db) (name : String)
    (p : ρ → Bool) (f : ρ → ρ) : StoreTx ℕ := do
  let t ← Tx.query get
  match t.update p f with
  | some t' =>
    Tx.modify fun db => put db t'
    pure (t.rows.countP p)
  | none => Tx.raise (.integrityError ("constraint failed: " ++ name))

/-- `INSERT INTO`. -/
def insertInto (get : Db → Table c) (put : Db → Table c → Db) (name : String) (r : ρ) :
    StoreTx Unit := do
  let t ← Tx.query get
  match t.insert r with
  | some t' => Tx.modify fun db => put db t'
  | none => Tx.raise (.integrityError ("constraint failed: " ++ name))

variable {get : Db → Table c} {put : Db → Table c → Db} {name : String}

theorem run_updateTable {p : ρ → Bool} {f : ρ → ρ} {db db' : Db} {n : ℕ} :
    (updateTable get put name p f).run db = .ok (n, db') ↔
      ∃ t', (get db).update p f = some t' ∧ n = (get db).rows.countP p ∧
        db' = put db t' := by
  simp only [updateTable, run_bind, run_query]
  constructor
  · rintro ⟨t, db1, ⟨rfl, rfl⟩, h⟩
    cases hu : (get db).update p f with
    | none =>
      rw [hu] at h
      simp at h
    | some t' =>
      rw [hu] at h
      obtain ⟨-, db2, rfl, rfl, rfl⟩ := h
      exact ⟨t', rfl, rfl, rfl⟩
  · rintro ⟨t', hu, rfl, rfl⟩
    refine ⟨get db, db, ⟨rfl, rfl⟩, ?_⟩
    rw [hu]
    simp

theorem run_insertInto {r : ρ} {db db' : Db} {u : Unit} :
    (insertInto get put name r).run db = .ok (u, db') ↔
      ∃ t', (get db).insert r = some t' ∧ db' = put db t' := by
  simp only [insertInto, run_bind, run_query]
  constructor
  · rintro ⟨t, db1, ⟨rfl, rfl⟩, h⟩
    cases hu : (get db).insert r with
    | none =>
      rw [hu] at h
      simp at h
    | some t' =>
      rw [hu] at h
      simp only [run_modify] at h
      exact ⟨t', rfl, h.symm⟩
  · rintro ⟨t', hu, rfl⟩
    refine ⟨get db, db, ⟨rfl, rfl⟩, ?_⟩
    rw [hu]
    simp

end Generic

/-! ## Reading -/

/-- `SELECT 1 FROM canonical_events WHERE event_id=?`. -/
def Db.hasEvent (db : Db) (eventId : String) : Bool :=
  db.events.rows.any fun e => e.eventId = eventId

theorem hasEvent_iff {db : Db} {e : String} :
    db.hasEvent e = true ↔ ∃ row ∈ db.events.rows, row.eventId = e := by
  simp [Db.hasEvent]

def Db.outboxRow? (db : Db) (outboxId : String) : Option OutboxRow :=
  db.outbox.rows.find? fun r => r.outboxId = outboxId

theorem outboxRow?_eq_some_iff (db : Db) (outboxId : String) (r : OutboxRow) :
    db.outboxRow? outboxId = some r ↔ r ∈ db.outbox.rows ∧ r.outboxId = outboxId := by
  constructor
  · intro h
    exact ⟨List.mem_of_find?_eq_some h, by simpa using List.find?_some h⟩
  · rintro ⟨hr, hid⟩
    exact find?_of_unique hr (decide_eq_true hid) fun s hs hsid =>
      outbox_eq_of_id db.outbox hs hr ((of_decide_eq_true hsid).trans hid.symm)

/-- An immediate foreign key onto `canonical_events`. -/
def requireEvent (eventId : String) : StoreTx Unit := do
  let known ← Tx.query fun db => db.hasEvent eventId
  Tx.require known (.integrityError "FOREIGN KEY constraint failed")

@[simp] theorem run_requireEvent {eventId : String} {db db' : Db} {u : Unit} :
    (requireEvent eventId).run db = .ok (u, db') ↔
      db.hasEvent eventId = true ∧ db = db' := by
  simp only [requireEvent, run_bind, run_query, run_require]
  constructor
  · rintro ⟨b, db1, ⟨rfl, rfl⟩, h⟩
    exact h
  · intro h
    exact ⟨_, db, ⟨rfl, rfl⟩, h⟩

/-! ## Writing -/

def updateOutbox : (OutboxRow → Bool) → (OutboxRow → OutboxRow) → StoreTx ℕ :=
  updateTable Db.outbox (fun db t => { db with outbox := t }) "delivery_outbox"

def updateDependencies : (Dependency → Bool) → (Dependency → Dependency) → StoreTx ℕ :=
  updateTable Db.dependencies (fun db t => { db with dependencies := t })
    "event_content_dependencies"

def updateGrants : (AccessGrant → Bool) → (AccessGrant → AccessGrant) → StoreTx ℕ :=
  updateTable Db.grants (fun db t => { db with grants := t })
    "event_content_access_grants"

def updateIngressWork : (IngressWork → Bool) → (IngressWork → IngressWork) → StoreTx ℕ :=
  updateTable Db.ingressWork (fun db t => { db with ingressWork := t })
    "durable_ingress_work"

def updateRadio : (RadioRow → Bool) → (RadioRow → RadioRow) → StoreTx ℕ :=
  updateTable Db.radio (fun db t => { db with radio := t }) "radio_attempt_progress"

def insertOutbox (r : OutboxRow) : StoreTx Unit := do
  insertInto Db.outbox (fun db t => { db with outbox := t }) "delivery_outbox" r
  requireEvent r.eventId

def insertDependency (d : Dependency) : StoreTx Unit := do
  insertInto Db.dependencies (fun db t => { db with dependencies := t })
    "event_content_dependencies" d
  let known ← Tx.query fun db => db.bodyIdentity.rows.any fun b => b.eventId = d.eventId
  Tx.require known (.integrityError "FOREIGN KEY constraint failed")

def insertSnapshot : Snapshot → StoreTx Unit :=
  insertInto Db.snapshots (fun db t => { db with snapshots := t })
    "delivery_outbox_snapshots"

def insertDiagnostic : Diagnostic → StoreTx Unit :=
  insertInto Db.diagnostics (fun db t => { db with diagnostics := t })
    "delivery_evidence_diagnostics"

def insertPolicy (p : AccessPolicy) : StoreTx Unit := do
  insertInto Db.policies (fun db t => { db with policies := t })
    "event_content_access_policies" p
  requireEvent p.eventId

def insertGrant : AccessGrant → StoreTx Unit :=
  insertInto Db.grants (fun db t => { db with grants := t })
    "event_content_access_grants"

def insertReceipt (r : ReceiptRow) : StoreTx Unit := do
  insertInto Db.receipts (fun db t => { db with receipts := t }) "delivery_receipts" r
  requireEvent r.eventId

def insertNativeRef (r : NativeRefRow) : StoreTx Unit := do
  insertInto Db.nativeRefs (fun db t => { db with nativeRefs := t })
    "native_message_refs" r
  requireEvent r.eventId

def insertRadio : RadioRow → StoreTx Unit :=
  insertInto Db.radio (fun db t => { db with radio := t }) "radio_attempt_progress"

def insertDecision (d : DecisionRow) : StoreTx Unit := do
  insertInto Db.decisions (fun db t => { db with decisions := t })
    "operator_delivery_decisions" d
  requireEvent d.eventId

def retireOutboxSnapshot (outboxId : String) : StoreTx Unit :=
  Tx.modify fun db =>
    { db with snapshots := db.snapshots.delete fun s => s.outboxId = outboxId }

end Medre.Storage
