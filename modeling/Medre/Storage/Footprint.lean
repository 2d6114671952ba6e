import Medre.Storage.Rules

/-! # Which tables a call may write

`Writes S x` says that every successful run of `x` leaves each table outside `S` as it was. -/

namespace Medre.Storage

open Medre.Framework

/-- The stores agree outside `S`. -/
def offTables (S : List TableName) : Evolution Db := Tx.offComponents Db.table S

/-- `x` writes no table outside `S`. -/
def Writes (S : List TableName) {α : Type} (x : StoreTx α) : Prop :=
  Tx.Follows (offTables S) x

variable {S : List TableName}

section Generic

variable {ρ : Type} {c : Constraint ρ} {get : Db → Table c} {put : Db → Table c → Db}
  {name : String}

theorem writes_updateTable {t : TableName}
    (hput : ∀ db u i, i ≠ t → (put db u).table i = db.table i) (ht : t ∈ S) (p : ρ → Bool)
    (f : ρ → ρ) : Writes S (updateTable get put name p f) := by
  intro db n db' h i hi
  obtain ⟨t', -, -, rfl⟩ := run_updateTable.mp h
  exact hput db t' i fun heq => hi (heq ▸ ht)

theorem writes_insertInto {t : TableName}
    (hput : ∀ db u i, i ≠ t → (put db u).table i = db.table i) (ht : t ∈ S) (r : ρ) :
    Writes S (insertInto get put name r) := by
  intro db n db' h i hi
  obtain ⟨t', -, rfl⟩ := run_insertInto.mp h
  exact hput db t' i fun heq => hi (heq ▸ ht)

theorem writes_insertKeyed {t : TableName}
    (hput : ∀ db u i, i ≠ t → (put db u).table i = db.table i) (ht : t ∈ S) (r : ρ)
    {eventId : String} :
    Writes S (insertInto get put name r >>= fun _ => requireEvent eventId) :=
  .bind (writes_insertInto hput ht r) fun _ => .bind (.query _) fun _ => .require _ _

end Generic

/-- The database with one component replaced. -/
def Db.put (db : Db) : (t : TableName) → t.Content → Db
  | .events, v => { db with events := v }
  | .routingFacts, v => { db with routingFacts := v }
  | .bodyIdentity, v => { db with bodyIdentity := v }
  | .bodyContent, v => { db with bodyContent := v }
  | .relations, v => { db with relations := v }
  | .ingressWork, v => { db with ingressWork := v }
  | .nativeRefs, v => { db with nativeRefs := v }
  | .dependencies, v => { db with dependencies := v }
  | .policies, v => { db with policies := v }
  | .grants, v => { db with grants := v }
  | .outbox, v => { db with outbox := v }
  | .snapshots, v => { db with snapshots := v }
  | .receipts, v => { db with receipts := v }
  | .diagnostics, v => { db with diagnostics := v }
  | .decisions, v => { db with decisions := v }
  | .radio, v => { db with radio := v }
  | .sweepCursor, v => { db with sweepCursor := v }

theorem table_put (db : Db) (t : TableName) (v : t.Content) (i : TableName) (h : i ≠ t) :
    (db.put t v).table i = db.table i := by
  cases t <;> cases i <;> first | rfl | exact absurd rfl h

theorem writes_insertOrIgnoreNativeRef (h : .nativeRefs ∈ S) (r : NativeRefRow) :
    Writes S (insertOrIgnoreNativeRef r) := by
  refine .bind (.query _) fun t => ?_
  cases Table.insert t r with
  | none => exact .pure _
  | some t' =>
    refine .bind (.modify ?_) fun _ => .bind (.query _) fun _ => .require _ _
    intro db i hi
    exact table_put db .nativeRefs t' i fun heq => hi (heq ▸ h)

theorem footprint_rules (S : List TableName) (own : String × OwnerKind × String → Prop) :
    StatementRules (offTables S) S own where
  event := writes_insertInto (table_put · .events)
  bodyIdentity := writes_insertInto (table_put · .bodyIdentity)
  bodyContent := writes_insertInto (table_put · .bodyContent)
  routingFacts := writes_insertInto (table_put · .routingFacts)
  relation := writes_insertInto (table_put · .relations)
  ingressInsert h r := writes_insertKeyed (table_put · .ingressWork) h r
  ingressUpdate := writes_updateTable (table_put · .ingressWork)
  nativeRef h r := writes_insertKeyed (table_put · .nativeRefs) h r
  nativeRefOrIgnore := writes_insertOrIgnoreNativeRef
  dependency h d _ :=
    .bind (writes_insertInto (table_put · .dependencies) h d) fun _ =>
      .bind (.query _) fun _ => .require _ _
  releases h p _ _ := writes_updateTable (table_put · .dependencies) h p _
  policy h p := writes_insertKeyed (table_put · .policies) h p
  grant := writes_insertInto (table_put · .grants)
  tombstones h p f _ := writes_updateTable (table_put · .grants) h p f
  outboxInsert h r := writes_insertKeyed (table_put · .outbox) h r
  outboxUpdate := writes_updateTable (table_put · .outbox)
  snapshotInsert := writes_insertInto (table_put · .snapshots)
  snapshotRetire h _ :=
    .modify fun db i hi => table_put db .snapshots _ i fun heq => hi (heq ▸ h)
  receipt h r := writes_insertKeyed (table_put · .receipts) h r
  diagnostic := writes_insertInto (table_put · .diagnostics)
  decision h d := writes_insertKeyed (table_put · .decisions) h d
  radioInsert := writes_insertInto (table_put · .radio)
  radioUpdate := writes_updateTable (table_put · .radio)
  cursor h _ := .modify fun db i hi => table_put db .sweepCursor _ i fun heq => hi (heq ▸ h)

theorem step_table (x : Externals) (db : Db) (op : Op) {t : TableName} (ht : t ∉ op.writes) :
    (step x db op).1.table t = db.table t :=
  step_follows x db op (footprint_rules op.writes op.mayOwn) t ht

end Medre.Storage
