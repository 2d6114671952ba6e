import Medre.Storage.StoreStep

/-! # The store as a ledger

Events, their facts and references, receipts, decisions and observations are only ever added;
texts stay until their event is collected. -/

namespace Medre.Storage

open List Medre.Framework Tx

/-- The later content has the rows of the earlier one first; said of no table whose rows are
rewritten. -/
def TableName.Extends : (t : TableName) → t.Content → t.Content → Prop
  | .events, a, b => a.rows <+: b.rows
  | .routingFacts, a, b => a.rows <+: b.rows
  | .bodyIdentity, a, b => a.rows <+: b.rows
  | .bodyContent, a, b => a.rows <+: b.rows
  | .relations, a, b => a.rows <+: b.rows
  | .nativeRefs, a, b => a.rows <+: b.rows
  | .policies, a, b => a.rows <+: b.rows
  | .receipts, a, b => a.rows <+: b.rows
  | .decisions, a, b => a.rows <+: b.rows
  | _, _, _ => True

theorem TableName.Extends.refl (t : TableName) (a : t.Content) : t.Extends a a := by
  cases t <;> first | exact prefix_rfl | trivial

theorem TableName.Extends.trans {t : TableName} {a b c : t.Content} (h : t.Extends a b)
    (h' : t.Extends b c) : t.Extends a c := by
  cases t <;> first | exact IsPrefix.trans h h' | trivial

def ledger : Evolution Db where
  rel a b := ∀ t, TableName.Extends t (a.table t) (b.table t)
  refl _ _ := .refl _ _
  trans h h' t := (h t).trans (h' t)

/-- The tables whose rows are rewritten or removed. -/
def rewritten : List TableName :=
  [.ingressWork, .dependencies, .grants, .outbox, .snapshots, .diagnostics, .radio, .sweepCursor]

theorem ledger_of_writes {α : Type} {y : StoreTx α} (h : Writes rewritten y) :
    Tx.Follows ledger y := by
  intro db a db' hrun t
  by_cases ht : t ∈ rewritten
  · revert ht
    cases t <;> first | exact fun _ => trivial | exact fun h => absurd h (by decide)
  · rw [h db a db' hrun t ht]
    exact .refl _ _

theorem ledger_insertInto {ρ : Type} {c : Constraint ρ} {get : Db → Table c}
    {put : Db → Table c → Db} {name : String} {t : TableName}
    (hput : ∀ db u i, i ≠ t → (put db u).table i = db.table i)
    (hrows : ∀ db u, (get db).rows <+: u.rows → t.Extends (db.table t) ((put db u).table t))
    (r : ρ) : Tx.Follows ledger (insertInto get put name r) := by
  intro db _ db' h i
  obtain ⟨u, hu, rfl⟩ := run_insertInto.mp h
  by_cases hi : i = t
  · subst hi
    apply hrows
    rw [Table.rows_insert hu]
    exact prefix_append _ _
  · rw [hput db u i hi]
    exact .refl _ _

theorem ledger_insertOrIgnoreNativeRef (r : NativeRefRow) :
    Tx.Follows ledger (insertOrIgnoreNativeRef r) := by
  intro db _ db' h
  simp only [insertOrIgnoreNativeRef, run_bind, run_query] at h
  obtain ⟨_, _, ⟨rfl, rfl⟩, h⟩ := h
  cases hins : db.nativeRefs.insert r with
  | none =>
    rw [hins] at h
    obtain ⟨-, rfl⟩ := run_pure.mp h
    exact ledger.refl db
  | some t =>
    simp only [hins, requireEvent, run_bind, run_modify, run_query, run_require] at h
    obtain ⟨_, _, rfl, _, _, ⟨-, rfl⟩, -, rfl⟩ := h
    exact @ledger_insertInto _ _ _ _ "" _ (table_put · .nativeRefs) (fun _ _ h => h) r db () _
      (run_insertInto.mpr ⟨t, hins, rfl⟩)

theorem ledger_rules (S : List TableName) (own : String × OwnerKind × String → Prop) :
    StatementRules ledger S own := by
  have W := footprint_rules rewritten own
  have keyed : ∀ {y : StoreTx Unit} (e : String), Tx.Follows ledger y →
      Tx.Follows ledger (y >>= fun _ => requireEvent e) :=
    fun e h => .bind h fun _ => .bind (.query _) fun _ => .require _ _
  exact
    { event := fun _ => ledger_insertInto (table_put · .events) fun _ _ h => h
      bodyIdentity := fun _ => ledger_insertInto (table_put · .bodyIdentity) fun _ _ h => h
      bodyContent := fun _ => ledger_insertInto (table_put · .bodyContent) fun _ _ h => h
      routingFacts := fun _ => ledger_insertInto (table_put · .routingFacts) fun _ _ h => h
      relation := fun _ => ledger_insertInto (table_put · .relations) fun _ _ h => h
      nativeRef := fun _ r =>
        keyed _ (ledger_insertInto (table_put · .nativeRefs) (fun _ _ h => h) r)
      nativeRefOrIgnore := fun _ => ledger_insertOrIgnoreNativeRef
      policy := fun _ r => keyed _ (ledger_insertInto (table_put · .policies) (fun _ _ h => h) r)
      receipt := fun _ r => keyed _ (ledger_insertInto (table_put · .receipts) (fun _ _ h => h) r)
      decision := fun _ r => keyed _ (ledger_insertInto (table_put · .decisions) (fun _ _ h => h) r)
      ingressInsert := fun _ r => ledger_of_writes (W.ingressInsert (by decide) r)
      ingressUpdate := fun _ p f => ledger_of_writes (W.ingressUpdate (by decide) p f)
      dependency := fun _ d h => ledger_of_writes (W.dependency (by decide) d h)
      releases := fun _ p at' h => ledger_of_writes (W.releases (by decide) p at' h)
      grant := fun _ g => ledger_of_writes (W.grant (by decide) g)
      tombstones := fun _ p f h => ledger_of_writes (W.tombstones (by decide) p f h)
      outboxInsert := fun _ r => ledger_of_writes (W.outboxInsert (by decide) r)
      outboxUpdate := fun _ p f => ledger_of_writes (W.outboxUpdate (by decide) p f)
      snapshotInsert := fun _ r => ledger_of_writes (W.snapshotInsert (by decide) r)
      snapshotRetire := fun _ o => ledger_of_writes (W.snapshotRetire (by decide) o)
      diagnostic := fun _ d => ledger_of_writes (W.diagnostic (by decide) d)
      radioInsert := fun _ r => ledger_of_writes (W.radioInsert (by decide) r)
      radioUpdate := fun _ p f => ledger_of_writes (W.radioUpdate (by decide) p f)
      cursor := fun _ c => ledger_of_writes (W.cursor (by decide) c) }

/-! ## The whole store -/

/-- From `s` to `s'` nothing recorded is lost but the texts of events that are collected. -/
structure HistoryGrows (s s' : SqliteStore) : Prop where
  tables : ∀ t ∉ [TableName.bodyContent, .relations], t.Extends (s.db.table t) (s'.db.table t)
  bodies : ∀ b ∈ s.db.bodyContent.rows,
    b ∈ s'.db.bodyContent.rows ∨ s'.collected b.eventId = true
  relations : ∀ r ∈ s.db.relations.rows, r ∈ s'.db.relations.rows ∨
    { r with excerpt := none } ∈ s'.db.relations.rows ∧ s'.collected r.eventId = true
  observations : s.observations.rows <+: s'.observations.rows
  log : s.collectionLog.rows <+: s'.collectionLog.rows

theorem HistoryGrows.of_ledger {s s' : SqliteStore} (h : ledger.rel s.db s'.db)
    (observations : s.observations.rows <+: s'.observations.rows)
    (log : s'.collectionLog = s.collectionLog) : HistoryGrows s s' where
  tables t _ := h t
  bodies _ hb := .inl ((h .bodyContent).subset hb)
  relations _ hr := .inl ((h .relations).subset hr)
  observations := observations
  log := log ▸ prefix_rfl

theorem HistoryGrows.trans {a b c : SqliteStore} (h : HistoryGrows a b) (h' : HistoryGrows b c) :
    HistoryGrows a c := by
  have hlog : ∀ i, b.collected i = true → c.collected i = true := by
    intro i hi
    obtain ⟨l, hl, hid⟩ := any_eq_true.mp hi
    exact any_eq_true.mpr ⟨l, h'.log.subset hl, hid⟩
  refine ⟨fun t ht => (h.tables t ht).trans (h'.tables t ht), ?_, ?_,
    h.observations.trans h'.observations, h.log.trans h'.log⟩
  · intro b hb
    rcases h.bodies b hb with hb | hb
    · exact h'.bodies b hb
    · exact .inr (hlog _ hb)
  · intro r hr
    rcases h.relations r hr with hr | ⟨hr, hcollected⟩
    · exact h'.relations r hr
    · exact .inr ⟨(h'.relations _ hr).elim id And.left, hlog _ hcollected⟩

theorem storeStep_history (x : Externals) (s : SqliteStore) (c : StoreCall) :
    HistoryGrows s (storeStep x s c).1 := by
  cases storeStep_effect x s c with
  | kept content observations log =>
    apply HistoryGrows.of_ledger _ (observations ▸ prefix_rfl) log
    rw [content]
    exact ledger.refl _
  | performed op h db observations log =>
    apply HistoryGrows.of_ledger _ (observations ▸ prefix_rfl) log
    rw [db]
    exact step_follows x s.db op (ledger_rules _ _)
  | recorded row h =>
    apply HistoryGrows.of_ledger _ (h.observations ▸ prefix_append _ _) h.log
    intro t
    by_cases ht : t = .diagnostics
    · subst ht
      trivial
    · rw [h.tables t ht]
      exact .refl _ _
  | collected e d h =>
    obtain ⟨now, hlog⟩ := h.log
    have hcollected : (storeStep x s c).1.collected e = true := by
      rw [SqliteStore.collected, hlog, any_append]
      simp
    refine ⟨fun t ht => by rw [h.tables t ht]; exact .refl _ _, ?_, ?_,
      h.observations ▸ prefix_rfl, hlog ▸ prefix_append _ _⟩
    · intro b hb
      rw [h.bodies, mem_filter]
      by_cases hbe : b.eventId = e
      · exact .inr (hbe ▸ hcollected)
      · exact .inl ⟨hb, by simpa using hbe⟩
    · intro r hr
      rw [h.relations]
      by_cases hre : r.eventId = e
      · exact .inr ⟨mem_map.mpr ⟨r, hr, if_pos hre⟩, hre ▸ hcollected⟩
      · exact .inl (mem_map.mpr ⟨r, hr, if_neg hre⟩)

/-- In every run of the store what is recorded stays recorded. -/
theorem storeAfter_history (x : Externals) (pre post : List StoreCall) :
    HistoryGrows (storeAfter x pre) (storeAfter x (pre ++ post)) := by
  rw [storeAfter, storeAfter, run_append]
  apply run_evolves (I := fun _ => True) (R := HistoryGrows) _ HistoryGrows.trans
  · exact fun _ _ h => h
  · exact fun s c _ => storeStep_history x s c
  · trivial
  · exact fun s => .of_ledger (ledger.refl _) prefix_rfl rfl

end Medre.Storage
