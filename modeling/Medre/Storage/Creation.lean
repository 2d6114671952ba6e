import Medre.Framework.Dict
import Medre.Storage.Generations

/-! # Creating an outbox row twice

A creation answers with work that is there or appends one row: a plain one above every row of its
delivery, a named replay run once for good, an unnamed replay always. -/

namespace Medre.Storage

open List Medre.Framework Tx

variable {db db' : Db} {r : OutboxRow} {item : DeliveryOutboxItem} {runId : String}
  {allocate : Bool} {snapshot : Option OutboxDispatchSnapshotWrite} {now : Datetime} {c : Created}
  {op : Op} {ops : List Op} {value : Option String} {d : DeliveryIdentity} {n : ℤ}

/-! ## What stays as it was -/

def Created.row : Created → OutboxRow
  | .inserted row => row
  | .adopted row => row

namespace Db

def snapshotsOf (db : Db) (o : String) : List Snapshot :=
  db.snapshots.rows.filter fun s => s.outboxId = o

def ownedBy (db : Db) (o : String) : List Dependency :=
  db.dependencies.rows.filter fun d => d.ownerKind = .outbox && d.ownerId = o

def rowsOf (db : Db) (d : DeliveryIdentity) : List OutboxRow :=
  db.outbox.rows.filter fun r => r.identity = d

end Db

/-- Every row stays with all of its columns, its snapshot and its dependency. -/
def KeepsRows (db db' : Db) : Prop :=
  ∀ r ∈ db.outbox.rows, r ∈ db'.outbox.rows ∧
    db'.snapshotsOf r.outboxId = db.snapshotsOf r.outboxId ∧
    db'.ownedBy r.outboxId = db.ownedBy r.outboxId

theorem KeepsRows.refl (db : Db) : KeepsRows db db := fun _ hr => ⟨hr, rfl, rfl⟩

theorem run_insertOutboxDependency_ownedBy {o e now : String} {plan : Option String} {u : Unit}
    (h : (insertOutboxDependency o e now plan).run db = .ok (u, db')) {p : String} (hne : p ≠ o) :
    db'.ownedBy p = db.ownedBy p := by
  simp only [insertOutboxDependency, run_bind, run_lift, run_query] at h
  obtain ⟨parsed, _, ⟨-, rfl⟩, instant, _, ⟨-, rfl⟩, plan', _, ⟨-, rfl⟩, n, db₁, hupd, adopted, _,
    ⟨hadopted, rfl⟩, hinsert⟩ := h
  obtain ⟨t, ht, -, rfl⟩ := run_updateTable.mp hupd
  have hreleased : ({ db with dependencies := t } : Db).ownedBy p = db.ownedBy p := by
    show t.rows.filter _ = _
    rw [Table.rows_update ht]
    refine filter_map_fixed ?_ ?_
    · intro d
      split <;> rfl
    · intro d hd
      rw [Bool.and_eq_true, decide_eq_true_eq] at hd
      simp [hd.1, OwnerKind.isSource]
  rw [← hreleased]
  cases adopted with
  | none =>
    obtain ⟨-, rfl⟩ := run_pure.mp hinsert
    rfl
  | some new =>
    have howner : new.ownerId = o := by
      unfold Db.adoptedDependency at hadopted
      split at hadopted
      · cases hadopted
      · dsimp only at hadopted
        split at hadopted
        · cases hadopted
        · split at hadopted
          · cases hadopted
          · cases hadopted
            rfl
    simp only [insertDependency?, insertDependency, run_bind, run_query, run_require] at hinsert
    obtain ⟨_, _, hnew, _, _, ⟨-, rfl⟩, -, rfl⟩ := hinsert
    obtain ⟨t', ht', rfl⟩ := run_insertInto.mp hnew
    show t'.rows.filter _ = t.rows.filter _
    rw [Table.rows_insert ht', filter_append, filter_singleton]
    simp [howner, hne.symm]

theorem create_keepsRows (x : Externals) {db : Db} (item : DeliveryOutboxItem) (allocate : Bool)
    (snapshot : Option OutboxDispatchSnapshotWrite) (now : Datetime) :
    KeepsRows db (step x db (.createOutboxItem item allocate snapshot now)).1 := by
  refine step_cases (P := KeepsRows db) rfl (.refl db) fun a db' h => ?_
  rcases create_cases h with ⟨row, -, hsame, -⟩ | ⟨source, n, plan, -, hrun, -⟩
  · rw [hsame]
    exact .refl db
  · obtain ⟨-, -, hrows, hsnaps⟩ := run_insertGeneration hrun
    intro r hr
    have hne : r.outboxId ≠ item.outboxId := (created_id_ne hrows hr).symm
    refine ⟨hrows ▸ mem_append_left _ hr, ?_, ?_⟩
    · unfold Db.snapshotsOf
      rw [hsnaps, filter_append]
      cases snapshot with
      | none => simp
      | some s => simp [OutboxDispatchSnapshotWrite.row, hne.symm]
    · simp only [insertGeneration, insertOutbox, run_bind, run_requireEvent, run_pure] at hrun
      obtain ⟨_, db₁, ⟨_, _, hinsert, -, rfl⟩, _, db₂, hadopt, _, db₃, hpost, -, hdb⟩ := hrun
      obtain ⟨t, -, rfl⟩ := run_insertInto.mp hinsert
      rw [← hdb]
      have hoff := follows_postInsertOps
        (footprint_rules [.diagnostics, .snapshots] fun _ => False) (by decide) (by decide) _ _ _
        hpost
      have hdeps : db₃.dependencies = db₂.dependencies := hoff .dependencies (by decide)
      have hafter : db₃.ownedBy r.outboxId = db₂.ownedBy r.outboxId := by
        unfold Db.ownedBy
        rw [hdeps]
      rw [hafter]
      rcases run_onlyIf.mp hadopt with ⟨-, hadopt⟩ | ⟨-, rfl⟩
      · exact run_insertOutboxDependency_ownedBy hadopt hne
      · rfl

/-! ## What a creation answers -/

theorem mem_of_newestRow {rs : List OutboxRow} (h : newestRow rs = some r) : r ∈ rs := by
  have hfold : ∀ (rest : List OutboxRow) (s : OutboxRow), rest.foldl newerRow s ∈ s :: rest := by
    intro rest
    induction rest with
    | nil => exact fun s => mem_singleton.mpr rfl
    | cons t rest ih =>
      intro s
      have hnewer : newerRow s t = s ∨ newerRow s t = t := by
        unfold newerRow
        split
        · exact .inr rfl
        · exact .inl rfl
      rcases mem_cons.mp (ih (newerRow s t)) with heq | hmem
      · rw [foldl_cons, heq]
        rcases hnewer with hs | ht
        · rw [hs]
          exact mem_cons_self
        · rw [ht]
          exact mem_cons_of_mem _ mem_cons_self
      · exact mem_cons_of_mem _ (mem_cons_of_mem _ hmem)
  cases rs with
  | nil => cases h
  | cons s rest =>
    cases h
    exact hfold rest s

theorem adoptable_row {row : OutboxRow} (h : db.adoptable item = some row) :
    row ∈ db.outbox.rows ∧ row.identity = item.identity ∧
      item.attemptNumber ≤ row.generation := by
  obtain ⟨hmem, hcols⟩ := mem_filter.mp (mem_of_newestRow h)
  simp only [Bool.and_eq_true, Bool.or_eq_true, decide_eq_true_eq] at hcols
  obtain ⟨⟨⟨⟨hevent, hplan⟩, hadapter⟩, hchannel⟩, hattempt⟩ := hcols
  refine ⟨hmem, ?_, ?_⟩
  · simp [OutboxRow.identity, DeliveryOutboxItem.identity, DeliveryIdentity.of, hevent, hplan,
      hadapter, hchannel]
  · rcases outbox_generation_le db.outbox hmem with hgen | ⟨hactive, hgen⟩
    · rcases hattempt with hle | hle
      · omega
      · cases ha : row.activeAttempt with
        | none => simp [ha] at hle
        | some a => simpa [OutboxRow.generation, ha] using hle
    · rcases hattempt with hle | hle
      · omega
      · simp only [hactive, Option.any_some, decide_eq_true_eq] at hle
        omega

theorem replayRun_row {row : OutboxRow} (h : db.replayRun item runId = some row) :
    row ∈ db.outbox.rows ∧ row.identity = item.identity ∧ row.replayRunId = some runId := by
  have hrow := List.find?_some h
  rw [Bool.and_eq_true, decide_eq_true_eq] at hrow
  exact ⟨mem_of_find?_eq_some h, (ofItem_iff item row).mp hrow.1, hrow.2⟩

/-- The creation answered with a row that is there. -/
structure FindsRow (db db' : Db) (item : DeliveryOutboxItem) (allocate : Bool)
    (row : OutboxRow) : Prop where
  same : db' = db
  mem : row ∈ db.outbox.rows
  identity : row.identity = item.identity
  plain : allocate = false → item.attemptNumber ≤ row.generation
  named : allocate = true → ∃ runId, normalizeReplayRunId item.replayRunId = some runId ∧
    row.replayRunId = some runId

/-- The creation appended a row above all rows of its delivery. -/
structure AddsRow (db db' : Db) (item : DeliveryOutboxItem) (allocate : Bool)
    (row : OutboxRow) : Prop where
  rows : db'.outbox.rows = db.outbox.rows ++ [row]
  outboxId : row.outboxId = item.outboxId
  identity : row.identity = item.identity
  replayRunId : row.replayRunId = normalizeReplayRunId item.replayRunId
  plain : allocate = false → row.attemptNumber = item.attemptNumber
  newest : ∀ r ∈ db.outbox.rows, r.identity = item.identity → r.generation < row.attemptNumber

/-- What a creation has done when it answers with `c`. -/
def CreateEffect (db db' : Db) (item : DeliveryOutboxItem) (allocate : Bool) : Created → Prop
  | .adopted row => FindsRow db db' item allocate row
  | .inserted row => AddsRow db db' item allocate row

theorem row_identity (item : DeliveryOutboxItem) (source : DeliverySource) (n : ℤ)
    (now : String) : (item.row source n now).identity = item.identity := by
  simp [DeliveryOutboxItem.row, OutboxRow.identity, DeliveryOutboxItem.identity,
    DeliveryIdentity.of]

theorem create_effect (x : Externals) (hchannels : ChannelsNormal db)
    (h : (step x db (.createOutboxItem item allocate snapshot now)).2 = .ok (.created c)) :
    CreateEffect db (step x db (.createOutboxItem item allocate snapshot now)).1 item allocate
      c := by
  obtain ⟨a, ha, hrun⟩ := run_of_answer rfl h
  cases ha
  rcases run_create hrun with ⟨row, rfl, hsame, hwork⟩ | ⟨row, stored, rfl, hc, hrows, -⟩
  · cases allocate with
    | false =>
      obtain ⟨hmem, hident, hle⟩ := adoptable_row hwork
      exact ⟨hsame, hmem, hident, fun _ => hle, nofun⟩
    | true =>
      obtain ⟨runId, hname, hfind⟩ := Option.bind_eq_some_iff.mp hwork
      obtain ⟨hmem, hident, hrunId⟩ := replayRun_row hfind
      exact ⟨hsame, hmem, hident, nofun, fun _ => ⟨runId, hname, hrunId⟩⟩
  · cases hc with
    | plain hchecks hnone =>
      refine ⟨hrows, rfl, row_identity _ _ _ _, rfl, fun _ => rfl, ?_⟩
      intro r hr hident
      exact generation_lt_of_adoptable hchannels hnone hr hident
    | generation hchecks hactive =>
      refine ⟨hrows, rfl, row_identity _ _ _ _, rfl, nofun, ?_⟩
      intro r hr hident
      exact generation_lt_of_maxGeneration hr hident

theorem CreateEffect.row_mem (h : CreateEffect db db' item allocate c) :
    c.row ∈ db'.outbox.rows ∧ c.row.identity = item.identity := by
  cases c with
  | adopted row =>
    have hfinds : FindsRow db db' item allocate row := h
    rw [hfinds.same]
    exact ⟨hfinds.mem, hfinds.identity⟩
  | inserted row =>
    have hadds : AddsRow db db' item allocate row := h
    rw [hadds.rows]
    exact ⟨mem_append_right _ (mem_singleton.mpr rfl), hadds.identity⟩

/-! ## Replay runs -/

/-- Each row of `a` is in `b`, as the row of the same replay run. -/
def RowsStay (a b : Db) : Prop :=
  ∀ r ∈ a.outbox.rows, ∃ r' ∈ b.outbox.rows, r'.outboxId = r.outboxId ∧
    r'.identity = r.identity ∧ r'.replayRunId = r.replayRunId

theorem RowsStay.refl (db : Db) : RowsStay db db := fun r hr => ⟨r, hr, rfl, rfl, rfl⟩

theorem RowsStay.trans {a b c : Db} (hab : RowsStay a b) (hbc : RowsStay b c) : RowsStay a c := by
  intro r hr
  obtain ⟨r', hr', hid, hident, hrun⟩ := hab r hr
  obtain ⟨r'', hr'', hid', hident', hrun'⟩ := hbc r' hr'
  exact ⟨r'', hr'', hid'.trans hid, hident'.trans hident, hrun'.trans hrun⟩

theorem Change.replayRunId {rows : List OutboxRow} {r' : OutboxRow} (h : Change rows op r r') :
    r'.replayRunId = r.replayRunId := by
  cases h <;> rfl

theorem step_rowsStay (x : Externals) (db : Db) (op : Op) : RowsStay db (step x db op).1 := by
  intro r hr
  cases step_outbox x db op with
  | rewritten f h owned =>
    refine ⟨f r, ?_, (h.keys hr).1, (h.keys hr).2.2.1, ?_⟩
    · rw [h.rows]
      exact mem_map_of_mem hr
    · rcases h.change r hr with heq | hc
      · rw [heq]
      · exact hc.replayRunId
  | created row snapshot h rows snapshots =>
    exact ⟨r, rows ▸ mem_append_left _ hr, rfl, rfl, rfl⟩

theorem run_rowsStay (x : Externals) {db : Db} (ops : List Op) :
    RowsStay db (run (step x) db ops) :=
  run_evolves (I := fun _ => True) RowsStay.refl RowsStay.trans (fun _ _ _ => trivial)
    (fun s a _ => step_rowsStay x s a) trivial ops

theorem rowsStay_of_prefix (x : Externals) {before : List Op} (h : before <+: ops) :
    RowsStay (stateAfter x before) (stateAfter x ops) := by
  obtain ⟨after, rfl⟩ := h
  unfold stateAfter
  rw [run_append]
  exact run_rowsStay x after

theorem replayRun_unique {t : Table outboxConstraint} {s : OutboxRow} (hr : r ∈ t.rows)
    (hs : s ∈ t.rows) (hne : runId ≠ "") (hident : r.identity = s.identity)
    (hrun : r.replayRunId = some runId) (hrun' : s.replayRunId = some runId) : r = s := by
  refine t.eq_of_clash OutboxRow.clash_comm hr hs ?_
  show r.clash s = true
  simp [OutboxRow.clash, OutboxRow.sameReplayRun, (OutboxRow.sameDelivery_iff r s).mpr hident,
    hrun, hrun', hne]

theorem normalizeReplayRunId_ne (h : normalizeReplayRunId value = some runId) : runId ≠ "" := by
  rintro rfl
  exact orNone_ne_empty _ h

theorem normalizeReplayRunId_some (h : normalizeReplayRunId value = some runId) :
    normalizeReplayRunId (some runId) = some runId := by
  have hne := normalizeReplayRunId_ne h
  cases value with
  | none => cases h
  | some v =>
    unfold normalizeReplayRunId orNone at h
    split at h
    · cases h
    · cases h
      rw [normalizeReplayRunId, Option.map_some, pyStrip_pyStrip]
      exact orNone_of_ne fun heq => hne (Option.some.inj heq)

theorem CreateEffect.named (h : CreateEffect db db' item true c)
    (hname : normalizeReplayRunId item.replayRunId = some runId) :
    c.row.replayRunId = some runId := by
  cases c with
  | adopted row =>
    obtain ⟨runId', hname', hrun⟩ := FindsRow.named h rfl
    cases hname.symm.trans hname'
    exact hrun
  | inserted row => exact (AddsRow.replayRunId h).trans hname

theorem CreateEffect.unnamed (h : CreateEffect db db' item true c)
    (hname : normalizeReplayRunId item.replayRunId = none) :
    ∃ row, c = .inserted row ∧ AddsRow db db' item true row := by
  cases c with
  | adopted row =>
    obtain ⟨runId, hname', -⟩ := FindsRow.named h rfl
    cases hname.symm.trans hname'
  | inserted row => exact ⟨row, rfl, h⟩

theorem create_named_allocates (x : Externals) {ans : Answer}
    (h : (step x db (.createOutboxItem item allocate snapshot now)).2 = .ok ans)
    (hname : normalizeReplayRunId item.replayRunId = some runId) : allocate = true := by
  obtain ⟨c, -, hrun⟩ := run_of_answer rfl h
  simp only [createOutboxItem, run_bind, run_lift] at hrun
  obtain ⟨source, _, ⟨hchecks, -⟩, -⟩ := hrun
  cases allocate with
  | true => rfl
  | false =>
    exfalso
    simp only [createChecks, hname, Option.isSome_some, Bool.not_false, Bool.and_true,
      if_true] at hchecks
    split at hchecks
    · cases hchecks
    · split at hchecks <;> cases hchecks

/-! ## One row per live delivery -/

/-- Every creation of the delivery `d` is a plain one at attempt `n`. -/
def Op.CreatesAt (d : DeliveryIdentity) (n : ℤ) : Op → Prop
  | .createOutboxItem item allocate _ _ =>
    item.identity = d → allocate = false ∧ item.attemptNumber = n
  | _ => True

/-- The delivery has at most one row, which is not below attempt `n`. -/
structure OneRow (d : DeliveryIdentity) (n : ℤ) (db : Db) : Prop where
  length : (db.rowsOf d).length ≤ 1
  above : ∀ r ∈ db.rowsOf d, n ≤ r.generation

theorem mem_rowsOf : r ∈ db.rowsOf d ↔ r ∈ db.outbox.rows ∧ r.identity = d := by
  simp [Db.rowsOf]

theorem Rewrites.rowsOf {f : OutboxRow → OutboxRow} (h : Rewrites op db db' f)
    (d : DeliveryIdentity) : db'.rowsOf d = (db.rowsOf d).map f := by
  unfold Db.rowsOf
  rw [h.rows, filter_map]
  congr 1
  refine filter_congr fun r hr => ?_
  rw [Function.comp_apply, (h.keys hr).2.2.1]

theorem oneRow_step (x : Externals) (hchannels : ChannelsNormal db) (h : OneRow d n db)
    (hop : op.CreatesAt d n) :
    OneRow d n (step x db op).1 := by
  cases step_outbox x db op with
  | rewritten f hf owned =>
    refine ⟨?_, ?_⟩
    · rw [hf.rowsOf d, length_map]
      exact h.length
    · intro r hr
      rw [hf.rowsOf d] at hr
      obtain ⟨r₀, hr₀, rfl⟩ := mem_map.mp hr
      have hle := h.above r₀ hr₀
      rcases hf.change r₀ (mem_rowsOf.mp hr₀).1 with heq | hc
      · rw [heq]
        exact hle
      · exact hle.trans hc.generation_le
  | created row snapshot hc rows snapshots =>
    have hrowsOf : (step x db op).1.rowsOf d =
        db.rowsOf d ++ [row].filter fun r => r.identity = d := by
      unfold Db.rowsOf
      rw [rows, filter_append]
    by_cases hd : row.identity = d
    · obtain ⟨hattempt, hbelow⟩ : row.attemptNumber = n ∧
          ∀ r ∈ db.outbox.rows, r.identity = d → r.generation < n := by
        cases hc with
        | plain hchecks hnone hevent =>
          obtain ⟨-, rfl⟩ := hop ((row_identity _ _ _ _).symm.trans hd)
          refine ⟨rfl, fun r hr hident => ?_⟩
          exact generation_lt_of_adoptable hchannels hnone hr
            ((hident.trans hd.symm).trans (row_identity _ _ _ _))
        | generation hchecks hactive hevent =>
          cases (hop ((row_identity _ _ _ _).symm.trans hd)).1
      -- the rows that were there are not below the attempt, so there were none
      have hnil : db.rowsOf d = [] := by
        refine eq_nil_iff_forall_not_mem.mpr fun r hr => ?_
        have hge := h.above r hr
        have hlt := hbelow r (mem_rowsOf.mp hr).1 (mem_rowsOf.mp hr).2
        omega
      have hone : (step x db op).1.rowsOf d = [row] := by
        rw [hrowsOf, hnil]
        simp [hd]
      refine ⟨by rw [hone]; exact le_refl 1, ?_⟩
      intro r hr
      have hr' := (mem_rowsOf.mp hr).1
      rw [hone, mem_singleton] at hr
      subst hr
      rcases outbox_generation_le _ hr' with hgen | ⟨-, hgen⟩ <;> omega
    · have hsame : (step x db op).1.rowsOf d = db.rowsOf d := by
        rw [hrowsOf]
        simp [hd]
      exact ⟨hsame ▸ h.length, hsame ▸ h.above⟩

theorem oneRow_stateAfter (x : Externals) (hops : ∀ op ∈ ops, op.CreatesAt d n) :
    OneRow d n (stateAfter x ops) := by
  induction ops using List.reverseRecOn with
  | nil => exact ⟨Nat.zero_le 1, fun _ hr => absurd hr not_mem_nil⟩
  | append_singleton ops op ih =>
    have hstate : stateAfter x (ops ++ [op]) = (step x (stateAfter x ops) op).1 :=
      run_snoc (step x) Db.empty ops op
    rw [hstate]
    exact oneRow_step x (channelsNormal_stateAfter x ops)
      (ih fun op hop => hops op (mem_append_left _ hop))
      (hops op (mem_append_right _ (mem_singleton.mpr rfl)))

/-- A creation of the delivery `d` that came to an answer somewhere in the history. -/
def CreatedIn (x : Externals) (ops : List Op) (d : DeliveryIdentity) : Prop :=
  ∃ before item allocate snapshot now c,
    before ++ [.createOutboxItem item allocate snapshot now] <+: ops ∧ item.identity = d ∧
    (step x (stateAfter x before) (.createOutboxItem item allocate snapshot now)).2 =
      .ok (.created c)

theorem CreatedIn.rowsOf_ne {x : Externals} (h : CreatedIn x ops d) :
    (stateAfter x ops).rowsOf d ≠ [] := by
  obtain ⟨before, item, allocate, snapshot, now, c, hpre, rfl, hans⟩ := h
  obtain ⟨hmem, hident⟩ := (create_effect x (channelsNormal_stateAfter x before) hans).row_mem
  have hstate : stateAfter x (before ++ [.createOutboxItem item allocate snapshot now]) =
      (step x (stateAfter x before) (.createOutboxItem item allocate snapshot now)).1 :=
    run_snoc (step x) Db.empty before _
  rw [← hstate] at hmem
  obtain ⟨r, hr, -, hident', -⟩ := rowsStay_of_prefix x hpre c.row hmem
  exact ne_nil_of_mem (mem_rowsOf.mpr ⟨hr, hident'.trans hident⟩)

end Medre.Storage
