import Medre.Storage.OutboxEffect

/-! # Every call has one of the effects of `OutboxEffect`

`step_outbox` is the one place where the transactions are taken apart. -/

namespace Medre.Storage

open List Medre.Framework Tx

variable {page rows : List OutboxRow} {r r' row seen : OutboxRow} {a : Option DeadlineRetirement}
  {b c : Db} {s : Sweep} {budget fuel : ℕ} {item : DeliveryOutboxItem}
  {snapshot : Option OutboxDispatchSnapshotWrite} {allocate : Bool} {op : Op}

variable {db db' : Db}

/-! ## The deadline sweep

One call may retire many rows. Its effects compose: a row retired on one page
is terminal, and so is left alone afterwards. -/

/-- Part of a sweep, with the evolution of the dependencies beside it. -/
def Swept (now : Datetime) (limit : ℤ) (db db' : Db) : Prop :=
  (∃ f, Rewrites (.retireExpiredUnstartedOutbox now limit) db db' f) ∧
    ContentGrows (fun _ => False) db db'

variable {now : Datetime} {limit : ℤ}

theorem Change.retire_rows {rows' : List OutboxRow}
    (h : Change rows (.retireExpiredUnstartedOutbox now limit) r r') :
    Change rows' (.retireExpiredUnstartedOutbox now limit) r r' := by
  cases h with
  | retire hst h => exact .retire hst h

theorem Change.retire_terminal (h : Change rows (.retireExpiredUnstartedOutbox now limit) r r') :
    r'.status.isTerminal = true := by
  cases h with
  | retire hst h => rfl

theorem Rewrites.sweep_trans {a : Db} {f g : OutboxRow → OutboxRow}
    (hab : Rewrites (.retireExpiredUnstartedOutbox now limit) a b f)
    (hbc : Rewrites (.retireExpiredUnstartedOutbox now limit) b c g)
    (hgrows : ContentGrows (fun _ => False) b c) :
    Rewrites (.retireExpiredUnstartedOutbox now limit) a c (g ∘ f) := by
  have hmem : ∀ r ∈ a.outbox.rows, f r ∈ b.outbox.rows := by
    intro r hr
    rw [hab.rows]
    exact mem_map_of_mem hr
  -- a row that is terminal halfway is the same at the end
  have hfinal : ∀ r ∈ a.outbox.rows, (f r).status.isTerminal = true → g (f r) = f r :=
    fun r hr ht => hbc.terminal_eq (hmem r hr) ht
  refine ⟨?_, ?_, ?_, ?_⟩
  · rw [hbc.rows, hab.rows, map_map]
  · intro r hr
    rcases hab.change r hr with heq | hc
    · have hmid := hbc.change (f r) (hmem r hr)
      rw [heq] at hmid
      rw [Function.comp_apply, heq]
      exact hmid.imp_right fun h => h.retire_rows
    · right
      rw [Function.comp_apply, hfinal r hr hc.retire_terminal]
      exact hc
  · intro s
    rw [hbc.snapshots, hab.snapshots, and_assoc]
    refine and_congr_right fun _ => ⟨?_, ?_⟩
    · rintro ⟨h1, h2⟩ r hr hid hlive
      exact h2 (f r) (hmem r hr) ((hab.keys hr).1.trans hid) (h1 r hr hid hlive)
    · intro h
      refine ⟨?_, ?_⟩
      · intro r hr hid hlive
        by_contra hterm
        rw [Bool.not_eq_false] at hterm
        have hend := h r hr hid hlive
        rw [Function.comp_apply, hfinal r hr hterm, hterm] at hend
        cases hend
      · intro r' hr' hid hlive
        rw [hab.rows, mem_map] at hr'
        obtain ⟨r, hr, rfl⟩ := hr'
        refine h r hr ((hab.keys hr).1.symm.trans hid) ?_
        by_contra hterm
        rw [Bool.not_eq_false] at hterm
        rw [hab.terminal_eq hr hterm, hterm] at hlive
        cases hlive
  · intro r hr hlive hend d hd hkey
    cases hmid : (f r).status.isTerminal with
    | true =>
      rcases hgrows.origin d hd with ⟨d0, hd0, hstems⟩ | hown
      · have hreleased := hab.released r hr hlive hmid d0 hd0 (hstems.key_eq.symm.trans hkey)
        rw [hstems.eq_of_released hreleased]
        exact hreleased
      · exact hown.elim
    | false =>
      refine hbc.released (f r) (hmem r hr) hmid hend d hd ?_
      rw [(hab.keys hr).1, (hab.keys hr).2.1]
      exact hkey

theorem Swept.refl (now : Datetime) (limit : ℤ) (db : Db) : Swept now limit db db :=
  ⟨⟨id, .same rfl rfl⟩, .of_eq rfl rfl rfl⟩

theorem Swept.trans {a : Db} (hab : Swept now limit a b)
    (hbc : Swept now limit b c) : Swept now limit a c := by
  obtain ⟨⟨f, hf⟩, hab'⟩ := hab
  obtain ⟨⟨g, hg⟩, hbc'⟩ := hbc
  exact ⟨⟨_, hf.sweep_trans hg hbc'⟩, hab'.trans hbc'⟩

/-- The candidates are claimable rows of the table, as it was when the page was
read. -/
def PageOf (db : Db) (page : List OutboxRow) : Prop :=
  ∀ seen ∈ page, seen.status.isClaimable = true ∧
    ∀ r ∈ db.outbox.rows, r.outboxId = seen.outboxId → r.eventId = seen.eventId

theorem PageOf.swept (h : PageOf db page) (hs : Swept now limit db db') : PageOf db' page := by
  obtain ⟨⟨f, hf⟩, -⟩ := hs
  intro seen hseen
  refine ⟨(h seen hseen).1, ?_⟩
  intro r hr hid
  rw [hf.rows, mem_map] at hr
  obtain ⟨r0, hr0, rfl⟩ := hr
  rw [(hf.keys hr0).2.1]
  exact (h seen hseen).2 r0 hr0 ((hf.keys hr0).1.symm.trans hid)

theorem pageOf_sweepCandidates (db : Db) {after : String × String} {size : ℕ} :
    PageOf db (db.sweepCandidates after size) := by
  intro seen hseen
  have hmem := (mem_insertionSort _).mp (mem_of_mem_take hseen)
  obtain ⟨hrow, hcand⟩ := mem_filter.mp hmem
  simp only [OutboxRow.sweepCandidate, Bool.and_eq_true] at hcand
  refine ⟨hcand.1.1, ?_⟩
  intro r hr hid
  rw [outbox_eq_of_id db.outbox hr hrow hid]

theorem swept_retireCandidate {observed effective : String} (hpage : PageOf db [seen])
    (h : (retireCandidate observed effective seen).run db = .ok (a, db')) :
    ∃ f, Rewrites (.retireExpiredUnstartedOutbox now limit) db db' f := by
  simp only [retireCandidate, run_bind, run_query] at h
  obtain ⟨rows, _, ⟨rfl, rfl⟩, n, db1, hupd, hrest⟩ := h
  obtain ⟨t, hu, rfl, rfl⟩ := run_updateTable.mp hupd
  obtain ⟨hclaimable, hevent⟩ := hpage seen mem_cons_self
  have hguard : ∀ r, OutboxRow.retirable db.outbox.rows seen r = true →
      r.outboxId = seen.outboxId ∧ r.status = seen.status ∧ r.unclaimed = true := by
    intro r hp
    simp only [OutboxRow.retirable, Bool.and_eq_true, decide_eq_true_eq] at hp
    exact ⟨hp.1.1.1.1.1, hp.1.1.1.1.2, hp.1.2⟩
  rcases run_ite.mp hrest with ⟨hcount, hpure⟩ | ⟨hcount, hrest⟩
  · obtain ⟨-, rfl⟩ := run_pure.mp hpure
    exact ⟨_, rewrites_missed hu (fun r hp => (hguard r hp).1) hcount⟩
  · simp only [run_bind, run_pure] at hrest
    obtain ⟨_, db2, hsettle, _, db3, hretire, _, db4, hdiag, -, rfl⟩ := hrest
    have hs := (settled_of_settle_retire hsettle hretire).after
      (follows_outboxDiagnosticOps (footprint_rules [.diagnostics] fun _ => False) (by decide)
        _ _ _ hdiag) (by decide) (by decide) (by decide)
    refine ⟨_, rewrites_settled hu ?_ (fun _ _ _ => rfl) ?_
      (countP_pos_iff.mp (not_not.mp hcount ▸ Nat.one_pos)) hs⟩
    · intro r _ hp
      obtain ⟨-, hst, hunclaimed⟩ := hguard r hp
      exact .retire (hst ▸ hclaimable) hunclaimed
    · intro r hr hp
      exact ⟨(hguard r hp).1, hevent r hr (hguard r hp).1⟩

theorem swept_sweepRow {observed : String} (hpage : PageOf db [seen])
    (h : (sweepRow observed seen).run db = .ok (a, db')) : Swept now limit db db' := by
  have hgrows : ContentGrows (fun _ => False) db db' :=
    follows_sweepRow (content_rules [.outbox, .dependencies, .snapshots, .diagnostics]
      fun _ => False) (by decide) _ _ _ h
  refine ⟨?_, hgrows⟩
  simp only [sweepRow, run_bind, run_query, run_lift] at h
  obtain ⟨_, _, ⟨rfl, rfl⟩, bounds, _, ⟨-, rfl⟩, hrest⟩ := h
  cases hmin : bounds.bind List.min? with
  | none =>
    rw [hmin] at hrest
    obtain ⟨-, rfl⟩ := run_pure.mp hrest
    exact ⟨id, .same rfl rfl⟩
  | some effective =>
    rw [hmin] at hrest
    rcases run_ite.mp hrest with ⟨-, hpure⟩ | ⟨-, hretire⟩
    · obtain ⟨-, rfl⟩ := run_pure.mp hpure
      exact ⟨id, .same rfl rfl⟩
    · exact swept_retireCandidate hpage hretire

section SweepRule

variable {E : Evolution Db} {P : Db → DeadlineRetirement → Prop} {observed : String} {n : ℕ}
  (now limit)
  (hback : ∀ db db' ret, E.rel db db' → P db' ret → P db ret)
  (hrow : ∀ seen a db db', PageOf db [seen] → (sweepRow observed seen).run db = .ok (a, db') →
    E.rel db db' ∧ ∀ ret ∈ a, P db ret)

include now limit hback hrow

/-- Sweep rule: what the work on each candidate does and retires, a page does and
retires. -/
theorem evolves_sweepPage {a : Sweep} (hpage : PageOf db page)
    (h : (sweepPage observed n page s).run db = .ok (a, db')) :
    E.rel db db' ∧ ∀ ret ∈ a.retired, ret ∈ s.retired ∨ P db ret := by
  induction page generalizing db s with
  | nil =>
    obtain ⟨rfl, rfl⟩ := run_pure.mp h
    exact ⟨E.refl _, fun _ hret => .inl hret⟩
  | cons seen page ih =>
    simp only [sweepPage, run_bind] at h
    obtain ⟨retirement, db1, hone, hrest⟩ := h
    have hhead : PageOf db [seen] := by
      intro seen' hmem
      rw [mem_singleton.mp hmem]
      exact hpage seen mem_cons_self
    -- the rest of the page is still what was read
    have hswept : Swept now limit db db1 := swept_sweepRow hhead hone
    have htail : PageOf db1 page :=
      PageOf.swept (fun seen' hmem => hpage seen' (mem_cons_of_mem _ hmem)) hswept
    obtain ⟨hfirst, hnew⟩ := hrow seen _ _ _ hhead hone
    have hretired : ∀ ret ∈ s.retired ++ retirement.toList, ret ∈ s.retired ∨ P db ret := by
      intro ret hret
      exact (mem_append.mp hret).imp_right fun hret => hnew ret (Option.mem_toList.mp hret)
    rcases run_ite.mp hrest with ⟨-, hpure⟩ | ⟨-, hrest⟩
    · obtain ⟨rfl, rfl⟩ := run_pure.mp hpure
      exact ⟨hfirst, hretired⟩
    · obtain ⟨hlater, hlast⟩ := ih htail hrest
      refine ⟨E.trans hfirst hlater, fun ret hret => ?_⟩
      exact (hlast ret hret).elim (hretired ret) fun hp => .inr (hback _ _ _ hfirst hp)

/-- Sweep rule: what the work on each candidate does and retires, a whole sweep does and
retires. -/
theorem evolves_sweepLoop {a : Sweep}
    (h : (sweepLoop observed n budget fuel s).run db = .ok (a, db')) :
    E.rel db db' ∧ ∀ ret ∈ a.retired, ret ∈ s.retired ∨ P db ret := by
  have hstop : ∀ db, E.rel db db ∧ ∀ ret ∈ s.retired, ret ∈ s.retired ∨ P db ret :=
    fun _ => ⟨E.refl _, fun _ hret => .inl hret⟩
  induction fuel generalizing db s with
  | zero =>
    obtain ⟨rfl, rfl⟩ := run_pure.mp h
    exact hstop _
  | succ fuel ih =>
    rcases run_ite.mp h with ⟨-, hpure⟩ | ⟨-, hrest⟩
    · obtain ⟨rfl, rfl⟩ := run_pure.mp hpure
      exact hstop _
    · simp only [run_bind, run_query] at hrest
      obtain ⟨page, _, ⟨rfl, rfl⟩, hrest⟩ := hrest
      split at hrest
      · obtain ⟨rfl, rfl⟩ := run_pure.mp hrest
        exact hstop _
      · simp only [run_bind] at hrest
        obtain ⟨s', db1, hpage, hrest⟩ := hrest
        obtain ⟨hfirst, hretired⟩ : E.rel db db1 ∧ _ :=
          evolves_sweepPage now limit hback hrow (pageOf_sweepCandidates db) hpage
        rcases run_ite.mp hrest with ⟨-, hpure⟩ | ⟨-, hloop⟩
        · obtain ⟨rfl, rfl⟩ := run_pure.mp hpure
          exact ⟨hfirst, hretired⟩
        · obtain ⟨hlater, hlast⟩ := ih hloop fun _ => ⟨E.refl _, fun _ hret => .inl hret⟩
          refine ⟨E.trans hfirst hlater, fun ret hret => ?_⟩
          exact (hlast ret hret).elim (hretired ret) fun hp => .inr (hback _ _ _ hfirst hp)

end SweepRule

/-- Parts of a sweep compose. -/
def sweeping (now : Datetime) (limit : ℤ) : Evolution Db where
  rel := Swept now limit
  refl := Swept.refl now limit
  trans := Swept.trans

theorem swept_sweepLoop {observed : String} {n : ℕ} {a : Sweep}
    (h : (sweepLoop observed n budget fuel s).run db = .ok (a, db')) :
    Swept now limit db db' :=
  (evolves_sweepLoop (E := sweeping now limit) (P := fun _ _ => True) now limit
    (fun _ _ _ _ h => h) (fun _ _ _ _ hpage h => ⟨swept_sweepRow hpage h, fun _ _ => trivial⟩)
    h).1

theorem rewrites_retireExpired {a : List DeadlineRetirement}
    (h : (retireExpiredUnstartedOutbox now limit).run db = .ok (a, db')) :
    ∃ f, Rewrites (.retireExpiredUnstartedOutbox now limit) db db' f := by
  simp only [retireExpiredUnstartedOutbox, run_bind, run_lift, run_require,
    run_query, run_pure] at h
  obtain ⟨_, _, ⟨-, rfl⟩, _, _, ⟨-, rfl⟩, _, _, ⟨rfl, rfl⟩, s, db1, hloop, _, db2, hcursor,
    -, rfl⟩ := h
  have hswept : Swept now limit db db1 := swept_sweepLoop hloop
  obtain ⟨⟨f, hf⟩, -⟩ := hswept
  refine ⟨f, hf.after (S := [.sweepCursor]) ?_ (by decide) (by decide) (by decide)⟩
  exact (footprint_rules [.sweepCursor] fun _ => False).cursor (by decide) _ _ _ _ hcursor

/-! ## Creation -/

theorem run_insertGeneration {adopts : Bool} {plan : Option String} {now : String} {a : Created}
    (h : (insertGeneration item row adopts plan now snapshot).run db = .ok (a, db')) :
    a = .inserted row ∧ db.hasEvent row.eventId = true ∧
      db'.outbox.rows = db.outbox.rows ++ [row] ∧
      db'.snapshots.rows = db.snapshots.rows ++
        (snapshot.map fun s => s.row item.outboxId row.attemptNumber now).toList := by
  simp only [insertGeneration, postInsertOps, insertOutbox, run_bind, run_requireEvent,
    run_pure] at h
  obtain ⟨_, db1, ⟨_, _, hinsert, hevent, rfl⟩, _, db2, hadopt, _, db3, ⟨_, db4, hdiag, hsnap⟩, rfl,
    rfl⟩ := h
  obtain ⟨t, ht, rfl⟩ := run_insertInto.mp hinsert
  have hadopt' : (offTables [.dependencies]).rel { db with outbox := t } db2 := by
    rcases run_onlyIf.mp hadopt with ⟨-, hadopt⟩ | ⟨-, rfl⟩
    · exact follows_insertOutboxDependency (footprint_rules [.dependencies] fun _ => True)
        (by decide) trivial _ _ _ hadopt
    · exact (offTables _).refl _
  have hdiag' := follows_outboxDiagnosticOps (footprint_rules [.diagnostics] fun _ => False)
    (by decide) _ _ _ hdiag
  have ho2 : db2.outbox = t := hadopt' .outbox (by decide)
  have hs2 : db2.snapshots = db.snapshots := hadopt' .snapshots (by decide)
  have ho4 : db4.outbox = db2.outbox := hdiag' .outbox (by decide)
  have hs4 : db4.snapshots = db2.snapshots := hdiag' .snapshots (by decide)
  have hrows : db4.outbox.rows = db.outbox.rows ++ [row] := by
    rw [ho4, ho2]
    exact Table.rows_insert ht
  refine ⟨rfl, hevent, ?_⟩
  cases snapshot with
  | none =>
    obtain ⟨-, rfl⟩ := run_pure.mp hsnap
    refine ⟨hrows, ?_⟩
    rw [hs4, hs2]
    simp
  | some s =>
    obtain ⟨u, hu, rfl⟩ := run_insertInto.mp hsnap
    refine ⟨hrows, ?_⟩
    rw [Table.rows_insert hu, hs4, hs2]
    rfl

/-- The row a creation answers with instead of inserting one. -/
def Db.existingWork (db : Db) (item : DeliveryOutboxItem) (allocate : Bool) : Option OutboxRow :=
  if allocate then (normalizeReplayRunId item.replayRunId).bind (db.replayRun item)
  else db.adoptable item

/-- The transaction a creation runs: it answers a row that is there, or inserts
one at the attempt it was given or allocates. -/
theorem create_cases {a : Created}
    (h : (createOutboxItem item allocate snapshot now).run db = .ok (a, db')) :
    (∃ row, a = .adopted row ∧ db' = db ∧ db.existingWork item allocate = some row) ∨
      ∃ source n plan, createChecks item allocate snapshot = .ok source ∧
        (insertGeneration item (item.row source n (nowIso now)) (source ≠ .replay) plan
          (nowIso now) snapshot).run db = .ok (a, db') ∧
        ((allocate = false ∧ n = item.attemptNumber ∧ db.adoptable item = none) ∨
          (allocate = true ∧ n = (db.maxGeneration item).getD 0 + 1 ∧
            item.activeAttempt = none)) := by
  simp only [createOutboxItem, run_bind, run_lift, run_require, run_attempt] at h
  obtain ⟨source, _, ⟨hchecks, rfl⟩, plan, _, ⟨-, rfl⟩, _, _, ⟨hactive, rfl⟩, result, db1,
    hbody, hrest⟩ := h
  rcases hbody with ⟨c, rfl, hbody⟩ | ⟨e, rfl, -, rfl⟩
  · obtain ⟨rfl, rfl⟩ := run_pure.mp hrest
    cases allocate with
    | false =>
      simp only [Bool.false_eq_true, if_false, syncAtomicCreateOutbox, run_bind, run_query] at hbody
      obtain ⟨found, _, ⟨hfound, rfl⟩, hbody⟩ := hbody
      cases found with
      | some row =>
        obtain ⟨rfl, rfl⟩ := run_pure.mp hbody
        exact .inl ⟨row, rfl, rfl, hfound⟩
      | none =>
        refine .inr ⟨source, _, plan, hchecks, ?_, .inl ⟨rfl, rfl, hfound⟩⟩
        have hlive : decide (source ≠ .replay) = true := by
          refine decide_eq_true fun hreplay => ?_
          cases (createChecks_source hchecks).2 hreplay
        rw [hlive]
        exact hbody
    | true =>
      simp only [if_true, syncAtomicCreateOutboxGeneration, run_bind, run_query] at hbody
      obtain ⟨found, _, ⟨hfound, rfl⟩, hbody⟩ := hbody
      cases found with
      | some row =>
        obtain ⟨rfl, rfl⟩ := run_pure.mp hbody
        exact .inl ⟨row, rfl, rfl, hfound⟩
      | none =>
        simp only [run_bind, run_query] at hbody
        obtain ⟨_, _, ⟨rfl, rfl⟩, hbody⟩ := hbody
        exact .inr ⟨source, _, plan, hchecks, hbody, .inr ⟨rfl, rfl, by simpa using hactive⟩⟩
  · -- a lost race writes nothing
    left
    rcases run_ite.mp hrest with ⟨-, hraise⟩ | ⟨-, hrest⟩
    · exact (run_raise.mp hraise).elim
    · split at hrest
      · rcases run_ite.mp hrest with ⟨-, hraise⟩ | ⟨hplain, hrest⟩
        · exact (run_raise.mp hraise).elim
        · simp only [run_bind, run_query] at hrest
          obtain ⟨found, _, ⟨hfound, rfl⟩, hrest⟩ := hrest
          cases found with
          | none => exact (run_raise.mp hrest).elim
          | some row =>
            obtain ⟨rfl, rfl⟩ := run_pure.mp hrest
            exact ⟨row, rfl, rfl, (if_neg (by simpa using hplain)).trans hfound⟩
      · exact (run_raise.mp hrest).elim

theorem run_create {a : Created}
    (h : (createOutboxItem item allocate snapshot now).run db = .ok (a, db')) :
    (∃ row, a = .adopted row ∧ db' = db ∧ db.existingWork item allocate = some row) ∨
      ∃ row stored, a = .inserted row ∧
        Creates db (.createOutboxItem item allocate snapshot now) row stored ∧
        db'.outbox.rows = db.outbox.rows ++ [row] ∧
        db'.snapshots.rows = db.snapshots.rows ++ stored.toList := by
  rcases create_cases h with hadopted | ⟨source, n, plan, hchecks, hrun, hcase⟩
  · exact .inl hadopted
  · obtain ⟨rfl, hevent, hrows, hsnaps⟩ := run_insertGeneration hrun
    rcases hcase with ⟨rfl, rfl, hnone⟩ | ⟨rfl, rfl, hactive⟩
    · exact .inr ⟨_, _, rfl, .plain hchecks hnone hevent, hrows, hsnaps⟩
    · exact .inr ⟨_, _, rfl, .generation hchecks hactive hevent, hrows, hsnaps⟩

theorem created_id_ne {db db' : Db} (rows : db'.outbox.rows = db.outbox.rows ++ [row])
    (hr : r ∈ db.outbox.rows) :
    row.outboxId ≠ r.outboxId := by
  have hp := db'.outbox.apart
  rw [rows] at hp
  have hclash : r.clash row = false := (pairwise_append.mp hp).2.2 r hr row (mem_singleton.mpr rfl)
  intro heq
  simp [OutboxRow.clash, heq] at hclash

/-! ## Every call -/

theorem effect_of_rewrites (x : Externals) (db : Db) (h : ∃ f, Rewrites op db (step x db op).1 f)
    (hown : ∀ k, op.mayOwn k → k.2.1 ≠ .outbox) : OutboxEffect op db (step x db op).1 := by
  obtain ⟨f, hf⟩ := h
  refine .rewritten f hf ?_
  intro d' hd' hkind
  rcases (step_content x db op).origin d' hd' with hstems | hnew
  · exact hstems
  · exact absurd hkind (hown _ hnew)

theorem effect_other (x : Externals) (db : Db) (ho : .outbox ∉ op.writes)
    (hs : .snapshots ∉ op.writes) (hown : ∀ k, op.mayOwn k → k.2.1 ≠ .outbox) :
    OutboxEffect op db (step x db op).1 :=
  effect_of_rewrites x db ⟨id, .same (step_table x db op ho) (step_table x db op hs)⟩ hown

theorem step_outbox (x : Externals) (db : Db) (op : Op) : OutboxEffect op db (step x db op).1 := by
  have hsame : ∃ f, Rewrites op db db f := ⟨id, .same rfl rfl⟩
  cases op with
  | createOutboxItem item allocate snapshot now =>
    have hadopted : OutboxEffect (.createOutboxItem item allocate snapshot now) db db :=
      .rewritten id (.same rfl rfl) fun d hd _ => ⟨d, hd, .refl d⟩
    refine step_cases rfl hadopted fun a db' h => ?_
    rcases run_create h with ⟨row, -, rfl, -⟩ | ⟨row, stored, -, hc, hrows, hsnaps⟩
    · exact hadopted
    · exact .created row stored hc hrows hsnaps
  | claimDueOutboxItems now w secs cands f =>
    exact effect_of_rewrites x db (step_cases rfl hsame fun _ _ => rewrites_claim) nofun
  | reserveOutboxAttempt o w n now =>
    exact effect_of_rewrites x db (step_cases (P := fun db' => ∃ f, Rewrites _ db db' f) rfl
      hsame fun _ _ h => ⟨_, (run_reserve h).1⟩) nofun
  | renewOutboxLease o w l now =>
    exact effect_of_rewrites x db (step_cases rfl hsame fun _ _ => rewrites_renew) nofun
  | releaseOutboxClaim o w st now =>
    exact effect_of_rewrites x db (step_cases rfl hsame fun _ _ => rewrites_release) nofun
  | markOutbox m now =>
    exact effect_of_rewrites x db (step_cases rfl hsame fun _ _ => rewrites_mark) nofun
  | finalizeDeferredHandoff c =>
    exact effect_of_rewrites x db (step_cases rfl hsame fun _ _ => rewrites_finalizeDeferred) nofun
  | finalizeOutboxTerminal c =>
    exact effect_of_rewrites x db (step_cases (P := fun db' => ∃ f, Rewrites _ db db' f) rfl
      hsame fun _ _ h => ⟨_, run_finalizeTerminal h⟩) nofun
  | retireExpiredUnstartedOutbox now limit =>
    exact effect_of_rewrites x db (step_cases rfl hsame fun _ _ => rewrites_retireExpired) nofun
  | cancelUnstartedDelivery d now =>
    exact effect_of_rewrites x db (step_cases rfl hsame fun _ _ => rewrites_cancel) nofun
  | append e now =>
    refine effect_other x db (by simp [Op.writes, eventTables])
      (by simp [Op.writes, eventTables]) ?_
    rintro k rfl
    exact nofun
  | admitIngress e r p s d now =>
    refine effect_other x db (by simp [Op.writes, eventTables])
      (by simp [Op.writes, eventTables]) ?_
    rintro k rfl
    exact nofun
  | _ => exact effect_other x db (by simp [Op.writes]) (by simp [Op.writes]) nofun

/-- What holds of created rows and survives every change holds of all rows. -/
theorem rows_invariant {P : OutboxRow → Prop} (x : Externals)
    (hcreate : ∀ db op row snapshot, Creates db op row snapshot → P row)
    (hchange : ∀ rows op r r', Change rows op r r' → P r → P r') (ops : List Op) :
    ∀ r ∈ (stateAfter x ops).outbox.rows, P r := by
  refine run_invariant (I := fun db : Db => ∀ r ∈ db.outbox.rows, P r) ?_
    (fun _ hr => absurd hr not_mem_nil) ops
  intro db op h r' hr'
  cases step_outbox x db op with
  | rewritten f hf owned =>
    rw [hf.rows, mem_map] at hr'
    obtain ⟨r, hr, rfl⟩ := hr'
    rcases hf.change r hr with heq | hc
    · rw [heq]
      exact h r hr
    · exact hchange _ _ _ _ hc (h r hr)
  | created row snapshot hc rows snapshots =>
    rw [rows, mem_append, mem_singleton] at hr'
    rcases hr' with hr' | rfl
    · exact h r' hr'
    · exact hcreate _ _ _ _ hc

end Medre.Storage
