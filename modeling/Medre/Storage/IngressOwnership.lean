import Medre.Storage.Admitted

/-! # Ownership of durable ingress work (`_ingress.py`, `connection.py`)

A claim takes a row that is pending or whose lease has lapsed; every other call is guarded by
the worker that holds the row. `IngressWork.Moves` lists what one call does to one row. -/

namespace Medre.Storage

open List Medre.Framework Tx

/-! ## What a history counts -/

/-- The call claimed the work of `eventId`. -/
def claimsWork (eventId : String) : Op × Except Err Answer → Bool
  | (.claimIngressWork .., .ok (.ingressClaimed ids)) => ids.contains eventId
  | _ => false

/-- The call deferred the work of `eventId`. -/
def defersWork (eventId : String) : Op × Except Err Answer → Bool
  | (.returnIngressWork how e .., .ok (.flag true)) => how = .defer && e = eventId
  | _ => false

/-- The call completed the work of `eventId`. -/
def completesWork (eventId : String) : Op × Except Err Answer → Bool
  | (.completeIngressWork e .., .ok (.flag true)) => e = eventId
  | _ => false

/-- The call claimed, deferred or completed the work of `e`. -/
def countsWork (e : String) (c : Op × Except Err Answer) : Bool :=
  claimsWork e c || defersWork e c || completesWork e c

variable {c : Op × Except Err Answer}

theorem countsWork_eq_false {e : String} :
    countsWork e c = false ↔
      claimsWork e c = false ∧ defersWork e c = false ∧ completesWork e c = false := by
  rw [countsWork, Bool.or_eq_false_iff, Bool.or_eq_false_iff, and_assoc]

/-- The event and the worker of a call that is guarded by its worker. -/
def Op.ingressActor : Op → Option (String × String)
  | .completeIngressWork e w _ | .returnIngressWork _ e w _ _
  | .renewIngressWorkLease e w _ _ => some (e, w)
  | _ => none

/-- `completed`, `failed` and `suppressed_history`. -/
def IngressStatus.final : IngressStatus → Bool
  | .completed | .failed | .suppressedHistory => true
  | _ => false

/-! ## What a call does to a row -/

def IngressWork.complete (now : String) (w : IngressWork) : IngressWork :=
  { w with
    status := .completed, updatedAt := now, lockedAt := none, leaseUntil := none
    workerId := none, lastError := none }

def IngressWork.giveBack (how : IngressReturn) (now : String) (w : IngressWork) : IngressWork :=
  { w with
    status := if how = .fail then .failed else .pending
    attempts := if how = .defer then max 0 (w.attempts - 1) else w.attempts
    updatedAt := now, lockedAt := none, leaseUntil := none, workerId := none }

/-- What an answered call does to one work row. -/
inductive IngressWork.Moves : Op × Except Err Answer → IngressWork → IngressWork → Prop where
  | kept {c : Op × Except Err Answer} {w : IngressWork} (hnone : countsWork w.eventId c = false) :
      Moves c w w
  | claimed {workerId lease : String} {limit : ℕ} {seconds : Rat} {now : Datetime}
      {ids : List String} {w : IngressWork} (hdue : w.claimable (nowIso now) = true)
      (hmem : w.eventId ∈ ids) :
      Moves (.claimIngressWork workerId limit seconds now, .ok (.ingressClaimed ids)) w
        (w.claim (nowIso now) lease workerId)
  | completed {workerId : String} {now : Datetime} {w : IngressWork}
      (howner : w.ownedBy w.eventId workerId = true) :
      Moves (.completeIngressWork w.eventId workerId now, .ok (.flag true)) w
        (w.complete (nowIso now))
  | returned {how : IngressReturn} {workerId error : String} {now : Datetime} {w : IngressWork}
      (howner : w.ownedBy w.eventId workerId = true) :
      Moves (.returnIngressWork how w.eventId workerId error now, .ok (.flag true)) w
        (w.giveBack how (nowIso now))
  | renewed {workerId lease : String} {seconds : Rat} {now : Datetime} {w : IngressWork}
      (howner : w.ownedBy w.eventId workerId = true) :
      Moves (.renewIngressWorkLease w.eventId workerId seconds now, .ok (.flag true)) w
        { w with leaseUntil := some lease, updatedAt := nowIso now }

theorem IngressWork.Moves.eventId_eq {w w' : IngressWork}
    (h : w.Moves c w') : w'.eventId = w.eventId := by
  cases h <;> rfl

/-- The rows from `db` to `db'`: each moves, a new one is fresh work, and what is counted
is a row of `db`. -/
structure IngressStep (c : Op × Except Err Answer) (db db' : Db) : Prop where
  moves : ∀ w ∈ db.ingressWork.rows, ∃ w' ∈ db'.ingressWork.rows, w.Moves c w'
  origin : ∀ w' ∈ db'.ingressWork.rows, (∃ w ∈ db.ingressWork.rows, w.eventId = w'.eventId) ∨
    (w'.attempts = 0 ∧ (w'.status = .pending ∨ w'.status = .suppressedHistory) ∧
      db'.hasEvent w'.eventId = true ∧ countsWork w'.eventId c = false)
  counted : ∀ e, countsWork e c = true → ∃ w ∈ db.ingressWork.rows, w.eventId = e

section Calls

variable {x : Externals} {db : Db}

theorem work_eq_of_event (t : Table (distinctOn IngressWork.eventId)) {v w : IngressWork}
    (hv : v ∈ t.rows) (hw : w ∈ t.rows) (h : v.eventId = w.eventId) : v = w :=
  eq_of_key t hv hw h

theorem ingressStep_of_eq {db' : Db} (h : db'.ingressWork = db.ingressWork)
    (hnone : ∀ e, countsWork e c = false) : IngressStep c db db' where
  moves w hw := ⟨w, h ▸ hw, .kept (hnone _)⟩
  origin w hw := .inl ⟨w, h ▸ hw, rfl⟩
  counted e he := by
    rw [hnone] at he
    cases he

theorem ingressStep_of_run {α : Type} {op : Op} {tag : α → Answer} {body : StoreTx α}
    (hexec : exec x op = answering tag body)
    (hrun : ∀ a db', body.run db = .ok (a, db') → IngressStep (op, .ok (tag a)) db db') :
    IngressStep (op, (step x db op).2) db (step x db op).1 := by
  cases h : (step x db op).2 with
  | error e =>
    refine ingressStep_of_eq (by rw [step_of_error h]) fun e' => ?_
    cases op <;> rfl
  | ok ans =>
    obtain ⟨a, rfl, ha⟩ := run_of_answer hexec h
    exact hrun a _ ha

variable {t : Table (distinctOn IngressWork.eventId)}

theorem ingressStep_of_update {p : IngressWork → Bool} {f : IngressWork → IngressWork} {db' : Db}
    (hu : db.ingressWork.update p f = some t) (hdb : db'.ingressWork = t)
    (hmoves : ∀ w ∈ db.ingressWork.rows, w.Moves c (if p w then f w else w))
    (hcounted : ∀ e, countsWork e c = true → ∃ w ∈ db.ingressWork.rows, w.eventId = e) :
    IngressStep c db db' where
  counted := hcounted
  moves w hw := by
    refine ⟨_, ?_, hmoves w hw⟩
    rw [hdb]
    exact (Table.mem_update hu).mpr ⟨w, hw, rfl⟩
  origin w' hw' := by
    rw [hdb] at hw'
    obtain ⟨w, hw, rfl⟩ := (Table.mem_update hu).mp hw'
    exact .inl ⟨w, hw, (hmoves w hw).eventId_eq.symm⟩

theorem ingressStep_claim {workerId : String} {limit : ℕ} {seconds : Rat} {now : Datetime}
    {ids : List String} {db' : Db}
    (h : (claimIngressWork workerId limit seconds now).run db = .ok (ids, db')) :
    IngressStep (.claimIngressWork workerId limit seconds now, .ok (.ingressClaimed ids)) db
      db' := by
  simp only [claimIngressWork, run_bind, run_lift, run_query, run_pure] at h
  obtain ⟨lease, _, ⟨-, rfl⟩, rows, _, ⟨rfl, rfl⟩, n, db1, hupd, rfl, hdb⟩ := h
  obtain ⟨t, hu, -, rfl⟩ := run_updateTable.mp hupd
  have hdue : ∀ {v}, v ∈ ((db.ingressWork.rows.filter
      (IngressWork.claimable (nowIso now))).insertionSort fun v w =>
        v.createdAt < w.createdAt ∨ (v.createdAt = w.createdAt ∧ v.eventId ≤ w.eventId)).take
          limit → v ∈ db.ingressWork.rows ∧ v.claimable (nowIso now) = true := fun hv =>
    mem_filter.mp ((mem_insertionSort _).mp (mem_of_mem_take hv))
  refine ingressStep_of_update hu (by rw [← hdb]) (fun w hw => ?_) fun e he => ?_
  · split
    · next hmem =>
        rw [contains_iff_mem] at hmem
        refine .claimed ?_ hmem
        obtain ⟨v, hv, hid⟩ := mem_map.mp hmem
        rw [← work_eq_of_event db.ingressWork (hdue hv).1 hw hid]
        exact (hdue hv).2
    · next hmem =>
        exact .kept (countsWork_eq_false.mpr ⟨Bool.eq_false_of_not_eq_true hmem, rfl, rfl⟩)
  · simp only [countsWork, claimsWork, defersWork, completesWork, Bool.or_false] at he
    obtain ⟨v, hv, hid⟩ := mem_map.mp (contains_iff_mem.mp he)
    exact ⟨v, (hdue hv).1, hid⟩

theorem ownedBy_clash {eventId workerId : String} (v w : IngressWork)
    (hv : v.ownedBy eventId workerId = true) (hw : w.ownedBy eventId workerId = true) :
    (distinctOn IngressWork.eventId).clash v w = true := by
  simp only [IngressWork.ownedBy, Bool.and_eq_true, decide_eq_true_eq] at hv hw
  exact decide_eq_true (hv.1.1.trans hw.1.1.symm)

theorem ingressStep_of_owner {eventId workerId : String} {f : IngressWork → IngressWork} {db' : Db}
    (hu : db.ingressWork.update (IngressWork.ownedBy eventId workerId) f = some t)
    (hdb : db'.ingressWork = t)
    (howner : ∀ w : IngressWork, w.ownedBy w.eventId workerId = true → w.eventId = eventId →
      w.Moves c (f w)) (hother : ∀ e, e ≠ eventId → countsWork e c = false)
    (hone : db.ingressWork.rows.countP (IngressWork.ownedBy eventId workerId) = 1) :
    IngressStep c db db' := by
  obtain ⟨v, hv, hvp⟩ := countP_pos_iff.mp (hone ▸ Nat.one_pos)
  have hevent : ∀ {w : IngressWork}, w.ownedBy eventId workerId = true → w.eventId = eventId := by
    intro w hw
    simp only [IngressWork.ownedBy, Bool.and_eq_true, decide_eq_true_eq] at hw
    exact hw.1.1
  refine ingressStep_of_update hu hdb (fun w hw => ?_) fun e he => ⟨v, hv, ?_⟩
  · split
    · next hp => exact howner w ((hevent hp).symm ▸ hp) (hevent hp)
    · next hp =>
        refine .kept (hother w.eventId fun hid => hp ?_)
        rw [← work_eq_of_event db.ingressWork hv hw ((hevent hvp).trans hid.symm)]
        exact hvp
  · by_contra hne
    rw [hother e fun heq => hne ((hevent hvp).trans heq.symm)] at he
    cases he

/-! ### The guarded calls

Each has one statement under the guard of its worker. Without a row under the guard
the call answers `false` and the whole store is as it was. -/

/-- The owner's dependency, as a completion releases it. -/
def Dependency.ingressOwned (eventId : String) (d : Dependency) : Bool :=
  d.eventId = eventId && d.ownerKind = .ingress && d.ownerId = eventId && d.releasedAt.isNone

variable {db' : Db} {eventId workerId : String} {now : Datetime} {b : Bool}

theorem count_owned (db : Db) (eventId workerId : String) :
    db.ingressWork.rows.countP (IngressWork.ownedBy eventId workerId) ≤ 1 :=
  db.ingressWork.countP_le_one ownedBy_clash

theorem run_completeIngressWork
    (h : (completeIngressWork eventId workerId now).run db = .ok (b, db')) :
    (b = false ∧ db' = db) ∨
      (b = true ∧ db.ingressWork.rows.countP (IngressWork.ownedBy eventId workerId) = 1 ∧
        ∃ t u, db.ingressWork.update (IngressWork.ownedBy eventId workerId)
            (IngressWork.complete (nowIso now)) = some t ∧
          db.dependencies.update (Dependency.ingressOwned eventId) (release (nowIso now)) =
            some u ∧
          db' = { db with ingressWork := t, dependencies := u }) := by
  obtain ⟨n, db1, hupd, hrest⟩ := run_bind.mp h
  obtain ⟨t, hu, rfl, rfl⟩ := run_updateTable.mp hupd
  have hle := count_owned db eventId workerId
  rcases run_ite.mp hrest with ⟨hcount, hpure⟩ | ⟨hcount, hrest⟩
  · obtain ⟨rfl, rfl⟩ := run_pure.mp hpure
    exact .inl ⟨rfl, by rw [Table.eq_of_update_none hu (by omega)]⟩
  · obtain ⟨_, _, hrelease, hpure⟩ := run_bind.mp hrest
    obtain ⟨rfl, rfl⟩ := run_pure.mp hpure
    obtain ⟨u, hdeps, -, rfl⟩ := run_updateTable.mp hrelease
    exact .inr ⟨rfl, not_not.mp hcount, t, u, hu, hdeps, rfl⟩

theorem writes_ingressDiagnosticOp {work : Option IngressWork} {error at' : String} :
    Writes [.diagnostics] (ingressDiagnosticOp work error at') := by
  cases work with
  | none => exact .pure _
  | some w => exact (footprint_rules [.diagnostics] fun _ => False).diagnostic (by decide) _

theorem run_returnIngressWork {how : IngressReturn} {error : String}
    (h : (returnIngressWork how eventId workerId error now).run db = .ok (b, db')) :
    (b = false ∧ db' = db) ∨
      (b = true ∧ db.ingressWork.rows.countP (IngressWork.ownedBy eventId workerId) = 1 ∧
        db.ingressWork.update (IngressWork.ownedBy eventId workerId)
          (IngressWork.giveBack how (nowIso now)) = some db'.ingressWork) := by
  obtain ⟨n, db1, hupd, hrest⟩ := run_bind.mp h
  obtain ⟨t, hu, rfl, rfl⟩ := run_updateTable.mp hupd
  have hle := count_owned db eventId workerId
  rcases run_ite.mp hrest with ⟨hcount, hpure⟩ | ⟨hcount, hrest⟩
  · obtain ⟨rfl, rfl⟩ := run_pure.mp hpure
    exact .inl ⟨rfl, by rw [Table.eq_of_update_none hu hcount]⟩
  · have hone : db.ingressWork.rows.countP (IngressWork.ownedBy eventId workerId) = 1 := by
      omega
    simp only [run_bind, run_query, run_pure] at hrest
    obtain ⟨work, _, ⟨-, rfl⟩, _, db2, hdiag, rfl, rfl⟩ := hrest
    refine .inr ⟨decide_eq_true hone, hone, ?_⟩
    have hwork : db2.ingressWork = t :=
      writes_ingressDiagnosticOp _ _ _ hdiag .ingressWork (by decide)
    rw [hwork]
    exact hu

theorem run_renewIngressWorkLease {seconds : Rat}
    (h : (renewIngressWorkLease eventId workerId seconds now).run db = .ok (b, db')) :
    (b = false ∧ db' = db) ∨
      (b = true ∧ db.ingressWork.rows.countP (IngressWork.ownedBy eventId workerId) = 1 ∧
        ∃ lease, db.ingressWork.update (IngressWork.ownedBy eventId workerId)
          (fun w => { w with leaseUntil := some lease, updatedAt := nowIso now }) =
            some db'.ingressWork) := by
  simp only [renewIngressWorkLease, run_bind, run_require, run_lift, run_pure] at h
  obtain ⟨_, _, ⟨-, rfl⟩, lease, _, ⟨-, rfl⟩, n, db1, hupd, rfl, rfl⟩ := h
  obtain ⟨t, hu, rfl, rfl⟩ := run_updateTable.mp hupd
  have hle := count_owned db eventId workerId
  by_cases hone : db.ingressWork.rows.countP (IngressWork.ownedBy eventId workerId) = 1
  · exact .inr ⟨decide_eq_true hone, hone, lease.isoformat, hu⟩
  · exact .inl ⟨decide_eq_false hone, by rw [Table.eq_of_update_none hu (by omega)]⟩

theorem ingressStep_complete
    (h : (completeIngressWork eventId workerId now).run db = .ok (b, db')) :
    IngressStep (.completeIngressWork eventId workerId now, .ok (.flag b)) db db' := by
  rcases run_completeIngressWork h with ⟨rfl, rfl⟩ | ⟨rfl, hone, t, u, hu, -, rfl⟩
  · exact ingressStep_of_eq rfl fun e => rfl
  · refine ingressStep_of_owner hu rfl ?_ ?_ hone
    · rintro w howner rfl
      exact .completed howner
    · exact fun e hne => decide_eq_false hne.symm

theorem ingressStep_return {how : IngressReturn} {error : String}
    (h : (returnIngressWork how eventId workerId error now).run db = .ok (b, db')) :
    IngressStep (.returnIngressWork how eventId workerId error now, .ok (.flag b)) db db' := by
  rcases run_returnIngressWork h with ⟨rfl, rfl⟩ | ⟨rfl, hone, hu⟩
  · exact ingressStep_of_eq rfl fun e => rfl
  · refine ingressStep_of_owner hu rfl ?_ ?_ hone
    · rintro w howner rfl
      exact .returned howner
    · intro e hne
      refine countsWork_eq_false.mpr ⟨rfl, ?_, rfl⟩
      show (decide (how = .defer) && decide (eventId = e)) = false
      rw [decide_eq_false hne.symm, Bool.and_false]

theorem ingressStep_renew {seconds : Rat}
    (h : (renewIngressWorkLease eventId workerId seconds now).run db = .ok (b, db')) :
    IngressStep (.renewIngressWorkLease eventId workerId seconds now, .ok (.flag b)) db db' := by
  rcases run_renewIngressWorkLease h with ⟨rfl, rfl⟩ | ⟨rfl, hone, lease, hu⟩
  · exact ingressStep_of_eq rfl fun e => rfl
  · refine ingressStep_of_owner hu rfl ?_ (fun e _ => rfl) hone
    rintro w howner rfl
    exact .renewed howner

/-! ### Admission -/

/-- An admission leaves the work rows, or inserts one that is fresh. -/
theorem ingressStep_admit {e : CanonicalEvent} {inboundRef : Option NativeMessageRef}
    {provenance : IngressProvenance} {suppressRouting : Bool}
    {contentDeadline : Option Datetime} {a : AdmissionResult}
    (h : (admitIngress e inboundRef provenance suppressRouting contentDeadline now).run db =
      .ok (a, db')) :
    IngressStep (.admitIngress e inboundRef provenance suppressRouting contentDeadline now,
      .ok (.admitted a)) db db' := by
  have hfresh : db'.ingressWork = db.ingressWork ∨ ∃ w : IngressWork,
      db.ingressWork.insert w = some db'.ingressWork ∧ w.Fresh ∧ db'.hasEvent w.eventId = true := by
    cases run_admitIngress h with
    | new limit work hcreated own fresh event hnew =>
      exact .inr ⟨work, hnew.work, fresh, hnew.hasEvent_iff.mpr (.inr event)⟩
    | known hcreated off work =>
      rcases work with rfl | ⟨w, fresh, hstored, hinsert⟩
      · exact .inl rfl
      · exact .inr ⟨w, hinsert, fresh, hstored⟩
  rcases hfresh with hsame | ⟨w, hinsert, ⟨hattempts, hstatus⟩, hstored⟩
  · exact ingressStep_of_eq hsame fun e => rfl
  · refine ⟨fun v hv => ⟨v, (Table.mem_insert hinsert).mpr (.inl hv), .kept rfl⟩, ?_, nofun⟩
    intro w' hw'
    rcases (Table.mem_insert hinsert).mp hw' with hv | rfl
    · exact .inl ⟨w', hv, rfl⟩
    · exact .inr ⟨hattempts, hstatus, hstored, rfl⟩

theorem step_ingress (x : Externals) (db : Db) (op : Op) :
    IngressStep (op, (step x db op).2) db (step x db op).1 := by
  cases op with
  | admitIngress => exact ingressStep_of_run rfl fun _ _ => ingressStep_admit
  | claimIngressWork => exact ingressStep_of_run rfl fun _ _ => ingressStep_claim
  | completeIngressWork => exact ingressStep_of_run rfl fun _ _ => ingressStep_complete
  | returnIngressWork => exact ingressStep_of_run rfl fun _ _ => ingressStep_return
  | renewIngressWorkLease => exact ingressStep_of_run rfl fun _ _ => ingressStep_renew
  | _ =>
    exact ingressStep_of_eq
      (step_table x db _ (t := .ingressWork) (by simp [Op.writes, eventTables]))
      fun e => rfl

end Calls

/-! ## Histories -/

/-- What a history says about the work rows it has led to. -/
structure WorkInv (h : List (Op × Except Err Answer)) (db : Db) : Prop where
  stored : ∀ w ∈ db.ingressWork.rows, db.hasEvent w.eventId = true
  attempts : ∀ w ∈ db.ingressWork.rows, w.attempts =
    (h.countP (claimsWork w.eventId) : ℤ) - h.countP (defersWork w.eventId)
  nonneg : ∀ w ∈ db.ingressWork.rows, 0 ≤ w.attempts
  held : ∀ w ∈ db.ingressWork.rows, w.status = .processing →
    1 ≤ w.attempts ∧ w.workerId.isSome = true
  once : ∀ w ∈ db.ingressWork.rows,
    h.countP (completesWork w.eventId) = if w.status = .completed then 1 else 0
  absent : ∀ e, (∀ w ∈ db.ingressWork.rows, w.eventId ≠ e) →
    h.countP (claimsWork e) = 0 ∧ h.countP (defersWork e) = 0 ∧
      h.countP (completesWork e) = 0
  settled : ∀ w ∈ db.ingressWork.rows, w.status = .completed →
    ∀ d ∈ db.dependencies.rows, d.key = (w.eventId, .ingress, w.eventId) →
      d.releasedAt.isSome = true

section History

variable {h : List (Op × Except Err Answer)} {db db' : Db} {c : Op × Except Err Answer}
  {w w' : IngressWork}

theorem IngressWork.Moves.counts (hmove : w.Moves c w') (hprocessing : w.status = .processing →
      1 ≤ w.attempts) :
    w'.attempts = w.attempts + (if claimsWork w.eventId c = true then 1 else 0) -
      (if defersWork w.eventId c = true then 1 else 0) := by
  cases hmove with
  | kept hnone =>
    obtain ⟨hclaim, hdefer, -⟩ := countsWork_eq_false.mp hnone
    simp [hclaim, hdefer]
  | claimed hdue hmem => simp [claimsWork, defersWork, hmem, IngressWork.claim]
  | completed howner => simp [claimsWork, defersWork, IngressWork.complete]
  | @returned how _ _ _ _ howner =>
    simp only [IngressWork.ownedBy, Bool.and_eq_true, decide_eq_true_eq] at howner
    have hpos := hprocessing howner.1.2
    by_cases hdefer : how = .defer
    · simp [claimsWork, defersWork, IngressWork.giveBack, hdefer]
      omega
    · simp [claimsWork, defersWork, IngressWork.giveBack, hdefer]
  | renewed howner => simp [claimsWork, defersWork]

theorem IngressWork.Moves.completes (hmove : w.Moves c w') :
    (if w'.status = .completed then 1 else 0) = (if w.status = .completed then 1 else 0) +
      (if completesWork w.eventId c = true then 1 else 0) := by
  cases hmove with
  | kept hnone => simp [(countsWork_eq_false.mp hnone).2.2]
  | claimed hdue hmem =>
    have hne : w.status ≠ .completed := by
      intro heq
      simp [IngressWork.claimable, heq] at hdue
    simp [completesWork, IngressWork.claim, hne]
  | completed howner =>
    simp only [IngressWork.ownedBy, Bool.and_eq_true, decide_eq_true_eq] at howner
    simp [completesWork, IngressWork.complete, howner.1.2]
  | @returned how _ _ _ _ howner =>
    simp only [IngressWork.ownedBy, Bool.and_eq_true, decide_eq_true_eq] at howner
    by_cases hfail : how = .fail <;>
      simp [completesWork, IngressWork.giveBack, hfail, howner.1.2]
  | renewed howner => simp [completesWork]

theorem IngressWork.Moves.nonneg (hmove : w.Moves c w') (hpos : 0 ≤ w.attempts) :
    0 ≤ w'.attempts := by
  cases hmove with
  | kept => exact hpos
  | claimed => exact Int.add_nonneg hpos Int.one_nonneg
  | completed => exact hpos
  | returned =>
    simp only [IngressWork.giveBack]
    split <;> omega
  | renewed => exact hpos

theorem IngressWork.Moves.held (hmove : w.Moves c w') (hpos : 0 ≤ w.attempts)
    (hbefore : w.status = .processing → 1 ≤ w.attempts ∧ w.workerId.isSome = true)
    (hstatus : w'.status = .processing) : 1 ≤ w'.attempts ∧ w'.workerId.isSome = true := by
  cases hmove with
  | kept => exact hbefore hstatus
  | claimed => exact ⟨Int.le_add_of_nonneg_left hpos, rfl⟩
  | completed => cases hstatus
  | returned =>
    simp only [IngressWork.giveBack] at hstatus
    split at hstatus <;> cases hstatus
  | renewed => exact hbefore hstatus

theorem IngressStep.row (hstep : IngressStep c db db') (hw' : w' ∈ db'.ingressWork.rows) :
    (∃ w ∈ db.ingressWork.rows, w.Moves c w') ∨
      ((∀ w ∈ db.ingressWork.rows, w.eventId ≠ w'.eventId) ∧ w'.attempts = 0 ∧
        (w'.status = .pending ∨ w'.status = .suppressedHistory) ∧
        db'.hasEvent w'.eventId = true ∧ countsWork w'.eventId c = false) := by
  by_cases hold : ∃ w ∈ db.ingressWork.rows, w.eventId = w'.eventId
  · obtain ⟨w, hw, hid⟩ := hold
    obtain ⟨w'', hw'', hmove⟩ := hstep.moves w hw
    have heq := work_eq_of_event db'.ingressWork hw'' hw' (hmove.eventId_eq.trans hid)
    exact .inl ⟨w, hw, heq ▸ hmove⟩
  · refine .inr ⟨fun w hw hid => hold ⟨w, hw, hid⟩, ?_⟩
    exact (hstep.origin w' hw').resolve_left hold

theorem countP_snoc (p : Op × Except Err Answer → Bool) :
    (h ++ [c]).countP p = h.countP p + if p c = true then 1 else 0 := by
  rw [countP_append, countP_singleton]

theorem owned_completion {x : Externals} {op : Op} {e : String}
    (hcomplete : completesWork e (op, (step x db op).2) = true) :
    (∃ w ∈ (step x db op).1.ingressWork.rows, w.eventId = e ∧ w.status = .completed) ∧
    ∃ at', (step x db op).1.dependencies.rows = db.dependencies.rows.map fun d =>
      if d.ingressOwned e then release at' d else d := by
  unfold completesWork at hcomplete
  split at hcomplete
  · next eventId workerId now heq =>
      obtain ⟨rfl, hans⟩ := Prod.mk.inj heq
      obtain rfl := of_decide_eq_true hcomplete
      obtain ⟨b, hb, hrun⟩ := run_of_answer rfl hans
      cases hb
      rcases run_completeIngressWork hrun with ⟨hfalse, -⟩ | ⟨-, hone, t, u, hwork, hdeps, hdb⟩
      · cases hfalse
      · rw [hdb]
        obtain ⟨w, hw, howner⟩ := countP_pos_iff.mp (hone ▸ Nat.one_pos)
        refine ⟨⟨_, (Table.mem_update hwork).mpr ⟨w, hw, rfl⟩, ?_⟩, _, Table.rows_update hdeps⟩
        rw [if_pos howner]
        simp only [IngressWork.ownedBy, Bool.and_eq_true, decide_eq_true_eq] at howner
        exact ⟨howner.1.1, rfl⟩
  · cases hcomplete

theorem released_of_completes {x : Externals} {op : Op} {e : String}
    (hcomplete : completesWork e (op, (step x db op).2) = true) {d : Dependency}
    (hd : d ∈ (step x db op).1.dependencies.rows) (hkey : d.key = (e, .ingress, e)) :
    d.releasedAt.isSome = true := by
  obtain ⟨-, at', hrows⟩ := owned_completion hcomplete
  rw [hrows] at hd
  obtain ⟨d₀, -, rfl⟩ := mem_map.mp hd
  by_cases howned : d₀.ingressOwned e = true
  · rw [if_pos howned]
    rfl
  · rw [if_neg howned] at hkey ⊢
    rw [Dependency.key_eq] at hkey
    simpa [Dependency.ingressOwned, hkey, Option.isSome_iff_ne_none] using howned

theorem WorkInv.step (x : Externals) {op : Op} (hinv : WorkInv h db) :
    WorkInv (h ++ [(op, (step x db op).2)]) (step x db op).1 := by
  have hstep := step_ingress x db op
  have hadmit := step_admitsOnce x db op
  have hold : ∀ w ∈ db.ingressWork.rows, w.status = .processing → 1 ≤ w.attempts :=
    fun w hw hstatus => (hinv.held w hw hstatus).1
  constructor
  case stored =>
    intro w' hw'
    rcases hstep.row hw' with ⟨w, hw, hmove⟩ | ⟨-, -, -, hstored, -⟩
    · rw [hmove.eventId_eq]
      exact hadmit.events _ (hinv.stored w hw)
    · exact hstored
  case attempts =>
    intro w' hw'
    rw [countP_snoc, countP_snoc]
    rcases hstep.row hw' with ⟨w, hw, hmove⟩ | ⟨hnew, hzero, -, -, hnone⟩
    · rw [hmove.counts (hold w hw), hinv.attempts w hw, hmove.eventId_eq]
      split_ifs <;> omega
    · obtain ⟨hclaims, hdefers, -⟩ := hinv.absent _ hnew
      obtain ⟨hclaim, hdefer, -⟩ := countsWork_eq_false.mp hnone
      simp [hzero, hclaims, hdefers, hclaim, hdefer]
  case nonneg =>
    intro w' hw'
    rcases hstep.row hw' with ⟨w, hw, hmove⟩ | ⟨-, hzero, -⟩
    · exact hmove.nonneg (hinv.nonneg w hw)
    · exact hzero.ge
  case held =>
    intro w' hw' hstatus
    rcases hstep.row hw' with ⟨w, hw, hmove⟩ | ⟨-, -, hfresh, -⟩
    · exact hmove.held (hinv.nonneg w hw) (hinv.held w hw) hstatus
    · rcases hfresh with hfresh | hfresh <;> simp [hfresh] at hstatus
  case once =>
    intro w' hw'
    rw [countP_snoc]
    rcases hstep.row hw' with ⟨w, hw, hmove⟩ | ⟨hnew, -, hfresh, -, hnone⟩
    · rw [hmove.eventId_eq, hinv.once w hw, hmove.completes]
    · rw [(hinv.absent _ hnew).2.2, (countsWork_eq_false.mp hnone).2.2]
      rcases hfresh with hpending | hsuppressed
      · simp [hpending]
      · simp [hsuppressed]
  case absent =>
    intro e hnone
    have hbefore : ∀ w ∈ db.ingressWork.rows, w.eventId ≠ e := by
      intro w hw
      obtain ⟨w', hw', hmove⟩ := hstep.moves w hw
      exact hmove.eventId_eq ▸ hnone w' hw'
    have hnot : countsWork e (op, (Storage.step x db op).2) = false := by
      rw [← Bool.not_eq_true]
      intro hcounts
      obtain ⟨w, hw, hid⟩ := hstep.counted e hcounts
      exact hbefore w hw hid
    obtain ⟨hclaim, hdefer, hcomplete⟩ := countsWork_eq_false.mp hnot
    obtain ⟨hclaims, hdefers, hcompletes⟩ := hinv.absent e hbefore
    rw [countP_snoc, countP_snoc, countP_snoc]
    simp [hclaim, hdefer, hcomplete, hclaims, hdefers, hcompletes]
  case settled =>
    intro w' hw' hstatus d' hd' hkey
    rcases hstep.row hw' with ⟨w, hw, hmove⟩ | ⟨-, -, hfresh, -⟩
    · rw [hmove.eventId_eq] at hkey
      have hsource : d'.ownerKind.isSource = true := by
        rw [Dependency.key_eq] at hkey
        rw [hkey.2.1]
        rfl
      have hcompletes := hmove.completes
      rw [if_pos hstatus] at hcompletes
      by_cases hcomplete : completesWork w.eventId (op, (Storage.step x db op).2) = true
      · exact released_of_completes hcomplete hd' hkey
      · have hdone : w.status = .completed := by
          by_contra hne
          simp [hne, hcomplete] at hcompletes
        rcases hadmit.sources d' hd' hsource with ⟨d, hd, hstems⟩ | ⟨hnew, -⟩
        · have hreleased := hinv.settled w hw hdone d hd (hstems.key_eq ▸ hkey)
          rw [hstems.eq_of_released hreleased]
          exact hreleased
        · have hevent : d'.eventId = w.eventId := congrArg Prod.fst hkey
          rw [hevent, hinv.stored w hw] at hnew
          cases hnew
    · rcases hfresh with hfresh | hfresh <;> simp [hfresh] at hstatus

theorem workInv_after (x : Externals) (ops : List Op) :
    WorkInv (trace (Storage.step x) Db.empty ops) (stateAfter x ops) := by
  refine run_history (I := WorkInv) ?_ (fun h db op hinv => hinv.step x) ops
  have hnone : ∀ w, w ∉ Db.empty.ingressWork.rows := fun _ => not_mem_nil
  exact
    { stored := fun w hw => absurd hw (hnone w)
      attempts := fun w hw => absurd hw (hnone w)
      nonneg := fun w hw => absurd hw (hnone w)
      held := fun w hw => absurd hw (hnone w)
      once := fun w hw => absurd hw (hnone w)
      absent := fun _ _ => ⟨rfl, rfl, rfl⟩
      settled := fun w hw => absurd hw (hnone w) }

/-! ## Ownership -/

/-- A row in a final status stays; a processing row is changed by its worker, or by a
claim after its lease. -/
theorem IngressWork.Moves.owner (hmove : w.Moves c w') :
    (w.status.final = true → w' = w) ∧
      (w.status = .processing → w' ≠ w →
        (∃ worker, w.workerId = some worker ∧ c.1.ingressActor = some (w.eventId, worker)) ∨
        ∃ worker limit seconds now, c.1 = .claimIngressWork worker limit seconds now ∧
          w.leaseUntil.any (· ≤ nowIso now) = true ∧ w'.workerId = some worker) := by
  cases hmove with
  | kept => exact ⟨fun _ => rfl, fun _ hne => absurd rfl hne⟩
  | claimed hdue =>
    refine ⟨fun hfinal => ?_, fun hstatus _ => .inr ⟨_, _, _, _, rfl, ?_, rfl⟩⟩
    · cases hs : w.status <;> simp [IngressWork.claimable, hs, IngressStatus.final] at hdue hfinal
    · simpa [IngressWork.claimable, hstatus] using hdue
  | completed howner | returned howner | renewed howner =>
    simp only [IngressWork.ownedBy, Bool.and_eq_true, decide_eq_true_eq] at howner
    refine ⟨fun hfinal => ?_, fun _ _ => .inl ⟨_, howner.2, rfl⟩⟩
    rw [howner.1.2] at hfinal
    cases hfinal

end History

/-- The calls on ingress work. -/
def Op.isIngressWork : Op → Bool
  | .claimIngressWork .. | .completeIngressWork .. | .returnIngressWork ..
  | .renewIngressWorkLease .. => true
  | _ => false

/-- What ownership means for one call on a store. -/
structure OwnedStep (x : Externals) (db : Db) (op : Op) : Prop where
  /-- A row never leaves a final status. A processing row is changed by a call of its worker, or
  by a claim after its lease, which makes the claimant its worker. It becomes completed only by a
  completion. -/
  rows : ∀ w ∈ db.ingressWork.rows, ∃ w' ∈ (step x db op).1.ingressWork.rows,
    w'.eventId = w.eventId ∧ (w.status.final = true → w' = w) ∧
    (w.status = .processing → ∃ worker, w.workerId = some worker ∧
      (w' ≠ w → op.ingressActor = some (w.eventId, worker) ∨
        ∃ other limit seconds now, op = .claimIngressWork other limit seconds now ∧
          w.leaseUntil.any (· ≤ nowIso now) = true ∧ w'.workerId = some other)) ∧
    (w.status ≠ .completed → w'.status = .completed →
      completesWork w.eventId (op, (step x db op).2) = true)
  /-- A call of a worker that does not hold the row changes nothing. -/
  strangers : ∀ e worker, op.ingressActor = some (e, worker) →
    (∀ w ∈ db.ingressWork.rows, w.ownedBy e worker = false) → (step x db op).1 = db
  /-- Of the calls on ingress work, a completion alone touches dependencies. -/
  dependencies : op.isIngressWork = true →
    (∀ e, completesWork e (op, (step x db op).2) = false) →
    (step x db op).1.dependencies = db.dependencies
  /-- A completion sets `completed` and releases the event's ingress dependency, and no
  other dependency. -/
  completion : ∀ e, completesWork e (op, (step x db op).2) = true →
    (∃ w ∈ (step x db op).1.ingressWork.rows, w.eventId = e ∧ w.status = .completed) ∧
    ∃ at', (step x db op).1.dependencies.rows = db.dependencies.rows.map fun d =>
      if d.ingressOwned e then release at' d else d

section Owned

variable {x : Externals} {db : Db} {op : Op}

theorem owned_strangers {e worker : String} (hactor : op.ingressActor = some (e, worker))
    (hnone : ∀ w ∈ db.ingressWork.rows, w.ownedBy e worker = false) :
    (step x db op).1 = db := by
  have hzero : db.ingressWork.rows.countP (IngressWork.ownedBy e worker) ≠ 1 := by
    rw [countP_eq_zero.mpr fun w hw => by simp [hnone w hw]]
    exact Nat.zero_ne_one
  have hsame : ∀ {b : Bool} {P : Prop} {db' : Db}, (b = false ∧ db' = db) ∨ (b = true ∧
      db.ingressWork.rows.countP (IngressWork.ownedBy e worker) = 1 ∧ P) → db' = db :=
    fun h => h.elim And.right fun h => absurd h.2.1 hzero
  cases op with
  | completeIngressWork =>
    cases hactor
    exact step_cases (P := (· = db)) rfl rfl fun _ _ h => hsame (run_completeIngressWork h)
  | returnIngressWork =>
    cases hactor
    exact step_cases (P := (· = db)) rfl rfl fun _ _ h => hsame (run_returnIngressWork h)
  | renewIngressWorkLease =>
    cases hactor
    exact step_cases (P := (· = db)) rfl rfl fun _ _ h => hsame (run_renewIngressWorkLease h)
  | _ => cases hactor

theorem owned_dependencies (hwork : op.isIngressWork = true)
    (hnone : ∀ e, completesWork e (op, (step x db op).2) = false) :
    (step x db op).1.dependencies = db.dependencies := by
  cases op with
  | completeIngressWork e w now =>
    cases h : (step x db (.completeIngressWork e w now)).2 with
    | error err => rw [step_of_error h]
    | ok ans =>
      obtain ⟨b, rfl, hrun⟩ := run_of_answer rfl h
      rcases run_completeIngressWork hrun with ⟨-, hdb⟩ | ⟨rfl, -⟩
      · rw [hdb]
      · have hcomplete := hnone e
        rw [h] at hcomplete
        simp [completesWork] at hcomplete
  | claimIngressWork | returnIngressWork | renewIngressWorkLease =>
    exact step_table x db _ (t := .dependencies) (by simp [Op.writes])
  | _ => cases hwork

theorem ownedStep {h : List (Op × Except Err Answer)} (hinv : WorkInv h db) :
    OwnedStep x db op where
  strangers _ _ := owned_strangers
  dependencies := owned_dependencies
  completion _ := owned_completion
  rows w hw := by
    obtain ⟨w', hw', hmove⟩ := (step_ingress x db op).moves w hw
    obtain ⟨hfinal, howner⟩ := hmove.owner
    refine ⟨w', hw', hmove.eventId_eq, hfinal, ?_, ?_⟩
    · intro hstatus
      obtain ⟨worker, hworker⟩ := Option.isSome_iff_exists.mp (hinv.held w hw hstatus).2
      refine ⟨worker, hworker, fun hne => (howner hstatus hne).imp ?_ id⟩
      rintro ⟨worker', hworker', hactor⟩
      rw [hworker] at hworker'
      cases hworker'
      exact hactor
    · intro hbefore hafter
      have hcompletes := hmove.completes
      by_contra hnot
      simp [hbefore, hafter, hnot] at hcompletes

end Owned

/-- Ingress work has one owner at a time, its attempts are its claims less its defers, and its one
completion releases the source. -/
theorem ingress_work_owned (x : Externals) (ops : List Op) :
    (∀ pre op post, ops = pre ++ op :: post → OwnedStep x (stateAfter x pre) op) ∧
    (∀ w ∈ (stateAfter x ops).ingressWork.rows,
      w.attempts = ((trace (step x) Db.empty ops).countP (claimsWork w.eventId) : ℤ) -
        (trace (step x) Db.empty ops).countP (defersWork w.eventId) ∧ 0 ≤ w.attempts) ∧
    (∀ e, (trace (step x) Db.empty ops).countP (completesWork e) ≤ 1) ∧
    ∀ w ∈ (stateAfter x ops).ingressWork.rows, w.status = .completed →
      (trace (step x) Db.empty ops).countP (completesWork w.eventId) = 1 ∧
      ∀ d ∈ (stateAfter x ops).dependencies.rows, d.key = (w.eventId, .ingress, w.eventId) →
        d.releasedAt.isSome = true := by
  have hinv := workInv_after x ops
  refine ⟨fun pre op post _ => ownedStep (workInv_after x pre),
    fun w hw => ⟨hinv.attempts w hw, hinv.nonneg w hw⟩, fun e => ?_, fun w hw hstatus => ?_⟩
  · by_cases hrow : ∃ w ∈ (stateAfter x ops).ingressWork.rows, w.eventId = e
    · obtain ⟨w, hw, rfl⟩ := hrow
      rw [hinv.once w hw]
      split <;> omega
    · rw [(hinv.absent e fun w hw hid => hrow ⟨w, hw, hid⟩).2.2]
      exact Nat.zero_le 1
  · exact ⟨by rw [hinv.once w hw, if_pos hstatus], hinv.settled w hw hstatus⟩

end Medre.Storage
