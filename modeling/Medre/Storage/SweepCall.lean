import Mathlib.Data.Prod.Lex
import Medre.Storage.DeadlineAgreement

/-! # One call of the deadline sweep

`retire_expired_unstarted_outbox` goes over a part of the unclaimed rows, in pages, and stores
where it stopped; it raises only at a row whose bounds do. -/

namespace Medre.Storage

open List Medre.Framework Tx

variable {after : String × String} {last r : OutboxRow} {page rest rows : List OutboxRow}
  {db'' : Db} {effective o : String} {budget fuel limit : ℕ}

/-! ## What there is to do -/

namespace OutboxRow

/-- Pending or waiting for a retry, and in nobody's hands. -/
def waiting (r : OutboxRow) : Bool := r.status.isClaimable && r.unclaimed

def place (r : OutboxRow) : String ×ₗ String := toLex r.sweepKey

theorem sweepLt_iff {a b : String × String} : sweepLt a b = true ↔ toLex a < toLex b := by
  simp only [sweepLt, Bool.or_eq_true, Bool.and_eq_true, decide_eq_true_eq, Prod.Lex.toLex_lt_toLex]

theorem sweepCandidate_iff :
    r.sweepCandidate after = true ↔ r.waiting = true ∧ toLex after < r.place := by
  rw [sweepCandidate, Bool.and_eq_true, sweepLt_iff]
  rfl

theorem start_lt_place (h : r.createdAt ≠ "") : toLex ("", "") < r.place := by
  have hlt : "" < r.createdAt := by
    rw [String.lt_iff_toList_lt]
    cases hchars : r.createdAt.toList with
    | nil => exact absurd (String.toList_eq_nil_iff.mp hchars) h
    | cons c cs => exact nil_lt_cons c cs
  exact Prod.Lex.toLex_lt_toLex.mpr (.inl hlt)

end OutboxRow

/-- The bounds parse and the earliest has elapsed. -/
def Db.elapsedAt (db : Db) (observed : String) (r : OutboxRow) : Bool :=
  match db.deadlineBounds r.eventId r.outboxId with
  | .ok (some bounds) => bounds.min?.any (· ≤ observed)
  | _ => false

/-- A waiting row without a sibling of its generation or a newer one, past its deadline. -/
def Db.retires (db : Db) (observed : String) (r : OutboxRow) : Bool :=
  r.waiting && r.noSiblingFrom db.outbox.rows r.generation && db.elapsedAt observed r

/-- A waiting row at which a sweep raises: a bound that cannot be normalized, although it
is an ISO text, or the empty id of a row it should retire. -/
def Db.stops (db : Db) (observed : String) (r : OutboxRow) : Bool :=
  r.waiting &&
    ((match db.deadlineBounds r.eventId r.outboxId with
      | .ok _ => false
      | .error _ => true) ||
      (db.retires observed r && r.outboxId = ""))

/-! ## The queue of a sweep -/

/-- The candidates of `_CANDIDATES_SQL` without a limit. -/
def Db.sweepQueue (db : Db) (after : String × String) : List OutboxRow :=
  (db.outbox.rows.filter (OutboxRow.sweepCandidate after)).insertionSort
    fun r s => !OutboxRow.sweepLt s.sweepKey r.sweepKey

theorem mem_sweepQueue {db : Db} :
    r ∈ db.sweepQueue after ↔
      r ∈ db.outbox.rows ∧ r.waiting = true ∧ toLex after < r.place := by
  rw [Db.sweepQueue, mem_insertionSort, mem_filter, OutboxRow.sweepCandidate_iff]

theorem sweepQueue_sorted (db : Db) (after : String × String) :
    (db.sweepQueue after).Pairwise fun r s => r.place < s.place := by
  have hiff (r s : OutboxRow) :
      (!OutboxRow.sweepLt s.sweepKey r.sweepKey) = true ↔ r.place ≤ s.place := by
    rw [Bool.not_eq_true', ← Bool.not_eq_true, OutboxRow.sweepLt_iff, not_lt]
    rfl
  have htotal : Std.Total fun r s : OutboxRow =>
      (!OutboxRow.sweepLt s.sweepKey r.sweepKey) = true := by
    refine ⟨fun r s => ?_⟩
    rw [hiff, hiff]
    exact le_total _ _
  have htrans : IsTrans OutboxRow fun r s =>
      (!OutboxRow.sweepLt s.sweepKey r.sweepKey) = true := by
    refine ⟨fun r s t hrs hst => ?_⟩
    rw [hiff] at hrs hst ⊢
    exact hrs.trans hst
  have hsorted := pairwise_insertionSort
    (fun r s : OutboxRow => (!OutboxRow.sweepLt s.sweepKey r.sweepKey) = true)
    (db.outbox.rows.filter (OutboxRow.sweepCandidate after))
  have hnodup : (db.sweepQueue after).Nodup :=
    (perm_insertionSort _ _).nodup_iff.mpr ((outbox_nodup db.outbox).filter _)
  refine List.Pairwise.imp_of_mem ?_ (hsorted.and hnodup)
  rintro r s hr hs ⟨hle, hne⟩
  refine lt_of_le_of_ne ((hiff r s).mp hle) fun heq => hne ?_
  have hid : r.outboxId = s.outboxId := congrArg (fun p => (ofLex p).2) heq
  exact outbox_eq_of_id db.outbox (mem_sweepQueue.mp hr).1 (mem_sweepQueue.mp hs).1 hid

/-! ## The middle of a sweep -/

/-- Of the rows whose ids are in `done`, those there was something to do about. -/
def Db.gone (db : Db) (observed : String) (done : List String) (r : OutboxRow) : Bool :=
  done.contains r.outboxId && db.retires observed r

/-- Sweeps have come from `db` to `db'`, past the rows whose ids are in `done`. The bounds of
the rows that still wait are those of `db`. -/
structure SweptPast (observed : String) (done : List String) (db db' : Db) : Prop where
  rows : db'.outbox.rows =
    db.outbox.rows.map fun r => if db.gone observed done r then r.retire observed else r
  bounds : ∀ r ∈ db.outbox.rows, db.gone observed done r = false →
    db'.deadlineBounds r.eventId r.outboxId = db.deadlineBounds r.eventId r.outboxId

section Middle

variable {observed : String} {done : List String} {db db' : Db}

theorem noSiblingFrom_map {f : OutboxRow → OutboxRow}
    (hf : ∀ s, (f s).outboxId = s.outboxId ∧ (f s).identity = s.identity ∧
      (f s).generation = s.generation) (r : OutboxRow) (g : ℤ) :
    r.noSiblingFrom (rows.map f) g = r.noSiblingFrom rows g := by
  rw [Bool.eq_iff_iff, OutboxRow.noSiblingFrom_iff, OutboxRow.noSiblingFrom_iff, forall_mem_map]
  refine forall₂_congr fun s _ => ?_
  rw [(hf s).1, (hf s).2.1, (hf s).2.2]

theorem gone_append (db : Db) (observed : String) (done more : List String) (r : OutboxRow) :
    db.gone observed (done ++ more) r = (db.gone observed done r || db.gone observed more r) := by
  simp only [Db.gone, contains_eq_mem, mem_append, Bool.decide_or, Bool.and_or_distrib_right]

namespace SweptPast

theorem refl (observed : String) (db : Db) : SweptPast observed [] db db := by
  refine ⟨?_, fun _ _ _ => rfl⟩
  simp [Db.gone]

theorem fence (h : SweptPast observed done db db') (r : OutboxRow) (g : ℤ) :
    r.noSiblingFrom db'.outbox.rows g = r.noSiblingFrom db.outbox.rows g := by
  rw [h.rows]
  refine noSiblingFrom_map (fun s => ?_) r g
  split <;> exact ⟨rfl, rfl, rfl⟩

theorem mem_of_waiting (h : SweptPast observed done db db') (hr : r ∈ db.outbox.rows)
    (hgone : db.gone observed done r = false) :
    r ∈ db'.outbox.rows := by
  rw [h.rows, mem_map]
  exact ⟨r, hr, by rw [hgone]; rfl⟩

theorem waiting_iff (h : SweptPast observed done db db') :
    r ∈ db'.outbox.rows ∧ r.waiting = true ↔
      r ∈ db.outbox.rows ∧ r.waiting = true ∧ db.gone observed done r = false := by
  constructor
  · rintro ⟨hr', hwait⟩
    rw [h.rows, mem_map] at hr'
    obtain ⟨s, hs, rfl⟩ := hr'
    cases hgone : db.gone observed done s with
    | true =>
      rw [hgone] at hwait
      cases hwait
    | false =>
      rw [hgone] at hwait
      exact ⟨hs, hwait, hgone⟩
  · rintro ⟨hr, hwait, hgone⟩
    exact ⟨h.mem_of_waiting hr hgone, hwait⟩

theorem mem_queue (h : SweptPast observed done db db') :
    r ∈ db'.sweepQueue after ↔ r ∈ db.outbox.rows ∧ r.waiting = true ∧
      db.gone observed done r = false ∧ toLex after < r.place := by
  rw [mem_sweepQueue, ← and_assoc, h.waiting_iff]
  simp only [and_assoc]

theorem queue_rest {part : List OutboxRow} (h : SweptPast observed done db db')
    (h' : SweptPast observed (done ++ part.map OutboxRow.outboxId) db db'')
    (hqueue : db'.sweepQueue after = part ++ rest) (hlast : part.getLast? = some last) :
    db''.sweepQueue last.sweepKey = rest := by
  have hsorted := hqueue ▸ sweepQueue_sorted db' after
  obtain ⟨hpart, hrest, hacross⟩ := pairwise_append.mp hsorted
  obtain ⟨init, rfl⟩ := getLast?_eq_some_iff.mp hlast
  have hlastmem : last ∈ init ++ [last] := by simp
  have hle : ∀ t ∈ init ++ [last], t.place ≤ last.place := by
    intro t ht
    rcases mem_append.mp ht with hinit | htail
    · exact ((pairwise_append.mp hpart).2.2 t hinit last (by simp)).le
    · rw [mem_singleton.mp htail]
  have hmem (s : OutboxRow) : s ∈ (init ++ [last]) ++ rest ↔ s ∈ db.outbox.rows ∧
      s.waiting = true ∧ db.gone observed done s = false ∧ toLex after < s.place := by
    rw [← hqueue, h.mem_queue]
  refine (sweepQueue_sorted db'' last.sweepKey).eq_of_mem_iff hrest fun s => ?_
  rw [h'.mem_queue, gone_append, Bool.or_eq_false_iff]
  constructor
  · rintro ⟨hs, hwait, ⟨hgone, -⟩, hlt⟩
    have hlt' : last.place < s.place := hlt
    have hafter := ((hmem last).mp (mem_append_left _ hlastmem)).2.2.2
    have hs' := (hmem s).mpr ⟨hs, hwait, hgone, hafter.trans hlt'⟩
    exact (mem_append.mp hs').resolve_left fun hin => absurd hlt' (hle s hin).not_gt
  · intro hs
    obtain ⟨hrow, hwait, hgone, -⟩ := (hmem s).mp (mem_append_right _ hs)
    refine ⟨hrow, hwait, ⟨hgone, ?_⟩, hacross last hlastmem s hs⟩
    -- an id of the part is that of another row
    have hfresh : s.outboxId ∉ (init ++ [last]).map OutboxRow.outboxId := by
      intro hin
      obtain ⟨t, ht, hid⟩ := mem_map.mp hin
      have htrow := ((hmem t).mp (mem_append_left _ ht)).1
      obtain rfl := outbox_eq_of_id db.outbox htrow hrow hid
      exact lt_irrefl _ (hacross t ht t hs)
    simp only [Db.gone, contains_eq_mem, hfresh, decide_false, Bool.false_and]

end SweptPast

/-! ## One row -/

theorem deadlineBounds_congr {e : String} (hpolicies : db'.policies = db.policies)
    (hdeps : ((db'.dependencies.rows.find? fun d =>
      d.eventId = e && d.ownerKind = .outbox && d.ownerId = o).bind Dependency.deadline) =
      (db.dependencies.rows.find? fun d =>
      d.eventId = e && d.ownerKind = .outbox && d.ownerId = o).bind Dependency.deadline)
    (hcontext : db'.dispatchContext o = db.dispatchContext o) :
    db'.deadlineBounds e o = db.deadlineBounds e o := by
  unfold Db.deadlineBounds
  rw [hpolicies, hdeps, hcontext]

theorem settle_ok (db : Db) (o e t : String) :
    ∃ deps, (settleOutboxContentDependency o e t).run db =
        .ok ((), { db with dependencies := deps }) ∧
      ∀ e' o', ((deps.rows.find? fun d =>
          d.eventId = e' && d.ownerKind = .outbox && d.ownerId = o').bind Dependency.deadline) =
        (db.dependencies.rows.find? fun d =>
          d.eventId = e' && d.ownerKind = .outbox && d.ownerId = o').bind Dependency.deadline := by
  obtain ⟨deps, hdeps⟩ := Table.update_some (t := db.dependencies)
    (p := fun d => d.eventId = e && d.ownerKind = .outbox && d.ownerId = o &&
      d.releasedAt.isNone) (f := release t)
    (fun d hd _ => db.dependencies.checked d hd) (by
      intro d d'
      split <;> split <;> rfl)
  refine ⟨deps, ?_, ?_⟩
  · simp only [settleOutboxContentDependency, run_bind, run_pure]
    exact ⟨_, _, run_updateTable.mpr ⟨deps, hdeps, rfl, rfl⟩, trivial, rfl⟩
  · intro e' o'
    rw [Table.rows_update hdeps, find?_map]
    have hkey : ((fun d : Dependency =>
        (d.eventId = e' && d.ownerKind = .outbox && d.ownerId = o' : Bool)) ∘
        fun d => if (d.eventId = e && d.ownerKind = .outbox && d.ownerId = o &&
          d.releasedAt.isNone : Bool) then release t d else d) =
        fun d => d.eventId = e' && d.ownerKind = .outbox && d.ownerId = o' := by
      funext d
      simp only [Function.comp_apply]
      split <;> rfl
    rw [hkey, Option.bind_map]
    congr 1
    funext d
    simp only [Function.comp_apply]
    split <;> rfl

theorem insertDiagnostic_ok (db : Db) {d : Diagnostic} (hid : d.rowId ≠ "")
    (hattempt : 0 ≤ d.attempt) : ∃ db', (insertDiagnostic d).run db = .ok ((), db') := by
  have hins : ∃ t, db.diagnostics.insert d = some t := by
    refine ⟨_, dif_pos ⟨?_, pairwise_of_forall fun _ _ => rfl⟩⟩
    intro d' hd'
    rcases mem_append.mp hd' with hold | hnew
    · exact db.diagnostics.checked d' hold
    · rw [mem_singleton.mp hnew]
      simp [diagnosticConstraint, hid, hattempt]
  obtain ⟨t, ht⟩ := hins
  exact ⟨_, run_insertInto.mpr ⟨t, ht, rfl⟩⟩

theorem diagnosticOps_ok (db : Db) (ho : o ≠ "") (detail summary : Option String) (t : String) :
    ∃ db', (outboxDiagnosticOps detail summary t o).run db = .ok ((), db') ∧
      (offTables [.diagnostics]).rel db db' := by
  have hone (db : Db) (field : DiagnosticField) (value : Option String) :
      ∃ db', (outboxDiagnosticOp field value t o).run db = .ok ((), db') := by
    cases value with
    | none => exact ⟨db, rfl⟩
    | some text =>
      have hread : (Tx.query id : StoreTx Db).run db = .ok (db, db) := rfl
      rw [outboxDiagnosticOp, insertOutboxDiagnostic, run_bind_of_ok hread]
      cases hrow : db.outboxRow? o with
      | none => exact ⟨db, rfl⟩
      | some r =>
        obtain ⟨hr, rfl⟩ := (outboxRow?_eq_some_iff db o r).mp hrow
        have hcheck : r.check = true := db.outbox.checked r hr
        simp only [OutboxRow.check, Bool.and_eq_true, decide_eq_true_eq] at hcheck
        have hinsert := insertDiagnostic_ok db
          (d := { family := .outbox, rowId := r.outboxId, attempt := r.attemptNumber, field
                  diagnostic := text, createdAt := t }) ho hcheck.1.1.1.1
        cases field <;> dsimp only <;> split <;> first | exact hinsert | exact ⟨db, rfl⟩
  obtain ⟨db1, h1⟩ := hone db .failureKindDetail detail
  obtain ⟨db2, h2⟩ := hone db1 .errorSummary summary
  have hrun : (outboxDiagnosticOps detail summary t o).run db = .ok ((), db2) := by
    simp only [outboxDiagnosticOps, run_bind]
    exact ⟨(), db1, h1, h2⟩
  exact ⟨db2, hrun, follows_outboxDiagnosticOps
    (footprint_rules [.diagnostics] fun _ => False) (by decide) _ _ _ hrun⟩

theorem retire_update (db : Db) (observed : String) (seen : OutboxRow) :
    ∃ t, db.outbox.update (OutboxRow.retirable db.outbox.rows seen) (OutboxRow.retire observed) =
      some t := by
  refine Table.update_some ?_ ?_
  · intro r hr hp
    have hcheck : r.check = true := db.outbox.checked r hr
    simp only [OutboxRow.retirable, OutboxRow.unclaimed, Bool.and_eq_true,
      Option.isNone_iff_eq_none] at hp
    have hactive : r.activeAttempt = none := hp.1.2.1.1.1
    show (r.retire observed).check = true
    simp only [OutboxRow.check, OutboxRow.retire, hactive, Bool.and_eq_true, Option.isNone_none,
      Bool.true_or, Option.all_none, decide_eq_true_eq] at hcheck ⊢
    exact hcheck
  · intro r s
    split <;> split <;> rfl

theorem retirable_iff {seen : OutboxRow} (hwait : seen.waiting = true)
    (hfence : seen.noSiblingFrom rows seen.generation = true)
    (hrow : r.outboxId = seen.outboxId → r = seen) :
    OutboxRow.retirable rows seen r = decide (r.outboxId = seen.outboxId) := by
  rw [Bool.eq_iff_iff, decide_eq_true_eq]
  constructor
  · intro h
    simp only [OutboxRow.retirable, Bool.and_eq_true, decide_eq_true_eq] at h
    exact h.1.1.1.1.1
  · intro h
    rw [hrow h]
    simp only [OutboxRow.waiting, Bool.and_eq_true] at hwait
    simp only [OutboxRow.retirable, decide_true, hwait.2, hfence, Bool.and_self]

theorem retirable_count (hr : r ∈ db.outbox.rows) (hwait : r.waiting = true)
    (hfence : r.noSiblingFrom db.outbox.rows r.generation = true) :
    db.outbox.rows.countP (OutboxRow.retirable db.outbox.rows r) = 1 := by
  have hle := countP_le_one db.outbox (p := OutboxRow.retirable db.outbox.rows r)
    (o := r.outboxId) fun s hs => by
      simp only [OutboxRow.retirable, Bool.and_eq_true, decide_eq_true_eq] at hs
      exact hs.1.1.1.1.1
  have hself : OutboxRow.retirable db.outbox.rows r r = true := by
    rw [retirable_iff hwait hfence fun _ => rfl]
    exact decide_eq_true rfl
  have hpos := countP_pos_iff.mpr ⟨r, hr, hself⟩
  omega

theorem retireCandidate_ok (observed effective : String) (hr : r ∈ db.outbox.rows)
    (hwait : r.waiting = true) (hfence : r.noSiblingFrom db.outbox.rows r.generation = true)
    (hid : r.outboxId ≠ "") :
    ∃ ret db', (retireCandidate observed effective r).run db = .ok (some ret, db') ∧
      ret.outboxId = r.outboxId ∧
      db'.outbox.rows =
        (db.outbox.rows.map fun s => if s.outboxId = r.outboxId then s.retire observed else s) ∧
      ∀ s ∈ db.outbox.rows, s.outboxId ≠ r.outboxId →
        db'.deadlineBounds s.eventId s.outboxId = db.deadlineBounds s.eventId s.outboxId := by
  obtain ⟨t, ht⟩ := retire_update db observed r
  have hguard : ∀ s ∈ db.outbox.rows,
      OutboxRow.retirable db.outbox.rows r s = decide (s.outboxId = r.outboxId) :=
    fun s hs => retirable_iff hwait hfence fun h => outbox_eq_of_id db.outbox hs hr h
  have hcount := retirable_count hr hwait hfence
  obtain ⟨deps, hsettle, hdeps⟩ := settle_ok { db with outbox := t } r.outboxId r.eventId observed
  obtain ⟨db4, hdiag, hoff⟩ := diagnosticOps_ok
    { db with
      outbox := t, dependencies := deps
      snapshots := db.snapshots.delete fun s => s.outboxId = r.outboxId } hid (some "")
    (some deadlineRetirementSummary) observed
  have hrows : t.rows =
      db.outbox.rows.map fun s => if s.outboxId = r.outboxId then s.retire observed else s := by
    rw [Table.rows_update ht]
    refine map_congr_left fun s hs => ?_
    rw [hguard s hs]
    simp only [decide_eq_true_eq]
  have houtbox : db4.outbox = t := hoff .outbox (by decide)
  refine ⟨{ outboxId := r.outboxId, eventId := r.eventId, attemptNumber := r.attemptNumber
            priorStatus := r.status, effectiveDeadline := effective, retiredAt := observed },
    db4, ?_, rfl, houtbox ▸ hrows, ?_⟩
  · simp only [retireCandidate, run_bind, run_query]
    refine ⟨_, _, ⟨rfl, rfl⟩, _, _, run_updateTable.mpr ⟨t, ht, rfl, rfl⟩, ?_⟩
    rw [if_neg (not_not.mpr hcount)]
    simp only [run_bind, run_pure]
    exact ⟨_, _, hsettle, _, _, rfl, _, _, hdiag, trivial, rfl⟩
  · intro s hs hne
    have hs' : s ∈ db4.outbox.rows := by
      rw [houtbox, hrows, mem_map]
      exact ⟨s, hs, if_neg hne⟩
    have hsnaps : db4.snapshots = db.snapshots.delete fun s => s.outboxId = r.outboxId :=
      hoff .snapshots (by decide)
    have hdeps4 : db4.dependencies = deps := hoff .dependencies (by decide)
    refine deadlineBounds_congr (hoff .policies (by decide)) (hdeps4 ▸ hdeps _ _) ?_
    refine dispatchContext_congr hs hs' rfl rfl rfl fun snap hsnap => ?_
    rw [hsnaps, Table.rows_delete, mem_filter, and_iff_left_iff_imp]
    intro _
    rw [hsnap]
    simpa using hne

theorem retireCandidate_fenced {observed : String} (hr : r ∈ db.outbox.rows)
    (hfence : r.noSiblingFrom db.outbox.rows r.generation = false) :
    (retireCandidate observed effective r).run db = .ok (none, db) := by
  obtain ⟨t, ht⟩ := retire_update db observed r
  have hzero : db.outbox.rows.countP (OutboxRow.retirable db.outbox.rows r) = 0 := by
    refine countP_eq_zero.mpr fun s hs hp => ?_
    simp only [OutboxRow.retirable, Bool.and_eq_true, decide_eq_true_eq] at hp
    rw [outbox_eq_of_id db.outbox hs hr hp.1.1.1.1.1, hfence] at hp
    cases hp.2
  simp only [retireCandidate, run_bind, run_query]
  refine ⟨_, _, ⟨rfl, rfl⟩, _, _, run_updateTable.mpr ⟨t, ht, rfl, rfl⟩, ?_⟩
  rw [hzero, if_pos (by decide), Table.eq_of_update_none ht hzero]
  rfl

theorem diagnosticOps_no_id {detail : Option String} {summary t : String} {u : Unit}
    (hr : r ∈ db.outbox.rows) (hid : r.outboxId = "") (hsummary : summary ≠ "") :
    (outboxDiagnosticOps detail (some summary) t "").run db ≠ .ok (u, db') := by
  intro h
  simp only [outboxDiagnosticOps, run_bind] at h
  obtain ⟨_, db1, hfirst, hsecond⟩ := h
  have houtbox : db1.outbox = db.outbox := follows_outboxDiagnosticOp
    (footprint_rules [.diagnostics] fun _ => False) (by decide) _ _ _ hfirst .outbox
    (by decide)
  have hrow : db1.outboxRow? "" = some r :=
    (outboxRow?_eq_some_iff db1 "" r).mpr ⟨houtbox ▸ hr, hid⟩
  simp only [outboxDiagnosticOp, insertOutboxDiagnostic, run_bind, run_query] at hsecond
  obtain ⟨_, _, ⟨rfl, rfl⟩, hsecond⟩ := hsecond
  simp only [id, hrow, ne_eq, hsummary, not_false_eq_true, decide_true, Bool.true_or,
    if_true] at hsecond
  obtain ⟨tab, hins, -⟩ := run_insertInto.mp hsecond
  have hcheck := Table.check_of_insert hins
  simp [diagnosticConstraint, hid] at hcheck

theorem retireCandidate_no_id {observed : String} {a : Option DeadlineRetirement}
    (hr : r ∈ db.outbox.rows) (hwait : r.waiting = true)
    (hfence : r.noSiblingFrom db.outbox.rows r.generation = true) (hid : r.outboxId = "") :
    (retireCandidate observed effective r).run db ≠ .ok (a, db') := by
  intro h
  simp only [retireCandidate, run_bind, run_query] at h
  obtain ⟨rows, _, ⟨rfl, rfl⟩, n, db1, hupd, hrest⟩ := h
  obtain ⟨t, hu, rfl, rfl⟩ := run_updateTable.mp hupd
  rw [if_neg (not_not.mpr (retirable_count hr hwait hfence))] at hrest
  simp only [run_bind] at hrest
  obtain ⟨_, db2, hsettle, _, db3, hretire, _, db4, hdiag, -⟩ := hrest
  have h2 : db2.outbox = t := follows_settle (footprint_rules [.dependencies] fun _ => False)
    (by decide) _ _ _ hsettle .outbox (by decide)
  obtain rfl := run_modify.mp hretire
  have hmem : r.retire observed ∈ db2.outbox.rows := by
    rw [h2, Table.mem_update hu]
    refine ⟨r, hr, ?_⟩
    rw [retirable_iff hwait hfence fun _ => rfl, if_pos (decide_eq_true rfl)]
  have hsummary : deadlineRetirementSummary ≠ "" := by decide
  rw [hid] at hdiag
  refine diagnosticOps_no_id (r := r.retire observed) ?_ hid hsummary hdiag
  exact hmem

theorem gone_singleton {s : OutboxRow} (hr : r ∈ db.outbox.rows) (hs : s ∈ db.outbox.rows) :
    db.gone observed [r.outboxId] s =
      (decide (s.outboxId = r.outboxId) && db.retires observed r) := by
  simp only [Db.gone, contains_eq_mem, mem_singleton]
  by_cases hid : s.outboxId = r.outboxId
  · rw [outbox_eq_of_id db.outbox hs hr hid]
  · simp only [hid, decide_false, Bool.false_and]

namespace SweptPast

theorem skip (h : SweptPast observed done db db') (hr : r ∈ db.outbox.rows)
    (hskip : db.retires observed r = false) :
    SweptPast observed (done ++ [r.outboxId]) db db' := by
  have hgone : ∀ s ∈ db.outbox.rows,
      db.gone observed (done ++ [r.outboxId]) s = db.gone observed done s := by
    intro s hs
    rw [gone_append, gone_singleton hr hs, hskip, Bool.and_false, Bool.or_false]
  refine ⟨?_, fun s hs hwait => h.bounds s hs (hgone s hs ▸ hwait)⟩
  rw [h.rows]
  exact map_congr_left fun s hs => by rw [hgone s hs]

theorem retired (h : SweptPast observed done db db') (hr : r ∈ db.outbox.rows)
    (hgone : db.gone observed done r = false) (hdue : db.retires observed r = true)
    (hrows : db''.outbox.rows = db'.outbox.rows.map fun s =>
      if s.outboxId = r.outboxId then s.retire observed else s)
    (hbounds : ∀ s ∈ db'.outbox.rows, s.outboxId ≠ r.outboxId →
      db''.deadlineBounds s.eventId s.outboxId = db'.deadlineBounds s.eventId s.outboxId) :
    SweptPast observed (done ++ [r.outboxId]) db db'' := by
  have hmore : ∀ s ∈ db.outbox.rows, db.gone observed (done ++ [r.outboxId]) s =
      (db.gone observed done s || decide (s.outboxId = r.outboxId)) := by
    intro s hs
    rw [gone_append, gone_singleton hr hs, hdue, Bool.and_true]
  refine ⟨?_, ?_⟩
  · rw [hrows, h.rows, map_map]
    refine map_congr_left fun s hs => ?_
    rw [hmore s hs, Function.comp_apply]
    cases hs' : db.gone observed done s with
    | true =>
      have hne : s.outboxId ≠ r.outboxId := by
        intro hid
        rw [outbox_eq_of_id db.outbox hs hr hid, hgone] at hs'
        cases hs'
      exact if_neg hne
    | false => simp only [Bool.false_or, Bool.false_eq_true, if_false, decide_eq_true_eq]
  · intro s hs hwait
    rw [hmore s hs, Bool.or_eq_false_iff, decide_eq_false_iff_not] at hwait
    rw [hbounds s (h.mem_of_waiting hs hwait.1) hwait.2]
    exact h.bounds s hs hwait.1

end SweptPast

/-- A sweep at a row it has not dealt with yet: it raises at a row that stops it, and retires the
row exactly if there is something to do about it. -/
theorem sweepRow_spec (h : SweptPast observed done db db') (hr : r ∈ db.outbox.rows)
    (hwait : r.waiting = true) (hgone : db.gone observed done r = false) :
    (db.stops observed r = true ∧ ∃ e, (sweepRow observed r).run db' = .error e) ∨
      (db.stops observed r = false ∧ ∃ ret db'', (sweepRow observed r).run db' = .ok (ret, db'') ∧
        ret.toList.map DeadlineRetirement.outboxId =
          ([r].filter (db.retires observed)).map OutboxRow.outboxId ∧
        SweptPast observed (done ++ [r.outboxId]) db db'') := by
  have hr' := h.mem_of_waiting hr hgone
  have hread : (Tx.query fun d : Db => d.deadlineBounds r.eventId r.outboxId : StoreTx _).run db' =
      .ok (db.deadlineBounds r.eventId r.outboxId, db') := by
    rw [← h.bounds r hr hgone]
    rfl
  cases hbounds : db.deadlineBounds r.eventId r.outboxId with
  | error e =>
    left
    rw [hbounds] at hread
    refine ⟨by simp [Db.stops, hwait, hbounds], e, ?_⟩
    rw [sweepRow, run_bind_of_ok hread]
    exact run_bind_of_error rfl
  | ok bounds =>
    rw [hbounds] at hread
    have hstops : db.stops observed r = (db.retires observed r && decide (r.outboxId = "")) := by
      simp [Db.stops, hwait, hbounds]
    have hlift : (Tx.lift (.ok bounds) : StoreTx _).run db' = .ok (bounds, db') := rfl
    have hrun : (sweepRow observed r).run db' = _ :=
      (run_bind_of_ok hread).trans (run_bind_of_ok hlift)
    -- nothing to do: the row is passed
    have hpass (hskip : db.retires observed r = false)
        (hnone : (sweepRow observed r).run db' = .ok (none, db')) :
        db.stops observed r = false ∧ ∃ ret db'', (sweepRow observed r).run db' =
          .ok (ret, db'') ∧ ret.toList.map DeadlineRetirement.outboxId =
            ([r].filter (db.retires observed)).map OutboxRow.outboxId ∧
          SweptPast observed (done ++ [r.outboxId]) db db'' := by
      refine ⟨by rw [hstops, hskip, Bool.false_and], none, db', hnone, ?_, h.skip hr hskip⟩
      simp [hskip]
    cases hmin : bounds.bind List.min? with
    | none =>
      right
      rw [hmin] at hrun
      refine hpass ?_ hrun
      cases bounds with
      | none => simp [Db.retires, Db.elapsedAt, hbounds]
      | some bs => simp_all [Db.retires, Db.elapsedAt]
    | some effective =>
      obtain ⟨bs, rfl, hbs⟩ := Option.bind_eq_some_iff.mp hmin
      rw [hmin] at hrun
      by_cases hlt : observed < effective
      · right
        refine hpass ?_ (hrun.trans ?_)
        · simp [Db.retires, Db.elapsedAt, hbounds, hbs, hlt]
        · simp only [hlt, if_true]
          rfl
      · have hrun' : (sweepRow observed r).run db' =
            (retireCandidate observed effective r).run db' := by
          rw [hrun]
          simp only [hlt, if_false]
        have hdue : db.retires observed r =
            r.noSiblingFrom db.outbox.rows r.generation := by
          simp [Db.retires, Db.elapsedAt, hbounds, hbs, not_lt.mp hlt, hwait]
        have hfence := h.fence r r.generation
        cases hsib : r.noSiblingFrom db.outbox.rows r.generation with
        | false =>
          right
          rw [hsib] at hdue hfence
          exact hpass hdue (hrun'.trans (retireCandidate_fenced hr' hfence))
        | true =>
          rw [hsib] at hdue hfence
          rw [hstops, hdue, Bool.true_and, hrun']
          by_cases hid : r.outboxId = ""
          · left
            refine ⟨decide_eq_true hid, ?_⟩
            cases hretire : (retireCandidate observed effective r).run db' with
            | error e => exact ⟨e, rfl⟩
            | ok p => exact absurd hretire (retireCandidate_no_id hr' hwait hfence hid)
          · right
            obtain ⟨ret, db'', hok, hret, hrows, hkeep⟩ :=
              retireCandidate_ok observed effective hr' hwait hfence hid
            refine ⟨decide_eq_false hid, some ret, db'', hok, ?_,
              h.retired hr hgone hdue hrows hkeep⟩
            simp [hdue, hret]

/-! ## Pages -/

/-- What a sweep has counted and retired while it went over `part`. -/
structure Examines (observed : String) (db : Db) (s : Sweep) (part : List OutboxRow)
    (s' : Sweep) : Prop where
  examined : s'.examined = s.examined + part.length
  retired : s'.retired.map DeadlineRetirement.outboxId =
    s.retired.map DeadlineRetirement.outboxId ++
      (part.filter (db.retires observed)).map OutboxRow.outboxId
  clear : ∀ r ∈ part, db.stops observed r = false

namespace Examines

variable {s s' s'' : Sweep} {part more : List OutboxRow}

theorem refl (observed : String) (db : Db) (s : Sweep) : Examines observed db s [] s :=
  ⟨rfl, (append_nil _).symm, fun _ hr => absurd hr not_mem_nil⟩

theorem trans (h : Examines observed db s part s') (h' : Examines observed db s' more s'') :
    Examines observed db s (part ++ more) s'' := by
  refine ⟨?_, ?_, ?_⟩
  · rw [h'.examined, h.examined, length_append, Nat.add_assoc]
  · rw [h'.retired, h.retired, filter_append, map_append, append_assoc]
  · intro r hr
    exact (mem_append.mp hr).elim (h.clear r) (h'.clear r)

end Examines

def stoppedAt (part : List OutboxRow) (cursor : String × String) : String × String :=
  (part.getLast?.map OutboxRow.sweepKey).getD cursor

theorem stoppedAt_append (part more : List OutboxRow) (cursor : String × String) :
    stoppedAt (part ++ more) cursor = stoppedAt more (stoppedAt part cursor) := by
  unfold stoppedAt
  rw [getLast?_append]
  cases more.getLast? <;> rfl

/-- The rows of a page wait, and have not been dealt with. -/
structure FreshPage (observed : String) (done : List String) (db : Db)
    (page : List OutboxRow) : Prop where
  rows : ∀ r ∈ page, r ∈ db.outbox.rows ∧ r.waiting = true ∧ db.gone observed done r = false
  ids : (page.map OutboxRow.outboxId).Nodup

theorem FreshPage.tail (h : FreshPage observed done db (r :: page)) :
    FreshPage observed (done ++ [r.outboxId]) db page := by
  have hids := h.ids
  rw [map_cons, nodup_cons] at hids
  refine ⟨fun s hs => ?_, hids.2⟩
  obtain ⟨hrow, hwait, hgone⟩ := h.rows s (mem_cons_of_mem _ hs)
  refine ⟨hrow, hwait, ?_⟩
  have hne : s.outboxId ≠ r.outboxId := fun hid => hids.1 (hid ▸ mem_map_of_mem hs)
  rw [gone_append, hgone, gone_singleton (h.rows r mem_cons_self).1 hrow, Bool.false_or]
  simp only [hne, decide_false, Bool.false_and]

/-- One page: the sweep raises at a row that stops it, or examines a part of the page, short of it
only at its limit. -/
theorem sweepPage_spec (h : SweptPast observed done db db')
    (hpage : FreshPage observed done db page) {s : Sweep} (hs : s.retired.length < limit) :
    (∃ e, (sweepPage observed limit page s).run db' = .error e ∧
      ∃ r ∈ page, db.stops observed r = true) ∨
    ∃ part rest s' db'', page = part ++ rest ∧ (page ≠ [] → part ≠ []) ∧
      (sweepPage observed limit page s).run db' = .ok (s', db'') ∧
      SweptPast observed (done ++ part.map OutboxRow.outboxId) db db'' ∧
      Examines observed db s part s' ∧ s'.cursor = stoppedAt part s.cursor ∧
      s'.retired.length ≤ limit ∧ (rest = [] ∨ limit ≤ s'.retired.length) := by
  induction page generalizing done db' s with
  | nil =>
    right
    refine ⟨[], [], s, db', rfl, id, rfl, ?_, .refl _ _ _, rfl, hs.le, .inl rfl⟩
    rw [map_nil, append_nil]
    exact h
  | cons r page ih =>
    obtain ⟨hrow, hwait, hgone⟩ := hpage.rows r mem_cons_self
    rcases sweepRow_spec h hrow hwait hgone with ⟨hstop, e, herr⟩ |
      ⟨hclear, ret, db1, hok, hret, h1⟩
    · left
      exact ⟨e, run_bind_of_error herr, r, mem_cons_self, hstop⟩
    · have hrun : (sweepPage observed limit (r :: page) s).run db' = _ := run_bind_of_ok hok
      generalize hs1 : ({ retired := s.retired ++ ret.toList, examined := s.examined + 1
                          cursor := r.sweepKey } : Sweep) = s1 at hrun
      have hexam : Examines observed db s [r] s1 := by
        subst hs1
        refine ⟨rfl, ?_, fun t ht => mem_singleton.mp ht ▸ hclear⟩
        rw [map_append, hret]
      have hcursor : s1.cursor = stoppedAt [r] s.cursor := by
        subst hs1
        rfl
      have hlen : s1.retired.length = s.retired.length + ret.toList.length := by
        subst hs1
        exact length_append
      have hone : ret.toList.length ≤ 1 := by
        cases ret <;> simp
      by_cases hfull : (ret.isSome && decide (limit ≤ s1.retired.length)) = true
      · right
        rw [if_pos hfull] at hrun
        rw [Bool.and_eq_true, decide_eq_true_eq] at hfull
        exact ⟨[r], page, s1, db1, rfl, nofun, hrun, h1, hexam, hcursor, by omega, .inr hfull.2⟩
      · rw [if_neg hfull] at hrun
        have hroom : s1.retired.length < limit := by
          cases ret with
          | none =>
            rw [hlen]
            exact hs
          | some t => simpa using hfull
        rcases ih h1 hpage.tail hroom with ⟨e, herr, t, ht, hstop⟩ |
          ⟨part, rest, s', db'', rfl, -, hok', h', hexam', hcursor', hle, hrest⟩
        · left
          exact ⟨e, hrun.trans herr, t, mem_cons_of_mem _ ht, hstop⟩
        · right
          refine ⟨r :: part, rest, s', db'', rfl, nofun, hrun.trans hok', ?_,
            hexam.trans hexam', ?_, hle, hrest⟩
          · rw [append_assoc] at h'
            exact h'
          · rw [hcursor', hcursor, ← stoppedAt_append]
            rfl

/-! ## One call -/

theorem SweptPast.queue_fresh (h : SweptPast observed done db db') (after : String × String) :
    FreshPage observed done db (db'.sweepQueue after) := by
  refine ⟨fun r hr => ?_, ?_⟩
  · obtain ⟨hrow, hwait, hgone, -⟩ := h.mem_queue.mp hr
    exact ⟨hrow, hwait, hgone⟩
  · refine pairwise_map.mpr ((sweepQueue_sorted db' after).imp_of_mem ?_)
    intro r s hr hs hlt hid
    have hsame := outbox_eq_of_id db'.outbox (mem_sweepQueue.mp hr).1 (mem_sweepQueue.mp hs).1 hid
    rw [hsame] at hlt
    exact lt_irrefl _ hlt

theorem FreshPage.sublist {page' : List OutboxRow} (h : FreshPage observed done db page)
    (hsub : page'.Sublist page) : FreshPage observed done db page' :=
  ⟨fun r hr => h.rows r (hsub.subset hr), h.ids.sublist (hsub.map _)⟩

theorem FreshPage.rest_nil {part : List OutboxRow} (h : FreshPage observed done db (part ++ rest))
    (hlast : (part ++ rest).getLast? = some last) {t : OutboxRow} (ht : part.getLast? = some t)
    (hid : t.outboxId = last.outboxId) :
    rest = [] := by
  by_contra hne
  have hmem : last ∈ rest := by
    rw [getLast?_append, getLast?_eq_some_getLast hne] at hlast
    cases hlast
    exact getLast_mem hne
  have hids := h.ids
  rw [map_append, nodup_append] at hids
  exact hids.2.2 _ (mem_map_of_mem (mem_of_getLast? ht)) _ (mem_map_of_mem hmem) hid

theorem sweepLoop_end {s : Sweep} (hend : limit ≤ s.retired.length ∨ budget ≤ s.examined)
    (db : Db) :
    (sweepLoop observed limit budget (fuel + 1) s).run db = .ok (s, db) := by
  rw [sweepLoop, if_pos hend]
  rfl

theorem sweepLoop_empty {s : Sweep} (hend : ¬(limit ≤ s.retired.length ∨ budget ≤ s.examined))
    (hpage : (db.sweepQueue s.cursor).take (min 100 (budget - s.examined)) = []) :
    (sweepLoop observed limit budget (fuel + 1) s).run db =
      .ok ({ s with cursor := ("", "") }, db) := by
  have hread : (Tx.query fun d : Db => d.sweepCandidates s.cursor (min 100 (budget - s.examined)) :
      StoreTx _).run db = .ok ([], db) := by
    rw [← hpage]
    rfl
  rw [sweepLoop, if_neg hend]
  exact run_bind_of_ok hread

theorem sweepLoop_page (observed : String) (fuel : ℕ) {s : Sweep}
    (hend : ¬(limit ≤ s.retired.length ∨ budget ≤ s.examined))
    (hpage : (db.sweepQueue s.cursor).take (min 100 (budget - s.examined)) = page)
    (hlast : page.getLast? = some last) :
    (sweepLoop observed limit budget (fuel + 1) s).run db =
      (sweepPage observed limit page s >>= fun s' =>
        if page.length < min 100 (budget - s.examined) ∧ s'.cursor.2 = last.outboxId then
          pure { s' with cursor := ("", "") }
        else sweepLoop observed limit budget fuel s').run db := by
  have hread : (Tx.query fun d : Db => d.sweepCandidates s.cursor (min 100 (budget - s.examined)) :
      StoreTx _).run db = .ok (page, db) := by
    rw [← hpage]
    rfl
  rw [sweepLoop, if_neg hend]
  refine (run_bind_of_ok hread).trans ?_
  simp only [hlast]

/-- The loop raises at a row that stops it, or examines a part of the queue. It starts over only
from the end, and otherwise stops at the last row it examined. -/
theorem sweepLoop_spec (h : SweptPast observed done db db') (limit budget fuel : ℕ) (s : Sweep)
    (hfuel : budget ≤ s.examined + fuel) (hbudget : s.examined ≤ budget)
    (hlimit : s.retired.length ≤ limit) :
    (∃ e, (sweepLoop observed limit budget fuel s).run db' = .error e ∧
      ∃ r ∈ db'.sweepQueue s.cursor, db.stops observed r = true) ∨
    ∃ part rest s' db'', db'.sweepQueue s.cursor = part ++ rest ∧
      (sweepLoop observed limit budget fuel s).run db' = .ok (s', db'') ∧
      SweptPast observed (done ++ part.map OutboxRow.outboxId) db db'' ∧
      Examines observed db s part s' ∧ s'.examined ≤ budget ∧ s'.retired.length ≤ limit ∧
      ((s'.cursor = ("", "") ∧ rest = []) ∨
        (s'.cursor = stoppedAt part s.cursor ∧
          (part = [] → limit ≤ s.retired.length ∨ budget ≤ s.examined))) := by
  have hnil : SweptPast observed (done ++ [].map OutboxRow.outboxId) db db' := by
    rw [map_nil, append_nil]
    exact h
  induction fuel generalizing done db' s with
  | zero =>
    right
    exact ⟨[], _, s, db', rfl, rfl, hnil, .refl _ _ _, hbudget, hlimit,
      .inr ⟨rfl, fun _ => .inr (by omega)⟩⟩
  | succ fuel ih =>
    by_cases hend : limit ≤ s.retired.length ∨ budget ≤ s.examined
    · right
      exact ⟨[], _, s, db', rfl, sweepLoop_end hend db', hnil, .refl _ _ _, hbudget, hlimit,
        .inr ⟨rfl, fun _ => hend⟩⟩
    · have hroom : s.retired.length < limit ∧ s.examined < budget := by omega
      have hsplit := take_append_drop (min 100 (budget - s.examined)) (db'.sweepQueue s.cursor)
      have hsize := length_take (i := min 100 (budget - s.examined)) (l := db'.sweepQueue s.cursor)
      generalize hpage : (db'.sweepQueue s.cursor).take (min 100 (budget - s.examined)) = page
        at hsplit hsize
      have hfresh : FreshPage observed done db page :=
        (h.queue_fresh s.cursor).sublist (hpage ▸ take_sublist _ _)
      cases hlast : page.getLast? with
      | none =>
        -- nothing follows the cursor
        right
        obtain rfl := getLast?_eq_none_iff.mp hlast
        have hqueue : db'.sweepQueue s.cursor = [] := by
          rw [length_nil] at hsize
          exact length_eq_zero_iff.mp (by omega)
        exact ⟨[], [], _, db', hqueue, sweepLoop_empty hend hpage, hnil, ⟨rfl, by simp, by simp⟩,
          hbudget, hlimit, .inl ⟨rfl, rfl⟩⟩
      | some last =>
        have hround := sweepLoop_page observed fuel hend hpage hlast
        have hnonempty : page ≠ [] := by
          rintro rfl
          cases hlast
        rcases sweepPage_spec h hfresh hroom.1 with ⟨e, herr, r, hr, hstop⟩ |
          ⟨part, rest, s1, db1, hparts, hne, hok, h1, hexam, hcursor, hle, -⟩
        · left
          refine ⟨e, hround.trans (run_bind_of_error herr), r, ?_, hstop⟩
          rw [← hsplit]
          exact mem_append_left _ hr
        · have hrun := hround.trans (run_bind_of_ok hok)
          obtain ⟨t, ht⟩ : ∃ t, part.getLast? = some t :=
            ⟨_, getLast?_eq_some_getLast (hne hnonempty)⟩
          have hkey : s1.cursor = t.sweepKey := by
            rw [hcursor, stoppedAt, ht]
            rfl
          have hcount := hexam.examined
          have hlength : page.length = part.length + rest.length := by
            rw [hparts, length_append]
          have hpos : 0 < part.length := length_pos_iff.mpr (hne hnonempty)
          rw [hparts, append_assoc] at hsplit
          by_cases hshort : page.length < min 100 (budget - s.examined) ∧
              s1.cursor.2 = last.outboxId
          · -- the page was the rest of the queue, and all of it was examined
            right
            rw [if_pos hshort] at hrun
            rw [hkey] at hshort
            have hrest : rest = [] := (hparts ▸ hfresh).rest_nil (hparts ▸ hlast) ht hshort.2
            have hdrop : (db'.sweepQueue s.cursor).drop (min 100 (budget - s.examined)) = [] :=
              drop_eq_nil_of_le (by omega)
            rw [hrest, hdrop] at hsplit
            exact ⟨part, [], _, db1, hsplit.symm, hrun, h1,
              ⟨hexam.examined, hexam.retired, hexam.clear⟩, by show s1.examined ≤ budget; omega,
              hle, .inl ⟨rfl, rfl⟩⟩
          · rw [if_neg hshort] at hrun
            have hqueue := h.queue_rest h1 hsplit.symm ht
            rw [← hkey] at hqueue
            rcases ih h1 s1 (by omega) (by omega) hle (by simpa using h1) with
              ⟨e, herr, r, hr, hstop⟩ |
              ⟨more, rest', s', db'', hmore, hok', h', hexam', hbud, hlim, hstopped⟩
            · left
              refine ⟨e, hrun.trans herr, r, ?_, hstop⟩
              rw [← hsplit]
              exact mem_append_right _ (hqueue ▸ hr)
            · right
              refine ⟨part ++ more, rest', s', db'', ?_, hrun.trans hok', ?_,
                hexam.trans hexam', hbud, hlim, ?_⟩
              · rw [append_assoc, ← hmore, hqueue, hsplit]
              · rw [map_append, ← append_assoc]
                exact h'
              · rcases hstopped with hwrap | ⟨hstopped, -⟩
                · exact .inl hwrap
                · right
                  rw [stoppedAt_append, ← hcursor]
                  exact ⟨hstopped, fun hnil => absurd (append_eq_nil_iff.mp hnil).1 (hne hnonempty)⟩

/-- A call that returns: the part of the queue it examined, what it answers, and where it
stopped. -/
structure SweepCall (observed : String) (limit : ℤ) (done : List String) (db db' : Db)
    (part : List OutboxRow) (a : List DeadlineRetirement) (db'' : Db) : Prop where
  queue : part <+: db'.sweepQueue (db'.sweepCursor.getD ("", ""))
  swept : SweptPast observed (done ++ part.map OutboxRow.outboxId) db db''
  retired : a.map DeadlineRetirement.outboxId =
    (part.filter (db.retires observed)).map OutboxRow.outboxId
  bounded : (a.length : ℤ) ≤ limit
  clear : ∀ r ∈ part, db.stops observed r = false
  cursor : (db''.sweepCursor = some ("", "") ∧
      part = db'.sweepQueue (db'.sweepCursor.getD ("", ""))) ∨
    ∃ t, part.getLast? = some t ∧ db''.sweepCursor = some t.sweepKey

/-- A call raises at a row that stops it and changes nothing, or returns. -/
theorem retireExpired_spec (x : Externals) (h : SweptPast observed done db db') {now : Datetime}
    {limit : ℤ} (hclock : utcMicroseconds now.isoformat "Cleanup clock" = .ok observed)
    (hlimit : 1 ≤ limit ∧ limit ≤ 500) :
    (∃ e, step x db' (.retireExpiredUnstartedOutbox now limit) = (db', .error e) ∧
      ∃ r ∈ db'.sweepQueue (db'.sweepCursor.getD ("", "")), db.stops observed r = true) ∨
    ∃ part a db'', step x db' (.retireExpiredUnstartedOutbox now limit) =
        (db'', .ok (.retired a)) ∧ SweepCall observed limit done db db' part a db'' := by
  have hreq : (Tx.require (1 ≤ limit && limit ≤ 500) (.valueError
      "The deadline cleanup limit must be an integer between 1 and 500") : StoreTx Unit).run db' =
      .ok ((), db') := by
    simp [hlimit]
  have hobs : (Tx.lift (utcMicroseconds now.isoformat "Cleanup clock") : StoreTx _).run db' =
      .ok (observed, db') := by
    simp [hclock]
  have hread : (Tx.query fun d : Db => d.sweepCursor.getD ("", "") : StoreTx _).run db' =
      .ok (db'.sweepCursor.getD ("", ""), db') := rfl
  have hrun : (retireExpiredUnstartedOutbox now limit).run db' = _ :=
    (run_bind_of_ok hobs).trans ((run_bind_of_ok hreq).trans (run_bind_of_ok hread))
  rcases sweepLoop_spec h limit.toNat (max 25 limit.toNat) (max 25 limit.toNat)
      { cursor := db'.sweepCursor.getD ("", "") } (by simp) (by simp) (by simp) with
    ⟨e, herr, hstop⟩ |
    ⟨part, rest, s, db1, hqueue, hok, hswept, hexam, -, hlen, hstopped⟩
  · left
    refine ⟨e, ?_, hstop⟩
    exact commit_error (run_bind_of_error (hrun.trans (run_bind_of_error herr)))
  · right
    refine ⟨part, s.retired, { db1 with sweepCursor := some s.cursor }, ?_, ?_⟩
    · exact step_of_run rfl (hrun.trans (run_bind_of_ok hok))
    · refine ⟨⟨rest, hqueue.symm⟩, ⟨hswept.rows, hswept.bounds⟩, hexam.retired, by omega,
        hexam.clear, ?_⟩
      rcases hstopped with ⟨hcursor, rfl⟩ | ⟨hcursor, hpart⟩
      · left
        refine ⟨congrArg some hcursor, ?_⟩
        rw [append_nil] at hqueue
        exact hqueue.symm
      · right
        have hne : part ≠ [] := by
          intro hnil
          rcases hpart hnil with hfull | hspent
          · have : (limit.toNat : ℕ) ≤ 0 := hfull
            omega
          · have : max 25 limit.toNat ≤ 0 := hspent
            omega
        refine ⟨_, getLast?_eq_some_getLast hne, congrArg some ?_⟩
        rw [hcursor, stoppedAt, getLast?_eq_some_getLast hne]
        rfl

end Middle

end Medre.Storage
