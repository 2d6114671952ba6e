import Medre.Framework.Ranking
import Medre.Storage.ClaimSteps

/-! # A claim that no other call disturbs

The `UPDATE` asks again whether each candidate of the `SELECT` may be claimed, and the re-read
filters once more. Undisturbed, neither drops a candidate. -/

namespace Medre.Storage

open List Medre.Framework

def claimAlone (x : Externals) (db : Db) (c : ClaimCall) : Claims :=
  claimsFrom x db [.select c, .update 0, .reread 0]

/-! ## The candidates -/

def dueOrder (r s : OutboxRow) : Prop :=
  r.dueAt < s.dueAt ∨ (r.dueAt = s.dueAt ∧ r.createdAt ≤ s.createdAt)

instance : DecidableRel dueOrder := fun r s =>
  inferInstanceAs (Decidable
    (r.dueAt < s.dueAt ∨ (r.dueAt = s.dueAt ∧ r.createdAt ≤ s.createdAt)))

theorem adapterLeads_eq (rows : List OutboxRow) :
    adapterLeads rows = firsts OutboxRow.targetAdapter (rows.insertionSort dueOrder) := rfl

variable {c : ClaimCall}

theorem claimable_of_candidate {db : Db} {cutoff : String} {r : OutboxRow}
    (h : r ∈ db.claimCandidates c cutoff) :
    r ∈ db.outbox.rows ∧ r.claimable db.outbox.rows c.now cutoff c.filters = true := by
  rw [← mem_filter]
  have hordered : r ∈ if c.filters.onePerAdapter then
      adapterLeads (db.outbox.rows.filter
        (OutboxRow.claimable db.outbox.rows c.now cutoff c.filters))
      else db.outbox.rows.filter (OutboxRow.claimable db.outbox.rows c.now cutoff c.filters) := by
    unfold Db.claimCandidates at h
    dsimp only at h
    split at h
    · exact (mem_insertionSort _).mp h
    · exact (mem_insertionSort _).mp (mem_of_mem_take h)
  split at hordered
  · exact (mem_insertionSort dueOrder).mp (firsts_subset _ hordered)
  · exact hordered

theorem candidate_of_id {db : Db} {cutoff : String} {r : OutboxRow} (hr : r ∈ db.outbox.rows)
    (h : r.outboxId ∈ (db.claimCandidates c cutoff).map OutboxRow.outboxId) :
    r ∈ db.claimCandidates c cutoff := by
  obtain ⟨s, hs, hid⟩ := mem_map.mp h
  rwa [← outbox_eq_of_id _ (claimable_of_candidate hs).1 hr hid]

theorem mem_claimCandidates_plain {db : Db}
    (hplain : c.filters.onePerAdapter = false)
    (hlimit : c.limit < 0 ∨ (db.outbox.rows.length : ℤ) ≤ c.limit) (cutoff : String)
    (r : OutboxRow) :
    r ∈ db.claimCandidates c cutoff ↔
      r ∈ db.outbox.rows ∧ r.claimable db.outbox.rows c.now cutoff c.filters = true := by
  refine ⟨claimable_of_candidate, ?_⟩
  rw [← mem_filter]
  intro h
  simp only [Db.claimCandidates, hplain, Bool.false_eq_true, if_false]
  split_ifs with hneg
  · exact (mem_insertionSort _).mpr h
  · rw [take_of_length_le]
    · exact (mem_insertionSort _).mpr h
    · have hle := length_filter_le
        (OutboxRow.claimable db.outbox.rows c.now cutoff c.filters) db.outbox.rows
      rw [length_insertionSort]
      omega

/-! ## The three statements -/

section Statements

variable {x : Externals} {db : Db} {c : ClaimCall} {lease cutoff : String}

theorem step_claim (x : Externals) (db : Db) (htexts : c.texts = .ok (lease, cutoff))
    (ids : List String) :
    ∃ t ans, db.outbox.update
        (fun r => ids.contains r.outboxId && r.claimable db.outbox.rows c.now cutoff c.filters)
        (OutboxRow.claim c.now lease c.workerId) = some t ∧
      step x db (c.op ids) = ({ db with outbox := t }, .ok ans) := by
  obtain ⟨u, hlease, hrest⟩ := ok_of_bind htexts
  obtain ⟨parsed, hparsed, hrest⟩ := ok_of_bind hrest
  obtain ⟨stale, hstale, hpair⟩ := ok_of_bind hrest
  cases hpair
  obtain ⟨t, ht⟩ : ∃ t, db.outbox.update
      (fun r => ids.contains r.outboxId &&
        r.claimable db.outbox.rows c.now stale.isoformat c.filters)
      (OutboxRow.claim c.now lease c.workerId) = some t := by
    refine Table.update_some ?_ ?_
    · intro r hr _
      have hcheck : r.check = true := db.outbox.checked r hr
      show (r.claim c.now lease c.workerId).check = true
      simp only [OutboxRow.check, Bool.and_eq_true] at hcheck ⊢
      exact ⟨⟨⟨hcheck.1.1.1, by simp [OutboxRow.claim]⟩, hcheck.1.2⟩, hcheck.2⟩
    · intro r s
      split_ifs <;> rfl
  have hrun : (claimDueOutboxItems c.now c.workerId c.leaseSeconds ids c.filters).run db =
      .ok (Db.claimedRows { db with outbox := t } c.workerId ids, { db with outbox := t }) := by
    simp only [claimDueOutboxItems, Tx.run_bind, Tx.run_lift, Tx.run_query]
    exact ⟨lease, db, ⟨hlease, rfl⟩, parsed, db, ⟨hparsed, rfl⟩, stale, db, ⟨hstale, rfl⟩,
      _, db, ⟨rfl, rfl⟩, _, _, run_updateTable.mpr ⟨t, ht, rfl, rfl⟩, rfl, rfl⟩
  exact ⟨t, _, ht, step_of_run rfl hrun⟩

theorem claimAlone_of_error {e : Err} (h : c.texts = .error e) :
    claimAlone x db c = ⟨db, [(c, .raised e)]⟩ := by
  simp [claimAlone, claimsFrom, Claims.step, Claims.select, Claims.update, Claims.reread, h]

theorem claimAlone_of_none (htexts : c.texts = .ok (lease, cutoff))
    (h : db.claimCandidates c cutoff = []) : claimAlone x db c = ⟨db, [(c, .returned [])]⟩ := by
  simp [claimAlone, claimsFrom, Claims.step, Claims.select, Claims.update, Claims.reread, htexts, h]

theorem claimAlone_of_some (htexts : c.texts = .ok (lease, cutoff))
    (h : db.claimCandidates c cutoff ≠ []) {db' : Db} {ans : Answer}
    (hstep : step x db (c.op ((db.claimCandidates c cutoff).map OutboxRow.outboxId)) =
      (db', .ok ans)) :
    claimAlone x db c = ⟨db', [(c, .returned (db'.claimedRows c.workerId
      ((db.claimCandidates c cutoff).map OutboxRow.outboxId)))]⟩ := by
  have hselect : (⟨db, []⟩ : Claims).select c =
      ⟨db, [(c, .selected ((db.claimCandidates c cutoff).map OutboxRow.outboxId))]⟩ := by
    simp only [Claims.select, htexts]
    split
    · rename_i hnil
      exact absurd (map_eq_nil_iff.mp hnil) h
    · rfl
  simp [claimAlone, claimsFrom, Claims.step, hselect, Claims.update, Claims.reread, hstep]

end Statements

/-! ## The rows claimed -/

/-- `f` takes the rows that `chosen` holds of and leaves the others. -/
structure ClaimCall.TakesOnly (c : ClaimCall) (lease : String) (rows : List OutboxRow)
    (chosen : OutboxRow → Prop) (f : OutboxRow → OutboxRow) : Prop where
  taken : ∀ r ∈ rows, chosen r → f r = r.claim c.now lease c.workerId
  other : ∀ r ∈ rows, ¬chosen r → f r = r

namespace ClaimCall.TakesOnly

variable {db : Db} {c : ClaimCall} {lease cutoff : String} {rows : List OutboxRow}
  {chosen : OutboxRow → Prop} {f : OutboxRow → OutboxRow}

theorem of_candidates (db : Db) (c : ClaimCall) (lease cutoff : String) :
    c.TakesOnly lease db.outbox.rows (· ∈ db.claimCandidates c cutoff) fun r =>
      if ((db.claimCandidates c cutoff).map OutboxRow.outboxId).contains r.outboxId &&
        r.claimable db.outbox.rows c.now cutoff c.filters then
        r.claim c.now lease c.workerId else r := by
  have hmet (r : OutboxRow) (hr : r ∈ db.outbox.rows) :
      (((db.claimCandidates c cutoff).map OutboxRow.outboxId).contains r.outboxId &&
        r.claimable db.outbox.rows c.now cutoff c.filters) = true ↔
        r ∈ db.claimCandidates c cutoff := by
    rw [Bool.and_eq_true, contains_iff_mem]
    constructor
    · exact fun h => candidate_of_id hr h.1
    · exact fun h => ⟨mem_map_of_mem h, (claimable_of_candidate h).2⟩
  exact ⟨fun r hr h => if_pos ((hmet r hr).mpr h), fun r hr h => if_neg (mt (hmet r hr).mp h)⟩

theorem keeps (h : c.TakesOnly lease rows chosen f) {r : OutboxRow} (hr : r ∈ rows) :
    (f r).outboxId = r.outboxId ∧ (f r).identity = r.identity ∧
      (f r).generation = r.generation ∧ (f r).targetAdapter = r.targetAdapter := by
  by_cases hc : chosen r
  · rw [h.taken r hr hc]
    exact ⟨rfl, rfl, rfl, rfl⟩
  · rw [h.other r hr hc]
    exact ⟨rfl, rfl, rfl, rfl⟩

theorem noSiblingFrom (h : c.TakesOnly lease rows chosen f) (r : OutboxRow) (g : ℤ) :
    r.noSiblingFrom (rows.map f) g = r.noSiblingFrom rows g := by
  rw [Bool.eq_iff_iff, OutboxRow.noSiblingFrom_iff, OutboxRow.noSiblingFrom_iff, forall_mem_map]
  refine forall₂_congr fun s hs => ?_
  obtain ⟨hid, hidentity, hgen, -⟩ := h.keeps hs
  rw [hid, hidentity, hgen]

theorem mem_claimedRows (h : c.TakesOnly lease db.outbox.rows (· ∈ db.claimCandidates c cutoff) f)
    {db' : Db} (hrows : db'.outbox.rows = db.outbox.rows.map f) {r' : OutboxRow} :
    r' ∈ db'.claimedRows c.workerId ((db.claimCandidates c cutoff).map OutboxRow.outboxId) ↔
      ∃ r ∈ db.claimCandidates c cutoff, r' = r.claim c.now lease c.workerId := by
  simp only [Db.claimedRows, hrows, mem_filter, h.noSiblingFrom, Bool.and_eq_true,
    contains_iff_mem, decide_eq_true_eq]
  constructor
  · rintro ⟨hr', ⟨⟨hid, -⟩, -⟩, -⟩
    obtain ⟨r, hr, rfl⟩ := mem_map.mp hr'
    rw [(h.keeps hr).1] at hid
    have hcand := candidate_of_id hr hid
    exact ⟨r, hcand, h.taken r hr hcand⟩
  · rintro ⟨r, hcand, rfl⟩
    obtain ⟨hr, hclaimable⟩ := claimable_of_candidate hcand
    have hmem : r.claim c.now lease c.workerId ∈ db.outbox.rows.map f :=
      mem_map.mpr ⟨r, hr, h.taken r hr hcand⟩
    simp only [OutboxRow.claimable, Bool.and_eq_true] at hclaimable
    exact ⟨hmem, ⟨⟨mem_map.mpr ⟨r, hcand, rfl⟩, rfl⟩, rfl⟩, hclaimable.1.2⟩

end ClaimCall.TakesOnly

/-- What a claim does: it takes its candidates and returns them. -/
theorem claimAlone_spec (x : Externals) (db : Db) {lease cutoff : String}
    (htexts : c.texts = .ok (lease, cutoff)) :
    ∃ t claimed f, claimAlone x db c = ⟨{ db with outbox := t }, [(c, .returned claimed)]⟩ ∧
      t.rows = db.outbox.rows.map f ∧
      c.TakesOnly lease db.outbox.rows (· ∈ db.claimCandidates c cutoff) f ∧
      claimed.Nodup ∧
      ∀ r', r' ∈ claimed ↔
        ∃ r ∈ db.claimCandidates c cutoff, r' = r.claim c.now lease c.workerId := by
  by_cases hnone : db.claimCandidates c cutoff = []
  · refine ⟨db.outbox, [], id, claimAlone_of_none htexts hnone, (map_id _).symm, ?_,
      nodup_nil, ?_⟩
    · simp only [hnone, not_mem_nil]
      exact ⟨fun _ _ => False.elim, fun _ _ _ => rfl⟩
    · simp [hnone]
  · obtain ⟨t, ans, hupd, hstep⟩ := step_claim x db htexts
      ((db.claimCandidates c cutoff).map OutboxRow.outboxId)
    have htakes := ClaimCall.TakesOnly.of_candidates db c lease cutoff
    refine ⟨t, _, _, claimAlone_of_some htexts hnone hstep, Table.rows_update hupd, htakes,
      (outbox_nodup t).filter _, ?_⟩
    intro r'
    exact htakes.mem_claimedRows (Table.rows_update hupd)

end Medre.Storage
