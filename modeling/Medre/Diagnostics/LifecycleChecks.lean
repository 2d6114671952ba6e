import Mathlib.Data.List.Dedup
import Medre.Storage.DeliveryAgreement
import Medre.Storage.EventAdmission

/-! # Gaps in receipt sequence numbers (`diagnostics/convergence/lifecycle_checks.py`) -/

namespace Medre.Diagnostics

open List Medre.Core Medre.Framework Medre.Storage

/-- `_safe_record_id` of a text. -/
def safeRecordId (s : String) : String := if s = "None" then "" else s

/-- `OrphanFinding` of a gap, without the constants of the check and the sentence made of
these values. -/
structure GapFinding where
  recordId : String
  sequence : ℤ
  previousSequence : ℤ
  gap : ℤ
deriving DecidableEq, Repr

def deliveryIdentitySortKey (d : DeliveryIdentity) : String ×ₗ String ×ₗ String ×ₗ String :=
  toLex (d.eventId, toLex (d.deliveryPlanId, toLex (d.targetAdapter, d.targetChannel.getD "")))

/-- The receipts of each of `ordered_snapshots`. -/
def orderedSnapshots (receipts : List ReceiptRow) (items : List OutboxRow) :
    List (List ReceiptRow) :=
  let identities := receipts.map ReceiptRow.identity ++ items.map OutboxRow.identity
  let ordered := identities.dedup.insertionSort fun d e =>
    deliveryIdentitySortKey d ≤ deliveryIdentitySortKey e
  ordered.map fun d => receipts.filter fun r => r.identity = d

def gapFindings : List ReceiptRow → List GapFinding
  | prev :: r :: rest =>
    let gap := r.sequence - prev.sequence
    let recId := safeRecordId r.receiptId
    (if gap > 1 ∧ recId ≠ "" then [⟨recId, r.sequence, prev.sequence, gap⟩] else []) ++
      gapFindings (r :: rest)
  | _ => []

def snapshotGaps (recs : List ReceiptRow) : List GapFinding :=
  let seqMap := recs.filter fun r => 0 < r.sequence
  if recs.length < 2 ∨ seqMap.length < 2 then []
  else gapFindings (seqMap.insertionSort fun r s => r.sequence ≤ s.sequence)

def checkReceiptSequenceGap (snapshots : List (List ReceiptRow)) : List GapFinding :=
  snapshots.flatMap snapshotGaps

/-! ## Findings -/

section Findings

variable {recs : List ReceiptRow}

/-- A receipt behind another has its predecessor by number among the receipts. -/
def Unbroken (recs : List ReceiptRow) : Prop :=
  ∀ a ∈ recs, ∀ b ∈ recs, a.sequence < b.sequence → safeRecordId b.receiptId ≠ "" →
    ∃ c ∈ recs, c.sequence = b.sequence - 1

theorem gapFindings_eq_nil (hsorted : recs.Pairwise fun r s => r.sequence < s.sequence) :
    gapFindings recs = [] ↔ Unbroken recs := by
  induction recs with
  | nil => simp [gapFindings, Unbroken]
  | cons x recs ih =>
    obtain ⟨hx, hsorted⟩ := pairwise_cons.mp hsorted
    cases recs with
    | nil => simp [gapFindings, Unbroken]
    | cons y recs =>
      have hy := (pairwise_cons.mp hsorted).1
      have hxy := hx y mem_cons_self
      rw [gapFindings, append_eq_nil_iff, ih hsorted]
      simp only [ite_eq_right_iff, cons_ne_nil, imp_false, not_and, not_not]
      constructor
      · rintro ⟨hgap, hrest⟩ a ha b hb hlt hid
        -- the last receipt before `b` is `x` exactly if `b` is `y`
        rcases mem_cons.mp hb with rfl | hb'
        · rcases mem_cons.mp ha with rfl | ha'
          · exact absurd hlt (lt_irrefl _)
          · exact absurd hlt (hx a ha').asymm
        · rcases mem_cons.mp hb' with rfl | hb''
          · refine ⟨x, mem_cons_self, ?_⟩
            have := mt hgap hid
            omega
          · obtain ⟨c, hc, hseq⟩ := hrest y mem_cons_self b hb' (hy b hb'') hid
            exact ⟨c, mem_cons_of_mem _ hc, hseq⟩
      · intro hall
        constructor
        · intro hgap
          by_contra hid
          obtain ⟨c, hc, hseq⟩ := hall x mem_cons_self y (by simp) hxy hid
          rcases mem_cons.mp hc with rfl | hc
          · omega
          · rcases mem_cons.mp hc with rfl | hc
            · omega
            · have := hy c hc
              omega
        · intro a ha b hb hlt hid
          obtain ⟨c, hc, hseq⟩ := hall a (mem_cons_of_mem _ ha) b (mem_cons_of_mem _ hb) hlt hid
          rcases mem_cons.mp hc with rfl | hc
          · have := hx a ha
            omega
          · exact ⟨c, hc, hseq⟩

theorem snapshotGaps_eq_nil (hsorted : recs.Pairwise fun r s => r.sequence < s.sequence)
    (hpos : ∀ r ∈ recs, 0 < r.sequence) : snapshotGaps recs = [] ↔ Unbroken recs := by
  have hall : (recs.filter fun r => 0 < r.sequence) = recs :=
    filter_eq_self.mpr fun r hr => decide_eq_true (hpos r hr)
  rw [← gapFindings_eq_nil hsorted]
  simp only [snapshotGaps, hall, or_self, (hsorted.imp le_of_lt).insertionSort_eq]
  match recs with
  | [] | [r] => rfl
  | r :: s :: l => rw [if_neg (by simp)]

theorem check_eq_nil (hsorted : recs.Pairwise fun r s => r.sequence < s.sequence)
    (hpos : ∀ r ∈ recs, 0 < r.sequence) (items : List OutboxRow) :
    checkReceiptSequenceGap (orderedSnapshots recs items) = [] ↔
      ∀ d, Unbroken (recs.filter fun r => r.identity = d) := by
  have hown : ∀ d, snapshotGaps (recs.filter fun r => r.identity = d) = [] ↔
      Unbroken (recs.filter fun r => r.identity = d) := fun d =>
    snapshotGaps_eq_nil (hsorted.filter _) fun r hr => hpos r (mem_filter.mp hr).1
  rw [checkReceiptSequenceGap, orderedSnapshots, flatMap_map, flatMap_eq_nil_iff]
  refine ⟨fun h d => ?_, fun h d _ => (hown d).mpr (h d)⟩
  by_cases hd : d ∈ recs.map ReceiptRow.identity
  · refine (hown d).mp (h d ?_)
    rw [mem_insertionSort, mem_dedup]
    exact mem_append_left _ hd
  · intro a ha
    obtain ⟨ha, hident⟩ := mem_filter.mp ha
    exact absurd (mem_map.mpr ⟨a, ha, of_decide_eq_true hident⟩) hd

end Findings

/-! ## Histories -/

section Histories

variable {x : Externals} {db db' : Db}

/-- The receipts bear the numbers 1, 2, 3, … in the order they were appended. -/
def Numbered (db : Db) : Prop :=
  db.receipts.rows.map ReceiptRow.sequence =
    (List.range db.receipts.rows.length).map fun i : ℕ => (i : ℤ) + 1

theorem Numbered.nextSequence (h : Numbered db) :
    db.nextSequence = db.receipts.rows.length + 1 := by
  have hmax : ∀ n : ℕ, ((List.range n).map fun i : ℕ => (i : ℤ) + 1).foldr max 0 = n := by
    intro n
    induction n with
    | zero => rfl
    | succ n ih =>
      rw [range_succ, map_append, map_singleton, foldr_max_append, ih]
      exact max_eq_right (by omega)
  rw [Db.nextSequence, h, hmax]

theorem rows_writeReceipt {r : DeliveryReceipt} {u : Unit}
    (h : (writeReceipt r).run db = .ok (u, db')) :
    ∃ row, db'.receipts.rows = db.receipts.rows ++ [row] ∧ row.sequence = db.nextSequence := by
  simp only [writeReceipt, insertReceipt, requireEvent, Tx.run_bind, Tx.run_query, Tx.run_lift,
    Tx.run_require] at h
  obtain ⟨_, _, ⟨rfl, rfl⟩, row, _, ⟨hrow, rfl⟩, _, _, ⟨_, _, hinsert, _, _, ⟨-, rfl⟩, -, rfl⟩,
    _, db1, hdiag1, _, db2, hdiag2, hdiag3⟩ := h
  obtain ⟨t, ht, rfl⟩ := run_insertInto.mp hinsert
  have R := footprint_rules [.diagnostics] fun _ => False
  have hsame : db'.receipts = t :=
    (offTables _).trans (follows_receiptDiagnostic R (by decide) _ _ _ hdiag1)
      ((offTables _).trans (follows_receiptDiagnostic R (by decide) _ _ _ hdiag2)
        (follows_receiptDiagnostic R (by decide) _ _ _ hdiag3)) .receipts (by decide)
  refine ⟨row, ?_, ?_⟩
  · rw [hsame, Table.rows_insert ht]
  · simp only [DeliveryReceipt.row] at hrow
    split at hrow <;> cases hrow
    rfl

theorem Numbered.step (h : Numbered db) (r : DeliveryReceipt) :
    Numbered (step x db (.appendReceipt r)).1 := by
  refine step_cases rfl h fun _ db' hrun => ?_
  obtain ⟨row, hrows, hseq⟩ := rows_writeReceipt hrun
  rw [Numbered, hrows, map_append, length_append, length_singleton,
    range_succ, map_append, h, map_singleton, hseq, h.nextSequence]
  rfl

theorem Numbered.run (h : Numbered db) (appends : List DeliveryReceipt) :
    Numbered (run (Storage.step x) db (appends.map .appendReceipt)) := by
  induction appends generalizing db with
  | nil => exact h
  | cons r appends ih => exact ih (h.step r)

theorem Numbered.sequence_eq (h : Numbered db) {i : ℕ} {r : ReceiptRow}
    (hr : db.receipts.rows[i]? = some r) : r.sequence = i + 1 := by
  have hi := congrArg (·[i]?) h
  obtain ⟨hlt, rfl⟩ := List.getElem?_eq_some_iff.mp hr
  simpa [hlt] using hi

/-- Of receipts appended to an empty table no gap is reported exactly if each receipt that
follows one of its delivery, and has an id to report, directly follows one of them. -/
theorem sequence_gap_iff (x : Externals) (hfresh : db.receipts.rows = [])
    (appends : List DeliveryReceipt) (items : List OutboxRow) :
    let rows := (run (Storage.step x) db (appends.map .appendReceipt)).receipts.rows
    (∀ (i : ℕ) (r : ReceiptRow), rows[i]? = some r → r.sequence = i + 1) ∧
    (checkReceiptSequenceGap (orderedSnapshots rows items) = [] ↔
      ∀ a ∈ rows, ∀ b ∈ rows, a.identity = b.identity → a.sequence < b.sequence →
        safeRecordId b.receiptId ≠ "" →
        ∃ c ∈ rows, c.sequence = b.sequence - 1 ∧ c.identity = b.identity) := by
  intro rows
  have hnumbered : Numbered db := by rw [Numbered, hfresh]; rfl
  have hrun := hnumbered.run (x := x) appends
  have hsorted : rows.Pairwise fun r s => r.sequence < s.sequence := by
    rw [← pairwise_map (R := (· < ·)), hrun, pairwise_map]
    exact pairwise_lt_range.imp fun h => by omega
  have hpos : ∀ r ∈ rows, 0 < r.sequence := by
    intro r hr
    obtain ⟨i, hi⟩ := mem_iff_getElem?.mp hr
    rw [hrun.sequence_eq hi]
    omega
  refine ⟨fun i r hr => hrun.sequence_eq hr, ?_⟩
  rw [check_eq_nil hsorted hpos]
  simp only [Unbroken, mem_filter, decide_eq_true_eq]
  constructor
  · intro h a ha b hb hident hlt hid
    obtain ⟨c, ⟨hc, hcident⟩, hseq⟩ := h b.identity a ⟨ha, hident⟩ b ⟨hb, rfl⟩ hlt hid
    exact ⟨c, hc, hseq, hcident⟩
  · rintro h d a ⟨ha, hda⟩ b ⟨hb, hdb⟩ hlt hid
    obtain ⟨c, hc, hseq, hcident⟩ := h a ha b hb (hda.trans hdb.symm) hlt hid
    exact ⟨c, ⟨hc, hcident.trans hdb⟩, hseq⟩

end Histories

open Storage.Sample in
/-- The second receipt of the plan `p` directly follows the first: no gap is reported. -/
theorem sequence_gap_iff_in_turn :
    let receipt (id plan : String) : DeliveryReceipt :=
      { cancellation id "" with deliveryPlanId := plan, outboxId := none }
    let db := stateAfter externals [.append event (clock 0)]
    let rows := (run (step externals) db
      ([receipt "a" "p", receipt "b" "p", receipt "c" "q"].map .appendReceipt)).receipts.rows
    db.receipts.rows = [] ∧ rows.map (fun r => (r.deliveryPlanId, r.sequence)) =
        [("p", 1), ("p", 2), ("q", 3)] ∧
      checkReceiptSequenceGap (orderedSnapshots rows []) = [] :=
  ⟨by decide +kernel, by decide +kernel,
    (sequence_gap_iff externals (by decide +kernel) _ []).2.mpr (by decide +kernel)⟩

open Storage.Sample in
/-- Two deliveries of one event append in turn, nothing is lost, and a gap is reported. -/
theorem interleaved_receipts_gap :
    let receipt (id plan : String) : DeliveryReceipt :=
      { cancellation id "" with deliveryPlanId := plan, outboxId := none }
    let db := run (step externals) (stateAfter externals [.append event (clock 0)])
      ([receipt "a" "p", receipt "b" "q", receipt "c" "p"].map .appendReceipt)
    checkReceiptSequenceGap (orderedSnapshots db.receipts.rows db.outbox.rows) =
      [⟨"c", 3, 1, 2⟩] := by
  decide +kernel

end Medre.Diagnostics
