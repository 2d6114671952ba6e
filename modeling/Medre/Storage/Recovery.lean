import Medre.Framework.Keyset
import Medre.Storage.DeliveryAgreement

/-! # Paging through the deliveries that have failed (`_recovery_query.py`)

A page reads windows of failed receipts in append order and keeps those that its anti-joins
leave, until it has one more than it returns. -/

namespace Medre.Storage

open List Medre.Framework Medre.Core

variable {p : ReceiptRow × EventRow} {rows : List (ReceiptRow × EventRow)} {limit : ℤ}
  {metadataOnly : Bool}

/-! ## Cursors and labels -/

/-- A page cursor, as the JSON value its base64 text holds, if it holds one. -/
structure PageCursor where
  payload : Option Json
deriving Repr

def encodePageCursor (afterSequence : ℤ) : PageCursor :=
  ⟨some (.obj [("after_sequence", .number (toString afterSequence)), ("v", Json.nat 1)])⟩

/-- `decoded["v"] == _PAGE_CURSOR_VERSION`, on the literal the encoder writes. -/
def isCursorVersion : Json → Bool
  | .number literal => literal = "1"
  | .bool b => b
  | _ => false

def decodePageCursor (cursor : PageCursor) : Except Err ℤ :=
  match cursor.payload.bind Json.fields? with
  | none => .error (.valueError "Malformed page cursor")
  | some fields =>
    match Json.fieldOf fields "v" with
    | none => .error (.valueError "Malformed page cursor")
    | some version =>
      if isCursorVersion version then
        match Json.fieldOf fields "after_sequence" with
        | some (.number literal) =>
          match Json.natLiteral? literal with
          | some after => .ok after
          | none => .error (.valueError "Malformed page cursor position")
        | _ => .error (.valueError "Malformed page cursor position")
      else .error (.valueError "Incompatible page cursor")

def attemptSourceLabel (source : DeliverySource) (replayRunId : Option String) :
    Except Err String :=
  match normalizeReplayRunId replayRunId with
  | none => .ok source.text
  | some runId =>
    if source = .live then .error (.valueError "live delivery cannot carry replay_run_id")
    else .ok (source.text ++ ":" ++ runId)

/-! ## The authority predicate -/

/-- `UNRESOLVED_RECEIPT_STATUSES`. -/
def ReceiptRow.unresolved (r : ReceiptRow) : Bool :=
  r.status = .failed || r.status = .deadLettered

/-- `_OUTBOXLESS_NEWER`. -/
def noNewerOutboxless (receipts : List ReceiptRow) (r : ReceiptRow) : Bool :=
  !receipts.any fun s => s.samePartition r && s.outboxId.isNone && r.sequence < s.sequence

/-- `NOT EXISTS` a committed receipt of the delivery of `r` above an attempt and a sequence. -/
def noneHigher (receipts : List ReceiptRow) (outbox : List OutboxRow) (r : ReceiptRow)
    (attempt sequence : ℤ) : Bool :=
  !(joined receipts outbox).any fun p => p.1.samePartition r &&
    (attempt < p.2.attemptNumber || (p.2.attemptNumber = attempt && sequence < p.1.sequence))

/-- `_LATER_WINNING_COMMITTED`. -/
def noLaterWinningCommitted (receipts : List ReceiptRow) (outbox : List OutboxRow)
    (r : ReceiptRow) : Bool :=
  !(joined receipts outbox).any fun p => p.1.samePartition r && r.sequence < p.1.sequence &&
    noneHigher receipts outbox r p.2.attemptNumber p.1.sequence

/-- `_AUTHORITY_PREDICATE`, with the `LEFT JOIN` on the row that commits the receipt. -/
def authoritative (receipts : List ReceiptRow) (outbox : List OutboxRow) (r : ReceiptRow) :
    Bool :=
  match r.outboxId with
  | none => noNewerOutboxless receipts r && noLaterWinningCommitted receipts outbox r
  | some _ =>
    -- `_HIGHER_COMMITTED_THAN_CURRENT` compares with the row that is joined
    (outbox.filter r.joins).any fun o =>
      noneHigher receipts outbox r o.attemptNumber r.sequence && noNewerOutboxless receipts r

/-! ## One window -/

/-- `delivery_receipts dr JOIN canonical_events ce`. -/
def Db.receiptEvents (db : Db) : List (ReceiptRow × EventRow) :=
  db.receipts.rows.flatMap fun r =>
    (db.events.rows.filter fun e => e.eventId = r.eventId).map fun e => (r, e)

def candidateKey (p : ReceiptRow × EventRow) : ℤ := p.1.sequence

/-- `ORDER BY dr.sequence ASC`. -/
def inSequence (rows : List (ReceiptRow × EventRow)) : List (ReceiptRow × EventRow) :=
  rows.insertionSort fun p q => candidateKey p ≤ candidateKey q

def Db.candidateReceipts (db : Db) (since : Option String) (after : ℤ) (limit : ℕ) :
    List (ReceiptRow × EventRow) :=
  (inSequence (db.receiptEvents.filter fun p =>
    p.1.unresolved && since.all (· ≤ p.2.timestamp) && after < candidateKey p)).take limit

/-- The rows of `_select_unresolved_deliveries`: each carries the two columns of
`candidate_window`. -/
structure CandidateWindow where
  scanEndSequence : Option ℤ
  candidateCount : ℕ
  rows : List (ReceiptRow × EventRow)

def Db.selectUnresolvedDeliveries (db : Db) (since : Option String) (after : ℤ) (limit : ℕ) :
    CandidateWindow :=
  let candidates := db.candidateReceipts since after limit
  { scanEndSequence := (candidates.map candidateKey).max?
    candidateCount := candidates.length
    rows := candidates.filter fun p => authoritative db.receipts.rows db.outbox.rows p.1 }

def candidateBatchLimit (pageLimit : ℕ) : ℕ := max 64 (pageLimit * 4)

/-- The `while` loop of `query_unresolved_deliveries`, whose query answers with one row at least;
`none` is a loop that has not ended. -/
def Db.scanWindows (db : Db) (since : Option String) (pageLimit : ℕ) :
    ℕ → ℤ → List (ReceiptRow × EventRow) → Option (Except Err (List (ReceiptRow × EventRow)))
  | 0, _, _ => none
  | fuel + 1, scanAfter, rows =>
    if pageLimit < rows.length then some (.ok rows)
    else
      let window := db.selectUnresolvedDeliveries since scanAfter (candidateBatchLimit pageLimit)
      let rows := rows ++ window.rows
      if pageLimit < rows.length then some (.ok rows)
      else if window.candidateCount < candidateBatchLimit pageLimit then some (.ok rows)
      else
        match window.scanEndSequence with
        | none => some (.ok rows)
        | some scanEnd =>
          if scanEnd ≤ scanAfter then
            some (.error
              (.runtimeError "recovery candidate scan did not advance its sequence keyset"))
          else db.scanWindows since pageLimit fuel scanEnd rows

/-! ## One page -/

def maxRecoveryPageLimit : ℤ := 500

def validatePageLimit (limit : ℤ) : Except Err ℕ :=
  if limit < 1 then .error (.valueError ("limit must be >= 1, got " ++ toString limit))
  else if maxRecoveryPageLimit < limit then
    .error (.valueError ("limit must be <= " ++ toString maxRecoveryPageLimit ++ ", got " ++
      toString limit))
  else .ok limit.toNat

structure UnresolvedDelivery where
  eventId : String
  eventKind : String
  sourceAdapter : String
  eventTimestamp : String
  deliveryPlanId : String
  targetAdapter : String
  targetChannel : Option String
  attemptSource : String
  replayRunId : Option String
  receiptId : String
  receiptSequence : ℤ
  status : ReceiptStatus
  failureKind : Option String
  error : Option String
  attemptNumber : ℤ
  receiptCreatedAt : String
  outboxId : Option String
  outboxStatus : Option OutboxStatus := none
  outboxNextAttemptAt : Option String := none
deriving DecidableEq, Repr

/-- The `error` column: the inline text, else the latest separated one. -/
def Db.receiptError (db : Db) (r : ReceiptRow) : Option String :=
  (orNone r.error).or <|
    (db.diagnostics.rows.reverse.find? fun d =>
      d.family = .receipt && d.rowId = r.receiptId && d.field = .error).map Diagnostic.diagnostic

def Db.enriched (db : Db) (item : UnresolvedDelivery) : UnresolvedDelivery :=
  match (orNone item.outboxId).bind db.outboxRow? with
  | some o => { item with outboxStatus := some o.status, outboxNextAttemptAt := o.nextAttemptAt }
  | none => item

def Db.unresolvedItem (db : Db) (metadataOnly : Bool) (p : ReceiptRow × EventRow)
    (attemptSource : String) : UnresolvedDelivery :=
  db.enriched
    { eventId := p.1.eventId, eventKind := p.2.eventKind, sourceAdapter := p.2.sourceAdapter
      eventTimestamp := p.2.timestamp, deliveryPlanId := p.1.deliveryPlanId
      targetAdapter := p.1.targetAdapter, targetChannel := p.1.targetChannel, attemptSource
      replayRunId := p.1.replayRunId, receiptId := p.1.receiptId
      receiptSequence := p.1.sequence, status := p.1.status, failureKind := p.1.failureKind
      error := if metadataOnly then none else db.receiptError p.1
      attemptNumber := orOne p.1.attemptNumber, receiptCreatedAt := p.1.createdAt
      outboxId := p.1.outboxId }

def Db.unresolvedDelivery (db : Db) (metadataOnly : Bool) (p : ReceiptRow × EventRow) :
    Except Err UnresolvedDelivery := do
  let attemptSource ← attemptSourceLabel p.1.source p.1.replayRunId
  .ok (db.unresolvedItem metadataOnly p attemptSource)

structure UnresolvedDeliveriesPage where
  items : List UnresolvedDelivery
  limit : ℕ
  hasMore : Bool
  nextCursor : Option PageCursor
deriving Repr

def Db.unresolvedPage (db : Db) (metadataOnly : Bool) (limit : ℕ)
    (rows : List (ReceiptRow × EventRow)) : Except Err UnresolvedDeliveriesPage := do
  let hasMore := decide (limit < rows.length)
  let items ← (rows.take limit).mapM (db.unresolvedDelivery metadataOnly)
  let nextCursor :=
    if hasMore then items.getLast?.map fun item => encodePageCursor item.receiptSequence
    else none
  .ok { items, limit, hasMore, nextCursor }

def startSequence : Option PageCursor → Except Err ℤ
  | none => .ok 0
  | some cursor => decodePageCursor cursor

def Db.queryUnresolvedDeliveries (db : Db) (fuel : ℕ) (cursor : Option PageCursor)
    (since : Option String) (limit : ℤ) (metadataOnly : Bool) :
    Option (Except Err UnresolvedDeliveriesPage) :=
  match validatePageLimit limit with
  | .error e => some (.error e)
  | .ok pageLimit =>
    match startSequence cursor with
    | .error e => some (.error e)
    | .ok start =>
      match db.scanWindows since pageLimit fuel start [] with
      | none => none
      | some (.error e) => some (.error e)
      | some (.ok rows) => some (db.unresolvedPage metadataOnly pageLimit rows)

/-- Page after page along `next_cursor`, the `k`-th with its own limit; `scan` bounds the windows
of each. -/
def Db.followPages (db : Db) (metadataOnly : Bool) (limits : ℕ → ℤ) (scan : ℕ) :
    ℕ → ℕ → Option PageCursor → Option (Except Err (List UnresolvedDeliveriesPage))
  | 0, _, _ => none
  | fuel + 1, k, cursor =>
    match db.queryUnresolvedDeliveries scan cursor none (limits k) metadataOnly with
    | none => none
    | some (.error e) => some (.error e)
    | some (.ok page) =>
      match page.nextCursor with
      | none => some (.ok [page])
      | some next =>
        match db.followPages metadataOnly limits scan fuel (k + 1) (some next) with
        | some (.ok pages) => some (.ok (page :: pages))
        | other => other

/-! ## The anti-joins name the current receipt -/

section Authority

variable {receipts : Table receiptConstraint} {outbox : Table outboxConstraint} {r : ReceiptRow}

theorem noNewerOutboxless_iff : noNewerOutboxless receipts.rows r = true ↔
    ∀ s ∈ receipts.rows, viewStanding outbox.rows r.identity s = some .plain →
      s.sequence ≤ r.sequence := by
  simp only [noNewerOutboxless, Bool.not_eq_true', any_eq_false, Bool.and_eq_true,
    samePartition_iff, Option.isNone_iff_eq_none, decide_eq_true_eq, viewStanding_some,
    standing_plain, not_and, not_lt, and_imp]

theorem noneHigher_iff {attempt sequence : ℤ} :
    noneHigher receipts.rows outbox.rows r attempt sequence = true ↔
      ∀ s ∈ receipts.rows, ∀ m, viewStanding outbox.rows r.identity s = some (.ranked m) →
        m < attempt ∨ (m = attempt ∧ s.sequence ≤ sequence) := by
  simp only [noneHigher, Bool.not_eq_true', any_eq_false, Prod.forall, mem_joined,
    Bool.and_eq_true, Bool.or_eq_true, samePartition_iff, decide_eq_true_eq, viewStanding_some,
    standing_ranked]
  constructor
  · rintro h s hs m ⟨hident, o, ho, hj, rfl⟩
    have hno := h s o ⟨hs, ho, hj⟩
    rw [not_and, not_or, not_and] at hno
    have := hno hident
    omega
  · rintro h s o ⟨hs, ho, hj⟩ ⟨hident, hhigher⟩
    have := h s hs o.attemptNumber ⟨hident, o, ho, hj, rfl⟩
    omega

theorem noLaterWinningCommitted_iff :
    noLaterWinningCommitted receipts.rows outbox.rows r = true ↔
      ∀ t, IsTop (viewStanding outbox.rows r.identity) ReceiptRow.sequence receipts.rows t →
        t.sequence ≤ r.sequence := by
  simp only [noLaterWinningCommitted, Bool.not_eq_true', any_eq_false, Prod.forall,
    mem_joined, Bool.and_eq_true, samePartition_iff, decide_eq_true_eq, noneHigher_iff]
  constructor
  · rintro h t ⟨ht, n, hn, hmax⟩
    obtain ⟨hident, hst⟩ := viewStanding_some.mp hn
    obtain ⟨o, ho, hj, rfl⟩ := standing_ranked.mp hst
    by_contra hlt
    exact h t o ⟨ht, ho, hj⟩ ⟨⟨hident, not_le.mp hlt⟩, hmax⟩
  · rintro h t o ⟨ht, ho, hj⟩ ⟨⟨hident, hlt⟩, hmax⟩
    have hn : viewStanding outbox.rows r.identity t = some (.ranked o.attemptNumber) :=
      viewStanding_some.mpr ⟨hident, standing_ranked.mpr ⟨o, ho, hj, rfl⟩⟩
    exact absurd (h t ⟨ht, _, hn, hmax⟩) (not_le_of_gt hlt)

theorem authoritative_iff (hr : r ∈ receipts.rows) :
    authoritative receipts.rows outbox.rows r = true ↔
      Leads (viewStanding outbox.rows r.identity) ReceiptRow.sequence receipts.rows r := by
  have hseq := receipts_sequenced receipts
  unfold authoritative
  cases hid : r.outboxId with
  | none =>
    have hplain : viewStanding outbox.rows r.identity r = some .plain :=
      viewStanding_some.mpr ⟨rfl, standing_plain.mpr hid⟩
    rw [Bool.and_eq_true, @noNewerOutboxless_iff receipts outbox, noLaterWinningCommitted_iff]
    constructor
    · rintro ⟨hlast, htop⟩
      refine .inr ⟨⟨hr, hplain, hlast⟩, ?_⟩
      intro t ht
      refine lt_of_le_of_ne (htop t ht) ?_
      intro heq
      obtain rfl := hseq t ht.1 r hr heq
      exact ht.not_isLast ⟨hr, hplain, hlast⟩
    · rintro (⟨⟨-, n, hn, -⟩, -⟩ | ⟨hlast, htop⟩)
      · rw [hplain] at hn
        cases hn
      · exact ⟨hlast.2.2, fun t ht => (htop t ht).le⟩
  | some id =>
    simp only [any_eq_true, mem_filter, Bool.and_eq_true,
      @noNewerOutboxless_iff receipts outbox, noneHigher_iff]
    constructor
    · rintro ⟨o, ⟨ho, hj⟩, hmax, hlast⟩
      have htop : IsTop (viewStanding outbox.rows r.identity) ReceiptRow.sequence receipts.rows r :=
        ⟨hr, _, viewStanding_some.mpr ⟨rfl, standing_ranked.mpr ⟨o, ho, hj, rfl⟩⟩, hmax⟩
      refine .inl ⟨htop, ?_⟩
      intro b hb
      refine lt_of_le_of_ne (hlast b hb.1 hb.2.1) ?_
      intro heq
      exact htop.not_isLast (hseq b hb.1 r hr heq ▸ hb)
    · rintro (⟨⟨-, n, hn, hmax⟩, hlast⟩ | ⟨⟨-, hplain, -⟩, -⟩)
      · obtain ⟨o, ho, hj, rfl⟩ := standing_ranked.mp (viewStanding_some.mp hn).2
        refine ⟨o, ⟨ho, hj⟩, hmax, ?_⟩
        intro s hs hplain
        obtain ⟨b, hb⟩ := exists_isLast ReceiptRow.sequence hs hplain
        exact (hb.2.2 s hs hplain).trans (hlast b hb).le
      · have hnone := standing_plain.mp (viewStanding_some.mp hplain).2
        rw [hid] at hnone
        cases hnone

end Authority

/-! ## The log of failures -/

section Scan

variable (db : Db)

/-- The failed receipts with their events, in append order. -/
def Db.unresolvedLog : List (ReceiptRow × EventRow) :=
  inSequence (db.receiptEvents.filter fun p => p.1.unresolved)

def Db.unresolvedCurrent : List (ReceiptRow × EventRow) :=
  db.unresolvedLog.filter fun p => authoritative db.receipts.rows db.outbox.rows p.1

variable {db}

theorem mem_receiptEvents :
    p ∈ db.receiptEvents ↔
      p.1 ∈ db.receipts.rows ∧ p.2 ∈ db.events.rows ∧ p.2.eventId = p.1.eventId := by
  obtain ⟨r, e⟩ := p
  simp only [Db.receiptEvents, mem_flatMap, mem_map, mem_filter, decide_eq_true_eq, Prod.mk.injEq]
  constructor
  · rintro ⟨r', hr', e', ⟨he', hid⟩, rfl, rfl⟩
    exact ⟨hr', he', hid⟩
  · rintro ⟨hr, he, hid⟩
    exact ⟨r, hr, e, ⟨he, hid⟩, rfl, rfl⟩

variable (db) in
theorem receiptEvents_distinct :
    db.receiptEvents.Pairwise fun p q => candidateKey p ≠ candidateKey q := by
  refine pairwise_flatMap.mpr ⟨?_, ?_⟩
  · intro r _
    refine pairwise_map.mpr ?_
    refine (List.Pairwise.filter _ db.events.apart).imp_of_mem ?_
    intro e e' he he' hclash
    have h1 := of_decide_eq_true (mem_filter.mp he).2
    have h2 := of_decide_eq_true (mem_filter.mp he').2
    simp [distinctOn, h1, h2] at hclash
  · refine db.receipts.apart.imp ?_
    intro r s hclash p hp q hq
    obtain ⟨e, -, rfl⟩ := mem_map.mp hp
    obtain ⟨e', -, rfl⟩ := mem_map.mp hq
    simp only [receiptConstraint, Bool.or_eq_false_iff, decide_eq_false_iff_not] at hclash
    exact hclash.2

theorem inSequence_ascending (h : rows.Pairwise fun p q => candidateKey p ≠ candidateKey q) :
    Keyset.Ascending candidateKey (inSequence rows) := by
  have hsorted : (inSequence rows).Pairwise fun p q => candidateKey p ≤ candidateKey q :=
    pairwise_insertionSort (fun p q : ReceiptRow × EventRow =>
      candidateKey p ≤ candidateKey q) rows
  have hdistinct : (inSequence rows).Pairwise fun p q => candidateKey p ≠ candidateKey q :=
    (perm_insertionSort _ rows).symm.pairwise h Ne.symm
  exact (hsorted.and hdistinct).imp fun ⟨hle, hne⟩ => lt_of_le_of_ne hle hne

variable (db) in
theorem unresolvedLog_ascending : Keyset.Ascending candidateKey db.unresolvedLog :=
  inSequence_ascending ((receiptEvents_distinct db).filter _)

theorem candidateReceipts_eq (after : ℤ) (limit : ℕ) :
    db.candidateReceipts none after limit =
      (Keyset.after candidateKey db.unresolvedLog after).take limit := by
  have hsplit : (db.receiptEvents.filter fun p =>
      p.1.unresolved && (none : Option String).all (· ≤ p.2.timestamp) && after < candidateKey p) =
      (db.receiptEvents.filter fun p => p.1.unresolved).filter fun p =>
        after < candidateKey p := by
    rw [filter_filter]
    refine filter_congr fun p _ => ?_
    rw [Option.all_none, Bool.and_true, Bool.and_comm]
  unfold Db.candidateReceipts
  rw [hsplit]
  congr 1
  have hdistinct := (receiptEvents_distinct db).filter fun p => p.1.unresolved
  refine (inSequence_ascending (hdistinct.filter _)).eq_of_perm
    ((unresolvedLog_ascending db).after after) ?_
  exact (perm_insertionSort _ _).trans ((perm_insertionSort _ _).symm.filter _)

theorem after_unresolvedCurrent (a : ℤ) :
    Keyset.after candidateKey db.unresolvedCurrent a =
      (Keyset.after candidateKey db.unresolvedLog a).filter fun p =>
        authoritative db.receipts.rows db.outbox.rows p.1 :=
  Keyset.after_filter

/-- The loop goes through the log from its position on, and ends with more rows than the page
has or with all there are. -/
theorem scanWindows_reads {limit fuel : ℕ} {a : ℤ} {rows : List (ReceiptRow × EventRow)}
    (hfuel : (Keyset.after candidateKey db.unresolvedLog a).length < fuel) :
    ∃ found, db.scanWindows none limit fuel a rows = some (.ok found) ∧
      Keyset.Reads limit found (rows ++ Keyset.after candidateKey db.unresolvedCurrent a) := by
  induction fuel generalizing a rows with
  | zero => exact absurd hfuel (Nat.not_lt_zero _)
  | succ fuel ih =>
    have hasc := unresolvedLog_ascending db
    unfold Db.scanWindows
    by_cases hdone : limit < rows.length
    · rw [if_pos hdone]
      exact ⟨rows, rfl, prefix_append _ _, .inl hdone⟩
    rw [if_neg hdone]
    simp only [Db.selectUnresolvedDeliveries, candidateReceipts_eq]
    -- the log after `a` is the window and what is behind it
    set rest := Keyset.after candidateKey db.unresolvedLog a with hrest
    set size := candidateBatchLimit limit with hsize
    set keep := fun p : ReceiptRow × EventRow =>
      authoritative db.receipts.rows db.outbox.rows p.1 with hkeep
    have hsplit : rest.filter keep = (rest.take size).filter keep ++
        (rest.drop size).filter keep := by
      rw [← filter_append, take_append_drop]
    rw [after_unresolvedCurrent, ← hrest, ← hkeep, hsplit, ← append_assoc]
    by_cases hmore : limit < (rows ++ (rest.take size).filter keep).length
    · rw [if_pos hmore]
      exact ⟨_, rfl, prefix_append _ _, .inl hmore⟩
    rw [if_neg hmore]
    by_cases hshort : (rest.take size).length < size
    · have hall : rest.drop size = [] := by
        rw [length_take] at hshort
        exact drop_eq_nil_of_le (by omega)
      rw [if_pos hshort, hall]
      exact ⟨_, rfl, by simpa using Keyset.Reads.refl limit _⟩
    rw [if_neg hshort]
    have hpos : 0 < size := by
      rw [hsize, candidateBatchLimit]
      omega
    obtain ⟨x, hx⟩ : ∃ x, (rest.take size).getLast? = some x := by
      refine Option.ne_none_iff_exists'.mp ?_
      intro hnil
      rw [List.getLast?_eq_none_iff.mp hnil] at hshort
      exact hshort hpos
    have hlast : ((rest.take size).map candidateKey).max? = some (candidateKey x) :=
      Keyset.Ascending.max?_eq ((hasc.after a).sublist (take_sublist _ _)) hx
    have hx' : x ∈ rest := mem_of_mem_take (mem_of_getLast? hx)
    have hbehind := Keyset.after_take hasc hx
    rw [hlast]
    simp only
    rw [if_neg (not_le_of_gt (Keyset.lt_of_mem_after hx'))]
    have hless : (Keyset.after candidateKey db.unresolvedLog (candidateKey x)).length < fuel := by
      rw [hbehind, ← hrest, length_drop]
      have : 0 < rest.length := length_pos_of_mem hx'
      omega
    obtain ⟨found, hfound, hreads⟩ := @ih (candidateKey x) (rows ++ (rest.take size).filter keep)
      hless
    rw [after_unresolvedCurrent, hbehind] at hreads
    exact ⟨found, hfound, hreads⟩

end Scan

/-! ## The pages -/

theorem decodePageCursor_encode {n : ℤ} (h : 0 ≤ n) :
    decodePageCursor (encodePageCursor n) = .ok n := by
  obtain ⟨m, rfl⟩ := Int.eq_ofNat_of_zero_le h
  have hliteral : Json.natLiteral? (m : ℤ).repr = some m := Json.natLiteral?_toString m
  have hversion : Nat.repr 1 = "1" := rfl
  simp [decodePageCursor, encodePageCursor, Json.fields?, Json.fieldOf, isCursorVersion, Json.nat,
    hliteral, hversion]

theorem validatePageLimit_ok (h : 1 ≤ limit ∧ limit ≤ maxRecoveryPageLimit) :
    validatePageLimit limit = .ok limit.toNat := by
  rw [validatePageLimit, if_neg (not_lt_of_ge h.1), if_neg (not_lt_of_ge h.2)]

section Pages

variable {db : Db}

/-- The label of a stored receipt. -/
def ReceiptRow.attemptSource (r : ReceiptRow) : String :=
  match normalizeReplayRunId r.replayRunId with
  | none => r.source.text
  | some runId => r.source.text ++ ":" ++ runId

/-- The table keeps live receipts free of replay runs, so no label raises. -/
theorem unresolvedDelivery_ok (h : p ∈ db.receiptEvents) :
    db.unresolvedDelivery metadataOnly p =
      .ok (db.unresolvedItem metadataOnly p p.1.attemptSource) := by
  have hc : receiptConstraint.check p.1 = true := db.receipts.checked p.1 (mem_receiptEvents.mp h).1
  simp only [receiptConstraint, Bool.and_eq_true, Bool.or_eq_true, decide_eq_true_eq] at hc
  have hlabel : attemptSourceLabel p.1.source p.1.replayRunId = .ok p.1.attemptSource := by
    unfold attemptSourceLabel ReceiptRow.attemptSource
    cases hrun : normalizeReplayRunId p.1.replayRunId with
    | none => rfl
    | some runId =>
      refine if_neg fun hlive => ?_
      have hnone := hc.1.2.resolve_left (not_not_intro hlive)
      rw [Option.isNone_iff_eq_none.mp hnone] at hrun
      cases hrun
  rw [Db.unresolvedDelivery, hlabel]
  rfl

@[simp] theorem receiptSequence_item (metadataOnly : Bool) (p : ReceiptRow × EventRow)
    (label : String) :
    (db.unresolvedItem metadataOnly p label).receiptSequence = candidateKey p := by
  unfold Db.unresolvedItem Db.enriched
  split <;> rfl

theorem mapM_unresolvedDelivery (h : ∀ p ∈ rows, p ∈ db.receiptEvents) :
    rows.mapM (db.unresolvedDelivery metadataOnly) =
      .ok (rows.map fun p => db.unresolvedItem metadataOnly p p.1.attemptSource) := by
  induction rows with
  | nil => rfl
  | cons p rows ih =>
    rw [mapM_cons, unresolvedDelivery_ok (h p mem_cons_self),
      ih fun q hq => h q (mem_cons_of_mem _ hq)]
    rfl

theorem mem_unresolvedCurrent :
    p ∈ db.unresolvedCurrent ↔ p ∈ db.receiptEvents ∧ p.1.unresolved = true ∧
      authoritative db.receipts.rows db.outbox.rows p.1 = true := by
  simp only [Db.unresolvedCurrent, Db.unresolvedLog, inSequence, mem_filter,
    mem_insertionSort, and_assoc]

/-- A page of the current failures after a position. -/
def Db.pageAfter (db : Db) (metadataOnly : Bool) (limit : ℕ) (a : ℤ) :
    UnresolvedDeliveriesPage :=
  let rest := Keyset.after candidateKey db.unresolvedCurrent a
  { items := (rest.take limit).map fun p => db.unresolvedItem metadataOnly p p.1.attemptSource
    limit
    hasMore := limit < rest.length
    nextCursor :=
      if limit < rest.length then
        (rest.take limit).getLast?.map fun p => encodePageCursor (candidateKey p)
      else none }

theorem queryUnresolvedDeliveries_eq {scan : ℕ} {cursor : Option PageCursor} {a : ℤ}
    (hstart : startSequence cursor = .ok a) (hlimit : 1 ≤ limit ∧ limit ≤ maxRecoveryPageLimit)
    (hscan : db.unresolvedLog.length < scan) :
    db.queryUnresolvedDeliveries scan cursor none limit metadataOnly =
      some (.ok (db.pageAfter metadataOnly limit.toNat a)) := by
  have hlen : (Keyset.after candidateKey db.unresolvedLog a).length < scan :=
    lt_of_le_of_lt (length_filter_le _ _) hscan
  obtain ⟨found, hfound, hreads⟩ := @scanWindows_reads db limit.toNat scan a [] hlen
  rw [nil_append] at hreads
  have hmem : ∀ p ∈ found.take limit.toNat, p ∈ db.receiptEvents := by
    intro p hp
    rw [hreads.take_eq] at hp
    have hcurrent := (mem_filter.mp (mem_of_mem_take hp)).1
    exact (mem_unresolvedCurrent.mp hcurrent).1
  unfold Db.queryUnresolvedDeliveries
  simp only [validatePageLimit_ok hlimit, hstart, hfound, Db.unresolvedPage,
    mapM_unresolvedDelivery hmem]
  simp only [Db.pageAfter, hreads.take_eq, hreads.lt_length_iff, bind, Except.bind,
    List.getLast?_map, Option.map_map, Function.comp_def, receiptSequence_item,
    decide_eq_true_eq]

theorem followPages_eq {metadataOnly : Bool} {limits : ℕ → ℤ} {scan fuel k : ℕ}
    {cursor : Option PageCursor} {a : ℤ} (ha : 0 ≤ a) (hstart : startSequence cursor = .ok a)
    (hlimits : ∀ k, 1 ≤ limits k ∧ limits k ≤ maxRecoveryPageLimit)
    (hscan : db.unresolvedLog.length < scan)
    (hfuel : (Keyset.after candidateKey db.unresolvedCurrent a).length < fuel) :
    ∃ pages groups, db.followPages metadataOnly limits scan fuel k cursor = some (.ok pages) ∧
      Keyset.Pages (fun k => (limits k).toNat) k
        (Keyset.after candidateKey db.unresolvedCurrent a) groups ∧
      pages.map UnresolvedDeliveriesPage.items = groups.map fun group =>
        group.map fun p => db.unresolvedItem metadataOnly p p.1.attemptSource := by
  have hasc : Keyset.Ascending candidateKey db.unresolvedCurrent :=
    (unresolvedLog_ascending db).filter _
  induction fuel generalizing k cursor a with
  | zero => exact absurd hfuel (Nat.not_lt_zero _)
  | succ fuel ih =>
    unfold Db.followPages
    rw [queryUnresolvedDeliveries_eq hstart (hlimits k) hscan]
    simp only [Db.pageAfter]
    set rest := Keyset.after candidateKey db.unresolvedCurrent a with hrest
    set limit := (limits k).toNat with hlimit
    by_cases hmore : limit < rest.length
    · have hpos : 0 < limit := by
        have := (hlimits k).1
        omega
      obtain ⟨x, hx⟩ : ∃ x, (rest.take limit).getLast? = some x := by
        refine Option.ne_none_iff_exists'.mp ?_
        intro hnil
        have hlen := congrArg List.length (List.getLast?_eq_none_iff.mp hnil)
        rw [length_take, length_nil] at hlen
        omega
      have hbehind := Keyset.after_take hasc hx
      have hx' : x ∈ rest := mem_of_mem_take (mem_of_getLast? hx)
      have hlater : 0 ≤ candidateKey x := ha.trans (Keyset.lt_of_mem_after hx').le
      have hless : (Keyset.after candidateKey db.unresolvedCurrent (candidateKey x)).length <
          fuel := by
        rw [hbehind, ← hrest, length_drop]
        omega
      obtain ⟨pages, groups, hpages, hgroups, hitems⟩ :=
        @ih (k + 1) (some (encodePageCursor (candidateKey x))) (candidateKey x) hlater
          (decodePageCursor_encode hlater) hless
      rw [hbehind] at hgroups
      rw [if_pos hmore, hx]
      simp only [Option.map_some, hpages]
      refine ⟨_, _, rfl, .more hmore hgroups, ?_⟩
      rw [map_cons, map_cons, hitems]
    · rw [if_neg hmore]
      refine ⟨_, _, rfl, .last (not_lt.mp hmore), ?_⟩
      rw [map_singleton, map_singleton, take_of_length_le (not_lt.mp hmore)]

/-! ## What the pages list -/

/-- Every receipt belongs to a stored event. -/
def Db.ReceiptsStored (db : Db) : Prop :=
  ∀ r ∈ db.receipts.rows, ∃ e ∈ db.events.rows, e.eventId = r.eventId

instance : Decidable db.ReceiptsStored :=
  inferInstanceAs (Decidable (∀ r ∈ db.receipts.rows, _))

/-- The stored rows of every delivery with a failed receipt are read alike. -/
def RecoveredAlike (receipts : Table receiptConstraint) (outbox : Table outboxConstraint) :
    Prop :=
  ∀ r ∈ receipts.rows, r.unresolved = true → PointersAlike receipts outbox r.identity

instance {receipts : Table receiptConstraint} {outbox : Table outboxConstraint} :
    Decidable (RecoveredAlike receipts outbox) :=
  inferInstanceAs (Decidable (∀ r ∈ receipts.rows, _))

theorem mem_fst_unresolvedCurrent (hstored : db.ReceiptsStored) {r : ReceiptRow} :
    r ∈ db.unresolvedCurrent.map Prod.fst ↔ r ∈ db.receipts.rows ∧ r.unresolved = true ∧
      Leads (viewStanding db.outbox.rows r.identity) ReceiptRow.sequence db.receipts.rows r := by
  simp only [mem_map, mem_unresolvedCurrent, mem_receiptEvents]
  constructor
  · rintro ⟨p, ⟨⟨hr, -⟩, hfailed, hauth⟩, rfl⟩
    exact ⟨hr, hfailed, (authoritative_iff hr).mp hauth⟩
  · rintro ⟨hr, hfailed, hleads⟩
    obtain ⟨e, he, hid⟩ := hstored r hr
    exact ⟨(r, e), ⟨⟨hr, he, hid⟩, hfailed, (authoritative_iff hr).mpr hleads⟩, rfl⟩

variable (db) in
/-- A receipt has one event, so there are no more candidates than receipts. -/
theorem unresolvedLog_length_le : db.unresolvedLog.length ≤ db.receipts.rows.length := by
  have hnodup : (db.receiptEvents.map Prod.fst).Nodup := by
    refine pairwise_map.mpr ((receiptEvents_distinct db).imp ?_)
    intro p q hne heq
    exact hne (congrArg ReceiptRow.sequence heq)
  have hsub : db.receiptEvents.map Prod.fst ⊆ db.receipts.rows := by
    intro r hr
    obtain ⟨p, hp, rfl⟩ := mem_map.mp hr
    exact (mem_receiptEvents.mp hp).1
  calc db.unresolvedLog.length
      = (db.receiptEvents.filter fun p => p.1.unresolved).length := length_insertionSort _ _
    _ ≤ db.receiptEvents.length := length_filter_le _ _
    _ = (db.receiptEvents.map Prod.fst).length := (length_map _).symm
    _ ≤ db.receipts.rows.length := (subperm_of_subset hnodup hsub).length_le

/-- Following the cursors from the start ends, without an error, in pages that are full but for the
last and list in ascending order, each once, the failed receipts that the view names; where the
deliveries are read alike in SQL and in Python these are the resolver's. `AUTOINCREMENT` numbers
the receipts from 1. -/
theorem recovery_pages_exact (db : Db) (hstored : db.ReceiptsStored)
    (howned : ReceiptsOwned db.receipts db.outbox)
    (hnumbered : ∀ r ∈ db.receipts.rows, 0 < r.sequence)
    (limits : ℕ → ℤ) (hlimits : ∀ k, 1 ≤ limits k ∧ limits k ≤ maxRecoveryPageLimit)
    (metadataOnly : Bool) (scan fuel : ℕ) (hscan : db.receipts.rows.length < scan)
    (hfuel : db.receipts.rows.length < fuel) :
    ∃ (pages : List UnresolvedDeliveriesPage) (found : List (ReceiptRow × EventRow)),
      db.followPages metadataOnly limits scan fuel 0 none = some (.ok pages) ∧
      (∀ i (_ : i + 1 < pages.length), (pages[i].items.length : ℤ) = limits i) ∧
      found.mapM (db.unresolvedDelivery metadataOnly) =
        .ok (pages.flatMap UnresolvedDeliveriesPage.items) ∧
      found.Pairwise (fun p q => p.1.sequence < q.1.sequence) ∧
      (∀ p ∈ found, p.1 ∈ db.receipts.rows ∧ p.2 ∈ db.events.rows ∧ p.2.eventId = p.1.eventId) ∧
      (∀ r, r ∈ found.map Prod.fst ↔ r ∈ db.receipts.rows ∧ r.unresolved = true ∧
        deliveryStatusRow db.receipts.rows db.outbox.rows r.identity = some r) ∧
      (RecoveredAlike db.receipts db.outbox → ∀ r, r ∈ found.map Prod.fst ↔
        r ∈ db.receipts.rows ∧ r.unresolved = true ∧
          resolverCurrent db.receipts.rows db.outbox.rows r.identity = some r) := by
  have hseq := receipts_sequenced db.receipts
  have hlog := unresolvedLog_length_le db
  -- every position is after the start
  have hall : Keyset.after candidateKey db.unresolvedCurrent 0 = db.unresolvedCurrent := by
    refine filter_eq_self.mpr fun p hp => decide_eq_true ?_
    exact hnumbered p.1 (mem_receiptEvents.mp (mem_unresolvedCurrent.mp hp).1).1
  have hcurrent : db.unresolvedCurrent.length ≤ db.unresolvedLog.length := length_filter_le _ _
  obtain ⟨pages, groups, hpages, hgroups, hitems⟩ :=
    @followPages_eq db metadataOnly limits scan fuel 0 none 0 (le_refl 0) rfl hlimits
      (hlog.trans_lt hscan) (hall.symm ▸ (hcurrent.trans hlog).trans_lt hfuel)
  rw [hall] at hgroups
  have hview : ∀ r, r ∈ db.unresolvedCurrent.map Prod.fst ↔ r ∈ db.receipts.rows ∧
      r.unresolved = true ∧
        deliveryStatusRow db.receipts.rows db.outbox.rows r.identity = some r := by
    intro r
    rw [mem_fst_unresolvedCurrent hstored, deliveryStatusRow_eq, select_eq_some_iff hseq]
  refine ⟨pages, db.unresolvedCurrent, hpages, ?_, ?_, ?_, ?_, hview, ?_⟩
  · intro i hi
    have hlen : pages.length = groups.length := by simpa using congrArg List.length hitems
    have hfull := hgroups.length_eq (hlen ▸ hi)
    have hpage : pages[i].items.length = groups[i].length := by
      have hget := getElem_of_eq hitems (i := i) (by simp; omega)
      simpa using congrArg List.length hget
    have hone := (hlimits i).1
    rw [hpage, hfull, Nat.zero_add]
    omega
  · rw [mapM_unresolvedDelivery fun p hp => (mem_unresolvedCurrent.mp hp).1, ← hgroups.flatten_eq,
      flatMap_def, hitems, map_flatten]
  · exact (unresolvedLog_ascending db).filter _
  · exact fun p hp => mem_receiptEvents.mp (mem_unresolvedCurrent.mp hp).1
  · intro halike r
    rw [hview]
    refine and_congr_right fun hr => and_congr_right fun hfailed => ?_
    rw [deliveryStatusRow_eq, resolverCurrent_eq howned, (halike r hr hfailed).view_eq_resolver]

end Pages

namespace Sample

/-- The receipt of a delivery that is given up. -/
def givenUp (receiptId outboxId : String) : DeliveryReceipt :=
  { cancellation receiptId outboxId with status := .deadLettered }

def takenInHand : List Op :=
  [.append event (clock 0), .createOutboxItem staged false none (clock 1),
    .claimDueOutboxItems "2026-01-01T00:02:00+00:00" "retry" 3600 ["staged"] {}]

def givenUpAfterReplay : List Op :=
  takenInHand ++ [.createOutboxItem replay true none (clock 2),
    .appendReceipt (cancellation "first" "replay"),
    .markOutbox (.cancelled "replay" none (some "first") none none none) (clock 3),
    .appendReceipt (givenUp "second" "staged"),
    .markOutbox (.deadLettered "staged" (some "second") none none none none (some "retry"))
      (clock 4)]

end Sample

open Sample in
/-- Python reads the staged attempt 0 as 1 and makes the failure current; the pages go by the raw
attempts and list nothing. -/
theorem staged_failure_not_listed :
    let db := stateAfter externals givenUpAfterReplay
    db.ReceiptsStored ∧ ReceiptsOwned db.receipts db.outbox ∧
      (∀ r ∈ db.receipts.rows, 0 < r.sequence) ∧
      (resolverCurrent db.receipts.rows db.outbox.rows staged.identity).map
        (fun r => (r.receiptId, r.status)) = some ("second", .deadLettered) ∧
      ∃ page, db.followPages false (fun _ => 50) 3 3 0 none = some (.ok [page]) ∧
        page.items = [] :=
  ⟨by decide, by decide, by decide, rfl, _, rfl, rfl⟩

namespace Sample

def otherStaged : DeliveryOutboxItem :=
  { staged with outboxId := "other", deliveryPlanId := "other" }

/-- Two deliveries are given up, the first after a failure that its own supersedes. -/
def bothGivenUp : List Op :=
  [.append event (clock 0), .createOutboxItem staged false none (clock 1),
    .createOutboxItem otherStaged false none (clock 1),
    .claimDueOutboxItems "2026-01-01T00:02:00+00:00" "retry" 3600 ["staged", "other"] {},
    .appendReceipt { givenUp "early" "" with outboxId := none },
    .appendReceipt (givenUp "first" "staged"),
    .markOutbox (.deadLettered "staged" (some "first") none none none none (some "retry"))
      (clock 4),
    .appendReceipt { givenUp "second" "other" with deliveryPlanId := "other" },
    .markOutbox (.deadLettered "other" (some "second") none none none none (some "retry"))
      (clock 4)]

end Sample

open Sample in
/-- Two pages of one item each; the superseded failure is on neither. -/
theorem recovery_pages_exact_both :
    let db := stateAfter externals bothGivenUp
    db.receipts.rows.map ReceiptRow.receiptId = ["early", "first", "second"] ∧
      ∃ pages found, db.followPages false (fun _ => 1) 4 4 0 none = some (.ok pages) ∧
        pages.map (fun page => page.items.map UnresolvedDelivery.receiptId) =
          [["first"], ["second"]] ∧
        List.mapM (db.unresolvedDelivery false) found =
          .ok (pages.flatMap UnresolvedDeliveriesPage.items) ∧
        ∀ r, r ∈ found.map Prod.fst ↔ r ∈ db.receipts.rows ∧ r.unresolved = true ∧
          resolverCurrent db.receipts.rows db.outbox.rows r.identity = some r := by
  intro db
  have halike : RecoveredAlike db.receipts db.outbox := by decide +kernel
  obtain ⟨pages, found, hpages, -, hitems, -, -, -, hexact⟩ :=
    recovery_pages_exact db (by decide +kernel) (by decide +kernel) (by decide +kernel) (fun _ => 1)
      (fun _ => by decide) false 4 4 (by decide +kernel) (by decide +kernel)
  refine ⟨by decide +kernel, pages, found, hpages, ?_, hitems, hexact halike⟩
  have hrun : (db.followPages false (fun _ => 1) 4 4 0 none).map (Except.map (List.map
      fun page => page.items.map UnresolvedDelivery.receiptId)) =
        some (.ok [["first"], ["second"]]) := by
    decide +kernel
  rw [hpages] at hrun
  simpa [Except.map] using hrun

end Medre.Storage
