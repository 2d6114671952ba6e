import Medre.Core.DeliveryAuthority
import Medre.Storage.Settlement

/-! # The current receipt in three readings

The `delivery_status` query (`statements.py`) and view (`schema.py`) and the in-memory resolver
are each `Framework.select` under a reading of the receipts of their own. -/

namespace Medre.Storage

open List Medre.Framework Medre.Core

variable {os : List OutboxRow} {r s : ReceiptRow} {o : OutboxRow} {k : Standing} {a : Option ℤ}

/-! ## The query -/

/-- `o.outbox_id = r.outbox_id AND o.receipt_id = r.receipt_id`. -/
def ReceiptRow.joins (r : ReceiptRow) (o : OutboxRow) : Bool :=
  r.outboxId = some o.outboxId && o.receiptId = some r.receiptId

/-- `delivery_receipts r JOIN delivery_outbox o`. -/
def joined (receipts : List ReceiptRow) (outbox : List OutboxRow) :
    List (ReceiptRow × OutboxRow) :=
  receipts.flatMap fun r => (outbox.filter r.joins).map fun o => (r, o)

/-- `event_id = ? AND delivery_plan_id = ? AND target_adapter = ? AND
target_channel IS ?`. -/
def ReceiptRow.atIdentity (identity : DeliveryIdentity) (r : ReceiptRow) : Bool :=
  r.eventId = identity.eventId && r.deliveryPlanId = identity.deliveryPlanId &&
    r.targetAdapter = identity.targetAdapter && r.targetChannel = identity.targetChannel

/-- `ORDER BY o.attempt_number DESC, r.sequence DESC`. -/
def joinRank (p : ReceiptRow × OutboxRow) : ℤ ×ₗ ℤ := toLex (p.2.attemptNumber, p.1.sequence)

/-- `_DELIVERY_RECEIPT_LATEST_BY_EVENT_CHANNEL`. -/
def deliveryStatusQuery (receipts : List ReceiptRow) (outbox : List OutboxRow)
    (identity : DeliveryIdentity) : Option ReceiptRow :=
  let outboxCurrent :=
    greatest joinRank ((joined receipts outbox).filter fun p => p.1.atIdentity identity)
  let outboxlessCurrent := greatest ReceiptRow.sequence
    (receipts.filter fun r => r.atIdentity identity && r.outboxId.isNone)
  greatest ReceiptRow.sequence
    ((outboxCurrent.map Prod.fst).toList ++ outboxlessCurrent.toList)

/-! ## The view -/

/-- `ROW_NUMBER()` in a window whose order has no ties. -/
def rowNumber {ρ : Type} (before : ρ → ρ → Bool) (rows : List ρ) (r : ρ) : ℕ :=
  rows.countP (fun s => before s r) + 1

/-- `authoritative_receipts`: each receipt with its `committed_attempt`. -/
def authoritativeReceipts (receipts : List ReceiptRow) (outbox : List OutboxRow) :
    List (ReceiptRow × Option ℤ) :=
  (receipts.filter fun r => r.outboxId.isNone).map (fun r => (r, none)) ++
    (joined receipts outbox).map fun p => (p.1, some p.2.attemptNumber)

/-- `PARTITION BY event_id, delivery_plan_id, target_adapter,
COALESCE(target_channel, '')`. -/
def ReceiptRow.samePartition (r s : ReceiptRow) : Bool :=
  r.eventId = s.eventId && r.deliveryPlanId = s.deliveryPlanId &&
    r.targetAdapter = s.targetAdapter && r.targetChannel.getD "" = s.targetChannel.getD ""

/-- The window order of `class_rank` inside one class. -/
def classBefore (p q : ReceiptRow × Option ℤ) : Bool :=
  p.1.samePartition q.1 && p.1.outboxId.isNone = q.1.outboxId.isNone &&
    (if q.1.outboxId.isNone then q.1.sequence < p.1.sequence
    else q.2.getD 0 < p.2.getD 0 || (q.2.getD 0 = p.2.getD 0 && q.1.sequence < p.1.sequence))

/-- The window order of `authority_rank`. -/
def authorityBefore (p q : ReceiptRow × Option ℤ) : Bool :=
  p.1.samePartition q.1 && q.1.sequence < p.1.sequence

/-- `delivery_status`. -/
def deliveryStatusView (receipts : List ReceiptRow) (outbox : List OutboxRow) :
    List ReceiptRow :=
  let authoritative := authoritativeReceipts receipts outbox
  let candidates := authoritative.filter fun p => rowNumber classBefore authoritative p = 1
  (candidates.filter fun p => rowNumber authorityBefore candidates p = 1).map Prod.fst

/-- The row of the view for a delivery. -/
def deliveryStatusRow (receipts : List ReceiptRow) (outbox : List OutboxRow)
    (identity : DeliveryIdentity) : Option ReceiptRow :=
  (deliveryStatusView receipts outbox).find? fun r => r.identity = identity

/-! ## Three readings of the receipts -/

/-- The standing of a receipt in SQL: committed by the row it names, or without
an outbox. -/
def ReceiptRow.standing (outbox : List OutboxRow) (r : ReceiptRow) : Option Standing :=
  match r.outboxId with
  | none => some .plain
  | some _ => (outbox.find? r.joins).map fun o => .ranked o.attemptNumber

/-- The reading of the view: every receipt of the delivery. -/
def viewStanding (outbox : List OutboxRow) (identity : DeliveryIdentity) (r : ReceiptRow) :
    Option Standing :=
  restrict (fun r => r.identity = identity) (ReceiptRow.standing outbox) r

/-- The query keeps the receipts whose channel is stored as it asks for it. -/
def queryStanding (outbox : List OutboxRow) (identity : DeliveryIdentity) :
    ReceiptRow → Option Standing :=
  restrict (fun r => r.targetChannel = identity.targetChannel) (viewStanding outbox identity)

/-- The reading of the resolver, to which an empty id is none and attempt 0 is attempt 1. -/
def resolverStanding (outbox : List OutboxRow) (identity : DeliveryIdentity) (r : ReceiptRow) :
    Option Standing :=
  if r.identity = identity then
    if orNone r.outboxId = none then some .plain
    else if r.receiptId = "" then none
    else (outbox.find? r.joins).map fun o => .ranked (orOne o.attemptNumber)
  else none

section

variable (receipts : Table receiptConstraint) (outbox : Table outboxConstraint)
  (identity : DeliveryIdentity)

theorem receipts_sequenced : Sequenced ReceiptRow.sequence receipts.rows := by
  intro r hr s hs h
  refine receipts.eq_of_clash ?_ hr hs (by simp [receiptConstraint, h])
  intro a b
  simp [receiptConstraint, eq_comm]

variable {receipts outbox identity}

theorem mem_joined {rs : List ReceiptRow} :
    (r, o) ∈ joined rs os ↔ r ∈ rs ∧ o ∈ os ∧ r.joins o = true := by
  simp only [joined, mem_flatMap, mem_map, mem_filter, Prod.mk.injEq]
  constructor
  · rintro ⟨r', hr', o', ⟨ho', hj⟩, rfl, rfl⟩
    exact ⟨hr', ho', hj⟩
  · rintro ⟨hr, ho, hj⟩
    exact ⟨r, hr, o, ⟨ho, hj⟩, rfl, rfl⟩

theorem joins_outboxId (h : r.joins o = true) : r.outboxId = some o.outboxId := by
  simp only [ReceiptRow.joins, Bool.and_eq_true, decide_eq_true_eq] at h
  exact h.1

theorem joins_unique {o' : OutboxRow} (ho : o ∈ outbox.rows) (ho' : o' ∈ outbox.rows)
    (h : r.joins o = true) (h' : r.joins o' = true) : o = o' := by
  refine outbox_eq_of_id outbox ho ho' ?_
  have heq := (joins_outboxId h).symm.trans (joins_outboxId h')
  exact Option.some.inj heq

theorem standing_ranked {n : ℤ} :
    r.standing outbox.rows = some (.ranked n) ↔
      ∃ o ∈ outbox.rows, r.joins o = true ∧ o.attemptNumber = n := by
  unfold ReceiptRow.standing
  cases hid : r.outboxId with
  | none =>
    constructor
    · intro h
      cases h
    · rintro ⟨o, -, hj, -⟩
      rw [joins_outboxId hj] at hid
      cases hid
  | some _ =>
    constructor
    · intro h
      obtain ⟨o, ho, hn⟩ := Option.map_eq_some_iff.mp h
      exact ⟨o, mem_of_find?_eq_some ho, List.find?_some ho, by simpa using hn⟩
    · rintro ⟨o, ho, hj, rfl⟩
      rw [find?_of_unique ho hj fun o' ho' hj' => joins_unique ho' ho hj' hj]
      rfl

theorem standing_plain : r.standing os = some .plain ↔ r.outboxId = none := by
  unfold ReceiptRow.standing
  cases r.outboxId <;> simp

theorem viewStanding_some :
    viewStanding os identity r = some k ↔ r.identity = identity ∧ r.standing os = some k := by
  rw [viewStanding, restrict_some, decide_eq_true_eq]

theorem atIdentity_iff :
    r.atIdentity identity = true ↔
      r.targetChannel = identity.targetChannel ∧ r.identity = identity := by
  simp only [ReceiptRow.atIdentity, Bool.and_eq_true, decide_eq_true_eq, ReceiptRow.identity,
    DeliveryIdentity.of]
  obtain ⟨e, p, a, ch, hch⟩ := identity
  simp only [DeliveryIdentity.mk.injEq]
  constructor
  · rintro ⟨⟨⟨rfl, rfl⟩, rfl⟩, rfl⟩
    exact ⟨rfl, rfl, rfl, rfl, orNone_of_ne hch⟩
  · rintro ⟨h, h1, h2, h3, -⟩
    exact ⟨⟨⟨h1, h2⟩, h3⟩, h⟩

theorem queryStanding_some :
    queryStanding os identity r = some k ↔
      r.atIdentity identity = true ∧ r.standing os = some k := by
  rw [queryStanding, restrict_some, viewStanding_some, atIdentity_iff, decide_eq_true_eq, and_assoc]

/-! ## The query selects under its reading -/

theorem query_rankedLeader :
    (greatest joinRank ((joined receipts.rows outbox.rows).filter fun p =>
        p.1.atIdentity identity)).map Prod.fst =
      rankedLeader (queryStanding outbox.rows identity) ReceiptRow.sequence receipts.rows := by
  have hseq := receipts_sequenced receipts
  -- the first column of a maximal pair leads the committed receipts
  have htop : ∀ p, greatest joinRank ((joined receipts.rows outbox.rows).filter fun p =>
      p.1.atIdentity identity) = some p →
        IsTop (queryStanding outbox.rows identity) ReceiptRow.sequence receipts.rows p.1 := by
    rintro ⟨r, o⟩ hmax
    obtain ⟨hmem, hat⟩ := mem_filter.mp (argmax_mem hmax)
    obtain ⟨hr, ho, hj⟩ := mem_joined.mp hmem
    refine ⟨hr, o.attemptNumber,
      queryStanding_some.mpr ⟨hat, standing_ranked.mpr ⟨o, ho, hj, rfl⟩⟩, ?_⟩
    intro s hs m hm
    obtain ⟨hat', hst⟩ := queryStanding_some.mp hm
    obtain ⟨o', ho', hj', rfl⟩ := standing_ranked.mp hst
    have hle := le_of_mem_argmax (mem_filter.mpr ⟨mem_joined.mpr ⟨hs, ho', hj'⟩, hat'⟩) hmax
    simpa [joinRank, Prod.Lex.toLex_le_toLex] using hle
  cases hmax : greatest joinRank ((joined receipts.rows outbox.rows).filter fun p =>
      p.1.atIdentity identity) with
  | some p => exact ((rankedLeader_eq_some_iff hseq).mpr (htop p hmax)).symm
  | none =>
    cases hl : rankedLeader (queryStanding outbox.rows identity) ReceiptRow.sequence
        receipts.rows with
    | none => rfl
    | some r =>
      obtain ⟨hr, n, hn, -⟩ := rankedLeader_isTop hl
      obtain ⟨hat, hst⟩ := queryStanding_some.mp hn
      obtain ⟨o, ho, hj, -⟩ := standing_ranked.mp hst
      have hmem : (r, o) ∈ (joined receipts.rows outbox.rows).filter fun p =>
          p.1.atIdentity identity :=
        mem_filter.mpr ⟨mem_joined.mpr ⟨hr, ho, hj⟩, hat⟩
      rw [argmax_eq_none.mp hmax] at hmem
      cases hmem

theorem deliveryStatusQuery_eq :
    deliveryStatusQuery receipts.rows outbox.rows identity =
      select (queryStanding outbox.rows identity) ReceiptRow.sequence receipts.rows := by
  have hplain : (receipts.rows.filter fun r => r.atIdentity identity && r.outboxId.isNone) =
      receipts.rows.filter fun r => queryStanding outbox.rows identity r = some .plain := by
    refine filter_congr fun r _ => ?_
    rw [Bool.eq_iff_iff, decide_eq_true_eq, queryStanding_some, standing_plain, Bool.and_eq_true,
      Option.isNone_iff_eq_none]
  unfold deliveryStatusQuery select plainLeader
  rw [← query_rankedLeader, hplain]

/-! ## The view selects under its reading -/

theorem rowNumber_eq_one {ρ : Type} {before : ρ → ρ → Bool} {rows : List ρ} {r : ρ} :
    rowNumber before rows r = 1 ↔ ∀ s ∈ rows, before s r = false := by
  unfold rowNumber
  rw [Nat.add_eq_right, countP_eq_zero]
  simp only [Bool.not_eq_true]

theorem samePartition_iff : r.samePartition s = true ↔ r.identity = s.identity := by
  simp only [ReceiptRow.samePartition, ReceiptRow.identity, DeliveryIdentity.of,
    DeliveryIdentity.mk.injEq, orNone_eq_iff, Bool.and_eq_true, decide_eq_true_eq]
  tauto

/-- The `committed_attempt` column of a standing. -/
def committedAttempt : Standing → Option ℤ
  | .ranked n => some n
  | .plain => none

theorem mem_authoritativeReceipts :
    (r, a) ∈ authoritativeReceipts receipts.rows outbox.rows ↔
      r ∈ receipts.rows ∧ ∃ k, r.standing outbox.rows = some k ∧ a = committedAttempt k := by
  simp only [authoritativeReceipts, mem_append, mem_map, mem_filter,
    Option.isNone_iff_eq_none, Prod.mk.injEq]
  constructor
  · rintro (⟨r', ⟨hr', hnone⟩, rfl, rfl⟩ | ⟨⟨r', o⟩, hp, rfl, rfl⟩)
    · exact ⟨hr', .plain, standing_plain.mpr hnone, rfl⟩
    · obtain ⟨hr', ho, hj⟩ := mem_joined.mp hp
      exact ⟨hr', .ranked o.attemptNumber, standing_ranked.mpr ⟨o, ho, hj, rfl⟩, rfl⟩
  · rintro ⟨hr, k, hk, rfl⟩
    cases k with
    | plain => exact .inl ⟨r, ⟨hr, standing_plain.mp hk⟩, rfl, rfl⟩
    | ranked n =>
      obtain ⟨o, ho, hj, rfl⟩ := standing_ranked.mp hk
      exact .inr ⟨(r, o), mem_joined.mpr ⟨hr, ho, hj⟩, rfl, rfl⟩

/-- `candidates`: the receipts that are first in their class. -/
def statusCandidates (rs : List ReceiptRow) (os : List OutboxRow) : List (ReceiptRow × Option ℤ) :=
  (authoritativeReceipts rs os).filter fun p =>
    rowNumber classBefore (authoritativeReceipts rs os) p = 1

theorem standing_outboxId (h : r.standing outbox.rows = some k) :
    r.outboxId.isNone = !k.isRanked := by
  cases k with
  | plain => rw [standing_plain.mp h]; rfl
  | ranked n =>
    obtain ⟨o, -, hj, -⟩ := standing_ranked.mp h
    rw [joins_outboxId hj]
    rfl

theorem classBefore_iff {l : Standing} (hr : r.standing outbox.rows = some k)
    (hs : s.standing outbox.rows = some l) :
    classBefore (s, committedAttempt l) (r, committedAttempt k) = true ↔
      s.identity = r.identity ∧ ((k = .plain ∧ l = .plain ∧ r.sequence < s.sequence) ∨
        ∃ n m, k = .ranked n ∧ l = .ranked m ∧
          (n < m ∨ (n = m ∧ r.sequence < s.sequence))) := by
  simp only [classBefore, standing_outboxId hr, standing_outboxId hs, Bool.and_eq_true,
    samePartition_iff, Bool.ite_eq_true_distrib, Bool.or_eq_true, decide_eq_true_eq]
  cases k <;> cases l <;> simp [Standing.isRanked, committedAttempt]

theorem mem_statusCandidates :
    (r, a) ∈ statusCandidates receipts.rows outbox.rows ↔
      ∃ k, r.standing outbox.rows = some k ∧ a = committedAttempt k ∧
        (IsTop (viewStanding outbox.rows r.identity) ReceiptRow.sequence receipts.rows r ∨
          IsLast (viewStanding outbox.rows r.identity) ReceiptRow.sequence receipts.rows r) := by
  simp only [statusCandidates, mem_filter, decide_eq_true_eq, rowNumber_eq_one,
    mem_authoritativeReceipts]
  constructor
  · rintro ⟨⟨hr, k, hk, rfl⟩, hfirst⟩
    refine ⟨k, hk, rfl, ?_⟩
    have hnot : ∀ s ∈ receipts.rows, ∀ l, s.standing outbox.rows = some l →
        ¬classBefore (s, committedAttempt l) (r, committedAttempt k) = true := by
      intro s hs l hl
      rw [Bool.not_eq_true]
      exact hfirst _ (mem_authoritativeReceipts.mpr ⟨hs, l, hl, rfl⟩)
    cases k with
    | plain =>
      refine .inr ⟨hr, viewStanding_some.mpr ⟨rfl, hk⟩, ?_⟩
      intro s hs hplain
      obtain ⟨hident, hst⟩ := viewStanding_some.mp hplain
      by_contra hlt
      rw [not_le] at hlt
      exact hnot s hs _ hst ((classBefore_iff hk hst).mpr ⟨hident, .inl ⟨rfl, rfl, hlt⟩⟩)
    | ranked n =>
      refine .inl ⟨hr, n, viewStanding_some.mpr ⟨rfl, hk⟩, ?_⟩
      intro s hs m hm
      obtain ⟨hident, hst⟩ := viewStanding_some.mp hm
      by_contra hbefore
      refine hnot s hs _ hst ((classBefore_iff hk hst).mpr ⟨hident, .inr ⟨n, m, rfl, rfl, ?_⟩⟩)
      omega
  · rintro ⟨k, hk, rfl, hlead⟩
    have hr : r ∈ receipts.rows := by
      rcases hlead with h | h <;> exact h.1
    refine ⟨⟨hr, k, hk, rfl⟩, ?_⟩
    rintro ⟨s, b⟩ hs
    obtain ⟨hsmem, l, hl, rfl⟩ := mem_authoritativeReceipts.mp hs
    rw [← Bool.not_eq_true, classBefore_iff hk hl]
    rintro ⟨hident, hbefore⟩
    have hview : viewStanding outbox.rows r.identity s = some l :=
      viewStanding_some.mpr ⟨hident, hl⟩
    rcases hlead with ⟨-, n, hn, hmax⟩ | ⟨-, hplain, hmax⟩
    · obtain rfl := Option.some.inj (hk.symm.trans (viewStanding_some.mp hn).2)
      rcases hbefore with ⟨hne, -, -⟩ | ⟨n', m, hn', rfl, hlt⟩
      · cases hne
      · cases hn'
        have hle := hmax s hsmem m hview
        omega
    · obtain rfl := Option.some.inj (hk.symm.trans (viewStanding_some.mp hplain).2)
      rcases hbefore with ⟨-, rfl, hlt⟩ | ⟨n', m, hn', -, -⟩
      · exact absurd (hmax s hsmem hview) (not_le_of_gt hlt)
      · cases hn'

theorem mem_deliveryStatusView :
    r ∈ deliveryStatusView receipts.rows outbox.rows ↔
      Leads (viewStanding outbox.rows r.identity) ReceiptRow.sequence receipts.rows r := by
  have hseq := receipts_sequenced receipts
  have hmem : r ∈ deliveryStatusView receipts.rows outbox.rows ↔
      ∃ a, (r, a) ∈ statusCandidates receipts.rows outbox.rows ∧
        ∀ p ∈ statusCandidates receipts.rows outbox.rows, authorityBefore p (r, a) = false := by
    unfold deliveryStatusView
    simp only [mem_map, mem_filter, decide_eq_true_eq, rowNumber_eq_one,
      statusCandidates, Prod.exists]
    constructor
    · rintro ⟨r', a, h, rfl⟩
      exact ⟨a, h⟩
    · rintro ⟨a, h⟩
      exact ⟨r, a, h, rfl⟩
  -- a leader of the other class is a candidate, and so not later
  have hle : ∀ {a : Option ℤ}, (∀ p ∈ statusCandidates receipts.rows outbox.rows,
      authorityBefore p (r, a) = false) → ∀ {s : ReceiptRow} {k : Standing},
      s.identity = r.identity → s.standing outbox.rows = some k →
      (IsTop (viewStanding outbox.rows r.identity) ReceiptRow.sequence receipts.rows s ∨
        IsLast (viewStanding outbox.rows r.identity) ReceiptRow.sequence receipts.rows s) →
      s.sequence ≤ r.sequence := by
    intro a hfirst s k hident hk hlead
    rw [← hident] at hlead
    have hbefore := hfirst (s, committedAttempt k) (mem_statusCandidates.mpr ⟨k, hk, rfl, hlead⟩)
    by_contra hlt
    rw [not_le] at hlt
    have htrue : authorityBefore (s, committedAttempt k) (r, a) = true := by
      simp [authorityBefore, samePartition_iff.mpr hident, hlt]
    rw [htrue] at hbefore
    cases hbefore
  rw [hmem]
  constructor
  · rintro ⟨a, hcand, hfirst⟩
    obtain ⟨k, hk, rfl, hlead⟩ := mem_statusCandidates.mp hcand
    rcases hlead with htop | hlast
    · refine .inl ⟨htop, ?_⟩
      intro b hb
      obtain ⟨hident, hst⟩ := viewStanding_some.mp hb.2.1
      refine lt_of_le_of_ne (hle hfirst hident hst (.inr hb)) ?_
      intro heq
      exact htop.not_isLast (hseq b hb.1 r htop.1 heq ▸ hb)
    · refine .inr ⟨hlast, ?_⟩
      intro t ht
      obtain ⟨htmem, n, hn, -⟩ := id ht
      obtain ⟨hident, hst⟩ := viewStanding_some.mp hn
      refine lt_of_le_of_ne (hle hfirst hident hst (.inl ht)) ?_
      intro heq
      exact ht.not_isLast (hseq t htmem r hlast.1 heq ▸ hlast)
  · intro hleads
    have hlead : IsTop (viewStanding outbox.rows r.identity) ReceiptRow.sequence receipts.rows r ∨
        IsLast (viewStanding outbox.rows r.identity) ReceiptRow.sequence receipts.rows r :=
      hleads.imp And.left And.left
    obtain ⟨k, hk⟩ : ∃ k, r.standing outbox.rows = some k := by
      rcases hlead with ⟨-, n, hn, -⟩ | ⟨-, hplain, -⟩
      · exact ⟨_, (viewStanding_some.mp hn).2⟩
      · exact ⟨_, (viewStanding_some.mp hplain).2⟩
    refine ⟨committedAttempt k, mem_statusCandidates.mpr ⟨k, hk, rfl, hlead⟩, ?_⟩
    rintro ⟨s, b⟩ hs
    obtain ⟨l, hl, rfl, hslead⟩ := mem_statusCandidates.mp hs
    rw [← Bool.not_eq_true]
    simp only [authorityBefore, Bool.and_eq_true, samePartition_iff, decide_eq_true_eq]
    rintro ⟨hident, hlt⟩
    rw [hident] at hslead
    rcases hleads with ⟨htop, hlater⟩ | ⟨hlast, hlater⟩ <;> rcases hslead with hs' | hs'
    · rw [htop.unique hseq hs'] at hlt
      exact lt_irrefl _ hlt
    · exact absurd (hlater s hs') (not_lt_of_gt hlt)
    · exact absurd (hlater s hs') (not_lt_of_gt hlt)
    · rw [hlast.unique hseq hs'] at hlt
      exact lt_irrefl _ hlt

theorem deliveryStatusRow_eq :
    deliveryStatusRow receipts.rows outbox.rows identity =
      select (viewStanding outbox.rows identity) ReceiptRow.sequence receipts.rows := by
  have hseq := receipts_sequenced receipts
  cases hf : deliveryStatusRow receipts.rows outbox.rows identity with
  | some r =>
    have hident : r.identity = identity := by simpa using List.find?_some hf
    have hleads := mem_deliveryStatusView.mp (mem_of_find?_eq_some hf)
    rw [hident] at hleads
    exact ((select_eq_some_iff hseq).mpr hleads).symm
  | none =>
    cases hs : select (viewStanding outbox.rows identity) ReceiptRow.sequence receipts.rows with
    | none => rfl
    | some r =>
      have hleads := leads_of_select hseq hs
      have hident : r.identity = identity := by
        rcases hleads with ⟨⟨-, n, hn, -⟩, -⟩ | ⟨⟨-, hplain, -⟩, -⟩
        · exact (viewStanding_some.mp hn).1
        · exact (viewStanding_some.mp hplain).1
      rw [← hident] at hleads
      have hnone := List.find?_eq_none.mp hf r (mem_deliveryStatusView.mpr hleads)
      simp [hident] at hnone

end

end Medre.Storage
