import Medre.Storage.DeliveryStatus

/-! # Agreement on the current receipt

The query, the view and the resolver are `Framework.select` under three readings. They part on
the channel `''`, which the query leaves out, on empty ids, which Python takes for none, and on
attempt 0, which Python takes for 1. -/

namespace Medre.Storage

open List Medre.Framework Medre.Core

variable {r : ReceiptRow} {n : ℤ} {os : List OutboxRow}

section

variable {receipts : Table receiptConstraint} {outbox : Table outboxConstraint}
  {identity : DeliveryIdentity}

/-- Every receipt that names an outbox row names one of its own delivery. -/
def ReceiptsOwned (receipts : Table receiptConstraint) (outbox : Table outboxConstraint) : Prop :=
  ∀ r ∈ receipts.rows, ∀ id ∈ r.outboxId,
    ∃ o ∈ outbox.rows, o.outboxId = id ∧ o.identity = r.identity

instance : Decidable (ReceiptsOwned receipts outbox) :=
  inferInstanceAs (Decidable (∀ r ∈ receipts.rows, ∀ id ∈ r.outboxId, _))

/-! ## The resolver selects under its reading -/

/-- Without an empty id the resolver's reading is the view's with the attempts read through
`orOne`. -/
theorem resolverStanding_eq (hid : r.identity = identity → r.outboxId ≠ some "")
    (hrid : r.identity = identity → ∀ o ∈ os, r.joins o = true → r.receiptId ≠ "") :
    resolverStanding os identity r =
      (viewStanding os identity r).map (Standing.rerank orOne) := by
  unfold resolverStanding viewStanding restrict ReceiptRow.standing
  by_cases hident : r.identity = identity
  · simp only [hident, if_true, decide_true]
    cases hout : r.outboxId with
    | none => rfl
    | some id =>
      have hne : orNone (some id) ≠ none := by
        intro hempty
        exact hid hident (hout.trans (by simpa [orNone] using hempty))
      simp only [if_neg hne, Option.map_map]
      split
      · rename_i hempty
        have hno : os.find? r.joins = none := by
          refine find?_eq_none.mpr fun o ho hj => ?_
          exact hrid hident o ho hj hempty
        rw [hno]
        rfl
      · rfl
  · simp [hident]

theorem resolverStanding_ranked :
    resolverStanding outbox.rows identity r = some (.ranked n) ↔
      r.identity = identity ∧ r.outboxId ≠ some "" ∧ r.receiptId ≠ "" ∧
        ∃ o ∈ outbox.rows, r.joins o = true ∧ n = orOne o.attemptNumber := by
  constructor
  · intro h
    unfold resolverStanding at h
    split at h
    · rename_i hident
      split at h
      · cases h
      rename_i hout
      split at h
      · cases h
      rename_i hrid
      obtain ⟨o, ho, hn⟩ := Option.map_eq_some_iff.mp h
      refine ⟨hident, ?_, hrid, o, mem_of_find?_eq_some ho, find?_some ho, ?_⟩
      · intro hempty
        exact hout (by rw [hempty]; rfl)
      · simpa using hn.symm
    · cases h
  · rintro ⟨hident, hid, hrid, o, ho, hj, rfl⟩
    rw [resolverStanding_eq (fun _ => hid) fun _ _ _ _ => hrid,
      viewStanding_some.mpr ⟨hident, standing_ranked.mpr ⟨o, ho, hj, rfl⟩⟩]
    rfl

theorem resolverStanding_plain :
    resolverStanding os identity r = some .plain ↔
      r.identity = identity ∧ orNone r.outboxId = none := by
  unfold resolverStanding
  by_cases hident : r.identity = identity
  · by_cases hout : orNone r.outboxId = none
    · simp [hident, hout]
    · by_cases hrid : r.receiptId = "" <;> simp [hident, hout, hrid]
  · simp [hident]

theorem committedPointer_some {o : OutboxRow} {t : String × String × ℤ} :
    committedPointer o = some t ↔ o.outboxId ≠ "" ∧ t.2.1 ≠ "" ∧ o.receiptId = some t.2.1 ∧
      t.1 = o.outboxId ∧ t.2.2 = orOne o.attemptNumber := by
  obtain ⟨a, b, n⟩ := t
  unfold committedPointer
  cases hr : o.receiptId with
  | none => simp
  | some rid =>
    by_cases h : rid = "" ∨ o.outboxId = ""
    · simp only [Option.getD_some, if_pos h, reduceCtorEq, Option.some.injEq, false_iff]
      rintro ⟨hid, hb, rfl, -, -⟩
      exact h.elim hb hid
    · simp only [Option.getD_some, if_neg h, Option.some.injEq, Prod.mk.injEq]
      rw [not_or] at h
      constructor
      · rintro ⟨rfl, rfl, rfl⟩
        exact ⟨h.2, h.1, rfl, rfl, rfl⟩
      · rintro ⟨-, -, rfl, rfl, rfl⟩
        exact ⟨rfl, rfl, rfl⟩

/-- The pointers that the outbox rows of one delivery commit. -/
def deliveryAuthority (items : List OutboxRow) (identity : DeliveryIdentity) : ReceiptAuthority :=
  { committed := (items.filter fun o => o.identity = identity).filterMap committedPointer }

theorem generationFor_some (howned : ReceiptsOwned receipts outbox) (hr : r ∈ receipts.rows)
    (hident : r.identity = identity) :
    (deliveryAuthority outbox.rows identity).generationFor r = some n ↔
      resolverStanding outbox.rows identity r = some (.ranked n) := by
  rw [resolverStanding_ranked]
  unfold ReceiptAuthority.generationFor
  by_cases hempty : r.outboxId.getD "" = "" ∨ r.receiptId = ""
  · simp only [if_pos hempty, reduceCtorEq, false_iff]
    rintro ⟨-, hid, hrid, o, -, hj, -⟩
    rw [joins_outboxId hj] at hempty hid
    exact hempty.elim (fun h => hid (congrArg some h)) hrid
  · simp only [if_neg hempty]
    rw [not_or] at hempty
    constructor
    · intro h
      obtain ⟨t, ht, rfl⟩ := Option.map_eq_some_iff.mp h
      have hmatch := List.find?_some ht
      obtain ⟨o, ho, hptr⟩ := mem_filterMap.mp (mem_of_find?_eq_some ht)
      obtain ⟨hoid, -, horid, hid, hn⟩ := committedPointer_some.mp hptr
      simp only [Bool.and_eq_true, decide_eq_true_eq] at hmatch
      have hrid : r.outboxId = some o.outboxId := by
        cases hr' : r.outboxId with
        | none => exact absurd (by simp [hr']) hempty.1
        | some id => simpa [hr', hid] using hmatch.1.symm
      refine ⟨hident, ?_, hempty.2, o, (mem_filter.mp ho).1, ?_, hn⟩
      · rw [hrid]
        simpa using hoid
      · simp [ReceiptRow.joins, hrid, horid, hmatch.2]
    · rintro ⟨-, hid, hrid, o, ho, hj, rfl⟩
      obtain ⟨o', ho', hid', hident'⟩ := howned r hr _ (joins_outboxId hj)
      rw [outbox_eq_of_id outbox ho' ho hid'] at hident'
      have hj' := hj
      simp only [ReceiptRow.joins, Bool.and_eq_true, decide_eq_true_eq] at hj'
      have hmem : (o.outboxId, r.receiptId, orOne o.attemptNumber) ∈
          (deliveryAuthority outbox.rows identity).committed := by
        refine mem_filterMap.mpr ⟨o, mem_filter.mpr ⟨ho, ?_⟩, ?_⟩
        · exact decide_eq_true (hident'.trans hident)
        · refine committedPointer_some.mpr ⟨?_, hrid, hj'.2, rfl, rfl⟩
          intro h
          rw [hj'.1, h] at hid
          exact hid rfl
      refine Option.map_eq_some_iff.mpr ⟨_, find?_of_unique hmem (by simp [hj'.1]) ?_, rfl⟩
      rintro ⟨id₂, rid₂, n₂⟩ ht hmatch
      obtain ⟨o₂, ho₂, hptr⟩ := mem_filterMap.mp ht
      obtain ⟨-, -, -, hid₂, hn₂⟩ := committedPointer_some.mp hptr
      simp only [hj'.1, Option.getD_some, Bool.and_eq_true, decide_eq_true_eq] at hmatch
      obtain rfl := outbox_eq_of_id outbox (mem_filter.mp ho₂).1 ho (hid₂.symm.trans hmatch.1)
      exact Prod.ext hmatch.1 (Prod.ext hmatch.2 hn₂)

theorem appendRank_lt {s : ReceiptRow} (hr : r ∈ receipts.rows) (hs : s ∈ receipts.rows) :
    appendRank r < appendRank s ↔ r.sequence < s.sequence := by
  constructor
  · intro h
    rcases Prod.Lex.toLex_lt_toLex.mp h with hlt | ⟨heq, hlt⟩
    · exact hlt
    · rw [receipts_sequenced receipts r hr s hs heq] at h
      exact absurd h (lt_irrefl _)
  · intro h
    exact Prod.Lex.toLex_lt_toLex.mpr (.inl h)

theorem argmax_appendRank (receipts : Table receiptConstraint) {l : List ReceiptRow}
    (hl : ∀ r ∈ l, r ∈ receipts.rows) :
    greatest appendRank l = greatest ReceiptRow.sequence l :=
  argmax_congr l fun r hr s hs => appendRank_lt (hl r hr) (hl s hs)

theorem resolver_rankedLeader (howned : ReceiptsOwned receipts outbox) :
    greatest (generationRank (deliveryAuthority outbox.rows identity))
        ((receipts.rows.filter fun r => r.identity = identity).filter fun r =>
          ((deliveryAuthority outbox.rows identity).generationFor r).isSome) =
      rankedLeader (resolverStanding outbox.rows identity) ReceiptRow.sequence receipts.rows := by
  have hfilter : ((receipts.rows.filter fun r => r.identity = identity).filter fun r =>
        ((deliveryAuthority outbox.rows identity).generationFor r).isSome) =
      receipts.rows.filter fun r =>
        (resolverStanding outbox.rows identity r).any Standing.isRanked := by
    rw [filter_filter]
    refine filter_congr fun r hr => ?_
    rw [Bool.eq_iff_iff, Bool.and_eq_true, decide_eq_true_eq, standing_isRanked,
      Option.isSome_iff_exists]
    constructor
    · rintro ⟨⟨n, hn⟩, hident⟩
      exact ⟨n, (generationFor_some howned hr hident).mp hn⟩
    · rintro ⟨n, hn⟩
      have hident := (resolverStanding_ranked.mp hn).1
      exact ⟨⟨n, (generationFor_some howned hr hident).mpr hn⟩, hident⟩
  rw [hfilter]
  refine argmax_congr _ ?_
  intro r hr s hs
  obtain ⟨hr, hrank⟩ := mem_filter.mp hr
  obtain ⟨hs, hrank'⟩ := mem_filter.mp hs
  obtain ⟨n, hn⟩ := standing_isRanked.mp hrank
  obtain ⟨m, hm⟩ := standing_isRanked.mp hrank'
  have hgn := (generationFor_some howned hr (resolverStanding_ranked.mp hn).1).mpr hn
  have hgm := (generationFor_some howned hs (resolverStanding_ranked.mp hm).1).mpr hm
  simp only [generationRank, rankKey, hgn, hgm, hn, hm, Option.map_some, Option.getD_some,
    Standing.rank, Prod.Lex.toLex_lt_toLex, appendRank_lt hr hs]

theorem resolver_plainLeader :
    greatest appendRank ((receipts.rows.filter fun r => r.identity = identity).filter fun r =>
        orNone r.outboxId = none) =
      plainLeader (resolverStanding outbox.rows identity) ReceiptRow.sequence receipts.rows := by
  have hfilter : ((receipts.rows.filter fun r => r.identity = identity).filter fun r =>
        orNone r.outboxId = none) =
      receipts.rows.filter fun r => resolverStanding outbox.rows identity r = some .plain := by
    rw [filter_filter]
    refine filter_congr fun r _ => ?_
    rw [Bool.eq_iff_iff, Bool.and_eq_true, decide_eq_true_eq, decide_eq_true_eq,
      decide_eq_true_eq, resolverStanding_plain, and_comm]
  rw [hfilter]
  exact argmax_appendRank receipts fun r hr => (mem_filter.mp hr).1

theorem selectCurrentReceipt_some (howned : ReceiptsOwned receipts outbox) :
    selectCurrentReceipt (receipts.rows.filter fun r => r.identity = identity)
        (some (deliveryAuthority outbox.rows identity)) =
      select (resolverStanding outbox.rows identity) ReceiptRow.sequence receipts.rows := by
  unfold selectCurrentReceipt select
  rw [← resolver_plainLeader]
  simp only [resolver_rankedLeader howned]
  refine argmax_appendRank receipts fun r hr => ?_
  rw [mem_append, Option.mem_toList, Option.mem_toList] at hr
  rcases hr with hr | hr
  · exact (rankedLeader_isTop hr).1
  · exact (mem_filter.mp (mem_filter.mp (argmax_mem hr)).1).1

theorem selectCurrentReceipt_none (howned : ReceiptsOwned receipts outbox)
    (hnone : (outbox.rows.filter fun o => o.identity = identity) = []) :
    selectCurrentReceipt (receipts.rows.filter fun r => r.identity = identity) none =
      select (resolverStanding outbox.rows identity) ReceiptRow.sequence receipts.rows := by
  have hless : ∀ r ∈ receipts.rows, r.identity = identity → r.outboxId = none := by
    intro r hr hident
    cases hid : r.outboxId with
    | none => rfl
    | some id =>
      obtain ⟨o, ho, -, hoident⟩ := howned r hr id hid
      have hmem : o ∈ outbox.rows.filter fun o => o.identity = identity :=
        mem_filter.mpr ⟨ho, decide_eq_true (hoident.trans hident)⟩
      rw [hnone] at hmem
      cases hmem
  have hfilter : (receipts.rows.filter fun r => r.identity = identity) =
      receipts.rows.filter fun r => resolverStanding outbox.rows identity r = some .plain := by
    refine filter_congr fun r hr => ?_
    rw [Bool.eq_iff_iff, decide_eq_true_eq, decide_eq_true_eq, resolverStanding_plain]
    constructor
    · intro hident
      exact ⟨hident, by rw [hless r hr hident]; rfl⟩
    · exact And.left
  have hranked : rankedLeader (resolverStanding outbox.rows identity) ReceiptRow.sequence
      receipts.rows = none := by
    cases hl : rankedLeader (resolverStanding outbox.rows identity) ReceiptRow.sequence
        receipts.rows with
    | none => rfl
    | some r =>
      obtain ⟨hr, n, hn, -⟩ := rankedLeader_isTop hl
      obtain ⟨hident, -, -, o, -, hj, -⟩ := resolverStanding_ranked.mp hn
      have hid := hless r hr hident
      rw [joins_outboxId hj] at hid
      cases hid
  unfold selectCurrentReceipt select
  rw [hranked, hfilter, argmax_appendRank receipts fun r hr => (mem_filter.mp hr).1]
  cases hp : plainLeader (resolverStanding outbox.rows identity) ReceiptRow.sequence
      receipts.rows with
  | none => exact hp
  | some b => exact hp

theorem resolverCurrent_eq (howned : ReceiptsOwned receipts outbox) :
    resolverCurrent receipts.rows outbox.rows identity =
      select (resolverStanding outbox.rows identity) ReceiptRow.sequence receipts.rows := by
  unfold resolverCurrent authorityIndex
  split
  next hnone => exact selectCurrentReceipt_none howned hnone
  next own hown => exact selectCurrentReceipt_some howned

/-! ## Agreement -/

theorem orOne_orders {o p : OutboxRow} (ho : o ∈ outbox.rows) (hp : p ∈ outbox.rows) {i j : ℤ}
    (hzero : o.attemptNumber = 0 → p.attemptNumber = 1 → i < j)
    (hone : o.attemptNumber = 1 → p.attemptNumber = 0 → j < i) :
    (o.attemptNumber < p.attemptNumber ∨ o.attemptNumber = p.attemptNumber ∧ i < j) ↔
      (orOne o.attemptNumber < orOne p.attemptNumber ∨
        orOne o.attemptNumber = orOne p.attemptNumber ∧ i < j) := by
  have hpos : ∀ {o : OutboxRow}, o ∈ outbox.rows → 0 ≤ o.attemptNumber := by
    intro o ho
    have hc : o.check = true := outbox.checked o ho
    simp only [OutboxRow.check, Bool.and_eq_true, decide_eq_true_eq] at hc
    exact hc.1.1.1.1
  have ho := hpos ho
  have hp := hpos hp
  unfold orOne
  split <;> split <;> omega

/-- The outbox row that the receipt names has committed it, at this attempt. -/
def ReceiptRow.committedAt (outbox : List OutboxRow) (r : ReceiptRow) (attempt : ℤ) : Bool :=
  outbox.any fun o => r.joins o && o.attemptNumber = attempt

theorem committedAt_of_joins {o : OutboxRow} {attempt : ℤ} (ho : o ∈ os) (hj : r.joins o = true)
    (hattempt : o.attemptNumber = attempt) : r.committedAt os attempt = true :=
  any_eq_true.mpr ⟨o, ho, by simp [hj, hattempt]⟩

variable (receipts outbox identity)

/-- The stored rows of a delivery on which the view and the resolver cannot differ: no empty
id, and no commit at attempt 0 behind one at attempt 1. -/
structure PointersAlike : Prop where
  outboxId : ∀ r ∈ receipts.rows, r.identity = identity → r.outboxId ≠ some ""
  receiptId : ∀ r ∈ receipts.rows, r.identity = identity →
    ∀ o ∈ outbox.rows, r.joins o = true → r.receiptId ≠ ""
  attempts : ∀ r ∈ receipts.rows, r.identity = identity → r.committedAt outbox.rows 0 = true →
    ∀ s ∈ receipts.rows, s.identity = identity → s.committedAt outbox.rows 1 = true →
      r.sequence < s.sequence

instance : Decidable (PointersAlike receipts outbox identity) :=
  decidable_of_iff (_ ∧ _ ∧ _) ⟨fun h => ⟨h.1, h.2.1, h.2.2⟩, fun h => ⟨h.1, h.2, h.3⟩⟩

/-- On top of that no receipt of the delivery is stored with the channel `''`, which the query
does not find. -/
structure ReadAlike : Prop extends PointersAlike receipts outbox identity where
  channel : ∀ r ∈ receipts.rows, r.identity = identity → r.targetChannel ≠ some ""

variable {receipts outbox identity}

theorem PointersAlike.view_eq_resolver (h : PointersAlike receipts outbox identity) :
    select (viewStanding outbox.rows identity) ReceiptRow.sequence receipts.rows =
      select (resolverStanding outbox.rows identity) ReceiptRow.sequence receipts.rows := by
  refine select_rerank orOne
    (fun r hr => resolverStanding_eq (h.outboxId r hr) (h.receiptId r hr)) ?_
  intro r hr s hs n m hn hm
  obtain ⟨hident, hst⟩ := viewStanding_some.mp hn
  obtain ⟨hident', hst'⟩ := viewStanding_some.mp hm
  obtain ⟨o, ho, hj, rfl⟩ := standing_ranked.mp hst
  obtain ⟨p, hp, hj', rfl⟩ := standing_ranked.mp hst'
  refine orOne_orders ho hp (fun hzero hone => ?_) fun hone hzero => ?_
  · exact h.attempts r hr hident (committedAt_of_joins ho hj hzero) s hs hident'
      (committedAt_of_joins hp hj' hone)
  · exact h.attempts s hs hident' (committedAt_of_joins hp hj' hzero) r hr hident
      (committedAt_of_joins ho hj hone)

theorem ReadAlike.query_eq_view (h : ReadAlike receipts outbox identity) :
    select (queryStanding outbox.rows identity) ReceiptRow.sequence receipts.rows =
      select (viewStanding outbox.rows identity) ReceiptRow.sequence receipts.rows := by
  refine select_congr fun r hr => ?_
  by_cases hident : r.identity = identity
  · have hchannel : r.targetChannel = identity.targetChannel := by
      rw [← hident]
      exact (orNone_of_ne (h.channel r hr hident)).symm
    rw [queryStanding, restrict, if_pos (decide_eq_true hchannel)]
  · simp [queryStanding, viewStanding, restrict, hident]

/-- The query, the view and the resolver name the same receipt, or none, if the rows of the
delivery hold no empty text and no commit at attempt 0 behind one at attempt 1. -/
theorem current_receipt_agreement (howned : ReceiptsOwned receipts outbox)
    (halike : ReadAlike receipts outbox identity) :
    deliveryStatusQuery receipts.rows outbox.rows identity =
        deliveryStatusRow receipts.rows outbox.rows identity ∧
      deliveryStatusRow receipts.rows outbox.rows identity =
        resolverCurrent receipts.rows outbox.rows identity := by
  rw [deliveryStatusQuery_eq, deliveryStatusRow_eq, resolverCurrent_eq howned]
  exact ⟨halike.query_eq_view, halike.view_eq_resolver⟩

end

namespace Sample

/-- Work staged ahead of its first attempt. -/
def staged : DeliveryOutboxItem := { pending with outboxId := "staged", attemptNumber := 0 }

def replay : DeliveryOutboxItem := { staged with outboxId := "replay" }

def cancellation (receiptId outboxId : String) : DeliveryReceipt :=
  { receiptId, eventId := "event", deliveryPlanId := "plan", targetAdapter := "radio"
    status := .cancelled, receiptKind := .lifecycle, outboxId := some outboxId
    createdAt := clock 3 }

def replayCancelled : List Op :=
  [.append event (clock 0), .createOutboxItem staged false none (clock 1),
    .createOutboxItem replay true none (clock 2), .appendReceipt (cancellation "first" "replay"),
    .markOutbox (.cancelled "replay" none (some "first") none none none) (clock 3)]

def bothCancelled : List Op :=
  replayCancelled ++ [.appendReceipt (cancellation "second" "staged"),
    .markOutbox (.cancelled "staged" none (some "second") none none none) (clock 4)]

end Sample

open Sample in
/-- The staged row is at attempt 0, which Python reads as 1: the query and the view name the
replay's receipt, the resolver the staged row's. -/
theorem staged_receipt_disagrees :
    let db := stateAfter externals bothCancelled
    ReceiptsOwned db.receipts db.outbox ∧
      (deliveryStatusQuery db.receipts.rows db.outbox.rows staged.identity).map
        ReceiptRow.receiptId = some "first" ∧
      (deliveryStatusRow db.receipts.rows db.outbox.rows staged.identity).map
        ReceiptRow.receiptId = some "first" ∧
      (resolverCurrent db.receipts.rows db.outbox.rows staged.identity).map
        ReceiptRow.receiptId = some "second" :=
  ⟨by decide, rfl, rfl, rfl⟩

namespace Sample

/-- A receipt without outbox, then the cancellation of the staged row, then that of the
replay. -/
def cancelledInTurn : List Op :=
  [.append event (clock 0), .createOutboxItem staged false none (clock 1),
    .createOutboxItem replay true none (clock 2),
    .appendReceipt { cancellation "loose" "" with outboxId := none },
    .appendReceipt (cancellation "first" "staged"),
    .markOutbox (.cancelled "staged" none (some "first") none none none) (clock 3),
    .appendReceipt (cancellation "second" "replay"),
    .markOutbox (.cancelled "replay" none (some "second") none none none) (clock 4)]

end Sample

open Sample in
/-- Three receipts, two of them committed, at the attempts 0 and 1. -/
theorem current_receipt_agreement_in_turn :
    let db := stateAfter externals cancelledInTurn
    db.receipts.rows.map ReceiptRow.receiptId = ["loose", "first", "second"] ∧
      (deliveryStatusQuery db.receipts.rows db.outbox.rows staged.identity).map
        ReceiptRow.receiptId = some "second" ∧
      deliveryStatusQuery db.receipts.rows db.outbox.rows staged.identity =
        deliveryStatusRow db.receipts.rows db.outbox.rows staged.identity ∧
      deliveryStatusRow db.receipts.rows db.outbox.rows staged.identity =
        resolverCurrent db.receipts.rows db.outbox.rows staged.identity := by
  intro db
  have halike : ReadAlike db.receipts db.outbox staged.identity := ⟨by decide, by decide⟩
  exact ⟨rfl, rfl, current_receipt_agreement (by decide) halike⟩

/-! ## The current outbox generation -/

/-- In every reachable store the strictly newest generation of a delivery, as the fences read it,
is current in Python exactly if no staged row ties with it at `attempt or 1` and ranks above it. -/
theorem current_outbox_agreement (x : Externals) (ops : List Op) (identity : DeliveryIdentity)
    {r : OutboxRow} (hr : r ∈ (stateAfter x ops).outbox.rows) (hident : r.identity = identity)
    (hnewest : ∀ s ∈ (stateAfter x ops).outbox.rows, s.identity = identity →
      s.outboxId ≠ r.outboxId → s.generation < r.generation) :
    selectCurrentOutbox ((stateAfter x ops).outbox.rows.filter fun o => o.identity = identity) =
        some r ↔
      ¬(r.generation = 1 ∧ ∃ s ∈ (stateAfter x ops).outbox.rows, s.identity = identity ∧
        s.generation = 0 ∧ outboxTieRank r < outboxTieRank s) :=
  selectCurrentOutbox_eq_iff (stateAfter x ops).outbox identity hr hident hnewest

namespace Sample

def replayed : List Op :=
  [.append event (clock 0), .createOutboxItem staged false none (clock 1),
    .createOutboxItem replay true none (clock 2)]

/-- The staged work is cancelled under the replay. -/
def stagedCancelled : List Op :=
  replayed ++ [.markOutbox (.cancelled "staged" none none none none none) (clock 3)]

end Sample

open Sample in
/-- The replay is the newest generation, which the fences let dispatch; Python names the cancelled
row, which was updated later. -/
theorem staged_outbox_current :
    ∃ r ∈ (stateAfter externals stagedCancelled).outbox.rows, r.outboxId = "replay" ∧
      r.identity = staged.identity ∧
      (∀ s ∈ (stateAfter externals stagedCancelled).outbox.rows, s.identity = staged.identity →
        s.outboxId ≠ r.outboxId → s.generation < r.generation) ∧
      (selectCurrentOutbox ((stateAfter externals stagedCancelled).outbox.rows.filter fun o =>
        o.identity = staged.identity)).map OutboxRow.outboxId = some "staged" :=
  ⟨_, mem_cons_of_mem _ mem_cons_self, rfl, rfl, by decide, rfl⟩

open Sample in
/-- Before the cancellation it names the replay. -/
theorem current_outbox_agreement_replayed :
    ∃ r ∈ (stateAfter externals replayed).outbox.rows, r.outboxId = "replay" ∧
      selectCurrentOutbox ((stateAfter externals replayed).outbox.rows.filter fun o =>
        o.identity = staged.identity) = some r := by
  refine ⟨_, mem_cons_of_mem _ mem_cons_self, rfl, ?_⟩
  refine (current_outbox_agreement externals replayed staged.identity
    (mem_cons_of_mem _ mem_cons_self) rfl ?_).mpr ?_
  · decide
  · decide

end Medre.Storage
