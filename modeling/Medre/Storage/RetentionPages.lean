import Medre.Framework.Keyset
import Medre.Storage.StoreStep

/-! # Pages of a retention sweep

The selector seeks by the cursor alone once that is inside the epoch, the preview filters by
cursor and boundary. Both cut the same log. -/

namespace Medre.Storage

open List Medre.Framework Tx

/-- The place of the row in the order of the pages. -/
def EventRow.key (e : EventRow) : String ×ₗ String := toLex e.place

/-- The events after the boundary, in the order of the pages. -/
def Db.epochLog (db : Db) (boundary : Option String) : List EventRow :=
  (admissionOrder db.events.rows).filter fun e => boundary.all (· < e.createdAt)

/-- Page after page along `next_after`, the `k`-th with its own limit; `fuel` bounds the pages. -/
def SqliteStore.followCandidates (s : SqliteStore) (watermark : Option String) (limits : ℕ → ℤ) :
    ℕ → ℕ → Option (String × String) → Option (Except Err (List (List String)))
  | 0, _, _ => none
  | fuel + 1, k, after =>
    match pageCollectionCandidates after (limits k) watermark s with
    | .error e => some (.error e)
    | .ok page =>
      if page.hasMore then
        match s.followCandidates watermark limits fuel (k + 1) page.nextAfter with
        | some (.ok pages) => some (.ok (page.eventIds :: pages))
        | other => other
      else some (.ok [page.eventIds])

section Pages

variable {db : Db} {s : SqliteStore} {e : EventRow} {after : Option (String × String)}
  {watermark boundary : Option String} {limit : ℤ}

theorem after_iff {cursor : String × String} : e.after cursor = true ↔ toLex cursor < e.key := by
  simp only [EventRow.after, Bool.or_eq_true, Bool.and_eq_true, decide_eq_true_eq, EventRow.key,
    EventRow.place, Prod.Lex.toLex_lt_toLex]

theorem admissionOrder_ascending (db : Db) (keep : EventRow → Bool) :
    Keyset.Ascending EventRow.key (admissionOrder (db.events.rows.filter keep)) := by
  apply Keyset.ascending_insertionSort
  · intro a b
    exact (Prod.Lex.toLex_le_toLex (x := a.place) (y := b.place)).symm
  · apply Pairwise.filter
    refine db.events.apart.imp ?_
    intro a b h heq
    exact of_decide_eq_false h (congrArg (fun p => (ofLex p).2) heq)

theorem epochLog_ascending (db : Db) (boundary : Option String) :
    Keyset.Ascending EventRow.key (db.epochLog boundary) := by
  have hasc := admissionOrder_ascending db fun _ => true
  rw [filter_true] at hasc
  exact hasc.filter _

/-- The keyset alone selects what cursor and boundary select together. -/
theorem candidates_eq_filter : db.candidates after boundary = admissionOrder
    (db.events.rows.filter fun e => boundary.all (· < e.createdAt) && after.all e.after) := by
  unfold Db.candidates
  congr 1
  refine filter_congr fun e _ => ?_
  cases after with
  | none => cases boundary <;> simp
  | some cursor =>
    cases boundary with
    | none => simp
    | some w =>
      have hfirst : e.after cursor = true → cursor.1 ≤ e.createdAt := by
        simp only [EventRow.after, Bool.or_eq_true, Bool.and_eq_true, decide_eq_true_eq]
        rintro (h | ⟨h, -⟩) <;> exact h.le
      by_cases hw : w < cursor.1
      · simpa [hw] using fun h => hw.trans_le (hfirst h)
      · have hlater : w < e.createdAt → e.after cursor = true := by
          intro h
          simp [EventRow.after, (not_lt.mp hw).trans_lt h]
        simpa [hw] using hlater

theorem candidates_eq_log :
    db.candidates after boundary = (db.epochLog boundary).filter fun e => after.all e.after := by
  rw [candidates_eq_filter]
  apply (admissionOrder_ascending _ _).eq_of_perm ((epochLog_ascending _ _).filter _)
  simp only [Db.epochLog, admissionOrder, filter_filter]
  refine (perm_insertionSort _ _).trans ?_
  simp only [Bool.and_comm]
  exact ((perm_insertionSort _ _).filter _).symm

/-- A page is cut from the log; no error is left once the arguments are accepted. -/
theorem pageCollectionCandidates_eq (hlimit : 1 ≤ limit ∧ limit ≤ retentionBatchMax)
    (hafter : ∀ cursor ∈ after, cursor.1 ≠ "" ∧ cursor.2 ≠ "")
    (hboundary : normalizeWatermark? watermark = .ok boundary) :
    pageCollectionCandidates after limit watermark s =
      .ok { eventIds := ((s.db.candidates after boundary).take limit.toNat).map EventRow.eventId
            nextAfter := ((s.db.candidates after boundary).take limit.toNat).getLast?.map
              EventRow.place
            hasMore := limit.toNat < (s.db.candidates after boundary).length } := by
  have hblank : watermark ≠ some "" := by
    rintro rfl
    cases hboundary
  have hcursor : (after.any fun cursor => cursor.1 = "" || cursor.2 = "") = false := by
    cases after with
    | none => rfl
    | some cursor => simpa using hafter cursor rfl
  have hadvances : (after.any fun cursor => ((s.db.candidates after boundary).take
      (limit.toNat + 1)).head?.any fun e => !e.after cursor) = false := by
    cases after with
    | none => rfl
    | some cursor =>
      cases hhead : ((s.db.candidates (some cursor) boundary).take (limit.toNat + 1)).head? with
      | none => rfl
      | some e =>
        have hmem := mem_of_mem_take (mem_of_head? hhead)
        rw [candidates_eq_log, mem_filter] at hmem
        simpa using hmem.2
  unfold pageCollectionCandidates
  simp only [hlimit, hblank, hcursor, hboundary, hadvances, bind, Except.bind]
  simp [take_take, length_take]

/-- Behind the last row of a page the rest of the log begins. -/
theorem candidates_next {n : ℕ} (h : ((s.db.candidates after boundary).take n).getLast? = some e) :
    s.db.candidates (some e.place) boundary = (s.db.candidates after boundary).drop n := by
  set log := s.db.candidates after boundary with hlog
  have hmem : e ∈ log := mem_of_mem_take (mem_of_getLast? h)
  have hasc : Keyset.Ascending EventRow.key log := by
    rw [hlog, candidates_eq_log]
    exact (epochLog_ascending _ _).filter _
  have hcut : s.db.candidates (some e.place) boundary = Keyset.after EventRow.key log e.key := by
    rw [hlog, candidates_eq_log] at hmem ⊢
    rw [candidates_eq_log, Keyset.after, filter_filter]
    refine filter_congr fun r _ => ?_
    rw [Option.all_some, Bool.eq_iff_iff, Bool.and_eq_true, decide_eq_true_eq, after_iff]
    refine ⟨fun hr => ⟨hr, ?_⟩, And.left⟩
    cases after with
    | none => rfl
    | some cursor => exact after_iff.mpr ((after_iff.mp (mem_filter.mp hmem).2).trans hr)
  rw [hcut]
  rw [← take_append_drop n log] at hasc
  simpa using Keyset.after_append hasc h

/-- From any cursor on, following `next_after` reads the events of the epoch behind it, each once
and in order, in pages that are full but for the last. -/
theorem followCandidates_pages {limits : ℕ → ℤ} {fuel k : ℕ}
    (hboundary : normalizeWatermark? watermark = .ok boundary)
    (hnamed : ∀ e ∈ s.db.events.rows, e.createdAt ≠ "" ∧ e.eventId ≠ "")
    (hlimits : ∀ k, 1 ≤ limits k ∧ limits k ≤ retentionBatchMax)
    (hafter : ∀ cursor ∈ after, cursor.1 ≠ "" ∧ cursor.2 ≠ "")
    (hfuel : (s.db.candidates after boundary).length < fuel) :
    ∃ pages, s.followCandidates watermark limits fuel k after =
        some (.ok (pages.map fun page => page.map EventRow.eventId)) ∧
      Keyset.Pages (fun k => (limits k).toNat) k
        ((s.db.epochLog boundary).filter fun e => after.all e.after) pages := by
  rw [← candidates_eq_log]
  induction fuel generalizing k after with
  | zero => exact absurd hfuel (Nat.not_lt_zero _)
  | succ fuel ih =>
    rw [SqliteStore.followCandidates, pageCollectionCandidates_eq (hlimits k) hafter hboundary]
    set log := s.db.candidates after boundary with hlog
    by_cases hmore : (limits k).toNat < log.length
    · have hpos := (hlimits k).1
      obtain ⟨e, he⟩ : ∃ e, (log.take (limits k).toNat).getLast? = some e := by
        apply Option.ne_none_iff_exists'.mp
        rw [Ne, getLast?_eq_none_iff, take_eq_nil_iff]
        rintro (h | h)
        · omega
        · simp [h] at hmore
      have hrest := candidates_next he
      have hmem : e ∈ s.db.events.rows := by
        have hmem := mem_of_mem_take (mem_of_getLast? he)
        rw [hlog, Db.candidates, admissionOrder, mem_insertionSort] at hmem
        exact (mem_filter.mp hmem).1
      obtain ⟨pages, hpages, hcut⟩ := @ih (some e.place) (k + 1)
        (fun cursor hc => Option.some.inj hc ▸ hnamed e hmem)
        (by rw [hrest, length_drop, ← hlog]; omega)
      rw [hrest] at hcut
      refine ⟨_, ?_, .more hmore hcut⟩
      simp [hmore, he, hpages]
    · refine ⟨[log], ?_, .last (not_lt.mp hmore)⟩
      simp [hmore, take_of_length_le (not_lt.mp hmore)]

open Sample in
/-- The event admitted first was appended last and is on the first of two pages. -/
theorem followCandidates_pages_two :
    let s := storeAfter externals [.op (.append event (clock 1)),
      .op (.append { event with eventId := "other" } (clock 0))]
    ∃ pages, s.followCandidates none (fun _ => 1) 3 0 none = some (.ok [["other"], ["event"]]) ∧
      pages.map (fun page => page.map EventRow.eventId) = [["other"], ["event"]] ∧
      Keyset.Pages (fun _ => 1) 0 (admissionOrder s.db.events.rows) pages := by
  intro s
  have htwo : s.followCandidates none (fun _ => 1) 3 0 none =
      some (.ok [["other"], ["event"]]) := by
    decide +kernel
  obtain ⟨pages, hfollow, hpages⟩ := @followCandidates_pages s none none none (fun _ => 1) 3 0 rfl
    (by decide +kernel) (fun _ => by decide) (fun _ h => by cases h) (by decide +kernel)
  refine ⟨pages, htwo, Except.ok.inj (Option.some.inj (hfollow.symm.trans htwo)), ?_⟩
  simpa [Db.epochLog] using hpages

end Pages

/-! ## The preview -/

/-- What an immediate collection of the event answers; none where it raises. -/
def PreviewOutcome.status : PreviewOutcome → Option CollectionStatus
  | .eligible => some .collected
  | .blocked => some .blocked
  | .empty => some .empty
  | .alreadyCollected => some .alreadyCollected
  | .inconsistent => none

variable {s : SqliteStore} {e : String}

theorem read_eligible {d : CollectionState} (h : s.readCollectionState e = .ok d)
    (heligible : d.baseState = .eligible) : s.collected e = false := by
  unfold SqliteStore.readCollectionState at h
  cases hs : s.db.hasEvent e
  · simp [hs] at h
  cases hid : s.db.bodyIdentity? e with
  | none => simp [hs, hid] at h
  | some present =>
    simp only [hs, hid] at h
    split_ifs at h <;> cases h <;> simp_all

theorem removeContent_runs (h : s.collected e = false) (d : CollectionState) (now : Datetime) :
    ∃ s', (removeContent e d now).run s = .ok ((), s') := by
  obtain ⟨t, ht⟩ := Table.update_some (t := s.db.relations) (p := fun r => r.eventId = e)
    (f := fun r => { r with excerpt := none }) (fun _ _ _ => rfl) fun r r' => by
      by_cases hr : r.eventId = e <;> by_cases hr' : r'.eventId = e <;> simp [hr, hr', distinctOn]
  obtain ⟨log, hlog⟩ := Table.insert_some (t := s.collectionLog)
    (r := ⟨e, now.isoformatMicroseconds, d.rows, d.logicalBytes⟩) rfl
    (by simpa [SqliteStore.collected, distinctOn] using h)
  simp only [removeContent, deleteExcerpts, deleteBodyContent, insertCollectionReceipt, run_bind,
    run_pure, run_onContent, run_onDb, run_modify, run_query, run_updateTable]
  refine ⟨{ s with
      db := { s.db with
        relations := t, bodyContent := s.db.bodyContent.delete fun b => b.eventId = e }
      collectionLog := log }, (), _, ⟨_, ⟨_, ⟨_, _, ⟨t, ht, rfl, rfl⟩, trivial, rfl⟩, rfl⟩, rfl⟩,
    (), _, ⟨_, ⟨_, rfl, rfl⟩, rfl⟩, _, _, ⟨rfl, rfl⟩, ?_⟩
  simp only [hlog]
  rfl

variable {limit : ℕ} {after : Option (String × String)} {p : RetentionPreview} {epoch : ℤ}

theorem examined_inside (hp : previewContentRetention limit after s = .ok p)
    (hepoch : p.epoch = some epoch) (he : e ∈ p.examined) :
    s.activationFence e (some epoch) = .ok () := by
  unfold previewContentRetention at hp
  cases hactive : s.latestRetentionEpoch with
  | none =>
    rw [hactive] at hp
    cases hp
    cases hepoch
  | some active =>
    simp only [hactive] at hp
    obtain ⟨boundary, hboundary, hp⟩ := ok_of_bind hp
    cases hp
    cases hepoch
    obtain ⟨r, hr, rfl⟩ := mem_map.mp he
    have hmem := (mem_insertionSort _).mp (mem_of_mem_take (mem_of_mem_take hr))
    obtain ⟨hstored, hafter⟩ := mem_filter.mp hmem
    have hfind : (s.db.events.rows.find? fun c => c.eventId = r.eventId) = some r :=
      find?_of_unique hstored (decide_eq_true rfl) fun c hc hid =>
        eq_of_distinct hc hstored (of_decide_eq_true hid)
    simp only [SqliteStore.activationFence, hactive, SqliteStore.insideActivation, hfind]
    cases hw : active.admissionWatermark with
    | none => simp
    | some w =>
      rw [hw, normalizeWatermark?] at hboundary
      cases hn : normalizeAdmissionWatermark w with
      | error err =>
        rw [hn] at hboundary
        cases hboundary
      | ok b =>
        rw [hn] at hboundary
        cases hboundary
        have hlt : b < r.createdAt := by simpa using (Bool.and_eq_true_iff.mp hafter).1
        simp [bind, Except.bind, hn, not_le.mpr hlt]

/-- The preview says of an examined event what its collection in the epoch answers. -/
theorem preview_predicts (hp : previewContentRetention limit after s = .ok p)
    (hepoch : p.epoch = some epoch) (he : e ∈ p.examined) (hpos : 1 ≤ epoch) (hne : e ≠ "")
    (now : Datetime) :
    ((collectEventContent e false (some epoch) now).commit s).2.toOption.map
        CollectionReport.status = (s.previewEventCollectionState e).status := by
  have hrun : ∀ c r s', s.readCollectionState e = .ok c →
      (if c.baseState = .eligible && !false then
        removeContent e c now >>= fun _ => pure (c.report e false .collected)
      else pure (c.report e false c.baseState.undone)).run s = .ok (r, s') →
        (collectEventContent e false (some epoch) now).commit s = (s', .ok r) := by
    intro c r s' hread h
    apply commit_ok
    simp only [collectEventContent, run_bind, run_require, run_query, run_lift]
    exact ⟨(), s, ⟨decide_eq_true hpos, rfl⟩, (), s, ⟨decide_eq_true hne, rfl⟩, s, s, ⟨rfl, rfl⟩,
      (), s, ⟨examined_inside hp hepoch he, rfl⟩, c, s, ⟨hread, rfl⟩, h⟩
  unfold SqliteStore.previewEventCollectionState
  cases hread : s.readCollectionState e with
  | error err =>
    rcases commit_cases (collectEventContent e false (some epoch) now) s with
      ⟨r, s', h, -⟩ | ⟨err, h⟩
    · obtain ⟨c, hc, -⟩ := run_collectEventContent h
      rw [hread] at hc
      cases hc
    · rw [h]
      rfl
  | ok c =>
    dsimp only
    cases hbase : c.baseState with
    | eligible =>
      obtain ⟨s', hs'⟩ := removeContent_runs (read_eligible hread hbase) c now
      rw [hrun c _ s' hread (by rw [hbase]; exact run_bind.mpr ⟨(), s', hs', rfl⟩)]
      rfl
    | _ =>
      rw [hrun c _ s hread (by rw [hbase]; rfl)]
      rfl

open Sample in
theorem preview_predicts_event :
    ((collectEventContent "event" false (some 1) (clock 2)).commit (storeAfter externals
      [.openRetentionEpoch .operator (clock 0), .op (.append event (clock 1))])).2.toOption.map
        CollectionReport.status = some .blocked :=
  (@preview_predicts _ "event" 1 none _ 1 rfl rfl (by decide) (by decide) (by decide)
    (clock 2)).trans rfl

end Medre.Storage
