import Medre.Storage.OutboxStep

/-! # Generations of one delivery

Every row has an effective generation that never falls, and whoever dispatches must hold one
above all of its siblings. -/

namespace Medre.Storage

open List Medre.Framework Tx

variable {op : Op} {db db' : Db} {e o w : String} {a : ℤ} {r : OutboxRow} {x : Externals}
  {identity : DeliveryIdentity}

/-! ## How rows evolve -/

/-- Each row of `a` is still in `b` under its identity, at no lower generation. -/
def RowsAdvance (a b : Db) : Prop :=
  ∀ r ∈ a.outbox.rows, ∃ r' ∈ b.outbox.rows, r'.outboxId = r.outboxId ∧
    r'.identity = r.identity ∧ r.generation ≤ r'.generation

theorem RowsAdvance.refl (db : Db) : RowsAdvance db db :=
  fun r hr => ⟨r, hr, rfl, rfl, le_refl _⟩

theorem RowsAdvance.trans {a b c : Db} (hab : RowsAdvance a b) (hbc : RowsAdvance b c) :
    RowsAdvance a c := by
  intro r hr
  obtain ⟨r', hr', hid, hident, hle⟩ := hab r hr
  obtain ⟨r'', hr'', hid', hident', hle'⟩ := hbc r' hr'
  exact ⟨r'', hr'', hid'.trans hid, hident'.trans hident, hle.trans hle'⟩

theorem Rewrites.advance {f : OutboxRow → OutboxRow} (h : Rewrites op db db' f) :
    RowsAdvance db db' := by
  intro r hr
  refine ⟨f r, ?_, (h.keys hr).1, (h.keys hr).2.2.1, ?_⟩
  · rw [h.rows]
    exact mem_map_of_mem hr
  · rcases h.change r hr with heq | hc
    · rw [heq]
    · exact hc.generation_le

/-- No call loses a row, changes its identity or lowers its generation. -/
theorem step_advances (x : Externals) (db : Db) (op : Op) : RowsAdvance db (step x db op).1 := by
  cases step_outbox x db op with
  | rewritten f h owned => exact h.advance
  | created row snapshot h rows snapshots =>
    intro r hr
    refine ⟨r, ?_, rfl, rfl, le_refl _⟩
    rw [rows]
    exact mem_append_left _ hr

theorem run_advances (x : Externals) (db : Db) (ops : List Op) :
    RowsAdvance db (run (step x) db ops) :=
  run_evolves (I := fun _ => True) RowsAdvance.refl RowsAdvance.trans
    (fun _ _ _ => trivial) (fun s a _ => step_advances x s a) trivial ops

/-! ## Native-start authority -/

theorem ownsAttempt_generation {rows : List OutboxRow} (h : r.ownsAttempt rows e o w a = true) :
    r.outboxId = o ∧ r.generation = a ∧ ∀ s ∈ rows, s.outboxId ≠ r.outboxId →
      s.identity = r.identity → s.generation < a := by
  simp only [OutboxRow.ownsAttempt, Bool.and_eq_true, Bool.or_eq_true, decide_eq_true_eq,
    OutboxRow.noSiblingFrom_iff] at h
  obtain ⟨⟨⟨⟨⟨hid, -⟩, -⟩, -⟩, hattempt⟩, hfence⟩ := h
  have hgen : r.generation = a := by
    rcases hattempt with hactive | ⟨⟨hnone, -⟩, hnumber⟩
    · rw [OutboxRow.generation, hactive]
      rfl
    · rw [OutboxRow.generation, Option.isNone_iff_eq_none.mp hnone]
      exact hnumber
  rw [hgen] at hfence
  exact ⟨hid, hgen, hfence⟩

theorem run_nativeSubmissionAuthorized {observed : String}
    (h : (nativeSubmissionAuthorized e o w a observed).run db = .ok (true, db')) :
    ∃ r ∈ db.outbox.rows, r.ownsAttempt db.outbox.rows e o w a = true := by
  simp only [nativeSubmissionAuthorized, run_bind, run_query, id] at h
  obtain ⟨_, db1, hobserve, _, _, ⟨rfl, rfl⟩, hrest⟩ := h
  have hframe := follows_observeMandatoryExpiry
    (footprint_rules [.dependencies] fun _ => False) (by decide) _ _ _ hobserve
  have houtbox : db1.outbox = db.outbox := hframe .outbox (by decide)
  rw [houtbox] at hrest
  cases hfind : db.outbox.rows.find? (OutboxRow.ownsAttempt db.outbox.rows e o w a) with
  | none =>
    rw [hfind] at hrest
    simp at hrest
  | some r => exact ⟨r, mem_of_find?_eq_some hfind, List.find?_some hfind⟩

/-- `authorize_native_submission` answers `True` for attempt `a` of the row `o`,
which is of the given delivery. -/
def Authorized (x : Externals) (db : Db) (identity : DeliveryIdentity) (o : String)
    (a : ℤ) : Prop :=
  (∃ r ∈ db.outbox.rows, r.outboxId = o ∧ r.identity = identity) ∧
    ∃ e w now, (step x db (.authorizeNativeSubmission e o w a now)).2 = .ok (.flag true)

theorem authorized_token (h : Authorized x db identity o a) :
    ∃ r ∈ db.outbox.rows, r.outboxId = o ∧ r.identity = identity ∧ r.generation = a ∧
      ∀ s ∈ db.outbox.rows, s.outboxId ≠ o → s.identity = identity → s.generation < a := by
  obtain ⟨⟨r, hr, hid, hident⟩, e, w, now, hans⟩ := h
  obtain ⟨b, hb, hrun⟩ := run_of_answer rfl hans
  cases hb
  simp only [authorizeNativeSubmission, run_bind, run_require, run_lift] at hrun
  obtain ⟨_, _, ⟨-, rfl⟩, _, _, ⟨-, rfl⟩, _, _, ⟨-, rfl⟩, observed, _, ⟨-, rfl⟩, hrun⟩ := hrun
  obtain ⟨r', hr', howns⟩ := run_nativeSubmissionAuthorized hrun
  obtain ⟨hid', hgen, hfence⟩ := ownsAttempt_generation howns
  obtain rfl := outbox_eq_of_id db.outbox hr' hr (hid'.trans hid.symm)
  rw [hid, hident] at hfence
  exact ⟨r', hr, hid, hident, hgen, hfence⟩

theorem authorized_later {p : String} {b : ℤ} {ops : List Op} (h : Authorized x db identity o a)
    (h' : Authorized x (run (step x) db ops) identity p b) : a < b ∨ (p = o ∧ b = a) := by
  obtain ⟨r, hr, hid, hident, hgen, -⟩ := authorized_token h
  obtain ⟨s, hs, hsid, hsident, hsgen, hfence⟩ := authorized_token h'
  obtain ⟨r', hr', hid', hident', hle⟩ := run_advances x db ops r hr
  by_cases heq : r'.outboxId = p
  · -- the same row: its generation has not fallen
    have hrow := outbox_eq_of_id _ hs hr' (hsid.trans heq.symm)
    rw [← hrow, hgen, hsgen] at hle
    rcases lt_or_eq_of_le hle with hlt | hab
    · exact .inl hlt
    · exact .inr ⟨heq.symm.trans (hid'.trans hid), hab.symm⟩
  · -- a sibling: the fence of the later start is above it
    have hlt := hfence r' hr' heq (hident'.trans hident)
    left
    omega

/-- Native-start authority is a fencing token: along any run it passes to
strictly higher generations of a delivery, one row at a time. -/
theorem native_start_fencing (x : Externals) (earlier later : List Op) {identity : DeliveryIdentity}
    {o p : String} {a b : ℤ} (h : Authorized x (stateAfter x earlier) identity o a)
    (h' : Authorized x (stateAfter x (earlier ++ later)) identity p b) :
    (a < b ∨ (p = o ∧ b = a)) ∧ (later = [] → p = o ∧ b = a) ∧
      (a < b → ∀ rest q, ¬Authorized x (stateAfter x (earlier ++ later ++ rest)) identity q a) := by
  have happ : ∀ as bs, stateAfter x (as ++ bs) = run (step x) (stateAfter x as) bs :=
    fun as bs => run_append (step x) Db.empty as bs
  rw [happ] at h'
  refine ⟨authorized_later h h', ?_, ?_⟩
  · rintro rfl
    have hagain : Authorized x (run (step x) (stateAfter x earlier) []) identity o a := h
    have hback := authorized_later h' hagain
    rcases authorized_later h h' with hlt | heq
    · omega
    · exact heq
  · intro hlt rest q hq
    rw [happ, happ] at hq
    have hle := authorized_later h' hq
    omega

/-! A delivery to run the store on: one appended event and one outbox row. -/

namespace Sample

def externals : Externals where
  events := { jsonText := fun _ => none, rowToEvent := fun _ _ => .ok [] }
  handoffs := { decode := fun _ => none, encode := fun _ => "" }

def clock (minute : ℕ) : Datetime :=
  { year := 2026, month := 1, day := 1, minute, utcoffset := some 0 }

def event : CanonicalEvent :=
  { eventId := "event", eventKind := "message", timestamp := clock 0
    sourceAdapter := "matrix", sourceTransportId := "transport"
    payload := [("body", .str "hello")] }

/-- Direct work, created in the hands of the worker that dispatches it. -/
def item : DeliveryOutboxItem :=
  { outboxId := "outbox", eventId := "event", routeId := "route", deliveryPlanId := "plan"
    targetAdapter := "radio", status := some .inProgress, workerId := some "pipeline:a"
    leaseUntil := some "2026-01-01T01:00:00+00:00" }

def created : List Op :=
  [.append event (clock 0), .createOutboxItem item false none (clock 1)]

def reserved : Op := .reserveOutboxAttempt "outbox" "pipeline:a" 1 (clock 2)

end Sample

open Sample in
/-- Attempt 1 starts, attempt 2 is reserved, and then attempt 2 starts. -/
theorem native_start_fencing_reserved :
    Authorized externals (stateAfter externals created) item.identity "outbox" 1 ∧
      Authorized externals (stateAfter externals (created ++ [reserved])) item.identity
        "outbox" 2 ∧ ((1 : ℤ) < 2 ∨ ("outbox" = "outbox" ∧ (2 : ℤ) = 1)) := by
  have h : Authorized externals (stateAfter externals created) item.identity "outbox" 1 :=
    ⟨⟨_, mem_cons_self, rfl, rfl⟩, "event", "pipeline:a", clock 3, rfl⟩
  have h' : Authorized externals (stateAfter externals (created ++ [reserved])) item.identity
      "outbox" 2 :=
    ⟨⟨_, mem_cons_self, rfl, rfl⟩, "event", "pipeline:a", clock 3, rfl⟩
  exact ⟨h, h', (native_start_fencing externals created [reserved] h h').1⟩

/-! ## Allocation of attempt numbers -/

/-- An attempt number handed out: to which row, for which delivery. -/
structure Allocation where
  outboxId : String
  identity : DeliveryIdentity
  number : ℤ

/-- The number a call hands out: that of an inserted row, or that of a
reservation for the row as it stood. -/
def allocation (x : Externals) (db : Db) (op : Op) : Option Allocation :=
  match op, (step x db op).2 with
  | .createOutboxItem .., .ok (.created (.inserted row)) =>
    some ⟨row.outboxId, row.identity, row.attemptNumber⟩
  | .reserveOutboxAttempt o .., .ok (.reserved (some n)) =>
    (db.outboxRow? o).map fun r => ⟨r.outboxId, r.identity, n⟩
  | _, _ => none

/-- The numbers handed out along a run. -/
def allocations (x : Externals) : Db → List Op → List Allocation
  | _, [] => []
  | db, op :: ops => (allocation x db op).toList ++ allocations x (step x db op).1 ops

theorem allocations_snoc (x : Externals) (db : Db) (ops : List Op) (op : Op) :
    allocations x db (ops ++ [op]) =
      allocations x db ops ++ (allocation x (run (step x) db ops) op).toList := by
  induction ops generalizing db with
  | nil => simp [allocations]
  | cons a ops ih =>
    rw [cons_append, allocations, ih, allocations, append_assoc, run_cons]

/-- Stored channels are never the empty text. -/
def ChannelsNormal (db : Db) : Prop := ∀ r ∈ db.outbox.rows, r.targetChannel ≠ some ""

theorem Creates.channel_ne {row : OutboxRow} {snapshot : Option Snapshot}
    (h : Creates db op row snapshot) : row.targetChannel ≠ some "" := by
  cases h <;> exact orNone_ne_empty _

theorem channelsNormal_stateAfter (x : Externals) (ops : List Op) :
    ChannelsNormal (stateAfter x ops) := by
  refine rows_invariant x (fun _ _ _ _ hc => hc.channel_ne) ?_ ops
  intro rows op r r' hc h
  rw [hc.keys.2.2.2.1]
  exact h

theorem generation_lt_of_adoptable {item : DeliveryOutboxItem} (hchannels : ChannelsNormal db)
    (hnone : db.adoptable item = none) (hr : r ∈ db.outbox.rows)
    (hident : r.identity = item.identity) :
    r.generation < item.attemptNumber := by
  obtain ⟨h1, h2, h3, h4⟩ : r.eventId = item.eventId ∧ r.deliveryPlanId = item.deliveryPlanId ∧
      r.targetAdapter = item.targetAdapter ∧
      orNone r.targetChannel = orNone item.targetChannel := by
    simpa [OutboxRow.identity, DeliveryOutboxItem.identity, DeliveryIdentity.of] using hident
  have hchannel : r.targetChannel = orNone item.targetChannel := by
    rw [← h4, orNone_of_ne (hchannels r hr)]
  by_contra hge
  have hmem : r ∈ db.outbox.rows.filter fun r =>
      r.eventId = item.eventId && r.deliveryPlanId = item.deliveryPlanId &&
        r.targetAdapter = item.targetAdapter && r.targetChannel = orNone item.targetChannel &&
        (item.attemptNumber ≤ r.attemptNumber ||
          r.activeAttempt.any (item.attemptNumber ≤ ·)) := by
    refine mem_filter.mpr ⟨hr, ?_⟩
    simp only [h1, h2, h3, hchannel, decide_true, Bool.true_and, Bool.or_eq_true, decide_eq_true_eq]
    cases ha : r.activeAttempt with
    | none =>
      left
      simpa [OutboxRow.generation, ha] using hge
    | some n =>
      right
      simpa [OutboxRow.generation, ha] using hge
  unfold Db.adoptable at hnone
  cases hf : db.outbox.rows.filter _ with
  | nil =>
    rw [hf] at hmem
    cases hmem
  | cons s rest =>
    rw [hf] at hnone
    cases hnone

theorem ofItem_iff (item : DeliveryOutboxItem) (r : OutboxRow) :
    r.ofItem item = true ↔ r.identity = item.identity := by
  simp only [OutboxRow.ofItem, OutboxRow.identity, DeliveryOutboxItem.identity,
    DeliveryIdentity.of, DeliveryIdentity.mk.injEq, Bool.and_eq_true, decide_eq_true_eq]
  have hchannel : orNone r.targetChannel = orNone item.targetChannel ↔
      r.targetChannel.getD "" = (orNone item.targetChannel).getD "" := by
    rw [← orNone_eq_iff, orNone_orNone]
  tauto

theorem generation_lt_of_maxGeneration {item : DeliveryOutboxItem} (hr : r ∈ db.outbox.rows)
    (hident : r.identity = item.identity) :
    r.generation < (db.maxGeneration item).getD 0 + 1 := by
  have hmem : r.generation ∈ (db.outbox.rows.filter (OutboxRow.ofItem item)).map
      OutboxRow.generation :=
    mem_map_of_mem (mem_filter.mpr ⟨hr, (ofItem_iff item r).mpr hident⟩)
  unfold Db.maxGeneration
  cases hmax : ((db.outbox.rows.filter (OutboxRow.ofItem item)).map OutboxRow.generation).max? with
  | none =>
    rw [List.max?_eq_none_iff] at hmax
    rw [hmax] at hmem
    cases hmem
  | some m =>
    have hle := (List.max?_eq_some_iff.mp hmax).2 r.generation hmem
    rw [Option.getD_some]
    omega

/-- A number handed out is above every row of its delivery, the row that gets it
included. -/
theorem allocation_fresh (hchannels : ChannelsNormal db) {a : Allocation}
    (h : allocation x db op = some a) :
    (∀ r ∈ db.outbox.rows, r.identity = a.identity → r.generation < a.number) ∧
      ∃ r ∈ (step x db op).1.outbox.rows, r.identity = a.identity ∧ a.number ≤ r.generation := by
  unfold allocation at h
  split at h
  · -- an inserted row
    rename_i item allocate snapshot now row hans
    cases h
    obtain ⟨c, hc, hrun⟩ := run_of_answer rfl hans
    cases hc
    rcases run_create hrun with ⟨row', heq, -⟩ | ⟨row', stored, heq, hc, hrows, -⟩
    · cases heq
    cases heq
    have hmem : row ∈ (step x db (.createOutboxItem item allocate snapshot now)).1.outbox.rows := by
      rw [hrows]
      exact mem_append_right _ (mem_singleton.mpr rfl)
    have hnew : row.attemptNumber ≤ row.generation := by
      rcases outbox_generation_le _ hmem with hgen | ⟨-, hgen⟩ <;> omega
    refine ⟨?_, row, hmem, rfl, hnew⟩
    intro r hr hident
    cases hc with
    | plain hchecks hnone =>
      refine generation_lt_of_adoptable hchannels hnone hr (hident.trans ?_)
      simp [DeliveryOutboxItem.row, OutboxRow.identity, DeliveryOutboxItem.identity,
        DeliveryIdentity.of]
    | generation hchecks hactive =>
      refine generation_lt_of_maxGeneration hr (hident.trans ?_)
      simp [DeliveryOutboxItem.row, OutboxRow.identity, DeliveryOutboxItem.identity,
        DeliveryIdentity.of]
  · -- a reservation
    rename_i o w n now k hans
    obtain ⟨c, hc, hrun⟩ := run_of_answer rfl hans
    cases hc
    obtain ⟨hrew, hnum, -⟩ := run_reserve hrun
    obtain ⟨rfl, r, hr, hres⟩ := hnum k rfl
    have hguard := hres
    simp only [OutboxRow.reservable, Bool.and_eq_true, decide_eq_true_eq,
      Option.isNone_iff_eq_none, OutboxRow.noSiblingFrom_iff] at hguard
    obtain ⟨⟨⟨⟨⟨hid, -⟩, -⟩, hactive⟩, rfl⟩, hfence⟩ := hguard
    obtain ⟨r', hfind, rfl⟩ := Option.map_eq_some_iff.mp h
    have hr' : r' ∈ db.outbox.rows := mem_of_find?_eq_some hfind
    have hid' : r'.outboxId = o := by simpa using List.find?_some hfind
    obtain rfl := outbox_eq_of_id db.outbox hr' hr (hid'.trans hid.symm)
    refine ⟨?_, ?_⟩
    · intro s hs hident
      by_cases heq : s.outboxId = r'.outboxId
      · rw [outbox_eq_of_id db.outbox hs hr' heq, OutboxRow.generation, hactive]
        exact Int.lt_succ _
      · exact hfence s hs heq hident
    · refine ⟨r'.reserve (nowIso now), ?_, rfl, le_refl _⟩
      rw [hrew.rows]
      exact mem_map.mpr ⟨r', hr', if_pos hres⟩
  · cases h

/-- What the numbers handed out so far have to do with the store. -/
structure AllocationsKept (as : List Allocation) (db : Db) : Prop where
  distinct : (as.map fun a => (a.identity, a.number)).Nodup
  below : ∀ a ∈ as, ∃ r ∈ db.outbox.rows, r.identity = a.identity ∧ a.number ≤ r.generation

theorem allocationsKept (x : Externals) (ops : List Op) :
    AllocationsKept (allocations x Db.empty ops) (stateAfter x ops) := by
  induction ops using List.reverseRecOn with
  | nil => exact ⟨nodup_nil, fun a ha => absurd ha not_mem_nil⟩
  | append_singleton ops op ih =>
    have hstate : stateAfter x (ops ++ [op]) = (step x (stateAfter x ops) op).1 :=
      run_snoc (step x) Db.empty ops op
    -- rows only advance, so every number is still below some row
    have hbelow : ∀ a ∈ allocations x Db.empty ops, ∃ r ∈ (stateAfter x (ops ++ [op])).outbox.rows,
        r.identity = a.identity ∧ a.number ≤ r.generation := by
      intro a ha
      obtain ⟨r, hr, hident, hle⟩ := ih.below a ha
      obtain ⟨r', hr', -, hident', hle'⟩ := step_advances x _ op r hr
      exact ⟨r', hstate ▸ hr', hident'.trans hident, hle.trans hle'⟩
    rw [allocations_snoc]
    change AllocationsKept (_ ++ (allocation x (stateAfter x ops) op).toList) _
    cases hnew : allocation x (stateAfter x ops) op with
    | none =>
      rw [Option.toList_none, append_nil]
      exact ⟨ih.distinct, hbelow⟩
    | some a =>
      obtain ⟨hfresh, hin⟩ := allocation_fresh (channelsNormal_stateAfter x ops) hnew
      refine ⟨?_, ?_⟩
      · rw [Option.toList_some, map_append, nodup_append]
        refine ⟨ih.distinct, nodup_singleton _, ?_⟩
        intro p hp q hq heq
        obtain ⟨b, hb, rfl⟩ := mem_map.mp hp
        rw [map_singleton, mem_singleton] at hq
        rw [hq, Prod.mk.injEq] at heq
        obtain ⟨r, hr, hident, hle⟩ := ih.below b hb
        have hlt := hfresh r hr (hident.trans heq.1)
        omega
      · intro b hb
        rw [mem_append, Option.toList_some, mem_singleton] at hb
        rcases hb with hb | rfl
        · exact hbelow b hb
        · rw [hstate]
          exact hin

/-- Attempt numbers are never reused: those handed out for a delivery are pairwise distinct, each
above the generation that every other row of the delivery has then. -/
theorem attempt_numbers_fresh (x : Externals) (ops : List Op) :
    ((allocations x Db.empty ops).map fun a => (a.identity, a.number)).Nodup ∧
      ∀ before op after, ops = before ++ op :: after →
        ∀ a, allocation x (stateAfter x before) op = some a →
          ∀ r ∈ (stateAfter x before).outbox.rows, r.identity = a.identity →
            r.outboxId ≠ a.outboxId → r.generation < a.number := by
  refine ⟨(allocationsKept x ops).distinct, ?_⟩
  rintro before op after rfl a ha r hr hident -
  exact (allocation_fresh (channelsNormal_stateAfter x before) ha).1 r hr hident

open Sample in
/-- Numbers 1 and 2 are handed out to the sample row, and a replay gets 3. -/
theorem attempt_numbers_fresh_replay :
    ((allocations externals Db.empty (created ++ [reserved,
      .createOutboxItem { item with outboxId := "replay", status := none, workerId := none,
                                    leaseUntil := none } true none (clock 3)])).map
        fun a => (a.identity, a.number)).Nodup :=
  (attempt_numbers_fresh externals _).1

end Medre.Storage
