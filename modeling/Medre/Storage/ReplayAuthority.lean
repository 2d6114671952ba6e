import Medre.Storage.ContentCalls

/-! # The content authority of replay generations

A replay generation has no dependency of its own; it dispatches on the admission's source while
its `dispatch_source` reads `replay`, and a reservation overwrites that column. -/

namespace Medre.Storage

open List Medre.Framework Tx

variable {o w : String} {a : ℤ} {now : Datetime}

/-! ## The life of a replay row -/

/-- The call reserved an attempt of the row `o`. -/
def Reserves (o : String) (p : Op × Except Err Answer) : Prop :=
  ∃ w n now k, p = (.reserveOutboxAttempt o w n now, .ok (.reserved (some k)))

theorem OutboxRow.reserve_source (r : OutboxRow) (now : String) :
    (r.reserve now).dispatchSource ≠ .replay := by
  unfold OutboxRow.reserve
  by_cases h : r.attemptNumber = 0 <;> simp [h]

theorem Change.source_cases {rows : List OutboxRow} {op : Op} {r r' : OutboxRow}
    (h : Change rows op r r') :
    r'.dispatchSource = r.dispatchSource ∨
      r'.dispatchSource ≠ .replay ∧ ∃ w n now, op = .reserveOutboxAttempt r.outboxId w n now := by
  cases h with
  | reserve h =>
    simp only [OutboxRow.reservable, Bool.and_eq_true, decide_eq_true_eq] at h
    exact .inr ⟨r.reserve_source _, _, _, _, by rw [h.1.1.1.1.1]⟩
  | _ => exact .inl rfl

variable {r : OutboxRow} {db : Db}

/-- A call on the row itself: a reservation that answers a number takes the row off replay, any
other leaves it. -/
theorem step_replay_reserve (x : Externals) (hr : r ∈ db.outbox.rows)
    (w : String) (n : ℤ) (now : Datetime) :
    let op := Op.reserveOutboxAttempt r.outboxId w n now
    ∃ r' ∈ (step x db op).1.outbox.rows, r'.outboxId = r.outboxId ∧
      (r'.dispatchSource = .replay ↔
        r.dispatchSource = .replay ∧ ¬Reserves r.outboxId (op, (step x db op).2)) := by
  intro op
  cases hans : (step x db op).2 with
  | error e =>
    rw [step_of_error hans]
    refine ⟨r, hr, rfl, (and_iff_left ?_).symm⟩
    rintro ⟨_, _, _, _, heq⟩
    cases (Prod.mk.inj heq).2
  | ok ans =>
    obtain ⟨a, rfl, hrun⟩ := run_of_answer rfl hans
    obtain ⟨hrew, hsome, hnone⟩ := run_reserve hrun
    have hmem : (if r.reservable db.outbox.rows r.outboxId w n then r.reserve (nowIso now)
        else r) ∈ (step x db op).1.outbox.rows := by
      rw [hrew.rows]
      exact mem_map.mpr ⟨r, hr, rfl⟩
    cases a with
    | none =>
      rw [if_neg (by rw [hnone rfl r hr]; decide)] at hmem
      refine ⟨r, hmem, rfl, (and_iff_left ?_).symm⟩
      rintro ⟨_, _, _, _, heq⟩
      cases (Prod.mk.inj heq).2
    | some k =>
      obtain ⟨-, r0, hr0, hres⟩ := hsome k rfl
      have hid : r0.outboxId = r.outboxId := by
        simp only [OutboxRow.reservable, Bool.and_eq_true, decide_eq_true_eq] at hres
        exact hres.1.1.1.1.1
      rw [outbox_eq_of_id db.outbox hr0 hr hid] at hres
      rw [if_pos hres] at hmem
      refine ⟨_, hmem, rfl, ?_⟩
      constructor
      · intro h
        exact absurd h (r.reserve_source _)
      · rintro ⟨-, hno⟩
        exact absurd ⟨w, n, now, k, rfl⟩ hno

theorem step_replay (x : Externals) (op : Op) (hr : r ∈ db.outbox.rows) :
    ∃ r' ∈ (step x db op).1.outbox.rows, r'.outboxId = r.outboxId ∧
      (r'.dispatchSource = .replay ↔
        r.dispatchSource = .replay ∧ ¬Reserves r.outboxId (op, (step x db op).2)) := by
  by_cases hop : ∃ w n now, op = .reserveOutboxAttempt r.outboxId w n now
  · obtain ⟨w, n, now, rfl⟩ := hop
    exact step_replay_reserve x hr w n now
  · have hno : ¬Reserves r.outboxId (op, (step x db op).2) := by
      rintro ⟨w, n, now, k, heq⟩
      exact hop ⟨w, n, now, (Prod.mk.inj heq).1⟩
    rw [and_iff_left hno]
    cases step_outbox x db op with
    | rewritten f hf owned =>
      have hmem : f r ∈ (step x db op).1.outbox.rows := by
        rw [hf.rows]
        exact mem_map_of_mem hr
      refine ⟨f r, hmem, (hf.keys hr).1, ?_⟩
      rcases hf.change r hr with heq | hc
      · rw [heq]
      · rw [hc.source_cases.resolve_right fun hreserve => hop hreserve.2]
    | created row snapshot hc rows snapshots =>
      refine ⟨r, ?_, rfl, Iff.rfl⟩
      rw [rows]
      exact mem_append_left _ hr

/-- What holds of a replay row `o` of `e` after `calls`: it reads `replay` until an attempt is
reserved, and owns no dependency. -/
structure ReplayRow (e o : String) (calls : List (Op × Except Err Answer)) (db : Db) : Prop where
  row : ∃ r ∈ db.outbox.rows, r.outboxId = o ∧
    (r.dispatchSource = .replay ↔ ∀ p ∈ calls, ¬Reserves o p)
  keys : ∀ r ∈ db.outbox.rows, r.outboxId = o → r.eventId = e ∧ 1 ≤ r.generation
  unowned : ∀ d ∈ db.dependencies.rows, d.ownerKind = .outbox → d.ownerId ≠ o

theorem ReplayRow.step (x : Externals) {e : String} {calls : List (Op × Except Err Answer)}
    (h : ReplayRow e o calls db) (op : Op) :
    ReplayRow e o (calls ++ [(op, (step x db op).2)]) (step x db op).1 := by
  obtain ⟨r, hr, rfl, hsource⟩ := h.row
  refine ⟨?_, ?_, ?_⟩
  · obtain ⟨r', hr', hid, hiff⟩ := step_replay x op hr
    refine ⟨r', hr', hid, ?_⟩
    rw [hiff, hsource, forall_mem_append, forall_mem_singleton]
  · intro r' hr' hid
    obtain ⟨s, hs, hsid, hsident, hle⟩ := step_advances x db op r hr
    obtain rfl := outbox_eq_of_id _ hr' hs (hid.trans hsid.symm)
    obtain ⟨hevent, hgen⟩ := h.keys r hr rfl
    have heq : r'.eventId = r.eventId := congrArg DeliveryIdentity.eventId hsident
    exact ⟨heq.trans hevent, hgen.trans hle⟩
  · intro d' hd' hkind
    have hkept : (∃ d ∈ db.dependencies.rows, d.Stems d') → d'.ownerId ≠ r.outboxId := by
      rintro ⟨d, hd, hstems⟩
      have hkey := Dependency.key_inj.mp hstems.key_eq
      rw [hkey.2.2]
      exact h.unowned d hd (hkey.2.1 ▸ hkind)
    cases step_outbox x db op with
    | rewritten f hf owned => exact hkept (owned d' hd' hkind)
    | created row snapshot hc rows snapshots =>
      rcases (step_content x db op).origin d' hd' with hstems | hown
      · exact hkept hstems
      · rw [(hc.owner hown).1]
        exact created_id_ne rows hr

theorem maxGeneration_nonneg (db : Db) (item : DeliveryOutboxItem) :
    0 ≤ (db.maxGeneration item).getD 0 := by
  unfold Db.maxGeneration
  cases hmax : ((db.outbox.rows.filter (OutboxRow.ofItem item)).map OutboxRow.generation).max? with
  | none => exact le_refl _
  | some m =>
    obtain ⟨r, hr, rfl⟩ := mem_map.mp (List.max?_eq_some_iff.mp hmax).1
    exact outbox_generation_nonneg db.outbox (mem_filter.mp hr).1

theorem replayRow_created (x : Externals) (before : List Op) {item : DeliveryOutboxItem}
    {snapshot : Option OutboxDispatchSnapshotWrite} {created : Datetime} {db₀ : Db}
    {row : OutboxRow} (hcreate : step x (stateAfter x before)
      (.createOutboxItem item true snapshot created) = (db₀, .ok (.created (.inserted row))))
    (hsource : row.dispatchSource = .replay) : ReplayRow row.eventId row.outboxId [] db₀ := by
  obtain ⟨c, hc, hrun⟩ := run_of_answer rfl (congrArg Prod.snd hcreate)
  have hcontent := step_content x (stateAfter x before)
    (.createOutboxItem item true snapshot created)
  rw [hcreate] at hrun hcontent
  cases hc
  rcases run_create hrun with ⟨_, hadopted, -⟩ | ⟨row', stored, hrow, hcreates, rows, -⟩
  · cases hadopted
  · cases hrow
    have hmem : row ∈ db₀.outbox.rows := by
      rw [rows]
      exact mem_append_right _ (mem_singleton.mpr rfl)
    refine ⟨⟨row, hmem, rfl, by simp [hsource]⟩, ?_, ?_⟩
    · intro r hr hid
      obtain rfl := outbox_eq_of_id _ hr hmem hid
      refine ⟨rfl, ?_⟩
      have hmax := maxGeneration_nonneg (stateAfter x before) item
      cases hcreates with
      | generation hchecks hactive hevent =>
        show 1 ≤ item.activeAttempt.getD ((Db.maxGeneration _ item).getD 0 + 1)
        rw [hactive, Option.getD_none]
        omega
    · intro d' hd' hkind
      rcases hcontent.origin d' hd' with ⟨d, hd, hstems⟩ | hown
      · -- an older dependency belongs to an older row
        have hkey := Dependency.key_inj.mp hstems.key_eq
        obtain ⟨r, hr, hid, -⟩ := (settledStore_stateAfter x before).dependencies d hd
          (hkey.2.1 ▸ hkind)
        rw [hkey.2.2, ← hid]
        exact (created_id_ne rows hr).symm
      · cases hcreates with
        | generation hchecks hactive hevent =>
          have hstored := (createChecks_source hchecks).1
          exact absurd (hstored.symm.trans hsource) hown.2

/-! ## The answer of the native-start fence -/

/-- The row is in the hands of the worker `w`, at its current attempt `a`, with
a lease and every dispatch bound ahead of `observed`. -/
structure Dispatching (db : Db) (r : OutboxRow) (w : String) (a : ℤ) (observed : String) :
    Prop where
  status : r.status = .inProgress
  worker : r.workerId = some w
  attempt : r.activeAttempt = some a ∨
    (r.activeAttempt = none ∧ sqlLikeStart "pipeline:" w = true ∧ r.attemptNumber = a)
  newest : ∀ s ∈ db.outbox.rows, s.outboxId ≠ r.outboxId → s.identity = r.identity →
    s.generation < r.generation
  lease : ∃ text at' lease, r.leaseUntil = some text ∧ Datetime.fromisoformat text = .ok at' ∧
    utc at' = .ok lease ∧ observed < lease
  bounds : db.effectiveDeadlineElapsed r.eventId r.outboxId observed = .ok false

theorem Dispatching.ownsAttempt {observed : String} (h : Dispatching db r w a observed) :
    r.ownsAttempt db.outbox.rows r.eventId r.outboxId w a = true := by
  simp only [OutboxRow.ownsAttempt, Bool.and_eq_true, Bool.or_eq_true, decide_eq_true_eq,
    OutboxRow.noSiblingFrom_iff, Option.isNone_iff_eq_none]
  refine ⟨⟨⟨⟨⟨trivial, trivial⟩, h.status⟩, h.worker⟩, ?_⟩, h.newest⟩
  rcases h.attempt with hactive | ⟨hnone, hpipeline, hnumber⟩
  · exact .inl hactive
  · exact .inr ⟨⟨hnone, hpipeline⟩, hnumber⟩

section Fence

variable {e : String} {calls : List (Op × Except Err Answer)} {db db₁ : Db} {r : OutboxRow}
  {observed : String} (h : ReplayRow e r.outboxId calls db) (hr : r ∈ db.outbox.rows)
  (hobserved : MandatoryObserved r.eventId observed db db₁)

include h hobserved in
theorem ReplayRow.unowned_observed : ∀ d ∈ db₁.dependencies.rows, d.ownerKind = .outbox →
    d.ownerId ≠ r.outboxId := by
  obtain ⟨t, rfl, ht⟩ := hobserved
  intro d' hd'
  obtain ⟨d, hd, rfl⟩ := (ht d').mp hd'
  have hkey := Dependency.key_inj.mp (d.observedAt_key r.eventId observed)
  rw [hkey.2.1, hkey.2.2]
  exact h.unowned d hd

include h hr hobserved in
theorem ReplayRow.contentAuthority :
    db₁.outboxContentAuthority r.eventId r.outboxId observed = true ↔
      r.dispatchSource = .replay ∧ SourceOpen db r.eventId observed := by
  have hnone : db₁.dependencies.rows.any
      (Dependency.ownerLive r.eventId .outbox r.outboxId observed) = false := by
    rw [any_eq_false]
    intro d hd hlive
    simp only [Dependency.ownerLive, Bool.and_eq_true, decide_eq_true_eq] at hlive
    exact h.unowned_observed hobserved d hd hlive.1.1.1.1.2 hlive.1.1.1.2
  have hreplay : (db₁.outbox.rows.any fun s => s.outboxId = r.outboxId &&
      s.eventId = r.eventId && s.dispatchSource = .replay) = true ↔
        r.dispatchSource = .replay := by
    obtain ⟨t, rfl, -⟩ := hobserved
    simp only [any_eq_true, Bool.and_eq_true, decide_eq_true_eq]
    constructor
    · rintro ⟨s, hs, ⟨hid, -⟩, hsource⟩
      rw [outbox_eq_of_id db.outbox hs hr hid] at hsource
      exact hsource
    · intro hsource
      exact ⟨r, hr, ⟨rfl, rfl⟩, hsource⟩
  rw [← hobserved.sourceDependencyLive, ← hreplay]
  unfold Db.outboxContentAuthority
  rw [hnone, Bool.false_or, Bool.and_eq_true]

include h hobserved in
theorem ReplayRow.bounds_observed :
    db₁.effectiveDeadlineElapsed r.eventId r.outboxId observed =
      db.effectiveDeadlineElapsed r.eventId r.outboxId observed := by
  have hfind : ∀ rows : List Dependency,
      (∀ d ∈ rows, d.ownerKind = .outbox → d.ownerId ≠ r.outboxId) →
      (rows.find? fun d => d.eventId = r.eventId && d.ownerKind = .outbox &&
        d.ownerId = r.outboxId && d.releasedAt.isNone) = none := by
    intro rows hrows
    rw [List.find?_eq_none]
    intro d hd hmatch
    simp only [Bool.and_eq_true, decide_eq_true_eq] at hmatch
    exact hrows d hd hmatch.1.1.2 hmatch.1.2
  have hunowned := h.unowned_observed hobserved
  obtain ⟨t, rfl, -⟩ := hobserved
  unfold Db.effectiveDeadlineElapsed Db.effectiveDispatchBounds
  simp only [hfind _ hunowned, hfind _ h.unowned]
  rfl

include h hobserved in
theorem ReplayRow.dispatching_observed (hready : Dispatching db r w a observed) :
    Dispatching db₁ r w a observed := by
  have hbounds := (h.bounds_observed hobserved).trans hready.bounds
  obtain ⟨t, rfl, -⟩ := hobserved
  exact { hready with bounds := hbounds }

end Fence

theorem run_fence {db db1 : Db} {observed : String} (hr : r ∈ db1.outbox.rows)
    (hready : Dispatching db1 r w a observed) (hevent : db1.hasEvent r.eventId = true)
    (hobserve : (observeMandatoryExpiry r.eventId observed).run db = .ok ((), db1)) :
    (nativeSubmissionAuthorized r.eventId r.outboxId w a observed).run db =
      .ok (db1.outboxContentAuthority r.eventId r.outboxId observed, db1) := by
  obtain ⟨text, at', lease, hlease, hparse, hutc, hlt⟩ := hready.lease
  have hfind : db1.outbox.rows.find?
      (OutboxRow.ownsAttempt db1.outbox.rows r.eventId r.outboxId w a) = some r :=
    find?_of_unique hr hready.ownsAttempt fun s hs howns =>
      outbox_eq_of_id db1.outbox hs hr (ownsAttempt_generation howns).1
  simp only [nativeSubmissionAuthorized, run_bind, run_query]
  refine ⟨(), db1, hobserve, db1, db1, ⟨rfl, rfl⟩, ?_⟩
  simp only [hfind, Option.bind_some, hlease, hparse, hutc, if_neg (not_le_of_gt hlt),
    run_bind, run_lift, hready.bounds]
  exact ⟨false, db1, ⟨rfl, rfl⟩, by simp [hevent]⟩

theorem ReplayRow.authorize (x : Externals) {e : String} {calls : List (Op × Except Err Answer)}
    {observed : String} (h : ReplayRow e r.outboxId calls db) (hr : r ∈ db.outbox.rows)
    (hevent : db.hasEvent r.eventId = true) (hnow : utc now = .ok observed)
    (hready : Dispatching db r w a observed) (hnamed : r.eventId ≠ "" ∧ r.outboxId ≠ "" ∧ w ≠ "") :
    ∃ b, (Storage.step x db (.authorizeNativeSubmission r.eventId r.outboxId w a now)).2 =
        .ok (.flag b) ∧
      (b = true ↔ r.dispatchSource = .replay ∧ SourceOpen db r.eventId observed) := by
  obtain ⟨db₁, hobserve, hobserved⟩ := run_observeMandatoryExpiry db r.eventId observed
  have hready' := h.dispatching_observed hobserved hready
  have hpos : 1 ≤ a := by
    rw [← (ownsAttempt_generation hready.ownsAttempt).2.1]
    exact (h.keys r hr rfl).2
  have hkept : r ∈ db₁.outbox.rows ∧ db₁.hasEvent r.eventId = true := by
    obtain ⟨t, rfl, -⟩ := id hobserved
    exact ⟨hr, hevent⟩
  have hrun : (authorizeNativeSubmission r.eventId r.outboxId w a now).run db =
      .ok (db₁.outboxContentAuthority r.eventId r.outboxId observed, db₁) := by
    simp only [authorizeNativeSubmission, run_bind, run_require, run_lift]
    exact ⟨(), db, ⟨by simp [hnamed], rfl⟩, (), db, ⟨by simp [hnamed], rfl⟩, (), db,
      ⟨by simp [hpos], rfl⟩, observed, db, ⟨hnow, rfl⟩,
      run_fence hkept.1 hready' hkept.2 hobserve⟩
  refine ⟨_, ?_, h.contentAuthority hr hobserved⟩
  rw [step_of_run rfl hrun]

/-! ## Whole runs -/

theorem authorize_named {x : Externals} {e : String} {b : Bool}
    (h : (step x db (.authorizeNativeSubmission e o w a now)).2 = .ok (.flag b)) :
    e ≠ "" ∧ o ≠ "" ∧ w ≠ "" := by
  obtain ⟨_, -, hrun⟩ := run_of_answer rfl h
  simp only [authorizeNativeSubmission, run_bind, run_require, run_lift] at hrun
  obtain ⟨_, _, ⟨hids, rfl⟩, _, _, ⟨hworker, rfl⟩, -⟩ := hrun
  simpa [and_assoc] using And.intro hids hworker

/-- A replay generation that is dispatched while the source is open is authorized exactly as long
as no attempt of it has been reserved. Once the source is released or past its deadline all
attempts are refused. -/
theorem replay_authority (x : Externals) (before after : List Op) {item : DeliveryOutboxItem}
    {snapshot : Option OutboxDispatchSnapshotWrite} {created : Datetime} {db₀ : Db}
    {row : OutboxRow} (hcreate : step x (stateAfter x before)
      (.createOutboxItem item true snapshot created) = (db₀, .ok (.created (.inserted row))))
    (hsource : row.dispatchSource = .replay) {db : Db} (hdb : db = run (step x) db₀ after)
    {r : OutboxRow} (hr : r ∈ db.outbox.rows) (hid : r.outboxId = row.outboxId) {w : String}
    {a : ℤ} {now : Datetime} {observed : String} (hnow : utc now = .ok observed)
    (hready : Dispatching db r w a observed) :
    (SourceOpen db r.eventId observed →
      ((step x db (.authorizeNativeSubmission r.eventId r.outboxId w a now)).2 =
          .ok (.flag true) ↔
        (r.eventId ≠ "" ∧ r.outboxId ≠ "" ∧ w ≠ "") ∧
          ∀ p ∈ trace (step x) db₀ after, ¬Reserves r.outboxId p)) ∧
      ((¬SourceOpen db r.eventId observed ∨ ∃ pre post, after = pre ++ post ∧
          SourceReleased (run (step x) db₀ pre) r.eventId) →
        r.eventId ≠ "" ∧ r.outboxId ≠ "" ∧ w ≠ "" →
        (step x db (.authorizeNativeSubmission r.eventId r.outboxId w a now)).2 =
          .ok (.flag false)) := by
  have hlater : ∀ ops, ReplayRow row.eventId row.outboxId (trace (step x) db₀ ops)
      (run (step x) db₀ ops) :=
    run_history (I := ReplayRow row.eventId row.outboxId)
      (replayRow_created x before hcreate hsource) fun calls db op h => h.step x op
  have h := hlater after
  rw [← hid, ← hdb] at h
  have hevents : ∀ ops, (run (step x) db₀ ops).hasEvent r.eventId = true := by
    intro ops
    have hstate : run (step x) db₀ ops =
        stateAfter x (before ++ .createOutboxItem item true snapshot created :: ops) := by
      rw [stateAfter, run_append, run_cons]
      exact congrArg (fun p => run (step x) p.1 ops) hcreate.symm
    obtain ⟨r', hr', hid', -⟩ := (hlater ops).row
    rw [(h.keys r hr rfl).1, ← ((hlater ops).keys r' hr' hid').1]
    rw [hstate] at hr' ⊢
    exact outbox_hasEvent x _ r' hr'
  have hevent : db.hasEvent r.eventId = true := hdb ▸ hevents after
  have hreplay : r.dispatchSource = .replay ↔
      ∀ p ∈ trace (step x) db₀ after, ¬Reserves r.outboxId p := by
    obtain ⟨r', hr', hid', hiff⟩ := h.row
    rwa [outbox_eq_of_id db.outbox hr' hr hid'] at hiff
  constructor
  · intro hopen
    rw [← hreplay]
    constructor
    · intro htrue
      have hnamed := authorize_named htrue
      obtain ⟨b, hb, hiff⟩ := h.authorize x hr hevent hnow hready hnamed
      rw [htrue] at hb
      cases hb
      exact ⟨hnamed, (hiff.mp rfl).1⟩
    · rintro ⟨hnamed, hsrc⟩
      obtain ⟨b, hb, hiff⟩ := h.authorize x hr hevent hnow hready hnamed
      rw [hb, hiff.mpr ⟨hsrc, hopen⟩]
  · intro hclosed hnamed
    have hnot : ¬SourceOpen db r.eventId observed := by
      rcases hclosed with hnot | ⟨pre, post, rfl, hreleased⟩
      · exact hnot
      · rintro ⟨d, hd, hev, hkind, hlive, -⟩
        have hsome := sourceReleased_later x (hevents pre) hreleased post d
        rw [← run_append, ← hdb] at hsome
        have hsome := hsome hd hev hkind
        rw [hlive] at hsome
        cases hsome
    obtain ⟨b, hb, hiff⟩ := h.authorize x hr hevent hnow hready hnamed
    cases b with
    | false => exact hb
    | true => exact absurd (hiff.mp rfl).2 hnot

namespace Sample

/-- A replay of the sample event, created in the hands of its worker. -/
def replayItem : DeliveryOutboxItem := { item with outboxId := "replay" }

def replayCreated : Op := .createOutboxItem replayItem true none (clock 1)

def leaseEnd (minute : ℕ) : Datetime := { clock minute with hour := 1 }

def replayRetried : List Op :=
  [.markOutbox (.retryWait "replay" "2026-01-01T00:03:00+00:00" none none none none (some 1) none)
      (clock 2),
    .claimDueOutboxItems "2026-01-01T00:03:00+00:00" "retry" 3600 ["replay"] {},
    .reserveOutboxAttempt "replay" "retry" 1 (clock 4)]

end Sample

open Sample in
/-- The second attempt of the sample replay is refused though nothing but its reservation has
changed. -/
theorem replay_retry_refused :
    ∃ row, (step externals (stateAfter externals [.append event (clock 0)]) replayCreated).2 =
        .ok (.created (.inserted row)) ∧ row.dispatchSource = .replay ∧
      ∃ r ∈ (stateAfter externals
          (.append event (clock 0) :: replayCreated :: replayRetried)).outbox.rows,
        r.outboxId = row.outboxId ∧
        Dispatching (stateAfter externals
          (.append event (clock 0) :: replayCreated :: replayRetried)) r "retry" 2
          "2026-01-01T00:05:00.000000+00:00" ∧
        SourceOpen (stateAfter externals
          (.append event (clock 0) :: replayCreated :: replayRetried)) r.eventId
          "2026-01-01T00:05:00.000000+00:00" ∧
        utc (clock 5) = .ok "2026-01-01T00:05:00.000000+00:00" ∧
        (step externals (stateAfter externals
            (.append event (clock 0) :: replayCreated :: replayRetried))
          (.authorizeNativeSubmission r.eventId r.outboxId "retry" 2 (clock 5))).2 =
          .ok (.flag false) := by
  refine ⟨_, rfl, rfl, _, mem_cons_self, rfl, ?_,
    ⟨_, mem_cons_self, rfl, rfl, rfl, rfl⟩, rfl, rfl⟩
  have hlease : ("2026-01-01T00:05:00.000000+00:00" : String) <
      "2026-01-01T01:03:00.000000+00:00" := by decide
  refine ⟨rfl, rfl, .inl rfl, ?_,
    ⟨"2026-01-01T01:03:00+00:00", leaseEnd 3, _, by decide +kernel, rfl, rfl, hlease⟩, rfl⟩
  intro s hs hne
  rw [mem_singleton.mp hs] at hne
  exact absurd rfl hne

open Sample in
theorem replay_authority_first :
    ∃ r ∈ (stateAfter externals [.append event (clock 0), replayCreated]).outbox.rows,
      (step externals (stateAfter externals [.append event (clock 0), replayCreated])
        (.authorizeNativeSubmission r.eventId "replay" "pipeline:a" 1 (clock 5))).2 =
        .ok (.flag true) := by
  have hcreate : step externals (stateAfter externals [.append event (clock 0)])
      (.createOutboxItem replayItem true none (clock 1)) =
        (stateAfter externals [.append event (clock 0), replayCreated],
          .ok (.created (.inserted _))) := rfl
  have hlease : ("2026-01-01T00:05:00.000000+00:00" : String) <
      "2026-01-01T01:00:00.000000+00:00" := by decide
  refine ⟨_, mem_cons_self, ?_⟩
  refine ((replay_authority externals [.append event (clock 0)] [] hcreate rfl rfl
    mem_cons_self rfl rfl ?_).1 ⟨_, mem_cons_self, rfl, rfl, rfl, rfl⟩).mpr
    ⟨by decide, fun _ hp => absurd hp not_mem_nil⟩
  refine ⟨rfl, rfl, .inr ⟨rfl, rfl, rfl⟩, ?_, ⟨_, leaseEnd 0, _, rfl, rfl, rfl, hlease⟩, rfl⟩
  intro s hs hne
  rw [mem_singleton.mp hs] at hne
  exact absurd rfl hne

end Medre.Storage
