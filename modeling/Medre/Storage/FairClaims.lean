import Medre.Storage.ClaimAlone

/-! # One row for each adapter (`claim_due_outbox_items` with `one_per_adapter`)

The `SELECT` ranks the eligible rows of each adapter before its limit. -/

namespace Medre.Storage

open List Medre.Framework
open scoped List

variable {p : OutboxRow → Bool} {adapter : String} {other : Db}

def claimInTurn (x : Externals) (db : Db) (calls : List ClaimCall) : Db :=
  calls.foldl (fun db c => (claimAlone x db c).store) db

/-! ## The rows a fair claim is for -/

/-- Due, and not superseded by a sibling, whatever the adapter. -/
def ClaimCall.eligible (c : ClaimCall) (cutoff : String) (rows : List OutboxRow)
    (r : OutboxRow) : Bool :=
  r.claimable rows c.now cutoff { initialOnly := c.filters.initialOnly }

/-- No other row of the adapter is in progress under a lease beyond the claim's clock. -/
def ClaimCall.Free (c : ClaimCall) (rows : List OutboxRow) (r : OutboxRow) : Prop :=
  ∀ s ∈ rows, s.outboxId ≠ r.outboxId → s.targetAdapter = r.targetAdapter →
    s.status = .inProgress → ∀ lease, s.leaseUntil = some lease → lease ≤ c.now

/-- By the schedule or the creation time, then the creation time, then the insertion. -/
def Earlier (rows : List OutboxRow) (r s : OutboxRow) : Prop :=
  r.dueAt < s.dueAt ∨ r.dueAt = s.dueAt ∧
    (r.createdAt < s.createdAt ∨ r.createdAt = s.createdAt ∧ [r, s] <+ rows)

/-- The first eligible row of an adapter that is neither excluded nor busy. -/
structure ClaimCall.Chooses (c : ClaimCall) (cutoff : String) (rows : List OutboxRow)
    (r : OutboxRow) : Prop where
  row : r ∈ rows
  eligible : c.eligible cutoff rows r = true
  included : r.targetAdapter ∉ c.filters.excludedAdapters
  free : c.Free rows r
  first : ∀ s ∈ rows, s.targetAdapter = r.targetAdapter → c.eligible cutoff rows s = true →
    s ≠ r → Earlier rows r s

def lane (adapter : String) (rows : List OutboxRow) : List OutboxRow :=
  rows.filter fun r => r.targetAdapter = adapter

/-- The number of distinct adapters the outbox has rows for. -/
def Db.adapterCount (db : Db) : ℕ := (db.outbox.rows.map OutboxRow.targetAdapter).dedup.length

/-! ## Eligible rows -/

section Eligible

variable {c : ClaimCall} {cutoff : String} {rows : List OutboxRow} {r s : OutboxRow}

theorem notBusy_iff :
    (rows.all fun s => !(s.outboxId ≠ r.outboxId && s.targetAdapter = r.targetAdapter &&
      s.status = .inProgress && s.leaseUntil.any (c.now < ·))) = true ↔ c.Free rows r := by
  simp only [all_eq_true, Bool.not_eq_true', Bool.and_eq_false_iff,
    decide_eq_false_iff_not, not_not, ClaimCall.Free]
  refine forall₂_congr fun s _ => ?_
  have hlease : s.leaseUntil.any (c.now < ·) = false ↔
      ∀ lease, s.leaseUntil = some lease → lease ≤ c.now := by
    cases s.leaseUntil with
    | none => simp
    | some lease =>
      simp only [Option.any_some, decide_eq_false_iff_not, not_lt, Option.some.injEq, forall_eq']
  tauto

theorem claimable_iff (hfair : c.filters.onePerAdapter = true) :
    r.claimable rows c.now cutoff c.filters = true ↔
      c.eligible cutoff rows r = true ∧ r.targetAdapter ∉ c.filters.excludedAdapters ∧
        c.Free rows r := by
  simp only [ClaimCall.eligible, OutboxRow.claimable, OutboxRow.passesFilters, hfair,
    Bool.and_eq_true, Bool.or_eq_true, Bool.not_eq_true', Bool.not_true, Bool.false_or,
    Bool.not_false, Bool.true_or, notBusy_iff, and_true, contains_eq_mem,
    decide_eq_false_iff_not]
  tauto

theorem lease_le (h : c.eligible cutoff rows r = true) {lease : String}
    (hlease : r.leaseUntil = some lease) : lease ≤ c.now := by
  simp only [ClaimCall.eligible, OutboxRow.claimable, Bool.and_eq_true] at h
  simpa [hlease] using h.1.1.2

theorem ClaimCall.Free.of_eligible (hfree : c.Free rows r)
    (h : c.eligible cutoff rows r = true) (hadapter : s.targetAdapter = r.targetAdapter)
    (hid : ∀ t ∈ rows, t.outboxId = r.outboxId → t = r) : c.Free rows s := by
  intro t ht hne hsame hst lease hlease
  by_cases htr : t.outboxId = r.outboxId
  · obtain rfl := hid t ht htr
    exact lease_le h hlease
  · exact hfree t ht htr (hsame.trans hadapter) hst lease hlease

end Eligible

/-! ## The candidates -/

instance : Std.Total dueOrder := by
  refine ⟨fun r s => ?_⟩
  unfold dueOrder
  rcases lt_trichotomy r.dueAt s.dueAt with h | h | h
  · exact .inl (.inl h)
  · exact (le_total r.createdAt s.createdAt).imp (fun hc => .inr ⟨h, hc⟩)
      fun hc => .inr ⟨h.symm, hc⟩
  · exact .inr (.inl h)

instance : IsTrans OutboxRow dueOrder := by
  refine ⟨fun r s t hrs hst => ?_⟩
  rcases hrs with hrs | ⟨hrs, hrs'⟩ <;> rcases hst with hst | ⟨hst, hst'⟩
  · exact .inl (hrs.trans hst)
  · exact .inl (hst ▸ hrs)
  · exact .inl (hrs ▸ hst)
  · exact .inr ⟨hrs.trans hst, hrs'.trans hst'⟩

variable {rows : List OutboxRow}

theorem before_dueOrder {r s : OutboxRow} : Before dueOrder rows r s ↔ Earlier rows r s := by
  unfold Before dueOrder Earlier
  rcases lt_trichotomy r.dueAt s.dueAt with h | h | h
  · simp [h, h.not_gt, h.ne']
  · rcases lt_trichotomy r.createdAt s.createdAt with hc | hc | hc
    · simp [h, hc, hc.le, hc.not_ge]
    · simp [h, hc]
    · simp [h, hc.not_ge, hc.not_gt, hc.ne']
  · simp [h.not_gt, h.ne']

theorem pair_sublist_filter {r s : OutboxRow} (hr : p r = true)
    (hs : p s = true) : [r, s] <+ rows.filter p ↔ [r, s] <+ rows := by
  constructor
  · exact fun h => h.trans filter_sublist
  · intro h
    have hkept := h.filter p
    rwa [filter_cons_of_pos hr, filter_cons_of_pos hs, filter_nil] at hkept

theorem mem_adapterLeads (hrows : rows.Nodup) {r : OutboxRow} :
    r ∈ adapterLeads (rows.filter p) ↔
      r ∈ rows ∧ p r = true ∧
        ∀ s ∈ rows, p s = true → s ≠ r → s.targetAdapter = r.targetAdapter →
          Earlier rows r s := by
  have hkept := hrows.filter p
  rw [adapterLeads_eq, mem_firsts ((perm_insertionSort dueOrder _).nodup_iff.mpr hkept)]
  simp only [mem_insertionSort, mem_filter, and_imp]
  constructor
  · rintro ⟨⟨hr, hp⟩, hfirst⟩
    refine ⟨hr, hp, ?_⟩
    intro s hs hps hne hadapter
    have hpair := hfirst s hs hps hne hadapter
    rw [pair_sublist_insertionSort_iff hkept (mem_filter.mpr ⟨hr, hp⟩)
      (mem_filter.mpr ⟨hs, hps⟩) hne.symm] at hpair
    rw [← before_dueOrder]
    exact ⟨hpair.1, fun h => (pair_sublist_filter hp hps).mp (hpair.2 h)⟩
  · rintro ⟨hr, hp, hfirst⟩
    refine ⟨⟨hr, hp⟩, ?_⟩
    intro s hs hps hne hadapter
    rw [pair_sublist_insertionSort_iff hkept (mem_filter.mpr ⟨hr, hp⟩)
      (mem_filter.mpr ⟨hs, hps⟩) hne.symm]
    have hearlier := before_dueOrder.mpr (hfirst s hs hps hne hadapter)
    exact ⟨hearlier.1, fun h => (pair_sublist_filter hp hps).mpr (hearlier.2 h)⟩

section Candidates

variable {db : Db} {c : ClaimCall} {cutoff : String}

theorem mem_claimCandidates (hfair : c.filters.onePerAdapter = true)
    (hlimit : (db.adapterCount : ℤ) ≤ c.limit) {r : OutboxRow} :
    r ∈ db.claimCandidates c cutoff ↔
      r ∈ adapterLeads (db.outbox.rows.filter
        (OutboxRow.claimable db.outbox.rows c.now cutoff c.filters)) := by
  have hlength : (adapterLeads (db.outbox.rows.filter
      (OutboxRow.claimable db.outbox.rows c.now cutoff c.filters))).length ≤
      c.limit.toNat := by
    have hle : (adapterLeads (db.outbox.rows.filter
        (OutboxRow.claimable db.outbox.rows c.now cutoff c.filters))).length ≤
        db.adapterCount := by
      refine length_firsts_le ?_
      intro s hs
      exact mem_of_mem_filter ((mem_insertionSort dueOrder).mp hs)
    omega
  have hpos : ¬c.limit < 0 := by omega
  simp only [Db.claimCandidates, hfair, if_true, if_neg hpos]
  rw [take_of_length_le (by rwa [length_insertionSort]), mem_insertionSort]

theorem mem_claimCandidates_iff (cutoff : String) (hfair : c.filters.onePerAdapter = true)
    (hlimit : (db.adapterCount : ℤ) ≤ c.limit) (r : OutboxRow) :
    r ∈ db.claimCandidates c cutoff ↔ c.Chooses cutoff db.outbox.rows r := by
  rw [mem_claimCandidates hfair hlimit, mem_adapterLeads (outbox_nodup db.outbox)]
  constructor
  · rintro ⟨hr, hp, hfirst⟩
    obtain ⟨helig, hincl, hfree⟩ := (claimable_iff hfair).mp hp
    refine ⟨hr, helig, hincl, hfree, ?_⟩
    intro s hs hadapter hs' hne
    refine hfirst s hs ((claimable_iff hfair).mpr ⟨hs', hadapter ▸ hincl, ?_⟩) hne hadapter
    exact hfree.of_eligible helig hadapter fun t ht hid => outbox_eq_of_id _ ht hr hid
  · intro h
    refine ⟨h.row, (claimable_iff hfair).mpr ⟨h.eligible, h.included, h.free⟩, ?_⟩
    intro s hs hp hne hadapter
    exact h.first s hs hadapter ((claimable_iff hfair).mp hp).1 hne

end Candidates

/-! ## The rows claimed -/

section Claimed

variable {db : Db} {c : ClaimCall} {lease cutoff : String}

theorem claimAlone_fair (x : Externals) (hfair : c.filters.onePerAdapter = true)
    (hlimit : (db.adapterCount : ℤ) ≤ c.limit) (htexts : c.texts = .ok (lease, cutoff)) :
    ∃ t claimed f, claimAlone x db c = ⟨{ db with outbox := t }, [(c, .returned claimed)]⟩ ∧
      t.rows = db.outbox.rows.map f ∧
      c.TakesOnly lease db.outbox.rows (c.Chooses cutoff db.outbox.rows) f ∧
      claimed.Nodup ∧
      ∀ r', r' ∈ claimed ↔
        ∃ r, c.Chooses cutoff db.outbox.rows r ∧ r' = r.claim c.now lease c.workerId := by
  have hspec := claimAlone_spec x db htexts
  simp only [mem_claimCandidates_iff cutoff hfair hlimit] at hspec
  exact hspec

theorem exists_chooses (hfair : c.filters.onePerAdapter = true) {r : OutboxRow}
    (hr : r ∈ db.outbox.rows) (helig : c.eligible cutoff db.outbox.rows r = true)
    (hincl : r.targetAdapter ∉ c.filters.excludedAdapters) (hfree : c.Free db.outbox.rows r)
    (hlimit : (db.adapterCount : ℤ) ≤ c.limit) :
    ∃ s, c.Chooses cutoff db.outbox.rows s ∧ s.targetAdapter = r.targetAdapter := by
  have hmem : r ∈ (db.outbox.rows.filter
      (OutboxRow.claimable db.outbox.rows c.now cutoff c.filters)).insertionSort dueOrder :=
    (mem_insertionSort dueOrder).mpr
      (mem_filter.mpr ⟨hr, (claimable_iff hfair).mpr ⟨helig, hincl, hfree⟩⟩)
  obtain ⟨s, hs, hadapter⟩ := exists_mem_firsts OutboxRow.targetAdapter hmem
  refine ⟨s, ?_, hadapter⟩
  rw [← mem_claimCandidates_iff cutoff hfair hlimit, mem_claimCandidates hfair hlimit]
  exact hs

theorem ClaimCall.Chooses.unique (hrows : rows.Nodup) {r s : OutboxRow}
    (hr : c.Chooses cutoff rows r) (hs : c.Chooses cutoff rows s)
    (hadapter : s.targetAdapter = r.targetAdapter) : s = r := by
  by_contra hne
  have hrs := hr.first s hs.row hadapter hs.eligible hne
  have hsr := hs.first r hr.row hadapter.symm hr.eligible (Ne.symm hne)
  rcases hrs with h | ⟨h, h1 | ⟨h1, h2⟩⟩ <;> rcases hsr with h' | ⟨h', h1' | ⟨h1', h2'⟩⟩
  · exact h.not_gt h'
  · exact h.ne h'.symm
  · exact h.ne h'.symm
  · exact h'.ne h.symm
  · exact h1.not_gt h1'
  · exact h1.ne h1'.symm
  · exact h'.ne h.symm
  · exact h1'.ne h1.symm
  · exact not_pair_sublist_swap hrows h2 h2'

end Claimed

/-! ## One adapter apart from the others -/

section Lanes

variable {c : ClaimCall} {lease cutoff : String} {rows : List OutboxRow} {r : OutboxRow}

theorem mem_lane : r ∈ lane adapter rows ↔ r ∈ rows ∧ r.targetAdapter = adapter := by
  simp [lane]

theorem noSiblingFrom_lane (r : OutboxRow) (g : ℤ) :
    r.noSiblingFrom (lane r.targetAdapter rows) g = r.noSiblingFrom rows g := by
  rw [Bool.eq_iff_iff, OutboxRow.noSiblingFrom_iff, OutboxRow.noSiblingFrom_iff]
  constructor
  · intro h s hs hne hidentity
    refine h s (mem_lane.mpr ⟨hs, ?_⟩) hne hidentity
    simp only [OutboxRow.identity, DeliveryIdentity.of, DeliveryIdentity.mk.injEq] at hidentity
    exact hidentity.2.2.1
  · exact fun h s hs => h s (mem_lane.mp hs).1

theorem eligible_lane :
    c.eligible cutoff (lane r.targetAdapter rows) r = c.eligible cutoff rows r := by
  simp only [ClaimCall.eligible, OutboxRow.claimable, OutboxRow.passesFilters,
    noSiblingFrom_lane, Bool.not_false, Bool.true_or]

theorem earlier_lane {s : OutboxRow} (hadapter : s.targetAdapter = r.targetAdapter) :
    Earlier (lane r.targetAdapter rows) r s ↔ Earlier rows r s := by
  unfold Earlier lane
  rw [pair_sublist_filter (by simp) (by simpa using hadapter)]

theorem chooses_lane :
    c.Chooses cutoff (lane r.targetAdapter rows) r ↔ c.Chooses cutoff rows r := by
  constructor
  · rintro ⟨hrow, helig, hincl, hfree, hfirst⟩
    refine ⟨(mem_lane.mp hrow).1, eligible_lane ▸ helig, hincl, ?_, ?_⟩
    · intro s hs hne hadapter
      exact hfree s (mem_lane.mpr ⟨hs, hadapter⟩) hne hadapter
    · intro s hs hadapter hs' hne
      rw [← earlier_lane hadapter]
      refine hfirst s (mem_lane.mpr ⟨hs, hadapter⟩) hadapter ?_ hne
      rw [← hadapter, eligible_lane]
      exact hs'
  · rintro ⟨hrow, helig, hincl, hfree, hfirst⟩
    refine ⟨mem_lane.mpr ⟨hrow, rfl⟩, eligible_lane.trans helig, hincl, ?_, ?_⟩
    · intro s hs
      exact hfree s (mem_lane.mp hs).1
    · intro s hs hadapter hs' hne
      rw [earlier_lane hadapter]
      rw [← hadapter, eligible_lane] at hs'
      exact hfirst s (mem_lane.mp hs).1 hadapter hs' hne

theorem lane_map {rows' : List OutboxRow} {f g : OutboxRow → OutboxRow}
    (hf : c.TakesOnly lease rows (c.Chooses cutoff rows) f)
    (hg : c.TakesOnly lease rows' (c.Chooses cutoff rows') g)
    (h : lane adapter rows = lane adapter rows') :
    lane adapter (rows.map f) = lane adapter (rows'.map g) := by
  have hlane {rows : List OutboxRow} {f : OutboxRow → OutboxRow}
      (hf : c.TakesOnly lease rows (c.Chooses cutoff rows) f) :
      lane adapter (rows.map f) = (lane adapter rows).map f := by
    unfold lane
    rw [filter_map]
    congr 1
    refine filter_congr fun r hr => ?_
    rw [Function.comp_apply, (hf.keeps hr).2.2.2]
  rw [hlane hf, hlane hg, ← h]
  refine map_congr_left fun r hr => ?_
  obtain ⟨hrow, hadapter⟩ := mem_lane.mp hr
  obtain ⟨hrow', -⟩ := mem_lane.mp (h ▸ hr)
  have hiff : c.Chooses cutoff rows r ↔ c.Chooses cutoff rows' r := by
    rw [← chooses_lane, hadapter, h, ← hadapter, chooses_lane]
  by_cases hc : c.Chooses cutoff rows r
  · rw [hf.taken r hrow hc, hg.taken r hrow' (hiff.mp hc)]
  · rw [hf.other r hrow hc, hg.other r hrow' (mt hiff.mpr hc)]

theorem adapterCount_claimAlone (x : Externals) {db : Db}
    (hfair : c.filters.onePerAdapter = true) (hlimit : (db.adapterCount : ℤ) ≤ c.limit) :
    (claimAlone x db c).store.adapterCount = db.adapterCount := by
  cases htexts : c.texts with
  | error e => rw [claimAlone_of_error htexts]
  | ok texts =>
    obtain ⟨t, claimed, f, heq, hrows, hf, -⟩ := claimAlone_fair x hfair hlimit htexts
    rw [heq]
    unfold Db.adapterCount
    rw [hrows, map_map]
    congr 2
    exact map_congr_left fun r hr => (hf.keeps hr).2.2.2

/-- A claim finds the rows of an adapter and leaves them alike in two stores that differ in
the other adapters' rows. -/
theorem lane_claimAlone (x : Externals) {db : Db} (hfair : c.filters.onePerAdapter = true)
    (hlimit : (db.adapterCount : ℤ) ≤ c.limit) (hlimit' : (other.adapterCount : ℤ) ≤ c.limit)
    (h : lane adapter db.outbox.rows = lane adapter other.outbox.rows) :
    lane adapter (claimAlone x db c).store.outbox.rows =
      lane adapter (claimAlone x other c).store.outbox.rows := by
  cases htexts : c.texts with
  | error e =>
    rw [claimAlone_of_error htexts, claimAlone_of_error htexts]
    exact h
  | ok texts =>
    obtain ⟨t, claimed, f, heq, hrows, hf, -⟩ := claimAlone_fair x hfair hlimit htexts
    obtain ⟨t', claimed', g, heq', hrows', hg, -⟩ := claimAlone_fair x hfair hlimit' htexts
    rw [heq, heq']
    rw [hrows, hrows']
    exact lane_map hf hg h

theorem lane_claimInTurn (x : Externals) {db : Db} (calls : List ClaimCall)
    (hcalls : ∀ c ∈ calls, c.filters.onePerAdapter = true ∧
      (db.adapterCount : ℤ) ≤ c.limit ∧ (other.adapterCount : ℤ) ≤ c.limit)
    (h : lane adapter db.outbox.rows = lane adapter other.outbox.rows) :
    lane adapter (claimInTurn x db calls).outbox.rows =
      lane adapter (claimInTurn x other calls).outbox.rows := by
  induction calls generalizing db other with
  | nil => exact h
  | cons c calls ih =>
    obtain ⟨hfair, hlimit, hlimit'⟩ := hcalls c mem_cons_self
    refine ih ?_ (lane_claimAlone x hfair hlimit hlimit' h)
    rw [adapterCount_claimAlone x hfair hlimit, adapterCount_claimAlone x hfair hlimit']
    exact fun d hd => hcalls d (mem_cons_of_mem c hd)

end Lanes

/-- Fair claiming serves every adapter's oldest work. An undisturbed claim of one row per adapter,
with a limit that reaches all adapters, takes and returns exactly the first eligible row of each
adapter that is neither excluded nor busy; with `initial_only` these have never been attempted.
What it does to one adapter's rows does not depend on the others', however many calls are made. -/
theorem fair_claim_serves_oldest (x : Externals) (db : Db) (c : ClaimCall)
    (hfair : c.filters.onePerAdapter = true) (hlimit : (db.adapterCount : ℤ) ≤ c.limit) :
    (∀ e, c.texts = .error e → claimAlone x db c = ⟨db, [(c, .raised e)]⟩) ∧
    (∀ lease cutoff, c.texts = .ok (lease, cutoff) →
      ∃ t claimed f, claimAlone x db c = ⟨{ db with outbox := t }, [(c, .returned claimed)]⟩ ∧
        (∀ r ∈ db.outbox.rows, c.eligible cutoff db.outbox.rows r = true →
          r.targetAdapter ∉ c.filters.excludedAdapters → c.Free db.outbox.rows r →
          ∃ s, c.Chooses cutoff db.outbox.rows s ∧ s.targetAdapter = r.targetAdapter ∧
            lane r.targetAdapter claimed = [s.claim c.now lease c.workerId]) ∧
        (∀ r' ∈ claimed, ∃ r, c.Chooses cutoff db.outbox.rows r ∧
          r' = r.claim c.now lease c.workerId) ∧
        (t.rows = db.outbox.rows.map f ∧ ∀ r ∈ db.outbox.rows,
          (c.Chooses cutoff db.outbox.rows r → f r = r.claim c.now lease c.workerId) ∧
          (¬c.Chooses cutoff db.outbox.rows r → f r = r)) ∧
        (c.filters.initialOnly = true →
          ∀ r ∈ claimed, r.attemptNumber = 0 ∧ r.activeAttempt = none)) ∧
    ∀ other adapter calls, lane adapter db.outbox.rows = lane adapter other.outbox.rows →
      (∀ d ∈ calls, d.filters.onePerAdapter = true ∧ (db.adapterCount : ℤ) ≤ d.limit ∧
        (other.adapterCount : ℤ) ≤ d.limit) →
      lane adapter (claimInTurn x db calls).outbox.rows =
        lane adapter (claimInTurn x other calls).outbox.rows := by
  refine ⟨fun e he => claimAlone_of_error he, ?_, ?_⟩
  · intro lease cutoff htexts
    obtain ⟨t, claimed, f, heq, hrows, hf, hnodup, hclaimed⟩ :=
      claimAlone_fair x hfair hlimit htexts
    refine ⟨t, claimed, f, heq, ?_, fun r' hr' => (hclaimed r').mp hr',
      ⟨hrows, fun r hr => ⟨hf.taken r hr, hf.other r hr⟩⟩, ?_⟩
    · intro r hr helig hincl hfree
      obtain ⟨s, hs, hadapter⟩ := exists_chooses hfair hr helig hincl hfree hlimit
      refine ⟨s, hs, hadapter, ?_⟩
      have hlane : (lane r.targetAdapter claimed).Nodup := hnodup.filter _
      rw [← perm_singleton, perm_ext_iff_of_nodup hlane (nodup_singleton _)]
      intro r'
      rw [mem_lane, mem_singleton, hclaimed]
      constructor
      · rintro ⟨⟨u, hu, rfl⟩, huadapter⟩
        rw [hs.unique (outbox_nodup db.outbox) hu (huadapter.trans hadapter.symm)]
      · rintro rfl
        exact ⟨⟨s, hs, rfl⟩, hadapter⟩
    · intro hinitial r' hr'
      obtain ⟨r, hr, rfl⟩ := (hclaimed r').mp hr'
      have helig := hr.eligible
      simp only [ClaimCall.eligible, OutboxRow.claimable, OutboxRow.passesFilters, hinitial,
        Bool.and_eq_true, Bool.or_eq_true, Bool.not_true, Bool.false_eq_true, false_or,
        decide_eq_true_eq, Option.isNone_iff_eq_none] at helig
      exact helig.2.2.1
  · intro other adapter calls h hcalls
    exact lane_claimInTurn x calls hcalls h

namespace Sample

/-- A row that waits for its first attempt. -/
def queuedUp (outboxId targetAdapter : String) (n : ℕ) : Op :=
  .createOutboxItem
    { outboxId, eventId := "event", routeId := "route", deliveryPlanId := "plan " ++ outboxId
      targetAdapter, attemptNumber := 0 } false none (clock n)

def backlog : List Op :=
  [.append event (clock 0), queuedUp "a" "radio" 1, queuedUp "b" "radio" 2,
    queuedUp "c" "chat" 3]

def fairClaim : ClaimCall :=
  { claimBy "one" "2026-01-01T00:01:00+00:00" with
    limit := 2
    filters := { onePerAdapter := true, initialOnly := true } }

end Sample

open Sample in
/-- The younger row of the other adapter is claimed with the oldest one of the first. -/
theorem fair_claim_serves_oldest_backlog :
    ∃ t claimed, claimAlone externals (stateAfter externals backlog) fairClaim =
        ⟨{ stateAfter externals backlog with outbox := t }, [(fairClaim, .returned claimed)]⟩ ∧
      claimed.map OutboxRow.outboxId = ["a", "c"] ∧
      ∀ r ∈ claimed, r.attemptNumber = 0 ∧ r.activeAttempt = none := by
  have htexts : fairClaim.texts =
      .ok ("2026-01-01T00:02:00+00:00", "2025-12-31T23:56:00+00:00") := by decide +kernel
  obtain ⟨t, claimed, -, heq, -, -, -, hinitial⟩ :=
    (fair_claim_serves_oldest externals (stateAfter externals backlog) fairClaim rfl
      (by decide +kernel)).2.1 _ _ htexts
  refine ⟨t, claimed, heq, ?_, hinitial rfl⟩
  have hresult : ((claimAlone externals (stateAfter externals backlog) fairClaim).result 0).map
      OutboxRow.outboxId = ["a", "c"] := by decide +kernel
  rw [heq] at hresult
  exact hresult

end Medre.Storage
