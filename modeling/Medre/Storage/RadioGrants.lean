import Mathlib.Data.List.MinMax
import Medre.Storage.RadioStep

/-! # A radio packet is granted at most once

Of the checkpoints of a delivery only the one of its latest attempt can move; a later attempt
carries a granted part along or is not bound at all. -/

namespace Medre.Storage

open List Medre.Framework Medre.Rendering

variable {r' row : RadioRow} {i : DeliveryIdentity} {k : ℤ}
  {result : StoredRadioAttempt}

/-- The checkpoints name their own attempt, and their parent has reached it. -/
structure RadioStore (db : Db) : Prop where
  own : ∀ row ∈ db.radio.rows, row.provenance.outboxId = row.outboxId ∧
    row.provenance.attemptNumber = row.attemptNumber
  parent : ∀ row ∈ db.radio.rows, ∃ r ∈ db.outbox.rows, r.outboxId = row.outboxId ∧
    r.identity = row.provenance.identity ∧ row.attemptNumber ≤ r.generation

/-- `row` is the checkpoint of the latest attempt of its delivery. -/
def Latest (db : Db) (row : RadioRow) : Prop :=
  row ∈ db.radio.rows ∧ ∀ other ∈ db.radio.rows,
    other.provenance.identity = row.provenance.identity →
      other.attemptNumber ≤ row.attemptNumber

/-- Part `k` of the delivery has been started, as far as its latest attempt
knows. -/
def Started (db : Db) (identity : DeliveryIdentity) (k : ℤ) : Prop :=
  (∃ row ∈ db.radio.rows, row.provenance.identity = identity) ∧
    ∀ row, Latest db row → row.provenance.identity = identity →
      ∃ q ∈ row.parts, q.ordinal = k ∧ q.state ≠ .unsent

section Store

variable {db db' : Db}

theorem RadioStore.mem_history (h : RadioStore db) :
    row ∈ db.radioHistory i ↔ row ∈ db.radio.rows ∧ row.provenance.identity = i := by
  simp only [Db.radioHistory, mem_filter, any_eq_true, Bool.and_eq_true, decide_eq_true_eq]
  refine and_congr_right fun hrow => ?_
  obtain ⟨r, hr, hid, hident, -⟩ := h.parent row hrow
  constructor
  · rintro ⟨p, hp, hpid, hpident⟩
    rw [← hident, ← hpident, outbox_eq_of_id db.outbox hp hr (hpid.trans hid.symm)]
  · intro hi
    exact ⟨r, hr, hid, hident.trans hi⟩

/-- Behind the fence: no checkpoint of the delivery is ahead of a claimed attempt,
and one at the attempt is its own. -/
theorem RadioStore.behind (h : RadioStore db) {claim : DeliveryAttemptProvenance}
    (hf : Fenced db claim) (hrow : row ∈ db.radio.rows)
    (hi : row.provenance.identity = claim.identity) :
    row.attemptNumber ≤ claim.attemptNumber ∧
      (row.attemptNumber = claim.attemptNumber → row.outboxId = claim.outboxId) := by
  obtain ⟨r, hr, hid, hident, hgen, hfence⟩ := hf
  obtain ⟨p, hp, hpid, hpident, hle⟩ := h.parent row hrow
  by_cases hsame : p.outboxId = r.outboxId
  · have hpr := outbox_eq_of_id db.outbox hp hr hsame
    subst hpr
    exact ⟨hgen ▸ hle, fun _ => hpid.symm.trans hid⟩
  · have hlt := hfence p hp hsame (by rw [hpident, hi, hident])
    refine ⟨by omega, fun heq => ?_⟩
    omega

theorem RadioStore.latest_of_fenced (h : RadioStore db) (hrow : row ∈ db.radio.rows)
    (hf : Fenced db row.provenance) :
    Latest db row ∧ ∀ other, Latest db other →
      other.provenance.identity = row.provenance.identity → other = row := by
  have hown := h.own row hrow
  refine ⟨⟨hrow, ?_⟩, ?_⟩
  · intro other hother hi
    rw [← hown.2]
    exact (h.behind hf hother hi).1
  · rintro other ⟨hother, hmax⟩ hi
    obtain ⟨hle, heq⟩ := h.behind hf hother hi
    have hattempt : other.attemptNumber = row.provenance.attemptNumber :=
      le_antisymm hle (hown.2 ▸ hmax row hrow hi.symm)
    refine Storage.eq_of_key db.radio hother hrow ?_
    rw [heq hattempt, hown.1, hattempt, hown.2]

theorem exists_latest (hrow : row ∈ db.radio.rows) :
    ∃ top, Latest db top ∧ top.provenance.identity = row.provenance.identity := by
  let rows := db.radio.rows.filter fun r => r.provenance.identity = row.provenance.identity
  have hrows : row ∈ rows := mem_filter.mpr ⟨hrow, decide_eq_true rfl⟩
  cases htop : rows.argmax RadioRow.attemptNumber with
  | none =>
    rw [argmax_eq_none.mp htop] at hrows
    exact absurd hrows not_mem_nil
  | some top =>
    have hmem := mem_filter.mp (argmax_mem htop)
    have hi : top.provenance.identity = row.provenance.identity := of_decide_eq_true hmem.2
    refine ⟨top, ⟨hmem.1, ?_⟩, hi⟩
    intro other hother hother'
    exact le_of_mem_argmax (mem_filter.mpr ⟨hother, decide_eq_true (hother'.trans hi)⟩) htop

/-! ## Steps -/

theorem Replaces.origin (h : Replaces row result db db') (hr' : r' ∈ db'.radio.rows) :
    ∃ r ∈ db.radio.rows, r'.provenance = r.provenance ∧ r'.outboxId = r.outboxId ∧
      r'.attemptNumber = r.attemptNumber ∧
      r'.parts = if r = row then result.progress.parts else r.parts := by
  obtain ⟨now, hrows⟩ := h
  rw [hrows, mem_map] at hr'
  obtain ⟨r, hr, rfl⟩ := hr'
  refine ⟨r, hr, ?_⟩
  by_cases heq : r = row
  · rw [if_pos heq, if_pos heq]
    exact ⟨rfl, rfl, rfl, rfl⟩
  · rw [if_neg heq, if_neg heq]
    exact ⟨rfl, rfl, rfl, rfl⟩

theorem Replaces.kept (h : Replaces row result db db') {r : RadioRow}
    (hr : r ∈ db.radio.rows) :
    ∃ r' ∈ db'.radio.rows, r'.provenance = r.provenance ∧
      r'.attemptNumber = r.attemptNumber := by
  obtain ⟨now, hrows⟩ := h
  refine ⟨_, hrows ▸ mem_map_of_mem hr, ?_⟩
  by_cases heq : r = row
  · rw [if_pos heq]
    exact ⟨rfl, rfl⟩
  · rw [if_neg heq]
    exact ⟨rfl, rfl⟩

theorem radioStore_step (x : Externals) (db : Db) (op : Op) (h : RadioStore db) :
    RadioStore (step x db op).1 := by
  -- the parent of an old checkpoint only advances
  have hparent : ∀ {provenance : DeliveryAttemptProvenance} {o : String} {a : ℤ},
      (∃ r ∈ db.outbox.rows, r.outboxId = o ∧ r.identity = provenance.identity ∧
        a ≤ r.generation) →
      ∃ r ∈ (step x db op).1.outbox.rows, r.outboxId = o ∧ r.identity = provenance.identity ∧
        a ≤ r.generation := by
    rintro provenance o a ⟨r, hr, hid, hident, hle⟩
    obtain ⟨r', hr', hid', hident', hle'⟩ := step_advances x db op r hr
    exact ⟨r', hr', hid'.trans hid, hident'.trans hident, hle.trans hle'⟩
  cases step_radioWrite x db op with
  | same hsame denied refused =>
    exact ⟨fun row hrow => h.own row (hsame ▸ hrow),
      fun row hrow => hparent (h.parent row (hsame ▸ hrow))⟩
  | @bound _ _ _ row _ binding rows denied answer =>
    refine ⟨?_, ?_⟩
    · intro row' hrow'
      rw [rows, mem_append, mem_singleton] at hrow'
      rcases hrow' with hold | rfl
      · exact h.own row' hold
      · exact ⟨binding.ownOutbox, binding.ownAttempt⟩
    · intro row' hrow'
      rw [rows, mem_append, mem_singleton] at hrow'
      rcases hrow' with hold | rfl
      · exact hparent (h.parent row' hold)
      · obtain ⟨r, hr, hid, hident, hgen, -⟩ := binding.fenced
        exact hparent ⟨r, hr, hid.trans binding.ownOutbox, hident, by rw [hgen, binding.ownAttempt]⟩
  | @moved row saved result hrow decoded fenced own reached hcheck granted refused =>
    refine ⟨?_, ?_⟩
    · intro row' hrow'
      obtain ⟨r, hr, hprov, hid, hattempt, -⟩ := hcheck.origin hrow'
      rw [hprov, hid, hattempt]
      exact h.own r hr
    · intro row' hrow'
      obtain ⟨r, hr, hprov, hid, hattempt, -⟩ := hcheck.origin hrow'
      rw [hprov, hid, hattempt]
      exact hparent (h.parent r hr)

theorem Replaces.latest (h : Replaces row result db db') (hr' : Latest db' r') :
    ∃ r, Latest db r ∧ r'.provenance = r.provenance ∧
      r'.parts = if r = row then result.progress.parts else r.parts := by
  obtain ⟨r, hr, hprov, -, hattempt, hparts⟩ := h.origin hr'.1
  refine ⟨r, ⟨hr, ?_⟩, hprov, hparts⟩
  intro other hother hi
  obtain ⟨other', hother', hprov', hattempt'⟩ := h.kept hother
  rw [← hattempt, ← hattempt']
  exact hr'.2 other' hother' (by rw [hprov', hprov, hi])

theorem started_step (x : Externals) (db : Db) (op : Op) (h : RadioStore db) (hs : Started db i k) :
    Started (step x db op).1 i k := by
  obtain ⟨⟨old, hold, hi⟩, hlatest⟩ := id hs
  cases step_radioWrite x db op with
  | same hsame denied refused =>
    unfold Started Latest
    rw [hsame]
    exact hs
  | @bound _ _ _ row _ binding rows denied answer =>
    have hkept : old ∈ (step x db op).1.radio.rows := by
      rw [rows]
      exact mem_append_left _ hold
    refine ⟨⟨old, hkept, hi⟩, ?_⟩
    rintro r ⟨hr, hmax⟩ hri
    rw [rows, mem_append, mem_singleton] at hr
    have hrow : row ∈ (step x db op).1.radio.rows := by
      rw [rows]
      exact mem_append_right _ (mem_singleton.mpr rfl)
    by_cases hother : row.provenance.identity = i
    · -- the new row is the latest, and it is bound over the latest there was
      have hnewer : ∀ s ∈ db.radio.rows, s.provenance.identity = i →
          s.attemptNumber < row.attemptNumber := by
        intro s hs hsi
        rw [← (h.own s hs).2]
        exact binding.newer (h.mem_history.mpr ⟨hs, hsi.trans hother.symm⟩)
      rcases hr with hr | rfl
      · have hle := hmax row hrow (hother.trans hri.symm)
        exact absurd (hnewer r hr hri) (not_lt.mpr hle)
      · rcases binding.carried with hunsent | ⟨top, htop, hkeeps, hall⟩
        · obtain ⟨top, htop, htopi⟩ := exists_latest hold
          obtain ⟨q, hq, -, hstate⟩ := hlatest top htop (htopi.trans hi)
          exact absurd (hunsent top (h.mem_history.mpr
            ⟨htop.1, (htopi.trans hi).trans hother.symm⟩) q hq) hstate
        · obtain ⟨htopmem, htopi⟩ := h.mem_history.mp htop
          have htoplatest : Latest db top := by
            refine ⟨htopmem, fun s hs hsi => ?_⟩
            rw [← (h.own s hs).2, ← (h.own top htopmem).2]
            exact hall s (h.mem_history.mpr ⟨hs, hsi.trans htopi⟩)
          obtain ⟨q, hq, hqk, hstate⟩ := hlatest top htoplatest (htopi.trans hother)
          obtain ⟨q', hq', hord, hstate'⟩ := hkeeps q hq hstate
          exact ⟨q', hq', hord.trans hqk, hstate'⟩
    · -- a binding of another delivery
      rcases hr with hr | rfl
      · refine hlatest r ⟨hr, fun s hs hsi => hmax s ?_ hsi⟩ hri
        rw [rows]
        exact mem_append_left _ hs
      · exact absurd hri hother
  | @moved row saved result hrow decoded fenced own reached hcheck granted refused =>
    refine ⟨?_, ?_⟩
    · obtain ⟨r', hr', hprov, -⟩ := hcheck.kept hold
      exact ⟨r', hr', by rw [hprov, hi]⟩
    · intro r' hr' hri
      obtain ⟨r, hr, hprov, hparts⟩ := hcheck.latest hr'
      obtain ⟨q, hq, hqk, hstate⟩ := hlatest r hr (hprov ▸ hri)
      by_cases heq : r = row
      · subst heq
        rw [hparts, if_pos rfl]
        rw [← (decodeRow_ok decoded).2.1] at hq
        obtain ⟨q', hq', hord, hstate'⟩ := reached.keepsStarted q hq hstate
        exact ⟨q', hq', hord.trans hqk, hstate'⟩
      · rw [hparts, if_neg heq]
        exact ⟨q, hq, hqk, hstate⟩

theorem granted_step (x : Externals) (db : Db) (op : Op) (h : RadioStore db)
    (hg : grantsPart i k (op, (step x db op).2) = true) :
    ¬Started db i k ∧ Started (step x db op).1 i k := by
  cases step_radioWrite x db op with
  | same hsame denied refused =>
    rw [denied i k] at hg
    cases hg
  | @bound _ _ _ row _ binding rows denied answer =>
    rw [denied i k] at hg
    cases hg
  | @moved row saved result hrow decoded fenced own reached hcheck granted refused =>
    obtain ⟨hi, hbegin⟩ := granted i k hg
    obtain ⟨⟨u, hu, huk, hunsent⟩, -, q, hq, hqk, hstate⟩ := RadioAttemptProgress.begin_ok hbegin
    obtain ⟨hlatest, honly⟩ := h.latest_of_fenced hrow fenced
    refine ⟨?_, ?_, ?_⟩
    · rintro ⟨-, hstarted⟩
      obtain ⟨p, hp, hpk, hpstate⟩ := hstarted row hlatest hi
      rw [← (decodeRow_ok decoded).2.1] at hp
      rw [saved.progress.eq_of_ordinal hp hu (hpk.trans huk.symm)] at hpstate
      exact hpstate hunsent
    · obtain ⟨r', hr', hprov, -⟩ := hcheck.kept hrow
      exact ⟨r', hr', by rw [hprov, hi]⟩
    · intro r' hr' hri
      obtain ⟨r, hr, hprov, hparts⟩ := hcheck.latest hr'
      rw [hparts, if_pos (honly r hr (by rw [← hprov, hri, hi]))]
      exact ⟨q, hq, hqk, hstate⟩

end Store

theorem radioStore_empty : RadioStore Db.empty :=
  ⟨fun _ h => absurd h not_mem_nil, fun _ h => absurd h not_mem_nil⟩

/-! ## Runs -/

/-- In every interleaving each part of a delivery is granted at most once. -/
theorem radio_part_granted_once (x : Externals) (ops : List Op) (identity : DeliveryIdentity)
    (k : ℤ) :
    ((trace (step x) Db.empty ops).filter (grantsPart identity k)).length ≤ 1 := by
  have hrun : RadioStore (run (step x) Db.empty ops) ∧
      ((trace (step x) Db.empty ops).filter (grantsPart identity k)).length ≤ 1 ∧
      (¬Started (run (step x) Db.empty ops) identity k →
        ((trace (step x) Db.empty ops).filter (grantsPart identity k)).length = 0) := by
    refine run_history (I := fun calls db => RadioStore db ∧
      (calls.filter (grantsPart identity k)).length ≤ 1 ∧
      (¬Started db identity k → (calls.filter (grantsPart identity k)).length = 0)) ?_ ?_ ops
    · exact ⟨radioStore_empty, Nat.zero_le _, fun _ => rfl⟩
    · rintro calls db op ⟨hstore, hone, hnone⟩
      refine ⟨radioStore_step x db op hstore, ?_⟩
      rw [filter_append, length_append]
      by_cases hg : grantsPart identity k (op, (step x db op).2) = true
      · obtain ⟨hfresh, hstarted⟩ := granted_step x db op hstore hg
        rw [hnone hfresh, filter_cons_of_pos hg]
        exact ⟨le_refl _, fun hno => absurd hstarted hno⟩
      · rw [filter_cons_of_neg hg]
        refine ⟨hone, fun hno => hnone fun hs => hno ?_⟩
        exact started_step x db op hstore hs
  exact hrun.2.1

end Medre.Storage
