import Medre.Framework.DatetimeOrder
import Medre.Storage.ContentPermanence

/-! # One effective deadline for the sweep and the native-start fence

`_deadline_bounds` takes the least of normalized texts, `_effective_dispatch_bounds` compares
instants. They part on a released dependency, which only the sweep still counts, and there the
fence refuses for want of authority. -/

namespace Medre.Storage

open List Medre.Framework Tx

variable {what : String} {stored : Option String} {bs : List String} {bounds : List Datetime}
  {r r' seen : OutboxRow} {now : Datetime} {limit : ℤ} {ret : DeadlineRetirement}

/-! ## The stored bounds -/

def Db.hardCeiling? (db : Db) (e : String) : Option String :=
  (db.policies.rows.find? fun p => p.eventId = e).map AccessPolicy.hardCeiling

def Db.targetDependency? (db : Db) (e o : String) : Option Dependency :=
  db.dependencies.rows.find? fun d => d.eventId = e && d.ownerKind = .outbox && d.ownerId = o

/-- `v` is the instant a stored bound denotes, if there is one. -/
inductive Parsed : Option String → Option Datetime → Prop
  | absent : Parsed none none
  | present {text : String} {u : Datetime} (h : parseBoundInstant text = .ok u) :
      Parsed (some text) (some u)

/-- The stored bounds of a row all parse, to these instants. -/
structure BoundsParse (db : Db) (e o : String) (ceiling target frozen : Option Datetime) :
    Prop where
  ceiling : Parsed (db.hardCeiling? e) ceiling
  target : Parsed ((db.targetDependency? e o).bind Dependency.deadline) target
  frozen : ∃ text, frozenPlanDeadline (db.dispatchContext o) = .ok text ∧ Parsed text frozen

theorem utcMicroseconds_ok {text t : String} :
    utcMicroseconds text what = .ok t ↔
      ∃ u, parseBoundInstant text = .ok u ∧ t = u.isoformatMicroseconds := by
  unfold utcMicroseconds parseBoundInstant
  cases Datetime.fromisoformat text with
  | error err => simp
  | ok parsed =>
    cases hzone : parsed.utcoffset with
    | none => simp [hzone]
    | some zone =>
      cases hutc : parsed.astimezoneUtc with
      | error err => simp [hzone, hutc, liftPy]
      | ok u => simp [hzone, hutc, liftPy, eq_comm]

theorem normalizedBound_some :
    normalizedBound what stored = .ok (some bs) ↔
      ∃ v, Parsed stored v ∧ bs = (v.map Datetime.isoformatMicroseconds).toList := by
  cases stored with
  | none =>
    simp only [normalizedBound, Except.ok.injEq, Option.some.injEq]
    constructor
    · rintro rfl
      exact ⟨none, .absent, rfl⟩
    · rintro ⟨v, hv, rfl⟩
      cases hv
      rfl
  | some text =>
    constructor
    · intro h
      simp only [normalizedBound] at h
      split at h
      · rename_i t ht
        cases h
        obtain ⟨u, hu, rfl⟩ := utcMicroseconds_ok.mp ht
        exact ⟨some u, .present hu, rfl⟩
      · split at h <;> cases h
    · rintro ⟨v, hv, rfl⟩
      cases hv with
      | present hu =>
        have ht : utcMicroseconds text what = .ok _ := utcMicroseconds_ok.mpr ⟨_, hu, rfl⟩
        simp only [normalizedBound, ht]
        rfl

theorem parseBound_ok {bs : List Datetime} :
    parseBound stored = .ok bs ↔ ∃ v, Parsed stored v ∧ bs = v.toList := by
  cases stored with
  | none =>
    simp only [parseBound, Except.ok.injEq]
    constructor
    · rintro rfl
      exact ⟨none, .absent, rfl⟩
    · rintro ⟨v, hv, rfl⟩
      cases hv
      rfl
  | some text =>
    constructor
    · intro h
      simp only [parseBound] at h
      split at h
      · rename_i u hu
        cases h
        exact ⟨some u, .present hu, rfl⟩
      · cases h
    · rintro ⟨v, hv, rfl⟩
      cases hv with
      | present hu =>
        simp only [parseBound, hu]
        rfl

theorem Parsed.unique {v w : Option Datetime} (hv : Parsed stored v) (hw : Parsed stored w) :
    v = w := by
  cases hv with
  | absent =>
    cases hw
    rfl
  | present h =>
    cases hw with
    | present h' =>
      rw [h] at h'
      cases h'
      rfl

theorem Parsed.utc {u : Datetime} (h : Parsed stored (some u)) : u.Utc := by
  cases h with
  | present h =>
    unfold parseBoundInstant at h
    split at h
    · cases h
    · split at h
      · cases h
      · exact Datetime.astimezoneUtc_utc (liftPy_ok.mp h)

section Bounds

variable {db : Db} {e o : String} {ceiling target frozen : Option Datetime}

theorem deadlineBounds_some :
    db.deadlineBounds e o = .ok (some bs) ↔
      ∃ ceiling target frozen, BoundsParse db e o ceiling target frozen ∧
        bs = (ceiling.toList ++ target.toList ++ frozen.toList).map
          Datetime.isoformatMicroseconds := by
  constructor
  · intro h
    unfold Db.deadlineBounds at h
    dsimp only at h
    split at h
    · cases h
    · cases h
    · rename_i b1 h1
      split at h
      · cases h
      · cases h
      · rename_i b2 h2
        split at h
        · split at h <;> cases h
        · rename_i text hfrozen
          split at h
          · cases h
          · cases h
          · rename_i b3 h3
            cases h
            obtain ⟨v1, hv1, rfl⟩ := normalizedBound_some.mp h1
            obtain ⟨v2, hv2, rfl⟩ := normalizedBound_some.mp h2
            obtain ⟨v3, hv3, rfl⟩ := normalizedBound_some.mp h3
            refine ⟨v1, v2, v3, ⟨hv1, hv2, text, hfrozen, hv3⟩, ?_⟩
            cases v1 <;> cases v2 <;> cases v3 <;> rfl
  · rintro ⟨v1, v2, v3, ⟨hv1, hv2, text, hfrozen, hv3⟩, rfl⟩
    have h1 : normalizedBound "Event ceiling" (db.hardCeiling? e) = .ok (some _) :=
      normalizedBound_some.mpr ⟨v1, hv1, rfl⟩
    have h2 : normalizedBound "Target deadline"
        ((db.targetDependency? e o).bind Dependency.deadline) = .ok (some _) :=
      normalizedBound_some.mpr ⟨v2, hv2, rfl⟩
    have h3 : normalizedBound "Frozen plan deadline" text = .ok (some _) :=
      normalizedBound_some.mpr ⟨v3, hv3, rfl⟩
    unfold Db.hardCeiling? at h1
    unfold Db.targetDependency? at h2
    unfold Db.deadlineBounds
    simp only [h1, h2, hfrozen, h3]
    cases v1 <;> cases v2 <;> cases v3 <;> rfl

theorem targetKey_iff {d : Dependency} : (d.eventId = e && d.ownerKind = .outbox &&
    d.ownerId = o) = true ↔ d.key = (e, .outbox, o) := by
  simp only [Bool.and_eq_true, decide_eq_true_eq, Dependency.key, Prod.mk.injEq, and_assoc]

theorem unreleased_target (db : Db) (e o : String) :
    (db.dependencies.rows.find? fun d => d.eventId = e && d.ownerKind = .outbox &&
        d.ownerId = o && d.releasedAt.isNone) =
      (db.targetDependency? e o).filter fun d => d.releasedAt.isNone := by
  unfold Db.targetDependency?
  cases hfind : db.dependencies.rows.find? fun d =>
      d.eventId = e && d.ownerKind = .outbox && d.ownerId = o with
  | none =>
    refine find?_eq_none.mpr fun d hd hmatch => ?_
    rw [Bool.and_eq_true] at hmatch
    exact find?_eq_none.mp hfind d hd hmatch.1
  | some d =>
    have hd := mem_of_find?_eq_some hfind
    have hmatch := find?_some hfind
    have hsame : ∀ d' ∈ db.dependencies.rows, (d'.eventId = e && d'.ownerKind = .outbox &&
        d'.ownerId = o && d'.releasedAt.isNone) = true → d' = d := fun d' hd' hmatch' =>
      eq_of_key db.dependencies hd' hd ((targetKey_iff.mp (Bool.and_eq_true _ _ ▸ hmatch').1).trans
        (targetKey_iff.mp hmatch).symm)
    cases hopen : d.releasedAt.isNone with
    | false =>
      rw [Option.filter_some, hopen]
      refine find?_eq_none.mpr fun d' hd' hmatch' => ?_
      rw [hsame d' hd' hmatch', hopen, Bool.and_false] at hmatch'
      cases hmatch'
    | true =>
      rw [Option.filter_some, hopen]
      exact find?_of_unique hd (by rw [hmatch, hopen]; rfl) hsame

/-- The instant the fence reads off the dependency. -/
def openTarget (db : Db) (e o : String) (target : Option Datetime) : Option Datetime :=
  if (db.targetDependency? e o).any (fun d => d.releasedAt.isNone) then target else none

theorem effectiveDispatchBounds_ok (h : BoundsParse db e o ceiling target frozen) :
    db.effectiveDispatchBounds e o =
      .ok (ceiling.toList ++ frozen.toList ++ (openTarget db e o target).toList) := by
  obtain ⟨hv1, hv2, text, hfrozen, hv3⟩ := h
  have h1 : parseBound (db.hardCeiling? e) = .ok _ := parseBound_ok.mpr ⟨ceiling, hv1, rfl⟩
  have h3 : parseBound text = .ok _ := parseBound_ok.mpr ⟨frozen, hv3, rfl⟩
  have h2 : parseBound (((db.targetDependency? e o).filter fun d => d.releasedAt.isNone).bind
      Dependency.deadline) = .ok (openTarget db e o target).toList := by
    refine parseBound_ok.mpr ⟨_, ?_, rfl⟩
    unfold openTarget
    cases hdep : db.targetDependency? e o with
    | none => exact .absent
    | some d =>
      rw [hdep] at hv2
      cases hopen : d.releasedAt.isNone with
      | false => simpa [Option.filter_some, hopen] using Parsed.absent
      | true => simpa [Option.filter_some, hopen] using hv2
  unfold Db.hardCeiling? at h1
  unfold Db.effectiveDispatchBounds
  simp only [unreleased_target, h1, hfrozen, h3, h2]

theorem min_le_iff {us : List Datetime} {t : Datetime} (hus : ∀ u ∈ us, u.Utc) (ht : t.Utc) :
    (∃ m, (us.map Datetime.isoformatMicroseconds).min? = some m ∧ m ≤ t.isoformatMicroseconds) ↔
      ∃ u ∈ us, u.instant ≤ t.instant := by
  constructor
  · rintro ⟨m, hm, hle⟩
    obtain ⟨u, hu, rfl⟩ := mem_map.mp (min?_mem hm)
    exact ⟨u, hu, (Datetime.isoformatMicroseconds_le_iff (hus u hu) ht).mp hle⟩
  · rintro ⟨u, hu, hle⟩
    have hmem := mem_map_of_mem (f := Datetime.isoformatMicroseconds) hu
    cases hm : (us.map Datetime.isoformatMicroseconds).min? with
    | none =>
      rw [min?_eq_none_iff.mp hm] at hmem
      exact absurd hmem not_mem_nil
    | some m =>
      refine ⟨m, rfl, ?_⟩
      exact ((min?_eq_some_iff.mp hm).2 _ hmem).trans
        ((Datetime.isoformatMicroseconds_le_iff (hus u hu) ht).mpr hle)

theorem BoundsParse.utc (h : BoundsParse db e o ceiling target frozen) :
    ∀ u ∈ ceiling.toList ++ target.toList ++ frozen.toList, u.Utc := by
  intro u hu
  simp only [mem_append, Option.mem_toList] at hu
  obtain ⟨hc, ht, text, -, hf⟩ := h
  rcases hu with (rfl | rfl) | rfl
  · exact hc.utc
  · exact ht.utc
  · exact hf.utc

theorem effectiveDeadlineElapsed_utc {t : Datetime} (ht : t.Utc)
    (h : db.effectiveDispatchBounds e o = .ok bounds) :
    db.effectiveDeadlineElapsed e o t.isoformatMicroseconds =
      .ok (bounds.any fun b => b.instant ≤ t.instant) := by
  unfold Db.effectiveDeadlineElapsed
  simp only [h, Datetime.fromisoformat_utc ht]

/-- The sweep finds a deadline elapsed exactly when the fence does, or when the dependency was
released past its deadline. -/
theorem deadlineBounds_elapsed_iff {t : Datetime} (ht : t.Utc)
    (h : BoundsParse db e o ceiling target frozen) :
    ∃ bounds elapsed, db.deadlineBounds e o = .ok (some bounds) ∧
      db.effectiveDeadlineElapsed e o t.isoformatMicroseconds = .ok elapsed ∧
      ((∃ m, bounds.min? = some m ∧ m ≤ t.isoformatMicroseconds) ↔
        elapsed = true ∨ ∃ d, db.targetDependency? e o = some d ∧ d.releasedAt.isSome = true ∧
          ∃ u, Parsed d.deadline (some u) ∧ u.instant ≤ t.instant) := by
  refine ⟨_, _, deadlineBounds_some.mpr ⟨ceiling, target, frozen, h, rfl⟩,
    effectiveDeadlineElapsed_utc ht (effectiveDispatchBounds_ok h), ?_⟩
  rw [min_le_iff h.utc ht]
  simp only [any_eq_true, mem_append, Option.mem_toList, decide_eq_true_eq]
  -- the fence and the sweep share the ceiling and the frozen deadline
  have htarget := h.target
  constructor
  · rintro ⟨u, (hu | hu) | hu, hle⟩
    · exact .inl ⟨u, .inl (.inl hu), hle⟩
    · subst hu
      cases hdep : db.targetDependency? e o with
      | none =>
        rw [hdep] at htarget
        cases htarget
      | some d =>
        rw [hdep] at htarget
        cases hr : d.releasedAt with
        | none =>
          refine .inl ⟨u, .inr ?_, hle⟩
          simp [openTarget, hdep, hr]
        | some at' => exact .inr ⟨d, rfl, by rw [hr]; rfl, u, htarget, hle⟩
    · exact .inl ⟨u, .inl (.inr hu), hle⟩
  · rintro (⟨u, (hu | hu) | hu, hle⟩ | ⟨d, hdep, hr, u, hu, hle⟩)
    · exact ⟨u, .inl (.inl hu), hle⟩
    · exact ⟨u, .inr hu, hle⟩
    · unfold openTarget at hu
      split at hu
      · exact ⟨u, .inl (.inr hu), hle⟩
      · cases hu
    · rw [hdep] at htarget
      exact ⟨u, .inl (.inr (htarget.unique hu)), hle⟩

end Bounds

/-! ## A bound stays with its row -/

/-- `u` is one of the bounds the store keeps for the row. -/
inductive HasBound (db : Db) (e o : String) (u : Datetime) : Prop
  | ceiling (h : Parsed (db.hardCeiling? e) (some u))
  | target (h : Parsed ((db.targetDependency? e o).bind Dependency.deadline) (some u))
  | frozen (text : Option String) (hctx : frozenPlanDeadline (db.dispatchContext o) = .ok text)
      (h : Parsed text (some u))

section Kept

variable {db db' : Db} {e o : String} {u : Datetime}

theorem hardCeiling?_some {c : String} :
    db.hardCeiling? e = some c ↔ ∃ p ∈ db.policies.rows, p.eventId = e ∧ p.hardCeiling = c := by
  unfold Db.hardCeiling?
  constructor
  · intro h
    obtain ⟨p, hfind, rfl⟩ := Option.map_eq_some_iff.mp h
    exact ⟨p, mem_of_find?_eq_some hfind, by simpa using find?_some hfind, rfl⟩
  · rintro ⟨p, hp, hevent, rfl⟩
    rw [find?_of_unique hp (decide_eq_true hevent) fun p' hp' hevent' =>
      eq_of_key db.policies hp' hp ((of_decide_eq_true hevent').trans hevent.symm)]
    rfl

theorem targetDependency?_some {d : Dependency} :
    db.targetDependency? e o = some d ↔ d ∈ db.dependencies.rows ∧ d.key = (e, .outbox, o) := by
  constructor
  · intro h
    have hmatch := find?_some h
    exact ⟨mem_of_find?_eq_some h, targetKey_iff.mp hmatch⟩
  · rintro ⟨hd, hkey⟩
    exact find?_of_unique hd (targetKey_iff.mpr hkey) fun d' hd' hmatch =>
      eq_of_key db.dependencies hd' hd ((targetKey_iff.mp hmatch).trans hkey.symm)

theorem HasBound.mono (h : HasBound db e o u)
    (hceiling : ∀ p ∈ db.policies.rows, p ∈ db'.policies.rows)
    (htarget : ∀ d ∈ db.dependencies.rows, ∃ d' ∈ db'.dependencies.rows,
      d'.key = d.key ∧ d'.deadline = d.deadline)
    (hcontext : db'.dispatchContext o = db.dispatchContext o) : HasBound db' e o u := by
  cases h with
  | ceiling h =>
    cases hc : db.hardCeiling? e with
    | none =>
      rw [hc] at h
      cases h
    | some c =>
      obtain ⟨p, hp, hevent, hpc⟩ := hardCeiling?_some.mp hc
      refine .ceiling ?_
      rw [hardCeiling?_some.mpr ⟨p, hceiling p hp, hevent, hpc⟩, ← hc]
      exact h
  | target h =>
    cases hd : db.targetDependency? e o with
    | none =>
      rw [hd] at h
      cases h
    | some d =>
      obtain ⟨hmem, hkey⟩ := targetDependency?_some.mp hd
      obtain ⟨d', hmem', hkey', hdeadline⟩ := htarget d hmem
      refine .target ?_
      rw [targetDependency?_some.mpr ⟨hmem', hkey'.trans hkey⟩]
      rw [hd] at h
      simp only [Option.bind_some] at h ⊢
      rw [hdeadline]
      exact h
  | frozen text hctx h => exact .frozen text (hcontext ▸ hctx) h

theorem dispatchContext_congr (hr : r ∈ db.outbox.rows) (hr' : r' ∈ db'.outbox.rows)
    (hid : r.outboxId = o) (hid' : r'.outboxId = o) (hmeta : r'.metadata = r.metadata)
    (hsnap : ∀ s : Snapshot, s.outboxId = o →
      (s ∈ db'.snapshots.rows ↔ s ∈ db.snapshots.rows)) :
    db'.dispatchContext o = db.dispatchContext o := by
  have hrow : db.outboxRow? o = some r := (outboxRow?_eq_some_iff db o r).mpr ⟨hr, hid⟩
  have hrow' : db'.outboxRow? o = some r' := (outboxRow?_eq_some_iff db' o r').mpr ⟨hr', hid'⟩
  unfold Db.dispatchContext
  rw [hrow, hrow']
  cases hfind : db.snapshots.rows.find? fun s => s.outboxId = o with
  | none =>
    have hnone : (db'.snapshots.rows.find? fun s => s.outboxId = o) = none := by
      refine find?_eq_none.mpr fun s hs hmatch => ?_
      have hsid := of_decide_eq_true hmatch
      exact absurd hmatch (find?_eq_none.mp hfind s ((hsnap s hsid).mp hs))
    rw [hnone]
    exact hmeta
  | some s =>
    have hsid : s.outboxId = o := by simpa using find?_some hfind
    have hs := (hsnap s hsid).mpr (mem_of_find?_eq_some hfind)
    rw [find?_of_unique hs (decide_eq_true hsid) fun s' hs' hsid' =>
      snapshot_eq_of_id db'.snapshots hs' hs ((of_decide_eq_true hsid').trans hsid.symm)]

theorem Rewrites.dispatchContext {op : Op} {f : OutboxRow → OutboxRow} (h : Rewrites op db db' f)
    (hr : r ∈ db.outbox.rows) (hlive : (f r).status.isTerminal = false) :
    db'.dispatchContext r.outboxId = db.dispatchContext r.outboxId := by
  have hr' : f r ∈ db'.outbox.rows := by
    rw [h.rows]
    exact mem_map_of_mem hr
  obtain ⟨hid, -, -, -, hmeta⟩ := h.keys hr
  refine dispatchContext_congr hr hr' rfl hid hmeta ?_
  intro s hs
  rw [h.snapshots, and_iff_left_iff_imp]
  intro _ r0 hr0 hid0 _
  rw [outbox_eq_of_id db.outbox hr0 hr (hid0.trans hs)]
  exact hlive

theorem dispatchContext_later (x : Externals) (hr : r ∈ db.outbox.rows) (ops : List Op)
    (hr' : r' ∈ (run (step x) db ops).outbox.rows) (hid : r'.outboxId = r.outboxId)
    (hlive : r'.status.isTerminal = false) :
    (run (step x) db ops).dispatchContext r.outboxId = db.dispatchContext r.outboxId := by
  have hinv : ∃ s ∈ (run (step x) db ops).outbox.rows, s.outboxId = r.outboxId ∧
      (s.status.isTerminal = true ∨ (run (step x) db ops).dispatchContext r.outboxId =
        db.dispatchContext r.outboxId) := by
    refine run_invariant (I := fun later : Db => ∃ s ∈ later.outbox.rows,
      s.outboxId = r.outboxId ∧ (s.status.isTerminal = true ∨
        later.dispatchContext r.outboxId = db.dispatchContext r.outboxId)) ?_
      ⟨r, hr, rfl, .inr rfl⟩ ops
    rintro later op ⟨s, hs, hsid, hcases⟩
    rcases hcases with hterm | hctx
    · exact ⟨s, terminal_final x hs hterm [op], hsid, .inl hterm⟩
    · cases step_outbox x later op with
      | rewritten f hf owned =>
        have hmem : f s ∈ (step x later op).1.outbox.rows := by
          rw [hf.rows]
          exact mem_map_of_mem hs
        refine ⟨f s, hmem, (hf.keys hs).1.trans hsid, ?_⟩
        cases hterm : (f s).status.isTerminal with
        | true => exact .inl rfl
        | false =>
          right
          rw [← hctx, ← hsid]
          exact hf.dispatchContext hs hterm
      | created row snapshot hc rows snapshots =>
        have hmem : s ∈ (step x later op).1.outbox.rows := by
          rw [rows]
          exact mem_append_left _ hs
        refine ⟨s, hmem, hsid, .inr ?_⟩
        rw [← hctx, ← hsid]
        refine dispatchContext_congr hs hmem rfl rfl rfl ?_
        intro snap hsnap
        rw [snapshots, mem_append, or_iff_left_iff_imp]
        intro hnew
        exact absurd ((hc.snapshot_owner hnew).symm.trans hsnap) (created_id_ne rows hs)
  obtain ⟨s, hs, hsid, hcases⟩ := hinv
  have hsame := outbox_eq_of_id _ hs hr' (hsid.trans hid.symm)
  rw [hsame, hlive] at hcases
  exact hcases.resolve_left nofun

theorem HasBound.later (x : Externals) (h : HasBound db e o u) (hr : r ∈ db.outbox.rows)
    (hid : r.outboxId = o) (ops : List Op) (hr' : r' ∈ (run (step x) db ops).outbox.rows)
    (hid' : r'.outboxId = o) (hlive : r'.status.isTerminal = false) :
    HasBound (run (step x) db ops) e o u := by
  refine h.mono ?_ ?_ ?_
  · intro p hp
    exact run_invariant (I := fun db : Db => p ∈ db.policies.rows)
      (fun db op hp => (step_content x db op).policies p hp) hp ops
  · intro d hd
    refine run_invariant (I := fun db : Db => ∃ d' ∈ db.dependencies.rows,
      d'.key = d.key ∧ d'.deadline = d.deadline) ?_ ⟨d, hd, rfl, rfl⟩ ops
    rintro db op ⟨d', hd', hkey, hdeadline⟩
    obtain ⟨d'', hd'', hstems⟩ := (step_content x db op).kept d' hd'
    exact ⟨d'', hd'', hstems.key_eq.trans hkey, hstems.deadline_eq.trans hdeadline⟩
  · rw [← hid]
    exact dispatchContext_later x hr ops hr' (hid'.trans hid.symm) hlive

end Kept

/-! ## The fence at an elapsed bound -/

section Fence

variable {db db' : Db} {e o observed : String} {u t : Datetime}

theorem BoundsParse.hasBound {ceiling target frozen : Option Datetime}
    (h : BoundsParse db e o ceiling target frozen)
    (hu : u ∈ ceiling.toList ++ target.toList ++ frozen.toList) : HasBound db e o u := by
  simp only [mem_append, Option.mem_toList] at hu
  obtain ⟨hc, ht, text, hctx, hf⟩ := h
  rcases hu with (rfl | rfl) | rfl
  · exact .ceiling hc
  · exact .target ht
  · exact .frozen text hctx hf

theorem mem_effectiveDispatchBounds (h : db.effectiveDispatchBounds e o = .ok bounds)
    (hu : HasBound db e o u) :
    u ∈ bounds ∨ KeyReleased db (e, .outbox, o) := by
  unfold Db.effectiveDispatchBounds at h
  dsimp only at h
  split at h
  · cases h
  rename_i b1 h1
  split at h
  · cases h
  rename_i text hctx
  split at h
  · cases h
  rename_i b2 h2
  split at h
  · cases h
  rename_i b3 h3
  cases h
  simp only [mem_append]
  cases hu with
  | ceiling hc =>
    obtain ⟨v, hv, rfl⟩ := parseBound_ok.mp h1
    obtain rfl := hc.unique hv
    exact .inl (.inl (.inl (by simp)))
  | frozen text' hctx' hf =>
    rw [hctx] at hctx'
    cases hctx'
    obtain ⟨v, hv, rfl⟩ := parseBound_ok.mp h2
    obtain rfl := hf.unique hv
    exact .inl (.inl (.inr (by simp)))
  | target ht =>
    rw [unreleased_target] at h3
    cases hd : db.targetDependency? e o with
    | none =>
      rw [hd] at ht
      cases ht
    | some d =>
      rw [hd] at ht h3
      cases hr : d.releasedAt with
      | some at' =>
        obtain ⟨hmem, hkey⟩ := targetDependency?_some.mp hd
        exact .inr ⟨d, hmem, hkey, by rw [hr]; rfl⟩
      | none =>
        have hopen : d.releasedAt.isNone = true := by rw [hr]; rfl
        rw [Option.filter_some, hopen] at h3
        obtain ⟨v, hv, rfl⟩ := parseBound_ok.mp h3
        obtain rfl := ht.unique hv
        exact .inl (.inr (by simp))

theorem fence_open (ht : t.Utc) (hu : HasBound db e o u) (hle : u.instant ≤ t.instant)
    (hopen : db.effectiveDeadlineElapsed e o t.isoformatMicroseconds = .ok false) :
    KeyReleased db (e, .outbox, o) := by
  cases hbounds : db.effectiveDispatchBounds e o with
  | error err =>
    simp only [Db.effectiveDeadlineElapsed, hbounds] at hopen
    split at hopen <;> cases hopen
  | ok bounds =>
    rw [effectiveDeadlineElapsed_utc ht hbounds] at hopen
    rcases mem_effectiveDispatchBounds hbounds hu with hmem | hreleased
    · have hnone : ∀ b ∈ bounds, ¬b.instant ≤ t.instant := by simpa using hopen
      exact absurd hle (hnone u hmem)
    · exact hreleased

theorem HasBound.kept (h : HasBound db e o u) {e' : String}
    (hm : MandatoryObserved e' observed db db') : HasBound db' e o u := by
  obtain ⟨deps, rfl, hdeps⟩ := hm
  refine h.mono (fun p hp => hp) ?_ rfl
  intro d hd
  refine ⟨_, (hdeps _).mpr ⟨d, hd, rfl⟩, d.observedAt_key _ _, ?_⟩
  unfold Dependency.observedAt
  split <;> rfl

/-- A row holds a live claim and one of its bounds has passed. -/
structure Overdue (db : Db) (e o observed : String) : Prop where
  row : ∃ r ∈ db.outbox.rows, r.outboxId = o ∧ r.eventId = e ∧ r.status.isTerminal = false
  bound : ∃ u, u.Utc ∧ HasBound db e o u ∧ u.isoformatMicroseconds ≤ observed

/-- No start of an overdue row is authorized, whatever has happened to the row. -/
theorem overdue_refused (x : Externals) (before instead : List Op) {w : String} {a : ℤ}
    (h : Overdue (stateAfter x before) e o t.isoformatMicroseconds) (ht : t.Utc)
    (hnow : utc now = .ok t.isoformatMicroseconds) :
    (step x (stateAfter x (before ++ instead)) (.authorizeNativeSubmission e o w a now)).2 ≠
      .ok (.flag true) := by
  intro hans
  obtain ⟨b, hb, hrun⟩ := run_of_answer rfl hans
  cases hb
  obtain ⟨observed, hobserved, hm, hallowed⟩ := run_authorizeNativeSubmission hrun
  rw [hnow] at hobserved
  cases hobserved
  obtain ⟨⟨r', hr', howns⟩, hopen, hauthority⟩ := hallowed rfl
  obtain ⟨⟨r, hr, hid, -, -⟩, u, hutc, hbound, hle⟩ := h
  have hlater : stateAfter x (before ++ instead) = run (step x) (stateAfter x before) instead :=
    run_append ..
  simp only [OutboxRow.ownsAttempt, Bool.and_eq_true, decide_eq_true_eq] at howns
  have hlive : r'.status.isTerminal = false := by
    rw [howns.1.1.1.2]
    rfl
  -- the row the fence reads is the one of the observed store
  have hbound' : HasBound (step x (stateAfter x (before ++ instead))
      (.authorizeNativeSubmission e o w a now)).1 e o u := by
    refine HasBound.kept ?_ hm
    rw [hlater]
    refine hbound.later x hr hid instead ?_ howns.1.1.1.1.1 hlive
    obtain ⟨deps, hdb', -⟩ := hm
    rw [hdb'] at hr'
    rw [← hlater]
    exact hr'
  have hreleased := fence_open ht hbound'
    ((Datetime.isoformatMicroseconds_le_iff hutc ht).mp hle) hopen
  have hplain := hm.ownersPlain (ownersPlain_stateAfter x (before ++ instead))
  rw [hreleased.contentAuthority hplain] at hauthority
  cases hauthority

end Fence

/-! ## What the sweep retires -/

section Sweep

variable {db db' : Db} {e o observed : String}

theorem Overdue.of_swept (hs : Swept now limit db db') (hpolicies : db'.policies = db.policies)
    (h : Overdue db' e o observed) :
    Overdue db e o observed := by
  obtain ⟨⟨f, hf⟩, hgrows⟩ := hs
  obtain ⟨⟨r', hr', hid, hevent, hlive⟩, u, hutc, hbound, hle⟩ := h
  rw [hf.rows, mem_map] at hr'
  obtain ⟨r, hr, rfl⟩ := hr'
  have hkeys := hf.keys hr
  have hid' : r.outboxId = o := hkeys.1.symm.trans hid
  refine ⟨⟨r, hr, hid', hkeys.2.1.symm.trans hevent, ?_⟩, u, hutc, ?_, hle⟩
  · rw [← Bool.not_eq_true]
    intro hterm
    rw [hf.terminal_eq hr hterm, hterm] at hlive
    cases hlive
  · refine hbound.mono (fun p hp => hpolicies ▸ hp) ?_ ?_
    · intro d' hd'
      obtain ⟨d, hd, hstems⟩ := (hgrows.origin d' hd').resolve_right id
      exact ⟨d, hd, hstems.key_eq.symm, hstems.deadline_eq.symm⟩
    · rw [← hid']
      exact (hf.dispatchContext hr hlive).symm

theorem overdue_of_retireCandidate {effective : String} (hpage : PageOf db [seen])
    (hbound : ∃ u, u.Utc ∧ HasBound db seen.eventId seen.outboxId u ∧
      u.isoformatMicroseconds ≤ observed)
    (h : (retireCandidate observed effective seen).run db = .ok (some ret, db')) :
    Overdue db ret.eventId ret.outboxId observed := by
  obtain ⟨hclaimable, hevent⟩ := hpage seen mem_cons_self
  simp only [retireCandidate, run_bind, run_query] at h
  obtain ⟨rows, _, ⟨rfl, rfl⟩, n, db1, hupd, hrest⟩ := h
  obtain ⟨t, hu, rfl, rfl⟩ := run_updateTable.mp hupd
  rcases run_ite.mp hrest with ⟨-, hpure⟩ | ⟨hcount, hrest⟩
  · cases (run_pure.mp hpure).1
  · simp only [run_bind, run_pure] at hrest
    obtain ⟨_, db2, -, _, db3, -, _, db4, -, hret, -⟩ := hrest
    cases hret
    refine ⟨?_, hbound⟩
    obtain ⟨r, hr, hguard⟩ := countP_pos_iff.mp (not_not.mp hcount ▸ Nat.one_pos)
    simp only [OutboxRow.retirable, Bool.and_eq_true, decide_eq_true_eq] at hguard
    obtain ⟨⟨⟨⟨⟨hid, hstatus⟩, -⟩, -⟩, -⟩, -⟩ := hguard
    refine ⟨r, hr, hid, hevent r hr hid, ?_⟩
    rw [hstatus]
    revert hclaimable
    cases seen.status <;> simp [OutboxStatus.isClaimable, OutboxStatus.isTerminal]

theorem overdue_of_sweepRow (hpage : PageOf db [seen])
    (h : (sweepRow observed seen).run db = .ok (some ret, db')) :
    Overdue db ret.eventId ret.outboxId observed := by
  simp only [sweepRow, run_bind, run_query, run_lift] at h
  obtain ⟨_, _, ⟨rfl, rfl⟩, bounds, _, ⟨hbounds, rfl⟩, hrest⟩ := h
  cases hmin : bounds.bind List.min? with
  | none =>
    rw [hmin] at hrest
    cases (run_pure.mp hrest).1
  | some effective =>
    rw [hmin] at hrest
    rcases run_ite.mp hrest with ⟨-, hpure⟩ | ⟨hlt, hretire⟩
    · cases (run_pure.mp hpure).1
    · obtain ⟨bs, rfl, hmin⟩ := Option.bind_eq_some_iff.mp hmin
      obtain ⟨ceiling, target, frozen, hparse, rfl⟩ := deadlineBounds_some.mp hbounds
      obtain ⟨u, hu, rfl⟩ := mem_map.mp (min?_mem hmin)
      exact overdue_of_retireCandidate hpage
        ⟨u, hparse.utc u hu, hparse.hasBound hu, not_lt.mp hlt⟩ hretire

/-- Parts of a sweep that leave the ceilings alone. -/
def sweepingUnder (now : Datetime) (limit : ℤ) : Evolution Db where
  rel db db' := Swept now limit db db' ∧ db'.policies = db.policies
  refl db := ⟨Swept.refl now limit db, rfl⟩
  trans hab hbc := ⟨Swept.trans hab.1 hbc.1, hbc.2.trans hab.2⟩

theorem overdue_of_sweepLoop (now : Datetime) (limit : ℤ) {n budget fuel : ℕ} {s a : Sweep}
    (h : (sweepLoop observed n budget fuel s).run db = .ok (a, db')) :
    ∀ ret ∈ a.retired, ret ∈ s.retired ∨ Overdue db ret.eventId ret.outboxId observed := by
  refine (evolves_sweepLoop (E := sweepingUnder now limit) (P := fun db ret =>
    Overdue db ret.eventId ret.outboxId observed) now limit
    (fun _ _ _ hrel hover => hover.of_swept hrel.1 hrel.2) ?_ h).2
  intro seen a db db' hpage hrow
  refine ⟨⟨swept_sweepRow hpage hrow, ?_⟩, ?_⟩
  · exact follows_sweepRow (footprint_rules [.outbox, .dependencies, .snapshots, .diagnostics]
      fun _ => False) (by decide) _ _ _ hrow .policies (by decide)
  · rintro ret rfl
    exact overdue_of_sweepRow hpage hrow

theorem overdue_of_retireExpired {a : List DeadlineRetirement}
    (h : (retireExpiredUnstartedOutbox now limit).run db = .ok (a, db')) :
    ∃ t : Datetime, t.Utc ∧
      utcMicroseconds now.isoformat "Cleanup clock" = .ok t.isoformatMicroseconds ∧
      ∀ ret ∈ a, Overdue db ret.eventId ret.outboxId t.isoformatMicroseconds := by
  simp only [retireExpiredUnstartedOutbox, run_bind, run_lift, run_require,
    run_query, run_pure] at h
  obtain ⟨observed, _, ⟨hclock, rfl⟩, _, _, ⟨-, rfl⟩, _, _, ⟨rfl, rfl⟩, s, db1, hloop, _, db2,
    hcursor, rfl, rfl⟩ := h
  obtain ⟨t, ht, rfl⟩ := utcMicroseconds_ok.mp hclock
  refine ⟨t, (Parsed.present ht).utc, hclock, ?_⟩
  intro ret hret
  exact (overdue_of_sweepLoop now limit hloop ret hret).resolve_left not_mem_nil

end Sweep

/-- The sweep and the fence agree on every row whose bounds parse: a row the sweep has retired
would not have been started at that instant, had any calls come in the sweep's place. -/
theorem deadline_sweep_matches_fence (x : Externals) :
    (∀ (db : Db) (r : OutboxRow) (t : Datetime) (ceiling target frozen : Option Datetime),
      r ∈ db.outbox.rows → t.Utc →
      BoundsParse db r.eventId r.outboxId ceiling target frozen →
      ∃ bounds elapsed, db.deadlineBounds r.eventId r.outboxId = .ok (some bounds) ∧
        db.effectiveDeadlineElapsed r.eventId r.outboxId t.isoformatMicroseconds = .ok elapsed ∧
        ((∃ m, bounds.min? = some m ∧ m ≤ t.isoformatMicroseconds) ↔
          elapsed = true ∨
            ∃ d, db.targetDependency? r.eventId r.outboxId = some d ∧
              d.releasedAt.isSome = true ∧
              ∃ u, Parsed d.deadline (some u) ∧ u.instant ≤ t.instant)) ∧
    ∀ (before : List Op) (now : Datetime) (limit : ℤ) (retired : List DeadlineRetirement),
      (step x (stateAfter x before) (.retireExpiredUnstartedOutbox now limit)).2 =
        .ok (.retired retired) →
      ∃ t : Datetime, t.Utc ∧
        utcMicroseconds now.isoformat "Cleanup clock" = .ok t.isoformatMicroseconds ∧
        ∀ ret ∈ retired, ∀ (instead : List Op) (w : String) (a : ℤ) (now' : Datetime),
          utc now' = .ok t.isoformatMicroseconds →
          (step x (stateAfter x (before ++ instead))
            (.authorizeNativeSubmission ret.eventId ret.outboxId w a now')).2 ≠
              .ok (.flag true) := by
  constructor
  · intro db r t ceiling target frozen _ ht hparse
    exact deadlineBounds_elapsed_iff ht hparse
  · intro before now limit retired hans
    obtain ⟨a, ha, hrun⟩ := run_of_answer rfl hans
    cases ha
    obtain ⟨t, ht, hclock, hover⟩ := overdue_of_retireExpired hrun
    refine ⟨t, ht, hclock, ?_⟩
    intro ret hret instead w a now' hnow
    exact overdue_refused x before instead (hover ret hret) ht hnow

namespace Sample

/-- The sample event, admitted until minute 10, and a delivery that waits. -/
def waiting : List Op :=
  [.admitIngress event none .live false (some (clock 10)) (clock 0),
    .createOutboxItem pending false none (clock 1)]

def takenUp : List Op :=
  [.claimDueOutboxItems "2026-01-01T00:02:00+00:00" "retry" 3600 ["outbox"] {},
    .reserveOutboxAttempt "outbox" "retry" 1 (clock 2)]

def retirement : DeadlineRetirement :=
  { outboxId := "outbox", eventId := "event", attemptNumber := 1, priorStatus := .pending
    effectiveDeadline := "2026-01-01T00:10:00.000000+00:00"
    retiredAt := "2026-01-01T00:20:00.000000+00:00" }

end Sample

open Sample in
/-- The worker could have started at minute 5, but not at minute 20, where both
readings find the deadline of minute 10 elapsed. -/
theorem deadline_sweep_matches_fence_waiting :
    (∃ bounds elapsed, (stateAfter externals waiting).deadlineBounds "event" "outbox" =
        .ok (some bounds) ∧
      (stateAfter externals waiting).effectiveDeadlineElapsed "event" "outbox"
        (clock 20).isoformatMicroseconds = .ok elapsed ∧
      (∃ m, bounds.min? = some m ∧ m ≤ (clock 20).isoformatMicroseconds) ∧ elapsed = true) ∧
    (step externals (stateAfter externals waiting)
        (.retireExpiredUnstartedOutbox (clock 20) 10)).2 = .ok (.retired [retirement]) ∧
    (step externals (stateAfter externals (waiting ++ takenUp))
        (.authorizeNativeSubmission "event" "outbox" "retry" 2 (clock 5))).2 =
      .ok (.flag true) ∧
    (step externals (stateAfter externals (waiting ++ takenUp))
        (.authorizeNativeSubmission "event" "outbox" "retry" 2 (clock 20))).2 ≠
      .ok (.flag true) := by
  have hswept : (step externals (stateAfter externals waiting)
      (.retireExpiredUnstartedOutbox (clock 20) 10)).2 = .ok (.retired [retirement]) := by
    have hrows : (((retireExpiredUnstartedOutbox (clock 20) 10).run
        (stateAfter externals waiting)).map Prod.fst).toOption = some [retirement] := by
      decide +kernel
    cases hrun : (retireExpiredUnstartedOutbox (clock 20) 10).run
        (stateAfter externals waiting) with
    | error err =>
      rw [hrun] at hrows
      cases hrows
    | ok result =>
      obtain ⟨rows, db'⟩ := result
      rw [hrun] at hrows
      cases hrows
      exact congrArg Prod.snd (step_of_run rfl hrun)
  have hutc : (clock 20).Utc := ⟨(Datetime.inRange_iff _).mp rfl, rfl⟩
  have hparse : BoundsParse (stateAfter externals waiting) "event" "outbox" (some (clock 10))
      (some (clock 10)) none := ⟨.present rfl, .present rfl, none, rfl, .absent⟩
  obtain ⟨bounds, elapsed, hbounds, helapsed, hiff⟩ :=
    (deadline_sweep_matches_fence externals).1 (stateAfter externals waiting) _ (clock 20) _ _ _
      mem_cons_self hutc hparse
  have htrue : elapsed = true := by
    have hfence : (Except.ok elapsed : Except Err Bool) = .ok _ :=
      helapsed.symm.trans (effectiveDeadlineElapsed_utc hutc (effectiveDispatchBounds_ok hparse))
    cases hfence
    rfl
  obtain ⟨t, -, hclock, hrefused⟩ :=
    (deadline_sweep_matches_fence externals).2 waiting (clock 20) 10 [retirement] hswept
  refine ⟨⟨bounds, elapsed, hbounds, helapsed, hiff.mpr (.inl htrue), htrue⟩, hswept, rfl,
    hrefused retirement mem_cons_self takenUp "retry" 2 (clock 20) ?_⟩
  rw [← hclock]
  rfl

end Medre.Storage
