import Medre.Rendering.RadioAttempts
import Medre.Storage.Generations

/-! # What a call does to the radio checkpoints

Four calls write them, under the outbox claim of their attempt: one adds a row for a newer
attempt, and the others move the parts of one row forward. -/

namespace Medre.Storage

open List Medre.Framework Medre.Rendering Tx

variable {row : RadioRow} {expected result saved : StoredRadioAttempt}
  {claim provenance : DeliveryAttemptProvenance} {bound progress : RadioAttemptProgress}
  {history : List StoredRadioAttempt} {plan : RadioTextPlan} {codec : HandoffCodec}
  {a predecessor : Option StoredRadioAttempt} {w : Option String} {now observed : Datetime}
  {ordinal : ℤ} {deadline : Option Datetime}

/-- The current claim of the attempt is fenced: its row stands at the attempt,
and every other row of the delivery behind it. -/
def Fenced (db : Db) (claim : DeliveryAttemptProvenance) : Prop :=
  ∃ r ∈ db.outbox.rows, r.outboxId = claim.outboxId ∧ r.identity = claim.identity ∧
    r.generation = claim.attemptNumber ∧
    ∀ s ∈ db.outbox.rows, s.outboxId ≠ r.outboxId → s.identity = r.identity →
      s.generation < claim.attemptNumber

def RadioRow.checkpoint (parts : List RadioPartProgress) (revision : ℤ) (now : String)
    (row : RadioRow) : RadioRow :=
  { row with parts, revision, updatedAt := now }

/-- `db'` is `db` with `result` as the checkpoint in `row`. -/
def Replaces (row : RadioRow) (result : StoredRadioAttempt) (db db' : Db) : Prop :=
  ∃ now, db'.radio.rows = db.radio.rows.map fun r =>
    if r = row then r.checkpoint result.progress.parts result.revision now else r

/-- The answer `a` replaced the expected checkpoint, under a fenced claim. -/
def Moves (expected : StoredRadioAttempt) (next : RadioAttemptProgress → Prop)
    (a : Option StoredRadioAttempt) (db db' : Db) : Prop :=
  ∃ row ∈ db.radioRow? expected.provenance.outboxId expected.provenance.attemptNumber,
    decodeRow row = .ok expected ∧ Fenced db expected.provenance ∧
    ∃ result : StoredRadioAttempt, result.provenance = expected.provenance ∧
      next result.progress ∧ a = some result ∧ Replaces row result db db'

/-- The row a binding inserts, with the history, the initial progress of its plan and the
checkpoint it stores. -/
structure Binding (codec : HandoffCodec) (predecessor : Option StoredRadioAttempt) (db : Db)
    (history : List StoredRadioAttempt) (initial : RadioAttemptProgress) (row : RadioRow)
    (stored : StoredRadioAttempt) : Prop where
  fenced : Fenced db row.provenance
  planned : RadioAttemptProgress.bind row.provenance.outboxId row.provenance.attemptNumber
    initial.plan = .ok initial
  decoded : decodeAll (db.radioHistory row.provenance.identity) = .ok history
  fresh : bindChecks row.provenance initial.plan history = .ok true
  inherits : codec.boundProgress initial history predecessor = .ok (some stored.progress)
  ownOutbox : row.provenance.outboxId = row.outboxId
  ownAttempt : row.provenance.attemptNumber = row.attemptNumber
  plan : row.plan = initial.toData ∧ row.planFingerprint = initial.plan.fingerprint
  checkpoint : stored.provenance = row.provenance ∧ stored.progress.parts = row.parts ∧
    stored.revision = row.revision

/-! ## Decoding -/

theorem liftText_ok {α : Type} {r : Except String α} {a : α} : liftText r = .ok a ↔ r = .ok a := by
  cases r <;> simp [liftText]

theorem make_stored {revision : ℤ}
    (h : StoredRadioAttempt.make provenance progress revision = .ok saved) :
    saved.provenance = provenance ∧ saved.progress = progress ∧ saved.revision = revision := by
  unfold StoredRadioAttempt.make at h
  split at h
  · cases h
    exact ⟨rfl, rfl, rfl⟩
  · cases h

theorem StoredRadioAttempt.make_self (s : StoredRadioAttempt) :
    StoredRadioAttempt.make s.provenance s.progress s.revision = .ok s :=
  dif_pos ⟨s.ownOutbox, s.ownAttempt, s.counted⟩

/-- A row decodes to the checkpoint it stores over the initial snapshot of its plan. -/
theorem decodeRow_iff :
    decodeRow row = .ok saved ↔
      ∃ baseline, RadioAttemptProgress.fromData row.plan row.outboxId row.attemptNumber
          row.planFingerprint = .ok baseline ∧
        (∀ p ∈ baseline.parts, p.state = .unsent) ∧
        (saved.progress.outboxId = baseline.outboxId ∧
          saved.progress.attemptNumber = baseline.attemptNumber ∧
          saved.progress.plan = baseline.plan) ∧
        saved.provenance = row.provenance ∧ saved.progress.parts = row.parts ∧
        saved.revision = row.revision := by
  constructor
  · intro h
    have hbody : decodeBody row = .ok saved := by
      unfold decodeRow at h
      split at h
      · cases h
        assumption
      · cases h
    unfold decodeBody at hbody
    simp only [bind, Except.bind] at hbody
    split at hbody
    · cases hbody
    rename_i baseline hbaseline
    split at hbody
    · cases hbody
    rename_i hunsent
    split at hbody
    · cases hbody
    split at hbody
    · cases hbody
    rename_i progress hprogress
    obtain ⟨hprov, rfl, hrev⟩ := make_stored hbody
    obtain ⟨hid, hattempt, hplan, hparts⟩ := RadioAttemptProgress.make_ok (liftText_ok.mp hprogress)
    refine ⟨baseline, liftText_ok.mp hbaseline, ?_, ⟨hid, hattempt, hplan⟩, hprov, hparts, hrev⟩
    intro p hp
    by_contra hstate
    exact hunsent (any_eq_true.mpr ⟨p, hp, decide_eq_true hstate⟩)
  · rintro ⟨baseline, hbaseline, hunsent, ⟨hid, hattempt, hplan⟩, hprov, hparts, hrev⟩
    have hlength : row.parts.length = baseline.parts.length := by
      have hsaved := (checkProgress_iff.mp saved.progress.valid).2.2.2.1
      have hbase := (checkProgress_iff.mp baseline.valid).2.2.2.1
      rw [← hparts, hsaved, hbase, hplan]
    have hmake : RadioAttemptProgress.make baseline.outboxId baseline.attemptNumber baseline.plan
        row.parts = .ok saved.progress := by
      rw [← hid, ← hattempt, ← hplan, ← hparts]
      exact saved.progress.make_self
    have hbody : decodeBody row = .ok saved := by
      simp only [decodeBody, hbaseline, liftText, bind, Except.bind, hmake]
      rw [if_neg, if_neg (not_not.mpr hlength), ← hprov, ← hrev, saved.make_self]
      intro hany
      obtain ⟨p, hp, hstate⟩ := any_eq_true.mp hany
      exact of_decide_eq_true hstate (hunsent p hp)
    rw [decodeRow, hbody]

theorem decodeRow_ok (h : decodeRow row = .ok saved) :
    saved.provenance = row.provenance ∧ saved.progress.parts = row.parts ∧
      saved.revision = row.revision := by
  obtain ⟨-, -, -, -, hsaved⟩ := decodeRow_iff.mp h
  exact hsaved

theorem decodeAll_ok {rows : List RadioRow} (h : decodeAll rows = .ok history) :
    (∀ row ∈ rows, ∃ saved ∈ history, decodeRow row = .ok saved) ∧
      ∀ saved ∈ history, ∃ row ∈ rows, decodeRow row = .ok saved := by
  induction rows generalizing history with
  | nil =>
    cases h
    exact ⟨fun _ hr => absurd hr not_mem_nil, fun _ hs => absurd hs not_mem_nil⟩
  | cons row rows ih =>
    simp only [decodeAll, bind, Except.bind] at h
    split at h
    · cases h
    · rename_i saved hsaved
      split at h
      · cases h
      · rename_i rest hrest
        cases h
        obtain ⟨hrows, hhistory⟩ := ih hrest
        simp only [forall_mem_cons, exists_mem_cons_iff]
        exact ⟨⟨.inl hsaved, fun r hr => .inr (hrows r hr)⟩, .inl hsaved,
          fun s hs => .inr (hhistory s hs)⟩

/-! ## The history of a binding -/

theorem bindChecks_ok (h : bindChecks provenance plan history = .ok true) :
    ∀ saved ∈ history, saved.provenance.attemptNumber < provenance.attemptNumber := by
  induction history with
  | nil => exact fun _ hs => absurd hs not_mem_nil
  | cons first history ih =>
    unfold bindChecks at h
    split at h
    · cases h
    · split at h
      · cases h
      · split at h
        · cases h
        · rename_i hnot
          intro saved hsaved
          rcases mem_cons.mp hsaved with rfl | hsaved
          · exact not_le.mp (not_or.mp hnot).2
          · exact ih h saved hsaved

theorem latestAttempt_ok {latest : StoredRadioAttempt} (h : latestAttempt history = some latest) :
    latest ∈ history ∧
      ∀ saved ∈ history, saved.provenance.attemptNumber ≤ latest.provenance.attemptNumber := by
  -- the fold keeps a largest element of what it has seen
  have hfold : ∀ (rest : List StoredRadioAttempt) (m : StoredRadioAttempt),
      let best := rest.foldl (fun m t =>
        if m.provenance.attemptNumber < t.provenance.attemptNumber then t else m) m
      best ∈ m :: rest ∧ ∀ saved ∈ m :: rest,
        saved.provenance.attemptNumber ≤ best.provenance.attemptNumber := by
    intro rest
    induction rest with
    | nil =>
      intro m
      exact ⟨mem_cons_self, fun s hs => (mem_singleton.mp hs) ▸ le_refl _⟩
    | cons t rest ih =>
      intro m
      obtain ⟨hmem, hmax⟩ := ih
        (if m.provenance.attemptNumber < t.provenance.attemptNumber then t else m)
      simp only [foldl_cons, mem_cons, forall_eq_or_imp] at hmem hmax ⊢
      obtain ⟨hbest, hrest⟩ := hmax
      split at hbest
      · rename_i hlt
        rw [if_pos hlt] at hmem ⊢
        rw [if_pos hlt] at hrest
        exact ⟨.inr hmem, (le_of_lt hlt).trans hbest, hbest, hrest⟩
      · rename_i hle
        rw [if_neg hle] at hmem ⊢
        rw [if_neg hle] at hrest
        exact ⟨hmem.imp_right .inr, hbest, (not_lt.mp hle).trans hbest, hrest⟩
  cases history with
  | nil => cases h
  | cons s rest =>
    cases h
    exact hfold rest s

/-- The part a continuation inherits for `p`. -/
def HandoffCodec.Inherited (codec : HandoffCodec) (provenance : DeliveryAttemptProvenance)
    (p q : RadioPartProgress) : Prop :=
  ∃ e, codec.fromPart p provenance = .ok e ∧
    q = { ordinal := p.ordinal, state := .accepted, handoffId := some (codec.encode e) }

theorem acceptedPart_inherited {part accepted : RadioPartProgress}
    (h : codec.acceptedPart saved history part = .ok accepted) :
    codec.Inherited saved.provenance part accepted := by
  simp only [HandoffCodec.acceptedPart, bind, Except.bind] at h
  split at h
  · cases h
  rename_i e he
  split at h
  · split at h
    · cases h
    split at h
    · cases h
    split at h
    · cases h
    split at h
    · cases h
    split at h
    · cases h
    split at h
    · cases h
    cases h
    exact ⟨e, he, rfl⟩
  · cases h

/-- An inherited list holds every started part of its attempt: an attempt with an uncertain part is
refused. -/
theorem acceptedParts_ok {parts inherited : List RadioPartProgress}
    (h : codec.acceptedParts saved history parts = .ok inherited) :
    KeepsStarted parts inherited := by
  induction parts generalizing inherited with
  | nil => exact fun _ hp => absurd hp not_mem_nil
  | cons part parts ih =>
    unfold HandoffCodec.acceptedParts at h
    split at h
    · cases h
    · cases h
    · rename_i hunsent
      intro p hp hstate
      rcases mem_cons.mp hp with rfl | hp
      · exact absurd hunsent hstate
      · exact ih h p hp hstate
    · simp only [bind, Except.bind] at h
      split at h
      · cases h
      · rename_i accepted haccepted
        split at h
        · cases h
        · rename_i rest hrest
          cases h
          obtain ⟨e, -, rfl⟩ := acceptedPart_inherited haccepted
          intro p hp hstate
          rcases mem_cons.mp hp with rfl | hp
          · exact ⟨_, mem_cons_self, rfl, nofun⟩
          · obtain ⟨q, hq, hqp⟩ := ih hrest p hp hstate
            exact ⟨q, mem_cons_of_mem _ hq, hqp⟩

theorem continuation_inv {latest : StoredRadioAttempt}
    (h : codec.continuation progress latest history = .ok (some bound)) :
    ∃ inherited, codec.acceptedPrefix latest history = .ok inherited ∧
      codec.extendsAll history inherited history = .ok true ∧
      RadioAttemptProgress.make progress.outboxId progress.attemptNumber progress.plan
        (inherited ++ progress.parts.drop inherited.length) = .ok bound := by
  unfold HandoffCodec.continuation at h
  simp only [bind, Except.bind] at h
  split at h
  · cases h
  rename_i inherited hinherited
  split at h
  · cases h
  split at h
  · cases h
  rename_i extends? hextends
  split at h
  · cases h
  rename_i htrue
  split at h
  · cases h
  rename_i made hmade
  cases h
  simp only [Bool.not_eq_true, Bool.not_eq_false'] at htrue
  exact ⟨inherited, hinherited, by rw [hextends, htrue], liftText_ok.mp hmade⟩

/-- What is bound: the plan's own progress if nothing was started, or the continuation of the
latest attempt. -/
theorem boundProgress_inv
    (h : codec.boundProgress progress history predecessor = .ok (some bound)) :
    (predecessor = none ∧ bound = progress ∧
      ∀ saved ∈ history, ∀ p ∈ saved.progress.parts, p.state = .unsent) ∨
    ∃ latest, predecessor = some latest ∧ latestAttempt history = some latest ∧
      codec.continuation progress latest history = .ok (some bound) := by
  cases predecessor with
  | none =>
    simp only [HandoffCodec.boundProgress] at h
    split at h
    · cases h
    rename_i hnone
    cases h
    refine .inl ⟨rfl, rfl, fun saved hsaved p hp => ?_⟩
    by_contra hstate
    exact hnone (any_eq_true.mpr ⟨saved, hsaved, any_eq_true.mpr ⟨p, hp, decide_eq_true hstate⟩⟩)
  | some latest =>
    simp only [HandoffCodec.boundProgress] at h
    split at h
    · cases h
    rename_i hlatest
    split at h
    · cases h
      rename_i hbound
      exact .inr ⟨latest, rfl, not_not.mp hlatest, hbound⟩
    · cases h

theorem boundProgress_ok (h : codec.boundProgress progress history predecessor = .ok (some bound)) :
    (∀ saved ∈ history, ∀ p ∈ saved.progress.parts, p.state = .unsent) ∨
      ∃ saved ∈ history, KeepsStarted saved.progress.parts bound.parts ∧
        ∀ other ∈ history,
          other.provenance.attemptNumber ≤ saved.provenance.attemptNumber := by
  rcases boundProgress_inv h with ⟨-, -, hunsent⟩ | ⟨latest, -, hlatest, hbound⟩
  · exact .inl hunsent
  · obtain ⟨hmem, hmax⟩ := latestAttempt_ok hlatest
    obtain ⟨inherited, hinherited, -, hmade⟩ := continuation_inv hbound
    refine .inr ⟨latest, hmem, ?_, hmax⟩
    rw [(RadioAttemptProgress.make_ok hmade).2.2.2]
    intro p hp hstate
    obtain ⟨q, hq, hqp⟩ := acceptedParts_ok hinherited p hp hstate
    exact ⟨q, mem_append_left _ hq, hqp⟩

/-! ## Transactions -/

section Calls

variable {db db' : Db}

theorem fenced_of_owns {now : String} (h : db.ownsClaim claim w now = .ok true) :
    Fenced db claim := by
  unfold Db.ownsClaim at h
  split at h
  · cases h
  · rename_i r hfind
    have hholds := List.find?_some hfind
    simp only [OutboxRow.holdsClaim, Bool.and_eq_true, decide_eq_true_eq] at hholds
    obtain ⟨⟨⟨⟨hid, -⟩, -⟩, hgen⟩, hfence⟩ := hholds
    have hsame : r.identity = claim.identity := by
      have hclaim : (r.eventId = claim.eventId ∧ r.deliveryPlanId = claim.deliveryPlanId ∧
          r.targetAdapter = claim.targetAdapter) ∧
          r.targetChannel.getD "" = claim.targetChannel.getD "" := by
        split at h
        · simp only [Except.ok.injEq, Bool.and_eq_true, decide_eq_true_eq] at h
          exact ⟨⟨h.1.1.1.1.1, h.1.1.1.1.2, h.1.1.1.2⟩, h.1.1.2⟩
        · split at h
          · split at h <;> cases h
          · split at h
            · cases h
            · simp only [Except.ok.injEq, Bool.and_eq_true, decide_eq_true_eq] at h
              exact ⟨⟨h.1.1.1.1.1, h.1.1.1.1.2, h.1.1.1.2⟩, h.1.1.2⟩
      simp only [OutboxRow.identity, DeliveryAttemptProvenance.identity, DeliveryIdentity.of,
        DeliveryIdentity.mk.injEq, orNone_eq_iff]
      exact ⟨hclaim.1.1, hclaim.1.2.1, hclaim.1.2.2, hclaim.2⟩
    exact ⟨r, mem_of_find?_eq_some hfind, hid, hsame, hgen,
      (OutboxRow.noSiblingFrom_iff _ _ _).mp hfence⟩

theorem run_radioTransaction {α : Type} {y : StoreTx α} {a : α}
    (h : (radioTransaction y).run db = .ok (a, db')) : y.run db = .ok (a, db') := by
  simp only [radioTransaction, run_bind, run_attempt] at h
  obtain ⟨r, db₁, hrun, hrest⟩ := h
  rcases hrun with ⟨b, rfl, hb⟩ | ⟨e, rfl, -, rfl⟩
  · obtain ⟨rfl, rfl⟩ := run_pure.mp hrest
    exact hb
  · split at hrest
    · rename_i heq
      cases heq
    · exact (run_raise.mp hrest).elim
    · exact (run_raise.mp hrest).elim

theorem Binding.newer {initial : RadioAttemptProgress} {stored : StoredRadioAttempt}
    (h : Binding codec predecessor db history initial row stored) {old : RadioRow}
    (hold : old ∈ db.radioHistory row.provenance.identity) :
    old.provenance.attemptNumber < row.attemptNumber := by
  obtain ⟨saved, hsaved, hold⟩ := (decodeAll_ok h.decoded).1 old hold
  rw [← (decodeRow_ok hold).1, ← h.ownAttempt]
  exact bindChecks_ok h.fresh saved hsaved

/-- Either no part of the delivery has been started, or the new row carries on from the latest
attempt. -/
theorem Binding.carried {initial : RadioAttemptProgress} {stored : StoredRadioAttempt}
    (h : Binding codec predecessor db history initial row stored) :
    (∀ old ∈ db.radioHistory row.provenance.identity, ∀ p ∈ old.parts, p.state = .unsent) ∨
      ∃ old ∈ db.radioHistory row.provenance.identity, KeepsStarted old.parts row.parts ∧
        ∀ other ∈ db.radioHistory row.provenance.identity,
          other.provenance.attemptNumber ≤ old.provenance.attemptNumber := by
  obtain ⟨hrows, hhistory⟩ := decodeAll_ok h.decoded
  rcases boundProgress_ok h.inherits with hunsent | ⟨saved, hsaved, hkeeps, hmax⟩
  · left
    intro old hold p hp
    obtain ⟨saved, hsaved, hdec⟩ := hrows old hold
    rw [← (decodeRow_ok hdec).2.1] at hp
    exact hunsent saved hsaved p hp
  · right
    obtain ⟨old, hold, hdec⟩ := hhistory saved hsaved
    obtain ⟨hprov, hparts, -⟩ := decodeRow_ok hdec
    refine ⟨old, hold, h.checkpoint.2.1 ▸ hparts ▸ hkeeps, ?_⟩
    intro other hother
    obtain ⟨saved', hsaved', hdec'⟩ := hrows other hother
    rw [← hprov, ← (decodeRow_ok hdec').1]
    exact hmax saved' hsaved'

theorem run_bind_exact
    (h : (bindRadioAttempt codec provenance w plan predecessor now).run db = .ok (a, db')) :
    (a = none ∧ db = db') ∨
      ∃ history initial row stored, Binding codec predecessor db history initial row stored ∧
        a = some stored ∧ db'.radio.rows = db.radio.rows ++ [row] ∧
          row.provenance = provenance ∧ initial.plan = plan := by
  simp only [bindRadioAttempt, run_bind, run_lift] at h
  obtain ⟨progress, _, ⟨hprogress, rfl⟩, htx⟩ := h
  have hplanned := liftText_ok.mp hprogress
  have hplan : progress.plan = plan := (RadioAttemptProgress.make_ok hplanned).2.2.1
  have hrun := run_radioTransaction htx
  simp only [run_bind, run_query, run_lift] at hrun
  obtain ⟨_, _, ⟨rfl, rfl⟩, owned, _, ⟨howned, rfl⟩, hrest⟩ := hrun
  rcases run_ite.mp hrest with ⟨-, hpure⟩ | ⟨hown, hrest⟩
  · obtain ⟨rfl, rfl⟩ := run_pure.mp hpure
    exact .inl ⟨rfl, rfl⟩
  simp only [Bool.not_eq_true, Bool.not_eq_false'] at hown
  simp only [run_bind, run_lift] at hrest
  obtain ⟨history, _, ⟨hdecode, rfl⟩, fresh, _, ⟨hfresh, rfl⟩, hrest⟩ := hrest
  rcases run_ite.mp hrest with ⟨-, hpure⟩ | ⟨hnew, hrest⟩
  · obtain ⟨rfl, rfl⟩ := run_pure.mp hpure
    exact .inl ⟨rfl, rfl⟩
  simp only [Bool.not_eq_true, Bool.not_eq_false'] at hnew
  simp only [run_bind, run_lift] at hrest
  obtain ⟨bound?, _, ⟨hbound, rfl⟩, hrest⟩ := hrest
  cases bound? with
  | none =>
    obtain ⟨rfl, rfl⟩ := run_pure.mp hrest
    exact .inl ⟨rfl, rfl⟩
  | some bound =>
    simp only [run_bind, run_lift, run_pure] at hrest
    obtain ⟨_, _, hinsert, stored, _, ⟨hstored, rfl⟩, rfl, rfl⟩ := hrest
    obtain ⟨t, ht, rfl⟩ := run_insertInto.mp hinsert
    obtain ⟨hprov, hbound', hrev⟩ := make_stored hstored
    rw [hown] at howned
    rw [hnew] at hfresh
    subst hplan
    refine .inr ⟨history, progress, _, stored, ?_, rfl, Table.rows_insert ht, rfl, rfl⟩
    exact
      { fenced := fenced_of_owns howned
        planned := hplanned
        decoded := hdecode
        fresh := hfresh
        inherits := hbound'.symm ▸ hbound
        ownOutbox := rfl
        ownAttempt := rfl
        plan := ⟨rfl, rfl⟩
        checkpoint := ⟨hprov, by rw [hbound'], hrev⟩ }

theorem run_writeCheckpoint {expectedRevision : ℤ} {now : String}
    (hrow : db.radioRow? claim.outboxId claim.attemptNumber = some row)
    (hrev : row.revision = expectedRevision)
    (h : (writeCheckpoint claim expectedRevision result now).run db = .ok (a, db')) :
    a = some result ∧ Replaces row result db db' := by
  simp only [writeCheckpoint, run_bind, run_pure] at h
  obtain ⟨n, _, hupd, rfl, rfl⟩ := h
  obtain ⟨t, ht, rfl, rfl⟩ := run_updateTable.mp hupd
  have hmem : row ∈ db.radio.rows := mem_of_find?_eq_some hrow
  have hkey := List.find?_some hrow
  simp only [Bool.and_eq_true, decide_eq_true_eq] at hkey
  refine ⟨?_, now, (Table.rows_update ht).trans (map_congr_left ?_)⟩
  · -- the key holds one row, and the row is at the revision
    rw [if_pos]
    apply le_antisymm
    · apply db.radio.countP_le_one
      intro r s hr hs
      simp only [Bool.and_eq_true, decide_eq_true_eq] at hr hs
      simp [radioConstraint, keyed, hr.1, hs.1]
    · exact countP_pos_iff.mpr ⟨row, hmem, by simp [hkey.1, hkey.2, hrev]⟩
  · intro r hr
    by_cases hrr : r = row
    · subst hrr
      rw [if_pos rfl, if_pos (by simp [hkey.1, hkey.2, hrev])]
      rfl
    · rw [if_neg hrr, if_neg ?_]
      intro hmatch
      simp only [Bool.and_eq_true, decide_eq_true_eq] at hmatch
      refine hrr (Storage.eq_of_key db.radio hr hmem ?_)
      rw [hmatch.1.1, hmatch.1.2, hkey.1, hkey.2]

theorem run_checkpoint {updated : RadioAttemptProgress}
    (h : (checkpointRadioAttempt expected w updated now).run db = .ok (a, db')) :
    (a = none ∧ db = db') ∨ Moves expected (· = updated) a db db' := by
  simp only [checkpointRadioAttempt, run_bind, run_query, run_lift] at h
  obtain ⟨_, _, ⟨rfl, rfl⟩, owned, _, ⟨howned, rfl⟩, hrest⟩ := h
  rcases run_ite.mp hrest with ⟨-, hpure⟩ | ⟨hown, hrest⟩
  · obtain ⟨rfl, rfl⟩ := run_pure.mp hpure
    exact .inl ⟨rfl, rfl⟩
  simp only [Bool.not_eq_true, Bool.not_eq_false'] at hown
  cases hfind : Db.radioRow? (id db) expected.provenance.outboxId
      expected.provenance.attemptNumber with
  | none =>
    rw [hfind] at hrest
    obtain ⟨rfl, rfl⟩ := run_pure.mp hrest
    exact .inl ⟨rfl, rfl⟩
  | some row =>
    rw [hfind] at hrest
    simp only [run_bind, run_lift] at hrest
    obtain ⟨saved, _, ⟨hsaved, rfl⟩, hrest⟩ := hrest
    rcases run_ite.mp hrest with ⟨-, hpure⟩ | ⟨heq, hrest⟩
    · obtain ⟨rfl, rfl⟩ := run_pure.mp hpure
      exact .inl ⟨rfl, rfl⟩
    · obtain rfl := not_not.mp heq
      simp only [run_bind, run_lift] at hrest
      obtain ⟨result, _, ⟨hresult, rfl⟩, hwrite⟩ := hrest
      obtain ⟨hprov, hprogress, -⟩ := make_stored hresult
      rw [hown] at howned
      exact .inr ⟨row, hfind, hsaved, fenced_of_owns howned, result, hprov, hprogress,
        run_writeCheckpoint hfind (decodeRow_ok hsaved).2.2.symm hwrite⟩

theorem run_begin
    (h : (beginRadioPart expected w ordinal deadline observed now).run db = .ok (a, db')) :
    (a = none ∧ db'.radio = db.radio) ∨
      Moves expected (expected.progress.begin ordinal = .ok ·) a db db' := by
  simp only [beginRadioPart, run_bind, run_lift] at h
  obtain ⟨_, _, ⟨-, rfl⟩, updated, _, ⟨hupdated, rfl⟩, htx⟩ := h
  have hrun := run_radioTransaction htx
  simp only [run_bind] at hrun
  obtain ⟨started, db₁, hstart, hrest⟩ := hrun
  have hgate := follows_nativeStart (footprint_rules [.dependencies] fun _ => False)
    mem_cons_self _ _ _ hstart
  have hradio : db₁.radio = db.radio := hgate .radio (by decide)
  have hout : db₁.outbox = db.outbox := hgate .outbox (by decide)
  rcases run_ite.mp hrest with ⟨-, hpure⟩ | ⟨-, hrest⟩
  · obtain ⟨rfl, rfl⟩ := run_pure.mp hpure
    exact .inl ⟨rfl, hradio⟩
  · rcases run_checkpoint hrest with
      ⟨rfl, rfl⟩ | ⟨row, hrow, hdecoded, hfence, result, hprov, rfl, hanswer, hreplaces⟩
    · exact .inl ⟨rfl, hradio⟩
    · unfold Fenced at hfence
      unfold Replaces at hreplaces
      unfold Db.radioRow? at hrow
      rw [hout] at hfence
      rw [hradio] at hrow hreplaces
      exact .inr ⟨row, hrow, hdecoded, hfence, result, hprov, liftText_ok.mp hupdated, hanswer,
        hreplaces⟩

theorem run_observe {handoffId : Option String}
    (h : (observeRadioPart expected w ordinal handoffId now).run db = .ok (a, db')) :
    (a = none ∧ db = db') ∨
      Moves expected (expected.progress.observe ordinal handoffId = .ok ·) a db db' := by
  simp only [observeRadioPart, run_bind, run_lift] at h
  obtain ⟨updated, _, ⟨hupdated, rfl⟩, htx⟩ := h
  rcases run_checkpoint (run_radioTransaction htx) with
    hsame | ⟨row, hrow, hdecoded, hfence, result, hprov, rfl, hanswer, hreplaces⟩
  · exact .inl hsame
  · exact .inr ⟨row, hrow, hdecoded, hfence, result, hprov, liftText_ok.mp hupdated, hanswer,
      hreplaces⟩

theorem run_recover (h : (recoverRadioAttempt provenance w now).run db = .ok (a, db')) :
    db = db' ∨ ∃ row ∈ db.radio.rows, ∃ saved, decodeRow row = .ok saved ∧
      Fenced db row.provenance ∧ ∃ result : StoredRadioAttempt,
        result.provenance = saved.provenance ∧
        saved.progress.afterRestart = .ok result.progress ∧ Replaces row result db db' := by
  have hrun := run_radioTransaction h
  simp only [run_bind, run_query, run_lift] at hrun
  obtain ⟨_, _, ⟨rfl, rfl⟩, owned, _, ⟨howned, rfl⟩, hrest⟩ := hrun
  rcases run_ite.mp hrest with ⟨-, hpure⟩ | ⟨hown, hrest⟩
  · exact .inl (run_pure.mp hpure).2
  simp only [Bool.not_eq_true, Bool.not_eq_false'] at hown
  cases hfind : Db.radioRow? (id db) provenance.outboxId provenance.attemptNumber with
  | none =>
    rw [hfind] at hrest
    exact .inl (run_pure.mp hrest).2
  | some row =>
    rw [hfind] at hrest
    simp only [run_bind, run_lift] at hrest
    obtain ⟨saved, _, ⟨hsaved, rfl⟩, hrest⟩ := hrest
    rcases run_ite.mp hrest with ⟨-, hpure⟩ | ⟨heq, hrest⟩
    · exact .inl (run_pure.mp hpure).2
    simp only [run_bind, run_lift] at hrest
    obtain ⟨recovered, _, ⟨hrecovered, rfl⟩, hrest⟩ := hrest
    rcases run_ite.mp hrest with ⟨-, hpure⟩ | ⟨-, hrest⟩
    · exact .inl (run_pure.mp hpure).2
    · simp only [run_bind, run_lift] at hrest
      obtain ⟨result, _, ⟨hresult, rfl⟩, hwrite⟩ := hrest
      obtain ⟨hprov, -, hrev⟩ := decodeRow_ok hsaved
      obtain ⟨hprov', hprogress, -⟩ := make_stored hresult
      rw [hown] at howned
      refine .inr ⟨row, mem_of_find?_eq_some hfind, saved, hsaved, ?_, result, ?_, ?_,
        (run_writeCheckpoint hfind hrev.symm hwrite).2⟩
      · rw [← hprov, not_not.mp heq]
        exact fenced_of_owns howned
      · rw [hprov', not_not.mp heq]
      · rw [hprogress]
        exact liftText_ok.mp hrecovered

end Calls

/-! ## Calls that succeed -/

theorem radioTransaction_of {α : Type} {y : StoreTx α} {a : α} (h : y.run db = .ok (a, db')) :
    (radioTransaction y).run db = .ok (a, db') := by
  simp only [radioTransaction, run_bind, run_attempt]
  exact ⟨.ok a, db', .inl ⟨a, rfl, h⟩, run_pure.mpr ⟨rfl, rfl⟩⟩

theorem transitions_nonneg (parts : List RadioPartProgress) : 0 ≤ transitions parts := by
  refine List.sum_nonneg fun n hn => ?_
  obtain ⟨p, -, rfl⟩ := mem_map.mp hn
  cases hstate : p.state <;> simp [partTransitions, hstate]

/-- A claim that is owned moves the checkpoint it has read. -/
theorem checkpoint_of {updated : RadioAttemptProgress}
    (howned : db.ownsClaim expected.provenance w (nowIso now) = .ok true)
    (hrow : db.radioRow? expected.provenance.outboxId expected.provenance.attemptNumber = some row)
    (hdecoded : decodeRow row = .ok expected)
    (hresult : StoredRadioAttempt.make expected.provenance updated (expected.revision + 1) =
      .ok result) :
    ∃ t, (checkpointRadioAttempt expected w updated now).run db =
      .ok (some result, { db with radio := t }) := by
  have hrev : row.revision = expected.revision := (decodeRow_ok hdecoded).2.2.symm
  have hcount : 0 ≤ result.revision := result.counted ▸ transitions_nonneg _
  obtain ⟨t, ht⟩ : ∃ t, db.radio.update (fun r => r.outboxId = expected.provenance.outboxId &&
      r.attemptNumber = expected.provenance.attemptNumber && r.revision = expected.revision)
    (fun r => { r with
      parts := result.progress.parts, revision := result.revision, updatedAt := nowIso now }) =
        some t := by
    refine Table.update_some (fun r hr hp => ?_) fun r s => ?_
    · have hc := db.radio.checked r hr
      simp only [radioConstraint, keyed, Bool.and_eq_true, decide_eq_true_eq] at hc ⊢
      exact ⟨hc.1, hcount⟩
    · split <;> split <;> rfl
  have hwrite : ∃ a, (writeCheckpoint expected.provenance expected.revision result
      (nowIso now)).run db = .ok (a, { db with radio := t }) := by
    simp only [writeCheckpoint, run_bind, run_pure]
    exact ⟨_, _, _, run_updateTable.mpr ⟨t, ht, rfl, rfl⟩, rfl, rfl⟩
  obtain ⟨a, hwrite⟩ := hwrite
  obtain rfl := (run_writeCheckpoint hrow hrev hwrite).1
  refine ⟨t, ?_⟩
  simp only [checkpointRadioAttempt, run_bind, run_query, run_lift]
  refine ⟨db, db, ⟨rfl, rfl⟩, true, db, ⟨howned, rfl⟩, run_ite.mpr (.inr ⟨by simp, ?_⟩)⟩
  rw [hrow]
  simp only [run_bind, run_lift]
  exact ⟨expected, db, ⟨hdecoded, rfl⟩, run_ite.mpr (.inr ⟨by simp, run_bind.mpr
    ⟨result, db, run_lift.mpr ⟨hresult, rfl⟩, hwrite⟩⟩)⟩

theorem begin_of {updated : RadioAttemptProgress} {db₁ : Db}
    (hupdated : expected.progress.begin ordinal = .ok updated)
    (hstart : (nativeStart expected.provenance w none observed).run db = .ok (true, db₁))
    (hrun : (checkpointRadioAttempt expected w updated now).run db₁ = .ok (a, db')) :
    (beginRadioPart expected w ordinal none observed now).run db = .ok (a, db') := by
  simp only [beginRadioPart, run_bind, run_lift]
  refine ⟨(), db, ⟨rfl, rfl⟩, updated, db, ⟨liftText_ok.mpr hupdated, rfl⟩, radioTransaction_of ?_⟩
  exact run_bind.mpr ⟨true, db₁, hstart, run_ite.mpr (.inr ⟨by simp, hrun⟩)⟩

theorem observe_of {updated : RadioAttemptProgress} {handoffId : Option String}
    (hupdated : expected.progress.observe ordinal handoffId = .ok updated)
    (hrun : (checkpointRadioAttempt expected w updated now).run db = .ok (a, db')) :
    (observeRadioPart expected w ordinal handoffId now).run db = .ok (a, db') := by
  simp only [observeRadioPart, run_bind, run_lift]
  exact ⟨updated, db, ⟨liftText_ok.mpr hupdated, rfl⟩, radioTransaction_of hrun⟩

/-- A claim that is owned binds a plan the history allows. -/
theorem bind_of {stored : StoredRadioAttempt}
    (hprogress : RadioAttemptProgress.bind provenance.outboxId provenance.attemptNumber plan =
      .ok progress)
    (howned : db.ownsClaim provenance w (nowIso now) = .ok true)
    (hdecoded : decodeAll (db.radioHistory provenance.identity) = .ok history)
    (hfresh : bindChecks provenance plan history = .ok true)
    (hbound : codec.boundProgress progress history predecessor = .ok (some bound))
    (hstored : StoredRadioAttempt.make provenance bound
      (2 * (bound.parts.countP fun p => p.state = .accepted)) = .ok stored)
    (hfingerprint : plan.fingerprint.length = 64)
    (hnew : ∀ r ∈ db.radio.rows, r.outboxId = provenance.outboxId →
      r.attemptNumber ≠ provenance.attemptNumber) :
    ∃ t, (bindRadioAttempt codec provenance w plan predecessor now).run db =
      .ok (some stored, { db with radio := t }) := by
  obtain ⟨t, ht⟩ := Table.insert_some (t := db.radio)
    (r := { outboxId := provenance.outboxId, attemptNumber := provenance.attemptNumber
            planFingerprint := plan.fingerprint, plan := progress.toData, provenance
            parts := bound.parts
            revision := 2 * (bound.parts.countP fun p => p.state = .accepted)
            createdAt := nowIso now, updatedAt := nowIso now })
    (by simp [radioConstraint, keyed, provenance.positive, hfingerprint])
    (fun r hr => by simpa [radioConstraint, keyed] using hnew r hr)
  refine ⟨t, ?_⟩
  simp only [bindRadioAttempt, run_bind, run_lift]
  refine ⟨progress, db, ⟨liftText_ok.mpr hprogress, rfl⟩, radioTransaction_of ?_⟩
  simp only [run_bind, run_query, run_lift]
  refine ⟨db, db, ⟨rfl, rfl⟩, true, db, ⟨howned, rfl⟩, run_ite.mpr (.inr ⟨by simp, ?_⟩)⟩
  simp only [run_bind, run_lift]
  refine ⟨history, db, ⟨hdecoded, rfl⟩, true, db, ⟨hfresh, rfl⟩, run_ite.mpr (.inr ⟨by simp, ?_⟩)⟩
  simp only [run_bind, run_lift]
  refine ⟨some bound, db, ⟨hbound, rfl⟩, ?_⟩
  simp only [run_bind, run_lift, run_pure]
  exact ⟨(), _, run_insertInto.mpr ⟨t, ht, rfl⟩, stored, _, ⟨hstored, rfl⟩, rfl, rfl⟩

/-! ## One call -/

/-- The call is a `begin_radio_part` for ordinal `k` of the delivery, and it
answered with a checkpoint. -/
def grantsPart (identity : DeliveryIdentity) (k : ℤ) : Op × Except Err Answer → Bool
  | (.beginRadioPart expected _ ordinal _ _ _, .ok (.radio (some _))) =>
    expected.provenance.identity = identity && ordinal = k
  | _ => false

/-- The checkpoint a `resume_radio_attempt` call answered with. -/
def resumed : Op × Except Err Answer → Option StoredRadioAttempt
  | (.bindRadioAttempt _ _ _ (some _) _, .ok (.radio answer)) => answer
  | _ => none

/-- What a call writes to the checkpoints, and whether it grants a part or resumes an attempt. -/
inductive RadioWrite (codec : HandoffCodec) (op : Op) (ans : Except Err Answer) (db db' : Db) :
    Prop
  | same (rows : db'.radio.rows = db.radio.rows)
      (denied : ∀ i k, grantsPart i k (op, ans) = false) (refused : resumed (op, ans) = none)
  | bound {predecessor : Option StoredRadioAttempt} {history : List StoredRadioAttempt}
      {initial : RadioAttemptProgress} {row : RadioRow} {stored : StoredRadioAttempt}
      (binding : Binding codec predecessor db history initial row stored)
      (rows : db'.radio.rows = db.radio.rows ++ [row])
      (denied : ∀ i k, grantsPart i k (op, ans) = false)
      (answer : ∀ s, resumed (op, ans) = some s → s = stored ∧ predecessor ≠ none)
  | moved {row : RadioRow} {saved result : StoredRadioAttempt} (hrow : row ∈ db.radio.rows)
      (decoded : decodeRow row = .ok saved) (fenced : Fenced db row.provenance)
      (own : result.provenance = saved.provenance)
      (reached : RadioAttemptProgress.Reached saved.progress result.progress)
      (replaces : Replaces row result db db')
      (granted : ∀ i k, grantsPart i k (op, ans) = true →
        row.provenance.identity = i ∧ saved.progress.begin k = .ok result.progress)
      (refused : resumed (op, ans) = none)

variable {db db' : Db}

theorem Moves.write {op : Op} {next : RadioAttemptProgress → Prop} {ans : Answer}
    (h : Moves expected next a db db')
    (hreached : ∀ p, next p → RadioAttemptProgress.Reached expected.progress p)
    (hgranted : ∀ p, next p → ∀ i k, grantsPart i k (op, .ok ans) = true →
      expected.provenance.identity = i ∧ expected.progress.begin k = .ok p)
    (hrefused : resumed (op, .ok ans) = none) : RadioWrite codec op (.ok ans) db db' := by
  obtain ⟨row, hrow, hdecoded, hfence, result, hprov, hnext, rfl, hreplaces⟩ := h
  obtain ⟨hown, -⟩ := decodeRow_ok hdecoded
  exact .moved (mem_of_find?_eq_some hrow) hdecoded (hown ▸ hfence) hprov (hreached _ hnext)
    hreplaces (hown ▸ hgranted _ hnext) hrefused

theorem resumed_error (op : Op) (e : Err) : resumed (op, .error e) = none := by
  unfold resumed
  split
  · rename_i h
    cases h
  · rfl

theorem radioWrite_of_run {x : Externals} {op : Op} {α : Type} {tag : α → Answer}
    {body : StoreTx α} (hexec : exec x op = answering tag body)
    (hrun : ∀ a db', body.run db = .ok (a, db') → RadioWrite codec op (.ok (tag a)) db db') :
    RadioWrite codec op (step x db op).2 db (step x db op).1 := by
  cases hans : (step x db op).2 with
  | error e =>
    refine .same (by rw [step_of_error hans]) (fun _ _ => ?_) (resumed_error op e)
    cases op <;> rfl
  | ok ans =>
    obtain ⟨a, rfl, ha⟩ := run_of_answer hexec hans
    exact hrun a _ ha

theorem step_radioWrite (x : Externals) (db : Db) (op : Op) :
    RadioWrite x.handoffs op (step x db op).2 db (step x db op).1 := by
  -- a call that does not write the table leaves it
  have hkept : ∀ op : Op, .radio ∉ op.writes → (∀ i k ans, grantsPart i k (op, ans) = false) →
      (∀ ans, resumed (op, ans) = none) →
      RadioWrite x.handoffs op (step x db op).2 db (step x db op).1 := by
    intro op hw hno hnone
    have hradio : (step x db op).1.radio = db.radio := step_table x db op hw
    exact .same (by rw [hradio]) (fun i k => hno i k _) (hnone _)
  cases op with
  | bindRadioAttempt provenance w plan predecessor now =>
    refine radioWrite_of_run rfl fun a db' hrun => ?_
    rcases run_bind_exact hrun with
      ⟨rfl, rfl⟩ | ⟨history, initial, row, stored, hbinding, rfl, hrows, -⟩
    · exact .same rfl (fun _ _ => rfl) (by cases predecessor <;> rfl)
    · refine .bound hbinding hrows (fun _ _ => rfl) fun s hs => ?_
      cases predecessor with
      | none => cases hs
      | some latest =>
        cases hs
        exact ⟨rfl, Option.some_ne_none _⟩
  | beginRadioPart expected w ordinal deadline observed now =>
    refine radioWrite_of_run rfl fun a db' hrun => ?_
    rcases run_begin hrun with ⟨rfl, hradio⟩ | hmoves
    · exact .same (by rw [hradio]) (fun _ _ => rfl) rfl
    · refine hmoves.write (fun _ h => .begin .bound h) (fun p hbegin i k hgrants => ?_) rfl
      obtain ⟨_, _, _, _, _, _, _, rfl, _⟩ := hmoves
      simp only [grantsPart, Bool.and_eq_true, decide_eq_true_eq] at hgrants
      exact ⟨hgrants.1, hgrants.2 ▸ hbegin⟩
  | observeRadioPart expected w ordinal handoffId now =>
    refine radioWrite_of_run rfl fun a db' hrun => ?_
    rcases run_observe hrun with ⟨-, rfl⟩ | hmoves
    · exact .same rfl (fun _ _ => rfl) rfl
    · exact hmoves.write (fun _ h => .observe .bound h) (fun _ _ _ _ hno => by cases hno) rfl
  | recoverRadioAttempt provenance w now =>
    refine radioWrite_of_run rfl fun a db' hrun => ?_
    rcases run_recover hrun with
      rfl | ⟨row, hrow, saved, hdecoded, hfence, result, hprov, hrecovered, hreplaces⟩
    · exact .same rfl (fun _ _ => rfl) rfl
    · exact .moved hrow hdecoded hfence hprov (.afterRestart .bound hrecovered) hreplaces
        (fun _ _ hno => by cases hno) rfl
  | _ => exact hkept _ (by simp [Op.writes, eventTables]) (fun _ _ _ => rfl) fun _ => rfl

end Medre.Storage
