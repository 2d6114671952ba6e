import Medre.Storage.EventAdmission
import Medre.Storage.Settlement

/-! # Events are admitted once

A stored event stays, and the admission that stores it is the only call that adds its source
dependency. -/

namespace Medre.Storage

open List Medre.Framework

/-- From `db` to `db'` stored events stay, and a source dependency is added only
for an event that becomes stored. -/
structure AdmitsOnce (db db' : Db) : Prop where
  events : ∀ e, db.hasEvent e = true → db'.hasEvent e = true
  sources : ∀ d' ∈ db'.dependencies.rows, d'.ownerKind.isSource = true →
    (∃ d ∈ db.dependencies.rows, d.Stems d') ∨
      (db.hasEvent d'.eventId = false ∧ db'.hasEvent d'.eventId = true)

theorem AdmitsOnce.refl (db : Db) : AdmitsOnce db db where
  events _ h := h
  sources d hd _ := .inl ⟨d, hd, .refl d⟩

theorem AdmitsOnce.trans {a b c : Db} (hab : AdmitsOnce a b) (hbc : AdmitsOnce b c) :
    AdmitsOnce a c where
  events e h := hbc.events e (hab.events e h)
  sources d'' hd'' hkind := by
    rcases hbc.sources d'' hd'' hkind with ⟨d', hd', hstems'⟩ | ⟨hfresh, hstored⟩
    · have hkey := Dependency.key_inj.mp hstems'.key_eq
      rcases hab.sources d' hd' (hkey.2.1 ▸ hkind) with ⟨d, hd, hstems⟩ | ⟨hfresh, hstored⟩
      · exact .inl ⟨d, hd, hstems.trans hstems'⟩
      · rw [← hkey.1] at hfresh hstored
        exact .inr ⟨hfresh, hbc.events _ hstored⟩
    · refine .inr ⟨?_, hstored⟩
      cases ha : a.hasEvent d''.eventId with
      | false => rfl
      | true =>
        rw [hab.events _ ha] at hfresh
        cases hfresh

/-! ## One call -/

theorem admitsOnce_of_stores {x : Externals} {db : Db} {op : Op} {e : CanonicalEvent}
    {now : String} (hown : ∀ k, op.mayOwn k → k.1 = e.eventId)
    (h : StoresEvent e now db (step x db op).1) : AdmitsOnce db (step x db op).1 := by
  refine ⟨fun i hi => h.hasEvent_iff.mpr (.inl hi), ?_⟩
  intro d' hd' _
  rcases (step_content x db op).origin d' hd' with hstems | hnew
  · exact .inl hstems
  · have hevent : d'.eventId = e.eventId := hown _ hnew
    exact .inr ⟨hevent ▸ h.fresh, h.hasEvent_iff.mpr (.inr hevent)⟩

theorem admitsOnce_of_kept {x : Externals} {db : Db} {op : Op}
    (hevents : (step x db op).1.events = db.events)
    (hown : ∀ d' ∈ (step x db op).1.dependencies.rows, d'.ownerKind.isSource = true →
      ∃ d ∈ db.dependencies.rows, d.Stems d') : AdmitsOnce db (step x db op).1 := by
  refine ⟨fun e he => ?_, fun d' hd' hkind => .inl (hown d' hd' hkind)⟩
  rwa [Db.hasEvent, hevents]

theorem step_admitsOnce (x : Externals) (db : Db) (op : Op) : AdmitsOnce db (step x db op).1 := by
  have hother : .events ∉ op.writes → (∀ k, op.mayOwn k → k.2.1.isSource = false) →
      AdmitsOnce db (step x db op).1 := by
    intro hevents hown
    refine admitsOnce_of_kept (step_table x db op hevents) ?_
    intro d' hd' hkind
    rcases (step_content x db op).origin d' hd' with hstems | hnew
    · exact hstems
    · have hkind' : d'.ownerKind.isSource = false := hown _ hnew
      rw [hkind] at hkind'
      cases hkind'
  cases op with
  | append e now =>
    cases hans : (step x db (.append e now)).2 with
    | error err =>
      rw [step_of_error hans]
      exact .refl db
    | ok ans =>
      obtain ⟨u, -, hrun⟩ := run_of_answer rfl hans
      refine admitsOnce_of_stores ?_ (stores_append hrun).1
      rintro k rfl
      rfl
  | admitIngress e inboundRef provenance suppressRouting contentDeadline now =>
    cases hans : (step x db
        (.admitIngress e inboundRef provenance suppressRouting contentDeadline now)).2 with
    | error err =>
      rw [step_of_error hans]
      exact .refl db
    | ok ans =>
      obtain ⟨a, -, hrun⟩ := run_of_answer rfl hans
      cases run_admitIngress hrun with
      | new limit work hcreated own fresh event h =>
        refine admitsOnce_of_stores ?_ h.toStoresEvent
        rintro k rfl
        rfl
      | known hcreated hoff work =>
        have hdeps : (step x db (.admitIngress e inboundRef provenance suppressRouting
            contentDeadline now)).1.dependencies = db.dependencies :=
          hoff .dependencies (by decide)
        refine admitsOnce_of_kept (hoff .events (by decide)) fun d hd _ => ⟨d, ?_, .refl d⟩
        rw [hdeps] at hd
        exact hd
  | createOutboxItem item allocate snapshot now =>
    refine hother (by simp [Op.writes]) ?_
    rintro k ⟨rfl, -⟩
    rfl
  | _ => exact hother (by simp [Op.writes]) fun _ hown => hown.elim

/-! ## Whole runs -/

theorem run_admitsOnce (x : Externals) (db : Db) (ops : List Op) :
    AdmitsOnce db (run (step x) db ops) :=
  run_evolves (I := fun _ => True) AdmitsOnce.refl AdmitsOnce.trans (fun _ _ _ => trivial)
    (fun db op _ => step_admitsOnce x db op) trivial ops

/-- Every source of the event has been released. -/
def SourceReleased (db : Db) (e : String) : Prop :=
  ∀ d ∈ db.dependencies.rows, d.eventId = e → d.ownerKind.isSource = true →
    d.releasedAt.isSome = true

theorem sourceReleased_later (x : Externals) {db : Db} {e : String} (he : db.hasEvent e = true)
    (h : SourceReleased db e) (ops : List Op) : SourceReleased (run (step x) db ops) e := by
  intro d' hd' hevent hkind
  rcases (run_admitsOnce x db ops).sources d' hd' hkind with ⟨d, hd, hstems⟩ | ⟨hfresh, -⟩
  · have hkey := Dependency.key_inj.mp hstems.key_eq
    have hreleased := h d hd (hkey.1.symm.trans hevent) (hkey.2.1 ▸ hkind)
    rw [hstems.eq_of_released hreleased]
    exact hreleased
  · rw [hevent, he] at hfresh
    cases hfresh

theorem outbox_hasEvent (x : Externals) (ops : List Op) :
    ∀ r ∈ (stateAfter x ops).outbox.rows, (stateAfter x ops).hasEvent r.eventId = true := by
  refine run_invariant (I := fun db : Db => ∀ r ∈ db.outbox.rows, db.hasEvent r.eventId = true)
    ?_ (fun _ h => absurd h not_mem_nil) ops
  intro db op h r hr
  refine (step_admitsOnce x db op).events _ ?_
  cases step_outbox x db op with
  | rewritten f hf owned =>
    rw [hf.rows, mem_map] at hr
    obtain ⟨r0, hr0, rfl⟩ := hr
    rw [(hf.keys hr0).2.1]
    exact h r0 hr0
  | created row snapshot hc rows snapshots =>
    rw [rows, mem_append, mem_singleton] at hr
    rcases hr with hr | rfl
    · exact h r hr
    · cases hc with
      | plain hchecks hnone hevent => exact hevent
      | generation hchecks hactive hevent => exact hevent

/-- The sources of the stored events: of each event at most one. -/
structure SourcesUnique (db : Db) : Prop where
  stored : ∀ d ∈ db.dependencies.rows, d.ownerKind.isSource = true →
    db.hasEvent d.eventId = true
  unique : ∀ d ∈ db.dependencies.rows, ∀ d' ∈ db.dependencies.rows,
    d.ownerKind.isSource = true → d'.ownerKind.isSource = true → d.eventId = d'.eventId →
      d.key = d'.key

theorem Op.mayOwn_source {op : Op} {k k' : String × OwnerKind × String} (hk : op.mayOwn k)
    (hk' : op.mayOwn k') : k = k' := by
  cases op with
  | append e now => exact hk.trans hk'.symm
  | admitIngress e inboundRef provenance suppressRouting contentDeadline now =>
    exact hk.trans hk'.symm
  | createOutboxItem item allocate snapshot now => exact hk.1.trans hk'.1.symm
  | _ => cases hk

theorem sourcesUnique_step (x : Externals) (db : Db) (op : Op) (h : SourcesUnique db) :
    SourcesUnique (step x db op).1 := by
  have honce := step_admitsOnce x db op
  -- the source of an event that was stored is an old one
  have hold : ∀ d' ∈ (step x db op).1.dependencies.rows, d'.ownerKind.isSource = true →
      db.hasEvent d'.eventId = true → ∃ d ∈ db.dependencies.rows, d.Stems d' := by
    intro d' hd' hkind hstored
    rcases honce.sources d' hd' hkind with hstems | ⟨hfresh, -⟩
    · exact hstems
    · rw [hstored] at hfresh
      cases hfresh
  have hsource : ∀ {d d' : Dependency}, d.Stems d' → d'.ownerKind.isSource = true →
      d.ownerKind.isSource = true ∧ d.eventId = d'.eventId := by
    intro d d' hstems hkind
    have hkey := Dependency.key_inj.mp hstems.key_eq
    exact ⟨hkey.2.1 ▸ hkind, hkey.1.symm⟩
  refine ⟨?_, ?_⟩
  · intro d' hd' hkind
    rcases honce.sources d' hd' hkind with ⟨d, hd, hstems⟩ | ⟨-, hstored⟩
    · obtain ⟨hkind', hevent⟩ := hsource hstems hkind
      rw [← hevent]
      exact honce.events _ (h.stored d hd hkind')
    · exact hstored
  · intro d₁ h₁ d₂ h₂ k₁ k₂ hevent
    cases hstored : db.hasEvent d₁.eventId with
    | true =>
      obtain ⟨e₁, he₁, s₁⟩ := hold d₁ h₁ k₁ hstored
      obtain ⟨e₂, he₂, s₂⟩ := hold d₂ h₂ k₂ (hevent ▸ hstored)
      obtain ⟨q₁, v₁⟩ := hsource s₁ k₁
      obtain ⟨q₂, v₂⟩ := hsource s₂ k₂
      rw [s₁.key_eq, s₂.key_eq]
      exact h.unique e₁ he₁ e₂ he₂ q₁ q₂ (v₁.trans (hevent.trans v₂.symm))
    | false =>
      -- both are new, and the call adds one
      have hnew : ∀ d' ∈ (step x db op).1.dependencies.rows, d'.ownerKind.isSource = true →
          db.hasEvent d'.eventId = false → op.mayOwn d'.key := by
        intro d' hd' hkind hfresh
        rcases (step_content x db op).origin d' hd' with ⟨d, hd, hstems⟩ | hown
        · obtain ⟨hkind', hevent'⟩ := hsource hstems hkind
          rw [← hevent', h.stored d hd hkind'] at hfresh
          cases hfresh
        · exact hown
      exact Op.mayOwn_source (hnew d₁ h₁ k₁ hstored) (hnew d₂ h₂ k₂ (hevent ▸ hstored))

theorem sourcesUnique_stateAfter (x : Externals) {ops : List Op} :
    SourcesUnique (stateAfter x ops) := by
  refine run_invariant (sourcesUnique_step x) ⟨?_, ?_⟩ ops
  all_goals exact fun _ h => absurd h not_mem_nil

end Medre.Storage
