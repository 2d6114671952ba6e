import Medre.Storage.Footprint

/-! # Content authority only shrinks

A mandatory dependency changes by being released, once; a grant by getting a tombstone, once; a
policy not at all. -/

namespace Medre.Storage

open Medre.Framework

/-! ## The evolution of content authority -/

/-- From `a` to `b` dependencies are released, grants closed, policies kept, and a dependency is
added only under a key in `own`. -/
structure ContentGrows (own : String × OwnerKind × String → Prop) (a b : Db) : Prop where
  kept : ∀ d ∈ a.dependencies.rows, ∃ d' ∈ b.dependencies.rows, d.Stems d'
  origin : ∀ d' ∈ b.dependencies.rows,
    (∃ d ∈ a.dependencies.rows, d.Stems d') ∨ own d'.key
  grants : ∀ g ∈ a.grants.rows, ∃ g' ∈ b.grants.rows, g.Stems g'
  policies : ∀ p ∈ a.policies.rows, p ∈ b.policies.rows

variable {own : String × OwnerKind × String → Prop}

theorem ContentGrows.of_eq {a b : Db} (hd : b.dependencies = a.dependencies)
    (hg : b.grants = a.grants) (hp : b.policies = a.policies) : ContentGrows own a b where
  kept d h := ⟨d, hd ▸ h, .refl d⟩
  origin d h := .inl ⟨d, hd ▸ h, .refl d⟩
  grants g h := ⟨g, hg ▸ h, .inl rfl⟩
  policies _ h := hp ▸ h

theorem ContentGrows.trans {a b c : Db} (hab : ContentGrows own a b)
    (hbc : ContentGrows own b c) : ContentGrows own a c where
  kept d hd := by
    obtain ⟨d', hd', hs⟩ := hab.kept d hd
    obtain ⟨d'', hd'', hs'⟩ := hbc.kept d' hd'
    exact ⟨d'', hd'', hs.trans hs'⟩
  origin d'' hd'' := by
    rcases hbc.origin d'' hd'' with ⟨d', hd', hs'⟩ | hown
    · rcases hab.origin d' hd' with ⟨d, hd, hs⟩ | hown
      · exact .inl ⟨d, hd, hs.trans hs'⟩
      · exact .inr (hs'.key_eq ▸ hown)
    · exact .inr hown
  grants g hg := by
    obtain ⟨g', hg', hs⟩ := hab.grants g hg
    obtain ⟨g'', hg'', hs'⟩ := hbc.grants g' hg'
    exact ⟨g'', hg'', hs.trans hs'⟩
  policies p hp := hbc.policies p (hab.policies p hp)

def contentEvolution (own : String × OwnerKind × String → Prop) : Evolution Db where
  rel := ContentGrows own
  refl _ := .of_eq rfl rfl rfl
  trans := ContentGrows.trans

/-- `x` moves the store along `contentEvolution`. -/
def KeepsContent (own : String × OwnerKind × String → Prop) {α : Type} (x : StoreTx α) :
    Prop := Tx.Follows (contentEvolution own) x

/-! ## Statements -/

theorem keepsContent_of_writes {S : List TableName} {α : Type} {x : StoreTx α}
    (h : Writes S x) (hd : .dependencies ∉ S) (hg : .grants ∉ S) (hp : .policies ∉ S) :
    KeepsContent own x := by
  refine h.mono ?_
  intro a b hab
  exact .of_eq (hab .dependencies hd) (hab .grants hg) (hab .policies hp)

theorem keepsContent_release {p : Dependency → Bool} {at' : String}
    (hp : ∀ d, p d = true → d.releasedAt = none) :
    KeepsContent own (updateDependencies p (release at')) := by
  intro db n db' h
  obtain ⟨t', hu, -, rfl⟩ := run_updateTable.mp h
  have hstems : ∀ d : Dependency, d.Stems (if p d then release at' d else d) := by
    intro d
    by_cases hpd : p d = true
    · rw [if_pos hpd]
      exact .inr ⟨hp d hpd, at', rfl⟩
    · rw [if_neg hpd]
      exact .refl d
  refine ⟨?_, ?_, fun g hg => ⟨g, hg, .inl rfl⟩, fun p hp => hp⟩
  · intro d hd
    exact ⟨_, (Table.mem_update hu).mpr ⟨d, hd, rfl⟩, hstems d⟩
  · intro d' hd'
    obtain ⟨d, hd, rfl⟩ := (Table.mem_update hu).mp hd'
    exact .inl ⟨d, hd, hstems d⟩

theorem keepsContent_insertDependency {d : Dependency} (h : own d.key) :
    KeepsContent own (insertDependency d) := by
  refine .bind ?_ fun _ => .bind (.query _) fun _ => .require _ _
  intro db u db' hrun
  obtain ⟨t', hi, rfl⟩ := run_insertInto.mp hrun
  refine ⟨?_, ?_, fun g hg => ⟨g, hg, .inl rfl⟩, fun p hp => hp⟩
  · intro e he
    exact ⟨e, (Table.mem_insert hi).mpr (.inl he), .refl e⟩
  · intro e he
    rcases (Table.mem_insert hi).mp he with he | rfl
    · exact .inl ⟨e, he, .refl e⟩
    · exact .inr h

theorem keepsContent_tombstone {p : AccessGrant → Bool} {f : AccessGrant → AccessGrant}
    (hp : ∀ g, p g = true → g.Stems (f g)) : KeepsContent own (updateGrants p f) := by
  intro db n db' h
  obtain ⟨t', hu, -, rfl⟩ := run_updateTable.mp h
  refine ⟨fun d hd => ⟨d, hd, .refl d⟩, fun d hd => .inl ⟨d, hd, .refl d⟩, ?_, fun p hp => hp⟩
  intro g hg
  refine ⟨_, (Table.mem_update hu).mpr ⟨g, hg, rfl⟩, ?_⟩
  by_cases hpg : p g = true
  · rw [if_pos hpg]
    exact hp g hpg
  · rw [if_neg hpg]
    exact .inl rfl

theorem keepsContent_insertGrant (g : AccessGrant) : KeepsContent own (insertGrant g) := by
  intro db u db' hrun
  obtain ⟨t', hi, rfl⟩ := run_insertInto.mp hrun
  refine ⟨fun d hd => ⟨d, hd, .refl d⟩, fun d hd => .inl ⟨d, hd, .refl d⟩, ?_, fun p hp => hp⟩
  intro e he
  exact ⟨e, (Table.mem_insert hi).mpr (.inl he), .inl rfl⟩

theorem keepsContent_insertPolicy (p : AccessPolicy) : KeepsContent own (insertPolicy p) := by
  refine .bind ?_ fun _ => .bind (.query _) fun _ => .require _ _
  intro db u db' hrun
  obtain ⟨t', hi, rfl⟩ := run_insertInto.mp hrun
  refine ⟨fun d hd => ⟨d, hd, .refl d⟩, fun d hd => .inl ⟨d, hd, .refl d⟩,
    fun g hg => ⟨g, hg, .inl rfl⟩, ?_⟩
  intro q hq
  exact (Table.mem_insert hi).mpr (.inl hq)

theorem keepsContent_other {t : TableName} {α : Type} {x : StoreTx α}
    (ht : t ∉ [TableName.dependencies, .grants, .policies]) (h : Writes [t] x) :
    KeepsContent own x := by
  simp only [List.mem_cons, List.not_mem_nil, or_false, not_or] at ht
  refine keepsContent_of_writes h ?_ ?_ ?_ <;> rw [List.mem_singleton]
  · exact Ne.symm ht.1
  · exact Ne.symm ht.2.1
  · exact Ne.symm ht.2.2

theorem content_rules (S : List TableName) (own : String × OwnerKind × String → Prop) :
    StatementRules (contentEvolution own) S own where
  event _ r := keepsContent_other (by decide)
    ((footprint_rules [.events] own).event (by decide) r)
  bodyIdentity _ r := keepsContent_other (by decide)
    ((footprint_rules [.bodyIdentity] own).bodyIdentity (by decide) r)
  bodyContent _ r := keepsContent_other (by decide)
    ((footprint_rules [.bodyContent] own).bodyContent (by decide) r)
  routingFacts _ r := keepsContent_other (by decide)
    ((footprint_rules [.routingFacts] own).routingFacts (by decide) r)
  relation _ r := keepsContent_other (by decide)
    ((footprint_rules [.relations] own).relation (by decide) r)
  ingressInsert _ r := keepsContent_other (by decide)
    ((footprint_rules [.ingressWork] own).ingressInsert (by decide) r)
  nativeRef _ r := keepsContent_other (by decide)
    ((footprint_rules [.nativeRefs] own).nativeRef (by decide) r)
  nativeRefOrIgnore _ r := keepsContent_other (by decide)
    ((footprint_rules [.nativeRefs] own).nativeRefOrIgnore (by decide) r)
  outboxInsert _ r := keepsContent_other (by decide)
    ((footprint_rules [.outbox] own).outboxInsert (by decide) r)
  snapshotInsert _ s := keepsContent_other (by decide)
    ((footprint_rules [.snapshots] own).snapshotInsert (by decide) s)
  snapshotRetire _ o := keepsContent_other (by decide)
    ((footprint_rules [.snapshots] own).snapshotRetire (by decide) o)
  receipt _ r := keepsContent_other (by decide)
    ((footprint_rules [.receipts] own).receipt (by decide) r)
  diagnostic _ d := keepsContent_other (by decide)
    ((footprint_rules [.diagnostics] own).diagnostic (by decide) d)
  decision _ d := keepsContent_other (by decide)
    ((footprint_rules [.decisions] own).decision (by decide) d)
  radioInsert _ r := keepsContent_other (by decide)
    ((footprint_rules [.radio] own).radioInsert (by decide) r)
  cursor _ c := keepsContent_other (by decide)
    ((footprint_rules [.sweepCursor] own).cursor (by decide) c)
  ingressUpdate _ p f := keepsContent_other (by decide)
    ((footprint_rules [.ingressWork] own).ingressUpdate (by decide) p f)
  outboxUpdate _ p f := keepsContent_other (by decide)
    ((footprint_rules [.outbox] own).outboxUpdate (by decide) p f)
  radioUpdate _ p f := keepsContent_other (by decide)
    ((footprint_rules [.radio] own).radioUpdate (by decide) p f)
  dependency _ _ h := keepsContent_insertDependency h
  releases _ _ _ h := keepsContent_release h
  policy _ p := keepsContent_insertPolicy p
  grant _ g := keepsContent_insertGrant g
  tombstones _ _ _ h := keepsContent_tombstone h

theorem step_content (x : Externals) (db : Db) (op : Op) :
    ContentGrows op.mayOwn db (step x db op).1 :=
  step_follows x db op (content_rules op.writes op.mayOwn)

end Medre.Storage
