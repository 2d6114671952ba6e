import Medre.Framework.Ancestry
import Medre.Planning.ConversationGraph

/-! # Conversations, computed from scratch

A store determines the parent of every event and with it its membership. What a relation
resolves to is final; a parent changes only when an earlier relation gets a target. -/

namespace Medre.Planning

open List Medre.Framework Medre.Storage

variable {rs : List RelationRow} {r : RelationRow} {p t x : String} {n : ℕ}
  {m : ConversationMembership}

/-! ## Memberships of a store -/

def namedTarget (db : Db) (r : RelationRow) : Option String :=
  match r.targetEventId with
  | some target => some target
  | none => (targetNativeRef r).bind db.eventOf

def resolvesTo (db : Db) (r : RelationRow) : Option String :=
  (namedTarget db r).filter fun e => db.hasEvent e

/-- The parent of an event: the target of its first relation that resolves. -/
def parentOf (db : Db) (eventId : String) : Option String :=
  (relationsOf db eventId).findSome? (resolvesTo db)

/-- The edge chosen among relations, from the dependencies seen so far. -/
def selectEdge (db : Db) (first : Option String) (hasDependency : Bool) :
    List RelationRow → Edge
  | [] => ⟨none, first, hasDependency⟩
  | r :: rs =>
    match resolvesTo db r with
    | some target => ⟨some target, some r.relationType, true⟩
    | none =>
      if hasTarget r then selectEdge db (firstType first r.relationType) true rs
      else selectEdge db first hasDependency rs

def edgeOf (db : Db) (eventId : String) : Edge :=
  selectEdge db none false (relationsOf db eventId)

/-- The membership of an event, computed from scratch: its chain of parents ends at the root, or
enters a cycle whose least event is the root. -/
structure FromScratch (db : Db) (e : String) (m : ConversationMembership) : Prop where
  eventId : m.eventId = e
  target : m.resolvedTargetEventId = parentOf db e
  relationType : m.relationType = (edgeOf db e).relationType
  chain :
    (EndsAt (parentOf db) e m.depth m.rootEventId ∧
      m.resolutionState = if (relationsOf db m.rootEventId).any hasTarget then .unresolved
        else if m.depth = 0 then .root else .resolved) ∨
    (∃ c, Enters (parentOf db) e m.depth c ∧
      IsLeast {x | ∃ n, ancestor (parentOf db) n c = some x} m.rootEventId ∧
      m.resolutionState = if m.depth = 0 then .cycle else .resolved)

section Edges

variable {db : Db} {first : Option String} {dep : Bool}

@[simp] theorem selectEdge_parentId :
    (selectEdge db first dep rs).parentId = rs.findSome? (resolvesTo db) := by
  induction rs generalizing first dep with
  | nil => rfl
  | cons r rs ih =>
    rw [selectEdge, findSome?_cons]
    cases resolvesTo db r with
    | some target => rfl
    | none =>
      show (if hasTarget r then _ else _ : Edge).parentId = _
      split <;> exact ih

theorem selectEdge_hasDependency (h : rs.findSome? (resolvesTo db) = none) :
    (selectEdge db first dep rs).hasDependency = (dep || rs.any hasTarget) := by
  induction rs generalizing first dep with
  | nil => simp [selectEdge]
  | cons r rs ih =>
    rw [findSome?_cons] at h
    cases hr : resolvesTo db r with
    | some target =>
      rw [hr] at h
      cases h
    | none =>
      rw [hr] at h
      rw [selectEdge, hr]
      cases ht : hasTarget r <;> simp [ih h, ht]

theorem edgeOf_parentId (db : Db) (e : String) : (edgeOf db e).parentId = parentOf db e :=
  selectEdge_parentId

theorem edgeOf_hasDependency {e : String} (h : parentOf db e = none) :
    (edgeOf db e).hasDependency = (relationsOf db e).any hasTarget := by
  rw [edgeOf, selectEdge_hasDependency h, Bool.false_or]

theorem resolvesTo_stored (h : resolvesTo db r = some t) : db.hasEvent t = true :=
  (Option.filter_eq_some_iff.mp h).2

theorem parentOf_stored {e : String} (h : parentOf db e = some p) : db.hasEvent p = true := by
  obtain ⟨r, -, hr⟩ := exists_of_findSome?_eq_some h
  exact resolvesTo_stored hr

theorem ancestor_stored {e : String} (he : db.hasEvent e = true)
    (h : ancestor (parentOf db) n e = some x) : db.hasEvent x = true :=
  ancestor_closed (P := fun x => db.hasEvent x = true) (fun _ _ _ hp => parentOf_stored hp) he h

end Edges

theorem FromScratch.unique {db : Db} {e : String} {m' : ConversationMembership}
    (h : FromScratch db e m) (h' : FromScratch db e m') : m = m' := by
  have hrest : m.depth = m'.depth ∧ m.rootEventId = m'.rootEventId ∧
      m.resolutionState = m'.resolutionState := by
    rcases h.chain with ⟨hends, hstate⟩ | ⟨c, henters, hleast, hstate⟩
    · rcases h'.chain with ⟨hends', hstate'⟩ | ⟨c', henters', -⟩
      · obtain ⟨hd, hr⟩ := hends.unique hends'
        exact ⟨hd, hr, by rw [hstate, hstate', hd, hr]⟩
      · exact absurd henters' hends.not_enters
    · rcases h'.chain with ⟨hends', -⟩ | ⟨c', henters', hleast', hstate'⟩
      · exact absurd henters hends'.not_enters
      · obtain ⟨hd, rfl⟩ := henters.unique henters'
        exact ⟨hd, hleast.unique hleast', by rw [hstate, hstate', hd]⟩
  obtain ⟨hd, hr, hs⟩ := hrest
  have he := h.eventId.trans h'.eventId.symm
  have ht := h.target.trans h'.target.symm
  have hy := h.relationType.trans h'.relationType.symm
  cases m
  cases m'
  simp only at hd hr hs he ht hy
  subst hd hr hs he ht hy
  rfl

/-! ## Facts only grow -/

/-- From `db` to `db'` events keep their relations, and identities their event. -/
structure FactsGrow (db db' : Db) : Prop where
  events : ∀ e, db.hasEvent e = true → db'.hasEvent e = true
  relations : ∀ e, db.hasEvent e = true → relationsOf db' e = relationsOf db e
  refs : ∀ k e, db.eventOf k = some e → db'.eventOf k = some e
  relationRows : ∀ r ∈ db.relations.rows, r ∈ db'.relations.rows
  refRows : ∀ n ∈ db.nativeRefs.rows, n ∈ db'.nativeRefs.rows

theorem FactsGrow.refl (db : Db) : FactsGrow db db where
  events _ h := h
  relations _ _ := rfl
  refs _ _ h := h
  relationRows _ h := h
  refRows _ h := h

theorem FactsGrow.trans {a b c : Db} (hab : FactsGrow a b) (hbc : FactsGrow b c) :
    FactsGrow a c where
  events e h := hbc.events e (hab.events e h)
  relations e h := (hbc.relations e (hab.events e h)).trans (hab.relations e h)
  refs k e h := hbc.refs k e (hab.refs k e h)
  relationRows r h := hbc.relationRows r (hab.relationRows r h)
  refRows n h := hbc.refRows n (hab.refRows n h)

section Growth

variable {db db' db'' : Db}

theorem resolvesTo_eq_some : resolvesTo db r = some t ↔ db.hasEvent t = true ∧
    (r.targetEventId = some t ∨
      r.targetEventId = none ∧ ∃ k, targetNativeRef r = some k ∧ db.eventOf k = some t) := by
  rw [resolvesTo, Option.filter_eq_some_iff, and_comm, namedTarget]
  cases r.targetEventId <;> simp [Option.bind_eq_some_iff]

theorem resolvesTo_of (ht : resolvesTo db r = some t) (hstored : db'.hasEvent t = true)
    (hrefs : ∀ k, db.eventOf k = some t → db'.eventOf k = some t) :
    resolvesTo db' r = some t := by
  refine resolvesTo_eq_some.mpr ⟨hstored, (resolvesTo_eq_some.mp ht).2.imp_right ?_⟩
  rintro ⟨hnone, k, hk, he⟩
  exact ⟨hnone, k, hk, hrefs k he⟩

theorem FactsGrow.resolvesTo (h : FactsGrow db db') (ht : resolvesTo db r = some t) :
    Planning.resolvesTo db' r = some t :=
  resolvesTo_of ht (h.events t (resolvesTo_eq_some.mp ht).1) (h.refs · t)

theorem FactsGrow.resolvesTo_none (h : FactsGrow db db') (hr : Planning.resolvesTo db' r = none) :
    Planning.resolvesTo db r = none := by
  cases ht : Planning.resolvesTo db r with
  | none => rfl
  | some t =>
    rw [h.resolvesTo ht] at hr
    cases hr

/-- Up to the relation that is chosen in `db'`, the relations resolve as in `db`. -/
def Stable (db db' : Db) : List RelationRow → Prop
  | [] => True
  | r :: rs =>
    match resolvesTo db' r with
    | some t => resolvesTo db r = some t
    | none => Stable db db' rs

theorem stable_cons_some (h : resolvesTo db' r = some t) :
    Stable db db' (r :: rs) ↔ resolvesTo db r = some t := by
  rw [Stable, h]

theorem stable_cons_none (h : resolvesTo db' r = none) :
    Stable db db' (r :: rs) ↔ Stable db db' rs := by
  rw [Stable, h]

theorem Stable.selectEdge (h : FactsGrow db db') (hs : Stable db db' rs) (first : Option String)
    (dep : Bool) :
    selectEdge db' first dep rs = Planning.selectEdge db first dep rs := by
  induction rs generalizing first dep with
  | nil => rfl
  | cons r rs ih =>
    cases hr : Planning.resolvesTo db' r with
    | some t => simp only [Planning.selectEdge, hr, (stable_cons_some hr).mp hs]
    | none =>
      have hrest := ih ((stable_cons_none hr).mp hs)
      simp only [Planning.selectEdge, hr, h.resolvesTo_none hr, hrest]

theorem Stable.trans (hbc : FactsGrow db' db'') (h : Stable db db' rs) (h' : Stable db' db'' rs) :
    Stable db db'' rs := by
  induction rs with
  | nil => trivial
  | cons r rs ih =>
    cases hr : resolvesTo db'' r with
    | some t =>
      have ht := (stable_cons_some hr).mp h'
      exact (stable_cons_some hr).mpr ((stable_cons_some ht).mp h)
    | none =>
      have hr' := hbc.resolvesTo_none hr
      exact (stable_cons_none hr).mpr
        (ih ((stable_cons_none hr').mp h) ((stable_cons_none hr).mp h'))

theorem Stable.earlier (hab : FactsGrow db db') (hbc : FactsGrow db' db'') (h : Stable db db'' rs) :
    Stable db db' rs ∧ Stable db' db'' rs := by
  induction rs with
  | nil => exact ⟨trivial, trivial⟩
  | cons r rs ih =>
    cases hr : resolvesTo db'' r with
    | some t =>
      have ht := (stable_cons_some hr).mp h
      have ht' := hab.resolvesTo ht
      exact ⟨(stable_cons_some ht').mpr ht, (stable_cons_some hr).mpr ht'⟩
    | none =>
      obtain ⟨h1, h2⟩ := ih ((stable_cons_none hr).mp h)
      exact ⟨(stable_cons_none (hbc.resolvesTo_none hr)).mpr h1, (stable_cons_none hr).mpr h2⟩

theorem exists_of_not_stable (h : ¬Stable db db' rs) :
    ∃ r ∈ rs, ∃ t, resolvesTo db' r = some t ∧ resolvesTo db r ≠ some t ∧
      rs.findSome? (resolvesTo db') = some t := by
  induction rs with
  | nil => exact absurd trivial h
  | cons r rs ih =>
    cases hr : resolvesTo db' r with
    | some t =>
      rw [stable_cons_some hr] at h
      exact ⟨r, mem_cons_self, t, hr, h, by rw [findSome?_cons, hr]⟩
    | none =>
      rw [stable_cons_none hr] at h
      obtain ⟨r', hmem, t, ht, hne, hfind⟩ := ih h
      exact ⟨r', mem_cons_of_mem _ hmem, t, ht, hne, by
        rw [findSome?_cons, hr]; exact hfind⟩

/-! ## Settled events -/

/-- The whole ancestry of the event is that of `db`. -/
def Settled (db db' : Db) (e : String) : Prop :=
  ∀ n x, ancestor (parentOf db') n e = some x →
    db.hasEvent x = true ∧ Stable db db' (relationsOf db x)

theorem Settled.stored (h : Settled db db' e) : db.hasEvent e = true := (h 0 e rfl).1

theorem edgeOf_stable (h : FactsGrow db db') (hx : db.hasEvent x = true)
    (hs : Stable db db' (relationsOf db x)) : edgeOf db' x = edgeOf db x := by
  unfold edgeOf
  rw [h.relations x hx]
  exact hs.selectEdge h none false

theorem parentOf_stable (h : FactsGrow db db') (hx : db.hasEvent x = true)
    (hs : Stable db db' (relationsOf db x)) : parentOf db' x = parentOf db x := by
  rw [← edgeOf_parentId, ← edgeOf_parentId, edgeOf_stable h hx hs]

variable {e : String}

theorem Settled.agree (h : FactsGrow db db') (hs : Settled db db' e) :
    ∀ n x, ancestor (parentOf db') n e = some x → parentOf db x = parentOf db' x :=
  fun n x hx => (parentOf_stable h (hs n x hx).1 (hs n x hx).2).symm

theorem Settled.ancestor (h : FactsGrow db db') (hs : Settled db db' e) (n : ℕ) :
    ancestor (parentOf db) n e = Framework.ancestor (parentOf db') n e :=
  ancestor_congr (hs.agree h) n

theorem Settled.of_ancestor (hs : Settled db db' e)
    (hx : Framework.ancestor (parentOf db') n e = some x) : Settled db db' x :=
  fun m y hy => hs (n + m) y (ancestor_trans hx hy)

theorem Settled.parent (h : FactsGrow db db') (hs : Settled db db' e)
    (hp : parentOf db e = some p) : Settled db db' p :=
  hs.of_ancestor (ancestor_one ((hs.agree h 0 e rfl).symm.trans hp))

theorem Settled.refl (he : db.hasEvent e = true) : Settled db db e := by
  intro n x hx
  refine ⟨ancestor_stored he hx, ?_⟩
  induction relationsOf db x with
  | nil => trivial
  | cons r rs ih =>
    cases hr : resolvesTo db r with
    | some t => exact (stable_cons_some hr).mpr hr
    | none => exact (stable_cons_none hr).mpr ih

theorem Settled.trans (hab : FactsGrow db db') (hbc : FactsGrow db' db'')
    (h : Settled db db' e) (h' : Settled db' db'' e) : Settled db db'' e := by
  intro n x hx
  obtain ⟨hx', hs'⟩ := h' n x hx
  obtain ⟨hx0, hs⟩ := h n x ((h'.ancestor hbc n).trans hx)
  rw [hab.relations x hx0] at hs'
  exact ⟨hx0, hs.trans hbc hs'⟩

theorem Settled.earlier (hab : FactsGrow db db') (hbc : FactsGrow db' db'')
    (h : Settled db db'' e) : Settled db db' e ∧ Settled db' db'' e := by
  have hac := hab.trans hbc
  have hlater : Settled db' db'' e := by
    intro n x hx
    obtain ⟨hx0, hs⟩ := h n x hx
    refine ⟨hab.events x hx0, ?_⟩
    rw [hab.relations x hx0]
    exact (hs.earlier hab hbc).2
  refine ⟨?_, hlater⟩
  intro n x hx
  obtain ⟨hx0, hs⟩ := h n x ((hlater.ancestor hbc n).symm.trans hx)
  exact ⟨hx0, (hs.earlier hab hbc).1⟩

theorem Settled.fromScratch (h : FactsGrow db db') (hs : Settled db db' e)
    (hm : FromScratch db e m) : FromScratch db' e m := by
  have hagree : ∀ n x, Framework.ancestor (parentOf db) n e = some x →
      parentOf db' x = parentOf db x := by
    intro n x hx
    exact (hs.agree h n x ((hs.ancestor h n).symm.trans hx)).symm
  have he := hs 0 e rfl
  refine ⟨hm.eventId, hm.target.trans (hagree 0 e rfl).symm, ?_, ?_⟩
  · rw [hm.relationType, edgeOf_stable h he.1 he.2]
  · rcases hm.chain with ⟨hends, hstate⟩ | ⟨c, henters, hleast, hstate⟩
    · refine .inl ⟨hends.congr hagree, ?_⟩
      have hroot := (hs m.depth m.rootEventId ((hs.ancestor h _).symm.trans hends.1)).1
      rw [hstate, h.relations _ hroot]
    · refine .inr ⟨c, henters.congr hagree, ?_, hstate⟩
      have hset : {x | ∃ n, Framework.ancestor (parentOf db') n c = some x} =
          {x | ∃ n, Framework.ancestor (parentOf db) n c = some x} := by
        ext x
        refine exists_congr fun n => ?_
        rw [ancestor_congr (agree_ancestor hagree henters.1) n]
      rw [hset]
      exact hleast

end Growth

end Medre.Planning
