import Mathlib.Data.List.Perm.Subperm
import Mathlib.Data.List.TakeWhile
import Medre.Planning.ConversationCommits

/-! # One ancestry chain, calculated while others commit

Whatever is committed between its reads, a calculation is right about every event whose ancestry
has not changed since it began. -/

namespace Medre.Planning

open List Medre.Framework Medre.Storage

variable {current e k : String} {r : RelationRow} {m : ConversationMembership} {edge : Edge}
  {path : Path} {node : String × Edge}

/-! ## The store during a calculation -/

def RelationsOwned (db : Db) : Prop := ∀ r ∈ db.relations.rows, db.hasEvent r.eventId = true

/-- The store during a calculation that began at `db₀`; it never has more than `B`
events. -/
structure During (db₀ : Db) (B : ℕ) (s : ConversationStore) : Prop where
  facts : FactsGrow db₀ s.db
  bounded : s.db.events.rows.length ≤ B
  owned : RelationsOwned db₀ → RelationsOwned s.db

theorem answer_db (s : ConversationStore) (c : ConversationCall) : (s.answer c).1.db = s.db := by
  cases c with
  | putMembership m =>
    show (s.putMembership m).1.db = s.db
    unfold ConversationStore.putMembership
    split <;> rfl
  | _ => rfl

/-- What others may do meanwhile. -/
structure Rely (db₀ : Db) (B : ℕ) (R : ConversationStore → ConversationStore → Prop) :
    Prop where
  during : ∀ {s s'}, During db₀ B s → R s s' → During db₀ B s'
  facts : ∀ {s s'}, R s s' → FactsGrow s.db s'.db
  memberships : ∀ {s s'}, R s s' → s'.memberships = s.memberships

/-- What the calculation knows of an event: its relations, or that it was missing. -/
def Found (db₀ db : Db) (e : String) : Option (List RelationRow) → Prop
  | some relations => db.hasEvent e = true ∧ relationsOf db e = relations
  | none => db₀.hasEvent e = false

theorem Found.grows {db₀ db db' : Db} {found : Option (List RelationRow)} (h : Found db₀ db e found)
    (hg : FactsGrow db db') : Found db₀ db' e found := by
  cases found with
  | none => exact h
  | some relations => exact ⟨hg.events e h.1, (hg.relations e h.1).trans h.2⟩

/-- A calculation in progress: the store with the memberships `M`, and what has been
read of events. -/
structure Reading (db₀ : Db) (B : ℕ) (M : String → Option ConversationMembership)
    (events : EventCache) (s : ConversationStore) : Prop where
  during : During db₀ B s
  memberships : s.memberships = M
  events : ∀ e found, events.get? e = some found → Found db₀ s.db e found

section Walk

variable {db₀ : Db} {B : ℕ} {R G : ConversationStore → ConversationStore → Prop}
  {M : String → Option ConversationMembership} {events : EventCache}
  {s s' : ConversationStore} {E : ConversationError → ConversationStore → Prop}

theorem Reading.later (hR : Rely db₀ B R) (h : Reading db₀ B M events s) (hs : R s s') :
    Reading db₀ B M events s' where
  during := hR.during h.during hs
  memberships := (hR.memberships hs).trans h.memberships
  events e found hf := (h.events e found hf).grows (hR.facts hs)

theorem wp_read (hR : Rely db₀ B R) (hG : ∀ s, G s s) {c : ConversationCall}
    (hread : ∀ s : ConversationStore, (s.answer c).1 = s) {Q : c.Answer → ConversationStore → Prop}
    (h : Reading db₀ B M events s)
    (hQ : ∀ s', Reading db₀ B M events s' → FactsGrow s.db s'.db → Q (s'.answer c).2 s') :
    Task.wp ConversationStore.answer R G (ask c) Q E s := by
  refine Task.wp_perform fun s' hs => ?_
  rw [hread s']
  exact ⟨hG s', hQ s' (h.later hR hs) (hR.facts hs)⟩

/-- The caches only get new entries. -/
def Keeps {β : Type} (d d' : Dict String β) : Prop :=
  ∀ k v, d.get? k = some v → d'.get? k = some v

theorem Keeps.mem_keys {β : Type} {d d' : Dict String β} (h : Keeps d d') (hk : k ∈ d.keys) :
    k ∈ d'.keys := by
  obtain ⟨v, hv⟩ := Dict.mem_keys.mp hk
  exact Dict.mem_keys.mpr ⟨v, h k v hv⟩

theorem keeps_set {β : Type} {d : Dict String β} {v : β} (h : k ∉ d.keys) :
    Keeps d (d.set k v) := by
  intro k' v' hv
  have hne : k' ≠ k := by
    rintro rfl
    exact h (Dict.mem_keys.mpr ⟨v', hv⟩)
  rw [Dict.get?_set_of_ne hne]
  exact hv

theorem wp_getEvent (hR : Rely db₀ B R) (hG : ∀ s, G s s) (e : String)
    (h : Reading db₀ B M events s) :
    Task.wp ConversationStore.answer R G (getEvent events e) (fun r s' =>
      Reading db₀ B M r.2 s' ∧ FactsGrow s.db s'.db ∧ Keeps events r.2 ∧
        r.2.get? e = some r.1) E s := by
  unfold getEvent
  cases hget : events.get? e with
  | some found => exact ⟨h, .refl _, fun _ _ hv => hv, hget⟩
  | none =>
    have hfresh : e ∉ events.keys := Dict.get?_eq_none.mp hget
    -- what is found now stays true, and what was there at the beginning is found
    have hstore : ∀ (s' : ConversationStore) (found : Option (List RelationRow)),
        Reading db₀ B M events s' → Found db₀ s'.db e found →
        Reading db₀ B M (events.set e found) s' := by
      intro s' found hs' hfound
      refine ⟨hs'.during, hs'.memberships, fun e' found' hget' => ?_⟩
      rw [Dict.get?_set] at hget'
      split at hget'
      · next heq =>
          cases hget'
          exact heq ▸ hfound
      · exact hs'.events e' found' hget'
    refine Task.wp_seq (Q := fun found s' => Reading db₀ B M events s' ∧
      FactsGrow s.db s'.db ∧ Found db₀ s'.db e found) ?_ ?_
    · refine Task.wp_seq (Q := fun (stored : Bool) s' => Reading db₀ B M events s' ∧
        FactsGrow s.db s'.db ∧ s'.db.hasEvent e = stored)
        (wp_read hR hG (c := .getEvent e) (fun _ => rfl) h fun s' hs' hg => ⟨hs', hg, rfl⟩) ?_
      rintro stored s₁ ⟨h₁, hg₁, hstored⟩
      cases stored with
      | true =>
        refine Task.wp_seq (Q := fun relations s' => Reading db₀ B M events s' ∧
          FactsGrow s.db s'.db ∧ Found db₀ s'.db e (some relations)) ?_
          fun relations s' hs' => hs'
        exact wp_read hR hG (c := .getRelations e) (fun _ => rfl) h₁
          fun s' hs' hg => ⟨hs', hg₁.trans hg, hg.events e hstored, rfl⟩
      | false =>
        refine ⟨h₁, hg₁, ?_⟩
        show db₀.hasEvent e = false
        rw [← Bool.not_eq_true]
        intro hold
        rw [h₁.during.facts.events e hold] at hstored
        cases hstored
    · rintro found s' ⟨hs', hg, hfound⟩
      exact ⟨hstore s' found hs' hfound, hg, keeps_set hfresh, Dict.get?_set_self⟩

/-! ## Choosing the parent -/

/-- What is known of a chosen target: it is stored, and has been read. -/
def Seen (events : EventCache) (e : String) : Prop :=
  ∃ relations, events.get? e = some (some relations)

theorem wp_storedTarget (hR : Rely db₀ B R) (hG : ∀ s, G s s) (e : String)
    (h : Reading db₀ B M events s) :
    Task.wp ConversationStore.answer R G (storedTarget events e) (fun r s' =>
      Reading db₀ B M r.2 s' ∧ FactsGrow s.db s'.db ∧
        (db₀.hasEvent e = true → r.1 = some e) ∧
        (∀ t, r.1 = some t → t = e ∧ s'.db.hasEvent e = true ∧ Seen r.2 e)) E s := by
  refine Task.wp_seq (wp_getEvent hR hG e h) ?_
  rintro ⟨found, events'⟩ s' ⟨hs', hg, -, hget⟩
  have hfound := hs'.events e found hget
  refine ⟨hs', hg, ?_⟩
  cases found with
  | none =>
    refine ⟨fun hold => ?_, nofun⟩
    rw [show db₀.hasEvent e = false from hfound] at hold
    cases hold
  | some relations =>
    refine ⟨fun _ => rfl, ?_⟩
    rintro t ⟨rfl⟩
    exact ⟨rfl, hfound.1, relations, hget⟩

theorem resolvesTo_explicit {db : Db} {target : String} (h : r.targetEventId = some target)
    (t : String) :
    resolvesTo db r = some t ↔ t = target ∧ db.hasEvent target = true := by
  rw [resolvesTo_eq_some, h]
  constructor
  · rintro ⟨hstored, heq | ⟨hnone, -⟩⟩
    · cases heq
      exact ⟨rfl, hstored⟩
    · cases hnone
  · rintro ⟨rfl, hstored⟩
    exact ⟨hstored, .inl rfl⟩

theorem resolvesTo_ref {db : Db} {k : String × Option String × String} (h : r.targetEventId = none)
    (hk : targetNativeRef r = some k) (t : String) :
    resolvesTo db r = some t ↔ db.eventOf k = some t ∧ db.hasEvent t = true := by
  rw [resolvesTo_eq_some, h, hk, and_comm]
  simp

theorem wp_resolveTarget (hR : Rely db₀ B R) (hG : ∀ s, G s s) (r : RelationRow)
    (h : Reading db₀ B M events s) :
    Task.wp ConversationStore.answer R G (resolveTarget events r) (fun a s' =>
      Reading db₀ B M a.2 s' ∧ FactsGrow s.db s'.db ∧
        (∀ t, resolvesTo db₀ r = some t → a.1 = some t) ∧
        (∀ t, a.1 = some t → resolvesTo s'.db r = some t ∧ Seen a.2 t)) E s := by
  unfold resolveTarget
  cases hr : r.targetEventId with
  | some target =>
    refine Task.wp_mono ?_ (fun _ _ he => he) (wp_storedTarget hR hG target h)
    rintro a s' ⟨hs', hg, hold, hnew⟩
    refine ⟨hs', hg, ?_, ?_⟩
    · intro t ht
      obtain ⟨rfl, hstored⟩ := (resolvesTo_explicit hr t).mp ht
      exact hold hstored
    · intro t ht
      obtain ⟨rfl, hstored, hseen⟩ := hnew t ht
      exact ⟨(resolvesTo_explicit hr t).mpr ⟨rfl, hstored⟩, hseen⟩
  | none =>
    cases hk : targetNativeRef r with
    | none =>
      refine ⟨h, .refl _, ?_, nofun⟩
      intro t ht
      rw [resolvesTo, namedTarget, hr, hk] at ht
      cases ht
    | some k =>
      refine Task.wp_seq (Q := fun (resolved : Option String) s' =>
        Reading db₀ B M events s' ∧ FactsGrow s.db s'.db ∧ s'.db.eventOf k = resolved)
        (wp_read hR hG (c := .resolveNativeRef k) (fun _ => rfl) h
          fun s' hs' hg => ⟨hs', hg, rfl⟩) ?_
      rintro resolved s₁ ⟨h₁, hg₁, hresolved⟩
      cases resolved with
      | none =>
        refine ⟨h₁, hg₁, ?_, nofun⟩
        intro t ht
        have hlater := h₁.during.facts.refs k t ((resolvesTo_ref hr hk t).mp ht).1
        rw [hresolved] at hlater
        cases hlater
      | some target =>
        refine Task.wp_mono ?_ (fun _ _ he => he) (wp_storedTarget hR hG target h₁)
        rintro a s' ⟨hs', hg, hold, hnew⟩
        refine ⟨hs', hg₁.trans hg, ?_, ?_⟩
        · intro t ht
          obtain ⟨href, hstored⟩ := (resolvesTo_ref hr hk t).mp ht
          have hlater := h₁.during.facts.refs k t href
          rw [hresolved] at hlater
          cases hlater
          exact hold hstored
        · intro t ht
          obtain ⟨rfl, hstored, hseen⟩ := hnew t ht
          exact ⟨(resolvesTo_ref hr hk t).mpr ⟨hg.refs k t hresolved, hstored⟩, hseen⟩

theorem wp_selectParent (hR : Rely db₀ B R) (hG : ∀ s, G s s) (first : Option String)
    (dep : Bool) (rs : List RelationRow) (h : Reading db₀ B M events s) :
    Task.wp ConversationStore.answer R G (selectParent events first dep rs) (fun a s' =>
      Reading db₀ B M a.2 s' ∧ FactsGrow s.db s'.db ∧
        (Stable db₀ s'.db rs → a.1 = selectEdge db₀ first dep rs) ∧
        (∀ p, a.1.parentId = some p → s'.db.hasEvent p = true ∧ Seen a.2 p)) E s := by
  induction rs generalizing events first dep s with
  | nil => exact ⟨h, .refl _, fun _ => rfl, nofun⟩
  | cons r rs ih =>
    refine Task.wp_seq (wp_resolveTarget hR hG r h) ?_
    rintro ⟨target, events₁⟩ s₁ ⟨h₁, hg₁, hold, hnew⟩
    cases target with
    | some t =>
      obtain ⟨ht, hseen⟩ := hnew t rfl
      refine ⟨h₁, hg₁, ?_, ?_⟩
      · intro hstable
        rw [stable_cons_some ht] at hstable
        simp only [selectEdge, hstable]
      · rintro p ⟨rfl⟩
        exact ⟨resolvesTo_stored ht, hseen⟩
    | none =>
      -- what the relation does not resolve to, it did not resolve to before
      have hnone : resolvesTo db₀ r = none := by
        cases ht : resolvesTo db₀ r with
        | none => rfl
        | some t => cases hold t ht
      have hrest : ∀ (s' : ConversationStore), Stable db₀ s'.db (r :: rs) →
          Stable db₀ s'.db rs := by
        intro s' hstable
        cases ht : resolvesTo s'.db r with
        | none => exact (stable_cons_none ht).mp hstable
        | some t =>
          rw [stable_cons_some ht, hnone] at hstable
          cases hstable
      show Task.wp _ R G (if hasTarget r then _ else _) _ E s₁
      split
      · next htarget =>
          refine Task.wp_mono ?_ (fun _ _ he => he) (ih (firstType first r.relationType) true h₁)
          rintro a s' ⟨hs', hg, hedge, hparent⟩
          refine ⟨hs', hg₁.trans hg, fun hstable => ?_, hparent⟩
          simp only [selectEdge, hnone, htarget, if_true]
          exact hedge (hrest s' hstable)
      · next htarget =>
          refine Task.wp_mono ?_ (fun _ _ he => he) (ih first dep h₁)
          rintro a s' ⟨hs', hg, hedge, hparent⟩
          refine ⟨hs', hg₁.trans hg, fun hstable => ?_, hparent⟩
          simp only [selectEdge, hnone, htarget]
          exact hedge (hrest s' hstable)

end Walk

/-! ## Calculated memberships -/

/-- The event and its relations up to the chosen one are as in `db₀`. -/
def StableAt (db₀ db : Db) (e : String) : Prop :=
  db₀.hasEvent e = true ∧ Stable db₀ db (relationsOf db₀ e)

theorem Settled.stableAt {db₀ db : Db} (h : Settled db₀ db e) :
    StableAt db₀ db e := h 0 e rfl

/-- The cached memberships name stored events, are right about settled events, and
those of a settled cycle are there together. -/
structure CacheOk (db₀ db : Db) (cache : MembershipCache) : Prop where
  eventId : ∀ e m, cache.get? e = some m → m.eventId = e
  stored : ∀ e m, cache.get? e = some m → m.namesStored db = true
  sound : ∀ e m, cache.get? e = some m → Settled db₀ db e → FromScratch db₀ e m
  cycles : ∀ x y n, x ∈ cache.keys → Settled db₀ db y → OnCycle (parentOf db₀) y →
    ancestor (parentOf db₀) n y = some x → y ∈ cache.keys

theorem cacheOk_empty (db₀ db : Db) : CacheOk db₀ db .empty where
  eventId _ _ h := absurd h (by simp)
  stored _ _ h := absurd h (by simp)
  sound _ _ h := absurd h (by simp)
  cycles _ _ _ h := absurd h (by simp)

theorem namesStored_grows {db db' : Db} (h : FactsGrow db db') (hm : m.namesStored db = true) :
    m.namesStored db' = true := by
  simp only [ConversationMembership.namesStored, Bool.and_eq_true] at hm ⊢
  refine ⟨⟨h.events _ hm.1.1, h.events _ hm.1.2⟩, ?_⟩
  cases ht : m.resolvedTargetEventId with
  | none => rfl
  | some t =>
    have hstored := hm.2
    rw [ht] at hstored
    exact h.events t hstored

section Caches

variable {db₀ db db' : Db} {cache : MembershipCache}

theorem CacheOk.grows (h : CacheOk db₀ db cache) (h₀ : FactsGrow db₀ db)
    (hg : FactsGrow db db') : CacheOk db₀ db' cache where
  eventId := h.eventId
  stored e m hm := namesStored_grows hg (h.stored e m hm)
  sound e m hm hs := h.sound e m hm (hs.earlier h₀ hg).1
  cycles x y n hx hs := h.cycles x y n hx (hs.earlier h₀ hg).1

theorem CacheOk.set (h : CacheOk db₀ db cache) (h₀ : FactsGrow db₀ db)
    (hstored : m.namesStored db = true) (hm : Settled db₀ db m.eventId →
      FromScratch db₀ m.eventId m ∧ ¬OnCycle (parentOf db₀) m.eventId) :
    CacheOk db₀ db (cache.set m.eventId m) := by
  refine ⟨?_, ?_, ?_, ?_⟩
  · intro e m' hget
    rw [Dict.get?_set] at hget
    split at hget
    · next heq =>
        cases hget
        exact heq.symm
    · exact h.eventId e m' hget
  · intro e m' hget
    rw [Dict.get?_set] at hget
    split at hget
    · cases hget
      exact hstored
    · exact h.stored e m' hget
  · intro e m' hget hs
    rw [Dict.get?_set] at hget
    split at hget
    · next heq =>
        cases hget
        rw [heq] at hs ⊢
        exact (hm hs).1
    · exact h.sound e m' hget hs
  · intro x y n hx hs hcycle hn
    rcases Dict.mem_keys_set.mp hx with rfl | hx
    · have hsettled := hs.of_ancestor ((hs.ancestor h₀ n).symm.trans hn)
      exact absurd (hcycle.ancestor hn) (hm hsettled).2
    · exact Dict.mem_keys_set.mpr (.inr (h.cycles x y n hx hs hcycle hn))

theorem CacheOk.set_root (h : CacheOk db₀ db cache) (h₀ : FactsGrow db₀ db)
    (hstored : db.hasEvent e = true) (hparent : edge.parentId = none)
    (hedge : StableAt db₀ db e → edge = edgeOf db₀ e) :
    CacheOk db₀ db (cache.set e (rootMembership e edge)) := by
  refine h.set h₀ (m := rootMembership e edge) ?_ ?_
  · simp [ConversationMembership.namesStored, rootMembership, hstored]
  · intro hs
    have heq := hedge hs.stableAt
    have hnone : parentOf db₀ e = none := by rw [← edgeOf_parentId, ← heq, hparent]
    have hdep : edge.hasDependency = (relationsOf db₀ e).any hasTarget := by
      rw [heq, edgeOf_hasDependency hnone]
    refine ⟨⟨rfl, hnone.symm, congrArg Edge.relationType heq, .inl ⟨⟨rfl, hnone⟩, ?_⟩⟩, ?_⟩
    · show (if edge.hasDependency then _ else _ : ResolutionState) = _
      rw [hdep]
      rfl
    · intro hcycle
      obtain ⟨b, hb⟩ := hcycle.parent_some
      have hnone' : parentOf db₀ (rootMembership e edge).eventId = none := hnone
      rw [hnone'] at hb
      cases hb

theorem CacheOk.set_child (h : CacheOk db₀ db cache) (h₀ : FactsGrow db₀ db) {p : String}
    {parent : ConversationMembership} (hnew : e ∉ cache.keys) (hstored : db.hasEvent e = true)
    (hparent : edge.parentId = some p) (hcached : cache.get? p = some parent)
    (hedge : StableAt db₀ db e → edge = edgeOf db₀ e) :
    CacheOk db₀ db (cache.set e (childMembership e edge parent)) := by
  have hnames := h.stored p parent hcached
  simp only [ConversationMembership.namesStored, Bool.and_eq_true] at hnames
  refine h.set h₀ (m := childMembership e edge parent) ?_ ?_
  · have hp : db.hasEvent p = true := h.eventId p parent hcached ▸ hnames.1.1
    simp [ConversationMembership.namesStored, childMembership, hstored, hparent, hnames.1.2, hp]
  · intro hs
    have heq := hedge hs.stableAt
    have hp : parentOf db₀ e = some p := by rw [← edgeOf_parentId, ← heq, hparent]
    have hscratch := h.sound p parent hcached (hs.parent h₀ hp)
    -- a cycle through the event would be cached as a whole
    have hcycle : ¬OnCycle (parentOf db₀) e := fun hc =>
      hnew (h.cycles p e 1 (Dict.mem_keys.mpr ⟨parent, hcached⟩) hs hc (ancestor_one hp))
    refine ⟨⟨rfl, hparent.trans hp.symm, congrArg Edge.relationType heq, ?_⟩, hcycle⟩
    rcases hscratch.chain with ⟨hends, hstate⟩ | ⟨c, henters, hleast, hstate⟩
    · refine .inl ⟨hends.child hp, ?_⟩
      show (if parent.resolutionState = .unresolved then _ else _ : ResolutionState) =
        if (relationsOf db₀ parent.rootEventId).any hasTarget then _
        else if parent.depth + 1 = 0 then _ else _
      rw [hstate]
      by_cases hany : (relationsOf db₀ parent.rootEventId).any hasTarget = true
      · simp [hany]
      · split_ifs <;> simp_all
    · refine .inr ⟨c, henters.child hp hcycle, hleast, ?_⟩
      show (if parent.resolutionState = .unresolved then _ else _ : ResolutionState) =
        if parent.depth + 1 = 0 then _ else _
      rw [hstate, if_neg (Nat.succ_ne_zero _)]
      split_ifs <;> simp_all

/-! ## Cycles -/

/-- The path of a walk: the nodes follow each other by the edges that were chosen, and
the edges of stable nodes are right. -/
structure PathOk (db₀ db : Db) (cache : MembershipCache) (path : Path) : Prop where
  nodup : (path.map Prod.fst).Nodup
  stored : ∀ node ∈ path, db.hasEvent node.1 = true
  uncached : ∀ node ∈ path, node.1 ∉ cache.keys
  chain : path.IsChain fun a b => a.2.parentId = some b.1
  edges : ∀ node ∈ path, StableAt db₀ db node.1 → node.2 = edgeOf db₀ node.1

theorem PathOk.suffix {path' : Path} (h : PathOk db₀ db cache path) (hs : path' <:+ path) :
    PathOk db₀ db cache path' where
  nodup := h.nodup.sublist (hs.sublist.map _)
  stored node hn := h.stored node (hs.subset hn)
  uncached node hn := h.uncached node (hs.subset hn)
  chain := by
    obtain ⟨pre, rfl⟩ := hs
    exact (isChain_append.mp h.chain).2.1
  edges node hn := h.edges node (hs.subset hn)

theorem PathOk.grows (h : PathOk db₀ db cache path) (h₀ : FactsGrow db₀ db)
    (hg : FactsGrow db db') : PathOk db₀ db' cache path where
  nodup := h.nodup
  stored node hn := hg.events _ (h.stored node hn)
  uncached := h.uncached
  chain := h.chain
  edges node hn hs := h.edges node hn ⟨hs.1, (hs.2.earlier h₀ hg).1⟩

theorem PathOk.parents (h : PathOk db₀ db cache path) (h₀ : FactsGrow db₀ db) (hn : node ∈ path)
    (hs : Settled db₀ db node.1) {q : String} (hq : node.2.parentId = some q) :
    parentOf db₀ node.1 = some q ∧ Settled db₀ db q := by
  have hp : parentOf db₀ node.1 = some q := by
    rw [← edgeOf_parentId, ← h.edges node hn hs.stableAt, hq]
  exact ⟨hp, hs.parent h₀ hp⟩

theorem PathOk.settled (h : PathOk db₀ db cache path) (h₀ : FactsGrow db₀ db)
    (hhead : ∀ node ∈ path.head?, Settled db₀ db node.1) :
    (∀ node ∈ path, Settled db₀ db node.1) ∧
      (path.map Prod.fst).IsChain fun x y => parentOf db₀ x = some y := by
  induction path with
  | nil => exact ⟨nofun, .nil⟩
  | cons a path ih =>
    have ha := hhead a rfl
    cases path with
    | nil => exact ⟨fun node hn => mem_singleton.mp hn ▸ ha, .singleton _⟩
    | cons b path =>
      obtain ⟨hp, hb⟩ := h.parents h₀ mem_cons_self ha (isChain_cons_cons.mp h.chain).1
      obtain ⟨hall, hchain⟩ := ih (h.suffix (suffix_cons a _))
        (by rintro node ⟨rfl⟩; exact hb)
      exact ⟨forall_mem_cons.mpr ⟨ha, hall⟩, isChain_cons_cons.mpr ⟨hp, hchain⟩⟩

theorem foldl_min_isLeast (cycle : Path) (current : String) :
    IsLeast {x | x = current ∨ x ∈ cycle.map Prod.fst}
      (cycle.foldl (fun least node => min least node.1) current) := by
  induction cycle generalizing current with
  | nil => exact ⟨.inl rfl, fun x hx => by simpa using Eq.ge (by simpa using hx)⟩
  | cons node cycle ih =>
    obtain ⟨hmem, hlower⟩ := ih (min current node.1)
    refine ⟨?_, ?_⟩
    · rcases hmem with heq | hmem
      · rcases min_choice current node.1 with hmin | hmin
        · exact .inl (heq.trans hmin)
        · exact .inr (mem_cons.mpr (.inl (heq.trans hmin)))
      · exact .inr (mem_cons_of_mem _ hmem)
    · intro x hx
      have hhead : cycle.foldl (fun least node => min least node.1) (min current node.1) ≤
          min current node.1 := hlower (Or.inl rfl)
      rcases hx with rfl | hx
      · exact hhead.trans (min_le_left _ _)
      · rcases mem_cons.mp hx with rfl | hx
        · exact hhead.trans (min_le_right _ _)
        · exact hlower (.inr hx)

theorem CacheOk.closeCycle (h : CacheOk db₀ db cache) (h₀ : FactsGrow db₀ db) {rest : Path}
    (hpath : PathOk db₀ db cache (node :: rest))
    (hlast : ((node :: rest).getLast (by simp)).2.parentId = some node.1) :
    CacheOk db₀ db (closeCycle cache node.1 (node :: rest)) := by
  obtain ⟨root, hroot⟩ : ∃ root,
      (node :: rest).foldl (fun least node => min least node.1) node.1 = root := ⟨_, rfl⟩
  have hleast := foldl_min_isLeast (node :: rest) node.1
  rw [hroot] at hleast
  have hnew : Planning.closeCycle cache node.1 (node :: rest) = (node :: rest).foldl
      (fun cache node => cache.set node.1 (cycleMembership root node)) cache := by
    rw [Planning.closeCycle, hroot]
  have hcurrent : {x | x = node.1 ∨ x ∈ (node :: rest).map Prod.fst} =
      {x | x ∈ (node :: rest).map Prod.fst} := by
    ext x
    exact ⟨fun hx => hx.elim (fun heq => heq ▸ mem_cons_self) id, .inr⟩
  rw [hcurrent] at hleast
  -- one settled member makes the list the cycle of the store
  have hcycle : ∀ a ∈ node :: rest, Settled db₀ db a.1 →
      OnCycle (parentOf db₀) a.1 ∧
        ∀ x, x ∈ (node :: rest).map Prod.fst ↔ ∃ n, ancestor (parentOf db₀) n a.1 = some x := by
    intro a ha hs
    have hhead : Settled db₀ db node.1 := by
      obtain ⟨pre, post, heq⟩ := append_of_mem ha
      have hsuffix : a :: post <:+ node :: rest := ⟨pre, heq.symm⟩
      obtain ⟨hall, -⟩ := (hpath.suffix hsuffix).settled h₀ (by rintro b ⟨rfl⟩; exact hs)
      have hlast' : ((a :: post).getLast (by simp)).2.parentId = some node.1 := by
        rw [← hlast]
        congr 2
        simp only [heq]
        rw [getLast_append_of_ne_nil _ (by simp)]
      exact ((hpath.suffix hsuffix).parents h₀ (getLast_mem _) (hall _ (getLast_mem _)) hlast').2
    obtain ⟨hall, hchain⟩ := hpath.settled h₀ (by rintro b ⟨rfl⟩; exact hhead)
    have hback := (hpath.parents h₀ (getLast_mem _) (hall _ (getLast_mem _)) hlast).1
    refine cycle_mem_iff hchain (by simp) ?_ (mem_map_of_mem ha)
    rw [getLast_map]
    exact hback
  have hget : ∀ e m, (Planning.closeCycle cache node.1 (node :: rest)).get? e = some m →
      (∃ a ∈ node :: rest, e = a.1 ∧ m = cycleMembership root a) ∨
        (e ∉ (node :: rest).map Prod.fst ∧ cache.get? e = some m) := by
    intro e m hm
    rw [hnew] at hm
    by_cases he : e ∈ (node :: rest).map Prod.fst
    · obtain ⟨a, ha, rfl⟩ := mem_map.mp he
      rw [Dict.get?_foldl_set hpath.nodup ha] at hm
      exact .inl ⟨a, ha, rfl, (Option.some.inj hm).symm⟩
    · rw [Dict.get?_foldl_set_of_not_mem he] at hm
      exact .inr ⟨he, hm⟩
  have hkeys : ∀ x, x ∈ (Planning.closeCycle cache node.1 (node :: rest)).keys ↔
      x ∈ (node :: rest).map Prod.fst ∨ x ∈ cache.keys := by
    intro x
    rw [hnew]
    exact Dict.mem_keys_foldl_set
  refine ⟨?_, ?_, ?_, ?_⟩
  · intro e m hm
    rcases hget e m hm with ⟨a, -, rfl, rfl⟩ | ⟨-, hm⟩
    · rfl
    · exact h.eventId e m hm
  · intro e m hm
    rcases hget e m hm with ⟨a, ha, rfl, rfl⟩ | ⟨-, hm⟩
    · have hroot' : db.hasEvent root = true := by
        obtain ⟨b, hb, hbr⟩ := mem_map.mp hleast.1
        exact hbr ▸ hpath.stored b hb
      -- the parent of a member is the next one
      have htarget : ∀ t, a.2.parentId = some t → db.hasEvent t = true := by
        intro t ht
        obtain ⟨pre, post, heq⟩ := append_of_mem ha
        cases post with
        | nil =>
          have hl : (node :: rest).getLast (by simp) = a := by
            simp only [heq, getLast_append_singleton]
          rw [hl, ht] at hlast
          cases hlast
          exact hpath.stored node mem_cons_self
        | cons b post =>
          have hsuffix : a :: b :: post <:+ node :: rest := ⟨pre, heq.symm⟩
          have hab := (isChain_cons_cons.mp (hpath.suffix hsuffix).chain).1
          rw [ht] at hab
          cases hab
          exact hpath.stored b (hsuffix.subset (by simp))
      simp only [ConversationMembership.namesStored, cycleMembership, Bool.and_eq_true]
      refine ⟨⟨hpath.stored a ha, hroot'⟩, ?_⟩
      cases ht : a.2.parentId with
      | none => rfl
      | some t => exact htarget t ht
    · exact h.stored e m hm
  · intro e m hm hs
    rcases hget e m hm with ⟨a, ha, rfl, rfl⟩ | ⟨-, hm⟩
    · obtain ⟨hon, hmem⟩ := hcycle a ha hs
      have hedge := hpath.edges a ha hs.stableAt
      refine ⟨rfl, ?_, congrArg Edge.relationType hedge, .inr ⟨a.1, ⟨rfl, hon, nofun⟩, ?_, rfl⟩⟩
      · show a.2.parentId = _
        rw [hedge, edgeOf_parentId]
      · have hset : {x | ∃ n, ancestor (parentOf db₀) n a.1 = some x} =
            {x | x ∈ (node :: rest).map Prod.fst} := by
          ext x
          exact (hmem x).symm
        rw [hset]
        exact hleast
    · exact h.sound e m hm hs
  · intro x y n hx hs hon hn
    rw [hkeys] at hx ⊢
    rcases hx with hx | hx
    · left
      obtain ⟨a, ha, rfl⟩ := mem_map.mp hx
      have hsettled := hs.of_ancestor ((hs.ancestor h₀ n).symm.trans hn)
      exact ((hcycle a ha hsettled).2 y).mpr (hon.way_back hn)
    · exact .inr (h.cycles x y n hx hs hon hn)

/-! ## The path, from its end -/

/-- The nodes of a path in reverse: the first has a cached membership or parent, and every other
one the node before it as its parent. -/
structure Feeds (cache : MembershipCache) (rev : Path) : Prop where
  chain : rev.IsChain fun b a => a.2.parentId = some b.1
  first : ∀ node ∈ rev.head?, node.1 ∈ cache.keys ∨ ∃ p ∈ cache.keys, node.2.parentId = some p

theorem Feeds.rest {rest : Path} {cache' : MembershipCache} (h : Feeds cache (node :: rest))
    (hnode : node.1 ∈ cache'.keys) : Feeds cache' rest := by
  cases rest with
  | nil => exact ⟨.nil, nofun⟩
  | cons a rest =>
    obtain ⟨ha, hrest⟩ := isChain_cons_cons.mp h.chain
    refine ⟨hrest, ?_⟩
    rintro b ⟨rfl⟩
    exact .inr ⟨node.1, hnode, ha⟩

theorem resolvePath_ok {rev : Path} (h : CacheOk db₀ db cache) (h₀ : FactsGrow db₀ db)
    (hfeeds : Feeds cache rev) (hstored : ∀ node ∈ rev, db.hasEvent node.1 = true)
    (hedges : ∀ node ∈ rev, StableAt db₀ db node.1 → node.2 = edgeOf db₀ node.1) :
    ∃ cache', resolvePath cache rev = .ok cache' ∧ CacheOk db₀ db cache' ∧ Keeps cache cache' ∧
      ∀ node ∈ rev, node.1 ∈ cache'.keys := by
  induction rev generalizing cache with
  | nil => exact ⟨cache, rfl, h, fun _ _ hv => hv, nofun⟩
  | cons node rest ih =>
    have hrest : ∀ cache₁ : MembershipCache, CacheOk db₀ db cache₁ → Keeps cache cache₁ →
        node.1 ∈ cache₁.keys → resolvePath cache (node :: rest) = resolvePath cache₁ rest →
        ∃ cache', resolvePath cache (node :: rest) = .ok cache' ∧ CacheOk db₀ db cache' ∧
          Keeps cache cache' ∧ ∀ a ∈ node :: rest, a.1 ∈ cache'.keys := by
      intro cache₁ h₁ hkeeps hnode heq
      obtain ⟨cache', hrun, hok, hkeeps', hall⟩ := ih h₁ (hfeeds.rest hnode)
        (fun a ha => hstored a (mem_cons_of_mem _ ha))
        (fun a ha => hedges a (mem_cons_of_mem _ ha))
      exact ⟨cache', heq.trans hrun, hok, fun k v hv => hkeeps' k v (hkeeps k v hv),
        forall_mem_cons.mpr ⟨hkeeps'.mem_keys hnode, hall⟩⟩
    by_cases hcached : node.1 ∈ cache.keys
    · exact hrest cache h (fun _ _ hv => hv) hcached (by rw [resolvePath, if_pos hcached])
    · rcases hfeeds.first node rfl with hmem | ⟨p, hp, hparent⟩
      · exact absurd hmem hcached
      · obtain ⟨parent, hget⟩ := Dict.mem_keys.mp hp
        refine hrest (cache.set node.1 (childMembership node.1 node.2 parent))
          (h.set_child h₀ hcached (hstored node mem_cons_self) hparent hget
            (hedges node mem_cons_self)) (keeps_set hcached)
          (Dict.mem_keys_set.mpr (.inl rfl)) ?_
        rw [resolvePath, if_neg hcached]
        simp only [hparent, hget]

end Caches

/-! ## The walk -/

/-- The calculation has read that an event is missing which was committed since; nothing
has been stored. -/
structure Stale (db₀ : Db) (M : String → Option ConversationMembership) (cache : MembershipCache)
    (e : ConversationError) (s : ConversationStore) : Prop where
  missed : ∃ id, e = .missingEvent id ∧ db₀.hasEvent id = false ∧ s.db.hasEvent id = true
  facts : FactsGrow db₀ s.db
  memberships : s.memberships = M
  cacheOk : CacheOk db₀ s.db cache

theorem length_le_of_stored {db : Db} {l : List String} (hnodup : l.Nodup)
    (hstored : ∀ e ∈ l, db.hasEvent e = true) : l.length ≤ db.events.rows.length := by
  have hsub : l ⊆ db.events.rows.map EventRow.eventId := by
    intro e he
    obtain ⟨row, hrow, hid⟩ := Storage.hasEvent_iff.mp (hstored e he)
    exact hid ▸ mem_map_of_mem hrow
  simpa using (subperm_of_subset hnodup hsub).length_le

section Walk

variable {db₀ : Db} {B bound : ℕ} {R G : ConversationStore → ConversationStore → Prop}
  {M : String → Option ConversationMembership} {events : EventCache} {cache : MembershipCache}
  {s s' : ConversationStore} {E : ConversationError → ConversationStore → Prop}

/-- The node a walk is at. -/
structure AtNode (db₀ : Db) (start : String) (events : EventCache) (path : Path)
    (current : String) (s : ConversationStore) : Prop where
  stored : s.db.hasEvent current = true
  last : ∀ node ∈ path.getLast?, node.2.parentId = some current
  seen : path ≠ [] → Seen events current
  start : current = start ∧ path = [] ∨ start ∈ path.map Prod.fst

/-- What a walk ends with. -/
structure Walked (db₀ : Db) (start : String) (cache : MembershipCache) (path : Path)
    (cache' : MembershipCache) (s : ConversationStore) : Prop where
  cacheOk : CacheOk db₀ s.db cache'
  keeps : Keeps cache cache'
  feeds : Feeds cache' path.reverse
  stored : ∀ node ∈ path, s.db.hasEvent node.1 = true
  edges : ∀ node ∈ path, StableAt db₀ s.db node.1 → node.2 = edgeOf db₀ node.1
  start : start ∈ path.map Prod.fst

theorem feeds_reverse (hchain : path.IsChain fun a b => a.2.parentId = some b.1)
    (hlast : ∀ node ∈ path.getLast?,
      node.1 ∈ cache.keys ∨ ∃ p ∈ cache.keys, node.2.parentId = some p) :
    Feeds cache path.reverse where
  chain := isChain_reverse.mpr hchain
  first := by
    rw [head?_reverse]
    exact hlast

theorem PathOk.snoc (h : PathOk db₀ s.db cache path) (hnew : current ∉ path.map Prod.fst)
    (huncached : current ∉ cache.keys) (hstored : s.db.hasEvent current = true)
    (hlast : ∀ node ∈ path.getLast?, node.2.parentId = some current)
    (hedge : StableAt db₀ s.db current → edge = edgeOf db₀ current) :
    PathOk db₀ s.db cache (path ++ [(current, edge)]) where
  nodup := by
    rw [map_append]
    exact h.nodup.append (nodup_singleton _) (disjoint_singleton.mpr hnew)
  stored node hn := by
    rcases mem_append.mp hn with hn | hn
    · exact h.stored node hn
    · exact mem_singleton.mp hn ▸ hstored
  uncached node hn := by
    rcases mem_append.mp hn with hn | hn
    · exact h.uncached node hn
    · exact mem_singleton.mp hn ▸ huncached
  chain := by
    refine isChain_append.mpr ⟨h.chain, .singleton _, ?_⟩
    rintro a ha b ⟨rfl⟩
    exact hlast a ha
  edges node hn := by
    rcases mem_append.mp hn with hn | hn
    · exact h.edges node hn
    · exact mem_singleton.mp hn ▸ hedge

theorem exists_dropWhile_of_mem (hmem : current ∈ path.map Prod.fst) : ∃ node rest,
      path.dropWhile (fun n => n.1 ≠ current) = node :: rest ∧
        node :: rest <:+ path ∧ node.1 = current := by
  obtain ⟨a, ha, hid⟩ := mem_map.mp hmem
  cases hdrop : path.dropWhile (fun n => n.1 ≠ current) with
  | nil =>
    have hall := dropWhile_eq_nil_iff.mp hdrop a ha
    simp [hid] at hall
  | cons node rest =>
    refine ⟨node, rest, rfl, hdrop ▸ dropWhile_suffix _, ?_⟩
    have hhead := head?_dropWhile_not (fun n : String × Edge => n.1 ≠ current) path
    rw [hdrop] at hhead
    simpa using hhead

theorem wp_walk (hR : Rely db₀ B R) (hG : ∀ s, G s s) (hB : B < bound) {start : String} :
    ∀ {fuel : ℕ} {events : EventCache} {path : Path} {current : String} {s : ConversationStore},
      path.length + fuel = bound → Reading db₀ B M events s → CacheOk db₀ s.db cache →
      start ∉ cache.keys → PathOk db₀ s.db cache path →
      AtNode db₀ start events path current s →
      Task.wp ConversationStore.answer R G (walk cache fuel events path current) (fun r s' =>
        Reading db₀ B M r.2.2 s' ∧ FactsGrow s.db s'.db ∧ Walked db₀ start cache r.1 r.2.1 s')
        (Stale db₀ M cache) s := by
  intro fuel
  induction fuel with
  | zero =>
    intro events path current s hfuel h hcache hstart hpath hat
    have hle := length_le_of_stored hpath.nodup (by
      intro e he
      obtain ⟨node, hn, rfl⟩ := mem_map.mp he
      exact hpath.stored node hn)
    rw [length_map] at hle
    have hbounded := h.during.bounded
    omega
  | succ fuel ih =>
    intro events path current s hfuel h hcache hstart hpath hat
    have h₀ := h.during.facts
    rw [walk]
    split
    · -- the walk has reached a node that is cached
      next hcached =>
        refine ⟨h, .refl _, hcache, fun _ _ hv => hv, feeds_reverse hpath.chain ?_,
          hpath.stored, hpath.edges, ?_⟩
        · intro node hn
          exact .inr ⟨current, hcached, hat.last node hn⟩
        · rcases hat.start with ⟨rfl, -⟩ | hmem
          · exact absurd hcached hstart
          · exact hmem
    · next huncached =>
      split
      · -- the walk has come back to a node of its path
        next hback =>
          obtain ⟨node, rest, hcycle, hsuffix, hnode⟩ := exists_dropWhile_of_mem hback
          have hlast : ((node :: rest).getLast (by simp)).2.parentId = some node.1 := by
            rw [hnode]
            refine hat.last _ ?_
            obtain ⟨pre, rfl⟩ := hsuffix
            rw [getLast?_append_of_ne_nil _ (by simp), getLast?_eq_some_getLast (by simp)]
            rfl
          have hok := hcache.closeCycle h₀ (hpath.suffix hsuffix) hlast
          have hkeys : ∀ a ∈ node :: rest,
              a.1 ∈ (closeCycle cache node.1 (node :: rest)).keys := fun a ha =>
            Dict.mem_keys_foldl_set.mpr (.inl (mem_map_of_mem ha))
          rw [hcycle, ← hnode]
          refine ⟨h, .refl _, hok, ?_, feeds_reverse hpath.chain ?_, hpath.stored, hpath.edges, ?_⟩
          · intro k v hv
            have hk : k ∉ (node :: rest).map Prod.fst := by
              intro hmem
              obtain ⟨a, ha, rfl⟩ := mem_map.mp hmem
              exact hpath.uncached a (hsuffix.subset ha) (Dict.mem_keys.mpr ⟨v, hv⟩)
            exact (Dict.get?_foldl_set_of_not_mem hk).trans hv
          · intro a ha
            refine .inl (hkeys a ?_)
            obtain ⟨pre, rfl⟩ := hsuffix
            rw [getLast?_append_of_ne_nil _ (by simp)] at ha
            exact mem_of_getLast? ha
          · rcases hat.start with ⟨rfl, rfl⟩ | hmem
            · exact absurd hback not_mem_nil
            · exact hmem
      · next hnew =>
        refine Task.wp_seq (wp_getEvent hR hG current h) ?_
        rintro ⟨event, events₁⟩ s₁ ⟨h₁, hg₁, hkeeps₁, hget₁⟩
        cases event with
        | none =>
          -- only the event the walk starts from may have been missed
          rcases hat.start with ⟨rfl, -⟩ | hmem
          · exact ⟨⟨current, rfl, h₁.events current none hget₁, hg₁.events _ hat.stored⟩,
              h₁.during.facts, h₁.memberships, hcache.grows h₀ hg₁⟩
          · obtain ⟨relations, hseen⟩ := hat.seen (by rintro rfl; exact absurd hmem (by simp))
            cases hget₁.symm.trans (hkeeps₁ _ _ hseen)
        | some relations =>
          have hrelations := h₁.events current (some relations) hget₁
          refine Task.wp_seq (wp_selectParent hR hG none false relations h₁) ?_
          rintro ⟨edge, events₂⟩ s₂ ⟨h₂, hg₂, hedge, hparent⟩
          have hg := hg₁.trans hg₂
          have hcache₂ := hcache.grows h₀ hg
          have hstored₂ := hg.events _ hat.stored
          have hedge₂ : StableAt db₀ s₂.db current → edge = edgeOf db₀ current := by
            intro hs
            have hrels : relationsOf db₀ current = relations :=
              (h₁.during.facts.relations current hs.1).symm.trans hrelations.2
            rw [edgeOf, hrels]
            exact hedge (hrels ▸ hs.2)
          have hpath₂ := (hpath.grows h₀ hg).snoc hnew huncached hstored₂ hat.last hedge₂
          have hstart₂ : start ∈ (path ++ [(current, edge)]).map Prod.fst := by
            rw [map_append]
            rcases hat.start with ⟨rfl, -⟩ | hmem
            · exact mem_append_right _ (mem_singleton.mpr rfl)
            · exact mem_append_left _ hmem
          dsimp only
          cases hp : edge.parentId with
          | none =>
            refine ⟨h₂, hg, hcache₂.set_root h₂.during.facts hstored₂ hp hedge₂,
              keeps_set huncached, feeds_reverse hpath₂.chain ?_, hpath₂.stored,
              hpath₂.edges, hstart₂⟩
            intro node hn
            rw [getLast?_append_of_ne_nil _ (by simp)] at hn
            cases hn
            exact .inl (Dict.mem_keys_set.mpr (.inl rfl))
          | some parent =>
            obtain ⟨hpstored, hpseen⟩ := hparent parent hp
            refine Task.wp_mono ?_ (fun _ _ he => he) (ih
              (by rw [length_append, length_singleton]; omega) h₂ hcache₂ hstart
              hpath₂ ⟨hpstored, ?_, fun _ => hpseen, .inr hstart₂⟩)
            · rintro r s' ⟨h', hg', hwalked⟩
              exact ⟨h', hg.trans hg', hwalked⟩
            · intro node hn
              rw [getLast?_append_of_ne_nil _ (by simp)] at hn
              cases hn
              exact hp

theorem wp_resolveMembership (hR : Rely db₀ B R) (hG : ∀ s, G s s) (hB : B < bound)
    {eventId : String} (h : Reading db₀ B M events s) (hcache : CacheOk db₀ s.db cache)
    (hstored : s.db.hasEvent eventId = true) :
    Task.wp ConversationStore.answer R G (resolveMembership bound cache events eventId)
      (fun r s' => Reading db₀ B M r.2.2 s' ∧ FactsGrow s.db s'.db ∧ CacheOk db₀ s'.db r.2.1 ∧
        Keeps cache r.2.1 ∧ r.2.1.get? eventId = some r.1) (Stale db₀ M cache) s := by
  unfold resolveMembership
  cases hget : cache.get? eventId with
  | some m => exact ⟨h, .refl _, hcache, fun _ _ hv => hv, hget⟩
  | none =>
    have hpath : PathOk db₀ s.db cache [] := ⟨.nil, nofun, nofun, .nil, nofun⟩
    refine Task.wp_seq (wp_walk hR hG hB (by simp) h hcache (Dict.get?_eq_none.mp hget) hpath
      ⟨hstored, nofun, fun hne => absurd rfl hne, .inl ⟨rfl, rfl⟩⟩) ?_
    rintro ⟨path, cache₁, events₁⟩ s₁ ⟨h₁, hg₁, hwalked⟩
    obtain ⟨cache₂, hrun, hok, hkeeps, hall⟩ := resolvePath_ok hwalked.cacheOk h₁.during.facts
      hwalked.feeds (fun node hn => hwalked.stored node (mem_reverse.mp hn))
      (fun node hn => hwalked.edges node (mem_reverse.mp hn))
    obtain ⟨node, hn, hid⟩ := mem_map.mp hwalked.start
    obtain ⟨m, hm⟩ := Dict.mem_keys.mp (hall node (mem_reverse.mpr hn))
    rw [hid] at hm
    show Task.wp _ R G (Task.lift (resolvePath cache₁ path.reverse) >>= _) _ _ s₁
    rw [hrun, Task.lift_ok_bind, hm]
    exact ⟨h₁, hg₁, hok, fun k v hv => hkeeps k v (hwalked.keeps k v hv), hm⟩

end Walk

end Medre.Planning
