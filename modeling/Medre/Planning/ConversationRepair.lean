import Medre.Planning.ConversationWalk

/-! # Repair traversals

A traversal reconciles its first events, then what depends on them, and so on. It is right about
every event that has an ancestor among the first ones and keeps its ancestry to the end. -/

namespace Medre.Planning

open List Medre.Framework Medre.Storage

variable {db : Db} {e x y : String}

/-! ## Dependents -/

/-- `y` has a relation to `x`, by its id or by a native reference of it. -/
def DependsOn (db : Db) (y x : String) : Prop :=
  (∃ r ∈ db.relations.rows, r.eventId = y ∧ r.targetEventId = some x) ∨ WaitsFor db y x

theorem dependsOn_of_parent (h : parentOf db y = some x) : DependsOn db y x := by
  obtain ⟨r, hr, ht⟩ := exists_of_findSome?_eq_some h
  have hrow : r ∈ db.relations.rows ∧ r.eventId = y := by simpa [relationsOf] using hr
  rcases (resolvesTo_eq_some.mp ht).2 with htarget | ⟨-, k, hk, he⟩
  · exact .inl ⟨r, hrow.1, hrow.2, htarget⟩
  · obtain ⟨n, hn, rfl, hid⟩ := eventOf_some he
    exact .inr ⟨n, hn, hid, r, hrow.1, hrow.2, names_of_targetNativeRef hk⟩

theorem mem_relationSources :
    y ∈ relationSources db x ↔
      ∃ r ∈ db.relations.rows, r.eventId = y ∧ r.targetEventId = some x := by
  simp only [relationSources, mem_eraseDups, mem_map, mem_filter, decide_eq_true_eq]
  exact exists_congr fun r => ⟨fun h => ⟨h.1.1, h.2, h.1.2⟩, fun h => ⟨⟨h.1, h.2.2⟩, h.2.1⟩⟩

theorem mem_relationSourcesForNativeRef {k : String × Option String × String} :
    y ∈ relationSourcesForNativeRef db k ↔
      ∃ r ∈ db.relations.rows, r.eventId = y ∧ RelationRow.names r k := by
  simp only [relationSourcesForNativeRef, RelationRow.names, mem_eraseDups, mem_map,
    mem_filter, Bool.and_eq_true, decide_eq_true_eq, and_assoc]
  exact exists_congr fun r => ⟨fun ⟨h, h1, h2, h3, hy⟩ => ⟨h, hy, h1, h2, h3⟩,
    fun ⟨h, hy, h1, h2, h3⟩ => ⟨h, h1, h2, h3, hy⟩⟩

theorem mem_nativeRefsOf {n : NativeRefRow} :
    n ∈ nativeRefsOf db e ↔ n ∈ db.nativeRefs.rows ∧ n.eventId = e := by
  simp [nativeRefsOf, mem_insertionSort]

theorem nodup_eraseDups {l : List String} : l.eraseDups.Nodup := by
  induction hn : l.length using Nat.strong_induction_on generalizing l with
  | _ n ih =>
    cases l with
    | nil => exact .nil
    | cons a l =>
      rw [eraseDups_cons, nodup_cons, mem_eraseDups]
      refine ⟨by simp, ih _ ?_ rfl⟩
      rw [← hn]
      exact Nat.lt_succ_of_le (length_filter_le _ _)

/-- A list of distinct stored events with all those that `P` asks for. -/
structure Sources (db : Db) (P : String → Prop) (l : List String) : Prop where
  nodup : l.Nodup
  stored : ∀ y ∈ l, db.hasEvent y = true
  complete : ∀ y, P y → y ∈ l

section Repair

variable {db₀ : Db} {B bound : ℕ} {R G : ConversationStore → ConversationStore → Prop}
  {M : String → Option ConversationMembership} {events : EventCache} {cache : MembershipCache}
  {s s' : ConversationStore} {E : ConversationError → ConversationStore → Prop}

theorem wp_nativeDependentSources (hown : RelationsOwned db₀) (hR : Rely db₀ B R) (hG : ∀ s, G s s)
    (x : String) (h : Reading db₀ B M events s) :
    Task.wp ConversationStore.answer R G (nativeDependentSources x) (fun sources s' =>
      Reading db₀ B M events s' ∧ FactsGrow s.db s'.db ∧
        Sources s'.db (fun y => WaitsFor s.db y x) sources) E s := by
  refine Task.wp_seq (Q := fun (refs : List NativeRefRow) s' => Reading db₀ B M events s' ∧
    FactsGrow s.db s'.db ∧ ∀ n ∈ s.db.nativeRefs.rows, n.eventId = x → n ∈ refs)
    (wp_read hR hG (c := .listNativeRefsForEvent x) (fun _ => rfl) h fun s' hs' hg =>
      ⟨hs', hg, fun n hn hid => mem_nativeRefsOf.mpr ⟨hg.refRows n hn, hid⟩⟩) ?_
  rintro refs s₁ ⟨h₁, hg₁, hrefs⟩
  -- the sources of the references that have been looked up are there
  refine Task.wp_mono ?_ (fun _ _ he => he) (Task.wp_fold (I := fun done ordered s' =>
    Reading db₀ B M events s' ∧ FactsGrow s.db s'.db ∧ Sources s'.db (fun y => ∃ n ∈ done,
      ∃ r ∈ s.db.relations.rows, r.eventId = y ∧ RelationRow.names r n.identity) ordered)
    ?_ ⟨h₁, hg₁, .nil, nofun, nofun⟩)
  · rintro ordered s' ⟨hs', hg, hsources⟩
    refine ⟨hs', hg, hsources.nodup, hsources.stored, ?_⟩
    rintro y ⟨n, hn, hid, hrow⟩
    exact hsources.complete y ⟨n, hrefs n hn hid, hrow⟩
  · rintro done n ordered s₂ - ⟨h₂, hg₂, hsources⟩
    refine Task.wp_seq (wp_read hR hG (c := .listRelationSourcesForNativeRef n.identity)
      (Q := fun sources s' => Reading db₀ B M events s' ∧ FactsGrow s₂.db s'.db ∧
        sources = relationSourcesForNativeRef s'.db n.identity) (fun _ => rfl) h₂
      fun s' hs' hg => ⟨hs', hg, rfl⟩) ?_
    rintro _ s₃ ⟨h₃, hg₃, rfl⟩
    refine ⟨h₃, hg₂.trans hg₃, nodup_eraseDups, ?_, ?_⟩
    · intro y hy
      rcases mem_append.mp (mem_eraseDups.mp hy) with hy | hy
      · exact hg₃.events y (hsources.stored y hy)
      · obtain ⟨r, hr, rfl, -⟩ := mem_relationSourcesForNativeRef.mp hy
        exact h₃.during.owned hown r hr
    · rintro y ⟨m, hm, r, hr, hy, hnames⟩
      refine mem_eraseDups.mpr (mem_append.mpr ?_)
      rcases mem_append.mp hm with hm | hm
      · exact .inl (hsources.complete y ⟨m, hm, r, hr, hy, hnames⟩)
      · rw [mem_singleton.mp hm] at hnames
        exact .inr (mem_relationSourcesForNativeRef.mpr
          ⟨r, (hg₂.trans hg₃).relationRows r hr, hy, hnames⟩)

theorem wp_dependentSources (hown : RelationsOwned db₀) (hR : Rely db₀ B R) (hG : ∀ s, G s s)
    (x : String) (h : Reading db₀ B M events s) :
    Task.wp ConversationStore.answer R G (dependentSources x) (fun sources s' =>
      Reading db₀ B M events s' ∧ FactsGrow s.db s'.db ∧
        Sources s'.db (fun y => DependsOn s.db y x) sources) E s := by
  refine Task.wp_seq (wp_read hR hG (c := .listRelationSources x)
    (Q := fun sources s' => Reading db₀ B M events s' ∧ FactsGrow s.db s'.db ∧
      sources = relationSources s'.db x) (fun _ => rfl) h fun s' hs' hg => ⟨hs', hg, rfl⟩) ?_
  rintro _ s₁ ⟨h₁, hg₁, rfl⟩
  refine Task.wp_seq (wp_nativeDependentSources hown hR hG x h₁) ?_
  rintro byRef s₂ ⟨h₂, hg₂, hsources⟩
  refine ⟨h₂, hg₁.trans hg₂, nodup_eraseDups, ?_, ?_⟩
  · intro y hy
    rcases mem_append.mp (mem_eraseDups.mp hy) with hy | hy
    · obtain ⟨r, hr, rfl, -⟩ := mem_relationSources.mp hy
      exact hg₂.events _ (h₁.during.owned hown r hr)
    · exact hsources.stored y hy
  · intro y hy
    refine mem_eraseDups.mpr (mem_append.mpr ?_)
    rcases hy with ⟨r, hr, hid, ht⟩ | hwaits
    · exact .inl (mem_relationSources.mpr ⟨r, hg₁.relationRows r hr, hid, ht⟩)
    · exact .inr (hsources.complete y (hwaits.grows hg₁))

/-! ## Storing what was calculated -/

/-- A guarantee that allows the rows of a calculation to be stored. -/
def AllowsRows (db₀ : Db) (B : ℕ) (G : ConversationStore → ConversationStore → Prop) : Prop :=
  ∀ s m, During db₀ B s → m.namesStored s.db = true →
    (Settled db₀ s.db m.eventId → FromScratch db₀ m.eventId m) → G s (s.putMembership m).1

/-- The rows `M` with those of the cache in place of `items`. -/
def overlay (cache : MembershipCache) (items : List (String × ConversationMembership))
    (M : String → Option ConversationMembership) (x : String) : Option ConversationMembership :=
  if x ∈ items.map Prod.fst then cache.get? x else M x

theorem wp_storeItems (hR : Rely db₀ B R) (hput : AllowsRows db₀ B G)
    {items : List (String × ConversationMembership)}
    (hitems : ∀ i ∈ items, cache.get? i.1 = some i.2) (h : Reading db₀ B M events s)
    (hcache : CacheOk db₀ s.db cache) :
    Task.wp ConversationStore.answer R G (Task.fold storeItem [] items) (fun _ s' =>
      Reading db₀ B (overlay cache items M) events s' ∧ FactsGrow s.db s'.db) E s := by
  refine Task.wp_fold (I := fun done _ s' =>
    Reading db₀ B (overlay cache done M) events s' ∧ FactsGrow s.db s'.db) ?_ ⟨h, .refl _⟩
  rintro done item changed s₁ hpre ⟨h₁, hg₁⟩
  have hitem : cache.get? item.1 = some item.2 :=
    hitems item (hpre.subset (mem_append_right _ (mem_singleton.mpr rfl)))
  have hid := hcache.eventId item.1 item.2 hitem
  refine Task.wp_seq (Q := fun (answer : Except Err Bool) s' =>
    Reading db₀ B (overlay cache (done ++ [item]) M) events s' ∧ FactsGrow s.db s'.db ∧
      ∃ b, answer = .ok b) ?_ ?_
  · refine Task.wp_perform fun s₂ hs₂ => ?_
    have h₂ := h₁.later hR hs₂
    have hg₂ := hg₁.trans (hR.facts hs₂)
    have hcache₂ := hcache.grows h.during.facts hg₂
    have hnames := hcache₂.stored item.1 item.2 hitem
    refine ⟨hput s₂ item.2 h₂.during hnames ?_, ?_⟩
    · intro hs
      rw [hid] at hs ⊢
      exact hcache₂.sound item.1 item.2 hitem hs
    · show Reading db₀ B _ events (s₂.putMembership item.2).1 ∧
        FactsGrow s.db (s₂.putMembership item.2).1.db ∧ ∃ b, (s₂.putMembership item.2).2 = .ok b
      rw [ConversationStore.putMembership, if_pos hnames]
      refine ⟨⟨⟨h₂.during.facts, h₂.during.bounded, h₂.during.owned⟩, ?_, h₂.events⟩, hg₂, _, rfl⟩
      funext x
      show Function.update s₂.memberships item.2.eventId (some item.2) x = _
      rw [h₂.memberships, hid]
      unfold overlay
      by_cases hx : x = item.1
      · subst hx
        simp [hitem]
      · have hmem : x ∈ (done ++ [item]).map Prod.fst ↔ x ∈ done.map Prod.fst := by simp [hx]
        rw [Function.update_of_ne hx]
        simp only [hmem]
  · rintro answer s₂ ⟨h₂, hg₂, b, rfl⟩
    cases b <;> exact ⟨h₂, hg₂⟩

theorem mem_newItems {previous : List String} {cache : MembershipCache}
    {i : String × ConversationMembership} :
    i ∈ newItems previous cache ↔ cache.get? i.1 = some i.2 ∧ i.1 ∉ previous := by
  simp [newItems, mem_insertionSort, ← Dict.mem_items]

/-- The rows `M` with those of the cache. -/
def written (cache : MembershipCache) (M : String → Option ConversationMembership) (x : String) :
    Option ConversationMembership := (cache.get? x).or (M x)

theorem overlay_newItems {cache' : MembershipCache} (hkeeps : Keeps cache cache') :
    overlay cache' (newItems cache.keys cache') (written cache M) = written cache' M := by
  funext x
  unfold overlay written
  split
  · next hx =>
      obtain ⟨i, hi, rfl⟩ := mem_map.mp hx
      rw [(mem_newItems.mp hi).1]
      rfl
  · next hx =>
      cases hget : cache.get? x with
      | some m => rw [hkeeps x m hget]
      | none =>
        cases hget' : cache'.get? x with
        | none => rfl
        | some m =>
          refine absurd (mem_map.mpr ⟨(x, m), mem_newItems.mpr ⟨hget', ?_⟩, rfl⟩) hx
          exact Dict.get?_eq_none.mp hget

theorem wp_reconcileEvent (hR : Rely db₀ B R) (hG : ∀ s, G s s) (hput : AllowsRows db₀ B G)
    (hB : B < bound) {eventId : String} (h : Reading db₀ B (written cache M) events s)
    (hcache : CacheOk db₀ s.db cache) (hstored : s.db.hasEvent eventId = true) :
    Task.wp ConversationStore.answer R G (reconcileEvent bound cache events eventId)
      (fun r s' => Reading db₀ B (written r.memberships M) r.events s' ∧ FactsGrow s.db s'.db ∧
        CacheOk db₀ s'.db r.memberships ∧ Keeps cache r.memberships ∧
        eventId ∈ r.memberships.keys) (Stale db₀ (written cache M) cache) s := by
  refine Task.wp_seq (wp_resolveMembership hR hG hB h hcache hstored) ?_
  rintro ⟨m, cache', events'⟩ s₁ ⟨h₁, hg₁, hcache₁, hkeeps, hget⟩
  refine Task.wp_seq (wp_storeItems hR hput (fun i hi => (mem_newItems.mp hi).1) h₁ hcache₁) ?_
  rintro changed s₂ ⟨h₂, hg₂⟩
  rw [overlay_newItems hkeeps] at h₂
  exact ⟨h₂, hg₁.trans hg₂, hcache₁.grows h₁.during.facts hg₂, hkeeps, Dict.mem_keys.mpr ⟨m, hget⟩⟩

def Projected (db : Db) (M : String → Option ConversationMembership) (e : String) : Prop :=
  ∃ m, M e = some m ∧ FromScratch db e m

/-- What every traversal that began with `M` does to events that keep their ancestry. -/
structure Kept (db₀ : Db) (M : String → Option ConversationMembership) (s : ConversationStore) :
    Prop where
  facts : FactsGrow db₀ s.db
  rows : ∀ e, Settled db₀ s.db e → s.memberships e = M e ∨ Projected db₀ s.memberships e

/-- What a traversal that has returned has done, if nothing changes any more. -/
structure Repaired (db₀ : Db) (M : String → Option ConversationMembership) (seed : String → Prop)
    (s : ConversationStore) : Prop extends Kept db₀ M s where
  reached : ∀ e, Settled db₀ s.db e →
    (∃ n x, ancestor (parentOf db₀) n e = some x ∧ seed x) → Projected db₀ s.memberships e

/-- What a traversal that raises has done. -/
structure Missed (db₀ : Db) (M : String → Option ConversationMembership) (e : ConversationError)
    (s : ConversationStore) : Prop extends Kept db₀ M s where
  missed : ∃ id, e = .missingEvent id ∧ db₀.hasEvent id = false ∧ s.db.hasEvent id = true

theorem kept_of_written (hcache : CacheOk db₀ s.db cache) (hs : FactsGrow db₀ s.db)
    (hrows : s.memberships = written cache M) : Kept db₀ M s where
  facts := hs
  rows e he := by
    rw [Projected, hrows]
    unfold written
    cases hget : cache.get? e with
    | none => exact .inl rfl
    | some m => exact .inr ⟨m, rfl, hcache.sound e m hget he⟩

/-! ## The traversal -/

structure Sweep (db₀ : Db) (B : ℕ) (M : String → Option ConversationMembership)
    (initial : List String) (requested : Option String) (t : Traversal)
    (s : ConversationStore) : Prop where
  reading : Reading db₀ B (written t.memberships M) t.events s
  cacheOk : CacheOk db₀ s.db t.memberships
  nodup : (t.processed ++ t.pending).Nodup
  queued : ∀ x, x ∈ t.queued ↔ x ∈ t.processed ∨ x ∈ t.pending
  stored : ∀ x ∈ t.queued, s.db.hasEvent x = true
  initial : ∀ x ∈ initial, x ∈ t.queued
  cached : ∀ x ∈ t.processed, x ∈ t.memberships.keys
  requested : ∀ x ∈ t.processed, requested = some x → t.requested.isSome = true

/-- What depended on `x` at the beginning is queued. -/
def Covers (db₀ : Db) (t : Traversal) (x : String) : Prop := ∀ y, DependsOn db₀ y x → y ∈ t.queued

variable {initial : List String} {requested : Option String} {t : Traversal}

theorem Sweep.later (h : Sweep db₀ B M initial requested t s)
    (hreading : Reading db₀ B (written t.memberships M) t.events s') (hg : FactsGrow s.db s'.db) :
    Sweep db₀ B M initial requested t s' :=
  { h with
    reading := hreading
    cacheOk := h.cacheOk.grows h.reading.during.facts hg
    stored := fun x hx => hg.events x (h.stored x hx) }

/-- `t'` is `t` with more events queued. -/
structure Extends (t t' : Traversal) : Prop where
  processed : t'.processed = t.processed
  queued : ∀ x ∈ t.queued, x ∈ t'.queued
  memberships : t'.memberships = t.memberships
  events : t'.events = t.events

theorem Extends.refl (t : Traversal) : Extends t t := ⟨rfl, fun _ h => h, rfl, rfl⟩

theorem Extends.trans {t₁ t₂ t₃ : Traversal} (h : Extends t₁ t₂) (h' : Extends t₂ t₃) :
    Extends t₁ t₃ :=
  ⟨h'.processed.trans h.processed, fun x hx => h'.queued x (h.queued x hx),
    h'.memberships.trans h.memberships, h'.events.trans h.events⟩

theorem Extends.covers {t t' : Traversal} (h : Extends t t') (hc : Covers db₀ t x) :
    Covers db₀ t' x := fun y hy => h.queued y (hc y hy)

theorem Sweep.enqueue (h : Sweep db₀ B M initial requested t s) (hy : s.db.hasEvent y = true) :
    Sweep db₀ B M initial requested (t.enqueue y) s ∧
      Extends t (t.enqueue y) ∧ y ∈ (t.enqueue y).queued := by
  unfold Traversal.enqueue
  split
  · next hknown =>
      exact ⟨h, .refl t, hknown.elim (fun hp => (h.queued y).mpr (.inl hp)) id⟩
  · next hnew =>
      have hfresh : y ∉ t.processed ++ t.pending := fun hmem =>
        hnew (.inr ((h.queued y).mpr (mem_append.mp hmem)))
      refine ⟨{ h with nodup := ?_, queued := ?_, stored := ?_, initial := ?_ },
        ⟨rfl, fun x hx => mem_append_left _ hx, rfl, rfl⟩,
        mem_append_right _ (mem_singleton.mpr rfl)⟩
      · show (t.processed ++ (t.pending ++ [y])).Nodup
        rw [← append_assoc]
        exact h.nodup.append (nodup_singleton _) (disjoint_singleton.mpr hfresh)
      · intro x
        simp only [mem_append, h.queued x, mem_singleton, or_assoc]
      · intro x hx
        rcases mem_append.mp hx with hx | hx
        · exact h.stored x hx
        · exact mem_singleton.mp hx ▸ hy
      · exact fun x hx => mem_append_left _ (h.initial x hx)

theorem Sweep.enqueueAll (h : Sweep db₀ B M initial requested t s) {sources : List String}
    (hstored : ∀ y ∈ sources, s.db.hasEvent y = true) :
    Sweep db₀ B M initial requested (sources.foldl Traversal.enqueue t) s ∧
      Extends t (sources.foldl Traversal.enqueue t) ∧
      ∀ y ∈ sources, y ∈ (sources.foldl Traversal.enqueue t).queued := by
  induction sources generalizing t with
  | nil => exact ⟨h, .refl t, nofun⟩
  | cons y sources ih =>
    obtain ⟨h₁, hext₁, hy⟩ := h.enqueue (hstored y mem_cons_self)
    obtain ⟨h₂, hext₂, hall⟩ := ih h₁ fun x hx => hstored x (mem_cons_of_mem _ hx)
    exact ⟨h₂, hext₁.trans hext₂, forall_mem_cons.mpr ⟨hext₂.queued y hy, hall⟩⟩

theorem wp_enqueueAnchors (hown : RelationsOwned db₀) (hR : Rely db₀ B R) (hG : ∀ s, G s s)
    (anchors : List String) (h : Sweep db₀ B M initial requested t s) :
    Task.wp ConversationStore.answer R G (Task.fold enqueueDependents t anchors) (fun t' s' =>
      Sweep db₀ B M initial requested t' s' ∧ FactsGrow s.db s'.db ∧ Extends t t' ∧
        ∀ x ∈ anchors, Covers db₀ t' x) E s := by
  refine Task.wp_fold (I := fun done t' s' => Sweep db₀ B M initial requested t' s' ∧
    FactsGrow s.db s'.db ∧ Extends t t' ∧ ∀ x ∈ done, Covers db₀ t' x) ?_
    ⟨h, .refl _, .refl t, nofun⟩
  rintro done anchor t₁ s₁ - ⟨h₁, hg₁, hext₁, hcovers⟩
  refine Task.wp_seq (wp_dependentSources hown hR hG anchor h₁.reading) ?_
  rintro sources s₂ ⟨hreading, hg₂, hsources⟩
  obtain ⟨h₂, hext₂, hall⟩ := (h₁.later hreading hg₂).enqueueAll hsources.stored
  refine ⟨h₂, hg₁.trans hg₂, hext₁.trans hext₂, ?_⟩
  intro x hx
  rcases mem_append.mp hx with hx | hx
  · exact hext₂.covers (hcovers x hx)
  · rw [mem_singleton.mp hx]
    intro y hy
    refine hall y (hsources.complete y ?_)
    -- what depended on the anchor at the beginning still does
    rcases hy with ⟨r, hr, hrest⟩ | hwaits
    · exact .inl ⟨r, h₁.reading.during.facts.relationRows r hr, hrest⟩
    · exact .inr (hwaits.grows h₁.reading.during.facts)

theorem Sweep.next (h : Sweep db₀ B M initial requested t s) {current : String}
    {pending : List String} (hpending : t.pending = current :: pending) {r : Reconciled}
    (hreading : Reading db₀ B (written r.memberships M) r.events s') (hg : FactsGrow s.db s'.db)
    (hcache : CacheOk db₀ s'.db r.memberships) (hkeeps : Keeps t.memberships r.memberships)
    (hcurrent : current ∈ r.memberships.keys) :
    Sweep db₀ B M initial requested
      { pending, queued := t.queued, processed := t.processed ++ [current]
        changed := t.changed ++ r.changed, memberships := r.memberships, events := r.events
        requested := if requested = some current then some r.membership else t.requested } s' where
  reading := hreading
  cacheOk := hcache
  nodup := by
    have hnodup := h.nodup
    rw [hpending] at hnodup
    simpa using hnodup
  queued x := by
    rw [h.queued x, hpending]
    simp [or_assoc]
  stored x hx := hg.events x (h.stored x hx)
  initial := h.initial
  cached x hx := by
    rcases mem_append.mp hx with hx | hx
    · exact hkeeps.mem_keys (h.cached x hx)
    · exact mem_singleton.mp hx ▸ hcurrent
  requested x hx hreq := by
    show (if requested = some current then _ else _ : Option ConversationMembership).isSome = true
    split
    · rfl
    · next hne =>
        rcases mem_append.mp hx with hx | hx
        · exact h.requested x hx hreq
        · exact absurd (mem_singleton.mp hx ▸ hreq) hne

theorem wp_repairLoop (hown : RelationsOwned db₀) (hR : Rely db₀ B R) (hG : ∀ s, G s s)
    (hput : AllowsRows db₀ B G) (hB : B < bound) :
    ∀ {fuel : ℕ} {t : Traversal} {s : ConversationStore},
      t.processed.length + fuel = bound → Sweep db₀ B M initial requested t s →
      (∀ x ∈ t.processed, Covers db₀ t x) →
      Task.wp ConversationStore.answer R G (repairLoop bound requested fuel t) (fun t' s' =>
        Sweep db₀ B M initial requested t' s' ∧ t'.pending = [] ∧
          ∀ x ∈ t'.processed, Covers db₀ t' x) (Missed db₀ M) s := by
  intro fuel
  induction fuel with
  | zero =>
    intro t s hfuel h _
    have hle := length_le_of_stored (nodup_append.mp h.nodup).1
      fun x hx => h.stored x ((h.queued x).mpr (.inl hx))
    have hbounded := h.reading.during.bounded
    omega
  | succ fuel ih =>
    intro t s hfuel h hclosed
    rw [repairLoop]
    split
    · next hpending => exact ⟨h, hpending, hclosed⟩
    · next current pending hpending =>
        have hqueued : current ∈ t.queued :=
          (h.queued current).mpr (.inr (by rw [hpending]; exact mem_cons_self))
        have hreconcile := wp_reconcileEvent hR hG hput hB h.reading h.cacheOk
          (h.stored current hqueued)
        refine Task.wp_seq (Task.wp_mono (fun _ _ hr => hr) (fun _ _ he =>
          ⟨kept_of_written he.cacheOk he.facts he.memberships, he.missed⟩) hreconcile) ?_
        rintro r s₁ ⟨h₁, hg₁, hcache₁, hkeeps, hcurrent⟩
        refine Task.wp_seq (wp_enqueueAnchors hown hR hG (anchorsOf current r.changed)
          (h.next hpending h₁ hg₁ hcache₁ hkeeps hcurrent)) ?_
        rintro t₂ s₂ ⟨h₂, -, hext, hcovers⟩
        refine ih ?_ h₂ ?_
        · rw [hext.processed, length_append, length_singleton]
          omega
        · intro x hx
          rw [hext.processed] at hx
          rcases mem_append.mp hx with hx | hx
          · exact hext.covers fun y hy => hclosed x hx y hy
          · refine hcovers x ?_
            rw [mem_singleton.mp hx]
            simp [anchorsOf, mem_insertionSort]

/-! ## What a traversal leaves -/

theorem Sweep.processed_of_ancestor (h : Sweep db₀ B M initial requested t s)
    (hdone : t.pending = []) (hclosed : ∀ x ∈ t.processed, Covers db₀ t x) {n : ℕ}
    (hx : ancestor (parentOf db₀) n e = some x) (hinitial : x ∈ initial) : e ∈ t.processed := by
  have hqueued : ∀ y, y ∈ t.queued → y ∈ t.processed := by
    intro y hy
    rcases (h.queued y).mp hy with hp | hp
    · exact hp
    · rw [hdone] at hp
      exact absurd hp not_mem_nil
  induction n generalizing e with
  | zero =>
    cases hx
    exact hqueued x (h.initial x hinitial)
  | succ n ih =>
    obtain ⟨p, hp, hn⟩ := Option.bind_eq_some_iff.mp hx
    exact hqueued e (hclosed p (ih hn) e (dependsOn_of_parent hp))

theorem Sweep.repaired (h : Sweep db₀ B M initial requested t s) (hdone : t.pending = [])
    (hclosed : ∀ x ∈ t.processed, Covers db₀ t x) {seed : String → Prop}
    (hseed : ∀ x, seed x → x ∈ initial) : Repaired db₀ M seed s where
  toKept := kept_of_written h.cacheOk h.reading.during.facts h.reading.memberships
  reached e hs := by
    rintro ⟨n, x, hx, hx'⟩
    have hcached := h.cached e (h.processed_of_ancestor hdone hclosed hx (hseed x hx'))
    obtain ⟨m, hget⟩ := Dict.mem_keys.mp hcached
    refine ⟨m, ?_, h.cacheOk.sound e m hget hs⟩
    rw [h.reading.memberships, written, hget]
    rfl

theorem sweep_start {l : List String} (h : Reading db₀ B M .empty s) (hnodup : l.Nodup)
    (hstored : ∀ x ∈ l, s.db.hasEvent x = true) :
    Sweep db₀ B M l requested { pending := l, queued := l } s where
  reading := h
  cacheOk := cacheOk_empty db₀ s.db
  nodup := hnodup
  queued x := by simp
  stored := hstored
  initial _ hx := hx
  cached _ hx := absurd hx not_mem_nil
  requested _ hx := absurd hx not_mem_nil

def repairOf (bound : ℕ) : Trigger → Service Unit
  | .event e => repairAfterEventAvailable bound e
  | .nativeRef e => repairAfterNativeRefAvailable bound e

theorem wp_repairOf (hown : RelationsOwned s.db) (hR : Rely s.db B R) (hG : ∀ s, G s s)
    (hput : AllowsRows s.db B G) (hB : B < bound) (hs : During s.db B s) {trigger : Trigger}
    (hstored : ∀ e, trigger = .event e → s.db.hasEvent e = true) :
    Task.wp ConversationStore.answer R G (repairOf bound trigger)
      (fun _ s' => Repaired s.db s.memberships (Seed s.db trigger) s') (Missed s.db s.memberships)
      s := by
  have hreading : Reading s.db B s.memberships .empty s := ⟨hs, rfl, nofun⟩
  cases trigger with
  | event e =>
    have hsweep : Sweep s.db B s.memberships [e] (some e) { pending := [e], queued := [e] } s :=
      sweep_start hreading (nodup_singleton e) fun x hx => mem_singleton.mp hx ▸ hstored e rfl
    refine Task.wp_seq (wp_repairLoop hown hR hG hput hB (Nat.zero_add _) hsweep nofun) ?_
    rintro t s' ⟨h, hdone, hclosed⟩
    have hprocessed := h.processed_of_ancestor hdone hclosed (n := 0) (e := e) rfl
      (mem_singleton.mpr rfl)
    obtain ⟨m, hm⟩ := Option.isSome_iff_exists.mp (h.requested e hprocessed rfl)
    rw [hm]
    exact h.repaired hdone hclosed fun x hx => mem_singleton.mpr hx
  | nativeRef e =>
    refine Task.wp_seq (wp_nativeDependentSources hown hR hG e hreading) ?_
    rintro initial s₁ ⟨h₁, -, hsources⟩
    have hsweep : Sweep s.db B s.memberships initial none
        { pending := initial, queued := initial } s₁ :=
      sweep_start h₁ hsources.nodup hsources.stored
    refine Task.wp_seq (wp_repairLoop hown hR hG hput hB (Nat.zero_add _) hsweep nofun) ?_
    rintro t s' ⟨h, hdone, hclosed⟩
    exact h.repaired hdone hclosed hsources.complete

end Repair

end Medre.Planning
