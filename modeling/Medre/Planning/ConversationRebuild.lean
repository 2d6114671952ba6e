import Medre.Planning.ConversationRepair

/-! # Rebuilds that crash and resume

`rebuild_all` walks over all events in pages and stores its progress after each; up to the stored
event every row is right at every storage call. The cache of memberships is cut after every
event, and a cycle of which only a part is left is not recognised. -/

namespace Medre.Planning

open List Medre.Framework Medre.Storage

variable {G : ConversationStore → ConversationStore → Prop} {e : String} {after : Option String}
  {rest : List String}

/-! ## The store during a rebuild -/

theorem rely_alone {db : Db} {B : ℕ} : Rely db B Eq where
  during hs h := h ▸ hs
  facts h := h ▸ .refl _
  memberships h := h ▸ rfl

variable {E : ConversationError → ConversationStore → Prop}

theorem wp_same_db {α : Type} {t : Service α} {Q : α → ConversationStore → Prop}
    {s : ConversationStore} (h : Task.wp ConversationStore.answer Eq G t Q E s) :
    Task.wp ConversationStore.answer Eq G t (fun a s' => Q a s' ∧ s'.db = s.db)
      (fun e s' => E e s' ∧ s'.db = s.db) s := by
  induction t generalizing s with
  | pure a => exact ⟨h, rfl⟩
  | raise e => exact ⟨h, rfl⟩
  | call c k ih =>
    rintro s' rfl
    obtain ⟨hG, hk⟩ := h s rfl
    have hdb := answer_db s c
    refine ⟨hG, Task.wp_mono ?_ ?_ (ih _ hk)⟩
    · exact fun a s' hs' => ⟨hs'.1, hs'.2.trans hdb⟩
    · exact fun e s' hs' => ⟨hs'.1, hs'.2.trans hdb⟩

theorem wp_seq_alone {α β : Type} {t : Service α} {f : α → Service β}
    {Q : α → ConversationStore → Prop} {Q' : β → ConversationStore → Prop} {s : ConversationStore}
    (h : Task.wp ConversationStore.answer Eq G t Q E s)
    (hf : ∀ a s', Q a s' → s'.db = s.db → Task.wp ConversationStore.answer Eq G (f a) Q' E s') :
    Task.wp ConversationStore.answer Eq G (t >>= f) Q' E s :=
  Task.wp_seq (Task.wp_mono (fun _ _ h => h) (fun _ _ h => h.1) (wp_same_db h))
    fun a s' hs' => hf a s' hs'.1 hs'.2

/-- The rows up to the cursor are right. -/
def Done (db : Db) (cursor : Option String) (M : String → Option ConversationMembership) : Prop :=
  ∀ e c, db.hasEvent e = true → cursor = some c → e ≤ c → Projected db M e

/-- A store from which a rebuild may resume. -/
structure Resumable (db : Db) (s : ConversationStore) : Prop where
  graph : s.db = db
  rows : Done db (resumeCursor s.projection) s.memberships

/-- What every call of a rebuild keeps. -/
def KeepsResumable (db : Db) (s s' : ConversationStore) : Prop :=
  Resumable db s → Resumable db s'

theorem keepsResumable_refl (db : Db) (s : ConversationStore) : KeepsResumable db s s := id

section Rows

variable {db : Db} {M : String → Option ConversationMembership} {m : ConversationMembership}

theorem Projected.update (h : Projected db M e) (hm : FromScratch db m.eventId m) :
    Projected db (Function.update M m.eventId (some m)) e := by
  by_cases he : e = m.eventId
  · subst he
    exact ⟨m, Function.update_self .., hm⟩
  · rw [Projected, Function.update_of_ne he]
    exact h

theorem allowsRows_keepsResumable {db : Db} {B : ℕ} : AllowsRows db B (KeepsResumable db) := by
  intro s m _ hnames hm hs
  have hstored : s.db.hasEvent m.eventId = true := by
    simp only [ConversationMembership.namesStored, Bool.and_eq_true] at hnames
    exact hnames.1.1
  rw [hs.graph] at hm hstored
  rw [ConversationStore.putMembership, if_pos hnames]
  exact ⟨hs.graph, fun e c he hc hle => (hs.rows e c he hc hle).update (hm (.refl hstored))⟩

end Rows

/-! ## The cache, cut to its size -/

/-- Cutting the cache cannot leave a part of a cycle: cycles have one event, or the cache
has room for all events. -/
def CyclesWhole (db : Db) (cacheSize : ℕ) : Prop :=
  (∀ e, OnCycle (parentOf db) e → parentOf db e = some e) ∨ db.events.rows.length ≤ cacheSize

section Caches

variable {db : Db} {cache cache' : MembershipCache} {cacheSize : ℕ}

theorem CacheOk.of_get? (h : CacheOk db db cache) (hget : ∀ x, cache'.get? x = cache.get? x) :
    CacheOk db db cache' where
  eventId e m hm := h.eventId e m ((hget e).symm.trans hm)
  stored e m hm := h.stored e m ((hget e).symm.trans hm)
  sound e m hm := h.sound e m ((hget e).symm.trans hm)
  cycles x y n hx hs hy hn := by
    have hkeys : ∀ z, z ∈ cache'.keys ↔ z ∈ cache.keys := fun z => by
      rw [Dict.mem_keys, Dict.mem_keys, hget z]
    rw [hkeys] at hx ⊢
    exact h.cycles x y n hx hs hy hn

theorem ancestor_of_loop {parent : String → Option String} {y x : String} {n : ℕ}
    (hy : parent y = some y) (hn : ancestor parent n y = some x) : x = y := by
  refine ancestor_closed (P := fun z => z = y) ?_ rfl hn
  rintro z w rfl hw
  exact Option.some.inj (hw.symm.trans hy)

theorem CacheOk.prune (h : CacheOk db db cache) (hwhole : CyclesWhole db cacheSize) :
    CacheOk db db (cache.prune cacheSize) := by
  rcases hwhole with hloops | hroom
  · refine ⟨fun e m hm => h.eventId e m (Dict.get?_prune hm),
      fun e m hm => h.stored e m (Dict.get?_prune hm),
      fun e m hm => h.sound e m (Dict.get?_prune hm), ?_⟩
    intro x y n hx _ hy hn
    exact ancestor_of_loop (hloops y hy) hn ▸ hx
  · have hle : cache.keys.length ≤ db.events.rows.length := by
      refine length_le_of_stored cache.nodup fun e he => ?_
      obtain ⟨m, hm⟩ := Dict.mem_keys.mp he
      have hnames := h.stored e m hm
      simp only [ConversationMembership.namesStored, Bool.and_eq_true] at hnames
      exact h.eventId e m hm ▸ hnames.1.1
    rw [Dict.prune_of_le (hle.trans hroom)]
    exact h

theorem nodup_newItems {previous : List String} {cache : MembershipCache} :
    ((newItems previous cache).map Prod.fst).Nodup := by
  have hperm := ((cache.items.filter fun i => i.1 ∉ previous).perm_insertionSort
    fun i j => i.1 ≤ j.1).map Prod.fst
  refine hperm.nodup_iff.mpr ?_
  exact cache.nodup.sublist (filter_sublist.map _)

theorem get?_foldl_newItems (hkeeps : Keeps cache cache') (x : String) :
    ((newItems cache.keys cache').foldl (fun d i => d.set i.1 i.2) cache).get? x =
      cache'.get? x := by
  by_cases hx : x ∈ (newItems cache.keys cache').map Prod.fst
  · obtain ⟨i, hi, rfl⟩ := mem_map.mp hx
    rw [(mem_newItems.mp hi).1]
    exact Dict.get?_foldl_set nodup_newItems hi
  · rw [Dict.get?_foldl_set_of_not_mem hx]
    cases hget : cache.get? x with
    | some m => exact (hkeeps x m hget).symm
    | none =>
      symm
      rw [Dict.get?_eq_none] at hget ⊢
      intro hmem
      obtain ⟨m, hm⟩ := Dict.mem_keys.mp hmem
      exact hx (mem_map.mpr ⟨(x, m), mem_newItems.mpr ⟨hm, hget⟩, rfl⟩)

end Caches

/-! ## One event -/

/-- A rebuild in progress: the cache is right, and what it holds is stored. -/
structure Rebuilding (db : Db) (cache : MembershipCache) (s : ConversationStore) : Prop where
  graph : s.db = db
  cacheOk : CacheOk db db cache
  cached : ∀ x m, cache.get? x = some m → s.memberships x = some m

section Events

variable {db : Db} {bound cacheSize : ℕ} {s : ConversationStore} {b : Rebuild}

/-- Rows that were right stay right. -/
def StayRight (db : Db) (s s' : ConversationStore) : Prop :=
  ∀ x, Projected db s.memberships x → Projected db s'.memberships x

theorem wp_rebuildEvent (hB : db.events.rows.length < bound) (hwhole : CyclesWhole db cacheSize)
    (h : Rebuilding db b.memberships s) (he : db.hasEvent e = true) :
    Task.wp ConversationStore.answer Eq (KeepsResumable db) (rebuildEvent bound cacheSize b e)
      (fun b' s' => Rebuilding db b'.memberships s' ∧ Projected db s'.memberships e ∧
        StayRight db s s') (fun _ _ => False) s := by
  obtain ⟨rfl, hcache, hcached⟩ := h
  have hreading : Reading s.db s.db.events.rows.length s.memberships .empty s :=
    ⟨⟨.refl _, Nat.le_refl _, id⟩, rfl, nofun⟩
  have hresolve := wp_same_db (wp_resolveMembership rely_alone (keepsResumable_refl s.db)
    hB hreading hcache he)
  refine Task.wp_seq (Task.wp_mono (fun _ _ hr => hr) ?_ hresolve) ?_
  · -- nothing commits during a rebuild
    rintro err s' ⟨hstale, hdb⟩
    obtain ⟨id, -, hold, hnew⟩ := hstale.missed
    rw [hdb, hold] at hnew
    cases hnew
  rintro ⟨m, cache', events'⟩ s₁ ⟨⟨h₁, -, hcache₁, hkeeps, hget⟩, hdb₁⟩
  have hstore : Task.wp ConversationStore.answer Eq (KeepsResumable s.db)
      (Task.fold storeItem [] (newItems b.memberships.keys cache')) _ (fun _ _ => False) s₁ :=
    wp_storeItems rely_alone allowsRows_keepsResumable
      (fun i hi => (mem_newItems.mp hi).1) h₁ hcache₁
  refine wp_seq_alone hstore ?_
  rintro changed s₂ ⟨h₂, -⟩ hdb₂
  rw [hdb₁] at hcache₁
  -- after the rows of the calculation, the store has every row of its cache
  have hrow : ∀ x m, cache'.get? x = some m → s₂.memberships x = some m := by
    intro x m hm
    rw [h₂.memberships, overlay]
    split
    · exact hm
    · next hx =>
        have hold : x ∈ b.memberships.keys := by
          by_contra hnot
          exact hx (mem_map.mpr ⟨(x, m), mem_newItems.mpr ⟨hm, hnot⟩, rfl⟩)
        obtain ⟨m', hm'⟩ := Dict.mem_keys.mp hold
        cases hm.symm.trans (hkeeps x m' hm')
        exact hcached x m hm'
  have hright : ∀ x m, cache'.get? x = some m → Projected s.db s₂.memberships x := by
    intro x m hm
    have hnames := hcache₁.stored x m hm
    simp only [ConversationMembership.namesStored, Bool.and_eq_true] at hnames
    have hstored := hcache₁.eventId x m hm ▸ hnames.1.1
    exact ⟨m, hrow x m hm, hcache₁.sound x m hm (.refl hstored)⟩
  refine ⟨⟨hdb₂.trans hdb₁, ?_, ?_⟩, hright e m hget, ?_⟩
  · exact (hcache₁.of_get? (get?_foldl_newItems hkeeps)).prune hwhole
  · intro x m hm
    exact hrow x m ((get?_foldl_newItems hkeeps x).symm.trans (Dict.get?_prune hm))
  · intro x hx
    rw [Projected, h₂.memberships, overlay]
    split
    · next hitem =>
        obtain ⟨i, hi, rfl⟩ := mem_map.mp hitem
        obtain ⟨m, hm, hscratch⟩ := hright i.1 i.2 (mem_newItems.mp hi).1
        exact ⟨m, (hrow i.1 i.2 (mem_newItems.mp hi).1).symm.trans hm ▸
          (mem_newItems.mp hi).1, hscratch⟩
    · exact hx

end Events

/-! ## Pages -/

theorem mem_eventIdsAfter {db : Db} :
    e ∈ eventIdsAfter db after ↔ db.hasEvent e = true ∧ ∀ a, after = some a → a < e := by
  have hall : (after.all fun a => decide (a < e)) = true ↔ ∀ a, after = some a → a < e := by
    cases after <;> simp
  rw [eventIdsAfter, mem_insertionSort, mem_filter, hall, hasEvent_iff, mem_map]

theorem pairwise_eventIdsAfter (db : Db) (after : Option String) :
    (eventIdsAfter db after).Pairwise (· ≤ ·) :=
  pairwise_insertionSort _ _

theorem mem_page {l page : List String} (hsorted : l.Pairwise (· ≤ ·)) (hl : l = page ++ rest)
    (hne : page ≠ []) (he : e ∈ l) (hle : e ≤ page.getLast hne) : e ∈ page := by
  subst hl
  rcases mem_append.mp he with he | he
  · exact he
  · have hlast := (pairwise_append.mp hsorted).2.2 _ (getLast_mem hne) e he
    exact le_antisymm hle hlast ▸ getLast_mem hne

theorem length_eventIdsAfter_lt {db : Db} {last : String} (hlast : last ∈ eventIdsAfter db after) :
    (eventIdsAfter db (some last)).length < (eventIdsAfter db after).length := by
  have hmem := (mem_eventIdsAfter.mp hlast).2
  unfold eventIdsAfter
  rw [length_insertionSort, length_insertionSort]
  have hfilter : (db.events.rows.map EventRow.eventId).filter
      (fun e => (some last).all fun a => decide (a < e)) =
      ((db.events.rows.map EventRow.eventId).filter
        (fun e => after.all fun a => decide (a < e))).filter fun e => decide (last < e) := by
    rw [filter_filter]
    refine filter_congr fun e _ => ?_
    cases after with
    | none => simp
    | some a =>
      have ha := hmem a rfl
      rw [Bool.eq_iff_iff]
      simp only [Option.all_some, Bool.and_eq_true, decide_eq_true_eq]
      exact ⟨fun hlt => ⟨hlt, ha.trans hlt⟩, And.left⟩
  rw [hfilter]
  refine length_filter_lt_length_iff_exists.mpr ⟨last, ?_, by simp⟩
  rwa [eventIdsAfter, mem_insertionSort] at hlast

section Pages

variable {db : Db} {bound pageSize cacheSize : ℕ} {s : ConversationStore} {b : Rebuild}
  {E : ConversationError → ConversationStore → Prop}

theorem wp_rebuildPage (hB : db.events.rows.length < bound) (hwhole : CyclesWhole db cacheSize)
    {page : List String} (hpage : ∀ e ∈ page, db.hasEvent e = true)
    (h : Rebuilding db b.memberships s) :
    Task.wp ConversationStore.answer Eq (KeepsResumable db)
      (Task.fold (rebuildEvent bound cacheSize) b page) (fun b' s' =>
        Rebuilding db b'.memberships s' ∧ (∀ e ∈ page, Projected db s'.memberships e) ∧
          StayRight db s s') (fun _ _ => False) s := by
  refine Task.wp_fold (I := fun done (b' : Rebuild) s' => Rebuilding db b'.memberships s' ∧
    (∀ e ∈ done, Projected db s'.memberships e) ∧ StayRight db s s') ?_
    ⟨h, nofun, fun _ hx => hx⟩
  rintro done e b₁ s₁ hpre ⟨h₁, hdone, hstay⟩
  have he := hpage e (hpre.subset (mem_append_right _ (mem_singleton.mpr rfl)))
  refine Task.wp_mono ?_ (fun _ _ hfalse => hfalse) (wp_rebuildEvent hB hwhole h₁ he)
  rintro b₂ s₂ ⟨h₂, hright, hstay₂⟩
  refine ⟨h₂, ?_, fun x hx => hstay₂ x (hstay x hx)⟩
  intro x hx
  rcases mem_append.mp hx with hx | hx
  · exact hstay₂ x (hdone x hx)
  · exact mem_singleton.mp hx ▸ hright

theorem wp_putProjectionState {p : ConversationProjectionState}
    (h : s.db = db → Done db (resumeCursor (some p)) s.memberships)
    {Q : Unit → ConversationStore → Prop} (hQ : Q () { s with projection := some p }) :
    Task.wp ConversationStore.answer Eq (KeepsResumable db) (ask (.putProjectionState p)) Q E
      s := by
  refine Task.wp_perform ?_
  rintro s' rfl
  exact ⟨fun hs => ⟨hs.graph, h hs.graph⟩, hQ⟩

theorem done_none {db : Db} {M : String → Option ConversationMembership} : Done db none M :=
  fun _ _ _ hc => absurd hc (by simp)

theorem Done.page {cursor : Option String} {s' : ConversationStore}
    (h : Done db cursor s.memberships) (hstay : StayRight db s s') {page : List String}
    (hl : eventIdsAfter db cursor = page ++ rest) (hne : page ≠ [])
    (hpage : ∀ e ∈ page, Projected db s'.memberships e) :
    Done db (some (page.getLast hne)) s'.memberships := by
  rintro e c he ⟨rfl⟩ hle
  by_cases hafter : ∀ a, cursor = some a → a < e
  · exact hpage e (mem_page (pairwise_eventIdsAfter db cursor) hl hne
      (mem_eventIdsAfter.mpr ⟨he, hafter⟩) hle)
  · push Not at hafter
    obtain ⟨a, ha, hea⟩ := hafter
    exact hstay e (h e a he ha hea)

theorem wp_rebuildLoop (hB : db.events.rows.length < bound) (hwhole : CyclesWhole db cacheSize)
    (hsize : 1 ≤ pageSize) : ∀ {fuel : ℕ} {cursor : Option String} {b : Rebuild}
      {s : ConversationStore}, (eventIdsAfter db cursor).length < fuel →
      Rebuilding db b.memberships s → Done db cursor s.memberships →
      Task.wp ConversationStore.answer Eq (KeepsResumable db)
        (rebuildLoop bound pageSize cacheSize fuel cursor b)
        (fun _ s' => ∀ e, db.hasEvent e = true → Projected db s'.memberships e)
        (fun _ _ => False) s := by
  intro fuel
  induction fuel with
  | zero => exact fun hfuel => absurd hfuel (Nat.not_lt_zero _)
  | succ fuel ih =>
    intro cursor b s hfuel h hdone
    obtain ⟨rfl, -, -⟩ := id h
    refine Task.wp_seq (Q := fun page s' => s = s' ∧
      page = Except.ok ((eventIdsAfter s.db cursor).take pageSize)) ?_ ?_
    · refine Task.wp_perform ?_
      rintro s' rfl
      refine ⟨id, rfl, ?_⟩
      show (if pageSize < 1 then _ else _ : Except Err (List String)) = _
      rw [if_neg (Nat.not_lt.mpr hsize)]
    · rintro _ _ ⟨rfl, rfl⟩
      have hsplit := (take_append_drop pageSize (eventIdsAfter s.db cursor)).symm
      cases hpage : (eventIdsAfter s.db cursor).take pageSize with
      | nil =>
        -- no event is left after the cursor
        have hnil : eventIdsAfter s.db cursor = [] := by
          rcases take_eq_nil_iff.mp hpage with hzero | hnil
          · omega
          · exact hnil
        intro e he
        by_cases hafter : ∀ a, cursor = some a → a < e
        · have hmem := mem_eventIdsAfter.mpr ⟨he, hafter⟩
          rw [hnil] at hmem
          exact absurd hmem not_mem_nil
        · push Not at hafter
          obtain ⟨a, ha, hea⟩ := hafter
          exact hdone e a he ha hea
      | cons e es =>
        rw [hpage] at hsplit
        have hmem : ∀ x ∈ e :: es, x ∈ eventIdsAfter s.db cursor := fun x hx => by
          rw [hsplit]
          exact mem_append_left _ hx
        refine Task.wp_seq (wp_rebuildPage hB hwhole
          (fun x hx => (mem_eventIdsAfter.mp (hmem x hx)).1) h) ?_
        rintro b₁ s₁ ⟨h₁, hright, hstay⟩
        have hdone₁ := hdone.page hstay hsplit (cons_ne_nil e es) hright
        refine Task.wp_seq (Q := fun _ s' => s' = { s₁ with
          projection := some (rebuilding (some ((e :: es).getLast (by simp)))) })
          (wp_putProjectionState (fun _ => hdone₁) rfl) ?_
        rintro _ _ rfl
        refine ih ?_ ⟨h₁.graph, h₁.cacheOk, h₁.cached⟩ hdone₁
        have hlt := length_eventIdsAfter_lt (hmem _ (getLast_mem (cons_ne_nil e es)))
        omega

/-- `rebuild_all` rebuilds everything, unless it finds the projection current. -/
theorem wp_rebuildAll (hB : db.events.rows.length < bound) (hwhole : CyclesWhole db cacheSize)
    (hsize : 1 ≤ pageSize) (h : Resumable db s) :
    Task.wp ConversationStore.answer Eq (KeepsResumable db) (rebuildAll bound pageSize cacheSize)
      (fun summary s' => summary.skippedCurrent = false →
        ∀ e, db.hasEvent e = true → Projected db s'.memberships e) (fun _ _ => False) s := by
  obtain ⟨rfl, hrows⟩ := h
  refine Task.wp_seq (Q := fun prior s' => s = s' ∧ prior = s.projection)
    (Task.wp_perform (by rintro s' rfl; exact ⟨id, rfl, rfl⟩)) ?_
  rintro _ _ ⟨rfl, rfl⟩
  split
  · refine Task.wp_seq (Q := fun _ _ => True)
      (wp_putProjectionState (fun _ => done_none) trivial) ?_
    intro _ _ _ hskipped
    cases hskipped
  · refine Task.wp_seq (Q := fun _ s' => s' = { s with
      projection := some (rebuilding (resumeCursor s.projection)) })
      (wp_putProjectionState (fun _ => hrows) rfl) ?_
    rintro _ _ rfl
    have hlength : (eventIdsAfter s.db (resumeCursor s.projection)).length < bound := by
      unfold eventIdsAfter
      rw [length_insertionSort]
      refine Nat.lt_of_le_of_lt (length_filter_le _ _) ?_
      rwa [length_map]
    refine Task.wp_seq (wp_rebuildLoop hB hwhole hsize hlength
      ⟨rfl, cacheOk_empty _ _, fun _ _ hm => absurd hm (by simp)⟩ hrows) ?_
    intro b s₁ hall
    refine Task.wp_seq (Q := fun _ s' => ∀ e, s.db.hasEvent e = true →
      Projected s.db s'.memberships e)
      (wp_putProjectionState (fun _ => done_none) hall) ?_
    exact fun _ s' hs' _ => hs'

theorem wp_rebuildAll_current (h : isCurrent s.projection = true) :
    Task.wp ConversationStore.answer Eq (fun _ _ => True) (rebuildAll bound pageSize cacheSize)
      (fun summary _ => summary.skippedCurrent = true) (fun _ _ => False) s := by
  refine Task.wp_seq (Q := fun prior _ => prior = s.projection)
    (Task.wp_perform (by rintro s' rfl; exact ⟨trivial, rfl⟩)) ?_
  rintro _ _ rfl
  rw [if_pos h]
  refine Task.wp_seq (Q := fun _ _ => True) (Task.wp_perform fun _ _ => ⟨trivial, trivial⟩) ?_
  exact fun _ _ _ => rfl

end Pages

end Medre.Planning
