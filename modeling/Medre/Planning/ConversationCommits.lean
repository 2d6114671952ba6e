import Medre.Planning.ConversationFacts

/-! # What a commit changes in the conversation graph

A storage call admits one event with its relations, adds one native reference, or leaves the
graph as it is; every other event keeps its ancestry, or has the event that got a parent among
its ancestors. -/

namespace Medre.Planning

open List Medre.Framework Medre.Storage

variable {e : Storage.CanonicalEvent} {now : Datetime} {rows : List NativeRefRow}
  {k : String × Option String × String} {x : String} {r : RelationRow} {ts : List Trigger}

/-! ## The graph under one storage call -/

/-- What one call does to the graph. -/
inductive FactStep (db db' : Db) : Prop where
  | same (events : db'.events = db.events) (relations : db'.relations = db.relations)
      (refs : db'.nativeRefs = db.nativeRefs)
  | admitted (e : EventRow) (rels : List RelationRow) (ref : Option NativeRefRow)
      (fresh : db.hasEvent e.eventId = false) (events : db'.events.rows = db.events.rows ++ [e])
      (relations : db'.relations.rows = db.relations.rows ++ rels)
      (own : ∀ r ∈ rels, r.eventId = e.eventId)
      (refs : db'.nativeRefs.rows = db.nativeRefs.rows ++ ref.toList)
      (names : ∀ n ∈ ref, n.eventId = e.eventId ∧
        ∀ m ∈ db.nativeRefs.rows, m.identity ≠ n.identity)
  | referenced (n : NativeRefRow) (events : db'.events = db.events)
      (relations : db'.relations = db.relations)
      (refs : db'.nativeRefs.rows = db.nativeRefs.rows ++ [n])
      (new : ∀ m ∈ db.nativeRefs.rows, m.identity ≠ n.identity)

section Calls

variable {db db' : Db}

theorem factStep_append {u : Unit} (h : (append e now).run db = .ok (u, db')) :
    FactStep db db' := by
  obtain ⟨hstores, hoff⟩ := stores_append h
  have hrefs : db'.nativeRefs = db.nativeRefs := hoff .nativeRefs (by decide)
  refine .admitted _ _ none hstores.fresh hstores.events hstores.relations relationRows_eventId ?_
    fun _ hn => by cases hn
  rw [hrefs]
  exact (append_nil _).symm

theorem factStep_admitIngress {inboundRef : Option Storage.NativeMessageRef}
    {provenance : IngressProvenance} {suppressRouting : Bool} {contentDeadline : Option Datetime}
    {a : AdmissionResult}
    (h : (admitIngress e inboundRef provenance suppressRouting contentDeadline now).run db =
      .ok (a, db')) : FactStep db db' := by
  cases run_admitIngress h with
  | new limit work hcreated own fresh event hnew =>
    refine .admitted _ _ _ hnew.fresh hnew.events hnew.relations relationRows_eventId hnew.refs ?_
    intro n hn
    obtain ⟨r, hr, rfl⟩ := Option.mem_map.mp hn
    exact ⟨(own r hr).1, eventOf_none.mp (own r hr).2⟩
  | known hcreated off work =>
    exact .same (off .events (by decide)) (off .relations (by decide)) (off .nativeRefs (by decide))

theorem factStep_of_addsRef (hevents : db'.events = db.events)
    (hrelations : db'.relations = db.relations) (h : AddsRef db db') : FactStep db db' := by
  obtain ⟨new, hrows, hfresh⟩ := h
  cases new with
  | none =>
    have hsame : db'.nativeRefs = db.nativeRefs := by
      have hrows' : db'.nativeRefs.rows = db.nativeRefs.rows := by simpa using hrows
      revert hrows'
      cases db'.nativeRefs
      cases db.nativeRefs
      rintro rfl
      rfl
    exact .same hevents hrelations hsame
  | some n => exact .referenced n hevents hrelations hrows (hfresh n rfl)

theorem step_facts (x : Externals) (db : Db) (op : Op) : FactStep db (step x db op).1 := by
  have hother : .events ∉ op.writes → .relations ∉ op.writes → FactStep db (step x db op).1 :=
    fun hevents hrelations => factStep_of_addsRef (step_table x db op hevents)
      (step_table x db op hrelations) (step_addsRef x db op)
  cases op with
  | append e now => exact step_cases (P := FactStep db) rfl (.same rfl rfl rfl) fun _ _ =>
    factStep_append
  | admitIngress e inboundRef provenance suppressRouting contentDeadline now =>
    exact step_cases (P := FactStep db) rfl (.same rfl rfl rfl) fun _ _ => factStep_admitIngress
  | _ => exact hother (by simp [Op.writes]) (by simp [Op.writes])

end Calls

/-! ## The repairs that follow a commit -/

/-- A repair that has been triggered: `repair_after_event_available` or
`repair_after_native_ref_available`. -/
inductive Trigger where
  | event (eventId : String)
  | nativeRef (eventId : String)
deriving DecidableEq, Repr

/-- An admission triggers the repair of its event, a later reference that of the
events that wait for it. -/
def triggersOf (db db' : Db) : List Trigger :=
  match db'.events.rows.drop db.events.rows.length with
  | [] => (db'.nativeRefs.rows.drop db.nativeRefs.rows.length).map fun n => .nativeRef n.eventId
  | es => es.map fun e => .event e.eventId

def RelationRow.names (r : RelationRow) (k : String × Option String × String) : Prop :=
  r.targetNativeAdapter = some k.1 ∧ r.targetNativeChannelId = k.2.1 ∧
    r.targetNativeMessageId = some k.2.2

/-- `x` has a relation to a native reference of `y`. -/
def WaitsFor (db : Db) (x y : String) : Prop :=
  ∃ n ∈ db.nativeRefs.rows, n.eventId = y ∧
    ∃ r ∈ db.relations.rows, r.eventId = x ∧ RelationRow.names r n.identity

/-- The events a repair starts from. -/
def Seed (db : Db) : Trigger → String → Prop
  | .event e, x => x = e
  | .nativeRef e, x => WaitsFor db x e

section Growth

variable {db db' : Db}

theorem hasEvent_append {rows : List EventRow} (h : db'.events.rows = db.events.rows ++ rows)
    (e : String) :
    db'.hasEvent e = true ↔ db.hasEvent e = true ∨ ∃ row ∈ rows, row.eventId = e := by
  unfold Db.hasEvent
  rw [h, any_append, Bool.or_eq_true]
  simp

theorem eventOf_append (h : db'.nativeRefs.rows = db.nativeRefs.rows ++ rows) {e : String}
    (he : db.eventOf k = some e) : db'.eventOf k = some e := by
  rw [eventOf_eq] at he ⊢
  obtain ⟨n, hfind, rfl⟩ := Option.map_eq_some_iff.mp he
  rw [h, List.find?_append, hfind]
  rfl

theorem eventOf_new (h : db'.nativeRefs.rows = db.nativeRefs.rows ++ rows) {e : String}
    (he : db'.eventOf k = some e) :
    db.eventOf k = some e ∨ ∃ n ∈ rows, n.identity = k ∧ n.eventId = e := by
  rw [eventOf_eq] at he ⊢
  obtain ⟨n, hfind, rfl⟩ := Option.map_eq_some_iff.mp he
  rw [h, List.find?_append] at hfind
  cases hold : db.nativeRefs.rows.find? fun m => m.identity = k with
  | some m =>
    rw [hold] at hfind
    exact .inl (congrArg _ hfind)
  | none =>
    rw [hold, Option.none_or] at hfind
    exact .inr ⟨n, mem_of_find?_eq_some hfind, by simpa using List.find?_some hfind, rfl⟩

theorem FactStep.grows (h : FactStep db db') : FactsGrow db db' := by
  cases h with
  | same events relations refs =>
    exact {
      events := fun e he => by unfold Db.hasEvent at he ⊢; rwa [events]
      relations := fun e _ => by unfold relationsOf; rw [relations]
      refs := fun k e he => by rw [eventOf_eq] at he ⊢; rwa [refs]
      relationRows := fun r hr => relations ▸ hr
      refRows := fun n hn => refs ▸ hn }
  | admitted e rels ref fresh events relations own refs names =>
    refine ⟨fun x hx => (hasEvent_append events x).mpr (.inl hx), ?_,
      fun k x hx => eventOf_append refs hx, ?_, ?_⟩
    · intro x hx
      have hne : ∀ r ∈ rels, r.eventId ≠ x := by
        rintro r hr rfl
        rw [own r hr, fresh] at hx
        cases hx
      unfold relationsOf
      have hnil : rels.filter (fun r => r.eventId = x) = [] :=
        filter_eq_nil_iff.mpr fun r hr => by simpa using hne r hr
      rw [relations, filter_append, hnil, append_nil]
    · intro r hr
      rw [relations]
      exact mem_append_left _ hr
    · intro n hn
      rw [refs]
      exact mem_append_left _ hn
  | referenced n events relations refs new =>
    exact {
      events := fun e he => by unfold Db.hasEvent at he ⊢; rwa [events]
      relations := fun e _ => by unfold relationsOf; rw [relations]
      refs := fun k e he => eventOf_append refs he
      relationRows := fun r hr => relations ▸ hr
      refRows := fun m hm => by rw [refs]; exact mem_append_left _ hm }

theorem FactStep.length_le (h : FactStep db db') :
    db'.events.rows.length ≤ db.events.rows.length + 1 := by
  cases h with
  | same events => rw [events]; exact Nat.le_succ _
  | admitted e rels ref fresh events => rw [events, length_append]; exact Nat.le_refl _
  | referenced n events => rw [events]; exact Nat.le_succ _

theorem WaitsFor.grows (h : FactsGrow db db') {y : String} (hw : WaitsFor db x y) :
    WaitsFor db' x y := by
  obtain ⟨n, hn, hy, r, hr, hx, hnames⟩ := hw
  exact ⟨n, h.refRows n hn, hy, r, h.relationRows r hr, hx, hnames⟩

theorem Seed.grows (h : FactsGrow db db') {t : Trigger} (hs : Seed db t x) : Seed db' t x := by
  cases t with
  | event e => exact hs
  | nativeRef e => exact WaitsFor.grows h hs

theorem names_of_targetNativeRef (h : targetNativeRef r = some k) : RelationRow.names r k := by
  unfold targetNativeRef at h
  split at h
  · split at h
    · cases h
      exact ⟨by assumption, rfl, by assumption⟩
    · cases h
  · cases h

/-- A relation that gets a stored target: that is the admitted event, or the relation names the new
reference. -/
theorem FactStep.resolves (h : FactStep db db') {t : String} (ht : resolvesTo db' r = some t)
    (hne : resolvesTo db r ≠ some t) :
    Trigger.event t ∈ triggersOf db db' ∨
      (Trigger.nativeRef t ∈ triggersOf db db' ∧
        ∃ n ∈ db'.nativeRefs.rows, n.eventId = t ∧ RelationRow.names r n.identity) := by
  obtain ⟨hstored, hnamed⟩ := resolvesTo_eq_some.mp ht
  cases h with
  | same events relations refs =>
    refine absurd (resolvesTo_of ht ?_ fun k he => ?_) hne
    · unfold Db.hasEvent at hstored ⊢
      rwa [events] at hstored
    · rw [eventOf_eq] at he ⊢
      rwa [refs] at he
  | admitted e rels ref fresh events relations own refs names =>
    -- only the admitted event is new, and only its reference
    left
    have ht' : t = e.eventId := by
      by_contra hte
      refine hne (resolvesTo_of ht ?_ fun k he => ?_)
      · rcases (hasEvent_append events t).mp hstored with hold | ⟨row, hrow, hid⟩
        · exact hold
        · rw [mem_singleton.mp hrow] at hid
          exact absurd hid.symm hte
      · rcases eventOf_new refs he with hold | ⟨n, hn, -, hid⟩
        · exact hold
        · rw [Option.mem_toList] at hn
          exact absurd (hid.symm.trans (names n hn).1) hte
    unfold triggersOf
    rw [events, drop_left]
    simp [ht']
  | referenced n events relations refs new =>
    right
    have hold : db.hasEvent t = true := by
      unfold Db.hasEvent at hstored ⊢
      rwa [events] at hstored
    have hwait : n.eventId = t ∧ RelationRow.names r n.identity := by
      rcases hnamed with hr | ⟨hr, k, hk, he⟩
      · exact absurd (resolvesTo_eq_some.mpr ⟨hold, .inl hr⟩) hne
      · rcases eventOf_new refs he with hkeep | ⟨m, hm, hid, hevent⟩
        · exact absurd (resolvesTo_eq_some.mpr ⟨hold, .inr ⟨hr, k, hk, hkeep⟩⟩) hne
        · rw [mem_singleton.mp hm] at hid hevent
          exact ⟨hevent, hid ▸ names_of_targetNativeRef hk⟩
    refine ⟨?_, n, by rw [refs]; simp, hwait.1, hwait.2⟩
    unfold triggersOf
    rw [events, drop_length, refs, drop_left]
    simp [hwait.1]

theorem FactStep.stores (h : FactStep db db') {e : String} (hold : db.hasEvent e = false)
    (hnew : db'.hasEvent e = true) : Trigger.event e ∈ triggersOf db db' := by
  cases h with
  | same events =>
    unfold Db.hasEvent at hold hnew
    rw [events, hold] at hnew
    cases hnew
  | admitted row rels ref fresh events =>
    rcases (hasEvent_append events e).mp hnew with hstored | ⟨row', hrow, hid⟩
    · rw [hold] at hstored
      cases hstored
    · rw [mem_singleton.mp hrow] at hid
      unfold triggersOf
      rw [events, drop_left]
      simp [hid]
  | referenced n events =>
    unfold Db.hasEvent at hold hnew
    rw [events, hold] at hnew
    cases hnew

/-! ## Ancestries after a commit -/

/-- One of the repairs starts at an ancestor of the event. -/
def Dirty (db : Db) (ts : List Trigger) (e : String) : Prop :=
  ∃ t ∈ ts, ∃ n x, ancestor (parentOf db) n e = some x ∧ Seed db t x

/-- After a commit an event has the ancestry it had, or a triggered repair starts at
one of its ancestors. -/
theorem FactStep.settled_or_dirty (h : FactStep db db') {e : String}
    (he : db'.hasEvent e = true) : Settled db db' e ∨ Dirty db' (triggersOf db db') e := by
  by_cases hs : Settled db db' e
  · exact .inl hs
  · right
    unfold Settled at hs
    push Not at hs
    obtain ⟨n, x, hx, hbad⟩ := hs
    cases hold : db.hasEvent x with
    | false =>
      exact ⟨.event x, h.stores hold (ancestor_stored he hx), n, x, hx, rfl⟩
    | true =>
      obtain ⟨r, hr, t, ht, hne, hfind⟩ := exists_of_not_stable (hbad hold)
      have hparent : parentOf db' x = some t := by
        unfold parentOf
        rw [h.grows.relations x hold]
        exact hfind
      rcases h.resolves ht hne with htrigger | ⟨htrigger, m, hm, hid, hnames⟩
      · exact ⟨.event t, htrigger, n + 1, t, ancestor_trans hx (ancestor_one hparent), rfl⟩
      · have hrow : r ∈ db.relations.rows ∧ r.eventId = x := by
          simpa [relationsOf] using hr
        exact ⟨.nativeRef t, htrigger, n, x, hx, m, hm, hid, r,
          h.grows.relationRows r hrow.1, hrow.2, hnames⟩

theorem Dirty.settled (h : FactsGrow db db') {e : String} (hs : Settled db db' e)
    (hd : Dirty db ts e) : Dirty db' ts e := by
  obtain ⟨t, ht, n, x, hx, hseed⟩ := hd
  exact ⟨t, ht, n, x, (hs.ancestor h n).symm.trans hx, hseed.grows h⟩

theorem Dirty.mono {ts' : List Trigger} {e : String} (hsub : ∀ t ∈ ts, t ∈ ts')
    (hd : Dirty db ts e) : Dirty db ts' e := by
  obtain ⟨t, ht, rest⟩ := hd
  exact ⟨t, hsub t ht, rest⟩

end Growth

end Medre.Planning
