import Medre.Storage.Footprint

/-! # The rows of an admitted event

A durable ingress adds the event, the reference it came under and its work row, or finds the
event and adds the work row that is missing. -/

namespace Medre.Storage

open List Medre.Framework Tx

variable {e : CanonicalEvent} {eventId now : String} {u : Unit} {db db' : Db}
  {relations : List EventRelation} {inboundRef : Option NativeMessageRef}

/-! ## The parts -/

/-- The row of a relation, and its excerpt. -/
def EventRelation.row (r : EventRelation) (eventId now : String) (id : ℕ) : RelationRow where
  id := id
  eventId := eventId
  relationType := r.relationType
  targetEventId := r.targetEventId
  targetNativeAdapter := r.targetNativeAdapter
  targetNativeChannelId := r.targetNativeChannelId
  targetNativeMessageId := r.targetNativeMessageId
  targetNativeThreadId := r.targetNativeThreadId
  key := r.key
  metadata := .obj r.metadata
  createdAt := now
  excerpt := r.fallbackText

/-- The rows of a list of relations under consecutive ids. -/
def relationRows (eventId now : String) : ℕ → List EventRelation → List RelationRow
  | _, [] => []
  | id, r :: rs => r.row eventId now id :: relationRows eventId now (id + 1) rs

namespace CanonicalEvent

def bodyIdentity (e : CanonicalEvent) (now : String) : BodyIdentity :=
  { eventId := e.eventId, presentAtAdmission := bodyPresent e.payload, recordedAt := now }

/-- The rows of `body_content_ops`. -/
def bodyContents (e : CanonicalEvent) (now : String) : List BodyContent :=
  [BodyField.body, .text].filterMap fun field =>
    (payloadText e.payload field).map fun body =>
      { eventId := e.eventId, field, body, createdAt := now }

/-- The row of `routing_facts_op`. -/
def routingRows (e : CanonicalEvent) (now : String) : List RoutingFacts :=
  match e.metadata with
  | .typed _ (some routing) =>
    [{ eventId := e.eventId, matchedRoutes := routing.matchedRoutes
       fanoutGroup := routing.fanoutGroup, routeTrace := routing.routeTrace
       recordedAt := now }]
  | _ => []

end CanonicalEvent

def Db.nextRelation (db : Db) : ℕ := (db.relations.rows.map RelationRow.id).foldr max 0 + 1

/-- The event is stored from `db` to `db'`. -/
structure StoresEvent (e : CanonicalEvent) (now : String) (db db' : Db) : Prop where
  fresh : db.hasEvent e.eventId = false
  events : db'.events.rows = db.events.rows ++ [e.row now]
  identity : db'.bodyIdentity.rows = db.bodyIdentity.rows ++ [e.bodyIdentity now]
  bodies : db'.bodyContent.rows = db.bodyContent.rows ++ e.bodyContents now
  routing : db'.routingFacts.rows = db.routingFacts.rows ++ e.routingRows now
  relations : db'.relations.rows =
    db.relations.rows ++ relationRows e.eventId now db.nextRelation e.relations

/-! ## The statements -/

theorem run_bodyContentOp {field : BodyField}
    (h : (bodyContentOp e now field).run db = .ok (u, db')) :
    db'.bodyContent.rows = db.bodyContent.rows ++
      ((payloadText e.payload field).map fun body =>
        ({ eventId := e.eventId, field, body, createdAt := now } : BodyContent)).toList := by
  unfold bodyContentOp at h
  cases hp : payloadText e.payload field with
  | none =>
    rw [hp] at h
    obtain ⟨-, rfl⟩ := run_pure.mp h
    exact (append_nil _).symm
  | some body =>
    rw [hp] at h
    obtain ⟨t, ht, rfl⟩ := run_insertInto.mp h
    exact Table.rows_insert ht

theorem run_routingFactsOp (h : (routingFactsOp e now).run db = .ok (u, db')) :
    db'.routingFacts.rows = db.routingFacts.rows ++ e.routingRows now := by
  rw [routingFactsOp] at h
  rw [CanonicalEvent.routingRows]
  generalize e.metadata = metadata at h ⊢
  rcases metadata with ⟨namespaces, _ | routing⟩ | value
  · obtain ⟨-, rfl⟩ := run_pure.mp h
    exact (append_nil _).symm
  · obtain ⟨_, _, hreq, hinsert⟩ := run_bind.mp h
    obtain ⟨-, rfl⟩ := run_require.mp hreq
    obtain ⟨t, ht, rfl⟩ := run_insertInto.mp hinsert
    exact Table.rows_insert ht
  · obtain ⟨-, rfl⟩ := run_pure.mp h
    exact (append_nil _).symm

theorem foldr_max_append {α : Type} [LinearOrder α] (ids : List α) (n b : α) :
    (ids ++ [n]).foldr max b = max (ids.foldr max b) n := by
  induction ids with
  | nil => exact max_comm n b
  | cons a ids ih => simp only [cons_append, foldr_cons, ih, max_assoc]

theorem run_insertRelations (h : (insertRelations eventId now relations).run db = .ok (u, db')) :
    db'.relations.rows =
      db.relations.rows ++ relationRows eventId now db.nextRelation relations := by
  induction relations generalizing db with
  | nil =>
    obtain ⟨-, rfl⟩ := run_pure.mp h
    exact (append_nil _).symm
  | cons r rs ih =>
    obtain ⟨_, db1, hfirst, hrest⟩ := run_bind.mp h
    simp only [insertRelation, run_bind, run_query] at hfirst
    obtain ⟨next, _, ⟨rfl, rfl⟩, hinsert⟩ := hfirst
    obtain ⟨t, ht, rfl⟩ := run_insertInto.mp hinsert
    have hrows := Table.rows_insert ht
    -- the id of the inserted relation is the greatest one
    have hnext : ({ db with relations := t } : Db).nextRelation = db.nextRelation + 1 := by
      show (t.rows.map RelationRow.id).foldr max 0 + 1 = _
      rw [hrows, map_append, map_singleton, foldr_max_append]
      rw [max_eq_right (Nat.le_succ _)]
      rfl
    rw [ih hrest, hnext]
    rw [hrows, append_assoc]
    rfl

theorem storesEvent_of_eventOps (h : (eventOps e now).run db = .ok (u, db')) :
    StoresEvent e now db db' := by
  obtain ⟨_, db1, hevent, hrest⟩ := run_bind.mp h
  obtain ⟨_, db2, hidentity, hrest⟩ := run_bind.mp hrest
  obtain ⟨_, db3, hbody, hrest⟩ := run_bind.mp hrest
  obtain ⟨_, db4, htext, hrest⟩ := run_bind.mp hrest
  obtain ⟨_, db5, hrouting, hrelations⟩ := run_bind.mp hrest
  obtain ⟨t1, ht1, rfl⟩ := run_insertInto.mp hevent
  obtain ⟨t2, ht2, rfl⟩ := run_insertInto.mp hidentity
  -- each statement leaves the tables of the others alone
  have Rbody := footprint_rules [.bodyContent] fun _ => False
  have hoff3 := follows_bodyContentOp Rbody (by decide) _ _ _ hbody
  have hoff4 := follows_bodyContentOp Rbody (by decide) _ _ _ htext
  have hoff5 := follows_routingFactsOp (footprint_rules [.routingFacts] fun _ => False)
    (by decide) _ _ _ hrouting
  have hoff6 := follows_insertRelations (footprint_rules [.relations] fun _ => False)
    (by decide) _ _ _ hrelations
  have hkept : ∀ t, t ∉ [TableName.bodyContent, .routingFacts, .relations] →
      db'.table t = ({ db with events := t1, bodyIdentity := t2 } : Db).table t := by
    intro t ht
    simp only [mem_cons, not_mem_nil, or_false, not_or] at ht
    rw [hoff6 t (by simp [ht]), hoff5 t (by simp [ht]), hoff4 t (by simp [ht]),
      hoff3 t (by simp [ht])]
  refine ⟨?_, ?_, ?_, ?_, ?_, ?_⟩
  · rw [← Bool.not_eq_true]
    intro hstored
    obtain ⟨r, hr, hid⟩ := any_eq_true.mp hstored
    have hclash := Table.not_clash_of_insert ht1 hr
    simp [distinctOn, CanonicalEvent.row, of_decide_eq_true hid] at hclash
  · rw [show db'.events = t1 from hkept .events (by decide)]
    exact Table.rows_insert ht1
  · rw [show db'.bodyIdentity = t2 from hkept .bodyIdentity (by decide)]
    exact Table.rows_insert ht2
  · rw [show db'.bodyContent = db5.bodyContent from hoff6 .bodyContent (by decide),
      show db5.bodyContent = db4.bodyContent from hoff5 .bodyContent (by decide),
      run_bodyContentOp htext, run_bodyContentOp hbody, append_assoc]
    refine congrArg (db.bodyContent.rows ++ ·) ?_
    cases hb : payloadText e.payload .body <;> cases ht : payloadText e.payload .text <;>
      simp [CanonicalEvent.bodyContents, hb, ht]
  · rw [show db'.routingFacts = db5.routingFacts from hoff6 .routingFacts (by decide),
      run_routingFactsOp hrouting,
      show db4.routingFacts = db3.routingFacts from hoff4 .routingFacts (by decide),
      show db3.routingFacts = db.routingFacts from hoff3 .routingFacts (by decide)]
  · have hbefore : db5.relations = db.relations :=
      (hoff5 .relations (by decide)).trans ((hoff4 .relations (by decide)).trans
        (hoff3 .relations (by decide)))
    rw [run_insertRelations hrelations, Db.nextRelation, hbefore]
    rfl

theorem StoresEvent.after {db₁ : Db} (h : StoresEvent e now db db₁)
    (hoff : ∀ t ∈ eventTables, db'.table t = db₁.table t) :
    StoresEvent e now db db' where
  fresh := h.fresh
  events := by
    rw [show db'.events = db₁.events from hoff .events (by decide)]
    exact h.events
  identity := by
    rw [show db'.bodyIdentity = db₁.bodyIdentity from hoff .bodyIdentity (by decide)]
    exact h.identity
  bodies := by
    rw [show db'.bodyContent = db₁.bodyContent from hoff .bodyContent (by decide)]
    exact h.bodies
  routing := by
    rw [show db'.routingFacts = db₁.routingFacts from hoff .routingFacts (by decide)]
    exact h.routing
  relations := by
    rw [show db'.relations = db₁.relations from hoff .relations (by decide)]
    exact h.relations

theorem StoresEvent.hasEvent_iff (h : StoresEvent e now db db') {i : String} :
    db'.hasEvent i = true ↔ db.hasEvent i = true ∨ i = e.eventId := by
  unfold Db.hasEvent
  rw [h.events, any_append, Bool.or_eq_true, any_cons, any_nil, Bool.or_false, decide_eq_true_eq]
  exact or_congr_right eq_comm

theorem relationRows_eventId {n : ℕ} :
    ∀ r ∈ relationRows eventId now n relations, r.eventId = eventId := by
  induction relations generalizing n with
  | nil => exact fun _ h => absurd h not_mem_nil
  | cons r rs ih => exact forall_mem_cons.mpr ⟨rfl, ih⟩

/-! ## The calls -/

theorem stores_append {now : Datetime} (h : (append e now).run db = .ok (u, db')) :
    StoresEvent e (nowIso now) db db' ∧ (offTables (.dependencies :: eventTables)).rel db db' := by
  obtain ⟨_, db1, hops, hdep⟩ := run_bind.mp h
  have hoff := (footprint_rules [.dependencies] fun _ => True).dependency (by decide) _ trivial
    _ _ _ hdep
  have hall := follows_eventOps (footprint_rules eventTables fun _ => False)
    (List.Subset.refl _) _ _ _ hops
  refine ⟨(storesEvent_of_eventOps hops).after fun t ht => hoff t ?_, fun t ht => ?_⟩
  · revert t
    decide
  · rw [mem_cons, not_or] at ht
    exact (hoff t (by simpa using ht.1)).trans (hall t ht.2)

/-- A new event is admitted with its work. -/
structure AdmitsNew (e : CanonicalEvent) (inboundRef : Option NativeMessageRef)
    (limit : Option (String × ℤ)) (work : IngressWork) (now : Datetime) (db db' : Db) : Prop
    extends StoresEvent e (nowIso now) db db' where
  source : db'.dependencies.rows = db.dependencies.rows ++
    [{ eventId := e.eventId, ownerKind := .ingress, ownerId := e.eventId
       acquiredAt := now.isoformatMicroseconds, deadline := limit.map Prod.fst }]
  refs : db'.nativeRefs.rows =
    db.nativeRefs.rows ++ (inboundRef.map NativeMessageRef.row).toList
  work : db.ingressWork.insert work = some db'.ingressWork

theorem run_insertIngressWork {w : IngressWork} (h : (insertIngressWork w).run db = .ok (u, db')) :
    db.ingressWork.insert w = some db'.ingressWork ∧ db'.hasEvent w.eventId = true ∧
      (offTables [.ingressWork]).rel db db' := by
  have hoff := (footprint_rules [.ingressWork] fun _ => False).ingressInsert (by decide) _
    _ _ _ h
  simp only [insertIngressWork, run_bind, run_requireEvent] at h
  obtain ⟨_, _, hinsert, hstored, rfl⟩ := h
  obtain ⟨t, ht, rfl⟩ := run_insertInto.mp hinsert
  exact ⟨ht, hstored, hoff⟩

theorem run_insertInboundRef {r : Option NativeMessageRef}
    (h : (insertInboundRef r).run db = .ok (u, db')) :
    db'.nativeRefs.rows = db.nativeRefs.rows ++ (r.map NativeMessageRef.row).toList := by
  cases r with
  | none =>
    obtain ⟨-, rfl⟩ := run_pure.mp h
    exact (append_nil _).symm
  | some r =>
    simp only [insertInboundRef, insertNativeRef, run_bind, run_requireEvent] at h
    obtain ⟨_, _, hinsert, -, rfl⟩ := h
    obtain ⟨t, ht, rfl⟩ := run_insertInto.mp hinsert
    exact Table.rows_insert ht

theorem run_admitNew {limit : Option (String × ℤ)} {work : IngressWork} {now : Datetime}
    (h : (admitNew e inboundRef limit work now).run db = .ok (u, db')) :
    AdmitsNew e inboundRef limit work now db db' := by
  simp only [admitNew, run_bind, run_query, run_require] at h
  obtain ⟨installed, _, ⟨-, rfl⟩, _, _, ⟨-, rfl⟩, _, db1, hops, _, db2, hdep, _, db3, hceiling, _,
    db4, href, hwork⟩ := h
  obtain ⟨hinsert, -, hoff5⟩ := run_insertIngressWork hwork
  have hoff1 := follows_eventOps (footprint_rules eventTables fun _ => False)
    (List.Subset.refl _) _ _ _ hops
  have hoff2 := (footprint_rules [.dependencies] fun _ => True).dependency (by decide) _ trivial
    _ _ _ hdep
  have hoff3 := follows_installCeiling (footprint_rules [.policies] fun _ => False) (by decide)
    _ _ _ hceiling
  have hoff4 := follows_insertInboundRef (footprint_rules [.nativeRefs] fun _ => False)
    (by decide) _ _ _ href
  have hlater : ∀ t, t ∉ [TableName.policies, .nativeRefs, .ingressWork] →
      db'.table t = db2.table t := by
    intro t ht
    simp only [mem_cons, not_mem_nil, or_false, not_or] at ht
    rw [hoff5 t (by simp [ht]), hoff4 t (by simp [ht]), hoff3 t (by simp [ht])]
  refine ⟨(storesEvent_of_eventOps hops).after fun t ht => ?_, ?_, ?_, ?_⟩
  · rw [hlater t (by revert t; decide), hoff2 t (by revert t; decide)]
  · simp only [insertDependency, run_bind, run_query, run_require] at hdep
    obtain ⟨_, _, hdepInsert, -, _, ⟨-, rfl⟩, -, rfl⟩ := hdep
    obtain ⟨t, ht, rfl⟩ := run_insertInto.mp hdepInsert
    rw [show db'.dependencies = t from hlater .dependencies (by decide), Table.rows_insert ht,
      show db1.dependencies = db.dependencies from hoff1 .dependencies (by decide)]
  · rw [show db'.nativeRefs = db4.nativeRefs from hoff5 .nativeRefs (by decide),
      run_insertInboundRef href,
      show db3.nativeRefs = db2.nativeRefs from hoff3 .nativeRefs (by decide),
      show db2.nativeRefs = db1.nativeRefs from hoff2 .nativeRefs (by decide),
      show db1.nativeRefs = db.nativeRefs from hoff1 .nativeRefs (by decide)]
  · rw [← show db4.ingressWork = db.ingressWork from (hoff4 .ingressWork (by decide)).trans
      ((hoff3 .ingressWork (by decide)).trans ((hoff2 .ingressWork (by decide)).trans
        (hoff1 .ingressWork (by decide))))]
    exact hinsert

/-- The work row of an admission, before any claim. -/
def IngressWork.Fresh (w : IngressWork) : Prop :=
  w.attempts = 0 ∧ (w.status = .pending ∨ w.status = .suppressedHistory)

/-- An ingress admission stores a new event with its work, or adds at most the work of a
stored one. -/
inductive IngressAdmission (e : CanonicalEvent) (inboundRef : Option NativeMessageRef)
    (now : Datetime) (created : Bool) (db db' : Db) : Prop
  | new (limit : Option (String × ℤ)) (work : IngressWork) (hcreated : created = true)
      (own : ∀ r ∈ inboundRef, r.eventId = e.eventId ∧
        db.resolveNativeRef r.adapter r.nativeChannelId r.nativeMessageId = none)
      (fresh : work.Fresh) (event : work.eventId = e.eventId)
      (h : AdmitsNew e inboundRef limit work now db db')
  | known (hcreated : created = false) (off : (offTables [.ingressWork]).rel db db')
      (work : db' = db ∨ ∃ w : IngressWork, w.Fresh ∧ db'.hasEvent w.eventId = true ∧
        db.ingressWork.insert w = some db'.ingressWork)

theorem run_admitIngress {provenance : IngressProvenance} {suppressRouting : Bool}
    {contentDeadline : Option Datetime} {now : Datetime} {a : AdmissionResult}
    (h : (admitIngress e inboundRef provenance suppressRouting contentDeadline now).run db =
      .ok (a, db')) : IngressAdmission e inboundRef now a.created db db' := by
  simp only [admitIngress, run_bind, run_require, run_lift, run_query] at h
  obtain ⟨_, _, ⟨hown, rfl⟩, limit, _, ⟨-, rfl⟩, existing, _, ⟨hexisting, rfl⟩, hrest⟩ := h
  have hfresh : ∀ i, (ingressWorkOf provenance suppressRouting now i).Fresh := by
    intro i
    refine ⟨rfl, ?_⟩
    unfold ingressWorkOf
    split
    · exact .inr rfl
    · exact .inl rfl
  cases existing with
  | none =>
    simp only [run_bind, run_pure] at hrest
    obtain ⟨_, _, hnew, rfl, rfl⟩ := hrest
    refine .new limit _ rfl ?_ (hfresh _) rfl (run_admitNew hnew)
    rintro r ⟨rfl⟩
    exact ⟨of_decide_eq_true hown, hexisting⟩
  | some known =>
    simp only [admitKnown, run_bind, run_query] at hrest
    obtain ⟨found, _, ⟨-, rfl⟩, hrest⟩ := hrest
    cases found with
    | some w =>
      obtain ⟨rfl, rfl⟩ := run_pure.mp hrest
      exact .known rfl ((offTables _).refl _) (.inl rfl)
    | none =>
      obtain ⟨_, db1, hwork, hpure⟩ := run_bind.mp hrest
      obtain ⟨rfl, rfl⟩ := run_pure.mp hpure
      obtain ⟨hinsert, hstored, hoff⟩ := run_insertIngressWork hwork
      exact .known rfl hoff (.inr ⟨_, hfresh known, hstored, hinsert⟩)

end Medre.Storage
