import Medre.Storage.EventAdmission
import Medre.Storage.Generations

/-! # The conversation an event joins on ingress

`ConversationGraphAuthority` of `planning/conversation_graph.py`. The identity of an event is
found in one state of the store and the event is admitted in a later one. -/

namespace Medre.Planning.Ingress

open List Medre.Framework

def get (stored : List Storage.CanonicalEvent) (eventId : String) : Option Storage.CanonicalEvent :=
  stored.find? (·.eventId = eventId)

def maxWalkDepth : ℕ := 64

section
variable (get : String → Option Storage.CanonicalEvent)

/-- The loop over the relations: the first target that is stored. -/
def firstTarget (event : Storage.CanonicalEvent) : Option Storage.CanonicalEvent :=
  event.relations.findSome? fun rel => rel.targetEventId.bind get

/-- `_resolve_root_from`, by the depth that is left. -/
def resolveRootFrom : ℕ → List String → Storage.CanonicalEvent → String
  | 0, _, event => event.eventId
  | depth + 1, visited, event =>
    if event.eventId ∈ visited then event.eventId
    else match event.rootEventId, firstTarget get event with
      | some root, _ => root
      | none, some parent => resolveRootFrom depth (event.eventId :: visited) parent
      | none, none => event.eventId

def assignIdentity (event : Storage.CanonicalEvent) (rootId : String) : Storage.CanonicalEvent :=
  { event with rootEventId := some rootId, conversationId := some rootId }

def resolveConversationIdentity (event : Storage.CanonicalEvent) : Storage.CanonicalEvent :=
  assignIdentity event <| match event.rootEventId, firstTarget get event with
    | some root, _ => root
    | none, some target => resolveRootFrom get maxWalkDepth [] target
    | none, none => event.eventId

end

/-- The stored events, and those whose identity is found and that are to be admitted. -/
structure IngressState where
  stored : List Storage.CanonicalEvent
  resolved : List Storage.CanonicalEvent

/-- An event as adapters publish it; only replayed and derived events have a root already. -/
abbrev LiveEvent := { e : Storage.CanonicalEvent // e.rootEventId = none }

inductive IngressCall where
  | resolve (event : LiveEvent)
  | store (i : ℕ)

def ingressStep (s : IngressState) : IngressCall → IngressState × Unit
  | .resolve event =>
    ({ s with resolved := s.resolved ++ [resolveConversationIdentity (get s.stored) event] }, ())
  | .store i =>
    match s.resolved[i]? with
    | some event =>
      (if (get s.stored event.eventId).isSome then s
        else { s with stored := s.stored ++ [event] }, ())
    | none => (s, ())

def ingressAfter (calls : List IngressCall) : IngressState := run ingressStep ⟨[], []⟩ calls

/-- The event `r` is the root of its own conversation, and that is the conversation of `e`. -/
def RootedAt (e r : Storage.CanonicalEvent) : Prop :=
  e.rootEventId = some r.eventId ∧ e.conversationId = some r.eventId ∧
    r.rootEventId = some r.eventId

structure IngressInv (s : IngressState) : Prop where
  stored : ∀ e ∈ s.stored, ∃ r ∈ s.stored, RootedAt e r
  resolved : ∀ e ∈ s.resolved, RootedAt e e ∨ ∃ r ∈ s.stored, RootedAt e r

theorem firstTarget_mem {stored : List Storage.CanonicalEvent}
    {event target : Storage.CanonicalEvent}
    (h : firstTarget (get stored) event = some target) : target ∈ stored := by
  obtain ⟨rel, -, hrel⟩ := exists_of_findSome?_eq_some h
  obtain ⟨id, -, hget⟩ := Option.bind_eq_some_iff.mp hrel
  exact mem_of_find?_eq_some hget

theorem resolve_root {s : IngressState} (hs : IngressInv s) (event : LiveEvent) :
    (resolveConversationIdentity (get s.stored) event).rootEventId =
      (firstTarget (get s.stored) event.1).elim (some event.1.eventId)
        Storage.CanonicalEvent.rootEventId := by
  cases htarget : firstTarget (get s.stored) event.1 with
  | none => simp [resolveConversationIdentity, assignIdentity, event.2, htarget]
  | some target =>
    -- a stored target has its root, so the walk ends there
    obtain ⟨r, -, hr, -⟩ := hs.stored target (firstTarget_mem htarget)
    simp [resolveConversationIdentity, assignIdentity, event.2, htarget, maxWalkDepth,
      resolveRootFrom, hr]

theorem ingressStep_inv (s : IngressState) (call : IngressCall) (hs : IngressInv s) :
    IngressInv (ingressStep s call).1 := by
  cases call with
  | resolve event =>
    refine ⟨hs.stored, ?_⟩
    intro e he
    rcases mem_append.mp he with he | he
    · exact hs.resolved e he
    · have hroot := resolve_root hs event
      rw [mem_singleton.mp he]
      cases htarget : firstTarget (get s.stored) event.1 with
      | none =>
        rw [htarget] at hroot
        exact .inl ⟨hroot, hroot, hroot⟩
      | some target =>
        obtain ⟨r, hr, h⟩ := hs.stored target (firstTarget_mem htarget)
        rw [htarget, Option.elim_some, h.1] at hroot
        exact .inr ⟨r, hr, hroot, hroot, h.2.2⟩
  | store i =>
    simp only [ingressStep]
    split
    · next event hevent =>
      split
      · exact hs
      · have hkept : ∀ e, (∃ r ∈ s.stored, RootedAt e r) →
            ∃ r ∈ s.stored ++ [event], RootedAt e r :=
          fun e ⟨r, hr, h⟩ => ⟨r, mem_append_left _ hr, h⟩
        refine ⟨?_, fun e he => (hs.resolved e he).imp_right (hkept e)⟩
        intro e he
        rcases mem_append.mp he with he | he
        · exact hkept e (hs.stored e he)
        · rw [mem_singleton.mp he]
          rcases hs.resolved event (mem_of_getElem? hevent) with hself | hroot
          · exact ⟨event, by simp, hself⟩
          · exact hkept event hroot
    · exact hs

/-! ## On the tables -/

/-- The calls of a run, and the tables that it leaves. A resolved event is admitted at any time;
that is a `store` unless the admission raises or the event is known. -/
inductive IngressRun (x : Storage.Externals) : List IngressCall → Storage.Db → Prop
  | start : IngressRun x [] .empty
  | resolve {calls db} (event : LiveEvent) (h : IngressRun x calls db) :
      IngressRun x (calls ++ [.resolve event]) db
  | admitted {calls db i e ref provenance suppress deadline now db'} (h : IngressRun x calls db)
      (he : (ingressAfter calls).resolved[i]? = some e)
      (hdb : db' = (Storage.step x db (.admitIngress e ref provenance suppress deadline now)).1) :
      IngressRun x (if db'.events.rows.length = db.events.rows.length then calls
        else calls ++ [.store i]) db'
  | other {calls db op} (h : IngressRun x calls db) (hop : .events ∉ op.writes) :
      IngressRun x calls (Storage.step x db op).1

/-- The event table holds the events, by id and conversation. -/
def Tabled (stored : List Storage.CanonicalEvent) (db : Storage.Db) : Prop :=
  db.events.rows.map (fun row => (row.eventId, row.rootEventId, row.conversationId)) =
    stored.map fun e => (e.eventId, e.rootEventId, e.conversationId)

section Tables

variable {x : Storage.Externals} {calls : List IngressCall} {db : Storage.Db}
  {stored : List Storage.CanonicalEvent} {e : Storage.CanonicalEvent}

theorem Tabled.row (h : Tabled stored db) {row : Storage.EventRow} (hrow : row ∈ db.events.rows) :
    ∃ e ∈ stored, (e.eventId, e.rootEventId, e.conversationId) =
      (row.eventId, row.rootEventId, row.conversationId) :=
  mem_map.mp (h ▸ mem_map_of_mem hrow)

theorem Tabled.event (h : Tabled stored db) (he : e ∈ stored) :
    ∃ row ∈ db.events.rows, (row.eventId, row.rootEventId, row.conversationId) =
      (e.eventId, e.rootEventId, e.conversationId) :=
  mem_map.mp (h.symm ▸ mem_map_of_mem he)

theorem Tabled.get_eq_none (h : Tabled stored db) (hfresh : db.hasEvent e.eventId = false) :
    get stored e.eventId = none := by
  refine List.find?_eq_none.mpr fun e' he' hid => ?_
  obtain ⟨row, hrow, hsame⟩ := h.event he'
  have hstored := Storage.hasEvent_iff.mpr
    ⟨row, hrow, (congrArg Prod.fst hsame).trans (of_decide_eq_true hid)⟩
  rw [hfresh] at hstored
  cases hstored

theorem admitIngress_events (x : Storage.Externals) (db : Storage.Db) (e : Storage.CanonicalEvent)
    (ref : Option Storage.NativeMessageRef) (provenance : Storage.IngressProvenance)
    (suppress : Bool) (deadline : Option Datetime) (now : Datetime) :
    let db' := (Storage.step x db (.admitIngress e ref provenance suppress deadline now)).1
    db'.events = db.events ∨ (db.hasEvent e.eventId = false ∧
      db'.events.rows = db.events.rows ++ [e.row (Storage.nowIso now)]) := by
  refine Storage.step_cases (P := fun db' => db'.events = db.events ∨ (db.hasEvent e.eventId = false ∧
      db'.events.rows = db.events.rows ++ [e.row (Storage.nowIso now)])) rfl (.inl rfl)
    fun a db' hrun => ?_
  cases Storage.run_admitIngress hrun with
  | new _ _ _ _ _ _ hnew => exact .inr ⟨hnew.fresh, hnew.events⟩
  | known _ hoff => exact .inl (hoff .events (by decide))

theorem IngressRun.tabled (h : IngressRun x calls db) : Tabled (ingressAfter calls).stored db := by
  induction h with
  | start => rfl
  | resolve event _ ih =>
    rw [ingressAfter, run_snoc]
    exact ih
  | @admitted calls db i e ref provenance suppress deadline now db' _ he hdb ih =>
    subst hdb
    rcases admitIngress_events x db e ref provenance suppress deadline now with
      hsame | ⟨hfresh, hgrown⟩
    · rw [if_pos (by rw [hsame]), Tabled, hsame]
      exact ih
    · have hget := ih.get_eq_none hfresh
      rw [if_neg (by simp [hgrown]), ingressAfter, run_snoc]
      simp only [ingressAfter] at he hget ih
      simp only [ingressStep, he, hget, Option.isSome_none, Bool.false_eq_true, if_false, Tabled,
        hgrown, map_append]
      rw [ih]
      rfl
  | @other _ db op _ hop ih =>
    have hevents : (Storage.step x db op).1.events = db.events := Storage.step_table x db op hop
    rw [Tabled, hevents]
    exact ih

end Tables

/-- However resolutions and admissions interleave, every stored event belongs to the
conversation of a stored root, in the rows of the event table too, and an event joins that of its
first stored target. -/
theorem ingress_conversations (calls : List IngressCall) :
    IngressInv (ingressAfter calls) ∧
    (∀ event : LiveEvent,
      (resolveConversationIdentity (get (ingressAfter calls).stored) event).rootEventId =
        (firstTarget (get (ingressAfter calls).stored) event.1).elim (some event.1.eventId)
          Storage.CanonicalEvent.rootEventId) ∧
    ∀ x db, IngressRun x calls db → ∀ row ∈ db.events.rows, ∃ r ∈ db.events.rows,
      row.rootEventId = some r.eventId ∧ row.conversationId = some r.eventId ∧
        r.rootEventId = some r.eventId := by
  have hinv : IngressInv (ingressAfter calls) :=
    run_invariant ingressStep_inv ⟨by simp, by simp⟩ calls
  refine ⟨hinv, resolve_root hinv, fun x db hrun row hrow => ?_⟩
  obtain ⟨e, he, hsame⟩ := hrun.tabled.row hrow
  obtain ⟨r, hr, hroot⟩ := hinv.stored e he
  obtain ⟨row', hrow', hsame'⟩ := hrun.tabled.event hr
  simp only [Prod.mk.injEq] at hsame hsame'
  refine ⟨row', hrow', ?_⟩
  rw [← hsame.2.1, ← hsame.2.2, hsame'.1, hsame'.2.1]
  exact hroot

open Storage.Sample in
/-- The sample event is resolved and admitted. -/
theorem ingress_conversations_admitted :
    ∃ calls db, IngressRun externals calls db ∧ db.events.rows.length = 1 ∧
      ∀ row ∈ db.events.rows, ∃ r ∈ db.events.rows, row.rootEventId = some r.eventId := by
  have hrun := @IngressRun.admitted externals _ _ 0 _ none .live false none (clock 0) _
    (.resolve ⟨event, rfl⟩ .start) rfl rfl
  refine ⟨_, _, hrun, by decide +kernel, fun row hrow => ?_⟩
  obtain ⟨r, hr, hroot, -⟩ := (ingress_conversations _).2.2 _ _ hrun row hrow
  exact ⟨r, hr, hroot⟩

end Medre.Planning.Ingress
