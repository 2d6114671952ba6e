import Medre.Routing.Router

/-! # The loop check over the route trace (`runner.py`, `delivery_coordinator.py`)

`route_event` appends the matched route ids and keeps the last sixteen entries; the coordinator
counts the route in what is left. -/

namespace Medre.Pipeline

open List Medre.Framework Medre.Storage Medre.Routing

variable {trace : List Json} {id : String} {ids : List String}

/-! ## The code -/

def routeTraceBound : ℕ := 16

/-- `trace[-16:]`. -/
def boundTrace (trace : List Json) : List Json := trace.drop (trace.length - routeTraceBound)

/-- The route trace an event carries. -/
def priorTrace (e : CanonicalEvent) : List Json :=
  match e.metadata with
  | .typed _ (some routing) => routing.routeTrace
  | _ => []

/-- The metadata with new routing facts; an untyped mapping has no `routing`. -/
def withRouting (matchedRoutes : List String) (routeTrace : List Json) :
    EventMetadata → Option EventMetadata
  | .typed namespaces (some routing) =>
    some (.typed namespaces (some { routing with matchedRoutes, routeTrace }))
  | .typed namespaces none => some (.typed namespaces (some { matchedRoutes, routeTrace }))
  | .untyped _ => none

/-- `route_event`; `planFor` is the fallback resolver with the adapter capabilities and
the retry policies of the configuration. -/
def routeEvent {Plan : Type} (planFor : CanonicalEvent → Route → ℕ → RouteTarget → Plan)
    (router : Router) (e : CanonicalEvent) : Option (CanonicalEvent × List (Route × Plan)) :=
  let matched := router.matchEvent e
  if matched.isEmpty then some (e, [])
  else
    let ids := matched.map Route.id
    (withRouting ids (boundTrace (priorTrace e ++ ids.map Json.str)) e.metadata).map fun m =>
      let routed := { e with metadata := m }
      (routed, matched.flatMap fun route =>
        route.targets.mapIdx fun i target => (route, planFor routed route i target))

structure Suppression where
  failureKind : String
  error : String
deriving DecidableEq, Repr

def traceCount (trace : List Json) (id : String) : ℕ :=
  (trace.filter fun j => j.str? = some id).length

def routeTraceLoopOutcome (e : CanonicalEvent) (route : Route) : Option Suppression :=
  match e.metadata with
  | .typed _ (some routing) =>
    if traceCount routing.routeTrace route.id ≤ 1 then none
    else
      some { failureKind := "loop_suppressed"
             error := "loop_prevented: route already traversed in prior routing pass" }
  | _ => none

/-! ## What the check remembers -/

def Traversed (trace : List Json) (id : String) : Prop := ∃ j ∈ trace, j.str? = some id

/-- Every occurrence of the id is among the entries that `matched` new ids push out. -/
def Forgotten (trace : List Json) (matched : ℕ) (id : String) : Prop :=
  Traversed trace id ∧ ¬Traversed (trace.drop (trace.length + matched - routeTraceBound)) id

theorem traceCount_append (xs ys : List Json) (id : String) :
    traceCount (xs ++ ys) id = traceCount xs id + traceCount ys id := by
  simp [traceCount]

theorem traceCount_pos : 0 < traceCount trace id ↔ Traversed trace id := by
  rw [traceCount, length_filter_pos_iff]
  simp [Traversed]

theorem traceCount_ids (hnodup : ids.Nodup) (h : id ∈ ids) :
    traceCount (ids.map Json.str) id = 1 := by
  have hcount : traceCount (ids.map Json.str) id = ids.count id := by
    unfold traceCount
    rw [filter_map, length_map, List.count, countP_eq_length_filter]
    congr 2
    funext s
    by_cases hs : s = id <;> simp [Json.str?, hs]
  rw [hcount]
  exact count_eq_one_of_mem hnodup h

theorem traceCount_sublist {xs ys : List Json} (h : xs.Sublist ys) (id : String) :
    traceCount xs id ≤ traceCount ys id :=
  (h.filter _).length_le

/-- The count in the bounded trace is above one exactly if the route is in the part of the
prior trace that is kept. -/
theorem one_lt_traceCount (hnodup : ids.Nodup) (h : id ∈ ids) :
    1 < traceCount (boundTrace (trace ++ ids.map Json.str)) id ↔
      Traversed (trace.drop (trace.length + ids.length - routeTraceBound)) id := by
  have hlen : (trace ++ ids.map Json.str).length = trace.length + ids.length := by simp
  rw [boundTrace, hlen, drop_append, traceCount_append, ← traceCount_pos]
  by_cases hmany : ids.length ≤ routeTraceBound
  · -- the ids of this pass are all kept
    rw [show trace.length + ids.length - routeTraceBound - trace.length = 0 by omega,
      drop_zero, traceCount_ids hnodup h]
    omega
  · -- they fill the trace on their own
    have hown := traceCount_sublist (drop_sublist
      (trace.length + ids.length - routeTraceBound - trace.length) (ids.map Json.str)) id
    rw [traceCount_ids hnodup h] at hown
    rw [drop_of_length_le (by omega : trace.length ≤ trace.length + ids.length - routeTraceBound)]
    simp only [traceCount, filter_nil, length_nil] at hown ⊢
    omega

theorem routeEvent_pair {Plan : Type} {planFor : CanonicalEvent → Route → ℕ → RouteTarget → Plan}
    {router : Router} {e routed : CanonicalEvent} {pairs : List (Route × Plan)} {route : Route}
    {plan : Plan} (h : routeEvent planFor router e = some (routed, pairs))
    (hpair : (route, plan) ∈ pairs) :
    route ∈ router.matchEvent e ∧
      ∃ namespaces routing, routed.metadata = .typed namespaces (some routing) ∧
        routing.routeTrace = boundTrace
          (priorTrace e ++ ((router.matchEvent e).map Route.id).map Json.str) := by
  unfold routeEvent at h
  simp only at h
  split at h
  · cases h
    exact absurd hpair not_mem_nil
  · obtain ⟨m, hm, heq⟩ := Option.map_eq_some_iff.mp h
    cases heq
    refine ⟨?_, ?_⟩
    · obtain ⟨r, hr, hmem⟩ := mem_flatMap.mp hpair
      obtain ⟨i, hi, heq⟩ := mem_mapIdx.mp hmem
      rwa [← (Prod.mk.inj heq).1]
    · unfold withRouting at hm
      split at hm
      · cases hm
        exact ⟨_, _, rfl, rfl⟩
      · cases hm
        exact ⟨_, _, rfl, rfl⟩
      · cases hm

/-- The check suppresses a pair exactly if its route is still in the prior trace once this pass has
pushed the oldest entries out; it agrees with the trace before routing unless the route is
forgotten. -/
theorem loop_check_iff_remembered {Plan : Type}
    {planFor : CanonicalEvent → Route → ℕ → RouteTarget → Plan} {router : Router}
    {e routed : CanonicalEvent} {pairs : List (Route × Plan)} {route : Route} {plan : Plan}
    (h : routeEvent planFor router e = some (routed, pairs)) (hpair : (route, plan) ∈ pairs) :
    ((routeTraceLoopOutcome routed route).isSome ↔ Traversed (priorTrace e) route.id) ↔
      ¬Forgotten (priorTrace e) (router.matchEvent e).length route.id := by
  obtain ⟨hmem, namespaces, routing, hmetadata, htrace⟩ := routeEvent_pair h hpair
  have hcount : 1 < traceCount (boundTrace (priorTrace e ++
      ((router.matchEvent e).map Route.id).map Json.str)) route.id ↔ _ :=
    one_lt_traceCount (router.matchEvent_nodup e) (mem_map_of_mem hmem)
  rw [length_map] at hcount
  have houtcome : (routeTraceLoopOutcome routed route).isSome ↔ Traversed ((priorTrace e).drop
      ((priorTrace e).length + (router.matchEvent e).length - routeTraceBound)) route.id := by
    rw [← hcount, ← htrace, routeTraceLoopOutcome, hmetadata]
    simp only
    split
    · simp only [Option.isSome_none, Bool.false_eq_true, false_iff]
      omega
    · simp only [Option.isSome_some, true_iff]
      omega
  have hkept : Traversed ((priorTrace e).drop ((priorTrace e).length +
      (router.matchEvent e).length - routeTraceBound)) route.id →
      Traversed (priorTrace e) route.id := by
    rintro ⟨j, hj, hid⟩
    exact ⟨j, mem_of_mem_drop hj, hid⟩
  unfold Forgotten
  tauto

/-- The one route of the sample runs. -/
def sampleRoute : Route := { id := "r", targets := [{ adapter := some "matrix" }] }

/-- An event whose trace is `ids`. -/
def tracedEvent (ids : List String) : CanonicalEvent where
  eventId := "e"
  eventKind := "message.created"
  timestamp := { year := 2026, month := 1, day := 1 }
  sourceAdapter := "radio"
  sourceTransportId := "node"
  metadata := .typed [] (some { routeTrace := ids.map Json.str })

/-- A full trace that starts with the route: the pass that matches it again pushes it out
and delivers. -/
theorem full_trace_forgets_route :
    ∃ routed, routeEvent (fun _ _ _ _ => ()) (.ofRoutes [sampleRoute])
        (tracedEvent ("r" :: List.replicate 15 "other")) = some (routed, [(sampleRoute, ())]) ∧
      Traversed (priorTrace (tracedEvent ("r" :: List.replicate 15 "other"))) "r" ∧
      routeTraceLoopOutcome routed sampleRoute = none := by
  refine ⟨_, rfl, ⟨.str "r", mem_cons_self, rfl⟩, ?_⟩
  decide

/-- One entry less, and the route is still known. -/
theorem loop_check_iff_remembered_short :
    ∃ routed, routeEvent (fun _ _ _ _ => ()) (.ofRoutes [sampleRoute])
        (tracedEvent ("r" :: List.replicate 14 "other")) = some (routed, [(sampleRoute, ())]) ∧
      (routeTraceLoopOutcome routed sampleRoute).isSome := by
  obtain ⟨routed, hrun⟩ : ∃ routed, routeEvent (fun _ _ _ _ => ()) (.ofRoutes [sampleRoute])
      (tracedEvent ("r" :: List.replicate 14 "other")) = some (routed, [(sampleRoute, ())]) :=
    ⟨_, rfl⟩
  have hiff := loop_check_iff_remembered hrun mem_cons_self
  refine ⟨routed, hrun, (hiff.mpr ?_).mpr ⟨.str "r", mem_cons_self, rfl⟩⟩
  exact fun h => h.2 ⟨.str "r", mem_cons_self, rfl⟩

end Medre.Pipeline
