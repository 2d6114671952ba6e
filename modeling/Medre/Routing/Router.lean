import Medre.Framework.Dict
import Medre.Storage.Admission

/-! # Matching events against routes (`routing/models.py`, `routing/router.py`) -/

namespace Medre.Routing

open List Medre.Framework Medre.Storage

structure RouteSource where
  adapter : Option String := none
  eventKinds : List String := []
  channel : Option String := none
deriving DecidableEq, Repr

structure RouteTarget where
  adapter : Option String := none
  channel : Option String := none
deriving DecidableEq, Repr

inductive Ownership where
  | exclusive
  | shared
deriving DecidableEq, Repr

structure Route where
  id : String
  source : RouteSource := {}
  targets : List RouteTarget
  priority : ℤ := 100
  ownership : Ownership := .shared
  enabled : Bool := true
deriving DecidableEq, Repr

/-- `_source_matches`: every filter that is set passes. -/
def sourceMatches (source : RouteSource) (e : CanonicalEvent) : Bool :=
  source.adapter.all (· = e.sourceAdapter) &&
    (source.eventKinds.isEmpty || source.eventKinds.contains e.eventKind) &&
    source.channel.all (some · = e.sourceChannelId)

/-- `_sources_overlap`: no filter that both set tells them apart. -/
def sourcesOverlap (a b : RouteSource) : Bool :=
  a.adapter.all (fun x => b.adapter.all (x = ·)) &&
    (a.eventKinds.isEmpty || b.eventKinds.isEmpty ||
      a.eventKinds.any fun k => b.eventKinds.contains k) &&
    a.channel.all fun x => b.channel.all (x = ·)

/-- The loops of `find_route_conflicts` over the sorted exclusive routes. -/
def overlapPairs : List Route → List (String × String)
  | [] => []
  | a :: routes =>
    (routes.filter fun b => sourcesOverlap a.source b.source).map (fun b => (a.id, b.id)) ++
      overlapPairs routes

def findRouteConflicts (routes : List Route) : List (String × String) :=
  overlapPairs ((routes.filter fun route =>
    route.enabled && route.ownership = .exclusive).insertionSort fun a b => a.id ≤ b.id)

/-- `Router`: the routes by their id. -/
structure Router where
  routes : Dict String Route
  keyed : ∀ i ∈ routes.items, i.2.id = i.1

namespace Router

def empty : Router where
  routes := .empty
  keyed := fun _ h => absurd h not_mem_nil

/-- `add_route`: a route of the same id is replaced. -/
def addRoute (r : Router) (route : Route) : Router where
  routes := r.routes.set route.id route
  keyed := by
    rintro ⟨k, v⟩ h
    have hget := Dict.mem_items.mp h
    rw [Dict.get?_set] at hget
    split at hget
    · next hk =>
        cases hget
        exact hk.symm
    · exact r.keyed _ (Dict.mem_items.mpr hget)

/-- `Router(routes)`. -/
def ofRoutes (routes : List Route) : Router := routes.foldl addRoute empty

/-- `(route.priority, route.id)`. -/
def before (a b : Route) : Prop := a.priority < b.priority ∨ (a.priority = b.priority ∧ a.id ≤ b.id)

instance : DecidableRel before := fun a b =>
  inferInstanceAs (Decidable (a.priority < b.priority ∨ (a.priority = b.priority ∧ a.id ≤ b.id)))

/-- `match`: the enabled routes whose source filter passes, in delivery order. -/
def matchEvent (r : Router) (e : CanonicalEvent) : List Route :=
  ((r.routes.items.map Prod.snd).filter fun route =>
    route.enabled && sourceMatches route.source e).insertionSort before

def findConflicts (r : Router) (replacements : List Route := []) : List (String × String) :=
  findRouteConflicts ((replacements.foldl (fun d route => d.set route.id route) r.routes).items.map
    Prod.snd)

/-- `validate_no_conflicts`: the ids of a `RouteConflictError`. -/
def validateNoConflicts (r : Router) : Except (String × String) Unit :=
  match r.findConflicts with
  | [] => .ok ()
  | conflict :: _ => .error conflict

theorem ids_nodup (r : Router) : ((r.routes.items.map Prod.snd).map Route.id).Nodup := by
  have hkeys : (r.routes.items.map Prod.snd).map Route.id = r.routes.items.map Prod.fst := by
    rw [map_map]
    exact map_congr_left fun i hi => r.keyed i hi
  exact hkeys ▸ r.routes.nodup

theorem matchEvent_nodup (r : Router) (e : CanonicalEvent) :
    ((r.matchEvent e).map Route.id).Nodup := by
  refine ((perm_insertionSort before _).map Route.id).nodup_iff.mpr ?_
  exact r.ids_nodup.sublist (filter_sublist.map Route.id)

theorem mem_matchEvent {r : Router} {e : CanonicalEvent} {route : Route} :
    route ∈ r.matchEvent e ↔ route ∈ r.routes.items.map Prod.snd ∧ route.enabled = true ∧
      sourceMatches route.source e = true := by
  rw [matchEvent, mem_insertionSort, mem_filter, Bool.and_eq_true]

end Router

/-! ## Exclusive routes -/

theorem agree_iff {α : Type} [DecidableEq α] [Inhabited α] {f : String → α}
    (hf : Function.Injective f) {x y : Option String} :
    (x.all fun s => y.all (s = ·)) = true ↔
      ∃ v, x.all (f · = v) = true ∧ y.all (f · = v) = true := by
  cases x <;> cases y <;> simp [hf.eq_iff, eq_comm]

theorem kinds_iff {k l : List String} :
    (k.isEmpty || l.isEmpty || k.any fun s => l.contains s) = true ↔
      ∃ v, (k.isEmpty || k.contains v) = true ∧ (l.isEmpty || l.contains v) = true := by
  cases k with
  | nil => cases l <;> simp
  | cons s k =>
    cases l <;> simp

theorem sourcesOverlap_iff {a b : RouteSource} : sourcesOverlap a b = true ↔
    ∃ e : CanonicalEvent, sourceMatches a e = true ∧ sourceMatches b e = true := by
  simp only [sourcesOverlap, sourceMatches, Bool.and_eq_true]
  rw [agree_iff Function.injective_id, kinds_iff, agree_iff (Option.some_injective String)]
  constructor
  · rintro ⟨⟨⟨adapter, hadapter⟩, kind, hkind⟩, channel, hchannel⟩
    exact ⟨{ eventId := "", eventKind := kind, timestamp := ⟨1, 1, 1, 0, 0, 0, 0, none⟩,
             sourceAdapter := adapter, sourceTransportId := "", sourceChannelId := channel },
      ⟨⟨hadapter.1, hkind.1⟩, hchannel.1⟩, ⟨hadapter.2, hkind.2⟩, hchannel.2⟩
  · rintro ⟨e, ⟨⟨ha₁, hk₁⟩, hc₁⟩, ⟨ha₂, hk₂⟩, hc₂⟩
    exact ⟨⟨⟨_, ha₁, ha₂⟩, _, hk₁, hk₂⟩, _, hc₁, hc₂⟩

theorem overlapPairs_eq_nil {routes : List Route} : overlapPairs routes = [] ↔
    routes.Pairwise fun a b => ¬sourcesOverlap a.source b.source = true := by
  induction routes with
  | nil => simp [overlapPairs]
  | cons a routes ih =>
    rw [overlapPairs, append_eq_nil_iff, map_eq_nil_iff, filter_eq_nil_iff, ih, pairwise_cons]

/-- Routes without a repetition have no conflict exactly if no event passes the sources of
two enabled exclusive ones. -/
theorem findRouteConflicts_eq_nil {routes : List Route} (hnodup : routes.Nodup) :
    findRouteConflicts routes = [] ↔ ∀ e : CanonicalEvent, ∀ a ∈ routes, ∀ b ∈ routes,
      a.enabled = true → b.enabled = true → a.ownership = .exclusive → b.ownership = .exclusive →
      sourceMatches a.source e = true → sourceMatches b.source e = true → a = b := by
  let disjoint (a b : Route) : Prop := ¬sourcesOverlap a.source b.source = true
  have hsymm : Std.Symm disjoint := by
    refine ⟨fun a b h => ?_⟩
    simpa only [disjoint, sourcesOverlap_iff, and_comm] using h
  rw [findRouteConflicts, overlapPairs_eq_nil,
    (perm_insertionSort _ _).pairwise_iff fun {a b} => hsymm.symm a b]
  constructor
  · intro hpairs e a ha b hb hea heb hxa hxb hma hmb
    by_contra hne
    exact hpairs.forall (mem_filter.mpr ⟨ha, by simp [hea, hxa]⟩)
      (mem_filter.mpr ⟨hb, by simp [heb, hxb]⟩) hne (sourcesOverlap_iff.mpr ⟨e, hma, hmb⟩)
  · intro hevents
    refine (hnodup.filter _).pairwise_of_forall_ne fun a ha b hb hne hoverlap => hne ?_
    obtain ⟨e, hma, hmb⟩ := sourcesOverlap_iff.mp hoverlap
    simp only [mem_filter, Bool.and_eq_true, decide_eq_true_eq] at ha hb
    exact hevents e a ha.1 b hb.1 ha.2.1 hb.2.1 ha.2.2 hb.2.2 hma hmb

namespace Router

theorem routes_foldl (r : Router) (replacements : List Route) :
    (replacements.foldl addRoute r).routes =
      replacements.foldl (fun d route => d.set route.id route) r.routes := by
  induction replacements generalizing r with
  | nil => rfl
  | cons route replacements ih => exact ih (r.addRoute route)

theorem validateNoConflicts_ok {r : Router} :
    r.validateNoConflicts = .ok () ↔ r.findConflicts = [] := by
  unfold validateNoConflicts
  cases r.findConflicts <;> simp

/-- Exclusive ownership is decided exactly: routes are in conflict iff an event is matched by two
of the exclusive ones, and the conflicts with replacements are those of the router they are added
to. -/
theorem ownership_decided (r : Router) (replacements : List Route) :
    (r.validateNoConflicts = .ok () ↔ ¬∃ (e : CanonicalEvent) (a b : Route),
      a ∈ r.matchEvent e ∧ b ∈ r.matchEvent e ∧ a ≠ b ∧ a.ownership = .exclusive ∧
        b.ownership = .exclusive) ∧
    (r.findConflicts replacements = [] ↔
      (replacements.foldl addRoute r).validateNoConflicts = .ok ()) := by
  rw [validateNoConflicts_ok, validateNoConflicts_ok]
  constructor
  · rw [show r.findConflicts = findRouteConflicts (r.routes.items.map Prod.snd) from rfl,
      findRouteConflicts_eq_nil (r.ids_nodup.of_map Route.id)]
    simp only [mem_matchEvent]
    constructor
    · rintro hevents ⟨e, a, b, ⟨ha, hea, hma⟩, ⟨hb, heb, hmb⟩, hne, hxa, hxb⟩
      exact hne (hevents e a ha b hb hea heb hxa hxb hma hmb)
    · intro hnone e a ha b hb hea heb hxa hxb hma hmb
      by_contra hne
      exact hnone ⟨e, a, b, ⟨ha, hea, hma⟩, ⟨hb, heb, hmb⟩, hne, hxa, hxb⟩
  · rw [findConflicts, findConflicts, routes_foldl]
    rfl

end Router

end Medre.Routing
