import Medre.Framework.DepthFirst
import Medre.Routing.Router
import Mathlib.Data.List.Dedup

/-! # Loops among routes (`check_route_loops` of `runtime/route_engine.py`) -/

namespace Medre.Routing

open List Medre.Framework DepthFirst

/-- The pairs of adapters that a route adds edges for, one for each of its targets. -/
def routeEdges (route : Route) : List (String × String) :=
  if route.enabled then
    match route.source.adapter with
    | none => []
    | some src => (route.targets.filterMap (·.adapter)).map (src, ·)
  else []

/-- `edges`: the ids of the routes for each pair of adapters. -/
def loopEdges (routes : List Route) : Dict (String × String) (List String) :=
  (routes.flatMap fun route => (routeEdges route).map (·, route.id)).foldl
    (fun edges e => edges.set e.1 ((edges.get? e.1).getD [] ++ [e.2])) .empty

inductive LoopMessage where
  /-- "Direct routing loop detected between adapters …: routes … and …" -/
  | direct (src dst : String) (routeIds reverseIds : List String)
  /-- "Route cycle detected: …", joined by " -> " -/
  | cycle (adapters : List String)
deriving DecidableEq, Repr

/-- The fast path. -/
def directLoops (edges : Dict (String × String) (List String)) :
    List ((String × String) × List String) → List (String × String) → List LoopMessage
  | [], _ => []
  | ((src, dst), routeIds) :: items, checked =>
    match edges.get? (dst, src) with
    | none => directLoops edges items checked
    | some reverseIds =>
      if (src, dst) ∉ checked then
        .direct src dst routeIds reverseIds ::
          directLoops edges items ((dst, src) :: (src, dst) :: checked)
      else directLoops edges items checked

/-- `adj.get(node, [])`. -/
def neighbours (edges : Dict (String × String) (List String)) (node : String) : List String :=
  (edges.keys.filter (·.1 = node)).map Prod.snd

/-- The slow path, from `sorted(adj)` on; the fuel is one more than there are ends of edges. -/
def cycleSearch (edges : Dict (String × String) (List String)) : Option (Search String) :=
  search (neighbours edges) ((edges.keys.flatMap fun e => [e.1, e.2]).length + 1)
    ((edges.keys.map Prod.fst).dedup.insertionSort (· ≤ ·))

/-- `check_route_loops`; `none` would be a recursion that does not return. -/
def checkRouteLoops (routes : List Route) : Option (List LoopMessage) :=
  (cycleSearch (loopEdges routes)).map fun s =>
    directLoops (loopEdges routes) (loopEdges routes).items [] ++ s.cycles.map .cycle

/-- An enabled route from `src` to `dst`. -/
def Linked (routes : List Route) (src dst : String) : Prop :=
  ∃ route ∈ routes, route.enabled = true ∧ route.source.adapter = some src ∧
    ∃ target ∈ route.targets, target.adapter = some dst

/-- A direct message about two adapters, in either order. -/
def LoopMessage.isBetween (a b : String) : LoopMessage → Bool
  | .direct src dst _ _ => (src, dst) = (a, b) || (src, dst) = (b, a)
  | .cycle _ => false

variable {routes : List Route} {edges : Dict (String × String) (List String)} {a b : String}

theorem mem_routeEdges {route : Route} : (a, b) ∈ routeEdges route ↔
    route.enabled = true ∧ route.source.adapter = some a ∧
      ∃ target ∈ route.targets, target.adapter = some b := by
  unfold routeEdges
  cases hsrc : route.source.adapter with
  | none => simp
  | some src =>
    split_ifs with henabled
    · grind
    · simp [henabled]

theorem mem_keys_loopEdges : (a, b) ∈ (loopEdges routes).keys ↔ Linked routes a b := by
  rw [loopEdges, Dict.mem_keys_foldl_set (f := Prod.fst)]
  simp only [mem_map, mem_flatMap, Linked, ← mem_routeEdges]
  simp

theorem mem_neighbours : b ∈ neighbours edges a ↔ (a, b) ∈ edges.keys := by
  simp [neighbours]

theorem mem_directLoops {items : List ((String × String) × List String)}
    {checked : List (String × String)} {m : LoopMessage}
    (h : m ∈ directLoops edges items checked) : ∃ src dst ids reverse,
      m = .direct src dst ids reverse ∧ ((src, dst), ids) ∈ items ∧
        edges.get? (dst, src) = some reverse := by
  fun_induction directLoops edges items checked with
  | case1 => exact absurd h not_mem_nil
  | case2 | case3 | case4 => grind

/-- The direct messages about `a` and `b`: one, unless the pair is checked. -/
theorem countP_directLoops {items : List ((String × String) × List String)}
    {checked : List (String × String)} (hab : (a, b) ∈ edges.keys) (hba : (b, a) ∈ edges.keys)
    (hsymm : (a, b) ∈ checked ↔ (b, a) ∈ checked) :
    (directLoops edges items checked).countP (·.isBetween a b) =
      if (a, b) ∉ checked ∧ ((a, b) ∈ items.map Prod.fst ∨ (b, a) ∈ items.map Prod.fst)
      then 1 else 0 := by
  fun_induction directLoops edges items checked with
  | case1 => simp
  | case2 src dst ids items checked hget ih =>
    -- the pair is not `a` and `b`, which have edges both ways
    have hout := Dict.get?_eq_none.mp hget
    grind
  | case3 src dst ids items checked reverse hget hnew ih =>
    grind [LoopMessage.isBetween]
  | case4 src dst ids items checked reverse hget hchecked ih =>
    grind

theorem cycleSearch_exact (edges : Dict (String × String) (List String)) :
    ∃ s, cycleSearch edges = some s ∧ s.visited.Nodup ∧
      (∀ c ∈ s.cycles, ClosedWalk (fun a b => b ∈ neighbours edges a) c) ∧
      (s.cycles = [] → ∀ a b, (a, b) ∈ edges.keys → Ends (neighbours edges) a) := by
  have hadj : ∀ a, neighbours edges a ⊆ edges.keys.flatMap fun e => [e.1, e.2] := by
    intro a b hb
    exact mem_flatMap.mpr ⟨(a, b), mem_neighbours.mp hb, by simp⟩
  have hnodes : (edges.keys.map Prod.fst).dedup.insertionSort (· ≤ ·) ⊆
      edges.keys.flatMap fun e => [e.1, e.2] := by
    intro a ha
    rw [mem_insertionSort, mem_dedup, mem_map] at ha
    obtain ⟨e, he, rfl⟩ := ha
    exact mem_flatMap.mpr ⟨e, he, mem_cons_self⟩
  obtain ⟨s, hs, hnodup, hclosed, hends⟩ := search_exact hadj hnodes
  refine ⟨s, hs, hnodup, hclosed, fun hnil a b hab => hends hnil a ?_⟩
  rw [mem_insertionSort, mem_dedup]
  exact mem_map.mpr ⟨(a, b), hab, rfl⟩

/-- The messages are exact: there is one iff the adapters of the enabled routes form a cycle, every
cycle is a closed walk, edges both ways get one direct message, and no adapter is visited twice. -/
theorem checkRouteLoops_exact (routes : List Route) :
    ∃ loops s, checkRouteLoops routes = some loops ∧
      cycleSearch (loopEdges routes) = some s ∧ s.visited.Nodup ∧
      (loops ≠ [] ↔ ∃ a, Relation.TransGen (Linked routes) a a) ∧
      (∀ c, .cycle c ∈ loops → ClosedWalk (Linked routes) c) ∧
      ∀ a b, Linked routes a b → Linked routes b a → loops.countP (·.isBetween a b) = 1 := by
  have hedge : (fun a b => b ∈ neighbours (loopEdges routes) a) = Linked routes := by
    ext a b
    rw [mem_neighbours, mem_keys_loopEdges]
  obtain ⟨s, hs, hnodup, hclosed, hends⟩ := cycleSearch_exact (loopEdges routes)
  rw [hedge] at hclosed
  have hdirect : ∀ m ∈ directLoops (loopEdges routes) (loopEdges routes).items [],
      ∃ src dst ids reverse, m = .direct src dst ids reverse ∧ Linked routes src dst ∧
        Linked routes dst src := by
    intro m hm
    obtain ⟨src, dst, ids, reverse, rfl, hforth, hback⟩ := mem_directLoops hm
    exact ⟨src, dst, ids, reverse, rfl, mem_keys_loopEdges.mp (mem_map_of_mem hforth),
      mem_keys_loopEdges.mp (Dict.mem_keys.mpr ⟨reverse, hback⟩)⟩
  have hcycle : ∀ c, .cycle c ∈ directLoops (loopEdges routes) (loopEdges routes).items [] ++
      s.cycles.map .cycle → ClosedWalk (Linked routes) c := by
    intro c hc
    rcases mem_append.mp hc with hc | hc
    · obtain ⟨_, _, _, _, h, -⟩ := hdirect _ hc
      cases h
    · obtain ⟨_, hmem, h⟩ := mem_map.mp hc
      cases h
      exact hclosed c hmem
  refine ⟨_, s, by rw [checkRouteLoops, hs]; rfl, hs, hnodup, ⟨?_, ?_⟩, hcycle, ?_⟩
  · intro hne
    obtain ⟨m, hm⟩ := exists_mem_of_ne_nil _ hne
    cases m with
    | direct src dst ids reverse =>
      rcases mem_append.mp hm with hm | hm
      · obtain ⟨_, _, _, _, h, hforth, hback⟩ := hdirect _ hm
        cases h
        exact ⟨src, .tail (.single hforth) hback⟩
      · simp at hm
    | cycle c => exact (hcycle c hm).cyclic
  · rintro ⟨a, ha⟩ hnil
    obtain ⟨b, hab, -⟩ := Relation.TransGen.head'_iff.mp ha
    have hfound : s.cycles = [] := map_eq_nil_iff.mp (append_eq_nil_iff.mp hnil).2
    exact (hends hfound a b (mem_keys_loopEdges.mpr hab)).not_cyclic (hedge ▸ ha)
  · intro a b hab hba
    rw [← mem_keys_loopEdges] at hab hba
    rw [countP_append, countP_directLoops hab hba (by simp), if_pos ⟨not_mem_nil, .inl hab⟩,
      countP_map]
    simp [LoopMessage.isBetween, Function.comp_def]

end Medre.Routing
