import Mathlib.Data.List.Chain
import Mathlib.Data.List.Nodup
import Mathlib.Data.List.Perm.Subperm
import Mathlib.Logic.Relation
import Mathlib.Tactic.Common

/-! # Depth-first search for the cycles of a directed graph -/

namespace Medre.Framework.DepthFirst

open List

variable {α : Type}

/-! ## Walks -/

/-- A walk along `r` that ends where it starts. -/
def ClosedWalk (r : α → α → Prop) (c : List α) : Prop :=
  c.IsChain r ∧ 2 ≤ c.length ∧ c.head? = c.getLast?

/-- No walk from `n` goes on for ever. -/
def Ends (adj : α → List α) (n : α) : Prop := Acc (fun b a => b ∈ adj a) n

variable {adj : α → List α} {n : α}

theorem Ends.not_cyclic (h : Ends adj n) : ¬ Relation.TransGen (fun a b => b ∈ adj a) n n := by
  rw [← Relation.transGen_swap]
  have hacc : Acc (Relation.TransGen fun b a => b ∈ adj a) n := h.transGen
  induction hacc with
  | intro n _ ih => exact fun hn => ih n hn h hn

theorem ClosedWalk.cyclic {r : α → α → Prop} {c : List α} (h : ClosedWalk r c) :
    ∃ a, Relation.TransGen r a a := by
  obtain ⟨hchain, hlength, hends⟩ := h
  cases c with
  | nil => simp at hlength
  | cons a c =>
    cases c with
    | nil => simp at hlength
    | cons b l =>
      obtain ⟨hab, hchain⟩ := isChain_cons_cons.mp hchain
      refine ⟨a, .head' hab (relationReflTransGen_of_exists_isChain_cons l hchain ?_)⟩
      simpa [getLast?_eq_some_getLast, eq_comm] using hends

/-! ## The search -/

/-- The nodes in the order of their visits, the calls that have not returned, the path they
spell, and the cycles found. -/
structure Search (α : Type) where
  visited : List α := []
  stack : List α := []
  path : List α := []
  cycles : List (List α) := []

/-- The start of a call for `n`. -/
def Search.enter (s : Search α) (n : α) : Search α where
  visited := s.visited ++ [n]
  stack := s.stack ++ [n]
  path := s.path ++ [n]
  cycles := s.cycles

variable [DecidableEq α]

/-- The end of a call for `n`. -/
def Search.leave (s : Search α) (n : α) : Search α where
  visited := s.visited
  stack := s.stack.erase n
  path := s.path.dropLast
  cycles := s.cycles

def follow (dfs : α → Search α → Option (Search α)) (s : Search α) (n : α) :
    Option (Search α) :=
  if n ∉ s.visited then dfs n s
  else if n ∈ s.stack then
    some { s with cycles := s.cycles ++ [s.path.drop (s.path.idxOf n) ++ [n]] }
  else some s

/-- The recursive search from a node, for a recursion of at most `fuel` calls deep. -/
def dfs (adj : α → List α) : ℕ → α → Search α → Option (Search α)
  | 0, _, _ => none
  | fuel + 1, n, s =>
    ((adj n).foldlM (follow (dfs adj fuel)) (s.enter n)).map (·.leave n)

/-- The search from every node of `nodes` that no earlier one has reached. -/
def search (adj : α → List α) (fuel : ℕ) (nodes : List α) : Option (Search α) :=
  nodes.foldlM (fun s n => if n ∉ s.visited then dfs adj fuel n s else some s) {}

/-! ## Its invariant -/

omit [DecidableEq α]

/-- What holds at every point of a search among the nodes of `all`. A node whose call has
returned is not on the path any more. -/
structure Valid (adj : α → List α) (all : List α) (s : Search α) : Prop where
  stack : s.stack = s.path
  path : s.path ⊆ s.visited
  nodup : s.visited.Nodup
  within : s.visited ⊆ all
  chain : s.path.IsChain fun a b => b ∈ adj a
  closed : ∀ c ∈ s.cycles, ClosedWalk (fun a b => b ∈ adj a) c
  settled : s.cycles = [] → ∀ a ∈ s.visited, a ∉ s.path → Ends adj a

/-- A later point of the same call. -/
structure Follows (s t : Search α) : Prop where
  path : t.path = s.path
  visited : s.visited <+: t.visited
  cycles : s.cycles <+: t.cycles

/-- `n` has been visited, and unless a cycle is found it is not on the path. -/
def Done (t : Search α) (n : α) : Prop := n ∈ t.visited ∧ (t.cycles = [] → n ∉ t.path)

/-- Enough fuel for the nodes not yet visited, and an edge from the end of the path to `n`. -/
def Ready (adj : α → List α) (all : List α) (fuel : ℕ) (s : Search α) (n : α) : Prop :=
  all.length < fuel + s.visited.length ∧ n ∈ all ∧ ∀ a ∈ s.path.getLast?, n ∈ adj a

variable {all : List α} {fuel : ℕ} {s t u : Search α}

theorem Follows.refl : Follows s s := ⟨rfl, prefix_rfl, prefix_rfl⟩

theorem Follows.trans (h : Follows s t) (h' : Follows t u) : Follows s u :=
  ⟨h'.path.trans h.path, h.visited.trans h'.visited, h.cycles.trans h'.cycles⟩

theorem Done.mono (h : Done s n) (hst : Follows s t) : Done t n := by
  refine ⟨hst.visited.subset h.1, fun hnil => ?_⟩
  rw [hst.path]
  exact h.2 (prefix_nil.mp (hnil ▸ hst.cycles))

theorem Ready.mono (h : Ready adj all fuel s n) (hst : Follows s t) : Ready adj all fuel t n :=
  ⟨Nat.lt_of_lt_of_le h.1 (Nat.add_le_add_left hst.visited.length_le fuel), h.2.1,
    hst.path ▸ h.2.2⟩

theorem foldlM_done {f : Search α → α → Option (Search α)} {ns : List α}
    (hf : ∀ t, Valid adj all t → Follows s t → ∀ n ∈ ns,
      ∃ u, f t n = some u ∧ Valid adj all u ∧ Follows t u ∧ Done u n) (hs : Valid adj all s) :
    ∃ t, ns.foldlM f s = some t ∧ Valid adj all t ∧ Follows s t ∧ ∀ n ∈ ns, Done t n := by
  induction ns generalizing s with
  | nil => exact ⟨s, rfl, hs, .refl, by simp⟩
  | cons n ns ih =>
    obtain ⟨t, ht, hvalid, hst, hn⟩ := hf s hs .refl n mem_cons_self
    obtain ⟨u, hu, huv, htu, hrest⟩ :=
      ih (fun u hu htu m hm => hf u hu (hst.trans htu) m (mem_cons_of_mem n hm)) hvalid
    refine ⟨u, by rw [foldlM_cons, ht]; exact hu, huv, hst.trans htu, ?_⟩
    intro m hm
    rcases mem_cons.mp hm with rfl | hm
    · exact hn.mono htu
    · exact hrest m hm

theorem Valid.enter (hs : Valid adj all s) (hn : n ∉ s.visited)
    (hready : Ready adj all fuel s n) : Valid adj all (s.enter n) where
  stack := by rw [Search.enter, hs.stack]
  path := append_subset.mpr ⟨Subset.trans hs.path (subset_append_left ..), subset_append_right ..⟩
  nodup := hs.nodup.append (by simp) (by simpa using hn)
  within := append_subset.mpr ⟨hs.within, by simpa using hready.2.1⟩
  chain := isChain_append.mpr ⟨hs.chain, .singleton n, by simpa using hready.2.2⟩
  closed := hs.closed
  settled hnil a ha hout := by
    obtain ⟨hpath, hne⟩ := not_or.mp (mt mem_append.mpr hout)
    exact hs.settled hnil a ((mem_append.mp ha).resolve_right hne) hpath

variable [DecidableEq α]

/-- The part of the path from `n` on, closed by the edge back to `n`. -/
theorem Valid.cycle (h : Valid adj all s) (hn : n ∈ s.path)
    (hlast : ∀ a ∈ s.path.getLast?, n ∈ adj a) :
    ClosedWalk (fun a b => b ∈ adj a) (s.path.drop (s.path.idxOf n) ++ [n]) := by
  have hlt : s.path.idxOf n < s.path.length := idxOf_lt_length_iff.mpr hn
  have hdrop : s.path.drop (s.path.idxOf n) = n :: s.path.drop (s.path.idxOf n + 1) := by
    rw [drop_eq_getElem_cons hlt, getElem_idxOf]
  refine ⟨isChain_append.mpr ⟨h.chain.drop _, .singleton n, ?_⟩, ?_, ?_⟩
  · intro a ha b hb
    rw [getLast?_drop, if_neg (Nat.not_le.mpr hlt)] at ha
    obtain rfl : n = b := by simpa using hb
    exact hlast a ha
  · rw [hdrop]
    simp
  · rw [getLast?_concat, hdrop]
    rfl

theorem follow_done {dfs : α → Search α → Option (Search α)} (hs : Valid adj all s)
    (hlast : ∀ a ∈ s.path.getLast?, n ∈ adj a) (hdfs : n ∉ s.visited →
      ∃ t, dfs n s = some t ∧ Valid adj all t ∧ Follows s t ∧ Done t n) :
    ∃ t, follow dfs s n = some t ∧ Valid adj all t ∧ Follows s t ∧ Done t n := by
  by_cases hvisited : n ∉ s.visited
  · rw [follow, if_pos hvisited]
    exact hdfs hvisited
  rw [follow, if_neg hvisited]
  rw [not_not] at hvisited
  split_ifs with hpath
  all_goals rw [hs.stack] at hpath
  · refine ⟨_, rfl, { hs with closed := ?_, settled := ?_ }, ⟨rfl, prefix_rfl,
      prefix_append _ _⟩, hvisited, ?_⟩
    · intro c hc
      rcases mem_append.mp hc with hc | hc
      · exact hs.closed c hc
      · rw [mem_singleton.mp hc]
        exact hs.cycle hpath hlast
    · exact fun hnil => absurd hnil (by simp)
    · exact fun hnil => absurd hnil (by simp)
  · exact ⟨s, rfl, hs, .refl, hvisited, fun _ => hpath⟩

/-- After the loop over the neighbours of `n` the call for `n` ends. -/
theorem Follows.leave (hs : Valid adj all s) (hn : n ∉ s.visited) (ht : Valid adj all t)
    (hst : Follows (s.enter n) t) (hnext : ∀ m ∈ adj n, Done t m) :
    Valid adj all (t.leave n) ∧ Follows s (t.leave n) ∧ Done (t.leave n) n := by
  have hpath : t.path = s.path ++ [n] := hst.path
  have hout : n ∉ s.path := fun h => hn (hs.path h)
  have hpop : (t.leave n).path = s.path := by rw [Search.leave, hpath, dropLast_concat]
  have hstack : (t.leave n).stack = s.path := by
    rw [Search.leave, ht.stack, hpath, erase_append_right _ hout, erase_cons_head, append_nil]
  have hvisited : s.visited <+: t.visited := (prefix_append _ _).trans hst.visited
  refine ⟨⟨hstack.trans hpop.symm, ?_, ht.nodup, ht.within, ?_, ht.closed, ?_⟩,
    ⟨hpop, hvisited, hst.cycles⟩, hst.visited.subset (by simp [Search.enter]),
    fun _ => hpop ▸ hout⟩
  · rw [hpop]
    exact Subset.trans hs.path hvisited.subset
  · rw [hpop]
    exact hs.chain
  · intro hnil a ha hfree
    rw [hpop] at hfree
    by_cases heq : a = n
    · -- all neighbours are settled by now
      exact heq ▸ ⟨n, fun m hm => ht.settled hnil m (hnext m hm).1 ((hnext m hm).2 hnil)⟩
    · refine ht.settled hnil a ha ?_
      rw [hpath, mem_append, mem_singleton]
      exact not_or.mpr ⟨hfree, heq⟩

/-- The search from a node returns. -/
theorem dfs_done (hadj : ∀ a, adj a ⊆ all) (hs : Valid adj all s) (hn : n ∉ s.visited)
    (hready : Ready adj all fuel s n) :
    ∃ t, dfs adj fuel n s = some t ∧ Valid adj all t ∧ Follows s t ∧ Done t n := by
  induction fuel generalizing s n with
  | zero =>
    -- the nodes visited are distinct nodes of `all`
    have hle := (subperm_of_subset hs.nodup hs.within).length_le
    have hlt := hready.1
    omega
  | succ fuel ih =>
    have hall : ∀ m ∈ adj n, Ready adj all fuel (s.enter n) m := by
      intro m hm
      refine ⟨?_, hadj n hm, by simpa [Search.enter] using hm⟩
      have hlt := hready.1
      rw [Search.enter, length_append, length_singleton]
      omega
    obtain ⟨t, ht, hvalid, hst, hnext⟩ := foldlM_done (f := follow (dfs adj fuel))
      (fun t hvalid hst m hm =>
        have hm := (hall m hm).mono hst
        follow_done hvalid hm.2.2 fun hnew => ih hvalid hnew hm) (hs.enter hn hready)
    exact ⟨t.leave n, by rw [dfs, ht, Option.map_some], hst.leave hs hn hvalid hnext⟩

/-- A search with fuel for all nodes returns; it visits no node twice, its cycles are closed walks,
and without one no walk goes on for ever. -/
theorem search_exact {nodes : List α} (hadj : ∀ a, adj a ⊆ all) (hnodes : nodes ⊆ all) :
    ∃ t, search adj (all.length + 1) nodes = some t ∧ t.visited.Nodup ∧
      (∀ c ∈ t.cycles, ClosedWalk (fun a b => b ∈ adj a) c) ∧
      (t.cycles = [] → ∀ n ∈ nodes, Ends adj n) := by
  have hempty : Valid adj all {} :=
    ⟨rfl, nil_subset _, nodup_nil, nil_subset _, .nil, by simp, by simp⟩
  obtain ⟨t, ht, hvalid, -, hdone⟩ := foldlM_done
    (f := fun s n => if n ∉ s.visited then dfs adj (all.length + 1) n s else some s) (by
      intro t hvalid hst n hn
      have hpath : t.path = [] := hst.path
      split_ifs with hvisited
      · exact ⟨t, rfl, hvalid, .refl, hvisited, fun _ => hpath ▸ not_mem_nil⟩
      · refine dfs_done hadj hvalid hvisited ⟨by omega, hnodes hn, ?_⟩
        rw [hpath]
        simp) hempty
  exact ⟨t, ht, hvalid.nodup, hvalid.closed, fun hnil n hn =>
    hvalid.settled hnil n (hdone n hn).1 ((hdone n hn).2 hnil)⟩

end Medre.Framework.DepthFirst
