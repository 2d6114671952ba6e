import Mathlib.Algebra.Order.Ring.Int
import Mathlib.Data.List.Basic
import Medre.Framework.Runs

/-! # Fan-out over a bounded pool of workers (`pipeline/delivery_coordinator.py`)

The body of the lock in `_bounded_ordered_map` does not suspend, so a worker takes its index in
one step. -/

namespace Medre.Pipeline

open List Medre.Framework

/-- Where a worker is: at the head of its loop, in the handler, or returned. -/
inductive Worker where
  | idle
  | calling (index : ℕ)
  | ended
deriving DecidableEq

variable {ε α : Type}

/-- The variables of `_bounded_ordered_map`; `none` is the sentinel. Exceptions, cancellations
included, are stored as results. -/
structure Pool (ε α : Type) where
  nextIndex : ℕ := 0
  workers : List Worker
  results : List (Option (Except ε α))
  /-- The indices the handler was called for, in the order of the calls. -/
  calls : List ℕ := []

namespace Pool

def workerCount (limit : ℤ) (n : ℕ) : ℕ := min (max 1 limit).toNat n

def start (limit : ℤ) (n : ℕ) : Pool ε α where
  workers := List.replicate (workerCount limit n) .idle
  results := List.replicate n none

/-- Worker `w` goes on to its next suspension; `outcome i` is how the call for item `i` ends. -/
def step (n : ℕ) (outcome : ℕ → Except ε α) (p : Pool ε α) (w : ℕ) : Pool ε α :=
  match p.workers[w]? with
  | some .idle =>
    if p.nextIndex ≥ n then { p with workers := p.workers.set w .ended }
    else
      { p with
        workers := p.workers.set w (.calling p.nextIndex)
        nextIndex := p.nextIndex + 1
        calls := p.calls ++ [p.nextIndex] }
  | some (.calling i) =>
    { p with workers := p.workers.set w .idle, results := p.results.set i (some (outcome i)) }
  | _ => p

def live (p : Pool ε α) (w : ℕ) : Prop := ∃ s, p.workers[w]? = some s ∧ s ≠ .ended

def finished (p : Pool ε α) : Prop := ∀ s ∈ p.workers, s = .ended

def unfinished (p : Pool ε α) : ℕ := p.workers.countP fun s => s matches .calling _

/-- What is raised: an exception of the handler, or the `RuntimeError` of a missing result. -/
inductive Failure (ε : Type) where
  | handler (e : ε)
  | incomplete

/-- The end of `_bounded_ordered_map`: the first exception in input order, or the results. -/
def returned (p : Pool ε α) : Except (Failure ε) (List α) :=
  if p.results.any Option.isNone then .error .incomplete
  else match (p.results.filterMap id).mapM id with
    | .ok values => .ok values
    | .error e => .error (.handler e)

/-! ## Invariant -/

variable {n count : ℕ} {outcome : ℕ → Except ε α} {p : Pool ε α} {l : List Worker} {s t u : Worker}
  {w : ℕ}

theorem mem_set (hs : s ∈ l) (hw : l[w]? = some t) (hne : s ≠ t) : s ∈ l.set w u := by
  obtain ⟨i, hi⟩ := mem_iff_getElem?.mp hs
  have hiw : w ≠ i := by
    rintro rfl
    exact hne (Option.some.inj (hi.symm.trans hw))
  exact mem_iff_getElem?.mpr ⟨i, by rw [getElem?_set_ne hiw, hi]⟩

/-- The indices given out are called for once each, in order, and until its call has ended
each of them is with a worker. -/
structure Inv (n count : ℕ) (outcome : ℕ → Except ε α) (p : Pool ε α) : Prop where
  bounded : p.nextIndex ≤ n
  length : p.workers.length = count
  results : p.results.length = n
  calls : p.calls = List.range p.nextIndex
  calling : ∀ i, Worker.calling i ∈ p.workers → i < n
  ended : Worker.ended ∈ p.workers → p.nextIndex = n
  given : ∀ i < p.nextIndex, p.results[i]? = some (some (outcome i)) ∨
    Worker.calling i ∈ p.workers

theorem inv_start (limit : ℤ) : Inv n (workerCount limit n) outcome (start limit n) where
  bounded := Nat.zero_le n
  length := length_replicate
  results := length_replicate
  calls := rfl
  calling i h := by cases eq_of_mem_replicate h
  ended h := by cases eq_of_mem_replicate h
  given i h := absurd h (Nat.not_lt_zero i)

theorem Inv.step (h : Inv n count outcome p) (w : ℕ) :
    Inv n count outcome (p.step n outcome w) := by
  unfold Pool.step
  split
  · next hw =>
    have hkeep {u : Worker} (i : ℕ) (hi : Worker.calling i ∈ p.workers) :
        Worker.calling i ∈ p.workers.set w u := mem_set hi hw fun h => by cases h
    split
    · next hall =>
      refine ⟨h.bounded, by simp [h.length], h.results, h.calls, fun i hi => ?_,
        fun _ => le_antisymm h.bounded hall, fun i hi => (h.given i hi).imp_right (hkeep i)⟩
      exact h.calling i ((mem_or_eq_of_mem_set hi).resolve_right fun h => by cases h)
    · next hmore =>
      refine ⟨not_le.mp hmore, by simp [h.length], h.results, ?_, fun i hi => ?_, fun hended => ?_,
        fun i hi => ?_⟩
      · rw [h.calls, range_succ]
      · rcases mem_or_eq_of_mem_set hi with hold | heq
        · exact h.calling i hold
        · cases heq
          omega
      · have := h.ended ((mem_or_eq_of_mem_set hended).resolve_right fun h => by cases h)
        omega
      · rcases Nat.lt_succ_iff_lt_or_eq.mp hi with hlt | rfl
        · exact (h.given i hlt).imp_right (hkeep i)
        · exact .inr (List.mem_set (List.getElem?_eq_some_iff.mp hw).choose _)
  · next i hw =>
    have hi := h.calling i (mem_of_getElem? hw)
    refine ⟨h.bounded, by simp [h.length], by simp [h.results], h.calls, fun j hj => ?_,
      fun hended => ?_, fun j hj => ?_⟩
    · exact h.calling j ((mem_or_eq_of_mem_set hj).resolve_right fun h => by cases h)
    · exact h.ended ((mem_or_eq_of_mem_set hended).resolve_right fun h => by cases h)
    · by_cases hij : i = j
      · subst hij
        exact .inl (getElem?_set_self (h.results ▸ hi))
      · rw [getElem?_set_ne hij]
        exact (h.given j hj).imp_right fun hmem =>
          mem_set hmem hw fun heq => hij (by cases heq; rfl)
  · exact h

/-- After the task group every call has ended, and every result is in its place. -/
theorem Inv.finished {limit : ℤ} (h : Inv n (workerCount limit n) outcome p) (hfin : p.finished) :
    p.nextIndex = n ∧ p.results = (List.range n).map fun i => some (outcome i) := by
  have hnext : p.nextIndex = n := by
    rcases Nat.eq_zero_or_pos n with rfl | hpos
    · exact Nat.le_zero.mp h.bounded
    · have hcount : 0 < p.workers.length := by
        rw [h.length, workerCount]
        omega
      obtain ⟨s, hs⟩ := exists_mem_of_length_pos hcount
      exact h.ended (hfin s hs ▸ hs)
  refine ⟨hnext, ext_getElem? fun i => ?_⟩
  by_cases hi : i < n
  · have hresult := (h.given i (hnext ▸ hi)).resolve_right fun hmem => by cases hfin _ hmem
    rw [hresult]
    simp [hi]
  · rw [getElem?_eq_none (by rw [h.results]; omega), getElem?_eq_none (by simpa using hi)]

/-! ## Termination -/

/-- The steps a worker has to its end when no index is left. -/
def weight : Worker → ℕ
  | .idle => 1
  | .calling _ => 2
  | .ended => 0

def remaining (n : ℕ) (p : Pool ε α) : ℕ :=
  2 * (n - p.nextIndex) + (p.workers.map weight).sum

theorem weight_set (hw : l[w]? = some t) :
    ((l.set w u).map weight).sum + weight t = (l.map weight).sum + weight u := by
  induction l generalizing w with
  | nil => cases hw
  | cons s l ih =>
    cases w with
    | zero =>
      cases hw
      simp only [set_cons_zero, map_cons, sum_cons]
      omega
    | succ w =>
      have := ih hw
      simp only [set_cons_succ, map_cons, sum_cons]
      omega

theorem remaining_step (hlive : p.live w) :
    (p.step n outcome w).remaining n + 1 = p.remaining n := by
  obtain ⟨s, hw, hne⟩ := hlive
  cases s with
  | idle =>
    simp only [step, hw]
    split
    · have := weight_set (u := .ended) hw
      simp only [remaining, weight] at this ⊢
      omega
    · have := weight_set (u := .calling p.nextIndex) hw
      simp only [remaining, weight] at this ⊢
      omega
  | calling i =>
    have := weight_set (u := .idle) hw
    simp only [step, hw, remaining, weight] at this ⊢
    omega
  | ended => exact absurd rfl hne

/-! ## Results -/

theorem mapM_ok (vs : List α) : (vs.map (Except.ok (ε := ε))).mapM id = .ok vs := by
  induction vs with
  | nil => rfl
  | cons v vs ih =>
    rw [map_cons, mapM_cons, ih]
    rfl

theorem mapM_error {rs : List (Except ε α)} {i : ℕ} {e : ε} (hi : rs[i]? = some (.error e))
    (hbefore : ∀ j < i, ∃ v, rs[j]? = some (.ok v)) : rs.mapM id = .error e := by
  induction rs generalizing i with
  | nil => cases hi
  | cons r rs ih =>
    cases i with
    | zero =>
      cases hi
      rfl
    | succ i =>
      obtain ⟨v, hv⟩ := hbefore 0 (Nat.succ_pos i)
      cases hv
      rw [mapM_cons, ih hi fun j hj => hbefore (j + 1) (Nat.succ_lt_succ hj)]
      rfl

/-- The pool after the given workers have gone on in turn. -/
def after (n : ℕ) (limit : ℤ) (outcome : ℕ → Except ε α) (schedule : List ℕ) : Pool ε α :=
  run (fun p w => (step n outcome p w, ())) (start limit n) schedule

/-- Fan-out is complete, ordered and bounded, under every schedule: the handler is called at most
once an item, in order, with at most the limit of calls unfinished; the pool ends, with every call
made and ended, and returns the results in order or raises the failure of the first failed item. -/
theorem bounded_ordered_map_exact (n : ℕ) (limit : ℤ) (outcome : ℕ → Except ε α)
    (schedule : List ℕ) :
    ((∀ pre w post, schedule = pre ++ w :: post → (after n limit outcome pre).live w) →
      schedule.length ≤ 2 * n + workerCount limit n) ∧
    let p := after n limit outcome schedule
    (∃ k ≤ n, p.calls = List.range k) ∧ (p.unfinished : ℤ) ≤ max 1 limit ∧
      ((∃ w, p.live w) ∨ p.finished ∧ p.calls = List.range n ∧ p.unfinished = 0 ∧
        (∀ v : ℕ → α, (∀ i < n, outcome i = .ok (v i)) →
          p.returned = .ok ((List.range n).map v)) ∧
        ∀ i < n, ∀ e, outcome i = .error e → (∀ j < i, ∃ v, outcome j = .ok v) →
          p.returned = .error (.handler e)) := by
  have hinv : ∀ ws, Inv n (workerCount limit n) outcome (after n limit outcome ws) :=
    run_invariant (fun _ w h => h.step w) (inv_start limit)
  refine ⟨fun hlive => ?_, ?_⟩
  · -- every step of a live worker is one less to go
    have hspent : ∀ ws, (∀ pre w post, ws = pre ++ w :: post →
        (after n limit outcome pre).live w) →
        (after n limit outcome ws).remaining n + ws.length = 2 * n + workerCount limit n := by
      intro ws
      induction ws using List.reverseRecOn with
      | nil =>
        intro _
        show (start limit n : Pool ε α).remaining n + 0 = _
        simp [remaining, start, weight]
      | append_singleton ws w ih =>
        intro hws
        have hprev := ih fun pre v post heq => hws pre v (post ++ [w]) (by simp [heq])
        have hstep : (step n outcome (after n limit outcome ws) w).remaining n + 1 = _ :=
          remaining_step (hws ws w [] rfl)
        rw [after, run_snoc, length_append]
        show (step n outcome (after n limit outcome ws) w).remaining n + (ws.length + 1) = _
        omega
    have := hspent schedule hlive
    omega
  intro p
  have h : Inv n (workerCount limit n) outcome p := hinv schedule
  refine ⟨⟨_, h.bounded, h.calls⟩, ?_, ?_⟩
  · have hle : p.unfinished ≤ workerCount limit n := h.length ▸ countP_le_length
    have hcount : workerCount limit n ≤ (max 1 limit).toNat := min_le_left _ _
    omega
  · by_cases hfin : p.finished
    · refine .inr ⟨hfin, ?_⟩
      obtain ⟨hnext, hresults⟩ := h.finished hfin
      have hreturned : p.returned = match ((List.range n).map outcome).mapM id with
          | .ok values => .ok values
          | .error e => .error (.handler e) := by
        have hvalues : ((List.range n).map fun i => some (outcome i)).filterMap id =
            (List.range n).map outcome := by
          simp [filterMap_map]
        rw [returned, hresults, if_neg (by simp), hvalues]
      refine ⟨hnext ▸ h.calls, ?_, fun v hv => ?_, fun i hi e he hbefore => ?_⟩
      · exact countP_eq_zero.mpr fun s hs => by simp [hfin s hs]
      · have hok : (List.range n).map outcome = ((List.range n).map v).map .ok := by
          rw [map_map]
          exact map_congr_left fun i hi => hv i (mem_range.mp hi)
        rw [hreturned, hok, mapM_ok]
      · have herror : ((List.range n).map outcome).mapM id = .error e := by
          refine mapM_error (i := i) (by simp [hi, he]) fun j hj => ?_
          obtain ⟨v, hv⟩ := hbefore j hj
          exact ⟨v, by simp [hj.trans hi, hv]⟩
        rw [hreturned, herror]
    · refine .inl ?_
      simp only [finished, not_forall] at hfin
      obtain ⟨s, hs, hne⟩ := hfin
      obtain ⟨w, hw⟩ := mem_iff_getElem?.mp hs
      exact ⟨w, s, hw, hne⟩

end Pool

end Medre.Pipeline
