import Medre.Supervision.Accounting

/-! # Fairness of inbound admission

Every action leaves the line of waiting calls alone, adds a call, takes one out, serves the next
one, or, once admission is closed, empties it. -/

namespace Medre.Supervision

open List Medre.Framework

variable {q : RoundRobin String ℕ} {served : List String} {grants : List (String × ℕ)}
  {sourceId : Option String}

namespace CapacityController

variable {c c' : CapacityController}

/-! ## What an action does to the line -/

/-- The line after `n` rounds of `next`. -/
def nexts (q : RoundRobin String ℕ) : ℕ → RoundRobin String ℕ
  | 0 => q
  | n + 1 => nexts q.next.1 n

/-- What an action may do to the line, with the calls it grants. -/
inductive LineStep (c c' : CapacityController) : List (String × ℕ) → Prop
  | same (h : c'.inboundWaiters = c.inboundWaiters) : LineStep c c' []
  | pushed (source : String)
      (hroom : c.inboundSources ≠ [] →
        (c.inboundWaiters.queue source).length < c.inboundSourceWaitLimit source)
      (h : c'.inboundWaiters = c.inboundWaiters.push source c.calls.length) : LineStep c c' []
  | removed (source : String) (i : ℕ)
      (h : c'.inboundWaiters = (c.inboundWaiters.remove source i).1) : LineStep c c' []
  | served (source : String) (i : ℕ) (hnext : c.inboundWaiters.next.2 = some (source, i))
      (h : c'.inboundWaiters = c.inboundWaiters.next.1) : LineStep c c' [(source, i)]
  | closed (n : ℕ) (h : c'.inboundWaiters = nexts c.inboundWaiters n) : LineStep c c' []

theorem grantNext_waiters (c : CapacityController) :
    c.grantNext.1.inboundWaiters = c.inboundWaiters.next.1 := by
  unfold grantNext
  split
  · rename_i heq
    rw [heq]
  · rename_i heq
    rw [heq]
    split <;> rfl

theorem grantRounds_closed (n : ℕ) (hclosed : c.inboundAccepting = false) :
    (grantRounds n c).2 = [] ∧ ∃ m,
    (grantRounds n c).1.inboundWaiters = nexts c.inboundWaiters m := by
  induction n generalizing c with
  | zero => exact ⟨rfl, 0, rfl⟩
  | succ n ih =>
    unfold grantRounds
    split
    · have hnone : c.grantNext.2 = none := by
        unfold grantNext
        split
        · rfl
        · rw [if_neg (Bool.eq_false_iff.mp hclosed)]
      have hstill : c.grantNext.1.inboundAccepting = false := by
        rw [← hclosed]
        unfold grantNext
        split
        · rfl
        · split <;> rfl
      obtain ⟨hgrants, m, hm⟩ := ih hstill
      refine ⟨?_, m + 1, ?_⟩
      · simp only [hnone, hgrants, Option.toList_none, nil_append]
      · rw [hm, grantNext_waiters]
        rfl
    · exact ⟨rfl, 0, rfl⟩

theorem Core.lineStep_grant (h : c.Core) {c₀ : CapacityController}
    (hline : c₀.inboundWaiters = c.inboundWaiters)
    (hone : c.inboundAccepting = true → 0 < c.inboundWaiters.total →
      c.inboundLimit ≤ c.inboundCurrent + 1) :
    LineStep c₀ c.grantInboundWaiters.1 c.grantInboundWaiters.2 := by
  cases hcan : c.canGrant with
  | false =>
    rw [grantInboundWaiters_of_done hcan]
    exact .same hline.symm
  | true =>
    cases haccepting : c.inboundAccepting with
    | false =>
      obtain ⟨hgrants, m, hm⟩ := grantRounds_closed
        (c.inboundWaiters.total + c.inboundWaiters.order.length) haccepting
      unfold CapacityController.grantInboundWaiters
      rw [hgrants]
      exact .closed m (hline ▸ hm)
    | true =>
      obtain ⟨source, rest, i, as, w, -, -, -, -, -, -, hnext⟩ := h.next_call hcan
      have hpos := (canGrant_iff.mp hcan).2.1
      obtain ⟨n, hn⟩ : ∃ n, c.inboundWaiters.total + c.inboundWaiters.order.length = n + 1 :=
        ⟨c.inboundWaiters.total + c.inboundWaiters.order.length - 1, by omega⟩
      have hgrant := grantNext_eq hnext
      rw [if_pos haccepting] at hgrant
      -- the slot was the last one
      have hdone : c.grantNext.1.canGrant = false := by
        rw [← Bool.not_eq_true]
        intro hcan'
        have hlt := (canGrant_iff.mp hcan').1
        rw [hgrant] at hlt
        have hlt : c.inboundCurrent + 1 < c.inboundLimit := hlt
        have hle := hone haccepting hpos
        omega
      have hrest : grantRounds n c.grantNext.1 = (c.grantNext.1, []) := by
        cases n with
        | zero => rfl
        | succ n => rw [grantRounds, if_neg (Bool.eq_false_iff.mp hdone)]
      have hloop : c.grantInboundWaiters = (c.grantNext.1, [(source, i)]) := by
        unfold CapacityController.grantInboundWaiters
        rw [hn, grantRounds, if_pos hcan, hrest, hgrant]
        rfl
      rw [hloop]
      exact .served source i (hline ▸ hnext) (hline ▸ grantNext_waiters c)

theorem waitLimit_eq (c c' : CapacityController) (hlimit : c'.inboundLimit = c.inboundLimit)
    (hsources : c'.inboundSources = c.inboundSources) (hne : c.inboundSources ≠ []) (s : String) :
    c'.inboundSourceWaitLimit s = c.inboundSourceWaitLimit s := by
  have hlen : c.inboundSources.length ≠ 0 := fun h => hne (length_eq_zero_iff.mp h)
  simp only [inboundSourceWaitLimit, hlimit, hsources, if_pos hlen]

theorem waitLimit_ensure (hne : c.inboundSources ≠ []) {source s : String} :
    (c.ensureInboundSource source).inboundSourceWaitLimit s = c.inboundSourceWaitLimit s :=
  waitLimit_eq c (c.ensureInboundSource source) rfl rfl hne s

/-- The slot given back by a call is the only one that is free while others wait. -/
theorem Inv.one_slot (h : c.Inv) (hlimit : c'.inboundLimit = c.inboundLimit)
    (haccepting : c'.inboundAccepting = c.inboundAccepting)
    (hwaiters : c'.inboundWaiters = c.inboundWaiters)
    (hcurrent : c'.inboundCurrent = c.inboundCurrent - 1) :
    c'.inboundAccepting = true → 0 < c'.inboundWaiters.total →
      c'.inboundLimit ≤ c'.inboundCurrent + 1 := by
  intro haccepts hpos
  have hfull := h.full (haccepting ▸ haccepts) (hwaiters ▸ hpos)
  omega

theorem Inv.lineStep_arrive (h : c.Inv) (sourceId : Option String) :
    LineStep c (c.acquireInbound sourceId).1 (c.acquireInbound sourceId).2.grants := by
  have harrives := (h.ensure (normalizeInboundSource sourceId)).arrives
    (normalizeInboundSource sourceId)
  show LineStep c (arrive _ _).1 (arrive _ _).2.grants
  generalize (arrive _ _).1 = c', (arrive _ _).2 = o at harrives ⊢
  cases harrives with
  | queued haccepting hfull hroom =>
    exact .pushed _ (fun hne => hroom.trans_eq (waitLimit_ensure hne)) rfl
  | _ => exact .same rfl

theorem Inv.lineStep (h : c.Inv) (a : Action) : LineStep c (c.step a).1 (c.step a).2.grants := by
  have hcall : ∀ (i : ℕ) (stage : Stage) (g : Call → CapacityController × Outcome),
      (∀ w, c.calls[i]? = some w → w.stage = stage → LineStep c (g w).1 (g w).2.grants) →
        LineStep c (c.atStage i stage g).1 (c.atStage i stage g).2.grants := by
    intro i stage g hg
    rcases c.atStage_cases i stage g with hidle | ⟨w, hw, hstage, heq⟩
    · rw [hidle]
      exact .same rfl
    · rw [heq]
      exact hg w hw hstage
  cases a with
  | configure sourceIds =>
    rw [step_configure]
    cases hc : c.configureInboundSources sourceIds with
    | error text => exact .same rfl
    | ok c' =>
      rcases configure_cases hc with rfl | ⟨-, -, -, -, hwaiters⟩
      · exact .same rfl
      · exact .same hwaiters
  | acquire sourceId => exact h.lineStep_arrive sourceId
  | wake i =>
    refine hcall i _ _ fun w hw hstage => ?_
    unfold wake
    split <;> exact .same rfl
  | timeout i =>
    refine hcall i _ _ fun w hw hstage => ?_
    unfold timeoutInbound
    split
    · exact .same rfl
    split
    · exact .removed w.source i rfl
    · split
      · exact .same rfl
      · exact .same rfl
  | cancel i =>
    refine hcall i _ _ fun w hw hstage => ?_
    unfold cancelInbound
    split
    · rename_i hgranted
      have hholds : w.holds = true := by simp [Call.holds, hstage, hgranted]
      exact (h.give hw hholds rfl rfl).2.lineStep_grant rfl (h.one_slot rfl rfl rfl rfl)
    · exact .removed w.source i rfl
  | release i =>
    refine hcall i _ _ fun w hw hstage => ?_
    have hholds : w.holds = true := by simp [Call.holds, hstage]
    obtain ⟨hpos, hcore⟩ := (h.toCore.ensure w.source).give
      (f := fun w => { w with stage := .left }) hw hholds rfl rfl
    have hserved : c.releaseInbound i w = _ := if_neg (Nat.ne_of_gt hpos)
    rw [hserved]
    exact hcore.lineStep_grant rfl (h.one_slot rfl rfl rfl rfl)
  | stopAccepting => exact .same rfl

/-! ## Turns -/

section Window

variable {s : String} {w : ℕ}

theorem next_sublist (h : q.WF) (s : String) : (q.next.1.queue s).Sublist (q.queue s) := by
  rcases h.next_cases with ⟨-, heq⟩ | ⟨k, rest, a, as, horder, hqueue, -⟩
  · rw [heq]
  · rw [RoundRobin.queue_next horder hqueue]
    split
    · rename_i hs
      rw [hs, hqueue]
      exact sublist_cons_self a as
    · exact List.Sublist.refl _

theorem nexts_sublist (h : q.WF) (n : ℕ) (s : String) :
    ((nexts q n).queue s).Sublist (q.queue s) := by
  induction n generalizing q with
  | zero => exact List.Sublist.refl _
  | succ n ih => exact (ih h.next).trans (next_sublist h s)

/-- The call `w` is the next of the source `s`. -/
def Heads (q : RoundRobin String ℕ) (s : String) (w : ℕ) : Prop := ∃ rest, q.queue s = w :: rest

/-- A round either serves the head of `s`, or one that stands before `s`. -/
theorem next_window (h : q.WF) (hsorted : (q.queue s).Pairwise (· < ·)) (hhead : Heads q s w)
    {k : String} {i : ℕ} (hnext : q.next.2 = some (k, i)) :
    (k = s ∧ i = w ∧ w ∉ q.next.1.queue s) ∨
      (k ≠ s ∧ q.ahead s = k :: q.next.1.ahead s ∧ q.next.1.queue s = q.queue s) := by
  obtain ⟨more, hmore⟩ := hhead
  rcases h.next_cases with ⟨-, heq⟩ | ⟨k', rest, a, as, horder, hqueue, heq⟩
  · rw [heq] at hnext
    cases hnext
  · rw [heq] at hnext
    cases hnext
    by_cases hk : k = s
    · subst hk
      obtain ⟨rfl, rfl⟩ := List.cons.inj (hqueue.symm.trans hmore)
      refine .inl ⟨rfl, rfl, ?_⟩
      rw [RoundRobin.queue_next horder hqueue, if_pos rfl]
      rw [hqueue, pairwise_cons] at hsorted
      exact fun hmem => Nat.lt_irrefl _ (hsorted.1 _ hmem)
    · have hs : s ∈ q.order := by
        rw [h.mem_order, hmore]
        exact cons_ne_nil _ _
      refine .inr ⟨hk, RoundRobin.ahead_next horder hqueue hk hs, ?_⟩
      rw [RoundRobin.queue_next horder hqueue, if_neg (Ne.symm hk)]

/-- While `w` waits, closing the line takes sources only from before `s`. -/
theorem nexts_window (h : q.WF) (hsorted : (q.queue s).Pairwise (· < ·)) (hhead : Heads q s w)
    (n : ℕ) (hstill : w ∈ (nexts q n).queue s) :
    Heads (nexts q n) s w ∧ ((nexts q n).ahead s).Sublist (q.ahead s) := by
  induction n generalizing q with
  | zero => exact ⟨hhead, List.Sublist.refl _⟩
  | succ n ih =>
    obtain ⟨ki, hnext⟩ : ∃ ki, q.next.2 = some ki := by
      obtain ⟨rest, hrest⟩ := hhead
      rcases h.next_cases with ⟨hnil, -⟩ | ⟨k, _, a, _, -, -, heq⟩
      · have hs := (h.mem_order s).mpr (by rw [hrest]; exact cons_ne_nil _ _)
        rw [hnil] at hs
        cases hs
      · exact ⟨(k, a), by rw [heq]⟩
    rcases next_window h hsorted hhead hnext with ⟨-, -, hgone⟩ | ⟨-, hahead, hqueue⟩
    · exact absurd ((nexts_sublist h.next n s).subset hstill) hgone
    · have hih := ih h.next (hqueue ▸ hsorted) (by rw [Heads, hqueue]; exact hhead) hstill
      refine ⟨hih.1, hih.2.trans ?_⟩
      rw [hahead]
      exact sublist_cons_self _ _

/-- The sources other than `s` served since `w` became the head of `s` are distinct, and none
stands before `s`. -/
structure Window (s : String) (w : ℕ) (served : List String) (c : CapacityController) : Prop where
  head : Heads c.inboundWaiters s w
  distinct : (served ++ c.inboundWaiters.ahead s).Nodup

/-- The sources of grants, without `s`. -/
def othersOf (s : String) (grants : List (String × ℕ)) : List String :=
  (grants.map Prod.fst).filter (· ≠ s)

theorem Window.step (h : Window s w served c) (hinv : c.Inv) (hstep : LineStep c c' grants) :
    (served ++ othersOf s grants).Nodup ∧
      (w ∈ c'.inboundWaiters.queue s → Window s w (served ++ othersOf s grants) c') := by
  obtain ⟨rest, hrest⟩ := h.head
  have hs : s ∈ c.inboundWaiters.order := by
    rw [hinv.queues.line.mem_order, hrest]
    exact cons_ne_nil _ _
  have hserved : served.Nodup := (nodup_append.mp h.distinct).1
  cases hstep with
  | same hline =>
    refine ⟨by simpa [othersOf] using hserved, fun _ => ⟨hline ▸ h.head, ?_⟩⟩
    rw [hline]
    simpa [othersOf] using h.distinct
  | pushed source hroom hline =>
    refine ⟨by simpa [othersOf] using hserved, fun _ => ⟨?_, ?_⟩⟩
    · rw [hline, Heads, RoundRobin.queue_push]
      split
      · rename_i heq
        rw [← heq, hrest]
        exact ⟨_, rfl⟩
      · exact ⟨rest, hrest⟩
    · rw [hline, RoundRobin.ahead_push hs]
      simpa [othersOf] using h.distinct
  | removed source i hline =>
    refine ⟨by simpa [othersOf] using hserved, fun hstill => ?_⟩
    by_cases hi : i ∈ c.inboundWaiters.queue source
    · have hs' : s ∈ (c.inboundWaiters.remove source i).1.order := by
        rw [(hinv.queues.line.remove hi).mem_order]
        exact ne_nil_of_mem (hline ▸ hstill)
      refine ⟨?_, ?_⟩
      · rw [hline, RoundRobin.queue_remove hi] at hstill
        rw [hline, Heads, RoundRobin.queue_remove hi]
        split at hstill
        · rename_i heq
          rw [if_pos heq, ← heq, hrest]
          rw [← heq, hrest] at hstill
          by_cases hiw : i = w
          · -- the head left, and it stood there once
            have hsorted := hinv.queues.sorted s
            rw [hrest, pairwise_cons] at hsorted
            rw [hiw, erase_cons_head] at hstill
            exact absurd (hsorted.1 w hstill) (Nat.lt_irrefl w)
          · exact ⟨_, erase_cons_tail (by simpa using Ne.symm hiw)⟩
        · rename_i hne
          rw [if_neg hne]
          exact ⟨rest, hrest⟩
      · rw [hline]
        simpa [othersOf] using
          h.distinct.sublist (List.Sublist.append_left (RoundRobin.ahead_remove hs') served)
    · rw [RoundRobin.remove_of_not_mem hi] at hline
      refine ⟨hline ▸ h.head, ?_⟩
      rw [hline]
      simpa [othersOf] using h.distinct
  | served source i hnext hline =>
    rcases next_window hinv.queues.line (hinv.queues.sorted s) h.head hnext with
      ⟨rfl, -, hgone⟩ | ⟨hne, hahead, hqueue⟩
    · refine ⟨by simpa [othersOf] using hserved, fun hstill => ?_⟩
      rw [hline] at hstill
      exact absurd hstill hgone
    · have hothers : othersOf s [(source, i)] = [source] := by simp [othersOf, hne]
      have hdistinct := h.distinct
      rw [hahead, append_cons] at hdistinct
      rw [hothers]
      refine ⟨(nodup_append.mp hdistinct).1, fun _ => ⟨?_, ?_⟩⟩
      · rw [hline, Heads, hqueue]
        exact ⟨rest, hrest⟩
      · rw [hline]
        exact hdistinct
  | closed n hline =>
    refine ⟨by simpa [othersOf] using hserved, fun hstill => ?_⟩
    rw [hline] at hstill
    obtain ⟨hhead, hsub⟩ := nexts_window hinv.queues.line (hinv.queues.sorted s) h.head n hstill
    refine ⟨hline ▸ hhead, ?_⟩
    rw [hline]
    simpa [othersOf] using h.distinct.sublist (List.Sublist.append_left hsub served)

/-- The queued grants of a run from `c`. -/
def grantsDuring (c : CapacityController) (actions : List Action) : List (String × ℕ) :=
  (trace CapacityController.step c actions).flatMap fun p => p.2.grants

theorem othersOf_append (s : String) (as bs : List (String × ℕ)) :
    othersOf s (as ++ bs) = othersOf s as ++ othersOf s bs := by
  simp [othersOf]

/-- While `w` is the head of `s`, no other source is served twice. -/
theorem Window.run (h : Window s w served c) (hinv : c.Inv) {actions : List Action}
    (hwaits : ∀ pre a post, actions = pre ++ a :: post →
      w ∈ (Framework.run CapacityController.step c pre).inboundWaiters.queue s) :
    (served ++ othersOf s (c.grantsDuring actions)).Nodup := by
  induction actions generalizing c served with
  | nil =>
    show (served ++ []).Nodup
    rw [append_nil]
    exact (nodup_append.mp h.distinct).1
  | cons a actions ih =>
    have hgrants : c.grantsDuring (a :: actions) =
        (c.step a).2.grants ++ (c.step a).1.grantsDuring actions := rfl
    obtain ⟨hnodup, hnext⟩ := h.step hinv (hinv.lineStep a)
    rw [hgrants, othersOf_append, ← append_assoc]
    cases actions with
    | nil =>
      show (_ ++ []).Nodup
      rw [append_nil]
      exact hnodup
    | cons b actions =>
      refine ih (hnext (hwaits [a] b actions rfl)) (hinv.of_step a) ?_
      intro pre a' post heq
      exact hwaits (a :: pre) a' post (by rw [heq]; rfl)

end Window

/-! ## Shares of the queue -/

/-- No configured source exceeds its share. -/
def Shares (c : CapacityController) : Prop :=
  c.inboundSources ≠ [] →
    ∀ s, (c.inboundWaiters.queue s).length ≤ c.inboundSourceWaitLimit s

theorem LineStep.queue_le (h : LineStep c c' grants) (hline : c.inboundWaiters.WF) (s : String) :
    (c'.inboundWaiters.queue s).length ≤ (c.inboundWaiters.queue s).length ∨
      (c.inboundSources ≠ [] →
        (c'.inboundWaiters.queue s).length ≤ c.inboundSourceWaitLimit s) := by
  cases h with
  | same h => exact .inl (by rw [h])
  | pushed source hroom h =>
    rw [h, RoundRobin.queue_push]
    split
    · rename_i hs
      right
      intro hne
      rw [length_append, length_singleton, hs]
      exact hroom hne
    · exact .inl (le_refl _)
  | removed source i h =>
    left
    rw [h]
    by_cases hi : i ∈ c.inboundWaiters.queue source
    · rw [RoundRobin.queue_remove hi]
      split
      · rename_i hs
        rw [hs]
        exact erase_sublist.length_le
      · exact le_refl _
    · rw [RoundRobin.remove_of_not_mem hi]
  | served source i hnext h => exact .inl (h ▸ (next_sublist hline s).length_le)
  | closed n h => exact .inl (h ▸ (nexts_sublist hline n s).length_le)

theorem queue_eq_nil (h : q.WF) (hzero : q.total = 0) (s : String) : q.queue s = [] := by
  by_contra hne
  have hs := (h.mem_order s).mpr hne
  rw [h.order_eq_nil_iff.mpr hzero] at hs
  cases hs

theorem Shares.step (h : c.Shares) (hinv : c.Inv) (a : Action) : (c.step a).1.Shares := by
  have hlimit := step_inboundLimit c a
  have hsame : (c.step a).1.inboundSources = c.inboundSources → (c.step a).1.Shares := by
    intro hsources hne s
    rw [waitLimit_eq c _ hlimit hsources (hsources ▸ hne)]
    rcases (hinv.lineStep a).queue_le hinv.queues.line s with hle | hle
    · exact hle.trans (h (hsources ▸ hne) s)
    · exact hle (hsources ▸ hne)
  rcases settings_step c a with hsettings | ⟨-, heq⟩ | ⟨sourceIds, c', -, hc, heq⟩
  · exact hsame (congrArg (fun p => p.2.1) hsettings)
  · exact hsame (by rw [heq])
  · rcases configure_cases hc with rfl | ⟨-, hzero, -, -, hwaiters⟩
    · exact hsame (by rw [heq])
    · -- the shares are set before anybody waits
      intro _ s
      rw [heq, hwaiters, queue_eq_nil hinv.queues.line hzero]
      exact Nat.zero_le _

theorem shares_after (limit : ℕ) (actions : List Action) : (after limit actions).Shares := by
  have hboth : (after limit actions).Inv ∧ (after limit actions).Shares := by
    refine run_invariant (I := fun c : CapacityController => c.Inv ∧ c.Shares) ?_ ?_ actions
    · exact fun c a h => ⟨h.1.of_step a, h.2.step h.1 a⟩
    · exact ⟨inv_after limit [], fun h => absurd rfl h⟩
  exact hboth.2

/-- With two sources or more, one source has at most half of the queue, rounded up. -/
theorem waitLimit_lt (hlimit : 2 ≤ c.inboundLimit) (hsources : 2 ≤ c.inboundSources.length)
    (s : String) : c.inboundSourceWaitLimit s < c.inboundLimit := by
  have hne : c.inboundSources.length ≠ 0 := by omega
  simp only [inboundSourceWaitLimit, if_pos hne]
  generalize hn : c.inboundSources.length + (if s ∈ c.inboundSources then 0 else 1) = n
  have hn2 : 2 ≤ n := by omega
  rw [Nat.max_lt]
  refine ⟨by omega, ?_⟩
  rw [Nat.div_lt_iff_lt_mul (by omega)]
  have hleft : c.inboundLimit * 2 ≤ c.inboundLimit * n := Nat.mul_le_mul_left _ hn2
  have hright : 2 * n ≤ c.inboundLimit * n := Nat.mul_le_mul_right _ hlimit
  omega

/-! ## Every run -/

theorem acquire_answers (h : c.Inv) :
    ((c.acquireInbound sourceId).2.answer = .returned .granted → c.inboundWaiters.total = 0) ∧
    ((c.acquireInbound sourceId).2.answer = .returned (.refused .queueFull) →
      c.inboundLimit ≤ c.inboundWaiters.total ∨
        c.inboundWaiters.queue (normalizeInboundSource sourceId) ≠ []) := by
  have harrives := (h.ensure (normalizeInboundSource sourceId)).arrives
    (normalizeInboundSource sourceId)
  change ((arrive _ _).2.answer = _ → _) ∧ ((arrive _ _).2.answer = _ → _)
  generalize (arrive _ _).1 = c', (arrive _ _).2 = o at harrives ⊢
  cases harrives with
  | granted haccepting hfree hnobody => exact ⟨fun _ => hnobody, nofun⟩
  | closed haccepting => exact ⟨nofun, nofun⟩
  | queueFull haccepting hfull hbound =>
    refine ⟨nofun, fun _ => hbound.imp id fun hle hnil => ?_⟩
    have hnil' : (c.ensureInboundSource (normalizeInboundSource sourceId)).inboundWaiters.queue
        (normalizeInboundSource sourceId) = [] := hnil
    rw [hnil', inboundSourceWaitLimit] at hle
    simp at hle
  | queued haccepting hfull hroom => exact ⟨nofun, nofun⟩

/-- No inbound source starves another. While `w` is the first waiting call of the source `s`, every
other source gets at most one queued grant, up to the action that grants `w` or in which it leaves.
A queued grant goes to the first call of its source, and a call is granted on arrival only if
nobody waits. With a limit and a number of sources of at least 2, a call whose source has nobody
waiting is not refused for a full queue while all that wait belong to one other source. -/
theorem inbound_sources_fair (limit : ℕ) (before : List Action) :
    (∀ s w rest actions, (after limit before).inboundWaiters.queue s = w :: rest →
      (∀ pre a post, actions = pre ++ a :: post →
        w ∈ (after limit (before ++ pre)).inboundWaiters.queue s) →
      ∀ t ≠ s, (((after limit before).grantsDuring actions).map Prod.fst).count t ≤ 1) ∧
    (∀ a s i, (s, i) ∈ ((after limit before).step a).2.grants →
      i ∈ (after limit before).inboundWaiters.queue s ∧
        ∀ j ∈ (after limit before).inboundWaiters.queue s, i ≤ j) ∧
    (∀ sourceId, ((after limit before).step (.acquire sourceId)).2.answer = .returned .granted →
      ∀ s, (after limit before).inboundWaiters.queue s = []) ∧
    (2 ≤ limit → 2 ≤ (after limit before).inboundSources.length → ∀ sourceId t,
      t ≠ normalizeInboundSource sourceId →
        (∀ s, s ≠ t → (after limit before).inboundWaiters.queue s = []) →
          ((after limit before).step (.acquire sourceId)).2.answer ≠
            .returned (.refused .queueFull)) := by
  have hinv := inv_after limit before
  refine ⟨?_, ?_, ?_, ?_⟩
  · intro s w rest actions hqueue hwaits t ht
    have hwindow : Window s w [] (after limit before) := by
      refine ⟨⟨rest, hqueue⟩, ?_⟩
      exact hinv.queues.line.nodup.sublist (takeWhile_sublist _)
    have hnodup : ([] ++ othersOf s ((after limit before).grantsDuring actions)).Nodup := by
      refine hwindow.run hinv fun pre a post heq => ?_
      have hin := hwaits pre a post heq
      rw [after, run_append] at hin
      exact hin
    rw [nil_append, othersOf] at hnodup
    have hcount := nodup_iff_count_le_one.mp hnodup t
    rwa [count_filter (by simpa using ht)] at hcount
  · intro a s i hgrant
    have hline := hinv.lineStep a
    generalize ((after limit before).step a).1 = c', ((after limit before).step a).2.grants = gs
      at hline hgrant
    cases hline with
    | served source k hnext h =>
      cases mem_singleton.mp hgrant
      rcases hinv.queues.line.next_cases with ⟨-, heq⟩ | ⟨source, rest, k, as, -, hqueue, heq⟩
      · rw [heq] at hnext
        cases hnext
      · rw [heq] at hnext
        cases hnext
        have hsorted := hinv.queues.sorted s
        rw [hqueue, pairwise_cons] at hsorted
        rw [hqueue]
        refine ⟨mem_cons_self, fun j hj => ?_⟩
        rcases mem_cons.mp hj with rfl | hj
        · exact le_refl _
        · exact Nat.le_of_lt (hsorted.1 j hj)
    | same h => cases hgrant
    | pushed source hroom h => cases hgrant
    | removed source k h => cases hgrant
    | closed n h => cases hgrant
  · intro sourceId hanswer s
    exact queue_eq_nil hinv.queues.line ((acquire_answers hinv).1 hanswer) s
  · intro hlimit hsources sourceId t ht hothers hanswer
    have hfixed := inboundLimit_after limit before
    rcases (acquire_answers hinv).2 hanswer with hfull | hne
    · have htotal := hinv.queues.line.total_of_single hothers
      have hshare := shares_after limit before
        (fun hnil => by rw [hnil] at hsources; exact absurd hsources (by decide)) t
      have hlt := waitLimit_lt (c := after limit before) (by omega) hsources t
      omega
    · exact hne (hothers _ (Ne.symm ht))

/-- One of two configured sources takes both slots and its share of the queue. -/
def Sample.crowded : List Action :=
  [.configure ["a", "b"], .acquire (some "a"), .acquire (some "a"), .acquire (some "a")]

/-- A release serves the other source, which stands before the head of `a`, once and with its
first call; where `a` has filled its share and is refused, `b` is not. -/
theorem inbound_sources_fair_contended :
    (after 2 Sample.contended).inboundWaiters.queue "a" = [3] ∧
      (((after 2 Sample.contended).grantsDuring [.release 0]).map Prod.fst).count "b" ≤ 1 ∧
      ((after 2 Sample.contended).step (.release 0)).2.grants = [("b", 2)] ∧
      (∀ j ∈ (after 2 Sample.contended).inboundWaiters.queue "b", 2 ≤ j) ∧
      ((after 2 Sample.crowded).step (.acquire (some "a"))).2.answer =
        .returned (.refused .queueFull) ∧
      ((after 2 Sample.crowded).step (.acquire (some "b"))).2.answer ≠
        .returned (.refused .queueFull) := by
  have hqueue : (after 2 Sample.contended).inboundWaiters.queue "a" = [3] := by decide +kernel
  have hgrants : ((after 2 Sample.contended).step (.release 0)).2.grants = [("b", 2)] := by
    decide +kernel
  obtain ⟨hwindow, hfirst, -, -⟩ := inbound_sources_fair 2 Sample.contended
  refine ⟨hqueue, hwindow "a" 3 [] [.release 0] hqueue ?_ "b" (by decide), hgrants,
    (hfirst (.release 0) "b" 2 (hgrants ▸ mem_cons_self)).2, by decide +kernel,
    (inbound_sources_fair 2 Sample.crowded).2.2.2 (by decide) (by decide +kernel) _ "a"
      (by decide) ?_⟩
  · intro pre a post heq
    cases pre with
    | nil =>
      exact mem_cons_self
    | cons b pre => cases pre <;> cases heq
  · intro s hs
    have horder : (after 2 Sample.crowded).inboundWaiters.order = ["a"] := by decide +kernel
    by_contra hne
    have hmem := ((inv_after 2 Sample.crowded).queues.line.mem_order s).mpr hne
    exact hs (mem_singleton.mp hmem)

end CapacityController

end Medre.Supervision
