import Medre.Supervision.Capacity

/-! # The accounts of inbound admission

`Slots` ties the counters to the calls that have a slot, `Queues` ties the line and its queues
to the calls that wait. -/

namespace Medre.Supervision

open List Medre.Framework

/-! ## Counting -/

theorem countP_modify {α : Type} {l : List α} {i : ℕ} {a : α} (h : l[i]? = some a)
    (f : α → α) (p : α → Bool) :
    (l.modify i f).countP p + (p a).toNat = l.countP p + (p (f a)).toNat := by
  induction l generalizing i with
  | nil => cases h
  | cons b l ih =>
    cases i with
    | zero =>
      cases h
      rw [modify_zero_cons, countP_cons, countP_cons]
      cases p a <;> cases p (f a) <;> simp
    | succ i =>
      have hrest := ih (by simpa using h)
      rw [modify_succ_cons, countP_cons, countP_cons]
      omega

theorem getElem?_modify_self {α : Type} {l : List α} {i : ℕ} {a : α} (h : l[i]? = some a)
    (f : α → α) : (l.modify i f)[i]? = some (f a) := by
  rw [getElem?_modify, h]
  simp

theorem getElem?_modify_ne {α : Type} {l : List α} {i j : ℕ} (h : j ≠ i) (f : α → α) :
    (l.modify i f)[j]? = l[j]? := by
  simp [h.symm]

theorem mem_modify {α : Type} {l : List α} {i : ℕ} {a b : α} (h : l[i]? = some a) {f : α → α}
    (hb : b ∈ l.modify i f) : b = f a ∨ b ∈ l := by
  obtain ⟨j, hj⟩ := mem_iff_getElem?.mp hb
  by_cases hji : j = i
  · subst hji
    rw [getElem?_modify_self h] at hj
    exact .inl (Option.some.inj hj).symm
  · rw [getElem?_modify_ne hji] at hj
    exact .inr (mem_of_getElem? hj)

section Counters

variable {d : Dict String ℕ} {k s : String}

theorem countOf_setdefault : countOf (setdefault d k) s = countOf d s := by
  unfold setdefault
  split
  · rfl
  · rename_i hk
    unfold countOf
    rw [Dict.get?_set]
    split
    · rename_i hs
      rw [hs, Dict.get?_eq_none.mpr hk]
      rfl
    · rfl

theorem total_setdefault : (setdefault d k).total id = d.total id := by
  unfold setdefault
  split
  · rfl
  · rename_i hk
    have h := Dict.total_set (d := d) (k := k) (v := 0) (f := id)
    rw [Dict.get?_eq_none.mpr hk] at h
    simpa using h

theorem countOf_increment : countOf (increment d k) s = countOf d s + (decide (k = s)).toNat := by
  unfold increment countOf
  rw [Dict.get?_set]
  by_cases hs : s = k
  · simp [hs]
  · simp [hs, Ne.symm hs]

theorem total_increment : (increment d k).total id = d.total id + 1 := by
  have h := Dict.total_set (d := d) (k := k) (v := countOf d k + 1) (f := id)
  rw [Option.map_id_apply] at h
  show (d.set k (countOf d k + 1)).total id = _
  unfold countOf at h ⊢
  simp only [id] at h
  omega

theorem countOf_decrement (hpos : 0 < countOf d k) :
    countOf (decrement d k) s + (decide (k = s)).toNat = countOf d s := by
  unfold decrement countOf at *
  rw [Dict.get?_set]
  by_cases hs : s = k
  · subst hs
    simp only [if_true, decide_true, Bool.toNat_true, Option.getD_some]
    omega
  · simp [hs, Ne.symm hs]

theorem total_decrement (hpos : 0 < countOf d k) : (decrement d k).total id + 1 = d.total id := by
  have h := Dict.total_set (d := d) (k := k) (v := countOf d k - 1) (f := id)
  rw [Option.map_id_apply] at h
  show (d.set k (countOf d k - 1)).total id + 1 = _
  unfold countOf at *
  simp only [id] at h
  omega

end Counters

/-! ## The slots -/

namespace CapacityController

def holdsFrom (s : String) (w : Call) : Bool := w.holds && w.source = s

/-- The counters are those of the calls that have a slot. -/
structure Slots (c : CapacityController) : Prop where
  active : c.inboundCurrent = c.calls.countP Call.holds
  perSource : ∀ s, countOf c.inboundCurrentBySource s = c.calls.countP (holdsFrom s)
  total : c.inboundCurrentBySource.total id = c.inboundCurrent

variable {c c' : CapacityController} {i : ℕ} {w : Call} {f : Call → Call}

theorem Slots.of_modify (h : c.Slots) (hw : c.calls[i]? = some w)
    (hcalls : c'.calls = c.calls.modify i f)
    (hcurrent : c'.inboundCurrent + w.holds.toNat = c.inboundCurrent + (f w).holds.toNat)
    (hby : ∀ s, countOf c'.inboundCurrentBySource s + (holdsFrom s w).toNat =
      countOf c.inboundCurrentBySource s + (holdsFrom s (f w)).toNat)
    (htotal : c'.inboundCurrentBySource.total id + w.holds.toNat =
      c.inboundCurrentBySource.total id + (f w).holds.toNat) : c'.Slots := by
  have hcount := countP_modify hw f
  rw [← hcalls] at hcount
  have hactive := h.active
  have htotal' := h.total
  refine ⟨?_, fun s => ?_, ?_⟩
  · have hholds := hcount Call.holds
    omega
  · have hholds := hcount (holdsFrom s)
    have hper := h.perSource s
    have hper' := hby s
    omega
  · omega

theorem Slots.keep (h : c.Slots) (hw : c.calls[i]? = some w) (hsource : (f w).source = w.source)
    (hholds : (f w).holds = w.holds) (hcalls : c'.calls = c.calls.modify i f)
    (hcurrent : c'.inboundCurrent = c.inboundCurrent)
    (hby : c'.inboundCurrentBySource = c.inboundCurrentBySource) : c'.Slots := by
  refine h.of_modify hw hcalls (by rw [hcurrent, hholds]) (fun s => ?_) (by rw [hby, hholds])
  rw [hby, holdsFrom, holdsFrom, hholds, hsource]

theorem Slots.enter (h : c.Slots) (hcalls : c'.calls = c.calls ++ [w])
    (hcurrent : c'.inboundCurrent = c.inboundCurrent + w.holds.toNat)
    (hby : ∀ s, countOf c'.inboundCurrentBySource s =
      countOf c.inboundCurrentBySource s + (holdsFrom s w).toNat)
    (htotal : c'.inboundCurrentBySource.total id =
      c.inboundCurrentBySource.total id + w.holds.toNat) : c'.Slots := by
  have hcount : ∀ p : Call → Bool, (c.calls ++ [w]).countP p = c.calls.countP p + (p w).toNat := by
    intro p
    rw [countP_append, countP_singleton]
    cases p w <;> rfl
  refine ⟨?_, ?_, ?_⟩
  · rw [hcalls, hcount, hcurrent, h.active]
  · intro s
    rw [hcalls, hcount, hby, h.perSource]
  · rw [htotal, h.total, hcurrent]

/-! ## The queues -/

/-- The line and its queues hold the calls that wait, in the order they came. -/
structure Queues (c : CapacityController) : Prop where
  line : c.inboundWaiters.WF
  mem_queue : ∀ s i, i ∈ c.inboundWaiters.queue s ↔
    ∃ w, c.calls[i]? = some w ∧ w.waits = true ∧ w.source = s
  sorted : ∀ s, (c.inboundWaiters.queue s).Pairwise (· < ·)
  waiting : c.inboundWaiters.total = c.calls.countP Call.waits

theorem Queues.keep (h : c.Queues) (hw : c.calls[i]? = some w)
    (hsource : (f w).source = w.source) (hwaits : (f w).waits = w.waits)
    (hcalls : c'.calls = c.calls.modify i f) (hwaiters : c'.inboundWaiters = c.inboundWaiters) :
    c'.Queues := by
  refine ⟨hwaiters ▸ h.line, ?_, hwaiters ▸ h.sorted, ?_⟩
  · intro s j
    rw [hwaiters, h.mem_queue s j, hcalls]
    by_cases hj : j = i
    · subst hj
      rw [getElem?_modify_self hw, hw]
      simp [hwaits, hsource]
    · rw [getElem?_modify_ne hj]
  · have hcount := countP_modify hw f Call.waits
    have hwaiting := h.waiting
    rw [hwaits] at hcount
    rw [hwaiters, hcalls]
    omega

theorem Queues.resolve (h : c.Queues) (hw : c.calls[i]? = some w) (hbefore : w.waits = true)
    (hafter : (f w).waits = false) (hcalls : c'.calls = c.calls.modify i f)
    (hline : c'.inboundWaiters.WF) (htotal : c'.inboundWaiters.total = c.inboundWaiters.total - 1)
    (hqueue : ∀ s, c'.inboundWaiters.queue s =
      if s = w.source then (c.inboundWaiters.queue s).erase i else c.inboundWaiters.queue s) :
    c'.Queues := by
  have hsub : ∀ s, (c'.inboundWaiters.queue s).Sublist (c.inboundWaiters.queue s) := by
    intro s
    rw [hqueue]
    split
    · exact erase_sublist
    · exact List.Sublist.refl _
  refine ⟨hline, ?_, fun s => (h.sorted s).sublist (hsub s), ?_⟩
  · intro s j
    rw [hcalls]
    by_cases hj : j = i
    · subst hj
      rw [getElem?_modify_self hw]
      constructor
      · -- it is in no other queue, and in its own only once
        intro hmem
        obtain ⟨w', hw', -, hs⟩ := (h.mem_queue s j).mp ((hsub s).subset hmem)
        cases hw.symm.trans hw'
        have hnodup : (c.inboundWaiters.queue s).Nodup :=
          (h.sorted s).imp fun hlt => Nat.ne_of_lt hlt
        rw [hqueue, if_pos hs.symm] at hmem
        exact absurd hmem hnodup.not_mem_erase
      · rintro ⟨w', hw', hwaits, -⟩
        cases hw'
        rw [hafter] at hwaits
        cases hwaits
    · rw [getElem?_modify_ne hj, ← h.mem_queue s j, hqueue]
      split
      · exact mem_erase_of_ne hj
      · exact Iff.rfl
  · have hcount := countP_modify hw f Call.waits
    have hwaiting := h.waiting
    rw [hbefore, hafter, Bool.toNat_false, Bool.toNat_true] at hcount
    rw [htotal, hcalls]
    omega

theorem Queues.enter (h : c.Queues) (hcalls : c'.calls = c.calls ++ [w])
    (hwaits : w.waits = false) (hwaiters : c'.inboundWaiters = c.inboundWaiters) :
    c'.Queues := by
  refine ⟨hwaiters ▸ h.line, ?_, hwaiters ▸ h.sorted, ?_⟩
  · intro s j
    rw [hwaiters, h.mem_queue s j, hcalls]
    rcases Nat.lt_trichotomy j c.calls.length with hj | hj | hj
    · rw [getElem?_append_left hj]
    · subst hj
      simp [hwaits]
    · rw [getElem?_eq_none (Nat.le_of_lt hj), getElem?_eq_none]
      rw [length_append, length_singleton]
      exact hj
  · rw [hwaiters, hcalls, countP_append, countP_singleton, hwaits, h.waiting]
    rfl

theorem Queues.push (h : c.Queues) (hcalls : c'.calls = c.calls ++ [w]) (hwaits : w.waits = true)
    (hwaiters : c'.inboundWaiters = c.inboundWaiters.push w.source c.calls.length) :
    c'.Queues := by
  have hbound : ∀ s, ∀ j ∈ c.inboundWaiters.queue s, j < c.calls.length := by
    intro s j hj
    obtain ⟨w', hw', -⟩ := (h.mem_queue s j).mp hj
    exact (List.getElem?_eq_some_iff.mp hw').1
  refine ⟨hwaiters ▸ h.line.push _ _, ?_, ?_, ?_⟩
  · intro s j
    rw [hwaiters, RoundRobin.queue_push, hcalls]
    rcases Nat.lt_trichotomy j c.calls.length with hj | hj | hj
    · rw [getElem?_append_left hj, ← h.mem_queue s j]
      split
      · rename_i hs
        rw [mem_append, mem_singleton, hs]
        exact or_iff_left (Nat.ne_of_lt hj)
      · exact Iff.rfl
    · subst hj
      have hout : c.calls.length ∉ c.inboundWaiters.queue s :=
        fun hmem => Nat.lt_irrefl _ (hbound s _ hmem)
      by_cases hs : s = w.source
      · simp [hs, hwaits]
      · simp [hs, hout, Ne.symm hs]
    · have hlen : (c.calls ++ [w])[j]? = none := by
        rw [getElem?_eq_none]
        rw [length_append, length_singleton]
        exact hj
      have hout : ∀ s, j ∉ c.inboundWaiters.queue s :=
        fun s hmem => Nat.lt_asymm hj (hbound s _ hmem)
      rw [hlen]
      split <;> simp [hout, Nat.ne_of_gt hj]
  · intro s
    rw [hwaiters, RoundRobin.queue_push]
    split
    · rw [pairwise_append]
      refine ⟨h.sorted w.source, pairwise_singleton _ _, ?_⟩
      intro j hj k hk
      rw [mem_singleton.mp hk]
      exact hbound _ j hj
    · exact h.sorted s
  · rw [hwaiters, hcalls, countP_append, countP_singleton, hwaits]
    show c.inboundWaiters.total + 1 = _
    rw [h.waiting]
    rfl

/-! ## The grant loop -/

/-- What holds between two rounds of the grant loop. -/
structure Core (c : CapacityController) : Prop where
  slots : c.Slots
  queues : c.Queues
  bounded : c.inboundCurrent ≤ c.inboundLimit
  resolved : ∀ w ∈ c.calls, w.stage = .parked → (w.granted = true ↔ w.future = some .granted)

/-- While inbound work is accepted, somebody waits only when no slot is free. -/
def Full (c : CapacityController) : Prop :=
  c.inboundAccepting = true → 0 < c.inboundWaiters.total → c.inboundCurrent = c.inboundLimit

theorem canGrant_iff : c.canGrant = true ↔ c.inboundCurrent < c.inboundLimit ∧
    0 < c.inboundWaiters.total ∧ c.inboundWaiters.order ≠ [] := by
  simp [canGrant, and_assoc]

theorem Core.next_call (h : c.Core) (hcan : c.canGrant = true) :
    ∃ source rest i as w, c.inboundWaiters.order = source :: rest ∧
      c.inboundWaiters.queue source = i :: as ∧ c.calls[i]? = some w ∧ w.waits = true ∧
      w.granted = false ∧ w.source = source ∧ c.inboundWaiters.next.2 = some (source, i) := by
  obtain ⟨-, -, horder⟩ := canGrant_iff.mp hcan
  rcases h.queues.line.next_cases with ⟨hnil, -⟩ | ⟨source, rest, i, as, hline, hqueue, heq⟩
  · exact absurd hnil horder
  · obtain ⟨w, hw, hwaits, hsource⟩ :=
      (h.queues.mem_queue source i).mp (hqueue ▸ mem_cons_self)
    refine ⟨source, rest, i, as, w, hline, hqueue, hw, hwaits, ?_, hsource, by rw [heq]⟩
    simp only [Call.waits, Bool.and_eq_true, decide_eq_true_eq, Option.isNone_iff_eq_none] at hwaits
    rw [← Bool.not_eq_true, h.resolved w (mem_of_getElem? hw) hwaits.1, hwaits.2]
    exact nofun

theorem grantNext_eq {source : String} (hnext : c.inboundWaiters.next.2 = some (source, i)) :
    c.grantNext =
      if c.inboundAccepting then
        (({ c with inboundWaiters := c.inboundWaiters.next.1 }.recordInboundGrant
          source).withCall i fun w => setResult .granted { w with granted := true },
          some (source, i))
      else
        (({ c with inboundWaiters := c.inboundWaiters.next.1 }.recordInboundRejection
          source).withCall i (setResult (.refused .closed)), none) := by
  unfold grantNext
  split
  · rename_i heq
    rw [heq] at hnext
    cases hnext
  · rename_i heq
    rw [heq] at hnext ⊢
    cases hnext
    rfl

theorem Core.of_grantNext (h : c.Core) (hcan : c.canGrant = true) :
    c.grantNext.1.Core ∧
      c.grantNext.1.inboundWaiters.total = c.inboundWaiters.total - 1 := by
  obtain ⟨source, rest, i, as, w, hline, hqueue, hw, hwaits, hgranted, rfl, hnext⟩ :=
    h.next_call hcan
  have htotal := RoundRobin.total_next hline hqueue
  have hqueues : ∀ s, c.inboundWaiters.next.1.queue s =
      if s = w.source then (c.inboundWaiters.queue s).erase i else c.inboundWaiters.queue s := by
    intro s
    rw [RoundRobin.queue_next hline hqueue]
    split
    · rename_i hs
      rw [hs, hqueue, erase_cons_head]
    · rfl
  obtain ⟨hparked, hfuture⟩ : w.stage = .parked ∧ w.future = none := by
    simpa [Call.waits] using hwaits
  have hbound := (canGrant_iff.mp hcan).1
  rw [grantNext_eq hnext]
  split
  · -- the waiter gets the slot
    refine ⟨⟨?_, ?_, hbound, ?_⟩, htotal⟩
    · have hbefore : w.holds = false := by simp [Call.holds, hparked, hgranted]
      have hafter : (setResult .granted { w with granted := true }).holds = true := by
        simp [Call.holds, setResult, hparked]
      refine h.slots.of_modify hw rfl (by rw [hbefore, hafter]; rfl) (fun s => ?_) ?_
      · simp only [holdsFrom, hbefore, hafter]
        exact countOf_increment
      · rw [hbefore, hafter]
        exact total_increment
    · exact h.queues.resolve hw hwaits (by simp [Call.waits, setResult]) rfl h.queues.line.next
        htotal hqueues
    · intro w' hw' hstage
      rcases mem_modify hw hw' with rfl | hold
      · simp [setResult, hfuture]
      · exact h.resolved w' hold hstage
  · -- admission is closed
    refine ⟨⟨?_, ?_, h.bounded, ?_⟩, htotal⟩
    · exact h.slots.keep hw rfl rfl rfl rfl rfl
    · exact h.queues.resolve hw hwaits (by simp [Call.waits, setResult]) rfl h.queues.line.next
        htotal hqueues
    · intro w' hw' hstage
      rcases mem_modify hw hw' with rfl | hold
      · simp [setResult, hfuture, hgranted]
      · exact h.resolved w' hold hstage

theorem Core.of_grantRounds (h : c.Core) (n : ℕ) : (grantRounds n c).1.Core := by
  induction n generalizing c with
  | zero => exact h
  | succ n ih =>
    unfold grantRounds
    split
    · exact ih (h.of_grantNext ‹_›).1
    · exact h

theorem Core.grantRounds_done (h : c.Core) {n : ℕ} (hn : c.inboundWaiters.total ≤ n) :
    (grantRounds n c).1.canGrant = false := by
  induction n generalizing c with
  | zero =>
    rw [← Bool.not_eq_true]
    intro hcan
    have hpos : 0 < c.inboundWaiters.total := (canGrant_iff.mp hcan).2.1
    omega
  | succ n ih =>
    unfold grantRounds
    split
    · rename_i hcan
      obtain ⟨hcore, htotal⟩ := h.of_grantNext hcan
      exact ih hcore (by omega)
    · exact Bool.not_eq_true _ ▸ ‹_›

theorem Core.full_of_done (h : c.Core) (hdone : c.canGrant = false) : c.Full := by
  intro _ hpos
  have horder : c.inboundWaiters.order ≠ [] := by
    intro hnil
    rw [h.queues.line.order_eq_nil_iff.mp hnil] at hpos
    cases hpos
  by_contra hne
  have hcan := canGrant_iff.mpr ⟨lt_of_le_of_ne h.bounded hne, hpos, horder⟩
  rw [hdone] at hcan
  cases hcan

/-- The invariant of the controller outside its lock. -/
structure Inv (c : CapacityController) : Prop extends c.Core where
  full : c.Full

theorem Core.inv_grant (h : c.Core) : c.grantInboundWaiters.1.Inv :=
  ⟨h.of_grantRounds _,
    (h.of_grantRounds _).full_of_done (h.grantRounds_done (Nat.le_add_right _ _))⟩

theorem grantInboundWaiters_of_done (hdone : c.canGrant = false) :
    c.grantInboundWaiters = (c, []) := by
  unfold grantInboundWaiters
  generalize c.inboundWaiters.total + c.inboundWaiters.order.length = n
  cases n with
  | zero => rfl
  | succ n => rw [grantRounds, if_neg (Bool.eq_false_iff.mp hdone)]

/-! ## The actions -/

theorem Core.ensure (h : c.Core) (s : String) : (c.ensureInboundSource s).Core where
  slots := ⟨h.slots.active, fun _ => countOf_setdefault.trans (h.slots.perSource _),
    total_setdefault.trans h.slots.total⟩
  queues := ⟨h.queues.line, h.queues.mem_queue, h.queues.sorted, h.queues.waiting⟩
  bounded := h.bounded
  resolved := h.resolved

theorem Inv.ensure (h : c.Inv) (s : String) : (c.ensureInboundSource s).Inv :=
  ⟨h.toCore.ensure s, h.full⟩

/-- What the body of `acquire_inbound` may do once its source is known. -/
inductive Arrives (c : CapacityController) (source : String) :
    CapacityController → Outcome → Prop
  | closed (h : c.inboundAccepting = false) :
      Arrives c source ((c.recordInboundRejection source).withNew { source, stage := .left })
        { answer := .returned (.refused .closed) }
  | granted (h : c.inboundAccepting = true) (hfree : c.inboundCurrent < c.inboundLimit)
      (hnobody : c.inboundWaiters.total = 0) :
      Arrives c source ((c.recordInboundGrant source).withNew { source, stage := .holding })
        { answer := .returned .granted }
  | queueFull (h : c.inboundAccepting = true) (hfull : c.inboundCurrent = c.inboundLimit)
      (hbound : c.inboundLimit ≤ c.inboundWaiters.total ∨
        c.inboundSourceWaitLimit source ≤ (c.inboundWaiters.queue source).length) :
      Arrives c source ((c.recordInboundRejection source).withNew { source, stage := .left })
        { answer := .returned (.refused .queueFull) }
  | queued (h : c.inboundAccepting = true) (hfull : c.inboundCurrent = c.inboundLimit)
      (hroom : (c.inboundWaiters.queue source).length < c.inboundSourceWaitLimit source) :
      Arrives c source (c.enqueue source) { answer := .suspended }

/-- No arrival grants a queued call: a slot is free only when nobody waits, and then the
arrival gets it at once. -/
theorem Inv.arrives (h : c.Inv) (source : String) :
    c.Arrives source (c.arrive source).1 (c.arrive source).2 := by
  unfold arrive
  cases haccepting : c.inboundAccepting with
  | false => exact .closed haccepting
  | true =>
    rw [Bool.not_true, if_neg Bool.false_ne_true]
    split
    · rename_i hfree
      rw [Bool.and_eq_true, decide_eq_true_eq, decide_eq_true_eq] at hfree
      exact .granted haccepting hfree.1 hfree.2
    · rename_i hbusy
      have hfull : c.inboundCurrent = c.inboundLimit := by
        rw [Bool.and_eq_true, decide_eq_true_eq, decide_eq_true_eq] at hbusy
        have hbound := h.bounded
        by_cases hnobody : c.inboundWaiters.total = 0
        · omega
        · exact h.full haccepting (Nat.pos_of_ne_zero hnobody)
      split
      · rename_i hbound
        rw [Bool.or_eq_true, decide_eq_true_eq, decide_eq_true_eq] at hbound
        exact .queueFull haccepting hfull hbound
      · rename_i hroom
        rw [Bool.or_eq_true, decide_eq_true_eq, decide_eq_true_eq, not_or, not_le, not_le] at hroom
        have hdone : (c.enqueue source).canGrant = false := by
          rw [← Bool.not_eq_true]
          intro hcan
          have hlt : c.inboundCurrent < c.inboundLimit := (canGrant_iff.mp hcan).1
          omega
        simp only [grantInboundWaiters_of_done hdone]
        have hnew : ((c.enqueue source).calls[c.calls.length]?).any Call.granted = false := by
          simp [enqueue, withNew]
        rw [if_neg (Bool.eq_false_iff.mp hnew)]
        exact .queued haccepting hfull hroom.2

theorem Core.resolved_new (h : c.Core) (hw : w.stage = .parked → (w.granted = true ↔
    w.future = some .granted)) : ∀ w' ∈ c.calls ++ [w], w'.stage = .parked →
      (w'.granted = true ↔ w'.future = some .granted) := by
  intro w' hw'
  rcases mem_append.mp hw' with hold | hnew
  · exact h.resolved w' hold
  · rw [mem_singleton.mp hnew]
    exact hw

theorem Inv.refuse (h : c.Inv) (source : String) :
    ((c.recordInboundRejection source).withNew { source, stage := .left }).Inv where
  slots := h.slots.enter rfl rfl (fun _ => rfl) rfl
  queues := h.queues.enter rfl rfl rfl
  bounded := h.bounded
  resolved := h.resolved_new nofun
  full := h.full

theorem Inv.of_arrive (h : c.Inv) (source : String) : (c.arrive source).1.Inv := by
  have harrives := h.arrives source
  generalize (c.arrive source).1 = c', (c.arrive source).2 = o at harrives ⊢
  cases harrives with
  | closed haccepting => exact h.refuse source
  | granted haccepting hfree hnobody =>
    refine ⟨⟨?_, ?_, hfree, h.resolved_new nofun⟩, ?_⟩
    · exact h.slots.enter rfl rfl (fun s => countOf_increment) total_increment
    · exact h.queues.enter rfl rfl rfl
    · intro _ hpos
      exact absurd hnobody (Nat.ne_of_gt hpos)
  | queueFull haccepting hfull hbound => exact h.refuse source
  | queued haccepting hfull hroom =>
    refine ⟨⟨?_, ?_, h.bounded, h.resolved_new fun _ => ?_⟩, fun _ _ => hfull⟩
    · exact h.slots.enter rfl rfl (fun _ => rfl) rfl
    · exact h.queues.push rfl rfl rfl
    · exact ⟨nofun, nofun⟩

section

variable (hw : c.calls[i]? = some w)

include hw

theorem Core.parked_cases (h : c.Core) (hparked : w.stage = .parked) :
    (w.waits = true ∧ w.granted = false) ∨ (w.granted = true ∧ w.future = some .granted) ∨
      ∃ reason, w.granted = false ∧ w.future = some (.refused reason) := by
  have hresolved := h.resolved w (mem_of_getElem? hw) hparked
  cases hfuture : w.future with
  | none =>
    rw [hfuture] at hresolved
    exact .inl ⟨by simp [Call.waits, hparked, hfuture], by simpa using hresolved⟩
  | some r =>
    rw [hfuture] at hresolved
    cases r with
    | granted => exact .inr (.inl ⟨hresolved.mpr rfl, rfl⟩)
    | refused reason => exact .inr (.inr ⟨reason, by simpa using hresolved, rfl⟩)

theorem Core.resolved_left (h : c.Core)
    (hf : (f w).stage ≠ .parked) : ∀ w' ∈ c.calls.modify i f, w'.stage = .parked →
      (w'.granted = true ↔ w'.future = some .granted) := by
  intro w' hw' hstage
  rcases mem_modify hw hw' with rfl | hold
  · exact absurd hstage hf
  · exact h.resolved w' hold hstage

theorem Inv.of_returning (h : c.Inv) (hparked : w.stage = .parked)
    {r : InboundAdmissionResult} (hfuture : w.future = some r) : (c.returning i r).1.Inv := by
  have hresolved := h.resolved w (mem_of_getElem? hw) hparked
  have hwaits : w.waits = false := by simp [Call.waits, hfuture]
  refine ⟨⟨?_, ?_, h.bounded, h.resolved_left hw ?_⟩, h.full⟩
  · refine h.slots.keep hw rfl ?_ rfl rfl rfl
    rw [hfuture, Option.some.injEq] at hresolved
    by_cases hr : r = .granted
    · simp [Call.holds, hr, hparked, hresolved.mpr hr]
    · have hgranted : w.granted = false := by simpa [hr] using hresolved
      simp [Call.holds, hr, hparked, hgranted]
  · refine h.queues.keep hw rfl ?_ rfl rfl
    simp [Call.waits, hfuture]
  · split <;> exact nofun

theorem Queues.mem_of_waits (h : c.Queues) :
    i ∈ c.inboundWaiters.queue w.source ↔ w.waits = true := by
  rw [h.mem_queue]
  constructor
  · rintro ⟨w', hw', hwaits, -⟩
    cases hw.symm.trans hw'
    exact hwaits
  · intro hwaits
    exact ⟨w, hw, hwaits, rfl⟩

theorem Inv.leave (h : c.Inv) (hwaits : w.waits = true) (hgranted : w.granted = false)
    (hwaiters : c'.inboundWaiters = (c.inboundWaiters.remove w.source i).1)
    (hcalls : c'.calls = c.calls.modify i f) (hf : ∀ w, f w = { w with stage := .left })
    (hlimit : c'.inboundLimit = c.inboundLimit)
    (haccepting : c'.inboundAccepting = c.inboundAccepting)
    (hcurrent : c'.inboundCurrent = c.inboundCurrent)
    (hby : c'.inboundCurrentBySource = c.inboundCurrentBySource) : c'.Inv := by
  have hmem := (h.queues.mem_of_waits hw).mpr hwaits
  have hparked : w.stage = .parked := by
    simp only [Call.waits, Bool.and_eq_true, decide_eq_true_eq] at hwaits
    exact hwaits.1
  have htotal : c'.inboundWaiters.total = c.inboundWaiters.total - 1 := by
    rw [hwaiters, RoundRobin.remove_eq hmem]
  refine ⟨⟨?_, ?_, ?_, ?_⟩, ?_⟩
  · refine h.slots.keep hw (by rw [hf]) ?_ hcalls hcurrent hby
    simp [hf, Call.holds, hparked, hgranted]
  · refine h.queues.resolve hw hwaits (by simp [hf, Call.waits]) hcalls ?_ htotal ?_
    · rw [hwaiters]
      exact h.queues.line.remove hmem
    · intro s
      rw [hwaiters, RoundRobin.queue_remove hmem]
      by_cases hs : s = w.source
      · rw [if_pos hs, if_pos hs, hs]
      · rw [if_neg hs, if_neg hs]
  · rw [hcurrent, hlimit]
    exact h.bounded
  · rw [hcalls]
    exact h.resolved_left hw (by simp [hf])
  · intro haccepts hpos
    rw [hcurrent, hlimit]
    exact h.full (haccepting ▸ haccepts) (by omega)

theorem Inv.of_wake (h : c.Inv) (hparked : w.stage = .parked) : (c.wake i w).1.Inv := by
  unfold wake
  split
  · exact h
  · exact h.of_returning hw hparked ‹_›

theorem Inv.of_timeoutInbound (h : c.Inv) (hparked : w.stage = .parked) :
    (c.timeoutInbound i w).1.Inv := by
  unfold timeoutInbound
  rcases h.parked_cases hw hparked with ⟨hwaits, hgranted⟩ | ⟨hgranted, hfuture⟩ |
    ⟨reason, hgranted, hfuture⟩
  · have hmem := (h.queues.mem_of_waits hw).mpr hwaits
    have hremoved : (c.removeInboundWaiter w.source i).2 = true := by
      simp only [removeInboundWaiter, RoundRobin.remove_eq hmem]
    rw [if_neg (by simp [hgranted]), if_pos hremoved]
    exact h.leave hw hwaits hgranted rfl rfl (fun _ => rfl) rfl rfl rfl rfl
  · rw [if_pos hgranted]
    exact h.of_returning hw hparked hfuture
  · have hmem : i ∉ c.inboundWaiters.queue w.source := by
      rw [h.queues.mem_of_waits hw]
      simp [Call.waits, hfuture]
    have hkept : (c.removeInboundWaiter w.source i).2 = false := by
      simp only [removeInboundWaiter, RoundRobin.remove_of_not_mem hmem]
    rw [if_neg (by simp [hgranted]), if_neg (by simp [hkept]), hfuture]
    exact h.of_returning hw hparked hfuture

omit hw in
theorem Core.give (h : c.Core) (hw : c.calls[i]? = some w) (hholds : w.holds = true)
    (hsource : (f w).source = w.source) (hleft : (f w).stage = .left) :
    0 < countOf c.inboundCurrentBySource w.source ∧
      ((c.withCall i f).releaseInboundSlot w.source).Core := by
  have hwaits : w.waits = false := by
    have hresolved := h.resolved w (mem_of_getElem? hw)
    cases hstage : w.stage with
    | parked =>
      have hgranted : w.granted = true := by simpa [Call.holds, hstage] using hholds
      simp [Call.waits, (hresolved hstage).mp hgranted]
    | holding => simp [Call.waits, hstage]
    | left => simp [Call.holds, hstage] at hholds
  have hafter : (f w).holds = false := by simp [Call.holds, hleft]
  have hpos : 0 < countOf c.inboundCurrentBySource w.source := by
    rw [h.slots.perSource]
    exact countP_pos_iff.mpr ⟨w, mem_of_getElem? hw, by simp [holdsFrom, hholds]⟩
  have htotal := total_decrement hpos
  refine ⟨hpos, h.slots.of_modify hw rfl ?_ (fun s => ?_) ?_, h.queues.keep hw hsource ?_ rfl rfl,
    (Nat.sub_le _ _).trans h.bounded, h.resolved_left hw (by rw [hleft]; exact nofun)⟩
  · rw [hholds, hafter]
    have hactive := h.slots.total
    show c.inboundCurrent - 1 + 1 = c.inboundCurrent
    omega
  · simp only [holdsFrom, hholds, hafter, hsource, Bool.false_and, Bool.true_and]
    exact countOf_decrement hpos
  · rw [hholds, hafter]
    exact htotal
  · rw [hwaits]
    simp [Call.waits, hleft]

theorem Inv.of_cancelInbound (h : c.Inv) (hparked : w.stage = .parked) :
    (c.cancelInbound i w).1.Inv := by
  unfold cancelInbound
  rcases h.parked_cases hw hparked with ⟨hwaits, hgranted⟩ | ⟨hgranted, hfuture⟩ |
    ⟨reason, hgranted, hfuture⟩
  · rw [if_neg (by simp [hgranted])]
    exact h.leave hw hwaits hgranted rfl rfl (fun _ => rfl) rfl rfl rfl rfl
  · rw [if_pos hgranted]
    exact (h.give hw (by simp [Call.holds, hparked, hgranted]) rfl rfl).2.inv_grant
  · -- refused by the grant loop, which took it out of its queue
    have hmem : i ∉ c.inboundWaiters.queue w.source := by
      rw [h.queues.mem_of_waits hw]
      simp [Call.waits, hfuture]
    rw [if_neg (by simp [hgranted])]
    simp only [removeInboundWaiter, RoundRobin.remove_of_not_mem hmem]
    refine ⟨⟨?_, ?_, h.bounded, h.resolved_left hw nofun⟩, h.full⟩
    · exact h.slots.keep hw rfl (by simp [Call.holds, hparked, hgranted]) rfl rfl rfl
    · exact h.queues.keep hw rfl (by simp [Call.waits, hfuture]) rfl rfl

theorem Inv.of_releaseInbound (h : c.Inv)
    (hholding : w.stage = .holding) : (c.releaseInbound i w).1.Inv := by
  obtain ⟨hpos, hcore⟩ := (h.toCore.ensure w.source).give
    (f := fun w => { w with stage := .left }) hw (by simp [Call.holds, hholding]) rfl rfl
  have hserved : c.releaseInbound i w = _ := if_neg (Nat.ne_of_gt hpos)
  rw [hserved]
  exact hcore.inv_grant

end

theorem Inv.of_configure (h : c.Inv) {sourceIds : List String}
    (hc : c.configureInboundSources sourceIds = .ok c') : c'.Inv := by
  have hfold : ∀ (l : List String) (c : CapacityController), c.Inv →
      (l.foldl ensureInboundSource c).Inv := by
    intro l
    induction l with
    | nil => exact fun c h => h
    | cons s l ih => exact fun c h => ih _ (h.ensure s)
  unfold configureInboundSources at hc
  dsimp only at hc
  split at hc
  · split at hc
    · cases hc
      exact h
    · cases hc
  · split at hc
    · cases hc
    · cases hc
      exact hfold _ _ ⟨⟨⟨h.slots.active, h.slots.perSource, h.slots.total⟩,
        ⟨h.queues.line, h.queues.mem_queue, h.queues.sorted, h.queues.waiting⟩, h.bounded,
        h.resolved⟩, h.full⟩

theorem atStage_cases (c : CapacityController) (i : ℕ) (stage : Stage)
    (g : Call → CapacityController × Outcome) :
    c.atStage i stage g = (c, { answer := .idle }) ∨
      ∃ w, c.calls[i]? = some w ∧ w.stage = stage ∧ c.atStage i stage g = g w := by
  unfold atStage
  split
  · exact .inl rfl
  · rename_i w hw
    split
    · exact .inr ⟨w, hw, ‹_›, rfl⟩
    · exact .inl rfl

theorem Inv.of_atStage (h : c.Inv) {stage : Stage} {g : Call → CapacityController × Outcome}
    (hg : ∀ w, c.calls[i]? = some w → w.stage = stage → (g w).1.Inv) :
    (c.atStage i stage g).1.Inv := by
  rcases c.atStage_cases i stage g with hidle | ⟨w, hw, hstage, heq⟩
  · rw [hidle]
    exact h
  · rw [heq]
    exact hg w hw hstage

theorem step_configure (c : CapacityController) (sourceIds : List String) :
    c.step (.configure sourceIds) =
      match c.configureInboundSources sourceIds with
      | .ok c' => (c', { answer := .done })
      | .error text => (c, { answer := .raised text }) := rfl

theorem Inv.of_step (h : c.Inv) (a : Action) : (c.step a).1.Inv := by
  cases a with
  | configure sourceIds =>
    rw [step_configure]
    split
    · exact h.of_configure ‹_›
    · exact h
  | acquire sourceId => exact (h.ensure _).of_arrive _
  | wake i => exact h.of_atStage fun w hw => h.of_wake hw
  | timeout i => exact h.of_atStage fun w hw => h.of_timeoutInbound hw
  | cancel i => exact h.of_atStage fun w hw => h.of_cancelInbound hw
  | release i => exact h.of_atStage fun w hw => h.of_releaseInbound hw
  | stopAccepting =>
    exact ⟨⟨⟨h.slots.active, h.slots.perSource, h.slots.total⟩,
      ⟨h.queues.line, h.queues.mem_queue, h.queues.sorted, h.queues.waiting⟩, h.bounded,
      h.resolved⟩, nofun⟩

/-! ## What stays -/

/-- What the grant loop only reads. -/
def settings (c : CapacityController) : ℕ × List String × Bool × Bool :=
  (c.inboundLimit, c.inboundSources, c.inboundSourcesConfigured, c.inboundAccepting)

theorem settings_grantRounds {n : ℕ} (c : CapacityController) :
    (grantRounds n c).1.settings = c.settings := by
  induction n generalizing c with
  | zero => rfl
  | succ n ih =>
    unfold grantRounds
    split
    · refine (ih _).trans ?_
      unfold grantNext
      split
      · rfl
      · split <;> rfl
    · rfl

theorem settings_arrive (c : CapacityController) {source : String} :
    (c.arrive source).1.settings = c.settings := by
  unfold arrive
  split
  · rfl
  split
  · rfl
  split
  · rfl
  · dsimp only
    split <;> exact settings_grantRounds (c.enqueue source)

theorem settings_step (c : CapacityController) (a : Action) :
    (c.step a).1.settings = c.settings ∨
      (a = .stopAccepting ∧
        c.step a = ({ c with inboundAccepting := false }, { answer := .done })) ∨
      ∃ sourceIds c', a = .configure sourceIds ∧ c.configureInboundSources sourceIds = .ok c' ∧
        c.step a = (c', { answer := .done }) := by
  have hcall : ∀ (i : ℕ) (stage : Stage) (g : Call → CapacityController × Outcome),
      (∀ w, (g w).1.settings = c.settings) → (c.atStage i stage g).1.settings = c.settings := by
    intro i stage g hg
    rcases c.atStage_cases i stage g with hidle | ⟨w, -, -, heq⟩
    · rw [hidle]
    · rw [heq]
      exact hg w
  cases a with
  | configure sourceIds =>
    cases hc : c.configureInboundSources sourceIds with
    | ok c' => exact .inr (.inr ⟨sourceIds, c', rfl, hc, by rw [step_configure, hc]⟩)
    | error text => exact .inl (by rw [step_configure, hc])
  | acquire sourceId =>
    exact .inl (settings_arrive (c.ensureInboundSource _))
  | wake i =>
    refine .inl (hcall i _ _ fun w => ?_)
    unfold wake
    split <;> rfl
  | timeout i =>
    refine .inl (hcall i _ _ fun w => ?_)
    unfold timeoutInbound
    split
    · rfl
    split
    · rfl
    · split <;> rfl
  | cancel i =>
    refine .inl (hcall i _ _ fun w => ?_)
    unfold cancelInbound
    split
    · exact settings_grantRounds _
    · rfl
  | release i =>
    refine .inl (hcall i _ _ fun w => ?_)
    unfold releaseInbound
    dsimp only
    split
    · rfl
    · exact settings_grantRounds _
  | stopAccepting => exact .inr (.inl ⟨rfl, rfl⟩)

theorem foldl_ensure (l : List String) (c : CapacityController) :
    (l.foldl ensureInboundSource c).settings = c.settings ∧
      (l.foldl ensureInboundSource c).inboundWaiters = c.inboundWaiters := by
  induction l generalizing c with
  | nil => exact ⟨rfl, rfl⟩
  | cons s l ih => exact ih (c.ensureInboundSource s)

/-- A configuration that is accepted is the one there is, or comes before all work. -/
theorem configure_cases {sourceIds : List String}
    (h : c.configureInboundSources sourceIds = .ok c') :
    c' = c ∨ (c.inboundSourcesConfigured = false ∧ c.inboundWaiters.total = 0 ∧
      c'.inboundSourcesConfigured = true ∧ c'.inboundLimit = c.inboundLimit ∧
      c'.inboundWaiters = c.inboundWaiters) := by
  unfold configureInboundSources at h
  dsimp only at h
  split at h
  · split at h
    · exact .inl (Except.ok.inj h).symm
    · cases h
  · rename_i hconfigured
    split at h
    · cases h
    · rename_i hwork
      cases h
      obtain ⟨hsettings, hwaiters⟩ := foldl_ensure (normalizedSources sourceIds)
        { c with inboundSources := normalizedSources sourceIds, inboundSourcesConfigured := true }
      simp only [settings, Prod.mk.injEq] at hsettings
      rw [not_or, not_not, not_not] at hwork
      exact .inr ⟨Bool.eq_false_iff.mpr hconfigured, hwork.2, hsettings.2.2.1, hsettings.1,
        hwaiters⟩

theorem step_inboundLimit (c : CapacityController) (a : Action) :
    (c.step a).1.inboundLimit = c.inboundLimit := by
  rcases settings_step c a with hsame | ⟨-, heq⟩ | ⟨sourceIds, c', -, hc, heq⟩
  · exact congrArg Prod.fst hsame
  · rw [heq]
  · rw [heq]
    rcases configure_cases hc with rfl | ⟨-, -, -, hlimit, -⟩
    · rfl
    · exact hlimit

/-! ## Every run -/

/-- The controller after a list of actions. -/
def after (limit : ℕ) (actions : List Action) : CapacityController :=
  run step { inboundLimit := limit } actions

theorem inv_after (limit : ℕ) (actions : List Action) : (after limit actions).Inv := by
  refine run_invariant (I := Inv) (fun _ a h => h.of_step a) ?_ actions
  refine ⟨⟨⟨rfl, fun _ => rfl, rfl⟩, ⟨.empty, ?_, ?_, rfl⟩, Nat.zero_le _, ?_⟩, ?_⟩
  · intro s i
    simp
  · exact fun _ => List.Pairwise.nil
  · exact fun _ hw => absurd hw not_mem_nil
  · exact fun _ hpos => absurd hpos (Nat.lt_irrefl 0)

theorem inboundLimit_after (limit : ℕ) (actions : List Action) :
    (after limit actions).inboundLimit = limit :=
  run_invariant (I := fun c => c.inboundLimit = limit)
    (fun c a h => (step_inboundLimit c a).trans h) rfl actions

/-- Inbound admission accounting is exact after every list of actions: the active slots are the
calls that hold one, the sum of the counts per source, within the limit; the waiting total counts
the calls that wait, each in the queue of its source alone; the round-robin list holds each source
with a queue once; and while work is accepted a call waits only when every slot is in use. -/
theorem inbound_accounting_exact (limit : ℕ) (actions : List Action) :
    let c := after limit actions
    c.inboundCurrent = c.calls.countP Call.holds ∧
    c.inboundCurrentBySource.total id = c.inboundCurrent ∧
    (∀ s, countOf c.inboundCurrentBySource s = c.calls.countP (holdsFrom s)) ∧
    c.inboundCurrent ≤ limit ∧
    c.inboundWaiters.total = c.calls.countP Call.waits ∧
    c.inboundWaiters.total = c.inboundWaiters.queues.total List.length ∧
    (∀ s i, i ∈ c.inboundWaiters.queue s ↔
      ∃ w, c.calls[i]? = some w ∧ w.waits = true ∧ w.source = s) ∧
    (∀ s, (c.inboundWaiters.queue s).Nodup) ∧
    c.inboundWaiters.order.Nodup ∧
    (∀ s, s ∈ c.inboundWaiters.order ↔ c.inboundWaiters.queue s ≠ []) ∧
    (c.inboundAccepting = true → 0 < c.inboundWaiters.total → c.inboundCurrent = limit) := by
  have h := inv_after limit actions
  have hlimit := inboundLimit_after limit actions
  refine ⟨h.slots.active, h.slots.total, h.slots.perSource, h.bounded.trans_eq hlimit,
    h.queues.waiting, h.queues.line.total, h.queues.mem_queue, ?_, h.queues.line.nodup,
    h.queues.line.mem_order, ?_⟩
  · exact fun s => (h.queues.sorted s).imp fun hlt => Nat.ne_of_lt hlt
  · intro haccepting hpos
    exact (h.full haccepting hpos).trans hlimit

namespace Sample

/-- Two calls of one source take both slots, then one of another source and a third of the
first wait. -/
def contended : List Action :=
  [.acquire (some "a"), .acquire (some "a"), .acquire (some "b"), .acquire (some "a")]

end Sample

/-- Both slots are in use while two calls wait. -/
theorem inbound_accounting_exact_contended :
    0 < (after 2 Sample.contended).inboundWaiters.total ∧
      (after 2 Sample.contended).inboundCurrent = 2 :=
  have hwaiting : 0 < (after 2 Sample.contended).inboundWaiters.total := by decide +kernel
  ⟨hwaiting, (inbound_accounting_exact 2 Sample.contended).2.2.2.2.2.2.2.2.2.2 rfl hwaiting⟩

end CapacityController

end Medre.Supervision
