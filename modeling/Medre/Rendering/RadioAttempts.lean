import Medre.Rendering.RadioPlans

/-! # Binding, storing and restoring a radio attempt

Every plan of the planner passes the check of `RadioAttemptProgress`, which plans the bodies
again under the largest part limit. The data of a progress value decodes to the value itself,
with an interrupted call frozen as unknown. -/

namespace Medre.Rendering

open List Medre.Framework

variable {handoffId outboxId pre text : String} {attemptNumber budget k maxParts n : ℤ}
  {plan : RadioTextPlan} {parts ps qs rest : List RadioPartProgress} {p q : RadioPartProgress}
  {i : ℕ} {start : RadioAttemptProgress}

/-! ## Planning again -/

theorem stableBodies_room_le {pre source : List Char} {budget maxParts maxParts' fuel total : ℕ}
    {bodies : List (List Char)}
    (h : stableBodies pre source budget maxParts fuel total = some (.ok bodies))
    (hle : maxParts ≤ maxParts') :
    stableBodies pre source budget maxParts' fuel total = some (.ok bodies) := by
  induction fuel generalizing total with
  | zero => cases h
  | succ fuel ih =>
    unfold stableBodies at h ⊢
    cases hok : fragmentBodies pre budget total maxParts 0 source with
    | error e =>
      rw [hok] at h
      cases h
    | ok found =>
      rw [hok] at h
      rw [fragmentBodies_room_le hok hle]
      simp only at h ⊢
      split_ifs at h ⊢
      · exact h
      · exact ih h

theorem planRadioText_limit (h : planRadioText text budget pre maxParts = some (.ok plan)) :
    planRadioText text budget pre maxRadioTextParts = some (.ok plan) := by
  obtain ⟨hplan, ⟨hmin, hmax⟩, bodies, hbodies, rfl⟩ := planRadioText_ok.mp h
  refine planRadioText_ok.mpr ⟨hplan, by decide, bodies, ?_, rfl⟩
  unfold BodiesOf at hbodies ⊢
  split_ifs at hbodies ⊢
  · exact hbodies
  · exact ⟨by decide, stableBodies_room_le hbodies.2 (by omega)⟩

theorem join_length (ss : List String) :
    (ss.map String.length).sum = (String.join ss).toList.length := by
  rw [String.toList_join, length_flatMap]
  rfl

theorem isFingerprint_hexdigest {message : List UInt8} :
    RadioAttemptProgress.isFingerprint (Sha256.hexdigest message) = true := by
  have hlen := Sha256.hexdigest_length message
  have hhex := Sha256.hexdigest_hex message
  generalize Sha256.hexdigest message = digest at hlen hhex ⊢
  rw [String.length_toList] at hlen
  rw [RadioAttemptProgress.isFingerprint, hlen, Bool.and_eq_true]
  exact ⟨rfl, hhex⟩

theorem planRadioText_again (h : planRadioText text budget pre maxParts = some (.ok plan)) :
    plan.schemaVersion = 1 ∧ plan.maxTextBytes = budget ∧ plan.pre = pre ∧
      RadioAttemptProgress.isFingerprint plan.fingerprint = true ∧
      (plan.parts.map fun p => p.body.length).sum ≤ maxRadioSourceBytes ∧
      planRadioText (String.join (plan.parts.map RadioTextPart.body)) plan.maxTextBytes plan.pre
        maxRadioTextParts = some (.ok plan) := by
  have hjoin := (radio_plan_exact h).1
  have hlimit := planRadioText_limit h
  obtain ⟨hplan, -, bodies, -, rfl⟩ := planRadioText_ok.mp h
  have hbudget : (planOf budget.toNat pre.toList text.toList bodies).maxTextBytes = budget := by
    have := hplan.budget_pos
    show ((budget.toNat : ℕ) : ℤ) = budget
    omega
  have hpre : (planOf budget.toNat pre.toList text.toList bodies).pre = pre := String.ofList_toList
  refine ⟨rfl, hbudget, hpre, ?_, ?_, ?_⟩
  · exact isFingerprint_hexdigest
  · have hsum := join_length
      ((planOf budget.toNat pre.toList text.toList bodies).parts.map RadioTextPart.body)
    rw [map_map, hjoin] at hsum
    exact hsum.trans_le hplan.length_le
  · rw [hjoin, hbudget, hpre]
    exact hlimit

theorem reproducible_iff :
    reproducible plan = .ok () ↔
      plan.schemaVersion = 1 ∧ (1 ≤ plan.parts.length ∧ plan.parts.length ≤ maxRadioTextParts) ∧
        (plan.parts.map fun p => p.body.length).sum ≤ maxRadioSourceBytes ∧
        planRadioText (String.join (plan.parts.map RadioTextPart.body)) plan.maxTextBytes plan.pre
          maxRadioTextParts = some (.ok plan) := by
  unfold reproducible
  constructor
  · intro h
    split_ifs at h with hversion hbounds
    split at h
    · cases h
    · cases h
    · next expected hexpected =>
        split_ifs at h with heq
        rw [← heq] at hexpected
        exact ⟨not_not.mp hversion, not_not.mp fun hn => hbounds (.inl hn), by omega, hexpected⟩
  · rintro ⟨hversion, hparts, hsum, hplan⟩
    have hbounds : ¬(¬(1 ≤ plan.parts.length ∧ plan.parts.length ≤ maxRadioTextParts) ∨
        maxRadioSourceBytes < (plan.parts.map fun p => p.body.length).sum) := by
      rintro (h | h)
      · exact h hparts
      · omega
    rw [if_neg (not_not.mpr hversion), if_neg hbounds, hplan]
    simp

theorem reproducible_of_planned (h : planRadioText text budget pre maxParts = some (.ok plan)) :
    reproducible plan = .ok () := by
  obtain ⟨hversion, -, -, -, hsum, hagain⟩ := planRadioText_again h
  obtain ⟨-, hmin, hmax, -⟩ := radio_plan_exact h
  obtain ⟨-, ⟨-, hlimit⟩, -⟩ := planRadioText_ok.mp h
  exact reproducible_iff.mpr ⟨hversion, ⟨hmin, by omega⟩, hsum, hagain⟩

/-! ## Checked progress -/

theorem checkProgress_iff :
    checkProgress outboxId attemptNumber plan parts = .ok () ↔
      (outboxId ≠ "" ∧ outboxId.length ≤ 1024) ∧ 1 ≤ attemptNumber ∧ reproducible plan = .ok () ∧
        parts.length = plan.parts.length ∧ contiguousFrom 1 parts = true ∧
        boundaryOrdered false parts = true := by
  unfold checkProgress
  constructor
  · intro h
    split at h
    · cases h
    · next hid =>
        split at h
        · cases h
        · next hattempt =>
            cases hplan : reproducible plan with
            | error e =>
              rw [hplan] at h
              cases h
            | ok u =>
              rw [hplan] at h
              split_ifs at h with hlen hcontiguous hordered
              rw [not_or] at hid
              exact ⟨⟨hid.1, by omega⟩, by omega, rfl, not_not.mp hlen, hcontiguous, hordered⟩
  · rintro ⟨⟨hid, hlength⟩, hattempt, hplan, hlen, hcontiguous, hordered⟩
    have hbounds : ¬(outboxId = "" ∨ 1024 < outboxId.length) := by
      rintro (h | h)
      · exact hid h
      · omega
    rw [if_neg hbounds, if_neg (by omega), hplan]
    simp [hlen, hcontiguous, hordered]

theorem RadioPartProgress.check_iff :
    p.check = .ok () ↔
      (1 ≤ p.ordinal ∧ p.ordinal ≤ maxRadioTextParts) ∧
        (p.state = .accepted ↔ p.handoffId.isSome = true) ∧
        ∀ h ∈ p.handoffId, pyStrip h ≠ "" ∧ h.length ≤ 1024 := by
  constructor
  · intro h
    unfold RadioPartProgress.check at h
    split at h
    · cases h
    · next hordinal =>
        split at h
        · cases h
        · next hstate =>
            split at h
            · cases h
            · next hhandoff =>
                refine ⟨not_not.mp hordinal, not_not.mp hstate, fun x hx => ?_⟩
                rw [Option.mem_def.mp hx] at hhandoff
                simpa using hhandoff
  · rintro ⟨hordinal, hstate, hhandoff⟩
    have hnone : ¬(p.handoffId.any fun h => pyStrip h = "" || 1024 < h.length) = true := by
      cases hp : p.handoffId with
      | none => simp
      | some x => simpa using hhandoff x hp
    unfold RadioPartProgress.check
    rw [if_neg (not_not.mpr hordinal), if_neg (not_not.mpr hstate), if_neg hnone]

theorem checkParts_of (h : ∀ p ∈ ps, p.check = .ok ()) :
    RadioAttemptProgress.checkParts ps = .ok () := by
  induction ps with
  | nil => rfl
  | cons p ps ih =>
    unfold RadioAttemptProgress.checkParts
    rw [h p mem_cons_self]
    exact ih fun q hq => h q (mem_cons_of_mem p hq)

theorem contiguousFrom_set (h : contiguousFrom n ps = true) (hq : q.ordinal = n + i) :
    contiguousFrom n (ps.set i q) = true := by
  induction ps generalizing n i with
  | nil => rfl
  | cons p ps ih =>
    simp only [contiguousFrom, Bool.and_eq_true, decide_eq_true_eq] at h
    cases i with
    | zero => simp [contiguousFrom, h.2, hq]
    | succ i =>
      simp only [set_cons_succ, contiguousFrom, Bool.and_eq_true, decide_eq_true_eq]
      refine ⟨h.1, ih h.2 ?_⟩
      rw [hq]
      push_cast
      omega

theorem boundaryOrdered_true : boundaryOrdered true ps = true ↔ ∀ p ∈ ps, p.state = .unsent := by
  induction ps with
  | nil => simp [boundaryOrdered]
  | cons p ps ih => simp [boundaryOrdered, ih]

/-- The first part that is not accepted owns the boundary. -/
theorem boundaryOrdered_cons :
    boundaryOrdered false (p :: ps) = true ↔
      if p.state = .accepted then boundaryOrdered false ps = true
      else ∀ q ∈ ps, q.state = .unsent := by
  by_cases h : p.state = .accepted <;> simp [boundaryOrdered, h, boundaryOrdered_true]

/-- The part on the boundary may change, as long as the parts behind it are unsent or it
was accepted. -/
theorem boundaryOrdered_set (h : boundaryOrdered false ps = true) (hp : ps[i]? = some p)
    (hstate : p.state ≠ .accepted) (hfirst : ∀ j < i, ∀ r, ps[j]? = some r → r.state = .accepted) :
    boundaryOrdered false (ps.set i q) = true := by
  induction ps generalizing i with
  | nil => simp at hp
  | cons r ps ih =>
    rw [boundaryOrdered_cons] at h
    cases i with
    | zero =>
      cases hp
      rw [if_neg hstate] at h
      rw [set_cons_zero, boundaryOrdered_cons]
      split_ifs
      · cases ps with
        | nil => rfl
        | cons s ps =>
          rw [boundaryOrdered_cons, if_neg (by rw [h s mem_cons_self]; decide)]
          exact fun t ht => h t (mem_cons_of_mem s ht)
      · exact h
    | succ i =>
      have hr := hfirst 0 (Nat.succ_pos i) r rfl
      rw [if_pos hr] at h
      rw [set_cons_succ, boundaryOrdered_cons, if_pos hr]
      exact ih h hp fun j hj s hs => hfirst (j + 1) (Nat.succ_lt_succ hj) s hs

theorem accepted_before (h : boundaryOrdered false ps = true) (hp : ps[i]? = some p)
    (hstate : p.state ≠ .unsent) :
    ∀ j < i, ∀ r, ps[j]? = some r → r.state = .accepted := by
  induction ps generalizing i with
  | nil => simp at hp
  | cons s ps ih =>
    rw [boundaryOrdered_cons] at h
    intro j hj r hr
    cases i with
    | zero => omega
    | succ i =>
      by_cases hs : s.state = .accepted
      · rw [if_pos hs] at h
        cases j with
        | zero =>
          cases hr
          exact hs
        | succ j => exact ih h hp j (Nat.lt_of_succ_lt_succ hj) r hr
      · rw [if_neg hs] at h
        exact absurd (h p (mem_iff_getElem?.mpr ⟨i, hp⟩)) hstate

/-- Accepted parts, at most one part in flight, unsent parts. -/
def HandoffBoundary (ps : List RadioPartProgress) : Prop :=
  ∃ accepted flight rest, ps = accepted ++ flight ++ rest ∧
    (∀ p ∈ accepted, p.state = .accepted) ∧ flight.length ≤ 1 ∧
    (∀ p ∈ flight, p.state = .submitting ∨ p.state = .unknown) ∧ ∀ p ∈ rest, p.state = .unsent

theorem handoffBoundary_of_ordered (h : boundaryOrdered false ps = true) : HandoffBoundary ps := by
  induction ps with
  | nil => exact ⟨[], [], [], rfl, by simp, by simp, by simp, by simp⟩
  | cons p ps ih =>
    rw [boundaryOrdered_cons] at h
    by_cases hp : p.state = .accepted
    · rw [if_pos hp] at h
      obtain ⟨accepted, flight, rest, rfl, hacc, hflight⟩ := ih h
      refine ⟨p :: accepted, flight, rest, rfl, fun q hq => ?_, hflight⟩
      rcases mem_cons.mp hq with rfl | hq
      · exact hp
      · exact hacc q hq
    · rw [if_neg hp] at h
      cases hstate : p.state with
      | accepted => exact absurd hstate hp
      | unsent =>
        refine ⟨[], [], p :: ps, rfl, by simp, by simp, by simp, fun q hq => ?_⟩
        rcases mem_cons.mp hq with rfl | hq
        · exact hstate
        · exact h q hq
      | submitting => exact ⟨[], [p], ps, rfl, by simp, by simp, by simp [hstate], h⟩
      | unknown => exact ⟨[], [p], ps, rfl, by simp, by simp, by simp [hstate], h⟩

namespace RadioAttemptProgress

theorem make_of (hparts : ∀ p ∈ parts, p.check = .ok ())
    (hvalid : checkProgress outboxId attemptNumber plan parts = .ok ()) :
    make outboxId attemptNumber plan parts =
      .ok ⟨outboxId, attemptNumber, plan, parts, hparts, hvalid⟩ := by
  unfold make
  split
  · next e he =>
      rw [checkParts_of hparts] at he
      cases he
  · split
    · next e he =>
        rw [hvalid] at he
        cases he
    · rfl

variable {r r' : RadioAttemptProgress}

theorem replacePart_of (hq : q.check = .ok ()) (hk : 1 ≤ k) (hordinal : q.ordinal = k)
    (hp : r.parts[k.toNat - 1]? = some p) (hstate : p.state ≠ .accepted)
    (hfirst : ∀ j < k.toNat - 1, ∀ s, r.parts[j]? = some s → s.state = .accepted) :
    ∃ r', r.replacePart k q = .ok r' ∧ r'.outboxId = r.outboxId ∧
      r'.attemptNumber = r.attemptNumber ∧ r'.plan = r.plan ∧
      r'.parts = r.parts.set (k.toNat - 1) q := by
  obtain ⟨hid, hattempt, hplan, hlen, hcontiguous, hordered⟩ := checkProgress_iff.mp r.valid
  have hchecked : ∀ s ∈ r.parts.set (k.toNat - 1) q, s.check = .ok () := by
    intro s hs
    rcases mem_or_eq_of_mem_set hs with hs | rfl
    · exact r.checked s hs
    · exact hq
  have hvalid : checkProgress r.outboxId r.attemptNumber r.plan (r.parts.set (k.toNat - 1) q) =
      .ok () :=
    checkProgress_iff.mpr ⟨hid, hattempt, hplan, by rw [length_set, hlen],
      contiguousFrom_set hcontiguous (by omega), boundaryOrdered_set hordered hp hstate hfirst⟩
  exact ⟨_, make_of hchecked hvalid, rfl, rfl, rfl, rfl⟩

theorem afterRestart_returns (r : RadioAttemptProgress) : ∃ r', r.afterRestart = .ok r' := by
  unfold afterRestart
  cases hfind : r.parts.find? fun p => p.state = .submitting with
  | none => exact ⟨r, rfl⟩
  | some p =>
    obtain ⟨i, hi⟩ := mem_iff_getElem?.mp (mem_of_find?_eq_some hfind)
    have hstate : p.state = .submitting := by simpa using find?_some hfind
    have hord := contiguousFrom_ordinal r.contiguous hi
    have hrange := (RadioPartProgress.check_iff.mp (r.checked p (mem_of_find?_eq_some hfind))).1
    have hidx : p.ordinal.toNat - 1 = i := by omega
    have hunknown : ({ ordinal := p.ordinal, state := .unknown } : RadioPartProgress).check =
        .ok () :=
      RadioPartProgress.check_iff.mpr ⟨hrange, by simp, by simp⟩
    have hbefore := accepted_before (checkProgress_iff.mp r.valid).2.2.2.2.2 hi
      (by rw [hstate]; decide)
    obtain ⟨r', hr', -⟩ := replacePart_of (r := r) (k := p.ordinal) hunknown hrange.1 rfl
      (by rw [hidx]; exact hi) (by rw [hstate]; decide) (by rw [hidx]; exact hbefore)
    exact ⟨r', hr'⟩

/-! ## Binding -/

theorem contiguousFrom_of
    (h : ∀ (i : ℕ) (p : RadioPartProgress), ps[i]? = some p → p.ordinal = n + i) :
    contiguousFrom n ps = true := by
  induction ps generalizing n with
  | nil => rfl
  | cons p ps ih =>
    have hp := h 0 p rfl
    simp only [contiguousFrom, Bool.and_eq_true, decide_eq_true_eq]
    refine ⟨by simpa using hp, ih fun i q hq => ?_⟩
    have := h (i + 1) q hq
    push_cast at this
    omega

theorem boundaryOrdered_unsent (h : ∀ p ∈ ps, p.state = .unsent) :
    boundaryOrdered false ps = true := by
  cases ps with
  | nil => rfl
  | cons p ps =>
    rw [boundaryOrdered_cons, if_neg (by rw [h p mem_cons_self]; decide)]
    exact fun q hq => h q (mem_cons_of_mem p hq)

theorem bind_returns (hplan : reproducible plan = .ok ()) (hid : outboxId ≠ "")
    (hlen : outboxId.length ≤ 1024) (hattempt : 1 ≤ attemptNumber) :
    ∃ r, bind outboxId attemptNumber plan = .ok r := by
  obtain ⟨-, ⟨-, hlimit⟩, -, hagain⟩ := reproducible_iff.mp hplan
  have hparts := (radio_plan_exact hagain).2.2.2.1
  have hordinal : ∀ (i : ℕ) (p : RadioPartProgress),
      (plan.parts.map fun p => ({ ordinal := p.ordinal } : RadioPartProgress))[i]? = some p →
        p = { ordinal := (i : ℤ) + 1 } ∧ i < plan.parts.length := by
    intro i p hp
    rw [getElem?_map, Option.map_eq_some_iff] at hp
    obtain ⟨part, hpart, rfl⟩ := hp
    rw [(hparts i part hpart).1]
    exact ⟨rfl, (List.getElem?_eq_some_iff.mp hpart).1⟩
  have hmem : ∀ p ∈ plan.parts.map fun p => ({ ordinal := p.ordinal } : RadioPartProgress),
      p.check = .ok () := by
    intro p hp
    obtain ⟨i, hi⟩ := mem_iff_getElem?.mp hp
    obtain ⟨rfl, hlt⟩ := hordinal i p hi
    exact RadioPartProgress.check_iff.mpr ⟨⟨by simp, by simp only; omega⟩, by simp, by simp⟩
  refine ⟨_, make_of hmem (checkProgress_iff.mpr ⟨⟨hid, hlen⟩, hattempt, hplan, by simp, ?_, ?_⟩)⟩
  · refine contiguousFrom_of fun i p hp => ?_
    rw [(hordinal i p hp).1]
    exact Int.add_comm _ _
  · refine boundaryOrdered_unsent fun p hp => ?_
    obtain ⟨i, hi⟩ := mem_iff_getElem?.mp hp
    rw [(hordinal i p hi).1]

/-- The values one bound attempt passes through. -/
inductive Reached (start : RadioAttemptProgress) : RadioAttemptProgress → Prop where
  | bound : Reached start start
  | begin {p q : RadioAttemptProgress} {k : ℤ} : Reached start p → p.begin k = .ok q →
      Reached start q
  | observe {p q : RadioAttemptProgress} {k : ℤ} {handoffId : Option String} : Reached start p →
      p.observe k handoffId = .ok q → Reached start q
  | afterRestart {p q : RadioAttemptProgress} : Reached start p → p.afterRestart = .ok q →
      Reached start q

theorem replacePart_same (h : r.replacePart k p = .ok r') :
    r'.outboxId = r.outboxId ∧ r'.attemptNumber = r.attemptNumber ∧ r'.plan = r.plan :=
  ⟨(make_ok h).1, (make_ok h).2.1, (make_ok h).2.2.1⟩

theorem Reached.same (h : Reached start r) :
    r.outboxId = start.outboxId ∧ r.attemptNumber = start.attemptNumber ∧ r.plan = start.plan := by
  have hstep : ∀ {s s' : RadioAttemptProgress} {k : ℤ} {p : RadioPartProgress},
      s.outboxId = start.outboxId ∧ s.attemptNumber = start.attemptNumber ∧
        s.plan = start.plan → s.replacePart k p = .ok s' →
      s'.outboxId = start.outboxId ∧ s'.attemptNumber = start.attemptNumber ∧
        s'.plan = start.plan := by
    intro s s' k p hs hreplace
    obtain ⟨h1, h2, h3⟩ := replacePart_same hreplace
    exact ⟨h1.trans hs.1, h2.trans hs.2.1, h3.trans hs.2.2⟩
  induction h with
  | bound => exact ⟨rfl, rfl, rfl⟩
  | begin _ hbegin ih =>
    unfold RadioAttemptProgress.begin at hbegin
    split at hbegin
    · cases hbegin
    · exact hstep ih hbegin
  | observe _ hobserve ih =>
    unfold RadioAttemptProgress.observe at hobserve
    split at hobserve
    · cases hobserve
    · split at hobserve
      · cases hobserve
      · split at hobserve <;> exact hstep ih hobserve
  | afterRestart _ hrestart ih =>
    unfold RadioAttemptProgress.afterRestart at hrestart
    split at hrestart
    · cases hrestart
      exact ih
    · exact hstep ih hrestart

theorem Reached.keepsStarted (h : Reached start r) : KeepsStarted start.parts r.parts := by
  induction h with
  | bound => exact .refl _
  | begin _ hbegin ih => exact ih.trans (begin_ok hbegin).2.1
  | observe _ hobserve ih => exact ih.trans (observe_keepsStarted hobserve)
  | afterRestart _ hrestart ih => exact ih.trans (afterRestart_keepsStarted hrestart)

/-! ## Transitions -/

def observedPart (ordinal : ℤ) : Option String → RadioPartProgress
  | some h => { ordinal, state := .accepted, handoffId := some h }
  | none => { ordinal, state := .unknown }

theorem begin_inv (h : r.begin k = .ok r') :
    ∃ p ∈ r.parts, p.ordinal = k ∧ p.state = .unsent ∧
      r.replacePart k { ordinal := k, state := .submitting } = .ok r' := by
  unfold begin at h
  split at h
  · cases h
  · rename_i hnext
    obtain ⟨p, hp, hk, hstate⟩ := nextUnsentIn_mem (not_not.mp hnext)
    exact ⟨p, hp, hk, hstate, h⟩

theorem observe_inv {handoffId : Option String} (h : r.observe k handoffId = .ok r') :
    ∃ p ∈ r.parts, p.ordinal = k ∧ p.state = .submitting ∧
      r.replacePart k (observedPart k handoffId) = .ok r' := by
  unfold observe at h
  split at h
  · cases h
  · rename_i hrange
    have hlt : k.toNat - 1 < r.parts.length := by omega
    have hget := getElem?_eq_getElem hlt
    have hord := contiguousFrom_ordinal r.contiguous hget
    split at h
    · cases h
    · rename_i hstate
      rw [hget, Option.any_some] at hstate
      refine ⟨_, getElem_mem hlt, by omega, by simpa using hstate, ?_⟩
      cases handoffId <;> exact h

theorem afterRestart_inv (h : r.afterRestart = .ok r') :
    (r' = r ∧ ∀ p ∈ r.parts, p.state ≠ .submitting) ∨
      ∃ p ∈ r.parts, p.state = .submitting ∧
        r.replacePart p.ordinal { ordinal := p.ordinal, state := .unknown } = .ok r' := by
  unfold afterRestart at h
  split at h
  · rename_i hfind
    cases h
    exact .inl ⟨rfl, fun p hp hstate => absurd (decide_eq_true hstate)
      (find?_eq_none.mp hfind p hp)⟩
  · rename_i p hfind
    exact .inr ⟨p, mem_of_find?_eq_some hfind, by simpa using find?_some hfind, h⟩

/-! ## Accepted parts -/

/-- The accepted parts before the first part that is not. -/
def acceptedFront (ps : List RadioPartProgress) : List RadioPartProgress :=
  ps.takeWhile fun p => p.state = .accepted

theorem acceptedFront_cons (p : RadioPartProgress) (ps : List RadioPartProgress) :
    acceptedFront (p :: ps) = if p.state = .accepted then p :: acceptedFront ps else [] := by
  by_cases h : p.state = .accepted <;> simp [acceptedFront, h]

/-- The front ends before a part that is not accepted, so a change there only
prolongs it. -/
theorem acceptedFront_set (hp : ps[i]? = some p) (hstate : p.state ≠ .accepted) :
    acceptedFront ps <+: acceptedFront (ps.set i q) := by
  induction ps generalizing i with
  | nil => simp at hp
  | cons s ps ih =>
    cases i with
    | zero =>
      cases hp
      rw [acceptedFront_cons, if_neg hstate]
      exact nil_prefix
    | succ i =>
      rw [set_cons_succ, acceptedFront_cons, acceptedFront_cons]
      split
      · exact cons_prefix_cons.mpr ⟨rfl, ih hp⟩
      · exact nil_prefix

theorem acceptedFront_eq_nil (h : ∀ p ∈ ps, p.state = .unsent) : acceptedFront ps = [] := by
  cases ps with
  | nil => rfl
  | cons p ps => rw [acceptedFront_cons, if_neg (by rw [h p mem_cons_self]; decide)]

theorem acceptedFront_append {ps qs : List RadioPartProgress}
    (hps : ∀ p ∈ ps, p.state = .accepted) (hqs : ∀ q ∈ qs, q.state = .unsent) :
    acceptedFront (ps ++ qs) = ps := by
  induction ps with
  | nil => exact acceptedFront_eq_nil hqs
  | cons p ps ih =>
    rw [cons_append, acceptedFront_cons, if_pos (hps p mem_cons_self),
      ih fun q hq => hps q (mem_cons_of_mem p hq)]

theorem acceptedFront_stop (hps : ∀ p ∈ ps, p.state = .accepted) (hq : q.state ≠ .accepted) :
    acceptedFront (ps ++ q :: qs) = ps := by
  induction ps with
  | nil => rw [nil_append, acceptedFront_cons, if_neg hq]
  | cons p ps ih =>
    rw [cons_append, acceptedFront_cons, if_pos (hps p mem_cons_self),
      ih fun r hr => hps r (mem_cons_of_mem p hr)]

theorem unsent_behind (h : boundaryOrdered false (ps ++ q :: qs) = true)
    (hps : ∀ p ∈ ps, p.state = .accepted) (hq : q.state ≠ .accepted) :
    ∀ p ∈ qs, p.state = .unsent := by
  induction ps with
  | nil =>
    rw [nil_append, boundaryOrdered_cons, if_neg hq] at h
    exact h
  | cons p ps ih =>
    rw [cons_append, boundaryOrdered_cons, if_pos (hps p mem_cons_self)] at h
    exact ih h fun r hr => hps r (mem_cons_of_mem p hr)

theorem mem_acceptedFront (h : boundaryOrdered false ps = true) :
    p ∈ acceptedFront ps ↔ p ∈ ps ∧ p.state = .accepted := by
  induction ps with
  | nil => simp [acceptedFront]
  | cons q ps ih =>
    rw [boundaryOrdered_cons] at h
    rw [acceptedFront_cons]
    by_cases hq : q.state = .accepted
    · rw [if_pos hq] at h ⊢
      rw [mem_cons, mem_cons, ih h, or_and_right]
      refine or_congr_left ⟨?_, And.left⟩
      rintro rfl
      exact ⟨rfl, hq⟩
    · rw [if_neg hq] at h ⊢
      refine ⟨fun hp => absurd hp not_mem_nil, ?_⟩
      rintro ⟨hp, hstate⟩
      rcases mem_cons.mp hp with rfl | hp
      · exact absurd hstate hq
      · rw [h p hp] at hstate
        cases hstate

theorem replacePart_front (h : r.replacePart k q = .ok r') (hp : p ∈ r.parts) (hk : p.ordinal = k)
    (hstate : p.state ≠ .accepted) :
    acceptedFront r.parts <+: acceptedFront r'.parts := by
  obtain ⟨i, hi⟩ := mem_iff_getElem?.mp hp
  have hord := contiguousFrom_ordinal r.contiguous hi
  obtain rfl : i = k.toNat - 1 := by omega
  rw [(make_ok h).2.2.2]
  exact acceptedFront_set hi hstate

theorem Reached.front (h : Reached start r) :
    acceptedFront start.parts <+: acceptedFront r.parts := by
  induction h with
  | bound => exact prefix_refl _
  | begin _ hbegin ih =>
    obtain ⟨p, hp, hk, hstate, hreplace⟩ := begin_inv hbegin
    exact ih.trans (replacePart_front hreplace hp hk (by rw [hstate]; decide))
  | observe _ hobserve ih =>
    obtain ⟨p, hp, hk, hstate, hreplace⟩ := observe_inv hobserve
    exact ih.trans (replacePart_front hreplace hp hk (by rw [hstate]; decide))
  | afterRestart _ hrestart ih =>
    rcases afterRestart_inv hrestart with ⟨rfl, -⟩ | ⟨p, hp, hstate, hreplace⟩
    · exact ih
    · exact ih.trans (replacePart_front hreplace hp rfl (by rw [hstate]; decide))

theorem nextUnsentIn_append {front : List RadioPartProgress}
    (h : ∀ p ∈ front, p.state = .accepted) :
    nextUnsentIn (front ++ rest) = nextUnsentIn rest := by
  induction front with
  | nil => rfl
  | cons p front ih =>
    have hp := h p mem_cons_self
    rw [cons_append, nextUnsentIn, if_neg (by rw [hp]; decide), if_neg (not_not.mpr hp)]
    exact ih fun q hq => h q (mem_cons_of_mem p hq)

/-- The part after the accepted ones is the one that can be begun; once it is observed as
accepted, the others are as they were. -/
theorem accept_next {r₁ r₂ : RadioAttemptProgress} {front : List RadioPartProgress}
    (hparts : r.parts = front ++ q :: rest) (hfront : ∀ p ∈ front, p.state = .accepted)
    (hq : q.state = .unsent) (hbegin : r.begin k = .ok r₁)
    (hobserve : r₁.observe k (some handoffId) = .ok r₂) :
    k = q.ordinal ∧ r₂.parts =
      front ++ { ordinal := k, state := .accepted, handoffId := some handoffId } :: rest := by
  have hk : k = q.ordinal := by
    unfold begin at hbegin
    split at hbegin
    · cases hbegin
    · rename_i hnext
      have hnext := not_not.mp hnext
      rw [nextUnsent, hparts, nextUnsentIn_append hfront, nextUnsentIn, if_pos hq] at hnext
      exact (Option.some.inj hnext).symm
  have hord : q.ordinal = 1 + (front.length : ℤ) := by
    refine contiguousFrom_ordinal r.contiguous ?_
    rw [hparts, getElem?_append_right (le_refl _), Nat.sub_self, getElem?_cons_zero]
  have hindex : k.toNat - 1 = front.length := by omega
  have hset : ∀ p p' : RadioPartProgress, (front ++ p :: rest).set front.length p' =
      front ++ p' :: rest := by
    intro p p'
    rw [set_append_right _ _ (le_refl _), Nat.sub_self, set_cons_zero]
  obtain ⟨-, -, -, -, hreplace⟩ := begin_inv hbegin
  obtain ⟨-, -, -, -, hreplace'⟩ := observe_inv hobserve
  refine ⟨hk, ?_⟩
  rw [(make_ok hreplace').2.2.2, (make_ok hreplace).2.2.2, hparts, hindex, hset, hset]
  rfl

/-! ## Storing and restoring -/

theorem make_self (r : RadioAttemptProgress) :
    make r.outboxId r.attemptNumber r.plan r.parts = .ok r :=
  make_of r.checked r.valid

theorem fromData_toData (r : RadioAttemptProgress) :
    fromData r.toData r.outboxId r.attemptNumber r.plan.fingerprint = r.afterRestart := by
  obtain ⟨⟨hid, hlength⟩, hattempt, hplan, hlen, -, -⟩ := checkProgress_iff.mp r.valid
  obtain ⟨hversion, hparts, hsum, hagain⟩ := reproducible_iff.mp hplan
  obtain ⟨-, -, -, hfingerprint, -⟩ := planRadioText_again hagain
  have hclaim : ¬(r.outboxId = "" ∨ 1024 < r.outboxId.length ∨ r.attemptNumber < 1 ∨
      ¬isFingerprint r.plan.fingerprint = true) := by
    rintro (h | h | h | h)
    · exact hid h
    · omega
    · omega
    · exact h hfingerprint
  have hidentity : ¬(r.toData.outboxId ≠ r.outboxId ∨ r.toData.attemptNumber ≠ r.attemptNumber) :=
    fun h => h.elim (fun h => h rfl) fun h => h rfl
  have hretained : ¬(r.toData.plan.schemaVersion ≠ 1 ∨
      r.toData.plan.fingerprint ≠ r.plan.fingerprint) :=
    fun h => h.elim (fun h => h hversion) fun h => h rfl
  have hcover : ¬r.toData.parts.length ≠ r.toData.plan.parts.length := not_not.mpr hlen
  have hbodies : ¬maxRadioSourceBytes < (r.toData.plan.parts.map fun p => p.body.length).sum :=
    not_lt.mpr hsum
  have hcomputed : planRadioText (String.join (r.toData.plan.parts.map RadioTextPart.body))
      r.toData.plan.maxTextBytes r.toData.plan.pre maxRadioTextParts = some (.ok r.toData.plan) :=
    hagain
  unfold fromData
  rw [if_neg hclaim, if_neg (show ¬r.toData.schemaVersion ≠ 1 from fun h => h rfl),
    if_neg hidentity, if_neg hretained,
    if_neg (show ¬¬(1 ≤ r.toData.plan.parts.length ∧ r.toData.plan.parts.length ≤
      maxRadioTextParts) from not_not.mpr hparts), if_neg hcover, if_neg hbodies, hcomputed]
  simp only [ne_eq, not_true_eq_false, if_false]
  rw [show make r.toData.outboxId r.toData.attemptNumber r.toData.plan r.toData.parts = .ok r from
    r.make_self]

theorem fromData_mismatch (r : RadioAttemptProgress) {fingerprint : String}
    (h : ¬(outboxId = r.outboxId ∧ attemptNumber = r.attemptNumber ∧
      fingerprint = r.plan.fingerprint)) :
    ∃ e, fromData r.toData outboxId attemptNumber fingerprint = .error e := by
  unfold fromData
  split
  · exact ⟨_, rfl⟩
  · split
    · exact ⟨_, rfl⟩
    · split
      · exact ⟨_, rfl⟩
      · next hidentity =>
          split
          · exact ⟨_, rfl⟩
          · next hplan =>
              rw [not_or, not_not, not_not] at hidentity hplan
              exact absurd ⟨hidentity.1.symm, hidentity.2.symm, hplan.2.symm⟩ h

/-- Every radio plan can be bound, stored and restored. -/
theorem radio_attempt_round_trip {text pre outboxId : String} {budget maxParts attemptNumber : ℤ}
    {plan : RadioTextPlan} (hplan : planRadioText text budget pre maxParts = some (.ok plan))
    (hid : outboxId ≠ "") (hlen : outboxId.length ≤ 1024) (hattempt : 1 ≤ attemptNumber) :
    ∃ start, bind outboxId attemptNumber plan = .ok start ∧
      ∀ p, Reached start p →
        HandoffBoundary p.parts ∧
          (∃ q, p.afterRestart = .ok q ∧
            fromData p.toData outboxId attemptNumber plan.fingerprint = .ok q) ∧
          ∀ otherId otherAttempt otherFingerprint,
            ¬(otherId = p.outboxId ∧ otherAttempt = p.attemptNumber ∧
              otherFingerprint = p.plan.fingerprint) →
            ∃ e, fromData p.toData otherId otherAttempt otherFingerprint = .error e := by
  obtain ⟨start, hstart⟩ := bind_returns (reproducible_of_planned hplan) hid hlen hattempt
  obtain ⟨hstartId, hstartAttempt, hstartPlan, -⟩ := make_ok hstart
  refine ⟨start, hstart, fun p hp => ⟨?_, ?_, fun _ _ _ h => fromData_mismatch p h⟩⟩
  · exact handoffBoundary_of_ordered (checkProgress_iff.mp p.valid).2.2.2.2.2
  · obtain ⟨q, hq⟩ := p.afterRestart_returns
    obtain ⟨hpId, hpAttempt, hpPlan⟩ := hp.same
    refine ⟨q, hq, ?_⟩
    rw [← hq, ← fromData_toData, hpId, hpAttempt, hpPlan, hstartId, hstartAttempt, hstartPlan]

/-- A text of three parts, bound and begun. -/
theorem radio_attempt_round_trip_begun :
    ∃ plan start p, planRadioText "hello dear radio" 12 "" 16 = some (.ok plan) ∧
      bind "outbox-1" 1 plan = .ok start ∧ start.begin 1 = .ok p ∧
      ∃ q, p.afterRestart = .ok q ∧ fromData p.toData "outbox-1" 1 plan.fingerprint = .ok q := by
  have hrun : planRadioText "hello dear radio" 12 "" 16 =
      some (.ok (planOf 12 [] "hello dear radio".toList
        ["hello ".toList, "dear ".toList, "radio".toList])) :=
    planRadioText_ok.mpr ⟨⟨by decide, by decide, by decide, by decide, by decide, by decide⟩,
      by decide, _, by unfold BodiesOf; decide, rfl⟩
  obtain ⟨start, hstart, hreached⟩ :=
    radio_attempt_round_trip hrun (show "outbox-1" ≠ "" by decide) (by decide) (le_refl 1)
  have hparts : start.parts = [{ ordinal := 1 }, { ordinal := 2 }, { ordinal := 3 }] :=
    (make_ok hstart).2.2.2
  obtain ⟨p, hp, -⟩ := replacePart_of (r := start) (k := 1)
    (q := { ordinal := 1, state := .submitting }) (p := { ordinal := 1 }) rfl (le_refl 1) rfl
    (by rw [hparts]; rfl) (by decide) (fun j hj => absurd hj (Nat.not_lt_zero j))
  have hbegin : start.begin 1 = .ok p := by
    unfold RadioAttemptProgress.begin
    rw [if_neg]
    · exact hp
    · rw [nextUnsent, hparts]
      decide
  exact ⟨_, start, p, hrun, hstart, hbegin, (hreached p (.begin .bound hbegin)).2.1⟩

end RadioAttemptProgress

end Medre.Rendering
