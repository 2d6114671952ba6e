import Medre.Rendering.RadioText

/-! # Attempt-bound radio handoff progress (`core/rendering/radio_progress.py`)

The dataclasses validate themselves on construction; here a value that passed is a structure with
the proof that it did. -/

namespace Medre.Rendering

open List Medre.Framework

inductive RadioPartState where
  | unsent
  | submitting
  | accepted
  | unknown
deriving DecidableEq, Repr

/-- `RadioPartProgress` before its check. -/
structure RadioPartProgress where
  ordinal : ℤ
  state : RadioPartState := .unsent
  handoffId : Option String := none
deriving DecidableEq, Repr

/-- `RadioPartProgress.__post_init__`. -/
def RadioPartProgress.check (p : RadioPartProgress) : Except String Unit :=
  if ¬(1 ≤ p.ordinal ∧ p.ordinal ≤ maxRadioTextParts) then
    .error "invalid radio part ordinal"
  else if ¬((p.state = .accepted) ↔ p.handoffId.isSome) then
    .error "accepted radio part requires an exclusive handoff ID"
  else if p.handoffId.any fun h => pyStrip h = "" || 1024 < h.length then
    .error "invalid radio native handoff reference"
  else .ok ()

/-- The plan is what the planner computes from its own bodies. -/
def reproducible (plan : RadioTextPlan) : Except String Unit :=
  if plan.schemaVersion ≠ 1 then
    .error "radio attempt requires a typed immutable wire plan"
  else if ¬(1 ≤ plan.parts.length ∧ plan.parts.length ≤ maxRadioTextParts) ∨
      maxRadioSourceBytes < (plan.parts.map fun p => p.body.length).sum then
    .error "radio attempt plan exceeds bounded source limits"
  else
    match planRadioText (String.join (plan.parts.map RadioTextPart.body))
        plan.maxTextBytes plan.pre maxRadioTextParts with
    | none => .error "plan_radio_text does not return"
    | some (.error e) => .error e
    | some (.ok expected) =>
      if plan = expected then .ok ()
      else .error "radio attempt plan does not match source and wire digests"

/-- Accepted parts come first, at most one part is in flight, the rest is
unsent. -/
def boundaryOrdered : (blocked : Bool) → List RadioPartProgress → Bool
  | _, [] => true
  | blocked, p :: ps =>
    !(blocked && p.state ≠ .unsent) && boundaryOrdered (blocked || p.state ≠ .accepted) ps

/-- The parts carry the ordinals `n, n+1, ...`. -/
def contiguousFrom : ℤ → List RadioPartProgress → Bool
  | _, [] => true
  | n, p :: ps => p.ordinal = n && contiguousFrom (n + 1) ps

/-- `RadioAttemptProgress.__post_init__`. -/
def checkProgress (outboxId : String) (attemptNumber : ℤ) (plan : RadioTextPlan)
    (parts : List RadioPartProgress) : Except String Unit :=
  if outboxId = "" ∨ 1024 < outboxId.length then .error "outbox identity is required"
  else if attemptNumber < 1 then .error "attempt generation must be positive"
  else
    match reproducible plan with
    | .error e => .error e
    | .ok () =>
      if parts.length ≠ plan.parts.length then
        .error "radio attempt progress does not cover every part"
      else if ¬contiguousFrom 1 parts then
        .error "radio attempt ordinals are not contiguous"
      else if ¬boundaryOrdered false parts then
        .error "accepted parts must form a prefix; later parts remain unsent"
      else .ok ()

/-- `RadioAttemptProgress`: checked progress over one reserved attempt. -/
structure RadioAttemptProgress where
  outboxId : String
  attemptNumber : ℤ
  plan : RadioTextPlan
  parts : List RadioPartProgress
  checked : ∀ p ∈ parts, p.check = .ok ()
  valid : checkProgress outboxId attemptNumber plan parts = .ok ()
deriving DecidableEq

namespace RadioAttemptProgress

def checkParts : List RadioPartProgress → Except String Unit
  | [] => .ok ()
  | p :: ps =>
    match p.check with
    | .error e => .error e
    | .ok () => checkParts ps

theorem checkParts_ok {ps : List RadioPartProgress} (h : checkParts ps = .ok ()) :
    ∀ p ∈ ps, p.check = .ok () := by
  induction ps with
  | nil =>
    intro p hp
    exact absurd hp not_mem_nil
  | cons q ps ih =>
    intro p hp
    unfold checkParts at h
    split at h
    · cases h
    · rename_i hq
      rcases mem_cons.mp hp with rfl | hp
      · exact hq
      · exact ih h p hp

def make (outboxId : String) (attemptNumber : ℤ) (plan : RadioTextPlan)
    (parts : List RadioPartProgress) : Except String RadioAttemptProgress :=
  match hp : checkParts parts with
  | .error e => .error e
  | .ok () =>
    match hv : checkProgress outboxId attemptNumber plan parts with
    | .error e => .error e
    | .ok () => .ok ⟨outboxId, attemptNumber, plan, parts, checkParts_ok hp, hv⟩

def bind (outboxId : String) (attemptNumber : ℤ) (plan : RadioTextPlan) :
    Except String RadioAttemptProgress :=
  make outboxId attemptNumber plan (plan.parts.map fun p => { ordinal := p.ordinal })

/-- `next_unsent`: the next permissible packet. -/
def nextUnsentIn : List RadioPartProgress → Option ℤ
  | [] => none
  | p :: ps =>
    if p.state = .unsent then some p.ordinal
    else if p.state ≠ .accepted then none
    else nextUnsentIn ps

def nextUnsent (r : RadioAttemptProgress) : Option ℤ := nextUnsentIn r.parts

/-- `_replace_part`: the part at an ordinal is replaced and the snapshot
checked again. -/
def replacePart (r : RadioAttemptProgress) (ordinal : ℤ) (p : RadioPartProgress) :
    Except String RadioAttemptProgress :=
  make r.outboxId r.attemptNumber r.plan (r.parts.set (ordinal.toNat - 1) p)

def begin (r : RadioAttemptProgress) (ordinal : ℤ) : Except String RadioAttemptProgress :=
  if r.nextUnsent ≠ some ordinal then
    .error "radio part not eligible for native submission"
  else r.replacePart ordinal { ordinal, state := .submitting }

def observe (r : RadioAttemptProgress) (ordinal : ℤ) (handoffId : Option String) :
    Except String RadioAttemptProgress :=
  if ¬(1 ≤ ordinal ∧ ordinal ≤ r.parts.length) then
    .error "radio part ordinal does not belong to this attempt"
  else if (r.parts[ordinal.toNat - 1]?).any (fun p => p.state ≠ .submitting) then
    .error "radio part has no active native submission"
  else
    match handoffId with
    | some h => r.replacePart ordinal { ordinal, state := .accepted, handoffId := some h }
    | none => r.replacePart ordinal { ordinal, state := .unknown }

/-- `after_restart`: an interrupted native call becomes unknown. -/
def afterRestart (r : RadioAttemptProgress) : Except String RadioAttemptProgress :=
  match r.parts.find? fun p => p.state = .submitting with
  | none => .ok r
  | some p => r.replacePart p.ordinal { ordinal := p.ordinal, state := .unknown }

end RadioAttemptProgress

/-- `to_data()`: the closed record that is written to storage. -/
structure RadioProgressData where
  schemaVersion : ℤ := 1
  outboxId : String
  attemptNumber : ℤ
  plan : RadioTextPlan
  parts : List RadioPartProgress
deriving DecidableEq, Repr

namespace RadioAttemptProgress

def toData (r : RadioAttemptProgress) : RadioProgressData where
  outboxId := r.outboxId
  attemptNumber := r.attemptNumber
  plan := r.plan
  parts := r.parts

def isFingerprint (s : String) : Bool :=
  s.length = 64 && s.toList.all fun c => ('0' ≤ c && c ≤ '9') || ('a' ≤ c && c ≤ 'f')

/-- `RadioAttemptProgress.from_data`; interrupted calls come back unknown. -/
def fromData (data : RadioProgressData) (expectedOutboxId : String)
    (expectedAttemptNumber : ℤ) (expectedPlanFingerprint : String) :
    Except String RadioAttemptProgress :=
  if expectedOutboxId = "" ∨ 1024 < expectedOutboxId.length ∨ expectedAttemptNumber < 1 ∨
      ¬isFingerprint expectedPlanFingerprint then
    .error "invalid authoritative radio attempt claim"
  else if data.schemaVersion ≠ 1 then .error "unknown radio progress record"
  else if data.outboxId ≠ expectedOutboxId ∨ data.attemptNumber ≠ expectedAttemptNumber then
    .error "retained radio evidence belongs to another attempt"
  else if data.plan.schemaVersion ≠ 1 ∨ data.plan.fingerprint ≠ expectedPlanFingerprint then
    .error "retained plan does not match the authoritative claim"
  else if ¬(1 ≤ data.plan.parts.length ∧ data.plan.parts.length ≤ maxRadioTextParts) then
    .error "invalid retained radio part count"
  else if data.parts.length ≠ data.plan.parts.length then
    .error "radio attempt progress does not cover every part"
  else if maxRadioSourceBytes < (data.plan.parts.map fun p => p.body.length).sum then
    .error "invalid retained radio body"
  else
    match planRadioText (String.join (data.plan.parts.map RadioTextPart.body))
        data.plan.maxTextBytes data.plan.pre maxRadioTextParts with
    | none => .error "plan_radio_text does not return"
    | some (.error e) => .error e
    | some (.ok computed) =>
      if data.plan ≠ computed then
        .error "radio plan content or fingerprint differs from retained evidence"
      else
        match make data.outboxId data.attemptNumber computed data.parts with
        | .error e => .error e
        | .ok r => r.afterRestart

end RadioAttemptProgress

/-! ## Parts do not go back

A part that has left `unsent` stays out of it through every transition of one
attempt's progress. -/

/-- Every part of `ps` that has been started is in `qs`, under its ordinal, as
one that has been started. -/
def KeepsStarted (ps qs : List RadioPartProgress) : Prop :=
  ∀ p ∈ ps, p.state ≠ .unsent → ∃ q ∈ qs, q.ordinal = p.ordinal ∧ q.state ≠ .unsent

theorem KeepsStarted.refl (ps : List RadioPartProgress) : KeepsStarted ps ps :=
  fun p hp hstate => ⟨p, hp, rfl, hstate⟩

theorem KeepsStarted.trans {ps qs rs : List RadioPartProgress} (h : KeepsStarted ps qs)
    (h' : KeepsStarted qs rs) : KeepsStarted ps rs := by
  intro p hp hstate
  obtain ⟨q, hq, hqp, hstate⟩ := h p hp hstate
  obtain ⟨r, hr, hrq, hstate⟩ := h' q hq hstate
  exact ⟨r, hr, hrq.trans hqp, hstate⟩

theorem contiguousFrom_ordinal {n : ℤ} {ps : List RadioPartProgress}
    (h : contiguousFrom n ps = true) {i : ℕ} {p : RadioPartProgress} (hp : ps[i]? = some p) :
    p.ordinal = n + i := by
  induction ps generalizing n i with
  | nil => simp at hp
  | cons q ps ih =>
    simp only [contiguousFrom, Bool.and_eq_true, decide_eq_true_eq] at h
    cases i with
    | zero =>
      cases hp
      simp [h.1]
    | succ i =>
      rw [ih h.2 hp]
      push_cast
      omega

theorem nextUnsentIn_mem {ps : List RadioPartProgress} {k : ℤ}
    (h : RadioAttemptProgress.nextUnsentIn ps = some k) :
    ∃ p ∈ ps, p.ordinal = k ∧ p.state = .unsent := by
  induction ps with
  | nil => cases h
  | cons q ps ih =>
    unfold RadioAttemptProgress.nextUnsentIn at h
    split at h
    · rename_i hq
      cases h
      exact ⟨q, mem_cons_self, rfl, hq⟩
    · split at h
      · cases h
      · obtain ⟨p, hp, hk, hstate⟩ := ih h
        exact ⟨p, mem_cons_of_mem q hp, hk, hstate⟩

namespace RadioAttemptProgress

variable {r r' : RadioAttemptProgress} {k : ℤ} {p : RadioPartProgress}

theorem contiguous (r : RadioAttemptProgress) : contiguousFrom 1 r.parts = true := by
  have h := r.valid
  unfold checkProgress at h
  repeat' (split at h; · cases h)
  rename_i hcontiguous _
  simpa using hcontiguous

theorem eq_of_ordinal (r : RadioAttemptProgress) {p q : RadioPartProgress} (hp : p ∈ r.parts)
    (hq : q ∈ r.parts) (h : p.ordinal = q.ordinal) : p = q := by
  obtain ⟨i, hi⟩ := mem_iff_getElem?.mp hp
  obtain ⟨j, hj⟩ := mem_iff_getElem?.mp hq
  have hpi := contiguousFrom_ordinal r.contiguous hi
  have hqj := contiguousFrom_ordinal r.contiguous hj
  obtain rfl : i = j := by omega
  rw [hi] at hj
  exact Option.some.inj hj

theorem make_ok {o : String} {a : ℤ} {plan : RadioTextPlan} {parts : List RadioPartProgress}
    (h : make o a plan parts = .ok r) :
    r.outboxId = o ∧ r.attemptNumber = a ∧ r.plan = plan ∧ r.parts = parts := by
  unfold make at h
  split at h
  · cases h
  · split at h
    · cases h
    · cases h
      exact ⟨rfl, rfl, rfl, rfl⟩

theorem replacePart_keepsStarted (h : r.replacePart k p = .ok r') (hk : 1 ≤ k)
    (hp : p.ordinal = k) (hstate : p.state ≠ .unsent) : KeepsStarted r.parts r'.parts := by
  intro q hq hq'
  rw [(make_ok h).2.2.2]
  obtain ⟨i, hi⟩ := mem_iff_getElem?.mp hq
  have hord := contiguousFrom_ordinal r.contiguous hi
  by_cases hik : i = k.toNat - 1
  · subst hik
    refine ⟨p, mem_iff_getElem?.mpr ⟨k.toNat - 1, ?_⟩, ?_, hstate⟩
    · rw [List.getElem?_set_self (List.getElem?_eq_some_iff.mp hi).1]
    · omega
  · refine ⟨q, mem_iff_getElem?.mpr ⟨i, ?_⟩, rfl, hq'⟩
    rw [List.getElem?_set_ne (Ne.symm hik)]
    exact hi

theorem begin_ok (h : r.begin k = .ok r') :
    (∃ q ∈ r.parts, q.ordinal = k ∧ q.state = .unsent) ∧ KeepsStarted r.parts r'.parts ∧
      ∃ q ∈ r'.parts, q.ordinal = k ∧ q.state ≠ .unsent := by
  unfold begin at h
  split at h
  · cases h
  · rename_i hnext
    obtain ⟨q, hq, hqk, hunsent⟩ := nextUnsentIn_mem (not_not.mp hnext)
    obtain ⟨i, hi⟩ := mem_iff_getElem?.mp hq
    have hord := contiguousFrom_ordinal r.contiguous hi
    refine ⟨⟨q, hq, hqk, hunsent⟩, replacePart_keepsStarted h (by omega) rfl (by simp), ?_⟩
    refine ⟨{ ordinal := k, state := .submitting }, ?_, rfl, by simp⟩
    rw [(make_ok h).2.2.2]
    refine mem_iff_getElem?.mpr ⟨i, ?_⟩
    obtain rfl : i = k.toNat - 1 := by omega
    rw [List.getElem?_set_self (List.getElem?_eq_some_iff.mp hi).1]

theorem observe_keepsStarted {handoffId : Option String} (h : r.observe k handoffId = .ok r') :
    KeepsStarted r.parts r'.parts := by
  unfold observe at h
  split at h
  · cases h
  · rename_i hrange
    have hk : 1 ≤ k := (not_not.mp hrange).1
    split at h
    · cases h
    · split at h
      · exact replacePart_keepsStarted h hk rfl (by simp)
      · exact replacePart_keepsStarted h hk rfl (by simp)

theorem afterRestart_keepsStarted (h : r.afterRestart = .ok r') :
    KeepsStarted r.parts r'.parts := by
  unfold afterRestart at h
  split at h
  · cases h
    exact .refl _
  · rename_i q hfind
    obtain ⟨i, hi⟩ := mem_iff_getElem?.mp (mem_of_find?_eq_some hfind)
    have hord := contiguousFrom_ordinal r.contiguous hi
    exact replacePart_keepsStarted h (by omega) rfl (by simp)

end RadioAttemptProgress

end Medre.Rendering
