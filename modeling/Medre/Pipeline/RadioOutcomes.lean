import Medre.Pipeline.RadioDelivery
import Medre.Storage.RadioEvidence

/-! # Whole-plan radio delivery fails closed

The world of a delivery is any store that follows the checkpoint semantics, with any adapter and
any clock. Between two calls it may change at will, but nobody else moves the attempt while none
of its parts is in flight. -/

namespace Medre.Pipeline

open List Medre.Framework Medre.Rendering Medre.Storage
open RadioAttemptProgress (acceptedFront acceptedFront_cons acceptedFront_append
  acceptedFront_eq_nil accept_next)

variable {a submitting : StoredRadioAttempt} {deadline : Option Datetime} {grant : Submission}
  {handoff : AdapterHandoffResult} {e exc : Raised} {n : ℕ} {covered : Covered}
  {q : RadioPartProgress} {resumeFrom : Option StoredRadioAttempt} {plan : RadioTextPlan}
  {confirmations : List AdapterHandoffResult} {r : Except Err Answer}

/-! ## The world of a delivery -/

/-- What answers the calls of a delivery; `stored` is the stored attempt of its claim. -/
structure RadioWorld (σ : Type) where
  stored : σ → Option StoredRadioAttempt
  clock : σ → Datetime
  bind : σ → DeliveryAttemptProvenance → Option String → RadioTextPlan →
    Option StoredRadioAttempt → σ × Except Raised (Option StoredRadioAttempt)
  begin : σ → StoredRadioAttempt → String → ℤ → Option Datetime →
    σ × Except Raised (Option StoredRadioAttempt)
  observe : σ → StoredRadioAttempt → Option String → ℤ → Option String →
    σ × Except Raised (Option StoredRadioAttempt)
  deliver : σ → RenderingResult → σ × AdapterRun

/-- A call of `deliver`: the packet it is handed and the stored attempt it finds. -/
structure Delivery where
  packet : RenderingResult
  stored : Option StoredRadioAttempt

/-- A state of the world with the calls of `deliver` so far. -/
abbrev Logged (σ : Type) := σ × List Delivery

namespace RadioWorld

variable {σ : Type} (w : RadioWorld σ)

def answer (s : Logged σ) : (c : RadioCall) → Logged σ × c.Answer
  | .bind provenance workerId plan predecessor =>
    let r := w.bind s.1 provenance workerId plan predecessor
    ((r.1, s.2), r.2)
  | .begin expected workerId ordinal deadline =>
    let r := w.begin s.1 expected workerId ordinal deadline
    ((r.1, s.2), r.2)
  | .observe expected workerId ordinal handoffId =>
    let r := w.observe s.1 expected workerId ordinal handoffId
    ((r.1, s.2), r.2)
  | .now => (s, w.clock s.1)
  | .deliver packet =>
    let r := w.deliver s.1 packet
    ((r.1, s.2 ++ [⟨packet, w.stored s.1⟩]), r.2)

/-- What may happen between two calls: the stored attempt stays as it is unless one of its
parts is in flight. -/
def Others (s t : Logged σ) : Prop :=
  t.2 = s.2 ∧ (w.stored t.1 = w.stored s.1 ∨
    ∃ a p, w.stored s.1 = some a ∧ p ∈ a.progress.parts ∧ p.state = .submitting)

def Settled (a : StoredRadioAttempt) : Prop :=
  ∀ p ∈ a.progress.parts, p.state = .accepted ∨ p.state = .unsent

/-- The checkpoint semantics of a store for one claim. A call that answers with a checkpoint has
compared and committed it; a `begin_radio_part` that does not has committed nothing; binding raises
no adapter error. -/
structure Follows (claim : DeliveryAttemptProvenance) : Prop where
  bound : ∀ s workerId plan predecessor a,
    (w.bind s claim workerId plan predecessor).2 = .ok (some a) →
      w.stored (w.bind s claim workerId plan predecessor).1 = some a ∧ a.provenance = claim ∧
        Settled a ∧ a.progress.plan = plan
  bindRaises : ∀ s workerId plan predecessor e,
    (w.bind s claim workerId plan predecessor).2 = .error e → e.isTransient = false
  begun : ∀ s expected workerId ordinal deadline a, expected.provenance = claim →
    (w.begin s expected workerId ordinal deadline).2 = .ok (some a) →
      w.stored s = some expected ∧ expected.progress.begin ordinal = .ok a.progress ∧
        a.provenance = claim ∧
        w.stored (w.begin s expected workerId ordinal deadline).1 = some a
  notBegun : ∀ s expected workerId ordinal deadline, expected.provenance = claim →
    (∀ a, (w.begin s expected workerId ordinal deadline).2 ≠ .ok (some a)) →
      w.stored (w.begin s expected workerId ordinal deadline).1 = w.stored s
  observed : ∀ s expected workerId ordinal handoffId a, expected.provenance = claim →
    (w.observe s expected workerId ordinal handoffId).2 = .ok (some a) →
      w.stored s = some expected ∧ expected.progress.observe ordinal handoffId =
        .ok a.progress ∧ a.provenance = claim ∧
        w.stored (w.observe s expected workerId ordinal handoffId).1 = some a
  delivered : ∀ s packet, w.stored (w.deliver s packet).1 = w.stored s

/-- What a task ensures in the world. -/
abbrev Ensures {α : Type} (t : Delivering α) (Q : α → Logged σ → Prop)
    (E : Raised → Logged σ → Prop) (s : Logged σ) : Prop :=
  Task.wp w.answer w.Others (fun _ _ => True) t Q E s

variable {w}

theorem ensures_pure {α : Type} {a : α} {Q : α → Logged σ → Prop}
    {E : Raised → Logged σ → Prop} {s : Logged σ} (h : Q a s) :
    w.Ensures (pure a) Q E s := h

theorem Others.stored {s t : Logged σ} (h : w.Others s t) (hsettled : Settled a)
    (ha : w.stored s.1 = some a) : w.stored t.1 = some a := by
  obtain ⟨-, hsame | ⟨b, p, hb, hp, hstate⟩⟩ := h
  · rw [hsame, ha]
  · rw [ha] at hb
    cases hb
    rcases hsettled p hp with hp | hp
    · rw [hp] at hstate
      cases hstate
    · rw [hp] at hstate
      cases hstate

end RadioWorld

open RadioWorld (Settled ensures_pure)

/-! ## The grant -/

section Grant

variable {σ : Type} {w : RadioWorld σ} {claim : DeliveryAttemptProvenance}
  {checkpoint : StoredRadioAttempt} {ordinal : ℤ} {log : List Delivery}
  {E : Raised → Logged σ → Prop} {s : Logged σ}

theorem ensures_withinDeadline {P : Logged σ → Prop}
    (hstable : ∀ s t, w.Others s t → P s → P t) (h : P s) :
    w.Ensures (withinDeadline deadline) (fun _ t => P t) E s := by
  cases deadline with
  | none => exact h
  | some d => exact fun t hothers => ⟨trivial, hstable s t hothers h⟩

theorem ensures_beginCall (hw : w.Follows claim) (hown : checkpoint.provenance = claim)
    (hsettled : Settled checkpoint) {worker : String} (hs : w.stored s.1 = some checkpoint) :
    w.Ensures (put (.begin checkpoint worker ordinal deadline))
      (fun (answer : Except Raised (Option StoredRadioAttempt)) t => t.2 = s.2 ∧
        (∀ a, answer = .ok (some a) →
          a.provenance = claim ∧ checkpoint.progress.begin ordinal = .ok a.progress) ∧
        ((∀ a, answer ≠ .ok (some a)) → w.stored t.1 = some checkpoint)) E s := by
  refine Task.wp_perform fun t hothers => ⟨trivial, hothers.1, ?_, ?_⟩
  · intro a ha
    obtain ⟨-, hbegin, hprov, -⟩ := hw.begun t.1 checkpoint worker ordinal deadline a hown ha
    exact ⟨hprov, hbegin⟩
  · intro hno
    exact (hw.notBegun t.1 checkpoint worker ordinal deadline hown hno).trans
      (hothers.stored hsettled hs)

/-- The state of a grant: without a submission the stored attempt is the checkpoint it was made
for, and a submission it holds began its part. -/
structure Granted (w : RadioWorld σ) (claim : DeliveryAttemptProvenance)
    (checkpoint : StoredRadioAttempt) (ordinal : ℤ) (log : List Delivery) (grant : Submission)
    (s : Logged σ) : Prop where
  made : grant.checkpoint = checkpoint ∧ grant.ordinal = ordinal
  calls : s.2 = log
  unstarted : grant.submitting = none → w.stored s.1 = some checkpoint
  started : ∀ a, grant.submitting = some a → a.provenance = claim ∧
    checkpoint.progress.begin ordinal = .ok a.progress
  fresh : grant.entered = false → grant.submitting = none

theorem Granted.others {t : Logged σ} (h : Granted w claim checkpoint ordinal log grant s)
    (hsettled : Settled checkpoint) (hothers : w.Others s t) :
    Granted w claim checkpoint ordinal log grant t :=
  { h with
    calls := hothers.1.trans h.calls
    unstarted := fun hnone => hothers.stored hsettled (h.unstarted hnone) }

theorem ensures_begin (hw : w.Follows claim) (hown : checkpoint.provenance = claim)
    (hsettled : Settled checkpoint) (h : Granted w claim checkpoint ordinal log grant s) :
    w.Ensures grant.begin (fun r => Granted w claim checkpoint ordinal log r.1) E s := by
  obtain ⟨rfl, rfl⟩ := h.made
  unfold Submission.begin
  split
  · exact ensures_pure h
  rename_i hfresh
  have hnone : grant.submitting = none := h.fresh (by simpa using hfresh)
  have hentered : ∀ {t}, Granted w claim grant.checkpoint grant.ordinal log grant t →
      Granted w claim grant.checkpoint grant.ordinal log { grant with entered := true } t :=
    fun ht => { ht with fresh := nofun }
  split
  · exact ensures_pure (hentered h)
  · refine Task.wp_seq (ensures_withinDeadline
      (fun s t hothers hs => Granted.others hs hsettled hothers) h) fun early s₁ h₁ => ?_
    cases early with
    | error e => exact ensures_pure (hentered h₁)
    | ok u =>
      refine Task.wp_seq (ensures_beginCall hw hown hsettled (h₁.unstarted hnone)) ?_
      rintro answer t ⟨hcalls, hok, hno⟩
      have hrefused : (∀ a, answer ≠ .ok (some a)) →
          Granted w claim grant.checkpoint grant.ordinal log grant t := fun hanswer =>
        { h₁ with calls := hcalls.trans h₁.calls, unstarted := fun _ => hno hanswer }
      match answer with
      | .error e => exact ensures_pure (hentered (hrefused fun _ h => by cases h))
      | .ok none => exact ensures_pure (hentered (hrefused fun _ h => by cases h))
      | .ok (some a) =>
        have hgranted : Granted w claim grant.checkpoint grant.ordinal log
            { grant with entered := true, submitting := some a } t :=
          { made := ⟨rfl, rfl⟩
            calls := hcalls.trans h₁.calls
            unstarted := nofun
            started := by
              rintro _ ⟨⟩
              exact hok a rfl
            fresh := nofun }
        exact Task.wp_seq (ensures_withinDeadline
          (fun s t hothers hs => Granted.others hs hsettled hothers) hgranted)
          fun late t' h' => ensures_pure h'

theorem ensures_runAdapter (hw : w.Follows claim) (hown : checkpoint.provenance = claim)
    (hsettled : Settled checkpoint) (behaviour : AdapterRun)
    (h : Granted w claim checkpoint ordinal log grant s) :
    w.Ensures (runAdapter behaviour grant)
      (fun r => Granted w claim checkpoint ordinal log r.1) E s := by
  induction behaviour generalizing grant s with
  | returns value => exact ensures_pure h
  | raises e => exact ensures_pure h
  | grant next ih =>
    exact Task.wp_seq (ensures_begin hw hown hsettled h) fun r t ht => ih r.2 ht

end Grant

/-! ## One packet -/

section Packet

variable {σ : Type} {w : RadioWorld σ} {claim : DeliveryAttemptProvenance}
  {checkpoint : StoredRadioAttempt} {ordinal : ℤ} {codec : HandoffCodec}
  {fingerprint workerId : Option String} {E : Raised → Logged σ → Prop}
  {s : Logged σ}

/-- What has come of one packet. On success its part was submitted and accepted; on failure the
attempt is untouched unless the grant holds a submission. -/
structure Submitted (w : RadioWorld σ) (claim : DeliveryAttemptProvenance)
    (codec : HandoffCodec) (fingerprint : Option String) (checkpoint : StoredRadioAttempt)
    (ordinal : ℤ) (packet : RenderingResult) (log : List Delivery)
    (r : Submission × Except Raised (StoredRadioAttempt × AdapterHandoffResult))
    (s : Logged σ) : Prop where
  calls : s.2 = log ++ [⟨packet, some checkpoint⟩]
  accepted : ∀ accepted handoff, r.2 = .ok (accepted, handoff) →
    w.stored s.1 = some accepted ∧ accepted.provenance = claim ∧
      ∃ mid, checkpoint.progress.begin ordinal = .ok mid ∧
        mid.observe ordinal (some (handoffReference codec handoff ordinal fingerprint)) =
          .ok accepted.progress
  failed : ∀ e, r.2 = .error e →
    (r.1.submitting = none → w.stored s.1 = some checkpoint) ∧
      (r.1.entered = false → r.1.submitting = none)

variable {log : List Delivery} {packet : RenderingResult}

theorem Granted.failed
    (h : Granted w claim checkpoint ordinal (log ++ [⟨packet, some checkpoint⟩]) grant s)
    (e : Raised) :
    Submitted w claim codec fingerprint checkpoint ordinal packet log (grant, .error e) s where
  calls := h.calls
  accepted := fun _ _ hok => by cases hok
  failed := fun _ _ => ⟨h.unstarted, h.fresh⟩

theorem Submitted.of_accepted (hcalls : s.2 = log ++ [⟨packet, some checkpoint⟩])
    (hbegin : checkpoint.progress.begin ordinal = .ok submitting.progress)
    (h : w.stored s.1 = some a ∧ a.provenance = claim ∧
      submitting.progress.observe ordinal
      (some (handoffReference codec handoff ordinal fingerprint)) = .ok a.progress) :
    Submitted w claim codec fingerprint checkpoint ordinal packet log (grant, .ok (a, handoff))
      s where
  calls := hcalls
  accepted := by
    rintro _ _ ⟨⟩
    exact ⟨h.1, h.2.1, _, hbegin, h.2.2⟩
  failed := fun _ hno => by cases hno

theorem ensures_submitPart (hw : w.Follows claim) (hown : checkpoint.provenance = claim)
    (hsettled : Settled checkpoint) (hs : w.stored s.1 = some checkpoint) :
    w.Ensures (submitPart codec fingerprint workerId ordinal packet
        { checkpoint, workerId, ordinal, deadline })
      (Submitted w claim codec fingerprint checkpoint ordinal packet s.2) E s := by
  refine Task.wp_seq (Task.wp_perform (Q := fun _ t => Granted w claim checkpoint ordinal
    (s.2 ++ [⟨packet, some checkpoint⟩]) { checkpoint, workerId, ordinal, deadline } t) ?_) ?_
  · intro t hothers
    have ht : w.stored t.1 = some checkpoint := hothers.stored hsettled hs
    refine ⟨trivial, ⟨rfl, rfl⟩, ?_, fun _ => (hw.delivered t.1 packet).trans ht,
      (fun _ h => by cases h), fun _ => rfl⟩
    show t.2 ++ [⟨packet, w.stored t.1⟩] = _
    rw [hothers.1, ht]
  rintro behaviour t ht
  refine Task.wp_seq (ensures_runAdapter hw hown hsettled behaviour ht) ?_
  rintro ⟨grant, answer⟩ t₁ h₁
  cases answer with
  | error e => exact ensures_pure (h₁.failed e)
  | ok value =>
    dsimp only
    cases hsub : grant.submitting with
    | none => exact ensures_pure (h₁.failed _)
    | some submitting =>
      dsimp only
      obtain ⟨hprov, hbegin⟩ := h₁.started submitting hsub
      have hfail : ∀ {t : Logged σ} (e : Raised), t.2 = t₁.2 →
          Submitted w claim codec fingerprint checkpoint ordinal packet s.2 (grant, .error e)
            t := by
        intro t e hcalls
        refine ⟨hcalls.trans h₁.calls, (fun _ _ hok => by cases hok),
          fun _ _ => ⟨fun hnone => ?_, h₁.fresh⟩⟩
        rw [hsub] at hnone
        cases hnone
      split
      · exact ensures_pure (hfail _ rfl)
      · rename_i handoff _
        refine Task.wp_seq (Task.wp_perform (Q := fun
          (answer : Except Raised (Option StoredRadioAttempt)) t => t.2 = t₁.2 ∧
            ∀ a, answer = .ok (some a) → w.stored t.1 = some a ∧ a.provenance = claim ∧
              submitting.progress.observe ordinal
                (some (handoffReference codec handoff ordinal fingerprint)) =
                  .ok a.progress) ?_) ?_
        · intro t hothers
          refine ⟨trivial, hothers.1, fun a ha => ?_⟩
          obtain ⟨-, hobserve, hprov', hstored⟩ := hw.observed t.1 submitting workerId ordinal
            _ a hprov ha
          exact ⟨hstored, hprov', hobserve⟩
        · rintro answer t₂ ⟨hcalls, hok⟩
          match answer with
          | .error e => exact ensures_pure (hfail e hcalls)
          | .ok none => exact ensures_pure (hfail _ hcalls)
          | .ok (some a) =>
            exact ensures_pure (Submitted.of_accepted (hcalls.trans h₁.calls) hbegin (hok a rfl))

theorem not_transient_of_not_exception (h : ¬e.isException = true) : e.isTransient = false := by
  cases e with
  | cancelled => rfl
  | exit => rfl
  | send transient text => exact absurd rfl h
  | error e => exact absurd rfl h

theorem classify_transient (hfresh : grant.entered = false → grant.submitting = none)
    (h : (classify codec fingerprint checkpoint grant exc).isTransient = true) :
    grant.submitting = none := by
  unfold classify at h
  split at h
  · rename_i hexc
    rw [not_transient_of_not_exception (by simpa using hexc)] at h
    cases h
  · split at h
    · rename_i hretry
      simp only [Bool.and_eq_true, Bool.not_eq_true'] at hretry
      exact hfresh hretry.1.2
    · split at h
      · cases h
      · rename_i hunsent
        simp only [Bool.or_eq_true, not_or, Bool.not_eq_true, Option.isSome_eq_false_iff,
          Option.isNone_iff_eq_none] at hunsent
        exact hunsent.1

/-- No part is submitting or unknown when a retry is asked for. -/
def RetriesSettled (w : RadioWorld σ) (e : Raised) (s : Logged σ) : Prop :=
  e.isTransient = true → ∀ a, w.stored s.1 = some a → Settled a

theorem retriesSettled_of_not (h : e.isTransient = false) : RetriesSettled w e s := by
  intro htransient
  rw [h] at htransient
  cases htransient

theorem ensures_markUncertain :
    w.Ensures (markUncertain workerId ordinal (some submitting)) (fun _ _ => True)
      (RetriesSettled w) s := by
  refine Task.wp_seq (Task.wp_perform (Q := fun _ _ => True) fun _ _ => ⟨trivial, trivial⟩) ?_
  rintro (e | answer) t -
  · by_cases he : e.isException = true
    · simp only [he, if_true]
      trivial
    · simp only [he]
      exact retriesSettled_of_not (not_transient_of_not_exception he)
  · trivial

theorem ensures_failed (hsettled : Settled checkpoint) {α : Type} {Q : α → Logged σ → Prop}
    (h : Submitted w claim codec fingerprint checkpoint ordinal packet log (grant, .error e) s) :
    w.Ensures (do
        markUncertain workerId ordinal grant.submitting
        (Task.raise (classify codec fingerprint checkpoint grant exc) : Delivering α))
      Q (RetriesSettled w) s := by
  obtain ⟨hstored, hfresh⟩ := h.failed e rfl
  cases hsub : grant.submitting with
  | none =>
    intro _ a ha
    rw [hstored hsub] at ha
    cases ha
    exact hsettled
  | some submitting =>
    refine Task.wp_seq ensures_markUncertain fun _ t _ htransient => ?_
    rw [classify_transient hfresh htransient] at hsub
    cases hsub

end Packet

/-! ## The loop -/

section Loop

variable {σ : Type} {w : RadioWorld σ} {claim : DeliveryAttemptProvenance}
  {bound : StoredRadioAttempt} {codec : HandoffCodec} {fingerprint workerId : Option String}
  {s : Logged σ}

/-- What confirms an accepted part: the reference it was bound with, or the handoff the
adapter returned for it. -/
def Confirms (codec : HandoffCodec) (fingerprint : Option String) (bound : StoredRadioAttempt)
    (p : RadioPartProgress) (c : AdapterHandoffResult) : Prop :=
  (p ∈ bound.progress.parts ∧ ∃ evidence, codec.fromPart p bound.provenance = .ok evidence ∧
      localHandoff evidence = .ok c) ∨
    p.handoffId = some (handoffReference codec c p.ordinal fingerprint)

/-- The packet carries the part's text and is otherwise the rendered result without its plan;
it goes out when every part before it was accepted and nothing after. -/
structure Delivers (result : RenderingResult) (part : RadioTextPart) (d : Delivery) : Prop where
  text : d.packet.payload.get? "text" = some (.text part.wireText)
  payload : ∀ key, key ≠ "text" → d.packet.payload.get? key = result.payload.get? key
  rest : d.packet = { result with payload := d.packet.payload, radioPlan := none }
  inOrder : ∃ before, d.stored = some before ∧ ∀ p ∈ before.progress.parts,
    (p.ordinal < part.ordinal → p.state = .accepted) ∧
      (part.ordinal ≤ p.ordinal → p.state = .unsent)

/-- The parts of the bound plan among the first `n` that were not inherited. -/
def ownParts (bound : StoredRadioAttempt) (n : ℕ) : List RadioTextPart :=
  (((bound.progress.plan.parts.zip bound.progress.parts).take n).filter fun i =>
    i.2.state ≠ .accepted).map Prod.fst

/-- The loop has covered the first `n` parts. -/
structure Covers (w : RadioWorld σ) (claim : DeliveryAttemptProvenance) (codec : HandoffCodec)
    (result : RenderingResult) (fingerprint : Option String) (bound : StoredRadioAttempt) (n : ℕ)
    (covered : Covered) (s : Logged σ) : Prop where
  stored : w.stored s.1 = some covered.1
  own : covered.1.provenance = claim
  parts : ∃ front, covered.1.progress.parts = front ++ bound.progress.parts.drop n ∧
    front.length = n ∧ ∀ p ∈ front, p.state = .accepted
  confirmed : List.Forall₂ (Confirms codec fingerprint bound)
    (acceptedFront covered.1.progress.parts) covered.2
  calls : List.Forall₂ (Delivers result) (ownParts bound n) s.2

theorem Covers.settled (hbound : Settled bound)
    (h : Covers w claim codec result fingerprint bound n covered s) : Settled covered.1 := by
  obtain ⟨front, hparts, -, hfront⟩ := h.parts
  intro p hp
  rw [hparts, mem_append] at hp
  rcases hp with hp | hp
  · exact .inl (hfront p hp)
  · exact hbound p (mem_of_mem_drop hp)

section Item

variable {result : RenderingResult} {item : RadioTextPart × RadioPartProgress}
  (hitem : (bound.progress.plan.parts.zip bound.progress.parts)[n]? = some item)
include hitem

theorem ownParts_succ :
    ownParts bound (n + 1) =
      ownParts bound n ++ if item.2.state = .accepted then [] else [item.1] := by
  rw [ownParts, take_add_one, hitem, ownParts, filter_append, map_append]
  by_cases hq : item.2.state = .accepted <;> simp [hq]

theorem Covers.skip (h : Covers w claim codec result fingerprint bound n covered s)
    (hstate : item.2.state = .accepted) :
    Covers w claim codec result fingerprint bound (n + 1) covered s := by
  obtain ⟨front, hparts, hlength, hfront⟩ := h.parts
  refine { h with parts := ⟨front ++ [item.2], ?_, by simp [hlength], ?_⟩, calls := ?_ }
  · rw [hparts, append_assoc, drop_eq_getElem?_toList_append, (getElem?_zip_eq_some.mp hitem).2]
    rfl
  · intro p hp
    rcases mem_append.mp hp with hp | hp
    · exact hfront p hp
    · rw [mem_singleton.mp hp, hstate]
  · rw [ownParts_succ hitem, if_pos hstate, append_nil]
    exact h.calls

theorem Covers.accept {accepted : StoredRadioAttempt} {t : Logged σ}
    (h : Covers w claim codec result fingerprint bound n covered s)
    (hstate : item.2.state = .unsent)
    (hsubmitted : Submitted w claim codec fingerprint covered.1 item.1.ordinal
      (partPacket result item.1) s.2 (grant, .ok (accepted, handoff)) t) :
    Covers w claim codec result fingerprint bound (n + 1) (accepted, covered.2 ++ [handoff]) t := by
  obtain ⟨front, hparts, hlength, hfront⟩ := h.parts
  obtain ⟨hstored, hprov, mid, hbegin, hobserve⟩ := hsubmitted.accepted accepted handoff rfl
  have hsplit : covered.1.progress.parts =
      front ++ item.2 :: bound.progress.parts.drop (n + 1) := by
    rw [hparts, drop_eq_getElem?_toList_append, (getElem?_zip_eq_some.mp hitem).2]
    rfl
  obtain ⟨hk, haccepted⟩ := accept_next hsplit hfront hstate hbegin hobserve
  have hbehind := RadioAttemptProgress.unsent_behind
    (hsplit ▸ (checkProgress_iff.mp covered.1.progress.valid).2.2.2.2.2) hfront
    (by rw [hstate]; decide)
  rw [append_cons] at haccepted
  have hfront' : ∀ p ∈ front ++ [{ ordinal := item.1.ordinal, state := .accepted
                                   handoffId := some (handoffReference codec handoff
                                     item.1.ordinal fingerprint) }], p.state = .accepted := by
    intro p hp
    rcases mem_append.mp hp with hp | hp
    · exact hfront p hp
    · rw [mem_singleton.mp hp]
  refine ⟨hstored, hprov, ⟨_, haccepted, by simp [hlength], hfront'⟩, ?_, ?_⟩
  · -- the new part is confirmed after those before it
    have hold := h.confirmed
    rw [hsplit, RadioAttemptProgress.acceptedFront_stop hfront (by rw [hstate]; decide)] at hold
    rw [haccepted, acceptedFront_append hfront' hbehind]
    exact rel_append hold (.cons (.inr rfl) .nil)
  · rw [hsubmitted.calls, ownParts_succ hitem, if_neg (by rw [hstate]; decide)]
    refine rel_append h.calls (.cons ⟨Dict.get?_set_self, fun _ hkey =>
      Dict.get?_set_of_ne hkey, rfl, covered.1, rfl, fun p hp => ?_⟩ .nil)
    obtain ⟨i, hi⟩ := mem_iff_getElem?.mp hp
    have hord := contiguousFrom_ordinal covered.1.progress.contiguous hi
    have hnext : item.2.ordinal = 1 + (front.length : ℤ) := by
      refine contiguousFrom_ordinal covered.1.progress.contiguous ?_
      rw [hsplit, getElem?_append_right (le_refl _), Nat.sub_self, getElem?_cons_zero]
    rw [hsplit] at hi
    constructor
    · intro hlt
      have hlt : i < front.length := by
        omega
      rw [getElem?_append_left hlt] at hi
      exact hfront p (mem_of_getElem? hi)
    · intro hle
      have hge : front.length ≤ i := by
        omega
      rw [getElem?_append_right hge] at hi
      rcases mem_cons.mp (mem_of_getElem? hi) with rfl | hp
      · exact hstate
      · exact hbehind p hp

theorem ensures_deliverPart (hw : w.Follows claim) (hbound : Settled bound)
    (h : Covers w claim codec result fingerprint bound n covered s) :
    w.Ensures (deliverPart codec result fingerprint workerId deadline covered item)
      (Covers w claim codec result fingerprint bound (n + 1)) (RetriesSettled w) s := by
  unfold deliverPart
  split
  · exact ensures_pure (h.skip hitem (by assumption))
  · rename_i hstate
    have hunsent : item.2.state = .unsent :=
      (hbound item.2 (mem_of_getElem? (getElem?_zip_eq_some.mp hitem).2)).resolve_left hstate
    refine Task.wp_seq (ensures_submitPart hw h.own (h.settled hbound) h.stored) ?_
    rintro ⟨grant, outcome⟩ t ht
    match outcome with
    | .ok (accepted, handoff) => exact ensures_pure (h.accept hitem hunsent ht)
    | .error exc => exact ensures_failed (h.settled hbound) ht

end Item

end Loop

/-! ## The whole plan -/

section Plan

variable {σ : Type} {w : RadioWorld σ} {claim : DeliveryAttemptProvenance}
  {codec : HandoffCodec} {s : Logged σ}

theorem resumable_error {fingerprint : Option String}
    (h : resumable codec fingerprint resumeFrom = .error e) :
    e.isTransient = false := by
  unfold resumable at h
  split at h
  · cases h
  · split at h
    · cases h
      rfl
    · cases h
      rfl
    · cases h

theorem ensures_bindCheckpoint (hw : w.Follows claim) {fingerprint workerId : Option String} :
    w.Ensures (bindCheckpoint codec plan claim fingerprint workerId resumeFrom)
      (fun a t => t.2 = s.2 ∧ w.stored t.1 = some a ∧ a.provenance = claim ∧ Settled a ∧
        a.progress.plan = plan ∧ ∃ s₀, (w.bind s₀ claim workerId plan resumeFrom).2 = .ok (some a))
      (RetriesSettled w) s := by
  have hbind : w.Ensures (put (.bind claim workerId plan resumeFrom))
      (fun (answer : Except Raised (Option StoredRadioAttempt)) t => t.2 = s.2 ∧
        (∀ a, answer = .ok (some a) → w.stored t.1 = some a ∧ a.provenance = claim ∧
          Settled a ∧ a.progress.plan = plan ∧
          ∃ s₀, (w.bind s₀ claim workerId plan resumeFrom).2 = .ok (some a)) ∧
        ∀ e, answer = .error e → e.isTransient = false) (RetriesSettled w) s := by
    refine Task.wp_perform fun t hothers => ⟨trivial, hothers.1, ?_, ?_⟩
    · intro a ha
      obtain ⟨hstored, hprov, hsettled, hplan⟩ := hw.bound t.1 workerId plan resumeFrom a ha
      exact ⟨hstored, hprov, hsettled, hplan, t.1, ha⟩
    · exact fun e he => hw.bindRaises t.1 workerId plan resumeFrom e he
  unfold bindCheckpoint
  cases hresume : resumable codec fingerprint resumeFrom with
  | error e => exact retriesSettled_of_not (resumable_error hresume)
  | ok u =>
    rw [Task.lift_ok_bind]
    refine Task.wp_seq hbind ?_
    rintro answer t ⟨hcalls, hok, herror⟩
    match answer with
    | .error e => exact retriesSettled_of_not (herror e rfl)
    | .ok none => exact retriesSettled_of_not rfl
    | .ok (some a) => exact ensures_pure ⟨hcalls, hok a rfl⟩

theorem acceptedHandoffs_front {provenance : DeliveryAttemptProvenance}
    {parts : List RadioPartProgress} (hordered : boundaryOrdered false parts = true)
    (h : acceptedHandoffs codec provenance parts = .ok confirmations) :
    List.Forall₂ (fun p c => ∃ evidence, codec.fromPart p provenance = .ok evidence ∧
      localHandoff evidence = .ok c) (acceptedFront parts) confirmations := by
  induction parts generalizing confirmations with
  | nil =>
    cases h
    exact .nil
  | cons p parts ih =>
    rw [boundaryOrdered_cons] at hordered
    rw [acceptedFront_cons]
    unfold acceptedHandoffs at h
    by_cases hp : p.state = .accepted
    · rw [if_pos hp] at hordered ⊢
      rw [if_neg (not_not.mpr hp)] at h
      simp only [bind, Except.bind] at h
      split at h
      · cases h
      rename_i evidence hevidence
      split at h
      · cases h
      rename_i handoff hhandoff
      split at h
      · cases h
      rename_i rest hrest
      cases h
      exact .cons ⟨evidence, hevidence, hhandoff⟩ (ih hordered hrest)
    · rw [if_neg hp] at hordered ⊢
      rw [if_pos hp] at h
      have hempty := ih (RadioAttemptProgress.boundaryOrdered_unsent hordered) h
      rw [acceptedFront_eq_nil hordered] at hempty
      cases hempty
      exact .nil

/-- The level of `reported` is the weakest of the confirmations. -/
def IsWeakest (reported : AdapterHandoffResult) (confirmations : List AdapterHandoffResult) :
    Prop :=
  (∃ c ∈ confirmations, c.confirmationLevel = reported.confirmationLevel) ∧
    ∀ c ∈ confirmations,
      confirmationRank reported.confirmationLevel ≤ confirmationRank c.confirmationLevel

theorem aggregate_weakest {reported : AdapterHandoffResult}
    (h : aggregate plan confirmations = .ok reported) (hlength : 1 < confirmations.length) :
    IsWeakest reported confirmations := by
  unfold aggregate at h
  split at h
  · simp at hlength
  · split at h
    · cases h
    · rename_i least hleast
      cases h
      refine ⟨⟨least, argmin_mem hleast, rfl⟩, fun c hc => ?_⟩
      show confirmationRank least.confirmationLevel ≤ _
      exact le_of_mem_argmin (f := fun c : AdapterHandoffResult =>
        confirmationRank c.confirmationLevel) hc hleast

theorem aggregate_error (h : aggregate plan confirmations = .error e) : e.isTransient = false := by
  unfold aggregate at h
  split at h
  · cases h
  · split at h
    · cases h
      rfl
    · cases h

/-- What a delivery that returns has done. -/
structure Complete (w : RadioWorld σ) (codec : HandoffCodec) (result : RenderingResult)
    (workerId : Option String) (resumeFrom : Option StoredRadioAttempt)
    (claim : DeliveryAttemptProvenance) (plan : RadioTextPlan)
    (bound final : StoredRadioAttempt) (confirmations : List AdapterHandoffResult)
    (reported : AdapterHandoffResult) (s : Logged σ) : Prop where
  /-- `bound` is the checkpoint the store answered the binding with. -/
  binding : ∃ s₀, (w.bind s₀ claim workerId plan resumeFrom).2 = .ok (some bound)
  planned : bound.progress.plan = plan
  stored : w.stored s.1 = some final
  own : final.provenance = claim
  accepted : ∀ p ∈ final.progress.parts, p.state = .accepted
  /-- Each part of the plan that was not inherited is delivered once, in order. -/
  calls : List.Forall₂ (Delivers result) (ownParts bound plan.parts.length) s.2
  confirmed : List.Forall₂ (Confirms codec (continuationPayloadFingerprint result) bound)
    final.progress.parts confirmations
  weakest : 1 < final.progress.parts.length → IsWeakest reported confirmations

theorem ensures_deliverRadioPlan {result : RenderingResult} {workerId : Option String}
    (hw : ∀ claim, result.attemptProvenance = some claim → w.Follows claim) (hs : s.2 = []) :
    w.Ensures (deliverRadioPlan codec result workerId deadline resumeFrom)
      (fun reported t => ∃ claim plan bound final confirmations,
        result.attemptProvenance = some claim ∧ result.radioPlan = some plan ∧
        Complete w codec result workerId resumeFrom claim plan bound final confirmations reported t)
      (RetriesSettled w) s := by
  unfold deliverRadioPlan
  split
  · rename_i plan claim hplan hclaim
    have hw := hw claim hclaim
    refine Task.wp_seq (ensures_bindCheckpoint hw) ?_
    rintro bound t ⟨hcalls, hstored, hprov, hsettled, hplanned, hbinding⟩
    cases hhandoffs : acceptedHandoffs codec bound.provenance bound.progress.parts with
    | error e => exact retriesSettled_of_not rfl
    | ok confirmations =>
      have hstart : Covers w claim codec result (continuationPayloadFingerprint result) bound 0
          (bound, confirmations) t := by
        refine ⟨hstored, hprov, ⟨[], rfl, rfl, fun _ h => absurd h not_mem_nil⟩, ?_, ?_⟩
        · have hfront := (forall₂_and_left _ _).mpr ⟨fun p hp => takeWhile_subset _ hp,
            acceptedHandoffs_front bound.ordered hhandoffs⟩
          exact hfront.imp fun p c hc => .inl hc
        · rw [hcalls, hs]
          exact .nil
      rw [Except.mapError, Task.lift_ok_bind]
      refine Task.wp_seq (Task.wp_fold (I := fun done => Covers w claim codec result
        (continuationPayloadFingerprint result) bound done.length) ?_ hstart) ?_
      · intro done item covered t hprefix hcovers
        rw [length_append, length_singleton]
        refine ensures_deliverPart ?_ hw hsettled hcovers
        obtain ⟨rest, hrest⟩ := hprefix
        rw [← hrest]
        simp
      · rintro ⟨final, confirmations'⟩ t' hcovers
        have hwhole : (bound.progress.plan.parts.zip bound.progress.parts).length =
            plan.parts.length := by
          have hlength := (checkProgress_iff.mp bound.progress.valid).2.2.2.1
          simp [hlength, hplanned]
        rw [hwhole] at hcovers
        split
        · rename_i hall
          have haccepted : ∀ p ∈ final.progress.parts, p.state = .accepted := by
            simpa using hall
          have hconfirmed := hcovers.confirmed
          have hfront : acceptedFront final.progress.parts = final.progress.parts := by
            simpa using @acceptedFront_append final.progress.parts [] haccepted (by simp)
          rw [hfront] at hconfirmed
          cases haggregate : aggregate bound.progress.plan confirmations' with
          | error e => exact retriesSettled_of_not (aggregate_error haggregate)
          | ok reported =>
            refine ensures_pure ⟨claim, plan, bound, final, confirmations', hclaim, hplan, ?_⟩
            exact ⟨hbinding, hplanned, hcovers.stored, hcovers.own, haccepted, hcovers.calls,
              hconfirmed, fun hmany =>
                aggregate_weakest haggregate (hconfirmed.length_eq ▸ hmany)⟩
        · exact retriesSettled_of_not rfl
  · exact retriesSettled_of_not rfl

end Plan

/-! ## The store -/

def storedAttempt (claim : DeliveryAttemptProvenance) (db : Db) : Option StoredRadioAttempt :=
  match db.radioRow? claim.outboxId claim.attemptNumber with
  | none => none
  | some row => (decodeRow row).toOption

def radioAnswer : Except Err Answer → Except Raised (Option StoredRadioAttempt)
  | .ok (.radio a) => .ok a
  | .ok _ => .ok none
  | .error e => .error (.error e)

/-- The store with any clock and any adapter; `τ` is what the two keep between calls. -/
def storeWorld {τ : Type} (x : Externals) (claim : DeliveryAttemptProvenance)
    (clock : τ → Datetime) (deliver : τ → RenderingResult → τ × AdapterRun) :
    RadioWorld (Db × τ) where
  stored s := storedAttempt claim s.1
  clock s := clock s.2
  bind s provenance workerId plan predecessor :=
    let r := step x s.1 (.bindRadioAttempt provenance workerId plan predecessor (clock s.2))
    ((r.1, s.2), radioAnswer r.2)
  begin s expected workerId ordinal deadline :=
    let r := step x s.1
      (.beginRadioPart expected (some workerId) ordinal deadline (clock s.2) (clock s.2))
    ((r.1, s.2), radioAnswer r.2)
  observe s expected workerId ordinal handoffId :=
    let r := step x s.1 (.observeRadioPart expected workerId ordinal handoffId (clock s.2))
    ((r.1, s.2), radioAnswer r.2)
  deliver s packet :=
    let r := deliver s.2 packet
    ((s.1, r.1), r.2)

section Store

variable {claim : DeliveryAttemptProvenance} {db db' : Db} {row : RadioRow}
  {expected result : StoredRadioAttempt}

theorem radioAnswer_some (h : radioAnswer r = .ok (some result)) :
    r = .ok (.radio (some result)) := by
  unfold radioAnswer at h
  split at h
  · cases h
    rfl
  · cases h
  · cases h

theorem radioAnswer_error (h : radioAnswer r = .error e) : e.isTransient = false := by
  unfold radioAnswer at h
  split at h
  · cases h
  · cases h
  · cases h
    rfl

theorem storedAttempt_of_mem (hrow : row ∈ db.radio.rows)
    (hown : row.outboxId = claim.outboxId ∧ row.attemptNumber = claim.attemptNumber)
    (hdecoded : decodeRow row = .ok result) : storedAttempt claim db = some result := by
  rw [storedAttempt, ← hown.1, ← hown.2, radioRow?_of_mem hrow]
  simp only [hdecoded, Except.toOption]

theorem storedAttempt_replaces
    (hrow : row ∈ db.radioRow? expected.provenance.outboxId expected.provenance.attemptNumber)
    (hdecoded : decodeRow row = .ok expected) (hprov : result.provenance = expected.provenance)
    (hreached : RadioAttemptProgress.Reached expected.progress result.progress)
    (hreplaces : Replaces row result db db') :
    storedAttempt expected.provenance db = some expected ∧
      storedAttempt expected.provenance db' = some result := by
  have hmem : row ∈ db.radio.rows := mem_of_find?_eq_some hrow
  have hkey := find?_some hrow
  simp only [Bool.and_eq_true, decide_eq_true_eq] at hkey
  obtain ⟨now, hrows⟩ := hreplaces
  have hmem' : row.checkpoint result.progress.parts result.revision now ∈ db'.radio.rows := by
    rw [hrows]
    exact mem_map.mpr ⟨row, hmem, if_pos rfl⟩
  exact ⟨storedAttempt_of_mem hmem hkey hdecoded, storedAttempt_of_mem hmem' hkey
    (decodeRow_checkpoint hdecoded hprov hreached)⟩

/-- The store follows the checkpoint semantics for every claim. -/
theorem storeWorld_follows {τ : Type} (x : Externals) (claim : DeliveryAttemptProvenance)
    (clock : τ → Datetime) (deliver : τ → RenderingResult → τ × AdapterRun) :
    (storeWorld x claim clock deliver).Follows claim where
  bound := by
    intro s workerId plan predecessor a ha
    obtain ⟨_, hsome, hrun⟩ := run_of_answer rfl (radioAnswer_some ha)
    cases hsome
    rcases run_bind_exact hrun with
      ⟨hnone, -⟩ | ⟨history, initial, row, stored, hbinding, hstored, hrows, hprov, rfl⟩
    · cases hnone
    · cases hstored
      refine ⟨storedAttempt_of_mem (hrows ▸ mem_append_right _ mem_cons_self)
        ⟨?_, ?_⟩ hbinding.decodes, hbinding.checkpoint.1.trans hprov, hbinding.settled,
        (boundProgress_same hbinding.inherits).2.2⟩
      · rw [← hprov, hbinding.ownOutbox]
      · rw [← hprov, hbinding.ownAttempt]
  bindRaises := fun s workerId plan predecessor e he => radioAnswer_error he
  begun := by
    rintro s expected workerId ordinal deadline a rfl ha
    obtain ⟨_, hsome, hrun⟩ := run_of_answer rfl (radioAnswer_some ha)
    cases hsome
    rcases run_begin hrun with
      ⟨hnone, -⟩ | ⟨row, hrow, hdecoded, -, result, hprov, hbegin, hresult, hreplaces⟩
    · cases hnone
    · cases hresult
      obtain ⟨hbefore, hafter⟩ :=
        storedAttempt_replaces hrow hdecoded hprov (.begin .bound hbegin) hreplaces
      exact ⟨hbefore, hbegin, hprov, hafter⟩
  notBegun := by
    rintro s expected workerId ordinal deadline rfl hno
    cases hans : (step x s.1 (.beginRadioPart expected (some workerId) ordinal deadline
        (clock s.2) (clock s.2))).2 with
    | error e => exact congrArg (storedAttempt expected.provenance) (step_of_error hans)
    | ok ans =>
      obtain ⟨a, rfl, hrun⟩ := run_of_answer rfl hans
      rcases run_begin hrun with ⟨-, hradio⟩ | ⟨_, _, _, _, result, _, _, rfl, _⟩
      · simp only [storeWorld, storedAttempt, Db.radioRow?, hradio]
      · exact absurd (congrArg radioAnswer hans) (hno result)
  observed := by
    rintro s expected workerId ordinal handoffId a rfl ha
    obtain ⟨_, hsome, hrun⟩ := run_of_answer rfl (radioAnswer_some ha)
    cases hsome
    rcases run_observe hrun with
      ⟨hnone, -⟩ | ⟨row, hrow, hdecoded, -, result, hprov, hobserve, hresult, hreplaces⟩
    · cases hnone
    · cases hresult
      obtain ⟨hbefore, hafter⟩ :=
        storedAttempt_replaces hrow hdecoded hprov (.observe .bound hobserve) hreplaces
      exact ⟨hbefore, hobserve, hprov, hafter⟩
  delivered := fun s packet => rfl

end Store

/-! ## Fail closed -/

/-- Whatever the adapter does: a delivery that returns has left every part accepted and handed
each it did not inherit over once, in its own packet and in order, and reports the weakest
confirmation; one that asks for a retry has left nothing in flight or uncertain. -/
theorem radio_delivery_fail_closed {σ : Type} (w : RadioWorld σ) (codec : HandoffCodec)
    (result : RenderingResult) (workerId : Option String) (deadline : Option Datetime)
    (resumeFrom : Option StoredRadioAttempt)
    (hw : ∀ claim, result.attemptProvenance = some claim → w.Follows claim)
    {s t : σ} {log : List Delivery} {outcome : Except Raised AdapterHandoffResult}
    (h : Task.Ends w.answer w.Others
      (deliverRadioPlan codec result workerId deadline resumeFrom) (s, []) outcome (t, log)) :
    (∀ reported, outcome = .ok reported → ∃ claim plan bound final confirmations,
      result.attemptProvenance = some claim ∧ result.radioPlan = some plan ∧
        Complete w codec result workerId resumeFrom claim plan bound final confirmations reported
          (t, log)) ∧
      ∀ text, outcome = .error (.send true text) → ∀ a, w.stored t = some a →
        ∀ p ∈ a.progress.parts, p.state ≠ .submitting ∧ p.state ≠ .unknown := by
  obtain ⟨hreturns, hraises⟩ := Task.ends_of_wp (ensures_deliverRadioPlan hw rfl) h
  refine ⟨hreturns, ?_⟩
  intro text htext a ha p hp
  rcases hraises _ htext rfl a ha p hp with hstate | hstate
  · rw [hstate]
    decide
  · rw [hstate]
    decide

/-! ## A delivery that returns -/

namespace Sample

/-- The compare-and-set of a store that holds one attempt in memory. -/
def compareAndSet (held : Option StoredRadioAttempt) (expected : StoredRadioAttempt)
    (r : Except String RadioAttemptProgress) :
    Option StoredRadioAttempt × Except Raised (Option StoredRadioAttempt) :=
  match (liftText r).bind (StoredRadioAttempt.make expected.provenance · (expected.revision + 1))
    with
  | .ok result =>
    if held = some expected then (some result, .ok (some result)) else (held, .ok none)
  | .error _ => (held, .ok none)

def heldWorld (adapter : AdapterRun) : RadioWorld (Option StoredRadioAttempt) where
  stored held := held
  clock _ := Storage.Sample.clock 0
  bind held claim _ plan _ :=
    match (liftText (RadioAttemptProgress.bind claim.outboxId claim.attemptNumber plan)).bind
      (StoredRadioAttempt.make claim · 0) with
    | .ok a => (some a, .ok (some a))
    | .error _ => (held, .ok none)
  begin held expected _ ordinal _ := compareAndSet held expected (expected.progress.begin ordinal)
  observe held expected _ ordinal handoffId :=
    compareAndSet held expected (expected.progress.observe ordinal handoffId)
  deliver held _ := (held, adapter)

theorem make_of_bind {r : Except String RadioAttemptProgress} {n : ℤ}
    (h : (liftText r).bind (StoredRadioAttempt.make claim · n) = .ok a) :
    r = .ok a.progress ∧ a.provenance = claim := by
  cases r with
  | error text => cases h
  | ok progress =>
    obtain ⟨hprov, hprogress, -⟩ := make_stored h
    rw [hprogress]
    exact ⟨rfl, hprov⟩

theorem compareAndSet_cases (held : Option StoredRadioAttempt) (expected : StoredRadioAttempt)
    (r : Except String RadioAttemptProgress) :
    ((compareAndSet held expected r).1 = held ∧
        ∀ a, (compareAndSet held expected r).2 ≠ .ok (some a)) ∨
      ∃ result, held = some expected ∧ r = .ok result.progress ∧
        result.provenance = expected.provenance ∧
        compareAndSet held expected r = (some result, .ok (some result)) := by
  unfold compareAndSet
  split
  · rename_i result hmake
    obtain ⟨hr, hprov⟩ := make_of_bind hmake
    split
    · rename_i hheld
      exact .inr ⟨result, hheld, hr, hprov, rfl⟩
    · exact .inl ⟨rfl, fun _ h => by cases h⟩
  · exact .inl ⟨rfl, fun _ h => by cases h⟩

theorem heldWorld_follows (adapter : AdapterRun) (claim : DeliveryAttemptProvenance) :
    (heldWorld adapter).Follows claim where
  bound := by
    intro held workerId plan predecessor a ha
    simp only [heldWorld] at ha ⊢
    split at ha
    · rename_i stored hmake
      cases ha
      obtain ⟨hbind, hprov⟩ := make_of_bind hmake
      exact ⟨rfl, hprov, fun p hp => .inr (bind_unsent hbind p hp),
        (RadioAttemptProgress.make_ok hbind).2.2.1⟩
    · cases ha
  bindRaises := by
    intro held workerId plan predecessor e he
    simp only [heldWorld] at he
    split at he <;> cases he
  begun := by
    rintro held expected workerId ordinal deadline a rfl ha
    rcases compareAndSet_cases held expected (expected.progress.begin ordinal) with
      ⟨-, hno⟩ | ⟨result, hheld, hbegin, hprov, hset⟩
    · exact absurd ha (hno a)
    · cases (congrArg Prod.snd hset).symm.trans ha
      exact ⟨hheld, hbegin, hprov, congrArg Prod.fst hset⟩
  notBegun := by
    rintro held expected workerId ordinal deadline rfl hno
    rcases compareAndSet_cases held expected (expected.progress.begin ordinal) with
      ⟨hsame, -⟩ | ⟨result, -, -, -, hset⟩
    · exact hsame
    · exact absurd (congrArg Prod.snd hset) (hno result)
  observed := by
    rintro held expected workerId ordinal handoffId a rfl ha
    rcases compareAndSet_cases held expected (expected.progress.observe ordinal handoffId) with
      ⟨-, hno⟩ | ⟨result, hheld, hobserve, hprov, hset⟩
    · exact absurd ha (hno a)
    · cases (congrArg Prod.snd hset).symm.trans ha
      exact ⟨hheld, hobserve, hprov, congrArg Prod.fst hset⟩
  delivered := fun _ _ => rfl

def plainHandoffs : HandoffCodec where
  decode _ := none
  encode _ := "handoff"

def handedOver : AdapterHandoffResult := { confirmationLevel := .localTransport }

def obedient : AdapterRun := .grant fun _ => .returns (some handedOver)

def radioResult : RenderingResult where
  targetChannel := none
  payload := ⟨[], nodup_nil⟩
  radioPlan := some Storage.Sample.radioPlan
  attemptProvenance := some Storage.Sample.radioClaim

def delivery : Delivering AdapterHandoffResult :=
  deliverRadioPlan plainHandoffs radioResult (some "worker") none none

end Sample

open Sample in
/-- An obedient adapter is handed the three packets of the sample plan. -/
theorem radio_delivery_fail_closed_obedient :
    ∃ reported held log, Task.Ends (heldWorld obedient).answer (heldWorld obedient).Others delivery
        (none, []) (.ok reported) (held, log) ∧
      log.map (·.packet.payload.get? "text") = [some (.text "(1/3) hello "),
        some (.text "(2/3) dear "), some (.text "(3/3) radio")] ∧
      ∃ claim plan bound final confirmations,
        radioResult.attemptProvenance = some claim ∧ radioResult.radioPlan = some plan ∧
        Complete (heldWorld obedient) plainHandoffs radioResult (some "worker") none claim plan
          bound final confirmations reported (held, log) := by
  obtain ⟨r, hrun⟩ : ∃ r, Task.alone (heldWorld obedient).answer delivery (none, []) = r :=
    ⟨_, rfl⟩
  have hok : r.1.isOk = true ∧ r.2.2.map (·.packet.payload.get? "text") =
      [some (.text "(1/3) hello "), some (.text "(2/3) dear "), some (.text "(3/3) radio")] := by
    rw [← hrun]
    decide +kernel
  have hall : Task.Ends (heldWorld obedient).answer (heldWorld obedient).Others delivery
      (none, []) _ _ := Task.ends_alone (fun _ => ⟨rfl, .inl rfl⟩) _ _
  rw [hrun] at hall
  obtain ⟨outcome, held, log⟩ := r
  cases outcome with
  | error e => cases hok.1
  | ok reported =>
    exact ⟨reported, held, log, hall, hok.2, (radio_delivery_fail_closed (heldWorld obedient) _ _
      _ _ _ (fun claim _ => heldWorld_follows obedient claim) hall).1 reported rfl⟩

end Medre.Pipeline
