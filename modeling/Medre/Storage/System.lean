import Medre.Framework.Runs
import Medre.Storage.Cleanup
import Medre.Storage.Radio

/-! # The store as one machine

A call is atomic (`BEGIN IMMEDIATE` under the connection lock), so every interleaving of any
number of workers is one list of calls, each with its own clock readings. -/

namespace Medre.Storage

open Medre.Framework Medre.Rendering Tx

/-- The third-party codecs the store calls. -/
structure Externals where
  events : EventCodec
  handoffs : HandoffCodec

/-- The `mark_outbox_*` calls with their arguments. -/
inductive MarkCall where
  | sent (outboxId : String) (receiptId : Option String) (attemptNumber : Option ℤ)
      (expectedWorkerId : Option String)
  | queued (outboxId : String) (receiptId : Option String) (attemptNumber : Option ℤ)
      (expectedWorkerId : Option String)
  | retryWait (outboxId nextAttemptAt : String)
      (receiptId failureKind failureKindDetail errorSummary : Option String)
      (attemptNumber : Option ℤ) (expectedWorkerId : Option String)
  | deadLettered (outboxId : String)
      (receiptId failureKind failureKindDetail errorSummary : Option String)
      (attemptNumber : Option ℤ) (expectedWorkerId : Option String)
  | cancelled (outboxId : String) (errorSummary receiptId failureKind : Option String)
      (attemptNumber : Option ℤ) (expectedWorkerId : Option String)
  | abandoned (outboxId : String) (errorSummary receiptId failureKind : Option String)
      (attemptNumber : Option ℤ) (expectedWorkerId : Option String)

def markOutbox (m : MarkCall) (now : Datetime) : StoreTx Bool :=
  match m with
  | .sent o r n w => markOutboxSent o r n w now
  | .queued o r n w => markOutboxQueued o r n w now
  | .retryWait o t r k d e n w => markOutboxRetryWait o t r k d e n w now
  | .deadLettered o r k d e n w => markOutboxDeadLettered o r k d e n w now
  | .cancelled o e r k n w => markOutboxCancelled o e r k n w now
  | .abandoned o e r k n w => markOutboxAbandoned o e r k n w now

/-- A call on the store. -/
inductive Op where
  | append (e : CanonicalEvent) (now : Datetime)
  | admitIngress (e : CanonicalEvent) (inboundRef : Option NativeMessageRef)
      (provenance : IngressProvenance) (suppressRouting : Bool)
      (contentDeadline : Option Datetime) (now : Datetime)
  | claimIngressWork (workerId : String) (limit : ℕ) (leaseSeconds : Rat) (now : Datetime)
  | completeIngressWork (eventId workerId : String) (now : Datetime)
  | returnIngressWork (how : IngressReturn) (eventId workerId error : String)
      (now : Datetime)
  | renewIngressWorkLease (eventId workerId : String) (leaseSeconds : Rat) (now : Datetime)
  | storeNativeRef (r : NativeMessageRef)
  | appendReceipt (r : DeliveryReceipt)
  | createOutboxItem (item : DeliveryOutboxItem) (allocateNewGeneration : Bool)
      (snapshot : Option OutboxDispatchSnapshotWrite) (now : Datetime)
  | claimDueOutboxItems (now workerId : String) (leaseSeconds : ℤ)
      (candidates : List String) (filters : ClaimFilters)
  | reserveOutboxAttempt (outboxId workerId : String) (fromAttempt : ℤ) (now : Datetime)
  | renewOutboxLease (outboxId workerId leaseUntil : String) (now : Datetime)
  | releaseOutboxClaim (outboxId workerId : String) (releaseStatus : OutboxStatus)
      (now : Datetime)
  | markOutbox (m : MarkCall) (now : Datetime)
  | finalizeDeferredHandoff (c : DeferredHandoffFinalization)
  | finalizeOutboxTerminal (c : TerminalOutboxFinalization)
  | retireExpiredUnstartedOutbox (now : Datetime) (limit : ℤ)
  | cancelUnstartedDelivery (d : CancelUnstartedDecision) (now : Datetime)
  | recordExactTargetDecision (d : ExactTargetDecision) (now : Datetime)
  | issueBodyHold (eventId : String) (hold : ContentHold) (policy : AvailabilityPolicy)
      (now : Datetime)
  | revokeBodyHold (eventId consumer : String) (now : Datetime)
  | readAuthorizedBody (eventId consumer : String) (now : Datetime)
  | readOutboxBody (eventId outboxId : String) (now : Datetime)
  | readOwnedEvent (eventId : String) (owner : ReadOwner) (now : Datetime)
  | authorizeNativeSubmission (eventId outboxId workerId : String) (attemptNumber : ℤ)
      (now : Datetime)
  | bindRadioAttempt (provenance : DeliveryAttemptProvenance) (workerId : Option String)
      (plan : RadioTextPlan) (predecessor : Option StoredRadioAttempt) (now : Datetime)
  | beginRadioPart (expected : StoredRadioAttempt) (workerId : Option String) (ordinal : ℤ)
      (deadline : Option Datetime) (observed now : Datetime)
  | observeRadioPart (expected : StoredRadioAttempt) (workerId : Option String)
      (ordinal : ℤ) (handoffId : Option String) (now : Datetime)
  | recoverRadioAttempt (provenance : DeliveryAttemptProvenance) (workerId : Option String)
      (now : Datetime)

inductive Answer where
  | unit
  | flag (b : Bool)
  | admitted (r : AdmissionResult)
  | ingressClaimed (eventIds : List String)
  | created (c : Created)
  | claimed (rows : List OutboxRow)
  | reserved (attemptNumber : Option ℤ)
  | retired (rows : List DeadlineRetirement)
  | held (r : Except Err Unit)
  | body (r : Except Err ContentBodyRead)
  | event (r : AuthorizedEventRead)
  | radio (s : Option StoredRadioAttempt)

/-- `x` with its answer tagged. -/
def answering {α : Type} (tag : α → Answer) (x : StoreTx α) : StoreTx Answer := do
  let a ← x
  pure (tag a)

def exec (x : Externals) : Op → StoreTx Answer
  | .append e now => answering (fun _ => .unit) (append e now)
  | .admitIngress e r p s d now => answering .admitted (admitIngress e r p s d now)
  | .claimIngressWork w l s now => answering .ingressClaimed (claimIngressWork w l s now)
  | .completeIngressWork e w now => answering .flag (completeIngressWork e w now)
  | .returnIngressWork h e w t now => answering .flag (returnIngressWork h e w t now)
  | .renewIngressWorkLease e w s now => answering .flag (renewIngressWorkLease e w s now)
  | .storeNativeRef r => answering (fun _ => .unit) (storeNativeRef r)
  | .appendReceipt r => answering (fun _ => .unit) (appendReceipt r)
  | .createOutboxItem i a s now => answering .created (createOutboxItem i a s now)
  | .claimDueOutboxItems now w l c f => answering .claimed (claimDueOutboxItems now w l c f)
  | .reserveOutboxAttempt o w n now => answering .reserved (reserveOutboxAttempt o w n now)
  | .renewOutboxLease o w l now => answering .flag (renewOutboxLease o w l now)
  | .releaseOutboxClaim o w s now =>
    answering (fun _ => .unit) (releaseOutboxClaim o w s now)
  | .markOutbox m now => answering .flag (Storage.markOutbox m now)
  | .finalizeDeferredHandoff c => answering .flag (finalizeDeferredHandoff c)
  | .finalizeOutboxTerminal c => answering .flag (finalizeOutboxTerminal c)
  | .retireExpiredUnstartedOutbox now l =>
    answering .retired (retireExpiredUnstartedOutbox now l)
  | .cancelUnstartedDelivery d now => answering .flag (cancelUnstartedDelivery d now)
  | .recordExactTargetDecision d now => answering .flag (recordExactTargetDecision d now)
  | .issueBodyHold e h p now => answering .held (issueBodyHold e h p now)
  | .revokeBodyHold e c now => answering .flag (revokeBodyHold e c now)
  | .readAuthorizedBody e c now => answering .body (readAuthorizedBody e c now)
  | .readOutboxBody e o now => answering .body (readOutboxBody e o now)
  | .readOwnedEvent e o now => answering .event (readOwnedEvent x.events e o now)
  | .authorizeNativeSubmission e o w n now =>
    answering .flag (authorizeNativeSubmission e o w n now)
  | .bindRadioAttempt p w plan pre now =>
    answering .radio (bindRadioAttempt x.handoffs p w plan pre now)
  | .beginRadioPart s w k d o now => answering .radio (beginRadioPart s w k d o now)
  | .observeRadioPart s w k h now => answering .radio (observeRadioPart s w k h now)
  | .recoverRadioAttempt p w now => answering .radio (recoverRadioAttempt p w now)

/-- One call: its writes commit together, or it raises and none does. -/
def step (x : Externals) (db : Db) (op : Op) : Db × Except Err Answer :=
  (exec x op).commit db

/-- The store after a list of calls on a fresh database. -/
def stateAfter (x : Externals) (ops : List Op) : Db := run (step x) Db.empty ops

/-! ## One call, by its transaction -/

variable {x : Externals} {db : Db} {op : Op} {α : Type} {tag : α → Answer} {body : StoreTx α}

theorem run_of_answer (hexec : exec x op = answering tag body) {ans : Answer}
    (h : (step x db op).2 = .ok ans) :
    ∃ a, ans = tag a ∧ body.run db = .ok (a, (step x db op).1) := by
  have hrun : (answering tag body).run db = .ok (ans, (step x db op).1) := by
    rw [← hexec]
    exact run_of_commit h
  simp only [answering, run_bind, run_pure] at hrun
  obtain ⟨a, db', ha, rfl, hdb⟩ := hrun
  exact ⟨a, rfl, hdb ▸ ha⟩

theorem step_of_run (hexec : exec x op = answering tag body) {a : α} {db' : Db}
    (h : body.run db = .ok (a, db')) : step x db op = (db', .ok (tag a)) := by
  have hrun : (exec x op).run db = .ok (tag a, db') := by
    rw [hexec]
    simp only [answering, run_bind, run_pure]
    exact ⟨a, db', h, rfl, rfl⟩
  exact commit_ok hrun

theorem step_of_error {e : Err} (h : (step x db op).2 = .error e) : (step x db op).1 = db := by
  rcases commit_cases (exec x op) db with ⟨a, db', -, hc⟩ | ⟨e', hc⟩
  · rw [step, hc] at h
    cases h
  · rw [step, hc]

/-- A fact about the store after a call: it holds before it, and of every store a run of its
transaction ends in. -/
theorem step_cases (hexec : exec x op = answering tag body) {P : Db → Prop} (hsame : P db)
    (hrun : ∀ a db', body.run db = .ok (a, db') → P db') : P (step x db op).1 := by
  cases h : (step x db op).2 with
  | ok ans =>
    obtain ⟨a, -, ha⟩ := run_of_answer hexec h
    exact hrun a _ ha
  | error e =>
    rw [step_of_error h]
    exact hsame

theorem step_commit (hexec : exec x op = answering tag body) :
    (step x db op).1 = (body.commit db).1 := by
  cases h : (step x db op).2 with
  | ok ans =>
    obtain ⟨a, -, hrun⟩ := run_of_answer hexec h
    rw [commit_ok hrun]
  | error e =>
    rcases commit_cases body db with ⟨a, db', hrun, -⟩ | ⟨e', hc⟩
    · rw [step_of_run hexec hrun] at h
      cases h
    · rw [step_of_error h, hc]

end Medre.Storage
