import Mathlib.Data.List.Sort
import Medre.Framework.RoundRobin
import Medre.Framework.Runs
import Medre.Framework.Values

/-! # Inbound admission of the capacity controller

No body under `_lock` awaits, so every `async with self._lock` is one step; a call waits only in
`wait_for(shield(waiter.future))`, and the end of the wait is an action of its own, which may
come after the future was resolved. -/

namespace Medre.Supervision

open Medre.Framework

/-! ## The controller -/

inductive Refusal where
  | closed
  | queueFull
  | timeout
deriving DecidableEq, Repr

inductive InboundAdmissionResult where
  | granted
  | refused (reason : Refusal)
deriving DecidableEq, Repr

/-- Where a call of `acquire_inbound` is: at its `await`, returned with a slot, or gone
without one. -/
inductive Stage where
  | parked
  | holding
  | left
deriving DecidableEq, Repr

/-- A call with its `_InboundWaiter`. -/
structure Call where
  source : String
  granted : Bool := false
  future : Option InboundAdmissionResult := none
  stage : Stage := .parked
deriving DecidableEq, Repr

namespace Call

/-- The call has a slot, whether or not it has come to know. -/
def holds (w : Call) : Bool := w.stage = .holding || (w.stage = .parked && w.granted)

/-- The call waits for somebody to resolve its future. -/
def waits (w : Call) : Bool := w.stage = .parked && w.future.isNone

end Call

/-- The inbound side of `CapacityController`. Calls are numbered by arrival, and the
queues hold their numbers. -/
structure CapacityController where
  inboundLimit : ℕ
  inboundSources : List String := []
  inboundSourcesConfigured : Bool := false
  inboundAccepting : Bool := true
  inboundCurrent : ℕ := 0
  inboundWaiters : RoundRobin String ℕ := .empty
  inboundCurrentBySource : Dict String ℕ := .empty
  inboundRejections : ℕ := 0
  inboundRejectionsBySource : Dict String ℕ := .empty
  inboundTimeouts : ℕ := 0
  inboundTimeoutsBySource : Dict String ℕ := .empty
  calls : List Call := []

def anonymousInboundSource : String := "<anonymous>"

def normalizeInboundSource (sourceId : Option String) : String :=
  match sourceId with
  | some s => if pyStrip s ≠ "" then pyStrip s else anonymousInboundSource
  | none => anonymousInboundSource

/-- `d.setdefault(k, 0)`. -/
def setdefault (d : Dict String ℕ) (k : String) : Dict String ℕ :=
  if k ∈ d.keys then d else d.set k 0

def countOf (d : Dict String ℕ) (k : String) : ℕ := (d.get? k).getD 0

/-- `d[k] += 1`. -/
def increment (d : Dict String ℕ) (k : String) : Dict String ℕ := d.set k (countOf d k + 1)

/-- `d[k] = max(0, d[k] - 1)`. -/
def decrement (d : Dict String ℕ) (k : String) : Dict String ℕ := d.set k (countOf d k - 1)

namespace CapacityController

variable (c : CapacityController)

def ensureInboundSource (source : String) : CapacityController :=
  { c with
    inboundCurrentBySource := setdefault c.inboundCurrentBySource source
    inboundRejectionsBySource := setdefault c.inboundRejectionsBySource source
    inboundTimeoutsBySource := setdefault c.inboundTimeoutsBySource source }

/-- `sorted({strip(s) for s in source_ids if strip(s)})`. -/
def normalizedSources (sourceIds : List String) : List String :=
  ((sourceIds.map pyStrip).filter (· ≠ "")).dedup.insertionSort (· ≤ ·)

def configureInboundSources (sourceIds : List String) : Except String CapacityController :=
  let normalized := normalizedSources sourceIds
  if c.inboundSourcesConfigured then
    if normalized = c.inboundSources then .ok c
    else .error "inbound admission sources are fixed for the runtime generation"
  else if c.inboundCurrent ≠ 0 ∨ c.inboundWaiters.total ≠ 0 then
    .error "cannot configure inbound admission sources after work has started"
  else
    .ok (normalized.foldl ensureInboundSource
      { c with inboundSources := normalized, inboundSourcesConfigured := true })

def inboundSourceWaitLimit (source : String) : ℕ :=
  let configured := c.inboundSources.length
  let sourceCount :=
    if configured ≠ 0 then configured + (if source ∈ c.inboundSources then 0 else 1)
    else max 1 c.inboundCurrentBySource.keys.length
  max 1 ((c.inboundLimit + sourceCount - 1) / sourceCount)

/-- `_record_inbound_grant_locked`. -/
def recordInboundGrant (source : String) : CapacityController :=
  { c with
    inboundCurrent := c.inboundCurrent + 1
    inboundCurrentBySource := increment c.inboundCurrentBySource source }

/-- `_record_inbound_rejection_locked`. -/
def recordInboundRejection (source : String) : CapacityController :=
  { c with
    inboundRejections := c.inboundRejections + 1
    inboundRejectionsBySource := increment c.inboundRejectionsBySource source }

/-- `_release_inbound_slot_locked`. -/
def releaseInboundSlot (source : String) : CapacityController :=
  { c with
    inboundCurrent := c.inboundCurrent - 1
    inboundCurrentBySource := decrement c.inboundCurrentBySource source }

/-- What happens to the call `i` or to its waiter. -/
def withCall (i : ℕ) (f : Call → Call) : CapacityController :=
  { c with calls := c.calls.modify i f }

/-- `future.set_result(r)` unless the future is done. -/
def setResult (r : InboundAdmissionResult) (w : Call) : Call :=
  { w with future := some (w.future.getD r) }

/-- The next waiter in turn gets a slot, or learns that admission is closed; the answer is the call
that got a slot. -/
def grantNext : CapacityController × Option (String × ℕ) :=
  match c.inboundWaiters.next with
  | (waiters, none) => ({ c with inboundWaiters := waiters }, none)
  | (waiters, some (source, i)) =>
    if c.inboundAccepting then
      (({ c with inboundWaiters := waiters }.recordInboundGrant source).withCall i
        fun w => setResult .granted { w with granted := true }, some (source, i))
    else
      (({ c with inboundWaiters := waiters }.recordInboundRejection source).withCall i
        (setResult (.refused .closed)), none)

/-- The condition of the grant loop. -/
def canGrant : Bool :=
  c.inboundCurrent < c.inboundLimit && 0 < c.inboundWaiters.total &&
    !c.inboundWaiters.order.isEmpty

/-- The grant loop, for at most `n` rounds. -/
def grantRounds : ℕ → CapacityController → CapacityController × List (String × ℕ)
  | 0, c => (c, [])
  | n + 1, c =>
    if c.canGrant then
      ((grantRounds n c.grantNext.1).1,
        c.grantNext.2.toList ++ (grantRounds n c.grantNext.1).2)
    else (c, [])

/-- `_grant_inbound_waiters_locked`: every round takes a waiter or a key from the line. -/
def grantInboundWaiters : CapacityController × List (String × ℕ) :=
  grantRounds (c.inboundWaiters.total + c.inboundWaiters.order.length) c

/-- `_remove_inbound_waiter_locked`. -/
def removeInboundWaiter (source : String) (i : ℕ) : CapacityController × Bool :=
  ({ c with inboundWaiters := (c.inboundWaiters.remove source i).1 },
    (c.inboundWaiters.remove source i).2)

/-! ## Calls -/

/-- How an action ends for the task that takes it. -/
inductive Answer where
  | returned (r : InboundAdmissionResult)
  | suspended
  | cancelled
  | released (matched : Bool)
  | done
  | raised (text : String)
  /-- The task is not at the point the action needs. -/
  | idle
deriving DecidableEq, Repr

/-- The answer of an action, and the queued calls it granted, in order and with their
sources. -/
structure Outcome where
  answer : Answer
  grants : List (String × ℕ) := []
deriving DecidableEq, Repr

/-- The controller with a new call, which has the next number. -/
def withNew (w : Call) : CapacityController := { c with calls := c.calls ++ [w] }

def enqueue (source : String) : CapacityController :=
  { c with inboundWaiters := c.inboundWaiters.push source c.calls.length }.withNew { source }

/-- The body of `acquire_inbound` under the lock, for a source that is known. -/
def arrive (source : String) : CapacityController × Outcome :=
  if !c.inboundAccepting then
    ((c.recordInboundRejection source).withNew { source, stage := .left },
      { answer := .returned (.refused .closed) })
  else if c.inboundCurrent < c.inboundLimit && c.inboundWaiters.total = 0 then
    ((c.recordInboundGrant source).withNew { source, stage := .holding },
      { answer := .returned .granted })
  else if c.inboundLimit ≤ c.inboundWaiters.total ||
      c.inboundSourceWaitLimit source ≤ (c.inboundWaiters.queue source).length then
    ((c.recordInboundRejection source).withNew { source, stage := .left },
      { answer := .returned (.refused .queueFull) })
  else
    let i := c.calls.length
    let served := (c.enqueue source).grantInboundWaiters
    if served.1.calls[i]?.any Call.granted then
      (served.1.withCall i fun w => { w with stage := .holding },
        { answer := .returned .granted, grants := served.2 })
    else (served.1, { answer := .suspended, grants := served.2 })

/-- `acquire_inbound` up to its `await`. -/
def acquireInbound (sourceId : Option String) : CapacityController × Outcome :=
  (c.ensureInboundSource (normalizeInboundSource sourceId)).arrive
    (normalizeInboundSource sourceId)

/-- The call returns `r`. -/
def returning (i : ℕ) (r : InboundAdmissionResult) : CapacityController × Outcome :=
  (c.withCall i fun w => { w with stage := if r = .granted then .holding else .left },
    { answer := .returned r })

/-- The wait of the call ended with the result of its future. -/
def wake (i : ℕ) (w : Call) : CapacityController × Outcome :=
  match w.future with
  | none => (c, { answer := .idle })
  | some r => c.returning i r

/-- `except asyncio.TimeoutError`. -/
def timeoutInbound (i : ℕ) (w : Call) : CapacityController × Outcome :=
  if w.granted then c.returning i .granted
  else if (c.removeInboundWaiter w.source i).2 then
    let c := (c.removeInboundWaiter w.source i).1
    { c with
      inboundTimeouts := c.inboundTimeouts + 1
      inboundTimeoutsBySource := increment c.inboundTimeoutsBySource w.source }.returning i
        (.refused .timeout)
  else
    match w.future with
    | some r => c.returning i r
    | none => c.returning i (.refused .timeout)

/-- `except asyncio.CancelledError`. -/
def cancelInbound (i : ℕ) (w : Call) : CapacityController × Outcome :=
  if w.granted then
    let served :=
      ((c.withCall i fun w => { w with granted := false, stage := .left }).releaseInboundSlot
        w.source).grantInboundWaiters
    (served.1, { answer := .cancelled, grants := served.2 })
  else
    ((c.removeInboundWaiter w.source i).1.withCall i fun w => { w with stage := .left },
      { answer := .cancelled })

/-- `release_inbound` by a caller that has a slot. -/
def releaseInbound (i : ℕ) (w : Call) : CapacityController × Outcome :=
  let c := (c.ensureInboundSource w.source).withCall i fun w => { w with stage := .left }
  if countOf c.inboundCurrentBySource w.source = 0 then (c, { answer := .released false })
  else
    let served := (c.releaseInboundSlot w.source).grantInboundWaiters
    (served.1, { answer := .released true, grants := served.2 })

/-- What may happen to the controller next. -/
inductive Action where
  | configure (sourceIds : List String)
  | acquire (sourceId : Option String)
  | wake (i : ℕ)
  | timeout (i : ℕ)
  | cancel (i : ℕ)
  | release (i : ℕ)
  | stopAccepting
deriving Repr

/-- The action `f` of the call `i`, when it is at the stage `f` starts from. -/
def atStage (i : ℕ) (stage : Stage) (f : Call → CapacityController × Outcome) :
    CapacityController × Outcome :=
  match c.calls[i]? with
  | none => (c, { answer := .idle })
  | some w => if w.stage = stage then f w else (c, { answer := .idle })

def step : Action → CapacityController × Outcome
  | .configure sourceIds =>
    match c.configureInboundSources sourceIds with
    | .ok c' => (c', { answer := .done })
    | .error text => (c, { answer := .raised text })
  | .acquire sourceId => c.acquireInbound sourceId
  | .wake i => c.atStage i .parked (c.wake i)
  | .timeout i => c.atStage i .parked (c.timeoutInbound i)
  | .cancel i => c.atStage i .parked (c.cancelInbound i)
  | .release i => c.atStage i .holding (c.releaseInbound i)
  | .stopAccepting => ({ c with inboundAccepting := false }, { answer := .done })

end CapacityController

end Medre.Supervision
