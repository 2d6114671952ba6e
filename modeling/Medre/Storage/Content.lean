import Medre.Storage.Statements

/-! # Mandatory content dependencies (`_content_identity.py`, `_content_grants.py`)

Every `WHERE` clause that treats a dependency as live is a predicate of its own below. Clock
values are `Datetime`s and reach SQL as fixed-width UTC texts. -/

namespace Medre.Storage

open Medre.Framework

/-! ## Clock texts -/

/-- `except ValueError` catches this. -/
def Err.isValueError : Err → Bool
  | .valueError _ | .pyError .valueError => true
  | _ => false

def liftPy {α : Type} : Except PyError α → Except Err α
  | .ok a => .ok a
  | .error e => .error (.pyError e)

@[simp] theorem liftPy_ok {α : Type} {r : Except PyError α} {a : α} :
    liftPy r = .ok a ↔ r = .ok a := by
  cases r <;> simp [liftPy]

/-- `_now_iso()` at a clock reading. -/
def nowIso (now : Datetime) : String := now.isoformat

def utc (value : Datetime) : Except Err String :=
  match value.utcoffset with
  | none => .error (.valueError "Content authority requires a timezone-aware datetime")
  | some _ =>
    match value.astimezoneUtc with
    | .ok d => .ok d.isoformatMicroseconds
    | .error e => .error (.pyError e)

def utcMicroseconds (value what : String) : Except Err String :=
  match Datetime.fromisoformat value with
  | .error e => .error (.pyError e)
  | .ok parsed =>
    match parsed.utcoffset with
    | none => .error (.valueError (what ++ " must be timezone-aware"))
    | some _ =>
      match parsed.astimezoneUtc with
      | .ok d => .ok d.isoformatMicroseconds
      | .error e => .error (.pyError e)

def frozenPlanDeadline (context : Json) : Except Err (Option String) :=
  match context.fields? with
  | none => .ok none
  | some fields =>
    let get (fs : List (String × Json)) : Option Json :=
      match Json.fieldOf fs "deadline" with
      | some .null | none => none
      | some raw => some raw
    let raw :=
      match get fields with
      | some raw => some raw
      | none => (Json.fieldOf fields "plan").bind fun plan => plan.fields?.bind get
    match raw with
    | none => .ok none
    | some (.str s) => .ok (some s)
    | some _ =>
      .error (.valueError "Frozen plan deadline must be a UTC timestamp string")

/-! ## Which rows a statement treats as live -/

namespace Dependency

/-- Unreleased with a deadline at or before `observed`. -/
def lapsedAt (observed : String) (d : Dependency) : Bool :=
  d.releasedAt.isNone && d.deadline.any (· ≤ observed)

/-- `_source_dependency_live`. -/
def sourceLive (eventId : String) (d : Dependency) : Bool :=
  d.eventId = eventId && d.ownerKind.isSource && d.releasedAt.isNone

/-- The exact owner's dependency, acquired and not past its deadline. -/
def ownerLive (eventId : String) (kind : OwnerKind) (ownerId observed : String)
    (d : Dependency) : Bool :=
  d.eventId = eventId && d.ownerKind = kind && d.ownerId = ownerId &&
    d.releasedAt.isNone && d.acquiredAt ≤ observed && d.deadline.all (observed < ·)

end Dependency

def release (at' : String) (d : Dependency) : Dependency :=
  { d with releasedAt := some at' }

def observeMandatoryExpiry (eventId observed : String) : StoreTx Unit := do
  let _ ← updateDependencies (fun d => d.eventId = eventId && d.lapsedAt observed)
    (release observed)

def Db.sourceDependencyLive (db : Db) (eventId : String) : Bool :=
  db.dependencies.rows.any (Dependency.sourceLive eventId)

def Db.outboxContentAuthority (db : Db) (eventId outboxId observed : String) : Bool :=
  db.dependencies.rows.any (Dependency.ownerLive eventId .outbox outboxId observed) ||
    (db.outbox.rows.any (fun r =>
        r.outboxId = outboxId && r.eventId = eventId && r.dispatchSource = .replay) &&
      db.sourceDependencyLive eventId)

def settleOutboxContentDependency (outboxId eventId at' : String) : StoreTx Unit := do
  let _ ← updateDependencies
    (fun d => d.eventId = eventId && d.ownerKind = .outbox && d.ownerId = outboxId &&
      d.releasedAt.isNone) (release at')

/-! ## Adoption by a new outbox generation -/

/-- `ORDER BY d.owner_kind LIMIT 1` over the live admission owners: the text
`append` sorts before `ingress`. -/
def Db.adoptableSource (db : Db) (eventId : String) : Option Dependency :=
  match db.dependencies.rows.find? fun d =>
      d.sourceLive eventId && d.ownerKind = .append with
  | some d => some d
  | none => db.dependencies.rows.find? (Dependency.sourceLive eventId)

/-- The dependency a new outbox row adopts from the live source, if any. -/
def Db.adoptedDependency (db : Db) (outboxId eventId now : String)
    (frozenPlan : Option String) : Option Dependency :=
  match db.adoptableSource eventId with
  | none => none
  | some source =>
    let ceiling :=
      (db.policies.rows.find? fun p => p.eventId = eventId).map AccessPolicy.hardCeiling
    -- a ceiling cannot be validated against a source without a deadline
    if ceiling.isSome && source.deadline.isNone then none
    else
      let bounds := [source.deadline, ceiling, frozenPlan].filterMap id
      if bounds.any (· ≤ now) then none
      else
        some
          { eventId, ownerKind := .outbox, ownerId := outboxId, acquiredAt := now
            deadline := bounds.min? }

def frozenPlanText : Option String → Except Err (Option String)
  | none => .ok none
  | some deadline => (utcMicroseconds deadline "Frozen plan deadline").map some

def insertDependency? : Option Dependency → StoreTx Unit
  | none => pure ()
  | some d => insertDependency d

/-- `insert_outbox_dependency`, inside the outbox `INSERT` transaction. -/
def insertOutboxDependency (outboxId eventId now : String) (planDeadline : Option String) :
    StoreTx Unit := do
  let parsed ← Tx.lift (liftPy (Datetime.fromisoformat now))
  let observed ← Tx.lift (liftPy parsed.astimezoneUtc)
  let now := observed.isoformatMicroseconds
  let frozenPlan ← Tx.lift (frozenPlanText planDeadline)
  -- the source deadline is marked before adoption, so that a clock that moves
  -- backwards later cannot revive it
  let _ ← updateDependencies
    (fun d => d.eventId = eventId && d.ownerKind.isSource && d.lapsedAt now) (release now)
  let adopted ← Tx.query fun db => db.adoptedDependency outboxId eventId now frozenPlan
  insertDependency? adopted

/-! ## The dispatch bounds of an outbox row -/

def parseBoundInstant (value : String) : Except Err Datetime :=
  match Datetime.fromisoformat value with
  | .error e => .error (.pyError e)
  | .ok parsed =>
    match parsed.utcoffset with
    | none => .error (.valueError "Effective deadline bounds must be timezone-aware")
    | some _ => liftPy parsed.astimezoneUtc

def parseBound : Option String → Except Err (List Datetime)
  | none => .ok []
  | some text =>
    match parseBoundInstant text with
    | .ok d => .ok [d]
    | .error e => .error e

/-- The dispatch context of a row: its snapshot, else its inline metadata. -/
def Db.dispatchContext (db : Db) (outboxId : String) : Json :=
  match db.snapshots.rows.find? fun s => s.outboxId = outboxId with
  | some s => s.context
  | none =>
    match db.outboxRow? outboxId with
    | some r => r.metadata
    | none => .obj []

/-- `_effective_dispatch_bounds`: the event ceiling, the frozen plan deadline
and the adopted target deadline. -/
def Db.effectiveDispatchBounds (db : Db) (eventId outboxId : String) :
    Except Err (List Datetime) :=
  let ceiling :=
    (db.policies.rows.find? fun p => p.eventId = eventId).map AccessPolicy.hardCeiling
  let dependency :=
    (db.dependencies.rows.find? fun d =>
      d.eventId = eventId && d.ownerKind = .outbox && d.ownerId = outboxId &&
        d.releasedAt.isNone).bind Dependency.deadline
  match parseBound ceiling with
  | .error e => .error e
  | .ok b1 =>
    match frozenPlanDeadline (db.dispatchContext outboxId) with
    | .error e => .error e
    | .ok frozen =>
      match parseBound frozen with
      | .error e => .error e
      | .ok b2 =>
        match parseBound dependency with
        | .error e => .error e
        | .ok b3 => .ok (b1 ++ b2 ++ b3)

/-- `_effective_deadline_elapsed`: a malformed bound counts as elapsed. -/
def Db.effectiveDeadlineElapsed (db : Db) (eventId outboxId observed : String) :
    Except Err Bool :=
  match db.effectiveDispatchBounds eventId outboxId with
  | .error e => if e.isValueError then .ok true else .error e
  | .ok bounds =>
    match Datetime.fromisoformat observed with
    | .error e => if Err.isValueError (.pyError e) then .ok true else .error (.pyError e)
    | .ok instant => .ok (bounds.any fun b => b.instant ≤ instant.instant)

/-! ## The native-start fence -/

/-- The `WHERE` clause of `_native_submission_authorized`. -/
def OutboxRow.ownsAttempt (rows : List OutboxRow) (eventId outboxId workerId : String)
    (attemptNumber : ℤ) (r : OutboxRow) : Bool :=
  r.outboxId = outboxId && r.eventId = eventId && r.status = .inProgress &&
    r.workerId = some workerId &&
    (r.activeAttempt = some attemptNumber ||
      (r.activeAttempt.isNone && sqlLikeStart "pipeline:" workerId &&
        r.attemptNumber = attemptNumber)) &&
    r.noSiblingFrom rows r.generation

end Medre.Storage
