import Medre.Framework.Dict
import Medre.Framework.Tasks
import Medre.Storage.NativeRefs

/-! # `ConversationProjectionService`

The service derives the conversation of every event from the stored relations and native
references. It is a task: others commit between any two of its calls. -/

namespace Medre.Planning

open Medre.Framework Medre.Storage

/-! ## Projection rows -/

/-- `CONVERSATION_MEMBERSHIP_STATES`. -/
inductive ResolutionState where
  | root
  | resolved
  | unresolved
  | cycle
deriving DecidableEq, Repr

/-- `ConversationMembership`; its `conversation_id` has to equal the root. -/
structure ConversationMembership where
  eventId : String
  rootEventId : String
  resolvedTargetEventId : Option String
  relationType : Option String
  depth : ℕ
  resolutionState : ResolutionState
deriving DecidableEq, Repr

def ConversationMembership.conversationId (m : ConversationMembership) : String := m.rootEventId

/-- `CONVERSATION_PROJECTION_STATUSES`. -/
inductive ProjectionStatus where
  | clean
  | dirty
  | rebuilding
deriving DecidableEq, Repr

/-- `ConversationProjectionState`; only a rebuild carries progress. -/
structure ConversationProjectionState where
  projectionRevision : ℕ
  status : ProjectionStatus
  lastEventId : Option String := none
  positive : 1 ≤ projectionRevision := by decide
  progress : status ≠ .rebuilding → lastEventId = none := by simp
deriving DecidableEq, Repr

def conversationProjectionRevision : ℕ := 1

/-- The store with the tables of the projection. -/
structure ConversationStore where
  db : Db
  memberships : String → Option ConversationMembership
  projection : Option ConversationProjectionState

/-! ## Storage calls -/

/-- The native identity a relation names: `_row_to_relation` builds a reference only
from a non-empty adapter and message id. -/
def targetNativeRef (r : RelationRow) : Option (String × Option String × String) :=
  match r.targetNativeAdapter, r.targetNativeMessageId with
  | some adapter, some message =>
    if adapter ≠ "" ∧ message ≠ "" then some (adapter, r.targetNativeChannelId, message)
    else none
  | _, _ => none

def relationsOf (db : Db) (eventId : String) : List RelationRow :=
  db.relations.rows.filter fun r => r.eventId = eventId

/-- `_SELECT_NREFS_FOR_EVENT`. -/
def nativeRefsOf (db : Db) (eventId : String) : List NativeRefRow :=
  (db.nativeRefs.rows.filter fun n => n.eventId = eventId).insertionSort fun n m =>
    n.createdAt < m.createdAt ∨ (n.createdAt = m.createdAt ∧ n.id ≤ m.id)

/-- `_SELECT_RELATION_SOURCES`. -/
def relationSources (db : Db) (targetEventId : String) : List String :=
  ((db.relations.rows.filter fun r => r.targetEventId = some targetEventId).map
    RelationRow.eventId).eraseDups

/-- `_SELECT_RELATION_SOURCES_FOR_NATIVE_REF`. -/
def relationSourcesForNativeRef (db : Db) (k : String × Option String × String) : List String :=
  ((db.relations.rows.filter fun r => r.targetNativeAdapter = some k.1 &&
    r.targetNativeChannelId = k.2.1 && r.targetNativeMessageId = some k.2.2).map
      RelationRow.eventId).eraseDups

/-- The rows of `list_event_ids_page`. -/
def eventIdsAfter (db : Db) (after : Option String) : List String :=
  ((db.events.rows.map EventRow.eventId).filter fun e => after.all fun a => a < e).insertionSort
    (· ≤ ·)

inductive ConversationCall where
  | getEvent (eventId : String)
  | getRelations (eventId : String)
  | resolveNativeRef (k : String × Option String × String)
  | listNativeRefsForEvent (eventId : String)
  | listRelationSources (targetEventId : String)
  | listRelationSourcesForNativeRef (k : String × Option String × String)
  | putMembership (m : ConversationMembership)
  | getProjectionState
  | putProjectionState (p : ConversationProjectionState)
  | listEventIdsPage (after : Option String) (limit : ℕ)

def ConversationCall.Answer : ConversationCall → Type
  | .getEvent _ => Bool
  | .getRelations _ => List RelationRow
  | .resolveNativeRef _ => Option String
  | .listNativeRefsForEvent _ => List NativeRefRow
  | .listRelationSources _ => List String
  | .listRelationSourcesForNativeRef _ => List String
  | .putMembership _ => Except Err Bool
  | .getProjectionState => Option ConversationProjectionState
  | .putProjectionState _ => Unit
  | .listEventIdsPage .. => Except Err (List String)

/-- The foreign keys of a projection row. -/
def ConversationMembership.namesStored (m : ConversationMembership) (db : Db) : Bool :=
  db.hasEvent m.eventId && db.hasEvent m.rootEventId && m.resolvedTargetEventId.all db.hasEvent

/-- `put_conversation_membership`: an upsert that reports whether the row changed. -/
def ConversationStore.putMembership (s : ConversationStore) (m : ConversationMembership) :
    ConversationStore × Except Err Bool :=
  if m.namesStored s.db then
    ({ s with memberships := Function.update s.memberships m.eventId (some m) },
      .ok (decide (s.memberships m.eventId ≠ some m)))
  else (s, .error (.integrityError "FOREIGN KEY constraint failed"))

def ConversationStore.answer (s : ConversationStore) :
    (c : ConversationCall) → ConversationStore × c.Answer
  | .getEvent e => (s, s.db.hasEvent e)
  | .getRelations e => (s, relationsOf s.db e)
  | .resolveNativeRef k => (s, s.db.eventOf k)
  | .listNativeRefsForEvent e => (s, nativeRefsOf s.db e)
  | .listRelationSources e => (s, relationSources s.db e)
  | .listRelationSourcesForNativeRef k => (s, relationSourcesForNativeRef s.db k)
  | .putMembership m => s.putMembership m
  | .getProjectionState => (s, s.projection)
  | .putProjectionState p => ({ s with projection := some p }, ())
  | .listEventIdsPage after limit =>
    (s, if limit < 1 then .error (.valueError "event ID page limit must be positive")
      else .ok ((eventIdsAfter s.db after).take limit))

/-- What the service raises; `exhausted` is the bound the model puts on its loops. -/
inductive ConversationError where
  /-- "cannot project missing canonical event" -/
  | missingEvent (eventId : String)
  /-- "conversation projection lost terminal edge" -/
  | lostTerminalEdge (eventId : String)
  /-- "conversation projection could not resolve parent" -/
  | unresolvedParent (parentId eventId : String)
  /-- "conversation projection produced no membership" -/
  | noMembership (eventId : String)
  | storage (e : Err)
  | exhausted
deriving DecidableEq, Repr

abbrev Service := Task ConversationCall ConversationCall.Answer ConversationError

abbrev ask (c : ConversationCall) : Service c.Answer := Task.perform c

/-! ## Reading the graph -/

/-- `event_cache`: the relations of an event, or that it is missing. -/
abbrev EventCache := Dict String (Option (List RelationRow))

abbrev MembershipCache := Dict String ConversationMembership

/-- `get_envelope`: the row, then its relations. -/
def getEnvelope (eventId : String) : Service (Option (List RelationRow)) := do
  let stored : Bool ← ask (.getEvent eventId)
  if stored then
    let relations : List RelationRow ← ask (.getRelations eventId)
    pure (some relations)
  else pure none

def getEvent (events : EventCache) (eventId : String) :
    Service (Option (List RelationRow) × EventCache) :=
  match events.get? eventId with
  | some found => pure (found, events)
  | none => do
    let found ← getEnvelope eventId
    pure (found, events.set eventId found)

def storedTarget (events : EventCache) (eventId : String) :
    Service (Option String × EventCache) := do
  let (found, events) ← getEvent events eventId
  pure (if found.isSome then some eventId else none, events)

/-- The target of a relation; an explicit one does not fall back on the reference. -/
def resolveTarget (events : EventCache) (r : RelationRow) :
    Service (Option String × EventCache) :=
  match r.targetEventId with
  | some target => storedTarget events target
  | none =>
    match targetNativeRef r with
    | none => pure (none, events)
    | some k => do
      let resolved : Option String ← ask (.resolveNativeRef k)
      match resolved with
      | none => pure (none, events)
      | some target => storedTarget events target

def hasTarget (r : RelationRow) : Bool := r.targetEventId.isSome || (targetNativeRef r).isSome

/-- `first_dependency_type or relation_type`. -/
def firstType (first : Option String) (relationType : String) : Option String :=
  match first with
  | some t => if t = "" then some relationType else some t
  | none => some relationType

/-- What `_select_parent` returns. -/
structure Edge where
  parentId : Option String
  relationType : Option String
  hasDependency : Bool
deriving DecidableEq, Repr

/-- `_select_parent`, from the dependencies seen so far. -/
def selectParent (events : EventCache) (first : Option String) (hasDependency : Bool) :
    List RelationRow → Service (Edge × EventCache)
  | [] => pure (⟨none, first, hasDependency⟩, events)
  | r :: rs => do
    let (target, events) ← resolveTarget events r
    match target with
    | some target => pure (⟨some target, some r.relationType, true⟩, events)
    | none =>
      if hasTarget r then selectParent events (firstType first r.relationType) true rs
      else selectParent events first hasDependency rs

/-! ## One ancestry chain -/

/-- The path of a walk: `path` with `edges`; `positions` are the places in it. -/
abbrev Path := List (String × Edge)

def cycleMembership (root : String) (node : String × Edge) : ConversationMembership where
  eventId := node.1
  rootEventId := root
  resolvedTargetEventId := node.2.parentId
  relationType := node.2.relationType
  depth := 0
  resolutionState := .cycle

/-- `cycle_root` and the memberships of the cycle that starts at `current`. -/
def closeCycle (cache : MembershipCache) (current : String) (cycle : Path) : MembershipCache :=
  let root := cycle.foldl (fun least node => min least node.1) current
  cycle.foldl (fun cache node => cache.set node.1 (cycleMembership root node)) cache

def rootMembership (eventId : String) (edge : Edge) : ConversationMembership where
  eventId := eventId
  rootEventId := eventId
  resolvedTargetEventId := none
  relationType := edge.relationType
  depth := 0
  resolutionState := if edge.hasDependency then .unresolved else .root

def childMembership (eventId : String) (edge : Edge) (parent : ConversationMembership) :
    ConversationMembership where
  eventId := eventId
  rootEventId := parent.rootEventId
  resolvedTargetEventId := edge.parentId
  relationType := edge.relationType
  depth := parent.depth + 1
  resolutionState := if parent.resolutionState = .unresolved then .unresolved else .resolved

/-- The loop `while current not in cache` of `_resolve_membership`. -/
def walk (cache : MembershipCache) : ℕ → EventCache → Path → String →
    Service (Path × MembershipCache × EventCache)
  | 0, _, _, _ => .raise .exhausted
  | fuel + 1, events, path, current =>
    if current ∈ cache.keys then pure (path, cache, events)
    else if current ∈ path.map Prod.fst then
      pure (path, closeCycle cache current (path.dropWhile fun node => node.1 ≠ current), events)
    else do
      let (event, events) ← getEvent events current
      match event with
      | none => .raise (.missingEvent current)
      | some relations => do
        let (edge, events) ← selectParent events none false relations
        match edge.parentId with
        | none =>
          pure (path ++ [(current, edge)], cache.set current (rootMembership current edge),
            events)
        | some parent => walk cache fuel events (path ++ [(current, edge)]) parent

/-- The loop over `reversed(path)`. -/
def resolvePath (cache : MembershipCache) : Path → Except ConversationError MembershipCache
  | [] => .ok cache
  | node :: rest =>
    if node.1 ∈ cache.keys then resolvePath cache rest
    else
      match node.2.parentId with
      | none => .error (.lostTerminalEdge node.1)
      | some parentId =>
        match cache.get? parentId with
        | none => .error (.unresolvedParent parentId node.1)
        | some parent =>
          resolvePath (cache.set node.1 (childMembership node.1 node.2 parent)) rest

def resolveMembership (fuel : ℕ) (cache : MembershipCache) (events : EventCache)
    (eventId : String) : Service (ConversationMembership × MembershipCache × EventCache) :=
  match cache.get? eventId with
  | some m => pure (m, cache, events)
  | none => do
    let (path, cache, events) ← walk cache fuel events [] eventId
    let cache ← Task.lift (resolvePath cache path.reverse)
    match cache.get? eventId with
    | some m => pure (m, cache, events)
    | none => .raise (.noMembership eventId)

/-- The items of `sorted(cache.keys() - previously_cached)`. -/
def newItems (previous : List String) (cache : MembershipCache) :
    List (String × ConversationMembership) :=
  (cache.items.filter fun i => i.1 ∉ previous).insertionSort fun i j => i.1 ≤ j.1

/-- The new rows of a calculation are stored one by one. -/
def storeItem (changed : List String) (item : String × ConversationMembership) :
    Service (List String) := do
  let answer : Except Err Bool ← ask (.putMembership item.2)
  match answer with
  | .ok true => pure (changed ++ [item.1])
  | .ok false => pure changed
  | .error e => .raise (.storage e)

/-- What `_reconcile_event_unlocked` leaves with its caller. -/
structure Reconciled where
  membership : ConversationMembership
  changed : List String
  memberships : MembershipCache
  events : EventCache

/-- `_reconcile_event_unlocked`. -/
def reconcileEvent (fuel : ℕ) (cache : MembershipCache) (events : EventCache)
    (eventId : String) : Service Reconciled := do
  let (membership, cache', events) ← resolveMembership fuel cache events eventId
  let changed ← Task.fold storeItem [] (newItems cache.keys cache')
  pure { membership, changed, memberships := cache', events }

/-! ## Dependents -/

def nativeDependentSources (eventId : String) : Service (List String) := do
  let refs : List NativeRefRow ← ask (.listNativeRefsForEvent eventId)
  Task.fold (fun (ordered : List String) (n : NativeRefRow) => do
    let sources : List String ← ask (.listRelationSourcesForNativeRef n.identity)
    pure (ordered ++ sources).eraseDups) [] refs

def dependentSources (eventId : String) : Service (List String) := do
  let explicit : List String ← ask (.listRelationSources eventId)
  let byRef ← nativeDependentSources eventId
  pure (explicit ++ byRef).eraseDups

/-- The variables of `_repair_dependents_unlocked`. -/
structure Traversal where
  pending : List String
  queued : List String
  processed : List String := []
  changed : List String := []
  memberships : MembershipCache := .empty
  events : EventCache := .empty
  requested : Option ConversationMembership := none

/-- `pending.append(source_id)`, once. -/
def Traversal.enqueue (t : Traversal) (sourceId : String) : Traversal :=
  if sourceId ∈ t.processed ∨ sourceId ∈ t.queued then t
  else { t with pending := t.pending ++ [sourceId], queued := t.queued ++ [sourceId] }

/-- The dependents of one anchor. -/
def enqueueDependents (t : Traversal) (anchor : String) : Service Traversal := do
  let sources ← dependentSources anchor
  pure (sources.foldl Traversal.enqueue t)

/-- `sorted(anchors)`. -/
def anchorsOf (current : String) (changed : List String) : List String :=
  (changed ++ [current]).eraseDups.insertionSort (· ≤ ·)

/-- The loop `while pending`. -/
def repairLoop (bound : ℕ) (requestedEventId : Option String) :
    ℕ → Traversal → Service Traversal
  | 0, _ => .raise .exhausted
  | fuel + 1, t =>
    match t.pending with
    | [] => pure t
    | current :: pending => do
      let r ← reconcileEvent bound t.memberships t.events current
      let t : Traversal :=
        { pending, queued := t.queued, processed := t.processed ++ [current]
          changed := t.changed ++ r.changed, memberships := r.memberships
          events := r.events
          requested := if requestedEventId = some current then some r.membership
            else t.requested }
      let t ← Task.fold enqueueDependents t (anchorsOf current r.changed)
      repairLoop bound requestedEventId fuel t

/-- `_repair_dependents_unlocked`. -/
def repairDependents (bound : ℕ) (initialEventIds : List String)
    (requestedEventId : Option String) : Service Traversal :=
  repairLoop bound requestedEventId bound { pending := initialEventIds, queued := initialEventIds }

def repairAfterEventAvailable (bound : ℕ) (eventId : String) : Service Unit := do
  let t ← repairDependents bound [eventId] (some eventId)
  match t.requested with
  | some _ => pure ()
  | none => .raise (.noMembership eventId)

def repairAfterNativeRefAvailable (bound : ℕ) (eventId : String) : Service Unit := do
  let initial ← nativeDependentSources eventId
  let _ ← repairDependents bound initial none
  pure ()

/-! ## The rebuild -/

structure ConversationRebuildSummary where
  scannedEvents : ℕ
  changedEvents : ℕ
  skippedCurrent : Bool
deriving DecidableEq, Repr

/-- The variables of `rebuild_all`. -/
structure Rebuild where
  scanned : ℕ := 0
  changed : ℕ := 0
  memberships : MembershipCache := .empty

/-- One event of a page. Its ancestry is cached, and the cache cut to its size. -/
def rebuildEvent (bound cacheSize : ℕ) (b : Rebuild) (eventId : String) : Service Rebuild := do
  let (_, cache, _) ← resolveMembership bound b.memberships .empty eventId
  let items := newItems b.memberships.keys cache
  let changed ← Task.fold storeItem [] items
  let memberships := items.foldl (fun d i => d.set i.1 i.2) b.memberships
  pure { scanned := b.scanned + 1, changed := b.changed + changed.length
         memberships := memberships.prune cacheSize }

def rebuilding (cursor : Option String) : ConversationProjectionState where
  projectionRevision := conversationProjectionRevision
  status := .rebuilding
  lastEventId := cursor

def dirtyState : ConversationProjectionState where
  projectionRevision := conversationProjectionRevision
  status := .dirty

def cleanState : ConversationProjectionState where
  projectionRevision := conversationProjectionRevision
  status := .clean

def rebuildLoop (bound pageSize cacheSize : ℕ) : ℕ → Option String → Rebuild → Service Rebuild
  | 0, _, _ => .raise .exhausted
  | fuel + 1, cursor, b => do
    let page : Except Err (List String) ← ask (.listEventIdsPage cursor pageSize)
    match page with
    | .error e => .raise (.storage e)
    | .ok [] => pure b
    | .ok (e :: es) => do
      let b ← Task.fold (rebuildEvent bound cacheSize) b (e :: es)
      let cursor := (e :: es).getLast (by simp)
      let _ : Unit ← ask (.putProjectionState (rebuilding (some cursor)))
      rebuildLoop bound pageSize cacheSize fuel (some cursor) b

def resumeCursor (prior : Option ConversationProjectionState) : Option String :=
  match prior with
  | some p =>
    if p.projectionRevision = conversationProjectionRevision ∧ p.status = .rebuilding then
      p.lastEventId
    else none
  | none => none

/-- A clean marker of the current revision. -/
def isCurrent (prior : Option ConversationProjectionState) : Bool :=
  prior.any fun p =>
    p.projectionRevision = conversationProjectionRevision && p.status = .clean

def rebuildAll (bound pageSize cacheSize : ℕ) : Service ConversationRebuildSummary := do
  let prior : Option ConversationProjectionState ← ask .getProjectionState
  if isCurrent prior then
    let _ : Unit ← ask (.putProjectionState dirtyState)
    pure { scannedEvents := 0, changedEvents := 0, skippedCurrent := true }
  else
    let cursor := resumeCursor prior
    let _ : Unit ← ask (.putProjectionState (rebuilding cursor))
    let b ← rebuildLoop bound pageSize cacheSize bound cursor {}
    let _ : Unit ← ask (.putProjectionState dirtyState)
    pure { scannedEvents := b.scanned, changedEvents := b.changed, skippedCurrent := false }

def markClean : Service Unit := do
  let _ : Unit ← ask (.putProjectionState cleanState)
  pure ()

def rebuildPageSize : ℕ := 256

def rebuildMembershipCacheSize : ℕ := 256

end Medre.Planning
