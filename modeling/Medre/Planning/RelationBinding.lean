import Medre.Framework.Dict
import Medre.Framework.Tasks
import Medre.Storage.Finalize

/-! # Destination-scoped relation binding (`relation_binding.py`)

A relation is bound to the native message of its target in one destination. The two reads are
calls that the task puts to whoever holds `get_fn` and `list_fn`. -/

namespace Medre.Planning

open Medre.Framework
open Medre.Storage (Err Direction NativeMessageRef)

/-! ## Events in flight -/

/-- An object of a payload or of relation metadata: a text, or anything else with its truth
value and its `str`. -/
inductive PyObject where
  | text (s : String)
  | other (truthy : Bool) (str : String)
deriving DecidableEq, Repr

/-- `bool(x)`. -/
def PyObject.truthy : PyObject → Bool
  | .text s => s ≠ ""
  | .other truthy _ => truthy

structure NativeRef where
  adapter : String
  nativeChannelId : Option String
  nativeMessageId : String
  nativeThreadId : Option String := none
deriving DecidableEq, Repr

/-- `RelationTargetStatus`. -/
inductive TargetStatus where
  | bound
  | boundOwned
  | unresolvedTarget
  | outOfScope
  | ambiguous
  | notAuthorized
  | bindingUnavailable
deriving DecidableEq, Repr

def TargetStatus.text : TargetStatus → String
  | .bound => "bound"
  | .boundOwned => "bound_owned"
  | .unresolvedTarget => "unresolved_target"
  | .outOfScope => "out_of_scope"
  | .ambiguous => "ambiguous"
  | .notAuthorized => "not_authorized"
  | .bindingUnavailable => "binding_unavailable"

structure RelationTargetFact where
  status : TargetStatus
  adapter : Option String := none
  nativeChannelId : Option String := none
  nativeMessageId : Option String := none
  nativeThreadId : Option String := none
  direction : Option Direction := none
  reason : Option String := none
  targetEventKind : Option String := none
deriving DecidableEq, Repr

inductive RelationType where
  | reply
  | reaction
  | edit
  | delete
  | thread
deriving DecidableEq, Repr

/-- `relation_type in MUTATION_RELATION_TYPES`. -/
def RelationType.isMutation : RelationType → Bool
  | .edit | .delete => true
  | _ => false

structure EventRelation where
  relationType : RelationType
  targetEventId : Option String
  targetNativeRef : Option NativeRef
  key : Option String
  fallbackText : Option String
  metadata : Dict String PyObject
  targetFact : Option RelationTargetFact := none

/-- `CanonicalEvent`, with the fields that binding and enrichment read. -/
structure CanonicalEvent where
  eventId : String
  eventKind : String
  sourceAdapter : String
  sourceTransportId : String
  sourceChannelId : Option String
  relations : List EventRelation
  payload : Dict String PyObject

/-! ## The gate -/

/-- `event_kind in MUTATION_EVENT_KINDS`. -/
def isMutationKind (eventKind : String) : Bool :=
  eventKind = "message.edited" || eventKind = "message.deleted"

def isMutationDelivery (event : CanonicalEvent) : Bool :=
  isMutationKind event.eventKind && event.relations.any fun rel => rel.relationType.isMutation

def relationTargetNotBindablePrefix : String := "relation_target_not_bindable"

/-- The loop of `mutation_binding_suppression_error`. -/
def unboundRelation : List EventRelation → Option String
  | [] => none
  | rel :: relations =>
    if !rel.relationType.isMutation then unboundRelation relations
    else
      match rel.targetFact with
      | none =>
        some <| relationTargetNotBindablePrefix ++ ":binding_unavailable:no_binding_fact"
      | some fact =>
        if fact.status = .boundOwned then unboundRelation relations
        else
          some <| relationTargetNotBindablePrefix ++ ":" ++
            (orNone fact.reason).getD fact.status.text

def mutationBindingSuppressionError (event : CanonicalEvent) : Option String :=
  if !isMutationDelivery event then none else unboundRelation event.relations

/-! ## The decision on what was read -/

def identityFacts (event : CanonicalEvent) : String × String × Option String :=
  (event.sourceAdapter, event.sourceTransportId, event.sourceChannelId)

def identityComplete : String × String × Option String → Bool
  | (adapter, transportId, channel) =>
    adapter ≠ "" && transportId ≠ "" && (orNone channel).isSome

def usableRelationNativeRef (relation : EventRelation) (targetAdapter : String)
    (targetChannel : Option String) : Option NativeRef :=
  relation.targetNativeRef.filter fun ref =>
    ref.adapter = targetAdapter && (targetChannel = none || ref.nativeChannelId = targetChannel)

def nativeTuple (ref : NativeMessageRef) : Option String × String :=
  (ref.nativeChannelId, ref.nativeMessageId)

/-- `ref.adapter == target_adapter and (target_channel is None or ref.native_channel_id ==
target_channel)`. -/
def inScope (targetAdapter : String) (targetChannel : Option String) (ref : NativeMessageRef) :
    Bool :=
  ref.adapter = targetAdapter && (targetChannel = none || ref.nativeChannelId = targetChannel)

/-- The loop of `_group_by_tuple`. -/
def groupTuples (refs : List NativeMessageRef) :
    Dict (Option String × String) (List NativeMessageRef) :=
  refs.foldl (fun seen ref =>
    seen.set (nativeTuple ref) ((seen.get? (nativeTuple ref)).getD [] ++ [ref])) .empty

def groupByTuple (refs : List NativeMessageRef) : List (List NativeMessageRef) :=
  (groupTuples refs).items.map Prod.snd

/-- `_fact`. -/
def unboundFact (status : TargetStatus) (targetAdapter reason : String)
    (candidate : Option NativeMessageRef := none) (targetEventKind : Option String := none) :
    RelationTargetFact :=
  { status
    adapter := some targetAdapter
    nativeChannelId := candidate.bind (·.nativeChannelId)
    nativeMessageId := candidate.map (·.nativeMessageId)
    reason := some reason
    targetEventKind }

/-- A referential relation bound to its own native reference, or else the refusal. -/
def ownRefFact (relation : EventRelation) (targetAdapter : String)
    (targetChannel : Option String) (refusal : RelationTargetFact) : RelationTargetFact :=
  match usableRelationNativeRef relation targetAdapter targetChannel with
  | some ref =>
    if relation.relationType.isMutation then refusal
    else
      { status := .bound
        adapter := some targetAdapter
        nativeChannelId := ref.nativeChannelId
        nativeMessageId := some ref.nativeMessageId
        nativeThreadId := ref.nativeThreadId }
  | none => refusal

/-- The `bound_owned` proof. -/
def ownershipFact (event target : CanonicalEvent) (targetAdapter : String)
    (candidate : NativeMessageRef) (records : List NativeMessageRef) : RelationTargetFact :=
  let refuse (reason : String) : RelationTargetFact :=
    unboundFact .notAuthorized targetAdapter reason (some candidate) (some target.eventKind)
  if records.all fun record => record.direction = .inbound then
    refuse "not_authorized:inbound_only_match"
  else if records.any fun record => record.direction = .inbound then
    refuse "not_authorized:direction_conflict"
  else if !identityComplete (identityFacts target) then
    refuse "not_authorized:original_identity_incomplete"
  else if !identityComplete (identityFacts event) then
    refuse "not_authorized:mutation_identity_incomplete"
  else if identityFacts target ≠ identityFacts event then
    refuse "not_authorized:identity_mismatch"
  else
    { status := .boundOwned
      adapter := some targetAdapter
      nativeChannelId := candidate.nativeChannelId
      nativeMessageId := some candidate.nativeMessageId
      nativeThreadId := candidate.nativeThreadId
      direction := some .outbound
      targetEventKind := some target.eventKind }

/-- The decision on the references in scope. The target is absent only if nothing could read it. -/
def candidateFact (relation : EventRelation) (event : CanonicalEvent) (targetAdapter : String)
    (target : Option CanonicalEvent) (groups : List (List NativeMessageRef)) :
    RelationTargetFact :=
  match groups with
  | [] => unboundFact .outOfScope targetAdapter "out_of_scope:no_native_refs_in_destination"
  | _ :: _ :: _ =>
    unboundFact .ambiguous targetAdapter "ambiguous:multiple_distinct_native_targets"
  | [records] =>
    match records with
    | [] => unboundFact .outOfScope targetAdapter "out_of_scope:no_native_refs_in_destination"
    | candidate :: _ =>
      match relation.relationType.isMutation, target with
      | true, some target => ownershipFact event target targetAdapter candidate records
      | _, target =>
        { status := .bound
          adapter := some targetAdapter
          nativeChannelId := candidate.nativeChannelId
          nativeMessageId := some candidate.nativeMessageId
          nativeThreadId := candidate.nativeThreadId
          direction := some candidate.direction
          targetEventKind := target.map (·.eventKind) }

/-- The decision after the reads. `none` stands for a read nobody could make. -/
def decideBinding (relation : EventRelation) (event : CanonicalEvent) (targetAdapter : String)
    (targetChannel : Option String) (target : Option (Option CanonicalEvent))
    (refs : Option (List NativeMessageRef)) : RelationTargetFact :=
  match target, refs with
  | some none, _ =>
    unboundFact .unresolvedTarget targetAdapter "unresolved_target:target_event_not_stored"
  | _, none =>
    ownRefFact relation targetAdapter targetChannel
      (unboundFact .bindingUnavailable targetAdapter
        "binding_unavailable:ref_read_unavailable")
  | target, some refs =>
    candidateFact relation event targetAdapter target.join
      (groupByTuple (refs.filter (inScope targetAdapter targetChannel)))

/-! ## The reads -/

/-- The reads a binding may make. -/
inductive ReadCall where
  /-- `get_fn(event_id)`. -/
  | get (eventId : String)
  /-- `list_fn(event_id)`. -/
  | list (eventId : String)

/-- A read answers or raises an `Exception`. -/
abbrev ReadCall.Answer : ReadCall → Type
  | .get _ => Except Err (Option CanonicalEvent)
  | .list _ => Except Err (List NativeMessageRef)

abbrev Enriching := Task ReadCall ReadCall.Answer Empty

abbrev askRead (c : ReadCall) : Enriching c.Answer := Task.perform c

/-- Which of `get_fn` and `list_fn` is callable. -/
structure Readable where
  get : Bool
  list : Bool

def storageReadFailed (targetAdapter : String) : RelationTargetFact :=
  unboundFact .bindingUnavailable targetAdapter "binding_unavailable:storage_read_failed"

/-- The second read, and the decision. -/
def bindListed (readable : Readable) (relation : EventRelation) (event : CanonicalEvent)
    (targetAdapter : String) (targetChannel : Option String) (targetEventId : String)
    (target : Option (Option CanonicalEvent)) : Enriching RelationTargetFact :=
  if readable.list then do
    let refs : Except Err (List NativeMessageRef) ← askRead (.list targetEventId)
    pure (match refs with
      | .error _ => storageReadFailed targetAdapter
      | .ok refs => decideBinding relation event targetAdapter targetChannel target (some refs))
  else pure (decideBinding relation event targetAdapter targetChannel target none)

/-- `RelationBindingAuthority.bind`, with `get_fn` and `list_fn` as the caller's caches and
the methods of the storage give them. -/
def bindRelation (readable : Readable) (relation : EventRelation) (event : CanonicalEvent)
    (targetAdapter : String) (targetChannel : Option String) : Enriching RelationTargetFact :=
  match orNone relation.targetEventId with
  | none =>
    pure (ownRefFact relation targetAdapter targetChannel
      (unboundFact .unresolvedTarget targetAdapter "unresolved_target:no_target_event_id"))
  | some targetEventId =>
    if readable.get then do
      let target : Except Err (Option CanonicalEvent) ← askRead (.get targetEventId)
      match target with
      | .error _ => pure (storageReadFailed targetAdapter)
      | .ok target =>
        bindListed readable relation event targetAdapter targetChannel targetEventId
          (some target)
    else if relation.relationType.isMutation then
      pure (unboundFact .bindingUnavailable targetAdapter
        "binding_unavailable:target_read_unavailable")
    else
      bindListed readable relation event targetAdapter targetChannel targetEventId none

end Medre.Planning
