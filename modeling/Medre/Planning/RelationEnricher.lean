import Medre.Framework.Memo
import Medre.Planning.RelationBinding

/-! # Relation enrichment for one target (`relation_enricher.py`)

Three phases rewrite each relation: the native reference, the quoted text with its sender, and
the target fact. Their reads are memoized, failures included. -/

namespace Medre.Planning

open Medre.Framework
open Medre.Storage (Err NativeMessageRef)

/-! ## Phase 1: native references -/

def skipNative (rel : EventRelation) (targetAdapter : String) (targetChannel : Option String) :
    Bool :=
  match rel.targetNativeRef with
  | none => false
  | some ref =>
    ref.adapter = targetAdapter &&
      (targetChannel = none || ref.nativeChannelId = targetChannel)

/-- The only distinct native target among the candidates. -/
def matchingRef (refs : List NativeMessageRef) (targetAdapter : String)
    (targetChannel : Option String) : Option NativeMessageRef :=
  let candidates := refs.filter (inScope targetAdapter targetChannel)
  let distinct : Dict (Option String × String) NativeMessageRef :=
    candidates.foldl (fun distinct ref =>
      if (distinct.get? (nativeTuple ref)).isSome then distinct
      else distinct.set (nativeTuple ref) ref) .empty
  match distinct.items with
  | [(_, ref)] => some ref
  | _ => none

/-- The relation with the matching reference, or without one of another channel. -/
def withNativeRef (rel : EventRelation) (targetAdapter : String)
    (targetChannel : Option String) (refs : List NativeMessageRef) : EventRelation :=
  match matchingRef refs targetAdapter targetChannel with
  | some ref =>
    { rel with
      targetNativeRef := some
        { adapter := ref.adapter
          nativeChannelId := ref.nativeChannelId
          nativeMessageId := ref.nativeMessageId
          nativeThreadId := ref.nativeThreadId }
      targetFact := none }
  | none =>
    if targetChannel ≠ none && rel.targetNativeRef.any fun ref =>
        ref.adapter = targetAdapter && ref.nativeChannelId ≠ targetChannel then
      { rel with targetNativeRef := none, targetFact := none }
    else rel

/-- Native-ref enrichment; a failed read counts as no references. -/
def enrichNativeRef (readable : Readable) (rel : EventRelation) (targetAdapter : String)
    (targetChannel : Option String) (targetEventId : String) : Enriching EventRelation :=
  if !readable.list || skipNative rel targetAdapter targetChannel then pure rel
  else do
    let refs : Except Err (List NativeMessageRef) ← askRead (.list targetEventId)
    pure (withNativeRef rel targetAdapter targetChannel (match refs with
      | .ok refs => refs
      | .error _ => []))

/-! ## Phase 2: text and sender -/

/-- `select_message_body(payload, strict=False)`. -/
def selectMessageBody (payload : Dict String PyObject) : String :=
  match payload.get? "formatting", payload.get? "body" with
  | some _, some (.text body) => body
  | _, body =>
    match (payload.get? "text").or body with
    | some (.text text) => text
    | some (.other _ str) => str
    | none => ""

/-- The condition on which a relation is looked up for its text and sender. -/
def wantsText (rel : EventRelation) : Bool :=
  let missing (key : String) : Bool := !(rel.metadata.get? key).any PyObject.truthy
  (orNone rel.fallbackText).isNone || missing "original_text" ||
    missing "original_sender_displayname" || missing "original_sender"

/-- `meta[key] = value` for a key that is not there yet and a value that is not empty. -/
def putMissing (key : String) (value : Option String) (metadata : Dict String PyObject) :
    Dict String PyObject :=
  match value with
  | some text => if (metadata.get? key).isSome then metadata else metadata.set key (.text text)
  | none => metadata

def withText (rel : EventRelation) (text : String) : EventRelation :=
  if text = "" then rel
  else
    { rel with
      fallbackText := some ((orNone rel.fallbackText).getD text)
      metadata := putMissing "original_text" (some text) rel.metadata
      targetFact := none }

/-- `SenderProjectionFn`: generic sender fields of an event, or what it raises. -/
abbrev SenderProjection := CanonicalEvent → Except Err (Dict String (Option String))

/-- `projected`: nothing without a projection, or when it raises. -/
def projectedSender (project : Option SenderProjection) (target : CanonicalEvent) :
    Dict String (Option String) :=
  match project with
  | none => .empty
  | some project =>
    match project target with
    | .ok projected => projected
    | .error _ => .empty

def withSender (project : Option SenderProjection) (target : CanonicalEvent)
    (rel : EventRelation) : EventRelation :=
  let projected := projectedSender project target
  let field (key : String) : Option String := orNone (projected.get? key).join
  let displayname := (field "source_sender_label").or (field "source_sender_short_label")
  let sender := ((field "source_sender_id").or (field "source_sender_handle")).or
    (orNone (some target.sourceTransportId))
  let metadata := putMissing "original_sender" sender
    (putMissing "original_sender_displayname" displayname rel.metadata)
  if metadata.keys.length = rel.metadata.keys.length then rel
  else { rel with metadata, targetFact := none }

/-- Text enrichment; a failed read leaves the relation as it is. -/
def enrichText (readable : Readable) (project : Option SenderProjection) (rel : EventRelation)
    (targetEventId : String) : Enriching EventRelation :=
  if !readable.get || !wantsText rel then pure rel
  else do
    let target : Except Err (Option CanonicalEvent) ← askRead (.get targetEventId)
    pure (match target with
      | .ok (some target) =>
        withSender project target (withText rel (selectMessageBody target.payload))
      | _ => rel)

/-! ## The loop -/

def enrichRelation (readable : Readable) (project : Option SenderProjection)
    (event : CanonicalEvent) (targetAdapter : String) (targetChannel : Option String)
    (rel : EventRelation) : Enriching (EventRelation × Bool) :=
  match orNone rel.targetEventId with
  | none =>
    if !rel.relationType.isMutation then pure (rel, false)
    else do
      let fact ← bindRelation readable rel event targetAdapter targetChannel
      pure ({ rel with targetFact := some fact }, true)
  | some targetEventId => do
    let rel ← enrichNativeRef readable rel targetAdapter targetChannel targetEventId
    let rel ← enrichText readable project rel targetEventId
    let fact ← bindRelation readable rel event targetAdapter targetChannel
    pure ({ rel with targetFact := some fact }, true)

/-- The body of `enrich_for_target` after its reads are set up. -/
def enrichEvent (readable : Readable) (project : Option SenderProjection)
    (event : CanonicalEvent) (targetAdapter : String) (targetChannel : Option String) :
    Enriching CanonicalEvent := do
  let enriched ← Task.fold (fun done rel => do
    let enriched ← enrichRelation readable project event targetAdapter targetChannel rel
    pure (done ++ [enriched])) [] event.relations
  pure (if enriched.any Prod.snd then { event with relations := enriched.map Prod.fst }
    else event)

/-! ## The reads of a call -/

inductive ReplyContextRead where
  | retained (event : CanonicalEvent)
  | unavailable (event : CanonicalEvent)
  | denied

/-- The storage methods the enricher uses; `list_native_refs_for_event` may be missing. -/
structure RelationStorage (σ : Type) where
  readReplyContext : σ → String → σ × Except Err ReplyContextRead
  getMetadata : σ → String → σ × Except Err (Option CanonicalEvent)
  listNativeRefs : Option (σ → String → σ × Except Err (List NativeMessageRef))

/-- The read behind `_memoized_get`: the authorized context, or the metadata on denial. -/
def RelationStorage.readTarget {σ : Type} (storage : RelationStorage σ) (s : σ)
    (eventId : String) : σ × Except Err (Option CanonicalEvent) :=
  match storage.readReplyContext s eventId with
  | (s, .error e) => (s, .error e)
  | (s, .ok (.retained event)) => (s, .ok (some event))
  | (s, .ok (.unavailable event)) => (s, .ok (some event))
  | (s, .ok .denied) => storage.getMetadata s eventId

/-- `cached_get_fn` and `cached_list_fn`. -/
structure CallerCaches (σ : Type) where
  get : Option (σ → String → σ × Except Err (Option CanonicalEvent)) := none
  list : Option (σ → String → σ × Except Err (List NativeMessageRef)) := none

/-- The world of a call: the storage, and the memos of the call. -/
structure CallState (σ : Type) where
  outside : σ
  gets : Memo String Err (Option CanonicalEvent) := {}
  lists : Memo String Err (List NativeMessageRef) := {}

section Calls

variable {σ : Type} (storage : Option (RelationStorage σ)) (caches : CallerCaches σ)

/-- Which reads there are. -/
def readableThrough : Readable where
  get := caches.get.isSome || storage.isSome
  list := caches.list.isSome || (storage.bind (·.listNativeRefs)).isSome

/-- The reads of a call: the caller's, or else memoized ones of the storage. -/
def answerRead (s : CallState σ) : (c : ReadCall) → CallState σ × c.Answer
  | .get eventId =>
    match caches.get, storage with
    | some get, _ =>
      let r := get s.outside eventId
      ({ s with outside := r.1 }, r.2)
    | none, some storage =>
      let r := Memo.memoized storage.readTarget s.outside s.gets eventId
      ({ s with outside := r.1.1, gets := r.1.2 }, r.2)
    | none, none => (s, .ok none)
  | .list eventId =>
    match caches.list, storage.bind (·.listNativeRefs) with
    | some list, _ =>
      let r := list s.outside eventId
      ({ s with outside := r.1 }, r.2)
    | none, some list =>
      let r := Memo.memoized list s.outside s.lists eventId
      ({ s with outside := r.1.1, lists := r.1.2 }, r.2)
    | none, none => (s, .ok [])

/-- `enrich_for_target`, with the state it leaves. -/
def enrichForTarget (project : Option SenderProjection) (event : CanonicalEvent)
    (targetAdapter : String) (targetChannel : Option String) (outside : σ) :
    CanonicalEvent × CallState σ :=
  match Task.alone (answerRead storage caches)
      (enrichEvent (readableThrough storage caches) project event targetAdapter targetChannel)
      { outside } with
  | (.ok enriched, s) => (enriched, s)
  | (.error e, _) => nomatch e

end Calls

end Medre.Planning
