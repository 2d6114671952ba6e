import Medre.Planning.RelationEnricher
import Medre.Storage.NativeRefs

/-! # Edits and deletions are authorized by stored evidence

The fact of an edit or delete depends on the type and the target of the relation, and on what the
reads of the binding answer. -/

namespace Medre.Planning

open List Medre.Framework
open Medre.Storage (Db Err NativeMessageRef NativeRefRow EventRow)

/-! ## Grouping -/

theorem groupTuples_get? (refs : List NativeMessageRef) (k : Option String × String) :
    (groupTuples refs).get? k =
      if (refs.filter fun r => nativeTuple r = k) = [] then none
      else some (refs.filter fun r => nativeTuple r = k) := by
  induction refs using List.reverseRecOn with
  | nil => rfl
  | append_singleton refs ref ih =>
    have hstep : groupTuples (refs ++ [ref]) = (groupTuples refs).set (nativeTuple ref)
        (((groupTuples refs).get? (nativeTuple ref)).getD [] ++ [ref]) := by
      rw [groupTuples, foldl_append]
      rfl
    rw [hstep, Dict.get?_set, filter_append]
    by_cases hk : k = nativeTuple ref
    · subst hk
      rw [if_pos rfl, ih]
      by_cases hempty : (refs.filter fun r => nativeTuple r = nativeTuple ref) = [] <;>
        simp [hempty]
    · rw [if_neg hk, ih]
      simp [Ne.symm hk]

theorem mem_groupTuples {refs : List NativeMessageRef} {k : Option String × String}
    {records : List NativeMessageRef} :
    (k, records) ∈ (groupTuples refs).items ↔
      records ≠ [] ∧ records = refs.filter fun r => nativeTuple r = k := by
  rw [Dict.mem_items, groupTuples_get?]
  constructor
  · intro h
    split at h
    · cases h
    · rename_i hne
      cases h
      exact ⟨hne, rfl⟩
  · rintro ⟨hne, rfl⟩
    rw [if_neg hne]

theorem groupByTuple_singleton {refs records : List NativeMessageRef} :
    groupByTuple refs = [records] ↔
      records = refs ∧ refs ≠ [] ∧ ∃ k, ∀ r ∈ refs, nativeTuple r = k := by
  constructor
  · intro h
    obtain ⟨⟨k, records'⟩, hitems, rfl⟩ := map_eq_singleton_iff.mp h
    obtain ⟨hne, hrecords⟩ := mem_groupTuples.mp (hitems ▸ mem_singleton_self _)
    have hall : ∀ r ∈ refs, nativeTuple r = k := by
      intro r hr
      have hmem : (nativeTuple r, refs.filter fun r' => nativeTuple r' = nativeTuple r) ∈
          (groupTuples refs).items :=
        mem_groupTuples.mpr ⟨ne_nil_of_mem (mem_filter.mpr ⟨hr, decide_eq_true rfl⟩), rfl⟩
      rw [hitems, mem_singleton] at hmem
      exact congrArg Prod.fst hmem
    have hwhole : records' = refs :=
      hrecords.trans (filter_eq_self.mpr fun r hr => decide_eq_true (hall r hr))
    exact ⟨hwhole, hwhole ▸ hne, k, hall⟩
  · rintro ⟨rfl, hne, k, hall⟩
    have hitem : ∀ i ∈ (groupTuples records).items, i = (k, records) := by
      rintro ⟨k', records'⟩ hi
      obtain ⟨hne', hrecords⟩ := mem_groupTuples.mp hi
      obtain ⟨r, hr⟩ := exists_mem_of_ne_nil _ hne'
      rw [hrecords, mem_filter, decide_eq_true_eq] at hr
      have hk : k' = k := hr.2.symm.trans (hall r hr.1)
      subst hk
      rw [hrecords, filter_eq_self.mpr fun r hr => decide_eq_true (hall r hr)]
    have hmem : (k, records) ∈ (groupTuples records).items :=
      mem_groupTuples.mpr ⟨hne, (filter_eq_self.mpr fun r hr => decide_eq_true (hall r hr)).symm⟩
    have hitems := eq_replicate_of_mem hitem
    have hnodup := (groupTuples records).nodup
    rw [hitems, map_replicate, nodup_replicate] at hnodup
    have hpos := length_pos_of_mem hmem
    rw [groupByTuple, hitems, show (groupTuples records).items.length = 1 by omega]
    rfl

/-! ## The ownership proof -/

/-- The references name one native message, and all of them as outbound. -/
def OneOutboundCopy (refs : List NativeMessageRef) : Prop :=
  refs ≠ [] ∧ ∃ k, ∀ r ∈ refs, nativeTuple r = k ∧ r.direction = .outbound

/-- The mutation comes from where the original came from. -/
def SameOrigin (original mutation : String × String × Option String) : Prop :=
  identityComplete original = true ∧ identityComplete mutation = true ∧ original = mutation

section Decision

variable {relation : EventRelation} {event original : CanonicalEvent} {targetAdapter : String}
  {targetChannel : Option String} {refs records : List NativeMessageRef}
  {candidate : NativeMessageRef}

theorem ownershipFact_boundOwned (hne : records ≠ []) :
    (ownershipFact event original targetAdapter candidate records).status = .boundOwned ↔
      (∀ r ∈ records, r.direction = .outbound) ∧
        SameOrigin (identityFacts original) (identityFacts event) := by
  have houtbound : (∀ r ∈ records, r.direction = .outbound) ↔
      (records.any fun r => r.direction = .inbound) = false := by
    rw [any_eq_false]
    refine forall₂_congr fun r _ => ?_
    cases r.direction <;> decide
  have hmixed : (records.all fun r => r.direction = .inbound) = true →
      (records.any fun r => r.direction = .inbound) = true := by
    intro hall
    obtain ⟨r, hr⟩ := exists_mem_of_ne_nil _ hne
    exact any_eq_true.mpr ⟨r, hr, all_eq_true.mp hall r hr⟩
  rw [houtbound]
  unfold ownershipFact SameOrigin
  split
  · rename_i hall
    simp [hmixed hall, unboundFact]
  · split
    · rename_i hany
      simp [hany, unboundFact]
    · rename_i hany
      split
      · rename_i hcomplete
        simp only [Bool.not_eq_true'] at hcomplete
        simp [hcomplete, unboundFact]
      · split
        · rename_i hcomplete
          simp only [Bool.not_eq_true'] at hcomplete
          simp [hcomplete, unboundFact]
        · rename_i horiginal hmutation
          simp only [Bool.not_eq_true', Bool.not_eq_false] at horiginal hmutation
          split
          · rename_i hdiffer
            simp [hdiffer, unboundFact]
          · rename_i hsame
            simp [hany, hmutation, not_not.mp hsame]

theorem candidateFact_boundOwned (hmutation : relation.relationType.isMutation = true)
    {groups : List (List NativeMessageRef)} :
    (candidateFact relation event targetAdapter (some original) groups).status = .boundOwned ↔
      ∃ records, groups = [records] ∧ records ≠ [] ∧ (∀ r ∈ records, r.direction = .outbound) ∧
        SameOrigin (identityFacts original) (identityFacts event) := by
  match groups with
  | [] => simp [candidateFact, unboundFact]
  | _ :: _ :: _ => simp [candidateFact, unboundFact]
  | [[]] => simp [candidateFact, unboundFact]
  | [candidate :: records] =>
    simp only [candidateFact, hmutation]
    rw [ownershipFact_boundOwned (cons_ne_nil _ _)]
    constructor
    · rintro ⟨houtbound, hsame⟩
      exact ⟨_, rfl, cons_ne_nil _ _, houtbound, hsame⟩
    · rintro ⟨records', hgroups, -, houtbound, hsame⟩
      cases hgroups
      exact ⟨houtbound, hsame⟩

theorem decideBinding_boundOwned (hmutation : relation.relationType.isMutation = true)
    {target : Option CanonicalEvent} :
    (decideBinding relation event targetAdapter targetChannel (some target)
        (some refs)).status = .boundOwned ↔
      ∃ original, target = some original ∧
        OneOutboundCopy (refs.filter (inScope targetAdapter targetChannel)) ∧
        SameOrigin (identityFacts original) (identityFacts event) := by
  cases target with
  | none => simp [decideBinding, unboundFact]
  | some original =>
    simp only [decideBinding, Option.join_some]
    rw [candidateFact_boundOwned hmutation]
    constructor
    · rintro ⟨records, hgroups, -, houtbound, hsame⟩
      obtain ⟨rfl, hne, k, hall⟩ := groupByTuple_singleton.mp hgroups
      exact ⟨original, rfl, ⟨hne, k, fun r hr => ⟨hall r hr, houtbound r hr⟩⟩, hsame⟩
    · rintro ⟨_, ⟨⟩, ⟨hne, k, hall⟩, hsame⟩
      exact ⟨_, groupByTuple_singleton.mpr ⟨rfl, hne, k, fun r hr => (hall r hr).1⟩, hne,
        fun r hr => (hall r hr).2, hsame⟩

end Decision

/-! ## The tables -/

/-- The identity triple of a stored event. -/
def rowIdentity (row : EventRow) : String × String × Option String :=
  (row.sourceAdapter, row.sourceTransportId, row.sourceChannelId)

/-- The columns of a stored reference that a binding looks at. -/
def copyColumns (n : NativeRefRow) : String × Option String × String × Medre.Storage.Direction :=
  (n.adapter, n.nativeChannelId, n.nativeMessageId, n.direction)

/-- What a read may answer when the tables are `db`: it fails, or answers from them, perhaps
without the content of the event. -/
def FromTables (db : Db) : (c : ReadCall) → c.Answer → Prop
  | .get t, .ok none => ∀ row ∈ db.events.rows, row.eventId ≠ t
  | .get t, .ok (some e) =>
    ∃ row ∈ db.events.rows, row.eventId = t ∧ identityFacts e = rowIdentity row
  | .list t, .ok refs =>
    ∀ columns, (∃ r ∈ refs, copyColumns r.row = columns) ↔
      ∃ n ∈ db.nativeRefs.rows, n.eventId = t ∧ copyColumns n = columns
  | .get _, .error _ => True
  | .list _, .error _ => True

/-- The storage reads the tables `db`, with any pattern of failures. -/
structure ReadsTables {σ : Type} (db : Db) (storage : RelationStorage σ) : Prop where
  context : ∀ s t e, (storage.readReplyContext s t).2 = .ok (.retained e) ∨
      (storage.readReplyContext s t).2 = .ok (.unavailable e) →
    FromTables db (.get t) (.ok (some e))
  metadata : ∀ s t, FromTables db (.get t) (storage.getMetadata s t).2
  refs : ∃ list, storage.listNativeRefs = some list ∧ ∀ s t, FromTables db (.list t) (list s t).2

/-- A stored reference of the target in the destination. -/
def InDestination (db : Db) (targetAdapter : String) (targetChannel : Option String) (t : String)
    (n : NativeRefRow) : Prop :=
  n ∈ db.nativeRefs.rows ∧ n.eventId = t ∧ n.adapter = targetAdapter ∧
    ∀ channel, targetChannel = some channel → n.nativeChannelId = some channel

/-- The stored evidence for a mutation of the event `t`. -/
structure Evidence (db : Db) (event : CanonicalEvent) (targetAdapter : String)
    (targetChannel : Option String) (t : String) : Prop where
  original : ∃ row ∈ db.events.rows, row.eventId = t ∧
    SameOrigin (rowIdentity row) (identityFacts event)
  copy : (∃ n, InDestination db targetAdapter targetChannel t n) ∧
    ∃ k, ∀ n, InDestination db targetAdapter targetChannel t n →
      (n.nativeChannelId, n.nativeMessageId) = k ∧ n.direction = .outbound

section Tables

variable {db : Db} {event : CanonicalEvent} {targetAdapter : String}
  {targetChannel : Option String} {t : String} {refs : List NativeMessageRef}

/-- The columns of a reference to the destination. -/
def ScopedColumns (targetAdapter : String) (targetChannel : Option String)
    (columns : String × Option String × String × Medre.Storage.Direction) : Prop :=
  columns.1 = targetAdapter ∧
    ∀ channel, targetChannel = some channel → columns.2.1 = some channel

theorem mem_scope {r : NativeMessageRef} :
    r ∈ refs.filter (inScope targetAdapter targetChannel) ↔
      r ∈ refs ∧ ScopedColumns targetAdapter targetChannel (copyColumns r.row) := by
  rw [mem_filter]
  refine and_congr_right fun _ => ?_
  unfold inScope ScopedColumns
  cases targetChannel <;> simp [copyColumns, NativeMessageRef.row]

theorem oneOutboundCopy_iff (h : FromTables db (.list t) (.ok refs)) :
    OneOutboundCopy (refs.filter (inScope targetAdapter targetChannel)) ↔
      (∃ n, InDestination db targetAdapter targetChannel t n) ∧
        ∃ k, ∀ n, InDestination db targetAdapter targetChannel t n →
          (n.nativeChannelId, n.nativeMessageId) = k ∧ n.direction = .outbound := by
  have hrow : ∀ r ∈ refs.filter (inScope targetAdapter targetChannel),
      ∃ n, InDestination db targetAdapter targetChannel t n ∧
        copyColumns n = copyColumns r.row := by
    intro r hr
    obtain ⟨hmem, hscope⟩ := mem_scope.mp hr
    obtain ⟨n, hn, ht, hcolumns⟩ := (h _).mp ⟨r, hmem, rfl⟩
    rw [← hcolumns] at hscope
    exact ⟨n, ⟨hn, ht, hscope⟩, hcolumns⟩
  have href : ∀ n, InDestination db targetAdapter targetChannel t n →
      ∃ r ∈ refs.filter (inScope targetAdapter targetChannel),
        copyColumns r.row = copyColumns n := by
    rintro n ⟨hn, ht, hscope⟩
    obtain ⟨r, hr, hcolumns⟩ := (h _).mpr ⟨n, hn, ht, rfl⟩
    have hscope' : ScopedColumns targetAdapter targetChannel (copyColumns r.row) := by
      rw [hcolumns]
      exact hscope
    exact ⟨r, mem_scope.mpr ⟨hr, hscope'⟩, hcolumns⟩
  have hequal : ∀ {r : NativeMessageRef} {n : NativeRefRow}, copyColumns r.row = copyColumns n →
      nativeTuple r = (n.nativeChannelId, n.nativeMessageId) ∧ r.direction = n.direction := by
    intro r n hcolumns
    simp only [copyColumns, Prod.mk.injEq] at hcolumns
    exact ⟨Prod.ext hcolumns.2.1 hcolumns.2.2.1, hcolumns.2.2.2⟩
  constructor
  · rintro ⟨hne, k, hall⟩
    obtain ⟨r, hr⟩ := exists_mem_of_ne_nil _ hne
    obtain ⟨n, hn, -⟩ := hrow r hr
    refine ⟨⟨n, hn⟩, k, fun n hn => ?_⟩
    obtain ⟨r, hr, hcolumns⟩ := href n hn
    obtain ⟨htuple, hdirection⟩ := hequal hcolumns
    rw [← htuple, ← hdirection]
    exact hall r hr
  · rintro ⟨⟨n, hn⟩, k, hall⟩
    obtain ⟨r, hr, -⟩ := href n hn
    refine ⟨ne_nil_of_mem hr, k, fun r hr => ?_⟩
    obtain ⟨n, hn, hcolumns⟩ := hrow r hr
    obtain ⟨htuple, hdirection⟩ := hequal hcolumns.symm
    rw [htuple, hdirection]
    exact hall n hn

def eventOfRow (row : EventRow) : CanonicalEvent where
  eventId := row.eventId
  eventKind := row.eventKind
  sourceAdapter := row.sourceAdapter
  sourceTransportId := row.sourceTransportId
  sourceChannelId := row.sourceChannelId
  relations := []
  payload := .empty

def refOfRow (n : NativeRefRow) : NativeMessageRef where
  id := n.id
  eventId := n.eventId
  adapter := n.adapter
  nativeChannelId := n.nativeChannelId
  nativeMessageId := n.nativeMessageId
  nativeThreadId := n.nativeThreadId
  direction := n.direction
  createdAt := { year := 2026, month := 1, day := 1 }

/-- A storage that holds the tables, denies every quote and never fails. -/
def tableStorage (db : Db) : RelationStorage Unit where
  readReplyContext s _ := (s, .ok .denied)
  getMetadata s t := (s, .ok ((db.events.rows.find? fun row => row.eventId = t).map eventOfRow))
  listNativeRefs := some fun s t =>
    (s, .ok ((db.nativeRefs.rows.filter fun n => n.eventId = t).map refOfRow))

theorem tableStorage_reads (db : Db) : ReadsTables db (tableStorage db) where
  context := by
    rintro s t e (h | h)
    · cases h
    · cases h
  metadata := by
    intro s t
    show FromTables db (.get t)
      (.ok ((db.events.rows.find? fun row => row.eventId = t).map eventOfRow))
    cases hfind : db.events.rows.find? fun row => row.eventId = t with
    | none =>
      intro row hrow ht
      exact absurd (decide_eq_true ht) (List.find?_eq_none.mp hfind row hrow)
    | some row =>
      exact ⟨row, mem_of_find?_eq_some hfind, of_decide_eq_true
        (List.find?_some (p := fun row : EventRow => decide (row.eventId = t)) hfind), rfl⟩
  refs := by
    refine ⟨_, rfl, fun s t columns => ?_⟩
    simp only [mem_map, mem_filter, decide_eq_true_eq]
    constructor
    · rintro ⟨_, ⟨n, ⟨hn, ht⟩, rfl⟩, hcolumns⟩
      exact ⟨n, hn, ht, hcolumns⟩
    · rintro ⟨n, hn, ht, hcolumns⟩
      exact ⟨refOfRow n, ⟨n, ⟨hn, ht⟩, rfl⟩, hcolumns⟩

/-- On what the tables answer, a mutation is bound exactly on the evidence. -/
theorem decideBinding_evidence {rel : EventRelation} {target : Option CanonicalEvent}
    (hmutation : rel.relationType.isMutation = true) (hget : FromTables db (.get t) (.ok target))
    (hlist : FromTables db (.list t) (.ok refs)) :
    (decideBinding rel event targetAdapter targetChannel (some target) (some refs)).status =
        .boundOwned ↔ Evidence db event targetAdapter targetChannel t := by
  simp only [decideBinding_boundOwned hmutation, oneOutboundCopy_iff hlist]
  constructor
  · rintro ⟨original, rfl, hcopy, hsame⟩
    obtain ⟨row, hrow, ht, hidentity⟩ := hget
    exact ⟨⟨row, hrow, ht, hidentity ▸ hsame⟩, hcopy⟩
  · rintro ⟨⟨row, hrow, ht, hsame⟩, hcopy⟩
    cases target with
    | none => exact absurd ht (hget row hrow)
    | some original =>
      obtain ⟨row', hrow', ht', hidentity⟩ := hget
      have hrows : row' = row := Medre.Storage.eq_of_key db.events hrow' hrow (ht'.trans ht.symm)
      refine ⟨original, rfl, hcopy, ?_⟩
      rw [hidentity, hrows]
      exact hsame

end Tables

/-! ## Over the answers of the reads -/

/-- The mutation of the named event rests on the evidence, and no read of it failed. -/
def Owns (db : Db) (failed : String → Prop) (event : CanonicalEvent) (targetAdapter : String)
    (targetChannel targetEventId : Option String) : Prop :=
  ∃ t, targetEventId = some t ∧ t ≠ "" ∧ ¬failed t ∧ Evidence db event targetAdapter targetChannel t

/-- The event may go out, when a read of the targets in `failed` failed. -/
def Authorized (db : Db) (failed : String → Prop) (targetAdapter : String)
    (targetChannel : Option String) (event : CanonicalEvent) : Prop :=
  isMutationDelivery event = false ∨
    ∀ rel ∈ event.relations, rel.relationType.isMutation = true →
      Owns db failed event targetAdapter targetChannel rel.targetEventId

def bothReadable : Readable := ⟨true, true⟩

section Answers

variable {db : Db} {P : (c : ReadCall) → c.Answer → Prop} {event : CanonicalEvent}
  {targetAdapter : String} {targetChannel : Option String} {project : Option SenderProjection}

def ReadFailed : (c : ReadCall) → c.Answer → Prop
  | .get _, answer => ∃ e, answer = .error e
  | .list _, answer => ∃ e, answer = .error e

/-- A read of the target may have failed. -/
def MayFail (P : (c : ReadCall) → c.Answer → Prop) (t : String) : Prop :=
  (∃ e, P (.get t) (.error e)) ∨ ∃ e, P (.list t) (.error e)

/-- Both reads of the target may have been answered. -/
def MayAnswer (P : (c : ReadCall) → c.Answer → Prop) (t : String) : Prop :=
  (∃ target, P (.get t) (.ok target)) ∧ ∃ refs, P (.list t) (.ok refs)

/-- The decision on a mutation, whichever of the answers in `P` it is made from. -/
structure Decides (db : Db) (P : (c : ReadCall) → c.Answer → Prop) (event : CanonicalEvent)
    (targetAdapter : String) (targetChannel targetEventId : Option String) (bound : Prop) :
    Prop where
  sound : bound →
    Owns db (fun t => ¬MayAnswer P t) event targetAdapter targetChannel targetEventId
  complete : Owns db (MayFail P) event targetAdapter targetChannel targetEventId → bound

theorem ensures_bindRelation (hP : ∀ c b, P c b → FromTables db c b) (rel : EventRelation) :
    (bindRelation bothReadable rel event targetAdapter targetChannel).Ensures P fun fact =>
      rel.relationType.isMutation = true → Decides db P event targetAdapter targetChannel
        rel.targetEventId (fact.status = .boundOwned) := by
  unfold bindRelation
  cases htarget : orNone rel.targetEventId with
  | none =>
    intro hmutation
    have hrefused : (ownRefFact rel targetAdapter targetChannel (unboundFact .unresolvedTarget
        targetAdapter "unresolved_target:no_target_event_id")).status = .unresolvedTarget := by
      unfold ownRefFact
      split
      · rw [if_pos hmutation]
        rfl
      · rfl
    rw [hrefused]
    refine ⟨nofun, ?_⟩
    rintro ⟨t, hname, hne, -⟩
    cases htarget.symm.trans (orNone_eq_some.mpr ⟨hname, hne⟩)
  | some t =>
    obtain ⟨hname, hne⟩ := orNone_eq_some.mp htarget
    have hfailed (hfail : MayFail P t) : Decides db P event targetAdapter targetChannel
        rel.targetEventId ((storageReadFailed targetAdapter).status = .boundOwned) := by
      refine ⟨nofun, ?_⟩
      rintro ⟨t', hname', -, hread, -⟩
      cases hname.symm.trans hname'
      exact absurd hfail hread
    rintro (e | target) hget
    · exact fun _ => hfailed (.inl ⟨e, hget⟩)
    rintro (e | refs) hlist
    · exact fun _ => hfailed (.inr ⟨e, hlist⟩)
    intro hmutation
    have hevidence := @decideBinding_evidence db event targetAdapter targetChannel t refs rel target
      hmutation (hP _ _ hget) (hP _ _ hlist)
    constructor
    · intro hbound
      exact ⟨t, hname, hne, fun h => h ⟨⟨target, hget⟩, refs, hlist⟩, hevidence.mp hbound⟩
    · rintro ⟨t', hname', -, -, howned⟩
      cases hname.symm.trans hname'
      exact hevidence.mpr howned

/-- What the phases before the binding leave alone. -/
def SameTarget (rel rel' : EventRelation) : Prop :=
  rel'.relationType = rel.relationType ∧ rel'.targetEventId = rel.targetEventId

theorem SameTarget.trans {rel rel' rel'' : EventRelation} (h : SameTarget rel rel')
    (h' : SameTarget rel' rel'') : SameTarget rel rel'' :=
  ⟨h'.1.trans h.1, h'.2.trans h.2⟩

theorem withNativeRef_sameTarget (rel : EventRelation) {refs : List NativeMessageRef} :
    SameTarget rel (withNativeRef rel targetAdapter targetChannel refs) := by
  unfold withNativeRef
  split
  · exact ⟨rfl, rfl⟩
  · split <;> exact ⟨rfl, rfl⟩

theorem withText_sameTarget (rel : EventRelation) (text : String) :
    SameTarget rel (withText rel text) := by
  unfold withText
  split <;> exact ⟨rfl, rfl⟩

theorem withSender_sameTarget (target : CanonicalEvent) (rel : EventRelation) :
    SameTarget rel (withSender project target rel) := by
  unfold withSender
  dsimp only
  split <;> exact ⟨rfl, rfl⟩

theorem ensures_enrichNativeRef (rel : EventRelation) (t : String) :
    (enrichNativeRef bothReadable rel targetAdapter targetChannel t).Ensures P
      (SameTarget rel) := by
  unfold enrichNativeRef
  split
  · exact ⟨rfl, rfl⟩
  · exact fun refs _ => withNativeRef_sameTarget rel

theorem ensures_enrichText (rel : EventRelation) (t : String) :
    (enrichText bothReadable project rel t).Ensures P (SameTarget rel) := by
  unfold enrichText
  split
  · exact ⟨rfl, rfl⟩
  · rintro (e | _ | target) -
    · exact ⟨rfl, rfl⟩
    · exact ⟨rfl, rfl⟩
    · exact (withText_sameTarget rel _).trans (withSender_sameTarget target _)

/-- What one turn of the loop leaves of a relation. -/
structure Enriched (db : Db) (P : (c : ReadCall) → c.Answer → Prop) (event : CanonicalEvent)
    (targetAdapter : String) (targetChannel : Option String) (rel : EventRelation)
    (out : EventRelation × Bool) : Prop where
  sameType : out.1.relationType = rel.relationType
  marked : rel.relationType.isMutation = true → out.2 = true ∧
    ∃ fact, out.1.targetFact = some fact ∧ Decides db P event targetAdapter targetChannel
      rel.targetEventId (fact.status = .boundOwned)

theorem ensures_enrichRelation (hP : ∀ c b, P c b → FromTables db c b) (rel : EventRelation) :
    (enrichRelation bothReadable project event targetAdapter targetChannel rel).Ensures P
      (Enriched db P event targetAdapter targetChannel rel) := by
  have hbind := @ensures_bindRelation db P event targetAdapter targetChannel hP
  unfold enrichRelation
  split
  · split
    · next hmutation => exact ⟨rfl, fun h => by simp [h] at hmutation⟩
    · refine Task.ensures_bind (hbind rel) fun fact hfact => ?_
      exact ⟨rfl, fun h => ⟨rfl, fact, rfl, hfact h⟩⟩
  · next t _ =>
    refine Task.ensures_bind (ensures_enrichNativeRef rel t) fun rel₁ h₁ => ?_
    refine Task.ensures_bind (ensures_enrichText rel₁ t) fun rel₂ h₂ => ?_
    obtain ⟨htype, htarget⟩ := h₁.trans h₂
    refine Task.ensures_bind (hbind rel₂) fun fact hfact => ⟨htype, fun h => ?_⟩
    rw [htype, htarget] at hfact
    exact ⟨rfl, fact, rfl, hfact h⟩

/-- The loop of the gate over the relations that the enrichment left. -/
theorem unboundRelation_decides {relations : List EventRelation}
    {outs : List (EventRelation × Bool)}
    (h : Forall₂ (Enriched db P event targetAdapter targetChannel) relations outs) :
    (unboundRelation (outs.map Prod.fst) = none → ∀ rel ∈ relations,
      rel.relationType.isMutation = true → Owns db (fun t => ¬MayAnswer P t) event targetAdapter
        targetChannel rel.targetEventId) ∧
    ((∀ rel ∈ relations, rel.relationType.isMutation = true →
      Owns db (MayFail P) event targetAdapter targetChannel rel.targetEventId) →
      unboundRelation (outs.map Prod.fst) = none) := by
  induction h with
  | nil => exact ⟨fun _ _ h => absurd h not_mem_nil, fun _ => rfl⟩
  | @cons rel out _ _ hrel _ ih =>
    rw [forall_mem_cons, forall_mem_cons, map_cons, unboundRelation, hrel.sameType]
    by_cases hmutation : rel.relationType.isMutation = true
    · obtain ⟨-, fact, hfact, hdecides⟩ := hrel.marked hmutation
      by_cases hbound : fact.status = .boundOwned
      · simp only [hmutation, hfact, hbound, Bool.not_true, Bool.false_eq_true, if_false, if_true]
        exact ⟨fun hrest => ⟨fun _ => hdecides.sound hbound, ih.1 hrest⟩, fun h => ih.2 h.2⟩
      · simp only [hmutation, hfact, hbound, Bool.not_true, Bool.false_eq_true, if_false]
        exact ⟨fun h => absurd h (Option.some_ne_none _),
          fun h => absurd (hdecides.complete (h.1 trivial)) hbound⟩
    · simp only [hmutation, Bool.not_false, if_true]
      exact ⟨fun hrest => ⟨fun h => (Bool.false_ne_true h).elim, ih.1 hrest⟩, fun h => ih.2 h.2⟩

/-- A mutation is always marked as changed. -/
theorem changed_of_mutation {relations : List EventRelation} {outs : List (EventRelation × Bool)}
    (h : Forall₂ (Enriched db P event targetAdapter targetChannel) relations outs)
    {rel : EventRelation} (hrel : rel ∈ relations)
    (hmutation : rel.relationType.isMutation = true) : outs.any Prod.snd = true := by
  induction h with
  | nil => cases hrel
  | cons hout _ ih =>
    rw [any_cons, Bool.or_eq_true]
    rcases mem_cons.mp hrel with rfl | hrel
    · exact .inl (hout.marked hmutation).1
    · exact .inr (ih hrel)

theorem isMutationDelivery_congr {event event' : CanonicalEvent}
    (hkind : event'.eventKind = event.eventKind)
    (htypes : event'.relations.map EventRelation.relationType =
      event.relations.map EventRelation.relationType) :
    isMutationDelivery event' = isMutationDelivery event := by
  have hany : ∀ e : CanonicalEvent, (e.relations.any fun rel => rel.relationType.isMutation) =
      (e.relations.map EventRelation.relationType).any RelationType.isMutation := by
    intro e
    rw [any_map]
    rfl
  rw [isMutationDelivery, isMutationDelivery, hkind, hany, hany, htypes]

theorem suppressionError_eq_none {e : CanonicalEvent} :
    mutationBindingSuppressionError e = none ↔
      isMutationDelivery e = false ∨ unboundRelation e.relations = none := by
  unfold mutationBindingSuppressionError
  cases isMutationDelivery e <;> simp

/-- The gate passes on evidence that both reads answered, and on evidence if none may fail. -/
theorem ensures_enrichEvent (hP : ∀ c b, P c b → FromTables db c b) :
    (enrichEvent bothReadable project event targetAdapter targetChannel).Ensures P fun enriched =>
      (mutationBindingSuppressionError enriched = none →
        Authorized db (fun t => ¬MayAnswer P t) targetAdapter targetChannel event) ∧
      (Authorized db (MayFail P) targetAdapter targetChannel event →
        mutationBindingSuppressionError enriched = none) := by
  have hloop : (Task.fold (fun done rel => do
      let enriched ← enrichRelation bothReadable project event targetAdapter targetChannel rel
      pure (done ++ [enriched])) [] event.relations).Ensures P
      (Forall₂ (Enriched db P event targetAdapter targetChannel) event.relations) := by
    refine Task.ensures_fold (I := Forall₂ (Enriched db P event targetAdapter targetChannel))
      (fun done rel outs houts => ?_) .nil
    refine Task.ensures_bind (ensures_enrichRelation hP rel) fun out hout => ?_
    exact rel_append houts (.cons hout .nil)
  refine Task.ensures_bind hloop fun outs houts => ?_
  obtain ⟨hsound, hcomplete⟩ := unboundRelation_decides houts
  have htypes : (outs.map Prod.fst).map EventRelation.relationType =
      event.relations.map EventRelation.relationType := by
    clear hsound hcomplete
    generalize event.relations = relations at houts
    induction houts with
    | nil => rfl
    | cons hout _ ih => rw [map_cons, map_cons, map_cons, hout.sameType, ih]
  show (mutationBindingSuppressionError (if _ then _ else _) = none → _) ∧ _
  by_cases hchanged : outs.any Prod.snd = true
  · have hkind : isMutationDelivery { event with relations := outs.map Prod.fst } =
        isMutationDelivery event := isMutationDelivery_congr rfl htypes
    rw [if_pos hchanged, suppressionError_eq_none, hkind]
    exact ⟨Or.imp_right hsound, Or.imp_right hcomplete⟩
  · have hordinary : isMutationDelivery event = false := by
      rw [isMutationDelivery, Bool.and_eq_false_iff, any_eq_false]
      exact .inr fun rel hrel hmutation => hchanged (changed_of_mutation houts hrel hmutation)
    rw [if_neg hchanged, suppressionError_eq_none]
    exact ⟨fun _ => .inl hordinary, fun _ => .inl hordinary⟩

end Answers

/-! ## The reads of a call -/

section Calls

variable {σ : Type} {db : Db} {storage : RelationStorage σ}

def knownRead (s : CallState σ) : (c : ReadCall) → Option c.Answer
  | .get t => s.gets.known t
  | .list t => s.lists.known t

/-- A read of the target failed during the call. -/
def CallState.failed (s : CallState σ) (t : String) : Prop :=
  t ∈ s.gets.errors.keys ∨ t ∈ s.lists.errors.keys

/-- Without caches of the caller every read is remembered, failures included. -/
theorem answerRead_remembers {list : σ → String → σ × Except Err (List NativeMessageRef)}
    (hlist : storage.listNativeRefs = some list) :
    Task.Remembers (answerRead (some storage) {}) knownRead where
  answered := by
    intro s c
    cases c with
    | get t => simp [answerRead, knownRead, Memo.known_memoized]
    | list t => simp [answerRead, knownRead, hlist, Memo.known_memoized]
  kept := by
    intro s c c' b hb
    cases c with
    | get t =>
      cases c' with
      | get t' => exact Memo.known_memoized_of_known hb
      | list t' => exact hb
    | list t =>
      simp only [answerRead, hlist, Option.bind_some]
      cases c' with
      | get t' => exact hb
      | list t' => exact Memo.known_memoized_of_known hb

theorem ReadsTables.readTarget (h : ReadsTables db storage) (s : σ) (t : String) :
    FromTables db (.get t) (storage.readTarget s t).2 := by
  have hcontext := h.context s t
  unfold RelationStorage.readTarget
  split
  · trivial
  · rename_i hread
    rw [hread] at hcontext
    exact hcontext _ (.inl rfl)
  · rename_i hread
    rw [hread] at hcontext
    exact hcontext _ (.inr rfl)
  · exact h.metadata _ t

/-- The caches of the caller read the tables too. They need not remember a failure. -/
structure CallerCaches.ReadsTables (db : Db) (caches : CallerCaches σ) : Prop where
  get : ∀ get, caches.get = some get → ∀ s t, FromTables db (.get t) (get s t).2
  list : ∀ list, caches.list = some list → ∀ s t, FromTables db (.list t) (list s t).2

/-- Both caches are given, and no read of them fails. -/
def CallerCaches.Reliable (caches : CallerCaches σ) : Prop :=
  ∃ get list, caches = { get := some get, list := some list } ∧
    ∀ s t, (∀ e, (get s t).2 ≠ .error e) ∧ ∀ e, (list s t).2 ≠ .error e

/-- What the call remembers is from the tables. -/
def CallState.Sound (db : Db) (s : CallState σ) : Prop :=
  ∀ c b, knownRead s c = some b → FromTables db c b

theorem sound_start {s : σ} : CallState.Sound db { outside := s } := by
  intro c b hb
  cases c <;> cases hb

theorem ReadsTables.answers (h : ReadsTables db storage) {caches : CallerCaches σ}
    (hcaches : caches.ReadsTables db) {s : CallState σ} (hs : s.Sound db) (c : ReadCall) :
    FromTables db c (answerRead (some storage) caches s c).2 ∧
      (answerRead (some storage) caches s c).1.Sound db := by
  cases c with
  | get t =>
    cases hget : caches.get with
    | some get =>
      simp only [answerRead, hget]
      exact ⟨hcaches.get get hget _ t, hs⟩
    | none =>
      simp only [answerRead, hget]
      have hknown := fun t' r => @Memo.known_sound _ _ _ _ _ storage.readTarget s.outside s.gets t
        t' r (fun t r => FromTables db (.get t) r) h.readTarget fun t r hr => hs (.get t) r hr
      refine ⟨hknown t _ (Memo.known_memoized.trans (if_pos rfl)), ?_⟩
      rintro (t' | t') b hb
      · exact hknown t' b hb
      · exact hs (.list t') b hb
  | list t =>
    cases hlist : caches.list with
    | some list =>
      simp only [answerRead, hlist]
      exact ⟨hcaches.list list hlist _ t, hs⟩
    | none =>
      obtain ⟨list, hstorage, hrefs⟩ := h.refs
      simp only [answerRead, hlist, hstorage, Option.bind_some]
      have hknown := fun t' r => @Memo.known_sound _ _ _ _ _ list s.outside s.lists t
        t' r (fun t r => FromTables db (.list t) r) hrefs fun t r hr => hs (.list t) r hr
      refine ⟨hknown t _ (Memo.known_memoized.trans (if_pos rfl)), ?_⟩
      rintro (t' | t') b hb
      · exact hs (.get t') b hb
      · exact hknown t' b hb

/-- Two events alike in kind, in where they come from and in what their relations do. -/
def SameMutation (event event' : CanonicalEvent) : Prop :=
  event'.eventKind = event.eventKind ∧ identityFacts event' = identityFacts event ∧
    event'.relations.map (fun rel => (rel.relationType, rel.targetEventId)) =
      event.relations.map fun rel => (rel.relationType, rel.targetEventId)

theorem SameMutation.symm {event event' : CanonicalEvent} (h : SameMutation event event') :
    SameMutation event' event :=
  ⟨h.1.symm, h.2.1.symm, h.2.2.symm⟩

theorem Authorized.mono {failed failed' : String → Prop} {targetAdapter : String}
    {targetChannel : Option String} {event : CanonicalEvent}
    (h : Authorized db failed targetAdapter targetChannel event)
    (hfailed : ∀ t, failed' t → failed t) :
    Authorized db failed' targetAdapter targetChannel event := by
  refine h.imp_right fun hrels rel hrel hmutation => ?_
  obtain ⟨t, hname, hne, hread, hevidence⟩ := hrels rel hrel hmutation
  exact ⟨t, hname, hne, fun hfail => hread (hfailed t hfail), hevidence⟩

theorem Authorized.congr {failed : String → Prop} {targetAdapter : String}
    {targetChannel : Option String} {event event' : CanonicalEvent}
    (h : Authorized db failed targetAdapter targetChannel event)
    (hsame : SameMutation event event') : Authorized db failed targetAdapter targetChannel event' := by
  obtain ⟨hkind, hidentity, hrelations⟩ := hsame
  have htypes := congrArg (List.map Prod.fst) hrelations
  rw [map_map, map_map] at htypes
  rcases h with hordinary | hrels
  · exact .inl ((isMutationDelivery_congr hkind htypes).trans hordinary)
  · refine .inr fun rel' hrel' hmutation => ?_
    have hmem := mem_map_of_mem (f := fun rel => (rel.relationType, rel.targetEventId)) hrel'
    rw [hrelations] at hmem
    obtain ⟨rel, hrel, heq⟩ := mem_map.mp hmem
    obtain ⟨htype, htarget⟩ := Prod.mk.inj heq
    obtain ⟨t, hname, hne, hread, horiginal, hcopy⟩ := hrels rel hrel (htype ▸ hmutation)
    exact ⟨t, htarget ▸ hname, hne, hread, hidentity.symm ▸ horiginal, hcopy⟩

theorem readableThrough_storage (h : ReadsTables db storage) (caches : CallerCaches σ) :
    readableThrough (some storage) caches = bothReadable := by
  obtain ⟨list, hlist, -⟩ := h.refs
  simp [readableThrough, bothReadable, hlist]

variable {caches : CallerCaches σ} {project : Option SenderProjection} {event : CanonicalEvent}
  {targetAdapter : String} {targetChannel : Option String} {s : σ}

theorem enrichForTarget_run (h : ReadsTables db storage) : ∃ enriched final,
    enrichForTarget (some storage) caches project event targetAdapter targetChannel s =
      (enriched, final) ∧
    Task.alone (answerRead (some storage) caches)
      (enrichEvent bothReadable project event targetAdapter targetChannel) { outside := s } =
      (.ok enriched, final) := by
  unfold enrichForTarget
  rw [readableThrough_storage h]
  rcases hrun : Task.alone (answerRead (some storage) caches)
    (enrichEvent bothReadable project event targetAdapter targetChannel) { outside := s } with
    ⟨e | enriched, final⟩
  · exact e.elim
  · exact ⟨enriched, final, rfl, rfl⟩

/-- Without caches of the caller the gate passes exactly on evidence whose reads did not fail. -/
theorem passes_iff (h : ReadsTables db storage) :
    mutationBindingSuppressionError
        (enrichForTarget (some storage) {} project event targetAdapter targetChannel s).1 = none ↔
      Authorized db
        (enrichForTarget (some storage) {} project event targetAdapter targetChannel s).2.failed
        targetAdapter targetChannel event := by
  obtain ⟨list, hlist, -⟩ := h.refs
  have hremembers := answerRead_remembers hlist
  obtain ⟨enriched, final, hcall, hrun⟩ :=
    @enrichForTarget_run σ db storage {} project event targetAdapter targetChannel s h
  rw [hcall]
  have hnone : CallerCaches.ReadsTables db ({} : CallerCaches σ) := ⟨nofun, nofun⟩
  have hfrom : final.Sound db :=
    Task.alone_invariant (I := CallState.Sound db) (fun s c hs => (h.answers hnone hs c).2) hrun
      sound_start
  have hfailed : ∀ t, final.failed t ↔ MayFail (fun c b => knownRead final c = some b) t :=
    fun t => or_congr Memo.mem_errors Memo.mem_errors
  obtain ⟨hsound, hcomplete⟩ := hremembers.ensures hrun (ensures_enrichEvent hfrom)
  constructor
  · intro hpasses
    refine (hsound hpasses).mono fun t hfail hanswer => ?_
    obtain ⟨⟨target, hget⟩, refs, hrefs⟩ := hanswer
    rcases (hfailed t).mp hfail with ⟨e, he⟩ | ⟨e, he⟩
    · cases hget.symm.trans he
    · cases hrefs.symm.trans he
  · intro hauthorized
    exact hcomplete (hauthorized.mono fun t => (hfailed t).mpr)

/-- Caches of the caller read the tables, so nothing passes without evidence; they may fail once
and not again, so a failure does not refuse. -/
theorem passes_caches (h : ReadsTables db storage) (hcaches : caches.ReadsTables db) :
    let call := enrichForTarget (some storage) caches project event targetAdapter targetChannel s
    (mutationBindingSuppressionError call.1 = none →
      Authorized db (fun _ => False) targetAdapter targetChannel event) ∧
    (caches.Reliable → Authorized db (fun _ => False) targetAdapter targetChannel event →
      mutationBindingSuppressionError call.1 = none) := by
  obtain ⟨enriched, final, hcall, hrun⟩ :=
    @enrichForTarget_run σ db storage caches project event targetAdapter targetChannel s h
  simp only [hcall]
  constructor
  · intro hpasses
    have hgate := (ensures_enrichEvent fun c b => id).alone (I := CallState.Sound db)
      (fun s c hs => h.answers hcaches hs c) sound_start hrun
    exact (hgate.1 hpasses).mono fun t => False.elim
  · rintro ⟨get, list, rfl, hreliable⟩ hauthorized
    have hgate := (ensures_enrichEvent (P := fun c b => FromTables db c b ∧ ¬ReadFailed c b)
      fun c b hb => hb.1).alone (I := fun _ => True) (by
        rintro s (t | t) -
        · exact ⟨⟨hcaches.get get rfl _ t, fun ⟨e, he⟩ => (hreliable _ t).1 e he⟩, trivial⟩
        · exact ⟨⟨hcaches.list list rfl _ t, fun ⟨e, he⟩ => (hreliable _ t).2 e he⟩, trivial⟩)
      trivial hrun
    refine hgate.2 (hauthorized.mono fun t hfail => ?_)
    rcases hfail with ⟨e, -, he⟩ | ⟨e, -, he⟩
    all_goals exact he ⟨e, rfl⟩

end Calls

/-- An edit or delete goes out exactly on stored evidence, whatever reads fail: the origin of
both events, and one outbound copy in the destination. Nothing else of the event counts. With
caches of the caller, which need not remember a failure, it goes out only on that evidence, and
always if none of their reads fails. -/
theorem mutation_authorized_by_evidence {σ : Type} (db : Db) (storage : RelationStorage σ)
    (h : ReadsTables db storage) (project : Option SenderProjection) (event : CanonicalEvent)
    (targetAdapter : String) (targetChannel : Option String) (s : σ) :
    let call := enrichForTarget (some storage) {} project event targetAdapter targetChannel s
    (mutationBindingSuppressionError call.1 = none ↔
      isMutationDelivery event = false ∨
        ∀ rel ∈ event.relations, rel.relationType.isMutation = true →
          ∃ t, rel.targetEventId = some t ∧ t ≠ "" ∧ ¬call.2.failed t ∧
            (∃ row ∈ db.events.rows, row.eventId = t ∧ identityComplete (rowIdentity row) = true ∧
              identityComplete (identityFacts event) = true ∧
              rowIdentity row = identityFacts event) ∧
            (∃ n, InDestination db targetAdapter targetChannel t n) ∧
            ∃ k, ∀ n, InDestination db targetAdapter targetChannel t n →
              (n.nativeChannelId, n.nativeMessageId) = k ∧ n.direction = .outbound) ∧
    (∀ (project' : Option SenderProjection) (event' : CanonicalEvent) (s' : σ),
      let call' := enrichForTarget (some storage) {} project' event' targetAdapter targetChannel s'
      SameMutation event event' → (∀ t, call'.2.failed t ↔ call.2.failed t) →
        (mutationBindingSuppressionError call'.1 = none ↔
          mutationBindingSuppressionError call.1 = none)) ∧
    ∀ caches : CallerCaches σ, caches.ReadsTables db →
      let call' := enrichForTarget (some storage) caches project event targetAdapter targetChannel s
      (mutationBindingSuppressionError call'.1 = none →
        Authorized db (fun _ => False) targetAdapter targetChannel event) ∧
      (caches.Reliable → Authorized db (fun _ => False) targetAdapter targetChannel event →
        mutationBindingSuppressionError call'.1 = none) := by
  refine ⟨(passes_iff h).trans ?_, ?_, fun caches => passes_caches h⟩
  · refine or_congr Iff.rfl (forall₂_congr fun rel _ => imp_congr_right fun _ => ?_)
    refine exists_congr fun t => and_congr_right fun _ => and_congr_right fun _ =>
      and_congr_right fun _ => ?_
    exact ⟨fun hevidence => ⟨hevidence.original, hevidence.copy⟩,
      fun ⟨horiginal, hcopy⟩ => ⟨horiginal, hcopy⟩⟩
  · intro project' event' s' call' hsame hfailed
    rw [passes_iff h, passes_iff h]
    exact ⟨fun hpass => (hpass.congr hsame.symm).mono fun t => (hfailed t).mpr,
      fun hpass => (hpass.congr hsame).mono fun t => (hfailed t).mp⟩

namespace Sample

/-- A store with one event and its copy in the destination. -/
def copied : Db :=
  Medre.Storage.stateAfter Medre.Storage.Sample.externals
    [.append { Medre.Storage.Sample.event with sourceChannelId := some "room" }
        (Medre.Storage.Sample.clock 0),
      .storeNativeRef
        { id := "ref", eventId := "event", adapter := "radio", nativeChannelId := some "1"
          nativeMessageId := "message", direction := .outbound
          createdAt := Medre.Storage.Sample.clock 1 }]

def editOf (target : String) : CanonicalEvent where
  eventId := "edit"
  eventKind := "message.edited"
  sourceAdapter := "matrix"
  sourceTransportId := "transport"
  sourceChannelId := some "room"
  relations :=
    [{ relationType := .edit, targetEventId := some target, targetNativeRef := none, key := none
       fallbackText := none, metadata := .empty }]
  payload := .empty

/-- Caches of a caller that read the sample store. -/
def cachedReads : CallerCaches Unit where
  get := some (tableStorage copied).getMetadata
  list := (tableStorage copied).listNativeRefs

end Sample

open Sample in
/-- The edit of the sample event goes out on the evidence of the store, also through caches of the
caller. -/
theorem mutation_authorized_sample_edit :
    ReadsTables copied (tableStorage copied) ∧
      (∀ rel ∈ (editOf "event").relations, rel.relationType.isMutation = true →
        ∃ t, rel.targetEventId = some t ∧ ∃ row ∈ copied.events.rows, row.eventId = t ∧
          rowIdentity row = identityFacts (editOf "event")) ∧
      cachedReads.ReadsTables copied ∧ cachedReads.Reliable ∧
        Authorized copied (fun _ => False) "radio" (some "1") (editOf "event") := by
  have hreads := tableStorage_reads copied
  obtain ⟨hexact, -, hcaches⟩ := mutation_authorized_by_evidence copied (tableStorage copied) hreads
    none (editOf "event") "radio" (some "1") ()
  have hboth : cachedReads.ReadsTables copied := by
    obtain ⟨list, hlist, hrefs⟩ := hreads.refs
    refine ⟨?_, ?_⟩
    · rintro _ ⟨⟩
      exact hreads.metadata
    · intro list' hlist'
      cases hlist.symm.trans hlist'
      exact hrefs
  refine ⟨hreads, fun rel hrel hmutation => ?_, hboth, ?_, (hcaches cachedReads hboth).1 rfl⟩
  · obtain ⟨t, hname, -, -, ⟨row, hrow, ht, -, -, hidentity⟩, -⟩ :=
      (hexact.mp rfl).resolve_left (by decide) rel hrel hmutation
    exact ⟨t, hname, row, hrow, ht, hidentity⟩
  · refine ⟨_, _, rfl, fun s t => ⟨fun e he => ?_, fun e he => ?_⟩⟩
    · cases he
    · cases he

end Medre.Planning
