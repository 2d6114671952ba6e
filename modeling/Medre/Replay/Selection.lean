import Mathlib.Data.List.Sort
import Medre.Framework.DatetimeText
import Medre.Storage.Schema

/-! # Which events a replay selects (`query.py`, `replay/helpers.py`, `replay/selection.py`)

The storage query filters over the texts of the timestamps, and a list restricts only if it is
not empty. With ids Python filters, over instants, and a list restricts if it is not `None`. -/

namespace Medre.Replay

open List Medre.Framework Medre.Storage

variable {a b row : EventRow} {rows : List EventRow}

/-! ## The code -/

structure EventFilter where
  eventKinds : Option (List String) := none
  sourceAdapters : Option (List String) := none
  timeStart : Option Datetime := none
  timeEnd : Option Datetime := none
  limit : ℤ := 1000

/-- `ReplayRequest`, what selection reads of it. -/
structure ReplayRequest where
  timeStart : Option Datetime := none
  timeEnd : Option Datetime := none
  eventKinds : Option (List String) := none
  sourceAdapters : Option (List String) := none
  correlationIds : Option (List String) := none
  limit : ℤ := 1000

def requestToFilter (r : ReplayRequest) : EventFilter where
  eventKinds := r.eventKinds
  sourceAdapters := r.sourceAdapters
  timeStart := r.timeStart
  timeEnd := r.timeEnd
  limit := r.limit

/-- `if values: column IN (values)`. -/
def inFilter (values : Option (List String)) (value : String) : Bool :=
  match values with
  | none | some [] => true
  | some vs => vs.contains value

def EventFilter.within (f : EventFilter) (timestamp : String) : Bool :=
  f.timeStart.all (fun t => t.isoformat ≤ timestamp) &&
    f.timeEnd.all (fun t => timestamp ≤ t.isoformat)

/-- The `WHERE` clause of `_build_query_sql`. -/
def EventFilter.selects (f : EventFilter) (row : EventRow) : Bool :=
  inFilter f.eventKinds row.eventKind && inFilter f.sourceAdapters row.sourceAdapter &&
    f.within row.timestamp

/-- `ORDER BY timestamp ASC, event_id ASC`. -/
def textBefore (a b : EventRow) : Prop :=
  a.timestamp < b.timestamp ∨ (a.timestamp = b.timestamp ∧ a.eventId ≤ b.eventId)

instance : DecidableRel textBefore := fun a b =>
  inferInstanceAs
    (Decidable (a.timestamp < b.timestamp ∨ (a.timestamp = b.timestamp ∧ a.eventId ≤ b.eventId)))

/-- What selection reads of a decoded event. -/
structure ReplayEvent where
  eventId : String
  eventKind : String
  sourceAdapter : String
  timestamp : Datetime
deriving DecidableEq, Repr

def rowToEvent (row : EventRow) : Except Err ReplayEvent :=
  match Datetime.fromisoformat row.timestamp with
  | .error e => .error (.pyError e)
  | .ok timestamp =>
    .ok { eventId := row.eventId, eventKind := row.eventKind
          sourceAdapter := row.sourceAdapter, timestamp }

def rowsToEvents : List EventRow → Except Err (List ReplayEvent)
  | [] => .ok []
  | row :: rows =>
    match rowToEvent row with
    | .error e => .error e
    | .ok event =>
      match rowsToEvents rows with
      | .error e => .error e
      | .ok events => .ok (event :: events)

def queryMetadata (db : Db) (f : EventFilter) : Except Err (List ReplayEvent) :=
  if f.limit < 0 then
    .error (.valueError
      ("EventFilter.limit must be a non-negative integer, got " ++ toString f.limit))
  else
    rowsToEvents (((db.events.rows.filter f.selects).insertionSort textBefore).take f.limit.toNat)

def getMetadata (db : Db) (eventId : String) : Except Err (Option ReplayEvent) :=
  match db.events.rows.find? fun row => row.eventId = eventId with
  | none => .ok none
  | some row =>
    match rowToEvent row with
    | .error e => .error e
    | .ok event => .ok (some event)

/-- `a < b`, which raises between an aware and a naive value. -/
def lessThan (a b : Datetime) : Except Err Bool :=
  if a.utcoffset.isSome = b.utcoffset.isSome then .ok (a.instant < b.instant)
  else .error (.pyError .typeError)

def eventMatchesFilters (e : ReplayEvent) (r : ReplayRequest) : Except Err Bool := do
  if !(r.eventKinds.all (·.contains e.eventKind) &&
      r.sourceAdapters.all (·.contains e.sourceAdapter)) then pure false
  else if ← r.timeStart.elim (pure false) (lessThan e.timestamp ·) then pure false
  else return !(← r.timeEnd.elim (pure false) (lessThan · e.timestamp))

def iterByIds (db : Db) (r : ReplayRequest) :
    (yielded : ℕ) → List String → Except Err (List (String × Option ReplayEvent))
  | _, [] => .ok []
  | yielded, id :: ids =>
    if r.limit ≤ yielded then .ok []
    else
      match getMetadata db id with
      | .error e => .error e
      | .ok none =>
        match iterByIds db r (yielded + 1) ids with
        | .error e => .error e
        | .ok rest => .ok ((id, none) :: rest)
      | .ok (some event) =>
        match eventMatchesFilters event r with
        | .error e => .error e
        | .ok false => iterByIds db r yielded ids
        | .ok true =>
          match iterByIds db r (yielded + 1) ids with
          | .error e => .error e
          | .ok rest => .ok ((id, some event) :: rest)

/-! ## Both ways on stored events -/

/-- Every stored timestamp was written from a timezone-aware value. -/
def Stamped (db : Db) : Prop :=
  ∀ row ∈ db.events.rows, ∃ t : Datetime, t.Aware ∧ row.timestamp = t.isoformat

def decoded (row : EventRow) : ReplayEvent where
  eventId := row.eventId
  eventKind := row.eventKind
  sourceAdapter := row.sourceAdapter
  timestamp :=
    (Datetime.fromisoformat row.timestamp).toOption.getD { year := 1, month := 1, day := 1 }

/-- The order the events should be yielded in. -/
def instantBefore (a b : ReplayEvent) : Prop :=
  a.timestamp.instant < b.timestamp.instant ∨
    (a.timestamp.instant = b.timestamp.instant ∧ a.eventId ≤ b.eventId)

def ReplayRequest.AwareBounds (r : ReplayRequest) : Prop :=
  (∀ t ∈ r.timeStart, t.Aware) ∧ ∀ t ∈ r.timeEnd, t.Aware

/-- The bounds over instants. -/
def ReplayRequest.within (r : ReplayRequest) (timestamp : Datetime) : Bool :=
  r.timeStart.all (fun t => !(timestamp.instant < t.instant)) &&
    r.timeEnd.all (fun t => !(t.instant < timestamp.instant))

/-- The event passes all filters of the ID path. -/
def ReplayRequest.selects (r : ReplayRequest) (e : ReplayEvent) : Bool :=
  r.eventKinds.all (·.contains e.eventKind) && r.sourceAdapters.all (·.contains e.sourceAdapter) &&
    r.within e.timestamp

section Stored

variable {db : Db} {r : ReplayRequest}

theorem lessThan_ok {a b : Datetime} (ha : a.Aware) (hb : b.Aware) :
    lessThan a b = .ok (a.instant < b.instant) := by
  obtain ⟨⟨_, ha, -⟩, ⟨_, hb, -⟩⟩ := And.intro ha.zone hb.zone
  exact if_pos (by simp [ha, hb])

theorem eventMatches_ok {e : ReplayEvent} (h : r.AwareBounds) (he : e.timestamp.Aware) :
    eventMatchesFilters e r = .ok (r.selects e) := by
  have hstart : r.timeStart.elim (pure false) (lessThan e.timestamp ·) =
      .ok !(r.timeStart.all fun t => !decide (e.timestamp.instant < t.instant)) := by
    cases ht : r.timeStart with
    | none => rfl
    | some t => simp [lessThan_ok he (h.1 t ht)]
  have hend : r.timeEnd.elim (pure false) (lessThan · e.timestamp) =
      .ok !(r.timeEnd.all fun t => !decide (t.instant < e.timestamp.instant)) := by
    cases ht : r.timeEnd with
    | none => rfl
    | some t => simp [lessThan_ok (h.2 t ht) he]
  unfold eventMatchesFilters ReplayRequest.selects ReplayRequest.within
  rw [hstart, hend]
  cases r.eventKinds.all (·.contains e.eventKind) <;>
    cases r.sourceAdapters.all (·.contains e.sourceAdapter) <;>
    cases r.timeStart.all fun t => !decide (e.timestamp.instant < t.instant) <;> simp <;> rfl

theorem decoded_aware (h : Stamped db) (hrow : row ∈ db.events.rows) :
    (decoded row).timestamp.Aware := by
  obtain ⟨t, ht, htext⟩ := h row hrow
  simp only [decoded, htext, Datetime.fromisoformat_isoformat ht]
  exact ht

theorem rowToEvent_decoded (h : Stamped db) (hrow : row ∈ db.events.rows) :
    rowToEvent row = .ok (decoded row) := by
  obtain ⟨t, ht, htext⟩ := h row hrow
  have hread : Datetime.fromisoformat row.timestamp = .ok t := by
    rw [htext]
    exact Datetime.fromisoformat_isoformat ht
  simp only [rowToEvent, decoded, hread]
  rfl

theorem rowsToEvents_decoded (h : Stamped db) (hrows : ∀ row ∈ rows, row ∈ db.events.rows) :
    rowsToEvents rows = .ok (rows.map decoded) := by
  induction rows with
  | nil => rfl
  | cons row rows ih =>
    have hrest := ih fun s hs => hrows s (mem_cons_of_mem row hs)
    simp only [rowsToEvents, rowToEvent_decoded h (hrows row mem_cons_self), hrest]
    rfl

theorem eventRow_eq (ha : a ∈ db.events.rows) (hb : b ∈ db.events.rows)
    (h : a.eventId = b.eventId) : a = b :=
  db.events.eq_of_clash (fun r s => by simp [distinctOn, eq_comm]) ha hb (by simp [distinctOn, h])

theorem getMetadata_stored (h : Stamped db) (hrow : row ∈ db.events.rows) :
    getMetadata db row.eventId = .ok (some (decoded row)) := by
  have hfind : db.events.rows.find? (fun s => s.eventId = row.eventId) = some row := by
    cases hfind : db.events.rows.find? (fun s => s.eventId = row.eventId) with
    | none => exact absurd (decide_eq_true rfl) (List.find?_eq_none.mp hfind row hrow)
    | some s =>
      have hid : s.eventId = row.eventId := by simpa using List.find?_some hfind
      rw [eventRow_eq (mem_of_find?_eq_some hfind) hrow hid]
  simp only [getMetadata, hfind, rowToEvent_decoded h hrow]

theorem queryMetadata_stored (h : Stamped db) (hlimit : db.events.rows.length ≤ r.limit) :
    queryMetadata db (requestToFilter r) =
      .ok (((db.events.rows.filter (requestToFilter r).selects).insertionSort textBefore).map
        decoded) := by
  have hperm := perm_insertionSort textBefore (db.events.rows.filter (requestToFilter r).selects)
  have hlength : ((db.events.rows.filter (requestToFilter r).selects).insertionSort
      textBefore).length ≤ (requestToFilter r).limit.toNat := by
    have := length_filter_le (requestToFilter r).selects db.events.rows
    rw [hperm.length_eq]
    show _ ≤ r.limit.toNat
    omega
  have hpos : ¬(requestToFilter r).limit < 0 := by
    show ¬r.limit < 0
    omega
  rw [queryMetadata, if_neg hpos, take_of_length_le hlength]
  refine rowsToEvents_decoded h fun row hrow => ?_
  exact (mem_filter.mp (hperm.mem_iff.mp hrow)).1

theorem iterByIds_stored (h : Stamped db) (haware : r.AwareBounds)
    (hrows : ∀ row ∈ rows, row ∈ db.events.rows) {yielded : ℕ}
    (hlimit : yielded + rows.length ≤ r.limit) :
    iterByIds db r yielded (rows.map EventRow.eventId) =
      .ok ((rows.filter fun row => r.selects (decoded row)).map fun row =>
        (row.eventId, some (decoded row))) := by
  induction rows generalizing yielded with
  | nil => rfl
  | cons row rows ih =>
    rw [length_cons] at hlimit
    push_cast at hlimit
    have hmem : ∀ s ∈ rows, s ∈ db.events.rows := fun s hs => hrows s (mem_cons_of_mem row hs)
    rw [map_cons, iterByIds, if_neg (by omega), getMetadata_stored h (hrows row mem_cons_self)]
    rw [filter_cons]
    simp only [eventMatches_ok haware (decoded_aware h (hrows row mem_cons_self))]
    cases r.selects (decoded row) with
    | true =>
      simp only [ih hmem (show ((yielded + 1 : ℕ) : ℤ) + _ ≤ _ by push_cast; omega)]
      rfl
    | false => exact ih hmem (by omega)

end Stored

/-! ## When the two ways agree -/

/-- A filter list that restricts one way and not the other. -/
def ReplayRequest.hasEmptyList (r : ReplayRequest) : Prop :=
  r.eventKinds = some [] ∨ r.sourceAdapters = some []

/-- The event passes the lists as the query reads them. -/
def ReplayRequest.listed (r : ReplayRequest) (row : EventRow) : Bool :=
  inFilter r.eventKinds row.eventKind && inFilter r.sourceAdapters row.sourceAdapter

/-- Text and instants lead to the same selection and order over the stored events. -/
structure Consistent (db : Db) (r : ReplayRequest) : Prop where
  /-- An empty list has nothing to exclude. -/
  lists : r.hasEmptyList → ∀ row ∈ db.events.rows, r.listed row = true →
    (requestToFilter r).within row.timestamp = false
  /-- The bounds compare as texts as they do as instants. -/
  bounds : ¬r.hasEmptyList → ∀ row ∈ db.events.rows, r.listed row = true →
    (requestToFilter r).within row.timestamp = r.within (decoded row).timestamp
  /-- So do the timestamps among each other. -/
  order : ∀ a ∈ db.events.rows, ∀ b ∈ db.events.rows, (requestToFilter r).selects a = true →
    (requestToFilter r).selects b = true → textBefore a b → instantBefore (decoded a) (decoded b)

section Agreement

variable {db : Db} {r : ReplayRequest}

theorem inFilter_of_ne {values : Option (List String)} {value : String} (h : values ≠ some []) :
    inFilter values value = values.all fun vs => vs.contains value := by
  match values with
  | none => rfl
  | some [] => exact absurd rfl h
  | some (v :: vs) => rfl

theorem eventMatches_of_lists (h : ¬r.hasEmptyList) :
    r.selects (decoded row) = (r.listed row && r.within (decoded row).timestamp) := by
  unfold ReplayRequest.hasEmptyList at h
  rw [not_or] at h
  simp only [ReplayRequest.selects, ReplayRequest.listed, decoded, inFilter_of_ne h.1,
    inFilter_of_ne h.2]

theorem eventMatches_of_empty {e : ReplayEvent} (h : r.hasEmptyList) : r.selects e = false := by
  rcases h with h | h <;> simp [ReplayRequest.selects, h]

/-- The same rows are selected exactly if the lists and the bounds are consistent. -/
theorem selects_eq_matches_iff :
    (∀ row ∈ db.events.rows,
        (requestToFilter r).selects row = r.selects (decoded row)) ↔
      (r.hasEmptyList → ∀ row ∈ db.events.rows, r.listed row = true →
        (requestToFilter r).within row.timestamp = false) ∧
      (¬r.hasEmptyList → ∀ row ∈ db.events.rows, r.listed row = true →
        (requestToFilter r).within row.timestamp = r.within (decoded row).timestamp) := by
  have hselects : ∀ row, (requestToFilter r).selects row =
      (r.listed row && (requestToFilter r).within row.timestamp) := fun row => rfl
  by_cases hempty : r.hasEmptyList
  · simp only [hempty, forall_const, not_true_eq_false, false_implies, and_true]
    refine forall₂_congr fun row _ => ?_
    rw [eventMatches_of_empty hempty, hselects]
    cases r.listed row <;> simp
  · simp only [hempty, false_implies, not_false_eq_true, forall_const, true_and]
    refine forall₂_congr fun row _ => ?_
    rw [eventMatches_of_lists hempty, hselects]
    cases r.listed row <;> simp

theorem textBefore_total (a b : EventRow) : textBefore a b ∨ textBefore b a := by
  rcases lt_trichotomy a.timestamp b.timestamp with h | h | h
  · exact .inl (.inl h)
  · rcases le_total a.eventId b.eventId with hid | hid
    · exact .inl (.inr ⟨h, hid⟩)
    · exact .inr (.inr ⟨h.symm, hid⟩)
  · exact .inr (.inl h)

theorem textBefore_trans {c : EventRow} (hab : textBefore a b) (hbc : textBefore b c) :
    textBefore a c := by
  rcases hab with hab | ⟨hab, hid⟩
  · rcases hbc with hbc | ⟨hbc, -⟩
    · exact .inl (hab.trans hbc)
    · exact .inl (hbc ▸ hab)
  · rcases hbc with hbc | ⟨hbc, hid'⟩
    · exact .inl (hab ▸ hbc)
    · exact .inr ⟨hab.trans hbc, hid.trans hid'⟩

theorem textBefore_antisymm (hab : textBefore a b) (hba : textBefore b a) :
    a.eventId = b.eventId := by
  rcases hab with hab | ⟨hab, hid⟩
  · rcases hba with hba | ⟨hba, -⟩
    · exact absurd hab (lt_asymm hba)
    · exact absurd hab (hba ▸ lt_irrefl _)
  · rcases hba with hba | ⟨-, hid'⟩
    · exact absurd hba (hab ▸ lt_irrefl _)
    · exact le_antisymm hid hid'

instance : Std.Total textBefore := ⟨textBefore_total⟩

instance : IsTrans EventRow textBefore := ⟨fun _ _ _ => textBefore_trans⟩

theorem sorted_iff (hrows : ∀ row ∈ rows, row ∈ db.events.rows) :
    ((rows.insertionSort textBefore).map decoded).Pairwise instantBefore ↔
      ∀ a ∈ rows, ∀ b ∈ rows, textBefore a b → instantBefore (decoded a) (decoded b) := by
  have hsorted : (rows.insertionSort textBefore).Pairwise textBefore :=
    pairwise_insertionSort textBefore rows
  have hmem : ∀ row, row ∈ rows.insertionSort textBefore ↔ row ∈ rows :=
    fun row => (perm_insertionSort textBefore rows).mem_iff
  rw [pairwise_map]
  constructor
  · intro h a ha b hb hab
    by_cases heq : a = b
    · rw [heq]
      exact .inr ⟨rfl, le_refl _⟩
    · -- in the sorted list one of the two comes first, and it is `a`
      have hboth := hsorted.and h
      obtain ⟨i, hi⟩ := mem_iff_getElem?.mp ((hmem a).mpr ha)
      obtain ⟨j, hj⟩ := mem_iff_getElem?.mp ((hmem b).mpr hb)
      obtain ⟨hi', rfl⟩ := List.getElem?_eq_some_iff.mp hi
      obtain ⟨hj', rfl⟩ := List.getElem?_eq_some_iff.mp hj
      rcases lt_trichotomy i j with hij | rfl | hij
      · exact (pairwise_iff_getElem.mp hboth i j hi' hj' hij).2
      · exact absurd rfl heq
      · have hba := (pairwise_iff_getElem.mp hboth j i hj' hi' hij).1
        exact absurd (eventRow_eq (hrows _ ha) (hrows _ hb) (textBefore_antisymm hab hba)) heq
  · intro h
    refine hsorted.imp_of_mem fun {a b} ha hb hab => ?_
    exact h a ((hmem a).mp ha) b ((hmem b).mp hb) hab

/-- The query yields what the ID path selects from all stored ids, ordered by instant and
id, exactly if text and instants are consistent. -/
theorem replay_selection_agrees_iff (hstamped : Stamped db) (haware : r.AwareBounds)
    (hlimit : db.events.rows.length ≤ r.limit) :
    ∃ queried byId, queryMetadata db (requestToFilter r) = .ok queried ∧
      iterByIds db r 0 (db.events.rows.map EventRow.eventId) = .ok byId ∧
      (((∀ e, e ∈ queried ↔ (e.eventId, some e) ∈ byId) ∧ queried.Pairwise instantBefore) ↔
        Consistent db r) := by
  refine ⟨_, _, queryMetadata_stored hstamped hlimit,
    iterByIds_stored hstamped haware (fun _ h => h) (by push_cast; omega), ?_⟩
  have hperm := perm_insertionSort textBefore (db.events.rows.filter (requestToFilter r).selects)
  have hquery : ∀ e, e ∈ ((db.events.rows.filter (requestToFilter r).selects).insertionSort
      textBefore).map decoded ↔
        ∃ row ∈ db.events.rows, (requestToFilter r).selects row = true ∧ decoded row = e := by
    intro e
    simp only [mem_map, hperm.mem_iff, mem_filter, and_assoc]
  have hids : ∀ e : ReplayEvent, (e.eventId, some e) ∈ (db.events.rows.filter fun row =>
      r.selects (decoded row)).map (fun row => (row.eventId, some (decoded row))) ↔
        ∃ row ∈ db.events.rows, r.selects (decoded row) = true ∧ decoded row = e := by
    intro e
    simp only [mem_map, mem_filter, and_assoc, Prod.mk.injEq, Option.some.injEq]
    constructor
    · rintro ⟨row, hrow, hmatch, -, he⟩
      exact ⟨row, hrow, hmatch, he⟩
    · rintro ⟨row, hrow, hmatch, rfl⟩
      exact ⟨row, hrow, hmatch, rfl, rfl⟩
  -- an event stands for one row
  have hrows : (∀ e, (∃ row ∈ db.events.rows, (requestToFilter r).selects row = true ∧
      decoded row = e) ↔ ∃ row ∈ db.events.rows, r.selects (decoded row) = true ∧
        decoded row = e) ↔ ∀ row ∈ db.events.rows,
          (requestToFilter r).selects row = r.selects (decoded row) := by
    constructor
    · intro h row hrow
      rw [Bool.eq_iff_iff]
      constructor
      · intro hsel
        obtain ⟨row', hrow', hmatch, heq⟩ := (h (decoded row)).mp ⟨row, hrow, hsel, rfl⟩
        rw [eventRow_eq hrow hrow' (congrArg ReplayEvent.eventId heq.symm)]
        exact hmatch
      · intro hmatch
        obtain ⟨row', hrow', hsel, heq⟩ := (h (decoded row)).mpr ⟨row, hrow, hmatch, rfl⟩
        rw [eventRow_eq hrow hrow' (congrArg ReplayEvent.eventId heq.symm)]
        exact hsel
    · intro h e
      constructor
      · rintro ⟨row, hrow, hsel, he⟩
        exact ⟨row, hrow, h row hrow ▸ hsel, he⟩
      · rintro ⟨row, hrow, hmatch, he⟩
        exact ⟨row, hrow, (h row hrow).symm ▸ hmatch, he⟩
  simp only [hquery, hids]
  rw [hrows, selects_eq_matches_iff, sorted_iff fun row hrow => (mem_filter.mp hrow).1]
  constructor
  · rintro ⟨⟨hlists, hbounds⟩, horder⟩
    exact ⟨hlists, hbounds, fun a ha b hb hsa hsb =>
      horder a (mem_filter.mpr ⟨ha, hsa⟩) b (mem_filter.mpr ⟨hb, hsb⟩)⟩
  · intro h
    refine ⟨⟨h.lists, h.bounds⟩, fun a ha b hb => ?_⟩
    obtain ⟨ha, hsa⟩ := mem_filter.mp ha
    obtain ⟨hb, hsb⟩ := mem_filter.mp hb
    exact h.order a ha b hb hsa hsb

/-- With all timestamps and bounds in UTC and no empty list there is nothing to tell the two
ways apart. -/
theorem consistent_of_utc
    (hutc : ∀ row ∈ db.events.rows, ∃ t : Datetime, t.Utc ∧ row.timestamp = t.isoformat)
    (hstart : ∀ t ∈ r.timeStart, t.Utc) (hend : ∀ t ∈ r.timeEnd, t.Utc)
    (hlists : ¬r.hasEmptyList) : Consistent db r := by
  have hdecoded : ∀ row ∈ db.events.rows, (decoded row).timestamp.Utc ∧
      row.timestamp = (decoded row).timestamp.isoformat := by
    intro row hrow
    obtain ⟨t, ht, htext⟩ := hutc row hrow
    have hread : (decoded row).timestamp = t := by
      simp only [decoded, htext, Datetime.fromisoformat_isoformat ht.aware]
      rfl
    rw [hread]
    exact ⟨ht, htext⟩
  refine ⟨fun h => absurd h hlists, fun _ row hrow _ => ?_, fun a ha b hb _ _ hab => ?_⟩
  · obtain ⟨hrowUtc, htext⟩ := hdecoded row hrow
    have hfrom : r.timeStart.all (fun t => decide (t.isoformat ≤ row.timestamp)) =
        r.timeStart.all (fun t => !decide ((decoded row).timestamp.instant < t.instant)) := by
      cases htime : r.timeStart with
      | none => rfl
      | some t =>
        rw [Option.all_some, Option.all_some, htext, Bool.eq_iff_iff]
        simp [Datetime.isoformat_le_iff (hstart t htime) hrowUtc]
    have huntil : r.timeEnd.all (fun t => decide (row.timestamp ≤ t.isoformat)) =
        r.timeEnd.all (fun t => !decide (t.instant < (decoded row).timestamp.instant)) := by
      cases htime : r.timeEnd with
      | none => rfl
      | some t =>
        rw [Option.all_some, Option.all_some, htext, Bool.eq_iff_iff]
        simp [Datetime.isoformat_le_iff hrowUtc (hend t htime)]
    rw [ReplayRequest.within, ← hfrom, ← huntil]
    rfl
  · obtain ⟨haUtc, haText⟩ := hdecoded a ha
    obtain ⟨hbUtc, hbText⟩ := hdecoded b hb
    rw [textBefore, haText, hbText] at hab
    rcases hab with hlt | ⟨heq, hid⟩
    · have := mt (Datetime.isoformat_le_iff hbUtc haUtc).mpr (not_le.mpr hlt)
      exact .inl (not_le.mp this)
    · exact .inr ⟨le_antisymm ((Datetime.isoformat_le_iff haUtc hbUtc).mp heq.le)
        ((Datetime.isoformat_le_iff hbUtc haUtc).mp heq.ge), hid⟩

end Agreement

/-! ## Sample stores -/

namespace Sample

def stored (eventId : String) (timestamp : Datetime) : EventRow :=
  { eventId, eventKind := "message.created", schemaVersion := 1
    timestamp := timestamp.isoformat, sourceAdapter := "radio"
    sourceTransportId := "node", createdAt := "2026-01-01T00:00:00+00:00" }

/-- A store of one event. -/
def store (timestamp : Datetime) : Db :=
  { Db.empty with
    events :=
      { rows := [stored "e" timestamp]
        checked := fun _ _ => rfl
        apart := pairwise_singleton _ _ } }

def east : Datetime :=
  { year := 2026, month := 1, day := 1, minute := 30, utcoffset := some 3600000000 }

def midnight : Datetime := { year := 2026, month := 1, day := 1, utcoffset := some 0 }

/-- Two events, the later one stored first. -/
def storeTwo : Db :=
  { Db.empty with
    events :=
      { rows := [stored "e" { midnight with hour := 1 }, stored "d" midnight]
        checked := fun _ _ => rfl
        apart := by decide } }

end Sample

/-- The text of the event comes after the bound, its instant before it: the query yields
the event and the ID path does not select it. -/
theorem query_and_ids_disagree :
    queryMetadata (Sample.store Sample.east)
        (requestToFilter { timeStart := some Sample.midnight }) =
      .ok [{ eventId := "e", eventKind := "message.created", sourceAdapter := "radio"
             timestamp := Sample.east }] ∧
      iterByIds (Sample.store Sample.east)
        { timeStart := some Sample.midnight, correlationIds := some ["e"] } 0 ["e"] = .ok [] := by
  decide +kernel

theorem replay_selection_agrees_iff_two :
    ∃ queried byId, queryMetadata Sample.storeTwo
        (requestToFilter { timeStart := some Sample.midnight }) = .ok queried ∧
      iterByIds Sample.storeTwo { timeStart := some Sample.midnight } 0 ["e", "d"] = .ok byId ∧
      queried.map ReplayEvent.eventId = ["d", "e"] ∧
      (∀ e, e ∈ queried ↔ (e.eventId, some e) ∈ byId) ∧ queried.Pairwise instantBefore := by
  have hutc : ∀ t, t = Sample.midnight ∨ t = { Sample.midnight with hour := 1 } → t.Utc := by
    rintro t (rfl | rfl) <;> exact ⟨(Datetime.inRange_iff _).mp (by decide), rfl⟩
  have hrows : ∀ row ∈ Sample.storeTwo.events.rows,
      ∃ t : Datetime, t.Utc ∧ row.timestamp = t.isoformat := by
    intro row hrow
    rcases mem_cons.mp hrow with rfl | hrow
    · exact ⟨_, hutc _ (.inr rfl), rfl⟩
    · rw [mem_singleton.mp hrow]
      exact ⟨_, hutc _ (.inl rfl), rfl⟩
  have hstart : ∀ t ∈ some Sample.midnight, t.Utc := fun t ht =>
    hutc t (.inl (Option.some.inj ht).symm)
  have hstamped : Stamped Sample.storeTwo :=
    fun row hrow => (hrows row hrow).imp fun _ ht => ⟨ht.1.aware, ht.2⟩
  obtain ⟨queried, byId, hquery, hids, hagrees⟩ :=
    replay_selection_agrees_iff (r := { timeStart := some Sample.midnight }) hstamped
      ⟨fun t ht => (hstart t ht).aware, fun t ht => absurd ht (Option.not_mem_none t)⟩ (by decide)
  refine ⟨queried, byId, hquery, hids, ?_, hagrees.mpr (consistent_of_utc hrows hstart
    (fun t ht => absurd ht (Option.not_mem_none t)) (by rintro (h | h) <;> cases h))⟩
  have horder : (queryMetadata Sample.storeTwo
      (requestToFilter { timeStart := some Sample.midnight })).map
        (fun queried => queried.map ReplayEvent.eventId) = .ok ["d", "e"] := by
    decide +kernel
  rw [hquery] at horder
  exact Except.ok.inj horder

end Medre.Replay
