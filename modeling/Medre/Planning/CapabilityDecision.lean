import Medre.Storage.Admission

/-! # Which delivery an adapter's capabilities allow (`planning/capability_decision.py`)

The event's kind and each of its relations name a field of the adapter's capabilities; the first
most severe level among them decides. -/

namespace Medre.Planning.Capability

inductive CapabilityLevel where
  | native
  | fallback
  | unsupported
deriving DecidableEq, Repr

inductive CapabilityDeliveryStrategy where
  | direct
  | fallbackText
  | skip
deriving DecidableEq, Repr

/-- `_SEVERITY`. -/
def CapabilityLevel.severity : CapabilityLevel → ℕ
  | .native => 0
  | .fallback => 1
  | .unsupported => 2

/-- `_STRATEGY_FOR_LEVEL`. -/
def CapabilityLevel.strategy : CapabilityLevel → CapabilityDeliveryStrategy
  | .native => .direct
  | .fallback => .fallbackText
  | .unsupported => .skip

/-- The fields of `AdapterCapabilities` that the resolver reads. -/
inductive CapabilityField where
  | text
  | attachments
  | presence
  | metadataFields
  | reactions
  | edits
  | deletes
  | replies
  | threads
deriving DecidableEq, Repr

def CapabilityField.name : CapabilityField → String
  | .text => "text"
  | .attachments => "attachments"
  | .presence => "presence"
  | .metadataFields => "metadata_fields"
  | .reactions => "reactions"
  | .edits => "edits"
  | .deletes => "deletes"
  | .replies => "replies"
  | .threads => "threads"

/-- `_BOOLEAN_FIELDS`; the other fields are `_STRING_FIELDS`. -/
def booleanFields : List CapabilityField :=
  [.text, .attachments, .presence, .metadataFields]

/-- A field's value. Nothing checks its type when the capabilities are built. -/
inductive CapabilityValue where
  | none
  | bool (b : Bool)
  | str (s : String)
  | other (typeName repr : String)

abbrev AdapterCapabilities := CapabilityField → CapabilityValue

/-- `_EVENT_KIND_FIELDS`. -/
def eventKindField : String → Option CapabilityField
  | "message.reacted" => some .reactions
  | "message.edited" => some .edits
  | "message.deleted" => some .deletes
  | "message.file" => some .attachments
  | "message.created" => some .text
  | "message.text" => some .text
  | "presence.changed" => some .presence
  | "telemetry.received" => some .metadataFields
  | "telemetry.position" => some .metadataFields
  | _ => none

/-- `PASSTHROUGH_EVENT_KINDS`. -/
def passthroughEventKinds : List String :=
  ["identity.updated", "delivery.queued", "delivery.sent", "delivery.failed", "system.audit",
    "system.lifecycle", "plugin.custom"]

/-- `_RELATION_FIELDS`. -/
def relationField : String → Option CapabilityField
  | "reply" => some .replies
  | "thread" => some .threads
  | "reaction" => some .reactions
  | "edit" => some .edits
  | "delete" => some .deletes
  | _ => none

structure Candidate where
  capabilityLevel : CapabilityLevel
  capabilityField : String
  reason : Option String

structure CapabilityDecision where
  targetAdapter : Option String
  eventKind : String
  capabilityLevel : CapabilityLevel
  deliveryStrategy : CapabilityDeliveryStrategy
  supported : Bool
  capabilityField : Option String
  reason : Option String

/-! ## The resolver

`repr` is Python's quoting of a string. -/

section
variable (repr : String → String) (caps : AdapterCapabilities)

/-- The end of a `ValueError`: `got {type(raw_value).__name__}: {raw_value!r}`. -/
def CapabilityValue.got : CapabilityValue → String
  | .none => "NoneType: None"
  | .bool b => "bool: " ++ if b then "True" else "False"
  | .str s => "str: " ++ repr s
  | .other typeName text => typeName ++ ": " ++ text

/-- `_resolve_field_level`. Every field is boolean or three-level, so neither the missing
attribute nor the unrecognised field can occur. -/
def resolveFieldLevel (field : CapabilityField) : Except String CapabilityLevel :=
  if field ∈ booleanFields then
    match caps field with
    | .none => .ok .unsupported
    | .bool b => .ok (if b then .native else .unsupported)
    | value => .error ("Capability field " ++ repr field.name ++ " expected bool, got " ++
        value.got repr)
  else
    match caps field with
    | .none => .ok .unsupported
    | .str "native" => .ok .native
    | .str "fallback" => .ok .fallback
    | .str "unsupported" => .ok .unsupported
    | value => .error ("Capability field " ++ repr field.name ++ " expected one of 'native', " ++
        "'fallback', 'unsupported', got " ++ value.got repr)

/-- `_make_event_kind_reason` and `_make_relation_reason`, by what was checked. -/
def makeReason (field : CapabilityField) (about : String) : CapabilityLevel → Option String
  | .native => none
  | .fallback => some (field.name ++ " fallback for adapter (" ++ about ++ ")")
  | .unsupported => some (field.name ++ " unsupported by adapter (" ++ about ++ ")")

/-- A check point: its field, or the name and the reason that stand for an unknown one. -/
structure CheckPoint where
  field : Option CapabilityField
  unknownField : String
  unknownReason : String
  about : String

def eventKindPoint (kind : String) : CheckPoint :=
  ⟨eventKindField kind, "event_kind", "unsupported event kind " ++ repr kind,
    "event_kind=" ++ kind⟩

def relationPoint (rel : Storage.EventRelation) : CheckPoint :=
  ⟨relationField rel.relationType, "relation",
    "unsupported relation type " ++ repr rel.relationType,
    "event has " ++ rel.relationType ++ " relation"⟩

/-- The kind, unless it is a passthrough kind, and then the relations in their order. -/
def checkPoints (event : Storage.CanonicalEvent) : List CheckPoint :=
  (if (eventKindField event.eventKind).isNone ∧ event.eventKind ∈ passthroughEventKinds then []
    else [eventKindPoint repr event.eventKind]) ++ event.relations.map (relationPoint repr)

def CheckPoint.level (p : CheckPoint) : Except String CapabilityLevel :=
  match p.field with
  | none => .ok .unsupported
  | some field => resolveFieldLevel repr caps field

def CheckPoint.candidate (p : CheckPoint) : Except String Candidate :=
  (p.level repr caps).map fun level =>
    match p.field with
    | none => ⟨level, p.unknownField, some p.unknownReason⟩
    | some field => ⟨level, field.name, makeReason field p.about level⟩

/-- The loop over the candidates: only a more severe one replaces the winner. -/
def mostSevere : Candidate → List Candidate → Candidate :=
  List.foldl fun winner c =>
    if winner.capabilityLevel.severity < c.capabilityLevel.severity then c else winner

def decide (event : Storage.CanonicalEvent) (targetAdapter : Option String) :
    Except String CapabilityDecision :=
  ((checkPoints repr event).mapM (CheckPoint.candidate repr caps)).map fun
    | [] => ⟨targetAdapter, event.eventKind, .native, .direct, true, none, none⟩
    | first :: rest =>
      let winner := mostSevere first rest
      let level := winner.capabilityLevel
      ⟨targetAdapter, event.eventKind, level, level.strategy, level ≠ .unsupported,
        winner.capabilityField, winner.reason⟩

end

/-! ## The decision -/

variable {repr : String → String} {caps : AdapterCapabilities}

theorem mapM_ok_iff {α β ε : Type} {f : α → Except ε β} {P : β → Prop} (l : List α) :
    (∃ bs, l.mapM f = .ok bs ∧ ∀ b ∈ bs, P b) ↔ ∀ a ∈ l, ∃ b, f a = .ok b ∧ P b := by
  induction l with
  | nil => simp [pure, Except.pure]
  | cons a l ih =>
    rw [List.forall_mem_cons, ← ih, List.mapM_cons]
    cases f a with
    | error e => simp [bind, Except.bind]
    | ok b => cases l.mapM f <;> simp [bind, Except.bind, pure, Except.pure]

theorem CheckPoint.candidate_ok_iff {P : CapabilityLevel → Prop} (p : CheckPoint) :
    (∃ c, p.candidate repr caps = .ok c ∧ P c.capabilityLevel) ↔
      ∃ l, p.level repr caps = .ok l ∧ P l := by
  unfold CheckPoint.candidate
  cases p.level repr caps with
  | error e => simp [Except.map]
  | ok l => cases h : p.field <;> simp [Except.map]

theorem mostSevere_le_iff (n : ℕ) (first : Candidate) (rest : List Candidate) :
    (mostSevere first rest).capabilityLevel.severity ≤ n ↔
      ∀ c ∈ first :: rest, c.capabilityLevel.severity ≤ n := by
  induction rest generalizing first with
  | nil => simp [mostSevere]
  | cons c rest ih =>
    have hstep : mostSevere first (c :: rest) = mostSevere
        (if first.capabilityLevel.severity < c.capabilityLevel.severity then c else first) rest :=
      rfl
    rw [hstep, ih]
    split <;> simp only [List.forall_mem_cons] <;> grind

theorem decide_le_iff (n : ℕ) {event : Storage.CanonicalEvent} {adapter : Option String} :
    (∃ d, decide repr caps event adapter = .ok d ∧ d.capabilityLevel.severity ≤ n) ↔
      ∀ p ∈ checkPoints repr event, ∃ c, p.candidate repr caps = .ok c ∧
        c.capabilityLevel.severity ≤ n := by
  rw [← mapM_ok_iff, decide]
  cases (checkPoints repr event).mapM (CheckPoint.candidate repr caps) with
  | error e => simp [Except.map]
  | ok cs =>
    cases cs with
    | nil => simp [Except.map, CapabilityLevel.severity]
    | cons first rest =>
      simp only [Except.map, Except.ok.injEq, exists_eq_left', mostSevere_le_iff]

theorem decide_ok {event : Storage.CanonicalEvent} {adapter : Option String}
    (h : decide repr caps event adapter = .ok d) :
    d.deliveryStrategy = d.capabilityLevel.strategy ∧
      (d.supported = true ↔ d.capabilityLevel.severity ≤ 1) := by
  unfold decide at h
  cases hcs : (checkPoints repr event).mapM (CheckPoint.candidate repr caps) with
  | error e => simp [hcs, Except.map] at h
  | ok cs =>
    rw [hcs] at h
    cases cs with
    | nil =>
      cases h
      exact ⟨rfl, by simp [CapabilityLevel.severity]⟩
    | cons first rest =>
      cases h
      cases hlevel : (mostSevere first rest).capabilityLevel <;>
        simp [hlevel, CapabilityLevel.severity]

/-- The resolver fails closed: it reaches a decision of some level exactly if every field
it checks is well formed and at that level or better; the strategy is that of the level, and
the event is supported exactly if no field it checks is unsupported. -/
theorem decide_fails_closed (event : Storage.CanonicalEvent) (adapter : Option String) (n : ℕ) :
    ((∃ d, decide repr caps event adapter = .ok d ∧ d.capabilityLevel.severity ≤ n) ↔
      ∀ p ∈ checkPoints repr event, ∃ l, p.level repr caps = .ok l ∧ l.severity ≤ n) ∧
    ∀ d, decide repr caps event adapter = .ok d →
      d.deliveryStrategy = d.capabilityLevel.strategy ∧
      (d.supported = true ↔
        ∀ p ∈ checkPoints repr event, p.level repr caps ≠ .ok .unsupported) := by
  have hlevels : ∀ n, (∃ d, decide repr caps event adapter = .ok d ∧
      d.capabilityLevel.severity ≤ n) ↔
        ∀ p ∈ checkPoints repr event, ∃ l, p.level repr caps = .ok l ∧ l.severity ≤ n := by
    intro n
    rw [decide_le_iff]
    apply forall₂_congr
    intro p _
    exact p.candidate_ok_iff (P := fun l => l.severity ≤ n)
  refine ⟨hlevels n, fun d hd => ⟨(decide_ok hd).1, ?_⟩⟩
  have hone := hlevels 1
  simp only [hd, Except.ok.injEq, exists_eq_left'] at hone
  rw [(decide_ok hd).2, hone]
  refine forall₂_congr fun p hp => ?_
  obtain ⟨l, hl, -⟩ := (hlevels d.capabilityLevel.severity).mp ⟨d, hd, le_refl _⟩ p hp
  cases l <;> simp [hl, CapabilityLevel.severity]

end Medre.Planning.Capability
