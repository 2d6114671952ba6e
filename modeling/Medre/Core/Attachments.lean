import Medre.Storage.Schema

/-! # The canonical attachment descriptor (`events/attachments.py`)

A descriptor is written into the payload of its event and read back strictly: a field of the
wrong kind, an empty text or an unknown field is refused. -/

namespace Medre.Core

open List Medre.Framework Medre.Storage

variable {fields : List (String × Json)} {key : String} {d : AttachmentDescriptor}

/-! ## Descriptors -/

def attachmentKinds : List String := ["image", "audio", "video", "file"]

/-- `ATTACHMENT_UNAVAILABLE_REASONS`. -/
inductive UnavailableReason where
  | policyDisabled
  | historySuppressed
  | oversized
  | malformedSource
  | integrityFailed
  | unsupportedSource
  | quotaExceeded
  | notRetained
  | contentMissing
  | fetchExhausted
deriving DecidableEq, Repr

def UnavailableReason.text : UnavailableReason → String
  | .policyDisabled => "policy_disabled"
  | .historySuppressed => "history_suppressed"
  | .oversized => "oversized"
  | .malformedSource => "malformed_source"
  | .integrityFailed => "integrity_failed"
  | .unsupportedSource => "unsupported_source"
  | .quotaExceeded => "quota_exceeded"
  | .notRetained => "not_retained"
  | .contentMissing => "content_missing"
  | .fetchExhausted => "fetch_exhausted"

def unavailableReasons : List UnavailableReason :=
  [.policyDisabled, .historySuppressed, .oversized, .malformedSource, .integrityFailed,
    .unsupportedSource, .quotaExceeded, .notRetained, .contentMissing, .fetchExhausted]

/-- `AttachmentDescriptor`. Its numbers are nonnegative by type. -/
structure AttachmentDescriptor where
  kind : String
  filename : Option String := none
  mimeType : Option String := none
  sizeBytes : Option ℕ := none
  width : Option ℕ := none
  height : Option ℕ := none
  durationMs : Option ℕ := none
  contentRef : Option String := none
  unavailableReason : Option String := none
deriving DecidableEq, Repr

/-- `CONTENT_REF_PATTERN`. -/
def isContentRef (s : String) : Bool :=
  s.toList.take 7 = "sha256:".toList && (s.toList.drop 7).length = 64 &&
    (s.toList.drop 7).all Sha256.isHexDigit

/-- The reference of some content, as admission computes it. -/
def contentRefOf (data : List UInt8) : String := "sha256:" ++ Sha256.hexdigest data

theorem contentRefOf_eq_iff {data data' : List UInt8} :
    contentRefOf data = contentRefOf data' ↔ Sha256.hexdigest data = Sha256.hexdigest data' := by
  unfold contentRefOf
  exact ⟨fun h => String.append_right_inj _ |>.mp h, fun h => by rw [h]⟩

namespace AttachmentDescriptor

def validateKind (d : AttachmentDescriptor) : Except Err Unit :=
  if attachmentKinds.contains d.kind then .ok ()
  else .error (.valueError "attachment kind must be one of ['audio', 'file', 'image', 'video']")

def validateOptionalStrings (d : AttachmentDescriptor) : Except Err Unit :=
  if d.filename = some "" then
    .error (.valueError "attachment filename must be a non-empty string")
  else if d.mimeType = some "" then
    .error (.valueError "attachment mime_type must be a non-empty string")
  else .ok ()

def validateDeclared (d : AttachmentDescriptor) : Except Err Unit :=
  match d.validateKind with
  | .error e => .error e
  | .ok () => d.validateOptionalStrings

def validate (d : AttachmentDescriptor) : Except Err Unit :=
  match d.validateKind with
  | .error e => .error e
  | .ok () =>
    if d.contentRef.isSome && d.unavailableReason.isSome then
      .error (.valueError ("attachment descriptor cannot be both retained (content_ref) " ++
        "and unavailable (reason)"))
    else if d.contentRef.isNone && d.unavailableReason.isNone then
      .error (.valueError ("attachment descriptor must be either retained (content_ref) " ++
        "or unavailable (unavailable_reason)"))
    else if !d.contentRef.all isContentRef then
      .error (.valueError ("attachment content_ref must be a local content-addressed " ++
        "reference of the form sha256:<64 lowercase hex>"))
    else if !d.unavailableReason.all (unavailableReasons.map UnavailableReason.text).contains
    then .error (.valueError "attachment unavailable_reason must be one of the stable codes")
    else d.validateOptionalStrings

def retained (d : AttachmentDescriptor) : Bool := d.contentRef.isSome

def withRetainedContent (d : AttachmentDescriptor) (contentRef : String) (measured : ℕ) :
    AttachmentDescriptor :=
  { d with sizeBytes := some measured, contentRef := some contentRef, unavailableReason := none }

def withUnavailable (d : AttachmentDescriptor) (reason : UnavailableReason) :
    AttachmentDescriptor :=
  { d with contentRef := none, unavailableReason := some reason.text }

/-! ## The payload form -/

/-- The optional entries of `to_payload`, in their order. -/
def entries (d : AttachmentDescriptor) : List (String × Option Json) :=
  [("kind", some (.str d.kind)),
    ("filename", d.filename.map .str),
    ("mime_type", d.mimeType.map .str),
    ("size_bytes", d.sizeBytes.map Json.nat),
    ("width", d.width.map Json.nat),
    ("height", d.height.map Json.nat),
    ("duration_ms", d.durationMs.map Json.nat),
    ("content_ref", d.contentRef.map .str),
    ("unavailable_reason", d.unavailableReason.map .str)]

def present (entries : List (String × Option Json)) : List (String × Json) :=
  entries.filterMap fun e => e.2.map fun v => (e.1, v)

def toPayload (d : AttachmentDescriptor) : Except Err Json :=
  match d.validate with
  | .error e => .error e
  | .ok () => .ok (.obj (present d.entries))

/-- A text field of `_strict_fields`. -/
def strictString (fields : List (String × Json)) (key : String) :
    Except Err (Option String) :=
  match Json.fieldOf fields key with
  | none | some .null => .ok none
  | some (.str s) =>
    if s = "" then .error (.valueError ("attachment " ++ key ++ " must be a non-empty string"))
    else .ok (some s)
  | some _ => .error (.valueError ("attachment " ++ key ++ " must be a non-empty string"))

/-- A number field of `_strict_fields`. -/
def strictNat (fields : List (String × Json)) (key : String) : Except Err (Option ℕ) :=
  match Json.fieldOf fields key with
  | none | some .null => .ok none
  | some (.number literal) =>
    match Json.natLiteral? literal with
    | some n => .ok (some n)
    | none => .error (.valueError ("attachment " ++ key ++ " must be a nonnegative integer"))
  | some _ => .error (.valueError ("attachment " ++ key ++ " must be a nonnegative integer"))

/-- `str(strict.get("kind", ""))`: the text of a value that is not a text is no
kind either. -/
def strictKind (fields : List (String × Json)) : String :=
  ((Json.fieldOf fields "kind").bind Json.str?).getD ""

def declaredFields : List String :=
  ["kind", "filename", "mime_type", "size_bytes", "width", "height", "duration_ms"]

def descriptorFields : List String := declaredFields ++ ["content_ref", "unavailable_reason"]

/-- `_strict_fields` and the record built from it: the fields in sorted order. A
field that is not allowed has been refused before. -/
def strictFields (fields : List (String × Json)) (allowed : List String) :
    Except Err AttachmentDescriptor :=
  if fields.any fun f => !allowed.contains f.1 then
    .error (.valueError "attachment descriptor has field(s) outside the allowed set")
  else do
    let contentRef ← strictString fields "content_ref"
    let durationMs ← strictNat fields "duration_ms"
    let filename ← strictString fields "filename"
    let height ← strictNat fields "height"
    let mimeType ← strictString fields "mime_type"
    let sizeBytes ← strictNat fields "size_bytes"
    let unavailableReason ← strictString fields "unavailable_reason"
    let width ← strictNat fields "width"
    pure { kind := strictKind fields, filename, mimeType, sizeBytes, width, height, durationMs
           contentRef, unavailableReason }

def fromPayload (value : Json) : Except Err AttachmentDescriptor :=
  match value with
  | .obj fields => do
    let d ← strictFields fields descriptorFields
    d.validate
    pure d
  | _ => .error (.valueError "attachment descriptor must be a mapping")

end AttachmentDescriptor

def attachmentPayloadKey : String := "attachment"

/-- `payload.get(ATTACHMENT_PAYLOAD_KEY)`; JSON `null` is Python's `None`. -/
def rawDescriptor (payload : List (String × Json)) : Option Json :=
  match Json.fieldOf payload attachmentPayloadKey with
  | none | some .null => none
  | some raw => some raw

def attachmentDescriptorFromEventPayload (payload : List (String × Json)) :
    Except Err (Option AttachmentDescriptor) :=
  match rawDescriptor payload with
  | none => .ok none
  | some raw => (AttachmentDescriptor.fromPayload raw).map some

def declaredDescriptorFromEventPayload (payload : List (String × Json)) :
    Except Err (Option AttachmentDescriptor) :=
  match rawDescriptor payload with
  | none => .ok none
  | some (.obj fields) => do
    let d ← AttachmentDescriptor.strictFields fields AttachmentDescriptor.declaredFields
    d.validateDeclared
    pure (some d)
  | some _ => .error (.valueError "attachment descriptor must be a mapping")

/-! ## The round trip -/

namespace AttachmentDescriptor

theorem fieldOf_present {entries : List (String × Option Json)}
    (hnodup : (entries.map Prod.fst).Nodup) (key : String) :
    Json.fieldOf (present entries) key = (entries.find? fun e => e.1 = key).bind Prod.snd := by
  have hkeys : ∀ f ∈ present entries, f.1 ∈ entries.map Prod.fst := by
    intro f hf
    obtain ⟨e, he, hsome⟩ := mem_filterMap.mp hf
    obtain ⟨v, -, rfl⟩ := Option.map_eq_some_iff.mp hsome
    exact mem_map_of_mem he
  induction entries with
  | nil => rfl
  | cons e entries ih =>
    obtain ⟨habsent, hrest⟩ := nodup_cons.mp hnodup
    have hkeys' : ∀ f ∈ present entries, f.1 ∈ entries.map Prod.fst := by
      intro f hf
      obtain ⟨e', he', hsome⟩ := mem_filterMap.mp hf
      obtain ⟨v, -, rfl⟩ := Option.map_eq_some_iff.mp hsome
      exact mem_map_of_mem he'
    have hcons : present (e :: entries) =
        (e.2.map fun v => (e.1, v)).toList ++ present entries := by
      cases he : e.2 <;> simp [present, he]
    have hfield : Json.fieldOf (present (e :: entries)) key =
        (Json.fieldOf (present entries) key).or (if e.1 = key then e.2 else none) := by
      rw [hcons, Json.fieldOf, reverse_append, List.find?_append, Json.fieldOf]
      cases hlast : (present entries).reverse.find? fun f => f.1 = key with
      | some f => rfl
      | none => cases he : e.2 <;> by_cases hk : e.1 = key <;> simp [hk]
    rw [hfield, ih hrest hkeys', List.find?_cons]
    by_cases hk : e.1 = key
    · -- no later entry has this key
      have hnone : (entries.find? fun e' => e'.1 = key) = none := by
        refine List.find?_eq_none.mpr fun e' he' heq => ?_
        exact habsent (hk ▸ of_decide_eq_true heq ▸ mem_map_of_mem he')
      simp [hk, hnone]
    · simp [hk]

theorem strictString_present {v : Option String} (h : Json.fieldOf fields key = v.map .str)
    (hv : v ≠ some "") :
    strictString fields key = .ok v := by
  unfold strictString
  rw [h]
  cases v with
  | none => rfl
  | some s =>
    have hs : s ≠ "" := fun heq => hv (heq ▸ rfl)
    simp [hs]

theorem strictNat_present {v : Option ℕ} (h : Json.fieldOf fields key = v.map Json.nat) :
    strictNat fields key = .ok v := by
  unfold strictNat
  rw [h]
  cases v with
  | none => rfl
  | some n => simp only [Option.map_some, Json.nat, Json.natLiteral?_toString]

structure Valid (d : AttachmentDescriptor) : Prop where
  kind : attachmentKinds.contains d.kind = true
  exclusive : d.contentRef.isSome = !d.unavailableReason.isSome
  contentRef : d.contentRef.all isContentRef = true
  reason : d.unavailableReason.all (unavailableReasons.map UnavailableReason.text).contains = true
  filename : d.filename ≠ some ""
  mimeType : d.mimeType ≠ some ""

theorem validateOptionalStrings_ok :
    d.validateOptionalStrings = .ok () ↔ d.filename ≠ some "" ∧ d.mimeType ≠ some "" := by
  unfold validateOptionalStrings
  split
  · simp [*]
  · split <;> simp [*]

theorem validateKind_ok : d.validateKind = .ok () ↔ attachmentKinds.contains d.kind = true := by
  unfold validateKind
  split <;> simp_all

theorem validate_ok : d.validate = .ok () ↔ d.Valid := by
  constructor
  · intro h
    unfold validate at h
    split at h
    · cases h
    · rename_i hkind
      split at h
      · cases h
      · rename_i hboth
        split at h
        · cases h
        · rename_i hneither
          split at h
          · cases h
          · rename_i href
            split at h
            · cases h
            · rename_i hreason
              obtain ⟨hfilename, hmime⟩ := validateOptionalStrings_ok.mp h
              refine ⟨validateKind_ok.mp hkind, ?_, by simpa using href, by simpa using hreason,
                hfilename, hmime⟩
              cases hc : d.contentRef <;> cases hr : d.unavailableReason <;>
                simp [hc, hr] at hboth hneither ⊢
  · rintro ⟨hkind, hexclusive, href, hreason, hfilename, hmime⟩
    have hboth : (d.contentRef.isSome && d.unavailableReason.isSome) = false := by
      rw [hexclusive]
      cases d.unavailableReason <;> rfl
    have hneither : (d.contentRef.isNone && d.unavailableReason.isNone) = false := by
      cases hc : d.contentRef <;> cases hr : d.unavailableReason <;> simp [hc, hr] at hexclusive ⊢
    unfold validate
    rw [validateKind_ok.mpr hkind, hboth, hneither, href, hreason]
    exact validateOptionalStrings_ok.mpr ⟨hfilename, hmime⟩

theorem strictFields_present (h : d.Valid) :
    strictFields (present d.entries) descriptorFields = .ok d := by
  have hnodup : (d.entries.map Prod.fst).Nodup := by
    simp [entries]
  have hread := fieldOf_present hnodup
  have hallowed : (present d.entries).any (fun f => !descriptorFields.contains f.1) = false := by
    rw [any_eq_false]
    intro f hf
    obtain ⟨e, he, hsome⟩ := mem_filterMap.mp hf
    obtain ⟨v, -, rfl⟩ := Option.map_eq_some_iff.mp hsome
    have hkeys : ∀ e ∈ d.entries, descriptorFields.contains e.1 = true := by
      simp [entries, descriptorFields, declaredFields]
    simpa using hkeys e he
  have href : strictString (present d.entries) "content_ref" = .ok d.contentRef := by
    refine strictString_present (hread _) ?_
    rintro hempty
    have hbad := h.contentRef
    rw [hempty] at hbad
    cases hbad
  have hreason : strictString (present d.entries) "unavailable_reason" =
      .ok d.unavailableReason := by
    refine strictString_present (hread _) ?_
    rintro hempty
    have hbad := h.reason
    rw [hempty] at hbad
    revert hbad
    decide
  have hkind : strictKind (present d.entries) = d.kind := by
    rw [strictKind, hread]
    rfl
  unfold strictFields
  rw [hallowed, href, hreason, hkind, strictString_present (hread "filename") h.filename,
    strictString_present (hread "mime_type") h.mimeType, strictNat_present (hread "duration_ms"),
    strictNat_present (hread "height"), strictNat_present (hread "size_bytes"),
    strictNat_present (hread "width")]
  rfl

theorem fromPayload_toPayload {j : Json} (h : d.toPayload = .ok j) : fromPayload j = .ok d := by
  unfold toPayload at h
  split at h
  · cases h
  · rename_i hvalid
    cases h
    simp only [fromPayload, strictFields_present (validate_ok.mp hvalid)]
    show (do d.validate; pure d : Except Err AttachmentDescriptor) = _
    rw [hvalid]
    rfl

end AttachmentDescriptor

end Medre.Core
