import Medre.Storage.AttachmentAdmission

/-! # Admission is idempotent and complete

A call that commits either finds its identity and changes nothing, or adds one row to each table
it writes, and its bytes at most once. -/

namespace Medre.Storage

open List Medre.Framework Medre.Core Tx

variable {e now : String} {d : AttachmentDescriptor} {content : InboundAttachmentContent}
  {plan : Option AttachmentAdmissionPlan} {b : AttachmentBlob} {a : AttachmentAssociation}
  {u : Unit} {limit : Option (String × ℤ)}

/-! ## What a plan holds -/

/-- The stored form of `e'` carries the descriptor `d`. -/
structure Describes (e e' : CanonicalEvent) (d : AttachmentDescriptor) : Prop where
  id_eq : e'.eventId = e.eventId
  descriptor : attachmentDescriptorFromEventPayload (envelopePayload e'.payload) = .ok (some d)

theorem fieldOf_envelopePayload (payload : List (String × Json)) :
    Json.fieldOf (envelopePayload payload) attachmentPayloadKey =
      Json.fieldOf payload attachmentPayloadKey := by
  refine Json.fieldOf_filter ?_
  rintro ⟨key, v⟩ rfl
  simp [attachmentPayloadKey]

theorem describes_of_ok {e e' : CanonicalEvent} (h : eventWithAttachmentDescriptor e d = .ok e') :
    Describes e e' d := by
  unfold eventWithAttachmentDescriptor at h
  split at h
  · cases h
  · rename_i j hj
    cases h
    refine ⟨rfl, ?_⟩
    have hraw : rawDescriptor (envelopePayload (Json.putField e.payload attachmentPayloadKey j)) =
        some j := by
      rw [rawDescriptor, fieldOf_envelopePayload, Json.fieldOf_putField]
      cases j with
      | null => cases AttachmentDescriptor.fromPayload_toPayload hj
      | _ => rfl
    rw [attachmentDescriptorFromEventPayload, hraw]
    show (AttachmentDescriptor.fromPayload j).map some = _
    rw [AttachmentDescriptor.fromPayload_toPayload hj]
    rfl

/-- What the plan of a call says about its bytes. -/
structure Planned (c : AdmitCall) (content : InboundAttachmentContent)
    (p : AttachmentAdmissionPlan) : Prop where
  contentRef : p.contentRef = contentRefOf content.data
  sizeBytes : p.sizeBytes = content.data.length
  quota : p.maxRetainedBytes = c.limits.maxRetainedBytes
  retained : p.forcedUnavailableReason = none → ∃ d b, d.retained = true ∧
    Describes c.event p.retainedEvent d ∧ p.blob = some b ∧
      b.contentRef = contentRefOf content.data ∧ b.sizeBytes = content.data.length ∧
      b.data = content.data
  unavailable : ∃ d, d.retained = false ∧ Describes c.event p.unavailableEvent d

variable {c : AdmitCall}

theorem planned_of_build {p : AttachmentAdmissionPlan}
    (h : buildAttachmentPlan c.event content c.limits now = .ok p) :
    Planned c content p := by
  unfold buildAttachmentPlan at h
  split at h
  · cases h
  · cases h
  · dsimp only at h
    split at h
    · split at h
      · cases h
      · rename_i unavailable hunavailable
        cases h
        exact ⟨rfl, rfl, rfl, nofun, _, rfl, describes_of_ok hunavailable⟩
    · split at h
      · cases h
      · rename_i retained hretained
        split at h
        · cases h
        · rename_i quota hquota
          cases h
          exact ⟨rfl, rfl, rfl, fun _ => ⟨_, _, rfl, describes_of_ok hretained, rfl, rfl, rfl, rfl⟩,
            _, rfl, describes_of_ok hquota⟩

theorem plan_cases (h : c.plan = .ok plan) :
    (c.attachment = none ∧ plan = none) ∨
      ∃ content p, c.attachment = some content ∧ plan = some p ∧ Planned c content p := by
  unfold AdmitCall.plan at h
  split at h
  · rename_i hnone
    cases h
    exact .inl ⟨hnone, rfl⟩
  · rename_i content hsome
    cases hp : buildAttachmentPlan c.event content c.limits c.now.isoformatMicroseconds with
    | error err =>
      rw [hp] at h
      cases h
    | ok p =>
      rw [hp] at h
      cases h
      exact .inr ⟨content, p, hsome, rfl, planned_of_build hp⟩

/-! ## What a new admission adds -/

/-- The rows of the event that is admitted as `e'`. -/
structure Admits (c : AdmitCall) (e' : CanonicalEvent) (s s' : ContentStore) : Prop where
  id_eq : e'.eventId = c.event.eventId
  fresh : s.db.hasEvent c.event.eventId = false
  events : s'.db.events.rows = s.db.events.rows ++ [e'.row (nowIso c.now)]
  body : ∃ b : BodyIdentity, b.eventId = c.event.eventId ∧
    s'.db.bodyIdentity.rows = s.db.bodyIdentity.rows ++ [b]
  source : ∃ limit, s'.db.dependencies.rows = s.db.dependencies.rows ++ [c.dependency limit]
  work : s'.db.ingressWork.rows = s.db.ingressWork.rows ++ [c.work c.event.eventId]
  refs : s'.db.nativeRefs.rows =
    s.db.nativeRefs.rows ++ (c.inboundRef.map NativeMessageRef.row).toList

/-- What becomes of the bytes of the event that is admitted as `e'`. -/
inductive Attaches (c : AdmitCall) (e' : CanonicalEvent) (s s' : ContentStore) : Prop
  | nothing (hc : c.attachment = none) (hblobs : s'.blobs = s.blobs)
      (hassoc : s'.associations = s.associations)
  | unavailable {content : InboundAttachmentContent} {d : AttachmentDescriptor}
      (hc : c.attachment = some content) (hd : d.retained = false)
      (he : Describes c.event e' d) (hblobs : s'.blobs = s.blobs)
      (hassoc : s'.associations = s.associations)
  | shared {content : InboundAttachmentContent} {d : AttachmentDescriptor} {at' : String}
      (hc : c.attachment = some content) (hd : d.retained = true)
      (he : Describes c.event e' d) (hblobs : s'.blobs = s.blobs)
      (hassoc : s'.associations.rows = s.associations.rows ++
        [⟨c.event.eventId, contentRefOf content.data, at'⟩])
      (hstored : ∃ b ∈ s.blobs.rows, b.contentRef = contentRefOf content.data)
  | stored {content : InboundAttachmentContent} {d : AttachmentDescriptor} {at' : String}
      {b : AttachmentBlob}
      (hc : c.attachment = some content) (hd : d.retained = true)
      (he : Describes c.event e' d) (href : b.contentRef = contentRefOf content.data)
      (hsize : b.sizeBytes = content.data.length) (hdata : b.data = content.data)
      (hblobs : s'.blobs.rows = s.blobs.rows ++ [b])
      (hassoc : s'.associations.rows = s.associations.rows ++
        [⟨c.event.eventId, contentRefOf content.data, at'⟩])
      (hnew : ∀ b ∈ s.blobs.rows, b.contentRef ≠ contentRefOf content.data)
      (hfits : s.retainedBytes + content.data.length ≤ c.limits.maxRetainedBytes)

variable {s : ContentStore}

theorem insertOrIgnoreBlob_rows :
    ((∃ b' ∈ s.blobs.rows, b'.contentRef = b.contentRef) ∧
        (s.blobs.insert b).getD s.blobs = s.blobs) ∨
      ((∀ b' ∈ s.blobs.rows, b'.contentRef ≠ b.contentRef) ∧
        ((s.blobs.insert b).getD s.blobs).rows = s.blobs.rows ++ [b]) := by
  by_cases hstored : ∃ b' ∈ s.blobs.rows, b'.contentRef = b.contentRef
  · left
    obtain ⟨b', hb', href⟩ := hstored
    refine ⟨⟨b', hb', href⟩, ?_⟩
    cases hins : s.blobs.insert b with
    | none => rfl
    | some t =>
      have hclash := Table.not_clash_of_insert hins hb'
      simp [distinctOn, href] at hclash
  · right
    have hnew : ∀ b' ∈ s.blobs.rows, b'.contentRef ≠ b.contentRef := by
      intro b' hb' href
      exact hstored ⟨b', hb', href⟩
    refine ⟨hnew, ?_⟩
    have hok : (∀ r ∈ s.blobs.rows ++ [b], (distinctOn AttachmentBlob.contentRef).check r = true) ∧
        (s.blobs.rows ++ [b]).Pairwise fun r t =>
          (distinctOn AttachmentBlob.contentRef).clash r t = false := by
      refine ⟨fun _ _ => rfl, pairwise_append.mpr ⟨s.blobs.apart, pairwise_singleton _ _, ?_⟩⟩
      intro b' hb' r hr
      rw [mem_singleton.mp hr]
      exact decide_eq_false (hnew b' hb')
    unfold Table.insert Table.ofRows
    rw [dif_pos hok]
    rfl

theorem run_insertAssociation {s s' : ContentStore}
    (h : (insertAssociation a).run s = .ok (u, s')) :
    s'.db = s.db ∧ s'.blobs = s.blobs ∧
      s'.associations.rows = s.associations.rows ++ [a] := by
  simp only [insertAssociation, run_bind, run_query] at h
  obtain ⟨t, _, ⟨rfl, rfl⟩, hrest⟩ := h
  cases hins : s.associations.insert a with
  | none =>
    rw [hins] at hrest
    exact (run_raise.mp hrest).elim
  | some t' =>
    rw [hins] at hrest
    simp only [run_bind, run_modify, run_query, run_require, run_onDb, run_requireEvent] at hrest
    obtain ⟨_, _, rfl, _, _, ⟨_, ⟨-, rfl⟩, rfl⟩, known, _, ⟨-, rfl⟩, -, rfl⟩ := hrest
    exact ⟨rfl, rfl, Table.rows_insert hins⟩

/-- The decision on the bytes, in the store `s`, and what follows from it in `s₁`. -/
theorem attaches_of_run (hplan : c.plan = .ok plan) {s s₁ s' : ContentStore}
    (h : (retainContent c.event.eventId now (retention plan s)).run s₁ = .ok (u, s'))
    (hblobs : s₁.blobs = s.blobs) (hassoc : s₁.associations = s.associations) :
    s'.db = s₁.db ∧ (chosenEvent c.event (retention plan s)).eventId = c.event.eventId ∧
      Attaches c (chosenEvent c.event (retention plan s)) s s' := by
  rcases plan_cases hplan with ⟨hnone, rfl⟩ | ⟨content, p, hsome, rfl, hp⟩
  · obtain ⟨-, rfl⟩ := run_pure.mp h
    exact ⟨rfl, rfl, .nothing hnone hblobs hassoc⟩
  · cases hreason : p.unavailable s with
    | some reason =>
      obtain ⟨d, hd, he⟩ := hp.unavailable
      have hret : retention (some p) s = some (p, some reason) := by
        rw [retention, Option.map_some, hreason]
      rw [hret] at h ⊢
      obtain ⟨-, rfl⟩ := run_pure.mp h
      exact ⟨rfl, he.id_eq, .unavailable hsome hd he hblobs hassoc⟩
    | none =>
      have hret : retention (some p) s = some (p, none) := by
        rw [retention, Option.map_some, hreason]
      rw [hret] at h ⊢
      -- nothing has forced the bytes out
      have hforced : p.forcedUnavailableReason = none := by
        cases hf : p.forcedUnavailableReason with
        | none => rfl
        | some r =>
          rw [AttachmentAdmissionPlan.unavailable, hf] at hreason
          cases hreason
      obtain ⟨d, b, hd, he, hblob, href, hsize, hdata⟩ := hp.retained hforced
      simp only [retainContent, hblob, run_bind, insertOrIgnoreBlob, run_modify] at h
      obtain ⟨_, _, rfl, hinsert⟩ := h
      obtain ⟨hdb, hblobs', hassoc'⟩ := run_insertAssociation hinsert
      rw [hp.contentRef] at hassoc'
      refine ⟨hdb, he.id_eq, ?_⟩
      have hrows : s'.associations.rows = s.associations.rows ++
          [⟨c.event.eventId, contentRefOf content.data, now⟩] := by
        rw [hassoc', ← hassoc]
      rcases insertOrIgnoreBlob_rows (s := s₁) (b := b) with ⟨hthere, hsame⟩ | ⟨hnew, hadded⟩
      · rw [hblobs, href] at hthere
        exact .shared hsome hd he (by rw [hblobs', ← hblobs]; exact hsame) hrows hthere
      · rw [hblobs, href] at hnew
        refine .stored hsome hd he href hsize hdata (by rw [hblobs', ← hblobs]; exact hadded)
          hrows hnew ?_
        have hmissing : (s.blobs.rows.any fun b => b.contentRef = p.contentRef) = false := by
          rw [any_eq_false]
          intro b' hb' heq
          exact hnew b' hb' ((of_decide_eq_true heq).trans hp.contentRef)
        rw [AttachmentAdmissionPlan.unavailable, hforced] at hreason
        simp only [hmissing, Bool.false_eq_true, if_false] at hreason
        split at hreason
        · cases hreason
        · rename_i hfits
          rw [hp.quota, hp.sizeBytes] at hfits
          exact not_lt.mp hfits

theorem run_admitNewContent (hplan : c.plan = .ok plan) {fact : Option AttachmentAdmissionFact}
    {s s' : ContentStore} (h : (admitNewContent c limit plan).run s = .ok (fact, s')) :
    (chosenEvent c.event (retention plan s)).eventId = c.event.eventId ∧
      (admitNew (chosenEvent c.event (retention plan s)) c.inboundRef limit
        (c.work c.event.eventId) c.now).run s.db = .ok ((), s'.db) ∧
      Attaches c (chosenEvent c.event (retention plan s)) s s' := by
  simp only [admitNewContent, eventAdmissionOps, run_bind, run_query, run_require,
    run_pure, run_onDb] at h
  obtain ⟨installed, _, ⟨rfl, rfl⟩, _, _, ⟨hceiling, rfl⟩, _, _, ⟨rfl, rfl⟩, _, _,
    ⟨db2, ⟨_, db1, hops, hdep⟩, rfl⟩, _, _, ⟨db3, hinstall, rfl⟩, _, s4, hretain, _, _,
    ⟨db5, href, rfl⟩, _, _, ⟨db6, hwork, rfl⟩, -, rfl⟩ := h
  obtain ⟨hdb4, hid, hattaches⟩ := attaches_of_run hplan hretain rfl rfl
  rw [hdb4] at href
  refine ⟨hid, ?_, ?_⟩
  · simp only [admitNew, run_bind, run_query, run_require, hid]
    exact ⟨_, _, ⟨rfl, rfl⟩, (), _, ⟨hceiling, rfl⟩, (), db1, hops, (), db2, hdep, (), db3,
      hinstall, (), db5, href, hwork⟩
  · -- what follows leaves the attachment tables alone
    cases hattaches with
    | nothing hc hblobs hassoc => exact .nothing hc hblobs hassoc
    | unavailable hc hd he hblobs hassoc => exact .unavailable hc hd he hblobs hassoc
    | shared hc hd he hblobs hassoc hstored => exact .shared hc hd he hblobs hassoc hstored
    | stored hc hd he href hsize hdata hblobs hassoc hnew hfits =>
      exact .stored hc hd he href hsize hdata hblobs hassoc hnew hfits

theorem admits_of_run {e : CanonicalEvent} {s s' : ContentStore} (hid : e.eventId = c.event.eventId)
    (h : (admitNew e c.inboundRef limit (c.work c.event.eventId) c.now).run s.db =
      .ok ((), s'.db)) : Admits c e s s' := by
  have hnew := run_admitNew h
  refine ⟨hid, hid ▸ hnew.fresh, hnew.events, ⟨_, hid, hnew.identity⟩, ⟨limit, ?_⟩,
    Table.rows_insert hnew.work, hnew.refs⟩
  rw [hnew.source, hid]
  rfl

/-- One call: it raises and changes nothing, finds its event, or admits a new one. -/
theorem admitStep_cases (s : ContentStore) (c : AdmitCall) :
    (∃ err, admitStep s c = (s, .error err)) ∨
      ∃ r s', admitStep s c = (s', .ok r) ∧
        ((∃ known, c.knownEvent s.db = some known ∧ r.eventId = known ∧ r.created = false ∧
            s'.blobs = s.blobs ∧ s'.associations = s.associations ∧
            ((∃ w ∈ s.db.ingressWork.rows, w.eventId = known) → s' = s)) ∨
          (c.knownEvent s.db = none ∧ r.eventId = c.event.eventId ∧ r.created = true ∧
            c.inboundRef.all (fun r => r.eventId = c.event.eventId) = true ∧
            ∃ e', Admits c e' s s' ∧ Attaches c e' s s')) := by
  rcases commit_cases (admitIngressContent c) s with ⟨r, s', hrun, hok⟩ | ⟨err, herr⟩
  · refine .inr ⟨r, s', hok, ?_⟩
    simp only [admitIngressContent, run_bind, run_require, run_lift, run_query] at hrun
    obtain ⟨_, _, ⟨href, rfl⟩, limit, _, ⟨-, rfl⟩, plan, _, ⟨hplan, rfl⟩, known, _,
      ⟨hknown, rfl⟩, hrest⟩ := hrun
    cases known with
    | some known =>
      simp only [run_bind, run_query, run_pure, run_onDb] at hrest
      obtain ⟨result, _, ⟨db', hrun, rfl⟩, _, _, ⟨-, rfl⟩, rfl, rfl⟩ := hrest
      obtain ⟨hid, hcreated, hsame⟩ := run_admitKnown hrun
      refine .inl ⟨known, hknown, hid, hcreated, rfl, rfl, ?_⟩
      intro hwork
      rw [hsame hwork]
    | none =>
      simp only [run_bind, run_pure] at hrest
      obtain ⟨fact, _, hrun, rfl, rfl⟩ := hrest
      obtain ⟨hid, hnew, hattaches⟩ := run_admitNewContent hplan hrun
      exact .inr ⟨hknown, rfl, rfl, href, _, admits_of_run hid hnew, hattaches⟩
  · exact .inl ⟨err, herr⟩

/-! ## The store after admissions -/

/-- What holds of the store after every list of admissions under the quota `Q`. -/
structure AdmissionComplete (Q : ℕ) (s : ContentStore) : Prop where
  identity_unique : ∀ n ∈ s.db.nativeRefs.rows, ∀ m ∈ s.db.nativeRefs.rows,
    n.identity = m.identity → n = m
  identity_stored : ∀ n ∈ s.db.nativeRefs.rows, s.db.hasEvent n.eventId = true
  work : ∀ e ∈ s.db.events.rows,
    ∃! w, w ∈ s.db.ingressWork.rows ∧ w.eventId = e.eventId
  body : ∀ e ∈ s.db.events.rows,
    ∃! b, b ∈ s.db.bodyIdentity.rows ∧ b.eventId = e.eventId
  source : ∀ e ∈ s.db.events.rows,
    ∃! d, d ∈ s.db.dependencies.rows ∧ d.eventId = e.eventId ∧ d.ownerKind = .ingress ∧
      d.releasedAt = none
  quota : s.retainedBytes ≤ Q
  counted_once : (s.blobs.rows.map AttachmentBlob.data).Nodup
  measured : ∀ b ∈ s.blobs.rows, b.contentRef = contentRefOf b.data ∧
    b.sizeBytes = b.data.length

/-- The same in the form that one admission preserves. -/
structure AdmissionInv (Q : ℕ) (s : ContentStore) : Prop where
  identity_unique : ∀ n ∈ s.db.nativeRefs.rows, ∀ m ∈ s.db.nativeRefs.rows,
    n.identity = m.identity → n = m
  identity_stored : ∀ n ∈ s.db.nativeRefs.rows, s.db.hasEvent n.eventId = true
  work : ∀ e, s.db.hasEvent e = true → ∃ w ∈ s.db.ingressWork.rows, w.eventId = e
  body : ∀ e, s.db.hasEvent e = true → ∃ b ∈ s.db.bodyIdentity.rows, b.eventId = e
  source : ∀ e, s.db.hasEvent e = true → ∃ d ∈ s.db.dependencies.rows, d.eventId = e
  source_key : ∀ d ∈ s.db.dependencies.rows, d.key = (d.eventId, .ingress, d.eventId)
  unreleased : ∀ d ∈ s.db.dependencies.rows, d.releasedAt = none
  association_stored : ∀ a ∈ s.associations.rows, s.db.hasEvent a.eventId = true
  quota : s.retainedBytes ≤ Q
  measured : ∀ b ∈ s.blobs.rows, b.contentRef = contentRefOf b.data ∧
    b.sizeBytes = b.data.length

theorem eq_of_distinct {ρ κ : Type} [DecidableEq κ] {key : ρ → κ} {t : Table (distinctOn key)}
    {r r' : ρ} (hr : r ∈ t.rows) (hr' : r' ∈ t.rows) (h : key r = key r') : r = r' := by
  refine t.eq_of_clash ?_ hr hr' (decide_eq_true h)
  intro a b
  exact decide_eq_decide.mpr eq_comm

theorem AdmissionInv.complete {Q : ℕ} (h : AdmissionInv Q s) :
    AdmissionComplete Q s where
  identity_unique := h.identity_unique
  identity_stored := h.identity_stored
  work e he := by
    obtain ⟨w, hw, hid⟩ := h.work e.eventId (hasEvent_iff.mpr ⟨e, he, rfl⟩)
    refine ⟨w, ⟨hw, hid⟩, ?_⟩
    rintro w' ⟨hw', hid'⟩
    exact eq_of_distinct hw' hw (hid'.trans hid.symm)
  body e he := by
    obtain ⟨b, hb, hid⟩ := h.body e.eventId (hasEvent_iff.mpr ⟨e, he, rfl⟩)
    refine ⟨b, ⟨hb, hid⟩, ?_⟩
    rintro b' ⟨hb', hid'⟩
    exact eq_of_distinct hb' hb (hid'.trans hid.symm)
  source e he := by
    obtain ⟨d, hd, hid⟩ := h.source e.eventId (hasEvent_iff.mpr ⟨e, he, rfl⟩)
    have hkind : d.ownerKind = .ingress :=
      (Prod.ext_iff.mp (Prod.ext_iff.mp (h.source_key d hd)).2).1
    refine ⟨d, ⟨hd, hid, hkind, h.unreleased d hd⟩, ?_⟩
    rintro d' ⟨hd', hid', -, -⟩
    refine Storage.eq_of_key s.db.dependencies hd' hd ?_
    have hkey : d'.key = d.key := by
      rw [h.source_key d' hd', h.source_key d hd, hid', hid]
    exact hkey
  quota := h.quota
  counted_once := by
    rw [nodup_iff_pairwise_ne, pairwise_map]
    refine s.blobs.apart.imp_of_mem ?_
    intro b b' hb hb' hclash hdata
    refine of_decide_eq_false hclash ?_
    rw [(h.measured b hb).1, (h.measured b' hb').1, hdata]
  measured := h.measured

theorem admissionInv_empty (Q : ℕ) : AdmissionInv Q ContentStore.empty := by
  refine ⟨?_, ?_, ?_, ?_, ?_, ?_, ?_, ?_, Nat.zero_le Q, ?_⟩
  all_goals first
    | exact fun _ h => absurd h not_mem_nil
    | exact fun _ h => absurd h Bool.false_ne_true

theorem AdmissionInv.known_stored {Q : ℕ} (h : AdmissionInv Q s) {known : String}
    (hk : c.knownEvent s.db = some known) :
    s.db.hasEvent known = true := by
  unfold AdmitCall.knownEvent Db.knownEvent at hk
  split at hk
  · rename_i r hr
    obtain ⟨n, hn, -, rfl⟩ := eventOf_some (k := r.identity) hk
    exact h.identity_stored n hn
  · split at hk
    · rename_i hstored
      cases hk
      exact hstored
    · cases hk

section Step

variable {Q : ℕ} {s s' : ContentStore} {c : AdmitCall} {e' : CanonicalEvent}

theorem Admits.hasEvent_iff (h : Admits c e' s s') :
    s'.db.hasEvent e = true ↔ s.db.hasEvent e = true ∨ e = c.event.eventId := by
  have hrow : (e'.row (nowIso c.now)).eventId = c.event.eventId := h.id_eq
  rw [Storage.hasEvent_iff, Storage.hasEvent_iff, h.events]
  constructor
  · rintro ⟨row, hmem, rfl⟩
    rcases mem_append.mp hmem with hmem | hmem
    · exact .inl ⟨row, hmem, rfl⟩
    · rw [mem_singleton.mp hmem]
      exact .inr hrow
  · rintro (⟨row, hmem, rfl⟩ | rfl)
    · exact ⟨row, mem_append_left _ hmem, rfl⟩
    · exact ⟨_, mem_append_right _ (mem_singleton.mpr rfl), hrow⟩

theorem Admits.id_ne (h : Admits c e' s s') (he : s.db.hasEvent e = true) :
    e ≠ c.event.eventId := by
  rintro rfl
  rw [h.fresh] at he
  cases he

theorem Attaches.blobs_cases (h : Attaches c e' s s') :
    s'.blobs = s.blobs ∨ ∃ b : AttachmentBlob, s'.blobs.rows = s.blobs.rows ++ [b] ∧
      c.attachment = some ⟨b.data⟩ ∧ b.contentRef = contentRefOf b.data ∧
      b.sizeBytes = b.data.length ∧ s.retainedBytes + b.sizeBytes ≤ c.limits.maxRetainedBytes := by
  cases h with
  | nothing hc hblobs hassoc => exact .inl hblobs
  | unavailable hc hd he hblobs hassoc => exact .inl hblobs
  | shared hc hd he hblobs hassoc hstored => exact .inl hblobs
  | stored hc hd he href hsize hdata hblobs hassoc hnew hfits =>
    refine .inr ⟨_, hblobs, ?_, ?_, ?_, ?_⟩
    · rw [hdata]
      exact hc
    · rw [hdata]
      exact href
    · rw [hdata]
      exact hsize
    · rw [hsize]
      exact hfits

theorem Attaches.associations_cases (h : Attaches c e' s s') :
    s'.associations = s.associations ∨ ∃ a : AttachmentAssociation,
      s'.associations.rows = s.associations.rows ++ [a] ∧ a.eventId = c.event.eventId := by
  cases h with
  | nothing hc hblobs hassoc => exact .inl hassoc
  | unavailable hc hd he hblobs hassoc => exact .inl hassoc
  | shared hc hd he hblobs hassoc hstored => exact .inr ⟨_, hassoc, rfl⟩
  | stored hc hd he href hsize hdata hblobs hassoc hnew hfits => exact .inr ⟨_, hassoc, rfl⟩

theorem Attaches.blob_mem (h : Attaches c e' s s') (hb : b ∈ s.blobs.rows) : b ∈ s'.blobs.rows := by
  rcases h.blobs_cases with hsame | ⟨b', hrows, -⟩
  · rw [hsame]
    exact hb
  · rw [hrows]
    exact mem_append_left _ hb

theorem Attaches.association_iff (h : Attaches c e' s s') (hne : a.eventId ≠ c.event.eventId) :
    a ∈ s'.associations.rows ↔ a ∈ s.associations.rows := by
  rcases h.associations_cases with hsame | ⟨a', hrows, hid⟩
  · rw [hsame]
  · rw [hrows, mem_append, mem_singleton]
    refine ⟨fun hmem => hmem.resolve_right ?_, .inl⟩
    rintro rfl
    exact hne hid

theorem Attaches.quota (h : Attaches c e' s s') (hs : s.retainedBytes ≤ Q)
    (hQ : c.attachment.isSome = true → c.limits.maxRetainedBytes = Q) : s'.retainedBytes ≤ Q := by
  rcases h.blobs_cases with hsame | ⟨b, hrows, hc, -, -, hfits⟩
  · rw [ContentStore.retainedBytes, hsame]
    exact hs
  · rw [ContentStore.retainedBytes, hrows, map_append, sum_append]
    rw [hQ (by rw [hc]; rfl)] at hfits
    exact hfits

theorem mem_append_one {ρ : Type} {rows : List ρ} {r x : ρ} (h : x ∈ rows ++ [r]) :
    x ∈ rows ∨ x = r := by
  simpa using h

theorem admissionInv_new (h : AdmissionInv Q s)
    (hQ : c.attachment.isSome = true → c.limits.maxRetainedBytes = Q)
    (hunknown : c.knownEvent s.db = none)
    (href : c.inboundRef.all (fun r => r.eventId = c.event.eventId) = true)
    (hadmits : Admits c e' s s') (hattaches : Attaches c e' s s') : AdmissionInv Q s' := by
  have hold : ∀ {e}, s.db.hasEvent e = true → s'.db.hasEvent e = true :=
    fun he => hadmits.hasEvent_iff.mpr (.inl he)
  have hnew : s'.db.hasEvent c.event.eventId = true := hadmits.hasEvent_iff.mpr (.inr rfl)
  have hrefs := hadmits.refs
  refine ⟨?_, ?_, ?_, ?_, ?_, ?_, ?_, ?_, hattaches.quota h.quota hQ, ?_⟩
  · -- the identity of the call resolved to nothing
    intro n hn m hm hid
    rw [hrefs, mem_append] at hn hm
    cases hr : c.inboundRef with
    | none =>
      simp only [hr, Option.map_none, Option.toList_none, not_mem_nil, or_false] at hn hm
      exact h.identity_unique n hn m hm hid
    | some r =>
      have hfree : ∀ n ∈ s.db.nativeRefs.rows, n.identity ≠ r.identity := by
        refine eventOf_none.mp ?_
        rw [AdmitCall.knownEvent, hr] at hunknown
        exact hunknown
      simp only [hr, Option.map_some, Option.toList_some, mem_singleton] at hn hm
      rcases hn with hn | rfl
      · rcases hm with hm | rfl
        · exact h.identity_unique n hn m hm hid
        · exact absurd hid (hfree n hn)
      · rcases hm with hm | rfl
        · exact absurd hid.symm (hfree m hm)
        · rfl
  · intro n hn
    rw [hrefs, mem_append] at hn
    rcases hn with hn | hn
    · exact hold (h.identity_stored n hn)
    · cases hr : c.inboundRef with
      | none =>
        rw [hr] at hn
        exact absurd hn not_mem_nil
      | some r =>
        rw [hr] at hn href
        rw [mem_singleton.mp hn, NativeMessageRef.row_eventId,
          of_decide_eq_true (show decide (r.eventId = c.event.eventId) = true from href)]
        exact hnew
  · intro e he
    rw [hadmits.work]
    rcases hadmits.hasEvent_iff.mp he with he | rfl
    · obtain ⟨w, hw, hid⟩ := h.work e he
      exact ⟨w, mem_append_left _ hw, hid⟩
    · exact ⟨_, mem_append_right _ (mem_singleton.mpr rfl), rfl⟩
  · intro e he
    obtain ⟨b, hb, hrows⟩ := hadmits.body
    rw [hrows]
    rcases hadmits.hasEvent_iff.mp he with he | rfl
    · obtain ⟨b', hb', hid⟩ := h.body e he
      exact ⟨b', mem_append_left _ hb', hid⟩
    · exact ⟨b, mem_append_right _ (mem_singleton.mpr rfl), hb⟩
  · intro e he
    obtain ⟨limit, hrows⟩ := hadmits.source
    rw [hrows]
    rcases hadmits.hasEvent_iff.mp he with he | rfl
    · obtain ⟨d, hd, hid⟩ := h.source e he
      exact ⟨d, mem_append_left _ hd, hid⟩
    · exact ⟨_, mem_append_right _ (mem_singleton.mpr rfl), rfl⟩
  · intro d hd
    obtain ⟨limit, hrows⟩ := hadmits.source
    rw [hrows] at hd
    rcases mem_append_one hd with hd | rfl
    · exact h.source_key d hd
    · rfl
  · intro d hd
    obtain ⟨limit, hrows⟩ := hadmits.source
    rw [hrows] at hd
    rcases mem_append_one hd with hd | rfl
    · exact h.unreleased d hd
    · rfl
  · intro a ha
    by_cases hid : a.eventId = c.event.eventId
    · rw [hid]
      exact hnew
    · exact hold (h.association_stored a ((hattaches.association_iff hid).mp ha))
  · intro b hb
    rcases hattaches.blobs_cases with hsame | ⟨b', hrows, -, hcontent, hsize, -⟩
    · rw [hsame] at hb
      exact h.measured b hb
    · rw [hrows] at hb
      rcases mem_append_one hb with hb | rfl
      · exact h.measured b hb
      · exact ⟨hcontent, hsize⟩

end Step

theorem admissionInv_step {Q : ℕ} (h : AdmissionInv Q s)
    (hQ : c.attachment.isSome = true → c.limits.maxRetainedBytes = Q) :
    AdmissionInv Q (admitStep s c).1 := by
  rcases admitStep_cases s c with ⟨err, heq⟩ | ⟨r, s', heq, hcases⟩
  · rw [heq]
    exact h
  · rw [heq]
    rcases hcases with ⟨known, hk, -, -, -, -, hsame⟩ | ⟨hnone, -, -, href, e', hadmits, hattaches⟩
    · rw [hsame (h.work known (h.known_stored hk))]
      exact h
    · exact admissionInv_new h hQ hnone href hadmits hattaches

/-! ## What an answered call leaves behind -/

/-- The bytes `data` of the event `e` are associated with it exactly when its stored descriptor
says so, and then by their digest. -/
structure ContentKept (s : ContentStore) (e : String) (data : List UInt8) : Prop where
  descriptor : ∃ d, s.db.storedDescriptor e = .ok (some d) ∧
    (d.retained = true ↔ ∃ a ∈ s.associations.rows, a.eventId = e)
  association : ∀ a ∈ s.associations.rows, a.eventId = e →
    a.contentRef = contentRefOf data ∧ ∃ b ∈ s.blobs.rows, b.contentRef = contentRefOf data

/-- What an answered call has left behind. -/
structure CallKept (s : ContentStore) (c : AdmitCall) (r : ContentAdmission) : Prop where
  stored : s.db.hasEvent r.eventId = true
  identity : ∀ ref, c.inboundRef = some ref → s.db.eventOf ref.identity = some r.eventId
  content : ∀ content, r.created = true → c.attachment = some content →
    ContentKept s r.eventId content.data

structure CallsKept (h : List (AdmitCall × Except Err ContentAdmission)) (s : ContentStore) :
    Prop where
  answered : ∀ c r, (c, .ok r) ∈ h → CallKept s c r
  supplied : ∀ b ∈ s.blobs.rows, ∃ c ans, (c, ans) ∈ h ∧ c.attachment = some ⟨b.data⟩

section History

variable {Q : ℕ} {s s' : ContentStore} {c : AdmitCall} {e' : CanonicalEvent}

theorem Admits.storedDescriptor_old (h : Admits c e' s s') (he : s.db.hasEvent e = true) :
    s'.db.storedDescriptor e = s.db.storedDescriptor e := by
  obtain ⟨row, hrow, hid⟩ := Storage.hasEvent_iff.mp he
  unfold Db.storedDescriptor
  rw [h.events, find?_append]
  cases hfind : s.db.events.rows.find? fun r => r.eventId = e with
  | none => exact absurd (decide_eq_true hid) (find?_eq_none.mp hfind row hrow)
  | some r => rfl

theorem Admits.storedDescriptor_new (h : Admits c e' s s') (hd : Describes c.event e' d) :
    s'.db.storedDescriptor c.event.eventId = .ok (some d) := by
  have hnone : (s.db.events.rows.find? fun r => r.eventId = c.event.eventId) = none := by
    refine find?_eq_none.mpr fun row hrow hid => ?_
    exact h.id_ne (Storage.hasEvent_iff.mpr ⟨row, hrow, of_decide_eq_true hid⟩) rfl
  have hrow : (e'.row (nowIso c.now)).eventId = c.event.eventId := h.id_eq
  unfold Db.storedDescriptor
  rw [h.events, find?_append, hnone, Option.none_or, find?_cons, decide_eq_true hrow]
  exact hd.descriptor

theorem ContentKept.admits {data : List UInt8} (h : ContentKept s e data)
    (he : s.db.hasEvent e = true) (hadmits : Admits c e' s s') (hattaches : Attaches c e' s s') :
    ContentKept s' e data := by
  have hne := hadmits.id_ne he
  have hsame : ∀ a : AttachmentAssociation, a.eventId = e →
      (a ∈ s'.associations.rows ↔ a ∈ s.associations.rows) :=
    fun a ha => hattaches.association_iff (ha ▸ hne)
  obtain ⟨⟨d, hd, hiff⟩, hassoc⟩ := h
  refine ⟨⟨d, (hadmits.storedDescriptor_old he).trans hd, hiff.trans ?_⟩, ?_⟩
  · constructor
    · rintro ⟨a, ha, hid⟩
      exact ⟨a, (hsame a hid).mpr ha, hid⟩
    · rintro ⟨a, ha, hid⟩
      exact ⟨a, (hsame a hid).mp ha, hid⟩
  · intro a ha hid
    obtain ⟨href, b, hb, hbref⟩ := hassoc a ((hsame a hid).mp ha) hid
    exact ⟨href, b, hattaches.blob_mem hb, hbref⟩

theorem contentKept_new (h : AdmissionInv Q s) (hadmits : Admits c e' s s')
    (hattaches : Attaches c e' s s') (hc : c.attachment = some content) :
    ContentKept s' c.event.eventId content.data := by
  have hfree : ∀ a ∈ s.associations.rows, a.eventId ≠ c.event.eventId :=
    fun a ha => hadmits.id_ne (h.association_stored a ha)
  have hretained : ∀ {d : AttachmentDescriptor} {at' : String}, d.retained = true →
      Describes c.event e' d → s'.associations.rows = s.associations.rows ++
        [⟨c.event.eventId, contentRefOf content.data, at'⟩] →
      (∃ b ∈ s'.blobs.rows, b.contentRef = contentRefOf content.data) →
      ContentKept s' c.event.eventId content.data := by
    intro d at' hd he hassoc hblob
    refine ⟨⟨_, hadmits.storedDescriptor_new he, ?_⟩, ?_⟩
    · rw [hd, hassoc]
      exact ⟨fun _ => ⟨_, mem_append_right _ (mem_singleton.mpr rfl), rfl⟩, fun _ => rfl⟩
    · intro a ha hid
      rw [hassoc] at ha
      rcases mem_append_one ha with ha | rfl
      · exact absurd hid (hfree a ha)
      · exact ⟨rfl, hblob⟩
  cases hattaches with
  | nothing hnone hblobs hassoc =>
    rw [hnone] at hc
    cases hc
  | unavailable hsome hd he hblobs hassoc =>
    refine ⟨⟨_, hadmits.storedDescriptor_new he, ?_⟩, ?_⟩
    · rw [hd, hassoc]
      exact ⟨nofun, fun ⟨a, ha, hid⟩ => absurd hid (hfree a ha)⟩
    · intro a ha hid
      rw [hassoc] at ha
      exact absurd hid (hfree a ha)
  | shared hsome hd he hblobs hassoc hstored =>
    cases hsome.symm.trans hc
    exact hretained hd he hassoc (hblobs ▸ hstored)
  | stored hsome hd he href hsize hdata hblobs hassoc hnew hfits =>
    cases hsome.symm.trans hc
    refine hretained hd he hassoc ⟨_, ?_, href⟩
    rw [hblobs]
    exact mem_append_right _ (mem_singleton.mpr rfl)

theorem Admits.eventOf_new (h : Admits c e' s s') (hinv : AdmissionInv Q s')
    (href : c.inboundRef.all (fun r => r.eventId = c.event.eventId) = true)
    {ref : NativeMessageRef} (hr : c.inboundRef = some ref) :
    s'.db.eventOf ref.identity = some c.event.eventId := by
  have hagree : RefsAgree s'.db := by
    intro n hn m hm hid
    rw [hinv.identity_unique n hn m hm hid]
  have hmem : ref.row ∈ s'.db.nativeRefs.rows := by
    rw [h.refs, hr]
    exact mem_append_right _ (mem_singleton.mpr rfl)
  rw [hr] at href
  rw [← ref.row_identity, hagree.eventOf hmem, NativeMessageRef.row_eventId,
    of_decide_eq_true (show decide (ref.eventId = c.event.eventId) = true from href)]

theorem Admits.eventOf_old (h : Admits c e' s s') {k : String × Option String × String}
    (hk : s.db.eventOf k = some e) : s'.db.eventOf k = some e := by
  rw [eventOf_eq] at hk ⊢
  obtain ⟨n, hfind, rfl⟩ := Option.map_eq_some_iff.mp hk
  rw [h.refs, find?_append, hfind]
  rfl

theorem CallsKept.append {h : List (AdmitCall × Except Err ContentAdmission)}
    {ans : Except Err ContentAdmission} (hkept : CallsKept h s)
    (hold : ∀ c r, CallKept s c r → CallKept s' c r) (hnew : ∀ r, ans = .ok r → CallKept s' c r)
    (hblobs : ∀ b ∈ s'.blobs.rows, b ∈ s.blobs.rows ∨ c.attachment = some ⟨b.data⟩) :
    CallsKept (h ++ [(c, ans)]) s' := by
  refine ⟨fun c' r hmem => ?_, fun b hb => ?_⟩
  · rcases mem_append_one hmem with hmem | hmem
    · exact hold c' r (hkept.answered c' r hmem)
    · cases hmem
      exact hnew r rfl
  · rcases hblobs b hb with hb | hc
    · obtain ⟨c', ans', hmem, hc'⟩ := hkept.supplied b hb
      exact ⟨c', ans', mem_append_left _ hmem, hc'⟩
    · exact ⟨c, ans, mem_append_right _ (mem_singleton.mpr rfl), hc⟩

theorem CallsKept.snoc {h : List (AdmitCall × Except Err ContentAdmission)} (hkept : CallsKept h s)
    (hinv : AdmissionInv Q s) (hQ : c.attachment.isSome = true → c.limits.maxRetainedBytes = Q) :
    CallsKept (h ++ [(c, (admitStep s c).2)]) (admitStep s c).1 := by
  have hinv' := admissionInv_step hinv hQ
  rcases admitStep_cases s c with ⟨err, heq⟩ | ⟨r, s', heq, hcases⟩
  · -- a call that raised has left nothing
    rw [heq]
    exact hkept.append (fun _ _ h => h) (fun _ herr => by cases herr) fun _ => .inl
  · rw [heq] at hinv' ⊢
    rcases hcases with ⟨known, hk, hid, hcreated, hblobs, hassoc, hsame⟩ |
      ⟨hnone, hid, hcreated, href, e', hadmits, hattaches⟩
    · have hstored := hinv.known_stored hk
      obtain rfl := hsame (hinv.work known hstored)
      refine hkept.append (fun _ _ h => h) ?_ fun _ => .inl
      rintro _ ⟨⟩
      refine ⟨hid ▸ hstored, fun ref hr => ?_, fun content hcreated' => ?_⟩
      · rw [AdmitCall.knownEvent, hr] at hk
        rw [hid]
        exact hk
      · rw [hcreated] at hcreated'
        cases hcreated'
    · refine hkept.append (fun c' r' hold => ?_) ?_ fun b hb => ?_
      · exact ⟨hadmits.hasEvent_iff.mpr (.inl hold.stored),
          fun ref hr => hadmits.eventOf_old (hold.identity ref hr),
          fun content hnew hc' => (hold.content content hnew hc').admits hold.stored hadmits
            hattaches⟩
      · rintro _ ⟨⟩
        refine ⟨hadmits.hasEvent_iff.mpr (.inr hid), fun ref hr => ?_, fun content _ hc' => ?_⟩
        · rw [hid]
          exact hadmits.eventOf_new hinv' href hr
        · rw [hid]
          exact contentKept_new hinv hadmits hattaches hc'
      · rcases hattaches.blobs_cases with hsame | ⟨b', hrows, hc', -⟩
        · exact .inl (hsame ▸ hb)
        · rw [hrows] at hb
          rcases mem_append_one hb with hb | rfl
          · exact .inl hb
          · exact .inr hc'

end History

theorem callsKept_nil : CallsKept [] ContentStore.empty where
  answered _ _ h := absurd h not_mem_nil
  supplied _ h := absurd h not_mem_nil

/-- The invariant and the history together, along every list of calls. -/
theorem admissions_kept (Q : ℕ) (calls : List AdmitCall)
    (hQ : ∀ c ∈ calls, c.attachment.isSome = true → c.limits.maxRetainedBytes = Q) :
    AdmissionInv Q (contentAfter calls) ∧
      CallsKept (trace admitStep ContentStore.empty calls) (contentAfter calls) := by
  have hboth : (∀ p ∈ trace admitStep ContentStore.empty calls,
      p.1.attachment.isSome = true → p.1.limits.maxRetainedBytes = Q) →
      AdmissionInv Q (contentAfter calls) ∧
        CallsKept (trace admitStep ContentStore.empty calls) (contentAfter calls) := by
    refine run_history (I := fun h s => (∀ p ∈ h, p.1.attachment.isSome = true →
      p.1.limits.maxRetainedBytes = Q) → AdmissionInv Q s ∧ CallsKept h s) ?_ ?_ calls
    · intro _
      exact ⟨admissionInv_empty Q, callsKept_nil⟩
    · intro h s c ih hquota
      obtain ⟨hinv, hkept⟩ := ih fun p hp => hquota p (mem_append_left _ hp)
      have hc := hquota _ (mem_append_right _ (mem_singleton.mpr rfl))
      exact ⟨admissionInv_step hinv hc, hkept.snoc hinv hc⟩
  refine hboth ?_
  rintro ⟨c, ans⟩ hmem
  obtain ⟨pre, post, heq, -⟩ := mem_trace admitStep hmem
  exact hQ c (heq ▸ mem_append_right _ mem_cons_self)

/-- No other content of the calls has the digest of `data`. -/
def NoCollision (calls : List AdmitCall) (data : List UInt8) : Prop :=
  ∀ c ∈ calls, ∀ content, c.attachment = some content →
    Sha256.hexdigest content.data = Sha256.hexdigest data → content.data = data

/-- Admissions are idempotent and complete: the store stays well-formed, a call that raises or
finds its identity changes nothing, and an answered call has its identity, and its bytes if it was
new, for good. -/
theorem admission_idempotent_complete (Q : ℕ) (calls : List AdmitCall)
    (hQ : ∀ c ∈ calls, c.attachment.isSome = true → c.limits.maxRetainedBytes = Q) :
    AdmissionComplete Q (contentAfter calls) ∧
      ∀ before c after, calls = before ++ c :: after →
        (∀ err, (admitStep (contentAfter before) c).2 = .error err →
          (admitStep (contentAfter before) c).1 = contentAfter before) ∧
        ∀ r, (admitStep (contentAfter before) c).2 = .ok r →
          (∀ known, c.knownEvent (contentAfter before).db = some known →
            (admitStep (contentAfter before) c).1 = contentAfter before ∧ r.eventId = known ∧
              r.created = false) ∧
          (c.knownEvent (contentAfter before).db = none →
            r.eventId = c.event.eventId ∧ r.created = true) ∧
          (contentAfter calls).db.hasEvent r.eventId = true ∧
          (∀ ref, c.inboundRef = some ref →
            (contentAfter calls).db.eventOf ref.identity = some r.eventId) ∧
          ∀ content, r.created = true → c.attachment = some content →
            ContentKept (contentAfter calls) r.eventId content.data ∧
            (NoCollision calls content.data →
              ∀ b ∈ (contentAfter calls).blobs.rows,
                b.contentRef = contentRefOf content.data →
                  b.data = content.data ∧ b.sizeBytes = content.data.length) := by
  obtain ⟨hinv, hkept⟩ := admissions_kept Q calls hQ
  refine ⟨hinv.complete, ?_⟩
  rintro before c after rfl
  have hbefore := (admissions_kept Q before fun c' hc' =>
    hQ c' (mem_append_left _ hc')).1
  have hmem : (c, (admitStep (contentAfter before) c).2) ∈
      trace admitStep ContentStore.empty (before ++ c :: after) := by
    rw [trace_append]
    exact mem_append_right _ mem_cons_self
  constructor
  · intro err herr
    rcases admitStep_cases (contentAfter before) c with ⟨err', heq⟩ | ⟨r, s', heq, -⟩
    · rw [heq]
    · rw [heq] at herr
      cases herr
  · intro r hr
    rw [hr] at hmem
    have hcall := hkept.answered c r hmem
    refine ⟨?_, ?_, hcall.stored, hcall.identity, ?_⟩
    · intro known hk
      rcases admitStep_cases (contentAfter before) c with ⟨err', heq⟩ | ⟨r', s', heq, hcases⟩
      · rw [heq] at hr
        cases hr
      · rw [heq] at hr ⊢
        cases hr
        rcases hcases with ⟨known', hk', hid, hcreated, -, -, hsame⟩ | ⟨hnone, -⟩
        · cases hk.symm.trans hk'
          exact ⟨hsame (hbefore.work known (hbefore.known_stored hk)), hid, hcreated⟩
        · rw [hk] at hnone
          cases hnone
    · intro hnone
      rcases admitStep_cases (contentAfter before) c with ⟨err', heq⟩ | ⟨r', s', heq, hcases⟩
      · rw [heq] at hr
        cases hr
      · rw [heq] at hr
        cases hr
        rcases hcases with ⟨known', hk', -⟩ | ⟨-, hid, hcreated, -⟩
        · rw [hnone] at hk'
          cases hk'
        · exact ⟨hid, hcreated⟩
    · intro content hcreated hc
      refine ⟨hcall.content content hcreated hc, ?_⟩
      intro hfree b hb href
      -- the stored bytes were supplied by some call
      obtain ⟨c', ans, hmem', hc'⟩ := hkept.supplied b hb
      obtain ⟨pre, post, heq, -⟩ := mem_trace admitStep hmem'
      obtain ⟨hbref, hbsize⟩ := hinv.measured b hb
      have hdigest : Sha256.hexdigest b.data = Sha256.hexdigest content.data :=
        (contentRefOf_eq_iff).mp (hbref.symm.trans href)
      have hdata := hfree c' (heq ▸ mem_append_right _ mem_cons_self) _ hc' hdigest
      exact ⟨hdata, hdata ▸ hbsize⟩

namespace Sample

/-- A picture that comes with the message of `claimFor`. -/
def withPicture (eventId : String) (data : List UInt8) : AdmitCall :=
  { event := { event with eventId, payload := [("attachment", .obj [("kind", .str "image")])] }
    inboundRef := some (claimFor eventId), attachment := some ⟨data⟩
    attachmentLimits := some { maxAttachmentBytes := 2, maxRetainedBytes := 2 }, now := clock 0 }

def seenTwice : List AdmitCall := [withPicture "event" [7], withPicture "other" [7, 8]]

end Sample

open Sample in
/-- The first picture is admitted and kept; the second call finds its event. -/
theorem admission_idempotent_complete_seenTwice :
    AdmissionComplete 2 (contentAfter seenTwice) ∧
      ∃ r, (admitStep ContentStore.empty (withPicture "event" [7])).2 = .ok r ∧
        r.created = true ∧ ContentKept (contentAfter seenTwice) r.eventId [7] := by
  have hQ : ∀ c ∈ seenTwice, c.attachment.isSome = true → c.limits.maxRetainedBytes = 2 := by
    intro c hc _
    rcases mem_cons.mp hc with rfl | hc
    · rfl
    · rcases mem_cons.mp hc with rfl | hc
      · rfl
      · cases hc
  obtain ⟨hcomplete, hcalls⟩ := admission_idempotent_complete 2 seenTwice hQ
  have hcreated : ((admitStep ContentStore.empty (withPicture "event" [7])).2.toOption.map
      fun r => r.created) = some true := by
    decide +kernel
  cases hr : (admitStep ContentStore.empty (withPicture "event" [7])).2 with
  | error err =>
    rw [hr] at hcreated
    cases hcreated
  | ok r =>
    rw [hr] at hcreated
    obtain ⟨-, -, -, -, hcontent⟩ := (hcalls [] (withPicture "event" [7]) _ rfl).2 r hr
    exact ⟨hcomplete, r, rfl, Option.some.inj hcreated,
      (hcontent ⟨[7]⟩ (Option.some.inj hcreated) rfl).1⟩

end Medre.Storage
