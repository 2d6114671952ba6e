import Medre.Storage.AdmissionRuns
import Medre.Storage.RadioEvidence
import Medre.Storage.Retention

/-! # What one call does to the whole store

Admissions and delivery calls are steps of the delivery tables, attachment bytes aside. An
observation adds one row and its diagnostic, a collection deletes the texts of one event. -/

namespace Medre.Storage

open Medre.Framework Medre.Core Tx

/-! ## Admission with attachment bytes -/

/-- The events differ in the attachment descriptor of the payload at most. -/
structure SameText (e e' : CanonicalEvent) : Prop where
  rest : e' = { e with payload := e'.payload }
  fields : ∀ key, key ≠ attachmentPayloadKey →
    Json.fieldOf e'.payload key = Json.fieldOf e.payload key

theorem SameText.refl (e : CanonicalEvent) : SameText e e := ⟨rfl, fun _ _ => rfl⟩

theorem sameText_of_descriptor {e e' : CanonicalEvent} {d : AttachmentDescriptor}
    (h : eventWithAttachmentDescriptor e d = .ok e') : SameText e e' := by
  unfold eventWithAttachmentDescriptor at h
  split at h
  · cases h
  · cases h
    exact ⟨rfl, fun key hkey => Json.fieldOf_putField_ne hkey⟩

theorem sameText_of_plan {c : AdmitCall} {content : InboundAttachmentContent} {now : String}
    {p : AttachmentAdmissionPlan} (h : buildAttachmentPlan c.event content c.limits now = .ok p) :
    SameText c.event p.retainedEvent ∧ SameText c.event p.unavailableEvent := by
  unfold buildAttachmentPlan at h
  split at h
  · cases h
  · cases h
  · by_cases hsize : c.limits.maxAttachmentBytes < content.data.length
    · simp only [hsize, if_true] at h
      split at h
      · cases h
      · next unavailable hu =>
          cases h
          exact ⟨sameText_of_descriptor hu, sameText_of_descriptor hu⟩
    · simp only [hsize, if_false] at h
      split at h
      · cases h
      · next retained hr =>
          split at h
          · cases h
          · next quota hq =>
              cases h
              exact ⟨sameText_of_descriptor hr, sameText_of_descriptor hq⟩

theorem sameText_chosen {c : AdmitCall} {plan : Option AttachmentAdmissionPlan}
    (hplan : c.plan = .ok plan) (s : ContentStore) :
    SameText c.event (chosenEvent c.event (retention plan s)) := by
  unfold AdmitCall.plan at hplan
  cases hc : c.attachment with
  | none =>
    rw [hc] at hplan
    cases hplan
    exact .refl _
  | some content =>
    simp only [hc] at hplan
    cases hbuild : buildAttachmentPlan c.event content c.limits c.now.isoformatMicroseconds with
    | error err =>
      rw [hbuild] at hplan
      cases hplan
    | ok p =>
      rw [hbuild] at hplan
      cases hplan
      obtain ⟨hretained, hunavailable⟩ := sameText_of_plan hbuild
      show SameText _ (chosenEvent c.event (some (p, p.unavailable s)))
      cases p.unavailable s with
      | none => exact hretained
      | some reason => exact hunavailable

/-- On the delivery tables an admission with bytes is `admitIngress` of the event as it is kept. -/
theorem run_admitIngressContent {c : AdmitCall} {r : ContentAdmission} {s s' : ContentStore}
    (h : (admitIngressContent c).run s = .ok (r, s')) :
    ∃ e', SameText c.event e' ∧
      (admitIngress e' c.inboundRef c.provenance c.suppressRouting c.contentDeadline c.now).run
        s.db = .ok (r.toAdmissionResult, s'.db) := by
  simp only [admitIngressContent, run_bind, run_require, run_lift, run_query] at h
  obtain ⟨_, _, ⟨href, rfl⟩, limit, _, ⟨hlimit, rfl⟩, plan, _, ⟨hplan, rfl⟩, known, _,
    ⟨hknown, rfl⟩, hrest⟩ := h
  cases known with
  | some known =>
    refine ⟨c.event, .refl _, ?_⟩
    simp only [run_bind, run_query, run_pure, run_onDb] at hrest
    obtain ⟨result, _, ⟨db', hrun, rfl⟩, _, _, ⟨-, rfl⟩, rfl, rfl⟩ := hrest
    simp only [admitIngress, run_bind, run_require, run_lift, run_query]
    exact ⟨(), _, ⟨href, rfl⟩, limit, _, ⟨hlimit, rfl⟩, some known, _, ⟨hknown, rfl⟩, hrun⟩
  | none =>
    have hsame := sameText_chosen hplan s
    refine ⟨chosenEvent c.event (retention plan s), hsame, ?_⟩
    have hid : (chosenEvent c.event (retention plan s)).eventId = c.event.eventId := by
      rw [hsame.rest]
    simp only [run_bind, run_pure] at hrest
    obtain ⟨fact, _, hrun, rfl, rfl⟩ := hrest
    obtain ⟨-, hnew, -⟩ := run_admitNewContent hplan hrun
    simp only [admitIngress, run_bind, run_require, run_lift, run_query, hid]
    refine ⟨(), _, ⟨href, rfl⟩, limit, _, ⟨hlimit, rfl⟩, none, _, ⟨hknown, rfl⟩, ?_⟩
    simp only [run_bind, run_pure]
    exact ⟨(), _, hnew, rfl, rfl⟩

/-! ## Effects -/

/-- The call performs `op` on the delivery tables. -/
def StoreCall.Performs (op : Op) : StoreCall → Prop
  | .op o => op = o
  | .admitContent c => ∃ e, SameText c.event e ∧
      op = .admitIngress e c.inboundRef c.provenance c.suppressRouting c.contentDeadline c.now
  | _ => False

/-- One observation is added, with its diagnostic. -/
structure Records (row : ObservationRow) (s s' : SqliteStore) : Prop where
  observations : s'.observations.rows = s.observations.rows ++ [row]
  tables : ∀ t ≠ .diagnostics, s'.db.table t = s.db.table t
  log : s'.collectionLog = s.collectionLog

/-- The texts of an eligible event are deleted, with a receipt. -/
structure Collects (e : String) (c : CollectionState) (s s' : SqliteStore) : Prop where
  read : s.readCollectionState e = .ok c
  eligible : c.baseState = .eligible
  bodies : s'.db.bodyContent.rows = s.db.bodyContent.rows.filter fun b => !(b.eventId = e)
  relations : s'.db.relations.rows = s.db.relations.rows.map fun r =>
    if r.eventId = e then { r with excerpt := none } else r
  tables : ∀ t ∉ [TableName.bodyContent, .relations], s'.db.table t = s.db.table t
  log : ∃ now, s'.collectionLog.rows = s.collectionLog.rows ++ [⟨e, now, c.rows, c.logicalBytes⟩]
  observations : s'.observations = s.observations

/-- The change of one call. -/
inductive StoreEffect (x : Externals) (c : StoreCall) (s s' : SqliteStore) : Prop
  | kept (content : s'.toContentStore = s.toContentStore)
      (observations : s'.observations = s.observations) (log : s'.collectionLog = s.collectionLog)
  | performed (op : Op) (h : c.Performs op) (db : s'.db = (step x s.db op).1)
      (observations : s'.observations = s.observations) (log : s'.collectionLog = s.collectionLog)
  | recorded (row : ObservationRow) (h : Records row s s')
  | collected (e : String) (decision : CollectionState) (h : Collects e decision s s')

section Runs

variable {s s' : SqliteStore} {o : DeliveryObservation}

@[simp] theorem run_onContent {α : Type} {y : ContentTx α} {a : α} :
    (onContent y).run s = .ok (a, s') ↔
      ∃ c, y.run s.toContentStore = .ok (a, c) ∧ s' = { s with toContentStore := c } :=
  run_within

theorem run_observationDiagnostic {n : ℤ} {u : Unit} {db db' : Db}
    (h : (observationDiagnostic o n).run db = .ok (u, db')) :
    ∀ t ≠ .diagnostics, db'.table t = db.table t := by
  have hrun : Tx.Follows (offTables [.diagnostics]) (observationDiagnostic o n) := by
    unfold observationDiagnostic
    cases o.error with
    | none => exact .pure _
    | some text =>
      exact .ite (.pure _)
        ((footprint_rules [.diagnostics] fun _ => False).diagnostic (by decide) _)
  intro t ht
  exact hrun _ _ _ h t (by simpa using ht)

theorem run_insertObservation {row : ObservationRow} {b : Bool}
    (h : (insertObservation o row).run s = .ok (b, s')) :
    (b = false ∧ s' = s) ∨ (b = true ∧ Records row s s') := by
  simp only [insertObservation, run_bind, run_query] at h
  obtain ⟨_, _, ⟨rfl, rfl⟩, h⟩ := h
  cases hins : s.observations.insert row with
  | none =>
    rw [hins] at h
    obtain ⟨rfl, rfl⟩ := run_pure.mp h
    exact .inl ⟨rfl, rfl⟩
  | some t =>
    simp only [hins, run_bind, run_modify, run_onContent, run_onDb, run_pure] at h
    obtain ⟨_, _, rfl, _, _, ⟨_, ⟨db', hrun, rfl⟩, rfl⟩, rfl, rfl⟩ := h
    exact .inr ⟨rfl, Table.rows_insert hins, run_observationDiagnostic hrun, rfl⟩

theorem insertObservation_fresh {row : ObservationRow} (hpos : 0 ≤ row.attemptNumber)
    (hfresh : ∀ r ∈ s.observations.rows, r.observationId ≠ row.observationId) :
    ∃ s', (insertObservation o row).run s = .ok (true, s') := by
  obtain ⟨t, ht⟩ := Table.insert_some (t := s.observations) (r := row) rfl
    fun r hr => decide_eq_false (hfresh r hr)
  obtain ⟨db', hdb'⟩ : ∃ db', (observationDiagnostic o row.attemptNumber).run s.db =
      .ok ((), db') := by
    unfold observationDiagnostic
    cases o.error with
    | none => exact ⟨_, rfl⟩
    | some text =>
      dsimp only
      by_cases htext : text = ""
      · exact ⟨_, by rw [if_pos htext]; rfl⟩
      · obtain ⟨d, hd⟩ := Table.insert_some (t := s.db.diagnostics)
          (r := ⟨.observation, o.observationId, row.attemptNumber, .error, text,
            o.observedAt.isoformat⟩) (by simp [diagnosticConstraint, o.named.1, hpos])
          fun _ _ => rfl
        exact ⟨_, by rw [if_neg htext]; exact run_insertInto.mpr ⟨d, hd, rfl⟩⟩
  simp only [insertObservation, run_bind, run_query]
  refine ⟨{ s with db := db', observations := t }, _, _, ⟨rfl, rfl⟩, ?_⟩
  simp only [ht, run_bind, run_modify, run_onContent, run_onDb, run_pure]
  exact ⟨(), _, rfl, (), _, ⟨_, ⟨db', hdb', rfl⟩, rfl⟩, trivial, rfl⟩

theorem run_appendDeliveryObservation {b : Bool}
    (h : (appendDeliveryObservation o).run s = .ok (b, s')) :
    (b = false ∧ s' = s) ∨ (b = true ∧ ∃ r ∈ s.db.outbox.rows, o.observes r = true ∧
      ∃ row : ObservationRow, row.observationId = o.observationId ∧ Records row s s') := by
  simp only [appendDeliveryObservation, run_bind, run_query] at h
  obtain ⟨_, _, ⟨rfl, rfl⟩, h⟩ := h
  cases hfind : s.db.outbox.rows.find? o.observes with
  | none =>
    rw [hfind] at h
    obtain ⟨rfl, rfl⟩ := run_pure.mp h
    exact .inl ⟨rfl, rfl⟩
  | some r =>
    rw [hfind] at h
    rcases run_insertObservation h with hno | ⟨hb, hrecords⟩
    · exact .inl hno
    · exact .inr ⟨hb, r, List.mem_of_find?_eq_some hfind, List.find?_some hfind, _, rfl, hrecords⟩

/-- The packet is an accepted part of a checkpoint of the named attempt, its origin, of the same
delivery and under the same native ids. -/
def Attests (codec : HandoffCodec) (db : Db) (o : DeliveryObservation) : Prop :=
  ∃ ordinal row saved parent, o.packetOrdinal = some ordinal ∧ row ∈ db.radio.rows ∧
    row.outboxId = o.outboxId ∧ row.attemptNumber = o.attemptNumber ∧
    decodeRow row = .ok saved ∧ db.outboxRow? o.outboxId = some parent ∧
    o.sameParent saved.provenance parent = true ∧ o.provenBy codec saved ordinal = .ok true

theorem run_appendRadioPacketObservation {codec : HandoffCodec} {b : Bool}
    (h : (appendRadioPacketObservation codec o).run s = .ok (b, s')) :
    (b = false ∧ s' = s) ∨ (b = true ∧ Attests codec s.db o ∧
      ∃ row : ObservationRow, row.observationId = o.observationId ∧ Records row s s') := by
  unfold appendRadioPacketObservation at h
  cases hordinal : o.packetOrdinal with
  | none =>
    rw [hordinal] at h
    obtain ⟨rfl, rfl⟩ := run_pure.mp h
    exact .inl ⟨rfl, rfl⟩
  | some ordinal =>
    simp only [hordinal, run_bind, run_query] at h
    obtain ⟨_, _, ⟨rfl, rfl⟩, h⟩ := h
    split at h
    · obtain ⟨rfl, rfl⟩ := run_pure.mp h
      exact .inl ⟨rfl, rfl⟩
    rename_i row hrow
    simp only [run_bind, run_query, run_lift] at h
    obtain ⟨saved, _, ⟨hsaved, rfl⟩, _, _, ⟨rfl, rfl⟩, h⟩ := h
    split at h
    · obtain ⟨rfl, rfl⟩ := run_pure.mp h
      exact .inl ⟨rfl, rfl⟩
    rename_i parent hparent
    cases hsame : o.sameParent saved.provenance parent with
    | false =>
      rw [hsame] at h
      obtain ⟨rfl, rfl⟩ := run_pure.mp h
      exact .inl ⟨rfl, rfl⟩
    | true =>
      simp only [hsame, Bool.not_true, Bool.false_eq_true, if_false, run_bind, run_lift] at h
      obtain ⟨proven, _, ⟨hproven, rfl⟩, h⟩ := h
      cases proven with
      | false =>
        obtain ⟨rfl, rfl⟩ := run_pure.mp h
        exact .inl ⟨rfl, rfl⟩
      | true =>
        rcases run_insertObservation h with hno | ⟨hb, hrecords⟩
        · exact .inl hno
        have hkey := List.find?_some hrow
        simp only [Bool.and_eq_true, decide_eq_true_eq] at hkey
        exact .inr ⟨hb, ⟨ordinal, row, saved, parent, hordinal, List.mem_of_find?_eq_some hrow,
          hkey.1, hkey.2, hsaved, hparent, hsame, hproven⟩, _, rfl, hrecords⟩

theorem Attests.recorded {codec : HandoffCodec} (h : Attests codec s.db o)
    (hfresh : ∀ r ∈ s.observations.rows, r.observationId ≠ o.observationId) :
    ∃ s', (appendRadioPacketObservation codec o).run s = .ok (true, s') := by
  obtain ⟨ordinal, row, saved, parent, hordinal, hrow, hid, hn, hsaved, hparent, hsame,
    hproven⟩ := h
  obtain ⟨s', hs'⟩ := @insertObservation_fresh s o
    { observationId := o.observationId
      eventId := saved.provenance.eventId
      deliveryPlanId := saved.provenance.deliveryPlanId
      targetAdapter := saved.provenance.targetAdapter
      targetChannel := saved.provenance.targetChannel
      nativeChannelId := o.nativeChannelId
      outboxId := saved.provenance.outboxId
      attemptNumber := saved.provenance.attemptNumber
      adapterMessageId := o.adapterMessageId
      state := o.state
      confirmationLevel := o.confirmationLevel
      metadata := .obj o.metadata
      observedAt := o.observedAt.isoformat }
    (le_trans (by decide) saved.provenance.positive) hfresh
  refine ⟨s', ?_⟩
  simp only [appendRadioPacketObservation, hordinal, run_bind, run_query]
  refine ⟨_, _, ⟨rfl, rfl⟩, ?_⟩
  have hfind := radioRow?_of_mem hrow
  rw [hid, hn, Db.radioRow?] at hfind
  simp only [hfind, run_bind, run_query, run_lift]
  refine ⟨saved, _, ⟨hsaved, rfl⟩, _, _, ⟨rfl, rfl⟩, ?_⟩
  simp only [hparent, hsame, Bool.not_true, Bool.false_eq_true, if_false, run_bind, run_lift]
  exact ⟨true, _, ⟨hproven, rfl⟩, hs'⟩

theorem run_collectEventContent {e : String} {dryRun : Bool} {epoch : Option ℤ} {now : Datetime}
    {r : CollectionReport} (h : (collectEventContent e dryRun epoch now).run s = .ok (r, s')) :
    ∃ c, s.readCollectionState e = .ok c ∧
      (s' = s ∧ r = c.report e dryRun c.baseState.undone ∨
        dryRun = false ∧ Collects e c s s' ∧ r = c.report e dryRun .collected) := by
  simp only [collectEventContent, run_bind, run_require, run_query, run_lift] at h
  obtain ⟨_, _, ⟨-, rfl⟩, _, _, ⟨-, rfl⟩, _, _, ⟨rfl, rfl⟩, _, _, ⟨-, rfl⟩, c, _, ⟨hread, rfl⟩,
    h⟩ := h
  refine ⟨c, hread, ?_⟩
  by_cases hcond : (c.baseState = .eligible && !dryRun) = true
  · rw [if_pos hcond] at h
    simp only [Bool.and_eq_true, decide_eq_true_eq, Bool.not_eq_true'] at hcond
    simp only [removeContent, deleteExcerpts, deleteBodyContent, insertCollectionReceipt,
      run_bind, run_pure, run_onContent, run_onDb, run_modify, run_query,
      run_updateTable] at h
    obtain ⟨_, _, ⟨_, _, ⟨_, ⟨_, ⟨_, _, ⟨t, ht, -, rfl⟩, -, rfl⟩, rfl⟩, rfl⟩, _, _,
      ⟨_, ⟨_, rfl, rfl⟩, rfl⟩, _, _, ⟨rfl, rfl⟩, h⟩, rfl, rfl⟩ := h
    split at h
    · rename_i log hlog
      obtain rfl := run_modify.mp h
      refine .inr ⟨hcond.2, ⟨hread, hcond.1, rfl, ?_, ?_, ⟨_, Table.rows_insert hlog⟩, rfl⟩, rfl⟩
      · simpa using Table.rows_update ht
      · intro t ht
        cases t <;> first | rfl | exact absurd (by simp) ht
    · exact (run_raise.mp h).elim
  · rw [if_neg hcond] at h
    obtain ⟨rfl, rfl⟩ := run_pure.mp h
    exact .inl ⟨rfl, rfl⟩

end Runs

/-! ## The inversion -/

variable {x : Externals} {s : SqliteStore} {c : StoreCall}

theorem storeStep_cases {P : SqliteStore → Prop} (hs : P s)
    (hrun : ∀ a s', (c.exec x).run s = .ok (a, s') → P s') : P (storeStep x s c).1 := by
  rcases commit_cases (c.exec x) s with ⟨a, s', h, hc⟩ | ⟨e, hc⟩
  · rw [storeStep, hc]
    exact hrun a s' h
  · rw [storeStep, hc]
    exact hs

theorem step_of_exec {op : Op} {a : Answer} {db' : Db}
    (h : (exec x op).run s.db = .ok (a, db')) : db' = (step x s.db op).1 := by
  rw [step, commit_ok h]

theorem storeStep_effect (x : Externals) (s : SqliteStore) (c : StoreCall) :
    StoreEffect x c s (storeStep x s c).1 := by
  refine storeStep_cases (.kept rfl rfl rfl) fun a s' h => ?_
  cases c with
  | op o =>
    simp only [StoreCall.exec, run_bind, run_onContent, run_onDb, run_pure] at h
    obtain ⟨_, _, ⟨_, ⟨db', hrun, rfl⟩, rfl⟩, -, rfl⟩ := h
    exact .performed o rfl (step_of_exec hrun) rfl rfl
  | admitContent c =>
    simp only [StoreCall.exec, run_bind, run_onContent, run_pure] at h
    obtain ⟨r, _, ⟨_, hrun, rfl⟩, -, rfl⟩ := h
    obtain ⟨e, hsame, hadmit⟩ := run_admitIngressContent hrun
    refine .performed (.admitIngress e c.inboundRef c.provenance c.suppressRouting
      c.contentDeadline c.now) ⟨e, hsame, rfl⟩
      (step_of_exec (a := .admitted r.toAdmissionResult) ?_) rfl rfl
    exact run_bind.mpr ⟨_, _, hadmit, rfl⟩
  | appendDeliveryObservation o =>
    simp only [StoreCall.exec, run_bind, run_pure] at h
    obtain ⟨b, _, hrun, -, rfl⟩ := h
    rcases run_appendDeliveryObservation hrun with ⟨-, rfl⟩ | ⟨-, _, -, -, _, -, hrecords⟩
    · exact .kept rfl rfl rfl
    · exact .recorded _ hrecords
  | appendRadioPacketObservation o =>
    simp only [StoreCall.exec, run_bind, run_pure] at h
    obtain ⟨b, _, hrun, -, rfl⟩ := h
    rcases run_appendRadioPacketObservation hrun with ⟨-, rfl⟩ | ⟨-, -, _, -, hrecords⟩
    · exact .kept rfl rfl rfl
    · exact .recorded _ hrecords
  | collectEventContent e dryRun epoch now =>
    simp only [StoreCall.exec, run_bind, run_pure] at h
    obtain ⟨r, _, hrun, -, rfl⟩ := h
    obtain ⟨c, -, ⟨rfl, -⟩ | ⟨-, hcollects, -⟩⟩ := run_collectEventContent hrun
    · exact .kept rfl rfl rfl
    · exact .collected e c hcollects
  | openRetentionEpoch activatedBy now =>
    simp only [StoreCall.exec, openRetentionEpoch, run_bind, run_pure, run_lift, run_query] at h
    obtain ⟨_, _, ⟨_, _, ⟨-, rfl⟩, _, _, ⟨rfl, rfl⟩, h⟩, -, rfl⟩ := h
    split at h
    · obtain ⟨_, _, hmodify, hpure⟩ := run_bind.mp h
      obtain rfl := run_modify.mp hmodify
      obtain ⟨-, rfl⟩ := run_pure.mp hpure
      exact .kept rfl rfl rfl
    · obtain ⟨_, _, hraise, -⟩ := run_bind.mp h
      exact (run_raise.mp hraise).elim
  | observeRetentionHeartbeat epoch now =>
    simp only [StoreCall.exec, observeRetentionHeartbeat, run_bind, run_pure, run_lift,
      run_query, run_require] at h
    obtain ⟨_, _, ⟨_, _, ⟨-, rfl⟩, _, _, ⟨rfl, rfl⟩, _, _, ⟨-, rfl⟩, h⟩, -, rfl⟩ := h
    split at h
    · obtain rfl := run_modify.mp h
      exact .kept rfl rfl rfl
    · exact (run_raise.mp h).elim

end Medre.Storage
