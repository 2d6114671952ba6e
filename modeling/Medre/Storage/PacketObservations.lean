import Medre.Storage.StoreStep

/-! # Late radio acknowledgements

A packet observation is filed under the attempt that sent the packet. What attests a packet once
attests it in every later state. -/

namespace Medre.Storage

open List Medre.Framework Medre.Rendering Tx
open RadioAttemptProgress hiding bind

/-! ## The named part -/

/-- The observation names this part of this checkpoint. -/
def DeliveryObservation.Names (o : DeliveryObservation) (row : RadioRow)
    (part : RadioPartProgress) : Prop :=
  row.outboxId = o.outboxId ∧ row.attemptNumber = o.attemptNumber ∧ part ∈ row.parts ∧
    o.packetOrdinal.map Nat.cast = some part.ordinal

section Attested

variable {codec : HandoffCodec} {o o' : DeliveryObservation} {db : Db}

theorem provenBy_iff {saved : StoredRadioAttempt} {ordinal : ℕ} :
    o.provenBy codec saved ordinal = .ok true ↔
      ∃ part ∈ saved.progress.parts, part.ordinal = ordinal ∧
        ∃ e, codec.fromPart part saved.provenance = .ok e ∧
          e.origin = some ⟨saved.provenance.outboxId, saved.provenance.attemptNumber⟩ ∧
          e.nativeMessageId = o.adapterMessageId ∧ e.nativeChannelId = o.nativeChannelId := by
  unfold DeliveryObservation.provenBy
  constructor
  · intro h
    split at h
    · cases h
    rename_i part hpart
    split at h
    · cases h
    split at h
    · cases h
    rename_i e he
    rw [Option.ite_none_left_eq_some] at hpart
    have hord := contiguousFrom_ordinal saved.progress.contiguous hpart.2
    simp only [Except.ok.injEq, Bool.and_eq_true, decide_eq_true_eq] at h
    exact ⟨part, mem_of_getElem? hpart.2, by omega, e, he, h.1.1, h.1.2, h.2⟩
  · rintro ⟨part, hpart, hordinal, e, he, horigin, hmessage, hchannel⟩
    obtain ⟨i, hi⟩ := mem_iff_getElem?.mp hpart
    have hord := contiguousFrom_ordinal saved.progress.contiguous hi
    obtain rfl : ordinal = i + 1 := by omega
    rw [if_neg (Nat.succ_ne_zero i), Nat.add_sub_cancel, hi]
    dsimp only
    rw [if_neg (not_not.mpr (fromPart_iff.mp he).1), he]
    simp [horigin, hmessage, hchannel]

theorem Attests.named (h : Attests codec db o) :
    ∃ row ∈ db.radio.rows, ∃ part, o.Names row part ∧ part.state = .accepted ∧
      ∃ e, codec.fromPart part row.provenance = .ok e ∧
        e.origin = some ⟨row.provenance.outboxId, row.provenance.attemptNumber⟩ ∧
        e.nativeMessageId = o.adapterMessageId ∧ e.nativeChannelId = o.nativeChannelId := by
  obtain ⟨ordinal, row, saved, parent, hordinal, hrow, hid, hn, hsaved, -, -, hproven⟩ := h
  obtain ⟨hprov, hparts, -⟩ := decodeRow_ok hsaved
  obtain ⟨part, hpart, hord, e, he, hevidence⟩ := provenBy_iff.mp hproven
  rw [hprov] at he hevidence
  rw [hparts] at hpart
  exact ⟨row, hrow, part, ⟨hid, hn, hpart, by rw [hordinal, hord]; rfl⟩, (fromPart_iff.mp he).1, e,
    he, hevidence⟩

/-- What an observation says about its packet, whatever its own id and text. -/
def DeliveryObservation.packet (o : DeliveryObservation) :
    Option ℕ × (String × ℤ) × (String × String × String × Option String) ×
      Option String × Option String :=
  (o.packetOrdinal, (o.outboxId, o.attemptNumber),
    (o.eventId, o.deliveryPlanId, o.targetAdapter, o.targetChannel),
    o.adapterMessageId, o.nativeChannelId)

theorem Attests.of_packet (h : Attests codec db o) (hsame : o'.packet = o.packet) :
    Attests codec db o' := by
  simp only [DeliveryObservation.packet, Prod.mk.injEq] at hsame
  obtain ⟨hord, ⟨hid, hn⟩, ⟨hevent, hplan, hadapter, hchannel⟩, hmessage, hnative⟩ := hsame
  unfold Attests DeliveryObservation.sameParent DeliveryObservation.provenBy at h ⊢
  rw [hord, hid, hn, hevent, hplan, hadapter, hchannel, hmessage, hnative]
  exact h

end Attested

/-! ## Steps -/

section Steps

variable {x : Externals} {s : SqliteStore} {c : StoreCall} {codec : HandoffCodec}
  {o : DeliveryObservation} {db : Db}

theorem storeStep_delivery (x : Externals) (s : SqliteStore) (c : StoreCall) :
    (∃ op, c.Performs op ∧ (storeStep x s c).1.db = (step x s.db op).1) ∨
      ((storeStep x s c).1.db.radio = s.db.radio ∧ (storeStep x s c).1.db.outbox = s.db.outbox ∧
        (storeStep x s c).1.db.receipts = s.db.receipts) := by
  cases storeStep_effect x s c with
  | kept content _ _ =>
    rw [content]
    exact .inr ⟨rfl, rfl, rfl⟩
  | performed op h db _ _ => exact .inl ⟨op, h, db⟩
  | recorded row h =>
    exact .inr ⟨h.tables .radio (by decide), h.tables .outbox (by decide),
      h.tables .receipts (by decide)⟩
  | collected e decision h =>
    exact .inr ⟨h.tables .radio (by decide), h.tables .outbox (by decide),
      h.tables .receipts (by decide)⟩

theorem attests_step_op (x : Externals) (op : Op) (hdecodes : Decodes db) (h : Attests codec db o) :
    Attests codec (step x db op).1 o := by
  obtain ⟨ordinal, row, saved, parent, hordinal, hrow, hid, hn, hsaved, hparent, hsame,
    hproven⟩ := h
  obtain ⟨row', hrow', hid', hn', hprov', hfront⟩ := keeps_step x db op hrow
  obtain ⟨saved', hsaved'⟩ := decodes_step x db op hdecodes row' hrow'
  obtain ⟨hprov, hparts, -⟩ := decodeRow_ok hsaved
  obtain ⟨hprovenance, hparts', -⟩ := decodeRow_ok hsaved'
  have hkept : saved'.provenance = saved.provenance := by rw [hprovenance, hprov', hprov]
  have hproven' : o.provenBy codec saved' ordinal = .ok true := by
    obtain ⟨part, hpart, hord, e, he, hevidence⟩ := provenBy_iff.mp hproven
    refine provenBy_iff.mpr ⟨part, ?_, hord, e, by rw [hkept, he], by rw [hkept]; exact hevidence⟩
    have hfrontmem : part ∈ acceptedFront row.parts := by
      rw [← hparts]
      exact (mem_acceptedFront saved.ordered).mpr ⟨hpart, (fromPart_iff.mp he).1⟩
    rw [hparts']
    exact takeWhile_subset _ (hfront.subset hfrontmem)
  obtain ⟨hmem, hpid⟩ := (outboxRow?_eq_some_iff db o.outboxId parent).mp hparent
  obtain ⟨parent', hparent', hsame'⟩ : ∃ parent', (step x db op).1.outboxRow? o.outboxId =
      some parent' ∧ o.sameParent saved.provenance parent' = true := by
    cases step_outbox x db op with
    | rewritten f hf owned =>
      obtain ⟨hkey, hevent, hidentity, hchannel, -⟩ := hf.keys hmem
      refine ⟨f parent, (outboxRow?_eq_some_iff _ _ _).mpr ⟨?_, hkey.trans hpid⟩, ?_⟩
      · rw [hf.rows]
        exact mem_map_of_mem hmem
      · have hplan : (f parent).deliveryPlanId = parent.deliveryPlanId :=
          congrArg DeliveryIdentity.deliveryPlanId hidentity
        have hadapter : (f parent).targetAdapter = parent.targetAdapter :=
          congrArg DeliveryIdentity.targetAdapter hidentity
        unfold DeliveryObservation.sameParent at hsame ⊢
        rw [hevent, hplan, hadapter, hchannel]
        exact hsame
    | created row snapshot hc rows snapshots =>
      refine ⟨parent, (outboxRow?_eq_some_iff _ _ _).mpr ⟨?_, hpid⟩, hsame⟩
      rw [rows]
      exact mem_append_left _ hmem
  exact ⟨ordinal, row', saved', parent', hordinal, hrow', hid'.trans hid, hn'.trans hn, hsaved',
    hparent', by rw [hkept]; exact hsame', hproven'⟩

/-- What holds of the checkpoints of a reachable store. -/
structure RadioLedger (db : Db) : Prop where
  decodes : Decodes db
  store : RadioStore db

theorem radioLedger_step (h : RadioLedger s.db) : RadioLedger (storeStep x s c).1.db := by
  rcases storeStep_delivery x s c with ⟨op, -, hdb⟩ | ⟨hradio, houtbox, -⟩
  · rw [hdb]
    exact ⟨decodes_step x _ op h.decodes, radioStore_step x _ op h.store⟩
  · exact ⟨by rw [Decodes, hradio]; exact h.decodes,
      ⟨by rw [hradio]; exact h.store.own, by rw [hradio, houtbox]; exact h.store.parent⟩⟩

theorem attests_step (hledger : RadioLedger s.db) (h : Attests codec s.db o) :
    Attests codec (storeStep x s c).1.db o := by
  rcases storeStep_delivery x s c with ⟨op, -, hdb⟩ | ⟨hradio, houtbox, -⟩
  · rw [hdb]
    exact attests_step_op x op hledger.decodes h
  · rw [Attests, hradio, Db.outboxRow?, houtbox]
    exact h

theorem attests_run (hledger : RadioLedger s.db) (h : Attests codec s.db o)
    (calls : List StoreCall) : Attests codec (run (storeStep x) s calls).db o :=
  (run_invariant (I := fun s : SqliteStore => RadioLedger s.db ∧ Attests codec s.db o)
    (fun _ _ hs => ⟨radioLedger_step hs.1, attests_step hs.1 hs.2⟩) ⟨hledger, h⟩ calls).2

theorem continues_storeStep (hledger : RadioLedger s.db) {a : StoredRadioAttempt}
    (h : Continues x.handoffs s.db a) : Continues x.handoffs (storeStep x s c).1.db a := by
  rcases storeStep_delivery x s c with ⟨op, -, hdb⟩ | ⟨hradio, -, -⟩
  · rw [hdb]
    exact continues_step x _ op hledger.store h
  · rw [Continues, hradio]
    exact h

end Steps

/-! ## Whole runs -/

/-- The observation a call appends. -/
def StoreCall.observation? : StoreCall → Option DeliveryObservation
  | .appendDeliveryObservation o | .appendRadioPacketObservation o => some o
  | _ => none

def inserts (id : String) : StoreCall × Except Err StoreAnswer → Bool
  | (c, .ok (.flag true)) => c.observation?.any fun o => o.observationId = id
  | _ => false

def continued : StoreCall × Except Err StoreAnswer → Option StoredRadioAttempt
  | (.op op, .ok (.op a)) => resumed (op, .ok a)
  | _ => none

section Answers

variable {x : Externals} {s : SqliteStore} {o : DeliveryObservation}

theorem storeStep_op_answer {op : Op} {a : Answer} (h : (storeStep x s (.op op)).2 = .ok (.op a)) :
    step x s.db op = ((storeStep x s (.op op)).1.db, .ok a) := by
  have hrun : ((StoreCall.op op).exec x).run s = .ok (.op a, (storeStep x s (.op op)).1) :=
    run_of_commit h
  simp only [StoreCall.exec, run_bind, run_onContent, run_onDb, run_pure] at hrun
  obtain ⟨_, _, ⟨_, ⟨db', hexec, rfl⟩, rfl⟩, hb, hs⟩ := hrun
  cases hb
  rw [← hs]
  exact commit_ok hexec

theorem packet_inserted
    (h : (storeStep x s (.appendRadioPacketObservation o)).2 = .ok (.flag true)) :
    Attests x.handoffs s.db o ∧ ∃ row : ObservationRow, row.observationId = o.observationId ∧
      Records row s (storeStep x s (.appendRadioPacketObservation o)).1 := by
  obtain ⟨b, _, hrun, hpure⟩ := run_bind.mp (run_of_commit h)
  obtain ⟨hb, rfl⟩ := run_pure.mp hpure
  cases hb
  rcases run_appendRadioPacketObservation hrun with ⟨hno, -⟩ | ⟨-, hattests, hrecords⟩
  · cases hno
  · exact ⟨hattests, hrecords⟩

theorem observation_inserted
    (h : (storeStep x s (.appendDeliveryObservation o)).2 = .ok (.flag true)) :
    (∃ r ∈ s.db.outbox.rows, o.observes r = true) ∧
      ∃ row : ObservationRow, row.observationId = o.observationId ∧
        Records row s (storeStep x s (.appendDeliveryObservation o)).1 := by
  obtain ⟨b, _, hrun, hpure⟩ := run_bind.mp (run_of_commit h)
  obtain ⟨hb, rfl⟩ := run_pure.mp hpure
  cases hb
  rcases run_appendDeliveryObservation hrun with ⟨hno, -⟩ | ⟨-, r, hr, hobserves, hrecords⟩
  · cases hno
  · exact ⟨⟨r, hr, hobserves⟩, hrecords⟩

theorem records_of_inserts {id : String} {c : StoreCall}
    (h : inserts id (c, (storeStep x s c).2) = true) :
    ∃ row : ObservationRow, row.observationId = id ∧ Records row s (storeStep x s c).1 := by
  unfold inserts at h
  split at h
  · rename_i c' heq
    obtain ⟨rfl, hanswer⟩ := Prod.mk.inj heq
    cases c with
    | appendDeliveryObservation o =>
      obtain rfl : o.observationId = id := of_decide_eq_true h
      exact (observation_inserted hanswer).2
    | appendRadioPacketObservation o =>
      obtain rfl : o.observationId = id := of_decide_eq_true h
      exact (packet_inserted hanswer).2
    | _ => cases h
  · cases h

theorem observations_kept (x : Externals) (s : SqliteStore) (c : StoreCall) :
    s.observations.rows <+: (storeStep x s c).1.observations.rows := by
  cases storeStep_effect x s c with
  | kept _ h _ | performed _ _ _ h _ => exact ⟨[], by rw [h, append_nil]⟩
  | recorded row h => exact ⟨[row], h.observations.symm⟩
  | collected e decision h => exact ⟨[], by rw [h.observations, append_nil]⟩

end Answers

theorem insertions_counted (x : Externals) (id : String) (calls : List StoreCall) :
    (trace (storeStep x) .empty calls).countP (inserts id) ≤
      (storeAfter x calls).observations.rows.countP fun r => r.observationId = id := by
  refine run_history (I := fun h (s : SqliteStore) => h.countP (inserts id) ≤
    s.observations.rows.countP fun r => r.observationId = id) (Nat.zero_le _) ?_ calls
  intro h s c hle
  rw [countP_append, countP_singleton]
  by_cases hins : inserts id (c, (storeStep x s c).2) = true
  · obtain ⟨row, hrow, hrecords⟩ := records_of_inserts hins
    rw [if_pos hins, hrecords.observations, countP_append, countP_singleton,
      if_pos (decide_eq_true hrow)]
    exact Nat.add_le_add_right hle 1
  · rw [if_neg hins]
    exact hle.trans ((observations_kept x s c).sublist.countP_le)

/-- The packet observations a run inserted. -/
def Acknowledged (h : List (StoreCall × Except Err StoreAnswer)) (o : DeliveryObservation) : Prop :=
  (.appendRadioPacketObservation o, .ok (.flag true)) ∈ h

/-- Every inserted packet observation stays attested, and every continuation extends the
evidence of the attempts before it. -/
theorem acknowledgements_kept (x : Externals) (hlaw : x.handoffs.RoundTrips)
    (calls : List StoreCall) :
    RadioLedger (storeAfter x calls).db ∧
      (∀ o, Acknowledged (trace (storeStep x) .empty calls) o →
        Attests x.handoffs (storeAfter x calls).db o) ∧
      ∀ call ∈ trace (storeStep x) .empty calls, ∀ a, continued call = some a →
        Continues x.handoffs (storeAfter x calls).db a := by
  refine run_history (I := fun h (s : SqliteStore) => RadioLedger s.db ∧
    (∀ o, Acknowledged h o → Attests x.handoffs s.db o) ∧
    ∀ call ∈ h, ∀ a, continued call = some a → Continues x.handoffs s.db a)
    ⟨⟨fun _ h => absurd h not_mem_nil, radioStore_empty⟩,
      fun _ h => absurd h not_mem_nil, fun _ h => absurd h not_mem_nil⟩ ?_ calls
  rintro h s c ⟨hledger, hattested, hcontinued⟩
  refine ⟨radioLedger_step hledger, ?_, ?_⟩
  · intro o ho
    rcases mem_append.mp ho with ho | ho
    · exact attests_step hledger (hattested o ho)
    · obtain ⟨rfl, hanswer⟩ := Prod.mk.inj (mem_singleton.mp ho)
      exact attests_step hledger (packet_inserted hanswer.symm).1
  · intro call hcall a ha
    rcases mem_append.mp hcall with hcall | hcall
    · exact continues_storeStep hledger (hcontinued call hcall a ha)
    · rw [mem_singleton.mp hcall] at ha
      cases c with
      | op op =>
        unfold continued at ha
        split at ha
        · rename_i op' a' heq
          obtain ⟨hop, hanswer⟩ := Prod.mk.inj heq
          cases hop
          have hstep := storeStep_op_answer hanswer
          have hbound : Continues x.handoffs (step x s.db op).1 a :=
            continues_bound hlaw hledger.store (by rw [hstep]; exact ha)
          rw [hstep] at hbound
          exact hbound
        · cases ha
      | _ => cases ha

theorem Attests.evidence {codec : HandoffCodec} {db : Db} {o : DeliveryObservation}
    (h : Attests codec db o) (hledger : RadioLedger db) {row : RadioRow} {part : RadioPartProgress}
    (hrow : row ∈ db.radio.rows) (hnames : o.Names row part) :
    part.state = .accepted ∧ ∃ e, codec.fromPart part row.provenance = .ok e ∧
      e.origin = some ⟨o.outboxId, o.attemptNumber⟩ ∧
      o.packetOrdinal.map Nat.cast = some e.ordinal ∧
      e.nativeMessageId = o.adapterMessageId ∧ e.nativeChannelId = o.nativeChannelId := by
  obtain ⟨row', hrow', part', hnames', hstate, e, he, horigin, hids⟩ := h.named
  obtain rfl : row' = row := eq_of_key db.radio hrow' hrow
    (Prod.ext (hnames'.1.trans hnames.1.symm) (hnames'.2.1.trans hnames.2.1.symm))
  obtain ⟨saved, hsaved⟩ := hledger.decodes row' hrow
  have hparts := (decodeRow_ok hsaved).2.1
  have hordinal : part'.ordinal = part.ordinal :=
    Option.some.inj (hnames'.2.2.2.symm.trans hnames.2.2.2)
  obtain rfl : part' = part := eq_of_ordinal saved.progress (hparts ▸ hnames'.2.2.1)
    (hparts ▸ hnames.2.2.1) hordinal
  obtain ⟨hown, hattempt⟩ := hledger.store.own row' hrow
  obtain ⟨-, _, value, -, -, hvalue, rfl⟩ := fromPart_iff.mp he
  refine ⟨hstate, _, he, ?_, ?_, hids⟩
  · rw [horigin, hown, hattempt, hnames.1, hnames.2.1]
  · rw [hnames.2.2.2, ← hvalue]

/-- In every interleaving a packet observation is inserted only for an accepted part that is the
origin of its packet; all insertions for one packet name one part, also where later attempts
inherited it; what attests a packet once admits its observation under a fresh id in every later
state; an ordinary observation is inserted only at the effective generation of a row in flight; no
id is inserted twice; and the deliveries are left alone. -/
theorem acknowledgements_attach (x : Externals) (hlaw : x.handoffs.RoundTrips)
    (calls : List StoreCall) :
    (∀ o, Acknowledged (trace (storeStep x) .empty calls) o →
      Attests x.handoffs (storeAfter x calls).db o ∧
      ∃ row ∈ (storeAfter x calls).db.radio.rows, ∃ part, o.Names row part ∧
        part.state = .accepted ∧ ∃ e, x.handoffs.fromPart part row.provenance = .ok e ∧
          e.origin = some ⟨o.outboxId, o.attemptNumber⟩ ∧
          e.nativeMessageId = o.adapterMessageId ∧ e.nativeChannelId = o.nativeChannelId) ∧
    (∀ o o', Acknowledged (trace (storeStep x) .empty calls) o →
      Acknowledged (trace (storeStep x) .empty calls) o' →
      ∀ row ∈ (storeAfter x calls).db.radio.rows, ∀ row' ∈ (storeAfter x calls).db.radio.rows,
      ∀ part part', o.Names row part → o'.Names row' part' →
        x.handoffs.fromPart part row.provenance = x.handoffs.fromPart part' row'.provenance →
        o'.outboxId = o.outboxId ∧ o'.attemptNumber = o.attemptNumber ∧
          o'.packetOrdinal = o.packetOrdinal) ∧
    (∀ call ∈ trace (storeStep x) .empty calls, ∀ a, continued call = some a →
      ∃ new ∈ (storeAfter x calls).db.radio.rows, new.provenance = a.provenance ∧
        ∀ old ∈ (storeAfter x calls).db.radio.rows,
          old.provenance.identity = a.provenance.identity →
          old.attemptNumber < new.attemptNumber →
            x.handoffs.evidence old <+: x.handoffs.evidence new) ∧
    (∀ pre post, calls = pre ++ post → ∀ o o', Attests x.handoffs (storeAfter x pre).db o →
      o'.packet = o.packet →
      (∀ r ∈ (storeAfter x calls).observations.rows, r.observationId ≠ o'.observationId) →
        (storeStep x (storeAfter x calls) (.appendRadioPacketObservation o')).2 =
          .ok (.flag true)) ∧
    (∀ o, (storeStep x (storeAfter x calls) (.appendDeliveryObservation o)).2 = .ok (.flag true) →
      ∃ r ∈ (storeAfter x calls).db.outbox.rows, r.outboxId = o.outboxId ∧
        r.generation = o.attemptNumber ∧
        (r.status = .inProgress ∨ r.status = .queued ∨ r.status = .sent)) ∧
    (∀ id, (trace (storeStep x) .empty calls).countP (inserts id) ≤ 1) ∧
    ∀ c, c.observation? ≠ none →
      (storeStep x (storeAfter x calls) c).1.db.outbox = (storeAfter x calls).db.outbox ∧
      (storeStep x (storeAfter x calls) c).1.db.receipts = (storeAfter x calls).db.receipts ∧
      (storeStep x (storeAfter x calls) c).1.db.radio = (storeAfter x calls).db.radio := by
  obtain ⟨hledger, hattested, hcontinued⟩ := acknowledgements_kept x hlaw calls
  refine ⟨?_, ?_, ?_, ?_, ?_, ?_, ?_⟩
  · intro o ho
    obtain ⟨row, hrow, part, hnames, -⟩ := (hattested o ho).named
    obtain ⟨hstate, e, he, horigin, -, hids⟩ := (hattested o ho).evidence hledger hrow hnames
    exact ⟨hattested o ho, row, hrow, part, hnames, hstate, e, he, horigin, hids⟩
  · intro o o' ho ho' row hrow row' hrow' part part' hnames hnames' hsame
    obtain ⟨-, e, he, horigin, hord, -⟩ := (hattested o ho).evidence hledger hrow hnames
    obtain ⟨-, e', he', horigin', hord', -⟩ := (hattested o' ho').evidence hledger hrow' hnames'
    obtain rfl : e = e' := Except.ok.inj (he.symm.trans (hsame.trans he'))
    have hplace := RadioHandoffOrigin.mk.inj (Option.some.inj (horigin'.symm.trans horigin))
    refine ⟨hplace.1, hplace.2, Option.map_injective Nat.cast_injective (hord'.trans hord.symm)⟩
  · intro call hcall a ha
    obtain ⟨new, hnew, hprov, hextends⟩ := hcontinued call hcall a ha
    exact ⟨new, hnew, hprov, fun old hold hi hlt => (hextends old hold hi hlt).2⟩
  · rintro pre post rfl o o' ho hsame hfresh
    have hattests : Attests x.handoffs (storeAfter x (pre ++ post)).db o' := by
      rw [storeAfter, run_append]
      exact attests_run (acknowledgements_kept x hlaw pre).1 (ho.of_packet hsame) post
    obtain ⟨s', hs'⟩ := hattests.recorded hfresh
    have hexec : ((StoreCall.appendRadioPacketObservation o').exec x).run
        (storeAfter x (pre ++ post)) = .ok (.flag true, s') := run_bind.mpr ⟨true, s', hs', rfl⟩
    rw [storeStep, commit_ok hexec]
  · intro o ho
    obtain ⟨r, hr, hobserves⟩ := (observation_inserted ho).1
    simp only [DeliveryObservation.observes, Bool.and_eq_true, Bool.or_eq_true,
      decide_eq_true_eq] at hobserves
    obtain ⟨⟨⟨⟨⟨hid, -⟩, -⟩, -⟩, hgeneration⟩, hstatus⟩ := hobserves
    exact ⟨r, hr, hid, hgeneration.symm, by rwa [or_assoc] at hstatus⟩
  · intro id
    refine (insertions_counted x id calls).trans (Table.countP_le_one _ fun r r' hr hr' => ?_)
    exact decide_eq_true ((of_decide_eq_true hr).trans (of_decide_eq_true hr').symm)
  · intro c hc
    rcases storeStep_delivery x (storeAfter x calls) c with ⟨op, hop, -⟩ | ⟨hradio, houtbox, hrec⟩
    · cases c <;> first | exact absurd rfl hc | exact hop.elim
    · exact ⟨houtbox, hrec, hradio⟩

namespace Sample

/-- The receiver acknowledges the first part of the first attempt. -/
def lateAck : DeliveryObservation where
  observationId := "ack"
  eventId := "event"
  deliveryPlanId := "plan"
  targetAdapter := "radio"
  outboxId := "outbox"
  adapterMessageId := some "message"
  confirmationLevel := .endToEnd
  metadata := [("radio_packet", .obj [("ordinal", .number "1"),
    ("origin_attempt_number", .number "1"), ("origin_outbox_id", .str "outbox")])]
  observedAt := clock 9
  positive := le_refl 1
  named := by decide

theorem storeStep_op (s : SqliteStore) (op : Op) :
    (storeStep radioExternals s (.op op)).1 =
      { s with db := (step radioExternals s.db op).1 } := by
  rcases commit_cases (exec radioExternals op) s.db with ⟨a, db, hrun, hc⟩ | ⟨e, hc⟩
  · have hexec : ((StoreCall.op op).exec radioExternals).run s =
        .ok (.op a, { s with db }) := by
      simp only [StoreCall.exec, run_bind, run_onContent, run_onDb, run_pure]
      exact ⟨a, _, ⟨_, ⟨db, hrun, rfl⟩, rfl⟩, rfl, rfl⟩
    rw [storeStep, commit_ok hexec, step, hc]
  · rcases commit_cases ((StoreCall.op op).exec radioExternals) s with ⟨a, s', hrun, -⟩ | ⟨_, hc'⟩
    · simp only [StoreCall.exec, run_bind, run_onContent, run_onDb] at hrun
      obtain ⟨_, _, ⟨_, ⟨db, hexec, -⟩, -⟩, -⟩ := hrun
      rw [commit_ok hexec] at hc
      cases hc
    · rw [storeStep, hc', step, hc]

theorem storeAfter_ops (ops : List Op) :
    storeAfter radioExternals (ops.map .op) =
      { SqliteStore.empty with db := stateAfter radioExternals ops } := by
  induction ops using reverseRecOn with
  | nil => rfl
  | append_singleton ops op ih =>
    rw [map_append, map_singleton, storeAfter, run_snoc, ← storeAfter, ih, storeStep_op,
      stateAfter_snoc]

theorem Holds.attests {db : Db} {a : StoredRadioAttempt} (h : Holds db acceptedParts a) :
    Attests handoffs db lateAck := by
  obtain ⟨row, hrows, hdecoded, hid, hattempt⟩ := h.stored
  obtain ⟨parent, hparent, hsame⟩ : ∃ parent, db.outboxRow? "outbox" = some parent ∧
      lateAck.sameParent radioClaim parent = true := by
    rw [Db.outboxRow?, h.outbox]
    exact ⟨_, rfl, by decide⟩
  refine ⟨1, row, a, parent, by decide, hrows ▸ mem_singleton_self row, hid, hattempt, hdecoded,
    hparent, h.claim ▸ hsame, provenBy_iff.mpr ⟨_, h.parts ▸ mem_cons_self, rfl, _,
      h.claim ▸ fromPart_accepted, ?_, rfl, rfl⟩⟩
  rw [h.claim]
  rfl

end Sample

open Sample in
/-- The first attempt's packet is acknowledged after the second was resumed from it. -/
theorem acknowledgements_attach_late :
    ∃ (bound begun accepted resumed : StoredRadioAttempt) (ops : List Op),
      ops = created ++ [radioBound] ++ [beginFirst bound] ++ [observeFirst begun] ++ [reserved] ∧
      (step radioExternals (stateAfter radioExternals ops) (resumeFrom accepted)).2 =
        .ok (.radio (some resumed)) ∧
      let calls := (ops ++ [resumeFrom accepted]).map StoreCall.op
      (storeStep radioExternals (storeAfter radioExternals calls)
        (.appendRadioPacketObservation lateAck)).2 = .ok (.flag true) ∧
      ∃ row ∈ (storeAfter radioExternals
          (calls ++ [.appendRadioPacketObservation lateAck])).db.radio.rows, ∃ part,
        lateAck.Names row part ∧ part.state = .accepted ∧
        ∃ e, handoffs.fromPart part row.provenance = .ok e ∧ e.origin = some ⟨"outbox", 1⟩ := by
  obtain ⟨bound, begun, accepted, hholds⟩ := holds_accepted
  obtain ⟨resumed, -, hresumed⟩ := hholds.resumes
  refine ⟨bound, begun, accepted, resumed, _, rfl, by rw [stateAfter_snoc]; exact hresumed, ?_⟩
  generalize created ++ [radioBound] ++ [beginFirst bound] ++ [observeFirst begun] = earlier
    at hholds ⊢
  intro calls
  have hcalls : calls = earlier.map .op ++ [.op reserved, .op (resumeFrom accepted)] := by
    simp [calls]
  have hanswer := (acknowledgements_attach radioExternals handoffs_roundTrips calls).2.2.2.1
    _ _ hcalls lateAck lateAck (by rw [storeAfter_ops]; exact hholds.attests) rfl
    (by rw [storeAfter_ops]; exact fun r hr => absurd hr not_mem_nil)
  have hacknowledged : Acknowledged (trace (storeStep radioExternals) .empty
      (calls ++ [.appendRadioPacketObservation lateAck])) lateAck := by
    rw [Acknowledged, trace_snoc, mem_append, mem_singleton, ← hanswer]
    exact .inr rfl
  obtain ⟨-, row, hrow, part, hnames, hstate, e, he, horigin, -⟩ :=
    (acknowledgements_attach radioExternals handoffs_roundTrips _).1 lateAck hacknowledged
  exact ⟨hanswer, row, hrow, part, hnames, hstate, e, he, horigin⟩

end Medre.Storage
