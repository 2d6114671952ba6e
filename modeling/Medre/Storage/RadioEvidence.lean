import Medre.Storage.RadioGrants

/-! # Stored radio evidence

Every checkpoint decodes, since each write is the checkpoint of a checked snapshot. A row's
accepted parts are a front that only grows, and a continuation starts from the fronts of all
earlier attempts. -/

namespace Medre.Storage

open List Medre.Framework Medre.Rendering
open RadioAttemptProgress hiding bind

variable {latest result s saved : StoredRadioAttempt} {bound : RadioAttemptProgress}
  {part : RadioPartProgress} {provenance : DeliveryAttemptProvenance}
  {parts : List RadioPartProgress}

/-! ## Decoding -/

variable {row : RadioRow}

theorem decodeRow_checkpoint {now : String} (h : decodeRow row = .ok saved)
    (hprov : result.provenance = saved.provenance)
    (hreached : Reached saved.progress result.progress) :
    decodeRow (row.checkpoint result.progress.parts result.revision now) = .ok result := by
  obtain ⟨baseline, hbaseline, hunsent, ⟨hid, hattempt, hplan⟩, hprov', -, -⟩ := decodeRow_iff.mp h
  obtain ⟨hid', hattempt', hplan'⟩ := hreached.same
  exact decodeRow_iff.mpr ⟨baseline, hbaseline, hunsent,
    ⟨hid'.trans hid, hattempt'.trans hattempt, hplan'.trans hplan⟩, hprov.trans hprov', rfl, rfl⟩

theorem radioRow?_of_mem {db : Db} (h : row ∈ db.radio.rows) :
    db.radioRow? row.outboxId row.attemptNumber = some row := by
  refine find?_of_unique h (by simp) fun found hfound hkey => ?_
  simp only [Bool.and_eq_true, decide_eq_true_eq] at hkey
  exact eq_of_key db.radio hfound h (Prod.ext hkey.1 hkey.2)

theorem bind_unsent {outboxId : String} {attemptNumber : ℤ} {plan : RadioTextPlan}
    {r : RadioAttemptProgress} (h : RadioAttemptProgress.bind outboxId attemptNumber plan = .ok r) :
    ∀ p ∈ r.parts, p.state = .unsent := by
  rw [(make_ok h).2.2.2]
  intro p hp
  obtain ⟨q, -, rfl⟩ := mem_map.mp hp
  rfl

theorem DeliveryAttemptProvenance.outboxId_ne_empty (provenance : DeliveryAttemptProvenance) :
    provenance.outboxId ≠ "" := by
  intro hempty
  have hnamed := provenance.named.2.2.2
  rw [hempty] at hnamed
  exact hnamed rfl

section Bindings

variable {codec : HandoffCodec} {predecessor : Option StoredRadioAttempt} {db : Db}
  {history : List StoredRadioAttempt} {initial : RadioAttemptProgress} {row : RadioRow}
  {stored : StoredRadioAttempt}

theorem boundProgress_same
    (h : codec.boundProgress initial history predecessor = .ok (some bound)) :
    bound.outboxId = initial.outboxId ∧ bound.attemptNumber = initial.attemptNumber ∧
      bound.plan = initial.plan := by
  rcases boundProgress_inv h with ⟨-, rfl, -⟩ | ⟨latest, -, -, hbound⟩
  · exact ⟨rfl, rfl, rfl⟩
  · obtain ⟨inherited, -, -, hmade⟩ := continuation_inv hbound
    obtain ⟨hid, hattempt, hplan, -⟩ := make_ok hmade
    exact ⟨hid, hattempt, hplan⟩

theorem Binding.decodes (h : Binding codec predecessor db history initial row stored) :
    decodeRow row = .ok stored := by
  have hunsent := bind_unsent h.planned
  obtain ⟨hid, hattempt, -⟩ := make_ok h.planned
  have hrestart : initial.afterRestart = .ok initial := by
    unfold RadioAttemptProgress.afterRestart
    rw [List.find?_eq_none.mpr]
    intro p hp
    rw [hunsent p hp]
    decide
  refine decodeRow_iff.mpr ⟨initial, ?_, hunsent, boundProgress_same h.inherits, h.checkpoint⟩
  rw [h.plan.1, h.plan.2, ← h.ownOutbox, ← h.ownAttempt, ← hid, ← hattempt, fromData_toData]
  exact hrestart

end Bindings

/-! ## Original evidence -/

/-- What the handoff codec has to keep: a decoded reference, attributed to the attempt that holds
it, survives its encoding. -/
def HandoffCodec.RoundTrips (codec : HandoffCodec) : Prop :=
  ∀ text value (origin : RadioHandoffOrigin), codec.decode text = some value →
    origin.outboxId ≠ "" → origin.outboxId.length ≤ 1024 → 1 ≤ origin.attemptNumber →
      codec.decode (codec.encode { value with origin := value.origin.or (some origin) }) =
        some { value with origin := value.origin.or (some origin) }

/-- The original evidence for the accepted parts of a row, each attributed to the
attempt that observed it. -/
def HandoffCodec.evidence (codec : HandoffCodec) (row : RadioRow) :
    List (Except Err RadioLocalHandoff) :=
  (acceptedFront row.parts).map fun p => codec.fromPart p row.provenance

/-- The accepted prefix of `new` extends that of `old`, on the same evidence. -/
def HandoffCodec.Extends (codec : HandoffCodec) (old new : RadioRow) : Prop :=
  (∀ e ∈ codec.evidence old, ∃ handoff, e = .ok handoff) ∧
    codec.evidence old <+: codec.evidence new

section Evidence

variable {codec : HandoffCodec}

theorem fromPart_iff {e : RadioLocalHandoff} :
    codec.fromPart part provenance = .ok e ↔
      part.state = .accepted ∧ ∃ text value, part.handoffId = some text ∧
        codec.decode text = some value ∧ value.ordinal = part.ordinal ∧
        e = { value with
          origin := value.origin.or (some ⟨provenance.outboxId, provenance.attemptNumber⟩) } := by
  constructor
  · intro h
    unfold HandoffCodec.fromPart at h
    split at h
    · cases h
    rename_i hstate
    split at h
    · cases h
    rename_i text htext
    split at h
    · cases h
    rename_i value hvalue
    split at h
    · cases h
    rename_i hordinal
    cases h
    exact ⟨not_not.mp hstate, text, value, htext, hvalue, not_not.mp hordinal, rfl⟩
  · rintro ⟨hstate, text, value, htext, hvalue, hordinal, rfl⟩
    unfold HandoffCodec.fromPart
    rw [if_neg (not_not.mpr hstate), htext]
    simp only [hvalue]
    rw [if_neg (not_not.mpr hordinal)]

theorem HandoffCodec.Inherited.fromPart (hlaw : codec.RoundTrips)
    (hlength : provenance.outboxId.length ≤ 1024) {p q : RadioPartProgress}
    (h : codec.Inherited provenance p q) (holder : DeliveryAttemptProvenance) :
    codec.fromPart q holder = codec.fromPart p provenance := by
  obtain ⟨e, he, rfl⟩ := h
  obtain ⟨-, text, value, -, hvalue, hordinal, rfl⟩ := fromPart_iff.mp he
  rw [he]
  refine fromPart_iff.mpr ⟨rfl, _, _, rfl, hlaw text value _ hvalue
    provenance.outboxId_ne_empty hlength provenance.positive, hordinal, ?_⟩
  cases value.origin <;> rfl

variable {history : List StoredRadioAttempt}

theorem acceptedParts_unsent (h : ∀ p ∈ parts, p.state = .unsent) :
    codec.acceptedParts saved history parts = .ok [] := by
  induction parts with
  | nil => rfl
  | cons p parts ih =>
    unfold HandoffCodec.acceptedParts
    rw [h p mem_cons_self]
    exact ih fun q hq => h q (mem_cons_of_mem p hq)

theorem acceptedParts_inherited {inherited : List RadioPartProgress}
    (hordered : boundaryOrdered false parts = true)
    (h : codec.acceptedParts saved history parts = .ok inherited) :
    List.Forall₂ (codec.Inherited saved.provenance) (acceptedFront parts) inherited := by
  induction parts generalizing inherited with
  | nil =>
    cases h
    exact .nil
  | cons part parts ih =>
    rw [boundaryOrdered_cons] at hordered
    rw [acceptedFront_cons]
    unfold HandoffCodec.acceptedParts at h
    split at h
    · cases h
    · cases h
    · rename_i hunsent
      rw [hunsent, if_neg (by decide)] at hordered
      rw [acceptedParts_unsent hordered] at h
      cases h
      rw [hunsent, if_neg (by decide)]
      exact .nil
    · rename_i haccepted
      rw [if_pos haccepted] at hordered ⊢
      simp only [bind, Except.bind] at h
      split at h
      · cases h
      rename_i accepted hpart
      split at h
      · cases h
      rename_i rest hrest
      cases h
      exact .cons (acceptedPart_inherited hpart) (ih hordered hrest)

theorem forall₂_inherited_accepted {ps qs : List RadioPartProgress}
    (h : List.Forall₂ (codec.Inherited provenance) ps qs) :
    ∀ q ∈ qs, q.state = .accepted := by
  induction h with
  | nil => exact fun _ hq => absurd hq not_mem_nil
  | cons hpq _ ih =>
    obtain ⟨e, -, rfl⟩ := hpq
    exact forall_mem_cons.mpr ⟨rfl, ih⟩

theorem extendsAll_ok {inherited : List RadioPartProgress} {history rest : List StoredRadioAttempt}
    (h : codec.extendsAll history inherited rest = .ok true) :
    ∀ saved ∈ rest, ∃ older, codec.acceptedPrefix saved history = .ok older ∧
      older <+: inherited := by
  induction rest with
  | nil => exact fun _ hs => absurd hs not_mem_nil
  | cons first rest ih =>
    simp only [HandoffCodec.extendsAll, bind, Except.bind] at h
    split at h
    · cases h
    rename_i older holder
    split at h
    · cases h
    rename_i htake
    intro saved hsaved
    rcases mem_cons.mp hsaved with rfl | hsaved
    · exact ⟨older, holder, not_not.mp htake ▸ take_prefix _ _⟩
    · exact ih h saved hsaved

theorem evidence_eq_of_inherited {inherited : List RadioPartProgress} (hlaw : codec.RoundTrips)
    (hdecoded : decodeRow row = .ok saved)
    (h : List.Forall₂ (codec.Inherited saved.provenance) (acceptedFront saved.progress.parts)
      inherited) (holder : DeliveryAttemptProvenance) :
    codec.evidence row = inherited.map (codec.fromPart · holder) ∧
      ∀ e ∈ codec.evidence row, ∃ handoff, e = .ok handoff := by
  obtain ⟨hprov, hparts, -⟩ := decodeRow_ok hdecoded
  have hlength : saved.provenance.outboxId.length ≤ 1024 := by
    rw [saved.ownOutbox]
    exact (checkProgress_iff.mp saved.progress.valid).1.2
  unfold HandoffCodec.evidence
  rw [← hparts, ← hprov]
  generalize acceptedFront saved.progress.parts = front at h ⊢
  induction h with
  | nil => exact ⟨rfl, fun _ he => absurd he not_mem_nil⟩
  | cons hpq _ ih =>
    simp only [map_cons, mem_cons, forall_eq_or_imp, List.cons.injEq]
    refine ⟨⟨(hpq.fromPart hlaw hlength holder).symm, ih.1⟩, ?_, ih.2⟩
    obtain ⟨e, he, -⟩ := hpq
    exact ⟨e, he⟩

theorem StoredRadioAttempt.ordered (s : StoredRadioAttempt) :
    boundaryOrdered false s.progress.parts = true :=
  (checkProgress_iff.mp s.progress.valid).2.2.2.2.2

variable {initial : RadioAttemptProgress} {stored : StoredRadioAttempt}

theorem Binding.inherited {db : Db}
    (h : Binding codec (some latest) db history initial row stored) :
    ∃ inherited, codec.extendsAll history inherited history = .ok true ∧
      (∀ q ∈ inherited, q.state = .accepted) ∧
      stored.progress.parts = inherited ++ initial.parts.drop inherited.length := by
  rcases boundProgress_inv h.inherits with ⟨hnone, -⟩ | ⟨_, ⟨⟩, -, hcontinuation⟩
  · cases hnone
  · obtain ⟨inherited, hinherited, hextends, hmade⟩ := continuation_inv hcontinuation
    exact ⟨inherited, hextends,
      forall₂_inherited_accepted (acceptedParts_inherited latest.ordered hinherited),
      (make_ok hmade).2.2.2⟩

theorem Binding.settled {predecessor : Option StoredRadioAttempt} {db : Db}
    (h : Binding codec predecessor db history initial row stored) :
    ∀ p ∈ stored.progress.parts, p.state = .accepted ∨ p.state = .unsent := by
  cases predecessor with
  | none =>
    rcases boundProgress_inv h.inherits with ⟨-, hbound, -⟩ | ⟨_, hsome, -⟩
    · exact fun p hp => .inr (bind_unsent h.planned p (hbound ▸ hp))
    · cases hsome
  | some latest =>
    obtain ⟨inherited, -, haccepted, hparts⟩ := h.inherited
    intro p hp
    rw [hparts, mem_append] at hp
    rcases hp with hp | hp
    · exact .inl (haccepted p hp)
    · exact .inr (bind_unsent h.planned p (mem_of_mem_drop hp))

theorem Binding.extends (hlaw : codec.RoundTrips) {db : Db}
    (h : Binding codec (some latest) db history initial row stored) :
    ∀ old ∈ db.radioHistory row.provenance.identity, codec.Extends old row := by
  obtain ⟨inherited, hextends, haccepted, hparts⟩ := h.inherited
  -- the new row starts with the inherited parts and nothing else is accepted in it
  have hfront : acceptedFront row.parts = inherited := by
    rw [← h.checkpoint.2.1, hparts]
    refine acceptedFront_append haccepted fun q hq => ?_
    exact bind_unsent h.planned q (mem_of_mem_drop hq)
  intro old hold
  obtain ⟨saved, hsaved, hdecoded⟩ := (decodeAll_ok h.decoded).1 old hold
  obtain ⟨older, holder, hprefix⟩ := extendsAll_ok hextends saved hsaved
  obtain ⟨heq, hok⟩ := evidence_eq_of_inherited hlaw hdecoded
    (acceptedParts_inherited saved.ordered holder) row.provenance
  refine ⟨hok, ?_⟩
  rw [heq, HandoffCodec.evidence, hfront]
  exact hprefix.map _

end Evidence

/-! ## Runs -/

section Runs

variable {x : Externals} {db db' : Db}

def Decodes (db : Db) : Prop :=
  ∀ row ∈ db.radio.rows, ∃ saved, decodeRow row = .ok saved

theorem decodes_step (x : Externals) (db : Db) (op : Op) (h : Decodes db) :
    Decodes (step x db op).1 := by
  intro row' hrow'
  cases step_radioWrite x db op with
  | same rows denied refused => exact h row' (rows ▸ hrow')
  | bound binding rows denied answer =>
    rw [rows, mem_append, mem_singleton] at hrow'
    rcases hrow' with hold | rfl
    · exact h row' hold
    · exact ⟨_, binding.decodes⟩
  | @moved row saved result hrow decoded fenced own reached replaces granted refused =>
    obtain ⟨now, hrows⟩ := replaces
    rw [hrows, mem_map] at hrow'
    obtain ⟨r, hr, rfl⟩ := hrow'
    by_cases heq : r = row
    · subst heq
      rw [if_pos rfl]
      exact ⟨result, decodeRow_checkpoint decoded own reached⟩
    · rw [if_neg heq]
      exact h r hr

/-- The checkpoint `row` is still there, with at least its accepted parts. -/
def Keeps (row row' : RadioRow) : Prop :=
  row'.outboxId = row.outboxId ∧ row'.attemptNumber = row.attemptNumber ∧
    row'.provenance = row.provenance ∧ acceptedFront row.parts <+: acceptedFront row'.parts

theorem Keeps.refl (row : RadioRow) : Keeps row row := ⟨rfl, rfl, rfl, prefix_refl _⟩

theorem Keeps.trans {a b c : RadioRow} (h : Keeps a b) (h' : Keeps b c) : Keeps a c :=
  ⟨h'.1.trans h.1, h'.2.1.trans h.2.1, h'.2.2.1.trans h.2.2.1, h.2.2.2.trans h'.2.2.2⟩

theorem Replaces.keeps (h : Replaces row result db db') (hdecoded : decodeRow row = .ok saved)
    (hreached : Reached saved.progress result.progress) {r : RadioRow} (hr : r ∈ db.radio.rows) :
    ∃ r' ∈ db'.radio.rows, Keeps r r' ∧ (r ≠ row → r' = r) := by
  obtain ⟨now, hrows⟩ := h
  refine ⟨_, hrows ▸ mem_map_of_mem hr, ?_⟩
  by_cases heq : r = row
  · subst heq
    rw [if_pos rfl]
    refine ⟨⟨rfl, rfl, rfl, ?_⟩, fun hne => absurd rfl hne⟩
    rw [← (decodeRow_ok hdecoded).2.1]
    exact hreached.front
  · rw [if_neg heq]
    exact ⟨Keeps.refl r, fun _ => rfl⟩

theorem keeps_step (x : Externals) (db : Db) (op : Op)
    (hrow : row ∈ db.radio.rows) : ∃ row' ∈ (step x db op).1.radio.rows, Keeps row row' := by
  cases step_radioWrite x db op with
  | same rows denied refused => exact ⟨row, rows ▸ hrow, .refl row⟩
  | bound binding rows denied answer =>
    refine ⟨row, ?_, .refl row⟩
    rw [rows]
    exact mem_append_left _ hrow
  | moved _ decoded fenced own reached replaces granted refused =>
    obtain ⟨row', hrow', hkeeps, -⟩ := replaces.keeps decoded reached hrow
    exact ⟨row', hrow', hkeeps⟩

theorem keeps_run (x : Externals) {db : Db} (ops : List Op)
    (hrow : row ∈ db.radio.rows) : ∃ row' ∈ (run (step x) db ops).radio.rows, Keeps row row' := by
  induction ops generalizing db row with
  | nil => exact ⟨row, hrow, .refl row⟩
  | cons op ops ih =>
    obtain ⟨row₁, hrow₁, hkeeps₁⟩ := keeps_step x db op hrow
    obtain ⟨row₂, hrow₂, hkeeps₂⟩ := ih hrow₁
    exact ⟨row₂, hrow₂, hkeeps₁.trans hkeeps₂⟩

theorem Keeps.extends {codec : HandoffCodec} {old new new' : RadioRow} (h : Keeps new new')
    (hextends : codec.Extends old new) : codec.Extends old new' := by
  obtain ⟨-, -, hprov, hfront⟩ := h
  refine ⟨hextends.1, hextends.2.trans ?_⟩
  unfold HandoffCodec.evidence
  rw [hprov]
  exact hfront.map _

/-- The row of a continuation extends all earlier attempts of its delivery. -/
def Continues (codec : HandoffCodec) (db : Db) (s : StoredRadioAttempt) : Prop :=
  ∃ new ∈ db.radio.rows, new.provenance = s.provenance ∧
    ∀ old ∈ db.radio.rows, old.provenance.identity = s.provenance.identity →
      old.attemptNumber < new.attemptNumber → codec.Extends old new

theorem continues_step (x : Externals) (db : Db) (op : Op) (hstore : RadioStore db)
    (h : Continues x.handoffs db s) :
    Continues x.handoffs (step x db op).1 s := by
  obtain ⟨new, hnew, hprov, hextends⟩ := h
  cases step_radioWrite x db op with
  | same rows denied refused =>
    rw [Continues, rows]
    exact ⟨new, hnew, hprov, hextends⟩
  | @bound _ _ _ row _ binding rows denied answer =>
    rw [Continues, rows]
    refine ⟨new, mem_append_left _ hnew, hprov, ?_⟩
    intro old hold hi hlt
    rcases mem_append.mp hold with hold | hold
    · exact hextends old hold hi hlt
    · -- a later binding is for a later attempt
      obtain rfl := mem_singleton.mp hold
      have hnewer := binding.newer (hstore.mem_history.mpr ⟨hnew, by rw [hprov, hi]⟩)
      rw [(hstore.own new hnew).2] at hnewer
      exact absurd hlt (not_lt.mpr hnewer.le)
  | @moved row saved result hrow decoded fenced own reached replaces granted refused =>
    obtain ⟨new', hnew', hkeeps, -⟩ := replaces.keeps decoded reached hnew
    refine ⟨new', hnew', hkeeps.2.2.1.trans hprov, ?_⟩
    intro old' hold' hi hlt
    obtain ⟨now, hrows⟩ := id replaces
    rw [hrows, mem_map] at hold'
    obtain ⟨old, hold, rfl⟩ := hold'
    by_cases heq : old = row
    · -- the fence lets only the latest attempt move
      subst heq
      rw [if_pos rfl] at hi hlt
      have hle := (hstore.latest_of_fenced hrow fenced).1.2 new hnew (by rw [hprov]; exact hi.symm)
      rw [hkeeps.2.1] at hlt
      exact absurd hlt (not_lt.mpr hle)
    · rw [if_neg heq] at hi hlt ⊢
      exact hkeeps.extends (hextends old hold hi (hkeeps.2.1 ▸ hlt))

theorem continues_bound (hlaw : x.handoffs.RoundTrips) {op : Op} (hstore : RadioStore db)
    (h : resumed (op, (step x db op).2) = some s) :
    Continues x.handoffs (step x db op).1 s := by
  cases step_radioWrite x db op with
  | same rows denied refused =>
    rw [refused] at h
    cases h
  | @bound predecessor history initial row stored binding rows denied answer =>
    obtain ⟨rfl, hsome⟩ := answer s h
    obtain ⟨latest, rfl⟩ := Option.ne_none_iff_exists'.mp hsome
    rw [Continues, rows]
    refine ⟨row, mem_append_right _ mem_cons_self, binding.checkpoint.1.symm, ?_⟩
    intro old hold hi hlt
    rcases mem_append.mp hold with hold | hold
    · rw [binding.checkpoint.1] at hi
      exact binding.extends hlaw old (hstore.mem_history.mpr ⟨hold, hi⟩)
    · obtain rfl := mem_singleton.mp hold
      exact absurd hlt (lt_irrefl _)
  | moved _ decoded fenced own reached replaces granted refused =>
    rw [refused] at h
    cases h

end Runs

/-- In every interleaving each checkpoint decodes and counts its transitions, what was accepted in
it stays accepted under the same reference, and a continuation extends the accepted prefix of every
earlier attempt. -/
theorem radio_evidence_kept (x : Externals) (hlaw : x.handoffs.RoundTrips) (ops : List Op) :
    (∀ row ∈ (stateAfter x ops).radio.rows,
      (∃ saved, decodeRow row = .ok saved) ∧ row.revision = transitions row.parts) ∧
    (∀ earlier later, ops = earlier ++ later →
      ∀ row ∈ (stateAfter x earlier).radio.rows, ∃ row' ∈ (stateAfter x ops).radio.rows,
        row'.outboxId = row.outboxId ∧ row'.attemptNumber = row.attemptNumber ∧
        ∀ p ∈ row.parts, p.state = .accepted → p ∈ row'.parts) ∧
    (∀ call ∈ trace (step x) Db.empty ops, ∀ s, resumed call = some s →
      ∃ new ∈ (stateAfter x ops).radio.rows, new.provenance = s.provenance ∧
        ∀ old ∈ (stateAfter x ops).radio.rows,
          old.provenance.identity = new.provenance.identity →
          old.attemptNumber < new.attemptNumber →
          (∀ e ∈ x.handoffs.evidence old, ∃ handoff, e = .ok handoff) ∧
            x.handoffs.evidence old <+: x.handoffs.evidence new) := by
  have hdecodes : ∀ ops, Decodes (stateAfter x ops) :=
    run_invariant (decodes_step x) fun _ h => absurd h not_mem_nil
  refine ⟨?_, ?_, ?_⟩
  · intro row hrow
    obtain ⟨saved, hsaved⟩ := hdecodes ops row hrow
    obtain ⟨-, hparts, hrev⟩ := decodeRow_ok hsaved
    exact ⟨⟨saved, hsaved⟩, by rw [← hrev, ← hparts]; exact saved.counted⟩
  · rintro earlier later rfl row hrow
    rw [stateAfter, run_append]
    obtain ⟨row', hrow', hid, hattempt, -, hfront⟩ := keeps_run x later hrow
    refine ⟨row', hrow', hid, hattempt, fun p hp hstate => ?_⟩
    obtain ⟨saved, hsaved⟩ := hdecodes earlier row hrow
    have hordered := saved.ordered
    rw [(decodeRow_ok hsaved).2.1] at hordered
    exact takeWhile_subset _ (hfront.subset ((mem_acceptedFront hordered).mpr ⟨hp, hstate⟩))
  · have hrun : RadioStore (run (step x) Db.empty ops) ∧
        ∀ call ∈ trace (step x) Db.empty ops, ∀ s, resumed call = some s →
          Continues x.handoffs (run (step x) Db.empty ops) s := by
      refine run_history (I := fun calls db => RadioStore db ∧
        ∀ call ∈ calls, ∀ s, resumed call = some s → Continues x.handoffs db s) ?_ ?_ ops
      · exact ⟨radioStore_empty, fun _ h => absurd h not_mem_nil⟩
      · rintro calls db op ⟨hstore, hcalls⟩
        refine ⟨radioStore_step x db op hstore, ?_⟩
        intro call hcall s hs
        rcases mem_append.mp hcall with hcall | hcall
        · exact continues_step x db op hstore (hcalls call hcall s hs)
        · rw [mem_singleton.mp hcall] at hs
          exact continues_bound hlaw hstore hs
    intro call hcall s hs
    obtain ⟨new, hnew, hprov, hextends⟩ := hrun.2 call hcall s hs
    exact ⟨new, hnew, hprov, fun old hold hi => hextends old hold (hi.trans (by rw [hprov]))⟩

namespace Sample

/-- A handoff of the first part. -/
def radioHandoff (origin : Option RadioHandoffOrigin) : RadioLocalHandoff :=
  { ordinal := 1, nativeMessageId := some "message", nativeChannelId := none
    confirmationLevel := .localTransport, origin, payloadFingerprint := some "fingerprint" }

/-- An origin is written as its attempt number in unary, a colon and the outbox
row. -/
def handoffs : HandoffCodec where
  decode text :=
    match text.toList with
    | '1' :: rest =>
      some (radioHandoff (some ⟨String.ofList ((rest.dropWhile (· = '1')).drop 1),
        1 + (rest.takeWhile (· = '1')).length⟩))
    | _ => some (radioHandoff none)
  encode value :=
    match value.origin with
    | none => ""
    | some o =>
      String.ofList (List.replicate o.attemptNumber.toNat '1' ++ ':' :: o.outboxId.toList)

def radioExternals : Externals := { externals with handoffs := handoffs }

def radioPlan : RadioTextPlan :=
  planOf 12 [] "hello dear radio".toList ["hello ".toList, "dear ".toList, "radio".toList]

def radioClaim : DeliveryAttemptProvenance where
  eventId := "event"
  deliveryPlanId := "plan"
  targetAdapter := "radio"
  targetChannel := none
  outboxId := "outbox"
  attemptNumber := 1
  source := .live
  replayRunId := none
  named := by decide
  positive := by decide
  liveUnnamed := fun _ => rfl
  channelNormalized := by decide

def radioBound : Op := .bindRadioAttempt radioClaim (some "pipeline:a") radioPlan none (clock 3)

theorem handoffs_roundTrips : handoffs.RoundTrips := by
  have horigin : ∀ (outboxId : String) (n : ℕ),
      handoffs.decode (handoffs.encode (radioHandoff (some ⟨outboxId, 1 + n⟩))) =
        some (radioHandoff (some ⟨outboxId, 1 + n⟩)) := by
    intro outboxId n
    have hn : (1 + (n : ℤ)).toNat = n + 1 := by omega
    simp [handoffs, radioHandoff, hn, replicate_succ]
  intro text value origin hdecode _ _ hpos
  obtain ⟨n, hn⟩ : ∃ n : ℕ, origin.attemptNumber = 1 + n :=
    ⟨(origin.attemptNumber - 1).toNat, by omega⟩
  unfold handoffs at hdecode
  simp only at hdecode
  split at hdecode
  · cases hdecode
    exact horigin _ _
  · cases hdecode
    obtain ⟨outboxId, attemptNumber⟩ := origin
    obtain rfl : attemptNumber = 1 + n := hn
    exact horigin outboxId n

def beginFirst (a : StoredRadioAttempt) : Op :=
  .beginRadioPart a (some "pipeline:a") 1 none (clock 4) (clock 4)

def observeFirst (a : StoredRadioAttempt) : Op :=
  .observeRadioPart a (some "pipeline:a") 1 (some "handoff") (clock 4)

def retryClaim : DeliveryAttemptProvenance :=
  { radioClaim with attemptNumber := 2, source := .retry, positive := by decide
                    liveUnnamed := fun _ => rfl }

def resumeFrom (a : StoredRadioAttempt) : Op :=
  .bindRadioAttempt retryClaim (some "pipeline:a") radioPlan (some a) (clock 5)

/-- The store holds one checkpoint, of the first attempt. -/
structure Holds (db : Db) (parts : List RadioPartProgress) (a : StoredRadioAttempt) : Prop where
  outbox : db.outbox = (stateAfter radioExternals created).outbox
  stored : ∃ row, db.radio.rows = [row] ∧ decodeRow row = .ok a ∧ row.outboxId = "outbox" ∧
    row.attemptNumber = 1
  claim : a.provenance = radioClaim
  plan : a.progress.plan = radioPlan
  parts : a.progress.parts = parts

theorem radioPlan_reproducible : reproducible radioPlan = .ok () := by
  have hplanned : planRadioText "hello dear radio" 12 "" 16 = some (.ok radioPlan) :=
    planRadioText_ok.mpr ⟨⟨by decide, by decide, by decide, by decide, by decide, by decide⟩,
      by decide, _, by unfold BodiesOf; decide, rfl⟩
  exact reproducible_of_planned hplanned

theorem stateAfter_snoc (ops : List Op) (op : Op) :
    stateAfter radioExternals (ops ++ [op]) =
      (step radioExternals (stateAfter radioExternals ops) op).1 :=
  run_snoc ..

/-- The claim is bound and the native start of its first part is allowed. -/
theorem holds_bound : ∃ a db, (nativeStart radioClaim (some "pipeline:a") none (clock 4)).run
      (stateAfter radioExternals (created ++ [radioBound])) = .ok (true, db) ∧
    Holds db [{ ordinal := 1 }, { ordinal := 2 }, { ordinal := 3 }] a := by
  obtain ⟨progress, hprogress⟩ := RadioAttemptProgress.bind_returns radioPlan_reproducible
    (show radioClaim.outboxId ≠ "" by decide) (by decide) (le_refl 1)
  obtain ⟨hid, hattempt, hplan, hparts⟩ := RadioAttemptProgress.make_ok hprogress
  let stored : StoredRadioAttempt :=
    ⟨radioClaim, progress, 0, hid.symm, hattempt.symm, by rw [hparts]; rfl⟩
  obtain ⟨t, hrun⟩ : ∃ t, (bindRadioAttempt handoffs radioClaim (some "pipeline:a") radioPlan none
      (clock 3)).run (stateAfter radioExternals created) =
        .ok (some stored, { stateAfter radioExternals created with radio := t }) :=
    bind_of hprogress rfl (show decodeAll _ = .ok [] from rfl) rfl rfl
      (by rw [hparts]; exact stored.make_self)
      (of_decide_eq_true (Bool.and_eq_true_iff.mp isFingerprint_hexdigest).1)
      (fun _ h => absurd h not_mem_nil)
  have hstep : stateAfter radioExternals (created ++ [radioBound]) =
      { stateAfter radioExternals created with radio := t } := by
    exact congrArg Prod.fst (step_of_run rfl hrun)
  obtain ⟨db, hstart⟩ : ∃ db, (nativeStart radioClaim (some "pipeline:a") none (clock 4)).run
      { stateAfter radioExternals created with radio := t } = .ok (true, db) := ⟨_, rfl⟩
  have hgate := follows_nativeStart (footprint_rules [.dependencies] fun _ => False)
    mem_cons_self _ _ _ hstart
  refine ⟨stored, db, hstep ▸ hstart, hgate .outbox (by decide), ?_, rfl, hplan, hparts⟩
  rw [show db.radio = t from hgate .radio (by decide)]
  rcases run_bind_exact hrun with ⟨hnone, -⟩ | ⟨_, _, row, _, hbinding, hsome, hrows, hprov, -⟩
  · cases hnone
  · cases hsome
    exact ⟨row, hrows, hbinding.decodes, hbinding.ownOutbox.symm.trans
      (congrArg (·.outboxId) hprov), hbinding.ownAttempt.symm.trans
      (congrArg (·.attemptNumber) hprov)⟩

/-- The worker that owns the claim moves its checkpoint. -/
theorem Holds.checkpoint {db : Db} {parts : List RadioPartProgress} {a : StoredRadioAttempt}
    {updated : RadioAttemptProgress} (h : Holds db parts a)
    (hreached : RadioAttemptProgress.Reached a.progress updated)
    (hcount : transitions a.progress.parts + 1 = transitions updated.parts) :
    ∃ b db', (checkpointRadioAttempt a (some "pipeline:a") updated (clock 4)).run db =
      .ok (some b, db') ∧ Holds db' updated.parts b ∧ b.progress = updated := by
  obtain ⟨row, hrows, hdecoded, hkey⟩ := h.stored
  obtain ⟨hid, hattempt, hplan⟩ := hreached.same
  have howned : db.ownsClaim a.provenance (some "pipeline:a") (nowIso (clock 4)) = .ok true := by
    rw [h.claim, Db.ownsClaim, h.outbox]
    rfl
  have hrow : db.radioRow? a.provenance.outboxId a.provenance.attemptNumber = some row := by
    simp [Db.radioRow?, hrows, h.claim, hkey, radioClaim]
  let b : StoredRadioAttempt := ⟨a.provenance, updated, a.revision + 1,
    a.ownOutbox.trans hid.symm, a.ownAttempt.trans hattempt.symm, by rw [a.counted, hcount]⟩
  obtain ⟨t, hrun⟩ := checkpoint_of howned hrow hdecoded
    (show StoredRadioAttempt.make a.provenance updated _ = .ok b from b.make_self)
  refine ⟨b, _, hrun, ⟨h.outbox, ?_, h.claim, hplan.trans h.plan, rfl⟩, rfl⟩
  rcases run_checkpoint hrun with ⟨hnone, -⟩ | ⟨row', hrow', -, -, _, -, -, hsome, now, hmoved⟩
  · cases hnone
  · cases hsome
    cases hrow.symm.trans hrow'
    rw [hrows, map_singleton, if_pos rfl] at hmoved
    exact ⟨_, hmoved, decodeRow_checkpoint hdecoded rfl hreached, hkey⟩

def acceptedParts : List RadioPartProgress :=
  [{ ordinal := 1, state := .accepted, handoffId := some "handoff" }, { ordinal := 2 },
    { ordinal := 3 }]

theorem holds_accepted : ∃ bound begun accepted, Holds (stateAfter radioExternals
    (created ++ [radioBound] ++ [beginFirst bound] ++ [observeFirst begun])) acceptedParts
      accepted := by
  obtain ⟨bound, db, hstart, hbound⟩ := holds_bound
  -- the first part is begun
  obtain ⟨submitting, hreplace, -, -, -, hparts⟩ := RadioAttemptProgress.replacePart_of
    (r := bound.progress) (k := 1) (q := { ordinal := 1, state := .submitting })
    (p := { ordinal := 1 }) rfl (le_refl 1) rfl (by rw [hbound.parts]; rfl) (by decide)
    (fun j hj => absurd hj (Nat.not_lt_zero j))
  have hbegin : bound.progress.begin 1 = .ok submitting := by
    rw [RadioAttemptProgress.begin, if_neg, hreplace]
    rw [RadioAttemptProgress.nextUnsent, hbound.parts]
    decide
  rw [hbound.parts] at hparts
  obtain ⟨begun, db₁, hrun, hbegun, rfl⟩ := hbound.checkpoint (.begin .bound hbegin)
    (by rw [hbound.parts, hparts]; rfl)
  rw [← hbound.claim] at hstart
  have hstate :
      stateAfter radioExternals (created ++ [radioBound] ++ [beginFirst bound]) = db₁ := by
    exact congrArg Prod.fst (step_of_run rfl (begin_of hbegin hstart hrun))
  -- and accepted
  obtain ⟨updated, hreplace, -, -, -, hparts'⟩ := RadioAttemptProgress.replacePart_of
    (r := begun.progress) (k := 1)
    (q := { ordinal := 1, state := .accepted, handoffId := some "handoff" })
    (p := { ordinal := 1, state := .submitting }) rfl (le_refl 1) rfl (by rw [hparts]; rfl)
    (by decide) (fun j hj => absurd hj (Nat.not_lt_zero j))
  have hobserve : begun.progress.observe 1 (some "handoff") = .ok updated := by
    rw [RadioAttemptProgress.observe, if_neg, if_neg, ← hreplace] <;> rw [hparts] <;> decide
  rw [hparts] at hparts'
  obtain ⟨accepted, db₂, hrun, haccepted, -⟩ := hbegun.checkpoint (.observe .bound hobserve)
    (by rw [hparts, hparts']; rfl)
  refine ⟨bound, begun, accepted, ?_⟩
  rw [stateAfter_snoc, hstate, show step radioExternals db₁ (observeFirst begun) = _ from
    step_of_run rfl (observe_of hobserve hrun)]
  rw [hparts'] at haccepted
  exact haccepted

/-- The inherited part names the attempt that was accepted. -/
def inheritedPart : RadioPartProgress :=
  { ordinal := 1, state := .accepted, handoffId := some "1:outbox" }

theorem fromPart_accepted : handoffs.fromPart
    { ordinal := 1, state := .accepted, handoffId := some "handoff" } radioClaim =
      .ok (radioHandoff (some ⟨"outbox", 1⟩)) := by decide +kernel

theorem Holds.acceptedPrefix {db : Db} {a : StoredRadioAttempt} (h : Holds db acceptedParts a) :
    handoffs.acceptedPrefix a [a] = .ok [inheritedPart] := by
  have hpart : handoffs.acceptedPart a [a]
      { ordinal := 1, state := .accepted, handoffId := some "handoff" } = .ok inheritedPart := by
    have hrecord : recordOf [a] ⟨"outbox", 1⟩ = some a := by
      simp [recordOf, h.claim, radioClaim]
    simp only [HandoffCodec.acceptedPart, h.claim, fromPart_accepted, bind, Except.bind,
      radioHandoff]
    rw [hrecord]
    simp only [h.claim, h.parts, lt_irrefl, if_false, acceptedParts]
    decide +kernel
  rw [HandoffCodec.acceptedPrefix, h.parts, acceptedParts]
  simp [HandoffCodec.acceptedParts, hpart, bind, Except.bind]

theorem Holds.resumes {db : Db} {a : StoredRadioAttempt} (h : Holds db acceptedParts a) :
    ∃ resumed, resumed.provenance = retryClaim ∧
      (step radioExternals (step radioExternals db reserved).1 (resumeFrom a)).2 =
        .ok (.radio (some resumed)) := by
  obtain ⟨row, hrows, hdecoded, hid, hattempt⟩ := h.stored
  let outbox := (stateAfter radioExternals (created ++ [reserved])).outbox
  have hreserve : (reserveOutboxAttempt "outbox" "pipeline:a" 1 (clock 2)).run db =
      .ok (some 2, { db with outbox }) := by
    simp only [reserveOutboxAttempt, Tx.run_bind, Tx.run_query, Tx.run_pure]
    refine ⟨_, db, ⟨rfl, rfl⟩, 1, _, run_updateTable.mpr ⟨_, ?_, ?_, rfl⟩, rfl, rfl⟩
    · rw [h.outbox]
      rfl
    · rw [h.outbox]
      rfl
  rw [show step radioExternals db reserved = _ from step_of_run rfl hreserve]
  obtain ⟨progress, hprogress⟩ := RadioAttemptProgress.bind_returns radioPlan_reproducible
    (show retryClaim.outboxId ≠ "" by decide) (by decide)
    (show 1 ≤ retryClaim.attemptNumber by decide)
  obtain ⟨hpid, hpattempt, hpplan, hpparts⟩ := RadioAttemptProgress.make_ok hprogress
  have hparts : progress.parts = [{ ordinal := 1 }, { ordinal := 2 }, { ordinal := 3 }] := hpparts
  let parts : List RadioPartProgress := [inheritedPart, { ordinal := 2 }, { ordinal := 3 }]
  have hchecked : ∀ p ∈ parts, p.check = .ok () := by decide
  have hvalid : checkProgress "outbox" 2 radioPlan parts = .ok () :=
    checkProgress_iff.mpr ⟨⟨by decide, by decide⟩, by decide, radioPlan_reproducible, rfl, rfl, rfl⟩
  let bound : RadioAttemptProgress := ⟨"outbox", 2, radioPlan, parts, hchecked, hvalid⟩
  let stored : StoredRadioAttempt := ⟨retryClaim, bound, 2, rfl, rfl, rfl⟩
  have hextends : handoffs.extendsAll [a] [inheritedPart] [a] = .ok true := by
    simp [HandoffCodec.extendsAll, h.acceptedPrefix, bind, Except.bind]
  have hmake : RadioAttemptProgress.make progress.outboxId progress.attemptNumber progress.plan
      (inheritedPart :: progress.parts.tail) = .ok bound := by
    rw [hpid, hpattempt, hpplan, hparts]
    exact RadioAttemptProgress.make_of hchecked hvalid
  have hcontinue : handoffs.boundProgress progress [a] (some a) = .ok (some bound) := by
    have hroom : 1 < progress.plan.parts.length := by
      rw [hpplan]
      decide
    simp [HandoffCodec.boundProgress, latestAttempt, HandoffCodec.continuation, h.acceptedPrefix,
      bind, Except.bind, hextends, hroom, hmake, liftText]
  have hhistory : decodeAll (Db.radioHistory { db with outbox } retryClaim.identity) = .ok [a] := by
    simp only [Db.radioHistory, hrows]
    rw [filter_cons_of_pos (by rw [hid]; decide), filter_nil, decodeAll, hdecoded]
    rfl
  have hfresh : bindChecks retryClaim radioPlan [a] = .ok true := by
    rw [bindChecks, h.claim, h.plan, if_neg (by decide), if_neg (by simp), if_neg (by decide)]
    rfl
  obtain ⟨t, hrun⟩ : ∃ t, (bindRadioAttempt handoffs retryClaim (some "pipeline:a") radioPlan
      (some a) (clock 5)).run { db with outbox } =
        .ok (some stored, { db with outbox, radio := t }) :=
    bind_of hprogress rfl hhistory hfresh hcontinue stored.make_self
      (of_decide_eq_true (Bool.and_eq_true_iff.mp isFingerprint_hexdigest).1) <| by
        intro r (hr : r ∈ db.radio.rows) _
        rw [hrows, mem_singleton] at hr
        rw [hr, hattempt]
        decide
  exact ⟨stored, rfl, congrArg Prod.snd (step_of_run rfl hrun)⟩

end Sample

open Sample in
/-- The first part of a first attempt is accepted and a second attempt is resumed from it: the
acceptance is kept in the first row, and its evidence starts that of the second. -/
theorem radio_evidence_kept_resumed :
    ∃ bound begun accepted : StoredRadioAttempt,
      let earlier := created ++ [radioBound] ++ [beginFirst bound] ++ [observeFirst begun]
      let ops := earlier ++ [reserved] ++ [resumeFrom accepted]
      ∃ row ∈ (stateAfter radioExternals earlier).radio.rows, row.parts = acceptedParts ∧
        ∃ old ∈ (stateAfter radioExternals ops).radio.rows,
          (∀ p ∈ row.parts, p.state = .accepted → p ∈ old.parts) ∧
          ∃ new ∈ (stateAfter radioExternals ops).radio.rows, new.provenance = retryClaim ∧
            (∀ e ∈ handoffs.evidence old, ∃ handoff, e = .ok handoff) ∧
              handoffs.evidence old <+: handoffs.evidence new := by
  obtain ⟨bound, begun, accepted, hholds⟩ := holds_accepted
  refine ⟨bound, begun, accepted, ?_⟩
  intro earlier
  replace hholds : Holds (stateAfter radioExternals earlier) acceptedParts accepted := hholds
  clear_value earlier
  intro ops
  obtain ⟨row, hrows, hdecoded, -, hattempt⟩ := hholds.stored
  obtain ⟨hprov, hparts, -⟩ := decodeRow_ok hdecoded
  obtain ⟨resumed, hclaim, hresumed⟩ := hholds.resumes
  have hrow : row ∈ (stateAfter radioExternals earlier).radio.rows := hrows ▸ mem_singleton_self row
  obtain ⟨-, hkept, hcontinued⟩ := radio_evidence_kept radioExternals handoffs_roundTrips ops
  obtain ⟨old, hold, hid, hattempt', haccepted⟩ :=
    hkept earlier ([reserved] ++ [resumeFrom accepted]) (append_assoc ..) row hrow
  have hcall : (resumeFrom accepted, .ok (.radio (some resumed))) ∈
      trace (step radioExternals) Db.empty ops := by
    rw [trace_snoc, mem_append, mem_singleton, ← hresumed]
    exact .inr (by rw [run_snoc]; rfl)
  obtain ⟨new, hnew, hnewprov, hextends⟩ := hcontinued _ hcall resumed rfl
  -- the row of the first attempt still names its claim
  have holdprov : old.provenance = radioClaim := by
    obtain ⟨kept, hkeptrow, hkeptid, hkeptattempt, hkeptprov, -⟩ :=
      keeps_run radioExternals ([reserved] ++ [resumeFrom accepted]) hrow
    rw [stateAfter, ← run_append, ← append_assoc] at hkeptrow
    obtain rfl := eq_of_key (stateAfter radioExternals ops).radio hkeptrow hold
      (Prod.ext (hkeptid.trans hid.symm) (hkeptattempt.trans hattempt'.symm))
    rw [hkeptprov, ← hprov, hholds.claim]
  refine ⟨row, hrow, hparts.symm.trans hholds.parts, old, hold, haccepted, new, hnew,
    hnewprov.trans hclaim, hextends old hold ?_ ?_⟩
  · rw [holdprov, hnewprov, hclaim]
    decide
  · have hown := (RadioStore.own (run_invariant (radioStore_step radioExternals) radioStore_empty
      ops) new hnew).2
    rw [hnewprov, hclaim] at hown
    rw [hattempt', hattempt, ← hown]
    decide

end Medre.Storage
