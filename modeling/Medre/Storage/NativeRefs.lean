import Medre.Storage.Admitted

/-! # Native message identities

An admission and a deferred hand-off look an identity up in the transaction that inserts it,
`store_native_ref` in an earlier one. The unique index does not see identities without a channel. -/

namespace Medre.Storage

open List Medre.Framework Tx

/-! ## Identities -/

/-- The identity of a native message; `IS` takes two `NULL` channels for one. -/
def NativeRefRow.identity (n : NativeRefRow) : String × Option String × String :=
  (n.adapter, n.nativeChannelId, n.nativeMessageId)

/-- `_native_ref_identity`. -/
def NativeMessageRef.identity (r : NativeMessageRef) : String × Option String × String :=
  (r.adapter, r.nativeChannelId, r.nativeMessageId)

@[simp] theorem NativeMessageRef.row_identity (r : NativeMessageRef) :
    r.row.identity = r.identity := rfl

@[simp] theorem NativeMessageRef.row_eventId (r : NativeMessageRef) :
    r.row.eventId = r.eventId := rfl

/-- `resolve_native_ref` by identity. -/
def Db.eventOf (db : Db) (k : String × Option String × String) : Option String :=
  db.resolveNativeRef k.1 k.2.1 k.2.2

/-- All references to an identity carry one event. -/
def RefsAgree (db : Db) : Prop :=
  ∀ n ∈ db.nativeRefs.rows, ∀ m ∈ db.nativeRefs.rows, n.identity = m.identity →
    n.eventId = m.eventId

section Lookup

variable {db : Db} {k : String × Option String × String}

theorem eventOf_eq (db : Db) (k : String × Option String × String) :
    db.eventOf k = (db.nativeRefs.rows.find? fun n => n.identity = k).map
      NativeRefRow.eventId := by
  unfold Db.eventOf Db.resolveNativeRef
  congr 2
  funext n
  rw [Bool.eq_iff_iff]
  simp only [NativeRefRow.identity, Bool.and_eq_true, decide_eq_true_eq, and_assoc, Prod.ext_iff]

theorem eventOf_none : db.eventOf k = none ↔ ∀ n ∈ db.nativeRefs.rows, n.identity ≠ k := by
  simp [eventOf_eq]

theorem eventOf_some {e : String} (h : db.eventOf k = some e) :
    ∃ n ∈ db.nativeRefs.rows, n.identity = k ∧ n.eventId = e := by
  rw [eventOf_eq] at h
  obtain ⟨n, hfind, rfl⟩ := Option.map_eq_some_iff.mp h
  exact ⟨n, mem_of_find?_eq_some hfind, by simpa using List.find?_some hfind, rfl⟩

theorem RefsAgree.eventOf (h : RefsAgree db) {n : NativeRefRow}
    (hn : n ∈ db.nativeRefs.rows) : db.eventOf n.identity = some n.eventId := by
  cases hr : db.eventOf n.identity with
  | none => exact absurd rfl (eventOf_none.mp hr n hn)
  | some e =>
    obtain ⟨m, hm, hid, rfl⟩ := eventOf_some hr
    rw [h m hm n hn hid]

end Lookup

/-! ## What the transactions add -/

/-- From `db` to `db'` at most one reference is added, of a new identity. -/
def AddsRef (db db' : Db) : Prop :=
  ∃ new : Option NativeRefRow, db'.nativeRefs.rows = db.nativeRefs.rows ++ new.toList ∧
    ∀ n ∈ new, ∀ m ∈ db.nativeRefs.rows, m.identity ≠ n.identity

variable {db db' : Db}

theorem AddsRef.of_eq (h : db'.nativeRefs = db.nativeRefs) : AddsRef db db' :=
  ⟨none, by rw [h]; exact (append_nil _).symm, nofun⟩

theorem AddsRef.around {a b c d : Db} (h : AddsRef b c) (hab : b.nativeRefs = a.nativeRefs)
    (hcd : d.nativeRefs = c.nativeRefs) : AddsRef a d := by
  obtain ⟨new, hrows, hfresh⟩ := h
  exact ⟨new, by rw [hcd, hrows, hab], hab ▸ hfresh⟩

theorem addsRef_insert {r : NativeMessageRef} {u : Unit}
    (h : (insertNativeRef r.row).run db = .ok (u, db')) (hnone : db.eventOf r.identity = none) :
    AddsRef db db' := by
  simp only [insertNativeRef, run_bind, run_requireEvent] at h
  obtain ⟨_, _, hinsert, -, rfl⟩ := h
  obtain ⟨t, ht, rfl⟩ := run_insertInto.mp hinsert
  refine ⟨some r.row, Table.rows_insert ht, ?_⟩
  rintro n ⟨rfl⟩
  exact eventOf_none.mp hnone

theorem addsRef_admitIngress {e : CanonicalEvent} {inboundRef : Option NativeMessageRef}
    {provenance : IngressProvenance} {suppressRouting : Bool} {contentDeadline : Option Datetime}
    {now : Datetime} {a : AdmissionResult}
    (h : (admitIngress e inboundRef provenance suppressRouting contentDeadline now).run db =
      .ok (a, db')) : AddsRef db db' := by
  cases run_admitIngress h with
  | new limit work hcreated own fresh event hnew =>
    refine ⟨_, hnew.refs, ?_⟩
    intro n hn
    obtain ⟨r, hr, rfl⟩ := Option.mem_map.mp hn
    exact eventOf_none.mp (own r hr).2
  | known hcreated off work => exact .of_eq (off .nativeRefs (by decide))

theorem addsRef_finalizeDeferredHandoff {c : DeferredHandoffFinalization} {b : Bool}
    (h : (finalizeDeferredHandoff c).run db = .ok (b, db')) : AddsRef db db' := by
  simp only [finalizeDeferredHandoff, run_bind, run_lift, run_query, run_require] at h
  obtain ⟨_, _, ⟨-, rfl⟩, existing, _, ⟨hexisting, rfl⟩, _, _, ⟨-, rfl⟩, n, db1, hupd, hrest⟩ := h
  have hrefs1 : db1.nativeRefs = db.nativeRefs :=
    (footprint_rules [.outbox] fun _ => False).outboxUpdate (by decide) _ _ _ _ _ hupd
      .nativeRefs (by decide)
  rcases run_ite.mp hrest with ⟨-, hpure⟩ | ⟨-, hrest⟩
  · obtain ⟨-, rfl⟩ := run_pure.mp hpure
    exact .of_eq hrefs1
  · simp only [run_bind, run_pure] at hrest
    obtain ⟨_, db2, href, _, db3, hreceipt, _, db4, hsettle, _, db5, hretire, -, rfl⟩ := hrest
    have R := footprint_rules [.receipts, .diagnostics, .dependencies, .snapshots] fun _ => False
    have hafter := (offTables _).trans (follows_writeReceipt R (by decide) (by decide) _ _ _
      hreceipt) ((offTables _).trans (follows_settle R (by decide) _ _ _ hsettle)
        (R.snapshotRetire (by decide) _ _ _ _ hretire))
    have hadds : AddsRef db1 db2 := by
      cases hn : c.nativeRef with
      | none =>
        rw [hn] at href
        obtain ⟨-, rfl⟩ := run_pure.mp href
        exact .of_eq rfl
      | some r =>
        rw [hn] at href hexisting
        rcases run_ite.mp href with ⟨-, hpure⟩ | ⟨hnone, hinsert⟩
        · obtain ⟨-, rfl⟩ := run_pure.mp hpure
          exact .of_eq rfl
        · refine addsRef_insert hinsert ?_
          rw [eventOf_eq, hrefs1, ← eventOf_eq]
          rw [Bool.not_eq_true, Option.isSome_eq_false_iff, Option.isNone_iff_eq_none] at hnone
          exact hexisting.trans hnone
    exact hadds.around hrefs1 (hafter .nativeRefs (by decide))

/-! ## `INSERT OR IGNORE` -/

section OrIgnore

variable {db : Db} {r : NativeMessageRef}

/-- The reference enters the table: no row has its id, no row has its identity and a
channel, and its event is stored. -/
structure Enters (db : Db) (r : NativeMessageRef) : Prop where
  id_ne : ∀ n ∈ db.nativeRefs.rows, n.id ≠ r.id
  channel_none : ∀ n ∈ db.nativeRefs.rows, n.identity = r.identity → r.nativeChannelId = none
  stored : db.hasEvent r.eventId = true

theorem clash_iff (n : NativeRefRow) (r : NativeMessageRef) :
    nativeRefConstraint.clash n r.row = true ↔
      n.id = r.id ∨ (n.identity = r.identity ∧ r.nativeChannelId ≠ none) := by
  simp only [nativeRefConstraint, NativeMessageRef.row, NativeRefRow.identity,
    NativeMessageRef.identity, Bool.or_eq_true, Bool.and_eq_true, decide_eq_true_eq,
    Prod.mk.injEq, ne_eq, ← Option.isSome_iff_ne_none]
  constructor
  · rintro (hid | ⟨⟨⟨hadapter, hsome⟩, hchannel⟩, hmessage⟩)
    · exact .inl hid
    · exact .inr ⟨⟨hadapter, hchannel, hmessage⟩, hchannel ▸ hsome⟩
  · rintro (hid | ⟨⟨hadapter, hchannel, hmessage⟩, hsome⟩)
    · exact .inl hid
    · exact .inr ⟨⟨⟨hadapter, hchannel ▸ hsome⟩, hchannel⟩, hmessage⟩

theorem insert_isSome_iff {t : Table nativeRefConstraint} :
    (t.insert r.row).isSome = true ↔
      ∀ n ∈ t.rows, n.id ≠ r.id ∧ (n.identity = r.identity → r.nativeChannelId = none) := by
  have hrow : ∀ n : NativeRefRow, nativeRefConstraint.clash n r.row = false ↔
      n.id ≠ r.id ∧ (n.identity = r.identity → r.nativeChannelId = none) := by
    intro n
    rw [← Bool.not_eq_true, clash_iff, not_or, not_and, not_not]
  constructor
  · intro h n hn
    obtain ⟨t', ht⟩ := Option.isSome_iff_exists.mp h
    exact (hrow n).mp (Table.not_clash_of_insert ht hn)
  · intro h
    have hok : (∀ n ∈ t.rows ++ [r.row], nativeRefConstraint.check n = true) ∧
        (t.rows ++ [r.row]).Pairwise fun n m => nativeRefConstraint.clash n m = false := by
      refine ⟨fun _ _ => rfl, pairwise_append.mpr ⟨t.apart, pairwise_singleton _ _, ?_⟩⟩
      intro n hn m hm
      rw [mem_singleton.mp hm]
      exact (hrow n).mpr (h n hn)
    unfold Table.insert Table.ofRows
    rw [dif_pos hok]
    rfl

theorem insertOrIgnore_rows (db : Db) (r : NativeMessageRef) :
    (Enters db r ∧ ((insertOrIgnoreNativeRef r.row).commit db).1.nativeRefs.rows =
        db.nativeRefs.rows ++ [r.row]) ∨
      (¬Enters db r ∧ ((insertOrIgnoreNativeRef r.row).commit db).1 = db) := by
  cases hins : db.nativeRefs.insert r.row with
  | none =>
    right
    have hrun : (insertOrIgnoreNativeRef r.row).run db = .ok ((), db) := by
      simp only [insertOrIgnoreNativeRef, run_bind, run_query]
      refine ⟨_, _, ⟨rfl, rfl⟩, ?_⟩
      rw [hins]
      exact run_pure.mpr ⟨rfl, rfl⟩
    refine ⟨fun henters => ?_, by rw [commit_ok hrun]⟩
    have hsome : (db.nativeRefs.insert r.row).isSome = true :=
      insert_isSome_iff.mpr fun n hn => ⟨henters.id_ne n hn, henters.channel_none n hn⟩
    rw [hins] at hsome
    cases hsome
  | some t =>
    have hfree := insert_isSome_iff.mp (show (db.nativeRefs.insert r.row).isSome = true by
      rw [hins]; rfl)
    cases hstored : db.hasEvent r.eventId with
    | true =>
      have hrun : (insertOrIgnoreNativeRef r.row).run db =
          .ok ((), { db with nativeRefs := t }) := by
        simp only [insertOrIgnoreNativeRef, run_bind, run_query]
        refine ⟨_, _, ⟨rfl, rfl⟩, ?_⟩
        rw [hins]
        simp only [run_bind, run_modify, run_requireEvent]
        exact ⟨(), _, rfl, hstored, rfl⟩
      left
      rw [commit_ok hrun]
      exact ⟨⟨fun n hn => (hfree n hn).1, fun n hn => (hfree n hn).2, hstored⟩,
        Table.rows_insert hins⟩
    | false =>
      right
      refine ⟨fun henters => ?_, ?_⟩
      · rw [henters.stored] at hstored
        cases hstored
      · rcases commit_cases (insertOrIgnoreNativeRef r.row) db with
          ⟨u, db', hrun, -⟩ | ⟨err, hc⟩
        · simp only [insertOrIgnoreNativeRef, run_bind, run_query] at hrun
          obtain ⟨_, _, ⟨rfl, rfl⟩, hrun⟩ := hrun
          rw [hins] at hrun
          simp only [run_bind, run_modify, run_requireEvent] at hrun
          obtain ⟨-, _, rfl, hknown, -⟩ := hrun
          exact absurd (hknown.symm.trans hstored) Bool.noConfusion
        · rw [hc]

end OrIgnore

theorem addsRef_storeNativeRef {r : NativeMessageRef} {u : Unit}
    (h : (storeNativeRef r).run db = .ok (u, db')) : AddsRef db db' := by
  simp only [storeNativeRef, run_bind, run_query] at h
  obtain ⟨known, _, ⟨hknown, rfl⟩, hrest⟩ := h
  rcases run_onlyIf.mp hrest with ⟨hnone, hinsert⟩ | ⟨-, rfl⟩
  · have hdb : db' = ((insertOrIgnoreNativeRef r.row).commit db).1 := by
      rw [commit_ok hinsert]
    rcases insertOrIgnore_rows db r with ⟨-, hrows⟩ | ⟨-, hsame⟩
    · refine ⟨some r.row, hdb ▸ hrows, ?_⟩
      rintro n ⟨rfl⟩
      exact eventOf_none.mp (hknown.trans (Option.isNone_iff_eq_none.mp hnone))
    · exact .of_eq (by rw [hdb, hsame])
  · exact .of_eq rfl

theorem step_addsRef (x : Externals) (db : Db) (op : Op) : AddsRef db (step x db op).1 := by
  have hother : .nativeRefs ∉ op.writes → AddsRef db (step x db op).1 :=
    fun h => .of_eq (step_table x db op h)
  cases op with
  | admitIngress e inboundRef provenance suppressRouting contentDeadline now =>
    exact step_cases (P := AddsRef db) rfl (.of_eq rfl) fun _ _ => addsRef_admitIngress
  | finalizeDeferredHandoff c =>
    exact step_cases (P := AddsRef db) rfl (.of_eq rfl) fun _ _ =>
      addsRef_finalizeDeferredHandoff
  | storeNativeRef r =>
    exact step_cases (P := AddsRef db) rfl (.of_eq rfl) fun _ _ => addsRef_storeNativeRef
  | _ => exact hother (by simp [Op.writes, eventTables])

theorem AddsRef.refsAgree (h : AddsRef db db') (hagree : RefsAgree db) : RefsAgree db' := by
  obtain ⟨new, hrows, hfresh⟩ := h
  intro n hn m hm hid
  rw [hrows, mem_append, Option.mem_toList] at hn hm
  rcases hn with hn | hn
  · rcases hm with hm | hm
    · exact hagree n hn m hm hid
    · exact absurd hid (hfresh m hm n hn)
  · rcases hm with hm | hm
    · exact absurd hid.symm (hfresh n hn m hm)
    · cases hn
      cases hm
      rfl

/-! ## `store_native_ref` in its two steps -/

/-- The store with the `store_native_ref` calls that have looked their identity up
in vain and not inserted it yet. -/
structure RefStore where
  db : Db
  waiting : List NativeMessageRef

inductive RefCall where
  | resolve (r : NativeMessageRef)
  | insert (i : ℕ)
  | other (op : Op)

/-- One step: a lookup, the insertion of a waiting call, or another transaction. -/
def refStep (x : Externals) (s : RefStore) : RefCall → RefStore × Unit
  | .resolve r =>
    match s.db.resolveNativeRef r.adapter r.nativeChannelId r.nativeMessageId with
    | some _ => (s, ())
    | none => ({ s with waiting := s.waiting ++ [r] }, ())
  | .insert i =>
    match s.waiting[i]? with
    | some r =>
      ({ db := ((insertOrIgnoreNativeRef r.row).commit s.db).1
         waiting := s.waiting.eraseIdx i }, ())
    | none => (s, ())
  | .other op => ({ s with db := (step x s.db op).1 }, ())

def refStateAfter (x : Externals) (calls : List RefCall) : RefStore :=
  run (refStep x) ⟨Db.empty, []⟩ calls

/-- With nothing in between, the two steps are the one call. -/
theorem refStep_uninterrupted (x : Externals) (s : RefStore) (r : NativeMessageRef)
    (hnone : s.db.eventOf r.identity = none) :
    run (refStep x) s [.resolve r, .insert s.waiting.length] =
      { s with db := (step x s.db (.storeNativeRef r)).1 } := by
  have hresolve : s.db.resolveNativeRef r.adapter r.nativeChannelId r.nativeMessageId = none :=
    hnone
  have hrun : (storeNativeRef r).run s.db = (insertOrIgnoreNativeRef r.row).run s.db := by
    show (Tx.onlyIf (s.db.resolveNativeRef r.adapter r.nativeChannelId r.nativeMessageId).isNone
      (insertOrIgnoreNativeRef r.row)).run s.db = _
    rw [hresolve]
    rfl
  have hstore : (step x s.db (.storeNativeRef r)).1 =
      ((insertOrIgnoreNativeRef r.row).commit s.db).1 := by
    have hcommit : (step x s.db (.storeNativeRef r)).1 = ((storeNativeRef r).commit s.db).1 :=
      step_commit rfl
    rw [hcommit, Tx.commit, hrun]
    rfl
  have hwaiting : (s.waiting ++ [r]).eraseIdx s.waiting.length = s.waiting := by
    rw [eraseIdx_append_of_length_le (le_refl _), Nat.sub_self]
    exact append_nil _
  simp [refStep, hresolve, hstore, hwaiting]

/-- The insertion of a call without a channel whose lookup has gone stale: another
event has taken the identity meanwhile. -/
def StaleInsert (s : RefStore) : RefCall → Prop
  | .insert i => ∃ r, s.waiting[i]? = some r ∧ r.nativeChannelId = none ∧
      s.db.hasEvent r.eventId = true ∧ (∀ n ∈ s.db.nativeRefs.rows, n.id ≠ r.id) ∧
      ∃ n ∈ s.db.nativeRefs.rows, n.identity = r.identity ∧ n.eventId ≠ r.eventId
  | _ => False

theorem refStep_rows (x : Externals) (s : RefStore) (call : RefCall) :
    s.db.nativeRefs.rows <+: (refStep x s call).1.db.nativeRefs.rows := by
  cases call with
  | resolve r =>
    simp only [refStep]
    split <;> exact prefix_rfl
  | insert i =>
    simp only [refStep]
    split
    · rename_i r hr
      rcases insertOrIgnore_rows s.db r with ⟨-, hrows⟩ | ⟨-, hsame⟩
      · exact hrows ▸ prefix_append _ _
      · exact ⟨[], by rw [hsame, append_nil]⟩
    · exact prefix_rfl
  | other op =>
    obtain ⟨new, hrows, -⟩ := step_addsRef x s.db op
    exact hrows ▸ prefix_append _ _

theorem refsAgree_step (x : Externals) (s : RefStore) (call : RefCall) (h : RefsAgree s.db)
    (hfresh : ¬StaleInsert s call) : RefsAgree (refStep x s call).1.db := by
  cases call with
  | resolve r =>
    simp only [refStep]
    split <;> exact h
  | insert i =>
    simp only [refStep]
    split
    · rename_i r hr
      rcases insertOrIgnore_rows s.db r with ⟨henters, hrows⟩ | ⟨-, hsame⟩
      · -- a row with the identity of the call has no channel, and then its event
        have hsame : ∀ n ∈ s.db.nativeRefs.rows, n.identity = r.identity →
            n.eventId = r.eventId := by
          intro n hn hid
          by_contra hne
          exact hfresh ⟨r, hr, henters.channel_none n hn hid, henters.stored, henters.id_ne,
            n, hn, hid, hne⟩
        intro n hn m hm hid
        rw [hrows, mem_append, mem_singleton] at hn hm
        rcases hn with hn | rfl
        · rcases hm with hm | rfl
          · exact h n hn m hm hid
          · exact hsame n hn hid
        · rcases hm with hm | rfl
          · exact (hsame m hm hid.symm).symm
          · rfl
      · rw [hsame]
        exact h
    · exact h
  | other op => exact (step_addsRef x s.db op).refsAgree h

theorem StaleInsert.disagrees (x : Externals) {s : RefStore} {call : RefCall}
    (h : StaleInsert s call) : ¬RefsAgree (refStep x s call).1.db := by
  cases call with
  | insert i =>
    obtain ⟨r, hr, hchannel, hstored, hid, n, hn, hident, hne⟩ := h
    intro hagree
    simp only [refStep, hr] at hagree
    rcases insertOrIgnore_rows s.db r with ⟨-, hrows⟩ | ⟨hnot, -⟩
    · refine hne (hagree n ?_ r.row ?_ hident)
      · rw [hrows]
        exact mem_append_left _ hn
      · rw [hrows]
        exact mem_append_right _ (mem_singleton.mpr rfl)
    · exact hnot ⟨hid, fun _ _ _ => hchannel, hstored⟩
  | resolve r => exact h.elim
  | other op => exact h.elim

theorem eventOf_later (x : Externals) {s : RefStore} {k : String × Option String × String}
    {e : String} (h : s.db.eventOf k = some e) (calls : List RefCall) :
    (run (refStep x) s calls).db.eventOf k = some e := by
  refine run_invariant (I := fun s : RefStore => s.db.eventOf k = some e) ?_ h calls
  intro s call h
  obtain ⟨more, hrows⟩ := refStep_rows x s call
  rw [eventOf_eq] at h ⊢
  rw [← hrows, List.find?_append]
  obtain ⟨n, hfind, rfl⟩ := Option.map_eq_some_iff.mp h
  rw [hfind]
  rfl

/-- Along an interleaving every identity has one event, which does not change,
exactly when no insertion of it is stale. -/
theorem native_identity_one_event_iff (x : Externals) (calls : List RefCall) :
    (∀ before between after, calls = before ++ between ++ after →
      RefsAgree (refStateAfter x before).db ∧
      ∀ n ∈ (refStateAfter x before).db.nativeRefs.rows,
        (refStateAfter x (before ++ between)).db.eventOf n.identity = some n.eventId) ↔
      ∀ before call after, calls = before ++ call :: after →
        ¬StaleInsert (refStateAfter x before) call := by
  constructor
  · rintro h before call after rfl hstale
    have hagree := (h (before ++ [call]) [] after (by simp)).1
    rw [refStateAfter, run_snoc] at hagree
    exact hstale.disagrees x hagree
  · rintro h before between after rfl
    have hagree : RefsAgree (refStateAfter x before).db := by
      refine run_invariant_of (I := fun s : RefStore => RefsAgree s.db)
        (fun s call => refsAgree_step x s call) (fun _ h => absurd h not_mem_nil) before ?_
      rintro pre call post rfl
      exact h pre call (post ++ between ++ after) (by simp)
    refine ⟨hagree, ?_⟩
    intro n hn
    rw [refStateAfter, run_append]
    exact eventOf_later x (hagree.eventOf hn) between

namespace Sample

/-- One message of a transport without channels, claimed for an event. -/
def claimFor (eventId : String) : NativeMessageRef :=
  { id := "ref-" ++ eventId, eventId, adapter := "radio", nativeMessageId := "42"
    direction := .inbound, createdAt := clock 0 }

def raced : List RefCall :=
  [.other (.append event (clock 0)), .other (.append { event with eventId := "other" } (clock 0)),
    .resolve (claimFor "event"), .resolve (claimFor "other"), .insert 0, .insert 0]

end Sample

open Sample in
/-- The message ends up with two events. -/
theorem native_identity_two_events :
    ∃ n ∈ (refStateAfter externals raced).db.nativeRefs.rows,
      ∃ m ∈ (refStateAfter externals raced).db.nativeRefs.rows,
        n.identity = m.identity ∧ n.eventId = "event" ∧ m.eventId = "other" :=
  ⟨_, mem_cons_self, _, mem_cons_of_mem _ mem_cons_self, rfl, rfl, rfl⟩

end Medre.Storage
