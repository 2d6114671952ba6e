import Medre.Framework.Scan
import Medre.Storage.SweepCall

/-! # Deadline sweeps in a row

Each call goes on from where the last one stopped: together they are a scan of the waiting rows,
unless a row stands in the way at which every call raises. -/

namespace Medre.Storage

open List Medre.Framework

variable {k : ℕ} {db' : Db} {done : List String} {p r : OutboxRow} {op : Op}

/-! ## Calls in a row -/

def retirements : Except Err Answer → List DeadlineRetirement
  | .ok (.retired a) => a
  | _ => []

/-- The store after `k` calls at one clock reading, and all they answered. -/
def sweeps (x : Externals) (now : Datetime) (limit : ℤ) (db : Db) :
    ℕ → Db × List DeadlineRetirement
  | 0 => (db, [])
  | k + 1 =>
    let before := sweeps x now limit db k
    let call := step x before.1 (.retireExpiredUnstartedOutbox now limit)
    (call.1, before.2 ++ retirements call.2)

section Runs

variable {x : Externals} {now : Datetime} {observed : String} {limit : ℤ} {db : Db}

theorem sweeps_of_step {answer : Except Err Answer}
    (h : step x (sweeps x now limit db k).1 (.retireExpiredUnstartedOutbox now limit) =
      (db', answer)) :
    sweeps x now limit db (k + 1) = (db', (sweeps x now limit db k).2 ++ retirements answer) := by
  rw [sweeps, h]

theorem sweeps_of_raise
    (h : (step x db (.retireExpiredUnstartedOutbox now limit)).2.isOk = false) (k : ℕ) :
    sweeps x now limit db k = (db, []) := by
  induction k with
  | zero => rfl
  | succ k ih =>
    cases hans : (step x db (.retireExpiredUnstartedOutbox now limit)).2 with
    | ok a =>
      rw [hans] at h
      cases h
    | error e =>
      rw [sweeps, ih, step_of_error hans, hans]
      rfl

theorem SweptPast.retired_iff (h : SweptPast observed done db db') (hr : r ∈ db.outbox.rows)
    (hdue : db.retires observed r = true) :
    r.retire observed ∈ db'.outbox.rows ↔ db.gone observed done r = true := by
  constructor
  · intro hmem
    by_contra hgone
    rw [Bool.not_eq_true] at hgone
    have heq := outbox_eq_of_id db'.outbox (h.mem_of_waiting hr hgone) hmem rfl
    have hwait : r.waiting = true := by
      simp only [Db.retires, Bool.and_eq_true] at hdue
      exact hdue.1.1
    rw [heq] at hwait
    cases hwait
  · intro hgone
    rw [h.rows, mem_map]
    exact ⟨r, hr, if_pos hgone⟩

def sweepPlace (x : Externals) (now : Datetime) (limit : ℤ) (db : Db) (k : ℕ) :
    String ×ₗ String :=
  toLex ((sweeps x now limit db k).1.sweepCursor.getD ("", ""))

def waitingPlaces (db : Db) : Finset (String ×ₗ String) :=
  ((db.outbox.rows.filter OutboxRow.waiting).map OutboxRow.place).toFinset

theorem mem_waitingPlaces {p : String ×ₗ String} :
    p ∈ waitingPlaces db ↔ ∃ r ∈ db.outbox.rows, r.waiting = true ∧ r.place = p := by
  simp only [waitingPlaces, mem_toFinset, mem_map, mem_filter, and_assoc]

/-- After call `i` the store has retired the row at the place, if there is something to do
about it. -/
def RetiredBy (x : Externals) (now : Datetime) (observed : String) (limit : ℤ) (db : Db) (i : ℕ)
    (p : String ×ₗ String) : Prop :=
  ∀ r ∈ db.outbox.rows, r.place = p → db.retires observed r = true →
    r.retire observed ∈ (sweeps x now limit db (i + 1)).1.outbox.rows

variable (hclock : utcMicroseconds now.isoformat "Cleanup clock" = .ok observed)
  (hlimit : 1 ≤ limit ∧ limit ≤ 500)

include hclock hlimit

theorem sweeps_succ (h : SweptPast observed done db (sweeps x now limit db k).1) :
    ((∃ r ∈ (sweeps x now limit db k).1.sweepQueue
        ((sweeps x now limit db k).1.sweepCursor.getD ("", "")), db.stops observed r = true) ∧
      sweeps x now limit db (k + 1) = sweeps x now limit db k) ∨
    ∃ part a, (sweeps x now limit db (k + 1)).2 = (sweeps x now limit db k).2 ++ a ∧
      SweepCall observed limit done db (sweeps x now limit db k).1 part a
        (sweeps x now limit db (k + 1)).1 := by
  rcases retireExpired_spec x h hclock hlimit with ⟨e, hstep, hstop⟩ |
    ⟨part, a, db'', hstep, hcall⟩
  · left
    refine ⟨hstop, ?_⟩
    rw [sweeps_of_step hstep]
    exact Prod.ext rfl (append_nil _)
  · right
    refine ⟨part, a, ?_, ?_⟩
    · rw [sweeps_of_step hstep]
      rfl
    · rw [sweeps_of_step hstep]
      exact hcall

theorem sweeps_swept (x : Externals) (db : Db) (k : ℕ) :
    ∃ done, SweptPast observed done db (sweeps x now limit db k).1 ∧
      ((sweeps x now limit db k).2.map DeadlineRetirement.outboxId).Nodup ∧
      ∀ r ∈ db.outbox.rows, r.outboxId ∈
        (sweeps x now limit db k).2.map DeadlineRetirement.outboxId ↔
          db.gone observed done r = true := by
  induction k with
  | zero =>
    refine ⟨[], .refl observed db, nodup_nil, fun r hr => ?_⟩
    simp [Db.gone, sweeps]
  | succ k ih =>
    obtain ⟨done, h, hnodup, hof⟩ := ih
    rcases sweeps_succ hclock hlimit h with ⟨-, hsame⟩ | ⟨part, a, hans, hcall⟩
    · rw [hsame]
      exact ⟨done, h, hnodup, hof⟩
    · have hfresh : FreshPage observed done db part :=
        (h.queue_fresh _).sublist hcall.queue.sublist
      have hnew : ∀ r ∈ db.outbox.rows, r.outboxId ∈ a.map DeadlineRetirement.outboxId ↔
          db.gone observed (part.map OutboxRow.outboxId) r = true := by
        intro r hr
        rw [hcall.retired, mem_map]
        simp only [Db.gone, Bool.and_eq_true, contains_eq_mem, decide_eq_true_eq,
          mem_map, mem_filter]
        constructor
        · rintro ⟨s, ⟨hs, hdue⟩, hid⟩
          obtain rfl := outbox_eq_of_id db.outbox (hfresh.rows s hs).1 hr hid
          exact ⟨⟨s, hs, rfl⟩, hdue⟩
        · rintro ⟨⟨s, hs, hid⟩, hdue⟩
          obtain rfl := outbox_eq_of_id db.outbox (hfresh.rows s hs).1 hr hid
          exact ⟨s, ⟨hs, hdue⟩, rfl⟩
      refine ⟨_, hcall.swept, ?_, ?_⟩
      · rw [hans, map_append, nodup_append]
        refine ⟨hnodup, ?_, ?_⟩
        · rw [hcall.retired]
          exact hfresh.ids.sublist (filter_sublist.map _)
        · rintro o ho o' ho' rfl
          rw [hcall.retired] at ho'
          obtain ⟨r, hr, rfl⟩ := mem_map.mp ho'
          obtain ⟨hrow, -, hwait⟩ := hfresh.rows r (mem_filter.mp hr).1
          rw [hof r hrow, hwait] at ho
          cases ho
      · intro r hr
        rw [hans, map_append, mem_append, hof r hr, hnew r hr, gone_append, Bool.or_eq_true]

/-! ## Nothing is missed -/

theorem sweeps_scan (x : Externals) (hclear : ∀ r ∈ db.outbox.rows, db.stops observed r = false) :
    Scan (waitingPlaces db) (toLex ("", "")) (sweepPlace x now limit db)
      (RetiredBy x now observed limit db) := by
  refine ⟨fun i => ?_⟩
  obtain ⟨done, h, -⟩ := sweeps_swept hclock hlimit x db i
  rcases sweeps_succ hclock hlimit h with ⟨⟨r, hr, hstop⟩, -⟩ | ⟨part, a, -, hcall⟩
  · rw [hclear r (h.mem_queue.mp hr).1] at hstop
    cases hstop
  · -- a row of the part, or one that was gone before, is retired now
    have hretired {r : OutboxRow} (hr : r ∈ db.outbox.rows) (hdue : db.retires observed r = true)
        (hpart : db.gone observed done r = false → r ∈ part) :
        r.retire observed ∈ (sweeps x now limit db (i + 1)).1.outbox.rows := by
      rw [hcall.swept.retired_iff hr hdue, gone_append]
      cases hgone : db.gone observed done r with
      | true => rfl
      | false =>
        simp only [Db.gone, hdue, Bool.and_true, contains_eq_mem, Bool.false_or, decide_eq_true_eq]
        exact mem_map_of_mem (hpart hgone)
    have hqueue {r : OutboxRow} (hr : r ∈ db.outbox.rows) (hdue : db.retires observed r = true)
        (hplace : sweepPlace x now limit db i < r.place)
        (hgone : db.gone observed done r = false) :
        r ∈ (sweeps x now limit db i).1.sweepQueue
          ((sweeps x now limit db i).1.sweepCursor.getD ("", "")) := by
      simp only [Db.retires, Bool.and_eq_true] at hdue
      exact h.mem_queue.mpr ⟨hr, hdue.1.1, hgone, hplace⟩
    rcases hcall.cursor with ⟨hwrap, hall⟩ | ⟨t, ht, hstop⟩
    · left
      refine ⟨?_, ?_⟩
      · rw [sweepPlace, hwrap]
        rfl
      · rintro p - hp r hr rfl hdue
        exact hretired hr hdue fun hgone => hall ▸ hqueue hr hdue hp hgone
    · right
      have hplace : sweepPlace x now limit db (i + 1) = t.place := by
        rw [sweepPlace, hstop]
        rfl
      have htmem := mem_of_getLast? ht
      obtain ⟨htrow, htwait, -, htafter⟩ := h.mem_queue.mp (hcall.queue.subset htmem)
      rw [hplace]
      refine ⟨htafter, mem_waitingPlaces.mpr ⟨t, htrow, htwait, rfl⟩, ?_⟩
      rintro p - hp hle r hr rfl hdue
      refine hretired hr hdue fun hgone => ?_
      -- the part holds all of the queue up to its last row
      obtain ⟨rest, hrest⟩ := hcall.queue
      have hin := hqueue hr hdue hp hgone
      rw [← hrest] at hin
      refine (mem_append.mp hin).resolve_right fun hinrest => ?_
      have hsorted := hrest ▸ sweepQueue_sorted (sweeps x now limit db i).1 _
      exact absurd hle ((pairwise_append.mp hsorted).2.2 t htmem r hinrest).not_ge

theorem sweeps_retired_later (hr : r ∈ db.outbox.rows) (hdue : db.retires observed r = true)
    {i : ℕ} (hik : i ≤ k)
    (h : r.retire observed ∈ (sweeps x now limit db i).1.outbox.rows) :
    r.retire observed ∈ (sweeps x now limit db k).1.outbox.rows := by
  induction k, hik using Nat.le_induction with
  | base => exact h
  | succ k _ ih =>
    obtain ⟨done, hswept, -⟩ := sweeps_swept hclock hlimit x db k
    rcases sweeps_succ hclock hlimit hswept with ⟨-, hsame⟩ | ⟨part, a, -, hcall⟩
    · rw [hsame]
      exact ih
    · rw [hcall.swept.retired_iff hr hdue, gone_append, (hswept.retired_iff hr hdue).mp ih,
        Bool.true_or]

/-- What the outbox holds when all that had to be retired is. -/
def Db.sweptRows (db : Db) (observed : String) : List OutboxRow :=
  db.outbox.rows.map fun r => if db.retires observed r then r.retire observed else r

theorem sweeps_rows_of_retired (x : Externals) (db : Db)
    (h : ∀ r ∈ db.outbox.rows, db.retires observed r = true →
      r.retire observed ∈ (sweeps x now limit db k).1.outbox.rows) :
    (sweeps x now limit db k).1.outbox.rows = db.sweptRows observed := by
  obtain ⟨done, hswept, -⟩ := sweeps_swept hclock hlimit x db k
  rw [hswept.rows, Db.sweptRows]
  refine map_congr_left fun r hr => ?_
  cases hdue : db.retires observed r with
  | true =>
    have hgone := (hswept.retired_iff hr hdue).mp (h r hr hdue)
    rw [hgone]
  | false =>
    have hgone : db.gone observed done r = false := by
      rw [Db.gone, hdue, Bool.and_false]
    rw [hgone]

/-- Two rounds of calls that no row stops retire all there is. -/
theorem sweeps_complete (x : Externals) (db : Db)
    (hcreated : ∀ r ∈ db.outbox.rows, r.createdAt ≠ "")
    (hclear : ∀ r ∈ db.outbox.rows, db.stops observed r = false)
    (hk : 2 * ((db.outbox.rows.filter OutboxRow.waiting).length + 1) ≤ k) :
    (sweeps x now limit db k).1.outbox.rows = db.sweptRows observed := by
  refine sweeps_rows_of_retired hclock hlimit x db fun r hr hdue => ?_
  have hwait : r.waiting = true := by
    simp only [Db.retires, Bool.and_eq_true] at hdue
    exact hdue.1.1
  have hstart : ∀ p ∈ waitingPlaces db, toLex ("", "") < p := by
    intro p hp
    obtain ⟨s, hs, -, rfl⟩ := mem_waitingPlaces.mp hp
    exact OutboxRow.start_lt_place (hcreated s hs)
  obtain ⟨i, hi, hdone⟩ := (sweeps_scan hclock hlimit x hclear).complete hstart
    (mem_waitingPlaces.mpr ⟨r, hr, hwait, rfl⟩)
  have hcard : (waitingPlaces db).card ≤ (db.outbox.rows.filter OutboxRow.waiting).length :=
    (toFinset_card_le _).trans (length_map _).le
  exact sweeps_retired_later hclock hlimit hr hdue (by omega) (hdone r hr rfl hdue)

/-! ## A row in the way -/

/-- From before a row that stops them, and with no way around it, the calls retire nothing
outside of the places in between. -/
theorem sweeps_stuck (x : Externals) (db : Db) (hp : p ∈ db.outbox.rows)
    (hstop : db.stops observed p = true) (hfirst : sweepPlace x now limit db 0 < p.place) (k : ℕ) :
    sweepPlace x now limit db 0 ≤ sweepPlace x now limit db k ∧
      sweepPlace x now limit db k < p.place ∧
      ∃ done, SweptPast observed done db (sweeps x now limit db k).1 ∧
        ∀ r ∈ db.outbox.rows, db.gone observed done r = true →
          sweepPlace x now limit db 0 < r.place ∧ r.place < p.place := by
  induction k with
  | zero =>
    refine ⟨le_refl _, hfirst, [], .refl observed db, fun r hr hgone => ?_⟩
    simp [Db.gone] at hgone
  | succ k ih =>
    obtain ⟨hle, hlt, done, h, hbetween⟩ := ih
    have hpwait : p.waiting = true := by
      simp only [Db.stops, Bool.and_eq_true] at hstop
      exact hstop.1
    have hpgone : db.gone observed done p = false := by
      rw [← Bool.not_eq_true]
      intro hgone
      exact lt_irrefl _ (hbetween p hp hgone).2
    rcases sweeps_succ hclock hlimit h with ⟨-, hsame⟩ | ⟨part, a, -, hcall⟩
    · rw [sweepPlace, sweepPlace, hsame]
      exact ⟨hle, hlt, done, h, hbetween⟩
    · obtain ⟨rest, hrest⟩ := hcall.queue
      have hsorted := hrest ▸ sweepQueue_sorted (sweeps x now limit db k).1 _
      -- the row in the way is in the queue but was not examined
      have hprest : p ∈ rest := by
        have hin := h.mem_queue.mpr ⟨hp, hpwait, hpgone, hlt⟩
        rw [← hrest] at hin
        refine (mem_append.mp hin).resolve_left fun hpart => ?_
        rw [hcall.clear p hpart] at hstop
        cases hstop
      have hpart : ∀ r ∈ part, sweepPlace x now limit db k < r.place ∧ r.place < p.place := by
        intro r hr
        obtain ⟨-, -, -, hafter⟩ := h.mem_queue.mp (hcall.queue.subset hr)
        exact ⟨hafter, (pairwise_append.mp hsorted).2.2 r hr p hprest⟩
      rcases hcall.cursor with ⟨-, hall⟩ | ⟨t, ht, hstopped⟩
      · rw [← hall] at hrest
        rw [append_right_eq_self.mp hrest] at hprest
        cases hprest
      · have hplace : sweepPlace x now limit db (k + 1) = t.place := by
          rw [sweepPlace, hstopped]
          rfl
        obtain ⟨hafter, hbefore⟩ := hpart t (mem_of_getLast? ht)
        rw [hplace]
        refine ⟨hle.trans hafter.le, hbefore, _, hcall.swept, fun r hr hgone => ?_⟩
        rw [gone_append, Bool.or_eq_true] at hgone
        rcases hgone with hold | hnew
        · exact hbetween r hr hold
        · simp only [Db.gone, Bool.and_eq_true, contains_eq_mem, decide_eq_true_eq] at hnew
          obtain ⟨s, hs, hid⟩ := mem_map.mp hnew.1
          have hsrow := (h.mem_queue.mp (hcall.queue.subset hs)).1
          rw [← outbox_eq_of_id db.outbox hsrow hr hid]
          exact ⟨hle.trans_lt (hpart s hs).1, (hpart s hs).2⟩

end Runs

/-! ## Every store -/

/-- The store with another place to go on from. -/
def Db.withCursor (db : Db) (cursor : Option (String × String)) : Db :=
  { db with sweepCursor := cursor }

theorem isoformat_ne_empty (d : Datetime) : d.isoformat ≠ "" := by
  intro h
  have hchars := congrArg String.toList h
  unfold Datetime.isoformat Datetime.isoformatMicroseconds at hchars
  split at hchars <;> simp [String.toList_ofList] at hchars

theorem Change.createdAt {rows : List OutboxRow} {r' : OutboxRow} (h : Change rows op r r') :
    r'.createdAt = r.createdAt := by
  cases h <;> rfl

theorem Creates.createdAt {db : Db} {row : OutboxRow} {snapshot : Option Snapshot}
    (h : Creates db op row snapshot) : row.createdAt ≠ "" := by
  have hrow (item : DeliveryOutboxItem) (source : DeliverySource) (n : ℤ) (now : Datetime) :
      (item.row source n (nowIso now)).createdAt ≠ "" := by
    show (orNone item.createdAt).getD (nowIso now) ≠ ""
    cases hcreated : orNone item.createdAt with
    | none => exact isoformat_ne_empty now
    | some t =>
      rintro rfl
      exact orNone_ne_empty _ hcreated
  cases h <;> exact hrow _ _ _ _

theorem createdAt_stateAfter (x : Externals) (ops : List Op) :
    ∀ r ∈ (stateAfter x ops).outbox.rows, r.createdAt ≠ "" := by
  refine rows_invariant x (fun _ _ _ _ hc => hc.createdAt) ?_ ops
  intro rows op r r' hc h
  rw [hc.createdAt]
  exact h

/-- With something left to retire, some stored cursor keeps a sweep that stands in its way from
ever retiring it. -/
theorem sweeps_incomplete (x : Externals) {now : Datetime} {observed : String} {limit : ℤ} {db : Db}
    (hclock : utcMicroseconds now.isoformat "Cleanup clock" = .ok observed)
    (hlimit : 1 ≤ limit ∧ limit ≤ 500) (hcreated : ∀ r ∈ db.outbox.rows, r.createdAt ≠ "")
    (hp : p ∈ db.outbox.rows) (hstop : db.stops observed p = true) (hr : r ∈ db.outbox.rows)
    (hdue : db.retires observed r = true) :
    ∃ cursor, ∀ k, r.retire observed ∉
      (sweeps x now limit (db.withCursor (some cursor)) k).1.outbox.rows := by
  -- start past the row if it comes before the one in the way
  obtain ⟨cursor, hfirst, hpast⟩ : ∃ cursor : String × String, toLex cursor < p.place ∧
      ¬(toLex cursor < r.place ∧ r.place < p.place) := by
    by_cases hlt : r.place < p.place
    · exact ⟨r.sweepKey, hlt, fun h => lt_irrefl _ h.1⟩
    · exact ⟨("", ""), OutboxRow.start_lt_place (hcreated p hp), fun h => hlt h.2⟩
  refine ⟨cursor, fun k hmem => ?_⟩
  obtain ⟨-, -, done, hswept, hbetween⟩ :=
    sweeps_stuck hclock hlimit x (db.withCursor (some cursor)) hp hstop hfirst k
  exact hpast (hbetween r hr ((hswept.retired_iff hr hdue).mp hmem))

/-- The deadline sweep is bounded, and complete unless a row stands in its way. A call examines at
most `max(25, limit)` rows and retires at most `limit`; however many are made, the rows they answer
are retired, each once and past its deadline, and no other row changes. Two rounds over the waiting
rows retire all they should from every cursor exactly if no waiting row stops them, or nothing is
to be retired. -/
theorem deadline_sweep_complete_iff (x : Externals) (ops : List Op) (now : Datetime)
    (observed : String) (limit : ℤ)
    (hclock : utcMicroseconds now.isoformat "Cleanup clock" = .ok observed)
    (hlimit : 1 ≤ limit ∧ limit ≤ 500) :
    (∀ db cursor s db', (sweepLoop observed limit.toNat (max 25 limit.toNat)
        (max 25 limit.toNat) { cursor }).run db = .ok (s, db') →
      s.examined ≤ max 25 limit.toNat ∧ s.retired.length ≤ limit.toNat) ∧
    (∀ cursor k,
      let db := (stateAfter x ops).withCursor cursor
      let ids := (sweeps x now limit db k).2.map DeadlineRetirement.outboxId
      ids.Nodup ∧ (∀ r ∈ db.outbox.rows, r.outboxId ∈ ids → db.retires observed r = true) ∧
        (sweeps x now limit db k).1.outbox.rows =
          db.outbox.rows.map fun r => if r.outboxId ∈ ids then r.retire observed else r) ∧
    ((∀ cursor k,
        2 * (((stateAfter x ops).outbox.rows.filter OutboxRow.waiting).length + 1) ≤ k →
        (sweeps x now limit ((stateAfter x ops).withCursor cursor) k).1.outbox.rows =
          (stateAfter x ops).sweptRows observed) ↔
      (∀ r ∈ (stateAfter x ops).outbox.rows, (stateAfter x ops).stops observed r = false) ∨
        ∀ r ∈ (stateAfter x ops).outbox.rows, (stateAfter x ops).retires observed r = false) := by
  have hcreated := createdAt_stateAfter x ops
  refine ⟨?_, ?_, ?_, ?_⟩
  · intro db cursor s db' hrun
    rcases sweepLoop_spec (.refl observed db) limit.toNat (max 25 limit.toNat)
        (max 25 limit.toNat) { cursor } (by simp) (by simp) (by simp) with ⟨e, herr, -⟩ |
      ⟨part, rest, s', db'', -, hok, -, -, hbudget, hlen, -⟩
    · rw [herr] at hrun
      cases hrun
    · rw [hok] at hrun
      cases hrun
      exact ⟨hbudget, hlen⟩
  · intro cursor k db ids
    obtain ⟨done, hswept, hnodup, hids⟩ := sweeps_swept hclock hlimit x db k
    refine ⟨hnodup, fun r hr hin => ?_, ?_⟩
    · have hgone := (hids r hr).mp hin
      rw [Db.gone, Bool.and_eq_true] at hgone
      exact hgone.2
    · rw [hswept.rows]
      exact map_congr_left fun r hr => if_congr (hids r hr).symm rfl rfl
  · intro hall
    by_contra hnot
    push Not at hnot
    obtain ⟨⟨p, hp, hstop⟩, r, hr, hdue⟩ := hnot
    rw [Bool.ne_false_iff] at hstop hdue
    obtain ⟨cursor, hnever⟩ := sweeps_incomplete x hclock hlimit hcreated hp hstop hr hdue
    have hrows := hall (some cursor) _ (le_refl _)
    have hretired : r.retire observed ∈ (stateAfter x ops).sweptRows observed :=
      mem_map.mpr ⟨r, hr, if_pos hdue⟩
    exact hnever _ (hrows ▸ hretired)
  · rintro hcond cursor k hk
    rcases hcond with hclear | hnone
    · exact sweeps_complete hclock hlimit x ((stateAfter x ops).withCursor cursor) hcreated
        hclear hk
    · refine sweeps_rows_of_retired hclock hlimit x ((stateAfter x ops).withCursor cursor)
        fun r hr hdue => ?_
      have hdue' : (stateAfter x ops).retires observed r = true := hdue
      rw [hnone r hr] at hdue'
      cases hdue'

namespace Sample

/-- Work of its own plan that waits, with a deadline in its inline metadata. -/
def waitingUntil (outboxId deadline : String) : DeliveryOutboxItem :=
  { outboxId, eventId := "event", routeId := "route", deliveryPlanId := outboxId
    targetAdapter := "radio", metadata := [("deadline", .str deadline)] }

def overdueRow : List Op :=
  [.append event (clock 0),
    .createOutboxItem (waitingUntil "overdue" "2026-01-01T00:10:00+00:00") false none (clock 0)]

/-- A second overdue row, and one whose deadline is ahead. -/
def overdueRows : List Op :=
  overdueRow ++
    [.createOutboxItem (waitingUntil "late" "2026-01-01T00:10:00+00:00") false none (clock 0),
      .createOutboxItem (waitingUntil "open" "2026-01-01T00:30:00+00:00") false none (clock 0)]

def blockedRow : List Op :=
  overdueRow ++
    [.createOutboxItem (waitingUntil "blocked" "0001-01-01T00:00:00+01:00") false none (clock 0)]

end Sample

open Sample in
/-- One row a call is retired: both overdue rows are after two rounds, the third is not. -/
theorem deadline_sweep_complete_overdue :
    let db := (stateAfter externals overdueRows).withCursor none
    (sweeps externals (clock 20) 1 db 1).2.map DeadlineRetirement.outboxId = ["late"] ∧
      (sweeps externals (clock 20) 1 db 8).1.outbox.rows =
        (stateAfter externals overdueRows).sweptRows "2026-01-01T00:20:00.000000+00:00" ∧
      (sweeps externals (clock 20) 1 db 8).1.outbox.rows.map
          (fun r => (r.outboxId, r.status.isTerminal)) =
        [("overdue", true), ("late", true), ("open", false)] := by
  have hclock : utcMicroseconds (clock 20).isoformat "Cleanup clock" =
      .ok "2026-01-01T00:20:00.000000+00:00" := by decide +kernel
  have hcond : ∀ r ∈ (stateAfter externals overdueRows).outbox.rows,
      (stateAfter externals overdueRows).stops "2026-01-01T00:20:00.000000+00:00" r = false := by
    decide +kernel
  have hrows := (deadline_sweep_complete_iff externals overdueRows (clock 20) _ 1 hclock
    (by decide)).2.2.mpr (.inl hcond) none 8 (by decide +kernel)
  exact ⟨by decide +kernel, hrows, by rw [hrows]; decide +kernel⟩

open Sample in
/-- Behind the other row the overdue one never is retired: every call raises and changes nothing. -/
theorem deadline_sweep_blocked :
    (∃ r ∈ (stateAfter externals blockedRow).outbox.rows, r.outboxId = "overdue" ∧
      (stateAfter externals blockedRow).retires "2026-01-01T00:20:00.000000+00:00" r = true) ∧
    ∀ k, sweeps externals (clock 20) 10 (stateAfter externals blockedRow) k =
      (stateAfter externals blockedRow, []) := by
  have hdue : (stateAfter externals blockedRow).outbox.rows.any (fun r =>
      r.outboxId = "overdue" && (stateAfter externals blockedRow).retires
        "2026-01-01T00:20:00.000000+00:00" r) = true := by decide +kernel
  have hraises : (step externals (stateAfter externals blockedRow)
      (.retireExpiredUnstartedOutbox (clock 20) 10)).2.isOk = false := by decide +kernel
  refine ⟨?_, fun k => ?_⟩
  · simpa only [any_eq_true, Bool.and_eq_true, decide_eq_true_eq] using hdue
  · exact sweeps_of_raise hraises k

end Medre.Storage
