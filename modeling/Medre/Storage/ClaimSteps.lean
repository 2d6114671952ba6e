import Medre.Framework.DatetimeOrder
import Medre.Storage.Generations

/-! # Claims of due outbox rows, step by step (`claim_due_outbox_items`)

A claim is a `SELECT`, a conditional `UPDATE` and a re-read, each a transaction of its own. -/

namespace Medre.Storage

open List Medre.Framework

variable {r r' s : OutboxRow} {c d : ClaimCall} {ids : List String} {i j : ℕ}
  {rows : List OutboxRow} {o : String} {before between : List ClaimAction}

/-! ## One claim -/

/-- The arguments of `claim_due_outbox_items`. -/
structure ClaimCall where
  now : String
  workerId : String
  leaseSeconds : ℤ
  /-- A negative limit is none. -/
  limit : ℤ
  filters : ClaimFilters := {}

/-- The texts a claim computes first: the new lease and the cutoff of stale entries. -/
def ClaimCall.texts (c : ClaimCall) : Except Err (String × String) := do
  let lease ← addSecondsIso c.now c.leaseSeconds
  let parsed ← liftPy (Datetime.fromisoformat c.now)
  let cutoff ← liftPy (parsed.addSeconds (-staleQueuedGraceSeconds))
  pure (lease, cutoff.isoformat)

/-- The call as its `UPDATE`. -/
def ClaimCall.op (c : ClaimCall) (ids : List String) : Op :=
  .claimDueOutboxItems c.now c.workerId c.leaseSeconds ids c.filters

/-- `COALESCE(next_attempt_at, created_at)`. -/
def OutboxRow.dueAt (r : OutboxRow) : String := r.nextAttemptAt.getD r.createdAt

/-- `adapter_rank = 1`: the first row of each adapter; rows stand in `rowid` order, which
the sort keeps. -/
def adapterLeads (rows : List OutboxRow) : List OutboxRow :=
  (rows.insertionSort fun r s =>
    r.dueAt < s.dueAt ∨ (r.dueAt = s.dueAt ∧ r.createdAt ≤ s.createdAt)).foldl
    (fun leads r =>
      if leads.any fun l => l.targetAdapter = r.targetAdapter then leads else leads ++ [r]) []

/-- `_claim_sql`. -/
def Db.claimCandidates (db : Db) (c : ClaimCall) (cutoff : String) : List OutboxRow :=
  let eligible := db.outbox.rows.filter
    (OutboxRow.claimable db.outbox.rows c.now cutoff c.filters)
  let ranked := if c.filters.onePerAdapter then adapterLeads eligible else eligible
  let ordered := ranked.insertionSort fun r s =>
    r.dueAt < s.dueAt ∨ (r.dueAt = s.dueAt ∧ (r.createdAt < s.createdAt ∨
      (r.createdAt = s.createdAt ∧ r.outboxId ≤ s.outboxId)))
  if c.limit < 0 then ordered else ordered.take c.limit.toNat

/-- The re-read: what the worker holds of the candidates. -/
def Db.claimedRows (db : Db) (workerId : String) (ids : List String) : List OutboxRow :=
  db.outbox.rows.filter fun r =>
    ids.contains r.outboxId && r.workerId = some workerId && r.status = .inProgress &&
      r.noSiblingFrom db.outbox.rows r.generation

/-! ## Any number of claims -/

inductive ClaimStage where
  | selected (ids : List String)
  | updated (ids : List String)
  | returned (rows : List OutboxRow)
  | raised (e : Err)

/-- The store and the claims made so far, in the order of their `SELECT`s. -/
structure Claims where
  store : Db
  calls : List (ClaimCall × ClaimStage)

inductive ClaimAction where
  | select (c : ClaimCall)
  | update (i : ℕ)
  | reread (i : ℕ)
  /-- Any other call on the store. -/
  | other (op : Op)

def Claims.select (σ : Claims) (c : ClaimCall) : Claims :=
  match c.texts with
  | .error e => { σ with calls := σ.calls ++ [(c, .raised e)] }
  | .ok (_, cutoff) =>
    match (σ.store.claimCandidates c cutoff).map OutboxRow.outboxId with
    | [] => { σ with calls := σ.calls ++ [(c, .returned [])] }
    | ids => { σ with calls := σ.calls ++ [(c, .selected ids)] }

def Claims.update (x : Externals) (σ : Claims) (i : ℕ) : Claims :=
  match σ.calls[i]? with
  | some (c, .selected ids) =>
    { store := (step x σ.store (c.op ids)).1
      calls := σ.calls.set i (c,
        match (step x σ.store (c.op ids)).2 with
        | .ok _ => .updated ids
        | .error e => .raised e) }
  | _ => σ

def Claims.reread (σ : Claims) (i : ℕ) : Claims :=
  match σ.calls[i]? with
  | some (c, .updated ids) =>
    { σ with
      calls := σ.calls.set i (c, .returned (σ.store.claimedRows c.workerId ids)) }
  | _ => σ

def Claims.step (x : Externals) (σ : Claims) : ClaimAction → Claims
  | .select c => σ.select c
  | .update i => σ.update x i
  | .reread i => σ.reread i
  | .other op => { σ with store := (Storage.step x σ.store op).1 }

def claimsFrom (x : Externals) (db : Db) (actions : List ClaimAction) : Claims :=
  actions.foldl (Claims.step x) { store := db, calls := [] }

theorem claimsFrom_snoc (x : Externals) (db : Db) (actions : List ClaimAction) (a : ClaimAction) :
    claimsFrom x db (actions ++ [a]) = (claimsFrom x db actions).step x a :=
  foldl_concat ..

def ClaimAction.worker? : ClaimAction → Option String
  | .select c => some c.workerId
  | _ => none

def claimWorkers (actions : List ClaimAction) : List String :=
  actions.filterMap ClaimAction.worker?

/-- A call that is no claim and creates no row in the hands of one of the workers. -/
def Op.spares (workers : List String) : Op → Bool
  | .claimDueOutboxItems .. => false
  | .createOutboxItem item .. => item.workerId.all fun w => !workers.contains w
  | _ => true

/-- The claims use distinct worker ids, and a row comes into their hands by a claim only. -/
structure DistinctClaimers (db : Db) (actions : List ClaimAction) : Prop where
  workers : (claimWorkers actions).Nodup
  unheld : ∀ r ∈ db.outbox.rows, ∀ w ∈ claimWorkers actions, r.workerId ≠ some w
  others : ∀ op, .other op ∈ actions → op.spares (claimWorkers actions) = true

/-! ## What one action does to a row -/

/-- The `UPDATE` of the `i`th claim, made now, takes the row. -/
structure Claims.Takes (x : Externals) (σ : Claims) (i : ℕ) (c : ClaimCall)
    (r : OutboxRow) : Prop where
  row : r ∈ σ.store.outbox.rows
  candidate : ∃ ids, σ.calls[i]? = some (c, .selected ids) ∧ r.outboxId ∈ ids
  claimed : ∃ lease cutoff, c.texts = .ok (lease, cutoff) ∧
    r.claimable σ.store.outbox.rows c.now cutoff c.filters = true ∧
    r.claim c.now lease c.workerId ∈ (σ.update x i).store.outbox.rows

/-- What an action does to a row of the store. -/
inductive RowMove (x : Externals) (σ : Claims) : ClaimAction → OutboxRow → OutboxRow → Prop
  | keep {a : ClaimAction} {r : OutboxRow} : RowMove x σ a r r
  | change {op : Op} {r r' : OutboxRow} (h : Change σ.store.outbox.rows op r r') :
      RowMove x σ (.other op) r r'
  | take {i : ℕ} {c : ClaimCall} {r : OutboxRow} {lease : String} (h : σ.Takes x i c r) :
      RowMove x σ (.update i) r (r.claim c.now lease c.workerId)

variable {x : Externals} {σ : Claims} {a : ClaimAction}

theorem RowMove.outboxId (h : RowMove x σ a r r') : r'.outboxId = r.outboxId := by
  cases h with
  | keep => rfl
  | change h => exact h.keys.1
  | take h => rfl

theorem run_claimDue {db db' : Db} {a : List OutboxRow}
    (h : (claimDueOutboxItems c.now c.workerId c.leaseSeconds ids c.filters).run db =
      .ok (a, db')) :
    ∃ lease cutoff, c.texts = .ok (lease, cutoff) ∧
      db'.outbox.rows = db.outbox.rows.map fun r =>
        if ids.contains r.outboxId && r.claimable db.outbox.rows c.now cutoff c.filters then
          r.claim c.now lease c.workerId else r := by
  simp only [claimDueOutboxItems, Tx.run_bind, Tx.run_lift, Tx.run_query] at h
  obtain ⟨lease, _, ⟨hlease, rfl⟩, parsed, _, ⟨hparsed, rfl⟩, cutoff, _, ⟨hcutoff, rfl⟩,
    rows, _, ⟨rfl, rfl⟩, n, db1, hupd, -, rfl⟩ := h
  obtain ⟨t, hu, -, rfl⟩ := run_updateTable.mp hupd
  refine ⟨lease, cutoff.isoformat, ?_, Table.rows_update hu⟩
  exact bind_of_ok hlease (bind_of_ok hparsed (bind_of_ok hcutoff rfl))

theorem Claims.update_rows (x : Externals)
    (hcall : σ.calls[i]? = some (c, .selected ids)) (hr' : r' ∈ (σ.update x i).store.outbox.rows) :
    ∃ r ∈ σ.store.outbox.rows, RowMove x σ (.update i) r r' := by
  have hstore : (σ.update x i).store = (Storage.step x σ.store (c.op ids)).1 := by
    simp only [Claims.update, hcall]
  cases hans : (Storage.step x σ.store (c.op ids)).2 with
  | error e =>
    rw [hstore, step_of_error hans] at hr'
    exact ⟨r', hr', .keep⟩
  | ok ans =>
    obtain ⟨a, -, hrun⟩ := run_of_answer rfl hans
    obtain ⟨lease, cutoff, htexts, hrows⟩ := run_claimDue hrun
    rw [← hstore] at hrows
    have hmem := hr'
    rw [hrows] at hmem
    obtain ⟨r, hr, rfl⟩ := mem_map.mp hmem
    refine ⟨r, hr, ?_⟩
    split_ifs at hr' ⊢ with hp
    · rw [Bool.and_eq_true, contains_iff_mem] at hp
      exact .take ⟨hr, ⟨ids, hcall, hp.1⟩, lease, cutoff, htexts, hp.2, hr'⟩
    · exact .keep

theorem Claims.step_rows (x : Externals) (σ : Claims) (a : ClaimAction)
    (hr' : r' ∈ (σ.step x a).store.outbox.rows) :
    (∃ r ∈ σ.store.outbox.rows, RowMove x σ a r r') ∨
      ∃ item allocate snapshot now, a = .other (.createOutboxItem item allocate snapshot now) ∧
        r'.workerId = item.workerId ∧
        ∀ r ∈ σ.store.outbox.rows, r.outboxId ≠ r'.outboxId := by
  have hkeep (h : (σ.step x a).store = σ.store) :
      ∃ r ∈ σ.store.outbox.rows, RowMove x σ a r r' := ⟨r', h ▸ hr', .keep⟩
  cases a with
  | select c =>
    refine .inl (hkeep ?_)
    simp only [Claims.step, Claims.select]
    repeat' split
    all_goals rfl
  | reread i =>
    refine .inl (hkeep ?_)
    simp only [Claims.step, Claims.reread]
    split <;> rfl
  | update i =>
    left
    cases hcall : σ.calls[i]? with
    | none =>
      refine hkeep ?_
      simp only [Claims.step, Claims.update, hcall]
    | some call =>
      obtain ⟨c, stage⟩ := call
      cases stage with
      | selected ids => exact update_rows x hcall hr'
      | updated ids | returned rows | raised e =>
        refine hkeep ?_
        simp only [Claims.step, Claims.update, hcall]
  | other op =>
    cases step_outbox x σ.store op with
    | rewritten f h owned =>
      have hmem : r' ∈ σ.store.outbox.rows.map f := h.rows ▸ hr'
      obtain ⟨r, hr, rfl⟩ := mem_map.mp hmem
      left
      rcases h.change r hr with heq | hc
      · rw [heq]
        exact ⟨r, hr, .keep⟩
      · exact ⟨r, hr, .change hc⟩
    | created row snapshot h rows snapshots =>
      by_cases hold : r' ∈ σ.store.outbox.rows
      · exact .inl ⟨r', hold, .keep⟩
      · have hmem : r' ∈ σ.store.outbox.rows ++ [row] := rows ▸ hr'
        have hnew := (mem_append.mp hmem).resolve_left hold
        obtain rfl := mem_singleton.mp hnew
        have hfresh : ∀ r ∈ σ.store.outbox.rows, r.outboxId ≠ r'.outboxId := by
          intro r hr hid
          have hr'' : r ∈ (Storage.step x σ.store op).1.outbox.rows := by
            rw [rows]
            exact mem_append_left _ hr
          exact hold (outbox_eq_of_id _ hr'' hr' hid ▸ hr)
        right
        cases h <;> exact ⟨_, _, _, _, rfl, rfl, hfresh⟩

/-! ## What other calls leave of a claim -/

theorem Change.workerId {workers : List String} {op : Op} (h : Change rows op r r')
    (hop : op.spares workers = true) :
    r'.workerId = r.workerId ∨ r'.workerId = none := by
  cases h with
  | claim h => cases hop
  | reserve h => exact .inl rfl
  | renew h => exact .inl rfl
  | release h hactive hst => exact .inr rfl
  | mark h =>
    simp only [StatusUpdate.apply]
    split
    · exact .inr rfl
    · exact .inl rfl
  | finalizeSent h => exact .inr rfl
  | finalizeTerminal h hworker => exact .inr rfl
  | retire hst h => exact .inr rfl
  | cancel hst h => exact .inl rfl

theorem Change.inProgress {workers : List String} {op : Op} (h : Change rows op r r')
    (hop : op.spares workers = true) (hst' : r'.status = .inProgress) :
    r.status = .inProgress ∧ (r.leaseUntil.isSome = true → r'.leaseUntil.isSome = true) := by
  cases h with
  | claim h => cases hop
  | reserve h => exact ⟨hst', id⟩
  | renew h => exact ⟨hst', fun _ => rfl⟩
  | release h hactive hst =>
    rename_i o w st now
    have hst'' : st = .inProgress := hst'
    rw [hst''] at hst
    cases hst
  | mark h => exact absurd hst' (MarkCall.update_newStatus _).1
  | finalizeSent h => cases hst'
  | finalizeTerminal h hworker =>
    rename_i c
    have hterminal := c.terminalStatus_isTerminal
    have hst'' : c.terminalStatus = .inProgress := hst'
    rw [hst''] at hterminal
    cases hterminal
  | retire hst h => cases hst'
  | cancel hst h => cases hst'

/-! ## What one action does to the calls -/

inductive CallsMove (σ : Claims) : ClaimAction → List (ClaimCall × ClaimStage) → Prop
  | same {a : ClaimAction} (h : a.worker? = none) : CallsMove σ a σ.calls
  | started {c : ClaimCall} {stage : ClaimStage}
      (h : ∀ rows, stage = .returned rows → rows = []) :
      CallsMove σ (.select c) (σ.calls ++ [(c, stage)])
  | moved {a : ClaimAction} {i : ℕ} {c : ClaimCall} {stage stage' : ClaimStage}
      (h : a.worker? = none) (hcall : σ.calls[i]? = some (c, stage))
      (hrows : ∀ rows, stage' = .returned rows →
        ∃ ids, rows = σ.store.claimedRows c.workerId ids) :
      CallsMove σ a (σ.calls.set i (c, stage'))

theorem Claims.step_calls (x : Externals) (σ : Claims) (a : ClaimAction) :
    CallsMove σ a (σ.step x a).calls := by
  cases a with
  | select c =>
    simp only [Claims.step, Claims.select]
    split
    · exact .started nofun
    · split
      · refine .started fun rows h => ?_
        cases h
        rfl
      · exact .started nofun
  | update i =>
    simp only [Claims.step, Claims.update]
    split
    · rename_i c ids hcall
      refine .moved rfl hcall ?_
      split <;> exact nofun
    · exact .same rfl
  | reread i =>
    simp only [Claims.step, Claims.reread]
    split
    · rename_i c ids hcall
      refine .moved rfl hcall fun rows h => ?_
      cases h
      exact ⟨ids, rfl⟩
    · exact .same rfl
  | other op => exact .same rfl

namespace CallsMove

variable {σ : Claims} {a : ClaimAction} {calls : List (ClaimCall × ClaimStage)}

theorem call (h : CallsMove σ a calls) {i : ℕ} {c : ClaimCall} {stage : ClaimStage}
    (hcall : σ.calls[i]? = some (c, stage)) : ∃ stage', calls[i]? = some (c, stage') := by
  have hlt : i < σ.calls.length := (List.getElem?_eq_some_iff.mp hcall).1
  cases h with
  | same h => exact ⟨stage, hcall⟩
  | started h => exact ⟨stage, by rw [getElem?_append_left hlt, hcall]⟩
  | moved h hmoved hrows =>
    rename_i j d st st'
    by_cases hij : j = i
    · subst hij
      rw [hcall, Option.some_inj, Prod.mk.injEq] at hmoved
      rw [hmoved.1, getElem?_set_self hlt]
      exact ⟨st', rfl⟩
    · rw [getElem?_set_ne hij]
      exact ⟨stage, hcall⟩

theorem workers (h : CallsMove σ a calls) :
    calls.map (fun p => p.1.workerId) =
      σ.calls.map (fun p => p.1.workerId) ++ a.worker?.toList := by
  cases h with
  | same h => rw [h, Option.toList_none, append_nil]
  | started h => rw [map_append]; rfl
  | moved h hmoved hrows =>
    rename_i i c stage stage'
    rw [h, Option.toList_none, append_nil, map_set]
    obtain ⟨hlt, hget⟩ := List.getElem?_eq_some_iff.mp hmoved
    apply ext_getElem?
    intro j
    by_cases hij : i = j
    · subst hij
      rw [getElem?_set_self (by rwa [length_map]), getElem?_map, hmoved]
      rfl
    · rw [getElem?_set_ne hij]

theorem returned (h : CallsMove σ a calls) {i : ℕ} {c : ClaimCall} {rows : List OutboxRow}
    (hcall : calls[i]? = some (c, .returned rows)) {r : OutboxRow} (hr : r ∈ rows) :
    (∃ ids stage, σ.calls[i]? = some (c, stage) ∧ r ∈ σ.store.claimedRows c.workerId ids) ∨
      σ.calls[i]? = some (c, .returned rows) := by
  cases h with
  | same h => exact .inr hcall
  | started h =>
    rename_i d stage
    rcases Nat.lt_or_ge i σ.calls.length with hlt | hge
    · rw [getElem?_append_left hlt] at hcall
      exact .inr hcall
    · rw [getElem?_append_right hge] at hcall
      obtain ⟨-, hget⟩ := mem_singleton.mp (mem_of_getElem? hcall) |> Prod.mk.inj
      rw [h rows hget.symm] at hr
      cases hr
  | moved h hmoved hrows =>
    rename_i j d stage stage'
    by_cases hij : j = i
    · subst hij
      have hlt := (List.getElem?_eq_some_iff.mp hmoved).1
      rw [getElem?_set_self hlt, Option.some_inj, Prod.mk.injEq] at hcall
      obtain ⟨rfl, hstage⟩ := hcall
      obtain ⟨ids, rfl⟩ := hrows rows hstage
      exact .inl ⟨ids, stage, hmoved, hr⟩
    · rw [getElem?_set_ne hij] at hcall
      exact .inr hcall

end CallsMove

/-! ## Whole runs -/

/-- Among the actions is the `UPDATE` of the `i`th claim that took the row. -/
def Took (x : Externals) (db : Db) (actions : List ClaimAction) (i : ℕ) (c : ClaimCall)
    (outboxId : String) : Prop :=
  ∃ earlier later r, actions = earlier ++ .update i :: later ∧ r.outboxId = outboxId ∧
    (claimsFrom x db earlier).Takes x i c r

variable {actions : List ClaimAction} {db : Db}

theorem Took.snoc (h : Took x db actions i c o) (a : ClaimAction) :
    Took x db (actions ++ [a]) i c o := by
  obtain ⟨earlier, later, r, rfl, hid, htakes⟩ := h
  exact ⟨earlier, later ++ [a], r, by simp, hid, htakes⟩

/-- Whatever a claimer holds or has been given, its own `UPDATE` took. -/
structure ClaimsInv (x : Externals) (db : Db) (workers : List String)
    (actions : List ClaimAction) : Prop where
  calls : (claimsFrom x db actions).calls.map (fun p => p.1.workerId) = claimWorkers actions
  held : ∀ r ∈ (claimsFrom x db actions).store.outbox.rows, ∀ w ∈ workers,
    r.workerId = some w → ∃ i c stage, (claimsFrom x db actions).calls[i]? = some (c, stage) ∧
      c.workerId = w ∧ Took x db actions i c r.outboxId
  returned : ∀ i c rows, (claimsFrom x db actions).calls[i]? = some (c, .returned rows) →
    ∀ r ∈ rows, r.status = .inProgress ∧ r.workerId = some c.workerId ∧
      Took x db actions i c r.outboxId

namespace ClaimsInv

variable {x : Externals} {db : Db} {workers : List String} {actions : List ClaimAction}

theorem index_eq (h : ClaimsInv x db workers actions) (hnodup : (claimWorkers actions).Nodup)
    {s t : ClaimStage} (hi : (claimsFrom x db actions).calls[i]? = some (c, s))
    (hj : (claimsFrom x db actions).calls[j]? = some (d, t)) (hw : c.workerId = d.workerId) :
    i = j := by
  have hwi : (claimWorkers actions)[i]? = some c.workerId := by
    rw [← h.calls, getElem?_map, hi]
    rfl
  have hwj : (claimWorkers actions)[j]? = some d.workerId := by
    rw [← h.calls, getElem?_map, hj]
    rfl
  obtain ⟨hlt, -⟩ := List.getElem?_eq_some_iff.mp hwi
  exact (getElem?_inj hlt hnodup).mp (by rw [hwi, hwj, hw])

theorem step_held (h : ClaimsInv x db workers actions)
    (hother : ∀ op, a = .other op → op.spares workers = true) :
    ∀ r ∈ (claimsFrom x db (actions ++ [a])).store.outbox.rows, ∀ w ∈ workers,
      r.workerId = some w →
      ∃ i c stage, (claimsFrom x db (actions ++ [a])).calls[i]? = some (c, stage) ∧
        c.workerId = w ∧ Took x db (actions ++ [a]) i c r.outboxId := by
  rw [claimsFrom_snoc]
  intro r' hr' w hw hworker
  have hcalls := (claimsFrom x db actions).step_calls x a
  -- a row that was in the worker's hands before
  have hold {r : OutboxRow} (hr : r ∈ (claimsFrom x db actions).store.outbox.rows)
      (hid : r'.outboxId = r.outboxId) (hrw : r.workerId = some w) :
      ∃ i c stage, ((claimsFrom x db actions).step x a).calls[i]? = some (c, stage) ∧
        c.workerId = w ∧ Took x db (actions ++ [a]) i c r'.outboxId := by
    obtain ⟨i, c, stage, hcall, hc, htook⟩ := h.held r hr w hw hrw
    obtain ⟨stage', hcall'⟩ := hcalls.call hcall
    exact ⟨i, c, stage', hcall', hc, hid ▸ htook.snoc a⟩
  rcases (claimsFrom x db actions).step_rows x a hr' with
    ⟨r, hr, hmove⟩ | ⟨item, al, sn, now, rfl, hnew, -⟩
  · have hid := hmove.outboxId
    cases hmove with
    | keep => exact hold hr hid hworker
    | change hc =>
      rcases hc.workerId (hother _ rfl) with hsame | hnone
      · exact hold hr hid (hsame ▸ hworker)
      · rw [hnone] at hworker
        cases hworker
    | take htakes =>
      rename_i i c lease
      obtain ⟨ids, hcall, -⟩ := htakes.candidate
      obtain ⟨stage', hcall'⟩ := hcalls.call hcall
      exact ⟨i, c, stage', hcall', Option.some_inj.mp hworker, actions, [], r, rfl, rfl, htakes⟩
  · -- creations spare the workers
    have hspares := hother _ rfl
    rw [hworker] at hnew
    simp [Op.spares, ← hnew, hw] at hspares

theorem step (h : ClaimsInv x db workers actions) (hnodup : (claimWorkers actions).Nodup)
    (hsub : claimWorkers actions ⊆ workers)
    (hother : ∀ op, a = .other op → op.spares workers = true) :
    ClaimsInv x db workers (actions ++ [a]) := by
  have hcalls := (claimsFrom x db actions).step_calls x a
  refine ⟨?_, h.step_held hother, ?_⟩
  · rw [claimsFrom_snoc, hcalls.workers, h.calls, claimWorkers, claimWorkers,
      filterMap_append]
    cases hw : a.worker? <;> simp [hw]
  · rw [claimsFrom_snoc]
    intro i c rows hcall r hr
    rcases hcalls.returned hcall hr with ⟨ids, stage, hbefore, hread⟩ | hbefore
    · simp only [Db.claimedRows, mem_filter, Bool.and_eq_true, decide_eq_true_eq] at hread
      obtain ⟨hmem, ⟨⟨-, hworker⟩, hst⟩, -⟩ := hread
      have hcw : c.workerId ∈ workers := by
        apply hsub
        rw [← h.calls]
        exact mem_map.mpr ⟨_, mem_of_getElem? hbefore, rfl⟩
      obtain ⟨j, d, stage', hj, hd, htook⟩ := h.held r hmem c.workerId hcw hworker
      obtain rfl := h.index_eq hnodup hj hbefore hd
      rw [hj, Option.some_inj, Prod.mk.injEq] at hbefore
      obtain ⟨rfl, -⟩ := hbefore
      exact ⟨hst, hworker, htook.snoc a⟩
    · obtain ⟨hst, hworker, htook⟩ := h.returned i c rows hbefore r hr
      exact ⟨hst, hworker, htook.snoc a⟩

end ClaimsInv

theorem DistinctClaimers.inv (x : Externals)
    (h : DistinctClaimers db actions) (pre : List ClaimAction) (hpre : pre <+: actions) :
    ClaimsInv x db (claimWorkers actions) pre := by
  induction pre using List.reverseRecOn with
  | nil =>
    refine ⟨rfl, ?_, ?_⟩
    · intro r hr w hw hworker
      exact absurd hworker (h.unheld r hr w hw)
    · intro i c rows hcall
      cases hcall
  | append_singleton pre a ih =>
    have hpre' : pre <+: actions := (prefix_append pre [a]).trans hpre
    have hworkers : claimWorkers pre <+: claimWorkers actions := hpre'.filterMap _
    refine (ih hpre').step (h.workers.sublist hworkers.sublist) hworkers.subset ?_
    rintro op rfl
    exact h.others op (hpre.subset (by simp))

/-! ## Leases -/

/-- After the actions `before`, up to some point of `between`, the row is not in progress. -/
def LeavesProgress (x : Externals) (db : Db) (before between : List ClaimAction)
    (outboxId : String) : Prop :=
  ∃ part, part <+: between ∧
    ∃ r ∈ (claimsFrom x db (before ++ part)).store.outbox.rows,
      r.outboxId = outboxId ∧ r.status ≠ .inProgress

theorem LeavesProgress.snoc (h : LeavesProgress x db before between o) (a : ClaimAction) :
    LeavesProgress x db before (between ++ [a]) o := by
  obtain ⟨part, hpart, hrow⟩ := h
  exact ⟨part, hpart.trans (prefix_append _ _), hrow⟩

def Leased (σ : Claims) (outboxId : String) : Prop :=
  ∀ r ∈ σ.store.outbox.rows, r.outboxId = outboxId →
    r.status = .inProgress ∧ r.leaseUntil.isSome = true

theorem Claims.Takes.leased (h : σ.Takes x i c r) : Leased (σ.step x (.update i)) r.outboxId := by
  obtain ⟨lease, cutoff, -, -, hmem⟩ := h.claimed
  intro s hs hid
  rw [outbox_eq_of_id _ hs hmem hid]
  exact ⟨rfl, rfl⟩

theorem Leased.step {workers : List String} (h : Leased σ o)
    (hother : ∀ op, a = .other op → op.spares workers = true)
    (hrow : ∃ r ∈ σ.store.outbox.rows, r.outboxId = o) :
    Leased (σ.step x a) o ∨
      ∃ r ∈ (σ.step x a).store.outbox.rows, r.outboxId = o ∧ r.status ≠ .inProgress := by
  by_cases hleft : ∃ r ∈ (σ.step x a).store.outbox.rows, r.outboxId = o ∧
      r.status ≠ .inProgress
  · exact .inr hleft
  · left
    intro r' hr' hid
    have hst' : r'.status = .inProgress := by
      by_contra hst
      exact hleft ⟨r', hr', hid, hst⟩
    refine ⟨hst', ?_⟩
    rcases σ.step_rows x a hr' with ⟨r, hr, hmove⟩ | ⟨item, al, sn, now, -, -, hfresh⟩
    · have hlease := (h r hr (hmove.outboxId.symm.trans hid)).2
      cases hmove with
      | keep => exact hlease
      | change hc => exact (hc.inProgress (hother _ rfl) hst').2 hlease
      | take htakes => rfl
    · obtain ⟨r, hr, hrid⟩ := hrow
      exact absurd (hrid.trans hid.symm) (hfresh r hr)

theorem Claims.step_has (x : Externals) (a : ClaimAction)
    (h : ∃ r ∈ σ.store.outbox.rows, r.outboxId = o) :
    ∃ r ∈ (σ.step x a).store.outbox.rows, r.outboxId = o := by
  obtain ⟨r, hr, rfl⟩ := h
  have hcall (op : Op) :
      ∃ r' ∈ (Storage.step x σ.store op).1.outbox.rows, r'.outboxId = r.outboxId := by
    obtain ⟨r', hr', hid, -⟩ := step_advances x σ.store op r hr
    exact ⟨r', hr', hid⟩
  cases a with
  | select c =>
    refine ⟨r, ?_, rfl⟩
    simp only [Claims.step, Claims.select]
    repeat' split
    all_goals exact hr
  | reread i =>
    refine ⟨r, ?_, rfl⟩
    simp only [Claims.step, Claims.reread]
    split <;> exact hr
  | update i =>
    simp only [Claims.step, Claims.update]
    split
    · exact hcall _
    · exact ⟨r, hr, rfl⟩
  | other op => exact hcall op

theorem leased_or_left
    (h : DistinctClaimers db actions) (htakes : (claimsFrom x db before).Takes x i c r)
    (between : List ClaimAction) (hpre : before ++ [.update i] ++ between <+: actions) :
    Leased (claimsFrom x db (before ++ [.update i] ++ between)) r.outboxId ∨
      LeavesProgress x db (before ++ [.update i]) between r.outboxId := by
  have hhas (between : List ClaimAction) :
      ∃ s ∈ (claimsFrom x db (before ++ [.update i] ++ between)).store.outbox.rows,
        s.outboxId = r.outboxId := by
    induction between using List.reverseRecOn with
    | nil =>
      rw [append_nil, claimsFrom_snoc]
      exact Claims.step_has x _ ⟨r, htakes.row, rfl⟩
    | append_singleton between a ih =>
      rw [← append_assoc, claimsFrom_snoc]
      exact Claims.step_has x a ih
  induction between using List.reverseRecOn with
  | nil =>
    left
    rw [append_nil, claimsFrom_snoc]
    exact htakes.leased
  | append_singleton between a ih =>
    rw [← append_assoc] at hpre ⊢
    rcases ih ((prefix_append _ [a]).trans hpre) with hleased | hleft
    · have hother : ∀ op, a = .other op → op.spares (claimWorkers actions) = true := by
        rintro op rfl
        exact h.others op (hpre.subset (by simp))
      rw [claimsFrom_snoc]
      rcases hleased.step (x := x) hother (hhas between) with hnext | hrow
      · exact .inl hnext
      · rw [← claimsFrom_snoc, append_assoc] at hrow
        exact .inr ⟨between ++ [a], prefix_rfl, hrow⟩
    · exact .inr (hleft.snoc a)

/-- The `j`th claim takes the row after the `i`th has: in between the row left progress, or the
lease it has then has run out by that claim's clock. UTC texts compare as the instants. -/
def Succeeds (x : Externals) (db : Db) (actions : List ClaimAction) (i : ℕ) (c : ClaimCall)
    (j : ℕ) (d : ClaimCall) (outboxId : String) : Prop :=
  ∃ before between after r s,
    actions = before ++ [.update i] ++ between ++ .update j :: after ∧
    r.outboxId = outboxId ∧ (claimsFrom x db before).Takes x i c r ∧
    s.outboxId = outboxId ∧ (claimsFrom x db (before ++ [.update i] ++ between)).Takes x j d s ∧
    (LeavesProgress x db (before ++ [.update i]) between outboxId ∨
      ∃ lease, s.leaseUntil = some lease ∧ lease ≤ d.now ∧
        ∀ u v : Datetime, u.Utc → v.Utc → lease = u.isoformat → d.now = v.isoformat →
          u.instant ≤ v.instant)

theorem Claims.Takes.lapsed (h : σ.Takes x j d s) (hleased : Leased σ s.outboxId) :
    ∃ lease, s.leaseUntil = some lease ∧ lease ≤ d.now := by
  obtain ⟨lease, cutoff, -, hclaim, -⟩ := h.claimed
  obtain ⟨until', huntil⟩ := Option.isSome_iff_exists.mp (hleased s h.row rfl).2
  simp only [OutboxRow.claimable, Bool.and_eq_true, huntil, Option.all_some,
    decide_eq_true_eq] at hclaim
  exact ⟨until', huntil, hclaim.1.1.2⟩

theorem succeeds_of_later (h : DistinctClaimers db actions) {after : List ClaimAction}
    (hsplit : actions = before ++ [.update i] ++ between ++ .update j :: after)
    (hr : (claimsFrom x db before).Takes x i c r)
    (hs : (claimsFrom x db (before ++ [.update i] ++ between)).Takes x j d s)
    (hid : s.outboxId = r.outboxId) : Succeeds x db actions i c j d r.outboxId := by
  refine ⟨before, between, after, r, s, hsplit, rfl, hr, hid, hs, ?_⟩
  have hpre : before ++ [.update i] ++ between <+: actions := by
    rw [hsplit]
    exact prefix_append _ _
  rcases leased_or_left h hr between hpre with hleased | hleft
  · right
    obtain ⟨lease, hlease, hle⟩ := hs.lapsed (hid ▸ hleased)
    refine ⟨lease, hlease, hle, ?_⟩
    rintro u v hu hv rfl hnow
    rw [hnow] at hle
    exact (Datetime.isoformat_le_iff hu hv).mp hle
  · exact .inl hleft

theorem Took.succeeds (h : DistinctClaimers db actions) (hij : i ≠ j) (hi : Took x db actions i c o)
    (hj : Took x db actions j d o) :
    Succeeds x db actions i c j d o ∨ Succeeds x db actions j d i c o := by
  obtain ⟨before, after, r, hsplit, rfl, hr⟩ := hi
  obtain ⟨before', after', s, hsplit', hid, hs⟩ := hj
  rcases append_eq_append_iff.mp (hsplit.symm.trans hsplit') with
    ⟨more, hmore, htail⟩ | ⟨more, hmore, htail⟩
  · left
    cases more with
    | nil =>
      cases htail
      exact absurd rfl hij
    | cons a between =>
      obtain ⟨rfl, hafter⟩ := List.cons.inj htail
      have hbefore : before' = before ++ [.update i] ++ between := by simp [hmore]
      rw [hbefore] at hs hsplit'
      exact succeeds_of_later h hsplit' hr hs hid
  · right
    cases more with
    | nil =>
      cases htail
      exact absurd rfl hij
    | cons a between =>
      obtain ⟨rfl, hafter⟩ := List.cons.inj htail
      have hbefore : before = before' ++ [.update j] ++ between := by simp [hmore]
      rw [hbefore] at hr hsplit
      rw [← hid]
      exact succeeds_of_later h hsplit hs hr hid.symm

theorem Claims.update_fenced (x : Externals) (i : ℕ) (hr : r ∈ σ.store.outbox.rows)
    (hr' : r' ∈ (σ.step x (.update i)).store.outbox.rows) (hid : r'.outboxId = r.outboxId)
    (hne : r' ≠ r) :
    ∀ s ∈ σ.store.outbox.rows, s.outboxId ≠ r.outboxId → s.identity = r.identity →
      s.generation < r.generation := by
  rcases σ.step_rows x _ hr' with ⟨t, ht, hmove⟩ | ⟨item, al, sn, now, habsurd, -⟩
  · obtain rfl := outbox_eq_of_id _ ht hr (hmove.outboxId.symm.trans hid)
    cases hmove with
    | keep => exact absurd rfl hne
    | take htakes =>
      obtain ⟨lease, cutoff, -, hclaim, -⟩ := htakes.claimed
      simp only [OutboxRow.claimable, Bool.and_eq_true, OutboxRow.noSiblingFrom_iff] at hclaim
      exact hclaim.1.2
  · cases habsurd

/-- Claims never share a live lease. Each row a claim returns was moved to `in_progress` under its
worker's id by its own `UPDATE`, which changes no row with a sibling of the same or a higher
generation; if two claims return one row, it left `in_progress` in between or its lease had run
out. -/
theorem claims_share_no_lease (x : Externals) (db : Db) (actions : List ClaimAction)
    (h : DistinctClaimers db actions) :
    (∀ i c rows, (claimsFrom x db actions).calls[i]? = some (c, .returned rows) →
      ∀ r ∈ rows, r.status = .inProgress ∧ r.workerId = some c.workerId ∧
        Took x db actions i c r.outboxId) ∧
    (∀ i j c d rows rows' r r', i ≠ j →
      (claimsFrom x db actions).calls[i]? = some (c, .returned rows) → r ∈ rows →
      (claimsFrom x db actions).calls[j]? = some (d, .returned rows') → r' ∈ rows' →
      r'.outboxId = r.outboxId →
        Succeeds x db actions i c j d r.outboxId ∨
          Succeeds x db actions j d i c r.outboxId) ∧
    ∀ before i after, actions = before ++ .update i :: after →
      ∀ r ∈ (claimsFrom x db before).store.outbox.rows,
        ∀ r' ∈ (claimsFrom x db (before ++ [.update i])).store.outbox.rows,
          r'.outboxId = r.outboxId → r' ≠ r →
            ∀ s ∈ (claimsFrom x db before).store.outbox.rows, s.outboxId ≠ r.outboxId →
              s.identity = r.identity → s.generation < r.generation := by
  have hinv := h.inv x actions prefix_rfl
  refine ⟨hinv.returned, ?_, ?_⟩
  · intro i j c d rows rows' r r' hij hi hr hj hr' hid
    obtain ⟨-, -, htook⟩ := hinv.returned i c rows hi r hr
    obtain ⟨-, -, htook'⟩ := hinv.returned j d rows' hj r' hr'
    exact htook.succeeds h hij (hid ▸ htook')
  · intro before i after _ r hr r' hr' hid hne
    rw [claimsFrom_snoc] at hr'
    exact Claims.update_fenced x i hr hr' hid hne

namespace Sample

/-- A claim of the sample row by one worker. -/
def claimBy (workerId now : String) : ClaimCall :=
  { now, workerId, leaseSeconds := 60, limit := 20 }

def contended : List ClaimAction :=
  [.other (.append event (clock 0)),
    .other (.createOutboxItem { item with status := none, workerId := none, leaseUntil := none }
      false none (clock 0)),
    .select (claimBy "one" "2026-01-01T00:01:00+00:00"),
    .select (claimBy "two" "2026-01-01T00:02:00+00:00"),
    .update 0, .reread 0, .update 1, .reread 1]

end Sample

/-- What the `i`th claim has returned. -/
def Claims.result (σ : Claims) (i : ℕ) : List OutboxRow :=
  match σ.calls[i]? with
  | some (_, .returned rows) => rows
  | _ => []

theorem Claims.result_row (h : (σ.result i).map OutboxRow.outboxId = [o]) :
    ∃ c rows r, σ.calls[i]? = some (c, .returned rows) ∧ r ∈ rows ∧ r.outboxId = o := by
  have hmem : o ∈ (σ.result i).map OutboxRow.outboxId := h ▸ mem_singleton_self o
  obtain ⟨r, hr, hid⟩ := mem_map.mp hmem
  unfold Claims.result at hr
  split at hr
  · rename_i c rows hcall
    exact ⟨c, rows, r, hcall, hr, hid⟩
  · cases hr

open Sample in
/-- Both claims of the run return the row. -/
theorem claims_share_no_lease_contended :
    DistinctClaimers .empty contended ∧ ∃ c d,
      Succeeds externals .empty contended 0 c 1 d "outbox" ∨
        Succeeds externals .empty contended 1 d 0 c "outbox" := by
  have hclaimers : DistinctClaimers .empty contended := by
    refine ⟨by decide, fun _ hr => absurd hr not_mem_nil, ?_⟩
    intro op hop
    simp only [contended, mem_cons, ClaimAction.other.injEq, reduceCtorEq,
      not_mem_nil, or_false] at hop
    rcases hop with rfl | rfl <;> rfl
  have hone : ((claimsFrom externals .empty contended).result 0).map OutboxRow.outboxId =
      ["outbox"] := by decide +kernel
  have htwo : ((claimsFrom externals .empty contended).result 1).map OutboxRow.outboxId =
      ["outbox"] := by decide +kernel
  obtain ⟨c, rows, r, hcall, hr, hrid⟩ := Claims.result_row hone
  obtain ⟨d, rows', s, hcall', hs, hsid⟩ := Claims.result_row htwo
  refine ⟨hclaimers, c, d, ?_⟩
  rw [← hrid]
  exact (claims_share_no_lease externals .empty contended hclaimers).2.1 0 1 c d rows rows' r s
    (by decide) hcall hr hcall' hs (hsid.trans hrid.symm)

end Medre.Storage
