import Medre.Planning.ConversationRepair

/-! # Commits and repair traversals, interleaved

The repair lock lets one traversal run at a time; commits happen between any two of its storage
calls. A traversal that reaches an event it remembers as missing raises; then only what is below
its start may be wrong. -/

namespace Medre.Planning

open List Medre.Framework Medre.Storage

variable {db db' : Db} {e : String} {t : Trigger}

/-! ## The system -/

/-- The store, the traversals that wait for the repair lock, the one that holds it, and what
traversals have raised, which `admit_ingress` logs. -/
structure Repairs where
  store : ConversationStore
  waiting : List Trigger
  running : Option (Trigger × Service Unit)
  raised : List (Trigger × ConversationError)

def Repairs.empty : Repairs where
  store := { db := .empty, memberships := fun _ => none, projection := none }
  waiting := []
  running := none
  raised := []

inductive RepairAction where
  /-- Any storage call commits. -/
  | commit (op : Op)
  /-- A repair is asked for again, as by a repeated admission. -/
  | again (t : Trigger)
  /-- A waiting traversal gets the lock. -/
  | start (i : ℕ)
  /-- The traversal that holds the lock does its next call, or ends. -/
  | resume

def Trigger.eventId : Trigger → String
  | .event e => e
  | .nativeRef e => e

/-- The `i`-th waiting traversal takes the lock, if it is free. -/
def Repairs.start (bound : ℕ) (σ : Repairs) (i : ℕ) : Repairs :=
  match σ.running, σ.waiting[i]? with
  | none, some t =>
    { σ with waiting := σ.waiting.eraseIdx i, running := some (t, repairOf bound t) }
  | _, _ => σ

/-- The traversal that holds the lock goes on. -/
def Repairs.resume (σ : Repairs) : Repairs :=
  match σ.running with
  | none => σ
  | some (_, .pure _) => { σ with running := none }
  | some (t, .raise e) => { σ with running := none, raised := σ.raised ++ [(t, e)] }
  | some (t, .call c k) =>
    { σ with store := (σ.store.answer c).1, running := some (t, k (σ.store.answer c).2) }

def Repairs.step (x : Externals) (bound : ℕ) (σ : Repairs) : RepairAction → Repairs
  | .commit op =>
    let db := (Storage.step x σ.store.db op).1
    { σ with store := { σ.store with db }, waiting := σ.waiting ++ triggersOf σ.store.db db }
  | .again t =>
    if σ.store.db.hasEvent t.eventId then { σ with waiting := σ.waiting ++ [t] } else σ
  | .start i => σ.start bound i
  | .resume => σ.resume

/-- The system after a list of actions, from an empty store. -/
def repairsAfter (x : Externals) (bound : ℕ) (actions : List RepairAction) : Repairs :=
  actions.foldl (Repairs.step x bound) .empty

/-- In the run, a traversal of `t` took the lock when the store's tables were `db`. -/
def Locked (x : Externals) (bound : ℕ) (actions : List RepairAction) (t : Trigger) (db : Db) :
    Prop :=
  ∃ done i, done ++ [.start i] <+: actions ∧ (repairsAfter x bound done).running = none ∧
    (repairsAfter x bound done).waiting[i]? = some t ∧ (repairsAfter x bound done).store.db = db

/-! ## What holds during a run -/

/-- Commits, as a traversal sees them. -/
structure Commits (B : ℕ) (s s' : ConversationStore) : Prop where
  facts : FactsGrow s.db s'.db
  bounded : s'.db.events.rows.length ≤ B
  owned : RelationsOwned s'.db
  memberships : s'.memberships = s.memberships

theorem Commits.trans {B : ℕ} {a b c : ConversationStore} (hab : Commits B a b)
    (hbc : Commits B b c) : Commits B a c where
  facts := hab.facts.trans hbc.facts
  bounded := hbc.bounded
  owned := hbc.owned
  memberships := hbc.memberships.trans hab.memberships

theorem rely_commits {db₀ : Db} (B : ℕ) : Rely db₀ B (Commits B) where
  during hs h := ⟨hs.facts.trans h.facts, h.bounded, fun _ => h.owned⟩
  facts h := h.facts
  memberships h := h.memberships

theorem FactStep.owned (h : FactStep db db') (hdb : RelationsOwned db) : RelationsOwned db' := by
  have hg := h.grows
  cases h with
  | same events relations refs => exact fun r hr => hg.events _ (hdb r (relations ▸ hr))
  | admitted e rels ref fresh events relations own refs names =>
    intro r hr
    rw [relations] at hr
    rcases mem_append.mp hr with hr | hr
    · exact hg.events _ (hdb r hr)
    · refine (hasEvent_append events _).mpr (.inr ⟨e, mem_singleton.mpr rfl, ?_⟩)
      exact (own r hr).symm
  | referenced n events relations refs new => exact fun r hr => hg.events _ (hdb r (relations ▸ hr))

theorem trigger_stored (ht : Trigger.event e ∈ triggersOf db db') : db'.hasEvent e = true := by
  have hmem : ∃ row ∈ db'.events.rows, row.eventId = e := by
    unfold triggersOf at ht
    split at ht
    · obtain ⟨n, -, hid⟩ := mem_map.mp ht
      cases hid
    · next hdrop =>
        obtain ⟨row, hrow, hid⟩ := mem_map.mp ht
        cases hid
        exact ⟨row, mem_of_mem_drop hrow, rfl⟩
  exact Storage.hasEvent_iff.mpr hmem

def Below (db : Db) (t : Trigger) (e : String) : Prop :=
  ∃ n x, ancestor (parentOf db) n e = some x ∧ Seed db t x

/-- The traversals that have not returned: those that wait, and those that raised. -/
def Repairs.owed (σ : Repairs) : List Trigger := σ.waiting ++ σ.raised.map Prod.fst

/-- A traversal that started at `db₀` with the rows `M₀`: what waits for no other one is
settled since, and was right then or is to be repaired now. -/
structure Holding (B : ℕ) (σ : Repairs) (t : Trigger) (task : Service Unit) (db₀ : Db)
    (M₀ : String → Option ConversationMembership) : Prop where
  facts : FactsGrow db₀ σ.store.db
  task : Task.wp ConversationStore.answer (Commits B) (fun _ _ => True) task
    (fun _ s => Repaired db₀ M₀ (Seed db₀ t) s) (Missed db₀ M₀) σ.store
  rest : ∀ e, σ.store.db.hasEvent e = true → Dirty σ.store.db σ.owed e ∨
    (Settled db₀ σ.store.db e ∧ (Projected db₀ M₀ e ∨ Below db₀ t e))

/-- `locked t db`: a traversal of `t` took the lock at `db`. -/
structure RepairsInv (locked : Trigger → Db → Prop) (B : ℕ) (σ : Repairs) : Prop where
  owned : RelationsOwned σ.store.db
  bounded : σ.store.db.events.rows.length ≤ B
  waiting : ∀ e, .event e ∈ σ.waiting → σ.store.db.hasEvent e = true
  raised : ∀ r ∈ σ.raised, ∃ id db₀, r.2 = .missingEvent id ∧ locked r.1 db₀ ∧
    db₀.hasEvent id = false ∧ σ.store.db.hasEvent id = true
  idle : σ.running = none → ∀ e, σ.store.db.hasEvent e = true →
    Dirty σ.store.db σ.owed e ∨ Projected σ.store.db σ.store.memberships e
  busy : ∀ t task, σ.running = some (t, task) →
    ∃ db₀ M₀, locked t db₀ ∧ Holding B σ t task db₀ M₀

section Steps

variable {x : Externals} {B bound : ℕ} {σ : Repairs} {locked : Trigger → Db → Prop}

theorem Projected.settled {M : String → Option ConversationMembership} (h : Projected db M e)
    (hg : FactsGrow db db') (hs : Settled db db' e) :
    Projected db' M e := by
  obtain ⟨m, hm, hscratch⟩ := h
  exact ⟨m, hm, hs.fromScratch hg hscratch⟩

section Stability

variable {db₀ : Db} {M : String → Option ConversationMembership} {s s' : ConversationStore}

theorem Kept.commits (h : Kept db₀ M s) (hs : Commits B s s') : Kept db₀ M s' where
  facts := h.facts.trans hs.facts
  rows e he := by
    rw [hs.memberships]
    exact h.rows e (he.earlier h.facts hs.facts).1

theorem Repaired.commits {seed : String → Prop} (h : Repaired db₀ M seed s)
    (hs : Commits B s s') : Repaired db₀ M seed s' where
  toKept := h.toKept.commits hs
  reached e he hbelow := by
    rw [hs.memberships]
    exact h.reached e (he.earlier h.facts hs.facts).1 hbelow

theorem Missed.commits {e : ConversationError} (h : Missed db₀ M e s) (hs : Commits B s s') :
    Missed db₀ M e s' where
  toKept := h.toKept.commits hs
  missed := by
    obtain ⟨id, rfl, hold, hnew⟩ := h.missed
    exact ⟨id, rfl, hold, hs.facts.events id hnew⟩

theorem Kept.projected (h : Kept db₀ M s) (hs : Settled db₀ s.db e) (hp : Projected db₀ M e) :
    Projected s.db s.memberships e := by
  refine Projected.settled ?_ h.facts hs
  rcases h.rows e hs with hsame | hp'
  · rw [Projected, hsame]
    exact hp
  · exact hp'

end Stability

/-- More waits for a traversal: the same events do, and those of the new one. -/
theorem RepairsInv.wait (h : RepairsInv locked B σ) (ht : σ.store.db.hasEvent t.eventId = true) :
    RepairsInv locked B { σ with waiting := σ.waiting ++ [t] } := by
  have hdirty : ∀ e, Dirty σ.store.db σ.owed e →
      Dirty σ.store.db (σ.waiting ++ [t] ++ σ.raised.map Prod.fst) e := fun e hd => hd.mono (by
    intro t' ht'
    rcases mem_append.mp ht' with hw | hr
    · exact mem_append_left _ (mem_append_left _ hw)
    · exact mem_append_right _ hr)
  refine ⟨h.owned, h.bounded, ?_, h.raised, ?_, ?_⟩
  · intro e he
    rcases mem_append.mp he with he | he
    · exact h.waiting e he
    · rw [← mem_singleton.mp he] at ht
      exact ht
  · intro hidle e he
    exact (h.idle hidle e he).imp_left (hdirty e)
  · intro t₀ task htask
    obtain ⟨db₀, M₀, hlock, hh⟩ := h.busy t₀ task htask
    exact ⟨db₀, M₀, hlock, hh.facts, hh.task, fun e he => (hh.rest e he).imp_left (hdirty e)⟩

/-- A commit: an event keeps its ancestry, or waits for a traversal of the commit. -/
theorem RepairsInv.commit (h : RepairsInv locked B σ) (hstep : FactStep σ.store.db db)
    (hB : db.events.rows.length ≤ B) :
    RepairsInv locked B { σ with
      store := { σ.store with db }, waiting := σ.waiting ++ triggersOf σ.store.db db } := by
  have hg := hstep.grows
  have hcommits : Commits B σ.store { σ.store with db } := ⟨hg, hB, hstep.owned h.owned, rfl⟩
  have hnew : ∀ e, Dirty db (triggersOf σ.store.db db) e →
      Dirty db (σ.waiting ++ triggersOf σ.store.db db ++ σ.raised.map Prod.fst) e :=
    fun e hd => hd.mono fun t ht => mem_append_left _ (mem_append_right _ ht)
  have hold : ∀ e, Settled σ.store.db db e → Dirty σ.store.db σ.owed e →
      Dirty db (σ.waiting ++ triggersOf σ.store.db db ++ σ.raised.map Prod.fst) e :=
    fun e hs hd => (hd.settled hg hs).mono (by
      intro t ht
      rcases mem_append.mp ht with hw | hr
      · exact mem_append_left _ (mem_append_left _ hw)
      · exact mem_append_right _ hr)
  refine ⟨hcommits.owned, hB, ?_, ?_, ?_, ?_⟩
  · intro e he
    rcases mem_append.mp he with he | he
    · exact hg.events e (h.waiting e he)
    · exact trigger_stored he
  · intro r hr
    obtain ⟨id, db₀, heq, hlock, hold, hid⟩ := h.raised r hr
    exact ⟨id, db₀, heq, hlock, hold, hg.events id hid⟩
  · intro hidle e he
    rcases hstep.settled_or_dirty he with hs | hd
    · rcases h.idle hidle e hs.stored with hd | hp
      · exact .inl (hold e hs hd)
      · exact .inr (hp.settled hg hs)
    · exact .inl (hnew e hd)
  · intro t task htask
    obtain ⟨db₀, M₀, hlock, hh⟩ := h.busy t task htask
    refine ⟨db₀, M₀, hlock, hh.facts.trans hg, ?_, ?_⟩
    · exact Task.wp_stable (fun _ _ _ => Commits.trans) (fun _ _ _ hs hr => hr.commits hs)
        (fun _ _ _ hs he => he.commits hs) hcommits hh.task
    · intro e he
      rcases hstep.settled_or_dirty he with hs | hd
      · rcases hh.rest e hs.stored with hd | ⟨hs₀, hrest⟩
        · exact .inl (hold e hs hd)
        · exact .inr ⟨hs₀.trans hh.facts hg hs, hrest⟩
      · exact .inl (hnew e hd)

/-- A traversal starts: what waited for it is what it repairs. -/
theorem RepairsInv.started (h : RepairsInv locked B σ) (hB : B < bound) {i : ℕ}
    (hidle : σ.running = none) (hi : σ.waiting[i]? = some t) (hlock : locked t σ.store.db) :
    RepairsInv locked B { σ with
      waiting := σ.waiting.eraseIdx i, running := some (t, repairOf bound t) } := by
  have hmem := mem_of_getElem? hi
  refine ⟨h.owned, h.bounded, ?_, h.raised, nofun, ?_⟩
  · exact fun e he => h.waiting e (mem_of_mem_eraseIdx he)
  · rintro t task ⟨rfl⟩
    refine ⟨σ.store.db, σ.store.memberships, hlock, .refl _, ?_, ?_⟩
    · refine wp_repairOf h.owned (rely_commits B) (fun _ => trivial) (fun _ _ _ _ _ => trivial) hB
        ⟨.refl _, h.bounded, id⟩ ?_
      rintro e rfl
      exact h.waiting e hmem
    · intro e he
      rcases h.idle hidle e he with ⟨t', ht', hbelow⟩ | hp
      · rcases mem_append.mp ht' with hw | hr
        · -- it waited for this traversal or for another one
          obtain ⟨j, hj, hget⟩ := mem_iff_getElem.mp hw
          by_cases hij : j = i
          · subst hij
            rw [List.getElem?_eq_getElem hj, hget] at hi
            cases hi
            exact .inr ⟨.refl he, .inr hbelow⟩
          · refine .inl ⟨t', mem_append_left _ ?_, hbelow⟩
            refine mem_eraseIdx_iff_getElem?.mpr ⟨j, hij, ?_⟩
            rw [List.getElem?_eq_getElem hj, hget]
        · exact .inl ⟨t', mem_append_right _ hr, hbelow⟩
      · exact .inr ⟨.refl he, .inl hp⟩

theorem RepairsInv.call (h : RepairsInv locked B σ) {t : Trigger} {c : ConversationCall}
    {k : c.Answer → Service Unit} (hrunning : σ.running = some (t, .call c k)) :
    RepairsInv locked B { σ with
      store := (σ.store.answer c).1, running := some (t, k (σ.store.answer c).2) } := by
  have hdb := answer_db σ.store c
  refine ⟨?_, ?_, ?_, ?_, nofun, ?_⟩
  · show RelationsOwned (σ.store.answer c).1.db
    exact hdb.symm ▸ h.owned
  · show (σ.store.answer c).1.db.events.rows.length ≤ B
    exact hdb.symm ▸ h.bounded
  · show ∀ e, _ → (σ.store.answer c).1.db.hasEvent e = true
    exact hdb.symm ▸ h.waiting
  · show ∀ r ∈ σ.raised, ∃ id db₀, _ ∧ _ ∧ _ ∧ (σ.store.answer c).1.db.hasEvent id = true
    exact hdb.symm ▸ h.raised
  · rintro t task ⟨rfl⟩
    obtain ⟨db₀, M₀, hlock, hh⟩ := h.busy _ _ hrunning
    refine ⟨db₀, M₀, hlock, ?_, ?_, ?_⟩
    · show FactsGrow db₀ (σ.store.answer c).1.db
      exact hdb.symm ▸ hh.facts
    · exact (hh.task σ.store ⟨.refl _, h.bounded, h.owned, rfl⟩).2
    · show ∀ e, (σ.store.answer c).1.db.hasEvent e = true →
        Dirty (σ.store.answer c).1.db σ.owed e ∨ (Settled db₀ (σ.store.answer c).1.db e ∧ _)
      exact hdb.symm ▸ hh.rest

theorem RepairsInv.return (h : RepairsInv locked B σ) {u : Unit}
    (hrunning : σ.running = some (t, .pure u)) :
    RepairsInv locked B { σ with running := none } := by
  refine ⟨h.owned, h.bounded, h.waiting, h.raised, ?_, nofun⟩
  intro _ e he
  obtain ⟨db₀, M₀, -, hh⟩ := h.busy _ _ hrunning
  have hrepaired : Repaired db₀ M₀ (Seed db₀ t) σ.store := hh.task
  rcases hh.rest e he with hd | ⟨hs, hp | hbelow⟩
  · exact .inl hd
  · exact .inr (hrepaired.projected hs hp)
  · exact .inr ((hrepaired.reached e hs hbelow).settled hh.facts hs)

/-- The traversal raises: it has missed an event that is stored now, and owes what it had
to repair. -/
theorem RepairsInv.raise (h : RepairsInv locked B σ) {err : ConversationError}
    (hrunning : σ.running = some (t, .raise err)) :
    RepairsInv locked B { σ with running := none, raised := σ.raised ++ [(t, err)] } := by
  obtain ⟨db₀, M₀, hlock, hh⟩ := h.busy _ _ hrunning
  have hmissed : Missed db₀ M₀ err σ.store := hh.task
  have howed : ∀ e ts, (∀ t' ∈ ts, t' ∈ σ.owed ++ [t]) → Dirty σ.store.db ts e →
      Dirty σ.store.db (σ.waiting ++ (σ.raised ++ [(t, err)]).map Prod.fst) e := by
    intro e ts hts hd
    refine hd.mono fun t' ht' => ?_
    have hmem := hts t' ht'
    rw [Repairs.owed] at hmem
    simpa using hmem
  refine ⟨h.owned, h.bounded, h.waiting, ?_, ?_, nofun⟩
  · intro r hr
    rcases mem_append.mp hr with hr | hr
    · exact h.raised r hr
    · obtain ⟨id, heq, hold, hid⟩ := hmissed.missed
      rw [mem_singleton.mp hr]
      exact ⟨id, db₀, heq, hlock, hold, hid⟩
  · intro _ e he
    rcases hh.rest e he with hd | ⟨hs, hp | hbelow⟩
    · exact .inl (howed e σ.owed (fun t' ht' => mem_append_left _ ht') hd)
    · exact .inr (hmissed.projected hs hp)
    · left
      have hd : Dirty db₀ [t] e := ⟨t, mem_singleton.mpr rfl, hbelow⟩
      exact howed e [t] (fun t' ht' => mem_append_right _ ht') (hd.settled hh.facts hs)

theorem RepairsInv.step (h : RepairsInv locked B σ) (hB : B < bound) (a : RepairAction)
    (hlock : ∀ i t, a = .start i → σ.running = none → σ.waiting[i]? = some t →
      locked t σ.store.db)
    (hroom : σ.store.db.events.rows.length < B) : RepairsInv locked B (σ.step x bound a) := by
  cases a with
  | commit op =>
    have hstep := step_facts x σ.store.db op
    exact h.commit hstep (hstep.length_le.trans hroom)
  | again t =>
    show RepairsInv locked B (if _ then _ else _)
    split
    · next ht => exact h.wait ht
    · exact h
  | start i =>
    show RepairsInv locked B (σ.start bound i)
    unfold Repairs.start
    split
    · next hidle hi => exact h.started hB hidle hi (hlock i _ rfl hidle hi)
    · exact h
  | resume =>
    show RepairsInv locked B σ.resume
    unfold Repairs.resume
    split
    · exact h
    · next hrunning => exact h.return hrunning
    · next hrunning => exact h.raise hrunning
    · next hrunning => exact h.call hrunning

theorem length_events_step {σ : Repairs} (a : RepairAction) :
    (σ.step x bound a).store.db.events.rows.length ≤ σ.store.db.events.rows.length + 1 := by
  cases a with
  | commit op => exact (step_facts x σ.store.db op).length_le
  | again t =>
    show (if _ then _ else _ : Repairs).store.db.events.rows.length ≤ _
    split <;> exact Nat.le_succ _
  | start i =>
    show (σ.start bound i).store.db.events.rows.length ≤ _
    unfold Repairs.start
    split <;> exact Nat.le_succ _
  | resume =>
    show σ.resume.store.db.events.rows.length ≤ _
    unfold Repairs.resume
    split
    · exact Nat.le_succ _
    · exact Nat.le_succ _
    · exact Nat.le_succ _
    · next c k _ =>
        rw [answer_db]
        exact Nat.le_succ _

end Steps

theorem repairsInv_empty {locked : Trigger → Db → Prop} {B : ℕ} :
    RepairsInv locked B .empty where
  owned := nofun
  bounded := Nat.zero_le B
  waiting := nofun
  raised := nofun
  idle _ e he := by cases he
  busy := nofun

theorem repairsInv_after {x : Externals} {bound : ℕ} {actions : List RepairAction}
    (hbound : actions.length < bound) :
    RepairsInv (Locked x bound actions) actions.length (repairsAfter x bound actions) := by
  suffices hall : ∀ done, done <+: actions →
      RepairsInv (Locked x bound actions) actions.length (repairsAfter x bound done) ∧
        (repairsAfter x bound done).store.db.events.rows.length ≤ done.length from
    (hall actions (prefix_refl _)).1
  intro done
  induction done using List.reverseRecOn with
  | nil => exact fun _ => ⟨repairsInv_empty, Nat.le_refl _⟩
  | append_singleton done a ih =>
    intro hpre
    have hle := hpre.length_le
    rw [length_append, length_singleton] at hle
    obtain ⟨hinv, hevents⟩ := ih ((prefix_append _ _).trans hpre)
    rw [repairsAfter, foldl_append, length_append, length_singleton]
    refine ⟨hinv.step hbound a ?_ (Nat.lt_of_le_of_lt hevents hle),
      (length_events_step a).trans (Nat.succ_le_succ hevents)⟩
    rintro i t rfl hidle hi
    exact ⟨done, i, hpre, hidle, hi, rfl⟩

/-- Conversation membership converges: when no traversal waits or runs, each stored event
has the membership the store determines, unless it is below the start of a traversal that
raised. A traversal raises only over an event that was not stored when it took the lock, and was
committed since. -/
theorem membership_converges (x : Externals) (bound : ℕ) (actions : List RepairAction)
    (hbound : actions.length < bound) :
    (∀ r ∈ (repairsAfter x bound actions).raised, ∃ id db, r.2 = .missingEvent id ∧
      Locked x bound actions r.1 db ∧ db.hasEvent id = false ∧
      (repairsAfter x bound actions).store.db.hasEvent id = true) ∧
    ((repairsAfter x bound actions).running = none → (repairsAfter x bound actions).waiting = [] →
      ∀ e, (repairsAfter x bound actions).store.db.hasEvent e = true →
        (∀ r ∈ (repairsAfter x bound actions).raised,
          ¬Below (repairsAfter x bound actions).store.db r.1 e) →
        ∃ m, (repairsAfter x bound actions).store.memberships e = some m ∧
          FromScratch (repairsAfter x bound actions).store.db e m ∧
          ∀ m', FromScratch (repairsAfter x bound actions).store.db e m' → m' = m) := by
  have hinv := repairsInv_after (x := x) hbound
  refine ⟨hinv.raised, ?_⟩
  intro hidle hwaiting e he hclear
  rcases hinv.idle hidle e he with ⟨t, ht, hbelow⟩ | ⟨m, hm, hscratch⟩
  · rw [Repairs.owed, hwaiting, nil_append] at ht
    obtain ⟨r, hr, rfl⟩ := mem_map.mp ht
    exact absurd hbelow (hclear r hr)
  · exact ⟨m, hm, hscratch, fun m' hm' => hm'.unique hscratch⟩

namespace Sample

open Medre.Storage.Sample

/-- An event whose relations are replies to events known by their id. -/
def replyTo (eventId : String) (targets : List String) : RepairAction :=
  .commit (.admitIngress
    { event with eventId, relations := targets.map fun t =>
        { relationType := "reply", targetEventId := some t } } none .live false none (clock 0))

/-- The first waiting traversal, for its first `n` steps. -/
def traverse (n : ℕ) : List RepairAction := .start 0 :: List.replicate n .resume

def lateParent : List RepairAction :=
  [replyTo "reply" ["parent"]] ++ traverse 8 ++ [replyTo "parent" []] ++ traverse 20

/-- The traversal for the late `parent` finds that `other` names a missing event. That event is
admitted as a reply to `other`: the traversal comes to it and raises before it has repaired
`nested`. -/
def missed : List RepairAction :=
  [replyTo "other" ["missing", "parent"]] ++ traverse 8 ++
    [replyTo "reply" ["parent"]] ++ traverse 7 ++ [replyTo "nested" ["reply"]] ++ traverse 10 ++
    [replyTo "parent" []] ++ traverse 8 ++ [replyTo "missing" ["other"]] ++
    List.replicate 20 .resume ++ traverse 30

end Sample

open Sample Storage.Sample in
/-- The row of the late parent's reply is right. -/
theorem membership_converges_lateParent :
    ∃ m, (repairsAfter externals 40 lateParent).store.memberships "reply" = some m ∧
      FromScratch (repairsAfter externals 40 lateParent).store.db "reply" m ∧
      m.rootEventId = "parent" := by
  have hrun : ((repairsAfter externals 40 lateParent).running.isNone,
      (repairsAfter externals 40 lateParent).waiting,
      (repairsAfter externals 40 lateParent).raised,
      (repairsAfter externals 40 lateParent).store.db.hasEvent "reply",
      ((repairsAfter externals 40 lateParent).store.memberships "reply").map fun m =>
        m.rootEventId) = (true, [], [], true, some "parent") := by
    decide +kernel
  simp only [Prod.mk.injEq, Option.isNone_iff_eq_none] at hrun
  obtain ⟨hidle, hwaiting, hraised, hstored, hroot⟩ := hrun
  obtain ⟨m, hm, hscratch, -⟩ := (membership_converges externals 40 lateParent (by decide)).2
    hidle hwaiting "reply" hstored (by rw [hraised]; exact nofun)
  rw [hm] at hroot
  exact ⟨m, hm, hscratch, Option.some.inj hroot⟩

open Sample Storage.Sample in
/-- Every traversal has ended, and the row of `nested` is not the one the store
determines. -/
theorem membership_stays_stale :
    (repairsAfter externals 200 missed).running = none ∧
      (repairsAfter externals 200 missed).waiting = [] ∧
      (repairsAfter externals 200 missed).raised = [(.event "parent", .missingEvent "missing")] ∧
      (repairsAfter externals 200 missed).store.db.hasEvent "nested" = true ∧
      ∀ m, (repairsAfter externals 200 missed).store.memberships "nested" = some m →
        ¬FromScratch (repairsAfter externals 200 missed).store.db "nested" m := by
  have hrun : ((repairsAfter externals 200 missed).running.isNone,
      (repairsAfter externals 200 missed).waiting,
      (repairsAfter externals 200 missed).raised,
      (repairsAfter externals 200 missed).store.db.hasEvent "nested",
      ((repairsAfter externals 200 missed).store.memberships "nested").map fun m => m.depth) =
      (true, [], [(.event "parent", .missingEvent "missing")], true, some 1) := by
    decide +kernel
  have hchain : (ancestor (parentOf (repairsAfter externals 200 missed).store.db) 2 "nested",
      parentOf (repairsAfter externals 200 missed).store.db "parent") =
      (some "parent", none) := by
    decide +kernel
  simp only [Prod.mk.injEq, Option.isNone_iff_eq_none] at hrun hchain
  obtain ⟨hidle, hwaiting, hraised, hstored, hdepth⟩ := hrun
  refine ⟨hidle, hwaiting, hraised, hstored, ?_⟩
  intro m hm hscratch
  rw [hm] at hdepth
  have hone : m.depth = 1 := Option.some.inj hdepth
  have hends : EndsAt (parentOf (repairsAfter externals 200 missed).store.db) "nested" 2
      "parent" := hchain
  rcases hscratch.chain with ⟨hends', -⟩ | ⟨c, henters, -⟩
  · have htwo := (hends.unique hends').1
    omega
  · exact hends.not_enters henters

end Medre.Planning
