import Medre.Planning.ConversationRebuild

/-! # Process runs of one projection

A process rebuilds the projection when it starts, may die at any storage call, and marks
the projection clean when it stops in order. -/

namespace Medre.Planning

open List Medre.Framework Medre.Storage

variable {p : String} {m parent : ConversationMembership}

/-! ## Process runs -/

/-- Where a process is: not running, in `rebuild_all`, or started with its summary. -/
inductive Phase where
  | down
  | starting (task : Service ConversationRebuildSummary)
  | up (summary : ConversationRebuildSummary)

def Phase.summary? : Phase → Option ConversationRebuildSummary
  | .up summary => some summary
  | _ => none

theorem Phase.eq_up {p : Phase} {summary : ConversationRebuildSummary}
    (h : p.summary? = some summary) : p = .up summary := by
  cases p <;> cases h
  rfl

structure Process where
  store : ConversationStore
  phase : Phase

inductive ProcessAction where
  /-- A process starts; its first work on the store is `rebuild_all`. -/
  | boot
  /-- The next storage call of `rebuild_all`, or its end. -/
  | resume
  | crash
  /-- `stop` marks the projection clean; only a started process stops in order. -/
  | shutdown
deriving DecidableEq

section System

variable (bound pageSize cacheSize : ℕ)

def Process.boot (σ : Process) : Process :=
  match σ.phase with
  | .down => { σ with phase := .starting (rebuildAll bound pageSize cacheSize) }
  | _ => σ

def Process.resume (σ : Process) : Process :=
  match σ.phase with
  | .starting (.pure summary) => { σ with phase := .up summary }
  | .starting (.raise _) => { σ with phase := .down }
  | .starting (.call c k) =>
    { store := (σ.store.answer c).1, phase := .starting (k (σ.store.answer c).2) }
  | _ => σ

def Process.shutdown (σ : Process) : Process :=
  match σ.phase with
  | .up _ =>
    { store := (Task.alone ConversationStore.answer markClean σ.store).2, phase := .down }
  | _ => σ

def Process.step (σ : Process) : ProcessAction → Process
  | .boot => σ.boot bound pageSize cacheSize
  | .resume => σ.resume
  | .crash => { σ with phase := .down }
  | .shutdown => σ.shutdown

/-- A history of process runs, from the store `s₀`. -/
def processAfter (s₀ : ConversationStore) (actions : List ProcessAction) : Process :=
  actions.foldl (Process.step bound pageSize cacheSize) { store := s₀, phase := .down }

end System

/-! ## Complete rebuilds -/

section Complete

variable {db : Db} {bound pageSize cacheSize : ℕ} {σ : Process}

structure ProcessInv (db : Db) (σ : Process) : Prop where
  resumable : Resumable db σ.store
  starting : ∀ task, σ.phase = .starting task →
    Task.wp ConversationStore.answer Eq (KeepsResumable db) task
      (fun summary s => summary.skippedCurrent = false →
        ∀ e, db.hasEvent e = true → Projected db s.memberships e) (fun _ _ => False) σ.store
  up : ∀ summary, σ.phase = .up summary → summary.skippedCurrent = false →
    ∀ e, db.hasEvent e = true → Projected db σ.store.memberships e

theorem ProcessInv.down (h : ProcessInv db σ) : ProcessInv db { σ with phase := .down } :=
  ⟨h.resumable, nofun, nofun⟩

theorem ProcessInv.step (h : ProcessInv db σ) (hB : db.events.rows.length < bound)
    (hwhole : CyclesWhole db cacheSize) (hsize : 1 ≤ pageSize) (a : ProcessAction) :
    ProcessInv db (σ.step bound pageSize cacheSize a) := by
  cases a with
  | boot =>
    show ProcessInv db (σ.boot bound pageSize cacheSize)
    unfold Process.boot
    split
    · refine ⟨h.resumable, ?_, nofun⟩
      rintro task ⟨rfl⟩
      exact wp_rebuildAll hB hwhole hsize h.resumable
    · exact h
  | resume =>
    show ProcessInv db σ.resume
    unfold Process.resume
    split
    · next summary hphase =>
        refine ⟨h.resumable, nofun, ?_⟩
        rintro summary ⟨rfl⟩
        exact h.starting _ hphase
    · exact h.down
    · next c k hphase =>
        obtain ⟨hkeeps, hk⟩ := h.starting _ hphase σ.store rfl
        refine ⟨hkeeps h.resumable, ?_, nofun⟩
        rintro task ⟨rfl⟩
        exact hk
    · exact h
  | crash => exact h.down
  | shutdown =>
    show ProcessInv db σ.shutdown
    unfold Process.shutdown
    split
    · exact ⟨⟨h.resumable.graph, done_none⟩, nofun, nofun⟩
    · exact h

theorem processInv_after {s₀ : ConversationStore} (hB : s₀.db.events.rows.length < bound)
    (hwhole : CyclesWhole s₀.db cacheSize) (hsize : 1 ≤ pageSize)
    (hfresh : resumeCursor s₀.projection = none) (actions : List ProcessAction) :
    ProcessInv s₀.db (processAfter bound pageSize cacheSize s₀ actions) := by
  induction actions using List.reverseRecOn with
  | nil =>
    refine ⟨⟨rfl, ?_⟩, nofun, nofun⟩
    show Done _ (resumeCursor s₀.projection) _
    rw [hfresh]
    exact done_none
  | append_singleton actions a ih =>
    rw [processAfter, foldl_append]
    exact ih.step hB hwhole hsize a

end Complete

/-! ## The clean marker -/

def NotClean (c : ConversationCall) : Prop :=
  ∀ p, c = .putProjectionState p → p.status ≠ .clean

section Calls

variable {bound pageSize cacheSize : ℕ}

theorem calls_getEvent (events : EventCache) (e : String) : (getEvent events e).Calls NotClean := by
  unfold getEvent
  split
  · trivial
  · refine Task.calls_bind ?_ fun _ => trivial
    refine Task.calls_bind (Task.calls_perform nofun) fun stored => ?_
    cases stored with
    | true => exact Task.calls_bind (Task.calls_perform nofun) fun _ => trivial
    | false => trivial

variable {events : EventCache}

theorem calls_storedTarget {e : String} : (storedTarget events e).Calls NotClean :=
  Task.calls_bind (calls_getEvent events e) fun _ => trivial

theorem calls_resolveTarget (events : EventCache) (r : RelationRow) :
    (resolveTarget events r).Calls NotClean := by
  unfold resolveTarget
  split
  · exact calls_storedTarget
  · split
    · trivial
    · refine Task.calls_bind (Task.calls_perform nofun) fun resolved => ?_
      cases resolved with
      | none => trivial
      | some target => exact calls_storedTarget

theorem calls_selectParent {first : Option String} {dep : Bool}
    {rs : List RelationRow} : (selectParent events first dep rs).Calls NotClean := by
  induction rs generalizing events first dep with
  | nil => trivial
  | cons r rs ih =>
    refine Task.calls_bind (calls_resolveTarget events r) fun target => ?_
    obtain ⟨target, events⟩ := target
    cases target with
    | some target => trivial
    | none =>
      show (if hasTarget r then _ else _ : Service (Edge × EventCache)).Calls NotClean
      split <;> exact ih

theorem calls_walk {cache : MembershipCache} {fuel : ℕ} {path : Path}
    {current : String} : (walk cache fuel events path current).Calls NotClean := by
  induction fuel generalizing events path current with
  | zero => trivial
  | succ fuel ih =>
    rw [walk]
    split
    · trivial
    · split
      · trivial
      · refine Task.calls_bind (calls_getEvent events current) fun found => ?_
        obtain ⟨event, events⟩ := found
        cases event with
        | none => trivial
        | some relations =>
          refine Task.calls_bind calls_selectParent fun edge => ?_
          dsimp only
          split
          · trivial
          · exact ih

theorem calls_resolveMembership {fuel : ℕ} {cache : MembershipCache}
    {e : String} : (resolveMembership fuel cache events e).Calls NotClean := by
  unfold resolveMembership
  split
  · trivial
  · refine Task.calls_bind calls_walk fun walked => ?_
    refine Task.calls_bind Task.calls_lift fun cache => ?_
    split <;> trivial

theorem calls_storeItem {changed : List String} {item : String × ConversationMembership} :
    (storeItem changed item).Calls NotClean := by
  refine Task.calls_bind (Task.calls_perform nofun) fun answer => ?_
  split <;> trivial

theorem calls_rebuildEvent {b : Rebuild} {e : String} :
    (rebuildEvent bound cacheSize b e).Calls NotClean :=
  Task.calls_bind calls_resolveMembership fun _ =>
    Task.calls_bind (Task.calls_fold fun _ _ => calls_storeItem) fun _ => trivial

theorem notClean_put {p : ConversationProjectionState} (h : p.status ≠ .clean) :
    NotClean (.putProjectionState p) := by
  rintro p ⟨rfl⟩
  exact h

theorem calls_rebuildLoop {fuel : ℕ} {cursor : Option String} {b : Rebuild} :
    (rebuildLoop bound pageSize cacheSize fuel cursor b).Calls NotClean := by
  induction fuel generalizing cursor b with
  | zero => trivial
  | succ fuel ih =>
    refine Task.calls_bind (Task.calls_perform nofun) fun page => ?_
    split
    · trivial
    · trivial
    · refine Task.calls_bind (Task.calls_fold fun _ _ => calls_rebuildEvent) fun b => ?_
      exact Task.calls_bind (Task.calls_perform (notClean_put nofun)) fun _ => ih

theorem calls_rebuildAll : (rebuildAll bound pageSize cacheSize).Calls NotClean := by
  refine Task.calls_bind (Task.calls_perform nofun) fun prior => ?_
  split
  · exact Task.calls_bind (Task.calls_perform (notClean_put nofun)) fun _ => trivial
  · refine Task.calls_bind (Task.calls_perform (notClean_put nofun)) fun _ => ?_
    refine Task.calls_bind calls_rebuildLoop fun b => ?_
    exact Task.calls_bind (Task.calls_perform (notClean_put nofun)) fun _ => trivial

end Calls

variable {s : ConversationStore}

theorem answer_notClean {c : ConversationCall} (h : NotClean c)
    (hclean : isCurrent (s.answer c).1.projection = true) :
    (s.answer c).1.projection = s.projection := by
  cases c with
  | putProjectionState p =>
    have hstatus : p.status = .clean := by
      have hp : isCurrent (some p) = true := hclean
      simp only [isCurrent, Option.any_some, Bool.and_eq_true, decide_eq_true_eq] at hp
      exact hp.2
    exact absurd hstatus (h p rfl)
  | putMembership m =>
    show (s.putMembership m).1.projection = s.projection
    unfold ConversationStore.putMembership
    split <;> rfl
  | _ => rfl

section Clean

variable {bound pageSize cacheSize : ℕ} {σ : Process}

/-- What a process does while the clean marker is there: it is about to skip. -/
structure CleanInv (σ : Process) : Prop where
  calls : ∀ task, σ.phase = .starting task → task.Calls NotClean
  skips : ∀ task, σ.phase = .starting task → isCurrent σ.store.projection = true →
    Task.wp ConversationStore.answer Eq (fun _ _ => True) task
      (fun summary _ => summary.skippedCurrent = true) (fun _ _ => False) σ.store

theorem CleanInv.step (h : CleanInv σ) (a : ProcessAction) :
    CleanInv (σ.step bound pageSize cacheSize a) ∧
      (isCurrent (σ.step bound pageSize cacheSize a).store.projection = true →
        (σ.step bound pageSize cacheSize a).store.projection = σ.store.projection ∨
          (a = .shutdown ∧ ∃ summary, σ.phase = .up summary)) := by
  cases a with
  | boot =>
    show CleanInv (σ.boot bound pageSize cacheSize) ∧
      (_ → (σ.boot bound pageSize cacheSize).store.projection = _ ∨ _)
    unfold Process.boot
    split
    · refine ⟨⟨?_, ?_⟩, fun _ => .inl rfl⟩
      · rintro task ⟨rfl⟩
        exact calls_rebuildAll
      · rintro task ⟨rfl⟩ hcurrent
        exact wp_rebuildAll_current hcurrent
    · exact ⟨h, fun _ => .inl rfl⟩
  | resume =>
    show CleanInv σ.resume ∧ (isCurrent σ.resume.store.projection = true →
      σ.resume.store.projection = _ ∨ _)
    unfold Process.resume
    split
    · exact ⟨⟨nofun, nofun⟩, fun _ => .inl rfl⟩
    · exact ⟨⟨nofun, nofun⟩, fun _ => .inl rfl⟩
    · next c k hphase =>
        obtain ⟨hc, hk⟩ := h.calls _ hphase
        refine ⟨⟨?_, ?_⟩, fun hcurrent => .inl (answer_notClean hc hcurrent)⟩
        · rintro task ⟨rfl⟩
          exact hk _
        · rintro task ⟨rfl⟩ hcurrent
          have hsame := answer_notClean hc hcurrent
          have hbefore : isCurrent σ.store.projection = true := hsame ▸ hcurrent
          exact (h.skips _ hphase hbefore σ.store rfl).2
    · exact ⟨h, fun _ => .inl rfl⟩
  | crash => exact ⟨⟨nofun, nofun⟩, fun _ => .inl rfl⟩
  | shutdown =>
    show CleanInv σ.shutdown ∧ (_ → σ.shutdown.store.projection = _ ∨ _)
    unfold Process.shutdown
    split
    · next summary hphase => exact ⟨⟨nofun, nofun⟩, fun _ => .inr ⟨rfl, summary, hphase⟩⟩
    · exact ⟨h, fun _ => .inl rfl⟩

/-- Since the beginning, or since an orderly stop, nothing has been put. -/
def MarkedBy (bound pageSize cacheSize : ℕ) (s₀ : ConversationStore)
    (actions : List ProcessAction) : Prop :=
  ∃ before after, actions = before ++ after ∧
    (before = [] ∨ ∃ pre summary, before = pre ++ [.shutdown] ∧
      (processAfter bound pageSize cacheSize s₀ pre).phase = .up summary) ∧
    ∀ mid, mid <+: after →
      (processAfter bound pageSize cacheSize s₀ (before ++ mid)).store.projection =
        (processAfter bound pageSize cacheSize s₀ actions).store.projection

theorem processAfter_snoc (s₀ : ConversationStore) (actions : List ProcessAction)
    (a : ProcessAction) : processAfter bound pageSize cacheSize s₀ (actions ++ [a]) =
      (processAfter bound pageSize cacheSize s₀ actions).step bound pageSize cacheSize a := by
  rw [processAfter, foldl_append]
  rfl

theorem cleanInv_after (s₀ : ConversationStore) (actions : List ProcessAction) :
    CleanInv (processAfter bound pageSize cacheSize s₀ actions) := by
  induction actions using List.reverseRecOn with
  | nil => exact ⟨nofun, nofun⟩
  | append_singleton actions a ih =>
    rw [processAfter_snoc]
    exact (ih.step a).1

theorem markedBy_of_current (s₀ : ConversationStore) (actions : List ProcessAction)
    (hcurrent : isCurrent
      (processAfter bound pageSize cacheSize s₀ actions).store.projection = true) :
    MarkedBy bound pageSize cacheSize s₀ actions := by
  induction actions using List.reverseRecOn with
  | nil =>
    refine ⟨[], [], rfl, .inl rfl, fun mid hmid => ?_⟩
    rw [prefix_nil.mp hmid]
    rfl
  | append_singleton actions a ih =>
    rw [processAfter_snoc] at hcurrent
    rcases ((cleanInv_after s₀ actions).step a).2 hcurrent with hsame | ⟨rfl, summary, hup⟩
    · rw [hsame] at hcurrent
      obtain ⟨before, after, hsplit, hbefore, hkept⟩ := ih hcurrent
      refine ⟨before, after ++ [a], by rw [hsplit, append_assoc], hbefore, ?_⟩
      intro mid hmid
      rw [processAfter_snoc, hsame]
      rcases prefix_concat_iff.mp hmid with rfl | hmid
      · rw [← append_assoc, ← hsplit, processAfter_snoc, hsame]
      · exact hkept mid hmid
    · refine ⟨actions ++ [.shutdown], [], (append_nil _).symm,
        .inr ⟨actions, summary, rfl, hup⟩, fun mid hmid => ?_⟩
      rw [prefix_nil.mp hmid, append_nil]

end Clean

/-- A resumed rebuild is complete when no cycle is cut: `rebuild_all` never raises, and
when it returns without skipping, every event has the membership the store determines.
The projection is clean only since an orderly stop of a started process, or from the
beginning; a process that starts then is about to skip. -/
theorem rebuild_complete (s₀ : ConversationStore) (bound pageSize cacheSize : ℕ)
    (hbound : s₀.db.events.rows.length < bound) (hsize : 1 ≤ pageSize)
    (hfresh : resumeCursor s₀.projection = none) (actions : List ProcessAction) :
    (CyclesWhole s₀.db cacheSize →
      (∀ err, (processAfter bound pageSize cacheSize s₀ actions).phase ≠
        .starting (.raise err)) ∧
      ∀ summary, (processAfter bound pageSize cacheSize s₀ actions).phase = .up summary →
        summary.skippedCurrent = false → ∀ e, s₀.db.hasEvent e = true →
          ∃ m, (processAfter bound pageSize cacheSize s₀ actions).store.memberships e = some m ∧
            FromScratch s₀.db e m ∧ ∀ m', FromScratch s₀.db e m' → m' = m) ∧
    (isCurrent (processAfter bound pageSize cacheSize s₀ actions).store.projection = true →
      MarkedBy bound pageSize cacheSize s₀ actions ∧
      ∀ task, (processAfter bound pageSize cacheSize s₀ actions).phase = .starting task →
        ∀ summary, (Task.alone ConversationStore.answer task
          (processAfter bound pageSize cacheSize s₀ actions).store).1 = .ok summary →
          summary.skippedCurrent = true) := by
  refine ⟨fun hwhole => ?_, fun hcurrent => ⟨markedBy_of_current s₀ actions hcurrent, ?_⟩⟩
  · have hinv := processInv_after hbound hwhole hsize hfresh actions
    refine ⟨fun err hphase => hinv.starting _ hphase, ?_⟩
    intro summary hup hskipped e he
    obtain ⟨m, hm, hscratch⟩ := hinv.up summary hup hskipped e he
    exact ⟨m, hm, hscratch, fun m' hm' => hm'.unique hscratch⟩
  · intro task hphase summary hsummary
    have hskips := (cleanInv_after s₀ actions).skips task hphase hcurrent
    exact Task.alone_of_wp hskips (Prod.ext hsummary rfl)

namespace Sample

def eventRow (eventId : String) : EventRow :=
  { eventId, eventKind := "message", schemaVersion := 1, timestamp := "2026-01-01T00:00:00+00:00"
    sourceAdapter := "matrix", sourceTransportId := "transport"
    createdAt := "2026-01-01T00:00:00+00:00" }

def replyRow (id : ℕ) (eventId target : String) : RelationRow :=
  { id, eventId, relationType := "reply", targetEventId := some target
    createdAt := "2026-01-01T00:00:00+00:00" }

/-- `a` replies to `b`. -/
def pair : Db :=
  { Db.empty with
    events :=
      { rows := [eventRow "a", eventRow "b"], checked := fun _ _ => rfl, apart := by decide }
    relations := { rows := [replyRow 1 "a" "b"], checked := fun _ _ => rfl, apart := by decide } }

def pairStore : ConversationStore where
  db := pair
  memberships := fun _ => none
  projection := none

def interrupted : List ProcessAction :=
  [.boot] ++ List.replicate 11 .resume ++ [.crash, .boot] ++ List.replicate 10 .resume

end Sample

open Sample in
/-- With pages of one event, over a crash, the row of `a` is the reply to `b`. -/
theorem rebuild_complete_interrupted :
    ∃ m, (processAfter 10 1 2 pairStore interrupted).store.memberships "a" = some m ∧
      FromScratch pair "a" m ∧ m.rootEventId = "b" := by
  have hrun : ((processAfter 10 1 2 pairStore interrupted).phase.summary?.map
        ConversationRebuildSummary.skippedCurrent,
      ((processAfter 10 1 2 pairStore interrupted).store.memberships "a").map
        ConversationMembership.rootEventId) = (some false, some "b") := by
    decide +kernel
  obtain ⟨hup, hroot⟩ := Prod.mk.inj hrun
  obtain ⟨summary, hsummary, hskipped⟩ := Option.map_eq_some_iff.mp hup
  have hwhole : CyclesWhole pairStore.db 2 := .inr (by decide)
  obtain ⟨m, hm, hscratch, -⟩ :=
    ((rebuild_complete pairStore 10 1 2 (by decide) (by decide) rfl interrupted).1 hwhole).2
      summary (Phase.eq_up hsummary) hskipped "a" (by decide)
  rw [hm] at hroot
  exact ⟨m, hm, hscratch, Option.some.inj hroot⟩

/-! ## A cycle that is cut -/

/-- The end of a task of the service that nothing interleaves with. -/
abbrev served {α : Type} (t : Service α) (s : ConversationStore) :
    Except ConversationError α × ConversationStore :=
  Task.alone ConversationStore.answer t s

theorem exists_resumes {bound pageSize cacheSize : ℕ} {s s' : ConversationStore}
    {task : Service ConversationRebuildSummary} {summary : ConversationRebuildSummary}
    (h : served task s = (.ok summary, s')) :
    ∃ n, (List.replicate n ProcessAction.resume).foldl (Process.step bound pageSize cacheSize)
      { store := s, phase := .starting task } = { store := s', phase := .up summary } := by
  induction task generalizing s with
  | pure a =>
    cases h
    exact ⟨1, rfl⟩
  | raise e => cases h
  | call c k ih =>
    obtain ⟨n, hrun⟩ := ih _ h
    exact ⟨n + 1, hrun⟩

section Evicted

variable {s : ConversationStore} {b : Rebuild} {cache : MembershipCache} {e : String}
  {bound pageSize cacheSize fuel : ℕ}

theorem served_db {α : Type} {t : Service α} {s s' : ConversationStore}
    {r : Except ConversationError α} (h : served t s = (r, s')) : s'.db = s.db := by
  induction t generalizing s with
  | pure a =>
    cases h
    rfl
  | raise e =>
    cases h
    rfl
  | call c k ih => exact (ih _ h).trans (answer_db s c)

theorem served_getEvent {events : EventCache} (hnew : events.get? e = none)
    (hstored : s.db.hasEvent e = true) :
    served (getEvent events e) s =
      (.ok (some (relationsOf s.db e), events.set e (some (relationsOf s.db e))), s) := by
  have hread : served (getEnvelope e) s = (.ok (some (relationsOf s.db e)), s) := by
    show served (if s.db.hasEvent e = true then _ else _ : Service (Option (List RelationRow))) s =
      _
    rw [if_pos hstored]
    rfl
  rw [getEvent, hnew]
  exact Task.alone_bind hread

def rootItem (e : String) : String × ConversationMembership :=
  (e, rootMembership e ⟨none, none, false⟩)

theorem served_root (hnew : e ∉ cache.keys) (hstored : s.db.hasEvent e = true)
    (hrels : relationsOf s.db e = []) :
    ∃ events, served (resolveMembership (fuel + 1) cache .empty e) s =
      (.ok ((rootItem e).2, cache.set e (rootItem e).2, events), s) := by
  have hget := served_getEvent Dict.get?_empty hstored
  rw [hrels] at hget
  obtain ⟨events, hwalk⟩ : ∃ events, served (walk cache (fuel + 1) .empty [] e) s =
      (.ok ([(e, ⟨none, none, false⟩)], cache.set e (rootItem e).2, events), s) := by
    rw [walk, if_neg hnew, if_neg (by simp)]
    exact ⟨_, Task.alone_bind hget⟩
  refine ⟨events, ?_⟩
  rw [resolveMembership, Dict.get?_eq_none.mpr hnew]
  refine (Task.alone_bind hwalk).trans ?_
  have hmem : e ∈ (cache.set e (rootItem e).2).keys := Dict.mem_keys_set.mpr (.inl rfl)
  simp only [reverse_singleton, resolvePath, if_pos hmem]
  rw [Task.lift_ok_bind, Dict.get?_set_self]
  rfl

theorem served_child {p : String} {parent : ConversationMembership} {r : RelationRow}
    (hnew : e ∉ cache.keys) (hstored : s.db.hasEvent e = true)
    (hrels : relationsOf s.db e = [r]) (hr : r.targetEventId = some p) (hne : p ≠ e)
    (hp : s.db.hasEvent p = true) (hparent : cache.get? p = some parent) :
    ∃ events, served (resolveMembership (fuel + 2) cache .empty e) s =
      (.ok (childMembership e ⟨some p, some r.relationType, true⟩ parent,
        cache.set e (childMembership e ⟨some p, some r.relationType, true⟩ parent), events),
        s) := by
  have hget := served_getEvent Dict.get?_empty hstored
  rw [hrels] at hget
  have htarget : served (getEvent ((Dict.empty : EventCache).set e (some [r])) p) s = _ :=
    served_getEvent ((Dict.get?_set_of_ne hne).trans Dict.get?_empty) hp
  obtain ⟨events, hresolve⟩ : ∃ events, served (resolveTarget
      ((Dict.empty : EventCache).set e (some [r])) r) s = (.ok (some p, events), s) := by
    rw [resolveTarget, hr]
    exact ⟨_, Task.alone_bind htarget⟩
  have hselect : served (selectParent ((Dict.empty : EventCache).set e (some [r])) none false [r])
      s = (.ok (⟨some p, some r.relationType, true⟩, events), s) := Task.alone_bind hresolve
  have hwalk : served (walk cache (fuel + 2) .empty [] e) s =
      (.ok ([(e, ⟨some p, some r.relationType, true⟩)], cache, events), s) := by
    rw [walk, if_neg hnew, if_neg (by simp)]
    refine (Task.alone_bind hget).trans ((Task.alone_bind hselect).trans ?_)
    show served (walk cache (fuel + 1) events [(e, _)] p) s = _
    rw [walk, if_pos (Dict.mem_keys.mpr ⟨parent, hparent⟩)]
    rfl
  refine ⟨events, ?_⟩
  rw [resolveMembership, Dict.get?_eq_none.mpr hnew]
  refine (Task.alone_bind hwalk).trans ?_
  simp only [reverse_singleton, resolvePath, if_neg hnew, hparent]
  rw [Task.lift_ok_bind, Dict.get?_set_self]
  rfl

theorem newItems_set {m : ConversationMembership} (hnew : e ∉ cache.keys) :
    newItems cache.keys (cache.set e m) = [(e, m)] := by
  have hnone : cache.items.filter (fun i => decide (i.1 ∉ cache.keys)) = [] := by
    refine filter_eq_nil_iff.mpr fun i hi => ?_
    have hkey : i.1 ∈ cache.keys := mem_map.mpr ⟨i, hi, rfl⟩
    simpa using hkey
  unfold newItems
  rw [Dict.items_set hnew, filter_append, hnone]
  simp [hnew]

theorem served_rebuildEvent {m : ConversationMembership} {events : EventCache}
    (hresolve : served (resolveMembership bound b.memberships .empty e) s =
      (.ok (m, b.memberships.set e m, events), s))
    (hnew : e ∉ b.memberships.keys) (hid : m.eventId = e) (hnames : m.namesStored s.db = true) :
    ∃ b' s', served (rebuildEvent bound cacheSize b e) s = (.ok b', s') ∧ s'.db = s.db ∧
      s'.memberships = Function.update s.memberships e (some m) ∧
      b'.memberships = (b.memberships.set e m).prune cacheSize := by
  obtain ⟨flag, hput⟩ : ∃ flag, served (ask (.putMembership m)) s =
      (.ok (.ok flag), { s with memberships := Function.update s.memberships e (some m) }) := by
    refine ⟨decide (s.memberships e ≠ some m), ?_⟩
    show (Except.ok (s.putMembership m).2, (s.putMembership m).1) = _
    rw [ConversationStore.putMembership, if_pos hnames, hid]
    rfl
  obtain ⟨changed, hstore⟩ : ∃ changed, served (storeItem [] (e, m)) s =
      (.ok changed, { s with memberships := Function.update s.memberships e (some m) }) := by
    cases flag <;> exact ⟨_, Task.alone_bind hput⟩
  have hfold : served (Task.fold storeItem [] (newItems b.memberships.keys
      (b.memberships.set e m))) s =
        (.ok changed, { s with memberships := Function.update s.memberships e (some m) }) := by
    rw [newItems_set hnew]
    exact Task.alone_bind hstore
  refine ⟨_, _, (Task.alone_bind hresolve).trans (Task.alone_bind hfold), rfl, rfl, ?_⟩
  rw [newItems_set hnew]
  rfl

theorem served_roots {fs : List String} (hlength : b.memberships.items.length ≤ cacheSize)
    (hnodup : fs.Nodup) (hroots : ∀ f ∈ fs, s.db.hasEvent f = true ∧ relationsOf s.db f = [] ∧
      f ∉ b.memberships.keys) :
    ∃ b' s', served (Task.fold (rebuildEvent (fuel + 1) cacheSize) b fs) s = (.ok b', s') ∧
      b'.memberships.items = (b.memberships.items ++ fs.map rootItem).drop
        (b.memberships.items.length + fs.length - cacheSize) := by
  induction fs generalizing b s with
  | nil => exact ⟨b, s, rfl, by simp [Nat.sub_eq_zero_of_le hlength]⟩
  | cons f fs ih =>
    obtain ⟨hf, hfs⟩ := nodup_cons.mp hnodup
    obtain ⟨hstored, hrels, hnew⟩ := hroots f mem_cons_self
    have hnames : (rootItem f).2.namesStored s.db = true := by
      simp [ConversationMembership.namesStored, rootItem, rootMembership, hstored]
    obtain ⟨events, hresolve⟩ := served_root hnew hstored hrels
    obtain ⟨b₁, s₁, hrun, hdb, -, hb₁⟩ := served_rebuildEvent hresolve hnew rfl hnames
    have hitems : b₁.memberships.items = (b.memberships.items ++ [rootItem f]).drop
        (b.memberships.items.length + 1 - cacheSize) := by
      rw [hb₁, Dict.prune]
      simp only [Dict.items_set hnew, length_append, length_singleton]
      rfl
    have hlength₁ : b₁.memberships.items.length ≤ cacheSize := by
      rw [hitems, length_drop, length_append, length_singleton]
      omega
    have hroots₁ : ∀ x ∈ fs, s₁.db.hasEvent x = true ∧ relationsOf s₁.db x = [] ∧
        x ∉ b₁.memberships.keys := by
      intro x hx
      obtain ⟨hx₁, hx₂, hx₃⟩ := hroots x (mem_cons_of_mem _ hx)
      refine ⟨hdb ▸ hx₁, hdb ▸ hx₂, fun hmem => ?_⟩
      obtain ⟨i, hi, rfl⟩ := mem_map.mp hmem
      rw [hitems] at hi
      rcases mem_append.mp (mem_of_mem_drop hi) with hi | hi
      · exact hx₃ (mem_map.mpr ⟨i, hi, rfl⟩)
      · rw [mem_singleton.mp hi] at hx
        exact hf hx
    obtain ⟨b', s', hrest, hb'⟩ := ih hlength₁ hfs hroots₁
    refine ⟨b', s', (Task.alone_bind hrun).trans hrest, ?_⟩
    rw [hb', hitems, ← drop_append_of_le_length (by simp), append_assoc, drop_drop,
      length_drop, length_append, length_singleton, length_cons]
    congr 1
    omega

theorem served_page {cursor : Option String} {s' : ConversationStore} {b' : Rebuild} {f : String}
    {fs : List String}
    (hsize : 1 ≤ pageSize) (hpage : (eventIdsAfter s.db cursor).take pageSize = f :: fs)
    (hfold : served (Task.fold (rebuildEvent bound cacheSize) b (f :: fs)) s = (.ok b', s')) :
    ∃ p, served (rebuildLoop bound pageSize cacheSize (fuel + 1) cursor b) s =
      served (rebuildLoop bound pageSize cacheSize fuel (some ((f :: fs).getLast (by simp))) b')
        { s' with projection := p } := by
  have hread : served (ask (.listEventIdsPage cursor pageSize)) s = (.ok (.ok (f :: fs)), s) := by
    show (Except.ok (if pageSize < 1 then _ else _ : Except Err (List String)), s) = _
    rw [if_neg (Nat.not_lt.mpr hsize), hpage]
    rfl
  exact ⟨_, (Task.alone_bind hread).trans (Task.alone_bind hfold)⟩

theorem served_rebuildAll {s' : ConversationStore} {b : Rebuild}
    (hcurrent : isCurrent s.projection = false)
    (hloop : served (rebuildLoop bound pageSize cacheSize bound (resumeCursor s.projection) {})
      { s with projection := some (rebuilding (resumeCursor s.projection)) } = (.ok b, s')) :
    served (rebuildAll bound pageSize cacheSize) s =
      (.ok { scannedEvents := b.scanned, changedEvents := b.changed, skippedCurrent := false },
        { s' with projection := some dirtyState }) := by
  have hread : served (ask .getProjectionState) s = (.ok s.projection, s) := rfl
  refine (Task.alone_bind hread).trans ?_
  rw [if_neg (by simp [hcurrent])]
  exact Task.alone_bind hloop

end Evicted

namespace Sample

/-- Names between `"a"` and `"z1"`, in order. -/
def crowd : List String :=
  (List.range 255).map fun i =>
    String.ofList ['b', Char.ofNat (97 + i / 16), Char.ofNat (97 + i % 16)]

def crowdedIds : List String := ("a" :: crowd) ++ ["z1", "z2"]

theorem crowdedIds_sorted : crowdedIds.Pairwise (· < ·) := by
  have hchain : crowdedIds.IsChain (· < ·) := by decide +kernel
  exact isChain_iff_pairwise.mp hchain

/-- `z1` and `z2` reply to each other, and `a` to `z1`; the other events are roots. -/
def crowded : Db :=
  { Db.empty with
    events :=
      { rows := crowdedIds.map eventRow
        checked := fun _ _ => rfl
        apart := pairwise_map.mpr (crowdedIds_sorted.imp fun hlt => decide_eq_false hlt.ne) }
    relations :=
      { rows := [replyRow 1 "a" "z1", replyRow 2 "z1" "z2", replyRow 3 "z2" "z1"]
        checked := fun _ _ => rfl
        apart := by decide } }

theorem crowded_ids : crowded.events.rows.map EventRow.eventId = crowdedIds := by
  show (crowdedIds.map eventRow).map EventRow.eventId = _
  rw [map_map]
  exact map_id _

theorem crowded_stored {e : String} (he : e ∈ crowdedIds) : crowded.hasEvent e = true := by
  rw [← crowded_ids] at he
  obtain ⟨row, hrow, hid⟩ := mem_map.mp he
  exact hasEvent_iff.mpr ⟨row, hrow, hid⟩

/-- The relation to `target`, as an edge. -/
def replyEdge (target : String) : Edge := ⟨some target, some "reply", true⟩

/-- The rows of the first event: it replies to a cycle of two. -/
def cycleItems : List (String × ConversationMembership) :=
  [("a", childMembership "a" (replyEdge "z1") (cycleMembership "z1" ("z1", replyEdge "z2"))),
    ("z1", cycleMembership "z1" ("z1", replyEdge "z2")),
    ("z2", cycleMembership "z1" ("z2", replyEdge "z1"))]

def crowdedStore : ConversationStore where
  db := crowded
  memberships := fun _ => none
  projection := none

def startedStore : ConversationStore := { crowdedStore with projection := some (rebuilding none) }

theorem crowded_first : ∃ b s, served (rebuildEvent 300 256 {} "a") startedStore = (.ok b, s) ∧
    b.memberships.items = cycleItems := by
  have hitems : (served (rebuildEvent 300 256 {} "a") startedStore).1.toOption.map
      (fun b => b.memberships.items) = some cycleItems := by
    decide +kernel
  generalize served (rebuildEvent 300 256 {} "a") startedStore = r at hitems ⊢
  obtain ⟨r, s⟩ := r
  cases r with
  | error e => cases hitems
  | ok b => exact ⟨b, s, rfl, Option.some.inj hitems⟩

theorem crowd_nodup : crowd.Nodup ∧ ∀ f ∈ crowd, f ≠ "a" ∧ f ≠ "z1" ∧ f ≠ "z2" := by
  have hnodup : crowdedIds.Nodup := crowdedIds_sorted.imp fun hlt => hlt.ne
  obtain ⟨hfirst, -, hlast⟩ := nodup_append.mp hnodup
  obtain ⟨ha, hcrowd⟩ := nodup_cons.mp hfirst
  refine ⟨hcrowd, fun f hf => ⟨?_, ?_, ?_⟩⟩
  · rintro rfl
    exact ha hf
  · exact hlast f (mem_cons_of_mem _ hf) "z1" (by simp)
  · exact hlast f (mem_cons_of_mem _ hf) "z2" (by simp)

theorem crowded_firstPage :
    ∃ b s, served (Task.fold (rebuildEvent 300 256) {} ("a" :: crowd)) startedStore = (.ok b, s) ∧
      s.db = crowded ∧ b.memberships.items =
        ("z2", cycleMembership "z1" ("z2", replyEdge "z1")) :: crowd.map rootItem := by
  obtain ⟨hnodup, hne⟩ := crowd_nodup
  obtain ⟨b₁, s₁, hfirst, hitems⟩ := crowded_first
  have hdb₁ : s₁.db = crowded := served_db hfirst
  have hroots : ∀ f ∈ crowd, s₁.db.hasEvent f = true ∧ relationsOf s₁.db f = [] ∧
      f ∉ b₁.memberships.keys := by
    intro f hf
    obtain ⟨ha, h1, h2⟩ := hne f hf
    rw [hdb₁, Dict.keys, hitems]
    refine ⟨crowded_stored (mem_append_left _ (mem_cons_of_mem _ hf)), ?_, ?_⟩
    · simp [relationsOf, crowded, replyRow, ha.symm, h1.symm, h2.symm]
    · simp [cycleItems, ha, h1, h2]
  have hle : b₁.memberships.items.length ≤ 256 := by
    rw [hitems]
    decide
  obtain ⟨b, s, hrest, hb⟩ : ∃ b s, served (Task.fold (rebuildEvent 300 256) b₁ crowd) s₁ =
    (.ok b, s) ∧ _ := served_roots hle hnodup hroots
  refine ⟨b, s, (Task.alone_bind hfirst).trans hrest, (served_db hrest).trans hdb₁, ?_⟩
  have hlength : crowd.length = 255 := by simp [crowd]
  have hdrop : cycleItems.length + 255 - 256 = 2 := rfl
  rw [hb, hitems, hlength, hdrop]
  rfl

theorem map_fst_rootItem (l : List String) : (l.map rootItem).map Prod.fst = l := by
  rw [map_map]
  exact map_id l

theorem crowded_child {b : Rebuild} {i : ℕ} {e target : String} (hdb : s.db = crowded)
    (hrels : relationsOf crowded e = [replyRow i e target]) (he : crowded.hasEvent e = true)
    (htarget : crowded.hasEvent target = true) (hne : target ≠ e) (hnew : e ∉ b.memberships.keys)
    (hparent : b.memberships.get? target = some parent)
    (hroot : crowded.hasEvent parent.rootEventId = true) :
    ∃ b' s', served (rebuildEvent 300 256 b e) s = (.ok b', s') ∧ s'.db = s.db ∧
      s'.memberships = Function.update s.memberships e
        (some (childMembership e (replyEdge target) parent)) ∧
      b'.memberships =
        (b.memberships.set e (childMembership e (replyEdge target) parent)).prune 256 := by
  rw [← hdb] at hrels he htarget hroot
  obtain ⟨_, hresolve⟩ := served_child hnew he hrels rfl hne htarget hparent
  refine served_rebuildEvent hresolve hnew rfl ?_
  simp [ConversationMembership.namesStored, childMembership, replyEdge, he, htarget, hroot]

theorem crowded_secondPage (hdb : s.db = crowded) {b : Rebuild} (hb : b.memberships.items =
      ("z2", cycleMembership "z1" ("z2", replyEdge "z1")) :: crowd.map rootItem) :
    ∃ b' s', served (Task.fold (rebuildEvent 300 256) b ["z1", "z2"]) s = (.ok b', s') ∧
      ∃ m, s'.memberships "z1" = some m ∧ m.depth = 1 := by
  have hstored1 : crowded.hasEvent "z1" = true := crowded_stored (by simp [crowdedIds])
  have hstored2 : crowded.hasEvent "z2" = true := crowded_stored (by simp [crowdedIds])
  have hcrowd : "z1" ∉ crowd ∧ "z2" ∉ crowd :=
    ⟨fun hmem => (crowd_nodup.2 _ hmem).2.1 rfl, fun hmem => (crowd_nodup.2 _ hmem).2.2 rfl⟩
  have hnew1 : "z1" ∉ b.memberships.keys := by
    rw [Dict.keys, hb, map_cons, map_fst_rootItem]
    simp [hcrowd.1]
  have hparent1 : b.memberships.get? "z2" = some (cycleMembership "z1" ("z2", replyEdge "z1")) :=
    Dict.mem_items.mp (by rw [hb]; exact mem_cons_self)
  obtain ⟨b₁, s₁, hrun1, hdb₁, hrows1, hb₁⟩ :=
    crowded_child hdb rfl hstored1 hstored2 (by decide) hnew1 hparent1 hstored1
  have hitems : b₁.memberships.items = crowd.map rootItem ++
      [("z1", childMembership "z1" (replyEdge "z2")
        (cycleMembership "z1" ("z2", replyEdge "z1")))] := by
    rw [hb₁]
    exact Dict.items_prune_set hnew1 hb (by rw [hb]; simp [crowd])
  have hnew2 : "z2" ∉ b₁.memberships.keys := by
    rw [Dict.keys, hitems, map_append, map_fst_rootItem]
    simp [hcrowd.2]
  have hparent2 := Dict.mem_items.mp (show _ ∈ b₁.memberships.items by
    rw [hitems]
    exact mem_append_right _ (mem_singleton.mpr rfl))
  obtain ⟨b₂, s₂, hrun2, -, hrows2, -⟩ :=
    crowded_child (hdb₁.trans hdb) rfl hstored2 hstored1 (by decide) hnew2 hparent2 hstored1
  refine ⟨b₂, s₂, (Task.alone_bind hrun1).trans (Task.alone_bind hrun2),
    childMembership "z1" (replyEdge "z2") (cycleMembership "z1" ("z2", replyEdge "z1")), ?_, rfl⟩
  rw [hrows2, Function.update_of_ne (by decide), hrows1, Function.update_self]

theorem crowded_pages : (eventIdsAfter crowded none).take 256 = "a" :: crowd ∧
    (eventIdsAfter crowded (some (("a" :: crowd).getLast (by simp)))).take 256 = ["z1", "z2"] ∧
    eventIdsAfter crowded (some "z2") = [] := by
  decide +kernel

theorem crowded_rebuild : ∃ summary s',
    served (rebuildAll 300 rebuildPageSize rebuildMembershipCacheSize) crowdedStore =
        (.ok summary, s') ∧
      summary.skippedCurrent = false ∧ ∃ m, s'.memberships "z1" = some m ∧ m.depth = 1 := by
  obtain ⟨hpage1, hpage2, hpage3⟩ := crowded_pages
  obtain ⟨b₁, s₁, hfold1, hdb₁, hitems⟩ := crowded_firstPage
  have hstart : startedStore.db = crowded := rfl
  obtain ⟨p₁, hloop1⟩ := served_page (by decide) (hstart ▸ hpage1) hfold1
  obtain ⟨b₂, s₂, hfold2, m, hm, hdepth⟩ :=
    crowded_secondPage (s := { s₁ with projection := p₁ }) hdb₁ hitems
  have hdb₂ : s₂.db = crowded := (served_db hfold2).trans hdb₁
  obtain ⟨p₂, hloop2⟩ := served_page (by decide) (hdb₁ ▸ hpage2) hfold2
  have hend : served (ask (.listEventIdsPage (some "z2") 256)) { s₂ with projection := p₂ } =
      (.ok (.ok []), { s₂ with projection := p₂ }) := by
    show (Except.ok (Except.ok ((eventIdsAfter s₂.db (some "z2")).take 256)), _) = _
    rw [hdb₂, hpage3]
    rfl
  have hloop : served (rebuildLoop 300 256 256 300 none {}) startedStore =
      (.ok b₂, { s₂ with projection := p₂ }) :=
    hloop1.trans (hloop2.trans (Task.alone_bind hend))
  exact ⟨_, _, served_rebuildAll rfl hloop, rfl, m, hm, hdepth⟩

end Sample

open Sample in
/-- At the sizes of the service a rebuild of 258 events returns, and the row of a member
of a cycle is not the one the store determines. -/
theorem rebuild_cuts_cycle :
    resumeCursor crowdedStore.projection = none ∧ ∃ n summary,
      (processAfter 300 rebuildPageSize rebuildMembershipCacheSize crowdedStore
        (.boot :: List.replicate n .resume)).phase = .up summary ∧
      summary.skippedCurrent = false ∧ crowdedStore.db.hasEvent "z1" = true ∧
      ∃ m, (processAfter 300 rebuildPageSize rebuildMembershipCacheSize crowdedStore
        (.boot :: List.replicate n .resume)).store.memberships "z1" = some m ∧
        ¬FromScratch crowdedStore.db "z1" m := by
  refine ⟨rfl, ?_⟩
  obtain ⟨summary, s', hserved, hskipped, m, hm, hdepth⟩ := crowded_rebuild
  obtain ⟨n, hrun⟩ := exists_resumes hserved
  refine ⟨n, summary, ?_, hskipped, crowded_stored (by simp [crowdedIds]), m, ?_, ?_⟩
  · exact congrArg Process.phase hrun
  · exact (congrArg (fun σ => σ.store.memberships "z1") hrun).trans hm
  · intro hscratch
    have hparents : parentOf crowded "z1" = some "z2" ∧ parentOf crowded "z2" = some "z1" := by
      decide +kernel
    have henters : Enters (parentOf crowded) "z1" 0 "z1" := by
      refine ⟨rfl, ⟨1, ?_⟩, nofun⟩
      exact ancestor_trans (ancestor_one hparents.1) (ancestor_one hparents.2)
    rcases hscratch.chain with ⟨hends, -⟩ | ⟨c, henters', -⟩
    · exact hends.not_enters henters
    · have hzero := (henters.unique henters').1
      omega

end Medre.Planning
