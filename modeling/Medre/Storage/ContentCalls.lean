import Medre.Storage.Admitted

/-! # What the content calls do and decide on

Every one of them observes expiry first and decides on the store it has left. -/

namespace Medre.Storage

open List Medre.Framework Tx

variable {c o observed : String} {d : Dependency} {g : AccessGrant} {db₁ : Db} {u : Unit} {b : Bool}
  {r : Except Err ContentBodyRead} {hold : ContentHold} {policy : AvailabilityPolicy}

/-! ## Observations -/

/-- What `_observe_mandatory_expiry` makes of a dependency. -/
def Dependency.observedAt (e observed : String) (d : Dependency) : Dependency :=
  if d.eventId = e && d.lapsedAt observed then release observed d else d

/-- What `_observe_optional_expiry` makes of a grant. -/
def AccessGrant.observedAt (e observed : String) (g : AccessGrant) : AccessGrant :=
  if g.eventId = e && g.expiredAt.isNone && g.revokedAt.isNone && g.expiresAt ≤ observed then
    { g with expiredAt := some observed }
  else g

/-- `db₁` is `db` after `_observe_mandatory_expiry`. -/
def MandatoryObserved (e observed : String) (db db₁ : Db) : Prop :=
  ∃ t : Table dependencyConstraint, db₁ = { db with dependencies := t } ∧
    ∀ d', d' ∈ t.rows ↔ ∃ d ∈ db.dependencies.rows, d' = d.observedAt e observed

/-- `db₁` is `db` after `_observe_optional_expiry`. -/
def OptionalObserved (e observed : String) (db db₁ : Db) : Prop :=
  ∃ t : Table grantConstraint, db₁ = { db with grants := t } ∧
    ∀ g', g' ∈ t.rows ↔ ∃ g ∈ db.grants.rows, g' = g.observedAt e observed

/-- The event has a source that is neither released nor past its deadline. -/
def SourceOpen (db : Db) (e observed : String) : Prop :=
  ∃ d ∈ db.dependencies.rows, d.eventId = e ∧ d.ownerKind.isSource = true ∧
    d.releasedAt = none ∧ d.deadline.all (observed < ·) = true

namespace Dependency

theorem observedAt_key (e observed : String) (d : Dependency) :
    (d.observedAt e observed).key = d.key := by
  unfold observedAt
  split <;> rfl

theorem observedAt_of_released {e : String} (h : d.releasedAt.isSome = true) :
    d.observedAt e observed = d := by
  refine if_neg ?_
  intro hlapsed
  simp only [lapsedAt, Bool.and_eq_true, Option.isNone_iff_eq_none] at hlapsed
  rw [hlapsed.2.1] at h
  cases h

theorem observedAt_lapsed (h : d.deadline.any (· ≤ observed) = true) :
    (d.observedAt d.eventId observed).releasedAt.isSome = true := by
  cases hr : d.releasedAt with
  | some at' =>
    rw [observedAt_of_released (by rw [hr]; rfl), hr]
    rfl
  | none =>
    have hlapsed : (decide (d.eventId = d.eventId) && d.lapsedAt observed) = true := by
      simp only [lapsedAt, hr, h]
      simp
    rw [observedAt, if_pos hlapsed]
    rfl

theorem observedAt_open :
    (d.observedAt d.eventId observed).releasedAt = none ↔
      d.releasedAt = none ∧ d.deadline.all (observed < ·) = true := by
  cases hlapsed : d.deadline.any (· ≤ observed) with
  | true =>
    have hsome := observedAt_lapsed hlapsed
    constructor
    · intro h
      rw [h] at hsome
      cases hsome
    · rintro ⟨-, hopen⟩
      cases ht : d.deadline with
      | none =>
        rw [ht] at hlapsed
        cases hlapsed
      | some text =>
        rw [ht] at hlapsed hopen
        exact absurd (of_decide_eq_true hlapsed) (not_le_of_gt (of_decide_eq_true hopen))
  | false =>
    have hkept : d.observedAt d.eventId observed = d := by
      refine if_neg ?_
      simp [lapsedAt, hlapsed]
    rw [hkept, iff_self_and]
    intro _
    cases ht : d.deadline with
    | none => rfl
    | some text =>
      rw [ht] at hlapsed
      exact decide_eq_true (lt_of_not_ge (of_decide_eq_false hlapsed))

end Dependency

namespace AccessGrant

theorem observedAt_key (e observed : String) (g : AccessGrant) :
    (g.observedAt e observed).key = g.key := by
  unfold observedAt
  split <;> rfl

theorem observedAt_of_closed {e : String} (h : g.closed = true) : g.observedAt e observed = g := by
  refine if_neg ?_
  intro hopen
  simp only [Bool.and_eq_true, Option.isNone_iff_eq_none] at hopen
  simp [closed, hopen.1.1.2, hopen.1.2] at h

theorem observedAt_expired (h : g.expiresAt ≤ observed) :
    (g.observedAt g.eventId observed).closed = true := by
  cases hc : g.closed with
  | true =>
    rw [observedAt_of_closed hc]
    exact hc
  | false =>
    simp only [closed, Bool.or_eq_false_iff, Option.isSome_eq_false_iff] at hc
    rw [observedAt, if_pos (by simp [hc.1, hc.2, h])]
    rfl

end AccessGrant

theorem run_observeMandatoryExpiry (db : Db) (e observed : String) :
    ∃ db₁, (observeMandatoryExpiry e observed).run db = .ok ((), db₁) ∧
      MandatoryObserved e observed db db₁ := by
  have hclash : ∀ d d' : Dependency, dependencyConstraint.clash (d.observedAt e observed)
      (d'.observedAt e observed) = dependencyConstraint.clash d d' := by
    intro d d'
    have h := Dependency.key_inj.mp (d.observedAt_key e observed)
    have h' := Dependency.key_inj.mp (d'.observedAt_key e observed)
    simp only [dependencyConstraint, keyed, h, h']
  obtain ⟨t, ht⟩ := Table.update_some (t := db.dependencies)
    (p := fun d : Dependency => d.eventId = e && d.lapsedAt observed) (f := release observed)
    (fun d hd _ => db.dependencies.checked d hd) hclash
  refine ⟨{ db with dependencies := t }, ?_, t, rfl, fun d' => Table.mem_update ht⟩
  simp only [observeMandatoryExpiry, run_bind, run_pure]
  exact ⟨_, _, run_updateTable.mpr ⟨t, ht, rfl, rfl⟩, trivial, rfl⟩

theorem mandatoryObserved_of_run {e : String} {db : Db}
    (h : (observeMandatoryExpiry e observed).run db = .ok (u, db₁)) :
    MandatoryObserved e observed db db₁ := by
  obtain ⟨db₂, hrun, hobserved⟩ := run_observeMandatoryExpiry db e observed
  rw [h] at hrun
  cases hrun
  exact hobserved

theorem optionalObserved_of_run {e : String} {db : Db}
    (h : (observeOptionalExpiry e observed).run db = .ok (u, db₁)) :
    OptionalObserved e observed db db₁ := by
  simp only [observeOptionalExpiry, run_bind, run_pure] at h
  obtain ⟨n, _, hupd, -, rfl⟩ := h
  obtain ⟨t, ht, -, rfl⟩ := run_updateTable.mp hupd
  exact ⟨t, rfl, fun g' => Table.mem_update ht⟩

theorem MandatoryObserved.sourceDependencyLive {db : Db} {e : String}
    (h : MandatoryObserved e observed db db₁) :
    db₁.sourceDependencyLive e = true ↔ SourceOpen db e observed := by
  obtain ⟨t, rfl, ht⟩ := h
  simp only [Db.sourceDependencyLive, any_eq_true, Dependency.sourceLive, Bool.and_eq_true,
    decide_eq_true_eq, Option.isNone_iff_eq_none]
  constructor
  · rintro ⟨d', hd', ⟨hevent, hkind⟩, hlive⟩
    obtain ⟨d, hd, rfl⟩ := (ht d').mp hd'
    have hkey := Dependency.key_inj.mp (d.observedAt_key e observed)
    rw [hkey.1] at hevent
    subst hevent
    obtain ⟨hnone, hdeadline⟩ := Dependency.observedAt_open.mp hlive
    exact ⟨d, hd, rfl, hkey.2.1 ▸ hkind, hnone, hdeadline⟩
  · rintro ⟨d, hd, rfl, hkind, hnone, hdeadline⟩
    have hkey := Dependency.key_inj.mp (d.observedAt_key d.eventId observed)
    refine ⟨_, (ht _).mpr ⟨d, hd, rfl⟩, ⟨hkey.1, hkey.2.1 ▸ hkind⟩, ?_⟩
    exact Dependency.observedAt_open.mpr ⟨hnone, hdeadline⟩

/-! ## Calls -/

section Calls

variable {db db' : Db} {e : String} {now : Datetime}

/-- What an authorized native start has passed: the worker holds the row, no dispatch bound has
elapsed, and the content is still held. -/
structure StartAllowed (db : Db) (e o w : String) (a : ℤ) (observed : String) : Prop where
  owner : ∃ r ∈ db.outbox.rows, r.ownsAttempt db.outbox.rows e o w a = true
  inTime : db.effectiveDeadlineElapsed e o observed = .ok false
  authority : db.outboxContentAuthority e o observed = true

theorem run_authorizeNativeSubmission {w : String} {a : ℤ}
    (h : (authorizeNativeSubmission e o w a now).run db = .ok (b, db')) :
    ∃ observed, utc now = .ok observed ∧ MandatoryObserved e observed db db' ∧
      (b = true → StartAllowed db' e o w a observed) := by
  simp only [authorizeNativeSubmission, nativeSubmissionAuthorized, run_bind, run_require,
    run_lift, run_query] at h
  obtain ⟨_, _, ⟨-, rfl⟩, _, _, ⟨-, rfl⟩, _, _, ⟨-, rfl⟩, observed, _, ⟨hnow, rfl⟩, _, db₁,
    hobserve, _, _, ⟨rfl, rfl⟩, hrest⟩ := h
  have hfalse : ∀ {b : Bool} {db₂ : Db}, (pure false : StoreTx Bool).run db₁ = .ok (b, db₂) →
      db₂ = db₁ ∧ (b = true → StartAllowed db₁ e o w a observed) := by
    intro b db₂ hpure
    obtain ⟨rfl, rfl⟩ := run_pure.mp hpure
    exact ⟨rfl, fun hb => by cases hb⟩
  suffices hsuff : db' = db₁ ∧ (b = true → StartAllowed db₁ e o w a observed) by
    obtain ⟨rfl, hauth⟩ := hsuff
    exact ⟨observed, hnow, mandatoryObserved_of_run hobserve, hauth⟩
  -- every exit but the last one answers `False`
  split at hrest
  · exact hfalse hrest
  · rename_i hlease
    split at hrest
    · rcases run_ite.mp hrest with ⟨-, hpure⟩ | ⟨-, hraise⟩
      · exact hfalse hpure
      · exact (run_raise.mp hraise).elim
    · rcases run_ite.mp hrest with ⟨-, hpure⟩ | ⟨-, hrest⟩
      · exact hfalse hpure
      · simp only [run_bind, run_lift] at hrest
        obtain ⟨elapsed, _, ⟨helapsed, rfl⟩, hrest⟩ := hrest
        rcases run_ite.mp hrest with ⟨-, hpure⟩ | ⟨hin, hrest⟩
        · exact hfalse hpure
        · rcases run_ite.mp hrest with ⟨-, hpure⟩ | ⟨-, hrest⟩
          · exact hfalse hpure
          · obtain ⟨hb, rfl⟩ := run_pure.mp hrest
            refine ⟨rfl, fun htrue => ⟨?_, ?_, hb.trans htrue⟩⟩
            · obtain ⟨r, hfind, -⟩ := Option.bind_eq_some_iff.mp hlease
              exact ⟨r, mem_of_find?_eq_some hfind, List.find?_some hfind⟩
            · rw [Bool.not_eq_true] at hin
              exact hin ▸ helapsed

theorem run_readOutboxBody (h : (readOutboxBody e o now).run db = .ok (r, db')) :
    ∃ observed, utc now = .ok observed ∧ MandatoryObserved e observed db db' ∧
      (r = .ok .denied ∨ db'.outboxContentAuthority e o observed = true) := by
  simp only [readOutboxBody, run_bind, run_require, run_lift, run_query] at h
  obtain ⟨_, _, ⟨-, rfl⟩, observed, _, ⟨hnow, rfl⟩, _, db₁, hobserve, _, _, ⟨rfl, rfl⟩, hrest⟩ := h
  rcases run_ite.mp hrest with ⟨hauth, hrest⟩ | ⟨-, hpure⟩
  · have hdb : db₁ = db' := by
      split at hrest <;> exact (run_pure.mp hrest).2
    rw [Bool.and_eq_true] at hauth
    exact ⟨observed, hnow, hdb ▸ mandatoryObserved_of_run hobserve, .inr (hdb ▸ hauth.2)⟩
  · obtain ⟨rfl, rfl⟩ := run_pure.mp hpure
    exact ⟨observed, hnow, mandatoryObserved_of_run hobserve, .inl rfl⟩

theorem run_readAuthorizedBody (h : (readAuthorizedBody e c now).run db = .ok (r, db')) :
    ∃ observed db₁, utc now = .ok observed ∧ MandatoryObserved e observed db db₁ ∧
      OptionalObserved e observed db₁ db' ∧
      (r = .ok .denied ∨ db'.consumerAuthorized e c observed = true) := by
  simp only [readAuthorizedBody, run_bind, run_require, run_lift, run_query] at h
  obtain ⟨_, _, ⟨-, rfl⟩, observed, _, ⟨hnow, rfl⟩, _, db₁, hobserve, _, db₂, hoptional, _, _,
    ⟨rfl, rfl⟩, hrest⟩ := h
  refine ⟨observed, db₁, hnow, mandatoryObserved_of_run hobserve, ?_⟩
  rcases run_ite.mp hrest with ⟨hauth, hrest⟩ | ⟨-, hpure⟩
  · have hdb : db₂ = db' := by
      split at hrest <;> exact (run_pure.mp hrest).2
    exact ⟨hdb ▸ optionalObserved_of_run hoptional, .inr (hdb ▸ hauth)⟩
  · obtain ⟨rfl, rfl⟩ := run_pure.mp hpure
    exact ⟨optionalObserved_of_run hoptional, .inl rfl⟩

/-- An owned-event read hands out an event only under the authority of its
owner; the reply read observes the grants as well. -/
theorem run_readOwnedEvent {codec : EventCodec} {owner : ReadOwner} {r : AuthorizedEventRead}
    (h : (readOwnedEvent codec e owner now).run db = .ok (r, db')) :
    ∃ observed db₁, utc now = .ok observed ∧ MandatoryObserved e observed db db₁ ∧
      ((owner = .reply ∧ OptionalObserved e observed db₁ db') ∨ (owner ≠ .reply ∧ db₁ = db')) ∧
      (r = .denied ∨ db'.readAuthority e observed owner = true) := by
  simp only [readOwnedEvent, run_bind, run_require, run_lift, run_query] at h
  obtain ⟨_, _, ⟨-, rfl⟩, observed, _, ⟨hnow, rfl⟩, _, db₁, hobserve, _, db₂, hoptional, _, _,
    ⟨rfl, rfl⟩, hrest⟩ := h
  refine ⟨observed, db₁, hnow, mandatoryObserved_of_run hobserve, ?_⟩
  have hgrants : (owner = .reply ∧ OptionalObserved e observed db₁ db₂) ∨
      (owner ≠ .reply ∧ db₁ = db₂) := by
    rcases run_onlyIf.mp hoptional with ⟨hreply, hrun⟩ | ⟨hreply, rfl⟩
    · exact .inl ⟨of_decide_eq_true hreply, optionalObserved_of_run hrun⟩
    · exact .inr ⟨of_decide_eq_false hreply, rfl⟩
  rcases run_ite.mp hrest with ⟨-, hpure⟩ | ⟨-, hrest⟩
  · obtain ⟨rfl, rfl⟩ := run_pure.mp hpure
    exact ⟨hgrants, .inl rfl⟩
  · rcases run_ite.mp hrest with ⟨-, hpure⟩ | ⟨hauth, hrest⟩
    · obtain ⟨rfl, rfl⟩ := run_pure.mp hpure
      exact ⟨hgrants, .inl rfl⟩
    · split at hrest
      · obtain ⟨rfl, rfl⟩ := run_pure.mp hrest
        exact ⟨hgrants, .inl rfl⟩
      · rename_i row hrow
        obtain ⟨-, rfl⟩ := run_lift.mp hrest
        have hid : decide (row.eventId = e) = true := by simpa using List.find?_some hrow
        have hstored : db₂.hasEvent e = true :=
          any_eq_true.mpr ⟨row, mem_of_find?_eq_some hrow, hid⟩
        refine ⟨hgrants, .inr ?_⟩
        simpa [hstored] using hauth

theorem utc_eq_of_astimezone {text : String} {d : Datetime} (h : utc now = .ok text)
    (hd : liftPy now.astimezoneUtc = .ok d) : text = d.isoformatMicroseconds := by
  rw [liftPy_ok] at hd
  unfold utc at h
  split at h
  · cases h
  · rw [hd] at h
    cases h
    rfl

theorem holdWindowChecks_observed {texts : HoldTexts}
    (h : holdWindowChecks hold policy now = .ok texts) :
    utc now = .ok texts.observed := by
  unfold holdWindowChecks at h
  cases hutc : utc now with
  | error err =>
    rw [hutc] at h
    cases h
  | ok text =>
    simp only [bind, Except.bind] at h
    repeat' (split at h; · cases h)
    cases h
    exact congrArg Except.ok (utc_eq_of_astimezone hutc ‹_›)

theorem run_issueBodyHold {r : Except Err Unit}
    (h : (issueBodyHold e hold policy now).run db = .ok (r, db')) :
    ∃ texts db₁ db₂, utc now = .ok texts.observed ∧
      MandatoryObserved e texts.observed db db₁ ∧ OptionalObserved e texts.observed db₁ db₂ ∧
      ((r = .ok () ∧ (holdMutation e hold.consumer policy texts).run db₂ = .ok ((), db')) ∨
        ((∃ err, r = .error err) ∧ db₂ = db')) := by
  simp only [issueBodyHold, run_bind, run_require, run_lift, run_query, run_attempt] at h
  obtain ⟨_, _, ⟨-, rfl⟩, texts, _, ⟨htexts, rfl⟩, _, _, ⟨-, rfl⟩, _, _, ⟨-, rfl⟩, _, db₁,
    hobserve, _, db₂, hoptional, result, db₃, hmutation, hrest⟩ := h
  refine ⟨texts, db₁, db₂, holdWindowChecks_observed htexts, mandatoryObserved_of_run hobserve,
    optionalObserved_of_run hoptional, ?_⟩
  rcases hmutation with ⟨u, rfl, hrun⟩ | ⟨err, rfl, -, rfl⟩
  · obtain ⟨rfl, rfl⟩ := run_pure.mp hrest
    exact .inl ⟨rfl, hrun⟩
  · rcases run_ite.mp hrest with ⟨-, hpure⟩ | ⟨-, hraise⟩
    · obtain ⟨rfl, rfl⟩ := run_pure.mp hpure
      exact .inr ⟨⟨err, rfl⟩, rfl⟩
    · exact (run_raise.mp hraise).elim

theorem run_revokeBodyHold (h : (revokeBodyHold e c now).run db = .ok (b, db')) :
    ∃ observed db₁, utc now = .ok observed ∧ OptionalObserved e observed db db₁ ∧
      ∀ g' ∈ db'.grants.rows, ∃ g ∈ db₁.grants.rows, g'.key = g.key ∧
        (g.closed = true → g' = g) ∧ (g.eventId = e → g.consumer = c → g'.closed = true) := by
  simp only [revokeBodyHold, run_bind, run_require, run_lift, run_pure] at h
  obtain ⟨_, _, ⟨-, rfl⟩, observed, _, ⟨hnow, rfl⟩, _, db₁, hoptional, n, db₂, hupd, -,
    rfl⟩ := h
  refine ⟨observed, db₁, hnow, optionalObserved_of_run hoptional, ?_⟩
  obtain ⟨t, ht, -, rfl⟩ := run_updateTable.mp hupd
  intro g' hg'
  obtain ⟨g, hg, rfl⟩ := (Table.mem_update ht).mp hg'
  refine ⟨g, hg, ?_, ?_, ?_⟩
  · split <;> rfl
  · intro hclosed
    refine if_neg ?_
    intro hopen
    simp only [Bool.and_eq_true, Option.isNone_iff_eq_none] at hopen
    simp [AccessGrant.closed, hopen.1.2, hopen.2] at hclosed
  · intro hevent hconsumer
    split
    · simp [AccessGrant.closed]
    · rename_i hopen
      simp only [hevent, hconsumer, decide_true, Bool.true_and, Bool.and_eq_true,
        Option.isNone_iff_eq_none, not_and] at hopen
      cases hr : g.revokedAt with
      | some at' => simp [AccessGrant.closed, hr]
      | none =>
        have hexpired := hopen hr
        simp [AccessGrant.closed, Option.isSome_iff_ne_none, hexpired]

/-! ## Adoption by a creation -/

/-- The text a creation at `now` compares source deadlines with. -/
def AdoptionClock (now : Datetime) (observed : String) : Prop :=
  ∃ parsed instant, Datetime.fromisoformat (nowIso now) = .ok parsed ∧
    parsed.astimezoneUtc = .ok instant ∧ observed = instant.isoformatMicroseconds

/-- A creation for the event releases the sources it finds lapsed, and adopts from
one that is left. -/
structure Adopts (e observed : String) (db db' : Db) : Prop where
  released : ∀ d ∈ db.dependencies.rows, d.eventId = e → d.ownerKind.isSource = true →
    d.deadline.any (· ≤ observed) = true →
      ∃ d' ∈ db'.dependencies.rows, d'.key = d.key ∧ d'.releasedAt.isSome = true
  closed : SourceReleased db e → ∀ d' ∈ db'.dependencies.rows,
    ∃ d ∈ db.dependencies.rows, d.Stems d'

theorem adoptableSource_live {src : Dependency} (h : db.adoptableSource e = some src) :
    src ∈ db.dependencies.rows ∧ src.sourceLive e = true := by
  unfold Db.adoptableSource at h
  split at h
  · rename_i d hfind
    cases h
    have hlive := List.find?_some hfind
    rw [Bool.and_eq_true] at hlive
    exact ⟨mem_of_find?_eq_some hfind, hlive.1⟩
  · exact ⟨mem_of_find?_eq_some h, List.find?_some h⟩

theorem run_insertOutboxDependency {plan : Option String}
    (h : (insertOutboxDependency o e (nowIso now) plan).run db = .ok (u, db')) :
    ∃ observed, AdoptionClock now observed ∧ Adopts e observed db db' := by
  simp only [insertOutboxDependency, run_bind, run_lift, run_query, liftPy_ok] at h
  obtain ⟨parsed, _, ⟨hparsed, rfl⟩, instant, _, ⟨hinstant, rfl⟩, plan', _, ⟨-, rfl⟩, n, db₁,
    hupd, adopted, _, ⟨hadopted, rfl⟩, hinsert⟩ := h
  obtain ⟨t, ht, -, rfl⟩ := run_updateTable.mp hupd
  have hmem : ∀ d', d' ∈ t.rows ↔ ∃ d ∈ db.dependencies.rows, d' =
      if d.eventId = e && d.ownerKind.isSource && d.lapsedAt instant.isoformatMicroseconds then
        release instant.isoformatMicroseconds d
      else d := fun d' => Table.mem_update ht
  refine ⟨_, ⟨parsed, instant, hparsed, hinstant, rfl⟩, ?_, ?_⟩
  · intro d hd hevent hkind hlapsed
    have hkept : ∀ d ∈ t.rows, d ∈ db'.dependencies.rows := by
      intro d hd
      cases adopted with
      | none =>
        obtain ⟨-, rfl⟩ := run_pure.mp hinsert
        exact hd
      | some new =>
        simp only [insertDependency?, insertDependency, run_bind, run_query, run_require] at hinsert
        obtain ⟨_, _, hnew, _, _, ⟨-, rfl⟩, -, rfl⟩ := hinsert
        obtain ⟨t', ht', rfl⟩ := run_insertInto.mp hnew
        exact (Table.mem_insert ht').mpr (.inl hd)
    refine ⟨_, hkept _ ((hmem _).mpr ⟨d, hd, rfl⟩), ?_, ?_⟩
    · split <;> rfl
    · split
      · rfl
      · rename_i hnot
        rw [← Option.not_isNone, Bool.not_eq_true', ← Bool.not_eq_true]
        intro hopen
        exact hnot (by simp [hevent, hkind, Dependency.lapsedAt, hopen, hlapsed])
  · intro hreleased d' hd'
    have hnone : ({ db with dependencies := t } : Db).adoptableSource e = none := by
      cases hsrc : ({ db with dependencies := t } : Db).adoptableSource e with
      | none => rfl
      | some src =>
        obtain ⟨hin, hlive⟩ := adoptableSource_live hsrc
        obtain ⟨d, hd, rfl⟩ := (hmem src).mp hin
        simp only [Dependency.sourceLive, Bool.and_eq_true, decide_eq_true_eq,
          Option.isNone_iff_eq_none] at hlive
        split at hlive
        · cases hlive.2
        · have hsome := hreleased d hd hlive.1.1 hlive.1.2
          rw [hlive.2] at hsome
          cases hsome
    have hadopted' : adopted = none := by
      rw [← hadopted]
      unfold Db.adoptedDependency
      rw [hnone]
    rw [hadopted'] at hinsert
    obtain ⟨-, rfl⟩ := run_pure.mp hinsert
    obtain ⟨d, hd, rfl⟩ := (hmem d').mp hd'
    refine ⟨d, hd, ?_⟩
    split
    · rename_i hlapsed
      simp only [Dependency.lapsedAt, Bool.and_eq_true, Option.isNone_iff_eq_none] at hlapsed
      exact .inr ⟨hlapsed.2.1, _, rfl⟩
    · exact .refl d

theorem create_dependencies {item : DeliveryOutboxItem} {allocate : Bool}
    {snapshot : Option OutboxDispatchSnapshotWrite} {a : Created}
    (h : (createOutboxItem item allocate snapshot now).run db = .ok (a, db')) :
    (db'.dependencies = db.dependencies ∧
        ∀ row, a = .inserted row → item.storedSource allocate = .replay) ∨
      ∃ observed, AdoptionClock now observed ∧ Adopts item.eventId observed db db' := by
  rcases create_cases h with ⟨row, rfl, rfl, -⟩ | ⟨source, n, plan, hchecks, hrun, -⟩
  · refine .inl ⟨rfl, ?_⟩
    intro _ hrow
    cases hrow
  · simp only [insertGeneration, insertOutbox, run_bind, run_requireEvent, run_pure] at hrun
    obtain ⟨_, db₁, ⟨_, _, hinsert, -, rfl⟩, _, db₂, hadopt, _, db₃, hpost, -, rfl⟩ := hrun
    obtain ⟨t, -, rfl⟩ := run_insertInto.mp hinsert
    have hoff := follows_postInsertOps
      (footprint_rules [.diagnostics, .snapshots] fun _ => False) (by decide) (by decide) _ _ _
      hpost
    have hdeps : db₃.dependencies = db₂.dependencies := hoff .dependencies (by decide)
    rcases run_onlyIf.mp hadopt with ⟨-, hadopt⟩ | ⟨hreplay, rfl⟩
    · right
      obtain ⟨observed, hclock, hadopts⟩ := run_insertOutboxDependency hadopt
      refine ⟨observed, hclock, ?_, ?_⟩
      · rw [hdeps]
        exact hadopts.released
      · rw [hdeps]
        exact hadopts.closed
    · left
      refine ⟨hdeps, fun _ _ => ?_⟩
      rw [← (createChecks_source hchecks).1]
      simpa using hreplay

end Calls

end Medre.Storage
