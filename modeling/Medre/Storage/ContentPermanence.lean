import Medre.Storage.ReplayAuthority

/-! # Observed expiry and revocation are permanent, whatever the clocks say

A call that has observed a lapsed dependency or an expired grant has written a tombstone, and no
call takes one back. -/

namespace Medre.Storage

open List Medre.Framework Tx

variable {k : String × OwnerKind × String} {d : Dependency} {g : AccessGrant}
  {policy : AvailabilityPolicy} {texts : HoldTexts} {db' : Db} {op : Op} {ans : Answer}

/-! ## Observing calls -/

/-- The event whose mandatory dependencies a content call observes, and its clock. -/
def Op.observesMandatory : Op → Option (String × Datetime)
  | .issueBodyHold e _ _ now | .readAuthorizedBody e _ now | .readOutboxBody e _ now
  | .readOwnedEvent e _ now | .authorizeNativeSubmission e _ _ _ now => some (e, now)
  | _ => none

/-- The event whose grants a content call observes, and its clock. -/
def Op.observesOptional : Op → Option (String × Datetime)
  | .issueBodyHold e _ _ now | .revokeBodyHold e _ now | .readAuthorizedBody e _ now
  | .readOwnedEvent e .reply now => some (e, now)
  | _ => none

/-- The call, answered by `ans`, has observed `d` at or past its deadline. -/
inductive ObservesLapse (d : Dependency) (op : Op) (ans : Answer) : Prop
  | call {now : Datetime} {observed : String} (hop : op.observesMandatory = some (d.eventId, now))
      (hnow : utc now = .ok observed) (hlapsed : d.deadline.any (· ≤ observed) = true)
  | creation {item : DeliveryOutboxItem} {allocate : Bool}
      {snapshot : Option OutboxDispatchSnapshotWrite} {now : Datetime} {row : OutboxRow}
      (hop : op = .createOutboxItem item allocate snapshot now)
      (hans : ans = .created (.inserted row)) (hevent : item.eventId = d.eventId)
      (hkind : d.ownerKind.isSource = true) (hstored : item.storedSource allocate ≠ .replay)
      (hlapsed : ∀ observed, AdoptionClock now observed → d.deadline.any (· ≤ observed) = true)

/-- The call observes the grant at or past its expiry, or revokes it. -/
inductive ClosesGrant (g : AccessGrant) (op : Op) : Prop
  | expired {now : Datetime} {observed : String}
      (hop : op.observesOptional = some (g.eventId, now)) (hnow : utc now = .ok observed)
      (hexpired : g.expiresAt ≤ observed)
  | revoked {now : Datetime} (hop : op = .revokeBodyHold g.eventId g.consumer now)

/-! ## Tombstones -/

def KeyReleased (db : Db) (k : String × OwnerKind × String) : Prop :=
  ∃ d ∈ db.dependencies.rows, d.key = k ∧ d.releasedAt.isSome = true

def GrantClosed (db : Db) (k : String × String) : Prop :=
  ∃ g ∈ db.grants.rows, g.key = k ∧ g.closed = true

variable {db : Db}

theorem KeyReleased.eq_of_key (h : KeyReleased db k) (hd : d ∈ db.dependencies.rows)
    (hk : d.key = k) :
    d.releasedAt.isSome = true := by
  obtain ⟨d', hd', hk', hreleased⟩ := h
  rw [Storage.eq_of_key db.dependencies hd hd' (hk.trans hk'.symm)]
  exact hreleased

theorem GrantClosed.eq_of_key {k : String × String} (h : GrantClosed db k)
    (hg : g ∈ db.grants.rows) (hk : g.key = k) : g.closed = true := by
  obtain ⟨g', hg', hk', hclosed⟩ := h
  rw [Storage.eq_of_key db.grants hg hg' (hk.trans hk'.symm)]
  exact hclosed

theorem keyReleased_later (x : Externals) (h : KeyReleased db k) (ops : List Op) :
    KeyReleased (run (step x) db ops) k := by
  refine run_invariant (I := fun db => KeyReleased db k) ?_ h ops
  rintro db op ⟨d, hd, hk, hreleased⟩
  obtain ⟨d', hd', hstems⟩ := (step_content x db op).kept d hd
  exact ⟨d', hd', hstems.key_eq.trans hk, hstems.eq_of_released hreleased ▸ hreleased⟩

theorem grantClosed_later (x : Externals) {k : String × String}
    (h : GrantClosed db k) (ops : List Op) : GrantClosed (run (step x) db ops) k := by
  refine run_invariant (I := fun db => GrantClosed db k) ?_ h ops
  rintro db op ⟨g, hg, hk, hclosed⟩
  obtain ⟨g', hg', hstems⟩ := (step_content x db op).grants g hg
  exact ⟨g', hg', hstems.key_eq.trans hk, hstems.eq_of_closed hclosed ▸ hclosed⟩

section Observed

variable {e observed : String} {db db₁ : Db}

theorem MandatoryObserved.keyReleased (h : MandatoryObserved e observed db db₁)
    (hk : KeyReleased db k) : KeyReleased db₁ k := by
  obtain ⟨t, rfl, ht⟩ := h
  obtain ⟨d, hd, hkey, hreleased⟩ := hk
  exact ⟨d, (ht d).mpr ⟨d, hd, (Dependency.observedAt_of_released hreleased).symm⟩, hkey, hreleased⟩

theorem MandatoryObserved.lapsed (h : MandatoryObserved d.eventId observed db db₁)
    (hd : d ∈ db.dependencies.rows) (hlapsed : d.deadline.any (· ≤ observed) = true) :
    KeyReleased db₁ d.key := by
  obtain ⟨t, rfl, ht⟩ := h
  exact ⟨_, (ht _).mpr ⟨d, hd, rfl⟩, d.observedAt_key _ _, Dependency.observedAt_lapsed hlapsed⟩

theorem OptionalObserved.grantClosed (h : OptionalObserved e observed db db₁)
    {k : String × String} (hk : GrantClosed db k) : GrantClosed db₁ k := by
  obtain ⟨t, rfl, ht⟩ := h
  obtain ⟨g, hg, hkey, hclosed⟩ := hk
  exact ⟨g, (ht g).mpr ⟨g, hg, (AccessGrant.observedAt_of_closed hclosed).symm⟩, hkey, hclosed⟩

theorem OptionalObserved.expired {g : AccessGrant} (h : OptionalObserved g.eventId observed db db₁)
    (hg : g ∈ db.grants.rows) (hexpired : g.expiresAt ≤ observed) : GrantClosed db₁ g.key := by
  obtain ⟨t, rfl, ht⟩ := h
  exact ⟨_, (ht _).mpr ⟨g, hg, rfl⟩, g.observedAt_key _ _, AccessGrant.observedAt_expired hexpired⟩

theorem MandatoryObserved.grants_eq (h : MandatoryObserved e observed db db₁) :
    db₁.grants = db.grants := by
  obtain ⟨t, rfl, -⟩ := h
  rfl

theorem OptionalObserved.dependencies_eq (h : OptionalObserved e observed db db₁) :
    db₁.dependencies = db.dependencies := by
  obtain ⟨t, rfl, -⟩ := h
  rfl

end Observed

theorem holdMutation_content {e c : String} {u : Unit}
    (h : (holdMutation e c policy texts).run db = .ok (u, db')) :
    db'.dependencies = db.dependencies ∧
      ∀ k, GrantClosed db k → GrantClosed db' k := by
  have hoff := follows_holdMutation (footprint_rules [.policies, .grants] fun _ => False)
    (by decide) (by decide) _ _ _ h
  have hcontent := follows_holdMutation (content_rules [.policies, .grants] fun _ => False)
    (by decide) (by decide) _ _ _ h
  refine ⟨hoff .dependencies (by decide), ?_⟩
  rintro k ⟨g, hg, hk, hclosed⟩
  obtain ⟨g', hg', hstems⟩ := hcontent.grants g hg
  exact ⟨g', hg', hstems.key_eq.trans hk, hstems.eq_of_closed hclosed ▸ hclosed⟩

theorem keyReleased_of_observed {x : Externals} (hans : (step x db op).2 = .ok ans)
    (hd : d ∈ db.dependencies.rows) (h : ObservesLapse d op ans) :
    KeyReleased (step x db op).1 d.key := by
  cases h with
  | @call now observed hop hnow hlapsed =>
    -- one case for each observing call; they share the clock text
    have hsame : ∀ {observed' : String}, utc now = .ok observed' →
        d.deadline.any (· ≤ observed') = true := by
      intro observed' hnow'
      rw [hnow] at hnow'
      cases hnow'
      exact hlapsed
    cases op with
    | issueBodyHold e hold policy now' =>
      cases hop
      obtain ⟨r, -, hrun⟩ := run_of_answer rfl hans
      obtain ⟨texts, db₁, db₂, hclock, hm, ho, hrest⟩ := run_issueBodyHold hrun
      have hkey := hm.lapsed hd (hsame hclock)
      have hdeps : (step x db (.issueBodyHold d.eventId hold policy now)).1.dependencies =
          db₁.dependencies := by
        rcases hrest with ⟨-, hmutation⟩ | ⟨-, hdb⟩
        · exact (holdMutation_content hmutation).1.trans ho.dependencies_eq
        · rw [← hdb]
          exact ho.dependencies_eq
      unfold KeyReleased
      rw [hdeps]
      exact hkey
    | readAuthorizedBody e c now' =>
      cases hop
      obtain ⟨r, -, hrun⟩ := run_of_answer rfl hans
      obtain ⟨observed', db₁, hclock, hm, ho, -⟩ := run_readAuthorizedBody hrun
      unfold KeyReleased
      rw [ho.dependencies_eq]
      exact hm.lapsed hd (hsame hclock)
    | readOutboxBody e o now' =>
      cases hop
      obtain ⟨r, -, hrun⟩ := run_of_answer rfl hans
      obtain ⟨observed', hclock, hm, -⟩ := run_readOutboxBody hrun
      exact hm.lapsed hd (hsame hclock)
    | readOwnedEvent e owner now' =>
      cases hop
      obtain ⟨r, -, hrun⟩ := run_of_answer rfl hans
      obtain ⟨observed', db₁, hclock, hm, hgrants, -⟩ := run_readOwnedEvent hrun
      have hkey := hm.lapsed hd (hsame hclock)
      rcases hgrants with ⟨-, ho⟩ | ⟨-, hdb⟩
      · unfold KeyReleased
        rw [ho.dependencies_eq]
        exact hkey
      · rw [← hdb]
        exact hkey
    | authorizeNativeSubmission e o w a now' =>
      cases hop
      obtain ⟨b, -, hrun⟩ := run_of_answer rfl hans
      obtain ⟨observed', hclock, hm, -⟩ := run_authorizeNativeSubmission hrun
      exact hm.lapsed hd (hsame hclock)
    | _ => cases hop
  | @creation item allocate snapshot now row hop hrow hevent hkind hstored hlapsed =>
    subst hop
    subst hrow
    obtain ⟨c, hc, hrun⟩ := run_of_answer rfl hans
    cases hc
    rcases create_dependencies hrun with ⟨-, hreplay⟩ | ⟨observed, hclock, hadopts⟩
    · exact absurd (hreplay row rfl) hstored
    · exact hadopts.released d hd hevent.symm hkind (hlapsed observed hclock)

theorem grantClosed_of_observed {x : Externals} (hans : (step x db op).2 = .ok ans)
    (hg : g ∈ db.grants.rows) (h : ClosesGrant g op) : GrantClosed (step x db op).1 g.key := by
  -- the grant is in the later store; what is left to show is its tombstone
  have hkept : ∀ {op : Op}, (∀ g' ∈ (step x db op).1.grants.rows, g'.key = g.key →
      g'.closed = true) → GrantClosed (step x db op).1 g.key := by
    intro op hclosed
    obtain ⟨g', hg', hstems⟩ := (step_content x db op).grants g hg
    exact ⟨g', hg', hstems.key_eq, hclosed g' hg' hstems.key_eq⟩
  cases h with
  | @expired now observed hop hnow hexpired =>
    have hsame : ∀ {observed' : String}, utc now = .ok observed' → g.expiresAt ≤ observed' := by
      intro observed' hnow'
      rw [hnow] at hnow'
      cases hnow'
      exact hexpired
    cases op with
    | issueBodyHold e hold policy now' =>
      cases hop
      obtain ⟨r, -, hrun⟩ := run_of_answer rfl hans
      obtain ⟨texts, db₁, db₂, hclock, hm, ho, hrest⟩ := run_issueBodyHold hrun
      have hclosed := ho.expired (hm.grants_eq ▸ hg) (hsame hclock)
      rcases hrest with ⟨-, hmutation⟩ | ⟨-, hdb⟩
      · exact (holdMutation_content hmutation).2 _ hclosed
      · exact hdb ▸ hclosed
    | revokeBodyHold e c now' =>
      cases hop
      obtain ⟨b, -, hrun⟩ := run_of_answer rfl hans
      obtain ⟨observed', db₁, hclock, ho, hrows⟩ := run_revokeBodyHold hrun
      refine hkept fun g' hg' hkey => ?_
      obtain ⟨g₁, hg₁, hkey₁, hclosed, -⟩ := hrows g' hg'
      have htomb := (ho.expired hg (hsame hclock)).eq_of_key hg₁ (hkey₁.symm.trans hkey)
      rw [hclosed htomb]
      exact htomb
    | readAuthorizedBody e c now' =>
      cases hop
      obtain ⟨r, -, hrun⟩ := run_of_answer rfl hans
      obtain ⟨observed', db₁, hclock, hm, ho, -⟩ := run_readAuthorizedBody hrun
      exact ho.expired (hm.grants_eq ▸ hg) (hsame hclock)
    | readOwnedEvent e owner now' =>
      cases owner with
      | reply =>
        cases hop
        obtain ⟨r, -, hrun⟩ := run_of_answer rfl hans
        obtain ⟨observed', db₁, hclock, hm, hgrants, -⟩ := run_readOwnedEvent hrun
        rcases hgrants with ⟨-, ho⟩ | ⟨hne, -⟩
        · exact ho.expired (hm.grants_eq ▸ hg) (hsame hclock)
        · exact absurd rfl hne
      | _ => cases hop
    | _ => cases hop
  | @revoked now hop =>
    subst hop
    obtain ⟨b, -, hrun⟩ := run_of_answer rfl hans
    obtain ⟨observed', db₁, -, -, hrows⟩ := run_revokeBodyHold hrun
    refine hkept fun g' hg' hkey => ?_
    obtain ⟨g₁, hg₁, hkey₁, -, hrevoked⟩ := hrows g' hg'
    have hsame := hkey₁.symm.trans hkey
    simp only [AccessGrant.key, Prod.mk.injEq] at hsame
    exact hrevoked hsame.1 hsame.2

/-! ## Owners of dependencies -/

/-- A row that owns a dependency does not dispatch as a replay. -/
def OwnersPlain (db : Db) : Prop :=
  ∀ d ∈ db.dependencies.rows, d.ownerKind = .outbox →
    ∀ r ∈ db.outbox.rows, r.outboxId = d.ownerId → r.dispatchSource ≠ .replay

theorem Creates.source_eq {row : OutboxRow} {snapshot : Option Snapshot}
    (h : Creates db op row snapshot) (hown : op.mayOwn k) :
    row.dispatchSource ≠ .replay := by
  cases h with
  | plain hchecks hnone hevent =>
    have hstored := (createChecks_source hchecks).1
    exact fun hreplay => hown.2 (hstored.symm.trans hreplay)
  | generation hchecks hactive hevent =>
    have hstored := (createChecks_source hchecks).1
    exact fun hreplay => hown.2 (hstored.symm.trans hreplay)

theorem ownersPlain_step (x : Externals) (db : Db) (op : Op) (hs : SettledStore db)
    (h : OwnersPlain db) : OwnersPlain (step x db op).1 := by
  intro d' hd' hkind r' hr' hid
  cases step_outbox x db op with
  | rewritten f hf owned =>
    obtain ⟨d, hd, hstems⟩ := owned d' hd' hkind
    have hkey := Dependency.key_inj.mp hstems.key_eq
    rw [hf.rows, mem_map] at hr'
    obtain ⟨r, hr, rfl⟩ := hr'
    have hplain := h d hd (hkey.2.1 ▸ hkind) r hr ((hf.keys hr).1.symm.trans (hid.trans hkey.2.2))
    rcases hf.change r hr with heq | hc
    · rw [heq]
      exact hplain
    · rcases hc.source_cases with hsource | ⟨hsource, -⟩
      · rw [hsource]
        exact hplain
      · exact hsource
  | created row snapshot hc rows snapshots =>
    rw [rows, mem_append, mem_singleton] at hr'
    rcases (step_content x db op).origin d' hd' with ⟨d, hd, hstems⟩ | hown
    · have hkey := Dependency.key_inj.mp hstems.key_eq
      have hkind' := hkey.2.1 ▸ hkind
      have hid' := hid.trans hkey.2.2
      rcases hr' with hr' | rfl
      · exact h d hd hkind' r' hr' hid'
      · -- the dependency is older than the row
        obtain ⟨r, hr, hrid, -⟩ := hs.dependencies d hd hkind'
        exact absurd (hid'.trans hrid.symm) (created_id_ne rows hr)
    · rcases hr' with hr' | rfl
      · exact absurd (hid.trans (hc.owner hown).1).symm (created_id_ne rows hr')
      · exact hc.source_eq hown

theorem ownersPlain_stateAfter (x : Externals) (ops : List Op) :
    OwnersPlain (stateAfter x ops) := by
  have hboth : SettledStore (stateAfter x ops) ∧ OwnersPlain (stateAfter x ops) := by
    refine run_invariant (I := fun db => SettledStore db ∧ OwnersPlain db) ?_ ?_ ops
    · rintro db op ⟨hs, h⟩
      exact ⟨settledStore_step x db op hs, ownersPlain_step x db op hs h⟩
    · exact ⟨settledStore_stateAfter x [], fun _ h => absurd h not_mem_nil⟩
  exact hboth.2

/-! ## Refusals -/

/-- What is closed without an open source. A reply read is left with the quote grant, an outbox row
with its own dependency. -/
structure SourceShut (x : Externals) (db : Db) (e : String) : Prop where
  hold : ∀ hold policy now, (step x db (.issueBodyHold e hold policy now)).2 ≠ .ok (.held (.ok ()))
  ingress : ∀ now r, (step x db (.readOwnedEvent e .ingress now)).2 = .ok (.event r) → r = .denied
  replay : ∀ now r, (step x db (.readOwnedEvent e .replay now)).2 = .ok (.event r) → r = .denied
  reply : ∀ now r, (step x db (.readOwnedEvent e .reply now)).2 = .ok (.event r) → r = .denied ∨
    ∃ g ∈ db.grants.rows, g.key = (e, "reply_quotes") ∧ g.closed = false
  body : ∀ o now r, (step x db (.readOutboxBody e o now)).2 = .ok (.body r) → r = .ok .denied ∨
    ∃ d ∈ db.dependencies.rows, d.key = (e, .outbox, o) ∧ d.releasedAt = none
  event : ∀ o now r, (step x db (.readOwnedEvent e (.outbox o) now)).2 = .ok (.event r) →
    r = .denied ∨ ∃ d ∈ db.dependencies.rows, d.key = (e, .outbox, o) ∧ d.releasedAt = none
  start : ∀ o w a now,
    (step x db (.authorizeNativeSubmission e o w a now)).2 = .ok (.flag true) →
      ∃ d ∈ db.dependencies.rows, d.key = (e, .outbox, o) ∧ d.releasedAt = none
  adoption : ∀ item allocate snapshot now, item.eventId = e →
    ∀ d' ∈ (step x db (.createOutboxItem item allocate snapshot now)).1.dependencies.rows,
      ∃ d ∈ db.dependencies.rows, d.Stems d'

/-- What is closed for an outbox row whose dependency is released. -/
structure OutboxShut (x : Externals) (db : Db) (e o : String) : Prop where
  body : ∀ now r, (step x db (.readOutboxBody e o now)).2 = .ok (.body r) → r = .ok .denied
  event : ∀ now r,
    (step x db (.readOwnedEvent e (.outbox o) now)).2 = .ok (.event r) → r = .denied
  start : ∀ w a now,
    (step x db (.authorizeNativeSubmission e o w a now)).2 ≠ .ok (.flag true)

/-- What is closed for a consumer whose grant is. A reply read is left with the
source of the event. -/
structure GrantShut (x : Externals) (db : Db) (e c : String) : Prop where
  body : ∀ now r, (step x db (.readAuthorizedBody e c now)).2 = .ok (.body r) → r = .ok .denied
  reply : c = "reply_quotes" → ∀ now r,
    (step x db (.readOwnedEvent e .reply now)).2 = .ok (.event r) → r = .denied ∨
      ∃ d ∈ db.dependencies.rows, d.eventId = e ∧ d.ownerKind.isSource = true ∧
        d.releasedAt = none
  hold : ∀ (hold : ContentHold) policy now, hold.consumer = c →
    (step x db (.issueBodyHold e hold policy now)).2 ≠ .ok (.held (.ok ()))

section Refusals

variable {x : Externals} {db db₁ : Db} {e o c observed : String}

theorem MandatoryObserved.ownerLive (h : MandatoryObserved e observed db db₁) {kind : OwnerKind}
    (hlive : db₁.dependencies.rows.any (Dependency.ownerLive e kind o observed) = true) :
    ∃ d ∈ db.dependencies.rows, d.key = (e, kind, o) ∧ d.releasedAt = none := by
  obtain ⟨t, rfl, ht⟩ := h
  obtain ⟨d', hd', hlive⟩ := any_eq_true.mp hlive
  obtain ⟨d, hd, rfl⟩ := (ht d').mp hd'
  simp only [Dependency.ownerLive, Bool.and_eq_true, decide_eq_true_eq,
    Option.isNone_iff_eq_none] at hlive
  obtain ⟨⟨⟨⟨⟨hevent, hkind⟩, howner⟩, hopen⟩, -⟩, -⟩ := hlive
  refine ⟨d, hd, ?_, ?_⟩
  · rw [← d.observedAt_key e observed, Dependency.key, hevent, hkind, howner]
  · cases hr : d.releasedAt with
    | none => rfl
    | some at' =>
      rw [Dependency.observedAt_of_released (by rw [hr]; rfl), hr] at hopen
      cases hopen

/-- Without an open source an outbox row has its own dependency or nothing. -/
theorem MandatoryObserved.contentAuthority (h : MandatoryObserved e observed db db₁)
    (hreleased : SourceReleased db e) (hauth : db₁.outboxContentAuthority e o observed = true) :
    ∃ d ∈ db.dependencies.rows, d.key = (e, .outbox, o) ∧ d.releasedAt = none := by
  rw [Db.outboxContentAuthority, Bool.or_eq_true, Bool.and_eq_true] at hauth
  rcases hauth with hlive | ⟨-, hlive⟩
  · exact h.ownerLive hlive
  · obtain ⟨d, hd, hevent, hkind, hnone, -⟩ := h.sourceDependencyLive.mp hlive
    have hsome := hreleased d hd hevent hkind
    rw [hnone] at hsome
    cases hsome

theorem KeyReleased.contentAuthority (hplain : OwnersPlain db)
    (hk : KeyReleased db (e, .outbox, o)) : db.outboxContentAuthority e o observed = false := by
  rw [Db.outboxContentAuthority, Bool.or_eq_false_iff, Bool.and_eq_false_iff]
  refine ⟨?_, .inl ?_⟩
  · rw [← Bool.not_eq_true]
    intro hlive
    obtain ⟨d, hd, hmatch⟩ := any_eq_true.mp hlive
    simp only [Dependency.ownerLive, Bool.and_eq_true, decide_eq_true_eq,
      Option.isNone_iff_eq_none] at hmatch
    obtain ⟨⟨⟨⟨⟨hevent, hkind⟩, howner⟩, hopen⟩, -⟩, -⟩ := hmatch
    have hsome := hk.eq_of_key hd (by rw [Dependency.key, hevent, hkind, howner])
    rw [hopen] at hsome
    cases hsome
  · rw [← Bool.not_eq_true]
    intro hreplay
    obtain ⟨r, hr, hmatch⟩ := any_eq_true.mp hreplay
    simp only [Bool.and_eq_true, decide_eq_true_eq] at hmatch
    obtain ⟨d, hd, hkey, -⟩ := hk
    rw [Dependency.key_eq] at hkey
    exact hplain d hd hkey.2.1 r hr (hmatch.1.1.trans hkey.2.2.symm) hmatch.2

theorem MandatoryObserved.ownersPlain (h : MandatoryObserved e observed db db₁)
    (hplain : OwnersPlain db) : OwnersPlain db₁ := by
  obtain ⟨t, rfl, ht⟩ := h
  intro d' hd' hkind r hr hid
  obtain ⟨d, hd, rfl⟩ := (ht d').mp hd'
  have hkey := Dependency.key_inj.mp (d.observedAt_key e observed)
  exact hplain d hd (hkey.2.1.symm.trans hkind) r hr (hid.trans hkey.2.2)

theorem MandatoryObserved.contentAuthority_released (h : MandatoryObserved e observed db db₁)
    (hplain : OwnersPlain db) (hk : KeyReleased db (e, .outbox, o)) :
    db₁.outboxContentAuthority e o observed = false :=
  (h.keyReleased hk).contentAuthority (h.ownersPlain hplain)

theorem GrantClosed.not_readable (hk : GrantClosed db (e, c)) :
    db.grants.rows.any (AccessGrant.readable e c observed) = false := by
  rw [← Bool.not_eq_true]
  intro hlive
  obtain ⟨g, hg, hlive⟩ := any_eq_true.mp hlive
  simp only [AccessGrant.readable, Bool.and_eq_true, decide_eq_true_eq,
    Option.isNone_iff_eq_none] at hlive
  obtain ⟨⟨⟨⟨⟨hevent, hconsumer⟩, hrevoked⟩, hexpired⟩, -⟩, -⟩ := hlive
  have hclosed := hk.eq_of_key hg (by rw [AccessGrant.key, hevent, hconsumer])
  simp [AccessGrant.closed, hrevoked, hexpired] at hclosed

theorem holdMutation_source
    (howned : ∃ d ∈ db.dependencies.rows, d.eventId = e ∧ d.ownerKind.isSource = true)
    (h : (holdMutation e c policy texts).run db = .ok ((), db')) :
    db.sourceDependencyLive e = true := by
  simp only [holdMutation, run_bind, run_query, run_require] at h
  obtain ⟨_, _, ⟨rfl, rfl⟩, _, _, ⟨hreq, -⟩, -⟩ := h
  obtain ⟨d, hd, hevent, hkind⟩ := howned
  have hany : (db.dependencies.rows.any fun d => d.eventId = e && d.ownerKind.isSource) = true :=
    any_eq_true.mpr ⟨d, hd, by simp [hevent, hkind]⟩
  simpa [hany] using hreq

theorem holdMutation_closed (hk : GrantClosed db (e, c)) :
    (holdMutation e c policy texts).run db ≠ .ok ((), db') := by
  intro h
  simp only [holdMutation, run_bind, run_query, run_require] at h
  obtain ⟨_, _, ⟨rfl, rfl⟩, _, _, ⟨-, rfl⟩, _, db₂, hpolicy, old, _, ⟨hold, rfl⟩, hgrant⟩ := h
  have hgrants : db₂.grants = db.grants := by
    unfold installPolicy at hpolicy
    split at hpolicy
    · rw [(run_require.mp hpolicy).2]
    · exact (footprint_rules [.policies] fun _ => False).policy mem_cons_self _ _ _ _ hpolicy
        .grants (by decide)
  obtain ⟨g, hg, hkey, -⟩ := id hk
  simp only [AccessGrant.key, Prod.mk.injEq] at hkey
  rw [hgrants] at hold
  cases hfind : db.grants.rows.find? fun g => g.eventId = e && g.consumer = c with
  | none =>
    have hno := List.find?_eq_none.mp hfind g hg
    simp [hkey.1, hkey.2] at hno
  | some g' =>
    have hmatch := List.find?_some hfind
    simp only [Bool.and_eq_true, decide_eq_true_eq] at hmatch
    have hclosed := hk.eq_of_key (mem_of_find?_eq_some hfind)
      (by rw [AccessGrant.key, hmatch.1, hmatch.2])
    rw [← hold, hfind] at hgrant
    have hreq := (run_require.mp hgrant).1
    simp only [Bool.and_eq_true, Option.isNone_iff_eq_none] at hreq
    simp [AccessGrant.closed, hreq.1.2, hreq.2] at hclosed

theorem owned_read {owner : ReadOwner} {now : Datetime} {r : AuthorizedEventRead}
    (hans : (step x db (.readOwnedEvent e owner now)).2 = .ok (.event r))
    (howner : owner ≠ .reply) :
    ∃ observed db₁, MandatoryObserved e observed db db₁ ∧
      (r = .denied ∨ db₁.readAuthority e observed owner = true) := by
  obtain ⟨r', hr, hrun⟩ := run_of_answer rfl hans
  cases hr
  obtain ⟨observed, db₁, -, hm, hgrants, hauth⟩ := run_readOwnedEvent hrun
  rw [← (hgrants.resolve_left fun h => howner h.1).2] at hauth
  exact ⟨observed, db₁, hm, hauth⟩

theorem sourceShut_of_released (hk : ∃ d ∈ db.dependencies.rows, d.eventId = e ∧
    d.ownerKind.isSource = true) (h : SourceReleased db e) : SourceShut x db e := by
  -- no clock finds a source open
  have hshut : ∀ {observed : String}, ¬SourceOpen db e observed := by
    rintro observed ⟨d, hd, hevent, hkind, hnone, -⟩
    have hsome := h d hd hevent hkind
    rw [hnone] at hsome
    cases hsome
  refine ⟨?_, ?_, ?_, ?_, ?_, ?_, ?_, ?_⟩
  · intro hold policy now hans
    obtain ⟨r, hr, hrun⟩ := run_of_answer rfl hans
    cases hr
    obtain ⟨texts, db₁, db₂, -, hm, ho, hrest⟩ := run_issueBodyHold hrun
    rcases hrest with ⟨-, hmutation⟩ | ⟨⟨_, hr⟩, -⟩
    · have howned : ∃ d ∈ db₂.dependencies.rows, d.eventId = e ∧ d.ownerKind.isSource = true := by
        obtain ⟨d, hd, hevent, hkind⟩ := hk
        have hreleased := hm.keyReleased ⟨d, hd, rfl, h d hd hevent hkind⟩
        obtain ⟨d', hd', hkey, -⟩ := hreleased
        rw [Dependency.key_eq] at hkey
        rw [ho.dependencies_eq]
        exact ⟨d', hd', hkey.1.trans hevent, hkey.2.1 ▸ hkind⟩
      have hlive := holdMutation_source howned hmutation
      rw [Db.sourceDependencyLive, ho.dependencies_eq] at hlive
      exact hshut (hm.sourceDependencyLive.mp hlive)
    · cases hr
  · intro now r hans
    obtain ⟨observed, db₁, hm, hauth⟩ := owned_read hans (by simp)
    refine hauth.resolve_right fun hlive => ?_
    obtain ⟨d, hd, hkey, hnone⟩ := hm.ownerLive hlive
    rw [Dependency.key_eq] at hkey
    have hsome := h d hd hkey.1 (by rw [hkey.2.1]; rfl)
    rw [hnone] at hsome
    cases hsome
  · intro now r hans
    obtain ⟨observed, db₁, hm, hauth⟩ := owned_read hans (by simp)
    exact hauth.resolve_right fun hlive => hshut (hm.sourceDependencyLive.mp hlive)
  · intro now r hans
    obtain ⟨r', hr, hrun⟩ := run_of_answer rfl hans
    cases hr
    obtain ⟨observed, db₁, -, hm, hgrants, hauth⟩ := run_readOwnedEvent hrun
    refine hauth.imp_right fun hlive => ?_
    rcases hgrants with ⟨-, ho⟩ | ⟨howner, -⟩
    · rw [Db.readAuthority, Bool.or_eq_true] at hlive
      rcases hlive with hlive | hlive
      · rw [Db.sourceDependencyLive, ho.dependencies_eq] at hlive
        exact absurd (hm.sourceDependencyLive.mp hlive) hshut
      · -- the grant that is left was open before it was observed
        by_contra hnone
        have hquote := (Bool.and_eq_true _ _ ▸ hlive).2
        obtain ⟨g', hg', hread⟩ := any_eq_true.mp hquote
        obtain ⟨t, hdb, ht⟩ := id ho
        rw [hdb] at hg'
        obtain ⟨g, hg, rfl⟩ := (ht g').mp hg'
        rw [hm.grants_eq] at hg
        simp only [AccessGrant.readable, Bool.and_eq_true, decide_eq_true_eq] at hread
        have hkey : g.key = (e, "reply_quotes") := by
          rw [← g.observedAt_key e observed, AccessGrant.key, hread.1.1.1.1.1, hread.1.1.1.1.2]
        cases hclosed : g.closed with
        | false => exact hnone ⟨g, hg, hkey, hclosed⟩
        | true =>
          have hk' := ho.grantClosed ⟨g, hm.grants_eq ▸ hg, hkey, hclosed⟩
          rw [hk'.not_readable] at hquote
          cases hquote
    · exact absurd rfl howner
  · intro o now r hans
    obtain ⟨r', hr, hrun⟩ := run_of_answer rfl hans
    cases hr
    obtain ⟨observed, -, hm, hauth⟩ := run_readOutboxBody hrun
    exact hauth.imp_right (hm.contentAuthority h)
  · intro o now r hans
    obtain ⟨observed, db₁, hm, hauth⟩ := owned_read hans (by simp)
    exact hauth.imp_right (hm.contentAuthority h)
  · intro o w a now hans
    obtain ⟨b, hb, hrun⟩ := run_of_answer rfl hans
    cases hb
    obtain ⟨observed, -, hm, hauth⟩ := run_authorizeNativeSubmission hrun
    exact hm.contentAuthority h (hauth rfl).authority
  · intro item allocate snapshot now hevent d' hd'
    revert d'
    refine step_cases rfl (P := fun db' => ∀ d' ∈ db'.dependencies.rows,
      ∃ d ∈ db.dependencies.rows, d.Stems d') (fun d hd => ⟨d, hd, .refl d⟩) ?_
    intro a db' hrun
    rcases create_dependencies hrun with ⟨hdeps, -⟩ | ⟨observed, -, hadopts⟩
    · rw [hdeps]
      exact fun d hd => ⟨d, hd, .refl d⟩
    · exact hadopts.closed (hevent ▸ h)

theorem outboxShut_of_released (hplain : OwnersPlain db) (hk : KeyReleased db (e, .outbox, o)) :
    OutboxShut x db e o := by
  refine ⟨?_, ?_, ?_⟩
  · intro now r hans
    obtain ⟨r', hr, hrun⟩ := run_of_answer rfl hans
    cases hr
    obtain ⟨observed, -, hm, hauth⟩ := run_readOutboxBody hrun
    refine hauth.resolve_right fun hlive => ?_
    rw [hm.contentAuthority_released hplain hk] at hlive
    cases hlive
  · intro now r hans
    obtain ⟨observed, db₁, hm, hauth⟩ := owned_read hans (by simp)
    refine hauth.resolve_right fun hlive => ?_
    rw [Db.readAuthority, hm.contentAuthority_released hplain hk] at hlive
    cases hlive
  · intro w a now hans
    obtain ⟨b, hb, hrun⟩ := run_of_answer rfl hans
    cases hb
    obtain ⟨observed, -, hm, hauth⟩ := run_authorizeNativeSubmission hrun
    have hlive := (hauth rfl).authority
    rw [hm.contentAuthority_released hplain hk] at hlive
    cases hlive

theorem grantShut_of_closed (hk : GrantClosed db (e, c)) : GrantShut x db e c := by
  -- the mandatory observation does not touch the grants
  have hobserved : ∀ {observed : String} {db₁ db₂ : Db}, MandatoryObserved e observed db db₁ →
      OptionalObserved e observed db₁ db₂ → GrantClosed db₂ (e, c) := by
    intro observed db₁ db₂ hm ho
    refine ho.grantClosed ?_
    unfold GrantClosed
    rw [hm.grants_eq]
    exact hk
  refine ⟨?_, ?_, ?_⟩
  · intro now r hans
    obtain ⟨r', hr, hrun⟩ := run_of_answer rfl hans
    cases hr
    obtain ⟨observed, db₁, -, hm, ho, hauth⟩ := run_readAuthorizedBody hrun
    refine hauth.resolve_right fun hlive => ?_
    rw [Db.consumerAuthorized, (hobserved hm ho).not_readable, Bool.and_false] at hlive
    cases hlive
  · rintro rfl now r hans
    obtain ⟨r', hr, hrun⟩ := run_of_answer rfl hans
    cases hr
    obtain ⟨observed, db₁, -, hm, hgrants, hauth⟩ := run_readOwnedEvent hrun
    refine hauth.imp_right fun hlive => ?_
    rcases hgrants with ⟨-, ho⟩ | ⟨howner, -⟩
    · rw [Db.readAuthority, Db.replyQuoteGrantLive, (hobserved hm ho).not_readable,
        Bool.and_false, Bool.or_false, Db.sourceDependencyLive, ho.dependencies_eq] at hlive
      obtain ⟨d, hd, hevent, hkind, hnone, -⟩ := hm.sourceDependencyLive.mp hlive
      exact ⟨d, hd, hevent, hkind, hnone⟩
    · exact absurd rfl howner
  · rintro hold policy now rfl hans
    obtain ⟨r, hr, hrun⟩ := run_of_answer rfl hans
    cases hr
    obtain ⟨texts, db₁, db₂, -, hm, ho, hrest⟩ := run_issueBodyHold hrun
    rcases hrest with ⟨-, hmutation⟩ | ⟨⟨_, hr⟩, -⟩
    · exact holdMutation_closed (hobserved hm ho) hmutation
    · cases hr

end Refusals

/-! ## Permanence -/

theorem sourceReleased_of_key (hu : SourcesUnique db)
    (hkind : d.ownerKind.isSource = true) (hk : KeyReleased db d.key) :
    SourceReleased db d.eventId := by
  intro d' hd' hevent hkind'
  obtain ⟨d₀, hd₀, hkey, hreleased⟩ := id hk
  have hkeys := hkey
  rw [Dependency.key_eq] at hkeys
  have hsame := hu.unique d' hd' d₀ hd₀ hkind' (hkeys.2.1 ▸ hkind) (hevent.trans hkeys.1.symm)
  exact hk.eq_of_key hd' (hsame.trans hkey)

/-- Observed expiry and revocation are permanent: `before`, then one call that is
answered, then `after`, with any clock readings. A call that raises has been
rolled back. -/
theorem content_authority_permanent (x : Externals) (before after : List Op) (call : Op) :
    let db := stateAfter x before
    let later := run (step x) (step x db call).1 after
    (∀ ans, (step x db call).2 = .ok ans →
      (∀ d ∈ db.dependencies.rows, ObservesLapse d call ans →
        (∀ d' ∈ later.dependencies.rows, d'.key = d.key → d'.releasedAt.isSome = true) ∧
          (d.ownerKind.isSource = true → SourceShut x later d.eventId) ∧
          (d.ownerKind = .outbox → OutboxShut x later d.eventId d.ownerId)) ∧
      ∀ g ∈ db.grants.rows, ClosesGrant g call →
        (∀ g' ∈ later.grants.rows, g'.key = g.key → g'.closed = true) ∧
          GrantShut x later g.eventId g.consumer) ∧
      (∀ err, (step x db call).2 = .error err → (step x db call).1 = db) ∧
      ∀ p ∈ db.policies.rows, p ∈ later.policies.rows ∧
        ∀ p' ∈ later.policies.rows, p'.eventId = p.eventId → p' = p := by
  intro db later
  have hlater : later = stateAfter x (before ++ call :: after) := by
    simp only [later, db, stateAfter, run_append, run_cons]
  refine ⟨?_, fun err => step_of_error, ?_⟩
  · intro ans hans
    refine ⟨?_, ?_⟩
    · intro d hd hobserves
      have hk : KeyReleased later d.key :=
        keyReleased_later x (keyReleased_of_observed hans hd hobserves) after
      refine ⟨fun d' hd' hkey => hk.eq_of_key hd' hkey, ?_, ?_⟩
      · intro hkind
        have hu : SourcesUnique later := hlater ▸ sourcesUnique_stateAfter x
        refine sourceShut_of_released ?_ (sourceReleased_of_key hu hkind hk)
        obtain ⟨d', hd', hkey, -⟩ := hk
        rw [Dependency.key_eq] at hkey
        exact ⟨d', hd', hkey.1, hkey.2.1 ▸ hkind⟩
      · intro hkind
        refine outboxShut_of_released (hlater ▸ ownersPlain_stateAfter x _) ?_
        rw [Dependency.key, hkind] at hk
        exact hk
    · intro g hg hcloses
      have hk : GrantClosed later g.key :=
        grantClosed_later x (grantClosed_of_observed hans hg hcloses) after
      exact ⟨fun g' hg' hkey => hk.eq_of_key hg' hkey, grantShut_of_closed hk⟩
  · intro p hp
    have hkept : p ∈ later.policies.rows := by
      have hrun := run_invariant (I := fun db : Db => p ∈ db.policies.rows)
        (fun db op h => (step_content x db op).policies p h) hp (call :: after)
      exact hrun
    exact ⟨hkept, fun p' hp' hevent => Storage.eq_of_key later.policies hp' hkept hevent⟩

namespace Sample

/-- The sample event, admitted until minute 10, and its delivery. -/
def bounded : List Op :=
  [.admitIngress event none .live false (some (clock 10)) (clock 0),
    .createOutboxItem item false none (clock 1)]

def lateRead : Op := .readOutboxBody "event" "outbox" (clock 20)

end Sample

open Sample in
/-- The delivery could start at minute 5; with the clock back at minute 5 after
the late read it no longer can. -/
theorem content_authority_permanent_late :
    (step externals (stateAfter externals bounded)
        (.authorizeNativeSubmission "event" "outbox" "pipeline:a" 1 (clock 5))).2 =
      .ok (.flag true) ∧
    (step externals (run (step externals)
        (step externals (stateAfter externals bounded) lateRead).1 [])
        (.authorizeNativeSubmission "event" "outbox" "pipeline:a" 1 (clock 5))).2 ≠
      .ok (.flag true) := by
  refine ⟨rfl, ?_⟩
  have hdeadline : ("2026-01-01T00:10:00.000000+00:00" : String) ≤
      "2026-01-01T00:20:00.000000+00:00" := by decide
  have hlapse : ∃ d ∈ (stateAfter externals bounded).dependencies.rows,
      d.key = ("event", .outbox, "outbox") ∧ ObservesLapse d lateRead (.body (.ok .denied)) := by
    refine ⟨_, mem_cons_of_mem _ mem_cons_self, rfl, ?_⟩
    exact .call rfl rfl (decide_eq_true hdeadline)
  obtain ⟨d, hd, hkey, hobserves⟩ := hlapse
  rw [Dependency.key_eq] at hkey
  have hperm := ((content_authority_permanent externals bounded [] lateRead).1 _ rfl).1 d hd
    hobserves
  have hshut := hperm.2.2 hkey.2.1
  rw [hkey.1, hkey.2.2] at hshut
  exact hshut.start _ _ _

end Medre.Storage
