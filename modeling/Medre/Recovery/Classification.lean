import Medre.Framework.DatetimeInstant
import Medre.Storage.ClaimAlone
import Medre.Storage.Settlement

/-! # Startup reclamation (`core/recovery/classification.py`)

The classifier says whether the next worker could claim a row. It compares parsed instants, where
the claim compares texts in SQL and asks for more of them. -/

namespace Medre.Recovery

open List Medre.Framework Medre.Storage

/-! ## The classifier -/

/-- The classification labels. -/
inductive ReclamationLabel where
  | immediatelyClaimable
  | retryEligible
  | stale
  | orphaned
  | terminal
  | inconsistent
deriving DecidableEq, Repr

/-- What the classifier reads of an outbox item, an absent value as the empty text. -/
structure OutboxItemView where
  status : String
  eventId : String
  nextAttemptAt : String
  leaseUntil : String
  updatedAt : String

/-- `_parse_as_utc`: a value without a zone is read as UTC. -/
def parseAsUtc (ts : String) : Except PyError Datetime :=
  (Datetime.fromisoformat ts).map fun dt => { dt with utcoffset := some (dt.utcoffset.getD 0) }

def outboxStatuses : List OutboxStatus :=
  [.pending, .inProgress, .queued, .sent, .retryWait, .deadLettered, .cancelled, .abandoned]

/-- The known status a text names in whatever case; the names are ASCII. -/
def statusOf (text : String) : Option OutboxStatus :=
  outboxStatuses.find? fun s => s.text.toList = text.toList.map asciiLower

/-- A lease: missing, unreadable and lapsed ones alike leave the row to the next worker. -/
def classifyInProgress (leaseUntil : String) (now : Datetime) : ReclamationLabel :=
  if leaseUntil = "" then .stale
  else
    match parseAsUtc leaseUntil with
    | .ok lease => if lease.instant ≤ now.instant then .stale else .retryEligible
    | .error _ => .stale

/-- The grace period, in seconds, of a queue entry. -/
def classifyQueued (updatedAt : String) (now : Datetime) (grace : ℤ) : ReclamationLabel :=
  if updatedAt = "" then .stale
  else
    match parseAsUtc updatedAt with
    | .ok updated =>
      if now.instant - updated.instant ≤ grace * 1000000 then .retryEligible
      else .immediatelyClaimable
    | .error _ => .stale

def classifyRetryWait (nextAttemptAt : String) (now : Datetime) : ReclamationLabel :=
  if nextAttemptAt = "" then .immediatelyClaimable
  else
    match parseAsUtc nextAttemptAt with
    | .ok next => if now.instant < next.instant then .retryEligible else .immediatelyClaimable
    | .error _ => .immediatelyClaimable

def classifyStartupReclamation (item : OutboxItemView) (knownEventIds : Option (List String))
    (now : Datetime) (staleQueuedGrace : ℤ) : ReclamationLabel :=
  match statusOf item.status with
  | none => .inconsistent
  | some status =>
    if status.isTerminal then .terminal
    else if knownEventIds.any fun known => !known.contains item.eventId then .orphaned
    else
      match status with
      | .inProgress => classifyInProgress item.leaseUntil now
      | .queued => classifyQueued item.updatedAt now staleQueuedGrace
      | .retryWait => classifyRetryWait item.nextAttemptAt now
      | _ => .immediatelyClaimable

def itemView (r : OutboxRow) : OutboxItemView where
  status := r.status.text
  eventId := r.eventId
  nextAttemptAt := r.nextAttemptAt.getD ""
  leaseUntil := r.leaseUntil.getD ""
  updatedAt := r.updatedAt

/-- The label of a row whose event is known, with the grace period of the store. -/
def startupLabel (db : Db) (now : Datetime) (r : OutboxRow) : ReclamationLabel :=
  classifyStartupReclamation (itemView r) (some (db.events.rows.map EventRow.eventId)) now
    staleQueuedGraceSeconds

/-! ## Labels and claims -/

/-- A claim at `now` without filters that may take every row. -/
structure ClaimsAll (db : Db) (now : Datetime) (c : ClaimCall) : Prop where
  clock : c.now = now.isoformat
  filters : c.filters = {}
  limit : c.limit < 0 ∨ (db.outbox.rows.length : ℤ) ≤ c.limit

def WouldClaim (x : Externals) (db : Db) (c : ClaimCall) (r : OutboxRow) : Prop :=
  ∃ claimed, (claimAlone x db c).calls = [(c, .returned claimed)] ∧
    ∃ r' ∈ claimed, r'.outboxId = r.outboxId

/-- The label says what a claim would do. -/
structure Agrees (label : ReclamationLabel) (status : OutboxStatus) (claimed : Prop) :
    Prop where
  claimable : label = .immediatelyClaimable ∨ label = .stale ↔ claimed
  waiting : label = .retryEligible ↔ status.isTerminal = false ∧ ¬claimed

/-- The column lies beyond the clock as SQL reads it. -/
def LaterText (now : String) (column : Option String) : Prop :=
  ∃ t, column = some t ∧ now < t

/-- The column lies beyond the clock as the classifier reads it. -/
def LaterInstant (now : Datetime) (column : Option String) : Prop :=
  ∃ d, parseAsUtc (column.getD "") = .ok d ∧ now.instant < d.instant

/-- The queue entry is younger than the grace period, as the classifier reads it. -/
def WithinGrace (now : Datetime) (updatedAt : String) : Prop :=
  ∃ d, parseAsUtc updatedAt = .ok d ∧
    now.instant - d.instant ≤ staleQueuedGraceSeconds * 1000000

/-- Where the two readings of a row come to the same. -/
def ReadAlike (now : Datetime) (cutoff : String) (r : OutboxRow) : Prop :=
  match r.status with
  | .pending =>
    ¬LaterText now.isoformat r.nextAttemptAt ∧ ¬LaterText now.isoformat r.leaseUntil
  | .retryWait => LaterInstant now r.nextAttemptAt ↔ LaterText now.isoformat r.nextAttemptAt
  | .inProgress =>
    LaterInstant now r.leaseUntil ↔
      LaterText now.isoformat r.leaseUntil ∨ LaterText now.isoformat r.nextAttemptAt
  | .queued => WithinGrace now r.updatedAt ↔ cutoff < r.updatedAt
  | _ => True

/-- The times of a row are texts of UTC values. -/
structure UtcTimes (r : OutboxRow) : Prop where
  updatedAt : ∃ d : Datetime, d.Utc ∧ r.updatedAt = d.isoformat
  nextAttemptAt : ∀ t, r.nextAttemptAt = some t → ∃ d : Datetime, d.Utc ∧ t = d.isoformat
  leaseUntil : ∀ t, r.leaseUntil = some t → ∃ d : Datetime, d.Utc ∧ t = d.isoformat

/-! ## The two readings of a column -/

theorem parseAsUtc_isoformat {d : Datetime} (h : d.Utc) : parseAsUtc d.isoformat = .ok d := by
  unfold parseAsUtc
  rw [Datetime.fromisoformat_isoformat h.aware]
  show Except.ok _ = _
  congr
  cases d
  have hzone := h.zone
  simp_all

theorem parseAsUtc_empty : ∃ e, parseAsUtc "" = .error e := ⟨.valueError, rfl⟩

variable {now : Datetime}

theorem not_laterInstant_none : ¬LaterInstant now none := by
  rintro ⟨d, hd, -⟩
  obtain ⟨e, he⟩ := parseAsUtc_empty
  exact nomatch he.symm.trans hd

/-- Of UTC texts the readings are one. -/
theorem laterInstant_iff (hnow : now.Utc) {column : Option String}
    (hutc : ∀ t, column = some t → ∃ d : Datetime, d.Utc ∧ t = d.isoformat) :
    LaterInstant now column ↔ LaterText now.isoformat column := by
  cases column with
  | none =>
    refine iff_of_false not_laterInstant_none ?_
    rintro ⟨t, ht, -⟩
    cases ht
  | some t =>
    obtain ⟨d, hd, rfl⟩ := hutc t rfl
    have hlt : now.instant < d.instant ↔ now.isoformat < d.isoformat := by
      rw [← not_le, ← not_le, Datetime.isoformat_le_iff hd hnow]
    constructor
    · rintro ⟨e, he, hlater⟩
      rw [Option.getD_some, parseAsUtc_isoformat hd] at he
      cases he
      exact ⟨_, rfl, hlt.mp hlater⟩
    · rintro ⟨t, ht, hlater⟩
      cases ht
      exact ⟨d, parseAsUtc_isoformat hd, hlt.mpr hlater⟩

variable {r : OutboxRow}

theorem withinGrace_iff (hnow : now.Utc) {cutoff : Datetime}
    (hcutoff : now.addSeconds (-staleQueuedGraceSeconds) = .ok cutoff) (hutc : UtcTimes r) :
    (WithinGrace now r.updatedAt ↔ cutoff.isoformat < r.updatedAt) ↔
      r.updatedAt ≠ cutoff.isoformat := by
  obtain ⟨d, hd, hupdated⟩ := hutc.updatedAt
  have hinstant := Datetime.addSeconds_instant hcutoff
  have hge := Datetime.isoformat_le_iff (Datetime.addSeconds_utc hnow hcutoff) hd
  have hwithin : WithinGrace now r.updatedAt ↔ cutoff.isoformat ≤ r.updatedAt := by
    rw [hupdated, hge]
    constructor
    · rintro ⟨e, he, hage⟩
      rw [parseAsUtc_isoformat hd] at he
      cases he
      omega
    · intro h
      exact ⟨d, parseAsUtc_isoformat hd, by omega⟩
  rw [hwithin]
  constructor
  · rintro h heq
    exact lt_irrefl _ (heq ▸ h.mp heq.ge)
  · intro hne
    exact ⟨fun h => lt_of_le_of_ne h hne.symm, le_of_lt⟩

/-! ## Labels -/

theorem statusOf_text (status : OutboxStatus) : statusOf status.text = some status := by
  cases status <;> decide

theorem startupLabel_eq {db : Db} (hevent : r.eventId ∈ db.events.rows.map EventRow.eventId) :
    startupLabel db now r =
      if r.status.isTerminal then .terminal
      else
        match r.status with
        | .inProgress => classifyInProgress (r.leaseUntil.getD "") now
        | .queued => classifyQueued r.updatedAt now staleQueuedGraceSeconds
        | .retryWait => classifyRetryWait (r.nextAttemptAt.getD "") now
        | _ => .immediatelyClaimable := by
  have hknown : (some (db.events.rows.map EventRow.eventId)).any
      (fun known => !known.contains r.eventId) = false := by
    rw [Option.any_some, Bool.not_eq_false', contains_iff_mem]
    exact hevent
  unfold startupLabel classifyStartupReclamation itemView
  simp only [statusOf_text, hknown, Bool.false_eq_true, if_false]

/-- A label that waits exactly when `waits` holds. -/
def Waits (label : ReclamationLabel) (waits : Prop) : Prop :=
  (label = .retryEligible ∧ waits) ∨
    ((label = .immediatelyClaimable ∨ label = .stale) ∧ ¬waits)

theorem waits_of_parse {t : String} {waits : Datetime → Prop} {label : Datetime → ReclamationLabel}
    {missing : ReclamationLabel} (hlabel : ∀ d, Waits (label d) (waits d))
    (hmissing : missing = .immediatelyClaimable ∨ missing = .stale) :
    Waits (if t = "" then missing else
        match parseAsUtc t with
        | .ok d => label d
        | .error _ => missing)
      (∃ d, parseAsUtc t = .ok d ∧ waits d) := by
  split
  · rename_i hempty
    obtain ⟨e, he⟩ := parseAsUtc_empty
    rw [hempty, he]
    exact .inr ⟨hmissing, fun ⟨d, hd, _⟩ => nomatch hd⟩
  · cases parseAsUtc t with
    | error e => exact .inr ⟨hmissing, fun ⟨d, hd, _⟩ => nomatch hd⟩
    | ok d =>
      have hiff : (∃ d', Except.ok (ε := PyError) d = .ok d' ∧ waits d') ↔ waits d := by simp
      rw [hiff]
      exact hlabel d

theorem waits_inProgress {lease : Option String} :
    Waits (classifyInProgress (lease.getD "") now) (LaterInstant now lease) := by
  apply waits_of_parse _ (.inr rfl)
  intro d
  split_ifs with hle
  · exact .inr ⟨.inr rfl, not_lt.mpr hle⟩
  · exact .inl ⟨rfl, not_le.mp hle⟩

theorem waits_retryWait {next : Option String} :
    Waits (classifyRetryWait (next.getD "") now) (LaterInstant now next) := by
  apply waits_of_parse _ (.inl rfl)
  intro d
  split_ifs with hlt
  · exact .inl ⟨rfl, hlt⟩
  · exact .inr ⟨.inl rfl, hlt⟩

theorem waits_queued {updatedAt : String} :
    Waits (classifyQueued updatedAt now staleQueuedGraceSeconds) (WithinGrace now updatedAt) := by
  apply waits_of_parse _ (.inr rfl)
  intro d
  split_ifs with hage
  · exact .inl ⟨rfl, hage⟩
  · exact .inr ⟨.inl rfl, hage⟩

theorem Waits.agrees_iff {label : ReclamationLabel} {status : OutboxStatus}
    {waits claimed : Prop} (h : Waits label waits) (hlive : status.isTerminal = false) :
    Agrees label status claimed ↔ (waits ↔ ¬claimed) := by
  have hclaimable : label = .immediatelyClaimable ∨ label = .stale ↔ ¬waits := by
    rcases h with ⟨rfl, hw⟩ | ⟨hlabel, hw⟩
    · exact iff_of_false (by simp) (not_not_intro hw)
    · exact iff_of_true hlabel hw
  have hwaiting : label = .retryEligible ↔ waits := by
    rcases h with ⟨rfl, hw⟩ | ⟨rfl | rfl, hw⟩
    · exact iff_of_true rfl hw
    · exact iff_of_false nofun hw
    · exact iff_of_false nofun hw
  constructor
  · rintro ⟨hc, hw⟩
    rw [← hwaiting, hw, hlive]
    simp
  · intro hiff
    refine ⟨?_, ?_⟩
    · rw [hclaimable, hiff, not_not]
    · rw [hwaiting, hiff, hlive]
      simp

/-! ## Claims -/

theorem claimable_plain {rows : List OutboxRow} {now cutoff : String}
    (hfence : r.noSiblingFrom rows r.generation = true) :
    r.claimable rows now cutoff {} = true ↔
      r.dueStatus now cutoff = true ∧ ¬LaterText now r.nextAttemptAt ∧
        ¬LaterText now r.leaseUntil := by
  have hlater (column : Option String) :
      column.all (· ≤ now) = true ↔ ¬LaterText now column := by
    unfold LaterText
    cases column with
    | none => simp
    | some t => simp only [Option.all_some, decide_eq_true_eq, Option.some.injEq,
        exists_eq_left', not_lt]
  simp only [OutboxRow.claimable, hfence, OutboxRow.passesFilters, Bool.and_eq_true, hlater,
    and_true, and_assoc]
  simp

theorem wouldClaim_iff (x : Externals) {db : Db} {c : ClaimCall} (hall : ClaimsAll db now c)
    {lease cutoff : String} (htexts : c.texts = .ok (lease, cutoff)) (hr : r ∈ db.outbox.rows) :
    WouldClaim x db c r ↔ r.claimable db.outbox.rows now.isoformat cutoff {} = true := by
  obtain ⟨t, claimed, f, heq, -, -, -, hclaimed⟩ := claimAlone_spec x db htexts
  have hcand := mem_claimCandidates_plain (by rw [hall.filters]) hall.limit cutoff
  rw [hall.clock, hall.filters] at hcand
  constructor
  · rintro ⟨rows, hcalls, r', hr', hid⟩
    rw [heq] at hcalls
    obtain rfl : claimed = rows := by simpa using hcalls
    obtain ⟨s, hs, rfl⟩ := (hclaimed r').mp hr'
    obtain ⟨hs, hclaimable⟩ := (hcand s).mp hs
    rwa [← outbox_eq_of_id _ hs hr hid]
  · intro h
    refine ⟨claimed, by rw [heq], _, (hclaimed _).mpr ⟨r, (hcand r).mpr ⟨hr, h⟩, rfl⟩, rfl⟩

/-! ## Reachable rows -/

/-- A row that waits for a retry holds no lease, and a queued one no schedule either. -/
structure Idle (r : OutboxRow) : Prop where
  retryWait : r.status = .retryWait → r.leaseUntil = none
  queued : r.status = .queued → r.leaseUntil = none ∧ r.nextAttemptAt = none

theorem idle_of_status (h : r.status ≠ .retryWait) (h' : r.status ≠ .queued) : Idle r :=
  ⟨fun hst => absurd hst h, fun hst => absurd hst h'⟩

theorem idle_change {rows : List OutboxRow} {op : Op} {r r' : OutboxRow}
    (h : Change rows op r r') : Idle r' := by
  cases h with
  | claim h => exact idle_of_status (fun h => by cases h) fun h => by cases h
  | reserve h =>
    simp only [OutboxRow.reservable, Bool.and_eq_true, decide_eq_true_eq] at h
    have hst : r.status = .inProgress := h.1.1.1.2
    exact idle_of_status (by simp [OutboxRow.reserve, hst]) (by simp [OutboxRow.reserve, hst])
  | renew h =>
    simp only [OutboxRow.ownedBy, Bool.and_eq_true, decide_eq_true_eq] at h
    exact idle_of_status (by simp [OutboxRow.renew, h.2]) (by simp [OutboxRow.renew, h.2])
  | release h hactive hst =>
    refine ⟨fun _ => rfl, ?_⟩
    rename_i o w st now
    intro hqueued
    have hst' : st = .queued := hqueued
    rw [hst'] at hst
    cases hst
  | mark h =>
    rename_i m now
    refine ⟨fun hst => ?_, fun hst => ?_⟩
    · have hnew : m.update.newStatus = .retryWait := hst
      simp [StatusUpdate.apply, hnew]
    · have hnew : m.update.newStatus = .queued := hst
      have hnext := m.update_schedule
      rw [hnew] at hnext
      refine ⟨by simp [StatusUpdate.apply, hnew], ?_⟩
      show m.update.nextAttemptAt = none
      simpa using hnext
  | finalizeSent h => exact idle_of_status (fun h => by cases h) fun h => by cases h
  | finalizeTerminal h hworker =>
    rename_i c
    have hterm := c.terminalStatus_isTerminal
    refine idle_of_status ?_ ?_
    · intro hst
      rw [show c.terminalStatus = .retryWait from hst] at hterm
      cases hterm
    · intro hst
      rw [show c.terminalStatus = .queued from hst] at hterm
      cases hterm
  | retire hst h => exact idle_of_status (fun h => by cases h) fun h => by cases h
  | cancel hst h => exact idle_of_status (fun h => by cases h) fun h => by cases h

theorem idle_stateAfter (x : Externals) (ops : List Op) :
    ∀ r ∈ (stateAfter x ops).outbox.rows, Idle r := by
  refine rows_invariant x ?_ (fun _ _ _ _ h _ => idle_change h) ops
  intro db op row snapshot hc
  rcases hc.status_cases with hst | hst <;>
    exact idle_of_status (by simp [hst]) (by simp [hst])

/-! ## Agreement -/

section Agreement

variable {db : Db} {now : Datetime} {cutoff : String} {r : OutboxRow}

theorem agrees_iff_readAlike (hevent : r.eventId ∈ db.events.rows.map EventRow.eventId)
    (hfence : r.noSiblingFrom db.outbox.rows r.generation = true) (hidle : Idle r) :
    Agrees (startupLabel db now r) r.status
        (r.claimable db.outbox.rows now.isoformat cutoff {} = true) ↔
      ReadAlike now cutoff r := by
  have hnone {t : String} : ¬LaterText t none := fun ⟨_, h, _⟩ => nomatch h
  rw [startupLabel_eq hevent, claimable_plain hfence]
  unfold ReadAlike OutboxRow.dueStatus
  cases hst : r.status with
  | pending =>
    have hwaits : Waits .immediatelyClaimable False := .inr ⟨.inl rfl, id⟩
    simp only [OutboxStatus.isTerminal, Bool.false_eq_true, if_false]
    rw [hwaits.agrees_iff rfl]
    simp [OutboxStatus.isClaimable]
  | retryWait =>
    simp only [OutboxStatus.isTerminal, Bool.false_eq_true, if_false]
    rw [(waits_retryWait).agrees_iff rfl, hidle.retryWait hst]
    simp [OutboxStatus.isClaimable, hnone]
  | inProgress =>
    simp only [OutboxStatus.isTerminal, Bool.false_eq_true, if_false]
    rw [(waits_inProgress).agrees_iff rfl]
    have hlapsed : r.leaseUntil.all (· ≤ now.isoformat) = true ↔
        ¬LaterText now.isoformat r.leaseUntil := by
      unfold LaterText
      cases r.leaseUntil with
      | none => simp
      | some t =>
        simp only [Option.all_some, decide_eq_true_eq, Option.some.injEq, exists_eq_left', not_lt]
    simp only [OutboxStatus.isClaimable, Bool.false_or, Bool.or_false, decide_true,
      Bool.true_and, reduceCtorEq, decide_false, Bool.false_and, hlapsed]
    tauto
  | queued =>
    obtain ⟨hlease, hnext⟩ := hidle.queued hst
    simp only [OutboxStatus.isTerminal, Bool.false_eq_true, if_false]
    rw [(waits_queued).agrees_iff rfl, hlease, hnext]
    simp only [OutboxStatus.isClaimable, Bool.false_or, decide_true, Bool.true_and,
      reduceCtorEq, decide_false, Bool.false_and, decide_eq_true_eq, hnone, not_false_eq_true,
      and_true, not_le]
  | sent | deadLettered | cancelled | abandoned =>
    simp only [OutboxStatus.isTerminal, OutboxStatus.isClaimable, if_true, reduceCtorEq,
      decide_false, Bool.false_and, Bool.or_false, Bool.false_eq_true, false_and, iff_true]
    exact ⟨by simp, by simp [OutboxStatus.isTerminal]⟩

/-- With UTC times the readings differ on a queue entry of exactly the grace period, on staged work
with a schedule or lease beyond the clock, and on work with a lapsed lease and a later schedule. -/
theorem readAlike_utc (hnow : now.Utc) {limit : Datetime}
    (hlimit : now.addSeconds (-staleQueuedGraceSeconds) = .ok limit) (hutc : UtcTimes r) :
    ReadAlike now limit.isoformat r ↔
      (r.status = .queued → r.updatedAt ≠ limit.isoformat) ∧
      (r.status = .pending → ¬LaterText now.isoformat r.nextAttemptAt ∧
        ¬LaterText now.isoformat r.leaseUntil) ∧
      (r.status = .inProgress → LaterText now.isoformat r.nextAttemptAt →
        LaterText now.isoformat r.leaseUntil) := by
  unfold ReadAlike
  cases hst : r.status with
  | pending => simp
  | retryWait => simp [laterInstant_iff hnow hutc.nextAttemptAt]
  | inProgress => simp [laterInstant_iff hnow hutc.leaseUntil]
  | queued =>
    rw [withinGrace_iff hnow hlimit hutc]
    simp
  | sent | deadLettered | cancelled | abandoned => simp

end Agreement

theorem cutoff_of_texts {db : Db} (hnow : now.Utc) {c : ClaimCall}
    (hall : ClaimsAll db now c) {lease cutoff : String} (h : c.texts = .ok (lease, cutoff)) :
    ∃ limit, now.addSeconds (-staleQueuedGraceSeconds) = .ok limit ∧
      cutoff = limit.isoformat := by
  obtain ⟨u, -, hrest⟩ := ok_of_bind h
  obtain ⟨parsed, hparsed, hrest⟩ := ok_of_bind hrest
  obtain ⟨limit, hlimit, hpair⟩ := ok_of_bind hrest
  cases hpair
  rw [hall.clock, Datetime.fromisoformat_isoformat hnow.aware] at hparsed
  cases hparsed
  refine ⟨limit, ?_, rfl⟩
  cases hadd : now.addSeconds (-staleQueuedGraceSeconds) with
  | error e =>
    rw [hadd] at hlimit
    cases hlimit
  | ok d =>
    rw [hadd] at hlimit
    cases hlimit
    rfl

/-- The startup classification of a row without a sibling of its generation agrees with a claim of
everything at the same instant exactly where the classifier's reading of the columns comes to
SQL's. For UTC texts that excludes a queue entry of exactly the grace period, which is claimed and
not labelled so, and rows created with a schedule or a lease that their status has no use for. -/
theorem startup_labels_match_claims (x : Externals) (ops : List Op) (now : Datetime)
    (hnow : now.Utc) (c : ClaimCall) (hall : ClaimsAll (stateAfter x ops) now c)
    (lease cutoff : String) (htexts : c.texts = .ok (lease, cutoff)) (r : OutboxRow)
    (hr : r ∈ (stateAfter x ops).outbox.rows)
    (hevent : r.eventId ∈ (stateAfter x ops).events.rows.map EventRow.eventId)
    (hfence : ∀ s ∈ (stateAfter x ops).outbox.rows, s.outboxId ≠ r.outboxId →
      s.identity = r.identity → s.generation < r.generation) :
    (Agrees (startupLabel (stateAfter x ops) now r) r.status
        (WouldClaim x (stateAfter x ops) c r) ↔ ReadAlike now cutoff r) ∧
    (UtcTimes r → (ReadAlike now cutoff r ↔
      (r.status = .queued → r.updatedAt ≠ cutoff) ∧
      (r.status = .pending → ¬LaterText now.isoformat r.nextAttemptAt ∧
        ¬LaterText now.isoformat r.leaseUntil) ∧
      (r.status = .inProgress → LaterText now.isoformat r.nextAttemptAt →
        LaterText now.isoformat r.leaseUntil))) := by
  refine ⟨?_, ?_⟩
  · rw [wouldClaim_iff x hall htexts hr]
    exact agrees_iff_readAlike hevent ((OutboxRow.noSiblingFrom_iff _ _ _).mpr hfence)
      (idle_stateAfter x ops r hr)
  · intro hutc
    obtain ⟨limit, hlimit, rfl⟩ := cutoff_of_texts hnow hall htexts
    exact readAlike_utc hnow hlimit hutc

namespace Sample

open Medre.Storage.Sample

/-- A queue entry that nobody has touched since. -/
def queuedSince : List Op := created ++ [.markOutbox (.queued "outbox" none none none) (clock 2)]

def claimAt (n : ℕ) : ClaimCall :=
  { now := (clock n).isoformat, workerId := "worker", leaseSeconds := 60, limit := 20 }

end Sample

namespace Sample

open Medre.Storage.Sample

theorem claimAt_claimsAll (n : ℕ) :
    ClaimsAll (stateAfter externals queuedSince) (clock n) (claimAt n) :=
  ⟨rfl, rfl, .inr (show ((stateAfter externals queuedSince).outbox.rows.length : ℤ) ≤ 20 by
    decide +kernel)⟩

theorem clock_utc {n : ℕ} (h : n < 60) : (clock n).Utc := by
  refine ⟨(Datetime.inRange_iff _).mp ?_, rfl⟩
  simp [Datetime.inRange, clock, h, Datetime.daysInMonth]

end Sample

open Storage.Sample Sample in
/-- The entry is five minutes old: the claim takes it, and the label says that it waits. -/
theorem startup_label_at_grace :
    ∃ r ∈ (stateAfter externals queuedSince).outbox.rows,
      startupLabel (stateAfter externals queuedSince) (clock 7) r = .retryEligible ∧
        WouldClaim externals (stateAfter externals queuedSince) (claimAt 7) r := by
  have htexts : (claimAt 7).texts =
      .ok ("2026-01-01T00:08:00+00:00", "2026-01-01T00:02:00+00:00") := by decide +kernel
  have hrows : (stateAfter externals queuedSince).outbox.rows.map (fun r =>
      (startupLabel (stateAfter externals queuedSince) (clock 7) r,
        r.claimable (stateAfter externals queuedSince).outbox.rows (clock 7).isoformat
          "2026-01-01T00:02:00+00:00" {})) = [(.retryEligible, true)] := by decide +kernel
  obtain ⟨r, hr, heq⟩ := mem_map.mp (hrows ▸ mem_singleton_self _)
  obtain ⟨hlabel, hclaimable⟩ := Prod.mk.inj heq
  exact ⟨r, hr, hlabel, (wouldClaim_iff _ (claimAt_claimsAll 7) htexts hr).mpr hclaimable⟩

open Storage.Sample Sample in
/-- A minute later label and claim agree. -/
theorem startup_labels_match_claims_later :
    ∃ r ∈ (stateAfter externals queuedSince).outbox.rows, r.status = .queued ∧
      Agrees (startupLabel (stateAfter externals queuedSince) (clock 8) r) r.status
        (WouldClaim externals (stateAfter externals queuedSince) (claimAt 8) r) := by
  have htexts : (claimAt 8).texts =
      .ok ("2026-01-01T00:09:00+00:00", "2026-01-01T00:03:00+00:00") := by decide +kernel
  have hids : (stateAfter externals queuedSince).outbox.rows.map OutboxRow.outboxId =
      ["outbox"] := by decide +kernel
  have hevents : (stateAfter externals queuedSince).events.rows.map EventRow.eventId =
      ["event"] := by decide +kernel
  have hcolumns : ((stateAfter externals queuedSince).outbox.rows.all fun r =>
      r.eventId = "event" && r.status = .queued && r.updatedAt = (clock 2).isoformat &&
        r.nextAttemptAt.isNone && r.leaseUntil.isNone) = true := by decide +kernel
  obtain ⟨r, hr, hid⟩ := mem_map.mp (hids ▸ mem_singleton_self "outbox")
  have hcols := all_eq_true.mp hcolumns r hr
  simp only [Bool.and_eq_true, decide_eq_true_eq, Option.isNone_iff_eq_none] at hcols
  obtain ⟨⟨⟨⟨hevent, hst⟩, hupdated⟩, hnext⟩, hlease⟩ := hcols
  have hfence : ∀ s ∈ (stateAfter externals queuedSince).outbox.rows,
      s.outboxId ≠ r.outboxId → s.identity = r.identity → s.generation < r.generation := by
    intro s hs hne
    have hmem := mem_map_of_mem (f := OutboxRow.outboxId) hs
    rw [hids, mem_singleton] at hmem
    exact absurd (hmem.trans hid.symm) hne
  have hutc : UtcTimes r := by
    refine ⟨⟨clock 2, clock_utc (by decide), hupdated⟩, ?_, ?_⟩
    · intro t ht
      rw [hnext] at ht
      cases ht
    · intro t ht
      rw [hlease] at ht
      cases ht
  obtain ⟨hagrees, halike⟩ := startup_labels_match_claims externals queuedSince (clock 8)
    (clock_utc (by decide)) (claimAt 8) (claimAt_claimsAll 8) _ _ htexts r hr
    (by rw [hevents, hevent]; exact mem_singleton_self _) hfence
  refine ⟨r, hr, hst, hagrees.mpr ((halike hutc).mpr ⟨fun _ => ?_, ?_, ?_⟩)⟩
  · rw [hupdated]
    decide +kernel
  · intro h
    rw [hst] at h
    cases h
  · intro h
    rw [hst] at h
    cases h

end Medre.Recovery
