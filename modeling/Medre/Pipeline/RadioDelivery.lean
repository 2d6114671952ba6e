import Mathlib.Data.List.MinMax
import Medre.Framework.Dict
import Medre.Framework.Tasks
import Medre.Storage.Radio

/-! # `deliver_radio_plan`: one native call for each part of a wire plan

The adapter is foreign code: it is handed a packet with a grant callback, may call that as often
as it likes, and then returns or raises. -/

namespace Medre.Pipeline

open Medre.Framework Medre.Rendering Medre.Storage

/-! ## Between the core and an adapter -/

inductive PayloadValue where
  | text (s : String)
  | int (n : ℤ)
  | other
deriving DecidableEq, Repr

/-- `RenderingResult`, and the packet made of it. -/
structure RenderingResult where
  targetChannel : Option String
  payload : Dict String PayloadValue
  radioPlan : Option RadioTextPlan
  attemptProvenance : Option DeliveryAttemptProvenance

/-- `AdapterHandoffDisposition`. -/
inductive HandoffDisposition where
  | transportHandoff
  | deferred
deriving DecidableEq, Repr

structure AdapterHandoffResult where
  disposition : HandoffDisposition := .transportHandoff
  nativeMessageId : Option String := none
  nativeChannelId : Option String := none
  confirmationLevel : ConfirmationLevel := .unknown
  note : String := ""
  metadata : List (String × Json) := []

inductive Raised where
  /-- An `AdapterSendError`. -/
  | send (transient : Bool) (text : String)
  /-- `asyncio.CancelledError`. -/
  | cancelled
  /-- Any other `BaseException` that is no `Exception`. -/
  | exit
  /-- Any other `Exception`. -/
  | error (e : Err)
deriving DecidableEq

/-- `AdapterPermanentError`. -/
def permanentError (text : String) : Raised := .send false text

/-- `isinstance(exc, AdapterSendError) and exc.transient`. -/
def Raised.isTransient : Raised → Bool
  | .send transient _ => transient
  | _ => false

/-- `isinstance(exc, Exception)`. -/
def Raised.isException : Raised → Bool
  | .cancelled | .exit => false
  | _ => true

/-- What one call of `deliver` does: it calls the grant callback and goes on as it answers, returns
(`none` for no handoff result), or raises. -/
inductive AdapterRun where
  | returns (value : Option AdapterHandoffResult)
  | raises (e : Raised)
  | grant (next : Except Raised Unit → AdapterRun)

/-! ## Handoff references -/

/-- `_CONFIRMATION_ORDER.index`. -/
def confirmationRank : ConfirmationLevel → ℕ
  | .unknown => 0
  | .localQueue => 1
  | .localTransport => 2
  | .remoteService => 3
  | .endToEnd => 4

def handoffReference (codec : HandoffCodec) (result : AdapterHandoffResult) (ordinal : ℤ)
    (payloadFingerprint : Option String) : String :=
  codec.encode
    { ordinal
      nativeMessageId := result.nativeMessageId
      nativeChannelId := result.nativeChannelId
      confirmationLevel := result.confirmationLevel
      payloadFingerprint }

def validateOptionalNativeId (name : String) : Option String → Except Err Unit
  | none => .ok ()
  | some value =>
    if pyStrip value = "" then
      .error (.valueError (name ++ " must be a non-empty string or None"))
    else .ok ()

/-- `RadioLocalHandoff.handoff`. -/
def localHandoff (evidence : RadioLocalHandoff) : Except Err AdapterHandoffResult := do
  validateOptionalNativeId "native_message_id" evidence.nativeMessageId
  validateOptionalNativeId "native_channel_id" evidence.nativeChannelId
  .ok { nativeMessageId := evidence.nativeMessageId
        nativeChannelId := evidence.nativeChannelId
        confirmationLevel := evidence.confirmationLevel }

def plainChannelPayloadFingerprint (channel : ℕ) : String :=
  Sha256.hexdigest (utf8 ("\x7b\"channel_index\":" ++ toString channel ++ "\x7d").toList)

def continuationPayloadFingerprint (result : RenderingResult) : Option String :=
  let keys := result.payload.keys
  if !(keys.all (fun k => k = "text" || k = "channel_index") && keys.contains "text") then none
  else
    match result.payload.get? "channel_index" with
    | some (.int channel) =>
      if channel < 0 || some (toString channel.toNat) ≠ result.targetChannel then none
      else some (plainChannelPayloadFingerprint channel.toNat)
    | _ => none

/-- The loop of `_matches_plain_channel` over the accepted parts. -/
def attestsPlainChannel (codec : HandoffCodec) (provenance : DeliveryAttemptProvenance)
    (fingerprint : String) : List RadioPartProgress → Except Err Bool
  | [] => .ok true
  | part :: parts =>
    if part.state ≠ .accepted then attestsPlainChannel codec provenance fingerprint parts
    else do
      let fact ← codec.fromPart part provenance
      if fact.payloadFingerprint ≠ some fingerprint ||
          !(fact.nativeChannelId = none || fact.nativeChannelId = provenance.targetChannel) then
        .ok false
      else attestsPlainChannel codec provenance fingerprint parts

def matchesPlainChannel (codec : HandoffCodec) (checkpoint : StoredRadioAttempt) :
    Option String → Except Err Bool
  | none => .ok false
  | some fingerprint =>
    let parts := checkpoint.progress.parts
    if !(parts.any fun p => p.state = .accepted) || !(parts.any fun p => p.state = .unsent) ||
        parts.any fun p => p.state = .submitting || p.state = .unknown then .ok false
    else attestsPlainChannel codec checkpoint.provenance fingerprint parts

/-! ## Calls -/

inductive RadioCall where
  /-- `bind_radio_attempt`, and `resume_radio_attempt` with a predecessor. -/
  | bind (provenance : DeliveryAttemptProvenance) (workerId : Option String)
      (plan : RadioTextPlan) (predecessor : Option StoredRadioAttempt)
  /-- `begin_radio_part`. -/
  | begin (expected : StoredRadioAttempt) (workerId : String) (ordinal : ℤ)
      (deadline : Option Datetime)
  /-- `observe_radio_part`. -/
  | observe (expected : StoredRadioAttempt) (workerId : Option String) (ordinal : ℤ)
      (handoffId : Option String)
  /-- `datetime.now(timezone.utc)`. -/
  | now
  | deliver (packet : RenderingResult)

/-- A store call answers with a checkpoint, with `None` or with what it raises; the adapter with
what it is going to do. -/
def RadioCall.Answer : RadioCall → Type
  | .bind .. | .begin .. | .observe .. => Except Raised (Option StoredRadioAttempt)
  | .now => Datetime
  | .deliver .. => AdapterRun

abbrev Delivering := Task RadioCall RadioCall.Answer Raised

abbrev put (c : RadioCall) : Delivering c.Answer := Task.perform c

/-! ## The grant -/

/-- `_Submission`: a grant for one native call. -/
structure Submission where
  checkpoint : StoredRadioAttempt
  workerId : Option String
  ordinal : ℤ
  deadline : Option Datetime
  entered : Bool := false
  submitting : Option StoredRadioAttempt := none

/-- `datetime.now(timezone.utc) >= deadline`; a naive deadline does not compare. -/
def deadlineExceeded : Option Datetime → Delivering (Except Raised Bool)
  | none => pure (.ok false)
  | some deadline => do
    let now : Datetime ← put .now
    pure (if deadline.utcoffset.isNone then .error (.error (.pyError .typeError))
      else .ok (deadline.instant ≤ now.instant))

/-- The two deadline checks of `begin`. -/
def withinDeadline (deadline : Option Datetime) : Delivering (Except Raised Unit) := do
  let exceeded ← deadlineExceeded deadline
  pure (match exceeded with
    | .error e => .error e
    | .ok true =>
      .error (permanentError "radio delivery deadline exceeded before native submission")
    | .ok false => .ok ())

/-- `_Submission.begin`, with the grant it leaves behind. -/
def Submission.begin (grant : Submission) : Delivering (Submission × Except Raised Unit) :=
  if grant.entered then
    pure (grant, .error (permanentError "radio native submission grant cannot be reused"))
  else
    let entered := { grant with entered := true }
    match orNone grant.workerId with
    | none => pure (entered, .error (permanentError "radio native start requires a worker"))
    | some worker => do
      let early ← withinDeadline grant.deadline
      match early with
      | .error e => pure (entered, .error e)
      | .ok () =>
        let answer : Except Raised (Option StoredRadioAttempt) ←
          put (.begin grant.checkpoint worker grant.ordinal grant.deadline)
        match answer with
        | .error e => pure (entered, .error e)
        | .ok none =>
          pure (entered, .error (permanentError
            "radio native start denied by authority, deadline or checkpoint"))
        | .ok (some submitting) =>
          let late ← withinDeadline grant.deadline
          pure ({ entered with submitting := some submitting }, late)

/-- The run of an adapter that holds a grant. -/
def runAdapter : AdapterRun → Submission →
    Delivering (Submission × Except Raised (Option AdapterHandoffResult))
  | .returns value, grant => pure (grant, .ok value)
  | .raises e, grant => pure (grant, .error e)
  | .grant next, grant => do
    let (grant, granted) ← grant.begin
    runAdapter (next granted) grant

/-! ## The delivery -/

/-- The `try` block around one packet: the grant it leaves, and the new checkpoint with
its handoff or what was raised. -/
def submitPart (codec : HandoffCodec) (fingerprint workerId : Option String) (ordinal : ℤ)
    (packet : RenderingResult) (grant : Submission) :
    Delivering (Submission × Except Raised (StoredRadioAttempt × AdapterHandoffResult)) := do
  let behaviour : AdapterRun ← put (.deliver packet)
  let (grant, answer) ← runAdapter behaviour grant
  match answer with
  | .error e => pure (grant, .error e)
  | .ok value =>
    match grant.submitting with
    | none =>
      pure (grant, .error (permanentError
        "radio adapter skipped its native submission grant"))
    | some submitting =>
      match value.filter fun handoff => handoff.disposition = .transportHandoff with
      | none =>
        pure (grant, .error (permanentError
          "radio parts require synchronous handoff evidence"))
      | some handoff =>
        let answer : Except Raised (Option StoredRadioAttempt) ←
          put (.observe submitting workerId ordinal
            (some (handoffReference codec handoff ordinal fingerprint)))
        pure (grant, match answer with
          | .error e => .error e
          | .ok none => .error (permanentError
              "radio claim changed before handoff evidence committed")
          | .ok (some accepted) => .ok (accepted, handoff))

/-- The uncertainty checkpoint of a failed packet. What it raises is logged unless it is
no `Exception`. -/
def markUncertain (workerId : Option String) (ordinal : ℤ) :
    Option StoredRadioAttempt → Delivering Unit
  | none => pure ()
  | some submitting => do
    let answer : Except Raised (Option StoredRadioAttempt) ←
      put (.observe submitting workerId ordinal none)
    match answer with
    | .error e => if e.isException then pure () else .raise e
    | .ok _ => pure ()

/-- `retryable_tail`: invalid retained evidence does not count. -/
def retryableTail (codec : HandoffCodec) (fingerprint : Option String)
    (checkpoint : StoredRadioAttempt) : Bool :=
  match matchesPlainChannel codec checkpoint fingerprint with
  | .ok eligible => eligible
  | .error _ => false

/-- What the handler around one packet raises in the end. -/
def classify (codec : HandoffCodec) (fingerprint : Option String)
    (checkpoint : StoredRadioAttempt) (grant : Submission) (exc : Raised) : Raised :=
  if !exc.isException then exc
  else if exc.isTransient && !grant.entered && retryableTail codec fingerprint checkpoint then exc
  else if grant.submitting.isSome ||
      checkpoint.progress.parts.any fun p => p.state ≠ .unsent then
    permanentError "radio handoff incomplete; retained native progress requires inspection"
  else exc

/-- The checkpoint and the confirmations the loop carries. -/
abbrev Covered := StoredRadioAttempt × List AdapterHandoffResult

/-- The packet of one part. -/
def partPacket (result : RenderingResult) (part : RadioTextPart) : RenderingResult :=
  { result with
    payload := result.payload.set "text" (.text part.wireText)
    radioPlan := none }

def deliverPart (codec : HandoffCodec) (result : RenderingResult)
    (fingerprint workerId : Option String) (deadline : Option Datetime) (covered : Covered)
    (item : RadioTextPart × RadioPartProgress) : Delivering Covered :=
  if item.2.state = .accepted then pure covered
  else do
    let grant : Submission :=
      { checkpoint := covered.1, workerId, ordinal := item.1.ordinal, deadline }
    let (grant, outcome) ← submitPart codec fingerprint workerId item.1.ordinal
      (partPacket result item.1) grant
    match outcome with
    | .ok (accepted, handoff) => pure (accepted, covered.2 ++ [handoff])
    | .error exc => do
      markUncertain workerId item.1.ordinal grant.submitting
      .raise (classify codec fingerprint covered.1 grant exc)

def acceptedHandoffs (codec : HandoffCodec) (provenance : DeliveryAttemptProvenance) :
    List RadioPartProgress → Except Err (List AdapterHandoffResult)
  | [] => .ok []
  | part :: parts =>
    if part.state ≠ .accepted then acceptedHandoffs codec provenance parts
    else do
      let evidence ← codec.fromPart part provenance
      let handoff ← localHandoff evidence
      let rest ← acceptedHandoffs codec provenance parts
      .ok (handoff :: rest)

/-- `min(confirmations, key=...)`: the first of the weakest. -/
def weakest (confirmations : List AdapterHandoffResult) : Option AdapterHandoffResult :=
  confirmations.argmin fun c => confirmationRank c.confirmationLevel

def aggregate (plan : RadioTextPlan) (confirmations : List AdapterHandoffResult) :
    Except Raised AdapterHandoffResult :=
  match confirmations with
  | [only] => .ok only
  | _ =>
    match weakest confirmations with
    | none => .error (.error (.valueError "min() arg is an empty sequence"))
    | some weakest =>
      .ok
        { confirmationLevel := weakest.confirmationLevel
          note := "All radio parts locally accepted; no whole-message native relation target"
          metadata :=
            [("radio", .obj
              [("schema_version", .nat 1), ("plan_fingerprint", .str plan.fingerprint),
                ("part_count", .nat plan.parts.length), ("handoff_complete", .bool true)])] }

def resumable (codec : HandoffCodec) (fingerprint : Option String) :
    Option StoredRadioAttempt → Except Raised Unit
  | none => .ok ()
  | some resumeFrom =>
    match matchesPlainChannel codec resumeFrom fingerprint with
    | .error _ => .error (permanentError "radio continuation evidence is invalid")
    | .ok false =>
      .error (permanentError
        "radio continuation requires plain channel text without native extras")
    | .ok true => .ok ()

def bindCheckpoint (codec : HandoffCodec) (plan : RadioTextPlan)
    (provenance : DeliveryAttemptProvenance) (fingerprint workerId : Option String)
    (resumeFrom : Option StoredRadioAttempt) : Delivering StoredRadioAttempt := do
  Task.lift (resumable codec fingerprint resumeFrom)
  let answer : Except Raised (Option StoredRadioAttempt) ←
    put (.bind provenance workerId plan resumeFrom)
  match answer with
  | .error e => .raise e
  | .ok none => .raise (permanentError "radio plan is already bound or its claim is not owned")
  | .ok (some checkpoint) => pure checkpoint

def deliverRadioPlan (codec : HandoffCodec) (result : RenderingResult)
    (workerId : Option String) (deadline : Option Datetime)
    (resumeFrom : Option StoredRadioAttempt) : Delivering AdapterHandoffResult :=
  match result.radioPlan, result.attemptProvenance with
  | some plan, some provenance => do
    let fingerprint := continuationPayloadFingerprint result
    let checkpoint ← bindCheckpoint codec plan provenance fingerprint workerId resumeFrom
    let plan := checkpoint.progress.plan
    let confirmations ← Task.lift ((acceptedHandoffs codec checkpoint.provenance
      checkpoint.progress.parts).mapError .error)
    let covered ← Task.fold (deliverPart codec result fingerprint workerId deadline)
      (checkpoint, confirmations) (plan.parts.zip checkpoint.progress.parts)
    if covered.1.progress.parts.all fun p => p.state = .accepted then
      Task.lift (aggregate plan covered.2)
    else .raise (permanentError "radio handoff did not cover the whole plan")
  | _, _ => .raise (permanentError "radio plans require an exact durable attempt")

end Medre.Pipeline
