import Medre.Core.Attachments
import Medre.Core.DeliveryAuthority
import Medre.Framework.Ancestry
import Medre.Framework.DatetimeInstant
import Medre.Framework.DatetimeOrder
import Medre.Framework.DatetimeText
import Medre.Framework.Dict
import Medre.Framework.GreedySplit
import Medre.Framework.Keyset
import Medre.Framework.Memo
import Medre.Framework.Ranking
import Medre.Framework.RoundRobin
import Medre.Framework.Runs
import Medre.Framework.Scan
import Medre.Framework.Selection
import Medre.Framework.Sha256
import Medre.Framework.Tasks
import Medre.Diagnostics.LifecycleChecks
import Medre.Observability.ExactTarget
import Medre.Observability.Sanitization
import Medre.Pipeline.FanOut
import Medre.Pipeline.OutboxManager
import Medre.Pipeline.RadioDelivery
import Medre.Pipeline.RadioOutcomes
import Medre.Pipeline.RouteTrace
import Medre.Planning.CapabilityDecision
import Medre.Planning.ConversationCommits
import Medre.Planning.ConversationConvergence
import Medre.Planning.ConversationFacts
import Medre.Planning.ConversationGraph
import Medre.Planning.ConversationIdentity
import Medre.Planning.ConversationRebuild
import Medre.Planning.ConversationRepair
import Medre.Planning.ConversationRestarts
import Medre.Planning.ConversationWalk
import Medre.Planning.MutationAuthority
import Medre.Planning.RelationBinding
import Medre.Planning.RelationEnricher
import Medre.Recovery.Classification
import Medre.Rendering.RadioAttempts
import Medre.Rendering.RadioParts
import Medre.Rendering.RadioPlans
import Medre.Rendering.TextHelpers
import Medre.Replay.Selection
import Medre.Storage.AdmissionRuns
import Medre.Storage.Admitted
import Medre.Storage.AttachmentAdmission
import Medre.Storage.ClaimSteps
import Medre.Storage.Collection
import Medre.Storage.ContentPermanence
import Medre.Storage.Creation
import Medre.Storage.DeadlineAgreement
import Medre.Storage.DeadlineSweep
import Medre.Storage.Decisions
import Medre.Storage.DeliveryAgreement
import Medre.Storage.DeliveryStatus
import Medre.Storage.EventAdmission
import Medre.Storage.FairClaims
import Medre.Storage.Generations
import Medre.Storage.IngressOwnership
import Medre.Storage.NativeRefs
import Medre.Storage.Observations
import Medre.Storage.OutboxChange
import Medre.Storage.OutboxEffect
import Medre.Storage.OutboxStep
import Medre.Storage.PacketObservations
import Medre.Storage.Permanence
import Medre.Storage.RadioEvidence
import Medre.Storage.RadioGrants
import Medre.Storage.RadioStep
import Medre.Storage.Recovery
import Medre.Storage.ReplayAuthority
import Medre.Storage.Retention
import Medre.Storage.Settlement
import Medre.Storage.StoreStep
import Medre.Storage.StoreHistory
import Medre.Storage.RetentionPages
import Medre.Supervision.Accounting
import Medre.Supervision.Capacity
import Medre.Supervision.Fairness
import Medre.Routing.RouteLoops
