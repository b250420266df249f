import Manyforge.Coding.Secrecy
import Manyforge.Coding.ReviewFencing
import Manyforge.Coding.OneReview
import Manyforge.Tenancy.HierarchyRuns
import Manyforge.Tenancy.LastOwner
import Manyforge.Events.Delivery
import Manyforge.Agents.ApprovalRuns
import Manyforge.Agents.ToolCalls
import Manyforge.Connectors.LeaseRuns
import Manyforge.Connectors.InboundRuns
import Manyforge.Connectors.Mirror
import Manyforge.Connectors.Echo
import Manyforge.Connectors.Escalations
import Manyforge.Connectors.Reconcile
import Manyforge.Inbox.LoopGuard
import Manyforge.Identity.ClosedAccounts
import Manyforge.Identity.RotationRuns
import Manyforge.Automations.ExactlyOnce
import Manyforge.Automations.Exactness
import Manyforge.Automations.Soundness
import Manyforge.Automations.VersionSafety
import Manyforge.Mailing.Convergence
import Manyforge.Mailing.Fencing
import Manyforge.Mailing.Agreement
import Manyforge.Mailing.ConsentHistory
import Manyforge.Mailing.FanoutComplete
import Manyforge.Mailing.Sns
import Manyforge.Automations.EventRuns
import Manyforge.Coding.Iterations
import Manyforge.Coding.Placement
import Manyforge.Coding.Recovery
import Manyforge.Coding.Progress
import Manyforge.Analytics.Reconciliation
import Manyforge.Analytics.Breakdowns
import Manyforge.Coding.Globs
import Manyforge.Tenancy.Restoration
