import Manyforge.Automations.Graph
import Manyforge.Lib.Table

/-!
# The database

The tables of the mailing and automation subsystems, with the columns the
modelled functions read or write. An email is a `citext` and is represented by
its folded form, so equality of emails is equality here. Every row carries its
business and tenant root, because the functions join on them.
-/
namespace Manyforge

abbrev Email := String

/-! ### Businesses, lists and subscribers -/

inductive BusinessStatus where
  | active | archived
  deriving DecidableEq

structure Business where
  (id tenantRootId : UUID)
  status : BusinessStatus
  deletedAt : Option Timestamp

inductive ListStatus where
  | active | archived
  deriving DecidableEq

structure MailingList where
  (id businessId tenantRootId : UUID)
  doubleOptIn : Bool
  status : ListStatus

inductive KeyStatus where
  | enabled | revoked
  deriving DecidableEq

structure ListKey where
  (id businessId tenantRootId listId : UUID)
  status : KeyStatus

inductive SubscriberStatus where
  | pending | active | unsubscribed | bounced | complained
  deriving DecidableEq

def SubscriberStatus.text : SubscriberStatus → String
  | pending => "pending"
  | active => "active"
  | unsubscribed => "unsubscribed"
  | bounced => "bounced"
  | complained => "complained"

structure Subscriber where
  (id businessId tenantRootId listId : UUID)
  email : Email
  status : SubscriberStatus
  statusReason : Option String
  confirmTokenHash : Option Nat
  (confirmExpiresAt confirmedAt unsubscribedAt : Option Timestamp)

structure SubscriberTag where
  (tenantRootId subscriberId : UUID)
  tag : String

inductive SuppressionReason where
  | bounce | complaint | unsubscribe | manual
  deriving DecidableEq

structure MailingSuppression where
  (businessId tenantRootId : UUID)
  email : Email
  reason : SuppressionReason
  source : String

/-! ### Campaigns and deliveries -/

inductive SendMode where
  | relay | resend | ses
  deriving DecidableEq

inductive ProfileStatus where
  | unverified | verified | error
  deriving DecidableEq

inductive FeedbackStatus where
  | pending | ready | error
  deriving DecidableEq

structure SendingProfile where
  (id businessId tenantRootId : UUID)
  mode : SendMode
  status : ProfileStatus
  feedbackStatus : FeedbackStatus
  deriving DecidableEq

inductive CampaignStatus where
  | draft | scheduled | sending | sent | cancelled | failed
  deriving DecidableEq

structure Campaign where
  (id businessId tenantRootId listId : UUID)
  profileId : Option UUID
  tagFilter : List String
  status : CampaignStatus
  (scheduledAt startedAt completedAt : Option Timestamp)
  fanoutCursor : Option UUID
  fanoutDone : Bool
  recipientCount : Nat
  updatedAt : Timestamp

inductive DeliveryStatus where
  | queued | sending | sent | delivered | bounced | complained | failed | suppressed | cancelled
  deriving DecidableEq

inductive DeliverySource where
  | campaign | automation
  deriving DecidableEq

structure Delivery where
  (id businessId tenantRootId : UUID)
  sourceKind : DeliverySource
  sourceId : UUID
  (campaignId templateId : Option UUID)
  subscriberId : UUID
  email : Email
  status : DeliveryStatus
  (attempts claimGeneration : Nat)
  notBefore : Timestamp
  leaseUntil : Option Timestamp
  providerMessageId : Option String
  openedAt : Option Timestamp
  (trackOpensOverride trackClicksOverride : Option Bool)
  lastError : Option String
  createdAt : Timestamp
  (automationEnrollmentId automationVersionId : Option UUID)
  automationClaimGeneration : Option Nat
  deriving DecidableEq

/-- The conflict target `(source_kind, source_id, subscriber_id)`. -/
def Delivery.sourceKey (d : Delivery) : DeliverySource × UUID × UUID :=
  (d.sourceKind, d.sourceId, d.subscriberId)

structure MailingTemplate where
  (id businessId tenantRootId : UUID)

/-! ### Provider feedback -/

inductive TrackKind where
  | opened | click | unsubscribe | delivered | bounce | complaint
  deriving DecidableEq

/-- The `provider_payload` of a tracking event that a provider webhook wrote. -/
structure ProviderPayload where
  (providerWebhookId providerProfileId : UUID)
  externalEventId : String

structure TrackingEvent where
  (businessId tenantRootId : UUID)
  campaignId : Option UUID
  (deliveryId subscriberId : UUID)
  kind : TrackKind
  url : Option String
  providerPayload : Option ProviderPayload
  occurredAt : Timestamp

structure NormalizedEvent where
  providerMessageId : String
  recipient : Email
  kind : TrackKind
  occurredAt : Option Timestamp
  deriving DecidableEq

inductive ProcessingStatus where
  | pending | applied
  deriving DecidableEq

structure ProviderWebhook where
  (id businessId tenantRootId profileId : UUID)
  provider : SendMode
  externalEventId : String
  normalizedEvents : List NormalizedEvent
  payloadBytes : Nat
  processingStatus : ProcessingStatus
  (receivedAt expiresAt : Timestamp)

/-! ### Automations -/

inductive AutomationStatus where
  | draft | active | paused | archived
  deriving DecidableEq

structure Automation where
  (id businessId tenantRootId : UUID)
  status : AutomationStatus
  allowReenroll : Bool
  (activeVersionId draftVersionId : Option UUID)

inductive VersionStatus where
  | draft | active | superseded
  deriving DecidableEq

/-- `contentSnapshot` lists the template ids that are keys of `content_snapshot->'templates'`. -/
structure AutomationVersion where
  (id businessId tenantRootId automationId : UUID)
  number : Int
  status : VersionStatus
  graph : Graph
  (triggerKind triggerRef : Option String)
  contentSnapshot : Option (List UUID)

inductive EnrollmentStatus where
  | active | completed | exited | errored
  deriving DecidableEq

structure AutomationEnrollment where
  (id businessId tenantRootId automationId versionId subscriberId : UUID)
  status : EnrollmentStatus
  currentNodeId : Option String
  (wakeAt leaseExpiresAt : Option Timestamp)
  (claimGeneration nodeAttempts : Nat)
  (lastError exitReason : Option String)
  enrolledAt : Timestamp
  finishedAt : Option Timestamp
  deriving DecidableEq

inductive StepOutcome where
  | entered | waiting | advanced | sent | branchYes | branchNo | exited | error
  deriving DecidableEq

/-- The `detail` object: the engine writes `reason` or `wake_at` into it, or nothing. -/
structure StepDetail where
  reason : Option String
  wakeAt : Option Timestamp

structure EnrollmentStep where
  (businessId tenantRootId enrollmentId versionId : UUID)
  nodeId : String
  nodeKind : NodeKind
  attempt : Nat
  enteredAt : Timestamp
  completedAt : Option Timestamp
  outcome : StepOutcome
  deliveryId : Option UUID
  detail : StepDetail

/-- The conflict target `(enrollment_id, node_id)`. -/
def EnrollmentStep.key (step : EnrollmentStep) : UUID × String := (step.enrollmentId, step.nodeId)

structure AutomationEvent where
  businessId : UUID
  name : String
  email : Email
  subscriberId : Option UUID
  occurredAt : Timestamp
  ingressListId : Option UUID

structure Database where
  fencedRoots : List UUID
  businesses : List Business
  lists : List MailingList
  listKeys : List ListKey
  profiles : List SendingProfile
  subscribers : List Subscriber
  tags : List SubscriberTag
  suppressions : List MailingSuppression
  emailSuppressions : List Email
  templates : List MailingTemplate
  campaigns : List Campaign
  deliveries : List Delivery
  trackingEvents : List TrackingEvent
  webhooks : List ProviderWebhook
  automations : List Automation
  versions : List AutomationVersion
  enrollments : List AutomationEnrollment
  steps : List EnrollmentStep
  events : List AutomationEvent

/-! ### Predicates every function shares -/

variable (db : Database)

/-- `tenant_merge_root_write_allowed`, outside the merge operation itself. -/
def Database.rootWriteAllowed (root : UUID) : Bool := !db.fencedRoots.contains root

def Database.businessOperational (business root : UUID) : Bool :=
  db.businesses.any fun b =>
    b.id == business && b.tenantRootId == root && b.status == .active && b.deletedAt.isNone

def Database.listOperational (list business root : UUID) : Bool :=
  db.lists.any fun l =>
    l.id == list && l.businessId == business && l.tenantRootId == root && l.status == .active &&
      db.businessOperational l.businessId l.tenantRootId

/-- Whether an address is on the business's or the global suppression list. -/
def Database.suppressed (business : UUID) (email : Email) : Bool :=
  (db.suppressions.any fun s => s.businessId == business && s.email == email) ||
    db.emailSuppressions.contains email

end Manyforge
