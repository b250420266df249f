import Manyforge.Lib.Keyset
import Manyforge.Mailing.Feedback

/-!
# Campaign fan-out

A campaign is claimed for fan-out and its recipients are queued in batches, in the
order of the subscribers' ids. `mailing_fanout_batch` is cut where PostgreSQL takes
a new snapshot: `fanoutSelect` is what it does up to the insertion of a batch,
`fanoutAdvance` the update of the campaign that follows. The `message_id` of a
delivery is left out.
-/
namespace Manyforge

open Table

namespace Database

/-! ### Claiming -/

variable (lower : String → String) (db : Database) (now : Timestamp) (c : Campaign)

def fanoutCandidate : Bool :=
  ((c.status == .scheduled && c.scheduledAt.any fun scheduled => decide (scheduled ≤ now)) ||
    (c.status == .sending && !c.fanoutDone)) &&
  (db.lists.any fun l =>
    l.id == c.listId && l.businessId == c.businessId && l.tenantRootId == c.tenantRootId &&
      db.listOperational l.id l.businessId l.tenantRootId) &&
  (db.profiles.any fun p =>
    c.profileId == some p.id && p.businessId == c.businessId && p.tenantRootId == c.tenantRootId &&
      p.status == .verified && p.feedbackStatus == .ready) &&
  db.businessOperational c.businessId c.tenantRootId && db.rootWriteAllowed c.tenantRootId

/-- `ORDER BY updated_at, scheduled_at, id`, where a missing time comes last. -/
def updatedBefore (a b : Campaign) : Prop :=
  a.updatedAt < b.updatedAt ∨ (a.updatedAt = b.updatedAt ∧
    ((a.scheduledAt.isSome = true ∧ b.scheduledAt.isNone = true) ∨
      (a.scheduledAt.isSome = b.scheduledAt.isSome ∧
        (a.scheduledAt.getD 0 < b.scheduledAt.getD 0 ∨
          (a.scheduledAt.getD 0 = b.scheduledAt.getD 0 ∧ a.id ≤ b.id)))))
  deriving Decidable

def startSending : Campaign :=
  { c with
    status := .sending, startedAt := some (c.startedAt.getD now), updatedAt := now }

/-- `mailing_claim_campaigns_for_fanout`; `locked` are the rows other transactions hold. -/
def mailingClaimCampaignsForFanout (limit : Option Int)
    (locked : UUID → Bool) : Database × List UUID :=
  let claimed := (selectForUpdate (db.fanoutCandidate now) (fun c => locked c.id) updatedBefore
    (clampLimit (limit.getD 4) 100) db.campaigns).map (·.id)
  ({ db with
    campaigns := updateWhere (fun c => claimed.contains c.id) (startSending now) db.campaigns },
    claimed)

/-! ### One batch -/

/-- The recipients of a campaign, as both queries of the function have them. -/
def fanoutEligible (s : Subscriber) : Bool :=
  s.listId == c.listId && s.tenantRootId == c.tenantRootId && s.status == .active &&
  (c.tagFilter.isEmpty || db.tags.any fun st =>
    st.subscriberId == s.id && st.tenantRootId == s.tenantRootId &&
      c.tagFilter.contains (lower st.tag)) &&
  (!db.suppressions.any fun ms => ms.businessId == c.businessId && ms.email == s.email) &&
  !db.emailSuppressions.contains s.email

/-- `^[a-z0-9.-]+$`. -/
def validDomain (domain : String) : Bool :=
  domain != "" && domain.toList.all fun c =>
    ('a' ≤ c && c ≤ 'z') || ('0' ≤ c && c ≤ '9') || c == '.' || c == '-'

def campaignReady : Bool :=
  db.rootWriteAllowed c.tenantRootId && db.businessOperational c.businessId c.tenantRootId &&
  db.listOperational c.listId c.businessId c.tenantRootId &&
  db.profiles.any fun p =>
    c.profileId == some p.id && p.businessId == c.businessId && p.tenantRootId == c.tenantRootId &&
      p.status == .verified && p.feedbackStatus == .ready

/-- The locked row of the campaign, and the batch that was selected for it. -/
structure FanoutPlan where
  campaign : Campaign
  eligible : List Subscriber

variable (plan : FanoutPlan) (newId : UUID → UUID)

def FanoutPlan.last : Option UUID := Keyset.lastKey (·.id) plan.eligible

/-- How the function ends or goes on after its checks. -/
inductive FanoutStart where
  | returned (insertedCount : Nat) (fanoutDone : Bool)
  | inserting (plan : FanoutPlan)

def campaignOf (id : UUID) : Option Campaign := db.campaigns.find? fun c => c.id == id

/-- `mailing_fanout_batch` up to the selection of the batch. -/
def fanoutSelect (id : UUID) (batch : Option Int)
    (domain : Option String) : Except SqlError FanoutStart :=
  if !validDomain (lower (btrim (domain.getD ""))) then
    .error (.raised "invalid mailing message domain")
  else match db.campaignOf id with
    | none => .ok (.returned 0 true)
    | some c =>
      if c.status ≠ .sending ∨ c.fanoutDone = true then .ok (.returned 0 true)
      else if !db.campaignReady c then .ok (.returned 0 false)
      else .ok (.inserting ⟨c, Keyset.page (·.id) (fanoutEligible lower db c) c.fanoutCursor
        (clampLimit (batch.getD 250) 5000) db.subscribers⟩)

def newCampaignDelivery (s : Subscriber) : Delivery :=
  { id := newId s.id, businessId := c.businessId, tenantRootId := c.tenantRootId
    sourceKind := .campaign, sourceId := c.id, campaignId := some c.id, templateId := none
    subscriberId := s.id, email := s.email, status := .queued, attempts := 0, claimGeneration := 0
    notBefore := now, leaseUntil := none, providerMessageId := none, openedAt := none
    trackOpensOverride := none, trackClicksOverride := none, lastError := none, createdAt := now
    automationEnrollmentId := none, automationVersionId := none, automationClaimGeneration := none }

/-- `INSERT … SELECT … ON CONFLICT (source_kind, source_id, subscriber_id) DO NOTHING`. -/
def insertBatch (deliveries : List Delivery) : List Delivery :=
  insertAll Delivery.sourceKey (plan.eligible.map (newCampaignDelivery now plan.campaign newId))
    deliveries

/-- The `NOT EXISTS` of the update: no recipient is left above the batch. -/
def noneLeft (last : UUID) (c : Campaign) : Bool :=
  !db.subscribers.any fun ls => fanoutEligible lower db c ls && decide (last < ls.id)

def advanceCampaign (last : Option UUID) (recipients : Nat) (c : Campaign) : Campaign :=
  { c with
    fanoutCursor := Keyset.advance c.fanoutCursor last
    -- A batch that selected nobody ends the fan-out without another look.
    fanoutDone := last.all fun last => noneLeft lower db last c
    recipientCount := recipients
    updatedAt := now }

/-- The insertion of the batch and the update of the campaign, in the state `db` the update sees;
the result is what is committed. -/
def fanoutAdvance : Database × Nat :=
  let deliveries := insertBatch now plan newId db.deliveries
  let recipients := (deliveries.filter fun d => d.campaignId == some plan.campaign.id).length
  ({ db with
    deliveries
    campaigns := updateWhere (fun c => c.id == plan.campaign.id)
      (advanceCampaign lower db now plan.last recipients) db.campaigns },
    deliveries.length - db.deliveries.length)

end Database

end Manyforge
