import Manyforge.Automations.Store
import Mathlib.Algebra.GroupWithZero.Nat

/-!
# Provider feedback

The functions that store, correlate and apply the events of a provider's
webhooks, and the completion of a delivery, which applies the events that arrived
before it. The activity feed and the rollup queue, which these functions also
write, are left out.
-/
namespace Manyforge

open Table

/-- The labels of `mailing_track_kind`. -/
def TrackKind.text : TrackKind → String
  | .opened => "open"
  | .click => "click"
  | .unsubscribe => "unsubscribe"
  | .delivered => "delivered"
  | .bounce => "bounce"
  | .complaint => "complaint"

namespace Database

/-! ### One event -/

variable (db : Database) (now : Timestamp)

/-- The delivery an event of a profile's webhook is about. -/
def correlates (profile : UUID) (messageId : String) (recipient : Email) (d : Delivery) : Bool :=
  (db.profiles.any fun p =>
    p.id == profile && p.businessId == d.businessId && p.tenantRootId == d.tenantRootId) &&
  (d.campaignId.all fun id => db.campaigns.any fun c =>
    c.id == id && c.tenantRootId == d.tenantRootId && c.profileId == some profile) &&
  d.providerMessageId == some messageId && d.email == recipient &&
  db.rootWriteAllowed d.tenantRootId

def feedbackStatus : TrackKind → DeliveryStatus
  | .delivered => .delivered
  | .bounce => .bounced
  | _ => .complained

/-- The `CASE` of the delivery's status. -/
def mergeDeliveryStatus (new old : DeliveryStatus) : DeliveryStatus :=
  if old = .complained then old
  else if new = .complained then new
  else if old = .bounced then old
  else if new = .bounced then new
  else if (old = .sent ∨ old = .delivered) ∧ new = .delivered then new
  else old

/-- The two `CASE`s of the subscriber's row: a complaint stays. -/
def markSubscriber (kind : TrackKind) (s : Subscriber) : Subscriber :=
  { s with
    status := if s.status = .complained then s.status
      else if kind = .complaint then .complained else .bounced
    statusReason := if s.status = .complained then s.statusReason
      else some ("provider " ++ kind.text) }

/-- `INSERT INTO mailing_suppression … ON CONFLICT (business_id, email) DO UPDATE`, which keeps a
complaint. -/
def upsertSuppression (new : MailingSuppression) (rows : List MailingSuppression) :
    List MailingSuppression :=
  if rows.any fun s => s.businessId == new.businessId && s.email == new.email then
    updateWhere (fun s => s.businessId == new.businessId && s.email == new.email)
      (fun s => if s.reason = .complaint then s
        else { s with reason := new.reason, source := new.source }) rows
  else rows ++ [new]

def providerSuppression (d : Delivery) (kind : TrackKind) : MailingSuppression :=
  { businessId := d.businessId, tenantRootId := d.tenantRootId, email := d.email
    reason := if kind = .complaint then .complaint else .bounce
    source := "provider_webhook" }

/-- A provider event of this kind has been applied to the delivery. -/
def feedbackTracked (delivery : UUID) (kind : TrackKind) : Bool :=
  db.trackingEvents.any fun e =>
    e.deliveryId == delivery && e.kind == kind && e.providerPayload.isSome

/-- The writes of `mailing_apply_provider_event_internal` for a delivery. -/
def applyFeedback (payload : ProviderPayload) (d : Delivery)
    (kind : TrackKind) (occurredAt : Option Timestamp) : Database :=
  { db with
    deliveries := updateWhere (fun x => x.id == d.id)
      (fun x => { x with status := mergeDeliveryStatus (feedbackStatus kind) x.status })
      db.deliveries
    trackingEvents := db.trackingEvents ++
      [{ businessId := d.businessId, tenantRootId := d.tenantRootId, campaignId := d.campaignId
         deliveryId := d.id, subscriberId := d.subscriberId, kind, url := none
         providerPayload := some payload, occurredAt := occurredAt.getD now }]
    suppressions := if kind = .bounce ∨ kind = .complaint then
        upsertSuppression (providerSuppression d kind) db.suppressions
      else db.suppressions
    subscribers := if kind = .bounce ∨ kind = .complaint then
        updateWhere (fun s => s.id == d.subscriberId) (markSubscriber kind) db.subscribers
      else db.subscribers }

def mailingApplyProviderEventInternal (payload : ProviderPayload)
    (event : NormalizedEvent) : Database × Bool :=
  match db.deliveries.find?
      (db.correlates payload.providerProfileId event.providerMessageId event.recipient) with
  | none => (db, false)
  | some d =>
    if db.feedbackTracked d.id event.kind then (db, true)
    else (db.applyFeedback now payload d event.kind event.occurredAt, true)

/-! ### One webhook -/

def applyEvents (now : Timestamp) (payload : ProviderPayload) :
    List NormalizedEvent → Database → Except SqlError Database
  | [], db => .ok db
  | event :: rest, db =>
    match db.mailingApplyProviderEventInternal now payload event with
    | (_, false) => .error (.raised "provider event correlation changed during apply")
    | (db, true) => applyEvents now payload rest db

def deleteWebhook (id : UUID) : Database :=
  { db with webhooks := db.webhooks.filter fun w => w.id != id }

def mailingApplyPendingWebhook (id : UUID) : Except SqlError (Database × Bool) :=
  match db.webhooks.find? fun w => w.id == id with
  | none => .ok (db, false)
  | some w =>
    if w.processingStatus = .applied then .ok (db, true)
    else if w.expiresAt ≤ now then .ok (db.deleteWebhook w.id, false)
    else if w.normalizedEvents.any fun event =>
        !db.deliveries.any (db.correlates w.profileId event.providerMessageId event.recipient) then
      .ok (db, false)
    else match applyEvents now ⟨w.id, w.profileId, w.externalEventId⟩ w.normalizedEvents db with
      | .error error => .error error
      | .ok db => .ok (db.deleteWebhook w.id, true)

/-! ### Admission -/

inductive WebhookOutcome where
  | ignored | applied | pending | full
  deriving DecidableEq

/-- The arguments of `mailing_process_provider_webhook`; the sizes are those of the two JSON
documents as text. -/
structure WebhookRequest where
  profileId : UUID
  provider : SendMode
  eventId : String
  (envelopeBytes eventsBytes : Nat)
  events : List NormalizedEvent

variable (r : WebhookRequest)

def blank (s : String) : Bool := s.toList.all (· == ' ')

/-- The checks of the arguments. -/
def WebhookRequest.wellFormed : Bool :=
  !blank r.eventId && r.eventId.length ≤ 500 && (r.provider == .resend || r.provider == .ses) &&
  r.envelopeBytes ≤ 262144 && 1 ≤ r.events.length && r.events.length ≤ 50 &&
  r.eventsBytes ≤ 65536 &&
  r.events.all fun event =>
    !blank event.providerMessageId && event.providerMessageId.length ≤ 500 &&
    !blank event.recipient && event.recipient.length ≤ 320 &&
    (event.kind == .delivered || event.kind == .bounce || event.kind == .complaint)

def expiresBefore (a b : ProviderWebhook) : Prop :=
  a.expiresAt < b.expiresAt ∨ (a.expiresAt = b.expiresAt ∧ a.id ≤ b.id)
  deriving Decidable

/-- Delete at most `limit` of the chosen webhooks that have expired and are not locked. -/
def deleteExpired (chosen locked : ProviderWebhook → Bool) (limit : Nat) : Database :=
  let expired := (selectForUpdate (fun w => chosen w && w.expiresAt ≤ now) locked expiresBefore limit
    db.webhooks).map (·.id)
  { db with webhooks := db.webhooks.filter fun w => !expired.contains w.id }

/-- `v_now + CASE p_provider …`. -/
def webhookLifetime (provider : SendMode) : Int :=
  if provider = .ses then seconds (25 * 86400) else seconds (7 * 86400)

/-- Every event is known to have been applied to its delivery. -/
def factsTracked (p : SendingProfile) (events : List NormalizedEvent) : Bool :=
  events.all fun event => db.deliveries.any fun d =>
    d.businessId == p.businessId && d.tenantRootId == p.tenantRootId &&
    (d.campaignId.all fun id => db.campaigns.any fun c =>
      c.id == id && c.tenantRootId == d.tenantRootId && c.profileId == some p.id) &&
    d.providerMessageId == some event.providerMessageId && d.email == event.recipient &&
    db.rootWriteAllowed d.tenantRootId && db.feedbackTracked d.id event.kind

/-- The profile's webhooks that wait, and their size. -/
def pendingWebhooks (profile : UUID) (now : Timestamp) : List ProviderWebhook :=
  db.webhooks.filter fun w =>
    w.profileId == profile && w.processingStatus == .pending && now < w.expiresAt

def newWebhook (p : SendingProfile) (id : UUID) (now : Timestamp) : ProviderWebhook :=
  { id, businessId := p.businessId, tenantRootId := p.tenantRootId, profileId := p.id
    provider := r.provider, externalEventId := r.eventId, normalizedEvents := r.events
    payloadBytes := r.envelopeBytes + r.eventsBytes, processingStatus := .pending, receivedAt := now
    expiresAt := now + webhookLifetime r.provider }

/-- The row `ON CONFLICT (profile_id, external_event_id)` finds. -/
def sameEvent (profile : UUID) (eventId : String) (w : ProviderWebhook) : Bool :=
  w.profileId == profile && w.externalEventId == eventId

/-- Apply the webhook that is stored now, or keep it within the profile's quota. -/
def settleWebhook (profile stored : UUID) (inserted : Bool) :
    Except SqlError (Database × WebhookOutcome) :=
  match db.mailingApplyPendingWebhook now stored with
  | .error error => .error error
  | .ok (db, true) => .ok (db, .applied)
  | .ok (db, false) =>
    let waiting := db.pendingWebhooks profile now
    if waiting.length > 256 ∨ (waiting.map (·.payloadBytes)).sum > 8388608 then
      .ok (if inserted then db.deleteWebhook stored else db, .full)
    else .ok (db, .pending)

def admitWebhook (p : SendingProfile)
    (newId : UUID) : Except SqlError (Database × WebhookOutcome) :=
  if db.webhooks.any (sameEvent p.id r.eventId) then
    match db.webhooks.find? fun w => sameEvent r.profileId r.eventId w && now < w.expiresAt with
    | none => .ok (db, .ignored)
    | some w => db.settleWebhook now r.profileId w.id false
  else if db.webhooks.any fun w => w.id == newId then
    .error (.uniqueViolation "mailing_provider_webhook_delivery_pkey")
  else
    let db := { db with webhooks := db.webhooks ++ [newWebhook r p newId now] }
    db.settleWebhook now r.profileId newId true

def mailingProcessProviderWebhook (newId : UUID) (locked : ProviderWebhook → Bool) :
    Except SqlError (Database × WebhookOutcome) :=
  if r.wellFormed = false then .ok (db, .ignored)
  else match db.profiles.find? fun p =>
      p.id == r.profileId && p.mode == r.provider && db.rootWriteAllowed p.tenantRootId with
    | none => .ok (db, .ignored)
    | some p =>
      let db := { db with
        webhooks := db.webhooks.filter fun w =>
          !(sameEvent r.profileId r.eventId w && w.expiresAt ≤ now) }
      let db := db.deleteExpired now (fun w => w.profileId == r.profileId) locked 256
      if p.status ≠ .verified ∨ db.businessOperational p.businessId p.tenantRootId = false then
        .ok (db, .ignored)
      else if db.trackingEvents.any fun e => e.providerPayload.any fun payload =>
          payload.providerProfileId == r.profileId && payload.externalEventId == r.eventId then
        .ok (db, .applied)
      else if db.factsTracked p r.events then .ok (db, .applied)
      else db.admitWebhook now r p newId

/-! ### Completion -/

def receivedBefore (a b : ProviderWebhook) : Prop :=
  a.receivedAt < b.receivedAt ∨ (a.receivedAt = b.receivedAt ∧ a.id ≤ b.id)
  deriving Decidable

def ofBusiness (business root : UUID) (w : ProviderWebhook) : Bool :=
  db.profiles.any fun p => p.id == w.profileId && p.businessId == business && p.tenantRootId == root

/-- The pending webhooks that name the message and its recipient, at most 100. -/
def waitingFor (messageId : String) (d : Delivery) (locked : ProviderWebhook → Bool) : List UUID :=
  (selectForUpdate
    (fun w => db.ofBusiness d.businessId d.tenantRootId w && w.processingStatus == .pending &&
      now < w.expiresAt && w.normalizedEvents.any fun event =>
        event.providerMessageId == messageId && event.recipient == d.email)
    locked receivedBefore 100 db.webhooks).map (·.id)

/-- The loop over them; what each call answers is not looked at. -/
def applyWaiting (now : Timestamp) : List UUID → Database → Except SqlError Database
  | [], db => .ok db
  | id :: rest, db =>
    match db.mailingApplyPendingWebhook now id with
    | .error error => .error error
    | .ok (db, _) => applyWaiting now rest db

/-- The row a worker's call names: still `sending`, with the call's generation, under a root that
may be written. -/
def heldBy (id : UUID) (generation : Nat) (d : Delivery) : Bool :=
  d.id == id && d.status == .sending && d.claimGeneration == generation &&
    db.rootWriteAllowed d.tenantRootId

def sentRow (messageId : String) (d : Delivery) : Delivery :=
  { d with
    status := .sent, providerMessageId := some messageId, leaseUntil := none, lastError := none }

def mailingCompleteDelivery (id : UUID) (generation : Nat)
    (messageId : String) (locked : ProviderWebhook → Bool) : Except SqlError (Database × Bool) :=
  match db.deliveries.find? (db.heldBy id generation) with
  | none => .ok (db, false)
  | some held =>
    let d := sentRow messageId held
    let sent := { db with
      deliveries := updateWhere (db.heldBy id generation) (sentRow messageId) db.deliveries }
    let kept := sent.deleteExpired now (sent.ofBusiness d.businessId d.tenantRootId) locked 256
    match applyWaiting now (kept.waitingFor now messageId d locked) kept with
    | .error error => .error error
    | .ok db => .ok (db, true)

end Database

end Manyforge
