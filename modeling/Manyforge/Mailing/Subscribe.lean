import Manyforge.Mailing.Feedback

/-!
# Subscribing, confirming and unsubscribing

The functions behind the public form, the signed server-to-server API and the
links in a mail. A subscriber's profile (names, attributes, the evidence of
consent) is stored and never decided on, and is left out, as is the outbox.
-/
namespace Manyforge

open Table

inductive ConsentSource where
  | publicForm | api | csvImport | crm | manual
  deriving DecidableEq

/-- The arguments of `mailing_key_subscribe`. -/
structure SubscribeRequest where
  (keyId listId businessId tenantRootId : UUID)
  email : Email
  attributes : Option Json
  consentSource : ConsentSource
  consentAttestedBy : Option UUID
  skipConfirmation : Bool
  confirmTokenHash : Option Nat
  confirmExpiresAt : Option Timestamp

/-- What `mailing_public_subscribe` passes on, whatever the request says. -/
def SubscribeRequest.asPublicForm (r : SubscribeRequest) : SubscribeRequest :=
  { r with consentSource := .publicForm, consentAttestedBy := none, skipConfirmation := false }

structure SubscribeAnswer where
  subscriberId : UUID
  created : Bool
  subscriberStatus : SubscriberStatus
  deriving DecidableEq

def Json.isObject : Json → Bool
  | .object _ => true
  | _ => false

namespace Database

/-! ### Lookups -/

variable (db : Database) (now : Timestamp) (r : SubscribeRequest)

/-- The list a key opens: the key is enabled and the list is operational. -/
def resolveKey : Option MailingList :=
  db.lists.find? fun l =>
    (db.listKeys.any fun k =>
      k.id == r.keyId && k.listId == r.listId && k.businessId == r.businessId &&
        k.tenantRootId == r.tenantRootId && k.status == .enabled &&
        l.id == k.listId && l.businessId == k.businessId && l.tenantRootId == k.tenantRootId) &&
    (db.businesses.any fun b => b.id == l.businessId && b.tenantRootId == l.tenantRootId) &&
    db.listOperational l.id l.businessId l.tenantRootId

/-- The unique row of an address on a list. -/
def subscriptionOf (list : UUID) (email : Email) : Option Subscriber :=
  db.subscribers.find? fun s => s.listId == list && s.email == email

/-- Whether the business has any suppression of the address. -/
def suppressedBy (business : UUID) (email : Email) : Bool :=
  db.suppressions.any fun ms => ms.businessId == business && ms.email == email

/-- Whether it has one that is not an unsubscribe. -/
def blockedBy (business : UUID) (email : Email) : Bool :=
  db.suppressions.any fun ms =>
    ms.businessId == business && ms.email == email && ms.reason != .unsubscribe

/-- `DELETE FROM mailing_suppression … AND reason = 'unsubscribe'`. -/
def liftUnsubscribe (business : UUID) (email : Email) (rows : List MailingSuppression) :
    List MailingSuppression :=
  rows.filter fun ms =>
    !(ms.businessId == business && ms.email == email && ms.reason == .unsubscribe)

/-! ### Subscribing -/

/-- The status asked for: a public form never activates a suppressed address. -/
def desiredStatus (doubleOptIn : Bool) : SubscriberStatus :=
  if r.consentSource = .publicForm ∧ db.suppressedBy r.businessId r.email = true then .pending
  else if r.skipConfirmation || !doubleOptIn then .active
  else .pending

variable (desired : SubscriberStatus) (newId : UUID) (row : Subscriber)

/-- A pending row has to carry a token. -/
def lacksToken : Bool :=
  desired == .pending && (r.confirmTokenHash.isNone || r.confirmExpiresAt.isNone)

def newSubscriber : Subscriber :=
  { id := newId, businessId := r.businessId, tenantRootId := r.tenantRootId, listId := r.listId
    email := r.email, status := desired, statusReason := none
    confirmTokenHash := if desired = .pending then r.confirmTokenHash else none
    confirmExpiresAt := if desired = .pending then r.confirmExpiresAt else none
    confirmedAt := if desired = .active then some now else none
    unsubscribedAt := none }

def insertSubscriber : Except SqlError (Database × Option SubscribeAnswer) :=
  if db.subscribers.any fun s => s.id == newId then
    .error (.uniqueViolation "list_subscriber_pkey")
  else if lacksToken r desired then
    .error (.raised "pending subscription requires confirmation token")
  else
    .ok ({ db with subscribers := db.subscribers ++ [newSubscriber now r desired newId] },
      some ⟨newId, true, desired⟩)

/-- Whether a subscription to an existing row changes it. A public form cannot reopen an address
that bounced, complained or was blocked by hand. -/
def reopens : Bool :=
  (row.status == .unsubscribed || row.status == .pending) &&
    !(r.consentSource == .publicForm && db.blockedBy row.businessId row.email)

def resubscribed : Subscriber :=
  { row with
    status := desired
    confirmTokenHash := if desired = .pending then r.confirmTokenHash else none
    confirmExpiresAt := if desired = .pending then r.confirmExpiresAt else none
    confirmedAt := if desired = .active then some now else row.confirmedAt
    unsubscribedAt := if desired = .active then none else row.unsubscribedAt
    statusReason := if row.status = .unsubscribed ∧ desired = .pending then
        some "reactivation_pending"
      else if desired = .active then none else row.statusReason }

/-- The second `v_desired`: a public form asks for confirmation again, whatever the list says. -/
def redesired (desired : SubscriberStatus) : SubscriberStatus :=
  if r.consentSource = .publicForm ∧ (row.status = .unsubscribed ∨ row.status = .pending) then
    .pending
  else desired

def resubscribe : Except SqlError (Database × Option SubscribeAnswer) :=
  let desired := redesired r row desired
  if lacksToken r desired then
    .error (.raised "pending subscription requires confirmation token")
  else if db.reopens r row then
    .ok ({ db with
        subscribers := updateWhere (fun s => s.id == row.id) (resubscribed now r desired)
          db.subscribers
        -- A signed reactivation is consent enough to lift the unsubscribe.
        suppressions := if r.consentSource = .api ∧ desired = .active then
            liftUnsubscribe r.businessId r.email db.suppressions
          else db.suppressions },
      some ⟨row.id, false, desired⟩)
  else .ok (db, some ⟨row.id, false, row.status⟩)

/-- `mailing_key_subscribe`. `newId` is what `gen_random_uuid()` gives the new row. -/
def mailingKeySubscribe : Except SqlError (Database × Option SubscribeAnswer) :=
  match db.resolveKey r with
  | none => .ok (db, none)
  | some list =>
    if r.consentSource ≠ .publicForm ∧ r.consentSource ≠ .api then
      .error (.raised "invalid public mailing consent source")
    else if r.consentSource = .publicForm ∧ r.consentAttestedBy.isSome then
      .error (.raised "public form cannot carry an attestor")
    else if r.consentSource = .api ∧ r.consentAttestedBy ≠ some r.keyId then
      .error (.raised "api consent must be attested by the list key")
    else if !(r.attributes.getD (.object [])).isObject then
      .error (.raised "attributes must be an object")
    else
      let desired := db.desiredStatus r list.doubleOptIn
      -- The row is checked before the conflict with an existing one is looked for.
      if desired = .pending ∧ r.confirmTokenHash.isSome ≠ r.confirmExpiresAt.isSome then
        .error (.checkViolation "list_subscriber_confirm_chk")
      else match db.subscriptionOf r.listId r.email with
        | none => db.insertSubscriber now r desired newId
        | some row => db.resubscribe now r desired row

def mailingPublicSubscribe : Except SqlError (Database × Option SubscribeAnswer) :=
  db.mailingKeySubscribe now r.asPublicForm newId

/-! ### Confirming -/

/-- The `WHERE` of `mailing_confirm`. -/
def confirmable (hash : Nat) (s : Subscriber) : Bool :=
  (db.lists.any fun l =>
    s.listId == l.id && s.businessId == l.businessId && s.tenantRootId == l.tenantRootId &&
      l.status == .active &&
      db.businesses.any fun b =>
        b.id == l.businessId && b.tenantRootId == l.tenantRootId && b.status == .active &&
          b.deletedAt.isNone) &&
  s.confirmTokenHash == some hash && s.status == .pending &&
  (s.confirmExpiresAt.any fun expiresAt => now < expiresAt) &&
  !db.blockedBy s.businessId s.email

def confirmedRow (s : Subscriber) : Subscriber :=
  { s with
    status := .active, confirmTokenHash := none, confirmExpiresAt := none
    confirmedAt := some now, unsubscribedAt := none, statusReason := none }

def mailingConfirm (hash : Nat) : Database × Nat :=
  match db.subscribers.find? (db.confirmable now hash) with
  | none => (db, 0)
  | some row =>
    ({ db with
      subscribers := updateWhere (fun s => s.id == row.id) (confirmedRow now) db.subscribers
      suppressions := liftUnsubscribe row.businessId row.email db.suppressions }, 1)

/-! ### Unsubscribing -/

def unsubscribedRow (reason : Option String) (s : Subscriber) : Subscriber :=
  { s with
    status := .unsubscribed, unsubscribedAt := some now
    confirmTokenHash := none, confirmExpiresAt := none
    statusReason := some (textLeft (nonEmptyOr (btrim (reason.getD "")) "unsubscribe") 255) }

/-- `ON CONFLICT (business_id, email) DO UPDATE` of an unsubscribe, which keeps a bounce as well as
a complaint. -/
def upsertUnsubscribe (new : MailingSuppression) (rows : List MailingSuppression) :
    List MailingSuppression :=
  if rows.any fun s => s.businessId == new.businessId && s.email == new.email then
    updateWhere (fun s => s.businessId == new.businessId && s.email == new.email)
      (fun s => if s.reason = .bounce ∨ s.reason = .complaint then s
        else { s with reason := .unsubscribe, source := new.source }) rows
  else rows ++ [new]

def mailingUnsubscribe (subscriber : UUID)
    (campaign : Option UUID) (reason : Option String) : Database × Nat :=
  match db.subscribers.find? fun s => s.id == subscriber with
  | none => (db, 0)
  | some row =>
    ({ db with
      subscribers := if row.status = .unsubscribed then db.subscribers
        else updateWhere (fun s => s.id == row.id) (unsubscribedRow now reason) db.subscribers
      suppressions := upsertUnsubscribe
        { businessId := row.businessId, tenantRootId := row.tenantRootId, email := row.email
          reason := .unsubscribe
          source := if campaign.getD 0 = 0 then "list_unsubscribe" else "campaign_unsubscribe" }
        db.suppressions }, 1)

def mailingS2sUnsubscribe (list : UUID) (email : Email) : Database × Nat :=
  match db.subscribers.find? fun s =>
      s.email == email && db.lists.any fun l =>
        l.id == list && s.listId == l.id && s.businessId == l.businessId &&
          s.tenantRootId == l.tenantRootId with
  | none => (db, 0)
  | some row => db.mailingUnsubscribe now row.id none (some "s2s_api")

/-- A tracking event without a provider's payload, recorded once for a delivery. -/
def recordOnce (d : Delivery) (kind : TrackKind) (now : Timestamp) (rows : List TrackingEvent) :
    List TrackingEvent :=
  if rows.any fun e => e.deliveryId == d.id && e.kind == kind then rows
  else rows ++
    [{ businessId := d.businessId, tenantRootId := d.tenantRootId, campaignId := d.campaignId
       deliveryId := d.id, subscriberId := d.subscriberId, kind, url := none
       providerPayload := none, occurredAt := now }]

def mailingRecordUnsubscribe (subscriber campaign : UUID) : Database × Bool :=
  match db.deliveries.find? fun d =>
      d.campaignId == some campaign && d.subscriberId == subscriber with
  | none => (db, false)
  | some d =>
    ({ db with trackingEvents := recordOnce d .unsubscribe now db.trackingEvents }, true)

/-- `Service.Unsubscribe`, once the token of the link is verified. -/
def unsubscribe (subscriber campaign : UUID) : Database :=
  let (db, _) := db.mailingUnsubscribe now subscriber (some campaign) (some "link")
  (db.mailingRecordUnsubscribe now subscriber campaign).1

/-! ### Relay bounces -/

def relayBounced (d : Delivery) : Delivery :=
  if d.status = .bounced ∨ d.status = .complained then d
  else { d with
    status := .bounced, leaseUntil := none, lastError := some "relay hard bounce" }

def relayMarked (s : Subscriber) : Subscriber :=
  if s.status = .complained then s
  else { s with status := .bounced, statusReason := some "relay hard bounce" }

/-- `mailing_mark_bounced`; `named` is the comparison with the `message_id` of a delivery. -/
def mailingMarkBounced (named : Delivery → Bool) : Database × Bool :=
  match db.deliveries.find? named with
  | none => (db, false)
  | some d =>
    ({ db with
      deliveries := updateWhere (fun x => x.id == d.id) relayBounced db.deliveries
      suppressions := upsertSuppression
        { businessId := d.businessId, tenantRootId := d.tenantRootId, email := d.email
          reason := .bounce, source := "relay" } db.suppressions
      subscribers := updateWhere (fun s => s.id == d.subscriberId) relayMarked db.subscribers
      trackingEvents := recordOnce d .bounce now db.trackingEvents }, true)

/-- `InsertSuppression`, into the bounce list of all tenants. -/
def insertSuppression (email : Email) : Database :=
  if db.emailSuppressions.contains email then db
  else { db with emailSuppressions := db.emailSuppressions ++ [email] }

/-- `SuppressBounce`, without the mark on a support message; `named` when the report has a message
id. A mailing bounce stays with the business, any other goes to the list of all tenants. -/
def suppressBounce (recipient : Email) (named : Option (Delivery → Bool)) : Database :=
  match named with
  | none => db.insertSuppression recipient
  | some named =>
    let (db, matched) := db.mailingMarkBounced now named
    if matched then db else db.insertSuppression recipient

end Database

end Manyforge
