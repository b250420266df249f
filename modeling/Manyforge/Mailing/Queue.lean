import Manyforge.Mailing.Feedback

/-!
# The delivery queue

The functions a send worker calls: it claims deliveries under a lease, renews the
lease before it sends, and releases, completes or fails the delivery with the
generation its claim returned. A campaign's deliveries that wait are cancelled
with it.
-/
namespace Manyforge

open Table

namespace Database

/-! ### Conditions -/

variable (db : Database) (now : Timestamp) (d : Delivery)

/-- The campaign of a delivery, joined on the tenant root. -/
def campaignIs (status : CampaignStatus) : Bool :=
  d.campaignId.any fun id => db.campaigns.any fun c =>
    c.id == id && c.tenantRootId == d.tenantRootId && c.status == status

/-- A step that sent the delivery, of an enrollment that was not given up, in an automation that
is active. -/
def hasStep (more : AutomationEnrollment → Bool) : Bool :=
  db.steps.any fun ast => ast.deliveryId == some d.id && db.enrollments.any fun ae =>
    ae.id == ast.enrollmentId && (ae.status == .active || ae.status == .completed) &&
      (db.automations.any fun a => a.id == ae.automationId && a.status == .active) && more ae

/-- `content_snapshot->'templates' ? template_id`. -/
def hasTemplate (v : AutomationVersion) (d : Delivery) : Bool :=
  v.contentSnapshot.any fun templates => d.templateId.any templates.contains

/-- The enrollment's version has the delivery's template. -/
def templateKept (ae : AutomationEnrollment) : Bool :=
  db.versions.any fun av => av.id == ae.versionId && hasTemplate av d

/-- A profile the delivery may be sent with. -/
def profileReady (campaignProfile : Option UUID) (p : SendingProfile) : Bool :=
  p.businessId == d.businessId && p.tenantRootId == d.tenantRootId &&
    campaignProfile.all (p.id == ·) && p.status == .verified && p.feedbackStatus == .ready

/-- `c.profile_id`, through the left join of the claim. -/
def campaignProfile : Option UUID :=
  d.campaignId.bind fun id => (db.campaigns.find? fun c =>
    c.id == id && c.tenantRootId == d.tenantRootId).bind (·.profileId)

/-! ### Claiming -/

def deliveryDue : Bool :=
  (d.status == .queued && d.notBefore ≤ now) ||
    (d.status == .sending && d.leaseUntil.any (· ≤ now))

/-- `cancelled_candidates`: the source of the delivery became inactive. -/
def sourceInactive : Bool :=
  (d.status == .queued || (d.status == .sending && d.leaseUntil.any (· ≤ now))) &&
  ((d.sourceKind == .campaign && db.campaignIs d .cancelled) ||
    (d.sourceKind == .automation && !db.hasStep d fun ae =>
      db.templateKept d ae &&
      (db.subscribers.any fun als =>
        als.id == ae.subscriberId && als.status == .active &&
          db.listOperational als.listId als.businessId als.tenantRootId) &&
      db.businessOperational ae.businessId ae.tenantRootId)) &&
  db.rootWriteAllowed d.tenantRootId

/-- The subscriber, joined on the tenant root. -/
def subscriberOf (s : Subscriber) : Bool :=
  s.id == d.subscriberId && s.tenantRootId == d.tenantRootId

/-- `ineligible_candidates`: the source still runs, but the subscriber cannot be mailed. -/
def subscriberIneligible : Bool :=
  deliveryDue now d &&
  ((d.sourceKind == .automation && db.hasStep d fun _ => true) || db.campaignIs d .sending) &&
  (db.subscribers.any fun s => subscriberOf d s &&
    (s.status != .active || !db.businessOperational d.businessId d.tenantRootId ||
      !db.listOperational s.listId s.businessId s.tenantRootId || db.suppressed d.businessId d.email)) &&
  db.rootWriteAllowed d.tenantRootId

/-- `candidates`. -/
def deliveryClaimable : Bool :=
  deliveryDue now d &&
  ((d.sourceKind == .automation && db.hasStep d fun ae => db.templateKept d ae) ||
    db.campaignIs d .sending) &&
  (db.subscribers.any fun s => subscriberOf d s && s.status == .active &&
    (db.lists.any fun l => l.id == s.listId && l.tenantRootId == s.tenantRootId) &&
    db.listOperational s.listId s.businessId s.tenantRootId) &&
  db.businessOperational d.businessId d.tenantRootId &&
  db.profiles.any (profileReady d (db.campaignProfile d)) && !db.suppressed d.businessId d.email &&
  db.rootWriteAllowed d.tenantRootId

def cancelsBefore (a b : Delivery) : Prop :=
  a.leaseUntil.getD a.notBefore < b.leaseUntil.getD b.notBefore ∨
    (a.leaseUntil.getD a.notBefore = b.leaseUntil.getD b.notBefore ∧ a.id ≤ b.id)
  deriving Decidable

/-- `ORDER BY not_before, created_at, id`. -/
def sendsBefore (a b : Delivery) : Prop :=
  a.notBefore < b.notBefore ∨ (a.notBefore = b.notBefore ∧
    (a.createdAt < b.createdAt ∨ (a.createdAt = b.createdAt ∧ a.id ≤ b.id)))
  deriving Decidable

/-- The three updates of the statement. -/
inductive ClaimChange where
  | cancel | suppress | claim
  deriving DecidableEq

def ClaimChange.apply (lease : Int) (d : Delivery) : ClaimChange → Delivery
  | cancel => { d with
      status := .cancelled, leaseUntil := none
      lastError := some "source became inactive before delivery" }
  | suppress => { d with
      status := .suppressed, leaseUntil := none
      lastError := some "subscriber became ineligible before send" }
  | claim => { d with
      status := .sending, attempts := d.attempts + 1, claimGeneration := d.claimGeneration + 1
      leaseUntil := some (now + leaseLength lease) }

/-- The arguments of `mailing_claim_deliveries` and what the rest of the system decides: the rows
other transactions hold, and which of several updates of one row takes effect (one does, and
the order of the subqueries is unspecified). -/
structure ClaimCall where
  now : Timestamp
  (limit lease : Int)
  locked : UUID → Bool
  prefer : UUID → ClaimChange

def claimCandidate : ClaimChange → Delivery → Bool
  | .cancel => db.sourceInactive now
  | .suppress => db.subscriberIneligible now
  | .claim => db.deliveryClaimable now

variable (call : ClaimCall) (id : UUID) (generation : Nat)

def claimTargets (change : ClaimChange) : List UUID :=
  let candidate := db.claimCandidate call.now change
  let held (d : Delivery) : Bool := call.locked d.id
  let limit := clampLimit call.limit 1000
  let selected := match change with
    | .cancel => selectForUpdate candidate held cancelsBefore limit db.deliveries
    | _ => selectForUpdate candidate held sendsBefore limit db.deliveries
  selected.map fun d => d.id

def claimChange : Option ClaimChange :=
  let selected (change : ClaimChange) : Bool := (db.claimTargets call change).contains id
  if selected (call.prefer id) then some (call.prefer id)
  else [ClaimChange.cancel, .suppress, .claim].find? selected

def claimRow (d : Delivery) : Delivery :=
  match db.claimChange call d.id with
  | none => d
  | some change => change.apply call.now call.lease d

/-- A row the claim returns, with the profile to send it with; the joins that only supply the
content of the message are left out. -/
structure ClaimedDelivery where
  delivery : Delivery
  profile : SendingProfile
  deriving DecidableEq

def mailingClaimDeliveries : Database × List ClaimedDelivery :=
  let claimed := (db.deliveries.filter fun d => db.claimChange call d.id == some .claim).map
    (db.claimRow call)
  let rows := claimed.flatMap fun d =>
    (db.subscribers.filter (subscriberOf d)).flatMap fun s =>
      (db.lists.filter fun l => l.id == s.listId && l.tenantRootId == s.tenantRootId).flatMap fun _ =>
        (db.profiles.filter (profileReady d (db.campaignProfile d))).map fun p => ⟨d, p⟩
  ({ db with deliveries := db.deliveries.map (db.claimRow call) }, rows)

/-! ### The calls with a generation -/

/-- The conditions `mailing_renew_delivery` puts on the rest of the database. -/
def deliverySendable : Bool :=
  db.businessOperational d.businessId d.tenantRootId &&
  (db.subscribers.any fun s =>
    s.id == d.subscriberId && s.businessId == d.businessId && s.tenantRootId == d.tenantRootId &&
      s.status == .active && (db.lists.any fun l =>
        l.id == s.listId && l.businessId == s.businessId && l.tenantRootId == s.tenantRootId &&
          db.listOperational l.id l.businessId l.tenantRootId)) &&
  (db.profiles.any (profileReady d (d.campaignId.bind fun id => (db.campaigns.find? fun c =>
    c.id == id && c.businessId == d.businessId && c.tenantRootId == d.tenantRootId).bind
      (·.profileId)))) &&
  ((d.sourceKind == .automation && (db.enrollments.any fun e =>
      d.automationEnrollmentId == some e.id && e.subscriberId == d.subscriberId &&
        d.automationVersionId == some e.versionId && e.businessId == d.businessId &&
        e.tenantRootId == d.tenantRootId && d.automationClaimGeneration == some e.claimGeneration &&
        (e.status == .active || e.status == .completed) &&
        (db.automations.any fun a =>
          a.id == e.automationId && a.businessId == e.businessId &&
            a.tenantRootId == e.tenantRootId && a.status == .active) &&
        (db.versions.any fun v =>
          v.id == e.versionId && v.automationId == e.automationId && v.businessId == e.businessId &&
            v.tenantRootId == e.tenantRootId && hasTemplate v d))) ||
   (d.sourceKind == .campaign && d.campaignId.any fun id => db.campaigns.any fun c =>
      c.id == id && c.businessId == d.businessId && c.tenantRootId == d.tenantRootId &&
        c.status == .sending)) &&
  !db.suppressed d.businessId d.email

/-- An update of the row a call with a generation names. -/
def updateHeld (also : Delivery → Bool) (change : Delivery → Delivery) : Database × Bool :=
  let chosen (d : Delivery) : Bool := db.heldBy id generation d && also d
  ({ db with deliveries := updateWhere chosen change db.deliveries }, db.deliveries.any chosen)

def mailingRenewDelivery (lease : Int) : Database × Bool :=
  db.updateHeld id generation db.deliverySendable fun d =>
    { d with leaseUntil := some (now + leaseLength lease) }

def mailingReleaseDelivery (notBefore : Option Timestamp) : Database × Bool :=
  db.updateHeld id generation (fun _ => true) fun d =>
    { d with
      status := .queued, attempts := d.attempts - 1, notBefore := max (notBefore.getD now) now
      leaseUntil := none }

/-- The values `p_status` may have. -/
inductive FailureStatus where
  | retry | failed | suppressed
  deriving DecidableEq

def FailureStatus.parse (text : String) : Option FailureStatus :=
  if text = "retry" then some retry
  else if text = "failed" then some failed
  else if text = "suppressed" then some suppressed
  else none

def FailureStatus.status : FailureStatus → DeliveryStatus
  | retry => .queued
  | failed => .failed
  | suppressed => .suppressed

def mailingFailDelivery (error : String) (status : String) (notBefore : Option Timestamp) :
    Except SqlError (Database × Bool) :=
  match FailureStatus.parse status with
  | none => .error (.raised "invalid delivery failure status")
  | some failure => .ok (db.updateHeld id generation (fun _ => true) fun d =>
      { d with
        status := failure.status
        notBefore := if failure.status = .queued then max (notBefore.getD now) now else d.notBefore
        leaseUntil := none, lastError := some (textLeft error 2000) })

/-- `mailing_cancel_campaign`; `authorized` are the businesses of the caller. The write-fence
trigger refuses rows of a fenced root. -/
def mailingCancelCampaign (campaign : UUID)
    (authorized : UUID → Bool) : Except SqlError (Database × Bool) :=
  let chosen (c : Campaign) : Bool :=
    c.id == campaign && (c.status == .scheduled || c.status == .sending) && authorized c.businessId
  let waits (d : Delivery) : Bool := d.campaignId == some campaign && d.status == .queued
  if db.campaigns.any chosen = false then .ok (db, false)
  else if (db.campaigns.any fun c => chosen c && !db.rootWriteAllowed c.tenantRootId) ||
      (db.deliveries.any fun d => waits d && !db.rootWriteAllowed d.tenantRootId) then
    .error (.raised "TENANT_MERGE_IN_PROGRESS")
  else
    .ok ({ db with
      campaigns := updateWhere chosen
        (fun c => { c with status := .cancelled, completedAt := some now, updatedAt := now })
        db.campaigns
      deliveries := updateWhere waits (fun d => { d with status := .cancelled }) db.deliveries },
      true)

/-! ### What the calls do to a row -/

section Rows

variable {db : Database} {call : ClaimCall}

theorem claimTargets_candidate {change : ClaimChange} {id : UUID}
    (selected : id ∈ db.claimTargets call change) :
    ∃ d ∈ db.deliveries, d.id = id ∧ db.claimCandidate call.now change d = true := by
  have chosen : ∀ (before : Delivery → Delivery → Prop) [DecidableRel before],
      id ∈ (selectForUpdate (db.claimCandidate call.now change) (fun d => call.locked d.id) before
        (clampLimit call.limit 1000) db.deliveries).map (fun d => d.id) →
      ∃ d ∈ db.deliveries, d.id = id ∧ db.claimCandidate call.now change d = true := by
    intro before _ member
    obtain ⟨d, picked, same⟩ := List.mem_map.mp member
    obtain ⟨member, candidate, -⟩ := mem_selectForUpdate picked
    exact ⟨d, member, same, candidate⟩
  cases change <;> exact chosen _ selected

theorem claimChange_selected {id : UUID} {change : ClaimChange}
    (changes : db.claimChange call id = some change) : id ∈ db.claimTargets call change := by
  simp only [claimChange] at changes
  split at changes
  next preferred =>
    obtain rfl := Option.some.inj changes
    simpa using preferred
  next => simpa using List.find?_some changes

section

variable (unique : UniqueOn (·.id) db.deliveries)

include unique

variable {d : Delivery}

theorem claimChange_candidate (member : d ∈ db.deliveries) {change : ClaimChange}
    (changes : db.claimChange call d.id = some change) : db.claimCandidate call.now change d = true := by
  obtain ⟨d', member', same, candidate⟩ := claimTargets_candidate (claimChange_selected changes)
  rwa [unique.eq_of_key member' member same] at candidate

omit unique in
theorem claimCandidate_open {now : Timestamp} {change : ClaimChange}
    (candidate : db.claimCandidate now change d = true) :
    d.status = .queued ∨ (d.status = .sending ∧ d.leaseUntil.any (· ≤ now) = true) := by
  cases change <;>
    simp only [claimCandidate, sourceInactive, subscriberIneligible, deliveryClaimable, deliveryDue,
      Bool.and_eq_true, Bool.or_eq_true, beq_iff_eq] at candidate <;>
    tauto

theorem claimRow_cases (member : d ∈ db.deliveries) :
    db.claimRow call d = d ∨ ∃ change, db.claimCandidate call.now change d = true ∧
      db.claimRow call d = change.apply call.now call.lease d := by
  unfold claimRow
  split
  next => exact .inl rfl
  next change changes => exact .inr ⟨change, claimChange_candidate unique member changes, rfl⟩

/-- What the claim returns: a row that was claimable, as it stands in the table now, with a profile
that may send it. -/
theorem mailingClaimDeliveries_returned {row : ClaimedDelivery}
    (returned : row ∈ (db.mailingClaimDeliveries call).2) :
    ∃ d ∈ db.deliveries, db.deliveryClaimable call.now d = true ∧
      row.delivery = ClaimChange.claim.apply call.now call.lease d ∧
      row.delivery ∈ (db.mailingClaimDeliveries call).1.deliveries ∧
      row.profile ∈ db.profiles ∧
      profileReady row.delivery (db.campaignProfile row.delivery) row.profile = true := by
  simp only [mailingClaimDeliveries, List.mem_flatMap, List.mem_map, List.mem_filter,
    beq_iff_eq] at returned
  obtain ⟨_, ⟨d, ⟨member, changes⟩, rfl⟩, _, _, _, _, p, ⟨p_mem, ready⟩, rfl⟩ := returned
  have applied : db.claimRow call d = ClaimChange.claim.apply call.now call.lease d := by
    simp [claimRow, changes]
  exact ⟨d, member, claimChange_candidate unique member changes, applied,
    List.mem_map.mpr ⟨d, member, rfl⟩, p_mem, ready⟩

end

theorem updateHeld_rows (db : Database) (id : UUID) (generation : Nat) (also : Delivery → Bool)
    (change : Delivery → Delivery) :
    RowByRow (fun d d' => d' = d ∨
      (db.heldBy id generation d = true ∧ also d = true ∧ d' = change d))
      db.deliveries (db.updateHeld id generation also change).1.deliveries := by
  refine .updateWhere (fun _ => .inl rfl) fun d _ chosen => .inr ?_
  simp only [Bool.and_eq_true] at chosen
  exact ⟨chosen.1, chosen.2, rfl⟩

end Rows

end Database

end Manyforge
