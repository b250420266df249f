import Manyforge.Automations.Engine

/-!
# The automation functions of the database

The `SECURITY DEFINER` functions behind the engine's ports and the stepper's
claim, and the lifecycle statements of the automation service, each as one
function of the database. An exception is an `Except` error and aborts the
transaction that called the function.
-/
namespace Manyforge

open Table

inductive SqlError where
  | checkViolation (constraint : String)
  | uniqueViolation (constraint : String)
  | foreignKeyViolation (constraint : String)
  | raised (message : String)
  | transactionAborted

def SqlError.text : SqlError → String
  | checkViolation constraint => "violates check constraint " ++ constraint
  | uniqueViolation constraint => "violates unique constraint " ++ constraint
  | foreignKeyViolation constraint => "violates foreign key constraint " ++ constraint
  | raised message => message
  | transactionAborted => "current transaction is aborted"

def seconds (n : Int) : Int := n * 1000000

/-- `GREATEST(1, LEAST(p_limit, most))`. -/
def clampLimit (limit most : Int) : Nat := (max 1 (min limit most)).toNat

/-- `GREATEST(p_lease, interval '10 seconds')`. -/
def leaseLength (lease : Int) : Int := max lease (seconds 10)

namespace Database

variable (db : Database) (now : Timestamp) (automation business root : UUID)
  (r : StepRecord) (enrollment : UUID) (e : AutomationEnrollment)

/-- The joins and conditions on the rest of the database that `automation_execution_fence` and
`automation_claim_due` both put on an enrollment. The joined tables meet only in the
enrollment, so the join is non-empty when each of them has a row. -/
def enrollmentRunnable : Bool :=
  (db.automations.any fun a =>
    a.id == e.automationId && a.businessId == e.businessId && a.tenantRootId == e.tenantRootId &&
      a.status == .active) &&
  (db.versions.any fun v =>
    v.id == e.versionId && v.automationId == e.automationId && v.businessId == e.businessId &&
      v.tenantRootId == e.tenantRootId && v.contentSnapshot.isSome) &&
  (db.subscribers.any fun s =>
    s.id == e.subscriberId && s.businessId == e.businessId && s.tenantRootId == e.tenantRootId &&
      s.status == .active && db.listOperational s.listId s.businessId s.tenantRootId) &&
  db.businessOperational e.businessId e.tenantRootId &&
  db.rootWriteAllowed e.tenantRootId

/-- `automation_execution_fence`; a `none` argument is not compared. -/
def automationExecutionFence (generation : Nat) (business root subscriber : Option UUID) : Bool :=
  db.enrollments.any fun e =>
    e.id == enrollment && e.status == .active && e.claimGeneration == generation &&
      business.all (e.businessId == ·) && root.all (e.tenantRootId == ·) &&
      subscriber.all (e.subscriberId == ·) && db.enrollmentRunnable e

/-! ### Claiming -/

structure ClaimedRow where
  enrollment : AutomationEnrollment
  graph : Graph

def claimable : Bool :=
  e.status == .active && e.wakeAt.any (· ≤ now) && e.leaseExpiresAt.all (· ≤ now) &&
    db.enrollmentRunnable e

def claimEnrollment (lease : Int) (e : AutomationEnrollment) : AutomationEnrollment :=
  { e with
    leaseExpiresAt := some (now + leaseLength lease), claimGeneration := e.claimGeneration + 1 }

/-- `ORDER BY wake_at, id`. -/
def wakesBefore (a b : AutomationEnrollment) : Prop :=
  a.wakeAt.getD 0 < b.wakeAt.getD 0 ∨ (a.wakeAt.getD 0 = b.wakeAt.getD 0 ∧ a.id ≤ b.id)
  deriving Decidable

/-- `automation_claim_due`; `locked` are the rows another transaction holds. -/
def automationClaimDue (limit : Int) (lease : Int)
    (locked : UUID → Bool) : Database × List ClaimedRow :=
  let candidates := (selectForUpdate (db.claimable now) (fun e => locked e.id) wakesBefore
    (clampLimit limit 1000) db.enrollments).map (·.id)
  let enrollments :=
    updateWhere (fun e => candidates.contains e.id) (claimEnrollment now lease) db.enrollments
  let claimed := (enrollments.filter fun e => candidates.contains e.id).insertionSort wakesBefore
  let rows := claimed.flatMap fun e =>
    (db.versions.filter fun v =>
      v.id == e.versionId && v.automationId == e.automationId && v.businessId == e.businessId &&
        v.tenantRootId == e.tenantRootId).map fun v => ⟨e, v.graph⟩
  ({ db with enrollments }, rows)

/-! ### Recording a step -/

def stepCompleted (node : String) : Bool :=
  db.steps.any fun s => s.key == (enrollment, node) && s.completedAt.isSome

/-- The row `automation_record_step` inserts. -/
def newStep (r : StepRecord) : EnrollmentStep :=
  { businessId := e.businessId, tenantRootId := e.tenantRootId, enrollmentId := e.id
    versionId := e.versionId, nodeId := r.nodeId, nodeKind := r.nodeKind
    attempt := e.nodeAttempts + 1, enteredAt := r.recordedAt
    completedAt := if r.outcome = .entered ∨ r.outcome = .waiting then none else some r.recordedAt
    outcome := r.outcome, deliveryId := r.deliveryId, detail := r.detail }

/-- `ON CONFLICT (enrollment_id, node_id) DO UPDATE SET …`. -/
def mergeStep (new old : EnrollmentStep) : EnrollmentStep :=
  { old with
    nodeKind := new.nodeKind, attempt := max old.attempt new.attempt
    completedAt := old.completedAt.or new.completedAt, outcome := new.outcome
    deliveryId := new.deliveryId.or old.deliveryId, detail := new.detail }

def upsertStep (new : EnrollmentStep) (steps : List EnrollmentStep) : List EnrollmentStep :=
  if steps.any fun s => s.key == new.key then
    updateWhere (fun s => s.key == new.key) (mergeStep new) steps
  else steps ++ [new]

/-- The `UPDATE automation_enrollment` of `automation_record_step`. -/
def applyRecord : AutomationEnrollment :=
  { e with
    status := r.status
    currentNodeId := if r.status = .active then r.nextNodeId.or e.currentNodeId else none
    wakeAt := if r.status = .active then some (r.wakeAt.getD r.recordedAt) else none
    leaseExpiresAt := none, nodeAttempts := 0, lastError := none
    exitReason := if r.status = .exited then
        some (textLeft (nonEmptyOr (r.detail.reason.getD "") "subscriber_inactive") 200)
      else e.exitReason
    finishedAt := if r.status = .active then none else some r.recordedAt }

/-- `automation_record_step`, with the `CHECK` constraints on node ids and kinds. -/
def automationRecordStep : Except SqlError (Database × Bool) :=
  if db.automationExecutionFence r.enrollmentId r.claimGeneration none none none = false then
    .ok (db, false)
  else match db.enrollments.find? fun e => e.id == r.enrollmentId with
    | none => .ok (db, false)
    | some e =>
      if db.stepCompleted e.id r.nodeId then .ok (db, true)
      else if graphIDPattern r.nodeId = false then
        .error (.checkViolation "automation_step_node_id_chk")
      else if r.nodeKind.known = false then
        .error (.checkViolation "automation_step_kind_chk")
      else if (applyRecord r e).currentNodeId.any (!graphIDPattern ·) then
        .error (.checkViolation "automation_enrollment_current_node_chk")
      else
        .ok ({ db with
          steps := upsertStep (newStep e r) db.steps
          enrollments := updateWhere (fun x => x.id == e.id) (applyRecord r) db.enrollments }, true)

def automationFailStep (f : StepFailure) : Database × Bool :=
  let chosen (e : AutomationEnrollment) : Bool :=
    e.id == f.enrollmentId && e.status == .active && e.claimGeneration == f.claimGeneration &&
      db.rootWriteAllowed e.tenantRootId
  ({ db with
    enrollments := updateWhere chosen (fun e =>
      { e with
        status := if f.terminal then .errored else e.status
        nodeAttempts := e.nodeAttempts + 1
        lastError := some (textLeft (nonEmptyOr f.error "automation step failed") 4096)
        wakeAt := if f.terminal then none else some (max f.retryAt now)
        leaseExpiresAt := none
        finishedAt := if f.terminal then some now else none }) db.enrollments },
   db.enrollments.any chosen)

def automationStepWaiting (node : String) : Bool :=
  db.steps.any fun s => s.key == (enrollment, node) && s.outcome == .waiting && s.completedAt.isNone

def automationStepDelivery (node : String) : Option UUID :=
  (db.steps.find? fun s => s.key == (enrollment, node)).bind (·.deliveryId)

def automationEventExists (q : EventQuery) : Bool :=
  db.events.any fun e =>
    e.businessId == q.businessId && e.email == q.email && e.name == q.name &&
      q.since ≤ e.occurredAt && e.occurredAt ≤ q.evaluationTime &&
      q.within.all (fun within => q.evaluationTime - max within 0 ≤ e.occurredAt) &&
      (e.ingressListId == some q.listId ||
        (e.ingressListId.isNone && e.subscriberId.all fun id =>
          db.subscribers.any fun s =>
            s.id == id && s.businessId == e.businessId && s.listId == q.listId))

/-! ### Deliveries and tags -/

/-- The row `mailing_enqueue_delivery` inserts. -/
def newAutomationDelivery (spec : MessageSpec) (id version : UUID) (email : Email) : Delivery :=
  { id, businessId := spec.businessId, tenantRootId := spec.tenantRootId
    sourceKind := .automation, sourceId := spec.sourceId, campaignId := none
    templateId := some spec.templateId, subscriberId := spec.subscriberId, email
    status := .queued, attempts := 0, claimGeneration := 0, notBefore := spec.notBefore
    leaseUntil := none, providerMessageId := none, openedAt := none
    trackOpensOverride := some spec.trackOpens, trackClicksOverride := some spec.trackClicks
    lastError := none, createdAt := spec.notBefore
    automationEnrollmentId := some spec.enrollmentId, automationVersionId := some version
    automationClaimGeneration := some spec.claimGeneration }

/-- The subscriber and version `mailing_enqueue_delivery` selects. -/
def enqueueTarget (spec : MessageSpec) : Option (Email × UUID) := do
  let s ← db.subscribers.find? fun s =>
    s.id == spec.subscriberId && s.businessId == spec.businessId &&
      s.tenantRootId == spec.tenantRootId
  let e ← db.enrollments.find? fun e => e.id == spec.enrollmentId
  let v ← db.versions.find? fun v =>
    v.id == e.versionId && v.contentSnapshot.any (·.contains spec.templateId)
  pure (s.email, v.id)

/-- `mailing_enqueue_delivery`; `newId` is `gen_random_uuid()`. A row that is already there is
returned only to the same execution of the same enrollment. -/
def mailingEnqueueDelivery (spec : MessageSpec) (newId : UUID) :
    Except SqlError (Database × Option UUID) :=
  if db.automationExecutionFence spec.enrollmentId spec.claimGeneration (some spec.businessId)
      (some spec.tenantRootId) (some spec.subscriberId) = false then .ok (db, none)
  else match db.enqueueTarget spec with
    | none => .ok (db, none)
    | some (email, version) =>
      let row := newAutomationDelivery spec newId version email
      if db.deliveries.any fun d => d.sourceKey == row.sourceKey then
        .ok (db, (db.deliveries.find? fun d =>
          d.businessId == spec.businessId && d.tenantRootId == spec.tenantRootId &&
            d.sourceKey == row.sourceKey && d.templateId == row.templateId &&
            d.automationEnrollmentId == row.automationEnrollmentId &&
            d.automationVersionId == row.automationVersionId &&
            d.automationClaimGeneration == row.automationClaimGeneration).map (·.id))
      else if db.deliveries.any fun d => d.id == newId then
        .error (.uniqueViolation "mailing_delivery_pkey")
      else .ok ({ db with deliveries := db.deliveries ++ [row] }, some newId)

/-- `mailing_automation_add_tag`; `lower` folds a `citext`. -/
def mailingAutomationAddTag (lower : String → String) (db : Database) (spec : TagSpec) :
    Database × Bool :=
  if db.automationExecutionFence spec.enrollmentId spec.claimGeneration (some spec.businessId)
      (some spec.tenantRootId) (some spec.subscriberId) = false then (db, false)
  else match db.subscribers.find? fun s =>
      s.id == spec.subscriberId && s.businessId == spec.businessId &&
        s.tenantRootId == spec.tenantRootId && s.status == .active with
    | none => (db, false)
    | some s =>
      ({ db with
        tags := insertOnConflict (fun t => (t.subscriberId, lower t.tag))
          ⟨s.tenantRootId, s.id, trimSpace spec.tag⟩ db.tags }, true)

/-- `mailing_automation_remove_tag`. The column is a `citext` and `btrim` a `text`, and the two are
compared as `text`. -/
def mailingAutomationRemoveTag (spec : TagSpec) : Database × Bool :=
  if db.automationExecutionFence spec.enrollmentId spec.claimGeneration (some spec.businessId)
      (some spec.tenantRootId) (some spec.subscriberId) = false then (db, false)
  else
    ({ db with
      tags := db.tags.filter fun t =>
        !(t.subscriberId == spec.subscriberId && t.tenantRootId == spec.tenantRootId &&
          t.tag == trimSpace spec.tag) }, true)

def mailingAutomationSubscriberSnapshot (subscriber : UUID) : Option SubscriberSnapshot :=
  (db.subscribers.find? fun s => s.id == subscriber).map fun s =>
    { listId := s.listId, email := s.email, status := s.status
      tags := (db.tags.filter fun t =>
        t.subscriberId == s.id && t.tenantRootId == s.tenantRootId).map (·.tag) }

def mailingAutomationActiveOnList (business : UUID) (email : Email) (list : UUID) : Bool :=
  db.subscribers.any fun s =>
    s.businessId == business && s.listId == list && s.email == email && s.status == .active

def mailingAutomationDeliveryEngagement (delivery : UUID) : Option Engagement :=
  (db.deliveries.find? fun d => d.id == delivery).map fun d =>
    { opened := d.openedAt.isSome
      clickedURLs := (db.trackingEvents.filter fun e =>
        e.deliveryId == d.id && e.tenantRootId == d.tenantRootId && e.kind == .click).filterMap
          (·.url) }

/-! ### Lifecycle -/

/-- What `Exit`, `Archive` and `automation_exit_for_subscriber` write into an enrollment. -/
def exitEnrollmentRow (reason : String) (e : AutomationEnrollment) : AutomationEnrollment :=
  { e with
    status := .exited, currentNodeId := none, wakeAt := none, leaseExpiresAt := none
    claimGeneration := e.claimGeneration + 1, exitReason := some reason, finishedAt := some now }

def automationExitForSubscriber (subscriber root : UUID) (reason : String) : Database :=
  if db.rootWriteAllowed root = false then db
  else
    { db with
      enrollments := updateWhere
        (fun e => e.subscriberId == subscriber && e.tenantRootId == root && e.status == .active)
        (exitEnrollmentRow now (textLeft (nonEmptyOr reason "subscriber_inactive") 200))
        db.enrollments }

/-- The row an automation statement of the service addresses. -/
def isAutomation (a : Automation) : Bool :=
  a.id == automation && a.businessId == business && a.tenantRootId == root

def ofAutomation : Bool :=
  e.automationId == automation && e.businessId == business && e.tenantRootId == root

/-- `Service.transition`. The write-fence trigger refuses a fenced root, and a conflict rolls
back: both leave the database as it was. -/
def transition (before after : AutomationStatus) : Database :=
  if db.rootWriteAllowed root = false then db
  else if db.automations.any (fun a =>
    isAutomation automation business root a && a.status == before)
  then
    { db with
      automations := updateWhere
        (fun a => isAutomation automation business root a && a.status == before)
        (fun a => { a with status := after }) db.automations
      enrollments := if after = .paused then
          updateWhere (fun e => ofAutomation automation business root e && e.status == .active)
            (fun e => { e with
              leaseExpiresAt := none, claimGeneration := e.claimGeneration + 1 }) db.enrollments
        else db.enrollments }
  else db

def pause : Database :=
  db.transition automation business root .active .paused

def resume : Database :=
  db.transition automation business root .paused .active

def archive : Database :=
  if db.rootWriteAllowed root = false then db
  else if db.automations.any
      (fun a => isAutomation automation business root a && a.status != .archived) then
    { db with
      automations := updateWhere
        (fun a => isAutomation automation business root a && a.status != .archived)
        (fun a => { a with status := .archived, draftVersionId := none }) db.automations
      enrollments := updateWhere
        (fun e => ofAutomation automation business root e && e.status == .active)
        (exitEnrollmentRow now "archived") db.enrollments }
  else db

def exitEnrollment (enrollment automation business root : UUID) : Database :=
  if db.rootWriteAllowed root = false then db
  else
    { db with
      enrollments := updateWhere
        (fun e => e.id == enrollment && ofAutomation automation business root e &&
          e.status == .active)
        (exitEnrollmentRow now "manual") db.enrollments }

/-- The row both ways of enrolling insert: active, at the trigger node, never claimed. -/
def newEnrollment (id business root automation version subscriber : UUID) (triggerNode : String)
    (now : Timestamp) : AutomationEnrollment :=
  { id, businessId := business, tenantRootId := root, automationId := automation
    versionId := version, subscriberId := subscriber, status := .active
    currentNodeId := some triggerNode, wakeAt := some now, leaseExpiresAt := none
    claimGeneration := 0, nodeAttempts := 0, lastError := none, exitReason := none
    enrolledAt := now, finishedAt := none }

/-- The insert of `Service.Enroll` and `automation_enroll_for_trigger`, under the primary key and
`automation_enrollment_one_active_idx`; a conflict leaves the table as it was. -/
def insertEnrollment (row : AutomationEnrollment) : Database :=
  if db.enrollments.any fun e => e.id == row.id || (e.automationId == row.automationId &&
      e.subscriberId == row.subscriberId && e.status == .active) then db
  else { db with enrollments := db.enrollments ++ [row] }

end Database

end Manyforge
