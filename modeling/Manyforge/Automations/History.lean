import Manyforge.Automations.EngineFrame
import Manyforge.Automations.Stepper

/-!
# What the automation functions keep

`Consistent` collects the unique constraints of the tables and the reference from
an automation delivery to its enrollment. `Later` says what no transaction takes
back: completed steps, deliveries, enrollments and their generations. Each
function of the store is shown once to keep both; `Evolves` packages the two so
that they compose.
-/
namespace Manyforge

open Table

/-- The columns of a delivery that `mailing_delivery_automation_fence_guard` makes immutable, and
its id. -/
def Delivery.authorization (d : Delivery) :
    UUID × (DeliverySource × UUID × UUID) × Option UUID × Option UUID × Option UUID × Option Nat :=
  (d.id, d.sourceKey, d.templateId, d.automationEnrollmentId, d.automationVersionId,
    d.automationClaimGeneration)

variable {d d' : Delivery}

theorem Delivery.sourceKey_of_authorization
    (same : d'.authorization = d.authorization) : d'.sourceKey = d.sourceKey :=
  congrArg (fun a => a.2.1) same

theorem Delivery.enrollment_of_authorization (same : d'.authorization = d.authorization) :
    d'.automationEnrollmentId = d.automationEnrollmentId :=
  congrArg (fun a => a.2.2.2.1) same

theorem Delivery.subscriber_of_authorization
    (same : d'.authorization = d.authorization) : d'.subscriberId = d.subscriberId :=
  congrArg (fun a => a.2.1.2.2) same

namespace Database

structure Consistent (db : Database) : Prop where
  steps : UniqueOn EnrollmentStep.key db.steps
  enrollments : UniqueOn AutomationEnrollment.id db.enrollments
  deliveries : UniqueOn Delivery.sourceKey db.deliveries
  /-- An automation delivery belongs to an enrollment of its subscriber. -/
  owners : ∀ d ∈ db.deliveries, ∀ id ∈ d.automationEnrollmentId,
    ∃ e ∈ db.enrollments, e.id = id ∧ e.subscriberId = d.subscriberId

structure Later (db db' : Database) : Prop where
  steps : ∀ s ∈ db.steps, s.completedAt.isSome → s ∈ db'.steps
  deliveries : ∀ d ∈ db.deliveries, ∃ d' ∈ db'.deliveries, d'.authorization = d.authorization
  enrollments : ∀ e ∈ db.enrollments, ∃ e' ∈ db'.enrollments,
    e'.id = e.id ∧ e'.subscriberId = e.subscriberId ∧ e.claimGeneration ≤ e'.claimGeneration

theorem Later.refl (db : Database) : db.Later db where
  steps _ member _ := member
  deliveries d member := ⟨d, member, rfl⟩
  enrollments e member := ⟨e, member, rfl, rfl, Nat.le_refl _⟩

variable {db db' : Database}

theorem Later.trans {db'' : Database} (first : db.Later db') (second : db'.Later db'') :
    db.Later db'' where
  steps s member completed := second.steps s (first.steps s member completed) completed
  deliveries d member := by
    obtain ⟨d', member', same'⟩ := first.deliveries d member
    obtain ⟨d'', member'', same''⟩ := second.deliveries d' member'
    exact ⟨d'', member'', same''.trans same'⟩
  enrollments e member := by
    obtain ⟨e', member', id', subscriber', generation'⟩ := first.enrollments e member
    obtain ⟨e'', member'', id'', subscriber'', generation''⟩ := second.enrollments e' member'
    exact ⟨e'', member'', id''.trans id', subscriber''.trans subscriber',
      generation'.trans generation''⟩

/-- The transaction keeps consistency and takes nothing back. -/
def Evolves (db db' : Database) : Prop := db.Consistent → db'.Consistent ∧ db.Later db'

theorem Evolves.refl (db : Database) : db.Evolves db := fun consistent => ⟨consistent, .refl db⟩

theorem Evolves.trans {db'' : Database} (first : db.Evolves db') (second : db'.Evolves db'') :
    db.Evolves db'' := by
  intro consistent
  obtain ⟨consistent', later'⟩ := first consistent
  obtain ⟨consistent'', later''⟩ := second consistent'
  exact ⟨consistent'', later'.trans later''⟩

theorem Evolves.of_enrollments {chosen : AutomationEnrollment → Bool}
    {change : AutomationEnrollment → AutomationEnrollment} (steps : db'.steps = db.steps)
    (deliveries : db'.deliveries = db.deliveries)
    (enrollments : db'.enrollments = updateWhere chosen change db.enrollments)
    (id : ∀ e, (change e).id = e.id) (subscriber : ∀ e, (change e).subscriberId = e.subscriberId)
    (generation : ∀ e, e.claimGeneration ≤ (change e).claimGeneration) : db.Evolves db' := by
  intro consistent
  have moved : ∀ e ∈ db.enrollments, ∃ e' ∈ db'.enrollments,
      e'.id = e.id ∧ e'.subscriberId = e.subscriberId ∧ e.claimGeneration ≤ e'.claimGeneration := by
    intro e member
    rw [enrollments]
    refine ⟨_, mem_updateWhere.mpr ⟨e, member, rfl⟩, ?_⟩
    split
    · exact ⟨id e, subscriber e, generation e⟩
    · exact ⟨rfl, rfl, Nat.le_refl _⟩
  constructor
  · constructor
    · rw [steps]; exact consistent.steps
    · rw [enrollments]; exact consistent.enrollments.updateWhere fun e _ => id e
    · rw [deliveries]; exact consistent.deliveries
    · rw [deliveries]
      intro d member owner owned
      obtain ⟨e, e_mem, e_id, e_subscriber⟩ := consistent.owners d member owner owned
      obtain ⟨e', e'_mem, same, subscriber', -⟩ := moved e e_mem
      exact ⟨e', e'_mem, same.trans e_id, subscriber'.trans e_subscriber⟩
  · constructor
    · rw [steps]; exact fun _ member _ => member
    · rw [deliveries]; exact fun d member => ⟨d, member, rfl⟩
    · exact moved

theorem Evolves.of_same (steps : db'.steps = db.steps)
    (enrollments : db'.enrollments = db.enrollments)
    (deliveries : db'.deliveries = db.deliveries) : db.Evolves db' :=
  have unchanged : db'.enrollments = updateWhere (fun _ => false) id db.enrollments :=
    enrollments.trans (updateWhere_eq_self fun _ _ => rfl).symm
  .of_enrollments steps deliveries unchanged (fun _ => rfl) (fun _ => rfl) fun _ => Nat.le_refl _

/-! ### Steps -/

theorem upsertStep_unique {new : EnrollmentStep} {steps : List EnrollmentStep}
    (unique : UniqueOn EnrollmentStep.key steps) :
    UniqueOn EnrollmentStep.key (upsertStep new steps) := by
  unfold upsertStep
  split
  · exact unique.updateWhere fun _ _ => rfl
  next absent => exact unique.append_fresh (ne_of_not_any absent)

theorem upsertStep_keeps {new old : EnrollmentStep} {steps : List EnrollmentStep}
    (member : old ∈ steps) (other : old.key ≠ new.key) : old ∈ upsertStep new steps := by
  unfold upsertStep
  split
  · exact mem_updateWhere.mpr ⟨old, member, by simp [other]⟩
  · exact List.mem_append_left _ member

variable {r : StepRecord} {enrollment : UUID} {generation : Nat}

/-- Everything `automation_record_step` can do when it does not raise. -/
theorem automationRecordStep_cases {changed : Bool}
    (ran : db.automationRecordStep r = .ok (db', changed)) :
    (changed = false ∧ db' = db) ∨
    (changed = true ∧ db.automationExecutionFence r.enrollmentId r.claimGeneration none none none ∧
      ∃ e, (db.enrollments.find? fun e => e.id == r.enrollmentId) = some e ∧
        ((db.stepCompleted e.id r.nodeId = true ∧ db' = db) ∨
         (db.stepCompleted e.id r.nodeId = false ∧
           db' = { db with
             steps := upsertStep (newStep e r) db.steps
             enrollments := updateWhere (fun x => x.id == e.id) (applyRecord r) db.enrollments }))) := by
  unfold automationRecordStep at ran
  split at ran
  · cases ran; exact .inl ⟨rfl, rfl⟩
  next fence =>
  split at ran
  · cases ran; exact .inl ⟨rfl, rfl⟩
  next e found =>
  split at ran
  next completed =>
    cases ran
    exact .inr ⟨rfl, by simpa using fence, e, found, .inl ⟨completed, rfl⟩⟩
  next fresh =>
  split_ifs at ran
  cases ran
  exact .inr ⟨rfl, by simpa using fence, e, found, .inr ⟨by simpa using fresh, rfl⟩⟩

theorem automationRecordStep_evolves {changed : Bool}
    (ran : db.automationRecordStep r = .ok (db', changed)) : db.Evolves db' := by
  obtain ⟨-, rfl⟩ | ⟨-, -, e, -, ⟨-, rfl⟩ | ⟨fresh, rfl⟩⟩ := automationRecordStep_cases ran
  · exact .refl _
  · exact .refl _
  · -- First the enrollment, then the step: the two updates touch different tables.
    have moved : db.Evolves { db with
        enrollments := updateWhere (fun x => x.id == e.id) (applyRecord r) db.enrollments } :=
      .of_enrollments rfl rfl rfl (fun _ => rfl) (fun _ => rfl) (fun _ => Nat.le_refl _)
    refine moved.trans fun consistent => ⟨?_, ?_⟩
    · exact ⟨upsertStep_unique consistent.steps, consistent.enrollments, consistent.deliveries,
        consistent.owners⟩
    · refine ⟨fun s member completed => upsertStep_keeps member ?_, fun d member =>
        ⟨d, member, rfl⟩, fun x member => ⟨x, member, rfl, rfl, Nat.le_refl _⟩⟩
      intro same
      have contradiction : db.stepCompleted e.id r.nodeId = true :=
        List.any_eq_true.mpr ⟨s, member, by simp [same, completed]; rfl⟩
      simp [fresh] at contradiction

theorem automationFailStep_evolves (db : Database) (now : Timestamp) (f : StepFailure) :
    db.Evolves (db.automationFailStep now f).1 :=
  .of_enrollments rfl rfl rfl (fun _ => rfl) (fun _ => rfl) (fun _ => Nat.le_refl _)

/-! ### The fence -/

theorem automationExecutionFence_row {business root subscriber : Option UUID}
    (fence : db.automationExecutionFence enrollment generation business root subscriber = true) :
    ∃ e ∈ db.enrollments, e.id = enrollment ∧ e.status = .active ∧
      e.claimGeneration = generation ∧ (∀ id ∈ subscriber, e.subscriberId = id) ∧
      (∀ id ∈ business, e.businessId = id) ∧ (∀ id ∈ root, e.tenantRootId = id) ∧
      db.enrollmentRunnable e = true := by
  obtain ⟨e, member, holds⟩ := List.any_eq_true.mp fence
  simp only [Bool.and_eq_true, beq_iff_eq, Option.all_eq_true] at holds
  obtain ⟨⟨⟨⟨⟨⟨id, status⟩, generation⟩, business⟩, root⟩, subscriber⟩, runnable⟩ := holds
  exact ⟨e, member, id, status, generation, subscriber, business, root, runnable⟩

/-- No row of the enrollment carries this generation. -/
def Superseded (db : Database) (enrollment : UUID) (generation : Nat) : Prop :=
  ∀ e ∈ db.enrollments, e.id = enrollment → e.claimGeneration ≠ generation

theorem Superseded.fence {enrollment : UUID} {generation : Nat}
    (superseded : db.Superseded enrollment generation) (business root subscriber : Option UUID) :
    db.automationExecutionFence enrollment generation business root subscriber = false := by
  cases fence : db.automationExecutionFence enrollment generation business root subscriber with
  | false => rfl
  | true =>
    obtain ⟨e, member, id, -, same, -⟩ := automationExecutionFence_row fence
    exact absurd same (superseded e member id)

theorem Superseded.of_updateWhere (superseded : db.Superseded enrollment generation)
    {chosen : AutomationEnrollment → Bool} {change : AutomationEnrollment → AutomationEnrollment}
    (enrollments : db'.enrollments = updateWhere chosen change db.enrollments)
    (id : ∀ e, (change e).id = e.id) (same : ∀ e, (change e).claimGeneration = e.claimGeneration) :
    db'.Superseded enrollment generation := by
  intro e' member' named
  rw [enrollments] at member'
  obtain ⟨e, member, ⟨-, rfl⟩ | ⟨-, rfl⟩⟩ := updated_or_kept member'
  · rw [same]
    exact superseded e member ((id e).symm.trans named)
  · exact superseded e member named

theorem automationRecordStep_superseded {changed : Bool}
    (superseded : db.Superseded enrollment generation)
    (ran : db.automationRecordStep r = .ok (db', changed)) :
    db'.Superseded enrollment generation := by
  obtain ⟨-, rfl⟩ | ⟨-, -, e, -, ⟨-, rfl⟩ | ⟨-, rfl⟩⟩ := automationRecordStep_cases ran
  · exact superseded
  · exact superseded
  · exact superseded.of_updateWhere rfl (fun _ => rfl) (fun _ => rfl)

/-! ### Deliveries -/

theorem mailingEnqueueDelivery_cases {spec : MessageSpec} {newId : UUID} {answer : Option UUID}
    (ran : db.mailingEnqueueDelivery spec newId = .ok (db', answer)) :
    db' = db ∨
    (db.automationExecutionFence spec.enrollmentId spec.claimGeneration (some spec.businessId)
        (some spec.tenantRootId) (some spec.subscriberId) = true ∧ answer = some newId ∧
      ∃ email version, db.enqueueTarget spec = some (email, version) ∧
        (∀ d ∈ db.deliveries,
          d.sourceKey ≠ (newAutomationDelivery spec newId version email).sourceKey) ∧
        (∀ d ∈ db.deliveries, d.id ≠ newId) ∧
        db' = { db with
          deliveries := db.deliveries ++ [newAutomationDelivery spec newId version email] }) := by
  unfold mailingEnqueueDelivery at ran
  split at ran
  · cases ran; exact .inl rfl
  next fence =>
  split at ran
  · cases ran; exact .inl rfl
  next email version target =>
  simp only [] at ran
  split at ran
  · cases ran; exact .inl rfl
  next source =>
  split at ran
  · cases ran
  next fresh =>
  cases ran
  refine .inr ⟨by simpa using fence, rfl, email, version, target, ?_, ?_, rfl⟩
  · simpa using source
  · simpa using fresh

theorem mailingEnqueueDelivery_evolves {spec : MessageSpec} {newId : UUID} {answer : Option UUID}
    (ran : db.mailingEnqueueDelivery spec newId = .ok (db', answer)) : db.Evolves db' := by
  obtain rfl | ⟨fence, -, email, version, -, source, -, rfl⟩ := mailingEnqueueDelivery_cases ran
  · exact .refl _
  intro consistent
  refine ⟨⟨consistent.steps, consistent.enrollments, consistent.deliveries.append_fresh source, ?_⟩,
    ⟨fun _ member _ => member, fun d member => ⟨d, List.mem_append_left _ member, rfl⟩,
      fun e member => ⟨e, member, rfl, rfl, Nat.le_refl _⟩⟩⟩
  intro d member owner owned
  rcases List.mem_append.mp member with member | added
  · exact consistent.owners d member owner owned
  · -- The fence compared the subscriber the row is written for with the enrollment's own.
    obtain ⟨e, e_mem, id, -, -, subscriber, -⟩ := automationExecutionFence_row fence
    simp only [List.mem_singleton] at added
    subst added
    simp only [newAutomationDelivery, Option.mem_def, Option.some.injEq] at owned
    exact ⟨e, e_mem, id.trans owned, subscriber _ rfl⟩

theorem mailingAutomationAddTag_tables (lower : String → String) (db : Database) (spec : TagSpec) :
    (db.mailingAutomationAddTag lower spec).1.steps = db.steps ∧
      (db.mailingAutomationAddTag lower spec).1.enrollments = db.enrollments ∧
      (db.mailingAutomationAddTag lower spec).1.deliveries = db.deliveries := by
  unfold mailingAutomationAddTag
  split
  · exact ⟨rfl, rfl, rfl⟩
  · split <;> exact ⟨rfl, rfl, rfl⟩

theorem mailingAutomationRemoveTag_tables (db : Database) (spec : TagSpec) :
    (db.mailingAutomationRemoveTag spec).1.steps = db.steps ∧
      (db.mailingAutomationRemoveTag spec).1.enrollments = db.enrollments ∧
      (db.mailingAutomationRemoveTag spec).1.deliveries = db.deliveries := by
  unfold mailingAutomationRemoveTag
  split <;> exact ⟨rfl, rfl, rfl⟩

/-! ### Claiming and the lifecycle -/

theorem automationClaimDue_evolves (db : Database) (now : Timestamp) (limit lease : Int)
    (locked : UUID → Bool) : db.Evolves (db.automationClaimDue now limit lease locked).1 :=
  .of_enrollments rfl rfl rfl (fun _ => rfl) (fun _ => rfl) (fun _ => Nat.le_succ _)

theorem automationExitForSubscriber_evolves (db : Database) (now : Timestamp)
    (subscriber root : UUID) (reason : String) :
    db.Evolves (db.automationExitForSubscriber now subscriber root reason) := by
  unfold automationExitForSubscriber
  split
  · exact .refl _
  · exact .of_enrollments rfl rfl rfl (fun _ => rfl) (fun _ => rfl) (fun _ => Nat.le_succ _)

theorem transition_evolves (db : Database) (automation business root : UUID)
    (before after : AutomationStatus) :
    db.Evolves (db.transition automation business root before after) := by
  unfold transition
  split
  · exact .refl _
  · split
    · by_cases paused : after = .paused
      · simp only [paused, if_true]
        exact .of_enrollments rfl rfl rfl (fun _ => rfl) (fun _ => rfl) (fun _ => Nat.le_succ _)
      · simp only [paused, if_false]
        exact .of_same rfl rfl rfl
    · exact .refl _

theorem archive_evolves (db : Database) (now : Timestamp) (automation business root : UUID) :
    db.Evolves (db.archive now automation business root) := by
  unfold archive
  split
  · exact .refl _
  · split
    · exact .of_enrollments rfl rfl rfl (fun _ => rfl) (fun _ => rfl) (fun _ => Nat.le_succ _)
    · exact .refl _

theorem exitEnrollment_evolves (db : Database) (now : Timestamp)
    (enrollment automation business root : UUID) :
    db.Evolves (db.exitEnrollment now enrollment automation business root) := by
  unfold exitEnrollment
  split
  · exact .refl _
  · exact .of_enrollments rfl rfl rfl (fun _ => rfl) (fun _ => rfl) (fun _ => Nat.le_succ _)

theorem insertEnrollment_evolves (db : Database) (row : AutomationEnrollment) :
    db.Evolves (db.insertEnrollment row) := by
  unfold insertEnrollment
  split
  · exact .refl _
  next fresh =>
  intro consistent
  simp only [List.any_eq_true, Bool.or_eq_true, beq_iff_eq, not_exists, not_and, not_or] at fresh
  refine ⟨⟨consistent.steps, ?_, consistent.deliveries, ?_⟩,
    ⟨fun _ member _ => member, fun d member => ⟨d, member, rfl⟩,
      fun e member => ⟨e, List.mem_append_left _ member, rfl, rfl, Nat.le_refl _⟩⟩⟩
  · exact consistent.enrollments.append_fresh fun old member => (fresh old member).1
  · intro d member owner owned
    obtain ⟨e, e_mem, rest⟩ := consistent.owners d member owner owned
    exact ⟨e, List.mem_append_left _ e_mem, rest⟩

end Database

/-! ### The adapters -/

namespace Tx

/-- A relation on databases, read on transactions. -/
def Along (rel : Database → Database → Prop) (tx tx' : Tx) : Prop := rel tx.db tx'.db

variable {rel : Database → Database → Prop} {α : Type}

theorem query_along (refl : ∀ db, rel db db) {statement : Database → Except SqlError (Database × α)}
    (moved : ∀ db db' value, statement db = .ok (db', value) → rel db db') (tx : Tx) :
    Along rel tx (query statement tx).2 := by
  unfold query
  split
  · exact refl _
  · split
    · exact refl _
    next ran => exact moved _ _ _ ran

theorem total_along (refl : ∀ db, rel db db) {statement : Database → Database × α}
    (moved : ∀ db, rel db (statement db).1) (tx : Tx) :
    Along rel tx (query (fun db => .ok (statement db)) tx).2 := by
  refine query_along refl (fun db db' value ran => ?_) tx
  have same : (statement db).1 = db' := congrArg Prod.fst (Except.ok.inj ran)
  rw [← same]
  exact moved db

theorem select_along (refl : ∀ db, rel db db) (read : Database → α) (tx : Tx) :
    Along rel tx (select read tx).2 :=
  total_along refl refl tx

theorem require_along {missing : DepError} {op : Op Tx (Option α)}
    (moved : ∀ tx, Along rel tx (op tx).2) (tx : Tx) : Along rel tx (require missing op tx).2 := by
  have first := moved tx
  unfold require
  split <;> simp_all

theorem whenTrue_along {op : Op Tx Bool} (moved : ∀ tx, Along rel tx (op tx).2) (tx : Tx) :
    Along rel tx (whenTrue op tx).2 := by
  have first := moved tx
  unfold whenTrue
  split <;> simp_all

end Tx

section Adapters

variable {rel : Database → Database → Prop} (refl : ∀ db, rel db db)
  (record : ∀ db db' r changed, db.automationRecordStep r = .ok (db', changed) → rel db db')
  (fail : ∀ db now f, rel db (db.automationFailStep now f).1)
  (enqueue : ∀ db db' spec newId answer,
    db.mailingEnqueueDelivery spec newId = .ok (db', answer) → rel db db')
  (same : ∀ db db' : Database, db'.steps = db.steps → db'.enrollments = db.enrollments →
    db'.deliveries = db.deliveries → rel db db')

include refl record fail in
theorem sqlStepStore_respects (env : SqlEnv) : (sqlStepStore env).Respects (Tx.Along rel) where
  record r := Tx.query_along refl fun db db' value ran => record db db' r value ran
  fail f := Tx.total_along refl fun db => fail db env.now f
  waiting _ _ := Tx.select_along refl _
  delivery _ _ := Tx.select_along refl _
  eventExists _ := Tx.select_along refl _

include refl enqueue same in
/-- Tags are in none of the tables that the relations are about. -/
theorem sqlDeps_respects (env : SqlEnv) : (sqlDeps env).Respects (Tx.Along rel) where
  snapshot _ found _ := by
    cases found; exact Tx.require_along (Tx.select_along refl _)
  activeOnList _ found _ _ _ := by
    cases found; exact Tx.select_along refl _
  sender _ found spec := by
    cases found
    exact Tx.require_along (Tx.query_along refl fun db db' value ran => enqueue db db' spec _ value ran)
  engagement _ found _ := by
    cases found; exact Tx.require_along (Tx.select_along refl _)
  addTag _ found spec := by
    cases found
    refine Tx.require_along (Tx.whenTrue_along (Tx.total_along refl fun db => ?_))
    obtain ⟨steps, enrollments, deliveries⟩ := db.mailingAutomationAddTag_tables env.lower spec
    exact same _ _ steps enrollments deliveries
  removeTag _ found spec := by
    cases found
    refine Tx.require_along (Tx.whenTrue_along (Tx.total_along refl fun db => ?_))
    obtain ⟨steps, enrollments, deliveries⟩ := db.mailingAutomationRemoveTag_tables spec
    exact same _ _ steps enrollments deliveries

end Adapters

end Manyforge
