import Manyforge.Automations.History
import Manyforge.Lib.Transition
import Manyforge.Mailing.FeedbackFrame
import Manyforge.Mailing.Queue

/-!
# Claiming and renewing automation mail

`mailing_claim_deliveries` asks whether a step sent the delivery for an enrollment
that was not given up; `mailing_renew_delivery` asks in addition that the enrollment is
still claimed under the generation the delivery was enqueued with. In every reachable
state that generation alone decides whether a claimed delivery of an active enrollment
can be renewed.
-/
namespace Manyforge

open Table Transition Database

/-! ### Columns that never change -/

def AutomationEnrollment.owner (e : AutomationEnrollment) : UUID × UUID × UUID × UUID × UUID × UUID :=
  (e.id, e.businessId, e.tenantRootId, e.automationId, e.versionId, e.subscriberId)

def Automation.owner (a : Automation) : UUID × UUID × UUID := (a.id, a.businessId, a.tenantRootId)

def Subscriber.owner (s : Subscriber) : UUID × UUID × UUID × UUID :=
  (s.id, s.businessId, s.tenantRootId, s.listId)

/-- A delivery without the columns the queue and the feedback write. -/
def Delivery.fixed (d : Delivery) : Delivery :=
  { d with
    status := .queued, attempts := 0, claimGeneration := 0, notBefore := 0, leaseUntil := none
    providerMessageId := none, openedAt := none, lastError := none }

/-- A delivery of an automation belongs to an enrollment of its subscriber, in a version that has
its template. -/
structure Delivery.Linked (d : Delivery) (db : Database) : Prop where
  enrollment : ∃ id automation version, d.automationEnrollmentId = some id ∧
    d.automationVersionId = some version ∧
    (id, d.businessId, d.tenantRootId, automation, version, d.subscriberId) ∈
      db.enrollments.map (·.owner) ∧
    ∃ v ∈ db.versions, v.id = version ∧ hasTemplate v d = true
  subscriber : ∃ list,
    (d.subscriberId, d.businessId, d.tenantRootId, list) ∈ db.subscribers.map (·.owner)
  campaign : d.campaignId = none

namespace Database

/-- The primary keys, the foreign keys of an enrollment, and the links of automation mail. -/
structure WellLinked (db : Database) : Prop where
  enrollmentIds : UniqueOn (·.id) db.enrollments
  versionIds : UniqueOn (·.id) db.versions
  automationIds : UniqueOn (·.id) db.automations
  subscriberIds : UniqueOn (·.id) db.subscribers
  deliveryIds : UniqueOn (·.id) db.deliveries
  foreign : ∀ id business root automation version subscriber,
    (id, business, root, automation, version, subscriber) ∈ db.enrollments.map (·.owner) →
    (automation, business, root) ∈ db.automations.map (·.owner) ∧
    ∃ v ∈ db.versions, v.id = version ∧ v.automationId = automation ∧ v.businessId = business ∧
      v.tenantRootId = root
  deliveries : ∀ d ∈ db.deliveries, d.sourceKind = .automation → d.Linked db

/-- The tables that no transaction writes. -/
def settings (db : Database) : List UUID × List Business × List MailingList × List SendingProfile :=
  (db.fencedRoots, db.businesses, db.lists, db.profiles)

/-- What no transaction changes; a delivery may be added when it is linked. -/
structure Keeps (db db' : Database) : Prop where
  settings : db'.settings = db.settings
  enrollments : db'.enrollments.map (·.owner) = db.enrollments.map (·.owner)
  automations : db'.automations.map (·.owner) = db.automations.map (·.owner)
  subscribers : db'.subscribers.map (·.owner) = db.subscribers.map (·.owner)
  versions : db'.versions = db.versions
  deliveries : db'.deliveries.map (·.fixed) = db.deliveries.map (·.fixed) ∨
    ∃ row, row.Linked db ∧ (∀ d ∈ db.deliveries, d.id ≠ row.id) ∧
      db'.deliveries = db.deliveries ++ [row]

theorem Keeps.refl (db : Database) : Keeps db db := ⟨rfl, rfl, rfl, rfl, rfl, .inl rfl⟩

theorem linked_of_fixed {db db' : Database} (keeps : Keeps db db') {d d' : Delivery}
    (same : d'.fixed = d.fixed) (linked : d.Linked db) : d'.Linked db' := by
  obtain ⟨⟨id, automation, version, enrollment, versionId, member, v, v_mem, v_id, template⟩,
    subscriber, campaign⟩ := linked
  have field {α : Type} (read : Delivery → α) (fixed : ∀ d, read d.fixed = read d) :
      read d' = read d := by rw [← fixed d', same, fixed d]
  have business := field (·.businessId) fun _ => rfl
  have root := field (·.tenantRootId) fun _ => rfl
  have subscriberId := field (·.subscriberId) fun _ => rfl
  have templateId := field (·.templateId) fun _ => rfl
  refine ⟨⟨id, automation, version, (field (·.automationEnrollmentId) fun _ => rfl).trans enrollment,
    (field (·.automationVersionId) fun _ => rfl).trans versionId, ?_, v, ?_, v_id, ?_⟩, ?_,
    (field (·.campaignId) fun _ => rfl).trans campaign⟩
  · rw [keeps.enrollments, business, root, subscriberId]
    exact member
  · rw [keeps.versions]
    exact v_mem
  · rw [hasTemplate, templateId]
    exact template
  · rw [keeps.subscribers, business, root, subscriberId]
    exact subscriber

theorem Keeps.wellLinked {db db' : Database} (keeps : Keeps db db') (linked : db.WellLinked) :
    db'.WellLinked where
  enrollmentIds := linked.enrollmentIds.of_columns (·.1) (fun _ => rfl) keeps.enrollments
  versionIds := by rw [keeps.versions]; exact linked.versionIds
  automationIds := linked.automationIds.of_columns (·.1) (fun _ => rfl) keeps.automations
  subscriberIds := linked.subscriberIds.of_columns (·.1) (fun _ => rfl) keeps.subscribers
  deliveryIds := by
    rcases keeps.deliveries with same | ⟨row, _, fresh, added⟩
    · exact linked.deliveryIds.of_columns (·.id) (fun _ => rfl) same
    · rw [added]
      exact linked.deliveryIds.append_fresh fresh
  foreign := by
    rw [keeps.enrollments, keeps.automations, keeps.versions]
    exact linked.foreign
  deliveries d' member automation := by
    rcases keeps.deliveries with same | ⟨row, rowLinked, _, added⟩
    · have : d'.fixed ∈ db.deliveries.map (·.fixed) := same ▸ List.mem_map_of_mem member
      obtain ⟨d, d_mem, equal⟩ := List.mem_map.mp this
      have kind : d.sourceKind = .automation :=
        (congrArg Delivery.sourceKind equal).trans automation
      exact linked_of_fixed keeps equal.symm (linked.deliveries d d_mem kind)
    · rw [added] at member
      rcases List.mem_append.mp member with old | new
      · exact linked_of_fixed keeps rfl (linked.deliveries d' old automation)
      · rw [List.mem_singleton] at new
        subst new
        exact linked_of_fixed keeps rfl rowLinked

end Database

/-! ### The transactions -/

/-- The functions of the automation and mailing tables; a read such as `automation_step_waiting`
changes nothing. -/
inductive TableStep : Database → Database → Prop
  | claimDue (db : Database) (now : Timestamp) (limit lease : Int) (locked : UUID → Bool) :
      TableStep db (db.automationClaimDue now limit lease locked).1
  | recordStep {db db' : Database} {r : StepRecord} {changed : Bool}
      (ran : db.automationRecordStep r = .ok (db', changed)) : TableStep db db'
  | failStep (db : Database) (now : Timestamp) (f : StepFailure) :
      TableStep db (db.automationFailStep now f).1
  | enqueue {db db' : Database} {spec : MessageSpec} {newId : UUID} {answer : Option UUID}
      (ran : db.mailingEnqueueDelivery spec newId = .ok (db', answer)) : TableStep db db'
  | exit (db : Database) (now : Timestamp) (enrollment automation business root : UUID) :
      TableStep db (db.exitEnrollment now enrollment automation business root)
  | pause (db : Database) (automation business root : UUID) :
      TableStep db (db.pause automation business root)
  | resume (db : Database) (automation business root : UUID) :
      TableStep db (db.resume automation business root)
  | claimDeliveries (db : Database) (call : Database.ClaimCall) :
      TableStep db (db.mailingClaimDeliveries call).1
  | renew (db : Database) (now : Timestamp) (id : UUID) (generation : Nat) (lease : Int) :
      TableStep db (db.mailingRenewDelivery now id generation lease).1
  | release (db : Database) (now : Timestamp) (id : UUID) (generation : Nat)
      (notBefore : Option Timestamp) :
      TableStep db (db.mailingReleaseDelivery now id generation notBefore).1
  | fail {db db' : Database} {now : Timestamp} {id : UUID} {generation : Nat} {error status : String}
      {notBefore : Option Timestamp} {answer : Bool}
      (ran : db.mailingFailDelivery now id generation error status notBefore = .ok (db', answer)) :
      TableStep db db'
  | complete {db db' : Database} {now : Timestamp} {id : UUID} {generation : Nat}
      {messageId : String} {locked : ProviderWebhook → Bool} {answer : Bool}
      (ran : db.mailingCompleteDelivery now id generation messageId locked = .ok (db', answer)) :
      TableStep db db'

namespace Database

variable {db db' : Database}

theorem Keeps.ofEnrollments (db : Database) {enrollments : List AutomationEnrollment}
    (same : enrollments.map (·.owner) = db.enrollments.map (·.owner)) :
    Keeps db { db with enrollments } :=
  ⟨rfl, same, rfl, rfl, rfl, .inl rfl⟩

theorem Keeps.ofDeliveries (db : Database) {deliveries : List Delivery}
    (same : deliveries.map (·.fixed) = db.deliveries.map (·.fixed)) :
    Keeps db { db with deliveries } :=
  ⟨rfl, rfl, rfl, rfl, rfl, .inl same⟩

theorem updateHeld_keeps (db : Database) (id : UUID) (generation : Nat) (also : Delivery → Bool)
    {change : Delivery → Delivery} (fixed : ∀ d, (change d).fixed = d.fixed) :
    Keeps db (db.updateHeld id generation also change).1 :=
  .ofDeliveries db (map_updateWhere _ _ fun d _ => fixed d)

theorem claimDeliveries_keeps (db : Database) (call : ClaimCall) :
    Keeps db (db.mailingClaimDeliveries call).1 := by
  refine .ofDeliveries db ?_
  rw [List.map_map]
  refine List.map_congr_left fun d _ => ?_
  simp only [Function.comp_apply, claimRow]
  split
  · rfl
  next change _ => cases change <;> rfl

theorem FeedsBack.keeps (frame : FeedsBack db db') : Keeps db db' where
  settings := by rw [frame.rest]; rfl
  enrollments := by rw [frame.rest]
  automations := by rw [frame.rest]
  subscribers := frame.subscribers.map_eq fun a b marked => by
    obtain ⟨v, rfl⟩ := marked
    cases v <;> rfl
  versions := by rw [frame.rest]
  deliveries := .inl (frame.deliveries.map_eq fun a b fed => by rw [fed.1]; rfl)

theorem transition_keeps (db : Database) (automation business root : UUID)
    (before after : AutomationStatus) :
    Keeps db (db.transition automation business root before after) := by
  unfold transition
  split
  · exact .refl db
  · split
    · refine ⟨rfl, ?_, map_updateWhere _ _ fun _ _ => rfl, rfl, rfl, .inl rfl⟩
      by_cases paused : after = .paused
      · simp only [paused, ↓reduceIte]
        exact map_updateWhere _ _ fun _ _ => rfl
      · simp only [paused, ↓reduceIte]
    · exact .refl db

theorem enqueue_linked (linked : db.WellLinked) {spec : MessageSpec} {newId version : UUID}
    {email : Email} (fence : db.automationExecutionFence spec.enrollmentId spec.claimGeneration
      (some spec.businessId) (some spec.tenantRootId) (some spec.subscriberId) = true)
    (target : db.enqueueTarget spec = some (email, version)) :
    (newAutomationDelivery spec newId version email).Linked db := by
  simp only [enqueueTarget, Option.bind_eq_bind, Option.bind_eq_some_iff, Option.pure_def,
    Option.some.injEq, Prod.mk.injEq] at target
  obtain ⟨s, s_found, e, e_found, v, v_found, _, rfl⟩ := target
  have s_mem := List.mem_of_find?_eq_some s_found
  have s_is := List.find?_some s_found
  have e_mem := List.mem_of_find?_eq_some e_found
  have e_is := List.find?_some e_found
  have v_is := List.find?_some v_found
  simp only [Bool.and_eq_true, beq_iff_eq] at s_is e_is v_is
  -- The enrollment that was selected is the one that passed the fence.
  obtain ⟨e', e'_mem, fenced⟩ := List.any_eq_true.mp fence
  simp only [Bool.and_eq_true, beq_iff_eq, Option.all_some] at fenced
  obtain ⟨⟨⟨⟨⟨⟨e'_id, _⟩, _⟩, business⟩, root⟩, subscriber⟩, _⟩ := fenced
  obtain rfl := linked.enrollmentIds.eq_of_key e'_mem e_mem (e'_id.trans e_is.symm)
  refine ⟨⟨e'.id, e'.automationId, e'.versionId, ?_, ?_, ?_, v, List.mem_of_find?_eq_some v_found,
    v_is.1, ?_⟩, ?_, rfl⟩
  · simp [newAutomationDelivery, e'_id]
  · simp [newAutomationDelivery, v_is.1]
  · refine List.mem_map.mpr ⟨e', e'_mem, ?_⟩
    simp [AutomationEnrollment.owner, newAutomationDelivery, business, root, subscriber]
  · simpa [hasTemplate, newAutomationDelivery] using v_is.2
  · refine ⟨s.listId, List.mem_map.mpr ⟨s, s_mem, ?_⟩⟩
    simp [Subscriber.owner, newAutomationDelivery, s_is.1.1, s_is.1.2, s_is.2]

end Database

theorem TableStep.keeps {db db' : Database} (linked : db.WellLinked) (step : TableStep db db') :
    db.Keeps db' := by
  cases step with
  | claimDue now limit lease locked | failStep now f =>
    exact .ofEnrollments db (map_updateWhere _ _ fun _ _ => rfl)
  | recordStep ran =>
    rcases automationRecordStep_cases ran with
      ⟨_, rfl⟩ | ⟨_, _, e, _, ⟨_, rfl⟩ | ⟨_, rfl⟩⟩
    · exact .refl db'
    · exact .refl db'
    · exact ⟨rfl, map_updateWhere _ _ fun _ _ => rfl, rfl, rfl, rfl, .inl rfl⟩
  | enqueue ran =>
    rcases mailingEnqueueDelivery_cases ran with
      rfl | ⟨fence, _, email, version, target, _, fresh, rfl⟩
    · exact .refl db'
    · exact ⟨rfl, rfl, rfl, rfl, rfl,
        .inr ⟨_, enqueue_linked linked fence target, fresh, rfl⟩⟩
  | exit now enrollment automation business root =>
    unfold exitEnrollment
    split
    · exact .refl db
    · exact .ofEnrollments db (map_updateWhere _ _ fun _ _ => rfl)
  | pause automation business root | resume automation business root =>
    exact db.transition_keeps _ _ _ _ _
  | claimDeliveries call => exact db.claimDeliveries_keeps call
  | renew now id generation lease | release now id generation notBefore =>
    exact db.updateHeld_keeps id generation _ fun _ => rfl
  | fail ran =>
    simp only [mailingFailDelivery] at ran
    split at ran
    · cases ran
    · obtain ⟨rfl, _⟩ := Prod.mk.inj (Except.ok.inj ran)
      exact db.updateHeld_keeps _ _ _ fun _ => rfl
  | complete ran =>
    rcases completeDelivery_feedsBack linked.deliveryIds ran with ⟨_, rfl⟩ | ⟨_, frame⟩
    · exact .refl db'
    · obtain ⟨settings, enrollments, automations, subscribers, versions, deliveries⟩ := frame.keeps
      refine ⟨settings, enrollments, automations, subscribers, versions, ?_⟩
      rcases deliveries with same | ⟨row, _, _, added⟩
      · exact .inl (same.trans (map_updateWhere _ _ fun _ _ => rfl))
      · have := frame.deliveries.length_eq
        simp [added] at this

/-- No function breaks a key or a link. -/
theorem wellLinked_preserved : Preserved TableStep Database.WellLinked :=
  fun _ _ step linked => (step.keeps linked).wellLinked linked

/-- Automation mail stays linked, whatever the transactions do. -/
theorem mail_stays_linked {db db' : Database} (linked : db.WellLinked)
    (run : Reaches TableStep db db') : db'.WellLinked :=
  wellLinked_preserved.reaches run linked

/-! ### Agreement -/

/-- The enrollment `e` of the delivery and its automation are active, the subscriber is active and
the address is not suppressed. -/
structure Delivery.Fit (d : Delivery) (db : Database) (e : AutomationEnrollment) : Prop where
  enrollment : e ∈ db.enrollments
  own : d.automationEnrollmentId = some e.id
  active : e.status = .active
  automation : ∃ a ∈ db.automations, a.id = e.automationId ∧ a.status = .active
  subscriber : ∃ s ∈ db.subscribers, s.id = d.subscriberId ∧ s.status = .active
  unsuppressed : db.suppressed d.businessId d.email = false

/-- What `mailing_claim_deliveries` asks of the tables that no transaction writes: the business and
the list of the subscriber operate, and a profile is ready. -/
structure Delivery.Served (d : Delivery) (db : Database) : Prop where
  root : db.rootWriteAllowed d.tenantRootId = true
  business : db.businessOperational d.businessId d.tenantRootId = true
  list : ∃ s ∈ db.subscribers, s.id = d.subscriberId ∧
    db.listOperational s.listId s.businessId s.tenantRootId = true
  profile : ∃ p ∈ db.profiles, p.businessId = d.businessId ∧ p.tenantRootId = d.tenantRootId ∧
    p.status = .verified ∧ p.feedbackStatus = .ready

section Agreement

variable {db db' : Database} {d : Delivery} {e : AutomationEnrollment}

theorem Delivery.Served.keeps (served : d.Served db) (keeps : db.Keeps db') : d.Served db' := by
  obtain ⟨roots, businesses, lists, profiles⟩ : db'.fencedRoots = db.fencedRoots ∧
      db'.businesses = db.businesses ∧ db'.lists = db.lists ∧ db'.profiles = db.profiles := by
    simpa [settings] using keeps.settings
  obtain ⟨root, business, ⟨s, member, own, operating⟩, profile⟩ := served
  refine ⟨?_, ?_, ?_, by rwa [profiles]⟩
  · rwa [rootWriteAllowed, roots]
  · rwa [businessOperational, businesses]
  · -- The subscriber stays on its list.
    obtain ⟨s', member', same⟩ := List.mem_map.mp (keeps.subscribers ▸ List.mem_map_of_mem member)
    simp only [Subscriber.owner, Prod.mk.injEq] at same
    refine ⟨s', member', same.1.trans own, ?_⟩
    rw [same.2.1, same.2.2.1, same.2.2.2]
    simp only [listOperational, businessOperational, lists, businesses] at *
    exact operating

theorem served_preserved (d : Delivery) :
    Preserved TableStep fun db => db.WellLinked ∧ d.Served db :=
  fun _ _ step ⟨linked, served⟩ =>
    ⟨(step.keeps linked).wellLinked linked, served.keeps (step.keeps linked)⟩

/-- The claim has checked all of it. -/
theorem served_of_claimable {call : Database.ClaimCall}
    (claimable : db.deliveryClaimable call.now d = true) :
    (Database.ClaimChange.claim.apply call.now call.lease d).Served db := by
  simp only [deliveryClaimable, Bool.and_eq_true, List.any_eq_true] at claimable
  obtain ⟨⟨⟨⟨⟨_, s, member, ⟨⟨own, _⟩, _⟩, operating⟩, business⟩, p, isProfile, ready⟩, _⟩, root⟩ :=
    claimable
  simp only [subscriberOf, profileReady, Bool.and_eq_true, beq_iff_eq] at own ready
  exact ⟨root, business, ⟨s, member, own.1, operating⟩,
    ⟨p, isProfile, ready.1.1.1.1, ready.1.1.1.2, ready.1.2, ready.2⟩⟩

theorem Delivery.Fit.owner (fit : d.Fit db e) (linked : db.WellLinked) (own : d.Linked db) :
    e.subscriberId = d.subscriberId ∧ d.automationVersionId = some e.versionId ∧
      e.businessId = d.businessId ∧ e.tenantRootId = d.tenantRootId ∧
      ∃ v ∈ db.versions, v.id = e.versionId ∧ hasTemplate v d = true := by
  obtain ⟨id, automation, version, enrollment, versionId, member, template⟩ := own.enrollment
  obtain ⟨e', e'_mem, owner⟩ := List.mem_map.mp member
  simp only [AutomationEnrollment.owner, Prod.mk.injEq] at owner
  obtain ⟨e'_id, business, root, _, e'_version, subscriber⟩ := owner
  have same : e'.id = e.id := by
    have := enrollment.symm.trans fit.own
    rw [e'_id]
    exact Option.some.inj this
  obtain rfl := linked.enrollmentIds.eq_of_key e'_mem fit.enrollment same
  exact ⟨subscriber, by rw [e'_version]; exact versionId, business, root, by
    rw [e'_version]; exact template⟩

/-- The conditions of `mailing_renew_delivery` on the rest of the database come down to the
generation. -/
theorem Delivery.Fit.sendable_iff (fit : d.Fit db e) (served : d.Served db) (linked : db.WellLinked)
    (automation : d.sourceKind = .automation) (own : d.Linked db) :
    db.deliverySendable d = true ↔ d.automationClaimGeneration = some e.claimGeneration := by
  obtain ⟨subscriberId, versionId, business, root, v, v_mem, v_id, template⟩ := fit.owner linked own
  constructor
  · intro sendable
    simp only [deliverySendable, Bool.and_eq_true, Bool.or_eq_true, List.any_eq_true,
      beq_iff_eq] at sendable
    obtain ⟨⟨_, ⟨_, e', e'_mem, found⟩ | ⟨other, _⟩⟩, _⟩ := sendable
    · obtain ⟨⟨⟨⟨⟨⟨⟨⟨enrollment, _⟩, _⟩, _⟩, _⟩, generation⟩, _⟩, _⟩, _⟩ := found
      have same : e'.id = e.id := Option.some.inj (enrollment.symm.trans fit.own)
      rwa [linked.enrollmentIds.eq_of_key e'_mem fit.enrollment same] at generation
    · simp [automation] at other
  · intro generation
    obtain ⟨a, a_mem, a_id, a_active⟩ := fit.automation
    obtain ⟨s, s_mem, s_id, s_active⟩ := fit.subscriber
    obtain ⟨listed, listed_mem, listed_id, operating⟩ := served.list
    obtain rfl := linked.subscriberIds.eq_of_key listed_mem s_mem (listed_id.trans s_id.symm)
    obtain ⟨p, p_mem, p_business, p_root, verified, ready⟩ := served.profile
    -- The automation, version and subscriber rows have the columns the joins ask for.
    have foreign := linked.foreign e.id e.businessId e.tenantRootId e.automationId e.versionId
      e.subscriberId (List.mem_map.mpr ⟨e, fit.enrollment, rfl⟩)
    obtain ⟨a', a'_mem, a'_owner⟩ := List.mem_map.mp foreign.1
    simp only [Automation.owner, Prod.mk.injEq] at a'_owner
    obtain rfl := linked.automationIds.eq_of_key a'_mem a_mem (a'_owner.1.trans a_id.symm)
    obtain ⟨v', v'_mem, v'_id, v'_automation, v'_business, v'_root⟩ := foreign.2
    obtain rfl := linked.versionIds.eq_of_key v'_mem v_mem (v'_id.trans v_id.symm)
    obtain ⟨list, onList⟩ := own.subscriber
    obtain ⟨s', s'_mem, s'_owner⟩ := List.mem_map.mp onList
    simp only [Subscriber.owner, Prod.mk.injEq] at s'_owner
    obtain rfl := linked.subscriberIds.eq_of_key s'_mem s_mem (s'_owner.1.trans s_id.symm)
    obtain ⟨l, l_mem, l_is⟩ := List.any_eq_true.mp operating
    simp only [Bool.and_eq_true, beq_iff_eq] at l_is
    obtain ⟨⟨⟨⟨l_id, l_business⟩, l_root⟩, _⟩, _⟩ := l_is
    have found : (db.lists.any fun l => l.id == s'.listId && l.businessId == s'.businessId &&
        l.tenantRootId == s'.tenantRootId &&
        db.listOperational l.id l.businessId l.tenantRootId) = true :=
      List.any_eq_true.mpr ⟨l, l_mem, by simp [l_id, l_business, l_root, operating]⟩
    simp only [deliverySendable, Bool.and_eq_true, Bool.or_eq_true, Bool.not_eq_true',
      List.any_eq_true, beq_iff_eq]
    refine ⟨⟨⟨⟨served.business, s', s'_mem, ⟨⟨⟨s_id, s'_owner.2.1⟩, s'_owner.2.2.1⟩, s_active⟩, ?_⟩,
      p, p_mem, ?_⟩, .inl ⟨automation, e, fit.enrollment, ?_⟩⟩, fit.unsuppressed⟩
    · exact List.any_eq_true.mp found |>.imp fun _ found => by simpa using found
    · simp [profileReady, own.campaign, p_business, p_root, verified, ready]
    · exact ⟨⟨⟨⟨⟨⟨⟨⟨fit.own, subscriberId⟩, versionId⟩, business⟩, root⟩, generation⟩,
        .inl fit.active⟩, a', a_mem, ⟨⟨a_id, a'_owner.2.1⟩, a'_owner.2.2⟩, a_active⟩,
        v', v_mem, ⟨⟨⟨v_id, v'_automation⟩, v'_business⟩, v'_root⟩, template⟩

end Agreement

/-- A delivery of an automation that `mailing_claim_deliveries` returned in a reachable state, and
whose row is as it was returned in a later one, with the enrollment, the automation and the
subscriber active and the address not suppressed, can be renewed there with the returned generation
exactly when its enrollment has not been claimed since the delivery was enqueued. -/
theorem claim_renew_agreement {start db db' : Database} (linked : start.WellLinked)
    (reached : Reaches TableStep start db) (call : Database.ClaimCall)
    {row : Database.ClaimedDelivery} (returned : row ∈ (db.mailingClaimDeliveries call).2)
    (automation : row.delivery.sourceKind = .automation)
    (later : Reaches TableStep (db.mailingClaimDeliveries call).1 db')
    (untouched : row.delivery ∈ db'.deliveries) (e : AutomationEnrollment)
    (fit : row.delivery.Fit db' e) (now : Timestamp) (lease : Int) :
    (db'.mailingRenewDelivery now row.delivery.id row.delivery.claimGeneration lease).2 = true ↔
      row.delivery.automationClaimGeneration = some e.claimGeneration := by
  have linked_db := wellLinked_preserved.reaches reached linked
  obtain ⟨d, _, claimable, claimed, _⟩ :=
    mailingClaimDeliveries_returned linked_db.deliveryIds returned
  obtain ⟨linked', served⟩ := (served_preserved row.delivery).reaches
    (.head (.claimDeliveries db call) later) ⟨linked_db, claimed ▸ served_of_claimable claimable⟩
  have sending : row.delivery.status = .sending := by rw [claimed]; rfl
  have held : db'.heldBy row.delivery.id row.delivery.claimGeneration row.delivery = true := by
    simp [heldBy, sending, served.root]
  rw [← fit.sendable_iff served linked' automation (linked'.deliveries _ untouched automation)]
  simp only [mailingRenewDelivery, updateHeld, List.any_eq_true,
    Bool.and_eq_true]
  constructor
  · rintro ⟨d', member', isHeld, sendable⟩
    simp only [heldBy, Bool.and_eq_true, beq_iff_eq] at isHeld
    rwa [linked'.deliveryIds.eq_of_key member' untouched isHeld.1.1.1] at sendable
  · intro sendable
    exact ⟨row.delivery, untouched, held, sendable⟩

namespace Sample

/-- The welcome message of the sample automation: the enrollment is claimed, its trigger node is
recorded, the message is enqueued and its node recorded, all under generation 1. -/
def dueClaimed : Database := (database.automationClaimDue 0 50 (seconds 60) fun _ => false).1

def stepRecord (node : String) (kind : NodeKind) (outcome : StepOutcome) (next : String)
    (delivery : Option UUID) : StepRecord :=
  ⟨70, 1, node, kind, outcome, some next, none, .active, delivery, ⟨none, none⟩, 0⟩

def startCall :=
  dueClaimed.automationRecordStep (stepRecord "start" .trigger .advanced "welcome" none)

def started : Database := resultOf dueClaimed startCall

def enqueueCall :=
  started.mailingEnqueueDelivery ⟨1, 1, 50, 30, 70, 1, true, true, 80, 0⟩ 90

def enqueued : Database := resultOf started enqueueCall

def welcomeCall :=
  enqueued.automationRecordStep (stepRecord "welcome" .sendEmail .sent "rest" (some 90))

def welcomed : Database := resultOf enqueued welcomeCall

/-- The stepper goes on with the enrollment, under generation 2. -/
def dueAgain : Database := (welcomed.automationClaimDue 1 50 (seconds 60) fun _ => false).1

def mailClaim : Database.ClaimCall := ⟨2, 10, seconds 120, fun _ => false, fun _ => .claim⟩

def welcomeRow : Database.ClaimedDelivery :=
  ⟨Database.ClaimChange.claim.apply 2 (seconds 120)
    (newAutomationDelivery ⟨1, 1, 50, 30, 70, 1, true, true, 80, 0⟩ 90 61
      "ada@example.com"), ⟨40, 1, 1, .resend, .verified, .ready⟩⟩

theorem database_wellLinked : database.WellLinked where
  enrollmentIds := by decide
  versionIds := by decide
  automationIds := by decide
  subscriberIds := by decide
  deliveryIds := by decide
  foreign id business root automation version subscriber member := by
    obtain ⟨rfl, rfl, rfl, rfl, rfl, rfl⟩ : id = 70 ∧ business = 1 ∧ root = 1 ∧ automation = 60 ∧
        version = 61 ∧ subscriber = 50 := by
      simpa [database, AutomationEnrollment.owner, newEnrollment] using member
    exact ⟨by decide, _, List.mem_singleton_self _, rfl, rfl, rfl, rfl⟩
  deliveries d member := by simp [database] at member

theorem welcomed_reached : Reaches TableStep database welcomed :=
  .tail (.tail (.tail (.tail .refl (.claimDue database 0 50 (seconds 60) fun _ => false))
    (.recordStep (eq_ok_of_answer dueClaimed (by decide : answerOf startCall = some true))))
    (.enqueue (eq_ok_of_answer started (by decide : answerOf enqueueCall = some (some 90)))))
    (.recordStep (eq_ok_of_answer enqueued (by decide : answerOf welcomeCall = some true)))

theorem welcomed_linked : welcomed.WellLinked :=
  mail_stays_linked database_wellLinked welcomed_reached

/-- The enrollment of the sample in a database. -/
def enrollmentIn (db : Database) : AutomationEnrollment :=
  db.enrollments.headD (newEnrollment 0 0 0 0 0 0 "" 0)

/-- A worker claims the message before the enrollment is claimed again, and can renew it. -/
theorem claim_renew_agreement_first :
    welcomeRow ∈ (welcomed.mailingClaimDeliveries mailClaim).2 ∧
    ((welcomed.mailingClaimDeliveries mailClaim).1.mailingRenewDelivery 3 90 1 (seconds 120)).2 =
      true :=
  have returned : welcomeRow ∈ (welcomed.mailingClaimDeliveries mailClaim).2 := by decide
  have fit : welcomeRow.delivery.Fit (welcomed.mailingClaimDeliveries mailClaim).1
      (enrollmentIn welcomed) :=
    ⟨by decide, by decide, by decide, by decide, by decide, by decide⟩
  ⟨returned, (claim_renew_agreement database_wellLinked welcomed_reached mailClaim returned rfl
    .refl (by decide) (enrollmentIn welcomed) fit 3 (seconds 120)).mpr (by decide)⟩

/-- The send step is committed and everything is active, but the enrollment has been claimed once
more: the worker is handed the message and cannot renew it. -/
theorem renew_refused_after_second_claim :
    database.WellLinked ∧ Reaches TableStep database dueAgain ∧
    dueAgain.stepCompleted 70 "welcome" = true ∧
    welcomeRow ∈ (dueAgain.mailingClaimDeliveries mailClaim).2 ∧
    welcomeRow.delivery ∈ (dueAgain.mailingClaimDeliveries mailClaim).1.deliveries ∧
    welcomeRow.delivery.Fit (dueAgain.mailingClaimDeliveries mailClaim).1 (enrollmentIn dueAgain) ∧
    ((dueAgain.mailingClaimDeliveries mailClaim).1.mailingRenewDelivery 3 90 1 (seconds 120)).2 =
      false :=
  ⟨database_wellLinked,
    .tail welcomed_reached (.claimDue welcomed 1 50 (seconds 60) fun _ => false),
    by decide, by decide, by decide,
    ⟨by decide, by decide, by decide, by decide, by decide, by decide⟩, by decide⟩

end Sample

end Manyforge
