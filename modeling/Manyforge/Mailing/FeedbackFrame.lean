import Manyforge.Lib.Calls
import Manyforge.Mailing.Severity

/-!
# What feedback can change

A frame for every function that applies provider events: which tables they write,
and what each write can do to a row.
-/
namespace Manyforge

open Calls Table JoinAction

namespace Database

/-- Feedback changes a delivery's status only, and only once the message was sent. -/
def FedBack (d d' : Delivery) : Prop :=
  d' = { d with status := d'.status } ∧
    (d'.status = d.status ∨ (d.providerMessageId.isSome = true ∧
      (d'.status = .delivered ∨ d'.status = .bounced ∨ d'.status = .complained)))

theorem FedBack.refl (d : Delivery) : FedBack d d := ⟨rfl, .inl rfl⟩

theorem FedBack.trans (a b c : Delivery) (first : FedBack a b) (second : FedBack b c) :
    FedBack a c := by
  obtain ⟨same, status⟩ := first
  obtain ⟨same', status'⟩ := second
  have message : b.providerMessageId = a.providerMessageId := by rw [same]
  refine ⟨?_, ?_⟩
  · rw [same', same]
  · rw [message] at status'
    rcases status' with kept | changed
    · rw [kept]
      exact status
    · exact .inr changed

/-- A suppression stays; its reason can only become a bounce or a complaint, and a complaint
stays one. -/
def StaysSuppressed (s s' : MailingSuppression) : Prop :=
  s'.businessId = s.businessId ∧ s'.tenantRootId = s.tenantRootId ∧ s'.email = s.email ∧
    (s' = s ∨ (s.reason ≠ .complaint ∧ (s'.reason = .bounce ∨ s'.reason = .complaint)))

theorem StaysSuppressed.trans {a b c : MailingSuppression} (first : StaysSuppressed a b)
    (second : StaysSuppressed b c) : StaysSuppressed a c := by
  obtain ⟨business, root, email, reason⟩ := first
  obtain ⟨business', root', email', reason'⟩ := second
  refine ⟨business'.trans business, root'.trans root, email'.trans email, ?_⟩
  rcases reason with rfl | ⟨weaker, stronger⟩
  · exact reason'
  · rcases reason' with rfl | ⟨_, stronger'⟩
    · exact .inr ⟨weaker, stronger⟩
    · exact .inr ⟨weaker, stronger'⟩

/-- A subscriber is marked with some severity. -/
def Marked (s s' : Subscriber) : Prop := ∃ v, s' = mark v s

theorem Marked.refl (s : Subscriber) : Marked s s := ⟨⊥, rfl⟩

theorem Marked.trans (a b c : Subscriber) : Marked a b → Marked b c → Marked a c := by
  rintro ⟨v, rfl⟩ ⟨v', rfl⟩
  exact ⟨v ⊔ v', mark_acts.join v v' a⟩

/-- What applying provider events does to the database. -/
structure FeedsBack (db db' : Database) : Prop where
  deliveries : RowByRow FedBack db.deliveries db'.deliveries
  tracking : db.trackingEvents <+: db'.trackingEvents
  suppressions : ∀ s ∈ db.suppressions, ∃ s' ∈ db'.suppressions, StaysSuppressed s s'
  subscribers : RowByRow Marked db.subscribers db'.subscribers
  rest : db' = { db with
    deliveries := db'.deliveries, trackingEvents := db'.trackingEvents
    suppressions := db'.suppressions, subscribers := db'.subscribers, webhooks := db'.webhooks }

namespace FeedsBack

variable {db db' : Database}

theorem ofWebhooks (db : Database) (webhooks : List ProviderWebhook) :
    FeedsBack db { db with webhooks } where
  deliveries := .refl FedBack.refl _
  tracking := List.prefix_rfl
  suppressions s member := ⟨s, member, rfl, rfl, rfl, .inl rfl⟩
  subscribers := .refl Marked.refl _
  rest := rfl

theorem refl (db : Database) : FeedsBack db db := ofWebhooks db db.webhooks

theorem trans {a b c : Database} (first : FeedsBack a b) (second : FeedsBack b c) :
    FeedsBack a c where
  deliveries := first.deliveries.trans FedBack.trans second.deliveries
  tracking := first.tracking.trans second.tracking
  suppressions s member := by
    obtain ⟨s', member', stays⟩ := first.suppressions s member
    obtain ⟨s'', member'', stays'⟩ := second.suppressions s' member'
    exact ⟨s'', member'', stays.trans stays'⟩
  subscribers := first.subscribers.trans Marked.trans second.subscribers
  rest := by rw [second.rest, first.rest]

end FeedsBack

variable {db db' : Database} {now : Timestamp} {payload : ProviderPayload}

theorem mergeDeliveryStatus_cases (kind : TrackKind) (old : DeliveryStatus) :
    mergeDeliveryStatus (feedbackStatus kind) old = old ∨
      mergeDeliveryStatus (feedbackStatus kind) old = .delivered ∨
      mergeDeliveryStatus (feedbackStatus kind) old = .bounced ∨
      mergeDeliveryStatus (feedbackStatus kind) old = .complained := by
  cases kind <;> cases old <;> decide

theorem upsertSuppression_stays (d : Delivery) (kind : TrackKind) (rows : List MailingSuppression) :
    ∀ s ∈ rows, ∃ s' ∈ upsertSuppression (providerSuppression d kind) rows, StaysSuppressed s s' := by
  intro s member
  unfold upsertSuppression
  split
  · refine ⟨_, mem_updateWhere.mpr ⟨s, member, rfl⟩, ?_⟩
    split
    next =>
      by_cases complaint : s.reason = .complaint
      · simp [complaint, StaysSuppressed]
      · refine ⟨by simp [complaint], by simp [complaint], by simp [complaint], .inr ⟨complaint, ?_⟩⟩
        by_cases reported : kind = .complaint <;> simp [complaint, providerSuppression, reported]
    next => exact ⟨rfl, rfl, rfl, .inl rfl⟩
  · exact ⟨s, List.mem_append_left _ member, rfl, rfl, rfl, .inl rfl⟩

theorem FeedsBack.unique (frame : FeedsBack db db') (unique : UniqueOn (·.id) db.deliveries) :
    UniqueOn (·.id) db'.deliveries :=
  frame.deliveries.uniqueOn (fun _ _ fed => by rw [fed.1]) unique

theorem applyFeedback_feedsBack (unique : UniqueOn (·.id) db.deliveries) {d : Delivery}
    (member : d ∈ db.deliveries) (sent : d.providerMessageId.isSome = true) (kind : TrackKind)
    (occurredAt : Option Timestamp) :
    FeedsBack db (db.applyFeedback now payload d kind occurredAt) where
  deliveries := by
    refine .updateWhere FedBack.refl fun x x_mem same => ?_
    obtain rfl := unique.eq_of_key x_mem member (by simpa using same)
    refine ⟨rfl, ?_⟩
    rcases mergeDeliveryStatus_cases kind x.status with kept | changed
    · exact .inl kept
    · exact .inr ⟨sent, changed⟩
  tracking := List.prefix_append _ _
  suppressions := by
    by_cases counts : kind = .bounce ∨ kind = .complaint
    · simpa only [applyFeedback, if_pos counts] using upsertSuppression_stays d kind db.suppressions
    · intro s held
      exact ⟨s, by simpa only [applyFeedback, if_neg counts] using held, rfl, rfl, rfl, .inl rfl⟩
  subscribers := by
    by_cases counts : kind = .bounce ∨ kind = .complaint
    · simp only [applyFeedback, if_pos counts]
      refine .updateWhere Marked.refl fun s _ _ => ?_
      rcases counts with rfl | rfl
      · exact ⟨.bounced, rfl⟩
      · exact ⟨.complained, rfl⟩
    · simpa only [applyFeedback, if_neg counts] using .refl Marked.refl _
  rest := rfl

theorem correlates_sent {profile : UUID} {messageId : String} {recipient : Email} {d : Delivery}
    (found : db.correlates profile messageId recipient d = true) :
    d.providerMessageId = some messageId := by
  simp only [correlates, Bool.and_eq_true, beq_iff_eq] at found
  exact found.1.1.2

def Applies {α : Type} (db : Database) (call : Except SqlError (Database × α)) : Prop :=
  Returns (fun db' _ => FeedsBack db db') call

theorem Applies.after {α : Type} {call : Except SqlError (Database × α)} (frame : FeedsBack db db')
    (applies : Applies db' call) : Applies db call :=
  fun _ _ returned => frame.trans (applies returned)

section Calls

variable (unique : UniqueOn (·.id) db.deliveries)

include unique

theorem applyEvent_feedsBack (event : NormalizedEvent) :
    FeedsBack db (db.mailingApplyProviderEventInternal now payload event).1 := by
  simp only [mailingApplyProviderEventInternal]
  split
  · exact .refl db
  next d found =>
  split
  · exact .refl db
  · refine applyFeedback_feedsBack unique (List.mem_of_find?_eq_some found) ?_ _ _
    rw [correlates_sent (List.find?_some found)]
    rfl

theorem applyEvents_feedsBack {events : List NormalizedEvent}
    (call : applyEvents now payload events db = .ok db') : FeedsBack db db' := by
  induction events generalizing db with
  | nil =>
    obtain rfl : db = db' := by simpa [applyEvents] using call
    exact .refl db
  | cons event rest ih =>
    have first : FeedsBack db (db.mailingApplyProviderEventInternal now payload event).1 :=
      applyEvent_feedsBack unique event
    simp only [applyEvents] at call
    split at call
    · cases call
    next mid applied =>
      rw [applied] at first
      exact first.trans (ih (first.unique unique) call)

theorem applyPendingWebhook_feedsBack {id : UUID} :
    Applies db (db.mailingApplyPendingWebhook now id) := by
  unfold mailingApplyPendingWebhook
  split
  · exact .ok (.refl db)
  split
  · exact .ok (.refl db)
  split
  · exact .ok (.ofWebhooks db _)
  split
  · exact .ok (.refl db)
  split
  · exact .error
  next mid applied => exact .ok ((applyEvents_feedsBack unique applied).trans (.ofWebhooks mid _))

theorem applyWaiting_feedsBack {ids : List UUID} (call : applyWaiting now ids db = .ok db') :
    FeedsBack db db' := by
  induction ids generalizing db with
  | nil =>
    obtain rfl : db = db' := by simpa [applyWaiting] using call
    exact .refl db
  | cons id rest ih =>
    simp only [applyWaiting] at call
    split at call
    · cases call
    next mid answer applied =>
      have first := applyPendingWebhook_feedsBack unique applied
      exact first.trans (ih (first.unique unique) call)

theorem settleWebhook_feedsBack {profile stored : UUID} {inserted : Bool} :
    Applies db (db.settleWebhook now profile stored inserted) := by
  unfold settleWebhook
  split
  · exact .error
  next mid applied => exact .ok (applyPendingWebhook_feedsBack unique applied)
  next mid refused =>
  have first := applyPendingWebhook_feedsBack unique refused
  simp only []
  split
  · cases inserted
    · exact .ok first
    · exact .ok (first.trans (.ofWebhooks mid _))
  · exact .ok first

theorem admitWebhook_feedsBack {r : WebhookRequest} {p : SendingProfile} {newId : UUID} :
    Applies db (db.admitWebhook now r p newId) := by
  unfold admitWebhook
  split
  · split
    · exact .ok (.refl db)
    · exact settleWebhook_feedsBack unique
  split
  · exact .error
  · refine .after (.ofWebhooks db _) (settleWebhook_feedsBack ?_)
    exact unique

theorem processProviderWebhook_feedsBack {r : WebhookRequest} {newId : UUID}
    {locked : ProviderWebhook → Bool} :
    Applies db (db.mailingProcessProviderWebhook now r newId locked) := by
  unfold mailingProcessProviderWebhook
  split
  · exact .ok (.refl db)
  split
  · exact .ok (.refl db)
  simp only []
  split
  · exact .ok (.ofWebhooks db _)
  split
  · exact .ok (.ofWebhooks db _)
  split
  · exact .ok (.ofWebhooks db _)
  · refine .after (.ofWebhooks db _) (admitWebhook_feedsBack ?_)
    exact unique

theorem completeDelivery_feedsBack {id : UUID} {generation : Nat} {messageId : String}
    {locked : ProviderWebhook → Bool} {answer : Bool}
    (call : db.mailingCompleteDelivery now id generation messageId locked = .ok (db', answer)) :
    (answer = false ∧ db' = db) ∨
      ((∃ own ∈ db.deliveries, db.heldBy id generation own = true) ∧ FeedsBack { db with
        deliveries :=
  updateWhere (db.heldBy id generation) (sentRow messageId) db.deliveries } db') := by
  simp only [mailingCompleteDelivery] at call
  split at call
  next =>
    obtain ⟨rfl, rfl⟩ := Prod.mk.inj (Except.ok.inj call)
    exact .inl ⟨rfl, rfl⟩
  next held found =>
  split at call
  · cases call
  next final applied =>
  obtain ⟨rfl, rfl⟩ := Prod.mk.inj (Except.ok.inj call)
  refine .inr ⟨⟨held, List.mem_of_find?_eq_some found, List.find?_some found⟩,
    (FeedsBack.ofWebhooks _ _).trans (applyWaiting_feedsBack ?_ applied)⟩
  exact unique.updateWhere fun _ _ => rfl

end Calls

end Database

end Manyforge
