import Manyforge.Automations.Stepper
import Manyforge.Lib.Transition
import Manyforge.Mailing.FeedbackFrame
import Manyforge.Mailing.Message

/-!
# Provider feedback converges

Webhooks about one message arrive in any order and any number of times, before and
after the delivery is completed, while the rest of the program runs. Once nothing
about the message is stored any more, its rows are determined by the set of events
that were received.
-/
namespace Manyforge

open Table JoinAction Transition Message
open Database (mark concerns suppress sentRow)

/-! ### What the rows say -/

namespace Message

variable (m : Message) (db : Database)

def deliveryStatus : Option DeliveryStatus := (m.rows db).head?.map (·.status)

def suppressionReason : Option SuppressionReason :=
  (m.suppressionsOf db).head?.map (·.reason)

def subscriberStatus : Option SubscriberStatus :=
  (m.subscribersOf db).head?.map (·.status)

/-- The provider's tracking events of one kind. -/
def trackedCount (kind : TrackKind) (db : Database) : Nat := (m.tracked db).count kind

/-- The delivery has been completed with the message's id. -/
def Sent : Prop :=
  ∃ d, m.rows db = [d] ∧ d.providerMessageId = some m.messageId

end Message

/-- The suppression reason feedback of some severity leaves; a complaint that was there stays. -/
def Severity.reasonAfter : Severity → Option SuppressionReason → Option SuppressionReason
  | complained, _ => some .complaint
  | bounced, old => if old = some .complaint then old else some .bounce
  | _, old => old

/-- The subscriber status feedback of some severity leaves. -/
def Severity.statusAfter : Severity → SubscriberStatus → SubscriberStatus
  | complained, _ => .complained
  | bounced, old => if old = .complained then old else .bounced
  | _, old => old

theorem Severity.reasonAfter_mono {v w : Severity} (more : v ≤ w) (old : Option SuppressionReason) :
    (v.reasonAfter old = some .complaint → w.reasonAfter old = some .complaint) ∧
      (v.reasonAfter old = some .bounce →
        w.reasonAfter old = some .bounce ∨ w.reasonAfter old = some .complaint) := by
  revert more
  rcases old with _ | old
  · cases v <;> cases w <;> decide
  · cases old <;> cases v <;> cases w <;> decide

theorem Severity.statusAfter_mono {v w : Severity} (more : v ≤ w) (old : Option SubscriberStatus) :
    (old.map v.statusAfter = some .complained → old.map w.statusAfter = some .complained) ∧
      (old.map v.statusAfter = some .bounced →
        old.map w.statusAfter = some .bounced ∨ old.map w.statusAfter = some .complained) := by
  revert more
  rcases old with _ | old
  · cases v <;> cases w <;> decide
  · cases old <;> cases v <;> cases w <;> decide

theorem mark_status (v : Severity) (s : Subscriber) :
    (mark v s).status = v.statusAfter s.status := by
  cases v <;> simp only [mark, Database.markSubscriber, Severity.statusAfter, id] <;>
    grind

theorem suppress_reason (d : Delivery) (v : Severity) (rows : List MailingSuppression)
    (own : ∀ s ∈ rows, concerns d.businessId d.email s = true) :
    (suppress d v rows).head?.map (·.reason) =
      v.reasonAfter (rows.head?.map (·.reason)) := by
  cases rows with
  | nil => cases v <;> rfl
  | cons s rest =>
    have concerned : s.businessId = d.businessId ∧ s.email = d.email := by
      simpa [concerns] using own s List.mem_cons_self
    cases v with
    | sent | delivered => rfl
    | bounced | complained =>
      by_cases complaint : s.reason = .complaint <;>
        simp [suppress, Database.upsertSuppression, Database.providerSuppression,
          updateWhere, concerned, complaint, Severity.reasonAfter]

/-! ### Runs -/

structure FeedbackState where
  db : Database
  /-- The kinds of the events the webhook endpoint accepted so far. -/
  received : List TrackKind

/-- A transaction of the rest of the program: it leaves the feedback about the message alone. Until
the delivery is completed it may do what it likes with its row. -/
structure Message.Untouched (m : Message) (facts : UUID → String → List TrackKind)
    (db db' : Database) : Prop where
  row : ∀ d, m.rows db = [d] → ∃ d', m.rows db' = [d'] ∧ m.Targets d' ∧
    ((d'.providerMessageId = d.providerMessageId ∧ d'.status = d.status) ∨
      (d.providerMessageId ≠ some m.messageId ∧ d'.providerMessageId ≠ some m.messageId))
  only : ∀ d ∈ db'.deliveries, d.providerMessageId = some m.messageId →
    d.email = m.delivery.email → d.id = m.delivery.id
  unique : UniqueOn (·.id) db'.deliveries
  tracking : db'.trackingEvents.filter m.reports = db.trackingEvents.filter m.reports
  foreignTracking : ∀ e ∈ db'.trackingEvents, e ∈ db.trackingEvents ∨
    ∀ payload, e.providerPayload = some payload →
      facts payload.providerProfileId payload.externalEventId = []
  webhooks : db'.webhooks.filter m.mentions = db.webhooks.filter m.mentions
  foreignWebhooks : ∀ w ∈ db'.webhooks, m.mentions w = true ∨ facts w.profileId w.externalEventId = []
  ids : UniqueOn (·.id) db'.webhooks
  suppressions : m.suppressionsOf db' = m.suppressionsOf db
  subscribers : m.subscribersOf db' = m.subscribersOf db

/-- The transactions. No stored event about the message is older than its lifetime; `facts` is
what the provider reports about the message under each event id. -/
inductive FeedbackStep (m : Message) (facts : UUID → String → List TrackKind) :
    FeedbackState → FeedbackState → Prop
  | webhook (s : FeedbackState) {now : Timestamp} {r : Database.WebhookRequest} {newId : UUID}
      {locked : ProviderWebhook → Bool} {db' : Database} {outcome : Database.WebhookOutcome}
      (reports : m.Reports facts r)
      (unexpired : ∀ w ∈ s.db.webhooks, m.mentions w = true → now < w.expiresAt)
      (call : s.db.mailingProcessProviderWebhook now r newId locked = .ok (db', outcome)) :
      FeedbackStep m facts s ⟨db', receivedAfter s.received r outcome⟩
  | complete (s : FeedbackState) {now : Timestamp} {generation : Nat}
      {locked : ProviderWebhook → Bool} {db' : Database} {answer : Bool}
      (unexpired : ∀ w ∈ s.db.webhooks, m.mentions w = true → now < w.expiresAt)
      (call : s.db.mailingCompleteDelivery now m.delivery.id generation m.messageId locked =
        .ok (db', answer)) :
      FeedbackStep m facts s ⟨db', s.received⟩
  | other (s : FeedbackState) {db' : Database} (untouched : m.Untouched facts s.db db') :
      FeedbackStep m facts s ⟨db', s.received⟩

/-- Nothing about the message has been received. -/
structure Message.Begins (m : Message) (facts : UUID → String → List TrackKind) (db : Database) :
    Prop where
  row : ∃ d, m.rows db = [d] ∧ m.Targets d ∧
    (d.providerMessageId = some m.messageId → d.status = .sent)
  only : ∀ d ∈ db.deliveries, d.providerMessageId = some m.messageId →
    d.email = m.delivery.email → d.id = m.delivery.id
  unique : UniqueOn (·.id) db.deliveries
  untracked : m.tracked db = []
  foreignTracking : ∀ e ∈ db.trackingEvents, ∀ payload, e.providerPayload = some payload →
    facts payload.providerProfileId payload.externalEventId = []
  foreignWebhooks : ∀ w ∈ db.webhooks, m.mentions w = false ∧
    facts w.profileId w.externalEventId = []
  ids : UniqueOn (·.id) db.webhooks

section Runs

variable {m : Message} {facts : UUID → String → List TrackKind} {start db db' : Database}
  {received : List TrackKind}

theorem Message.Begins.follows (begins : m.Begins facts start) : m.Follows facts start start [] := by
  have nothing : m.waiting start = [] := by
    simp only [waiting, List.flatMap_eq_nil_iff]
    exact fun w member => kinds_eq_nil (begins.foreignWebhooks w member).1
  obtain ⟨d, rows, target, status⟩ := begins.row
  refine ⟨⟨⟨d, rows, target, ?_, fun _ => begins.untracked⟩, begins.only, ?_, ?_, ?_⟩,
    ?_, begins.ids, ?_, List.nil_subset _, ?_⟩
  · intro sent
    rw [begins.untracked, status sent]
    rfl
  · rw [begins.untracked]
    exact List.nodup_nil
  · rw [begins.untracked]
    rfl
  · rw [begins.untracked]
    exact (List.map_id _).symm
  · intro w member
    obtain ⟨foreign, none⟩ := begins.foreignWebhooks w member
    exact ⟨by rw [none, kinds_eq_nil foreign], fun own => by simp [foreign] at own⟩
  · intro e member payload written
    rw [begins.foreignTracking e member payload written]
    exact List.nil_subset _
  · rw [nothing, begins.untracked]
    exact List.nil_subset _

theorem Message.mem_waiting_mentions {kind : TrackKind} :
    kind ∈ m.waiting db ↔
      ∃ w ∈ db.webhooks.filter m.mentions, kind ∈ m.kinds w.normalizedEvents := by
  simp only [mem_waiting, List.mem_filter]
  constructor
  · rintro ⟨w, member, carries⟩
    refine ⟨w, ⟨member, ?_⟩, carries⟩
    by_contra foreign
    simp [kinds_eq_nil (Bool.eq_false_iff.mpr foreign)] at carries
  · rintro ⟨w, ⟨member, _⟩, carries⟩
    exact ⟨w, member, carries⟩

theorem Message.Untouched.tracked (untouched : m.Untouched facts db db') :
    m.tracked db' = m.tracked db := by
  rw [Message.tracked, untouched.tracking, Message.tracked]

theorem Message.Follows.other (follows : m.Follows facts start db received)
    (untouched : m.Untouched facts db db') : m.Follows facts start db' received := by
  have tracked := untouched.tracked
  have waiting (kind : TrackKind) : kind ∈ m.waiting db' ↔ kind ∈ m.waiting db := by
    rw [mem_waiting_mentions, untouched.webhooks, ← mem_waiting_mentions]
  refine ⟨⟨?row, untouched.only, ?once, ?suppressions, ?subscribers⟩, ?stored, untouched.ids,
    ?answered, ?kept, ?known⟩
  case row =>
    obtain ⟨d, rows, _, reflected, unsent⟩ := follows.reflects.row
    obtain ⟨d', rows', target', unchanged⟩ := untouched.row d rows
    refine ⟨d', rows', target', ?_, ?_⟩ <;> rw [tracked]
    · intro sent
      rcases unchanged with ⟨message, status⟩ | ⟨_, unsent'⟩
      · rw [status]
        exact reflected (message ▸ sent)
      · exact absurd sent unsent'
    · intro unsent'
      rcases unchanged with ⟨message, _⟩ | ⟨unsent'', _⟩
      · exact unsent (message ▸ unsent')
      · exact unsent unsent''
  case once => rw [tracked]; exact follows.reflects.once
  case suppressions => rw [tracked, untouched.suppressions]; exact follows.reflects.suppressions
  case subscribers => rw [tracked, untouched.subscribers]; exact follows.reflects.subscribers
  case stored =>
    intro w member
    by_cases own : m.mentions w = true
    · have : w ∈ db'.webhooks.filter m.mentions := List.mem_filter.mpr ⟨member, own⟩
      rw [untouched.webhooks] at this
      exact follows.stored w (List.mem_filter.mp this).1
    · have none := (untouched.foreignWebhooks w member).resolve_left own
      exact ⟨by rw [none, kinds_eq_nil (Bool.eq_false_iff.mpr own)],
        fun own' => absurd own' own⟩
  case answered =>
    intro e member payload written
    rw [tracked]
    rcases untouched.foreignTracking e member with old | foreign
    · exact follows.answered e old payload written
    · rw [foreign payload written]
      exact List.nil_subset _
  case kept =>
    intro kind member
    have := follows.kept member
    rw [tracked]
    simp only [List.mem_append, waiting] at this ⊢
    exact this
  case known =>
    intro kind member
    rw [tracked] at member
    refine follows.known ?_
    simp only [List.mem_append, waiting] at member ⊢
    exact member

/-- The invariant of a run that started in `start`. -/
structure FeedbackInv (m : Message) (facts : UUID → String → List TrackKind) (start : Database)
    (s : FeedbackState) : Prop where
  follows : m.Follows facts start s.db s.received
  unique : UniqueOn (·.id) s.db.deliveries

/-- What was applied stays applied, and what was sent stays sent. -/
def FeedbackGrows (m : Message) (s t : FeedbackState) : Prop :=
  m.tracked s.db ⊆ m.tracked t.db ∧ (m.Sent s.db → m.Sent t.db)

theorem sent_of_feedsBack (frame : Database.FeedsBack db db') (sent : m.Sent db) : m.Sent db' := by
  obtain ⟨d, rows, message⟩ := sent
  have fed : RowByRow Database.FedBack (m.rows db) (m.rows db') :=
    frame.deliveries.filter fun a b fed => by rw [fed.1]
  rw [rows] at fed
  rcases List.forall₂_cons_left_iff.mp fed with ⟨d', rest, back, others, rows'⟩
  rw [List.forall₂_nil_left_iff.mp others] at rows'
  exact ⟨d', rows', by rw [back.1]; exact message⟩

theorem sent_of_send (sent : m.Sent db) (held : Delivery → Bool) :
    m.Sent { db with
      deliveries := updateWhere held (sentRow m.messageId) db.deliveries } := by
  obtain ⟨d, rows, message⟩ := sent
  refine ⟨if held d then sentRow m.messageId d else d, ?_, ?_⟩
  · have kept : m.rows { db with
        deliveries := updateWhere held (sentRow m.messageId) db.deliveries } =
        updateWhere held (sentRow m.messageId) (m.rows db) :=
      filter_updateWhere _ fun _ _ => rfl
    rw [kept, rows]
    rfl
  · split
    · rfl
    · exact message

theorem tracked_of_feedsBack (frame : Database.FeedsBack db db') : m.tracked db ⊆ m.tracked db' :=
  List.map_subset _ (frame.tracking.filter m.reports).subset

theorem feedbackStep_grows (s t : FeedbackState) (step : FeedbackStep m facts s t)
    (inv : FeedbackInv m facts start s) : FeedbackGrows m s t := by
  cases step with
  | webhook reports unexpired call =>
    have frame := Database.processProviderWebhook_feedsBack inv.unique call
    exact ⟨tracked_of_feedsBack frame, sent_of_feedsBack frame⟩
  | complete unexpired call =>
    rcases Database.completeDelivery_feedsBack inv.unique call with ⟨_, rfl⟩ | ⟨_, frame⟩
    · exact ⟨List.Subset.refl _, id⟩
    · refine ⟨fun _ applied => tracked_of_feedsBack frame applied, fun sent => ?_⟩
      exact sent_of_feedsBack frame (sent_of_send sent _)
  | other untouched =>
    refine ⟨by rw [untouched.tracked]; exact List.Subset.refl _, ?_⟩
    rintro ⟨d, rows, message⟩
    obtain ⟨d', rows', _, unchanged⟩ := untouched.row d rows
    rcases unchanged with ⟨same, _⟩ | ⟨unsent, _⟩
    · exact ⟨d', rows', same.trans message⟩
    · exact absurd message unsent

/-- No transaction loses or invents an event. -/
theorem feedbackInv_preserved : Preserved (FeedbackStep m facts) (FeedbackInv m facts start) := by
  intro s t step inv
  cases step with
  | webhook reports unexpired call =>
    exact ⟨inv.follows.process reports unexpired call,
      (Database.processProviderWebhook_feedsBack inv.unique call).unique inv.unique⟩
  | complete unexpired call =>
    refine ⟨inv.follows.complete unexpired call, ?_⟩
    rcases Database.completeDelivery_feedsBack inv.unique call with ⟨_, rfl⟩ | ⟨_, frame⟩
    · exact inv.unique
    · exact frame.unique (inv.unique.updateWhere fun _ _ => rfl)
  | other untouched => exact ⟨inv.follows.other untouched, untouched.unique⟩

/-! ### The state after feedback -/

variable {s : FeedbackState}

section

variable (inv : FeedbackInv m facts start s)

include inv

theorem FeedbackInv.suppressionReason :
    m.suppressionReason s.db =
      (worst (m.tracked s.db)).reasonAfter (m.suppressionReason start) := by
  rw [Message.suppressionReason, inv.follows.reflects.suppressions]
  exact suppress_reason _ _ _ fun row member => (List.mem_filter.mp member).2

theorem FeedbackInv.subscriberStatus :
    m.subscriberStatus s.db =
      (m.subscriberStatus start).map (worst (m.tracked s.db)).statusAfter := by
  rw [Message.subscriberStatus, inv.follows.reflects.subscribers, List.head?_map,
    Message.subscriberStatus, Option.map_map, Option.map_map]
  congr 1
  funext row
  exact mark_status _ row

theorem FeedbackInv.deliveryStatus (sent : m.Sent s.db) :
    m.deliveryStatus s.db = some (worst (m.tracked s.db)).status := by
  obtain ⟨d, rows, message⟩ := sent
  obtain ⟨d', rows', _, reflected, _⟩ := inv.follows.reflects.row
  rw [rows] at rows'
  obtain rfl : d = d' := by simpa using rows'
  simp [Message.deliveryStatus, rows, reflected message]

/-- When nothing waits, exactly the received events are applied. -/
theorem FeedbackInv.settled (done : m.waiting s.db = []) (kind : TrackKind) :
    kind ∈ m.tracked s.db ↔ kind ∈ s.received := by
  have kept := inv.follows.kept
  have known := inv.follows.known
  rw [done, List.append_nil] at kept known
  exact ⟨fun applied => known applied, fun received => kept received⟩

theorem FeedbackInv.worst_settled (done : m.waiting s.db = []) :
    worst (m.tracked s.db) = worst s.received :=
  total_congr _ (inv.settled done)

end

/-- Feedback that was recorded is never replaced by something less severe. -/
structure Message.NotDowngraded (m : Message) (db db' : Database) : Prop where
  delivery : m.Sent db → ∃ v v' : Severity, v ≤ v' ∧ m.deliveryStatus db = some v.status ∧
    m.deliveryStatus db' = some v'.status
  complaint : m.suppressionReason db = some .complaint → m.suppressionReason db' = some .complaint
  bounce : m.suppressionReason db = some .bounce →
    m.suppressionReason db' = some .bounce ∨ m.suppressionReason db' = some .complaint
  complained : m.subscriberStatus db = some .complained → m.subscriberStatus db' = some .complained
  bounced : m.subscriberStatus db = some .bounced →
    m.subscriberStatus db' = some .bounced ∨ m.subscriberStatus db' = some .complained

theorem notDowngraded {t : FeedbackState} (before : FeedbackInv m facts start s)
    (after : FeedbackInv m facts start t) (grows : FeedbackGrows m s t) :
    m.NotDowngraded s.db t.db := by
  have more : worst (m.tracked s.db) ≤ worst (m.tracked t.db) :=
    total_le _ fun kind member => le_total _ (grows.1 member)
  refine ⟨fun sent => ⟨_, _, more, before.deliveryStatus sent, after.deliveryStatus (grows.2 sent)⟩,
    ?_, ?_, ?_, ?_⟩
  · rw [before.suppressionReason, after.suppressionReason]
    exact (Severity.reasonAfter_mono more _).1
  · rw [before.suppressionReason, after.suppressionReason]
    exact (Severity.reasonAfter_mono more _).2
  · rw [before.subscriberStatus, after.subscriberStatus]
    exact (Severity.statusAfter_mono more _).1
  · rw [before.subscriberStatus, after.subscriberStatus]
    exact (Severity.statusAfter_mono more _).2

theorem FeedbackInv.of_run {visited : List FeedbackState} (begins : m.Begins facts start)
    (run : Run (FeedbackStep m facts) ⟨start, []⟩ visited) :
    ∀ s ∈ FeedbackState.mk start [] :: visited, FeedbackInv m facts start s :=
  fun _ member =>
    feedbackInv_preserved.reaches (run.reaches _ member) ⟨begins.follows, begins.unique⟩

/-- Along every run nothing is downgraded. In a state where the delivery has been completed and no
event about it waits, the delivery has the most severe status received, suppression and
subscriber are what the most severe event makes of those at the start, every kind received has
one tracking event and no other kind has any; and any other run from the same start that
received the same set of events agrees on all three rows. -/
theorem feedback_converges (m : Message) (facts : UUID → String → List TrackKind)
    {start : Database} (begins : m.Begins facts start) {visited : List FeedbackState}
    (run : Run (FeedbackStep m facts) ⟨start, []⟩ visited) :
    (FeedbackState.mk start [] :: visited).Pairwise (fun s t => m.NotDowngraded s.db t.db) ∧
    ∀ final ∈ visited, m.Sent final.db → m.waiting final.db = [] →
      m.deliveryStatus final.db = some (worst final.received).status ∧
      m.suppressionReason final.db =
        (worst final.received).reasonAfter (m.suppressionReason start) ∧
      m.subscriberStatus final.db =
        (m.subscriberStatus start).map (worst final.received).statusAfter ∧
      (∀ kind, m.trackedCount kind final.db = if kind ∈ final.received then 1 else 0) ∧
      ∀ (visited' : List FeedbackState), Run (FeedbackStep m facts) ⟨start, []⟩ visited' →
        ∀ final' ∈ visited', m.Sent final'.db → m.waiting final'.db = [] →
          (∀ kind, kind ∈ final'.received ↔ kind ∈ final.received) →
          m.deliveryStatus final'.db = m.deliveryStatus final.db ∧
          m.suppressionsOf final'.db = m.suppressionsOf final.db ∧
          m.subscribersOf final'.db = m.subscribersOf final.db := by
  have inv := FeedbackInv.of_run begins run
  refine ⟨?_, ?_⟩
  · have grows := run.pairwise feedbackInv_preserved (fun _ => ⟨List.Subset.refl _, id⟩)
      (fun _ _ _ first second =>
        ⟨List.Subset.trans first.1 second.1, fun sent => second.2 (first.2 sent)⟩)
      feedbackStep_grows ⟨begins.follows, begins.unique⟩
    exact grows.imp_of_mem fun s_mem t_mem grown => notDowngraded (inv _ s_mem) (inv _ t_mem) grown
  · intro final member sent done
    have here := inv final (List.mem_cons_of_mem _ member)
    have settled := here.worst_settled done
    refine ⟨?_, ?_, ?_, ?_, ?_⟩
    · rw [here.deliveryStatus sent, settled]
    · rw [here.suppressionReason, settled]
    · rw [here.subscriberStatus, settled]
    · intro kind
      rw [trackedCount, here.follows.reflects.once.count]
      simp only [here.settled done]
    · intro visited' run' final' member' sent' done' same
      have there := FeedbackInv.of_run begins run' final' (List.mem_cons_of_mem _ member')
      have equal : worst (m.tracked final'.db) = worst (m.tracked final.db) := by
        rw [there.worst_settled done', settled]
        exact total_congr _ same
      refine ⟨?_, ?_, ?_⟩
      · rw [there.deliveryStatus sent', here.deliveryStatus sent, equal]
      · rw [there.follows.reflects.suppressions, here.follows.reflects.suppressions, equal]
      · rw [there.follows.reflects.subscribers, here.follows.reflects.subscribers, equal]

end Runs

namespace Sample

/-- A delivery of the sample database that a worker has claimed. -/
def claimedDelivery : Delivery :=
  { id := 90, businessId := 1, tenantRootId := 1, sourceKind := .automation, sourceId := 80
    campaignId := none, templateId := some 30, subscriberId := 50, email := "ada@example.com"
    status := .sending, attempts := 1, claimGeneration := 1, notBefore := 0
    leaseUntil := some (seconds 120), providerMessageId := none, openedAt := none
    trackOpensOverride := some true, trackClicksOverride := some true, lastError := none
    createdAt := 0, automationEnrollmentId := some 70, automationVersionId := some 61
    automationClaimGeneration := some 1 }

def mailed : Database := { database with deliveries := [claimedDelivery] }

def message : Message := ⟨claimedDelivery, "msg-1"⟩

def report (eventId : String) (kind : TrackKind) : Database.WebhookRequest :=
  ⟨40, .resend, eventId, 100, 100, [⟨"msg-1", "ada@example.com", kind, none⟩]⟩

def facts (_ : UUID) (eventId : String) : List TrackKind :=
  if eventId = "evt-1" then [.complaint] else if eventId = "evt-2" then [.delivered] else []

/-- The complaint arrives before the delivery is completed, and a late delivery report after. -/
def complaintCall :=
  mailed.mailingProcessProviderWebhook 0 (report "evt-1" .complaint) 91 fun _ => false

def complained : Database := resultOf mailed complaintCall

def completeCall := complained.mailingCompleteDelivery 1 90 1 "msg-1" fun _ => false

def completed : Database := resultOf complained completeCall

def deliveredCall :=
  completed.mailingProcessProviderWebhook 2 (report "evt-2" .delivered) 92 fun _ => false

def reported : Database := resultOf completed deliveredCall

theorem feedback_converges_late_report :
    message.deliveryStatus reported = some .complained ∧
    message.suppressionReason reported = some .complaint ∧
    message.subscriberStatus reported = some .complained ∧
    message.trackedCount .complaint reported = 1 :=
  have begins : message.Begins facts mailed :=
    ⟨⟨claimedDelivery, rfl, ⟨rfl, rfl, rfl, rfl, rfl⟩, by decide⟩, by decide, List.nodup_singleton _, rfl,
      by simp [mailed, database], by simp [mailed, database], List.nodup_nil⟩
  have first : FeedbackStep message facts ⟨mailed, []⟩ ⟨complained, [.complaint]⟩ :=
    .webhook ⟨mailed, []⟩ (r := report "evt-1" .complaint) ⟨by decide, by decide⟩
      (by simp [mailed, database])
      (eq_ok_of_answer mailed (by decide : answerOf complaintCall = some .pending))
  have second : FeedbackStep message facts ⟨complained, [.complaint]⟩ ⟨completed, [.complaint]⟩ :=
    .complete ⟨complained, [.complaint]⟩ (by decide)
      (eq_ok_of_answer complained (by decide : answerOf completeCall = some true))
  have third : FeedbackStep message facts ⟨completed, [.complaint]⟩
      ⟨reported, [.complaint, .delivered]⟩ :=
    .webhook ⟨completed, [.complaint]⟩ (r := report "evt-2" .delivered) ⟨by decide, by decide⟩
      (by decide) (eq_ok_of_answer completed (by decide : answerOf deliveredCall = some .applied))
  have run : Run (FeedbackStep message facts) ⟨mailed, []⟩
      [⟨complained, [.complaint]⟩, ⟨completed, [.complaint]⟩, ⟨reported, [.complaint, .delivered]⟩] :=
    List.isChain_cons_cons.mpr ⟨first, List.isChain_cons_cons.mpr ⟨second,
      List.isChain_cons_cons.mpr ⟨third, List.isChain_singleton _⟩⟩⟩
  have sent : message.Sent reported := List.map_eq_singleton_iff.mp
    (by decide : (message.rows reported).map (·.providerMessageId) = [some "msg-1"])
  have final := (feedback_converges message facts begins run).2
    ⟨reported, [.complaint, .delivered]⟩ (by simp) sent (by decide)
  ⟨final.1.trans (by decide), final.2.1.trans (by decide), final.2.2.1.trans (by decide),
    (final.2.2.2.1 .complaint).trans (by decide)⟩

end Sample

end Manyforge
