import Manyforge.Lib.Calls
import Manyforge.Mailing.Severity

/-!
# The feedback about one message

One message is followed through the functions of `Feedback`. The state of its
delivery, of its subscriber and of the address's suppression is at any time what the
events applied so far make of the state at the start (`Reflects`), and no event
that was accepted is lost: it has been applied or is stored (`Follows`).
-/
namespace Manyforge

open Calls Table JoinAction Database

/-- A message as its provider knows it: the delivery it is sent for, by the columns that never
change, and the id the provider gave it. -/
structure Message where
  delivery : Delivery
  messageId : String

namespace Message

variable (m : Message)

def names (event : NormalizedEvent) : Bool :=
  event.providerMessageId == m.messageId && event.recipient == m.delivery.email

/-- The kinds of the events about the message. -/
def kinds (events : List NormalizedEvent) : List TrackKind := (events.filter m.names).map (·.kind)

def mentions (w : ProviderWebhook) : Bool := w.normalizedEvents.any m.names

/-- The row of a delivery is that of the message's delivery. -/
structure Targets (d : Delivery) : Prop where
  id : d.id = m.delivery.id
  business : d.businessId = m.delivery.businessId
  root : d.tenantRootId = m.delivery.tenantRootId
  email : d.email = m.delivery.email
  subscriber : d.subscriberId = m.delivery.subscriberId

/-- The tracking events that provider feedback wrote for the delivery. -/
def reports (e : TrackingEvent) : Bool :=
  e.deliveryId == m.delivery.id && e.providerPayload.isSome

def tracked (db : Database) : List TrackKind := (db.trackingEvents.filter m.reports).map (·.kind)

/-- The kinds of the events that are stored and wait. -/
def waiting (db : Database) : List TrackKind :=
  db.webhooks.flatMap fun w => m.kinds w.normalizedEvents

def rows (db : Database) : List Delivery := db.deliveries.filter fun d => d.id == m.delivery.id

def suppressionsOf (db : Database) : List MailingSuppression :=
  db.suppressions.filter (concerns m.delivery.businessId m.delivery.email)

def subscribersOf (db : Database) : List Subscriber :=
  db.subscribers.filter fun s => s.id == m.delivery.subscriberId

/-- What the applied events have made of the rows: `start` is the database before any of them. -/
structure Reflects (start db : Database) : Prop where
  row : ∃ d, m.rows db = [d] ∧ m.Targets d ∧
    (d.providerMessageId = some m.messageId → d.status = (worst (m.tracked db)).status) ∧
    (d.providerMessageId ≠ some m.messageId → m.tracked db = [])
  only : ∀ d ∈ db.deliveries, d.providerMessageId = some m.messageId →
    d.email = m.delivery.email → d.id = m.delivery.id
  once : (m.tracked db).Nodup
  suppressions : m.suppressionsOf db =
    suppress m.delivery (worst (m.tracked db)) (m.suppressionsOf start)
  subscribers : m.subscribersOf db =
    (m.subscribersOf start).map (mark (worst (m.tracked db)))

variable {m} {start db db' : Database} {now : Timestamp} {payload : ProviderPayload}
  {event : NormalizedEvent}

theorem mem_tracked {kind : TrackKind} :
    kind ∈ m.tracked db ↔ db.feedbackTracked m.delivery.id kind = true := by
  simp only [tracked, feedbackTracked, reports, List.mem_map, List.mem_filter,
    List.any_eq_true, Bool.and_eq_true, beq_iff_eq]
  constructor
  · rintro ⟨e, ⟨member, same, written⟩, rfl⟩
    exact ⟨e, member, ⟨same, rfl⟩, written⟩
  · rintro ⟨e, member, ⟨same, kind⟩, written⟩
    exact ⟨e, ⟨member, same, written⟩, kind⟩

theorem providerSuppression_eq {d : Delivery} (target : m.Targets d) (kind : TrackKind) :
    providerSuppression d kind = providerSuppression m.delivery kind := by
  simp [providerSuppression, target.business, target.root, target.email]

theorem suppress_eq {d : Delivery} (target : m.Targets d) (v : Severity) :
    suppress d v = suppress m.delivery v := by
  cases v <;> simp [suppress, providerSuppression_eq target]

section

variable (reflects : m.Reflects start db)

include reflects

theorem Reflects.correlated {profile : UUID} {d : Delivery} (named : m.names event = true)
    (member : d ∈ db.deliveries)
    (found : db.correlates profile event.providerMessageId event.recipient d = true) :
    m.rows db = [d] ∧ d.providerMessageId = some m.messageId ∧ m.Targets d := by
  simp only [names, Bool.and_eq_true, beq_iff_eq] at named
  simp only [correlates, Bool.and_eq_true, beq_iff_eq, named.1, named.2] at found
  obtain ⟨⟨⟨_, message⟩, email⟩, _⟩ := found
  have own := reflects.only d member message email
  obtain ⟨row, rows, target, _⟩ := reflects.row
  have : d ∈ m.rows db := List.mem_filter.mpr ⟨member, by simpa using own⟩
  rw [rows, List.mem_singleton] at this
  subst this
  exact ⟨rows, message, target⟩

/-- What applying events about the message does. -/
structure Applied (m : Message) (payload : ProviderPayload) (kinds : List TrackKind)
    (start db db' : Database) : Prop where
  reflects : m.Reflects start db'
  webhooks : db'.webhooks = db.webhooks
  grows : m.tracked db ⊆ m.tracked db'
  applied : kinds ⊆ m.tracked db'
  bounded : m.tracked db' ⊆ m.tracked db ++ kinds
  written : ∀ e ∈ db'.trackingEvents, e ∈ db.trackingEvents ∨ e.providerPayload = some payload

theorem Applied.refl : m.Applied payload [] start db db :=
  ⟨reflects, rfl, List.Subset.refl _, List.nil_subset _, by simp, fun _ => .inl⟩

omit reflects in
theorem Applied.trans {kinds more : List TrackKind} {mid : Database}
    (first : m.Applied payload kinds start db mid) (second : m.Applied payload more start mid db') :
    m.Applied payload (kinds ++ more) start db db' where
  reflects := second.reflects
  webhooks := second.webhooks.trans first.webhooks
  grows := List.Subset.trans first.grows second.grows
  applied := List.append_subset.mpr ⟨List.Subset.trans first.applied second.grows, second.applied⟩
  bounded := by
    intro kind member
    have := second.bounded member
    rcases List.mem_append.mp this with old | new
    · have := first.bounded old
      simp only [List.mem_append] at this ⊢
      tauto
    · simp [new]
  written e member := by
    rcases second.written e member with old | new
    · exact first.written e old
    · exact .inr new

theorem Reflects.applyFeedback {d : Delivery} {kind : TrackKind} (occurredAt : Option Timestamp)
    (rows : m.rows db = [d]) (message : d.providerMessageId = some m.messageId)
    (target : m.Targets d) (reported : kind.FromProvider) (fresh : kind ∉ m.tracked db) :
    m.Applied payload [kind] start db (db.applyFeedback now payload d kind occurredAt) := by
  have tracked : m.tracked (db.applyFeedback now payload d kind occurredAt) =
      m.tracked db ++ [kind] := by
    simp [Message.tracked, Database.applyFeedback, List.filter_append, reports, target.id]
  have severe : worst (m.tracked db ++ [kind]) = worst (m.tracked db) ⊔ kind.severity :=
    total_concat _ _ _
  refine ⟨⟨?row, ?only, ?once, ?suppressions, ?subscribers⟩, rfl, ?grows, ?applied, ?bounded, ?written⟩
  case row =>
    refine ⟨{ d with
      status := mergeDeliveryStatus (feedbackStatus kind) d.status }, ?_,
      ⟨target.id, target.business, target.root, target.email, target.subscriber⟩, ?_,
      fun other => absurd message other⟩
    · have kept : m.rows (db.applyFeedback now payload d kind occurredAt) =
          updateWhere (fun x => x.id == d.id) (fun x => { x with
            status := mergeDeliveryStatus (feedbackStatus kind) x.status })
            (m.rows db) :=
        filter_updateWhere _ fun _ _ => rfl
      rw [kept, rows]
      simp [updateWhere]
    · intro _
      obtain ⟨d', rows', _, status, _⟩ := reflects.row
      rw [rows] at rows'
      obtain rfl : d = d' := by simpa using rows'
      rw [tracked, severe, status message]
      exact mergeDeliveryStatus_severity reported _
  case only =>
    intro x member message' email
    obtain ⟨old, old_mem, ⟨-, rfl⟩ | ⟨-, rfl⟩⟩ := updated_or_kept member
    · exact reflects.only old old_mem message' email
    · exact reflects.only old old_mem message' email
  case once =>
    rw [tracked]
    exact reflects.once.append (List.nodup_singleton _) (by simpa using fresh)
  case suppressions =>
    rw [tracked]
    simp only [suppressionsOf, Database.applyFeedback]
    rw [suppress_severity d reported, suppress_eq target, suppress_filter]
    have old := reflects.suppressions
    simp only [suppressionsOf] at old
    rw [old]
    exact (suppress_acts m.delivery).concat _ _ _
  case subscribers =>
    rw [tracked]
    simp only [subscribersOf, Database.applyFeedback]
    rw [mark_severity d.subscriberId reported,
      filter_updateWhere _ (fun row _ => by rw [mark_id])]
    have all : updateWhere (fun s => s.id == d.subscriberId) (mark kind.severity)
        (m.subscribersOf db) = (m.subscribersOf db).map (mark kind.severity) := by
      refine List.map_congr_left fun s member => ?_
      have := (List.mem_filter.mp member).2
      rw [target.subscriber]
      exact if_pos this
    rw [show db.subscribers.filter (fun s => s.id == m.delivery.subscriberId) =
      m.subscribersOf db from rfl, all, reflects.subscribers]
    exact map_mark_acts.concat _ _ _
  case grows => rw [tracked]; exact List.subset_append_left _ _
  case applied => rw [tracked]; exact List.subset_append_right _ _
  case bounded => rw [tracked]; exact List.Subset.refl _
  case written =>
    intro e member
    rcases List.mem_append.mp member with old | new
    · exact .inl old
    · rw [List.mem_singleton] at new
      exact .inr (by rw [new])

theorem Reflects.applyEvent (named : m.names event = true) (reported : event.kind.FromProvider)
    (call : db.mailingApplyProviderEventInternal now payload event = (db', true)) :
    m.Applied payload [event.kind] start db db' := by
  simp only [mailingApplyProviderEventInternal] at call
  split at call
  · simp at call
  next d found =>
  obtain ⟨rows, message, target⟩ := reflects.correlated named (List.mem_of_find?_eq_some found)
    (List.find?_some found)
  split at call
  next seen =>
    obtain rfl : db = db' := by simpa using call
    have applied : event.kind ∈ m.tracked db := mem_tracked.mpr (by rw [← target.id]; exact seen)
    exact ⟨reflects, rfl, List.Subset.refl _, by simpa using applied,
      List.subset_append_left _ _, fun _ => .inl⟩
  next unseen =>
  obtain rfl : db.applyFeedback now payload d event.kind event.occurredAt = db' := by
    simpa using call
  refine reflects.applyFeedback _ rows message target reported fun seen => unseen ?_
  rw [target.id]
  exact mem_tracked.mp seen

theorem Reflects.applyEvents {events : List NormalizedEvent}
    (named : ∀ event ∈ events, m.names event = true ∧ event.kind.FromProvider)
    (call : applyEvents now payload events db = .ok db') :
    m.Applied payload (events.map (·.kind)) start db db' := by
  induction events generalizing db with
  | nil =>
    obtain rfl : db = db' := by simpa [applyEvents] using call
    exact .refl reflects
  | cons event rest ih =>
    obtain ⟨⟨named_head, reported⟩, named_rest⟩ := List.forall_mem_cons.mp named
    simp only [applyEvents] at call
    split at call
    · cases call
    next mid applied =>
      have first := reflects.applyEvent named_head reported applied
      exact first.trans (ih first.reflects named_rest call)

end

/-! ### Stored webhooks -/

/-- What a stored webhook says about the message is what the provider reports under its event id;
a webhook about the message is about no other, and waits. -/
structure Stores (m : Message) (facts : UUID → String → List TrackKind) (w : ProviderWebhook) :
    Prop where
  agrees : m.kinds w.normalizedEvents = facts w.profileId w.externalEventId
  own : m.mentions w = true → w.processingStatus = .pending ∧
    ∀ event ∈ w.normalizedEvents, m.names event = true ∧ event.kind.FromProvider

/-- The events that have been received are those that were applied and those that wait. -/
structure Follows (m : Message) (facts : UUID → String → List TrackKind) (start db : Database)
    (received : List TrackKind) : Prop where
  reflects : m.Reflects start db
  stored : ∀ w ∈ db.webhooks, m.Stores facts w
  ids : UniqueOn (·.id) db.webhooks
  answered : ∀ e ∈ db.trackingEvents, ∀ payload, e.providerPayload = some payload →
    facts payload.providerProfileId payload.externalEventId ⊆ m.tracked db
  kept : received ⊆ m.tracked db ++ m.waiting db
  known : m.tracked db ++ m.waiting db ⊆ received

variable {facts : UUID → String → List TrackKind} {received : List TrackKind}

theorem kinds_of_named {events : List NormalizedEvent}
    (named : ∀ event ∈ events, m.names event = true) : m.kinds events = events.map (·.kind) := by
  rw [kinds, List.filter_eq_self.mpr named]

theorem kinds_eq_nil {w : ProviderWebhook} (foreign : m.mentions w = false) :
    m.kinds w.normalizedEvents = [] := by
  have none : w.normalizedEvents.filter m.names = [] :=
    List.filter_eq_nil_iff.mpr fun event member holds =>
      absurd (List.any_eq_true.mpr ⟨event, member, holds⟩) (by simpa [mentions] using foreign)
  rw [kinds, none, List.map_nil]

theorem mem_waiting {kind : TrackKind} :
    kind ∈ m.waiting db ↔ ∃ w ∈ db.webhooks, kind ∈ m.kinds w.normalizedEvents := by
  simp [waiting]

theorem Reflects.withWebhooks (reflects : m.Reflects start db) (webhooks : List ProviderWebhook) :
    m.Reflects start { db with webhooks } :=
  ⟨reflects.row, reflects.only, reflects.once, reflects.suppressions, reflects.subscribers⟩

variable (follows : m.Follows facts start db received)

include follows

theorem Follows.drop (keep : ProviderWebhook → Bool)
    (own : ∀ w ∈ db.webhooks, m.mentions w = true → keep w = true) :
    m.Follows facts start { db with webhooks := db.webhooks.filter keep } received := by
  have same : ∀ kind, kind ∈ m.waiting { db with webhooks := db.webhooks.filter keep } ↔
      kind ∈ m.waiting db := by
    intro kind
    simp only [mem_waiting, List.mem_filter]
    constructor
    · rintro ⟨w, ⟨member, _⟩, carries⟩
      exact ⟨w, member, carries⟩
    · rintro ⟨w, member, carries⟩
      refine ⟨w, ⟨member, own w member ?_⟩, carries⟩
      by_contra foreign
      simp [kinds_eq_nil (Bool.eq_false_iff.mpr foreign)] at carries
  refine ⟨follows.reflects.withWebhooks _, fun w member => follows.stored w
    (List.mem_filter.mp member).1, follows.ids.filter keep, follows.answered, ?_, ?_⟩
  · intro kind member
    have := follows.kept member
    simp only [List.mem_append, same] at this ⊢
    exact this
  · intro kind member
    refine follows.known ?_
    simp only [List.mem_append, same] at member ⊢
    exact member

theorem Follows.deleteApplied {w : ProviderWebhook} (member : w ∈ db.webhooks)
    (applied : m.Applied ⟨w.id, w.profileId, w.externalEventId⟩
      (m.kinds w.normalizedEvents) start db db') :
    m.Follows facts start (db'.deleteWebhook w.id) received := by
  have carries : m.kinds w.normalizedEvents ⊆ m.waiting db :=
    fun kind holds => mem_waiting.mpr ⟨w, member, holds⟩
  refine ⟨applied.reflects.withWebhooks _, ?stored, ?ids, ?answered, ?kept, ?known⟩
  case stored =>
    intro w' member'
    have := (List.mem_filter.mp member').1
    rw [applied.webhooks] at this
    exact follows.stored w' this
  case ids =>
    have := follows.ids
    rw [← applied.webhooks] at this
    exact this.filter _
  case answered =>
    intro e e_mem payload written
    rcases applied.written e e_mem with old | new
    · exact List.Subset.trans (follows.answered e old payload written) applied.grows
    · rw [written] at new
      obtain rfl := Option.some.inj new
      rw [← (follows.stored w member).agrees]
      exact applied.applied
  case kept =>
    intro kind holds
    rcases List.mem_append.mp (follows.kept holds) with old | stored
    · exact List.mem_append_left _ (applied.grows old)
    · obtain ⟨w', member', carries'⟩ := mem_waiting.mp stored
      by_cases same : w'.id = w.id
      · obtain rfl := follows.ids.eq_of_key member' member same
        exact List.mem_append_left _ (applied.applied carries')
      · refine List.mem_append_right _ (mem_waiting.mpr ⟨w', List.mem_filter.mpr ⟨?_, ?_⟩, carries'⟩)
        · rw [applied.webhooks]; exact member'
        · simpa using same
  case known =>
    intro kind holds
    rcases List.mem_append.mp holds with done | stored
    · rcases List.mem_append.mp (applied.bounded done) with old | new
      · exact follows.known (List.mem_append_left _ old)
      · exact follows.known (List.mem_append_right _ (carries new))
    · obtain ⟨w', member', carries'⟩ := mem_waiting.mp stored
      have := (List.mem_filter.mp member').1
      rw [applied.webhooks] at this
      exact follows.known (List.mem_append_right _ (mem_waiting.mpr ⟨w', this, carries'⟩))

/-- No webhook about the message has expired. -/
def Unexpired (m : Message) (now : Timestamp) (db : Database) : Prop :=
  ∀ w ∈ db.webhooks, m.mentions w = true → now < w.expiresAt

theorem Follows.applyPending {id : UUID} (own : ∀ w ∈ db.webhooks, w.id = id → m.mentions w = true)
    (unexpired : m.Unexpired now db) :
    Returns (fun db' answer => m.Follows facts start db' received ∧ db'.webhooks ⊆ db.webhooks ∧
      (answer = false → db' = db)) (db.mailingApplyPendingWebhook now id) := by
  unfold mailingApplyPendingWebhook
  split
  · exact .ok ⟨follows, List.Subset.refl _, fun _ => rfl⟩
  next w found =>
  have member := List.mem_of_find?_eq_some found
  have mentioned := own w member (by simpa using List.find?_some found)
  obtain ⟨pending, named⟩ := (follows.stored w member).own mentioned
  have live := unexpired w member mentioned
  rw [if_neg (by rw [pending]; decide), if_neg (Int.not_le.mpr live)]
  split
  · exact .ok ⟨follows, List.Subset.refl _, fun _ => rfl⟩
  split
  · exact .error
  next mid applied =>
  have spec := follows.reflects.applyEvents named applied
  rw [← kinds_of_named fun event holds => (named event holds).1] at spec
  refine .ok ⟨follows.deleteApplied member spec, ?_, by simp⟩
  rw [← spec.webhooks]
  exact List.filter_subset_self _

theorem Follows.deleteExpired (unexpired : m.Unexpired now db)
    (chosen locked : ProviderWebhook → Bool) (limit : Nat) :
    m.Follows facts start (db.deleteExpired now chosen locked limit) received := by
  refine follows.drop _ fun w member mentioned => ?_
  simp only [Bool.not_eq_true', List.contains_eq_mem, decide_eq_false_iff_not, List.mem_map,
    not_exists, not_and]
  intro w' selected same
  obtain ⟨member', expired, -⟩ := mem_selectForUpdate selected
  obtain rfl := follows.ids.eq_of_key member' member same
  have live := unexpired w' member mentioned
  simp only [Bool.and_eq_true, decide_eq_true_eq] at expired
  exact absurd expired.2 (Int.not_le.mpr live)

omit follows in
theorem deleteExpired_subset (chosen locked : ProviderWebhook → Bool) (limit : Nat) :
    (db.deleteExpired now chosen locked limit).webhooks ⊆ db.webhooks :=
  List.filter_subset_self _

/-! ### Completion -/

theorem Follows.applyWaiting {ids : List UUID}
    (own : ∀ w ∈ db.webhooks, w.id ∈ ids → m.mentions w = true) (unexpired : m.Unexpired now db)
    (call : applyWaiting now ids db = .ok db') : m.Follows facts start db' received := by
  induction ids generalizing db with
  | nil =>
    obtain rfl : db = db' := by simpa [applyWaiting] using call
    exact follows
  | cons id rest ih =>
    simp only [applyWaiting] at call
    split at call
    · cases call
    next mid answer applied =>
    obtain ⟨followed, fewer, _⟩ := follows.applyPending
      (fun w member same => own w member (by simp [same])) unexpired applied
    exact ih followed (fun w member later => own w (fewer member) (List.mem_cons_of_mem _ later))
      (fun w member => unexpired w (fewer member)) call

/-- The message's delivery is marked as sent. -/
def send (m : Message) (db : Database) (generation : Nat) : Database :=
  { db with
    deliveries := updateWhere (db.heldBy m.delivery.id generation) (sentRow m.messageId) db.deliveries }

/-- Nothing can have been applied to the delivery before it is marked as sent. -/
theorem Follows.send {generation : Nat} {held : Delivery}
    (found : db.deliveries.find? (db.heldBy m.delivery.id generation) = some held) :
    m.Targets held ∧ m.Follows facts start (m.send db generation) received := by
  have holds := List.find?_some found
  have member := List.mem_of_find?_eq_some found
  have parts := holds
  simp only [heldBy, Bool.and_eq_true, beq_iff_eq] at parts
  obtain ⟨⟨⟨id, sending⟩, _⟩, _⟩ := parts
  obtain ⟨d, rows, target, reflected, untouched⟩ := follows.reflects.row
  have own : held ∈ m.rows db := List.mem_filter.mpr ⟨member, by simpa using id⟩
  rw [rows, List.mem_singleton] at own
  subst own
  have unsent : held.providerMessageId ≠ some m.messageId := by
    intro sent
    have := reflected sent
    rw [sending] at this
    cases severity : worst (m.tracked db) <;> rw [severity] at this <;> cases this
  have nothing := untouched unsent
  refine ⟨target, ⟨?row, ?only, follows.reflects.once, follows.reflects.suppressions,
    follows.reflects.subscribers⟩, follows.stored, follows.ids, follows.answered, follows.kept,
    follows.known⟩
  case row =>
    refine ⟨sentRow m.messageId held, ?_, ⟨target.id, target.business, target.root,
      target.email, target.subscriber⟩, fun _ => ?_, fun other => absurd rfl other⟩
    · have kept : m.rows (m.send db generation) =
          updateWhere (db.heldBy m.delivery.id generation) (sentRow m.messageId) (m.rows db) :=
        filter_updateWhere _ fun _ _ => rfl
      rw [kept, rows]
      simp [updateWhere, holds]
    · rw [show m.tracked (m.send db generation) = [] from nothing]
      rfl
  case only =>
    intro x x_mem message email
    obtain ⟨old, old_mem, ⟨chosen, rfl⟩ | ⟨-, rfl⟩⟩ := updated_or_kept x_mem
    · simp only [heldBy, Bool.and_eq_true, beq_iff_eq] at chosen
      exact chosen.1.1.1
    · exact follows.reflects.only old old_mem message email

theorem Follows.complete {generation : Nat} {locked : ProviderWebhook → Bool}
    (unexpired : m.Unexpired now db) :
    Returns (fun db' _ => m.Follows facts start db' received)
      (db.mailingCompleteDelivery now m.delivery.id generation m.messageId locked) := by
  unfold mailingCompleteDelivery
  split
  · exact .ok follows
  next held found =>
  obtain ⟨target, sent⟩ := follows.send found
  have reclaimed := sent.deleteExpired unexpired ((m.send db generation).ofBusiness
    (sentRow m.messageId held).businessId (sentRow m.messageId held).tenantRootId) locked 256
  simp only []
  split
  · exact .error
  next final applied =>
  refine .ok
    (reclaimed.applyWaiting ?_ (fun w member => unexpired w (deleteExpired_subset _ _ _ member))
    applied)
  -- What is selected names the message, and ids are unique.
  intro w member selected
  simp only [waitingFor, List.mem_map] at selected
  obtain ⟨w', selected, same⟩ := selected
  obtain ⟨member', matched, -⟩ := mem_selectForUpdate selected
  obtain rfl := reclaimed.ids.eq_of_key member' member same
  simp only [Bool.and_eq_true] at matched
  simpa [mentions, names, sentRow, target.email] using matched.2

/-! ### Admission -/

/-- The kinds of a request count as received when the answer says that they were kept. -/
def accepted (outcome : Database.WebhookOutcome) : Bool :=
  outcome == .applied || outcome == .pending

def receivedAfter (received : List TrackKind) (r : Database.WebhookRequest)
    (outcome : Database.WebhookOutcome) : List TrackKind :=
  if accepted outcome then received ++ r.events.map (·.kind) else received

/-- A request about the message: all its events are, and the provider reports the same facts under
its event id every time. -/
structure Reports (m : Message) (facts : UUID → String → List TrackKind)
    (r : Database.WebhookRequest) : Prop where
  named : ∀ event ∈ r.events, m.names event = true
  agrees : facts r.profileId r.eventId = r.events.map (·.kind)

theorem Follows.receive {more : List TrackKind} (covered : more ⊆ m.tracked db ++ m.waiting db) :
    m.Follows facts start db (received ++ more) :=
  ⟨follows.reflects, follows.stored, follows.ids, follows.answered,
    List.append_subset.mpr ⟨follows.kept, covered⟩,
    List.Subset.trans follows.known (List.subset_append_left _ _)⟩

omit follows in
/-- The end of the function, for a webhook that is stored. `before` are the events received without
it, and `restored` the database a refusal goes back to. -/
theorem Follows.settle {more : List TrackKind} {restored : Database} {profile stored : UUID}
    {inserted : Bool} (follows : m.Follows facts start db (received ++ more))
    (own : ∀ w ∈ db.webhooks, w.id = stored → m.mentions w = true) (unexpired : m.Unexpired now db)
    (refused : (if inserted then db.deleteWebhook stored else db) = restored)
    (before : m.Follows facts start restored received) :
    Returns (fun db' outcome =>
      m.Follows facts start db' (if accepted outcome then received ++ more else received))
      (db.settleWebhook now profile stored inserted) := by
  unfold settleWebhook
  split
  · exact .error
  next mid applied => exact .ok (follows.applyPending own unexpired applied).1
  next mid refusal =>
  obtain rfl := (follows.applyPending own unexpired refusal).2.2 rfl
  simp only []
  split
  · rw [refused]
    exact .ok before
  · exact .ok follows

variable {r : Database.WebhookRequest} (reports : m.Reports facts r)

include reports

section

variable (wellFormed : r.wellFormed = true)

include wellFormed

omit follows in
theorem reports_mentions {w : ProviderWebhook} (stores : m.Stores facts w)
    (same : sameEvent r.profileId r.eventId w = true) :
    m.mentions w = true ∧ m.kinds w.normalizedEvents = r.events.map (·.kind) := by
  simp only [sameEvent, Bool.and_eq_true, beq_iff_eq] at same
  have equal := stores.agrees
  rw [same.1, same.2, reports.agrees] at equal
  refine ⟨?_, equal⟩
  by_contra foreign
  rw [kinds_eq_nil (Bool.eq_false_iff.mpr foreign)] at equal
  have empty : r.events = [] := by simpa using equal.symm
  simp [Database.WebhookRequest.wellFormed, empty] at wellFormed

omit follows reports in
theorem wellFormed_kinds : ∀ event ∈ r.events, event.kind.FromProvider := by
  intro event member
  simp only [Database.WebhookRequest.wellFormed, Bool.and_eq_true, List.all_eq_true] at wellFormed
  have := (wellFormed.2 event member).2
  simpa [TrackKind.FromProvider, or_assoc] using this

theorem Follows.insert {p : SendingProfile} {newId : UUID} (profile : p.id = r.profileId)
    (fresh : ∀ w ∈ db.webhooks, w.id ≠ newId) :
    m.Follows facts start
      { db with webhooks := db.webhooks ++ [newWebhook r p newId now] }
      (received ++ r.events.map (·.kind)) := by
  have kinds : m.kinds r.events = r.events.map (·.kind) := kinds_of_named reports.named
  have waiting : m.waiting { db with
      webhooks := db.webhooks ++ [newWebhook r p newId now] } =
      m.waiting db ++ r.events.map (·.kind) := by
    simp [Message.waiting, newWebhook, kinds]
  refine ⟨follows.reflects.withWebhooks _, ?_, ?_, follows.answered, ?_, ?_⟩
  · exact forall_inserted follows.stored ⟨by simp [newWebhook, kinds, profile, reports.agrees],
      fun _ => ⟨rfl,
      fun event holds => ⟨reports.named event holds, wellFormed_kinds wellFormed event holds⟩⟩⟩
  · exact follows.ids.append_fresh fresh
  · rw [waiting]
    intro kind member
    rcases List.mem_append.mp member with old | new
    · have := follows.kept old
      simp only [List.mem_append] at this ⊢
      tauto
    · simp [new]
  · rw [waiting]
    intro kind member
    have : kind ∈ m.tracked db ++ m.waiting db ∨ kind ∈ r.events.map (·.kind) := by
      simp only [List.mem_append, List.mem_map] at member ⊢
      tauto
    rcases this with old | new
    · exact List.mem_append_left _ (follows.known old)
    · exact List.mem_append_right _ new

theorem Follows.admit {p : SendingProfile} {newId : UUID} (profile : p.id = r.profileId)
    (unexpired : m.Unexpired now db) :
    Returns (fun db' outcome => m.Follows facts start db' (receivedAfter received r outcome))
      (db.admitWebhook now r p newId) := by
  unfold admitWebhook
  split
  next =>
    split
    · exact .ok follows
    next w found =>
    have member := List.mem_of_find?_eq_some found
    have same := List.find?_some found
    simp only [Bool.and_eq_true] at same
    obtain ⟨mentioned, kinds⟩ :=
      reports_mentions reports wellFormed (follows.stored w member) same.1
    have covered : r.events.map (·.kind) ⊆ m.tracked db ++ m.waiting db := by
      rw [← kinds]
      exact fun kind holds => List.mem_append_right _ (mem_waiting.mpr ⟨w, member, holds⟩)
    refine (follows.receive covered).settle ?_ unexpired (if_neg Bool.false_ne_true) follows
    intro w' member' same'
    rw [follows.ids.eq_of_key member' member same']
    exact mentioned
  next absent =>
  split
  · exact .error
  next unused =>
  have fresh : ∀ w ∈ db.webhooks, w.id ≠ newId := by simpa using unused
  have live : now < (newWebhook r p newId now).expiresAt := by
    simp only [newWebhook, webhookLifetime]
    split <;> exact Int.lt_add_of_pos_right now (by decide)
  refine (follows.insert reports wellFormed profile fresh).settle ?_ ?_ ?_ follows
  · refine forall_inserted (fun w old same => absurd same (fresh w old)) fun _ => ?_
    have : 1 ≤ r.events.length := by
      simp only [Database.WebhookRequest.wellFormed, Bool.and_eq_true,
        decide_eq_true_eq] at wellFormed
      exact wellFormed.1.1.1.2
    obtain ⟨event, first⟩ := List.exists_mem_of_length_pos this
    exact List.any_eq_true.mpr ⟨event, first, reports.named event first⟩
  · exact forall_inserted unexpired fun _ => live
  · have kept : db.webhooks.filter (fun w => w.id != newId) = db.webhooks :=
      List.filter_eq_self.mpr fun w member => by simpa using fresh w member
    simp [deleteWebhook, List.filter_append, kept, newWebhook]

end

theorem Follows.process {newId : UUID} {locked : ProviderWebhook → Bool}
    (unexpired : m.Unexpired now db) :
    Returns (fun db' outcome => m.Follows facts start db' (receivedAfter received r outcome))
      (db.mailingProcessProviderWebhook now r newId locked) := by
  unfold mailingProcessProviderWebhook
  split
  · exact .ok follows
  next checked =>
  have wellFormed : r.wellFormed = true := by simpa using checked
  split
  · exact .ok follows
  next p found =>
  have profile : p.id = r.profileId := by
    have := List.find?_some found
    simp only [Bool.and_eq_true, beq_iff_eq] at this
    exact this.1.1
  -- Reclaiming what has expired touches no webhook about the message.
  have first := follows.drop
    (fun w => !(sameEvent r.profileId r.eventId w && w.expiresAt ≤ now))
    fun w member mentioned => by simp [Int.not_le.mpr (unexpired w member mentioned)]
  have live : m.Unexpired now { db with webhooks := db.webhooks.filter fun w =>
      !(sameEvent r.profileId r.eventId w && w.expiresAt ≤ now) } :=
    fun w member => unexpired w (List.mem_filter.mp member).1
  have reclaimed := first.deleteExpired live (fun w => w.profileId == r.profileId) locked 256
  simp only []
  split
  · exact .ok reclaimed
  split
  next seen =>
    refine .ok (reclaimed.receive ?_)
    obtain ⟨e, member, matched⟩ := List.any_eq_true.mp seen
    obtain ⟨payload, written, same⟩ := (Option.any_eq_true _ _).mp matched
    simp only [Bool.and_eq_true, beq_iff_eq] at same
    have answered := reclaimed.answered e member payload written
    rw [same.1, same.2, reports.agrees] at answered
    exact List.Subset.trans answered (List.subset_append_left _ _)
  split
  next known =>
    refine .ok (reclaimed.receive fun kind member => List.mem_append_left _ ?_)
    obtain ⟨event, event_mem, rfl⟩ := List.mem_map.mp member
    have named := reports.named event event_mem
    simp only [names, Bool.and_eq_true, beq_iff_eq] at named
    simp only [factsTracked, List.all_eq_true, List.any_eq_true, Bool.and_eq_true,
      beq_iff_eq] at known
    obtain ⟨d, d_mem, ⟨⟨⟨_, message⟩, email⟩, _⟩, applied⟩ := known event event_mem
    rw [named.1] at message
    rw [named.2] at email
    rw [reclaimed.reflects.only d d_mem message email] at applied
    exact mem_tracked.mpr applied
  next =>
    exact reclaimed.admit reports wellFormed profile
      fun w member => live w (deleteExpired_subset _ _ _ member)

end Message

namespace Database

variable {db db' : Database} {now : Timestamp} {r : WebhookRequest} {newId : UUID}

theorem settleWebhook_not_ignored {profile stored : UUID} {inserted : Bool} :
    Returns (fun _ outcome => outcome ≠ .ignored) (db.settleWebhook now profile stored inserted) := by
  unfold settleWebhook
  split
  · exact .error
  · exact .ok (by decide)
  · simp only []
    split <;> exact .ok (by decide)

/-- Events are ignored only when the request is malformed, or its profile is unknown, not verified
or of a business that is not operating. -/
theorem processProviderWebhook_ignored {locked : ProviderWebhook → Bool}
    (call : db.mailingProcessProviderWebhook now r newId locked = .ok (db', .ignored)) :
    r.wellFormed = false ∨ ∀ p, (db.profiles.find? fun p =>
        p.id == r.profileId && p.mode == r.provider && db.rootWriteAllowed p.tenantRootId) = some p →
      p.status ≠ .verified ∨ db.businessOperational p.businessId p.tenantRootId = false := by
  simp only [mailingProcessProviderWebhook] at call
  split at call
  next malformed => exact .inl malformed
  next =>
  refine .inr fun p found => ?_
  have profile := List.find?_some found
  simp only [Bool.and_eq_true, beq_iff_eq] at profile
  rw [found] at call
  simp only at call
  split at call
  next refused => exact refused
  next =>
  split at call
  · simp at call
  · split at call
    · simp at call
    · simp only [admitWebhook] at call
      split at call
      next stored =>
        split at call
        next none =>
          -- Whatever has the event's id and is left has not expired.
          obtain ⟨w, member, same⟩ := List.any_eq_true.mp stored
          rw [profile.1.1] at same
          have kept := (List.mem_filter.mp (List.mem_filter.mp member).1).2
          have := List.find?_eq_none.mp none w member
          simp only [same, Bool.true_and, Bool.not_eq_true', decide_eq_false_iff_not,
            decide_eq_true_eq] at kept this
          exact absurd (Int.not_le.mp kept) this
        next => exact absurd rfl (settleWebhook_not_ignored call)
      next =>
      split at call
      · cases call
      · exact absurd rfl (settleWebhook_not_ignored call)

end Database

end Manyforge
