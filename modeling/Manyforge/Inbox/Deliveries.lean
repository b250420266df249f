import Manyforge.Inbox.Ingest
import Manyforge.Lib.Locks

/-!
# What a delivery leaves behind

What is to hold of the tables after any number of deliveries, and that one more stored message keeps
it.
-/
namespace Manyforge.Inbox

open Table

namespace SupportDb

variable (before db : SupportDb)

/-- The tickets opened since. -/
def opened : List UUID := (db.tickets.map (·.id)).filter fun id =>
  !(before.tickets.map (·.id)).contains id

/-- The messages stored since. -/
def stored : List Message := db.messages.filter fun m => !(before.messages.map (·.id)).contains m.id

/-- The events enqueued since. -/
def sent : List Event := db.events.drop before.events.length

structure Sound : Prop where
  once : UniqueOn (fun m : Message => (m.businessId, m.messageId)) db.messages
  nonempty : ∀ id ∈ opened before db, ∃ m ∈ db.messages, m.ticketId = id
  created : ∀ id ∈ opened before db,
    (sent before db).countP (fun e => e.topic == .ticketCreated && e.ticketId == id) = 1
  received : ∀ m ∈ stored before db,
    (sent before db).countP (fun e => e.topic == .messageReceived && e.messageId == m.id) = 1
  /-- There are no other events. -/
  about : ∀ e ∈ sent before db, e.topic = .ticketCreated ∧ e.ticketId ∈ opened before db ∨
    e.topic = .messageReceived ∧ ∃ m ∈ stored before db, m.id = e.messageId
  placed : ∀ m ∈ stored before db,
    ∃ t ∈ db.tickets, t.id = m.ticketId ∧ t.businessId = m.businessId ∧ t.redactedAt = none

/-- The constraints of the schema: keys, and that a business is in one tenant. -/
structure Consistent (tenantOf : UUID → UUID) : Prop where
  ticketIds : UniqueOn Ticket.id db.tickets
  messageIds : UniqueOn Message.id db.messages
  messageKeys : UniqueOn (fun m : Message => (m.businessId, m.messageId)) db.messages
  messageTenants : ∀ m ∈ db.messages, m.tenantRootId = tenantOf m.businessId
  addressTenants : ∀ ia ∈ db.addresses, ia.tenantRootId = tenantOf ia.businessId

end SupportDb

/-! ### Writes -/

namespace SupportDb

variable {db : SupportDb} {r : Route} {d : Delivery} {now : Timestamp}

theorem upsertRequester_frame (db : SupportDb) (r : Route) (d : Delivery) (now : Timestamp) :
    ∃ requesters, (db.upsertRequester r d now).1 = { db with requesters } := by
  simp only [upsertRequester]
  split
  · exact ⟨_, rfl⟩
  · exact ⟨_, rfl⟩

/-- A message is added on the ticket found or on a new one, with its events. -/
structure Delivered (db : SupportDb) (r : Route) (d : Delivery) (ticket : Option UUID)
    (db' : SupportDb) (row : Message) : Prop where
  addresses : db'.addresses = db.addresses
  messages : db'.messages = db.messages ++ [row]
  isNew : row.id = freshKey (db.messages.map (·.id))
  business : row.businessId = r.businessId
  tenant : row.tenantRootId = r.tenantRootId
  messageId : row.messageId = d.messageId
  ticketId : row.ticketId = ticket.getD d.ticketId
  events : db'.events = db.events ++
    (if ticket.isNone then
      [⟨.ticketCreated, r.tenantRootId, row.ticketId, r.businessId, row.id⟩] else []) ++
    [⟨.messageReceived, r.tenantRootId, row.ticketId, r.businessId, row.id⟩]
  reopened : ∀ id, ticket = some id →
    ∃ now, db'.tickets = updateWhere (·.id == id) (·.reopened now) db.tickets
  opened : ticket = none → (∀ t ∈ db.tickets, t.id ≠ d.ticketId) ∧
    ∃ t, db'.tickets = db.tickets ++ [t] ∧ t.id = d.ticketId ∧ t.businessId = r.businessId ∧
      t.redactedAt = none

theorem placeTicket_ok {requesterId : UUID} {ticket : Option UUID} {placed : SupportDb}
    {ticketId : UUID} (ok : db.placeTicket r d requesterId ticket now = .ok (placed, ticketId)) :
    ticketId = ticket.getD d.ticketId ∧ ∃ tickets, placed = { db with tickets } ∧
      (∀ id, ticket = some id → tickets = updateWhere (·.id == id) (·.reopened now) db.tickets) ∧
      (ticket = none → (∀ t ∈ db.tickets, t.id ≠ d.ticketId) ∧
        ∃ t, tickets = db.tickets ++ [t] ∧ t.id = d.ticketId ∧ t.businessId = r.businessId ∧
          t.redactedAt = none) := by
  cases ticket with
  | none =>
    simp only [placeTicket] at ok
    split at ok
    next => cases ok
    next free =>
    cases ok
    have free : ∀ t ∈ db.tickets, t.id ≠ d.ticketId := by simpa using free
    exact ⟨rfl, _, rfl, by simp, fun _ => ⟨free, _, rfl, rfl, rfl, rfl⟩⟩
  | some id =>
    cases ok
    exact ⟨rfl, _, rfl, by simp, by simp⟩

theorem store_delivered
    (unseen : ∀ m ∈ db.messages, m.businessId = r.businessId → m.messageId ≠ d.messageId)
    {requesterId : UUID} {ticket : Option UUID} {after : SupportDb} {outcome : Outcome}
    (ok : db.store r d requesterId ticket now = .ok (after, outcome)) :
    ∃ row, Delivered db r d ticket (after.enqueue r outcome) row ∧
      outcome = .stored row.ticketId row.id ticket.isNone := by
  have free : ¬ (db.messages.any fun m =>
        m.businessId == r.businessId && m.messageId == d.messageId) = true := by
    simpa using unseen
  simp only [store] at ok
  split at ok
  next => cases ok
  next placed ticketId place =>
  obtain ⟨isId, tickets, rfl, reopened, opened⟩ := placeTicket_ok place
  rw [insertMessage, if_neg free] at ok
  simp only [insertAttachments] at ok
  split at ok
  next => cases ok
  next final attached =>
  split at attached
  next => cases attached
  next =>
  cases attached
  cases ok
  exact ⟨⟨freshKey (db.messages.map (·.id)), ticketId, r.businessId, r.tenantRootId, .inbound,
    d.messageId, d.inReplyTo, d.references, d.isAutoReply, now⟩,
    ⟨rfl, rfl, rfl, rfl, rfl, rfl, isId, rfl, fun id found =>
      ⟨now, reopened id found⟩, opened⟩, rfl⟩

/-! ### One more message -/

section Delivered

variable {before db' : SupportDb} {ticket : Option UUID} {row : Message}

section

variable (step : Delivered db r d ticket db' row)

include step

theorem Delivered.ticketIds :
    db'.tickets.map (·.id) = db.tickets.map (·.id) ++ if ticket.isNone then [d.ticketId] else [] := by
  cases ticket with
  | none =>
    obtain ⟨-, t, tickets, isId, -⟩ := step.opened rfl
    simp [tickets, isId]
  | some id =>
    obtain ⟨now, tickets⟩ := step.reopened id rfl
    have sameIds : (updateWhere (·.id == id) (·.reopened now) db.tickets).map Ticket.id =
        db.tickets.map Ticket.id :=
      map_updateWhere _ _ fun _ _ => rfl
    simpa [tickets] using sameIds

theorem Delivered.ticket_stays {t : Ticket} (isTicket : t ∈ db.tickets) :
    ∃ t' ∈ db'.tickets, t'.id = t.id ∧ t'.businessId = t.businessId ∧ t'.redactedAt = t.redactedAt := by
  cases ticket with
  | none =>
    obtain ⟨-, new, tickets, -⟩ := step.opened rfl
    exact ⟨t, by simp [tickets, isTicket], rfl, rfl, rfl⟩
  | some id =>
    obtain ⟨now, tickets⟩ := step.reopened id rfl
    refine ⟨_, tickets ▸ mem_updateWhere.mpr ⟨t, isTicket, rfl⟩, ?_⟩
    split
    · exact ⟨rfl, rfl, rfl⟩
    · exact ⟨rfl, rfl, rfl⟩

omit step in
theorem threadable_iff {id : UUID} :
    db.threadable r id = true ↔
      ∃ t ∈ db.tickets, t.id = id ∧ t.businessId = r.businessId ∧ t.redactedAt = none := by
  simp [threadable, and_assoc]

theorem Delivered.threadable {r' : Route} {id : UUID} (found : db.threadable r' id = true) :
    db'.threadable r' id = true := by
  obtain ⟨t, isTicket, isId, business, unredacted⟩ := threadable_iff.mp found
  obtain ⟨t', isTicket', sameId, sameBusiness, sameRedacted⟩ := step.ticket_stays isTicket
  exact threadable_iff.mpr ⟨t', isTicket', sameId.trans isId, sameBusiness.trans business,
    sameRedacted.trans unredacted⟩

theorem Delivered.own_ticket (found : ∀ id, ticket = some id → db.threadable r id = true) :
    ∃ t ∈ db'.tickets, t.id = row.ticketId ∧ t.businessId = row.businessId ∧ t.redactedAt = none := by
  rw [step.ticketId, step.business]
  cases ticket with
  | none =>
    obtain ⟨-, t, tickets, isNew⟩ := step.opened rfl
    exact ⟨t, by simp [tickets], isNew⟩
  | some id => exact threadable_iff.mp (step.threadable (found id rfl))

end

/-- What was there before is there still. -/
structure Grown (before db : SupportDb) : Prop where
  addresses : db.addresses = before.addresses
  tickets : ∀ id ∈ before.tickets.map (·.id), id ∈ db.tickets.map (·.id)
  messages : ∀ id ∈ before.messages.map (·.id), id ∈ db.messages.map (·.id)
  events : before.events.length ≤ db.events.length

theorem Grown.refl (db : SupportDb) : Grown db db := ⟨rfl, fun _ => id, fun _ => id, le_rfl⟩

theorem Grown.delivered (grown : Grown before db) (step : Delivered db r d ticket db' row) :
    Grown before db' where
  addresses := step.addresses.trans grown.addresses
  tickets id isOld := by
    rw [step.ticketIds]
    exact List.mem_append_left _ (grown.tickets id isOld)
  messages id isOld := by
    rw [step.messages, List.map_append]
    exact List.mem_append_left _ (grown.messages id isOld)
  events := by
    rw [step.events, List.append_assoc, List.length_append]
    exact grown.events.trans (Nat.le_add_right _ _)

theorem Consistent.delivered {tenantOf : UUID → UUID} (consistent : db.Consistent tenantOf)
    (step : Delivered db r d ticket db' row) (tenant : r.tenantRootId = tenantOf r.businessId)
    (unseen : ∀ m ∈ db.messages, m.businessId = r.businessId → m.messageId ≠ d.messageId) :
    db'.Consistent tenantOf where
  ticketIds := by
    rw [UniqueOn, step.ticketIds]
    cases ticket with
    | none =>
      obtain ⟨free, -⟩ := step.opened rfl
      exact List.nodup_append.mpr ⟨consistent.ticketIds, by simp, by simpa using free⟩
    | some id => simpa [UniqueOn] using consistent.ticketIds
  messageIds := by
    rw [step.messages]
    exact consistent.messageIds.append_freshKey step.isNew
  messageKeys := by
    rw [step.messages]
    refine consistent.messageKeys.append_fresh fun m isMessage same => ?_
    obtain ⟨business, messageId⟩ := Prod.mk.inj same
    exact unseen m isMessage (business.trans step.business) (messageId.trans step.messageId)
  messageTenants := by
    rw [step.messages]
    refine forall_inserted consistent.messageTenants ?_
    rw [step.tenant, step.business, tenant]
  addressTenants := by
    rw [step.addresses]
    exact consistent.addressTenants

section Sound

variable (grown : Grown before db) (step : Delivered db r d ticket db' row)
include grown step

theorem opened_delivered :
    opened before db' = opened before db ++ if ticket.isNone then [d.ticketId] else [] := by
  rw [opened, step.ticketIds, List.filter_append]
  cases ticket with
  | none =>
    obtain ⟨free, -⟩ := step.opened rfl
    have isNew (old : Ticket) (isOld : old ∈ before.tickets) : old.id ≠ d.ticketId := by
      obtain ⟨t, isTicket, isId⟩ := List.mem_map.mp (grown.tickets _ (List.mem_map_of_mem isOld))
      exact isId ▸ free t isTicket
    simpa [opened] using isNew
  | some id => simp [opened]

theorem stored_delivered : stored before db' = stored before db ++ [row] := by
  have isNew (old : Message) (isOld : old ∈ before.messages) : old.id ≠ row.id := by
    rw [step.isNew]
    exact (lt_freshKey (grown.messages _ (List.mem_map_of_mem isOld))).ne
  rw [stored, step.messages, List.filter_append]
  simpa [stored] using isNew

theorem sent_delivered : sent before db' = sent before db ++
    ((if ticket.isNone then
      [⟨.ticketCreated, r.tenantRootId, row.ticketId, r.businessId, row.id⟩] else []) ++
      [⟨.messageReceived, r.tenantRootId, row.ticketId, r.businessId, row.id⟩]) := by
  rw [sent, step.events, List.append_assoc, List.drop_append_of_le_length grown.events, sent]

omit grown in
theorem created_isNew (sound : Sound before db) (none_found : ticket = none) :
    (sent before db).countP (fun e => e.topic == .ticketCreated && e.ticketId == d.ticketId) = 0 := by
  obtain ⟨free, -⟩ := step.opened none_found
  rw [List.countP_eq_zero]
  intro e isSent
  rcases sound.about e isSent with ⟨-, isOpened⟩ | ⟨topic, -⟩
  · obtain ⟨t, isTicket, isId⟩ := List.mem_map.mp (List.mem_filter.mp isOpened).1
    simp [← isId, free t isTicket]
  · simp [topic]

omit grown in
theorem stored_ne {m : Message} (isStored : m ∈ stored before db) : m.id ≠ row.id := by
  rw [step.isNew]
  have isId : m.id ∈ db.messages.map (·.id) := List.mem_map_of_mem (List.mem_filter.mp isStored).1
  exact (lt_freshKey isId).ne

omit grown in
theorem received_isNew (sound : Sound before db) :
    (sent before db).countP (fun e => e.topic == .messageReceived && e.messageId == row.id) = 0 := by
  rw [List.countP_eq_zero]
  intro e isSent
  rcases sound.about e isSent with ⟨topic, -⟩ | ⟨-, m, isStored, isId⟩
  · simp [topic]
  · simp [← isId, stored_ne step isStored]

theorem Sound.delivered (sound : Sound before db) {tenantOf : UUID → UUID}
    (consistent : db'.Consistent tenantOf)
    (found : ∀ id, ticket = some id → db.threadable r id = true) : Sound before db' := by
  have opened' := opened_delivered grown step
  have stored' := stored_delivered grown step
  have sent' := sent_delivered grown step
  have own := step.ticketId
  refine ⟨consistent.messageKeys, ?_, ?_, ?_, ?_, ?_⟩
  · rw [opened', step.messages]
    intro id isOpened
    rcases List.mem_append.mp isOpened with isOld | isNew
    · obtain ⟨m, isMessage, isTicket⟩ := sound.nonempty id isOld
      exact ⟨m, List.mem_append_left _ isMessage, isTicket⟩
    · refine ⟨row, by simp, ?_⟩
      cases ticket with
      | none =>
        have isNew : id = d.ticketId := by simpa using isNew
        exact own.trans isNew.symm
      | some _ => simp at isNew
  · rw [opened', sent']
    intro id isOpened
    rw [List.countP_append]
    cases ticket with
    | none =>
      have own : row.ticketId = d.ticketId := own
      rcases List.mem_append.mp isOpened with isOld | isNew
      · -- The new ticket is another one.
        obtain ⟨free, -⟩ := step.opened rfl
        obtain ⟨t, isTicket, rfl⟩ := List.mem_map.mp (List.mem_filter.mp isOld).1
        simp [sound.created _ isOld, own, (free t isTicket).symm]
      · obtain rfl : id = d.ticketId := by simpa using isNew
        simp [created_isNew step sound rfl, own]
    | some _ =>
      have isOld : id ∈ opened before db := by simpa using isOpened
      simp [sound.created id isOld]
  · rw [stored', sent']
    intro m isStored
    rw [List.countP_append]
    rcases mem_inserted.mp isStored with isOld | rfl
    · have differs := (stored_ne step isOld).symm
      cases ticket with
      | none | some _ => simp [sound.received m isOld, differs]
    · cases ticket with
      | none | some _ => simp [received_isNew step sound]
  · rw [opened', stored', sent']
    intro e isSent
    rcases List.mem_append.mp isSent with isOld | isNew
    · refine (sound.about e isOld).imp (And.imp_right fun isOpened => List.mem_append_left _ isOpened) ?_
      rintro ⟨topic, m, isStored, isId⟩
      exact ⟨topic, m, List.mem_append_left _ isStored, isId⟩
    · cases ticket with
      | none =>
        have own : row.ticketId = d.ticketId := own
        rcases List.mem_cons.mp isNew with rfl | isReceived
        · exact .inl ⟨rfl, by simp [own]⟩
        · obtain rfl := List.mem_singleton.mp isReceived
          exact .inr ⟨rfl, row, by simp⟩
      | some _ =>
        obtain rfl := List.mem_singleton.mp isNew
        exact .inr ⟨rfl, row, by simp⟩
  · rw [stored']
    refine forall_inserted (fun m isOld => ?_) (step.own_ticket found)
    obtain ⟨t, isTicket, isId, business, unredacted⟩ := sound.placed m isOld
    obtain ⟨t', isTicket', sameId, sameBusiness, sameRedacted⟩ := step.ticket_stays isTicket
    exact ⟨t', isTicket', sameId.trans isId, sameBusiness.trans business, sameRedacted.trans unredacted⟩

end Sound

end Delivered

end SupportDb

theorem unseen_of_duplicate? {tenantOf : UUID → UUID} {db : SupportDb}
    (consistent : db.Consistent tenantOf)
    {r : Route} (tenant : r.tenantRootId = tenantOf r.businessId) {messageId : String}
    (none_found : db.duplicate? r messageId = none) :
    ∀ m ∈ db.messages, m.businessId = r.businessId → m.messageId ≠ messageId := by
  intro m isMessage business same
  have missed := List.find?_eq_none.mp none_found m isMessage
  apply missed
  simp [consistent.messageTenants m isMessage, business, tenant, same]

end Manyforge.Inbox
