import Manyforge.Connectors.Inbound

/-!
# What the statements do to the tables

The primary keys and the unique indexes of the tables are an invariant of every statement. Beside it
stands, for each statement, what it writes: a message, an operation, the status of an operation, a
link.
-/
namespace Manyforge.Connectors.Desk

open Table

variable {d d' : Desk}

/-- The primary keys and unique indexes. -/
@[mk_iff]
structure Keyed (d : Desk) : Prop where
  ticketIds : UniqueOn Ticket.id d.tickets
  ticketLinks : UniqueSome Ticket.link d.tickets
  messageIds : UniqueOn Message.id d.messages
  messageLinks : UniqueSome Message.link d.messages
  approvals : UniqueSome Message.sourceApprovalItemId d.messages
  opIds : UniqueOn OutboundOp.id d.ops
  syncTickets : UniqueOn SyncState.ticketId d.syncStates

instance (d : Desk) : Decidable d.Keyed := decidable_of_iff' _ (keyed_iff d)

/-! ### Reads -/

variable {businessId id : UUID} {t : Ticket} {link : Link} {m : Message} {ticketId : UUID}
  {now : Timestamp}

theorem getTicket_some (found : d.getTicket id businessId = some t) :
    t ∈ d.tickets ∧ t.id = id ∧ t.businessId = businessId ∧ t.redacted = false := by
  have holds := List.find?_some found
  simp only [Bool.and_eq_true, beq_iff_eq, Bool.not_eq_true'] at holds
  exact ⟨List.mem_of_find?_eq_some found, holds.1.1, holds.1.2, holds.2⟩

theorem linkedTicket_some (found : d.linkedTicket id businessId = some (t, link)) :
    t ∈ d.tickets ∧ t.id = id ∧ t.businessId = businessId ∧ t.link = some link := by
  obtain ⟨t', found', linked⟩ := Option.bind_eq_some_iff.mp found
  obtain ⟨link', isLink, same⟩ := Option.map_eq_some_iff.mp linked
  cases same
  have holds := List.find?_some found'
  simp only [Bool.and_eq_true, beq_iff_eq] at holds
  exact ⟨List.mem_of_find?_eq_some found', holds.1.1, holds.1.2, isLink⟩

theorem linkedTicket_eq_some (keys : UniqueOn Ticket.id d.tickets) (member : t ∈ d.tickets)
    (linked : t.link = some link) : d.linkedTicket t.id t.businessId = some (t, link) := by
  cases found : d.linkedTicket t.id t.businessId with
  | none =>
    cases search : d.tickets.find? fun u =>
      u.id == t.id && u.businessId == t.businessId && u.link.isSome with
    | none => exact absurd (List.find?_eq_none.mp search t member) (by simp [linked])
    | some u =>
      have holds := List.find?_some search
      simp only [Bool.and_eq_true] at holds
      obtain ⟨other, isLink⟩ := Option.isSome_iff_exists.mp holds.2
      simp [linkedTicket, search, isLink] at found
  | some pair =>
    obtain ⟨u, other⟩ := pair
    obtain ⟨isTicket, same, -, isLink⟩ := linkedTicket_some found
    obtain rfl := keys.eq_of_key isTicket member same
    rw [Option.some.inj (isLink.symm.trans linked)]

theorem messageExternalId_of_mem (keys : UniqueOn Message.id d.messages) (member : m ∈ d.messages) :
    d.messageExternalId m.id = m.link.map (·.externalId) := by
  rw [messageExternalId, keys.find?_key member]
  rfl

theorem ticketExternalId_of_mem (keys : UniqueOn Ticket.id d.tickets) (member : t ∈ d.tickets) :
    d.ticketExternalId t.id = t.link.map (·.externalId) := by
  rw [ticketExternalId, keys.find?_key member]
  rfl

theorem messageByApproval_some {key : UUID} (found : d.messageByApproval key businessId = some m) :
    m ∈ d.messages ∧ m.sourceApprovalItemId = some key ∧ m.businessId = businessId :=
  of_find?_keys found

/-! ### The queue -/

theorem Keyed.addOp (keyed : d.Keyed) {op : OutboundOp}
    (generated : op.id = freshKey (d.ops.map (·.id))) : (d.addOp op).Keyed :=
  { keyed with opIds := keyed.opIds.append_freshKey generated }

theorem enqueueOutboundComment_some (linked : d.linkedTicket ticketId businessId = some (t, link))
    (messageId : UUID) (body : String) (internal : Bool) (now : Timestamp) :
    d.enqueueOutboundComment ticketId messageId businessId body internal now =
      d.addOp (d.newOp businessId ticketId link.connectorId
        (some messageId) .comment body internal now) := by
  obtain ⟨-, rfl, rfl, -⟩ := linkedTicket_some linked
  rw [Desk.enqueueOutboundComment, linked]

/-- An operation for the transition waits or is being dispatched. -/
def inFlight (d : Desk) (ticketId : UUID) (status : String) : Bool :=
  d.ops.any fun o => o.ticketId == ticketId && o.opType == .transition &&
    (o.status == .pending || o.status == .inProgress) && o.body == some status

/-- The row that `EnqueueOutboundTransition` adds, unless the same transition is in flight. -/
theorem enqueueOutboundTransition_some
    (linked : d.linkedTicket ticketId businessId = some (t, link)) (status : String)
    (now : Timestamp) :
    d.enqueueOutboundTransition ticketId businessId status now =
      if d.inFlight ticketId status then d
      else d.addOp (d.newOp businessId ticketId link.connectorId none .transition status false now) := by
  obtain ⟨-, rfl, rfl, -⟩ := linkedTicket_some linked
  rw [Desk.enqueueOutboundTransition, linked]
  rfl

theorem enqueueOutboundCreateIssue_ok {connectors : UUID → Option UUID} {connectorId : UUID}
    (ok : d.enqueueOutboundCreateIssue connectors businessId ticketId connectorId now = .ok d') :
    ∃ t ∈ d.tickets, t.id = ticketId ∧ t.link = none ∧
      d' = d.addOp (d.newOp businessId ticketId connectorId none .createIssue "" false now) := by
  simp only [Desk.enqueueOutboundCreateIssue] at ok
  split at ok
  · cases ok
  split at ok
  · cases ok
  next t found =>
  have holds := List.find?_some found
  simp only [Bool.and_eq_true, beq_iff_eq, Option.isNone_iff_eq_none] at holds
  cases ok
  exact ⟨t, List.mem_of_find?_eq_some found, holds.1.1, holds.2, by rw [holds.1.1, holds.1.2]⟩

/-! ### Replies and notes -/

@[simp]
theorem advanceNewToOpen_messages (t : Ticket) : (d.advanceNewToOpen t).messages = d.messages := by
  unfold advanceNewToOpen
  split <;> rfl

@[simp]
theorem advanceNewToOpen_ops (t : Ticket) : (d.advanceNewToOpen t).ops = d.ops := by
  unfold advanceNewToOpen
  split <;> rfl

theorem linkedTicket_advanceNewToOpen (t : Ticket) (id businessId : UUID) :
    ((d.advanceNewToOpen t).linkedTicket id businessId).map Prod.snd =
      (d.linkedTicket id businessId).map Prod.snd := by
  unfold Desk.advanceNewToOpen
  split
  · simp only [linkedTicket]
    rw [find?_updateWhere]
    · cases d.tickets.find? _ with
      | none => rfl
      | some u =>
        simp only [Option.map_some, Option.bind_some]
        split <;> cases u.link <;> rfl
    · exact fun _ _ => rfl
  · rfl

@[simp]
theorem ticketExternalId_advanceNewToOpen (t : Ticket) (id : UUID) :
    (d.advanceNewToOpen t).ticketExternalId id = d.ticketExternalId id := by
  unfold Desk.advanceNewToOpen
  split
  · simp only [ticketExternalId]
    rw [find?_updateWhere]
    · cases d.tickets.find? _ with
      | none => rfl
      | some u =>
        simp only [Option.map_some, Option.bind_some]
        split <;> rfl
    · exact fun _ _ => rfl
  · rfl

theorem Keyed.advanceNewToOpen (keyed : d.Keyed) (t : Ticket) : (d.advanceNewToOpen t).Keyed := by
  unfold Desk.advanceNewToOpen
  split
  · exact { keyed with
      ticketIds := keyed.ticketIds.updateWhere fun _ _ => rfl
      ticketLinks := keyed.ticketLinks.updateWhere fun _ _ => rfl }
  · exact keyed

theorem insertMessage_some (inserted : d.insertMessage m = some d') :
    (∀ key, m.sourceApprovalItemId = some key →
      ∀ other ∈ d.messages, other.sourceApprovalItemId ≠ some key) ∧
      d' = { d with messages := d.messages ++ [m] } := by
  unfold insertMessage at inserted
  split at inserted
  · cases inserted
  next free =>
  refine ⟨fun key isKey other member taken => free (List.any_eq_true.mpr ⟨other, member, ?_⟩),
    (Option.some.inj inserted).symm⟩
  simp [isKey, taken]

/-- What a reply or a note on this ticket leaves behind: a message, and an operation for it if the
ticket is linked. -/
def written (d : Desk) (t : Ticket) (internal : Bool) (m : Message) (now : Timestamp) : Desk :=
  { d.advanceNewToOpen t with
    messages := d.messages ++ [m]
    ops := d.ops ++ t.link.toList.map fun link =>
      d.newOp m.businessId m.ticketId link.connectorId (some m.id) .comment m.body internal now }

@[simp]
theorem ticketExternalId_written (t : Ticket) (internal : Bool) (m : Message) (now : Timestamp)
    (id : UUID) : (d.written t internal m now).ticketExternalId id = d.ticketExternalId id :=
  ticketExternalId_advanceNewToOpen t id

@[simp]
theorem linkedTicket_written_isSome (t : Ticket) (internal : Bool) (m : Message) (now : Timestamp)
    (id businessId : UUID) :
    ((d.written t internal m now).linkedTicket id businessId).isSome =
      (d.linkedTicket id businessId).isSome := by
  have same := congrArg Option.isSome (linkedTicket_advanceNewToOpen (d := d) t id businessId)
  simp only [Option.isSome_map] at same
  exact same

theorem link_of_mem_written {internal : Bool} {u : Ticket}
    (member : u ∈ (d.written t internal m now).tickets) : ∃ old ∈ d.tickets, old.link = u.link := by
  simp only [written, Desk.advanceNewToOpen] at member
  split at member
  · obtain ⟨old, isTicket, rfl⟩ := mem_updateWhere.mp member
    refine ⟨old, isTicket, ?_⟩
    split <;> rfl
  · exact ⟨u, member, rfl⟩

/-- A successful `Reply` or `AddNote` returns the message of an earlier call with the key, or writes
one. -/
theorem write_ok (keys : UniqueOn Ticket.id d.tickets) {direction : Direction} {internal : Bool}
    {body : String}
    {w : Writing} (ok : d.write direction internal businessId ticketId body w = .ok (m, d')) :
    (d' = d ∧ ∃ key, w.key = some key ∧ d.messageByApproval key businessId = some m) ∨
    (m = ⟨freshKey (d.messages.map (·.id)), ticketId, businessId, direction, body, none, w.key⟩ ∧
      (∀ key, w.key = some key → ∀ other ∈ d.messages, other.sourceApprovalItemId ≠ some key) ∧
      ∃ t, d.getTicket ticketId businessId = some t ∧ d' = d.written t internal m w.now) := by
  simp only [write] at ok
  split at ok
  · cases ok
  split at ok
  · cases ok
  next t found =>
  split at ok
  next prior isPrior =>
    obtain ⟨key, isKey, byKey⟩ := Option.bind_eq_some_iff.mp isPrior
    cases ok
    exact .inl ⟨rfl, key, isKey, byKey⟩
  split at ok
  · cases ok
  split at ok
  · cases ok
  next after inserted =>
  obtain ⟨free, rfl⟩ := insertMessage_some inserted
  cases ok
  rw [advanceNewToOpen_messages] at free
  refine .inr ⟨rfl, free, t, found, ?_⟩
  obtain ⟨isTicket, rfl, rfl, -⟩ := getTicket_some found
  cases isLink : t.link with
  | none => simp [written, isLink]
  | some link =>
    -- The enqueue reads the ticket again, after it was opened.
    have again := linkedTicket_advanceNewToOpen (d := d) t t.id t.businessId
    rw [linkedTicket_eq_some keys isTicket isLink, Option.map_some] at again
    obtain ⟨⟨u, other⟩, linked, rfl⟩ := Option.map_eq_some_iff.mp again
    have inserted (messages : List Message) :
        { d.advanceNewToOpen t with messages := messages }.linkedTicket t.id t.businessId =
          some (u, other) :=
      linked
    rw [if_pos Option.isSome_some, enqueueOutboundComment_some (inserted _)]
    simp [written, isLink, Desk.addOp, newOp]

section

variable (keyed : d.Keyed)

include keyed

theorem Keyed.written (generated : m.id = freshKey (d.messages.map (·.id)))
    (unlinked : m.link = none) (free : ∀ key, m.sourceApprovalItemId = some key →
      ∀ other ∈ d.messages, other.sourceApprovalItemId ≠ some key) (t : Ticket) (internal : Bool)
    (now : Timestamp) : (d.written t internal m now).Keyed := by
  have advanced := keyed.advanceNewToOpen t
  refine { advanced with
    messageIds := keyed.messageIds.append_freshKey generated
    messageLinks := keyed.messageLinks.append (by simp [unlinked])
    approvals := keyed.approvals.append free
    opIds := ?_ }
  cases isLink : t.link with
  | none => simpa [Desk.written, isLink] using keyed.opIds
  | some link =>
    simp only [Desk.written, isLink, Option.toList_some, List.map_cons, List.map_nil]
    exact keyed.opIds.append_freshKey rfl

theorem Keyed.write {direction : Direction} {internal : Bool} {body : String} {w : Writing}
    (ok : d.write direction internal businessId ticketId body w = .ok (m, d')) : d'.Keyed := by
  rcases write_ok keyed.ticketIds ok with ⟨rfl, -⟩ | ⟨rfl, free, t, -, rfl⟩
  · exact keyed
  · exact keyed.written rfl rfl free t internal w.now

/-! ### The dispatcher's statements -/

theorem Keyed.updateOp (id : UUID) {change : OutboundOp → OutboundOp}
    (kept : ∀ op, (change op).id = op.id) : (d.updateOp id change).Keyed :=
  { keyed with opIds := keyed.opIds.updateWhere fun op _ => kept op }

theorem Keyed.claim (limit : Nat) (lease now : Timestamp) (passedOver : List UUID) :
    (d.claim limit lease now passedOver).2.Keyed :=
  { keyed with opIds := keyed.opIds.updateWhere fun _ _ => rfl }

omit keyed in
theorem completeOutboundComment_some {op messageId : UUID}
    (ok : d.completeOutboundComment op messageId link now = some d') :
    ((∃ m ∈ d.messages, m.id = messageId ∧ m.link = none) → ∀ m ∈ d.messages, m.link ≠ some link) ∧
      d' = { d with
        messages := updateWhere (fun m => m.id == messageId && m.link.isNone)
          (fun m => { m with link := some link }) d.messages
        ops := updateWhere (·.id == op) (·.completed now) d.ops } := by
  simp only [completeOutboundComment] at ok
  split at ok
  · cases ok
  next passes => exact ⟨by simpa using passes_index.mp passes, (Option.some.inj ok).symm⟩

omit keyed in
theorem completeComment_of_free {claimed : OutboundOp} {messageId : UUID}
    (free : (∃ m ∈ d.messages, m.id = messageId ∧ m.link = none) → ∀ m ∈ d.messages, m.link ≠ some link) :
    d.completeComment claimed messageId link now =
      { d with
        messages := updateWhere (fun m => m.id == messageId && m.link.isNone)
          (fun m => { m with link := some link }) d.messages
        ops := updateWhere (·.id == claimed.id) (·.completed now) d.ops } := by
  unfold completeComment completeOutboundComment
  rw [if_neg]
  · rfl
  · exact passes_index.mpr (by simpa using free)

omit keyed in
theorem completeOutboundCreate_some {op : UUID}
    (ok : d.completeOutboundCreate op ticketId link now = some d') :
    ((∃ t ∈ d.tickets, t.id = ticketId ∧ t.link = none) → ∀ t ∈ d.tickets, t.link ≠ some link) ∧
      d' = { d with
        tickets := updateWhere (fun t => t.id == ticketId && t.link.isNone)
          (fun t => { t with link := some link }) d.tickets
        ops := updateWhere (·.id == op) (·.completed now) d.ops } := by
  simp only [completeOutboundCreate] at ok
  split at ok
  · cases ok
  next passes => exact ⟨by simpa using passes_index.mp passes, (Option.some.inj ok).symm⟩

theorem Keyed.completeOutboundComment {op messageId : UUID}
    (ok : d.completeOutboundComment op messageId link now = some d') : d'.Keyed := by
  obtain ⟨free, rfl⟩ := completeOutboundComment_some ok
  have chosen (m : Message) (stamped : (m.id == messageId && m.link.isNone) = true) :
      m.id = messageId ∧ m.link = none := by simpa using stamped
  exact { keyed with
    messageIds := keyed.messageIds.updateWhere fun _ _ => rfl
    messageLinks :=
      keyed.messageLinks.stamp keyed.messageIds messageId (fun m stamped => (chosen m stamped).1)
      (fun _ _ => rfl) fun ⟨m, isMessage, stamped⟩ => free ⟨m, isMessage, chosen m stamped⟩
    approvals := keyed.approvals.updateWhere fun _ _ => rfl
    opIds := keyed.opIds.updateWhere fun _ _ => rfl }

theorem Keyed.completeComment (claimed : OutboundOp) (messageId : UUID) (link : Link)
    (now : Timestamp) : (d.completeComment claimed messageId link now).Keyed := by
  unfold Desk.completeComment
  cases ok : d.completeOutboundComment claimed.id messageId link now with
  | none => exact keyed.updateOp claimed.id fun _ => rfl
  | some after => exact keyed.completeOutboundComment ok

theorem Keyed.completeOutboundCreate {op : UUID}
    (ok : d.completeOutboundCreate op ticketId link now = some d') : d'.Keyed := by
  obtain ⟨free, rfl⟩ := completeOutboundCreate_some ok
  have chosen (t : Ticket) (linked : (t.id == ticketId && t.link.isNone) = true) :
      t.id = ticketId ∧ t.link = none := by simpa using linked
  exact { keyed with
    ticketIds := keyed.ticketIds.updateWhere fun _ _ => rfl
    ticketLinks := keyed.ticketLinks.stamp keyed.ticketIds ticketId (fun t linked => (chosen t linked).1)
      (fun _ _ => rfl) fun ⟨t, isTicket, linked⟩ => free ⟨t, isTicket, chosen t linked⟩
    opIds := keyed.opIds.updateWhere fun _ _ => rfl }

end

/-! ### Inbound sync -/

/-- Comments with these external ids were added: those that were not there, as inbound messages. -/
structure Imported (connectorId : UUID) (ids : List String) (d d' : Desk) (new : List Message) :
    Prop where
  desk : d' = { d with messages := d.messages ++ new }
  inbound : ∀ m ∈ new, m.direction = .inbound
  named : ∀ m ∈ new, ∃ id ∈ ids, m.link = some ⟨connectorId, id⟩
  fresh : ∀ m ∈ new, ∀ old ∈ d.messages, old.link ≠ m.link
  covered : ∀ id ∈ ids, ∃ m ∈ d'.messages, m.link = some ⟨connectorId, id⟩
  keyed : d.Keyed → d'.Keyed

variable {connectorId : UUID} {ids ids' : List String} {new new' : List Message} {d'' : Desk}

theorem Imported.refl (connectorId : UUID) (d : Desk) : Imported connectorId [] d d [] :=
  ⟨by simp, nofun, nofun, nofun, nofun, id⟩

theorem Imported.trans (first : Imported connectorId ids d d' new)
    (second : Imported connectorId ids' d' d'' new') :
    Imported connectorId (ids ++ ids') d d'' (new ++ new') := by
  have same := first.desk
  subst same
  refine ⟨by simp [second.desk], ?_, ?_, ?_, ?_, second.keyed ∘ first.keyed⟩
  · exact fun m member => (List.mem_append.mp member).elim (first.inbound m) (second.inbound m)
  · intro m member
    rcases List.mem_append.mp member with earlier | later
    · obtain ⟨id, isId, link⟩ := first.named m earlier
      exact ⟨id, List.mem_append_left _ isId, link⟩
    · obtain ⟨id, isId, link⟩ := second.named m later
      exact ⟨id, List.mem_append_right _ isId, link⟩
  · intro m member old isOld
    rcases List.mem_append.mp member with earlier | later
    · exact first.fresh m earlier old isOld
    · exact second.fresh m later old (List.mem_append_left _ isOld)
  · intro id member
    rcases List.mem_append.mp member with earlier | later
    · obtain ⟨m, isMessage, link⟩ := first.covered id earlier
      refine ⟨m, ?_, link⟩
      rw [second.desk]
      exact List.mem_append_left _ isMessage
    · exact second.covered id later

theorem syncInboundExternalComment_imported (businessId ticketId connectorId : UUID)
    (id body : String) :
    ∃ new, Imported connectorId [id] d
        (d.syncInboundExternalComment businessId ticketId ⟨connectorId, id⟩ body).1 new ∧
      (d.syncInboundExternalComment businessId ticketId ⟨connectorId, id⟩ body).2.toList =
        new.map (·.id) := by
  simp only [syncInboundExternalComment]
  split
  next known =>
    obtain ⟨m, isMessage, link⟩ := List.any_eq_true.mp known
    refine ⟨[], ⟨by simp, nofun, nofun, nofun, ?_, fun keyed => keyed⟩, rfl⟩
    intro other isId
    obtain rfl := List.mem_singleton.mp isId
    exact ⟨m, isMessage, by simpa using link⟩
  next unknown =>
  have fresh (old : Message) (isOld : old ∈ d.messages) : old.link ≠ some ⟨connectorId, id⟩ :=
    fun same => unknown (List.any_eq_true.mpr ⟨old, isOld, by simp [same]⟩)
  refine ⟨[_], ⟨rfl, ?_, ?_, ?_, ?_, fun keyed => { keyed with
    messageIds := keyed.messageIds.append_freshKey rfl
    messageLinks := keyed.messageLinks.append ?_
    approvals := keyed.approvals.append nofun }⟩, rfl⟩
  · simp
  · simp
  · simpa using fresh
  · simp
  · simpa using fresh

theorem syncDescription_imported (businessId ticketId connectorId : UUID) (issue : ExternalIssue) :
    ∃ ids new, Imported connectorId ids d (d.syncDescription businessId ticketId connectorId issue) new ∧
      ∀ id ∈ ids, id = issue.externalId ++ ":description" := by
  unfold syncDescription
  split
  · exact ⟨[], [], .refl connectorId d, nofun⟩
  · obtain ⟨new, imported, -⟩ := d.syncInboundExternalComment_imported businessId ticketId connectorId
      (issue.externalId ++ ":description") issue.description
    exact ⟨_, new, imported, fun id member => List.mem_singleton.mp member⟩

theorem syncComments_imported (businessId ticketId connectorId : UUID) (existed : Bool)
    (comments : List ExternalComment) (d : Desk) :
    ∃ new, Imported connectorId (comments.map (·.externalId)) d
        (syncComments businessId ticketId connectorId existed comments d).1 new ∧
      (syncComments businessId ticketId connectorId existed comments d).2 =
        if existed then new.map fun m => .messageReceived ticketId m.id else [] := by
  induction comments generalizing d with
  | nil => exact ⟨[], .refl connectorId d, by simp [syncComments]⟩
  | cons c rest ih =>
    obtain ⟨first, importedFirst, ids⟩ :=
      d.syncInboundExternalComment_imported businessId ticketId connectorId c.externalId c.body
    obtain ⟨later, importedLater, events⟩ :=
      ih (d.syncInboundExternalComment businessId ticketId ⟨connectorId, c.externalId⟩ c.body).1
    refine ⟨first ++ later, importedFirst.trans importedLater, ?_⟩
    simp only [syncComments, events, ids]
    cases existed <;> simp

section

variable (lower : String → String)

include lower

/-- The handler adds messages for the comments and perhaps the description, and raises an event for
new messages only. -/
theorem handle_imported (businessId : UUID) (link : Link) (issue : ExternalIssue) :
    ∃ ids new, Imported link.connectorId (ids ++ issue.comments.map (·.externalId))
        (d.syncInboundExternalIssue lower businessId link issue).1
          (d.handle lower businessId link issue).1 new ∧
      (∀ id ∈ ids, id = issue.externalId ++ ":description") ∧
      ∀ ticketId messageId, .messageReceived ticketId messageId ∈
        (d.handle lower businessId link issue).2 → ∃ m ∈ new, m.id = messageId := by
  obtain ⟨ids, described, importedFirst, isDescription⟩ :=
    (d.syncInboundExternalIssue lower businessId link issue).1.syncDescription_imported businessId
      (d.syncInboundExternalIssue lower businessId link issue).2.1 link.connectorId issue
  obtain ⟨commented, importedLater, events⟩ :=
    syncComments_imported businessId (d.syncInboundExternalIssue lower businessId link issue).2.1
      link.connectorId (d.connectorTicketExists link) issue.comments
      ((d.syncInboundExternalIssue lower businessId link issue).1.syncDescription businessId
        (d.syncInboundExternalIssue lower businessId link issue).2.1 link.connectorId issue)
  refine ⟨ids, described ++ commented, importedFirst.trans importedLater, isDescription, ?_⟩
  intro ticketId messageId raised
  simp only [handle, events] at raised
  rcases List.mem_append.mp raised with created | received
  · split at created
    · cases List.mem_singleton.mp created
    · cases created
  · split at received
    · obtain ⟨m, isNew, same⟩ := List.mem_map.mp received
      cases same
      exact ⟨m, List.mem_append_right _ isNew, rfl⟩
    · cases received

@[simp]
theorem syncInboundExternalIssue_messages (businessId : UUID) (link : Link)
    (issue : ExternalIssue) :
    (d.syncInboundExternalIssue lower businessId link issue).1.messages = d.messages := by
  unfold syncInboundExternalIssue
  split <;> rfl

theorem handle_ops (businessId : UUID) (link : Link) (issue : ExternalIssue) :
    (d.handle lower businessId link issue).1.ops = d.ops := by
  obtain ⟨_, _, imported, -⟩ := d.handle_imported lower businessId link issue
  rw [imported.desk]
  unfold syncInboundExternalIssue
  split <;> rfl

theorem ticketExternalId_handle (businessId : UUID) (link : Link) (issue : ExternalIssue)
    {external : String} (isLinked : d.ticketExternalId id = some external) :
    (d.handle lower businessId link issue).1.ticketExternalId id = some external := by
  obtain ⟨_, _, imported, -⟩ := d.handle_imported lower businessId link issue
  obtain ⟨t, found, isLink⟩ := Option.bind_eq_some_iff.mp isLinked
  rw [imported.desk]
  simp only [ticketExternalId, syncInboundExternalIssue]
  split
  · simp only
    rw [find?_updateWhere]
    · simp only [found, Option.map_some, Option.bind_some]
      split <;> exact isLink
    · exact fun _ _ => rfl
  · simp only [List.find?_append, found, Option.some_or, Option.bind_some]
    exact isLink

/-! ### Which ticket is linked to which issue -/

/-- The tickets' ids and links. -/
def links (d : Desk) : List (UUID × Option Link) := d.tickets.map fun t => (t.id, t.link)

omit lower in
theorem mem_links {link : Option Link} :
    (id, link) ∈ d.links ↔ ∃ t ∈ d.tickets, t.id = id ∧ t.link = link := by
  simp [links]

omit lower in
theorem completeOutboundCreate_of_free (free : ∀ id, (id, some link) ∉ d.links) (op ticketId : UUID)
    (now : Timestamp) :
    ∃ d', d.completeOutboundCreate op ticketId link now = some d' ∧
      d'.ops = updateWhere (·.id == op) (·.completed now) d.ops ∧
      d'.links = updateWhere (fun pair => pair.1 == ticketId && pair.2.isNone) (fun pair =>
        (pair.1, some link))
        d.links := by
  unfold completeOutboundCreate
  rw [if_neg]
  · refine ⟨_, rfl, rfl, ?_⟩
    simp only [links, updateWhere, List.map_map]
    refine List.map_congr_left fun t _ => ?_
    simp only [Function.comp_apply]
    split <;> rfl
  · refine passes_index.mpr fun _ t isTicket isLink => free t.id ?_
    exact mem_links.mpr ⟨t, isTicket, rfl, by simpa using isLink⟩

theorem links_handle_of_mem (businessId : UUID) (issue : ExternalIssue)
    (isLinked : (id, some link) ∈ d.links) :
    (d.handle lower businessId link issue).1.links = d.links := by
  obtain ⟨_, _, imported, -⟩ := d.handle_imported lower businessId link issue
  obtain ⟨t, isTicket, -, isLink⟩ := mem_links.mp isLinked
  rw [imported.desk]
  simp only [links, syncInboundExternalIssue]
  split
  · exact map_updateWhere _ _ fun _ _ => rfl
  next absent => exact absurd (List.find?_eq_none.mp absent t isTicket) (by simp [isLink])

theorem links_handle_of_new (businessId : UUID) (issue : ExternalIssue)
    (isNew : ∀ id, (id, some link) ∉ d.links) :
    (d.handle lower businessId link issue).1.links =
      d.links ++ [(freshKey (d.tickets.map (·.id)), some link)] := by
  obtain ⟨_, _, imported, -⟩ := d.handle_imported lower businessId link issue
  rw [imported.desk]
  simp only [links, syncInboundExternalIssue]
  split
  next t found =>
    refine absurd (mem_links.mpr ⟨t, List.mem_of_find?_eq_some found, rfl, ?_⟩) (isNew t.id)
    simpa using List.find?_some found
  next => simp [ExternalIssue.onto]

end

theorem upsertSyncState_unique {states : List SyncState}
    (unique : UniqueOn SyncState.ticketId states)
    (new : SyncState) : UniqueOn SyncState.ticketId (upsertSyncState new states) := by
  unfold upsertSyncState
  split
  · exact unique.updateWhere fun _ _ => rfl
  next absent =>
  refine unique.append_fresh fun old member same => absent (List.any_eq_true.mpr ⟨old, member, ?_⟩)
  simpa using same

theorem Keyed.handle (keyed : d.Keyed) (lower : String → String) (businessId : UUID) (link : Link)
    (issue : ExternalIssue) : (d.handle lower businessId link issue).1.Keyed := by
  obtain ⟨_, _, imported, -⟩ := d.handle_imported lower businessId link issue
  apply imported.keyed
  simp only [syncInboundExternalIssue]
  split
  next =>
    exact { keyed with
      ticketIds := keyed.ticketIds.updateWhere fun _ _ => rfl
      ticketLinks := keyed.ticketLinks.updateWhere fun _ _ => rfl
      syncTickets := upsertSyncState_unique keyed.syncTickets _ }
  next unlinked =>
  refine { keyed with
    ticketIds := keyed.ticketIds.append_freshKey rfl
    ticketLinks := keyed.ticketLinks.append ?_
    syncTickets := upsertSyncState_unique keyed.syncTickets _ }
  intro other isLink t isTicket same
  obtain rfl := Option.some.inj isLink
  exact absurd (List.find?_eq_none.mp unlinked t isTicket) (by simp [same])

end Manyforge.Connectors.Desk
