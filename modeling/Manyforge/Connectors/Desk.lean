import Manyforge.Text
import Manyforge.Lib.Table

/-!
# Tickets, messages and outbound operations

A ticket can be linked to an issue of an external system. Replies and notes on a linked ticket are
queued as outbound operations, which a dispatcher posts to the external system and then writes the
external id back. The statements here are the SQL queries and the `SECURITY DEFINER` functions, one
transaction each unless said otherwise.
-/
namespace Manyforge.Connectors

open Table

/-- `(connector_id, external_id)` of a ticket or a message; the `CHECK` constraints let neither
stand alone. -/
structure Link where
  connectorId : UUID
  externalId : String
  deriving DecidableEq

inductive TicketStatus where
  | new | open_ | pending | solved | closed
  deriving DecidableEq

inductive TicketPriority where
  | low | normal | high | urgent
  deriving DecidableEq

inductive Direction where
  | inbound | outbound | note
  deriving DecidableEq

structure Ticket where
  (id businessId : UUID)
  subject : String
  status : TicketStatus
  priority : TicketPriority
  redacted : Bool
  link : Option Link
  deriving DecidableEq

structure Message where
  (id ticketId businessId : UUID)
  direction : Direction
  body : String
  link : Option Link
  sourceApprovalItemId : Option UUID
  deriving DecidableEq

inductive OpType where
  | comment | createIssue | transition
  deriving DecidableEq

inductive OpStatus where
  | pending | inProgress | done | failed
  deriving DecidableEq

structure OutboundOp where
  (id businessId connectorId ticketId : UUID)
  messageId : Option UUID
  opType : OpType
  status : OpStatus
  attempts : Nat
  body : Option String
  internal : Bool
  (createdAt updatedAt : Timestamp)
  deriving DecidableEq

def maxOutboundAttempts : Nat := 5

namespace OutboundOp

/-- The condition of `claim_outbound_ops`. -/
def claimable (now lease : Timestamp) (op : OutboundOp) : Bool :=
  op.status == .pending || (op.status == .inProgress && decide (op.updatedAt < now - lease))

variable (now : Timestamp) (op : OutboundOp)

/-- The update of `claim_outbound_ops`. -/
def claimed : OutboundOp :=
  { op with status := .inProgress, attempts := op.attempts + 1, updatedAt := now }

/-- The update that the `complete_outbound_*` functions share. -/
def completed : OutboundOp :=
  { op with status := .done, updatedAt := now }

/-- `fail_outbound_op`. -/
def failed (terminal : Bool) (op : OutboundOp) : OutboundOp :=
  { op with status := if terminal then .failed else .pending, updatedAt := now }

@[simp]
theorem claimed_id : (op.claimed now).id = op.id := rfl

end OutboundOp

/-- The rows that `claim_outbound_ops` takes. `passedOver`: rows locked by another transaction, and
rows of tenants that are being merged. -/
def claimOutboundOps (limit : Nat) (lease now : Timestamp) (passedOver : List UUID)
    (ops : List OutboundOp) : List OutboundOp :=
  selectForUpdate (·.claimable now lease) (fun op => passedOver.contains op.id)
    (fun a b => a.createdAt ≤ b.createdAt) limit ops

/-- The external values that a sync has seen. -/
structure Snapshot where
  (status priority subject : String)
  updatedAt : Timestamp
  deriving DecidableEq

/-- A row of `connector_sync_state`. -/
structure SyncState where
  ticketId : UUID
  link : Link
  snapshot : Snapshot
  externalUpdatedAt : Timestamp
  deriving DecidableEq

structure Desk where
  tickets : List Ticket
  messages : List Message
  ops : List OutboundOp
  syncStates : List SyncState

inductive DeskError where
  | validation | notFound | conflict | rateLimited | query
  deriving DecidableEq

namespace Desk

variable (d : Desk)

/-! ### Queries -/

def getTicket (id businessId : UUID) : Option Ticket :=
  d.tickets.find? fun t => t.id == id && t.businessId == businessId && !t.redacted

/-- `GetTicketConnectorRef`, also the source row of the enqueues below. -/
def linkedTicket (id businessId : UUID) : Option (Ticket × Link) :=
  (d.tickets.find? fun t => t.id == id && t.businessId == businessId && t.link.isSome).bind
    fun t => t.link.map (t, ·)

def messageByApproval (key businessId : UUID) : Option Message :=
  d.messages.find? fun m => m.sourceApprovalItemId == some key && m.businessId == businessId

variable (id : UUID) (businessId ticketId : UUID)

def messageExternalId : Option String :=
  (d.messages.find? (·.id == id)).bind fun m => m.link.map (·.externalId)

/-- The `external_id` that `claim_outbound_ops` joins to an operation. -/
def ticketExternalId : Option String :=
  (d.tickets.find? (·.id == id)).bind fun t => t.link.map (·.externalId)

def connectorTicketExists (link : Link) : Bool := d.tickets.any (·.link == some link)

/-! ### The queue -/

/-- A row for `INSERT INTO connector_outbound_op`, with a generated id and the column defaults. -/
def newOp (businessId ticketId connectorId : UUID) (messageId : Option UUID) (opType : OpType)
    (body : String) (internal : Bool) (now : Timestamp) : OutboundOp :=
  ⟨freshKey (d.ops.map (·.id)), businessId, connectorId, ticketId, messageId, opType, .pending,
    0, some body, internal, now, now⟩

def addOp (op : OutboundOp) : Desk := { d with ops := d.ops ++ [op] }

def enqueueOutboundComment (ticketId messageId businessId : UUID) (body : String) (internal : Bool)
    (now : Timestamp) : Desk :=
  match d.linkedTicket ticketId businessId with
  | none => d
  | some (t, link) =>
    d.addOp (d.newOp t.businessId t.id link.connectorId (some messageId) .comment body internal now)

def enqueueOutboundTransition (ticketId businessId : UUID) (status : String) (now : Timestamp) :
    Desk :=
  match d.linkedTicket ticketId businessId with
  | none => d
  | some (t, link) =>
    if d.ops.any fun o => o.ticketId == t.id && o.opType == .transition &&
        (o.status == .pending || o.status == .inProgress) && o.body == some status then d
    else d.addOp (d.newOp t.businessId t.id link.connectorId none .transition status false now)

/-- `EnqueueOutboundCreateIssue`: the connector is the business's own, and the ticket is there and
not linked. -/
def enqueueOutboundCreateIssue (connectors : UUID → Option UUID)
    (businessId ticketId connectorId : UUID) (now : Timestamp) : Except DeskError Desk :=
  if connectors connectorId ≠ some businessId then .error .notFound
  else
    match d.tickets.find? fun t => t.id == ticketId && t.businessId == businessId && t.link.isNone with
    | none => .error .notFound
    | some t => .ok (d.addOp (d.newOp t.businessId t.id connectorId none .createIssue "" false now))

/-- `Service.EnqueueOutboundComment`. -/
def enqueueComment (ticketId messageId businessId : UUID) (body : String) (now : Timestamp) :
    Except DeskError Desk :=
  if (d.linkedTicket ticketId businessId).isNone then .error .notFound
  else .ok (d.enqueueOutboundComment ticketId messageId businessId body false now)

/-- `Service.EnqueueOutboundTransition`. -/
def enqueueTransition (ticketId businessId : UUID) (status : String) (now : Timestamp) :
    Except DeskError Desk :=
  if (d.linkedTicket ticketId businessId).isNone then .error .notFound
  else .ok (d.enqueueOutboundTransition ticketId businessId status now)

/-! ### Replies and notes -/

/-- What a call that writes a message brings along. `refused`: the error of a check or a statement
that is not modelled (suppression, rate limit, the database). -/
structure Writing where
  key : Option UUID
  now : Timestamp
  refused : Option DeskError

/-- The insert of a message, `ON CONFLICT (source_approval_item_id) DO NOTHING`. -/
def insertMessage (m : Message) : Option Desk :=
  if d.messages.any fun other =>
      m.sourceApprovalItemId.isSome && other.sourceApprovalItemId == m.sourceApprovalItemId then none
  else some { d with messages := d.messages ++ [m] }

def advanceNewToOpen (t : Ticket) : Desk :=
  if t.status = .new then
    { d with
      tickets := updateWhere (fun u => u.id == t.id && u.businessId == t.businessId)
        (fun u => { u with status := .open_ }) d.tickets }
  else d

/-- What `Reply` and `AddNote` share: the message, and the operation for a linked ticket. -/
def write (direction : Direction) (internal : Bool) (businessId ticketId : UUID) (body : String)
    (w : Writing) : Except DeskError (Message × Desk) :=
  if body = "" then .error .validation
  else
    match d.getTicket ticketId businessId with
    | none => .error .notFound
    | some t =>
      match w.key.bind (d.messageByApproval · businessId) with
      | some prior => .ok (prior, d)
      | none =>
        match w.refused with
        | some error => .error error
        | none =>
          let m : Message :=
            ⟨freshKey (d.messages.map (·.id)), ticketId, businessId, direction, body, none, w.key⟩
          match (d.advanceNewToOpen t).insertMessage m with
          | none => .error .notFound
          | some d' =>
            .ok (m, if t.link.isSome then
              d'.enqueueOutboundComment ticketId m.id businessId body internal w.now else d')

/-- `Reply`: the comment is requester-visible. -/
def reply (body : String) (w : Writing) : Except DeskError (Message × Desk) :=
  d.write .outbound false businessId ticketId body w

/-- `AddNote`: the comment is internal. -/
def addNote (body : String) (w : Writing) : Except DeskError (Message × Desk) :=
  d.write .note true businessId ticketId body w

/-! ### The dispatcher's statements -/

def updateOp (change : OutboundOp → OutboundOp) : Desk :=
  { d with ops := updateWhere (·.id == id) change d.ops }

/-- `claim_outbound_ops`: the rows taken, and the tables after. -/
def claim (limit : Nat) (lease now : Timestamp) (passedOver : List UUID) : List OutboundOp × Desk :=
  let rows := claimOutboundOps limit lease now passedOver d.ops
  (rows.map (·.claimed now),
    { d with ops := updateWhere (fun op => rows.any (·.id == op.id)) (·.claimed now) d.ops })

/-- `complete_outbound_comment`. `none`: another message has the external id, so that the unique
index fails the transaction. -/
def completeOutboundComment (op messageId : UUID) (link : Link) (now : Timestamp) : Option Desk :=
  let stamped (m : Message) : Bool := m.id == messageId && m.link.isNone
  if d.messages.any stamped && d.messages.any (·.link == some link) then none
  else some { d with
    messages := updateWhere stamped (fun m => { m with link := some link }) d.messages
    ops := updateWhere (·.id == op) (·.completed now) d.ops }

def completeOutboundCreate (op ticketId : UUID) (link : Link) (now : Timestamp) : Option Desk :=
  let unlinked (t : Ticket) : Bool := t.id == ticketId && t.link.isNone
  if d.tickets.any unlinked && d.tickets.any (·.link == some link) then none
  else some { d with
    tickets := updateWhere unlinked (fun t => { t with link := some link }) d.tickets
    ops := updateWhere (·.id == op) (·.completed now) d.ops }

def completeOutboundTransition (op : UUID) (now : Timestamp) : Desk :=
  d.updateOp op (·.completed now)

def failOutboundOp (op : UUID) (terminal : Bool) (now : Timestamp) : Desk :=
  d.updateOp op (·.failed now terminal)

/-- What `dispatchOnce` does when a dispatch returns an error. -/
def recordFailure (claimed : OutboundOp) (now : Timestamp) : Desk :=
  d.failOutboundOp claimed.id (decide (maxOutboundAttempts ≤ claimed.attempts)) now

end Desk

/-! ### Dispatching a comment -/

/-- What `dispatchComment` does with a claimed operation. -/
inductive CommentStep where
  | error
  /-- The message has an external id already: the operation is completed with it. -/
  | repeated (messageId : UUID) (existing : String)
  | post (messageId : UUID)
  deriving DecidableEq

namespace Desk

variable (d : Desk)

/-- `dispatchComment` up to the post. -/
def commentStep (op : OutboundOp) : CommentStep :=
  match op.messageId, d.ticketExternalId op.ticketId with
  | some messageId, some issue =>
    if issue = "" then .error
    else
      match d.messageExternalId messageId with
      | none => .post messageId
      | some existing => if existing = "" then .post messageId else .repeated messageId existing
  | _, _ => .error

/-- `completeComment`, and what follows when the write-back fails. -/
def completeComment (claimed : OutboundOp) (messageId : UUID) (link : Link) (now : Timestamp) :
    Desk :=
  (d.completeOutboundComment claimed.id messageId link now).getD (d.recordFailure claimed now)

end Desk

/-- Ticket 1 of business 7, linked to the issue `P-1` of connector 5. -/
def Sample.linkedDesk : Desk :=
  ⟨[⟨1, 7, "Printer", .open_, .normal, false, some ⟨5, "P-1"⟩⟩], [], [], []⟩

end Manyforge.Connectors
