import Manyforge.Connectors.Desk

/-!
# Inbound sync

A `connector.inbound.sync` event names an external issue. The handler fetches the issue and writes
the ticket, its sync state, the description and the comments in the worker's transaction. The
external values win over the native ones; comments are only ever added.
-/
namespace Manyforge.Connectors

open Table

structure ExternalComment where
  (externalId body : String)
  deriving DecidableEq

/-- What `FetchIssue` returns. -/
structure ExternalIssue where
  (externalId title status priority description : String)
  updatedAt : Timestamp
  comments : List ExternalComment
  deriving DecidableEq

/-- The outbox events of the handler. -/
inductive DeskEvent where
  | ticketCreated (ticketId : UUID)
  | messageReceived (ticketId messageId : UUID)
  deriving DecidableEq

def mappedStatus (lower : String → String) (status : String) : TicketStatus :=
  if lower status ∈ ["done", "closed", "resolved"] then .closed else .open_

def mappedPriority (lower : String → String) (priority : String) : TicketPriority :=
  match lower priority with
  | "highest" => .urgent
  | "high" => .high
  | "low" | "lowest" => .low
  | _ => .normal

namespace ExternalIssue

variable (issue : ExternalIssue)

def snapshot : Snapshot := ⟨issue.status, issue.priority, issue.title, issue.updatedAt⟩

/-- The external values, written over a ticket. -/
def onto (lower : String → String) (t : Ticket) : Ticket :=
  { t with
    subject := nonEmptyOr issue.title "(no subject)"
    status := mappedStatus lower issue.status
    priority := mappedPriority lower issue.priority }

end ExternalIssue

/-- `INSERT INTO connector_sync_state … ON CONFLICT (ticket_id) DO UPDATE`. -/
def upsertSyncState (new : SyncState) (states : List SyncState) : List SyncState :=
  if states.any (·.ticketId == new.ticketId) then
    updateWhere (·.ticketId == new.ticketId)
      (fun old => { old with snapshot := new.snapshot, externalUpdatedAt := new.externalUpdatedAt })
        states
  else states ++ [new]

namespace Desk

variable (lower : String → String) (d : Desk)

/-- `sync_inbound_external_issue`: the tables after, the ticket and whether it is new. -/
def syncInboundExternalIssue (businessId : UUID) (link : Link) (issue : ExternalIssue) :
    Desk × UUID × Bool :=
  match d.tickets.find? (·.link == some link) with
  | some t =>
    ({ d with
      tickets := updateWhere (·.link == some link) (issue.onto lower) d.tickets
      syncStates := upsertSyncState ⟨t.id, link, issue.snapshot, issue.updatedAt⟩ d.syncStates },
        t.id, false)
  | none =>
    let id := freshKey (d.tickets.map (·.id))
    ({ d with
      tickets := d.tickets ++ [issue.onto lower ⟨id, businessId, "", .new, .normal, false, some link⟩]
      syncStates := upsertSyncState ⟨id, link, issue.snapshot, issue.updatedAt⟩ d.syncStates }, id, true)

/-- `sync_inbound_external_comment`: the tables after, and the message if it is new. -/
def syncInboundExternalComment (businessId ticketId : UUID) (link : Link) (body : String) :
    Desk × Option UUID :=
  if d.messages.any (·.link == some link) then (d, none)
  else
    let id := freshKey (d.messages.map (·.id))
    ({ d with
      messages := d.messages ++
        [⟨id, ticketId, businessId, .inbound, nonEmptyOr body "(empty)", some link, none⟩] },
      some id)

/-- Step 8a: the description, under an external id of its own. -/
def syncDescription (businessId ticketId connectorId : UUID) (issue : ExternalIssue) : Desk :=
  if issue.description = "" then d
  else (d.syncInboundExternalComment businessId ticketId
    ⟨connectorId, issue.externalId ++ ":description"⟩
    issue.description).1

/-- Step 8b: the comments one after the other, and an event for each new message of a ticket that
was there before. -/
def syncComments (businessId ticketId connectorId : UUID) (existed : Bool) :
    List ExternalComment → Desk → Desk × List DeskEvent
  | [], d => (d, [])
  | c :: rest, d =>
    let (d', new) := d.syncInboundExternalComment businessId ticketId ⟨connectorId, c.externalId⟩ c.body
    let (d'', events) := syncComments businessId ticketId connectorId existed rest d'
    (d'', (if existed then new.toList.map (.messageReceived ticketId) else []) ++ events)

/-- `Handle` once the issue is fetched: the tables after and the events. `businessId` is the
connector's. -/
def handle (businessId : UUID) (link : Link) (issue : ExternalIssue) : Desk × List DeskEvent :=
  let existed := d.connectorTicketExists link
  let (d₁, ticketId, inserted) := d.syncInboundExternalIssue lower businessId link issue
  let d₂ := d₁.syncDescription businessId ticketId link.connectorId issue
  let (d₃, events) := syncComments businessId ticketId link.connectorId existed issue.comments d₂
  (d₃, (if inserted then [.ticketCreated ticketId] else []) ++ events)

end Desk

/-- The issue `P-1`, without comments. -/
def Sample.issueAt (status : String) (updatedAt : Timestamp) : ExternalIssue :=
  ⟨"P-1", "Printer", status, "High", "", updatedAt, []⟩

end Manyforge.Connectors
