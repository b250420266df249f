import Manyforge.Connectors.Desk

/-!
# Inbound mail

A mail is routed by its recipient to one business and becomes a message there: on the ticket that
its headers or its reply token name, or on a new one. The statements of `ingest_inbound_message` are
functions of their own here, so that they can be taken one by one; `Service.ingest` is the whole
call when nothing else runs. E-mail addresses are in the form that `citext` compares.
-/
namespace Manyforge.Inbox

open Table
open Connectors (TicketStatus Direction)

/-! ### Parsing -/

structure AutoHeaders where
  (autoSubmitted precedence autoResponseSuppress listID : String)

def parseAutoHeaders (header : String → String) : AutoHeaders where
  autoSubmitted := trimSpace (header "Auto-Submitted")
  precedence := trimSpace (header "Precedence")
  autoResponseSuppress := trimSpace (header "X-Auto-Response-Suppress")
  listID := trimSpace (header "List-Id")

def deriveIsAutoReply (lower : String → String) (a : AutoHeaders) : Bool :=
  (lower a.autoSubmitted != "" && lower a.autoSubmitted != "no") ||
    ["bulk", "list", "junk"].contains (lower a.precedence) || a.autoResponseSuppress != "" ||
      a.listID != ""

/-- An attachment that passed the sniffing. -/
structure StagedAttachment where
  (blobKey filename contentType : String)
  size : Int
  deriving DecidableEq

/-- A delivery as the transport and the parser hand it over. -/
structure Mail where
  /-- The normalised envelope recipient, and the token that was in its plus segment. -/
  recipient : String
  plusToken : String
  restrictToBusiness : Option UUID
  (envelopeSender fromAddress fromName subject messageID inReplyTo : String)
  references : List String
  /-- Date and bodies, which only the digest of a mail without an id looks at. -/
  content : String
  header : String → String
  attachments : List StagedAttachment

def defaultLoopGuardMaxAutoReplies : Int := 10

/-- The service's settings and the functions of other packages that it calls. -/
structure Service where
  lower : String → String
  verifyReplyToken : String → Option UUID
  signReplyToken : UUID → String
  /-- The hex digest of a synthetic id, over the tenant, the sender, the subject and the content. -/
  digest : UUID → String → String → String → String
  loopGuardMaxAutoReplies : Int

namespace Service

variable (sv : Service)

def loopGuardMax : Int :=
  if 0 < sv.loopGuardMaxAutoReplies then
    sv.loopGuardMaxAutoReplies else defaultLoopGuardMaxAutoReplies

def hintTicket (plusToken : String) : Option UUID :=
  if plusToken = "" then none else sv.verifyReplyToken plusToken

def resolveMessageID (mail : Mail) (tenantRootId : UUID) (sender : String) : String :=
  if trimSpace mail.messageID ≠ "" then trimSpace mail.messageID
  else "synthetic-" ++
    sv.digest tenantRootId (sv.lower (trimSpace sender)) mail.subject mail.content ++
    "@synthetic.manyforge.invalid"

end Service

/-! ### Tables -/

/-- The domain of a custom address. -/
structure EmailDomain where
  businessId : UUID
  verified : Bool
  deriving DecidableEq

structure InboundAddress where
  (businessId tenantRootId : UUID)
  address : String
  domain : Option EmailDomain
  deriving DecidableEq

structure Requester where
  (id businessId tenantRootId : UUID)
  email : String
  displayName : Option String
  lastSeenAt : Timestamp
  deriving DecidableEq

structure Ticket where
  (id businessId tenantRootId requesterId : UUID)
  subject : String
  status : TicketStatus
  replyToken : String
  lastMessageAt : Timestamp
  redactedAt : Option Timestamp
  deriving DecidableEq

structure Message where
  (id ticketId businessId tenantRootId : UUID)
  direction : Direction
  messageId : String
  inReplyTo : Option String
  references : List String
  isAutoReply : Bool
  createdAt : Timestamp
  deriving DecidableEq

structure Attachment where
  (messageId businessId tenantRootId : UUID)
  file : StagedAttachment
  deriving DecidableEq

inductive Topic where
  | ticketCreated | messageReceived
  deriving DecidableEq

structure Event where
  topic : Topic
  (tenantRootId ticketId businessId messageId : UUID)
  deriving DecidableEq

structure SupportDb where
  addresses : List InboundAddress
  requesters : List Requester
  tickets : List Ticket
  messages : List Message
  attachments : List Attachment
  events : List Event

structure Route where
  (businessId tenantRootId : UUID)
  deriving DecidableEq

/-- The arguments of `ingest_inbound_message` after the route. -/
structure Delivery where
  (address senderEmail : String)
  senderName : Option String
  (subject messageId : String)
  inReplyTo : Option String
  references : List String
  isAutoReply : Bool
  hintTicket : Option UUID
  ticketId : UUID
  replyToken : String
  attachments : List StagedAttachment
  loopMaxAutoReplies : Int

inductive IngestError where
  | noRoute
  | scopeViolation (address : String) (businessId : UUID)
  | attachmentCount (count : Nat)
  | attachmentBytes (bytes : Int)
  /-- The `CHECK` on `attachment.size`. -/
  | attachmentSize
  /-- The primary key of `ticket`. -/
  | ticketExists
  deriving DecidableEq

inductive Outcome where
  | duplicate (row : Option Message)
  | suppressed
  | stored (ticketId messageId : UUID) (created : Bool)
  deriving DecidableEq

def nilIfEmpty (s : String) : Option String := if s = "" then none else some s

def hour : Timestamp := 3600000000

def maxAttachments : Nat := 50

def maxAttachmentBytes : Int := 26214400

def checkAttachments (attachments : List StagedAttachment) : Except IngestError Unit :=
  if maxAttachments < attachments.length then .error (.attachmentCount attachments.length)
  else if maxAttachmentBytes < (attachments.map (·.size)).sum then
    .error (.attachmentBytes (attachments.map (·.size)).sum)
  else .ok ()

/-- A ticket after a reply. -/
def Ticket.reopened (now : Timestamp) (t : Ticket) : Ticket :=
  { t with
    status := if t.status ∈ [.pending, .solved, .closed] then .open_ else t.status
    lastMessageAt := now }

namespace SupportDb

variable (db : SupportDb) (r : Route) (d : Delivery)

/-! ### Statements -/

/-- `resolve_inbound_address`. -/
def resolveRecipient (address : String) : Option Route :=
  (db.addresses.find? fun ia => ia.address == address && ia.domain.all (·.verified)).map fun ia =>
    ⟨ia.businessId, ia.tenantRootId⟩

/-- `resolve_inbound_address_for_business`. -/
def resolveRecipientForBusiness (businessId : UUID) (address : String) : Option Route :=
  (db.addresses.find? fun ia => ia.businessId == businessId && ia.address == address &&
    ia.domain.any fun domain => domain.businessId == businessId && domain.verified).map fun ia =>
    ⟨ia.businessId, ia.tenantRootId⟩

def route (mail : Mail) : Option Route :=
  match mail.restrictToBusiness with
  | some businessId => db.resolveRecipientForBusiness businessId mail.recipient
  | none => db.resolveRecipient mail.recipient

def inScope (address : String) : Bool :=
  db.addresses.any fun ia =>
    ia.tenantRootId == r.tenantRootId && ia.businessId == r.businessId && ia.address == address

def duplicate? (messageId : String) : Option Message :=
  db.messages.find? fun m =>
    m.tenantRootId == r.tenantRootId && m.businessId == r.businessId && m.messageId == messageId

variable (requesterId : UUID) (now : Timestamp)

/-- The requester's id is returned with the tables. -/
def upsertRequester : SupportDb × UUID :=
  match db.requesters.find? fun q =>
    q.tenantRootId == r.tenantRootId && q.email == d.senderEmail with
  | some q =>
    ({ db with
      requesters := updateWhere (·.id == q.id)
        (fun q => { q with lastSeenAt := now, displayName := d.senderName.or q.displayName })
          db.requesters },
      q.id)
  | none =>
    ({ db with
      requesters := db.requesters ++ [⟨freshKey (db.requesters.map (·.id)), r.businessId, r.tenantRootId,
        d.senderEmail, d.senderName, now⟩] },
      freshKey (db.requesters.map (·.id)))

/-- The messages that the loop guard counts. -/
def counted (m : Message) : Bool :=
  m.tenantRootId == r.tenantRootId && m.isAutoReply && decide (now - hour < m.createdAt) &&
    db.tickets.any fun t =>
      t.id == m.ticketId && t.businessId == r.businessId && t.requesterId == requesterId

def suppresses : Bool :=
  d.isAutoReply && decide (0 < d.loopMaxAutoReplies) &&
    decide (d.loopMaxAutoReplies ≤ db.messages.countP (db.counted r requesterId now))

/-- A ticket that mail to the business may be threaded into. -/
def threadable (id : UUID) : Bool :=
  db.tickets.any fun t => t.id == id && t.businessId == r.businessId && t.redactedAt.isNone

def threadByHeaders : Option UUID :=
  if d.inReplyTo.isNone && d.references.isEmpty then none
  else
    (selectFirst (fun m => m.tenantRootId == r.tenantRootId && db.threadable r m.ticketId &&
        (d.references ++ d.inReplyTo.toList).contains m.messageId)
      (fun a b => b.createdAt ≤ a.createdAt) 1 db.messages).head?.map (·.ticketId)

def threadByHint : Option UUID :=
  d.hintTicket.bind fun id =>
    (db.tickets.find? fun t =>
      t.id == id && t.businessId == r.businessId && t.tenantRootId == r.tenantRootId &&
      t.redactedAt.isNone).map (·.id)

/-- A new ticket under the id the caller minted, or the ticket found, reopened. -/
def placeTicket (ticket : Option UUID) (now : Timestamp) : Except IngestError (SupportDb × UUID) :=
  match ticket with
  | none =>
    if db.tickets.any (·.id == d.ticketId) then .error .ticketExists
    else .ok
      ({ db with tickets :=
      db.tickets ++ [⟨d.ticketId, r.businessId, r.tenantRootId, requesterId, d.subject,
      .new, d.replyToken, now, none⟩] }, d.ticketId)
  | some id => .ok ({ db with tickets := updateWhere (·.id == id) (·.reopened now) db.tickets }, id)

/-- `INSERT … ON CONFLICT (business_id, message_id) DO NOTHING RETURNING id`. -/
def insertMessage (ticketId : UUID) (now : Timestamp) : Option (SupportDb × UUID) :=
  if db.messages.any fun m => m.businessId == r.businessId && m.messageId == d.messageId then none
  else some
    ({ db with messages :=
    db.messages ++ [⟨freshKey (db.messages.map (·.id)), ticketId, r.businessId,
    r.tenantRootId, .inbound, d.messageId, d.inReplyTo, d.references, d.isAutoReply, now⟩] },
    freshKey (db.messages.map (·.id)))

def insertAttachments (messageId : UUID) : Except IngestError SupportDb :=
  if d.attachments.any (·.size ≤ 0) then .error .attachmentSize
  else .ok { db with
    attachments := db.attachments ++ d.attachments.map (⟨messageId, r.businessId, r.tenantRootId, ·⟩) }

/-- The writes after the thread is known. A message that meets the conflict clause leaves the ticket
behind. -/
def store (ticket : Option UUID) (now : Timestamp) : Except IngestError (SupportDb × Outcome) :=
  match db.placeTicket r d requesterId ticket now with
  | .error e => .error e
  | .ok (placed, ticketId) =>
    match placed.insertMessage r d ticketId now with
    | none => .ok (placed, .duplicate (placed.duplicate? r d.messageId))
    | some (inserted, messageId) =>
      match inserted.insertAttachments r d messageId with
      | .error e => .error e
      | .ok final => .ok (final, .stored ticketId messageId ticket.isNone)

def thread : Option UUID := (db.threadByHeaders r d).or (db.threadByHint r d)

/-- The whole function. -/
def ingestInboundMessage : Except IngestError (SupportDb × Outcome) :=
  if db.inScope r d.address then
    match checkAttachments d.attachments with
    | .error e => .error e
    | .ok () =>
      match db.duplicate? r d.messageId with
      | some m => .ok (db, .duplicate (some m))
      | none =>
        let upserted := db.upsertRequester r d now
        if upserted.1.suppresses r d upserted.2 now then .ok (upserted.1, .suppressed)
        else upserted.1.store r d upserted.2 (upserted.1.thread r d) now
  else .error (.scopeViolation d.address r.businessId)

/-- The outbox events of a result. -/
def enqueue (outcome : Outcome) : SupportDb :=
  match outcome with
  | .stored ticketId messageId created =>
    { db with
      events := db.events ++
        (if created then [⟨.ticketCreated, r.tenantRootId, ticketId, r.businessId, messageId⟩] else []) ++
        [⟨.messageReceived, r.tenantRootId, ticketId, r.businessId, messageId⟩] }
  | .duplicate _ | .suppressed => db

end SupportDb

namespace Service

variable (sv : Service)

def senderEmail (mail : Mail) : String :=
  if mail.fromAddress = "" then mail.envelopeSender else mail.fromAddress

/-- The tenant only goes into the id of a mail that has no header at all. -/
def messageID (r : Route) (mail : Mail) : String :=
  sv.resolveMessageID mail (if mail.messageID = "" then r.tenantRootId else 0) (senderEmail mail)

def delivery (r : Route) (mail : Mail) (ticketId : UUID) : Delivery where
  address := mail.recipient
  senderEmail := senderEmail mail
  senderName := nilIfEmpty mail.fromName
  subject := mail.subject
  messageId := sv.messageID r mail
  inReplyTo := nilIfEmpty mail.inReplyTo
  references := mail.references
  isAutoReply := deriveIsAutoReply sv.lower (parseAutoHeaders mail.header)
  hintTicket := sv.hintTicket mail.plusToken
  ticketId := ticketId
  replyToken := sv.signReplyToken ticketId
  attachments := mail.attachments
  loopMaxAutoReplies := sv.loopGuardMax

/-- `Ingest` when no other transaction is open. -/
def ingest (db : SupportDb) (mail : Mail) (ticketId : UUID) (now : Timestamp) :
    Except IngestError (SupportDb × Outcome) :=
  match db.route mail with
  | none => .error .noRoute
  | some r =>
    match db.ingestInboundMessage r (sv.delivery r mail ticketId) now with
    | .error e => .error e
    | .ok (after, outcome) => .ok (after.enqueue r outcome, outcome)

/-- No message goes in without an id, so the advisory lock is always taken. -/
theorem messageID_ne_empty (r : Route) (mail : Mail) : sv.messageID r mail ≠ "" := by
  simp only [messageID, resolveMessageID]
  split
  next given => exact given
  next =>
  intro empty
  have noChars := congrArg String.length empty
  simp at noChars

end Service

end Manyforge.Inbox
