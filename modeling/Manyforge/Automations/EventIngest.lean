import Manyforge.Json
import Manyforge.Lib.Locks
import Manyforge.Lib.Transition

/-!
# Server-to-server events

`IngestS2SEvent` and the function `automation_ingest_event` that it calls, for any number of calls
next to each other. Each statement sees what is committed when it starts. An insert waits while
another open transaction has an entry with the same key in the unique index; when that one has
committed, the insert does nothing and the row is read instead. What the other tables say can change
at any time.
-/
namespace Manyforge.Ingress

open Table Transition

/-! ### Requests -/

structure EventInput where
  name : String
  email : Option String
  subscriberId : Option UUID
  occurredAt : Option Timestamp
  idempotencyKey : Option String
  properties : Option (List (String × Json))

/-- The normalised request; the properties are marshalled. -/
structure Prepared where
  name : String
  email : Option String
  subscriberId : Option UUID
  occurredAt : Option Timestamp
  idempotencyKey : Option String
  properties : String

abbrev Fingerprint := BitVec 256

/-- The functions of other packages, and what the column types and the `CHECK` on the properties
accept. -/
structure Runtime where
  decodeEventInput : String → Option EventInput
  parseAddress : String → Option String
  equalFold : String → String → Bool
  toLower : String → String
  marshal : List (String × Json) → Option String
  /-- SHA-256 of the marshalled request. -/
  eventRequestFingerprint : Prepared → Fingerprint
  storable : String → String → Bool

inductive EventError where
  | validation (message : String)
  | notFound
  | conflict
  /-- Also answered as not found: the insert met a conflict, but there is no such row. -/
  | gone
  deriving DecidableEq

def maxEventPropertiesBytes : Nat := 65536

/-- Five minutes. -/
def maxEventFutureSkew : Timestamp := 300000000

section Prepare

variable (rt : Runtime)

def normalizeEventEmail (value : String) : Except EventError String :=
  match rt.parseAddress (trimSpace value) with
  | none => .error (.validation "invalid email")
  | some address =>
    if rt.equalFold address (trimSpace value) = false ∨ 320 < byteLength (trimSpace value) then
      .error (.validation "invalid email")
    else .ok (rt.toLower address)

def prepareEmail : Option String → Except EventError (Option String)
  | none => .ok none
  | some value => (normalizeEventEmail rt value).map some

def prepareKey : Option String → Except EventError (Option String)
  | none => .ok none
  | some key =>
    if trimSpace key = "" ∨ 200 < byteLength (trimSpace key) then
      .error (.validation "idempotency_key must contain 1 to 200 characters")
    else .ok (some (trimSpace key))

def prepareEvent (now : Timestamp) (input : EventInput) : Except EventError Prepared := do
  if trimSpace input.name = "" ∨ 128 < byteLength (trimSpace input.name) then
    throw (.validation "name is required and must not exceed 128 characters")
  if input.email.isNone = input.subscriberId.isNone then
    throw (.validation "exactly one of email or subscriber_id is required")
  let email ← prepareEmail rt input.email
  let key ← prepareKey input.idempotencyKey
  if input.occurredAt.any fun t => decide (now + maxEventFutureSkew < t) then
    throw (.validation "occurred_at is too far in the future")
  match rt.marshal (input.properties.getD []) with
  | none => throw (.validation "properties must be a JSON object no larger than 65536 bytes")
  | some properties =>
    if maxEventPropertiesBytes < byteLength properties then
      throw (.validation "properties must be a JSON object no larger than 65536 bytes")
    return ⟨trimSpace input.name, email, input.subscriberId, input.occurredAt, key, properties⟩

end Prepare

/-- The arguments of `automation_ingest_event`. -/
structure Request where
  (businessId tenantRootId : UUID)
  (listId ingressKeyId : Option UUID)
  requestFingerprint : Option Fingerprint
  (name email : String)
  subscriberId : Option UUID
  occurredAt : Option Timestamp
  properties : String
  idempotencyKey : Option String

/-- The columns of the unique index, on rows that have an idempotency key. -/
structure IndexKey where
  businessId : UUID
  (ingressListId ingressKeyId : Option UUID)
  idempotencyKey : String
  deriving DecidableEq

def Request.ingressListId (q : Request) : Option UUID :=
  if q.requestFingerprint.isSome then q.listId else none

def Request.key (q : Request) : Option IndexKey :=
  q.idempotencyKey.map fun key => ⟨q.businessId, q.ingressListId, q.ingressKeyId, key⟩

/-! ### Tables -/

structure EventRow where
  (id businessId tenantRootId : UUID)
  (name email : String)
  subscriberId : Option UUID
  occurredAt : Timestamp
  properties : String
  idempotencyKey : Option String
  (ingressListId ingressKeyId : Option UUID)
  requestFingerprint : Option Fingerprint
  createdAt : Timestamp
  deriving DecidableEq

def EventRow.key (row : EventRow) : Option IndexKey :=
  row.idempotencyKey.map fun key => ⟨row.businessId, row.ingressListId, row.ingressKeyId, key⟩

/-- An entry under `automation.event.received`. -/
structure Notice where
  (tenantRootId businessId eventId : UUID)
  (name email : String)
  (subscriberId listId : Option UUID)
  deriving DecidableEq

/-- What the other tables say. -/
structure Directory where
  /-- `tenant_merge_root_write_allowed`. -/
  writeAllowed : UUID → Bool
  /-- `mailing_business_operational`, of a business and a tenant. -/
  businessOperational : UUID → UUID → Bool
  /-- `mailing_list_operational`, of a list, a business and a tenant. -/
  listOperational : UUID → UUID → UUID → Bool
  /-- There is a key of this list, business and tenant, and it is not revoked. -/
  keyValid : UUID → UUID → UUID → UUID → Bool
  /-- The list and the address of an active subscriber of a business and a tenant. -/
  activeSubscriber : UUID → UUID → UUID → Option (UUID × String)

namespace Directory

variable (dir : Directory)

def resolveEventSubscriber (businessId tenantRootId listId subscriberId : UUID) : Option String :=
  match dir.activeSubscriber subscriberId businessId tenantRootId with
  | none => none
  | some (itsList, email) =>
    if itsList = listId ∧ dir.listOperational itsList businessId tenantRootId = true then
      some email else none

variable (q : Request)

def fenced : Bool :=
  dir.writeAllowed q.tenantRootId && dir.businessOperational q.businessId q.tenantRootId

/-- The check of the list and the key. A fingerprint has 32 bytes by its type. -/
def ingressValid : Bool :=
  match q.requestFingerprint, q.listId, q.ingressKeyId with
  | some _, some list, some key =>
    q.idempotencyKey.isSome && dir.listOperational list q.businessId q.tenantRootId &&
      dir.keyValid key list q.businessId q.tenantRootId
  | some _, _, _ => false
  | none, _, key => key.isNone

def listValid : Bool := q.listId.all (dir.listOperational · q.businessId q.tenantRootId)

/-- The list and the address that go on, `v_list_id` and `v_email`. -/
def subscriber : Option (Option UUID × String) :=
  match q.subscriberId with
  | none => some (q.listId, q.email)
  | some id =>
    match dir.activeSubscriber id q.businessId q.tenantRootId with
    | none => none
    | some (list, email) =>
      if q.listId.all (· == list) && dir.listOperational list q.businessId q.tenantRootId then
        some (some list, email)
      else none

end Directory

structure EventDb where
  directory : Directory
  events : List EventRow
  outbox : List Notice

structure View where
  id : UUID
  (name email : String)
  subscriberId : Option UUID
  occurredAt : Timestamp
  idempotencyKey : Option String
  properties : String
  createdAt : Timestamp
  created : Bool
  deriving DecidableEq

def EventRow.view (row : EventRow) (created : Bool) : View :=
  ⟨row.id, row.name, row.email, row.subscriberId, row.occurredAt, row.idempotencyKey,
    row.properties, row.createdAt, created⟩

/-! ### Transactions -/

inductive Stage where
  /-- The address of the subscriber is looked up first. -/
  | resolve (p : Prepared) (listId subscriberId : UUID)
  | fence
  | ingress
  | list
  | subscriber
  /-- With the list and the address of the subscriber. -/
  | insert (listId : Option UUID) (email : String)
  | inserted (listId : Option UUID) (email : String)
  | reread
  | found (row : EventRow)

structure Tx where
  id : UUID
  /-- `now()` of the transaction. -/
  started : Timestamp
  request : Request
  stage : Stage

namespace Tx

variable (rt : Runtime) (tx : Tx)

def row (id : UUID) (email : String) : EventRow where
  id := id
  businessId := tx.request.businessId
  tenantRootId := tx.request.tenantRootId
  name := btrim tx.request.name
  email := email
  subscriberId := tx.request.subscriberId
  occurredAt := tx.request.occurredAt.getD tx.started
  properties := tx.request.properties
  idempotencyKey := tx.request.idempotencyKey
  ingressListId := tx.request.ingressListId
  ingressKeyId := tx.request.ingressKeyId
  requestFingerprint := tx.request.requestFingerprint
  createdAt := tx.started

def notice (row : EventRow) (listId : Option UUID) : Notice :=
  ⟨tx.request.tenantRootId, tx.request.businessId, row.id, row.name, row.email,
    row.subscriberId, listId⟩

/-- The index entries of the row that is not committed yet. -/
def locks : List IndexKey :=
  match tx.stage with
  | .inserted .. => tx.request.key.toList
  | _ => []

inductive Reply where
  /-- It waits until nobody else has these index entries. -/
  | goOn (wanted : List IndexKey) (tx : Tx)
  | commit (db : EventDb) (view : View)
  | rollback (e : EventError)

/-- The comparison of the fingerprints, after which the verifier's transaction commits or rolls
back. -/
def finish (db : EventDb) (row : EventRow) (created : Bool) : Reply :=
  if row.requestFingerprint = tx.request.requestFingerprint then .commit db (row.view created)
  else .rollback .conflict

def statement (db : EventDb) : Reply :=
  match tx.stage with
  | .resolve p listId subscriberId =>
    match db.directory.resolveEventSubscriber tx.request.businessId tx.request.tenantRootId listId
      subscriberId with
    | none => .rollback .notFound
    | some email =>
      .goOn [] { tx with
        request := { tx.request with
          email, requestFingerprint := some (rt.eventRequestFingerprint { p with email := some email }) }
        stage := .fence }
  | .fence => if db.directory.fenced tx.request then .goOn [] { tx with stage := .ingress }
      else .rollback .notFound
  | .ingress => if db.directory.ingressValid tx.request then
      .goOn [] { tx with stage := .list } else .rollback .notFound
  | .list => if db.directory.listValid tx.request then .goOn [] { tx with stage := .subscriber }
      else .rollback .notFound
  | .subscriber =>
    match db.directory.subscriber tx.request with
    | none => .rollback .notFound
    | some (listId, email) =>
      if tx.request.occurredAt.any fun t => decide (tx.started + maxEventFutureSkew < t) then
        .rollback (.validation "invalid value")
      else .goOn [] { tx with stage := .insert listId email }
  | .insert listId email =>
    if rt.storable tx.request.name tx.request.properties then
      .goOn tx.request.key.toList { tx with
        stage := if tx.request.key.isSome ∧ tx.request.key ∈ db.events.map EventRow.key then .reread
          else .inserted listId email }
    else .rollback (.validation "invalid value")
  | .inserted listId email =>
    -- Nobody else can have the index entry, so the rows can be added at the end.
    let row := tx.row (freshKey (db.events.map EventRow.id)) email
    tx.finish { db with events := db.events ++ [row], outbox :=
      db.outbox ++ [tx.notice row listId] } row true
  | .reread =>
    match db.events.find? fun row =>
      row.tenantRootId == tx.request.tenantRootId && row.key == tx.request.key with
    | none => .rollback .gone
    | some row => .goOn [] { tx with stage := .found row }
  | .found row => tx.finish db row false

end Tx

/-! ### Runs -/

structure Answer where
  request : Request
  outcome : Except EventError View

structure Ingesting where
  db : EventDb
  open_ : List Tx
  log : List Answer

inductive Action where
  /-- A call whose signature is valid: the list and the key are those that its public key resolves
  to. -/
  | call (businessId listId keyId : UUID) (raw : String) (started now : Timestamp)
  | advance (tx : UUID)
  /-- The process stops or the client goes away. -/
  | abort (tx : UUID)
  /-- Other parts of the system change what the other tables say. -/
  | others (directory : Directory)

namespace Ingesting

variable (rt : Runtime) (tenantOf : UUID → UUID)

/-- The request as far as it is known before the subscriber is looked up. -/
def request (businessId listId keyId : UUID) (p : Prepared) : Request where
  businessId := businessId
  tenantRootId := tenantOf businessId
  listId := some listId
  ingressKeyId := some keyId
  requestFingerprint := some (rt.eventRequestFingerprint p)
  name := p.name
  email := p.email.getD ""
  subscriberId := p.subscriberId
  occurredAt := p.occurredAt
  properties := p.properties
  idempotencyKey := p.idempotencyKey

/-- What stands before the first statement of `IngestS2SEvent`. -/
def prepare (raw : String) (now : Timestamp) : Except EventError Prepared :=
  match rt.decodeEventInput raw with
  | none => .error (.validation "invalid event body")
  | some input =>
    match prepareEvent rt now input with
    | .error e => .error e
    | .ok p => if p.idempotencyKey.isNone then
        .error (.validation "idempotency_key is required") else .ok p

variable (s : Ingesting)

def call (businessId listId keyId : UUID) (raw : String) (started now : Timestamp) : Ingesting :=
  match prepare rt raw now with
  | .error _ => s
  | .ok p =>
    { s with
      open_ := s.open_ ++
        [⟨freshKey (s.open_.map Tx.id), started, request rt tenantOf businessId listId keyId p,
        match p.subscriberId with
        | some id => .resolve p listId id
        | none => .fence⟩] }

def close (id : UUID) : List Tx := s.open_.filter (·.id != id)

def advance (tx : Tx) : Ingesting :=
  match tx.statement rt s.db with
  | .goOn wanted tx' =>
    if wanted.all (Locks.free Tx.id Tx.locks s.open_ tx.id) then
      { s with open_ := updateWhere (·.id == tx.id) (fun _ => tx') s.open_ }
    else s
  | .commit db view => ⟨db, s.close tx.id, s.log ++ [⟨tx.request, .ok view⟩]⟩
  | .rollback e => ⟨s.db, s.close tx.id, s.log ++ [⟨tx.request, .error e⟩]⟩

def next : Action → Ingesting
  | .call businessId listId keyId raw started now =>
  s.call rt tenantOf businessId listId keyId raw started now
  | .advance id =>
    match s.open_.find? (·.id == id) with
    | none => s
    | some tx => s.advance rt tx
  | .abort id => { s with open_ := s.close id }
  | .others directory => { s with db := { s.db with directory } }

def start (db : EventDb) : Ingesting := ⟨db, [], []⟩

end Ingesting

end Manyforge.Ingress
