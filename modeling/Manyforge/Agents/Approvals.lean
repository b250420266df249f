import Manyforge.Events.Outbox

/-!
# Approved actions

A tool call that needs a human is stored as an approval item. `Approve` moves the item and enqueues
an event in one transaction; the outbox worker delivers the event to the `ApprovalExecutor`, which
reads the item, runs the tool and records the outcome, each in a transaction of its own. The
worker's transaction marks the event afterwards.
-/
namespace Manyforge.Agents

open Table Events

inductive ApprovalState where
  | pending | approved | denied | expired | executed | failed
  deriving DecidableEq

def ApprovalState.finished : ApprovalState → Bool
  | .executed | .failed => true
  | .pending | .approved | .denied | .expired => false

def ApprovalState.terminal : ApprovalState → Bool
  | .executed | .failed | .denied | .expired => true
  | .pending | .approved => false

structure ApprovalItem (Args : Type) where
  (id agentRunId businessId : UUID)
  tool : String
  args : Args
  state : ApprovalState
  decidedAt : Option Timestamp
  expiresAt : Timestamp
  error : Option String
  deriving DecidableEq

structure ApprovalEventPayload (Args : Type) where
  (approvalId agentRunId agentPrincipalId businessId : UUID)
  tool : String
  args : Args
  deriving DecidableEq

/-- The outbox row of an approval. -/
abbrev ApprovalRow (Args : Type) := OutboxRow (ApprovalEventPayload Args)

def topicAgentApproved : String := "agent.action.approved"

/-- The wiring of the executor: whether an MCP host is set, and the registered tools. -/
structure ApprovalExecutor where
  mcp : Bool
  tools : String → Bool

/-- How a statement of the store on one item went: whether it reached the row (row level security
can hide it, the database can fail before), and whether the call returned an error. -/
structure Answer where
  (reached error : Bool)
  deriving DecidableEq

/-- Where the executor is with the first event of the batch. -/
inductive Stage where
  | waiting
  | invoking
  | marking
  | failing (reason : String)
  deriving DecidableEq

/-- What the executor does next: it goes on, or `Handle` returns. `recorded`: its last statement has
reached the item. -/
inductive Progress where
  | goOn (stage : Stage)
  | returned (ok recorded : Bool)

/-- A delivered event as it was claimed, and how the worker marks it. -/
structure Handled (Args : Type) where
  row : ApprovalRow Args
  verdict : Verdict
  recorded : Bool
  deriving DecidableEq

/-- A `drainOnce`. `alive`: its transaction still exists; when the connection is lost, the handler
runs on but nothing is marked. -/
structure Delivery (Args : Type) where
  worker : UUID
  now : Timestamp
  alive : Bool
  batch : List (ApprovalRow Args)
  stage : Stage
  results : List (Handled Args)

structure ToolCall (Args : Type) where
  (approvalId agentPrincipalId businessId : UUID)
  tool : String
  args : Args
  deriving DecidableEq

/-- The items, the events, the deliveries under way and the tool calls made so far. -/
structure Approvals (Args : Type) where
  items : List (ApprovalItem Args)
  events : List (ApprovalRow Args)
  open_ : List (Delivery Args)
  calls : List (ToolCall Args)

/-- The error of a tool, as `safeMsg` tells them apart. -/
inductive ToolError where
  | validation (message : String) | notFound | internal

def safeMsg : ToolError → String
  | .validation message => message
  | .notFound => "not found"
  | .internal => "internal error"

inductive ApprovalError where
  | notFound | conflict | query
  deriving DecidableEq

inductive ApprovalAction (Args : Type) where
  | propose (id agentRunId businessId : UUID) (tool : String) (args : Args) (now : Timestamp)
      (ttlSeconds : Nat)
  /-- `actor`: the agent's principal, or `none` when one of the later statements fails. -/
  | approve (id businessId : UUID) (now : Timestamp) (actor : Option UUID) (event : UUID)
  | deny (id businessId : UUID) (now : Timestamp)
  /-- `passedOver`: items of tenants that are being merged. -/
  | sweep (now : Timestamp) (passedOver : List UUID)
  | claim (worker : UUID) (now : Timestamp) (passedOver : List UUID)
  | read (worker : UUID) (answer : Answer)
  | invoke (worker : UUID) (error : Option ToolError)
  | mark (worker : UUID) (answer : Answer)
  | commit (worker : UUID)
  | lose (worker : UUID)
  | crash (worker : UUID)

variable {Args : Type}

def Delivery.locks (d : Delivery Args) : List UUID :=
  if d.alive then d.results.map (·.row.id) ++ d.batch.map (·.id) else []

namespace ApprovalExecutor

variable (executor : ApprovalExecutor)

/-- `Handle` up to the tool call; `found` is what `Get` returned. -/
def precheck (payload : ApprovalEventPayload Args) (found : Option (ApprovalItem Args)) :
    Progress :=
  match found with
  | none => .returned false false
  | some item =>
    if item.state ≠ .approved then .returned true true
    else if "mcp:".toList.isPrefixOf payload.tool.toList then
      if executor.mcp then .goOn .invoking else .goOn (.failing "no MCP host configured")
    else if executor.tools payload.tool then .goOn .invoking
    else .goOn (.failing "unknown tool")

/-- `Handle` after the tool call. -/
def afterInvoke (final : Bool) : Option ToolError → Progress
  | none => .goOn .marking
  | some error => if final then .goOn (.failing (safeMsg error)) else .returned false true

/-- `Handle` after `MarkExecuted`, or after `markTerminalFailure`, which ignores the error. -/
def afterMark (stage : Stage) (answer : Answer) : Progress :=
  match stage with
  | .failing _ => .returned true answer.reached
  | _ => .returned (!answer.error) answer.reached

end ApprovalExecutor

/-- The delivery after one step of the executor on the first event of its batch. -/
def Delivery.proceed (threshold : Nat) (d : Delivery Args) (e : ApprovalRow Args)
    (rest : List (ApprovalRow Args)) : Progress → Delivery Args
  | .goOn stage => { d with stage := stage }
  | .returned ok recorded =>
    { d with
      batch := rest
      stage := .waiting
      results := d.results ++ [⟨e, verdict threshold e ok, recorded⟩] }

namespace Approvals

variable (executor : ApprovalExecutor) (w : Worker) (s : Approvals Args)
  (worker : UUID) (id businessId : UUID) (now : Timestamp)

/-- `GetApprovalItem`. -/
def get : Option (ApprovalItem Args) :=
  s.items.find? fun item => item.id == id && item.businessId == businessId

/-- The condition of `DecideApprovalItem`. -/
def toDecide (item : ApprovalItem Args) : Bool :=
  item.id == id && item.businessId == businessId && item.state == .pending &&
    decide (now < item.expiresAt)

def decided (state : ApprovalState) (now : Timestamp) : List (ApprovalItem Args) :=
  updateWhere (toDecide id businessId now)
    (fun item => { item with state := state, decidedAt := some now }) s.items

def undecidable : ApprovalError :=
  if (s.get id businessId).isSome then .conflict else .notFound

/-- `Decide` with `approve = false`. -/
def deny : Except ApprovalError (Approvals Args) :=
  match s.items.find? (toDecide id businessId now) with
  | none => .error (s.undecidable id businessId)
  | some _ => .ok { s with items := s.decided id businessId .denied now }

def approve (actor : Option UUID) (event : UUID) : Except ApprovalError (Approvals Args) :=
  match s.items.find? (toDecide id businessId now) with
  | none => .error (s.undecidable id businessId)
  | some item =>
    match actor with
    | none => .error .query
    | some principal =>
      if s.events.any (·.id == event) then .error .query
      else .ok { s with
        items := s.decided id businessId .approved now
        events := s.events ++
          [⟨event, topicAgentApproved, ⟨item.id, item.agentRunId, principal, businessId, item.tool,
            item.args⟩, now, none, 0⟩] }

def expireStaleApprovals (passedOver : List UUID) : List (ApprovalItem Args) :=
  updateWhere (fun item => item.state == .pending && decide (item.expiresAt ≤ now) &&
    !passedOver.contains item.id) (fun item => { item with state := .expired }) s.items

/-- The statement that ends a stage: `MarkApprovalExecuted` or `MarkApprovalFailed`. -/
def marked (payload : ApprovalEventPayload Args) (stage : Stage) : List (ApprovalItem Args) :=
  updateWhere (fun item => item.id == payload.approvalId && item.businessId == payload.businessId &&
      item.state == .approved)
    (fun item => match stage with
      | .failing reason => { item with state := .failed, error := some reason }
      | _ => { item with state := .executed }) s.items

/-- `claim_outbox_batch`. -/
def claimBatch (passedOver : List UUID) : List (ApprovalRow Args) :=
  selectForUpdate (fun row => row.processedAt.isNone && decide (row.availableAt ≤ now))
    (fun row => passedOver.contains row.id ||
      !Locks.free Delivery.worker Delivery.locks s.open_ worker row.id)
    (fun a b => a.id ≤ b.id) w.limit s.events

def delivery? : Option (Delivery Args) := s.open_.find? (·.worker == worker)

def replaced (d : Delivery Args) : List (Delivery Args) :=
  updateWhere (·.worker == d.worker) (fun _ => d) s.open_

def markedEvents (d : Delivery Args) : List (ApprovalRow Args) :=
  d.results.foldl (fun rows result => updateWhere (·.id == result.row.id)
    (.mark d.now result.verdict) rows) s.events

def closed : List (Delivery Args) := s.open_.filter (·.worker != worker)

/-- A step of the executor on the first event of a worker's batch. -/
def onEvent (act : Delivery Args → ApprovalRow Args →
    List (ApprovalRow Args) → Approvals Args) : Approvals Args :=
  match s.delivery? worker with
  | none => s
  | some d =>
    match d.batch with
    | [] => s
    | e :: rest => act d e rest

section Steps

variable (d : Delivery Args) (e : ApprovalRow Args)
  (rest : List (ApprovalRow Args))

/-- What `Get` returns; an item that is hidden is not found, which is an error too. -/
def found (answer : Answer) : Option (ApprovalItem Args) :=
  if answer.reached && !answer.error then s.get e.payload.approvalId e.payload.businessId else none

def readItem (answer : Answer) : Approvals Args :=
  if d.stage = .waiting then
    { s with
      open_ := s.replaced (d.proceed w.threshold e rest
        (executor.precheck e.payload (s.found e answer))) }
  else s

def invokeTool (error : Option ToolError) : Approvals Args :=
  if d.stage = .invoking then
    { s with
      open_ := s.replaced (d.proceed w.threshold e rest
        (ApprovalExecutor.afterInvoke (isFinalAttempt w.threshold e.attempts) error))
      calls := s.calls ++ [⟨e.payload.approvalId, e.payload.agentPrincipalId, e.payload.businessId,
        e.payload.tool, e.payload.args⟩] }
  else s

def markItem (answer : Answer) : Approvals Args :=
  if d.stage = .waiting ∨ d.stage = .invoking then s
  else
    { s with
      items := if answer.reached then s.marked e.payload d.stage else s.items
      open_ := s.replaced
        (d.proceed w.threshold e rest (ApprovalExecutor.afterMark d.stage answer)) }

end Steps

def next : ApprovalAction Args → Approvals Args
  | .propose id agentRunId businessId tool args now ttlSeconds =>
    if s.items.any (·.id == id) then s
    else { s with
      items := s.items ++ [⟨id, agentRunId, businessId, tool, args, .pending, none,
        now + 1000000 * (ttlSeconds : Int), none⟩] }
  | .approve id businessId now actor event =>
    match s.approve id businessId now actor event with
    | .error _ => s
    | .ok s' => s'
  | .deny id businessId now =>
    match s.deny id businessId now with
    | .error _ => s
    | .ok s' => s'
  | .sweep now passedOver => { s with items := s.expireStaleApprovals now passedOver }
  | .claim worker now passedOver =>
    if s.open_.any (·.worker == worker) then s
    else { s with
      open_ := s.open_ ++ [⟨worker, now, true, s.claimBatch w worker now passedOver, .waiting, []⟩] }
  | .read worker answer => s.onEvent worker fun d e rest => s.readItem executor w d e rest answer
  | .invoke worker error => s.onEvent worker fun d e rest => s.invokeTool w d e rest error
  | .mark worker answer => s.onEvent worker fun d e rest => s.markItem w d e rest answer
  | .commit worker =>
    match s.delivery? worker with
    | none => s
    | some d =>
      if d.alive && d.batch.isEmpty then
        { s with events := s.markedEvents d, open_ := s.closed worker }
      else s
  | .lose worker =>
    match s.delivery? worker with
    | none => s
    | some d => { s with open_ := s.replaced { d with alive := false } }
  | .crash worker => { s with open_ := s.closed worker }

end Approvals

end Manyforge.Agents
