import Manyforge.Schema

/-!
# The execution engine

`Engine.Advance` runs one claimed enrollment until it parks, finishes, fails or
has processed its quota of nodes. It is written over any state the dependencies
read and change: with the database behind the ports it is the stepper's
transaction, with arbitrary answers it is what the validator's guarantees are
checked against.
-/
namespace Manyforge

/-- An error of a dependency: its text, and the sentinel errors it wraps. -/
structure DepError where
  text : String
  (invalidReference lostFence : Bool)

/-- An operation of a dependency, in the caller's transaction. -/
abbrev Op (σ α : Type) := σ → Except DepError α × σ

/-- What `Advance` reads from a subscriber snapshot. -/
structure SubscriberSnapshot where
  listId : UUID
  email : Email
  status : SubscriberStatus
  tags : List String

structure MessageSpec where
  (businessId tenantRootId subscriberId templateId enrollmentId : UUID)
  claimGeneration : Nat
  (trackOpens trackClicks : Bool)
  sourceId : UUID
  notBefore : Timestamp

structure Engagement where
  opened : Bool
  clickedURLs : List String

structure StepRecord where
  enrollmentId : UUID
  claimGeneration : Nat
  nodeId : String
  nodeKind : NodeKind
  outcome : StepOutcome
  nextNodeId : Option String
  wakeAt : Option Timestamp
  status : EnrollmentStatus
  deliveryId : Option UUID
  detail : StepDetail
  recordedAt : Timestamp

structure StepFailure where
  enrollmentId : UUID
  claimGeneration : Nat
  error : String
  terminal : Bool
  retryAt : Timestamp

structure SubscriberReader (σ : Type) where
  snapshot : UUID → Op σ SubscriberSnapshot
  activeOnList : (business : UUID) → Email → (list : UUID) → Op σ Bool

structure TagSpec where
  (businessId tenantRootId subscriberId enrollmentId : UUID)
  claimGeneration : Nat
  tag : String

structure Tagger (σ : Type) where
  (addTag removeTag : TagSpec → Op σ Unit)

structure EventQuery where
  (businessId listId : UUID)
  email : Email
  name : String
  (since evaluationTime : Timestamp)
  within : Option Int

structure StepStore (σ : Type) where
  record : StepRecord → Op σ Bool
  fail : StepFailure → Op σ Bool
  waiting : (enrollment : UUID) → (node : String) → Op σ Bool
  delivery : (enrollment : UUID) → (node : String) → Op σ (Option UUID)
  eventExists : EventQuery → Op σ Bool

/-- The ports; a port that is not configured is `none`. -/
structure Deps (σ : Type) where
  subscribers : Option (SubscriberReader σ)
  sender : Option (MessageSpec → Op σ UUID)
  engagement : Option (UUID → Op σ Engagement)
  tagger : Option (Tagger σ)
  steps : Option (StepStore σ)

inductive WaitError where
  | malformed | invalidDuration | unknownMode | invalidClock | invalidNumber | unknownLocation
  deriving DecidableEq

/-- What `Advance` and its helpers return as an error. -/
inductive EngineError where
  | stepsNotConfigured
  | graphNodeMissing (node : String)
  | invalidSendEmailConfig
  | senderNotConfigured
  | invalidWaitConfig (cause : WaitError)
  | invalidTagConfig (kind : NodeKind)
  | taggerNotConfigured
  | unknownNodeKind (kind : String)
  | subscribersNotConfigured
  | engagementNotConfigured
  | invalidConditionConfig
  | invalidConditionPredicate
  | invalidEngagementPredicate
  | invalidTagPredicate
  | invalidListPredicate
  | invalidEventPredicate
  | unknownConditionPredicate (type : String)
  | dependency (error : DepError)
  | lostFence

namespace EngineError

/-- The errors the engine itself makes from a graph it cannot run. -/
def fromGraph : EngineError → Bool
  | graphNodeMissing _ | invalidSendEmailConfig | invalidWaitConfig _ | invalidTagConfig _
  | unknownNodeKind _ | invalidConditionConfig | invalidConditionPredicate
  | invalidEngagementPredicate | invalidTagPredicate | invalidListPredicate
  | invalidEventPredicate | unknownConditionPredicate _ => true
  | _ => false

/-- `errors.Is(err, ErrInvalidReference)`. -/
def isInvalidReference : EngineError → Bool
  | dependency error => error.invalidReference
  | error => error.fromGraph

def WaitError.text : WaitError → String
  | .malformed => "config could not be decoded"
  | .invalidDuration => "invalid duration wait"
  | .unknownMode => "unknown wait mode"
  | .invalidClock => "invalid clock time"
  | .invalidNumber => "invalid syntax"
  | .unknownLocation => "unknown time zone"

/-- `err.Error()`; the texts of the standard library's own errors are abbreviated. -/
def text : EngineError → String
  | stepsNotConfigured => "automation step store is not configured"
  | graphNodeMissing node => "graph_node_missing: " ++ node ++ ": automation invalid reference"
  | invalidSendEmailConfig => "invalid send_email config: automation invalid reference"
  | senderNotConfigured => "message sender is not configured"
  | invalidWaitConfig cause =>
    "invalid wait config: " ++ WaitError.text cause ++ ": automation invalid reference"
  | invalidTagConfig kind => "invalid " ++ kind.text ++ " config: automation invalid reference"
  | taggerNotConfigured => "tagger is not configured"
  | unknownNodeKind kind => "unknown node kind \"" ++ kind ++ "\": automation invalid reference"
  | subscribersNotConfigured => "subscriber reader is not configured"
  | engagementNotConfigured => "engagement reader is not configured"
  | invalidConditionConfig => "invalid condition config: automation invalid reference"
  | invalidConditionPredicate => "invalid condition predicate: automation invalid reference"
  | invalidEngagementPredicate => "invalid engagement predicate: automation invalid reference"
  | invalidTagPredicate => "invalid tag predicate: automation invalid reference"
  | invalidListPredicate => "invalid list predicate: automation invalid reference"
  | invalidEventPredicate => "invalid event predicate: automation invalid reference"
  | unknownConditionPredicate type =>
    "unknown condition predicate \"" ++ type ++ "\": automation invalid reference"
  | dependency error => error.text
  | lostFence => "automation execution fence lost"

end EngineError

/-- The claimed enrollment as the stepper scans it. -/
structure Enrollment where
  (id businessId tenantRootId automationId versionId subscriberId : UUID)
  currentNodeId : String
  enrolledAt : Timestamp
  (nodeAttempts claimGeneration : Nat)

structure AdvanceOutcome where
  nodesProcessed : Nat
  status : EnrollmentStatus
  (parked leaseLost : Bool)
  lastError : Option EngineError

/-- `Engine`, with the step's source id function and the runtime it calls. -/
structure Engine (σ : Type) where
  deps : Deps σ
  (maxNodesPerTick maxNodeAttempts : Int)
  /-- `uuid.NewSHA1(enrollmentID, []byte(nodeID))`. -/
  stepSourceID : UUID → String → UUID
  runtime : Runtime

/-- `nodes[id]`: a later node with the same id overwrites an earlier one. -/
def Graph.node? (graph : Graph) (id : String) : Option Node :=
  graph.nodes.reverse.find? fun node => node.id == id

/-- `edges[id]`. -/
def Graph.edgesFrom (graph : Graph) (id : String) : List Edge :=
  graph.edges.filter fun edge => edge.source == id

def nextNode (edges : List Edge) (branch : String) : String :=
  match edges.find? fun edge => match edge.branch with
    | none => branch == ""
    | some b => b == branch with
  | some edge => edge.target
  | none => ""

def stringPointer (value : String) : Option String := if value = "" then none else some value

def retryDelay (priorAttempts : Nat) : Int :=
  min (30 * 2 ^ (min priorAttempts 7)) 3600 * 1000000

/-- `waitUntil`; weekdays are ISO in the configuration and start on Sunday in Go. -/
def waitUntil (rt : Runtime) (raw : RawMessage) (now : Timestamp) : Except WaitError Timestamp :=
  match WaitConfig.decode raw with
  | none => .error .malformed
  | some cfg =>
    if cfg.mode = "duration" then
      match cfg.seconds with
      | none => .error .invalidDuration
      | some seconds =>
        if seconds < 60 ∨ seconds > 31536000 ∨ cfg.weekday ≠ none ∨ cfg.time ≠ "" ∨
            cfg.timezone ≠ "" then .error .invalidDuration
        else .ok (now + seconds * 1000000)
    else if cfg.mode ≠ "until" ∨ cfg.seconds ≠ none ∨
        cfg.weekday.any (fun day => day < 1 || day > 7) then .error .unknownMode
    else match splitColon cfg.time with
      | [hourText, minuteText] =>
        match atoi hourText, atoi minuteText with
        | some hour, some minute =>
          if hour < 0 ∨ hour > 23 ∨ minute < 0 ∨ minute > 59 then .error .invalidClock
          else match rt.loadLocation cfg.timezone with
            | none => .error .unknownLocation
            | some location => .ok (clockTarget location cfg.weekday hour minute now)
        | _, _ => .error .invalidNumber
      | _ => .error .invalidClock
where
  clockTarget (location : Location) (weekday : Option Int) (hour minute : Int)
      (now : Timestamp) : Timestamp :=
    let today := location.civil now
    let target := location.date today.year today.month today.day hour minute
    match weekday with
    | none => if target > now then target else location.addDays target 1
    | some day =>
      let days := (day % 7 - today.weekday + 7) % 7
      let target := location.addDays target days
      if target > now then target else location.addDays target 7

/-! ### Conditions -/

variable {σ : Type}

/-- Go on with the answer of a dependency, or return its error. -/
def andThen {α β : Type} (answer : Except DepError α × σ)
    (next : α → σ → Except EngineError β × σ) : Except EngineError β × σ :=
  match answer with
  | (.error error, s) => (.error (.dependency error), s)
  | (.ok value, s) => next value s

namespace Engine

variable (engine : Engine σ)

def snapshot (subscriber : UUID) (s : σ) : Except EngineError SubscriberSnapshot × σ :=
  match engine.deps.subscribers with
  | none => (.error .subscribersNotConfigured, s)
  | some reader => andThen (reader.snapshot subscriber s) fun value s => (.ok value, s)

variable (steps : StepStore σ) (enrollment : Enrollment) (raw : RawMessage)

/-- The engagement half of `evaluateCondition`, for both predicate types. -/
def evaluateEngagement (opened : Bool) (s : σ) : Except EngineError Bool × σ :=
  match EngagementPredicate.decode raw with
  | none => (.error .invalidEngagementPredicate, s)
  | some predicate =>
    andThen (steps.delivery enrollment.id predicate.nodeId s) fun deliveryId s =>
      match deliveryId with
      | none => (.ok false, s)
      | some deliveryId =>
        match engine.deps.engagement with
        | none => (.error .engagementNotConfigured, s)
        | some reader =>
          andThen (reader deliveryId s) fun engagement s =>
            if opened then (.ok engagement.opened, s)
            else match predicate.url with
              | none => (.ok (engagement.clickedURLs.length > 0), s)
              | some url => (.ok (engagement.clickedURLs.contains url), s)

def evaluateHasTag (s : σ) : Except EngineError Bool × σ :=
  match TagPredicate.decode raw with
  | none => (.error .invalidTagPredicate, s)
  | some predicate =>
    match engine.snapshot enrollment.subscriberId s with
    | (.error error, s) => (.error error, s)
    | (.ok snapshot, s) =>
      (.ok (snapshot.tags.any fun tag => engine.runtime.equalFold tag predicate.tag), s)

def evaluateOnList (s : σ) : Except EngineError Bool × σ :=
  match ListPredicate.decode engine.runtime raw with
  | none => (.error .invalidListPredicate, s)
  | some predicate =>
    if predicate.listId = 0 then (.error .invalidListPredicate, s)
    else match engine.snapshot enrollment.subscriberId s with
      | (.error error, s) => (.error error, s)
      | (.ok snapshot, s) =>
        match engine.deps.subscribers with
        | none => (.error .subscribersNotConfigured, s)
        | some reader =>
          andThen (reader.activeOnList enrollment.businessId snapshot.email predicate.listId s)
            fun active s => (.ok active, s)

def evaluateEventReceived (evaluationTime : Timestamp) (s : σ) : Except EngineError Bool × σ :=
  match EventPredicate.decode raw with
  | none => (.error .invalidEventPredicate, s)
  | some predicate =>
    match engine.snapshot enrollment.subscriberId s with
    | (.error error, s) => (.error error, s)
    | (.ok snapshot, s) =>
      andThen (steps.eventExists
        { businessId := enrollment.businessId, listId := snapshot.listId, email := snapshot.email
          name := predicate.name, since := enrollment.enrolledAt, evaluationTime
          within := predicate.withinSeconds.map (· * 1000000) } s)
        fun found s => (.ok found, s)

def evaluateCondition (evaluationTime : Timestamp) (s : σ) : Except EngineError Bool × σ :=
  match decodePredicate raw with
  | none => (.error .invalidConditionConfig, s)
  | some predicate =>
    match unmarshalPredicateType predicate with
    | none => (.error .invalidConditionPredicate, s)
    | some type =>
      if type = "opened_email" then engine.evaluateEngagement steps enrollment predicate true s
      else if type = "clicked_link" then
        engine.evaluateEngagement steps enrollment predicate false s
      else if type = "has_tag" then engine.evaluateHasTag enrollment predicate s
      else if type = "on_list" then engine.evaluateOnList enrollment predicate s
      else if type = "event_received" then
        engine.evaluateEventReceived steps enrollment predicate evaluationTime s
      else (.error (.unknownConditionPredicate type), s)

/-! ### One node -/

/-- How the switch of `Advance` leaves one node. -/
inductive Decision (σ : Type) where
  /-- `return e.fail(…, cause, now)`. -/
  | fail (s : σ) (cause : EngineError)
  /-- `return out, err`: the caller rolls back. -/
  | abort (s : σ) (error : EngineError)
  /-- `return e.recordAndStop(…)`; a wait then counts as parked. -/
  | recordAndStop (s : σ) (record : StepRecord) (parks : Bool)
  /-- Falls out of the switch to `Steps.Record`. -/
  | record (s : σ) (record : StepRecord) (next : String)

variable (node : Node) (next : String) (now : Timestamp)

def baseRecord : StepRecord :=
  { enrollmentId := enrollment.id, claimGeneration := enrollment.claimGeneration
    nodeId := node.id, nodeKind := node.kind, outcome := .advanced
    nextNodeId := stringPointer next, wakeAt := none
    status := if next = "" then .completed else .active
    deliveryId := none, detail := ⟨none, none⟩, recordedAt := now }

def exitedRecord (record : StepRecord) (status : SubscriberStatus) : StepRecord :=
  { record with
    outcome := .exited, status := .exited, nextNodeId := none, detail := ⟨some status.text, none⟩ }

/-- What follows the answer of a fenced port: a lost fence ends the transaction, any other error
is a failure of the node. -/
def afterPort {α : Type} (record : α → StepRecord) (next : String) :
    Except DepError α × σ → Decision σ
  | (.error error, s) =>
    if error.lostFence then .abort s (.dependency error) else .fail s (.dependency error)
  | (.ok value, s) => .record s (record value) next

def performSendEmail (s : σ) : Decision σ :=
  let record := baseRecord enrollment node next now
  match engine.snapshot enrollment.subscriberId s with
  | (.error error, s) => .fail s error
  | (.ok snapshot, s) =>
    if snapshot.status ≠ .active then .recordAndStop s (exitedRecord record snapshot.status) false
    else match SendEmailConfig.decode engine.runtime node.config with
      | some ⟨templateId, some trackOpens, some trackClicks⟩ =>
        if templateId = 0 then .fail s .invalidSendEmailConfig
        else match engine.deps.sender with
          | none => .fail s .senderNotConfigured
          | some enqueue =>
            afterPort (fun deliveryId =>
              { record with outcome := .sent, deliveryId := some deliveryId }) next
              (enqueue
                { businessId := enrollment.businessId, tenantRootId := enrollment.tenantRootId
                  subscriberId := enrollment.subscriberId, templateId
                  enrollmentId := enrollment.id, claimGeneration := enrollment.claimGeneration
                  trackOpens, trackClicks
                  sourceId := engine.stepSourceID enrollment.id node.id, notBefore := now } s)
      | _ => .fail s .invalidSendEmailConfig

def performWait (s : σ) : Decision σ :=
  let record := baseRecord enrollment node next now
  match steps.waiting enrollment.id node.id s with
  | (.error error, s) => .fail s (.dependency error)
  | (.ok true, s) => .record s record next
  | (.ok false, s) =>
    match waitUntil engine.runtime node.config now with
    | .error cause => .fail s (.invalidWaitConfig cause)
    | .ok wakeAt =>
      .recordAndStop s
        { record with
          outcome := .waiting, status := .active, nextNodeId := none, wakeAt := some wakeAt
          detail := ⟨none, some wakeAt⟩ } true

def performCondition (graph : Graph) (enrollment : Enrollment) (node : Node)
    (now : Timestamp) (s : σ) : Decision σ :=
  match engine.evaluateCondition steps enrollment node.config now s with
  | (.error error, s) => .fail s error
  | (.ok yes, s) =>
    let next := nextNode (graph.edgesFrom node.id) (if yes then "yes" else "no")
    .record s
      { baseRecord enrollment node next now with
        outcome := if yes then .branchYes else .branchNo } next

def performTag (s : σ) : Decision σ :=
  let record := baseRecord enrollment node next now
  match TagConfig.decode node.config with
  | none => .fail s (.invalidTagConfig node.kind)
  | some cfg =>
    if trimSpace cfg.tag = "" then .fail s (.invalidTagConfig node.kind)
    else match engine.deps.tagger with
      | none => .fail s .taggerNotConfigured
      | some tagger =>
        let spec : TagSpec :=
          { businessId := enrollment.businessId, tenantRootId := enrollment.tenantRootId
            subscriberId := enrollment.subscriberId, enrollmentId := enrollment.id
            claimGeneration := enrollment.claimGeneration, tag := cfg.tag }
        -- Only adding a tag looks at the subscriber first.
        if node.kind = .addTag then
          match engine.snapshot enrollment.subscriberId s with
          | (.error error, s) => .fail s error
          | (.ok snapshot, s) =>
            if snapshot.status ≠ .active then
              .recordAndStop s (exitedRecord record snapshot.status) false
            else afterPort (fun _ => record) next (tagger.addTag spec s)
        else afterPort (fun _ => record) next (tagger.removeTag spec s)

/-- The switch over `node.Kind`. -/
def perform (graph : Graph) (enrollment : Enrollment) (node : Node)
    (now : Timestamp) (s : σ) : Decision σ :=
  let next := nextNode (graph.edgesFrom node.id) ""
  match node.kind with
  | .trigger => .record s (baseRecord enrollment node next now) next
  | .sendEmail => engine.performSendEmail enrollment node next now s
  | .wait => engine.performWait steps enrollment node next now s
  | .condition => engine.performCondition steps graph enrollment node now s
  | .addTag | .removeTag => engine.performTag enrollment node next now s
  | .exit =>
    .record s
      { baseRecord enrollment node next now with
        outcome := .exited, status := .completed, nextNodeId := none } next
  | .unknown kind => .fail s (.unknownNodeKind kind)

/-! ### The loop -/

/-- The result of `Advance`: the state, the outcome and the returned error. -/
structure Result (σ : Type) where
  state : σ
  outcome : AdvanceOutcome
  error : Option EngineError

def maxAttempts : Int := if engine.maxNodeAttempts ≤ 0 then 5 else engine.maxNodeAttempts

/-- `DefaultMaxNodesPerTick` is 25. -/
def limit : Nat := if engine.maxNodesPerTick ≤ 0 then 25 else engine.maxNodesPerTick.toNat

def runningOutcome (processed : Nat) : AdvanceOutcome := ⟨processed, .active, false, false, none⟩

def fail (steps : StepStore σ) (enrollment : Enrollment) (processed : Nat) (cause : EngineError)
    (now : Timestamp) (s : σ) : Result σ :=
  let out := runningOutcome processed
  let terminal := cause.isInvalidReference || enrollment.nodeAttempts + 1 ≥ engine.maxAttempts
  match steps.fail
    { enrollmentId := enrollment.id, claimGeneration := enrollment.claimGeneration
      error := cause.text, terminal, retryAt := now + retryDelay enrollment.nodeAttempts } s with
  | (.error error, s) => ⟨s, out, some (.dependency error)⟩
  | (.ok false, s) => ⟨s, { out with leaseLost := true }, some .lostFence⟩
  | (.ok true, s) =>
    ⟨s, { out with lastError := some cause, status := if terminal then .errored else .active }, none⟩

def recordAndStop (record : StepRecord) (parks : Bool) (processed : Nat) (s : σ) : Result σ :=
  let out := runningOutcome processed
  match steps.record record s with
  | (.error error, s) => ⟨s, out, some (.dependency error)⟩
  | (.ok false, s) => ⟨s, { out with leaseLost := true }, some .lostFence⟩
  | (.ok true, s) => ⟨s, { out with status := record.status, parked := parks }, none⟩

/-- The loop of `Advance` with `budget` nodes of the tick left. -/
def advanceLoop (steps : StepStore σ) (graph : Graph) (now : Timestamp) :
    (budget processed : Nat) → Enrollment → (current : String) → σ → Result σ
  | 0, processed, _, _, s => ⟨s, runningOutcome processed, none⟩
  | budget + 1, processed, enrollment, current, s =>
    match graph.node? current with
    | none => engine.fail steps enrollment processed (.graphNodeMissing current) now s
    | some node =>
      match engine.perform steps graph enrollment node now s with
      | .fail s cause => engine.fail steps enrollment (processed + 1) cause now s
      | .abort s error => ⟨s, runningOutcome (processed + 1), some error⟩
      | .recordAndStop s record parks => recordAndStop steps record parks (processed + 1) s
      | .record s record next =>
        match steps.record record s with
        | (.error error, s) => ⟨s, runningOutcome (processed + 1), some (.dependency error)⟩
        | (.ok false, s) =>
          ⟨s, { runningOutcome (processed + 1) with leaseLost := true }, some .lostFence⟩
        | (.ok true, s) =>
          if record.status ≠ .active then
            ⟨s, { runningOutcome (processed + 1) with status := record.status }, none⟩
          else
            -- The store reset the persisted counter, so the next node starts without retries.
            advanceLoop steps graph now budget (processed + 1) { enrollment with nodeAttempts := 0 }
              next s

def advance (graph : Graph) (now : Timestamp) (s : σ) : Result σ :=
  match engine.deps.steps with
  | none => ⟨s, runningOutcome 0, some .stepsNotConfigured⟩
  | some steps =>
    engine.advanceLoop steps graph now engine.limit 0 enrollment enrollment.currentNodeId s

end Engine

end Manyforge
