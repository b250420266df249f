import Manyforge.Automations.Store

/-!
# The stepper

The SQL adapters of the engine's ports, and the stepper's two transactions:
claiming a batch of due enrollments and advancing one claimed enrollment. A
statement that raises leaves the transaction aborted, and every later statement
of it fails; a transaction that returns an error is rolled back.
-/
namespace Manyforge

/-- An open transaction: the database as it sees it, and whether a statement has failed. -/
structure Tx where
  db : Database
  aborted : Bool

namespace Tx

def sqlError (error : SqlError) : DepError := ⟨error.text, false, false⟩

/-- `ErrLostFence`, as the ports return it. -/
def lostFenceError : DepError := ⟨"automation execution fence lost", false, true⟩

/-- `pgx.ErrNoRows`. -/
def noRowsError : DepError := ⟨"no rows in result set", false, false⟩

def query {α : Type} (statement : Database → Except SqlError (Database × α)) : Op Tx α :=
  fun tx =>
    if tx.aborted then (.error (sqlError .transactionAborted), tx)
    else match statement tx.db with
      | .error error => (.error (sqlError error), { tx with aborted := true })
      | .ok (db, value) => (.ok value, { tx with db })

def select {α : Type} (read : Database → α) : Op Tx α := query fun db => .ok (db, read db)

/-- Turn a missing row, or a fence that did not hold, into the port's error. -/
def require {α : Type} (missing : DepError) (op : Op Tx (Option α)) : Op Tx α := fun tx =>
  match op tx with
  | (.error error, tx) => (.error error, tx)
  | (.ok none, tx) => (.error missing, tx)
  | (.ok (some value), tx) => (.ok value, tx)

end Tx

/-- What the adapters take from outside: the database's clock and random UUIDs (any function of
the state, so that each call may answer differently) and its case folding. -/
structure SqlEnv where
  now : Timestamp
  genRandomUUID : Database → UUID
  lower : String → String

/-- A boolean answer as the presence of a value, to be required. -/
def Tx.whenTrue (op : Op Tx Bool) : Op Tx (Option Unit) := fun tx =>
  match op tx with
  | (.error error, tx) => (.error error, tx)
  | (.ok changed, tx) => (.ok (if changed then some () else none), tx)

def sqlStepStore (env : SqlEnv) : StepStore Tx where
  record r := Tx.query fun db => db.automationRecordStep r
  fail f := Tx.query fun db => .ok (db.automationFailStep env.now f)
  waiting enrollment node := Tx.select fun db => db.automationStepWaiting enrollment node
  delivery enrollment node := Tx.select fun db => db.automationStepDelivery enrollment node
  eventExists q := Tx.select fun db => db.automationEventExists q

/-- `AutomationPorts`. -/
def sqlDeps (env : SqlEnv) : Deps Tx where
  subscribers := some
    { snapshot := fun subscriber => Tx.require Tx.noRowsError
        (Tx.select fun db => db.mailingAutomationSubscriberSnapshot subscriber)
      activeOnList := fun business email list =>
        Tx.select fun db => db.mailingAutomationActiveOnList business email list }
  sender := some fun spec => Tx.require Tx.lostFenceError
    (Tx.query fun db => db.mailingEnqueueDelivery spec (env.genRandomUUID db))
  engagement := some fun delivery => Tx.require Tx.noRowsError
    (Tx.select fun db => db.mailingAutomationDeliveryEngagement delivery)
  tagger := some
    { addTag := fun spec => Tx.require Tx.lostFenceError
        (Tx.whenTrue (Tx.query fun db => .ok (db.mailingAutomationAddTag env.lower spec)))
      removeTag := fun spec => Tx.require Tx.lostFenceError
        (Tx.whenTrue (Tx.query fun db => .ok (db.mailingAutomationRemoveTag spec))) }
  steps := some (sqlStepStore env)

/-- The settings of a stepper process. -/
structure StepperConfig where
  (maxNodesPerTick maxNodeAttempts : Int)
  stepSourceID : UUID → String → UUID
  runtime : Runtime

def StepperConfig.engine (config : StepperConfig) (env : SqlEnv) : Engine Tx where
  deps := sqlDeps env
  maxNodesPerTick := config.maxNodesPerTick
  maxNodeAttempts := config.maxNodeAttempts
  stepSourceID := config.stepSourceID
  runtime := config.runtime

/-- `claimedEnrollment`. -/
structure Claim where
  enrollment : Enrollment
  graph : Graph

/-- `rows.Scan`: a null node id does not scan into a string. -/
def Database.ClaimedRow.scan (row : Database.ClaimedRow) : Option Claim :=
  row.enrollment.currentNodeId.map fun node =>
    { enrollment :=
        { id := row.enrollment.id, businessId := row.enrollment.businessId
          tenantRootId := row.enrollment.tenantRootId, automationId := row.enrollment.automationId
          versionId := row.enrollment.versionId, subscriberId := row.enrollment.subscriberId
          currentNodeId := node, enrolledAt := row.enrollment.enrolledAt
          nodeAttempts := row.enrollment.nodeAttempts
          claimGeneration := row.enrollment.claimGeneration }
      graph := row.graph }

/-- `Stepper.claim`: one transaction, rolled back when a row does not scan. -/
def stepperClaim (db : Database) (now : Timestamp) (batch lease : Int) (locked : UUID → Bool) :
    Database × List Claim :=
  let claimed := db.automationClaimDue now batch lease locked
  match claimed.2.mapM Database.ClaimedRow.scan with
  | none => (db, [])
  | some claims => (claimed.1, claims)

/-- What `WithTx` commits: nothing when the function returned an error or a statement failed. -/
def commit (db : Database) (result : Engine.Result Tx) : Database :=
  match result.error with
  | some _ => db
  | none => if result.state.aborted then db else result.state.db

/-- The transaction in which the stepper advances one claim. -/
def advanceTx (config : StepperConfig) (env : SqlEnv) (now : Timestamp) (claim : Claim)
    (db : Database) : Database :=
  commit db ((config.engine env).advance claim.enrollment claim.graph now ⟨db, false⟩)

/-! ### A small instance

One enrollment of a graph with a trigger, a message, a wait and an exit, on which the results
about every run are exercised. -/

namespace Sample

def runtime : Runtime where
  parseUUID text := if text = "list" then some 20 else if text = "template" then some 30 else none
  simpleFold := id
  loadLocation _ := none
  parseRequestURI _ := none

def graph : Graph where
  nodes :=
    [⟨"start", .trigger, "", .value (.object
      [("type", .string "list_joined"), ("list_id", .string "list")]) false⟩,
     ⟨"welcome", .sendEmail, "", .value (.object
      [("template_id", .string "template"), ("track_opens", .bool true),
       ("track_clicks", .bool true)]) false⟩,
     ⟨"rest", .wait, "", .value (.object
      [("mode", .string "duration"), ("seconds", .number "60")]) false⟩,
     ⟨"done", .exit, "", .value (.object []) false⟩]
  edges :=
    [⟨"e1", "start", "welcome", none⟩, ⟨"e2", "welcome", "rest", none⟩,
     ⟨"e3", "rest", "done", none⟩]

def database : Database where
  fencedRoots := []
  businesses := [⟨1, 1, .active, none⟩]
  lists := [⟨20, 1, 1, true, .active⟩]
  listKeys := []
  profiles := [⟨40, 1, 1, .resend, .verified, .ready⟩]
  subscribers := [⟨50, 1, 1, 20, "ada@example.com", .active, none, none, none, none, none⟩]
  tags := []
  suppressions := []
  emailSuppressions := []
  templates := [⟨30, 1, 1⟩]
  campaigns := []
  deliveries := []
  trackingEvents := []
  webhooks := []
  automations := [⟨60, 1, 1, .active, false, some 61, none⟩]
  versions := [⟨61, 1, 1, 60, 1, .active, graph, some "list_joined", some "list", some [30]⟩]
  enrollments := [Database.newEnrollment 70 1 1 60 61 50 "start" 0]
  steps := []
  events := []

def sourceID : UUID → String → UUID := fun _ _ => 80

def config (maxNodesPerTick : Int) : StepperConfig := ⟨maxNodesPerTick, 5, sourceID, runtime⟩

def env : SqlEnv := ⟨0, fun _ => 90, id⟩

def claimed : Database × List Claim := stepperClaim database 0 50 60000000 fun _ => false

def claim : Claim := claimed.2.head (by decide)

def resultOf {α : Type} (db : Database) : Except SqlError (Database × α) → Database
  | .ok (db', _) => db'
  | .error _ => db

def answerOf {α : Type} : Except SqlError (Database × α) → Option α
  | .ok (_, answer) => some answer
  | .error _ => none

theorem eq_ok_of_answer {α : Type} {call : Except SqlError (Database × α)} {answer : α}
    (db : Database) (answered : answerOf call = some answer) :
    call = .ok (resultOf db call, answer) := by
  cases call with
  | error => cases answered
  | ok result =>
    obtain ⟨db', value⟩ := result
    obtain rfl : value = answer := by simpa [answerOf] using answered
    rfl

end Sample

end Manyforge
