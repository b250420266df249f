import Manyforge.Text
import Manyforge.Lib.Locks
import Manyforge.Lib.Transition
import Mathlib.Algebra.Ring.Nat

/-!
# The outbox

Rows of `outbox` are claimed in batches by any number of workers. A worker dispatches the events of
its batch one after the other inside one transaction, each under a savepoint, and marks each of them
before it goes on to the next. Nothing is visible to others before the commit; a crash or an error
that is not a handler's rolls the whole batch back.
-/
namespace Manyforge.Events

open Table

structure OutboxRow (Payload : Type) where
  id : UUID
  topic : String
  payload : Payload
  availableAt : Timestamp
  processedAt : Option Timestamp
  attempts : Nat
  deriving DecidableEq

structure Worker where
  (batchSize maxAttempts : Int)

/-- `withDefaults`. -/
def Worker.limit (w : Worker) : Nat := if w.batchSize ≤ 0 then 50 else w.batchSize.toNat

def Worker.threshold (w : Worker) : Nat := if w.maxAttempts ≤ 0 then 10 else w.maxAttempts.toNat

/-- `IsFinalAttempt`, on an event that a worker has stamped. -/
def isFinalAttempt (threshold attempts : Nat) : Bool := decide (threshold ≤ attempts + 1)

def backoffSeconds (attempts : Nat) : Nat := min (2 ^ min (attempts + 1) 8) 300

/-- The database writes of one subscriber for one event. -/
structure Effect where
  event : UUID
  subscriber : Nat
  deriving DecidableEq

/-- What a dispatch meets: whether the savepoint can be set, which subscribers return an error, and
whether the savepoint can be released. -/
structure Weather where
  savepoint : Bool
  fails : Nat → Bool
  release : Bool

/-- How a dispatched event is marked. -/
inductive Verdict where
  | delivered | rescheduled | dropped
  deriving DecidableEq

/-- An event as the claim has read it, and how its dispatch went. -/
structure Dispatched (Payload : Type) where
  row : OutboxRow Payload
  verdict : Verdict
  deriving DecidableEq

/-- The transaction of a `drainOnce`: the events still to dispatch, those dispatched, and the writes
of the subscribers so far. -/
structure DrainTx (Payload : Type) where
  worker : UUID
  now : Timestamp
  batch : List (OutboxRow Payload)
  results : List (Dispatched Payload)
  effects : List Effect

variable {Payload : Type}

def DrainTx.locks (tx : DrainTx Payload) : List UUID :=
  tx.results.map (·.row.id) ++ tx.batch.map (·.id)

/-- The outbox, the open transactions, the committed writes of subscribers and the committed failed
dispatches. -/
structure OutboxState (Payload : Type) where
  rows : List (OutboxRow Payload)
  open_ : List (DrainTx Payload)
  effects : List Effect
  failures : List UUID

inductive OutboxAction (Payload : Type) where
  | enqueue (id : UUID) (topic : String) (payload : Payload) (now : Timestamp)
  /-- `passedOver`: rows that another transaction has locked when the statement gets to them, and
  rows of tenants that are being merged. -/
  | claim (worker : UUID) (now : Timestamp) (passedOver : List UUID)
  | dispatch (worker : UUID) (weather : Weather)
  | commit (worker : UUID)
  | crash (worker : UUID)

section Dispatch

variable (subscribers : String → Nat)

/-- The loop over the subscribers; an error leaves the writes made up to it. -/
def runHandlers (event : UUID) (fails : Nat → Bool) :
    List Nat → List Effect → Except (List Effect) (List Effect)
  | [], effects => .ok effects
  | i :: rest, effects =>
    if fails i then .error effects else runHandlers event fails rest (effects ++ [⟨event, i⟩])

/-- `dispatch`: the writes in the transaction afterwards, and whether it returned no error. `none`
when the savepoint cannot be released, which leaves the transaction aborted. -/
def dispatch (e : OutboxRow Payload) (weather : Weather) (effects : List Effect) :
    Option (Bool × List Effect) :=
  if subscribers e.topic = 0 then some (true, effects)
  else if !weather.savepoint then some (false, effects)
  else match runHandlers e.id weather.fails (List.range (subscribers e.topic)) effects with
    -- The writes after the savepoint are rolled back.
    | .error _ => some (false, effects)
    | .ok effects => if weather.release then some (true, effects) else none

/-- The mark that `drainOnce` gives an event. -/
def verdict (threshold : Nat) (e : OutboxRow Payload) (ok : Bool) : Verdict :=
  if ok then .delivered
  else if isFinalAttempt threshold e.attempts then .dropped
  else .rescheduled

end Dispatch

/-- `mark_outbox_processed` and `reschedule_outbox`. -/
def OutboxRow.mark (now : Timestamp) (verdict : Verdict) (row : OutboxRow Payload) :
    OutboxRow Payload :=
  match verdict with
  | .delivered | .dropped => { row with processedAt := some now }
  | .rescheduled =>
    { row with
      attempts := row.attempts + 1
      availableAt := now + 1000000 * (backoffSeconds row.attempts : Int) }

namespace OutboxState

variable (w : Worker) (subscribers : String → Nat) (s : OutboxState Payload)

def claimOutboxBatch (worker : UUID) (now : Timestamp) (passedOver : List UUID) :
    List (OutboxRow Payload) :=
  selectForUpdate (fun row => row.processedAt.isNone && decide (row.availableAt ≤ now))
    (fun row => passedOver.contains row.id ||
      !Locks.free DrainTx.worker DrainTx.locks s.open_ worker row.id)
    (fun a b => a.id ≤ b.id) w.limit s.rows

def tx? (worker : UUID) : Option (DrainTx Payload) := s.open_.find? (·.worker == worker)

def close (worker : UUID) : OutboxState Payload :=
  { s with open_ := s.open_.filter (·.worker != worker) }

/-- One turn of the loop of `drainOnce`. -/
def turn (tx : DrainTx Payload) (e : OutboxRow Payload) (rest : List (OutboxRow Payload))
    (weather : Weather) : OutboxState Payload :=
  match dispatch subscribers e weather tx.effects with
  | none => s.close tx.worker
  | some (ok, effects) =>
    let results := tx.results ++ [⟨e, verdict w.threshold e ok⟩]
    { s with
      open_ := updateWhere (·.worker == tx.worker)
        (fun _ => { tx with batch := rest, results, effects }) s.open_ }

/-- The rows after the marks of a transaction. -/
def marked (tx : DrainTx Payload) : List (OutboxRow Payload) :=
  tx.results.foldl (fun rows result => updateWhere (·.id == result.row.id)
    (.mark tx.now result.verdict) rows) s.rows

def failed (results : List (Dispatched Payload)) : List UUID :=
  (results.filter (·.verdict != .delivered)).map (·.row.id)

def next : OutboxAction Payload → OutboxState Payload
  | .enqueue id topic payload now =>
    if s.rows.any (·.id == id) then s
    else { s with rows := s.rows ++ [⟨id, topic, payload, now, none, 0⟩] }
  | .claim worker now passedOver =>
    if s.open_.any (·.worker == worker) then s
    else
      let batch := s.claimOutboxBatch w worker now passedOver
      { s with open_ := s.open_ ++ [⟨worker, now, batch, [], []⟩] }
  | .dispatch worker weather =>
    match s.tx? worker with
    | none => s
    | some tx =>
      match tx.batch with
      | [] => s
      | e :: rest => s.turn w subscribers tx e rest weather
  | .commit worker =>
    match s.tx? worker with
    | none => s
    | some tx =>
      if tx.batch.isEmpty then
        { s.close worker with
          rows := s.marked tx
          effects := s.effects ++ tx.effects
          failures := s.failures ++ failed tx.results }
      else s
  | .crash worker => s.close worker

end OutboxState

end Manyforge.Events
