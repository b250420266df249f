import Manyforge.Connectors.Desk
import Manyforge.Lib.Locks
import Manyforge.Lib.Transition

/-!
# Leases of outbound operations

A dispatcher claims a batch in one statement and then dispatches the operations of the batch one
after the other. The claim stamps `updated_at`, and an operation that is still `in_progress` when
that stamp is older than the lease is claimed again. The stamp is not renewed while the batch is
worked through, and the statements that end a dispatch do not look at the status they overwrite.
-/
namespace Manyforge.Connectors

open Table Transition

/-- How a dispatch ends. `recorded`: the statement that records a failure has succeeded. -/
inductive Finish where
  | ok
  /-- A transition that can never succeed is failed at once. -/
  | impossible (recorded : Bool)
  | error (recorded : Bool)
  deriving DecidableEq

/-- A pass of `dispatchOnce`: the claimed operations still to finish, the first of them under way
since `turnedAt`. -/
structure Pass where
  dispatcher : UUID
  claimedAt : Timestamp
  size : Nat
  turnedAt : Timestamp
  todo : List OutboundOp

/-- The queue, the open passes and the operations whose dispatch has begun, in order. -/
structure Dispatching where
  ops : List OutboundOp
  passes : List Pass
  dispatched : List UUID

inductive DispatchAction where
  | enqueue (op : OutboundOp)
  | claim (dispatcher : UUID) (limit : Nat) (now : Timestamp) (passedOver : List UUID)
  | finish (dispatcher : UUID) (now : Timestamp) (finish : Finish)

def Pass.ids (p : Pass) : List UUID := p.todo.map (·.id)

/-- The operation whose dispatch begins when these are to do. -/
def begun (todo : List OutboundOp) : List UUID := (todo.head?.map (·.id)).toList

/-- `recordFailure` and the write-backs, on the row of the operation. -/
def Finish.apply (now : Timestamp) (claimed : OutboundOp) (op : OutboundOp) : Finish → OutboundOp
  | .ok => op.completed now
  | .impossible recorded => if recorded then op.failed now true else op
  | .error recorded =>
    if recorded then op.failed now (decide (maxOutboundAttempts ≤ claimed.attempts)) else op

namespace Dispatching

variable (lease : Timestamp) (s : Dispatching)

def pass? (dispatcher : UUID) : Option Pass := s.passes.find? (·.dispatcher == dispatcher)

def taken (limit : Nat) (now : Timestamp) (passedOver : List UUID) : List OutboundOp :=
  claimOutboundOps limit lease now passedOver s.ops

/-- The dispatcher has finished its last pass. -/
def idle (dispatcher : UUID) : Bool :=
  s.passes.all fun p => p.dispatcher != dispatcher || p.todo.isEmpty

/-- `dispatchOnce` up to the first dispatch. -/
def claim (dispatcher : UUID) (now : Timestamp) (rows : List OutboundOp) : Dispatching :=
  let todo := rows.map (·.claimed now)
  { ops := updateWhere (fun op => rows.any (·.id == op.id)) (·.claimed now) s.ops
    passes := s.passes.filter (·.dispatcher != dispatcher) ++ [⟨dispatcher, now, todo.length, now, todo⟩]
    dispatched := s.dispatched ++ begun todo }

/-- The end of one dispatch; the next one begins. -/
def finish (p : Pass) (op : OutboundOp) (rest : List OutboundOp) (now : Timestamp)
    (finish : Finish) :
    Dispatching :=
  { ops := updateWhere (·.id == op.id) (fun row => finish.apply now op row) s.ops
    passes := updateWhere (·.dispatcher == p.dispatcher)
      (fun _ => { p with turnedAt := now, todo := rest }) s.passes
    dispatched := s.dispatched ++ begun rest }

def next : DispatchAction → Dispatching
  | .enqueue op =>
    if s.ops.any (·.id == op.id) then s
    else { s with ops := s.ops ++ [{ op with status := .pending, attempts := 0 }] }
  | .claim dispatcher limit now passedOver =>
    if s.idle dispatcher then s.claim dispatcher now (s.taken lease limit now passedOver) else s
  | .finish dispatcher now finish =>
    match s.pass? dispatcher with
    | none => s
    | some p =>
      match p.todo with
      | [] => s
      | op :: rest => s.finish p op rest now finish

end Dispatching

end Manyforge.Connectors
