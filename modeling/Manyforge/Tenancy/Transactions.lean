import Manyforge.Tenancy.Merge
import Manyforge.Lib.Transition

/-!
# Transactions on the hierarchy

The calls that change the trees, as transactions that run next to each other. A transaction reads
the rows of its businesses, waits for the advisory lock of the tenant they name, makes its checks
and then its writes; another transaction may commit between any two of these. `now()` is the time at
which a transaction began, and no two begin at the same time.
-/
namespace Manyforge.Tenancy

open Table

/-- How far a transaction has come, with what it has read. -/
inductive Stage where
  | sub (actor child : UUID) (name : String) (parent : Business)
  | subLocked (actor child : UUID) (name : String) (parent : Business)
  | subChecked (child : UUID) (name : String) (parent : Business)
  | move (actor : UUID) (node : Business) (newParent : UUID)
  | moveRead (actor : UUID) (node newParent : Business)
  | moveLocked (actor : UUID) (node newParent : Business)
  | moveChecked (node newParent : Business)
  | status (actor : UUID) (node : Business) (status : BusinessStatus)
  | statusLocked (actor : UUID) (node : Business) (status : BusinessStatus)
  | delete (actor : UUID) (node : Business)
  | deleteLocked (actor : UUID) (node : Business)
  | cutover (op : MergeOperation)
  | cutoverLocked (op : MergeOperation)
  | cutoverValidated (op : MergeOperation)
  | preflight (op : MergeOperation)
  | preflightSource (op : MergeOperation) (source : RootSnapshot)
  | preflightBoth (op : MergeOperation) (source destination : RootSnapshot)
  | preflightHeight (op : MergeOperation) (source destination : RootSnapshot) (height : Nat)
      (conflict : Bool)

/-- The roots whose locks a transaction holds. -/
def Stage.locks : Stage → List UUID
  | .subLocked _ _ _ parent | .subChecked _ _ parent => [parent.tenantRootId]
  | .moveLocked _ node _ | .moveChecked node _ => [node.tenantRootId]
  | .statusLocked _ node _ | .deleteLocked _ node => [node.tenantRootId]
  | .cutoverLocked op | .cutoverValidated op => [op.sourceRootId, op.destinationRootId]
  | .sub .. | .move .. | .moveRead .. | .status .. | .delete .. | .cutover .. | .preflight ..
  | .preflightSource .. | .preflightBoth .. | .preflightHeight .. => []

structure Tx where
  now : Timestamp
  stage : Stage

structure HierarchyState where
  db : Tenants
  operations : List MergeOperation
  open_ : List Tx
  clock : Timestamp

/-- What the next statement of a transaction leads to. -/
inductive Outcome where
  | wait
  | goOn (stage : Stage)
  | commit (db : Tenants) (operations : List MergeOperation)
  | rollback

inductive HierarchyAction where
  | createMaster (creator id membership : UUID) (name : String)
  | createSub (actor parent child : UUID) (name : String)
  | move (actor node newParent : UUID)
  | setStatus (actor node : UUID) (status : BusinessStatus)
  | delete (actor node : UUID)
  | createMerge (id actor sourceRoot destinationParent : UUID)
  | preflight (actor op : UUID)
  | cutover (actor op : UUID)
  /-- `conflict`: a finding of the preflight about other tables. -/
  | advance (tx : Timestamp) (conflict : Bool)
  | abort (tx : Timestamp)

namespace HierarchyState

variable (hashtext : UUID → Int) (s : HierarchyState) (now : Timestamp)

/-- `pg_advisory_xact_lock(hashtext(root))` need not wait. -/
def lockFree (root : UUID) : Bool :=
  s.open_.all fun tx => tx.now == now || tx.stage.locks.all fun held => hashtext held != hashtext root

def operation? (id : UUID) : Option MergeOperation := s.operations.find? (·.id == id)

def commitOf (written : Except Refusal Tenants) : Outcome :=
  match written with
  | .ok db => .commit db s.operations
  | .error _ => .rollback

def recordOperation (op : MergeOperation) : List MergeOperation :=
  updateWhere (·.id == op.id) (fun _ => op) s.operations

def acquire (roots : List UUID) (stage : Stage) : Outcome :=
  if roots.all (s.lockFree hashtext now) then .goOn stage else .wait

def statement (conflict : Bool) : Stage → Outcome
  | .sub actor child name parent =>
    s.acquire hashtext now [parent.tenantRootId] (.subLocked actor child name parent)
  | .subLocked actor child name parent =>
    match s.db.checkSub actor parent.id parent.tenantRootId with
    | .ok _ => .goOn (.subChecked child name parent)
    | .error _ => .rollback
  | .subChecked child name parent =>
    s.commitOf (s.db.writeSub parent.id parent.tenantRootId child name now)
  | .move actor node newParent =>
    match s.db.loadVisible actor newParent with
    | .ok parent =>
      if node.tenantRootId == parent.tenantRootId then .goOn (.moveRead actor node parent)
      else .rollback
    | .error _ => .rollback
  | .moveRead actor node newParent =>
    s.acquire hashtext now [node.tenantRootId] (.moveLocked actor node newParent)
  | .moveLocked actor node newParent =>
    match s.db.checkMove actor node newParent.id with
    | .ok _ => .goOn (.moveChecked node newParent)
    | .error _ => .rollback
  | .moveChecked node newParent =>
    s.commitOf (s.db.moveBusiness node.id newParent.id node.tenantRootId now)
  | .status actor node status =>
    s.acquire hashtext now [node.tenantRootId] (.statusLocked actor node status)
  | .statusLocked actor node status => s.commitOf (s.db.setStatus actor node.id status now)
  | .delete actor node => s.acquire hashtext now [node.tenantRootId] (.deleteLocked actor node)
  | .deleteLocked actor node => s.commitOf (s.db.deleteBusiness actor node.id now)
  | .cutover op =>
    s.acquire hashtext now [op.sourceRootId, op.destinationRootId] (.cutoverLocked op)
  | .cutoverLocked op =>
    if s.db.preflightCurrent op then .goOn (.cutoverValidated op)
    else if s.db.mergeAuthorized op.actorPrincipalId op.sourceRootId op.destinationParentId ==
        some op.destinationRootId
    then .commit s.db (s.recordOperation { op with status := .preflightRequired })
    else .rollback
  | .cutoverValidated op =>
    match s.db.cutover op with
    | .ok db => .commit db (s.recordOperation { op with status := .succeeded })
    | .error _ => .commit s.db (s.recordOperation { op with status := .failed })
  | .preflight op => .goOn (.preflightSource op (s.db.rootSnapshot op.sourceRootId))
  | .preflightSource op source =>
    .goOn (.preflightBoth op source (s.db.rootSnapshot op.destinationRootId))
  | .preflightBoth op source destination =>
    .goOn (.preflightHeight op source destination (s.db.sourceHeight op.sourceRootId)
      (s.db.lifecycleConflict op || conflict))
  | .preflightHeight op source destination height found =>
    let resultingDepth := s.db.parentDepth op + 1 + height
    let status := if found || decide (resultingDepth > maxDepth) then .preflightRequired else .ready
    .commit s.db (s.recordOperation { op with status, source, destination, resultingDepth })

def start (stage : Stage) : HierarchyState :=
  { s with open_ := s.open_ ++ [⟨s.clock, stage⟩], clock := s.clock + 1 }

/-- A transaction that ends with its first statements. -/
def idle : HierarchyState := { s with clock := s.clock + 1 }

def close : List Tx := s.open_.filter (·.now != now)

/-- A transaction that has read one business with its first statement. -/
def startWith (actor business : UUID) (stage : Business → Stage) : HierarchyState :=
  match s.db.loadVisible actor business with
  | .ok b => s.start (stage b)
  | .error _ => s.idle

def next : HierarchyAction → HierarchyState
  | .createMaster creator id membership name =>
    match s.db.createMaster creator id membership name s.clock with
    | .ok db => { s.idle with db }
    | .error _ => s.idle
  | .createSub actor parent child name =>
    if name == "" then s else s.startWith actor parent (.sub actor child name)
  | .move actor node newParent =>
    if node == newParent then s else s.startWith actor node (.move actor · newParent)
  | .setStatus actor node status => s.startWith actor node (.status actor · status)
  | .delete actor node => s.startWith actor node (.delete actor)
  | .createMerge id actor sourceRoot destinationParent =>
    match s.db.mergeAuthorized actor sourceRoot destinationParent, s.operation? id with
    | some destinationRoot, none =>
      let nothing : RootSnapshot := ⟨[], [], [], [], [], []⟩
      { s.idle with operations := s.operations ++ [⟨id, sourceRoot, destinationParent,
        destinationRoot, actor, .preflightRequired, nothing, nothing, 0⟩] }
    | _, _ => s.idle
  | .preflight actor id =>
    match s.operation? id with
    | some op =>
      if op.actorPrincipalId == actor && op.status != .succeeded &&
          s.db.mergeAuthorized actor op.sourceRootId op.destinationParentId == some op.destinationRootId
      then s.start (.preflight op)
      else s.idle
    | none => s.idle
  | .cutover actor id =>
    match s.operation? id with
    | some op =>
      if op.actorPrincipalId == actor && op.status == .ready then s.start (.cutover op) else s.idle
    | none => s.idle
  | .advance now conflict =>
    match s.open_.find? (·.now == now) with
    | none => s
    | some tx =>
      match s.statement hashtext now conflict tx.stage with
      | .wait => s
      | .goOn stage => { s with open_ := updateWhere (·.now == now) (fun _ => ⟨now, stage⟩) s.open_ }
      | .commit db operations => { s with db, operations, open_ := s.close now }
      | .rollback => { s with open_ := s.close now }
  | .abort now => { s with open_ := s.close now }

end HierarchyState

end Manyforge.Tenancy
