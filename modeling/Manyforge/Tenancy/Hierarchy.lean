import Manyforge.Tenancy.Members
import Manyforge.Lib.Forest

/-!
# The business hierarchy

The calls that build and change the trees of businesses, with the keys and triggers of the two
tables. `CreateSubBusiness` and `Move` come in parts: the rows they read before they have the
tenant's lock, the checks under the lock, and the writes. `business_closure` is rewritten by each of
them in its own way; `Hierarchy` says what it is to contain.
-/
namespace Manyforge.Tenancy

open Table Forest Calls

def maxDepth : Nat := 10

namespace Tenants

variable (db : Tenants)

/-- `IsAccountVerifiedByPrincipal`; an agent has no account to read. -/
def accountVerified? (principal : UUID) : Option Bool :=
  match db.kind? principal with
  | some (.human account) =>
    (db.accounts.find? (·.id == account)).map fun a => a.emailVerifiedAt.isSome
  | _ => none

def isDescendant (ancestor descendant : UUID) : Bool :=
  db.closure.any fun c => c.ancestorId == ancestor && c.descendantId == descendant

variable (node : UUID) {b : Business} {now : Timestamp}

def subtreeHeight : Nat :=
  ((db.closure.filter (·.ancestorId == node)).map (·.depth)).foldr max 0

def depthFromRoot (descendant root : UUID) : Option Nat :=
  (db.closure.find? fun c => c.ancestorId == root && c.descendantId == descendant).map (·.depth)

def countActiveChildren : Nat :=
  (db.businesses.filter fun b => b.parentId == some node && b.deletedAt.isNone).length

/-- The key `business (id, tenant_root_id)` that the composite foreign keys refer to. -/
def hasKey (id root : UUID) : Bool := db.businesses.any fun b =>
  b.id == id && b.tenantRootId == root

/-- `CreateBusiness`, with the keys, the check of the name and `business_root_guard`. -/
def insertBusiness (b : Business) : Except Refusal Tenants :=
  if (db.business? b.id).isNone && b.parentId.all (db.hasKey · b.tenantRootId) &&
      decide (1 ≤ b.name.length ∧ b.name.length ≤ 200) && (b.parentId.isSome || b.tenantRootId == b.id)
  then .ok { db with businesses := db.businesses ++ [b] }
  else .error .raised

/-- Rows added to `business_closure`, with its primary key and its foreign keys. -/
def insertPaths (rows : List Path) : Except Refusal Tenants :=
  if decide (UniqueOn (fun c : Path => (c.ancestorId, c.descendantId)) (db.closure ++ rows)) &&
      rows.all fun c => db.hasKey c.ancestorId c.tenantRootId && db.hasKey c.descendantId c.tenantRootId
  then .ok { db with closure := db.closure ++ rows }
  else .error .raised

/-- `CreateMasterBusiness`. -/
def createMaster (creator id membership : UUID) (name : String) (now : Timestamp) :
    Except Refusal Tenants :=
  if name == "" then .error .validation
  else match db.accountVerified? creator, db.presetRoleId "owner" with
    | some true, some owner => do
      let db ← db.insertBusiness ⟨id, none, id, name, .active, none, now⟩
      let db ← db.insertPaths [⟨id, id, 0, id⟩]
      let db ← db.insertMembership ⟨membership, creator, id, id, owner, some creator⟩
      db.commitTenant creator id
    | some false, _ => .error .validation
    | none, _ | _, none => .error .raised

/-- What `CreateSubBusiness` checks under the lock of `root`, which it read before. -/
def checkSub (actor parent root : UUID) : Except Refusal Unit := do
  db.requirePerm actor parent "hierarchy.manage"
  match db.depthFromRoot parent root with
  | none => throw .raised
  | some depth => if depth + 1 > maxDepth then throw .conflict

/-- The rows of `InsertChildClosure`. -/
def childPaths (closure : List Path) (parent root child : UUID) : List Path :=
  (closure.filter (·.descendantId == parent)).map fun c => ⟨c.ancestorId, child, c.depth + 1, root⟩

/-- What `CreateSubBusiness` writes. -/
def writeSub (parent root child : UUID) (name : String) (now : Timestamp) :
    Except Refusal Tenants := do
  let db ← db.insertBusiness ⟨child, some parent, root, name, .active, none, now⟩
  let db ← db.insertPaths [⟨child, child, 0, root⟩]
  db.insertPaths (childPaths db.closure parent root child)

/-- What `Move` checks under the lock of the tenant of `node`, whose row it read before. -/
def checkMove (actor : UUID) (node : Business) (newParent : UUID) : Except Refusal Unit := do
  db.requirePerm actor node.id "hierarchy.manage"
  db.requirePerm actor newParent "hierarchy.manage"
  if node.parentId.isNone then throw .conflict
  if db.isDescendant node.id newParent then throw .conflict
  match db.depthFromRoot newParent node.tenantRootId with
  | none => throw .raised
  | some depth => if depth + 1 + db.subtreeHeight node.id > maxDepth then throw .conflict

def reparented (node newParent : UUID) (now : Timestamp) (rows : List Business) : List Business :=
  updateWhere (·.id == node) (fun b => { b with parentId := some newParent, updatedAt := now }) rows

/-- `UPDATE business SET parent_id`, with the foreign key to the parent. -/
def setParent (node newParent : UUID) (now : Timestamp) : Except Refusal Tenants :=
  if db.businesses.all fun b => b.id != node || db.hasKey newParent b.tenantRootId
  then .ok { db with businesses := reparented node newParent now db.businesses }
  else .error .raised

/-- The rows of `business_closure` that `move_business` leaves: all but those that lead into the
subtree from outside. -/
def detached : List Path :=
  let subtree := (db.closure.filter (·.ancestorId == node)).map (·.descendantId)
  db.closure.filter fun c => !(subtree.contains c.descendantId && !subtree.contains c.ancestorId)

/-- The paths that go from `supers` over one more step to `subs`. -/
def crossPaths (supers subs : List Path) (tenant : UUID) : List Path :=
  supers.flatMap fun super : Path => subs.map fun sub : Path =>
    ⟨super.ancestorId, sub.descendantId, super.depth + sub.depth + 1, tenant⟩

/-- The rows that `move_business` inserts after the deletion. -/
def movedPaths (node newParent tenant : UUID) : List Path :=
  crossPaths ((db.detached node).filter (·.descendantId == newParent))
    ((db.detached node).filter (·.ancestorId == node)) tenant

def moveBusiness (node newParent tenant : UUID) (now : Timestamp) : Except Refusal Tenants := do
  let db ← { db with closure := db.detached node }.insertPaths (db.movedPaths node newParent tenant)
  db.setParent node newParent now

def setSubtreeStatus (status : BusinessStatus) (now : Timestamp) : Tenants :=
  let businesses := updateWhere (fun b => db.isDescendant node b.id && b.deletedAt.isNone)
    (fun b => { b with status, updatedAt := now }) db.businesses
  { db with businesses }

/-- What `Archive` and `Restore` do under the lock. -/
def setStatus (actor node : UUID) (status : BusinessStatus) (now : Timestamp) :
    Except Refusal Tenants := do
  db.requirePerm actor node "hierarchy.manage"
  return db.setSubtreeStatus node status now

/-- What `Delete` does under the lock. -/
def deleteBusiness (actor node : UUID) (now : Timestamp) : Except Refusal Tenants := do
  db.requirePerm actor node "business.delete"
  if db.countActiveChildren node > 0 then throw .conflict
  let businesses := updateWhere (fun b => b.id == node && b.deletedAt.isNone)
    (fun b => { b with deletedAt := some now, updatedAt := now }) db.businesses
  return { db with businesses }

/-! ### What the hierarchy is to be -/

def Known (id : UUID) : Prop := ∃ b ∈ db.businesses, b.id = id

def parentOf (id : UUID) : Option UUID := (db.business? id).bind (·.parentId)

def Lists (ancestor descendant : UUID) (depth : Nat) : Prop :=
  ∃ c ∈ db.closure, c.ancestorId = ancestor ∧ c.descendantId = descendant ∧ c.depth = depth

/-- The businesses form trees of bounded depth, the closure lists just the ancestors, and every row
carries the root of its tree. -/
structure Hierarchy : Prop where
  ids : UniqueOn (·.id) db.businesses
  upward : ∀ d e, db.Known d → db.parentOf d = some e → db.Known e
  closure : ClosureOf db.parentOf db.Known db.Lists
  bounded : Bounded db.parentOf maxDepth
  roots : ∀ b ∈ db.businesses, Rooted db.parentOf b.id b.tenantRootId
  paths : ∀ c ∈ db.closure, Rooted db.parentOf c.descendantId c.tenantRootId
  members : ∀ m ∈ db.memberships, db.Known m.businessId ∧ Rooted db.parentOf m.businessId m.tenantRootId

/-! ### What the statements do -/

variable {db} {db' : Tenants}

theorem business?_some {id : UUID} (found : db.business? id = some b) :
    b ∈ db.businesses ∧ b.id = id :=
  of_find? found

theorem loadVisible_some {actor id : UUID} (visible : db.loadVisible actor id = .ok b) :
    db.business? id = some b := by
  unfold loadVisible at visible
  split at visible
  · cases visible
  next found isFound =>
    obtain ⟨-, same⟩ := refuse_ok.mp visible
    rw [isFound, Except.ok.inj same]

theorem known_iff {id : UUID} : db.Known id ↔ ∃ b, db.business? id = some b := by
  constructor
  · rintro ⟨b, member, rfl⟩
    exact Option.isSome_iff_exists.mp (List.find?_isSome.mpr ⟨b, member, beq_self_eq_true _⟩)
  · rintro ⟨b, found⟩
    exact ⟨b, business?_some found⟩

theorem business?_eq (ids : UniqueOn (·.id) db.businesses) (member : b ∈ db.businesses) :
    db.business? b.id = some b := by
  obtain ⟨found, isFound⟩ := known_iff.mp ⟨b, member, rfl⟩
  have same : found.id = b.id := by simpa using List.find?_some isFound
  rw [isFound, ids.eq_of_key (List.mem_of_find?_eq_some isFound) member same]

theorem hasKey_iff {id root : UUID} :
    db.hasKey id root = true ↔ ∃ b ∈ db.businesses, b.id = id ∧ b.tenantRootId = root := by
  simp [hasKey]

theorem insertBusiness_ok (call : db.insertBusiness b = .ok db') :
    ¬ db.Known b.id ∧ (∀ p, b.parentId = some p → db.hasKey p b.tenantRootId = true) ∧
      (b.parentId = none → b.tenantRootId = b.id) ∧
      db' = { db with businesses := db.businesses ++ [b] } := by
  unfold insertBusiness at call
  split at call
  next holds =>
    simp only [Bool.and_eq_true, Option.isNone_iff_eq_none, Bool.or_eq_true, beq_iff_eq] at holds
    obtain ⟨⟨⟨fresh, parent⟩, -⟩, guard⟩ := holds
    refine ⟨?_, fun p isParent => ?_, fun master => ?_, (Except.ok.inj call).symm⟩
    · rw [known_iff]
      rintro ⟨other, found⟩
      rw [fresh] at found
      cases found
    · simpa [isParent] using parent
    · simpa [master] using guard
  next => cases call

theorem insertPaths_ok {rows : List Path} (call : db.insertPaths rows = .ok db') :
    (∀ c ∈ rows, db.hasKey c.ancestorId c.tenantRootId = true ∧
      db.hasKey c.descendantId c.tenantRootId = true) ∧
      db' = { db with closure := db.closure ++ rows } := by
  simp only [insertPaths, permit_ok, Except.ok.injEq, Bool.and_eq_true, List.all_eq_true] at call
  obtain ⟨⟨-, keys⟩, rfl⟩ := call
  exact ⟨keys, rfl⟩

theorem createMaster_ok {creator id membership : UUID} {name : String}
    (call : db.createMaster creator id membership name now = .ok db') :
    ∃ owner, db.presetRoleId "owner" = some owner ∧ ¬ db.Known id ∧ db' = { db with
      businesses := db.businesses ++ [⟨id, none, id, name, .active, none, now⟩]
      closure := db.closure ++ [⟨id, id, 0, id⟩]
      memberships := db.memberships ++ [⟨membership, creator, id, id, owner, some creator⟩] } := by
  unfold createMaster at call
  split at call
  · cases call
  split at call
  next owner _ preset =>
    simp only [bind_ok] at call
    obtain ⟨first, business, second, self, third, member, call⟩ := call
    obtain ⟨fresh, -, -, rfl⟩ := insertBusiness_ok business
    obtain ⟨-, rfl⟩ := insertPaths_ok self
    obtain ⟨-, -, -, -, rfl⟩ := insertMembership_ok member
    obtain rfl := commitTenant_ok call
    exact ⟨owner, preset, fresh, rfl⟩
  all_goals cases call

theorem writeSub_ok {parent root child : UUID} {name : String}
    (call : db.writeSub parent root child name now = .ok db') :
    ¬ db.Known child ∧ db.hasKey parent root = true ∧ db' = { db with
      businesses := db.businesses ++ [⟨child, some parent, root, name, .active, none, now⟩]
      closure := db.closure ++ [⟨child, child, 0, root⟩] ++
        childPaths (db.closure ++ [⟨child, child, 0, root⟩]) parent root child } := by
  simp only [writeSub, bind_ok] at call
  obtain ⟨first, business, second, self, call⟩ := call
  obtain ⟨fresh, key, -, rfl⟩ := insertBusiness_ok business
  obtain ⟨-, rfl⟩ := insertPaths_ok self
  obtain ⟨-, rfl⟩ := insertPaths_ok call
  exact ⟨fresh, key parent rfl, rfl⟩

theorem setParent_ok {node newParent : UUID} (call : db.setParent node newParent now = .ok db') :
    (∀ b ∈ db.businesses, b.id = node → db.hasKey newParent b.tenantRootId = true) ∧
      db' = { db with businesses := reparented node newParent now db.businesses } := by
  unfold setParent at call
  split at call
  next holds =>
    refine ⟨fun b member isNode => ?_, (Except.ok.inj call).symm⟩
    simpa [isNode] using List.all_eq_true.mp holds b member
  next => cases call

theorem moveBusiness_ok {node newParent tenant : UUID}
    (call : db.moveBusiness node newParent tenant now = .ok db') :
    (∀ c ∈ db.movedPaths node newParent tenant,
      db.hasKey c.ancestorId tenant = true ∧ db.hasKey c.descendantId tenant = true) ∧
      (∀ b ∈ db.businesses, b.id = node → db.hasKey newParent b.tenantRootId = true) ∧
      db' = { db with
        businesses := reparented node newParent now db.businesses
        closure := db.detached node ++ db.movedPaths node newParent tenant } := by
  obtain ⟨linked, paths, call⟩ := bind_ok.mp call
  obtain ⟨keys, rfl⟩ := insertPaths_ok paths
  obtain ⟨parentKey, rfl⟩ := setParent_ok call
  refine ⟨fun c member => ?_, parentKey, rfl⟩
  have tenant_eq : c.tenantRootId = tenant := by
    simp only [movedPaths, crossPaths, List.mem_flatMap, List.mem_map] at member
    obtain ⟨super, -, sub, -, rfl⟩ := member
    rfl
  rw [← tenant_eq]
  exact keys c member

end Tenants

end Manyforge.Tenancy
