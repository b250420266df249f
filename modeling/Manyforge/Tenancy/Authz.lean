import Manyforge.Tenancy.Schema
import Manyforge.Lib.Calls

/-!
# Effective permissions and custom roles

`authz.Resolve` takes the union of the grants that a principal holds on a business and on its
ancestors that are not archived; a locked role stands for the whole catalog. The rows it joins are
all visible to the principal itself: they belong to businesses at or below its own memberships.
-/
namespace Manyforge.Tenancy

open Calls

namespace Tenants

variable (db : Tenants) {db' : Tenants} (principal business : UUID)

def grants : List Membership :=
  db.memberships.filter fun m => m.principalId == principal &&
    (db.closure.any fun c => c.ancestorId == m.businessId && c.descendantId == business) &&
    db.businesses.any fun anc => anc.id == m.businessId && anc.status != .archived

def hasOwnerRole : Bool :=
  (db.grants principal business).any fun m => db.roles.any fun r => r.id == m.roleId && r.isLocked

/-- `GetRolePermissions`. -/
def permissionsOf (role : UUID) : List String :=
  (db.rolePermissions.filter (·.roleId == role)).map (·.permissionKey)

def effectivePermissions : List String :=
  (db.grants principal business).flatMap fun m => db.permissionsOf m.roleId

def resolve : List String :=
  if db.hasOwnerRole principal business then db.catalog
  else db.effectivePermissions principal business

def requirePerm (permission : String) : Except Refusal Unit :=
  if (db.resolve principal business).contains permission then .ok () else .error .notFound

/-- `validateGrantable`: known keys that the actor holds itself. -/
def validateGrantable (actor business : UUID) (permissions : List String) :
    Except Refusal (List String) :=
  let clean := ((permissions.map trimSpace).filter (· != "")).dedup
  if !clean.all db.catalog.contains then .error .validation
  else if !clean.all (db.resolve actor business).contains then .error .conflict
  else .ok clean

/-- `GetCustomRole`, which finds no preset. -/
def customRole? (role root : UUID) : Option Role :=
  db.roles.find? fun r => r.id == role && r.tenantRootId == some root

def createRole (actor business newId : UUID) (key name : String) (permissions : List String) :
    Except Refusal Tenants := do
  if trimSpace name == "" then throw .validation
  let b ← db.loadVisible actor business
  db.requirePerm actor business "roles.manage"
  let clean ← db.validateGrantable actor business permissions
  if (db.role? newId).isSome then throw .raised
  return { db with
    roles := db.roles ++ [⟨newId, some b.tenantRootId, key, trimSpace name, false⟩]
    rolePermissions := db.rolePermissions ++ clean.map (⟨newId, ·⟩) }

/-- The permission rows of a role, cleared and written again. -/
def setRolePermissions (role : UUID) (permissions : List String) : List RolePermission :=
  db.rolePermissions.filter (·.roleId != role) ++ permissions.map (⟨role, ·⟩)

def updateRole (actor business role : UUID) (name : Option String)
    (permissions : Option (List String)) : Except Refusal Tenants := do
  let b ← db.loadVisible actor business
  db.requirePerm actor business "roles.manage"
  if (db.customRole? role b.tenantRootId).isNone then throw .notFound
  if name.any fun n => trimSpace n == "" then throw .validation
  let roles := match name with
    | none => db.roles
    | some n => Table.updateWhere (·.id == role) (fun r => { r with name := trimSpace n }) db.roles
  match permissions with
  | none => return { db with roles }
  | some permissions =>
    let clean ← db.validateGrantable actor business permissions
    return { db with roles, rolePermissions := db.setRolePermissions role clean }

def deleteRole (actor business role : UUID) : Except Refusal Tenants := do
  let b ← db.loadVisible actor business
  db.requirePerm actor business "roles.manage"
  if (db.customRole? role b.tenantRootId).isNone then throw .notFound
  if db.memberships.any (·.roleId == role) then throw .conflict
  -- `invitation.role_id` is `ON DELETE RESTRICT`.
  if db.invitations.any (·.roleId == role) then throw .raised
  return { db with
    roles := db.roles.filter (·.id != role)
    rolePermissions := db.rolePermissions.filter (·.roleId != role) }

/-! ### What the calls on roles do -/

variable {db}

/-- The roles of a tenant after one of them was renamed. -/
def Renames (roles roles' : List Role) : Prop :=
  Table.RowByRow (fun r r' : Role => ∃ name, r' = { r with name }) roles roles'

theorem Renames.refl (roles : List Role) : Renames roles roles :=
  Table.RowByRow.refl (fun r => ⟨r.name, rfl⟩) roles

theorem Renames.any_locked {roles roles' : List Role} (renames : Renames roles roles') (role : UUID) :
    (roles'.any fun r => r.id == role && r.isLocked) =
      roles.any fun r => r.id == role && r.isLocked :=
  renames.any (by rintro _ _ ⟨_, rfl⟩; rfl)

theorem Renames.any_id {roles roles' : List Role} (renames : Renames roles roles') (role : UUID) :
    (roles'.any (·.id == role)) = roles.any (·.id == role) :=
  renames.any (by rintro _ _ ⟨_, rfl⟩; rfl)

theorem createRole_ok {actor business newId : UUID} {key name : String} {permissions : List String}
    (call : db.createRole actor business newId key name permissions = .ok db') :
    ∃ b clean, db.loadVisible actor business = .ok b ∧
      db.requirePerm actor business "roles.manage" = .ok () ∧
      db.validateGrantable actor business permissions = .ok clean ∧ (db.role? newId) = none ∧
      db' = { db with
        roles := db.roles ++ [⟨newId, some b.tenantRootId, key, trimSpace name, false⟩]
        rolePermissions := db.rolePermissions ++ clean.map (⟨newId, ·⟩) } := by
  simp only [createRole, ↓guard_ok, bind_ok, pure_ok] at call
  obtain ⟨-, b, visible, _, allowed, clean, granted, fresh, rfl⟩ := call
  exact ⟨b, clean, visible, allowed, granted, by simpa using fresh, rfl⟩

theorem updateRole_ok {actor business role : UUID} {name : Option String}
    {permissions : Option (List String)}
    (call : db.updateRole actor business role name permissions = .ok db') :
    ∃ b roles, db.loadVisible actor business = .ok b ∧
      db.requirePerm actor business "roles.manage" = .ok () ∧
      (db.customRole? role b.tenantRootId).isSome = true ∧ Renames db.roles roles ∧
      (permissions = none ∧ db' = { db with roles } ∨
        ∃ requested clean, permissions = some requested ∧
          db.validateGrantable actor business requested = .ok clean ∧
          db' = { db with roles, rolePermissions := db.setRolePermissions role clean }) := by
  simp only [updateRole, ↓guard_ok, bind_ok] at call
  obtain ⟨b, visible, _, allowed, custom, -, call⟩ := call
  have found : (db.customRole? role b.tenantRootId).isSome = true := by
    simpa [Option.isSome_iff_ne_none] using custom
  -- The rows of `role` after the optional renaming.
  generalize renamed : (match name with
    | none => db.roles
    | some n => Table.updateWhere (·.id == role) (fun r => { r with name := trimSpace n })
        db.roles) = roles at call
  have renames : Renames db.roles roles := by
    rw [← renamed]
    cases name with
    | none => exact .refl _
    | some n => exact .updateWhere (fun r => ⟨r.name, rfl⟩) fun r _ _ => ⟨trimSpace n, rfl⟩
  refine ⟨b, roles, visible, allowed, found, renames, ?_⟩
  cases permissions with
  | none => exact .inl ⟨rfl, (Except.ok.inj call).symm⟩
  | some requested =>
    obtain ⟨clean, granted, made⟩ := bind_ok.mp call
    exact .inr ⟨requested, clean, rfl, granted, (Except.ok.inj made).symm⟩

theorem deleteRole_ok {actor business role : UUID}
    (call : db.deleteRole actor business role = .ok db') :
    (∀ m ∈ db.memberships, m.roleId ≠ role) ∧
      db' = { db with
        roles := db.roles.filter (·.id != role)
        rolePermissions := db.rolePermissions.filter (·.roleId != role) } := by
  simp only [deleteRole, ↓guard_ok, bind_ok, pure_ok] at call
  obtain ⟨b, -, _, -, -, unused, -, rfl⟩ := call
  exact ⟨Table.ne_of_not_any unused, rfl⟩

end Tenants

end Manyforge.Tenancy
