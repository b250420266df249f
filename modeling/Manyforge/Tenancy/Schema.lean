import Manyforge.Text
import Manyforge.Lib.Table

/-!
# Tenants

The tables of the business hierarchy and of the access rights in it: businesses and the closure of
their parent relation, roles and their permissions, principals, accounts, memberships and
invitations. A constraint that pairs columns (`principal_kind_pairing`) is built into the row.
-/
namespace Manyforge.Tenancy

inductive BusinessStatus where
  | active | archived
  deriving DecidableEq

structure Business where
  id : UUID
  /-- `NULL` for a master business. -/
  parentId : Option UUID
  tenantRootId : UUID
  name : String
  status : BusinessStatus
  deletedAt : Option Timestamp
  updatedAt : Timestamp
  deriving DecidableEq

/-- A row of `business_closure`. -/
structure Path where
  (ancestorId descendantId : UUID)
  depth : Nat
  tenantRootId : UUID
  deriving DecidableEq

structure Role where
  id : UUID
  /-- `NULL` for a preset. -/
  tenantRootId : Option UUID
  (key name : String)
  isLocked : Bool
  deriving DecidableEq

structure RolePermission where
  roleId : UUID
  permissionKey : String
  deriving DecidableEq

/-- A human has an account, an agent a home business and its tenant. -/
inductive PrincipalKind where
  | human (accountId : UUID)
  | agent (homeBusinessId tenantRootId : UUID)
  deriving DecidableEq

structure Principal where
  id : UUID
  kind : PrincipalKind
  deriving DecidableEq

inductive AccountStatus where
  | active | deactivated
  deriving DecidableEq

structure Account where
  id : UUID
  email : String
  emailVerifiedAt : Option Timestamp
  status : AccountStatus
  deletedAt : Option Timestamp
  deriving DecidableEq

structure Membership where
  (id principalId businessId tenantRootId roleId : UUID)
  grantedBy : Option UUID
  deriving DecidableEq

inductive InvitationStatus where
  | pending | accepted | expired | revoked
  deriving DecidableEq

structure Invitation where
  (id businessId tenantRootId : UUID)
  email : String
  roleId : UUID
  tokenHash : String
  status : InvitationStatus
  createdBy : Option UUID
  expiresAt : Timestamp
  deriving DecidableEq

structure Tenants where
  businesses : List Business
  closure : List Path
  roles : List Role
  rolePermissions : List RolePermission
  /-- The keys of `permission`. -/
  catalog : List String
  principals : List Principal
  accounts : List Account
  memberships : List Membership
  invitations : List Invitation

/-- The errors of the services; `raised` is an exception of a constraint or a trigger. -/
inductive Refusal where
  | notFound | validation | conflict | raised
  deriving DecidableEq

namespace Tenants

variable (db : Tenants) (id : UUID) (principal business : UUID)

def business? : Option Business := db.businesses.find? (·.id == id)

def role? : Option Role := db.roles.find? (·.id == id)

def principal? : Option Principal := db.principals.find? (·.id == id)

def kind? : Option PrincipalKind := (db.principal? id).map Principal.kind

def membershipAt : Option Membership :=
  db.memberships.find? fun m => m.principalId == principal && m.businessId == business

def presetRoleId (key : String) : Option UUID :=
  (db.roles.find? fun r => r.tenantRootId == none && r.key == key).map (·.id)

/-- `authorized_businesses`, which the row-level policies of every table are made of. -/
def authorized : Bool :=
  db.memberships.any fun m => m.principalId == principal &&
    db.closure.any fun c => c.ancestorId == m.businessId && c.descendantId == business

/-- `loadVisible`: `GetBusiness` under the policies. -/
def loadVisible : Except Refusal Business :=
  match db.business? business with
  | none => .error .notFound
  | some b => if b.deletedAt.isSome || !db.authorized principal business then .error .notFound else .ok b

end Tenants

end Manyforge.Tenancy
