import Manyforge.Tenancy.Authz

/-!
# Memberships

The writes of `membership` with the triggers that guard them, and the calls that make them:
creation of an agent, change of a role, revocation, leaving and the transfer of ownership. A call
is one transaction under the tenant's lock; the owner guard is checked when it commits, on the rows
that the caller sees then.
-/
namespace Manyforge.Tenancy

open Table Calls

/-- The administrative permissions, which no agent is to hold. -/
def adminPermissions : List String :=
  ["members.manage", "roles.manage", "hierarchy.manage", "business.delete", "ownership.transfer"]

/-- The keys that `membership_agent_guard` looks for. -/
def agentForbidden : List String := adminPermissions ++ ["agents.approve"]

namespace Tenants

variable (db : Tenants) (m : Membership)

def roleTenantGuard : Bool :=
  match (db.role? m.roleId).bind (·.tenantRootId) with
  | none => true
  | some root => root == m.tenantRootId

def agentGuard : Bool :=
  match db.kind? m.principalId with
  | some (.agent home _) =>
    m.businessId == home &&
      !(db.memberships.any fun other => other.principalId == m.principalId && other.id != m.id) &&
      !(db.permissionsOf m.roleId).any agentForbidden.contains
  | _ => true

def membershipGuards : Bool := db.roleTenantGuard m && db.agentGuard m

/-- `tenant_owner_guard`, on the rows of the businesses that `visible` says: a root that is not
deleted has a direct Owner. -/
def ownerGuard (visible : UUID → Bool) (root : UUID) : Bool :=
  !(db.businesses.any fun b => visible b.id && b.id == root && b.deletedAt.isNone) ||
    db.memberships.any fun m => visible m.businessId && m.businessId == root &&
      m.tenantRootId == root && db.presetRoleId "owner" == some m.roleId

/-- The deferred trigger at the end of a transaction that wrote memberships of this tenant. It runs
under the row-level policies, so a caller who has no membership left sees no root. -/
def commitTenant (caller : Option UUID) (root : UUID) : Except Refusal Tenants :=
  if db.ownerGuard (fun business => caller.any (db.authorized · business)) root then .ok db
  else .error .raised

/-- `CreateMembership`, with the foreign keys, the unique key and the row triggers. -/
def insertMembership : Except Refusal Tenants :=
  if (db.role? m.roleId).isSome && (db.principal? m.principalId).isSome &&
      (db.businesses.any fun b => b.id == m.businessId && b.tenantRootId == m.tenantRootId) &&
      (db.membershipAt m.principalId m.businessId).isNone && !(db.memberships.any (·.id == m.id)) &&
      db.membershipGuards m
  then .ok { db with memberships := db.memberships ++ [m] }
  else .error .raised

def updateMembershipRole (principal business role actor : UUID) : Except Refusal Tenants :=
  let chosen (m : Membership) : Bool := m.principalId == principal && m.businessId == business
  let change (m : Membership) : Membership := { m with roleId := role, grantedBy := some actor }
  if db.memberships.all fun m => !chosen m || db.membershipGuards (change m)
  then .ok { db with memberships := updateWhere chosen change db.memberships }
  else .error .raised

def lockedRole (role : UUID) : Bool := db.roles.any fun r => r.id == role && r.isLocked

/-- `CountDirectOwners`, which counts the locked roles. -/
def countDirectOwners (business : UUID) : Nat :=
  (db.memberships.filter fun m => m.businessId == business &&
    db.roles.any fun r => r.id == m.roleId && r.isLocked).length

def guardEscalation (actor business : UUID) (role : Role) : Except Refusal Unit :=
  if role.isLocked then
    if db.hasOwnerRole actor business then .ok () else .error .conflict
  else if (db.permissionsOf role.id).all (db.resolve actor business).contains then .ok ()
  else .error .conflict

def guardLastOwner (b : Business) (currentRole : UUID) (newRoleLocked : Bool) :
    Except Refusal Unit :=
  if newRoleLocked || b.id != b.tenantRootId then .ok ()
  else if db.presetRoleId "owner" != some currentRole then .ok ()
  else if db.countDirectOwners b.id ≤ 1 then .error .conflict
  else .ok ()

/-- `GetRoleInTenant`: a preset, or a role of the tenant. -/
def roleInTenant? (role root : UUID) : Option Role :=
  db.roles.find? fun r => r.id == role && (r.tenantRootId == none || r.tenantRootId == some root)

def changeMemberRole (actor business target role : UUID) : Except Refusal Tenants := do
  let b ← db.loadVisible actor business
  db.requirePerm actor business "members.manage"
  match db.roleInTenant? role b.tenantRootId, db.membershipAt target business with
  | none, _ => throw .conflict
  | some _, none => throw .notFound
  | some newRole, some current =>
    if current.roleId == role then return db
    db.guardEscalation actor business newRole
    db.guardLastOwner b current.roleId newRole.isLocked
    let db ← db.updateMembershipRole target business role actor
    db.commitTenant actor b.tenantRootId

/-- `DeleteMembershipAt` and the commit. -/
def removeMembership (caller : UUID) (b : Business) (principal : UUID) : Except Refusal Tenants :=
  match db.membershipAt principal b.id with
  | none => .error .notFound
  | some current => do
    db.guardLastOwner b current.roleId false
    let memberships := db.memberships.filter fun m =>
      !(m.principalId == principal && m.businessId == b.id)
    { db with memberships }.commitTenant caller b.tenantRootId

def revokeMember (actor business target : UUID) : Except Refusal Tenants := do
  let b ← db.loadVisible actor business
  db.requirePerm actor business "members.manage"
  db.removeMembership actor b target

def leaveBusiness (caller business : UUID) : Except Refusal Tenants := do
  let b ← db.loadVisible caller business
  db.removeMembership caller b caller

def transferOwnership (actor business target : UUID) : Except Refusal Tenants := do
  if actor == target then throw .conflict
  let b ← db.loadVisible actor business
  if business != b.tenantRootId then throw .conflict
  if !db.hasOwnerRole actor business then throw .notFound
  if (db.membershipAt target business).isNone then throw .conflict
  match db.kind? target with
  | none => throw .notFound
  | some (.agent ..) => throw .conflict
  | some (.human _) =>
    match db.presetRoleId "owner", db.presetRoleId "admin" with
    | some owner, some admin =>
      let db ← db.updateMembershipRole target business owner actor
      let db ← db.updateMembershipRole actor business admin actor
      db.commitTenant actor b.tenantRootId
    | _, _ => throw .raised

/-- `CreateAgentPrincipal`. -/
def withAgent (id home root : UUID) : Tenants :=
  { db with principals := db.principals ++ [⟨id, .agent home root⟩] }

/-- The part of `AgentService.Create` that makes the principal and its membership. The business has
to be visible, but may be deleted. -/
def createAgent (actor business newPrincipal newMembership : UUID) : Except Refusal Tenants := do
  match db.business? business, db.presetRoleId "agent_runtime" with
  | some b, some role =>
    if !db.authorized actor business then throw .notFound
    if (db.principal? newPrincipal).isSome then throw .raised
    let db ← (db.withAgent newPrincipal business b.tenantRootId).insertMembership
      ⟨newMembership, newPrincipal, business, b.tenantRootId, role, some actor⟩
    db.commitTenant actor b.tenantRootId
  | none, _ => throw .notFound
  | some _, none => throw .raised

/-! ### What the calls do -/

variable {db} {db' : Tenants}

theorem commitTenant_ok {caller : Option UUID} {root : UUID}
    (call : db.commitTenant caller root = .ok db') : db' = db := by
  unfold commitTenant at call
  split at call
  next => exact (Except.ok.inj call).symm
  next => cases call

theorem insertMembership_ok {m : Membership} (call : db.insertMembership m = .ok db') :
    (db.role? m.roleId).isSome = true ∧ db.membershipAt m.principalId m.businessId = none ∧
      (∀ other ∈ db.memberships, other.id ≠ m.id) ∧ db.membershipGuards m = true ∧
      db' = { db with memberships := db.memberships ++ [m] } := by
  unfold insertMembership at call
  split at call
  next holds =>
    simp only [Bool.and_eq_true, Bool.not_eq_true', Option.isNone_iff_eq_none] at holds
    obtain ⟨⟨⟨⟨⟨role, -⟩, -⟩, absent⟩, fresh⟩, guards⟩ := holds
    exact ⟨role, absent, ne_of_not_any (Bool.not_eq_true _ ▸ fresh), guards,
      (Except.ok.inj call).symm⟩
  next => cases call

def reassigned (role actor : UUID) : Membership :=
  { m with roleId := role, grantedBy := some actor }

def reassign (principal business role actor : UUID) (rows : List Membership) : List Membership :=
  updateWhere (fun m => m.principalId == principal && m.businessId == business)
    (reassigned · role actor) rows

theorem updateMembershipRole_ok {principal business role actor : UUID}
    (call : db.updateMembershipRole principal business role actor = .ok db') :
    (∀ m ∈ db.memberships, m.principalId = principal → m.businessId = business →
      db.membershipGuards (reassigned m role actor) = true) ∧
      db' = { db with memberships := reassign principal business role actor db.memberships } := by
  unfold updateMembershipRole at call
  simp only at call
  split at call
  next holds =>
    refine ⟨fun m member isPrincipal atBusiness => ?_, (Except.ok.inj call).symm⟩
    have guarded := List.all_eq_true.mp holds m member
    simpa [reassigned, isPrincipal, atBusiness] using guarded
  next => cases call

theorem changeMemberRole_ok {actor business target role : UUID}
    (call : db.changeMemberRole actor business target role = .ok db') :
    ∃ b newRole current, db.loadVisible actor business = .ok b ∧
      db.requirePerm actor business "members.manage" = .ok () ∧
      db.roleInTenant? role b.tenantRootId = some newRole ∧
      db.membershipAt target business = some current ∧
      (current.roleId = role ∧ db' = db ∨
        db.guardEscalation actor business newRole = .ok () ∧
        db.guardLastOwner b current.roleId newRole.isLocked = .ok () ∧
        db.updateMembershipRole target business role actor = .ok db') := by
  simp only [changeMemberRole, bind_ok] at call
  obtain ⟨b, visible, _, allowed, call⟩ := call
  split at call
  · cases call
  · cases call
  next newRole current assignable member =>
  refine ⟨b, newRole, current, visible, allowed, assignable, member, ?_⟩
  split at call
  next same => exact .inl ⟨by simpa using same, (Except.ok.inj call).symm⟩
  simp only [bind_ok] at call
  obtain ⟨_, escalation, _, lastOwner, written, update, call⟩ := call
  obtain rfl := commitTenant_ok call
  exact .inr ⟨escalation, lastOwner, update⟩

theorem removeMembership_ok {caller : UUID} {b : Business} {principal : UUID}
    (call : db.removeMembership caller b principal = .ok db') :
    ∃ current, db.membershipAt principal b.id = some current ∧
      db.guardLastOwner b current.roleId false = .ok () ∧
      db' = { db with memberships := db.memberships.filter fun m =>
        !(m.principalId == principal && m.businessId == b.id) } := by
  unfold removeMembership at call
  split at call
  · cases call
  next current member =>
  obtain ⟨_, lastOwner, call⟩ := bind_ok.mp call
  obtain rfl := commitTenant_ok call
  exact ⟨current, member, lastOwner, rfl⟩

theorem createAgent_ok {actor business newPrincipal newMembership : UUID}
    (call : db.createAgent actor business newPrincipal newMembership = .ok db') :
    ∃ b role, db.business? business = some b ∧ db.presetRoleId "agent_runtime" = some role ∧
      db.principal? newPrincipal = none ∧
      (db.withAgent newPrincipal business b.tenantRootId).insertMembership
        ⟨newMembership, newPrincipal, business, b.tenantRootId, role, some actor⟩ = .ok db' := by
  unfold createAgent at call
  split at call
  next b role found preset =>
    simp only [↓guard_ok, bind_ok] at call
    obtain ⟨-, fresh, written, inserted, call⟩ := call
    obtain rfl := commitTenant_ok call
    exact ⟨b, role, found, preset, by simpa using fresh, inserted⟩
  · cases call
  · cases call

end Tenants

end Manyforge.Tenancy
