import Manyforge.Tenancy.Agents
import Manyforge.Tenancy.Integrity
import Manyforge.Tenancy.Invitations

/-!
# The calls that give permissions

Every call that can change who holds a permission where, each as one transaction, and what their
runs keep of the tables. A run also remembers the tables that each invitation was created from: what
the inviter held then is what the invitation may hand on.
-/
namespace Manyforge.Tenancy

open Table Forest Calls

inductive GrantAction where
  | createMaster (creator id membership : UUID) (name : String) (now : Timestamp)
  | createSub (actor parent child : UUID) (name : String) (now : Timestamp)
  | move (actor node newParent : UUID) (now : Timestamp)
  | archive (actor node : UUID) (now : Timestamp)
  | restore (actor node : UUID) (now : Timestamp)
  | createRole (actor business newId : UUID) (key name : String) (permissions : List String)
  | updateRole (actor business role : UUID) (name : Option String)
      (permissions : Option (List String))
  | changeMemberRole (actor business target role : UUID)
  | transferOwnership (actor business target : UUID)
  | createInvitation (inviter business role id : UUID) (email raw : String) (now : Timestamp)
  | revokeInvitation (actor business id : UUID)
  | resendInvitation (actor business id : UUID) (raw : String) (now : Timestamp)
  | accept (principal : UUID) (token : String) (membership : UUID) (now : Timestamp)

namespace Tenants

variable (db : Tenants)

def createSub (actor parent child : UUID) (name : String) (now : Timestamp) :
    Except Refusal Tenants := do
  if name == "" then throw .validation
  let b ← db.loadVisible actor parent
  db.checkSub actor parent b.tenantRootId
  db.writeSub parent b.tenantRootId child name now

def move (actor node newParent : UUID) (now : Timestamp) : Except Refusal Tenants := do
  if node == newParent then throw .conflict
  let b ← db.loadVisible actor node
  let parent ← db.loadVisible actor newParent
  if b.tenantRootId != parent.tenantRootId then throw .conflict
  db.checkMove actor b newParent
  db.moveBusiness node newParent b.tenantRootId now

/-- `setStatus`, of which `Archive` and `Restore` are the two cases. -/
def changeStatus (actor node : UUID) (status : BusinessStatus) (now : Timestamp) :
    Except Refusal Tenants := do
  let _ ← db.loadVisible actor node
  db.setStatus actor node status now

/-- What a role stands for: a locked one for the whole catalog. -/
def conveys (role : UUID) : List String :=
  if db.lockedRole role then db.catalog else db.permissionsOf role

/-- The businesses at or below one. -/
def below (business : UUID) : List UUID :=
  (db.closure.filter (·.ancestorId == business)).map (·.descendantId)

/-- What the schema and its seeds give: the hierarchy, roles with unique ids of which only presets
are locked, memberships with known roles, and role permissions from the catalog. -/
structure GrantInv : Prop where
  hierarchy : db.Hierarchy
  roleIds : UniqueOn (·.id) db.roles
  presets : ∀ r ∈ db.roles, r.isLocked = true → r.tenantRootId = none
  roles : ∀ m ∈ db.memberships, ∃ r ∈ db.roles, r.id = m.roleId
  catalogued : ∀ row ∈ db.rolePermissions, row.permissionKey ∈ db.catalog

end Tenants

def GrantAction.call (service : InvitationService) (db : Tenants) :
    GrantAction → Except Refusal Tenants
  | .createMaster creator id membership name now => db.createMaster creator id membership name now
  | .createSub actor parent child name now => db.createSub actor parent child name now
  | .move actor node newParent now => db.move actor node newParent now
  | .archive actor node now => db.changeStatus actor node .archived now
  | .restore actor node now => db.changeStatus actor node .active now
  | .createRole actor business newId key name permissions =>
    db.createRole actor business newId key name permissions
  | .updateRole actor business role name permissions =>
    db.updateRole actor business role name permissions
  | .changeMemberRole actor business target role => db.changeMemberRole actor business target role
  | .transferOwnership actor business target => db.transferOwnership actor business target
  | .createInvitation inviter business role id email raw now =>
    db.createInvitation service inviter business role id email raw now
  | .revokeInvitation actor business id => db.revokeInvitation actor business id
  | .resendInvitation actor business id raw now =>
    db.resendInvitation service actor business id raw now
  | .accept principal token membership now =>
    (db.accept service principal token membership now).map Prod.snd

def GrantAction.actor : GrantAction → UUID
  | .createMaster actor .. | .createSub actor .. | .move actor .. | .archive actor ..
  | .restore actor .. | .createRole actor .. | .updateRole actor .. | .changeMemberRole actor ..
  | .transferOwnership actor .. | .createInvitation actor .. | .revokeInvitation actor ..
  | .resendInvitation actor .. | .accept actor .. => actor

structure GrantState where
  db : Tenants
  /-- The tables from which each invitation was created. -/
  issued : List (UUID × Tenants)

namespace GrantState

variable (service : InvitationService) (s : GrantState)

/-- What a call adds to the record of invitations. -/
def issuedBy : GrantAction → List (UUID × Tenants)
  | .createInvitation _ _ _ id .. => [(id, s.db)]
  | _ => []

def next (action : GrantAction) : GrantState :=
  match action.call service s.db with
  | .ok db => { db, issued := s.issuedBy action ++ s.issued }
  | .error _ => s

/-- The inviter of an invitation and the tables it was created from. -/
def origin (inv : Invitation) : Option (UUID × Tenants) :=
  match inv.createdBy, s.issued.find? (·.1 == inv.id) with
  | some inviter, some (_, tables) => some (inviter, tables)
  | _, _ => none

end GrantState

namespace Tenants

variable {db db' : Tenants}

/-! ### What the calls do -/

variable {actor : UUID} {now : Timestamp} {key : String} {role business : UUID}

theorem createSub_ok {parent child : UUID} {name : String}
    (call : db.createSub actor parent child name now = .ok db') :
    ∃ b, db.loadVisible actor parent = .ok b ∧ db.checkSub actor parent b.tenantRootId = .ok () ∧
      db.writeSub parent b.tenantRootId child name now = .ok db' := by
  simp only [createSub, ↓guard_ok, bind_ok] at call
  obtain ⟨-, b, visible, _, checked, written⟩ := call
  exact ⟨b, visible, checked, written⟩

theorem move_ok {node newParent : UUID} (call : db.move actor node newParent now = .ok db') :
    ∃ b parent, db.loadVisible actor node = .ok b ∧ db.loadVisible actor newParent = .ok parent ∧
      db.checkMove actor b newParent = .ok () ∧
      db.moveBusiness node newParent b.tenantRootId now = .ok db' := by
  simp only [move, ↓guard_ok, bind_ok] at call
  obtain ⟨-, b, visible, parent, visibleParent, -, _, checked, moved⟩ := call
  exact ⟨b, parent, visible, visibleParent, checked, moved⟩

theorem changeStatus_ok {node : UUID} {status : BusinessStatus}
    (call : db.changeStatus actor node status now = .ok db') :
    db' = db.setSubtreeStatus node status now := by
  simp only [changeStatus, setStatus, bind_ok, pure_ok] at call
  obtain ⟨_, -, _, -, made⟩ := call
  exact made.symm

theorem presetRoleId_some (preset : db.presetRoleId key = some role) :
    ∃ r ∈ db.roles, r.id = role ∧ r.tenantRootId = none ∧ r.key = key := by
  obtain ⟨r, found, rfl⟩ := Option.map_eq_some_iff.mp preset
  obtain ⟨row, isPreset⟩ := of_find?_keys found
  exact ⟨r, row, rfl, isPreset⟩

theorem presetRoleId_ne (unique : UniqueOn (·.id) db.roles) {other : String} {role' : UUID}
    (first : db.presetRoleId key = some role) (second : db.presetRoleId other = some role')
    (differ : key ≠ other) : role ≠ role' := by
  obtain ⟨r, row, isR, -, isKey⟩ := presetRoleId_some first
  obtain ⟨r', row', isR', -, isOther⟩ := presetRoleId_some second
  rintro rfl
  rw [unique.eq_of_key row row' (isR.trans isR'.symm), isOther] at isKey
  exact differ isKey.symm

theorem roleInTenant?_some {root : UUID} {r : Role} (found : db.roleInTenant? role root = some r) :
    r ∈ db.roles ∧ r.id = role :=
  (of_find?_key found).imp_right And.left

theorem transferOwnership_ok {target : UUID}
    (call : db.transferOwnership actor business target = .ok db') :
    ∃ b owner admin promoted, actor ≠ target ∧ db.loadVisible actor business = .ok b ∧
      business = b.tenantRootId ∧ db.hasOwnerRole actor business = true ∧
      (db.membershipAt target business).isSome = true ∧ db.presetRoleId "owner" = some owner ∧
      db.presetRoleId "admin" = some admin ∧
      db.updateMembershipRole target business owner actor = .ok promoted ∧
      promoted.updateMembershipRole actor business admin actor = .ok db' := by
  simp only [transferOwnership, ↓guard_ok, bind_ok] at call
  obtain ⟨other, b, visible, atRoot, owns, member, call⟩ := call
  split at call
  · cases call
  · cases call
  next account _ =>
  split at call
  next owner admin isOwner isAdmin =>
    simp only [bind_ok] at call
    obtain ⟨promoted, first, stepped, second, call⟩ := call
    obtain rfl := commitTenant_ok call
    exact ⟨b, owner, admin, promoted, by simpa using other, visible, by simpa using atRoot,
      by simpa using owns, by simpa [Option.isSome_iff_ne_none] using member, isOwner, isAdmin,
      first, second⟩
  next => cases call

/-! ### Who holds what -/

theorem mem_below {a d : UUID} : d ∈ db.below a ↔ ∃ n, db.Lists a d n := mem_descendants

/-- The memberships that count at a business. -/
theorem mem_grants_iff {principal : UUID} {m : Membership} :
    m ∈ db.grants principal business ↔ m ∈ db.memberships ∧ m.principalId = principal ∧
      business ∈ db.below m.businessId ∧ db.unarchived m.businessId = true := by
  rw [mem_grants, below, List.mem_map]
  simp [and_assoc]

section

variable (catalogued : ∀ row ∈ db.rolePermissions, row.permissionKey ∈ db.catalog)

include catalogued

theorem mem_conveys_of_permissions (granted : key ∈ db.permissionsOf role) :
    key ∈ db.conveys role ∧ key ∈ db.catalog := by
  have inCatalog : key ∈ db.catalog := by
    obtain ⟨row, member, rfl⟩ := List.mem_map.mp granted
    exact catalogued row (List.mem_filter.mp member).1
  unfold conveys
  split
  · exact ⟨inCatalog, inCatalog⟩
  · exact ⟨granted, inCatalog⟩

theorem mem_catalog_of_conveys (conveyed : key ∈ db.conveys role) : key ∈ db.catalog := by
  unfold conveys at conveyed
  split at conveyed
  · exact conveyed
  · exact (mem_conveys_of_permissions catalogued conveyed).2

theorem mem_resolve {principal : UUID} :
    key ∈ db.resolve principal business ↔
      ∃ m ∈ db.memberships, m.principalId = principal ∧ business ∈ db.below m.businessId ∧
        db.unarchived m.businessId = true ∧ key ∈ db.conveys m.roleId := by
  unfold resolve
  split
  next owner =>
    obtain ⟨lead, grant, locked⟩ := List.any_eq_true.mp owner
    obtain ⟨member, isPrincipal, covers, open_⟩ := mem_grants_iff.mp grant
    have whole : db.conveys lead.roleId = db.catalog := if_pos locked
    constructor
    · intro inCatalog
      exact ⟨lead, member, isPrincipal, covers, open_, whole ▸ inCatalog⟩
    · rintro ⟨m, -, -, -, -, conveyed⟩
      exact mem_catalog_of_conveys catalogued conveyed
  next noOwner =>
  constructor
  · intro effective
    obtain ⟨m, grant, granted⟩ := List.mem_flatMap.mp effective
    obtain ⟨member, isPrincipal, covers, open_⟩ := mem_grants_iff.mp grant
    exact ⟨m, member, isPrincipal, covers, open_,
      (mem_conveys_of_permissions catalogued granted).1⟩
  · rintro ⟨m, member, isPrincipal, covers, open_, conveyed⟩
    have grant := mem_grants_iff.mpr ⟨member, isPrincipal, covers, open_⟩
    have unlocked : db.lockedRole m.roleId ≠ true :=
      fun locked => noOwner (List.any_eq_true.mpr ⟨m, grant, locked⟩)
    rw [conveys, if_neg unlocked] at conveyed
    exact List.mem_flatMap.mpr ⟨m, grant, conveyed⟩

end

theorem grantable {requested clean : List String}
    (granted : db.validateGrantable actor business requested = .ok clean) :
    ∀ permission ∈ clean, permission ∈ db.catalog ∧ permission ∈ db.resolve actor business := by
  simp only [validateGrantable, refuse_ok, Except.ok.injEq] at granted
  obtain ⟨known, held, rfl⟩ := granted
  simp only [Bool.not_eq_true', Bool.not_eq_false, List.all_eq_true, List.contains_iff_mem] at known held
  exact fun permission member => ⟨known permission member, held permission member⟩

/-! ### Every call keeps the invariant -/

variable (inv : db.GrantInv)

include inv

theorem GrantInv.of_roles {roles : List Role} {rolePermissions : List RolePermission}
    (roleIds : UniqueOn (·.id) roles)
    (presets : ∀ r ∈ roles, r.isLocked = true → r.tenantRootId = none)
    (kept : ∀ r ∈ db.roles, ∃ r' ∈ roles, r'.id = r.id)
    (catalogued : ∀ row ∈ rolePermissions, row.permissionKey ∈ db.catalog) :
    GrantInv { db with roles, rolePermissions } := by
  refine ⟨inv.hierarchy.of_links rfl rfl rfl, roleIds, presets, fun m member => ?_, catalogued⟩
  obtain ⟨r, row, isRole⟩ := inv.roles m member
  obtain ⟨r', row', same⟩ := kept r row
  exact ⟨r', row', same.trans isRole⟩

theorem GrantInv.of_memberships {memberships : List Membership}
    (members : ∀ m ∈ memberships, (db.Known m.businessId ∧
      Rooted db.parentOf m.businessId m.tenantRootId) ∧ ∃ r ∈ db.roles, r.id = m.roleId) :
    GrantInv { db with memberships } := by
  have h := inv.hierarchy
  exact ⟨⟨h.ids, h.upward, h.closure, h.bounded, h.roots, h.paths, fun m member => (members m member).1⟩,
    inv.roleIds, inv.presets, fun m member => (members m member).2, inv.catalogued⟩

theorem GrantInv.of_invitations (invitations : List Invitation) :
    GrantInv { db with invitations } :=
  ⟨inv.hierarchy.of_links rfl rfl rfl, inv.roleIds, inv.presets, inv.roles, inv.catalogued⟩

theorem GrantInv.of_hierarchy (hierarchy : db'.Hierarchy)
    (roles : db'.roles = db.roles) (rolePermissions : db'.rolePermissions = db.rolePermissions)
    (catalog : db'.catalog = db.catalog)
    (members : ∀ m ∈ db'.memberships, m ∈ db.memberships ∨ ∃ r ∈ db.roles, r.id = m.roleId) :
    db'.GrantInv := by
  refine ⟨hierarchy, by rw [roles]; exact inv.roleIds, by rw [roles]; exact inv.presets,
    fun m member => ?_, by rw [rolePermissions, catalog]; exact inv.catalogued⟩
  rw [roles]
  exact (members m member).elim (inv.roles m) id

theorem GrantInv.status (node : UUID) (status : BusinessStatus) (now : Timestamp) :
    (db.setSubtreeStatus node status now).GrantInv :=
  inv.of_hierarchy (inv.hierarchy.status ..) rfl rfl rfl fun _ member => .inl member

theorem GrantInv.reassign {principal : UUID}
    (call : db.updateMembershipRole principal business role actor = .ok db')
    (known : ∃ r ∈ db.roles, r.id = role) : db'.GrantInv := by
  obtain ⟨-, rfl⟩ := updateMembershipRole_ok call
  refine inv.of_memberships fun m member => ?_
  obtain ⟨old, old_mem, rfl⟩ := mem_updateWhere.mp member
  have at_ := inv.hierarchy.members old old_mem
  split
  · exact ⟨at_, known⟩
  · exact ⟨at_, inv.roles old old_mem⟩

omit inv in
theorem insertMembership_key {m : Membership} (call : db.insertMembership m = .ok db') :
    db.hasKey m.businessId m.tenantRootId = true := by
  unfold insertMembership at call
  split at call
  next holds =>
    simp only [Bool.and_eq_true] at holds
    exact holds.1.1.1.2
  next => cases call

omit inv in
theorem role?_some {id : UUID} {r : Role} (found : db.role? id = some r) : r ∈ db.roles ∧ r.id = id :=
  of_find? found

theorem GrantInv.insert {m : Membership}
    (call : db.insertMembership m = .ok db') : db'.GrantInv := by
  have key := inv.hierarchy.rooted_of_key (insertMembership_key call)
  obtain ⟨role, -, -, -, rfl⟩ := insertMembership_ok call
  obtain ⟨r, found⟩ := Option.isSome_iff_exists.mp role
  refine inv.of_memberships fun other member => ?_
  rcases mem_inserted.mp member with old | rfl
  · exact ⟨inv.hierarchy.members other old, inv.roles other old⟩
  · exact ⟨key, r, role?_some found⟩

theorem GrantInv.createRole {newId : UUID} {name : String} {permissions : List String}
    (call : db.createRole actor business newId key name permissions = .ok db') : db'.GrantInv := by
  obtain ⟨b, clean, -, -, granted, fresh, rfl⟩ := createRole_ok call
  refine inv.of_roles ?_ ?_ (fun r row => ⟨r, List.mem_append_left _ row, rfl⟩) ?_
  · refine inv.roleIds.append_fresh fun r row same => ?_
    have missing := List.find?_eq_none.mp fresh r row
    simp [same] at missing
  · intro r row locked
    rcases mem_inserted.mp row with old | rfl
    · exact inv.presets r old locked
    · cases locked
  · intro row member
    rcases List.mem_append.mp member with old | new
    · exact inv.catalogued row old
    · obtain ⟨permission, isClean, rfl⟩ := List.mem_map.mp new
      exact (grantable granted permission isClean).1

theorem GrantInv.updateRole {name : Option String} {permissions : Option (List String)}
    (call : db.updateRole actor business role name permissions = .ok db') : db'.GrantInv := by
  obtain ⟨b, roles, -, -, -, renames, written⟩ := updateRole_ok call
  have roleIds : UniqueOn (·.id) roles := renames.uniqueOn (by rintro _ _ ⟨_, rfl⟩; rfl) inv.roleIds
  have presets : ∀ r ∈ roles, r.isLocked = true → r.tenantRootId = none := by
    intro r row locked
    obtain ⟨old, old_mem, _, rfl⟩ := renames.exists_before row
    exact inv.presets old old_mem locked
  have kept : ∀ r ∈ db.roles, ∃ r' ∈ roles, r'.id = r.id := by
    intro r row
    obtain ⟨r', row', _, rfl⟩ := renames.exists_after row
    exact ⟨_, row', rfl⟩
  rcases written with ⟨-, rfl⟩ | ⟨requested, clean, -, granted, rfl⟩
  · exact inv.of_roles roleIds presets kept inv.catalogued
  · refine inv.of_roles roleIds presets kept fun row member => ?_
    rcases List.mem_append.mp member with old | new
    · exact inv.catalogued row (List.mem_filter.mp old).1
    · obtain ⟨permission, isClean, rfl⟩ := List.mem_map.mp new
      exact (grantable granted permission isClean).1

theorem GrantInv.changeMemberRole {target : UUID}
    (call : db.changeMemberRole actor business target role = .ok db') : db'.GrantInv := by
  obtain ⟨b, newRole, current, -, -, assignable, -, ⟨-, rfl⟩ | ⟨-, -, update⟩⟩ :=
    changeMemberRole_ok call
  · exact inv
  · exact inv.reassign update ⟨newRole, roleInTenant?_some assignable⟩

theorem GrantInv.transferOwnership {target : UUID}
    (call : db.transferOwnership actor business target = .ok db') : db'.GrantInv := by
  obtain ⟨b, owner, admin, promoted, -, -, -, -, -, isOwner, isAdmin, first, second⟩ :=
    transferOwnership_ok call
  obtain ⟨ownerRole, ownerRow, isOwnerRole, -⟩ := presetRoleId_some isOwner
  obtain ⟨adminRole, adminRow, isAdminRole, -⟩ := presetRoleId_some isAdmin
  have after := inv.reassign first ⟨ownerRole, ownerRow, isOwnerRole⟩
  refine after.reassign second ⟨adminRole, ?_, isAdminRole⟩
  obtain ⟨-, rfl⟩ := updateMembershipRole_ok first
  exact adminRow

theorem GrantInv.move {node newParent : UUID} (call : db.move actor node newParent now = .ok db') :
    db'.GrantInv := by
  obtain ⟨b, parent, visible, visibleParent, checked, moved⟩ := move_ok call
  obtain ⟨rfl, known, -⟩ := loadVisible_ok inv.hierarchy visible
  obtain ⟨rfl, knownParent, -⟩ := loadVisible_ok inv.hierarchy visibleParent
  have rooted := moveBusiness_tenant inv.hierarchy moved known knownParent
  have fits := checkMove_fits inv.hierarchy checked knownParent rooted.2
  have hierarchy := inv.hierarchy.move moved known knownParent fits
  obtain ⟨-, -, rfl⟩ := moveBusiness_ok moved
  exact inv.of_hierarchy hierarchy rfl rfl rfl fun m member => .inl member

theorem GrantInv.createSub {parent child : UUID} {name : String}
    (call : db.createSub actor parent child name now = .ok db') : db'.GrantInv := by
  obtain ⟨b, visible, checked, written⟩ := createSub_ok call
  obtain ⟨fresh, key, made⟩ := writeSub_ok written
  have hierarchy := inv.hierarchy.sub written fun a n reached =>
    checkSub_room inv.hierarchy checked (inv.hierarchy.rooted_of_key key).2 reached
  subst made
  exact inv.of_hierarchy hierarchy rfl rfl rfl fun m member => .inl member

theorem GrantInv.createMaster {creator id membership : UUID} {name : String}
    (call : db.createMaster creator id membership name now = .ok db') : db'.GrantInv := by
  have hierarchy := inv.hierarchy.master call
  obtain ⟨owner, preset, fresh, rfl⟩ := createMaster_ok call
  refine inv.of_hierarchy hierarchy rfl rfl rfl fun m member => ?_
  rcases mem_inserted.mp member with old | rfl
  · exact .inl old
  · obtain ⟨r, row, isOwner, -⟩ := presetRoleId_some preset
    exact .inr ⟨r, row, isOwner⟩

theorem GrantInv.accept {service : InvitationService} {principal membership : UUID} {token : String}
    {status : AcceptStatus}
    (call : db.accept service principal token membership now = .ok (status, db')) :
    db'.GrantInv := by
  rcases accept_ok call with ⟨-, rfl⟩ | ⟨-, invitation, b, -, -, -, ⟨-, rfl⟩ | inserted⟩
  · exact inv
  · exact inv.of_invitations _
  · exact (inv.of_invitations _).insert inserted

end Tenants

variable {service : InvitationService} {db db' : Tenants}

theorem GrantAction.accept_call {principal membership : UUID} {token : String} {now : Timestamp}
    (call : (GrantAction.accept principal token membership now).call service db = .ok db') :
    ∃ status, db.accept service principal token membership now = .ok (status, db') := by
  simp only [GrantAction.call] at call
  cases accepted : db.accept service principal token membership now with
  | error refusal =>
    rw [accepted] at call
    cases call
  | ok result =>
    rw [accepted] at call
    obtain rfl := Except.ok.inj call
    exact ⟨result.1, rfl⟩

/-- The calls that write to the table of invitations only. -/
def GrantAction.onInvitations : GrantAction → Bool
  | .createInvitation .. | .revokeInvitation .. | .resendInvitation .. => true
  | _ => false

theorem GrantAction.call_invitations {action : GrantAction} (only : action.onInvitations = true)
    (call : action.call service db = .ok db') : ∃ invitations, db' = { db with invitations } := by
  cases action with
  | createInvitation inviter business role id email raw now =>
    unfold GrantAction.call at call
    obtain ⟨b, invitation, -, -, -, -, -, rfl⟩ := Tenants.createInvitation_ok call
    exact ⟨_, rfl⟩
  | revokeInvitation actor business id => exact ⟨_, Tenants.revokeInvitation_ok call⟩
  | resendInvitation actor business id raw now => exact ⟨_, Tenants.resendInvitation_ok call⟩
  | _ => cases only

theorem GrantAction.keeps (inv : db.GrantInv)
    {action : GrantAction} (call : action.call service db = .ok db') : db'.GrantInv := by
  cases action with
  | createMaster creator id membership name now => exact inv.createMaster call
  | createSub actor parent child name now => exact inv.createSub call
  | move actor node newParent now => exact inv.move call
  | archive actor node now | restore actor node now =>
    obtain rfl := Tenants.changeStatus_ok call
    exact inv.status ..
  | createRole actor business newId key name permissions =>
    unfold GrantAction.call at call
    exact inv.createRole call
  | updateRole actor business role name permissions => exact inv.updateRole call
  | changeMemberRole actor business target role => exact inv.changeMemberRole call
  | transferOwnership actor business target => exact inv.transferOwnership call
  | createInvitation | revokeInvitation | resendInvitation =>
    obtain ⟨invitations, rfl⟩ := GrantAction.call_invitations rfl call
    exact inv.of_invitations invitations
  | accept principal token membership now =>
    obtain ⟨status, accepted⟩ := GrantAction.accept_call call
    exact inv.accept accepted

theorem GrantState.keeps (service : InvitationService) {s : GrantState} (inv : s.db.GrantInv)
    (action : GrantAction) : (s.next service action).db.GrantInv := by
  unfold GrantState.next
  split
  next db call => exact action.keeps inv call
  next => exact inv

end Manyforge.Tenancy
