import Manyforge.Tenancy.Seeds
import Manyforge.Lib.Transition
import Mathlib.Data.List.Dedup

/-!
# What agents may do

An agent has one membership, at its home business, and the trigger on that row keeps roles with
administrative permissions from it. What the agent holds is decided elsewhere: by the role's lock,
which `Resolve` takes for ownership, and by the role's permission rows, which may change later.
-/
namespace Manyforge.Tenancy

open Table Transition Calls

inductive AgentAction where
  | createAgent (actor business newPrincipal newMembership : UUID)
  | insertMembership (m : Membership)
  | changeMemberRole (actor business target role : UUID)
  | createRole (actor business newId : UUID) (key name : String) (permissions : List String)
  | updateRole (actor business role : UUID) (name : Option String)
      (permissions : Option (List String))
  | deleteRole (actor business role : UUID)

def AgentAction.call (db : Tenants) : AgentAction → Except Refusal Tenants
  | .createAgent actor business newPrincipal newMembership =>
    db.createAgent actor business newPrincipal newMembership
  | .insertMembership m => db.insertMembership m
  | .changeMemberRole actor business target role => db.changeMemberRole actor business target role
  | .createRole actor business newId key name permissions =>
    db.createRole actor business newId key name permissions
  | .updateRole actor business role name permissions =>
    db.updateRole actor business role name permissions
  | .deleteRole actor business role => db.deleteRole actor business role

namespace Tenants

variable (db : Tenants)

def afterAgent (action : AgentAction) : Tenants :=
  match action.call db with
  | .ok db' => db'
  | .error _ => db

def IsAgent (principal : UUID) : Prop := ∃ home root, db.kind? principal = some (.agent home root)

def unarchived (business : UUID) : Bool :=
  db.businesses.any fun b => b.id == business && b.status != .archived

def AgentsUnprivileged : Prop :=
  ∀ agent, db.IsAgent agent → ∀ business, ∀ permission ∈ adminPermissions,
    permission ∉ db.resolve agent business

/-- An agent has at most one membership, at its home business. -/
def AgentsAtHome : Prop :=
  ∀ m ∈ db.memberships, ∀ home root, db.kind? m.principalId = some (.agent home root) →
    m.businessId = home ∧ ∀ other ∈ db.memberships, other.principalId = m.principalId → other = m

/-- A role that would give an agent administrative permissions. -/
def Administers (role : UUID) : Prop :=
  db.lockedRole role = true ∨ ∃ permission ∈ db.permissionsOf role, permission ∈ adminPermissions
  deriving Decidable

/-- The condition under which an action gives no agent an administrative permission: a role that an
agent gets at an unarchived business is not locked, and a role that an agent has at an unarchived
business gets no administrative permission. -/
def AgentPermitted : AgentAction → Prop
  | .createAgent actor business newPrincipal newMembership =>
    (db.createAgent actor business newPrincipal newMembership).isOk = true →
      db.unarchived business = true →
      ∀ role, db.presetRoleId "agent_runtime" = some role → db.lockedRole role = false
  | .insertMembership m =>
    (db.insertMembership m).isOk = true → db.IsAgent m.principalId →
      db.unarchived m.businessId = true → db.lockedRole m.roleId = false
  | .changeMemberRole actor business target role =>
    (db.changeMemberRole actor business target role).isOk = true → db.IsAgent target →
      db.unarchived business = true → db.lockedRole role = false
  | .updateRole actor business role name permissions =>
    (db.updateRole actor business role name permissions).isOk = true →
      ∀ requested, permissions = some requested →
      (∃ m ∈ db.memberships, m.roleId = role ∧ db.IsAgent m.principalId ∧
        db.unarchived m.businessId = true) →
      ∀ permission ∈ requested, trimSpace permission ∉ adminPermissions
  | .createRole .. | .deleteRole .. => True

/-- What the schema and its seeds give: each business is its own ancestor, the catalog has the
administrative permissions, and the roles of memberships exist. -/
structure AgentInv : Prop where
  reflexive : ∀ b ∈ db.businesses, ∃ c ∈ db.closure, c.ancestorId = b.id ∧ c.descendantId = b.id
  catalog : ∀ permission ∈ adminPermissions, permission ∈ db.catalog
  roles : ∀ m ∈ db.memberships, (db.roles.any (·.id == m.roleId)) = true
  atHome : db.AgentsAtHome

instance (principal : UUID) : Decidable (db.IsAgent principal) :=
  match kind : db.kind? principal with
  | some (.agent home root) => .isTrue ⟨home, root, kind⟩
  | some (.human _) | none => .isFalse fun ⟨_, _, agent⟩ => by rw [kind] at agent; cases agent

instance : DecidablePred db.AgentPermitted := fun action => by
  cases action <;> dsimp only [AgentPermitted] <;> infer_instance

variable {db}

/-! ### The memberships that matter -/

variable {business : UUID} {m : Membership} {db' : Tenants} {actor role : UUID}

theorem mem_grants {principal : UUID} :
    m ∈ db.grants principal business ↔ m ∈ db.memberships ∧ m.principalId = principal ∧
      (∃ c ∈ db.closure, c.ancestorId = m.businessId ∧ c.descendantId = business) ∧
      db.unarchived m.businessId = true := by
  simp [grants, unarchived, and_assoc]

/-- No role that an agent has at an unarchived business administers. -/
def AgentRolesHarmless (db : Tenants) : Prop :=
  ∀ m ∈ db.memberships, db.IsAgent m.principalId → db.unarchived m.businessId = true →
    ¬ db.Administers m.roleId

theorem agentsUnprivileged_iff (inv : db.AgentInv) :
    db.AgentsUnprivileged ↔ db.AgentRolesHarmless := by
  constructor
  · intro unprivileged m member agent open_
    have own : ∃ c ∈ db.closure, c.ancestorId = m.businessId ∧ c.descendantId = m.businessId := by
      obtain ⟨b, row, holds⟩ := List.any_eq_true.mp open_
      simp only [Bool.and_eq_true, beq_iff_eq] at holds
      rw [← holds.1]
      exact inv.reflexive b row
    have grant : m ∈ db.grants m.principalId m.businessId :=
      mem_grants.mpr ⟨member, rfl, own, open_⟩
    rintro (locked | ⟨permission, granted, admin⟩)
    · -- A locked role is taken for ownership: the agent has the whole catalog.
      have owner : db.hasOwnerRole m.principalId m.businessId = true :=
        List.any_eq_true.mpr ⟨m, grant, locked⟩
      refine unprivileged m.principalId agent m.businessId "members.manage" (by decide) ?_
      rw [resolve, if_pos owner]
      exact inv.catalog _ (by decide)
    · refine unprivileged m.principalId agent m.businessId permission admin ?_
      unfold resolve
      split
      · exact inv.catalog permission admin
      · exact List.mem_flatMap.mpr ⟨m, grant, granted⟩
  · intro harmless agent isAgent business permission admin held
    unfold resolve at held
    split at held
    next owner =>
      obtain ⟨m, grant, locked⟩ := List.any_eq_true.mp owner
      obtain ⟨member, rfl, -, open_⟩ := mem_grants.mp grant
      exact harmless m member isAgent open_ (.inl locked)
    next =>
    obtain ⟨m, grant, granted⟩ := List.mem_flatMap.mp held
    obtain ⟨member, rfl, -, open_⟩ := mem_grants.mp grant
    exact harmless m member isAgent open_ (.inr ⟨permission, granted, admin⟩)

/-- The trigger keeps roles with administrative permissions from agents, but not locked ones. -/
theorem not_administers_of_guard (guards : db.membershipGuards m = true)
    (agent : db.IsAgent m.principalId) :
    ¬ db.Administers m.roleId ↔ db.lockedRole m.roleId = false := by
  rw [← Bool.not_eq_true]
  refine not_congr (or_iff_left ?_)
  rintro ⟨permission, granted, admin⟩
  obtain ⟨home, root, kind⟩ := agent
  simp only [membershipGuards, agentGuard, kind, Bool.and_eq_true, Bool.not_eq_true'] at guards
  have forbidden : (db.permissionsOf m.roleId).any agentForbidden.contains = true :=
    List.any_eq_true.mpr ⟨permission, granted,
      List.contains_iff_mem.mpr (List.mem_append_left _ admin)⟩
  rw [guards.2.2] at forbidden
  cases forbidden

/-! ### Writes of memberships -/

theorem harmless_congr (memberships : db'.memberships = db.memberships)
    (principals : db'.principals = db.principals) (businesses : db'.businesses = db.businesses)
    (same : ∀ m ∈ db.memberships, db'.Administers m.roleId ↔ db.Administers m.roleId) :
    db'.AgentRolesHarmless ↔ db.AgentRolesHarmless := by
  simp only [AgentRolesHarmless, memberships, IsAgent, kind?, principal?, principals, unarchived,
    businesses]
  refine forall₂_congr fun m member => ?_
  rw [same m member]

theorem kind?_withAgent {new home root : UUID} (fresh : db.principal? new = none) (p : UUID) :
    (db.withAgent new home root).kind? p = if p = new then some (.agent home root) else db.kind? p := by
  simp only [kind?, principal?, withAgent, List.find?_append] at fresh ⊢
  split
  next same =>
    subst same
    simp [fresh]
  next other =>
    have skipped : (new == p) = false := by simpa using Ne.symm other
    simp [skipped]

theorem insert_harmless_iff (harmless : db.AgentRolesHarmless) (call : db.insertMembership m = .ok db') :
    db'.AgentRolesHarmless ↔
      (db.IsAgent m.principalId → db.unarchived m.businessId = true →
        db.lockedRole m.roleId = false) := by
  obtain ⟨-, -, -, guards, rfl⟩ := insertMembership_ok call
  constructor
  · intro after agent open_
    have unharmed := after m (List.mem_append_right _ (List.mem_singleton_self m)) agent open_
    exact (not_administers_of_guard guards agent).mp unharmed
  · intro permitted other member agent open_
    rcases mem_inserted.mp member with old | rfl
    · exact harmless other old agent open_
    · exact (not_administers_of_guard guards agent).mpr (permitted agent open_)

theorem agent_unnamed (agent : db.IsAgent m.principalId) (call : db.insertMembership m = .ok db') :
    ∀ other ∈ db.memberships, other.principalId ≠ m.principalId := by
  intro other member same
  obtain ⟨-, -, ids, guards, -⟩ := insertMembership_ok call
  obtain ⟨home, root, kind⟩ := agent
  simp only [membershipGuards, agentGuard, kind, Bool.and_eq_true, Bool.not_eq_true'] at guards
  have named : (db.memberships.any fun other =>
      other.principalId == m.principalId && other.id != m.id) = true :=
    List.any_eq_true.mpr ⟨other, member, by simp [same, ids other member]⟩
  rw [guards.2.1.2] at named
  cases named

theorem createAgent_harmless_iff {newPrincipal newMembership : UUID} (harmless : db.AgentRolesHarmless)
    (call : db.createAgent actor business newPrincipal newMembership = .ok db') :
    db'.AgentRolesHarmless ↔ (db.unarchived business = true →
      ∀ role, db.presetRoleId "agent_runtime" = some role → db.lockedRole role = false) := by
  obtain ⟨b, role, -, preset, fresh, inserted⟩ := createAgent_ok call
  have isAgent : (db.withAgent newPrincipal business b.tenantRootId).IsAgent newPrincipal :=
    ⟨business, b.tenantRootId, by rw [kind?_withAgent fresh, if_pos rfl]⟩
  have unnamed : ∀ m ∈ db.memberships, m.principalId ≠ newPrincipal :=
    agent_unnamed isAgent inserted
  have before : (db.withAgent newPrincipal business b.tenantRootId).AgentRolesHarmless := by
    intro m member agent
    obtain ⟨home, root, kind⟩ := agent
    rw [kind?_withAgent fresh, if_neg (unnamed m member)] at kind
    exact harmless m member ⟨home, root, kind⟩
  rw [insert_harmless_iff before inserted]
  constructor
  · intro permitted open_ role' preset'
    obtain rfl := Option.some.inj (preset.symm.trans preset')
    exact permitted isAgent open_
  · intro permitted _ open_
    exact permitted open_ role preset

theorem membershipAt_some {principal : UUID} (found : db.membershipAt principal business = some m) :
    m ∈ db.memberships ∧ m.principalId = principal ∧ m.businessId = business :=
  of_find?_keys found

theorem change_harmless_iff {target : UUID} (harmless : db.AgentRolesHarmless)
    (call : db.changeMemberRole actor business target role = .ok db') :
    db'.AgentRolesHarmless ↔ (db.IsAgent target → db.unarchived business = true →
      db.lockedRole role = false) := by
  obtain ⟨b, newRole, current, -, -, -, found, same | changed⟩ := changeMemberRole_ok call
  · obtain ⟨same, rfl⟩ := same
    refine iff_of_true harmless fun agent open_ => ?_
    obtain ⟨member, rfl, rfl⟩ := membershipAt_some found
    have unharmed := harmless current member agent open_
    rw [same] at unharmed
    simpa using fun locked => unharmed (.inl locked)
  obtain ⟨-, -, update⟩ := changed
  obtain ⟨guards, rfl⟩ := updateMembershipRole_ok update
  obtain ⟨member, isTarget, atBusiness⟩ := membershipAt_some found
  have guarded := guards current member isTarget atBusiness
  constructor
  · intro after agent open_
    have moved : reassigned current role actor ∈
        reassign target business role actor db.memberships :=
      mem_updateWhere.mpr ⟨current, member, by simp [isTarget, atBusiness]⟩
    have unharmed := after _ moved (isTarget ▸ agent) (atBusiness ▸ open_)
    exact (not_administers_of_guard guarded (isTarget ▸ agent)).mp unharmed
  · intro permitted m moved agent open_
    obtain ⟨old, old_mem, ⟨chosen, rfl⟩ | ⟨-, rfl⟩⟩ := updated_or_kept moved
    · simp only [Bool.and_eq_true, beq_iff_eq] at chosen
      refine (not_administers_of_guard (guards old old_mem chosen.1 chosen.2) agent).mpr ?_
      exact permitted (chosen.1 ▸ agent) (chosen.2 ▸ open_)
    · exact harmless old old_mem agent open_

/-! ### Writes of roles -/

theorem mem_clean {requested clean : List String}
    (granted : db.validateGrantable actor business requested = .ok clean) {permission : String} :
    permission ∈ clean ↔ permission ≠ "" ∧ ∃ key ∈ requested, trimSpace key = permission := by
  simp only [validateGrantable, refuse_ok, Except.ok.injEq] at granted
  obtain ⟨-, -, rfl⟩ := granted
  simp [and_comm]

theorem permissionsOf_set {permissions : List String} (other : UUID) :
    ({ db with rolePermissions := db.setRolePermissions role permissions }).permissionsOf other =
      if other = role then permissions else db.permissionsOf other := by
  simp only [permissionsOf, setRolePermissions, List.filter_append, List.filter_filter,
    List.map_append]
  split
  next same =>
    subst same
    simp [List.filter_map, Function.comp_def]
  next other_ne =>
  have kept : ∀ r : RolePermission, (r.roleId == other && r.roleId != role) =
      (r.roleId == other) := by
    intro r
    by_cases isOther : r.roleId = other
    · simp [isOther, other_ne]
    · simp [isOther]
  have none : (role == other) = false := by simpa using Ne.symm other_ne
  simp [kept, List.filter_map, Function.comp_def, none]

theorem createRole_harmless_iff {newId : UUID} {key name : String} {permissions : List String}
    (inv : db.AgentInv) (call : db.createRole actor business newId key name permissions = .ok db') :
    db'.AgentRolesHarmless ↔ db.AgentRolesHarmless := by
  obtain ⟨b, clean, -, -, -, fresh, rfl⟩ := createRole_ok call
  refine harmless_congr rfl rfl rfl fun m member => ?_
  -- The new id is no role's yet, so it is not this membership's.
  have other : newId ≠ m.roleId := by
    rintro rfl
    obtain ⟨r, row, same⟩ := List.any_eq_true.mp (inv.roles m member)
    exact List.find?_eq_none.mp fresh r row same
  have skipped : (newId == m.roleId) = false := by simpa using other
  simp [Administers, lockedRole, permissionsOf, List.filter_map, Function.comp_def, skipped]

theorem deleteRole_harmless_iff (call : db.deleteRole actor business role = .ok db') :
    db'.AgentRolesHarmless ↔ db.AgentRolesHarmless := by
  obtain ⟨unused, rfl⟩ := deleteRole_ok call
  refine harmless_congr rfl rfl rfl fun m member => ?_
  have other := unused m member
  have locked : (db.roles.filter (·.id != role)).any (fun r => r.id == m.roleId && r.isLocked) =
      db.roles.any fun r => r.id == m.roleId && r.isLocked := by
    rw [List.any_filter]
    congr 1
    funext r
    by_cases same : r.id = m.roleId <;> simp [same, other]
  have permissions : (db.rolePermissions.filter (·.roleId != role)).filter
      (·.roleId == m.roleId) = db.rolePermissions.filter (·.roleId == m.roleId) := by
    rw [List.filter_filter]
    congr 1
    funext r
    by_cases same : r.roleId = m.roleId <;> simp [same, other]
  simp only [Administers, lockedRole, permissionsOf, locked, permissions]

theorem updateRole_harmless_iff {name : Option String} {permissions : Option (List String)}
    (harmless : db.AgentRolesHarmless)
    (call : db.updateRole actor business role name permissions = .ok db') :
    db'.AgentRolesHarmless ↔ ∀ requested, permissions = some requested →
      (∃ m ∈ db.memberships, m.roleId = role ∧ db.IsAgent m.principalId ∧
        db.unarchived m.businessId = true) →
      ∀ permission ∈ requested, trimSpace permission ∉ adminPermissions := by
  obtain ⟨b, roles, -, -, -, renames, ⟨rfl, rfl⟩ | ⟨requested, clean, rfl, granted, rfl⟩⟩ :=
    updateRole_ok call
  · have same : ({ db with roles }).AgentRolesHarmless ↔ db.AgentRolesHarmless := by
      refine harmless_congr rfl rfl rfl fun m _ => ?_
      simp only [Administers, lockedRole, permissionsOf, renames.any_locked]
    refine iff_of_true (same.mpr harmless) ?_
    intro requested none
    cases none
  -- Roles keep their locks; only the rows of `role` change.
  have administers (other : UUID) :
      ({ db with roles, rolePermissions := db.setRolePermissions role clean }).Administers other ↔
        db.lockedRole other = true ∨ ∃ permission ∈ if other = role then clean
          else db.permissionsOf other, permission ∈ adminPermissions := by
    rw [← permissionsOf_set]
    simp only [Administers, lockedRole, renames.any_locked]
    rfl
  constructor
  · rintro after _ ⟨⟩ ⟨m, member, rfl, agent, open_⟩ key asked admin
    refine after m member agent open_ ((administers m.roleId).mpr (.inr ⟨trimSpace key, ?_, admin⟩))
    rw [if_pos rfl, mem_clean granted]
    refine ⟨fun empty => ?_, key, asked, rfl⟩
    rw [empty] at admin
    exact absurd admin (by decide)
  · intro permitted m member agent open_ admin
    rcases (administers m.roleId).mp admin with locked | ⟨permission, has, isAdmin⟩
    · exact harmless m member agent open_ (.inl locked)
    · split at has
      next same =>
        obtain ⟨-, key, asked, rfl⟩ := (mem_clean granted).mp has
        exact permitted requested rfl ⟨m, member, same, agent, open_⟩ key asked isAdmin
      next => exact harmless m member agent open_ (.inr ⟨permission, has, isAdmin⟩)

/-! ### The invariant -/

theorem insert_atHome (atHome : db.AgentsAtHome) (call : db.insertMembership m = .ok db') :
    db'.AgentsAtHome := by
  have unnamed (agent : db.IsAgent m.principalId) := agent_unnamed agent call
  obtain ⟨-, -, -, guards, rfl⟩ := insertMembership_ok call
  intro mine member home root kind
  rcases mem_inserted.mp member with old | rfl
  · obtain ⟨lives, alone⟩ := atHome mine old home root kind
    refine ⟨lives, fun other other_mem same => ?_⟩
    rcases mem_inserted.mp other_mem with older | rfl
    · exact alone other older same
    · -- The new row would be a second one of this agent.
      exact absurd same.symm (unnamed ⟨home, root, same ▸ kind⟩ mine old)
  · refine ⟨?_, fun other other_mem same => ?_⟩
    · simp only [membershipGuards, agentGuard, show db.kind? mine.principalId = _ from kind,
        Bool.and_eq_true, beq_iff_eq] at guards
      exact guards.2.1.1
    · rcases mem_inserted.mp other_mem with older | new
      · exact absurd same (unnamed ⟨home, root, kind⟩ other older)
      · exact new

variable (inv : db.AgentInv)

include inv

theorem AgentInv.insert (call : db.insertMembership m = .ok db') : db'.AgentInv := by
  have atHome := insert_atHome inv.atHome call
  obtain ⟨exists_, -, -, -, rfl⟩ := insertMembership_ok call
  refine ⟨inv.reflexive, inv.catalog, fun other member => ?_, atHome⟩
  rcases mem_inserted.mp member with old | rfl
  · exact inv.roles other old
  · simpa [role?, List.find?_isSome] using exists_

theorem AgentInv.createAgent {newPrincipal newMembership : UUID}
    (call : db.createAgent actor business newPrincipal newMembership = .ok db') : db'.AgentInv := by
  obtain ⟨b, role, -, -, fresh, inserted⟩ := createAgent_ok call
  have isAgent : (db.withAgent newPrincipal business b.tenantRootId).IsAgent newPrincipal :=
    ⟨business, b.tenantRootId, by rw [kind?_withAgent fresh, if_pos rfl]⟩
  have before : (db.withAgent newPrincipal business b.tenantRootId).AgentInv := by
    refine ⟨inv.reflexive, inv.catalog, inv.roles, fun m member home root kind => ?_⟩
    rw [kind?_withAgent fresh, if_neg (agent_unnamed isAgent inserted m member)] at kind
    exact inv.atHome m member home root kind
  exact before.insert inserted

theorem AgentInv.changeMemberRole {target : UUID}
    (call : db.changeMemberRole actor business target role = .ok db') : db'.AgentInv := by
  obtain ⟨b, newRole, current, -, -, assignable, -, ⟨-, rfl⟩ | ⟨-, -, update⟩⟩ :=
    changeMemberRole_ok call
  · exact inv
  obtain ⟨-, rfl⟩ := updateMembershipRole_ok update
  have exists_ : (db.roles.any (·.id == role)) = true := by
    obtain ⟨row, isRole, -⟩ := of_find?_key assignable
    exact List.any_eq_true.mpr ⟨newRole, row, by simpa using isRole⟩
  refine ⟨inv.reflexive, inv.catalog, fun m moved => ?_, fun m moved home root kind => ?_⟩
  · obtain ⟨old, member, rfl⟩ := mem_updateWhere.mp moved
    split
    · exact exists_
    · exact inv.roles old member
  · -- A row keeps its principal, so two rows of one agent come from two rows of that agent.
    obtain ⟨old, member, rfl⟩ := mem_updateWhere.mp moved
    have principal (m : Membership) : (if (m.principalId == target && m.businessId == business) = true
        then reassigned m role actor else m).principalId = m.principalId := by
      split <;> rfl
    rw [principal] at kind
    obtain ⟨lives, alone⟩ := inv.atHome old member home root kind
    refine ⟨?_, fun other moved' same => ?_⟩
    · split
      · exact lives
      · exact lives
    · obtain ⟨older, member', rfl⟩ := mem_updateWhere.mp moved'
      rw [principal, principal] at same
      rw [alone older member' same]

theorem AgentInv.of_roles {roles : List Role} {rolePermissions : List RolePermission}
    (exist : ∀ m ∈ db.memberships, (roles.any (·.id == m.roleId)) = true) :
    ({ db with roles, rolePermissions }).AgentInv :=
  ⟨inv.reflexive, inv.catalog, exist, inv.atHome⟩

theorem AgentInv.after (action : AgentAction) : (db.afterAgent action).AgentInv := by
  unfold afterAgent
  split
  next db' call =>
    cases action with
    | createAgent actor business newPrincipal newMembership => exact inv.createAgent call
    | insertMembership m => exact inv.insert call
    | changeMemberRole actor business target role => exact inv.changeMemberRole call
    | createRole actor business newId key name permissions =>
      unfold AgentAction.call at call
      obtain ⟨b, clean, -, -, -, -, rfl⟩ := createRole_ok call
      refine inv.of_roles fun m member => ?_
      rw [List.any_append, inv.roles m member, Bool.true_or]
    | updateRole actor business role name permissions =>
      obtain ⟨b, roles, -, -, -, renames, ⟨-, rfl⟩ | ⟨requested, clean, -, -, rfl⟩⟩ :=
        updateRole_ok call
      · exact inv.of_roles fun m member => by rw [renames.any_id, inv.roles m member]
      · exact inv.of_roles fun m member => by rw [renames.any_id, inv.roles m member]
    | deleteRole actor business role =>
      obtain ⟨unused, rfl⟩ := deleteRole_ok call
      refine inv.of_roles fun m member => ?_
      obtain ⟨r, row, same⟩ := List.any_eq_true.mp (inv.roles m member)
      have kept : r.id ≠ role := fun isRole => unused m member (by
        rw [← isRole]
        exact (beq_iff_eq.mp same).symm)
      exact List.any_eq_true.mpr ⟨r, List.mem_filter.mpr ⟨row, by simpa using kept⟩, same⟩
  next => exact inv

/-- Agents stay harmless exactly when the action is permitted. -/
theorem afterAgent_harmless_iff (harmless : db.AgentRolesHarmless) (action : AgentAction) :
    (db.afterAgent action).AgentRolesHarmless ↔ db.AgentPermitted action := by
  unfold afterAgent
  split
  next db' call =>
    have accepted : (action.call db).isOk = true := by rw [call]; rfl
    cases action with
    | createAgent actor business newPrincipal newMembership =>
      exact (createAgent_harmless_iff harmless call).trans (imp_iff_right accepted).symm
    | insertMembership m => exact (insert_harmless_iff harmless call).trans (imp_iff_right accepted).symm
    | changeMemberRole actor business target role =>
      exact (change_harmless_iff harmless call).trans (imp_iff_right accepted).symm
    | createRole actor business newId key name permissions =>
      unfold AgentAction.call at call
      exact iff_of_true ((createRole_harmless_iff inv call).mpr harmless) trivial
    | updateRole actor business role name permissions =>
      exact (updateRole_harmless_iff harmless call).trans (imp_iff_right accepted).symm
    | deleteRole actor business role =>
      exact iff_of_true ((deleteRole_harmless_iff call).mpr harmless) trivial
  next refusal call =>
  refine iff_of_true harmless ?_
  cases action with
  | createRole | deleteRole => trivial
  | createAgent | insertMembership | changeMemberRole | updateRole =>
    intro accepted
    simp only [AgentAction.call] at call
    rw [call] at accepted
    cases accepted

end Tenants

/-- Along every run, an agent has at most its one membership at home. No agent holds an
administrative permission after any call of it exactly when each call meets the condition. -/
theorem agents_unprivileged_iff {db : Tenants} (start : db.AgentInv)
    (unprivileged : db.AgentsUnprivileged) (actions : List AgentAction) :
    Along Tenants.afterAgent (fun db action => (db.afterAgent action).AgentsAtHome) db actions ∧
      (Along Tenants.afterAgent (fun db action => (db.afterAgent action).AgentsUnprivileged) db actions ↔
        Along Tenants.afterAgent Tenants.AgentPermitted db actions) := by
  constructor
  · exact Along.of_kept (fun _ action inv => inv.after action)
      (fun _ action inv => (inv.after action).atHome) start actions
  · refine Along.iff_of_step Tenants.AgentsUnprivileged (fun db action inv good => ?_)
      (fun _ action inv => inv.after action) start unprivileged
    rw [Tenants.agentsUnprivileged_iff (inv.after action)]
    exact Tenants.afterAgent_harmless_iff inv ((Tenants.agentsUnprivileged_iff inv).mp good) action

namespace Sample

/-- A master business with its Owner, and an agent of it that has no membership yet. -/
def acme : Tenants :=
  { Seeds.tables with
    businesses := [⟨10, none, 10, "Acme", .active, none, 0⟩]
    closure := [⟨10, 10, 0, 10⟩]
    principals := [⟨20, .human 30⟩, ⟨21, .agent 10 10⟩]
    accounts := [⟨30, "ada@acme.test", some 0, .active, none⟩]
    memberships := [⟨40, 20, 10, 10, Seeds.owner, none⟩] }

theorem acme_inv : acme.AgentInv where
  reflexive := by decide
  catalog := by decide +kernel
  roles := by decide +kernel
  atHome := by
    intro m member home root kind
    obtain rfl := List.mem_singleton.mp member
    cases kind

theorem acme_unprivileged : acme.AgentsUnprivileged := by
  refine (Tenants.agentsUnprivileged_iff acme_inv).mpr ?_
  unfold Tenants.AgentRolesHarmless
  decide +kernel

/-- A role for the agent, widened and taken back. -/
theorem agents_unprivileged_responder :
    Along Tenants.afterAgent (fun db action => (db.afterAgent action).AgentsUnprivileged) acme
      [.createRole 20 10 50 "responder" "Responder" ["tickets.reply"],
        .insertMembership ⟨41, 21, 10, 10, 50, some 20⟩,
        .updateRole 20 10 50 none (some ["tickets.reply", " tickets.read "]),
        .changeMemberRole 20 10 21 Seeds.viewer, .deleteRole 20 10 50] :=
  (agents_unprivileged_iff acme_inv acme_unprivileged _).2.mpr (by decide +kernel)

/-- The role that every new agent gets is locked, so `Resolve` takes the agent for an Owner. And
after the agent has a custom role, an edit of that role adds what the trigger would have refused. -/
theorem agent_administers :
    (acme.AgentInv ∧ acme.AgentsUnprivileged) ∧
      (let created := acme.afterAgent (.createAgent 20 10 22 42)
       created.IsAgent 22 ∧ created.resolve 22 10 = Seeds.catalog ∧
        ∀ permission ∈ adminPermissions, permission ∈ Seeds.catalog) ∧
      let edited := [AgentAction.createRole 20 10 50 "responder" "Responder" ["tickets.reply"],
        .insertMembership ⟨41, 21, 10, 10, 50, some 20⟩,
        .updateRole 20 10 50 none (some ["tickets.reply", "members.manage"])].foldl
          Tenants.afterAgent acme
      edited.IsAgent 21 ∧ edited.resolve 21 10 = ["tickets.reply", "members.manage"] :=
  ⟨⟨acme_inv, acme_unprivileged⟩, by decide +kernel, by decide +kernel⟩

end Sample

end Manyforge.Tenancy
