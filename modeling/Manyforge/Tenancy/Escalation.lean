import Manyforge.Tenancy.Grants

/-!
# Permissions that a call hands on

A call is to give nobody a permission at a business where the one who makes it lacks it. Roles are
of the whole tenant and permissions flow down the hierarchy, but the checks look at one business:
what an edited role, an accepted invitation, a moved or a restored business gives is compared here
with what the actor held at every business that it reaches.
-/
namespace Manyforge.Tenancy

open Table Forest Transition Tenants

namespace GrantState

variable (service : InvitationService) (s : GrantState) (action : GrantAction)

/-- The permissions at a business that a call may hand on: those of its actor; for an acceptance,
those that the inviter had when the invitation was created. -/
def authority (business : UUID) : List String :=
  match action with
  | .accept _ token _ _ =>
    match (s.db.invitation? (service.hashToken (trimSpace token))).bind s.origin with
    | some (inviter, tables) => tables.resolve inviter business
    | none => []
  | _ => s.db.resolve action.actor business

/-- Whoever comes to hold a permission at a business gets one that the authority had there. -/
def NoEscalation : Prop :=
  ∀ principal business key, s.db.Known business →
    key ∈ (s.next service action).db.resolve principal business →
    key ∉ s.db.resolve principal business → key ∈ s.authority service action business

/-- At each of the businesses, each of the keys is held by `principal` or is one to hand on. -/
def Within (businesses : List UUID) (principal : UUID) (keys : List String) : Prop :=
  ∀ business ∈ businesses, ∀ key ∈ keys,
    key ∈ s.db.resolve principal business ∨ key ∈ s.authority service action business
  deriving Decidable

/-- An archived business that a restoration reaches. -/
def restorable (business : UUID) : Bool :=
  s.db.businesses.any fun b => b.id == business && b.status == .archived && b.deletedAt.isNone

def requestedKeys (permissions : Option (List String)) : List String :=
  ((permissions.getD []).map trimSpace).filter (· != "")

/-- The condition on the state before a call under which it hands on nothing that its actor lacks.
An edited role is looked at wherever it is assigned, an invitation at every business below its own,
and a moved or restored business with all memberships that come to count in it. -/
def Restrained : Prop :=
  (action.call service s.db).isOk = true →
  match action with
  | .updateRole _ _ role _ permissions =>
    ∀ m ∈ s.db.memberships, m.roleId = role → s.db.unarchived m.businessId = true →
      s.Within service action (s.db.below m.businessId) m.principalId (requestedKeys permissions)
  | .accept principal token membership now =>
    (s.db.accept service principal token membership now).map Prod.fst = .ok .ok →
      ∀ inv ∈ s.db.invitation? (service.hashToken (trimSpace token)),
        s.db.membershipAt principal inv.businessId = none →
        s.Within service action (s.db.below inv.businessId) principal (s.db.conveys inv.roleId)
  | .move _ node newParent _ =>
    ∀ m ∈ s.db.memberships, s.db.unarchived m.businessId = true →
      newParent ∈ s.db.below m.businessId →
      s.Within service action (s.db.below node) m.principalId (s.db.conveys m.roleId)
  | .restore _ node _ =>
    ∀ m ∈ s.db.memberships, m.businessId ∈ s.db.below node → s.restorable m.businessId = true →
      s.Within service action (s.db.below m.businessId) m.principalId (s.db.conveys m.roleId)
  | _ => True

instance : DecidablePred (s.Restrained service)
  | .updateRole .. | .move .. | .restore .. =>
    inferInstanceAs (Decidable (_ → ∀ m ∈ s.db.memberships, _ → _ → _))
  | .accept .. => inferInstanceAs (Decidable (_ → _ → ∀ inv ∈ s.db.invitation? _, _ → _))
  | .createMaster .. | .createSub .. | .archive .. | .createRole .. | .changeMemberRole ..
  | .transferOwnership .. | .createInvitation .. | .revokeInvitation .. | .resendInvitation .. =>
    .isTrue fun _ => trivial

end GrantState

namespace Tenants

variable {db db' : Tenants}

/-! ### Permissions flow down -/

variable {a business : UUID} {key : String} {actor : UUID} {now : Timestamp} (inv : db.GrantInv)

include inv

theorem below_trans {b d : UUID} (upper : b ∈ db.below a) (lower : d ∈ db.below b) :
    d ∈ db.below a := by
  obtain ⟨i, listed⟩ := mem_below.mp upper
  obtain ⟨j, listed'⟩ := mem_below.mp lower
  obtain ⟨-, toA⟩ := (inv.hierarchy.closure _ _ _).mp listed
  obtain ⟨known, toB⟩ := (inv.hierarchy.closure _ _ _).mp listed'
  exact mem_below.mpr ((inv.hierarchy.lists_iff known).mpr (.trans ⟨i, toA⟩ ⟨j, toB⟩))

theorem known_of_below {d : UUID} (lower : d ∈ db.below a) : db.Known d := by
  obtain ⟨n, listed⟩ := mem_below.mp lower
  exact ((inv.hierarchy.closure _ _ _).mp listed).1

/-- What a membership conveys, its holder has at every business below. -/
theorem GrantInv.held {m : Membership} (member : m ∈ db.memberships)
    (open_ : db.unarchived m.businessId = true) (covers : business ∈ db.below m.businessId)
    (conveyed : key ∈ db.conveys m.roleId) : key ∈ db.resolve m.principalId business :=
  (mem_resolve inv.catalogued).mpr ⟨m, member, rfl, covers, open_, conveyed⟩

theorem resolve_below {principal b : UUID} (lower : b ∈ db.below a)
    (held : key ∈ db.resolve principal a) : key ∈ db.resolve principal b := by
  obtain ⟨m, member, isPrincipal, covers, open_, conveyed⟩ := (mem_resolve inv.catalogued).mp held
  exact (mem_resolve inv.catalogued).mpr
    ⟨m, member, isPrincipal, below_trans inv covers lower, open_, conveyed⟩

/-! ### Roles -/

theorem lockedRole_eq {r : Role} (row : r ∈ db.roles) : db.lockedRole r.id = r.isLocked := by
  have only (other : Role) (row' : other ∈ db.roles) (same : other.id = r.id) : other = r :=
    inv.roleIds.eq_of_key row' row same
  cases locked : r.isLocked with
  | true => exact List.any_eq_true.mpr ⟨r, row, by simp [locked]⟩
  | false =>
    refine List.any_eq_false.mpr fun other row' => ?_
    by_cases same : other.id = r.id
    · simp [only other row' same, locked]
    · simp [same]

theorem custom_unlocked {role root : UUID}
    (custom : (db.customRole? role root).isSome = true) : db.lockedRole role = false := by
  obtain ⟨r, found⟩ := Option.isSome_iff_exists.mp custom
  obtain ⟨row, rfl, tenant⟩ := of_find?_keys found
  rw [lockedRole_eq inv row]
  by_contra locked
  have preset := inv.presets r row (by simpa using locked)
  rw [tenant] at preset
  cases preset

theorem guardEscalation_ok {r : Role} (row : r ∈ db.roles)
    (guarded : db.guardEscalation actor business r = .ok ()) (conveyed : key ∈ db.conveys r.id) :
    key ∈ db.resolve actor business := by
  unfold guardEscalation at guarded
  rw [conveys, lockedRole_eq inv row] at conveyed
  split at guarded
  next locked =>
    rw [if_pos locked] at conveyed
    split at guarded
    next owner => rwa [resolve, if_pos owner]
    next => cases guarded
  next unlocked =>
  rw [if_neg unlocked] at conveyed
  split at guarded
  next held => simpa using List.all_eq_true.mp held key conveyed
  next => cases guarded

omit inv in
theorem catalog_of_owner (owner : db.hasOwnerRole actor business = true) :
    db.resolve actor business = db.catalog := if_pos owner

variable {name : String}

theorem conveys_createRole {newId : UUID} {root : Option UUID} {clean : List String}
    (fresh : db.role? newId = none) {m : Membership} (member : m ∈ db.memberships) :
    ({ db with
      roles := db.roles ++ [⟨newId, root, key, name, false⟩]
      rolePermissions := db.rolePermissions ++ clean.map (⟨newId, ·⟩) } : Tenants).conveys m.roleId =
      db.conveys m.roleId := by
  have other : (newId == m.roleId) = false := by
    obtain ⟨r, row, isRole⟩ := inv.roles m member
    refine beq_eq_false_iff_ne.mpr fun same => List.find?_eq_none.mp fresh r row ?_
    simp [isRole, same]
  simp [conveys, lockedRole, permissionsOf, List.filter_map, Function.comp_def, other]

omit inv in
theorem conveys_renamed {roles : List Role} (renames : Renames db.roles roles) (role : UUID) :
    ({ db with roles } : Tenants).conveys role = db.conveys role := by
  have locked : ({ db with roles } : Tenants).lockedRole role = db.lockedRole role :=
    renames.any_locked role
  simp only [conveys, locked]
  rfl

omit inv in
theorem conveys_set {roles : List Role} (renames : Renames db.roles roles) {role : UUID}
    (unlocked : db.lockedRole role = false) (clean : List String) (other : UUID) :
    ({ db with roles, rolePermissions := db.setRolePermissions role clean } :
      Tenants).conveys other = if other = role then clean else db.conveys other := by
  have locked : ({ db with roles, rolePermissions := db.setRolePermissions role clean } :
      Tenants).lockedRole other = db.lockedRole other := renames.any_locked other
  have permissions : ({ db with roles, rolePermissions := db.setRolePermissions role clean } :
      Tenants).permissionsOf other = if other = role then clean else db.permissionsOf other :=
    permissionsOf_set other
  simp only [conveys, locked, permissions]
  split
  next isLocked =>
    have differs : other ≠ role := by
      rintro rfl
      rw [unlocked] at isLocked
      cases isLocked
    rw [if_neg differs]
  next => rfl

/-! ### Businesses -/

theorem resolve_of_added (inv' : db'.GrantInv) {b : Business} {rows : List Path}
    {new : List Membership} (fresh : ¬ db.Known b.id) (businesses : db'.businesses = db.businesses ++ [b])
    (closure : db'.closure = db.closure ++ rows) (into : ∀ c ∈ rows, c.descendantId = b.id)
    (memberships : db'.memberships = db.memberships ++ new)
    (conveys : ∀ role, db'.conveys role = db.conveys role)
    (at_ : ∀ m ∈ new, m.businessId = b.id) {principal : UUID} (known : db.Known business)
    (held : key ∈ db'.resolve principal business) : key ∈ db.resolve principal business := by
  have lower {a d : UUID} (isKnown : db.Known d) (listed : d ∈ db'.below a) : d ∈ db.below a := by
    obtain ⟨n, c, row, isA, isD, -⟩ := mem_below.mp listed
    rw [closure] at row
    rcases List.mem_append.mp row with old | added
    · exact mem_below.mpr ⟨c.depth, c, old, isA, isD, rfl⟩
    · have isNew : d = b.id := isD.symm.trans (into c added)
      exact absurd (isNew ▸ isKnown) fresh
  obtain ⟨m, member, rfl, covers, open_, conveyed⟩ := (mem_resolve inv'.catalogued).mp held
  have covers' := lower known covers
  -- Whoever is above a known business is known, so the membership is none of the new ones.
  have knownAbove : db.Known m.businessId := by
    obtain ⟨n, listed⟩ := mem_below.mp covers'
    obtain ⟨-, reached⟩ := (inv.hierarchy.closure _ _ _).mp listed
    exact up_node inv.hierarchy.upward known reached
  rw [memberships] at member
  rcases List.mem_append.mp member with old | added
  · refine inv.held old ?_ covers' (conveys _ ▸ conveyed)
    have other : (b.id == m.businessId) = false :=
      beq_eq_false_iff_ne.mpr fun same => fresh (same ▸ knownAbove)
    simpa [unarchived, businesses, other] using open_
  · exact absurd (at_ m added ▸ knownAbove) fresh

omit inv in
theorem unarchived_iff {id : UUID} :
    db.unarchived id = true ↔ ∃ b ∈ db.businesses, b.id = id ∧ b.status = .active := by
  simp only [unarchived, List.any_eq_true, Bool.and_eq_true, beq_iff_eq, bne_iff_ne]
  refine exists_congr fun b => and_congr_right fun _ => and_congr_right fun _ => ?_
  cases b.status <;> simp

omit inv in
theorem unarchived_archive {node id : UUID}
    (open_ : (db.setSubtreeStatus node .archived now).unarchived id = true) :
    db.unarchived id = true := by
  obtain ⟨b', row, isId, active⟩ := unarchived_iff.mp open_
  obtain ⟨b, old, ⟨-, rfl⟩ | ⟨-, rfl⟩⟩ := updated_or_kept row
  · cases active
  · exact unarchived_iff.mpr ⟨b, old, isId, active⟩

omit inv in
theorem isDescendant_iff {d : UUID} : db.isDescendant a d = true ↔ d ∈ db.below a := by
  simp [isDescendant, below, and_assoc]

omit inv in
theorem unarchived_restore {node id : UUID} :
    (db.setSubtreeStatus node .active now).unarchived id = true ↔ db.unarchived id = true ∨
      id ∈ db.below node ∧ ∃ b ∈ db.businesses, b.id = id ∧ b.status = .archived ∧
        b.deletedAt = none := by
  rw [unarchived_iff, unarchived_iff]
  constructor
  · rintro ⟨b', row, isId, active⟩
    obtain ⟨b, old, ⟨chosen, rfl⟩ | ⟨-, rfl⟩⟩ := updated_or_kept row
    · simp only [Bool.and_eq_true, Option.isNone_iff_eq_none] at chosen isId
      cases status : b.status with
      | active => exact .inl ⟨b, old, isId, status⟩
      | archived =>
        exact .inr ⟨isId ▸ isDescendant_iff.mp chosen.1, b, old, isId, status, chosen.2⟩
    · exact .inl ⟨b, old, isId, active⟩
  · rintro (⟨b, row, isId, active⟩ | ⟨lower, b, row, rfl, -, live⟩)
    · refine ⟨_, mem_updateWhere.mpr ⟨b, row, rfl⟩, ?_⟩
      split
      · exact ⟨isId, rfl⟩
      · exact ⟨isId, active⟩
    · refine ⟨_, mem_updateWhere.mpr ⟨b, row, rfl⟩, ?_⟩
      have chosen : (db.isDescendant node b.id && b.deletedAt.isNone) = true := by
        simp [isDescendant_iff.mpr lower, live]
      rw [if_pos chosen]
      exact ⟨rfl, rfl⟩

theorem mem_below_moved {node newParent tenant d : UUID}
    (call : db.moveBusiness node newParent tenant now = .ok db') (knownNode : db.Known node)
    (knownParent : db.Known newParent) (outside : ¬ Below db.parentOf node newParent) :
    d ∈ db'.below a ↔ d ∈ db.below a ∧ (d ∈ db.below node → a ∈ db.below node) ∨
      newParent ∈ db.below a ∧ d ∈ db.below node := by
  have self : ∃ k, db.Lists node node k := (inv.hierarchy.lists_iff knownNode).mpr (.refl node)
  have apart : ¬ ∃ k, db.Lists node newParent k := by
    rw [inv.hierarchy.lists_iff knownParent]
    exact outside
  obtain ⟨-, -, rfl⟩ := moveBusiness_ok call
  have listed (n : Nat) : ({ db with
      businesses := reparented node newParent now db.businesses
      closure := db.detached node ++ db.movedPaths node newParent tenant } : Tenants).Lists a d n ↔
      db.ListsGrafted node newParent a d n := lists_moved apart self
  constructor
  · intro lower
    obtain ⟨n, row⟩ := mem_below.mp lower
    rcases (listed n).mp row with ⟨old, kept⟩ | ⟨i, j, upper, lower, -⟩
    · exact .inl ⟨mem_below.mpr ⟨n, old⟩, fun inside => mem_below.mpr (kept (mem_below.mp inside))⟩
    · exact .inr ⟨mem_below.mpr ⟨i, upper⟩, mem_below.mpr ⟨j, lower⟩⟩
  · rintro (⟨old, kept⟩ | ⟨upper, lower⟩)
    · obtain ⟨n, row⟩ := mem_below.mp old
      exact mem_below.mpr ⟨n, (listed n).mpr
        (.inl ⟨row, fun inside => mem_below.mp (kept (mem_below.mpr inside))⟩)⟩
    · obtain ⟨i, row⟩ := mem_below.mp upper
      obtain ⟨j, row'⟩ := mem_below.mp lower
      exact mem_below.mpr ⟨_, (listed _).mpr (.inr ⟨i, j, row, row', rfl⟩)⟩

/-! ### What each call hands on -/

/-- A change of the tables that gives nobody more than `authority` has at the business. -/
def Hands (db db' : Tenants) (authority : UUID → List String) : Prop :=
  ∀ principal business key, db.Known business → key ∈ db'.resolve principal business →
    key ∉ db.resolve principal business → key ∈ authority business

variable {authority : UUID → List String}

omit inv in
theorem hands_of_memberships (inv' : db'.GrantInv)
    (each : ∀ m ∈ db'.memberships, db'.unarchived m.businessId = true →
      ∀ business ∈ db'.below m.businessId, db.Known business → ∀ key ∈ db'.conveys m.roleId,
        key ∈ db.resolve m.principalId business ∨ key ∈ authority business) :
    db.Hands db' authority := by
  intro principal business key known now unheld
  obtain ⟨m, member, rfl, covers, open_, conveyed⟩ := (mem_resolve inv'.catalogued).mp now
  exact (each m member open_ business covers known key conveyed).resolve_left unheld

omit inv in
/-- Where a call gives the keys of some memberships to their holders in an area of each, and nothing
else. -/
theorem hands_iff (gainers : List Membership) (counts : Membership → Prop)
    (area : Membership → List UUID) (keys : Membership → List String) (inv' : db'.GrantInv)
    (each : ∀ m ∈ db'.memberships, db'.unarchived m.businessId = true →
      ∀ business ∈ db'.below m.businessId, db.Known business → ∀ key ∈ db'.conveys m.roleId,
        key ∈ db.resolve m.principalId business ∨ m ∈ gainers ∧ counts m ∧ business ∈ area m ∧
          key ∈ keys m) (gained : ∀ m ∈ gainers, counts m → ∀ business ∈ area m, ∀ key ∈ keys m,
      db.Known business ∧ key ∈ db'.resolve m.principalId business) :
    db.Hands db' authority ↔ ∀ m ∈ gainers, counts m → ∀ business ∈ area m, ∀ key ∈ keys m,
      key ∈ db.resolve m.principalId business ∨ key ∈ authority business := by
  constructor
  · intro hands m gains counted business covers key new
    by_cases held : key ∈ db.resolve m.principalId business
    · exact .inl held
    · obtain ⟨known, now⟩ := gained m gains counted business covers key new
      exact .inr (hands m.principalId business key known now held)
  · intro covered
    refine hands_of_memberships inv' fun m member open_ business covers known key conveyed => ?_
    rcases each m member open_ business covers known key conveyed with held | ⟨gains, counted,
      reached, new⟩
    · exact .inl held
    · exact covered m gains counted business reached key new

theorem createRole_hands {newId : UUID} {permissions : List String}
    (call : db.createRole actor business newId key name permissions = .ok db') :
    db.Hands db' authority := by
  have inv' := inv.createRole call
  obtain ⟨b, clean, -, -, -, fresh, rfl⟩ := createRole_ok call
  refine hands_of_memberships inv' fun m member open_ d covers known k conveyed => ?_
  rw [conveys_createRole inv fresh member] at conveyed
  exact .inl (inv.held member open_ covers conveyed)

theorem updateRole_hands_iff {role : UUID} {name : Option String}
    {permissions : Option (List String)}
    (call : db.updateRole actor business role name permissions = .ok db') :
    db.Hands db' authority ↔ ∀ m ∈ db.memberships, m.roleId = role →
      db.unarchived m.businessId = true → ∀ b ∈ db.below m.businessId,
        ∀ key ∈ GrantState.requestedKeys permissions,
          key ∈ db.resolve m.principalId b ∨ key ∈ authority b := by
  have inv' := inv.updateRole call
  obtain ⟨b, roles, -, -, custom, renames, written⟩ := updateRole_ok call
  have unlocked := custom_unlocked inv custom
  rcases written with ⟨rfl, rfl⟩ | ⟨requested, clean, rfl, granted, rfl⟩
  · refine iff_of_true (hands_of_memberships inv' fun m member open_ d covers known k conveyed => ?_)
      (by simp [GrantState.requestedKeys])
    rw [conveys_renamed renames] at conveyed
    exact .inl (inv.held member open_ covers conveyed)
  have isClean (key : String) : key ∈ GrantState.requestedKeys (some requested) ↔ key ∈ clean := by
    rw [mem_clean granted]
    simp [GrantState.requestedKeys, and_comm]
  simp only [isClean]
  refine (hands_iff db.memberships (fun m => m.roleId = role ∧ db.unarchived m.businessId = true)
    (fun m => db.below m.businessId) (fun _ => clean) inv' ?_ ?_).trans (by simp only [and_imp])
  · intro m member open_ d covers known k conveyed
    rw [conveys_set renames unlocked] at conveyed
    split at conveyed
    next isRole => exact .inr ⟨member, ⟨isRole, open_⟩, covers, conveyed⟩
    next => exact .inl (inv.held member open_ covers conveyed)
  · rintro m member ⟨isRole, open_⟩ d covers k new
    refine ⟨known_of_below inv covers, inv'.held member open_ covers ?_⟩
    rw [conveys_set renames unlocked, if_pos isRole]
    exact new

theorem changeMemberRole_hands {target role : UUID}
    (call : db.changeMemberRole actor business target role = .ok db') :
    db.Hands db' (db.resolve actor) := by
  have inv' := inv.changeMemberRole call
  obtain ⟨b, newRole, current, -, -, assignable, -, ⟨-, rfl⟩ | ⟨guarded, -, update⟩⟩ :=
    changeMemberRole_ok call
  · exact fun _ _ _ _ now unheld => absurd now unheld
  obtain ⟨row, rfl⟩ := roleInTenant?_some assignable
  obtain ⟨-, rfl⟩ := updateMembershipRole_ok update
  refine hands_of_memberships inv' fun m member open_ d covers known k conveyed => ?_
  obtain ⟨old, old_mem, ⟨chosen, rfl⟩ | ⟨-, rfl⟩⟩ := updated_or_kept member
  · -- The actor has what the role conveys at the business, and so below it.
    simp only [Bool.and_eq_true, beq_iff_eq] at chosen
    have held := guardEscalation_ok inv row guarded conveyed
    exact .inr (resolve_below inv (chosen.2 ▸ covers) held)
  · exact .inl (inv.held old_mem open_ covers conveyed)

theorem transferOwnership_hands {target : UUID}
    (call : db.transferOwnership actor business target = .ok db') :
    db.Hands db' (db.resolve actor) := by
  have inv' := inv.transferOwnership call
  obtain ⟨b, owner, admin, promoted, -, -, -, owns, -, -, -, first, second⟩ :=
    transferOwnership_ok call
  obtain ⟨-, rfl⟩ := updateMembershipRole_ok first
  obtain ⟨-, rfl⟩ := updateMembershipRole_ok second
  refine hands_of_memberships inv' fun m member open_ d covers known k conveyed => ?_
  have changed (at_ : m.businessId = business) : k ∈ db.resolve actor d := by
    refine resolve_below inv (at_ ▸ covers) ?_
    rw [catalog_of_owner owns]
    exact mem_catalog_of_conveys inv.catalogued conveyed
  obtain ⟨mid, mid_mem, ⟨stepped, rfl⟩ | ⟨-, rfl⟩⟩ := updated_or_kept member
  · simp only [Bool.and_eq_true, beq_iff_eq] at stepped
    exact .inr (changed stepped.2)
  · obtain ⟨old, old_mem, ⟨promoted, rfl⟩ | ⟨-, rfl⟩⟩ := updated_or_kept mid_mem
    · simp only [Bool.and_eq_true, beq_iff_eq] at promoted
      exact .inr (changed promoted.2)
    · exact .inl (inv.held old_mem open_ covers conveyed)

theorem accept_hands_iff {service : InvitationService} {principal membership : UUID}
    {token : String} {status : AcceptStatus}
    (call : db.accept service principal token membership now = .ok (status, db')) :
    db.Hands db' authority ↔ (status = .ok →
      ∀ invitation ∈ db.invitation? (service.hashToken (trimSpace token)),
        db.membershipAt principal invitation.businessId = none →
        ∀ b ∈ db.below invitation.businessId, ∀ key ∈ db.conveys invitation.roleId,
          key ∈ db.resolve principal b ∨ key ∈ authority b) := by
  have inv' := inv.accept call
  have still (same : db'.resolve = db.resolve) : db.Hands db' authority :=
    fun p d k _ now unheld => absurd (same ▸ now) unheld
  rcases accept_ok call with ⟨other, rfl⟩ | ⟨accepted, invitation, b, found, business, active, written⟩
  · exact iff_of_true (still rfl) fun accepted => absurd accepted other
  rw [found]
  simp only [accepted, forall_const, Option.mem_def, Option.some.injEq, forall_eq']
  rcases written with ⟨member, rfl⟩ | inserted
  · refine iff_of_true (still rfl) fun absent => ?_
    rw [absent] at member
    cases member
  have absent : db.membershipAt principal invitation.businessId = none :=
    (insertMembership_ok inserted).2.1
  obtain ⟨-, -, -, -, rfl⟩ := insertMembership_ok inserted
  have open_ : db.unarchived invitation.businessId = true := by
    obtain ⟨row, isId⟩ := business?_some business
    exact unarchived_iff.mpr ⟨b, row, isId, active⟩
  simp only [absent, forall_const]
  refine (hands_iff [invitation.membership membership principal] (fun _ => True)
    (fun m => db.below m.businessId)
    (fun m => db.conveys m.roleId) inv' ?_ ?_).trans (by simp [Invitation.membership])
  · intro m member open_ d covers known k conveyed
    rcases mem_inserted.mp member with old | rfl
    · exact .inl (inv.held old open_ covers conveyed)
    · exact .inr ⟨List.mem_singleton_self _, trivial, covers, conveyed⟩
  · intro m isNew _ d covers k conveyed
    obtain rfl := List.mem_singleton.mp isNew
    refine ⟨known_of_below inv covers, ?_⟩
    exact inv'.held List.mem_concat_self open_ covers conveyed

theorem archive_hands (node : UUID) (now : Timestamp) :
    db.Hands (db.setSubtreeStatus node .archived now) authority := by
  refine hands_of_memberships (inv.status node .archived now)
    fun m member open_ d covers known k conveyed => ?_
  exact .inl (inv.held member (unarchived_archive open_) covers conveyed)

theorem restore_hands_iff (node : UUID) (now : Timestamp) :
    db.Hands (db.setSubtreeStatus node .active now) authority ↔ ∀ m ∈ db.memberships,
      m.businessId ∈ db.below node →
      (∃ b ∈ db.businesses, b.id = m.businessId ∧ b.status = .archived ∧ b.deletedAt = none) →
      ∀ b ∈ db.below m.businessId, ∀ key ∈ db.conveys m.roleId,
        key ∈ db.resolve m.principalId b ∨ key ∈ authority b := by
  have inv' := inv.status node .active now
  refine (hands_iff db.memberships (fun m => m.businessId ∈ db.below node ∧
      ∃ b ∈ db.businesses, b.id = m.businessId ∧ b.status = .archived ∧ b.deletedAt = none)
    (fun m => db.below m.businessId) (fun m => db.conveys m.roleId) inv' ?_ ?_).trans
      (by simp only [and_imp])
  · intro m member open_ d covers known k conveyed
    rcases unarchived_restore.mp open_ with was | restored
    · exact .inl (inv.held member was covers conveyed)
    · exact .inr ⟨member, restored, covers, conveyed⟩
  · intro m member restored d covers k conveyed
    exact ⟨known_of_below inv covers,
      inv'.held member (unarchived_restore.mpr (.inr restored)) covers conveyed⟩

theorem move_hands_iff {node newParent : UUID} (call : db.move actor node newParent now = .ok db') :
    db.Hands db' authority ↔ ∀ m ∈ db.memberships, db.unarchived m.businessId = true →
      newParent ∈ db.below m.businessId → ∀ b ∈ db.below node, ∀ key ∈ db.conveys m.roleId,
        key ∈ db.resolve m.principalId b ∨ key ∈ authority b := by
  have inv' := inv.move call
  obtain ⟨b, parent, visible, visibleParent, checked, moved⟩ := move_ok call
  obtain ⟨rfl, known, -⟩ := loadVisible_ok inv.hierarchy visible
  obtain ⟨rfl, knownParent, -⟩ := loadVisible_ok inv.hierarchy visibleParent
  have rooted := moveBusiness_tenant inv.hierarchy moved known knownParent
  have outside := (checkMove_fits inv.hierarchy checked knownParent rooted.2).outside
  have lower (a d : UUID) := mem_below_moved (a := a) (d := d) inv moved known knownParent outside
  obtain ⟨-, -, made⟩ := moveBusiness_ok moved
  have memberships : db'.memberships = db.memberships := by rw [made]
  have conveys (role : UUID) : db'.conveys role = db.conveys role := by rw [made]; rfl
  have open_ (id : UUID) : db'.unarchived id = db.unarchived id := by
    rw [made]
    exact any_updateWhere _ fun _ _ => rfl
  refine (hands_iff db.memberships
    (fun m => db.unarchived m.businessId = true ∧ parent.id ∈ db.below m.businessId)
      (fun _ => db.below b.id)
    (fun m => db.conveys m.roleId) inv' ?_ ?_).trans (by simp only [and_imp])
  · intro m member isOpen d covers _ k conveyed
    rw [memberships] at member
    rw [open_] at isOpen
    rw [conveys] at conveyed
    rcases (lower _ _).mp covers with ⟨was, -⟩ | ⟨upper, inside⟩
    · exact .inl (inv.held member isOpen was conveyed)
    · exact .inr ⟨member, ⟨isOpen, upper⟩, inside, conveyed⟩
  · rintro m member ⟨isOpen, upper⟩ d inside k conveyed
    refine ⟨known_of_below inv inside, inv'.held (memberships ▸ member) (open_ _ ▸ isOpen) ?_
      (conveys _ ▸ conveyed)⟩
    exact (lower _ _).mpr (.inr ⟨upper, inside⟩)

theorem createMaster_hands {creator id membership : UUID}
    (call : db.createMaster creator id membership name now = .ok db') : db.Hands db' authority := by
  have inv' := inv.createMaster call
  obtain ⟨owner, -, fresh, rfl⟩ := createMaster_ok call
  refine fun p d k known now unheld => absurd (resolve_of_added inv inv' fresh rfl rfl ?_ rfl
    (fun _ => rfl) ?_ known now) unheld
  all_goals simp

theorem createSub_hands {parent child : UUID}
    (call : db.createSub actor parent child name now = .ok db') : db.Hands db' authority := by
  have inv' := inv.createSub call
  obtain ⟨b, -, -, written⟩ := createSub_ok call
  obtain ⟨fresh, -, rfl⟩ := writeSub_ok written
  refine fun p d k known now unheld => absurd (resolve_of_added inv inv' fresh rfl
    (List.append_assoc ..) (fun c row => ?_) (List.append_nil _).symm (fun _ => rfl) (by simp) known
    now) unheld
  rcases List.mem_append.mp row with self | lower
  · rw [List.mem_singleton.mp self]
  · obtain ⟨upper, -, -, rfl⟩ := mem_childPaths.mp lower
    rfl

end Tenants

namespace GrantState

variable {service : InvitationService} {s : GrantState}

theorem hands_iff_restrained (inv : s.db.GrantInv) (action : GrantAction) {db' : Tenants}
    (call : action.call service s.db = .ok db') :
    s.db.Hands db' (s.authority service action) ↔ s.Restrained service action := by
  have accepted : (action.call service s.db).isOk = true := by rw [call]; rfl
  unfold Restrained
  rw [imp_iff_right accepted]
  cases action with
  | createMaster creator id membership name now =>
    exact iff_of_true (createMaster_hands inv call) trivial
  | createSub actor parent child name now =>
    exact iff_of_true (createSub_hands inv call) trivial
  | move actor node newParent now => exact move_hands_iff inv call
  | archive actor node now =>
    obtain rfl := changeStatus_ok call
    exact iff_of_true (archive_hands inv node now) trivial
  | restore actor node now =>
    obtain rfl := changeStatus_ok call
    have archived (id : UUID) : s.restorable id = true ↔
        ∃ b ∈ s.db.businesses, b.id = id ∧ b.status = .archived ∧ b.deletedAt = none := by
      simp [restorable, and_assoc]
    simp only [archived]
    exact restore_hands_iff inv node now
  | createRole actor business newId key name permissions =>
    unfold GrantAction.call at call
    exact iff_of_true (createRole_hands inv call) trivial
  | updateRole actor business role name permissions => exact updateRole_hands_iff inv call
  | changeMemberRole actor business target role =>
    exact iff_of_true (changeMemberRole_hands inv call) trivial
  | transferOwnership actor business target =>
    exact iff_of_true (transferOwnership_hands inv call) trivial
  | createInvitation | revokeInvitation | resendInvitation =>
    obtain ⟨invitations, rfl⟩ := GrantAction.call_invitations rfl call
    refine iff_of_true (fun p d k _ now unheld => ?_) trivial
    exact absurd now unheld
  | accept principal token membership now =>
    obtain ⟨status, done⟩ := GrantAction.accept_call call
    simp only [accept_status_iff done]
    exact accept_hands_iff inv done

/-- A call hands on nothing new exactly when it is restrained. -/
theorem noEscalation_iff (inv : s.db.GrantInv) (action : GrantAction) :
    s.NoEscalation service action ↔ s.Restrained service action := by
  unfold NoEscalation next
  split
  next db' call => exact hands_iff_restrained inv action call
  next refused =>
  refine iff_of_true (fun _ _ _ _ now unheld => absurd now unheld) fun accepted => ?_
  rw [refused] at accepted
  cases accepted

end GrantState

open GrantState

/-- Along a run, no call hands on more than its actor has exactly when every call meets the
condition. -/
theorem no_escalation_iff (service : InvitationService) {s : GrantState} (start : s.db.GrantInv)
    (actions : List GrantAction) :
    Along (next service) (NoEscalation service) s actions ↔
      Along (next service) (Restrained service) s actions :=
  Along.congr (fun _ action inv => keeps service inv action)
    (fun _ action inv => noEscalation_iff inv action) start

namespace Sample

/-- Three accounts, before the first business. -/
def staff : GrantState where
  db := { Seeds.tables with
    principals := [⟨20, .human 30⟩, ⟨21, .human 31⟩, ⟨22, .human 32⟩]
    accounts := [⟨30, "ada@acme.test", some 0, .active, none⟩,
      ⟨31, "bob@acme.test", some 0, .active, none⟩, ⟨32, "cy@acme.test", some 0, .active, none⟩] }
  issued := []

def mailed : InvitationService where
  hashToken := id
  timeToLive := 0

theorem staff_inv : staff.db.GrantInv where
  hierarchy := .of_empty rfl rfl rfl
  roleIds := by decide +kernel
  presets := by decide +kernel
  roles := by decide
  catalogued := by decide +kernel

/-- Principal 20 sets up a tenant: 21 becomes Admin of one of two sub-businesses, 22 gets a custom
role at the master business. -/
def setUp : List GrantAction :=
  [.createMaster 20 10 40 "Acme" 0, .createSub 20 10 11 "East" 1, .createSub 20 10 12 "West" 2,
    .createRole 20 10 50 "responder" "Responder" ["tickets.reply"],
    .createInvitation 20 11 Seeds.admin 60 "bob@acme.test" "b" 3, .accept 21 "b" 41 4,
    .createInvitation 20 10 50 61 "cy@acme.test" "c" 5, .accept 22 " c " 42 6]

/-- What the Owner does with the role and with the hierarchy stays within what the Owner has. -/
theorem no_escalation_setUp :
    Along (next mailed) (NoEscalation mailed) staff
      (setUp ++ [.updateRole 20 10 50 none (some ["tickets.reply", "tickets.delete"]),
        .move 20 12 11 7, .archive 20 11 8, .restore 20 11 9, .changeMemberRole 20 10 22 Seeds.viewer]) :=
  (no_escalation_iff mailed staff_inv _).mpr (by decide +kernel)

def established : GrantState := setUp.foldl (next mailed) staff

/-- The Admin of a sub-business edits the role there. -/
def edit : GrantAction := .updateRole 21 11 50 none (some ["tickets.reply", "tickets.delete"])

/-- The holder of the role may now delete tickets at the master business, where the Admin has no
permission at all. -/
theorem role_edit_escalates :
    staff.db.GrantInv ∧ established.db.resolve 21 10 = [] ∧
      established.db.resolve 22 10 = ["tickets.reply"] ∧
      (established.next mailed edit).db.resolve 22 10 = ["tickets.reply", "tickets.delete"] ∧
      ¬ established.NoEscalation mailed edit := by
  have facts : established.db.resolve 21 10 = [] ∧
      established.db.resolve 22 10 = ["tickets.reply"] ∧
      (established.next mailed edit).db.resolve 22 10 = ["tickets.reply", "tickets.delete"] ∧
      ∃ b ∈ established.db.businesses, b.id = 10 := by
    decide +kernel
  obtain ⟨editor, before, after, known⟩ := facts
  refine ⟨staff_inv, editor, before, after, fun safe => ?_⟩
  have handed : "tickets.delete" ∈ established.db.resolve 21 10 :=
    safe 22 10 "tickets.delete" known (by rw [after]; decide) (by rw [before]; decide)
  rw [editor] at handed
  cases handed

end Sample

end Manyforge.Tenancy
