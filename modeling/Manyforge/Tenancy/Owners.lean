import Manyforge.Tenancy.Escalation

/-!
# Who makes Owners

An Owner is to be made by an Owner, except the first one of a master business. A change of role asks
for a locked role of the actor, which need not be the Owner role; an invitation asks only for the
permissions that the Owner role lists.
-/
namespace Manyforge.Tenancy

open Table Forest Transition Tenants
open Seeds (owner)

namespace Tenants

variable (db : Tenants) (owner principal business : UUID)

def ownerAt : Bool :=
  db.memberships.any fun m => m.principalId == principal && m.businessId == business &&
    m.roleId == owner

/-- The role at the business, or at one above it that is not archived. -/
def holdsOwner : Bool :=
  db.memberships.any fun m => m.principalId == principal && m.roleId == owner &&
    (m.businessId == business ||
      (db.unarchived m.businessId && (db.below m.businessId).contains business))

/-- Of the locked roles that count at the business, the principal has none but Owner. -/
def locksOnly : Bool :=
  (db.grants principal business).all fun m => !db.lockedRole m.roleId || m.roleId == owner

end Tenants

/-- The creation of a master business, for its creator. -/
def GrantAction.founds (principal business : UUID) : GrantAction → Bool
  | .createMaster creator id .. => creator == principal && id == business
  | _ => false

namespace GrantState

variable (service : InvitationService) (s : GrantState)

/-- The one who decides on the call is an Owner there: the actor, or the inviter when the invitation
was created. -/
def byOwner (owner : UUID) (action : GrantAction) (business : UUID) : Bool :=
  match action with
  | .accept _ token _ _ =>
    match (s.db.invitation? (service.hashToken (trimSpace token))).bind s.origin with
    | some (inviter, tables) => tables.holdsOwner owner inviter business
    | none => false
  | _ => s.db.holdsOwner owner action.actor business

variable (action : GrantAction)

/-- Every Owner that a call makes is the founder of the master business or made by an Owner. -/
def OwnersByOwners : Prop :=
  ∀ owner ∈ s.db.presetRoleId "owner", ∀ principal business,
    (s.next service action).db.ownerAt owner principal business = true →
    s.db.ownerAt owner principal business = false →
    action.founds principal business = true ∨ s.byOwner service owner action business = true

/-- The condition on the state before a call under which Owners are made by Owners only. -/
def OwnerDecides : Prop :=
  (action.call service s.db).isOk = true → ∀ owner ∈ s.db.presetRoleId "owner",
  match action with
  | .changeMemberRole _ business target role =>
    role = owner → s.db.ownerAt owner target business = false →
      s.byOwner service owner action business = true
  | .transferOwnership _ business target =>
    s.db.ownerAt owner target business = false → s.byOwner service owner action business = true
  | .accept principal token membership now =>
    (s.db.accept service principal token membership now).map Prod.fst = .ok .ok →
      ∀ inv ∈ s.db.invitation? (service.hashToken (trimSpace token)), inv.roleId = owner →
        s.db.membershipAt principal inv.businessId = none →
        s.byOwner service owner action inv.businessId = true
  | _ => True

instance : DecidablePred (s.OwnerDecides service) := fun action => by
  cases action <;> dsimp only [OwnerDecides] <;> infer_instance

/-- A condition for the checks of the code to suffice: the Owner role is locked, the one who decides
has no other locked role, and an invitation to be an Owner comes from somebody with a locked
role. -/
def OwnersAsk : Prop :=
  ∀ owner ∈ s.db.presetRoleId "owner", s.db.lockedRole owner = true ∧
  match action with
  | .changeMemberRole actor business .. | .transferOwnership actor business _ =>
    s.db.locksOnly owner actor business = true
  | .accept _ token .. =>
    ∀ inv ∈ s.db.invitation? (service.hashToken (trimSpace token)), inv.roleId = owner →
      ∃ origin ∈ s.origin inv, origin.2.hasOwnerRole origin.1 inv.businessId = true ∧
        origin.2.locksOnly owner origin.1 inv.businessId = true
  | _ => True

instance : DecidablePred (s.OwnersAsk service) := fun action => by
  cases action <;> dsimp only [OwnersAsk] <;> infer_instance

end GrantState

namespace Tenants

variable {db db' : Tenants} {owner : UUID}

/-! ### The rows of Owners -/

variable {business principal actor at_ target : UUID}

theorem ownerAt_iff : db.ownerAt owner principal business = true ↔
    ∃ m ∈ db.memberships, m.principalId = principal ∧ m.businessId = business ∧ m.roleId = owner := by
  simp [ownerAt, and_assoc]

theorem ownerAt_append {m : Membership} (rows : db'.memberships = db.memberships ++ [m]) :
    db'.ownerAt owner principal business = true ↔ db.ownerAt owner principal business = true ∨
      m.principalId = principal ∧ m.businessId = business ∧ m.roleId = owner := by
  simp only [ownerAt_iff, rows, List.mem_append, List.mem_singleton, or_and_right, exists_or,
    exists_eq_left]

variable {role : UUID}

theorem ownerAt_of_reassign (rows : db'.memberships = reassign target at_ role actor db.memberships)
    (now : db'.ownerAt owner principal business = true) :
    db.ownerAt owner principal business = true ∨
      (principal = target ∧ business = at_) ∧ role = owner := by
  rw [ownerAt_iff, rows] at now
  obtain ⟨m', row, isPrincipal, isBusiness, isOwner⟩ := now
  obtain ⟨m, old, ⟨chosen, rfl⟩ | ⟨-, rfl⟩⟩ := updated_or_kept row
  · simp only [Bool.and_eq_true, beq_iff_eq] at chosen
    exact .inr ⟨⟨isPrincipal.symm.trans chosen.1, isBusiness.symm.trans chosen.2⟩, isOwner⟩
  · exact .inl (ownerAt_iff.mpr ⟨m, old, isPrincipal, isBusiness, isOwner⟩)

theorem role_of_reassigned (rows : db'.memberships = reassign target at_ role actor db.memberships)
    (now : db'.ownerAt owner target at_ = true) : role = owner := by
  rw [ownerAt_iff, rows] at now
  obtain ⟨m', row, isPrincipal, isBusiness, isOwner⟩ := now
  obtain ⟨m, old, ⟨-, rfl⟩ | ⟨kept, rfl⟩⟩ := updated_or_kept row
  · exact isOwner
  · exact absurd (by simp [isPrincipal, isBusiness]) kept

theorem ownerAt_reassigned (member : (db.membershipAt target at_).isSome = true)
    (rows : db'.memberships = reassign target at_ owner actor db.memberships) :
    db'.ownerAt owner target at_ = true := by
  obtain ⟨m, found⟩ := Option.isSome_iff_exists.mp member
  obtain ⟨old, isTarget, isAt⟩ := membershipAt_some found
  rw [ownerAt_iff, rows]
  refine ⟨reassigned m owner actor, mem_updateWhere.mpr ⟨m, old, ?_⟩, isTarget, isAt, rfl⟩
  simp [isTarget, isAt]

theorem ownerAt_reassign_other (other : principal = target → business = at_ → role = owner)
    (rows : db'.memberships = reassign target at_ role actor db.memberships)
    (was : db.ownerAt owner principal business = true) :
    db'.ownerAt owner principal business = true := by
  obtain ⟨m, old, isPrincipal, isBusiness, isOwner⟩ := ownerAt_iff.mp was
  rw [ownerAt_iff, rows]
  refine ⟨_, mem_updateWhere.mpr ⟨m, old, rfl⟩, ?_⟩
  split
  next chosen =>
    simp only [Bool.and_eq_true, beq_iff_eq, isPrincipal, isBusiness] at chosen
    exact ⟨isPrincipal, isBusiness, other chosen.1 chosen.2⟩
  next => exact ⟨isPrincipal, isBusiness, isOwner⟩

/-! ### What each call makes -/

/-- Every Owner that a change of the tables makes is one that the decision allows. -/
def OwnersMade (db db' : Tenants) (owner : UUID) (allowed : UUID → UUID → Prop) : Prop :=
  ∀ principal business, db'.ownerAt owner principal business = true →
    db.ownerAt owner principal business = false → allowed principal business

variable {allowed : UUID → UUID → Prop}

theorem ownersMade_of_memberships (same : db'.memberships = db.memberships) :
    db.OwnersMade db' owner allowed := by
  intro principal business now unowned
  rw [ownerAt, same] at now
  rw [ownerAt, now] at unowned
  cases unowned

theorem ownersMade_iff (only : ∀ principal business, db'.ownerAt owner principal business = true →
      db.ownerAt owner principal business = true ∨ principal = target ∧ business = at_)
    (made : db'.ownerAt owner target at_ = true) :
    db.OwnersMade db' owner allowed ↔ (db.ownerAt owner target at_ = false → allowed target at_) := by
  constructor
  · exact fun all unowned => all target at_ made unowned
  · intro one principal business now unowned
    rcases only principal business now with was | ⟨rfl, rfl⟩
    · rw [was] at unowned
      cases unowned
    · exact one unowned

theorem createMaster_owners {creator id membership : UUID} {name : String} {now : Timestamp}
    (call : db.createMaster creator id membership name now = .ok db')
    (owns : db'.ownerAt owner principal business = true)
    (unowned : db.ownerAt owner principal business = false) :
    creator = principal ∧ id = business := by
  obtain ⟨role, -, -, rfl⟩ := createMaster_ok call
  rcases (ownerAt_append rfl).mp owns with was | ⟨isCreator, isId, -⟩
  · rw [was] at unowned
    cases unowned
  · exact ⟨isCreator, isId⟩

theorem changeMemberRole_owners_iff (call : db.changeMemberRole actor business target role = .ok db') :
    db.OwnersMade db' owner allowed ↔
      (role = owner → db.ownerAt owner target business = false → allowed target business) := by
  obtain ⟨b, newRole, current, -, -, -, found, ⟨isRole, rfl⟩ | ⟨-, -, update⟩⟩ :=
    changeMemberRole_ok call
  · refine iff_of_true (ownersMade_of_memberships rfl) fun isOwner unowned => ?_
    obtain ⟨row, isTarget, atBusiness⟩ := membershipAt_some found
    have owns := ownerAt_iff.mpr ⟨current, row, isTarget, atBusiness, isRole.trans isOwner⟩
    rw [owns] at unowned
    cases unowned
  obtain ⟨-, rfl⟩ := updateMembershipRole_ok update
  by_cases isOwner : role = owner
  · subst isOwner
    rw [imp_iff_right rfl]
    refine ownersMade_iff (fun principal b now => ?_) (ownerAt_reassigned (by rw [found]; rfl) rfl)
    exact (ownerAt_of_reassign rfl now).imp_right And.left
  · refine iff_of_true (fun principal b now unowned => ?_) fun same => absurd same isOwner
    rcases ownerAt_of_reassign rfl now with was | ⟨-, same⟩
    · rw [was] at unowned
      cases unowned
    · exact absurd same isOwner

theorem transferOwnership_owners_iff (inv : db.GrantInv) (isOwner : db.presetRoleId "owner" = some owner)
    (call : db.transferOwnership actor business target = .ok db') :
    db.OwnersMade db' owner allowed ↔
      (db.ownerAt owner target business = false → allowed target business) := by
  obtain ⟨b, role, admin, promoted, other, -, -, -, member, isRole, isAdmin, first, second⟩ :=
    transferOwnership_ok call
  obtain rfl : role = owner := Option.some.inj (isRole.symm.trans isOwner)
  have differ : admin ≠ role := presetRoleId_ne inv.roleIds isAdmin isOwner (by decide)
  obtain ⟨-, rfl⟩ := updateMembershipRole_ok first
  obtain ⟨-, rfl⟩ := updateMembershipRole_ok second
  refine ownersMade_iff (fun principal d now => ?_) ?_
  · rcases ownerAt_of_reassign rfl now with promoted | ⟨-, same⟩
    · exact (ownerAt_of_reassign rfl promoted).imp_right And.left
    · exact absurd same differ
  · exact ownerAt_reassign_other (fun same => absurd same other.symm) rfl
      (ownerAt_reassigned member rfl)

theorem accept_owners_iff {service : InvitationService} {membership : UUID} {token : String}
    {now : Timestamp} {status : AcceptStatus}
    (call : db.accept service principal token membership now = .ok (status, db')) :
    db.OwnersMade db' owner allowed ↔ (status = .ok →
      ∀ inv ∈ db.invitation? (service.hashToken (trimSpace token)), inv.roleId = owner →
        db.membershipAt principal inv.businessId = none → allowed principal inv.businessId) := by
  rcases accept_ok call with ⟨other, rfl⟩ | ⟨accepted, invitation, b, found, -, -, written⟩
  · exact iff_of_true (ownersMade_of_memberships rfl) fun accepted => absurd accepted other
  rw [found]
  simp only [accepted, forall_const, Option.mem_def, Option.some.injEq, forall_eq']
  rcases written with ⟨member, rfl⟩ | inserted
  · refine iff_of_true (ownersMade_of_memberships rfl) fun _ absent => ?_
    rw [absent] at member
    cases member
  have absent : db.membershipAt principal invitation.businessId = none :=
    (insertMembership_ok inserted).2.1
  obtain ⟨-, -, -, -, rfl⟩ := insertMembership_ok inserted
  have unowned : db.ownerAt owner principal invitation.businessId = false := by
    by_contra owns
    obtain ⟨m, row, isPrincipal, atBusiness, -⟩ := ownerAt_iff.mp (by simpa using owns)
    refine List.find?_eq_none.mp absent m row ?_
    simp [isPrincipal, atBusiness]
  simp only [absent, forall_const]
  constructor
  · exact fun all isOwner => all principal _ ((ownerAt_append rfl).mpr (.inr ⟨rfl, rfl, isOwner⟩)) unowned
  · intro one p d owns un
    rcases (ownerAt_append rfl).mp owns with was | ⟨rfl, rfl, isOwner⟩
    · have : db.ownerAt owner p d = true := was
      rw [this] at un
      cases un
    · exact one isOwner

theorem holdsOwner_of_hasOwnerRole (locks : db.locksOnly owner actor business = true)
    (has : db.hasOwnerRole actor business = true) : db.holdsOwner owner actor business = true := by
  obtain ⟨m, grant, locked⟩ := List.any_eq_true.mp has
  have isOwner : m.roleId = owner := by
    simpa [show db.lockedRole m.roleId = true from locked] using List.all_eq_true.mp locks m grant
  obtain ⟨member, isActor, covers, open_⟩ := mem_grants_iff.mp grant
  exact List.any_eq_true.mpr ⟨m, member, by simp [isActor, isOwner, open_, covers]⟩

/-- Who gives the Owner role to somebody who does not have it passes the check for a locked role. -/
theorem changeMemberRole_locked (inv : db.GrantInv) (locked : db.lockedRole owner = true)
    (call : db.changeMemberRole actor business target owner = .ok db')
    (unowned : db.ownerAt owner target business = false) : db.hasOwnerRole actor business = true := by
  obtain ⟨b, newRole, current, -, -, assignable, found, ⟨isRole, -⟩ | ⟨escalation, -⟩⟩ :=
    changeMemberRole_ok call
  · obtain ⟨row, isTarget, atBusiness⟩ := membershipAt_some found
    rw [ownerAt_iff.mpr ⟨current, row, isTarget, atBusiness, isRole⟩] at unowned
    cases unowned
  · obtain ⟨row, isNew⟩ := roleInTenant?_some assignable
    obtain ⟨r, isRow, isLocked⟩ := List.any_eq_true.mp locked
    obtain ⟨isId, isLocked⟩ : r.id = owner ∧ r.isLocked = true := by simpa using isLocked
    rw [inv.roleIds.eq_of_key isRow row (isId.trans isNew.symm)] at isLocked
    by_contra refused
    simp [guardEscalation, isLocked, refused] at escalation

end Tenants

namespace GrantState

variable {service : InvitationService} {s : GrantState}

theorem decides_of_ask (inv : s.db.GrantInv) {action : GrantAction}
    (asks : s.OwnersAsk service action) : s.OwnerDecides service action := by
  intro accepted owner isOwner
  obtain ⟨locked, asks⟩ := asks owner isOwner
  obtain ⟨db', call⟩ := Calls.isOk_iff.mp accepted
  cases action with
  | changeMemberRole actor business target role =>
    rintro rfl unowned
    exact holdsOwner_of_hasOwnerRole asks
      (changeMemberRole_locked inv locked call unowned)
  | transferOwnership actor business target =>
    obtain ⟨_, _, _, _, -, -, -, has, -⟩ := transferOwnership_ok call
    exact fun _ => holdsOwner_of_hasOwnerRole asks has
  | accept principal token membership now =>
    intro _ invitation found isRole _
    obtain ⟨⟨inviter, tables⟩, isOrigin, has, locks⟩ := asks invitation found isRole
    simp only [byOwner, Option.mem_def.mp found, Option.bind_some, Option.mem_def.mp isOrigin]
    exact holdsOwner_of_hasOwnerRole locks has
  | _ => trivial

theorem made_iff_decides (inv : s.db.GrantInv) (action : GrantAction) {db' : Tenants}
    (call : action.call service s.db = .ok db') :
    (∀ owner ∈ s.db.presetRoleId "owner", s.db.OwnersMade db' owner fun principal business =>
      action.founds principal business = true ∨ s.byOwner service owner action business = true) ↔
      s.OwnerDecides service action := by
  have accepted : (action.call service s.db).isOk = true := by rw [call]; rfl
  unfold OwnerDecides
  rw [imp_iff_right accepted]
  refine forall_congr' fun owner => forall_congr' fun isOwner => ?_
  have kept (same : db'.memberships = s.db.memberships) :
      s.db.OwnersMade db' owner fun principal business =>
        action.founds principal business = true ∨ s.byOwner service owner action business = true :=
    ownersMade_of_memberships same
  cases action with
  | createMaster creator id membership name now =>
    refine iff_of_true (fun principal business owns unowned => .inl ?_) trivial
    simpa [GrantAction.founds] using createMaster_owners call owns unowned
  | createSub actor parent child name now =>
    obtain ⟨b, -, -, written⟩ := createSub_ok call
    obtain ⟨-, -, rfl⟩ := writeSub_ok written
    exact iff_of_true (kept rfl) trivial
  | move actor node newParent now =>
    obtain ⟨b, parent, -, -, -, moved⟩ := move_ok call
    obtain ⟨-, -, rfl⟩ := moveBusiness_ok moved
    exact iff_of_true (kept rfl) trivial
  | archive actor node now | restore actor node now =>
    obtain rfl := changeStatus_ok call
    exact iff_of_true (kept rfl) trivial
  | createRole actor business newId key name permissions =>
    unfold GrantAction.call at call
    obtain ⟨b, clean, -, -, -, -, rfl⟩ := createRole_ok call
    exact iff_of_true (kept rfl) trivial
  | updateRole actor business role name permissions =>
    obtain ⟨b, roles, -, -, -, -, ⟨-, rfl⟩ | ⟨_, clean, -, -, rfl⟩⟩ := updateRole_ok call
    · exact iff_of_true (kept rfl) trivial
    · exact iff_of_true (kept rfl) trivial
  | changeMemberRole actor business target role =>
    refine (changeMemberRole_owners_iff call).trans ?_
    simp [GrantAction.founds]
  | transferOwnership actor business target =>
    refine (transferOwnership_owners_iff inv isOwner call).trans ?_
    simp [GrantAction.founds]
  | createInvitation | revokeInvitation | resendInvitation =>
    obtain ⟨invitations, rfl⟩ := GrantAction.call_invitations rfl call
    exact iff_of_true (kept rfl) trivial
  | accept principal token membership now =>
    obtain ⟨status, done⟩ := GrantAction.accept_call call
    simp only [accept_status_iff done]
    refine (accept_owners_iff done).trans ?_
    simp [GrantAction.founds]

/-- Owners are made by Owners exactly when an Owner decides. -/
theorem ownersByOwners_iff (inv : s.db.GrantInv) (action : GrantAction) :
    s.OwnersByOwners service action ↔ s.OwnerDecides service action := by
  unfold OwnersByOwners next
  split
  next db' call => exact made_iff_decides inv action call
  next refused =>
  refine iff_of_true (fun _ _ _ _ owns unowned => ?_) fun accepted => ?_
  · rw [owns] at unowned
    cases unowned
  · rw [refused] at accepted
    cases accepted

end GrantState

open GrantState

/-- Along a run, Owners are made by Owners only exactly when every call that makes one is decided by
an Owner. The checks of the calls see to that where nobody has another locked role than Owner and
the invitations to be an Owner come from somebody with a locked role. -/
theorem owners_by_owners_iff (service : InvitationService) {s : GrantState} (start : s.db.GrantInv)
    (actions : List GrantAction) :
    (Along (next service) (OwnersByOwners service) s actions ↔
      Along (next service) (OwnerDecides service) s actions) ∧
    (Along (next service) (OwnersAsk service) s actions →
      Along (next service) (OwnersByOwners service) s actions) := by
  have kept (s : GrantState) (action : GrantAction) (inv : s.db.GrantInv) :
      (s.next service action).db.GrantInv := keeps service inv action
  refine ⟨Along.congr kept (fun _ action inv => ownersByOwners_iff inv action) start, ?_⟩
  refine Along.of_invariant (fun s action inv _ => kept s action inv) (fun s action inv asks => ?_) start
  exact (ownersByOwners_iff inv action).mpr (decides_of_ask inv asks)

namespace Sample

/-- The founder invites a second Owner, hands over a sub-business and transfers the ownership. -/
theorem owners_by_owners_transfer :
    Along (next mailed) (OwnersByOwners mailed) staff
      [.createMaster 20 10 40 "Acme" 0, .createSub 20 10 11 "East" 1,
        .createInvitation 20 11 owner 60 "bob@acme.test" "b" 2, .accept 21 "b" 41 3,
        .createInvitation 20 10 Seeds.viewer 61 "cy@acme.test" "c" 4, .accept 22 "c" 42 5,
        .transferOwnership 20 10 22, .changeMemberRole 22 10 20 owner] :=
  (owners_by_owners_iff mailed staff_inv _).2 (by decide +kernel)

/-- The founder's deputy, whose custom role lists the whole catalog, has invited an Owner. -/
def deputized : GrantState :=
  [GrantAction.createMaster 20 10 40 "Acme" 0, .createRole 20 10 50 "deputy" "Deputy" Seeds.catalog,
    .createInvitation 20 10 50 60 "bob@acme.test" "b" 1, .accept 21 "b" 41 2,
    .createInvitation 21 10 owner 61 "cy@acme.test" "c" 3].foldl (next mailed) staff

/-- The deputy is no Owner, but the invitation makes one. -/
theorem deputy_makes_owner :
    staff.db.GrantInv ∧ deputized.db.hasOwnerRole 21 10 = false ∧
      deputized.db.holdsOwner owner 21 10 = false ∧
      (deputized.next mailed (.accept 22 "c" 42 4)).db.ownerAt owner 22 10 = true ∧
      ¬ deputized.OwnersByOwners mailed (.accept 22 "c" 42 4) := by
  have facts : deputized.db.hasOwnerRole 21 10 = false ∧
      deputized.db.holdsOwner owner 21 10 = false ∧
      (deputized.next mailed (.accept 22 "c" 42 4)).db.ownerAt owner 22 10 = true ∧
      owner ∈ deputized.db.presetRoleId "owner" ∧
      deputized.db.ownerAt owner 22 10 = false ∧
      deputized.byOwner mailed owner (.accept 22 "c" 42 4) 10 = false := by
    decide +kernel
  obtain ⟨unlocked, noOwner, made, preset, before, undecided⟩ := facts
  refine ⟨staff_inv, unlocked, noOwner, made, fun decided => ?_⟩
  rcases decided owner preset 22 10 made before with founded | byOwner
  · cases founded
  · rw [undecided] at byOwner
    cases byOwner

end Sample

end Manyforge.Tenancy
