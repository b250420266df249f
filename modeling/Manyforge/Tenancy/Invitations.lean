import Manyforge.Tenancy.Accounts

/-!
# Invitations

An invitation offers a role at a business to whoever has its email address. `Create` looks at the
inviter's permissions, `accept_invitation` only at the invitation: what the role conveys, and what
the inviter still holds, may have changed between the two.
-/
namespace Manyforge.Tenancy

open Table Calls

/-- `invitations.Service`. -/
structure InvitationService where
  /-- `auth.HashToken`. -/
  hashToken : String → String
  timeToLive : Int

def InvitationService.ttl (service : InvitationService) : Int :=
  if service.timeToLive ≤ 0 then 7 * 24 * 60 * 60 * 1000000 else service.timeToLive

/-- `AcceptResult.Status`. -/
inductive AcceptStatus where
  | ok | gone | emailMismatch | unverified
  deriving DecidableEq

def Invitation.membership (inv : Invitation) (id principal : UUID) : Membership :=
  ⟨id, principal, inv.businessId, inv.tenantRootId, inv.roleId, inv.createdBy⟩

namespace Tenants

variable (db : Tenants) (service : InvitationService)

/-- `CreateInvitation`, with the keys of the table. -/
def insertInvitation (inv : Invitation) : Except Refusal Tenants :=
  if (db.role? inv.roleId).isSome &&
      (db.businesses.any fun b => b.id == inv.businessId && b.tenantRootId == inv.tenantRootId) &&
      !(db.invitations.any fun other => other.id == inv.id || other.tokenHash == inv.tokenHash)
  then .ok { db with invitations := db.invitations ++ [inv] }
  else .error .raised

/-- `Create`; `raw` is the random token. -/
def createInvitation (inviter business role id : UUID) (email raw : String) (now : Timestamp) :
    Except Refusal Tenants := do
  if trimSpace email == "" || !(trimSpace email).toList.contains '@' then throw .validation
  let b ← db.loadVisible inviter business
  db.requirePerm inviter business "members.manage"
  if (db.roleInTenant? role b.tenantRootId).isNone then throw .conflict
  if !(db.permissionsOf role).all (db.resolve inviter business).contains then throw .conflict
  db.insertInvitation ⟨id, business, b.tenantRootId, trimSpace email, role, service.hashToken raw,
    .pending, some inviter, now + service.ttl⟩

def requireManage (principal business : UUID) : Except Refusal Unit := do
  let _ ← db.loadVisible principal business
  db.requirePerm principal business "members.manage"

def isPending (business id : UUID) (inv : Invitation) : Bool :=
  inv.id == id && inv.businessId == business && inv.status == .pending

def changePending (business id : UUID) (change : Invitation → Invitation) : Tenants :=
  let invitations := updateWhere (isPending business id) change db.invitations
  { db with invitations }

/-- `Revoke`. -/
def revokeInvitation (principal business id : UUID) : Except Refusal Tenants := do
  db.requireManage principal business
  if !db.invitations.any (isPending business id) then throw .notFound
  return db.changePending business id fun inv => { inv with status := .revoked }

/-- `Resend`. -/
def resendInvitation (principal business id : UUID) (raw : String) (now : Timestamp) :
    Except Refusal Tenants := do
  db.requireManage principal business
  if !db.invitations.any (isPending business id) then throw .notFound
  let rotated := db.changePending business id fun inv =>
    { inv with tokenHash := service.hashToken raw, expiresAt := now + service.ttl }
  if !decide (UniqueOn (·.tokenHash) rotated.invitations) then throw .raised
  return rotated

/-- The invitation that a token belongs to. -/
def invitation? (tokenHash : String) : Option Invitation :=
  db.invitations.find? (·.tokenHash == tokenHash)

def redeemed (inv : Invitation) : Tenants :=
  let invitations := updateWhere (fun other => other.id == inv.id && other.status == .pending)
    (fun other => { other with status := .accepted }) db.invitations
  { db with invitations }

def acceptInvitation (tokenHash : String) (principal : UUID) (email : String) (membership : UUID)
    (now : Timestamp) : Except Refusal (AcceptStatus × Tenants) :=
  match db.invitation? tokenHash with
  | none => .ok (.gone, db)
  | some inv =>
    if inv.email != email then .ok (.emailMismatch, db)
    else if inv.status != .pending || decide (inv.expiresAt ≤ now) then .ok (.gone, db)
    else match db.business? inv.businessId with
      | none => .ok (.gone, db)
      | some b =>
        if b.deletedAt.isSome || b.status == .archived then .ok (.gone, db)
        -- The row triggers come before `ON CONFLICT DO NOTHING`.
        else if !db.membershipGuards (inv.membership membership principal) then .error .raised
        else if (db.membershipAt principal inv.businessId).isSome then .ok (.ok, db.redeemed inv)
        else do
          let db ← (db.redeemed inv).insertMembership (inv.membership membership principal)
          -- `Accept` runs without a principal.
          let db ← db.commitTenant none inv.tenantRootId
          return (.ok, db)

def accept (principal : UUID) (token : String) (membership : UUID) (now : Timestamp) :
    Except Refusal (AcceptStatus × Tenants) :=
  if trimSpace token == "" then .error .validation
  else match db.accountOf principal with
    | none => .error .notFound
    | some a =>
      if a.emailVerifiedAt.isNone then .ok (.unverified, db)
      else db.acceptInvitation (service.hashToken (trimSpace token)) principal a.email membership now

/-! ### What the calls do -/

variable {db service} {db' : Tenants}

theorem insertInvitation_ok {inv : Invitation} (call : db.insertInvitation inv = .ok db') :
    (∀ other ∈ db.invitations, other.id ≠ inv.id) ∧
      db' = { db with invitations := db.invitations ++ [inv] } := by
  unfold insertInvitation at call
  split at call
  next holds =>
    simp only [Bool.and_eq_true, Bool.not_eq_true', List.any_eq_false, Bool.or_eq_true,
      beq_iff_eq] at holds
    exact ⟨fun other row same => holds.2 other row (.inl same), (Except.ok.inj call).symm⟩
  next => cases call

variable {now : Timestamp}

theorem createInvitation_ok {inviter business role id : UUID} {email raw : String}
    (call : db.createInvitation service inviter business role id email raw now = .ok db') :
    ∃ b inv, db.loadVisible inviter business = .ok b ∧
      db.requirePerm inviter business "members.manage" = .ok () ∧
      (∀ key ∈ db.permissionsOf role, key ∈ db.resolve inviter business) ∧
      (inv.id = id ∧ inv.businessId = business ∧ inv.roleId = role ∧ inv.createdBy = some inviter) ∧
      (∀ other ∈ db.invitations, other.id ≠ id) ∧
      db' = { db with invitations := db.invitations ++ [inv] } := by
  simp only [createInvitation, ↓guard_ok, bind_ok] at call
  obtain ⟨-, b, visible, _, allowed, -, within, call⟩ := call
  obtain ⟨fresh, made⟩ := insertInvitation_ok call
  refine ⟨b, _, visible, allowed, ?_, ⟨rfl, rfl, rfl, rfl⟩, fresh, made⟩
  simpa using within

theorem revokeInvitation_ok {principal business id : UUID}
    (call : db.revokeInvitation principal business id = .ok db') :
    db' = db.changePending business id fun inv => { inv with status := .revoked } := by
  simp only [revokeInvitation, ↓guard_ok, bind_ok, pure_ok] at call
  obtain ⟨_, -, -, made⟩ := call
  exact made.symm

theorem resendInvitation_ok {principal business id : UUID} {raw : String}
    (call : db.resendInvitation service principal business id raw now = .ok db') :
    db' = db.changePending business id fun inv =>
      { inv with tokenHash := service.hashToken raw, expiresAt := now + service.ttl } := by
  simp only [resendInvitation, ↓guard_ok, bind_ok, pure_ok] at call
  obtain ⟨_, -, -, -, made⟩ := call
  exact made.symm

theorem accept_ok {principal membership : UUID} {token : String} {status : AcceptStatus}
    (call : db.accept service principal token membership now = .ok (status, db')) :
    status ≠ .ok ∧ db' = db ∨
      status = .ok ∧ ∃ inv b, db.invitation? (service.hashToken (trimSpace token)) = some inv ∧
        db.business? inv.businessId = some b ∧ b.status = .active ∧
        ((db.membershipAt principal inv.businessId).isSome = true ∧ db' = db.redeemed inv ∨
          (db.redeemed inv).insertMembership (inv.membership membership principal) = .ok db') := by
  have unchanged {outcome : AcceptStatus}
      (same : (Except.ok (outcome, db) : Except Refusal _) = .ok (status, db'))
      (other : outcome ≠ .ok) : status ≠ .ok ∧ db' = db := by
    obtain ⟨rfl, rfl⟩ := Prod.mk.inj (Except.ok.inj same)
    exact ⟨other, rfl⟩
  unfold accept at call
  split at call
  · cases call
  split at call
  · cases call
  split at call
  · exact .inl (unchanged call nofun)
  unfold acceptInvitation at call
  split at call
  · exact .inl (unchanged call nofun)
  next inv found =>
  split at call
  · exact .inl (unchanged call nofun)
  split at call
  · exact .inl (unchanged call nofun)
  split at call
  · exact .inl (unchanged call nofun)
  next b business =>
  split at call
  · exact .inl (unchanged call nofun)
  next open_ =>
  have active : b.status = .active := by
    cases isStatus : b.status with
    | active => rfl
    | archived => simp [isStatus] at open_
  right
  split at call
  · cases call
  split at call
  next member =>
    obtain ⟨rfl, rfl⟩ := Prod.mk.inj (Except.ok.inj call)
    exact ⟨rfl, inv, b, found, business, active, .inl ⟨member, rfl⟩⟩
  simp only [bind_ok] at call
  obtain ⟨written, inserted, committed, commit, call⟩ := call
  obtain rfl := commitTenant_ok commit
  obtain ⟨rfl, rfl⟩ := Prod.mk.inj (Except.ok.inj call)
  exact ⟨rfl, inv, b, found, business, active, .inr inserted⟩

theorem accept_status_iff {principal membership : UUID} {token : String} {status : AcceptStatus}
    (call : db.accept service principal token membership now = .ok (status, db')) :
    (db.accept service principal token membership now).map Prod.fst = .ok .ok ↔ status = .ok := by
  rw [call]
  exact ⟨Except.ok.inj, fun same => congrArg Except.ok same⟩

end Tenants

end Manyforge.Tenancy
