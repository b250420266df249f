import Manyforge.Tenancy.Members

/-!
# Accounts

The account of a human principal, and the two writes that close it.
-/
namespace Manyforge.Tenancy

open Table

inductive AccountOp where
  | deactivate | delete
  deriving DecidableEq

namespace Tenants

variable (db : Tenants) (principal : UUID)

/-- `GetAccountByPrincipal`. -/
def accountOf : Option Account :=
  match db.kind? principal with
  | some (.human account) => db.accounts.find? fun a => a.id == account && a.deletedAt.isNone
  | _ => none

/-- `ListOwnerRootMembershipsForPrincipal`. -/
def ownerRoots : List UUID :=
  (db.memberships.filter fun m => m.principalId == principal && m.businessId == m.tenantRootId &&
    db.lockedRole m.roleId).map (·.tenantRootId)

/-- `guardNotLastOwner`, with no other transaction between its statements. -/
def guardNotLastOwner : Except Refusal Unit :=
  if (db.ownerRoots principal).any fun root => decide (db.countDirectOwners root ≤ 1)
  then .error .conflict else .ok ()

/-- `DeactivateAccount` and `SoftDeleteAccount`. -/
def writeAccount (id : UUID) (op : AccountOp) (now : Timestamp) : Tenants :=
  let change (a : Account) : Account :=
    match op with
    | .deactivate => { a with status := .deactivated }
    | .delete => { a with status := .deactivated, deletedAt := some now }
  { db with accounts := updateWhere (fun a => a.id == id && a.deletedAt.isNone) change db.accounts }

def accountId? : Option UUID :=
  match db.kind? principal with
  | some (.human account) => some account
  | _ => none

/-- The account of the principal is neither deactivated nor deleted. -/
def activeAccount : Bool :=
  match db.accountId? principal with
  | some id => db.accounts.any fun a => a.id == id && a.status == .active && a.deletedAt.isNone
  | none => false

variable {db}

theorem accountId?_some {principal account : UUID} (found : db.accountId? principal = some account) :
    ∃ p ∈ db.principals, p.id = principal ∧ p.kind = .human account := by
  unfold accountId? at found
  split at found
  next account' kind =>
    obtain ⟨p, row, isHuman⟩ := Option.map_eq_some_iff.mp kind
    obtain rfl := Option.some.inj found
    exact ⟨p, List.mem_of_find?_eq_some row, by simpa using List.find?_some row, isHuman⟩
  next => cases found

theorem accountId?_of_mem (unique : UniqueOn (·.id) db.principals) {p : Principal} {account : UUID}
    (row : p ∈ db.principals) (kind : p.kind = .human account) :
    db.accountId? p.id = some account := by
  unfold accountId? kind? principal?
  rw [unique.find?_key row, Option.map_some, kind]

theorem accountOf_some {principal : UUID} {a : Account} (found : db.accountOf principal = some a) :
    db.accountId? principal = some a.id ∧ a ∈ db.accounts ∧ a.deletedAt = none := by
  unfold accountOf at found
  split at found
  next account kind =>
    have chosen := List.find?_some found
    simp only [Bool.and_eq_true, beq_iff_eq, Option.isNone_iff_eq_none] at chosen
    refine ⟨?_, List.mem_of_find?_eq_some found, chosen.2⟩
    simp only [accountId?, kind, chosen.1]
  next => cases found

theorem activeAccount_written {id p : UUID} {op : AccountOp} {now : Timestamp} :
    (db.writeAccount id op now).activeAccount p = true ↔
      db.activeAccount p = true ∧ db.accountId? p ≠ some id := by
  have same : (db.writeAccount id op now).accountId? p = db.accountId? p := rfl
  unfold activeAccount
  rw [same]
  cases db.accountId? p with
  | none => simp
  | some account =>
    simp only [List.any_eq_true, Bool.and_eq_true, beq_iff_eq, Option.isNone_iff_eq_none, ne_eq,
      Option.some.injEq]
    constructor
    · rintro ⟨a', row, ⟨isAccount, active⟩, live⟩
      obtain ⟨a, old, rfl⟩ := mem_updateWhere.mp row
      split at isAccount
      next chosen => cases op <;> simp [chosen] at active
      next kept =>
      rw [if_neg kept] at active live
      refine ⟨⟨a, old, ⟨isAccount, active⟩, live⟩, fun isId => kept ?_⟩
      simp [isAccount, isId, live]
    · rintro ⟨⟨a, old, ⟨isAccount, active⟩, live⟩, other⟩
      refine ⟨a, mem_updateWhere.mpr ⟨a, old, if_neg ?_⟩, ⟨isAccount, active⟩, live⟩
      simp [isAccount, other]

end Tenants

end Manyforge.Tenancy
